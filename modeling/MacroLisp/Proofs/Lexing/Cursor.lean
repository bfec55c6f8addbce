/-
  A cursor visits one tiling of its text, whatever is asked of it.

  The tiling of a text is fixed by the text and the rules (`Tiling.Tiles`).
  A cursor stands at a place of it: behind the tokens that it has passed, with
  the others ahead (`Tokenizer.At`).  What it answers to requests, in any
  order, is what a walk along the list of these tokens answers (`Walk`):

  * `At.advance`: one token more is passed;
  * `answer_of_leads`: one request;
  * `run_of_leads`: any requests, one after the other;
  * `Tokenizer.visits_tiling`: the main statement, with what holds for good
    once the end or an error has been answered.
-/
import MacroLisp.Lexing.Tokenizer
import MacroLisp.Proofs.Lexing.Tiles
import Mathlib

namespace MacroLisp

variable {κ : Type} {rules : List (Rule κ)} {source : String}

/-! ## Tokens ahead -/

/-- What a search in a tiling finds: a token, or how the tiling ends. -/
def Ending.found : Ending → Option (Token κ) → Except LexError (Option (Token κ))
  | _, some t => .ok (some t)
  | .covered _, none => .ok none
  | .stuck e, none => .error e

namespace Token

/-- The tokens up to the first that `keep` accepts, that one included; all, if
    there is none. -/
def through (keep : Token κ → Bool) (ts : List (Token κ)) : List (Token κ) :=
  ts.takeWhile (!keep ·) ++ (ts.dropWhile (!keep ·)).take 1

/-- The tokens behind the first that `keep` accepts. -/
def beyond (keep : Token κ → Bool) (ts : List (Token κ)) : List (Token κ) :=
  (ts.dropWhile (!keep ·)).drop 1

theorem through_append_beyond (keep : Token κ → Bool) (ts : List (Token κ)) :
    through keep ts ++ beyond keep ts = ts := by
  rw [through, beyond, List.append_assoc, List.take_append_drop, List.takeWhile_append_dropWhile]

theorem through_of_find?_eq_none {keep : Token κ → Bool} {ts : List (Token κ)}
    (h : ts.find? keep = none) : through keep ts = ts ∧ beyond keep ts = [] := by
  have hall : ∀ t ∈ ts, (!keep t) = true := by simpa using h
  have hdrop : ts.dropWhile (!keep ·) = [] := List.dropWhile_eq_nil_iff.2 hall
  have htake : ts.takeWhile (!keep ·) = ts := List.takeWhile_eq_self_iff.2 hall
  simp [through, beyond, hdrop, htake]

end Token

/-! ## The operations of a cursor -/

namespace Tokenizer

/-- The tiling of what lies ahead of the cursor. -/
def tiling (t : Tokenizer κ) : Tiling κ :=
  .scan t.rules t.rest t.pos

variable {t : Tokenizer κ} {token : Token κ} {ahead : List (Token κ)} {ending : Ending}

theorem peek_of_nil (h : t.tiling = ⟨[], ending⟩) : t.peek = ending.found none := by
  rcases hp : t.peek with e | _ | token
  · rw [tiling, Tiling.scan_of_error hp] at h
    cases h
    rfl
  · rw [tiling, Tiling.scan_of_none hp] at h
    cases h
    rfl
  · rw [tiling, Tiling.scan_of_some hp] at h
    cases h

theorem peek_of_cons (h : t.tiling = ⟨token :: ahead, ending⟩) :
    t.peek = .ok (some token) ∧ (t.advance token).tiling = ⟨ahead, ending⟩ := by
  rcases hp : t.peek with e | _ | u
  · rw [tiling, Tiling.scan_of_error hp] at h
    cases h
  · rw [tiling, Tiling.scan_of_none hp] at h
    cases h
  · rw [tiling, Tiling.scan_of_some hp] at h
    cases h
    exact ⟨rfl, rfl⟩

theorem peek_eq_found (h : t.tiling = ⟨ahead, ending⟩) : t.peek = ending.found ahead.head? := by
  cases ahead with
  | nil => exact peek_of_nil h
  | cons token ahead => exact (peek_of_cons h).1

/-- The cursor behind some tokens, which are passed one after the other. -/
def advanceAll (t : Tokenizer κ) (ts : List (Token κ)) : Tokenizer κ :=
  ts.foldl advance t

@[simp] theorem advanceAll_nil (t : Tokenizer κ) : t.advanceAll [] = t := rfl

@[simp] theorem advanceAll_cons (t : Tokenizer κ) (token : Token κ) (ts : List (Token κ)) :
    t.advanceAll (token :: ts) = (t.advance token).advanceAll ts := rfl

theorem failed_advanceAll (t : Tokenizer κ) (ts : List (Token κ)) :
    (t.advanceAll ts).failed = t.failed := by
  induction ts generalizing t with
  | nil => rfl
  | cons token ts ih => exact ih (t.advance token)

theorem tiling_advanceAll {ts : List (Token κ)} (h : t.tiling = ⟨ts ++ ahead, ending⟩) :
    (t.advanceAll ts).tiling = ⟨ahead, ending⟩ := by
  induction ts generalizing t with
  | nil => exact h
  | cons token ts ih => exact ih (peek_of_cons h).2

/-- **`consume` finds the next token that is accepted**, and passes the tokens
    up to it. -/
theorem consume_eq (keep : Token κ → Bool) (h : t.tiling = ⟨ahead, ending⟩) :
    t.consume keep =
      (ending.found (ahead.find? keep), t.advanceAll (Token.through keep ahead)) := by
  induction ahead generalizing t with
  | nil =>
    have hpeek := peek_of_nil h
    cases ending with
    | covered pos => exact consume_of_none hpeek
    | stuck e => exact consume_of_error hpeek
  | cons token ahead ih =>
    obtain ⟨hpeek, hnext⟩ := peek_of_cons h
    rw [consume_of_some hpeek]
    cases hk : keep token with
    | true => simp [hk, Token.through, Ending.found]
    | false =>
      rw [if_neg (by simp), ih hnext]
      simp [hk, Token.through]

theorem skipWhile_of_some {p : Token κ → Bool} (h : t.peek = .ok (some token)) :
    t.skipWhile p = if p token then (t.advance token).skipWhile p else t := by
  rw [skipWhile]
  split
  · rename_i u hu
    obtain rfl : token = u := by simpa [h] using hu
    rfl
  · simp_all

theorem skipWhile_of_ne {p : Token κ → Bool} (h : ∀ token, t.peek ≠ .ok (some token)) :
    t.skipWhile p = t := by
  rw [skipWhile]
  split
  · simp_all
  · rfl

theorem skipWhile_eq (p : Token κ → Bool) (h : t.tiling = ⟨ahead, ending⟩) :
    t.skipWhile p = t.advanceAll (ahead.takeWhile p) := by
  induction ahead generalizing t with
  | nil =>
    refine skipWhile_of_ne fun token hp => ?_
    rw [peek_of_nil h] at hp
    cases ending <;> cases hp
  | cons token ahead ih =>
    obtain ⟨hpeek, hnext⟩ := peek_of_cons h
    rw [skipWhile_of_some hpeek]
    cases hp : p token with
    | true => simp [hp, ih hnext]
    | false => simp [hp]

theorem next_of_failed (hf : t.failed = true) : t.next = (none, t) := by
  rw [next, nextWhere, if_pos hf]

theorem next_of_none (hf : ¬ t.failed = true) (h : t.peek = .ok none) : t.next = (none, t) := by
  rw [next, nextWhere, if_neg hf, consume_of_none h]

theorem next_of_some (hf : ¬ t.failed = true) (h : t.peek = .ok (some token)) :
    t.next = (some (.ok token), t.advance token) := by
  rw [next, nextWhere, if_neg hf, consume_of_some h, if_pos rfl]

theorem next_of_error (hf : ¬ t.failed = true) {e : LexError} (h : t.peek = .error e) :
    t.next = (some (.error e), { t with failed := true }) := by
  rw [next, nextWhere, if_neg hf, consume_of_error h]

/-! ## Places -/

/-- The cursor stands behind the tokens `passed` of the tiling of `source`, and
    the tokens `ahead` are the others. -/
structure At (rules : List (Rule κ)) (source : String) (passed ahead : List (Token κ))
    (t : Tokenizer κ) : Prop where
  tokens_eq : (Tiling.ofString rules source).tokens = passed ++ ahead
  remains : Token.Remains source passed t.rest t.pos
  tiling_eq : t.tiling = ⟨ahead, (Tiling.ofString rules source).ending⟩

namespace At

variable {passed : List (Token κ)}

theorem ofString (rules : List (Rule κ)) (source : String) :
    At rules source [] (Tiling.ofString rules source).tokens (.ofString rules source) :=
  ⟨rfl, Token.remains_start source, rfl⟩

/-- **A cursor passes the tokens of the tiling in order, one at a time.** -/
theorem advance (h : At rules source passed (token :: ahead) t) :
    At rules source (passed ++ [token]) ahead (t.advance token) := by
  obtain ⟨hpeek, htiling⟩ := peek_of_cons h.tiling_eq
  exact ⟨by simp [h.tokens_eq], h.remains.advance hpeek, htiling⟩

theorem advanceAll {ts : List (Token κ)} (h : At rules source passed (ts ++ ahead) t) :
    At rules source (passed ++ ts) ahead (t.advanceAll ts) := by
  induction ts generalizing passed t with
  | nil => simpa using h
  | cons token ts ih => simpa using ih h.advance

theorem peek_eq (h : At rules source passed ahead t) :
    t.peek = (Tiling.ofString rules source).ending.found ahead.head? :=
  peek_eq_found h.tiling_eq

/-- The place does not depend on what the stream has reported. -/
theorem fail (h : At rules source passed ahead t) :
    At rules source passed ahead { t with failed := true } :=
  ⟨h.tokens_eq, h.remains, h.tiling_eq⟩

theorem exists_of_peek (h : At rules source passed ahead t) (hp : t.peek = .ok (some token)) :
    ∃ others, ahead = token :: others := by
  rw [h.peek_eq] at hp
  cases ahead with
  | nil =>
    cases he : (Tiling.ofString rules source).ending <;> rw [he] at hp <;> cases hp
  | cons u others =>
    cases hp
    exact ⟨others, rfl⟩

theorem consume_eq (h : At rules source passed ahead t) (keep : Token κ → Bool) :
    t.consume keep = ((Tiling.ofString rules source).ending.found (ahead.find? keep),
      t.advanceAll (Token.through keep ahead)) :=
  Tokenizer.consume_eq keep h.tiling_eq

theorem through (h : At rules source passed ahead t) (keep : Token κ → Bool) :
    At rules source (passed ++ Token.through keep ahead) (Token.beyond keep ahead)
      (t.advanceAll (Token.through keep ahead)) := by
  rw [← Token.through_append_beyond keep ahead] at h
  exact h.advanceAll

end At

/-! ## Requests -/

/-- What can be asked of a cursor. -/
inductive Request (κ : Type) where
  | peek
  | consume (keep : Token κ → Bool)
  | next

/-- What is answered: by a look at a token, or by the stream. -/
inductive Reply (κ : Type) where
  | look (r : Except LexError (Option (Token κ)))
  | element (r : Option (Except LexError (Token κ)))

/-- The replies to some requests, and the state in the end. -/
def Request.run {σ : Type} (answer : Request κ → σ → Reply κ × σ) :
    List (Request κ) → σ → List (Reply κ) × σ
  | [], s => ([], s)
  | request :: requests, s =>
    ((answer request s).1 :: (run answer requests (answer request s).2).1,
      (run answer requests (answer request s).2).2)

/-- The reply of the cursor, and where it is left. -/
def answer : Request κ → Tokenizer κ → Reply κ × Tokenizer κ
  | .peek, t => (.look t.peek, t)
  | .consume keep, t => (.look (t.consume keep).1, (t.consume keep).2)
  | .next, t => (.element t.next.1, t.next.2)

/-- A walk along a list of tokens: those that it has passed, those ahead, and
    whether the stream has reported that it cannot go on. -/
structure Walk (κ : Type) where
  passed : List (Token κ)
  ahead : List (Token κ)
  failed : Bool

namespace Walk

def start (tokens : List (Token κ)) : Walk κ := ⟨[], tokens, false⟩

/-- The walk behind the first token ahead that `keep` accepts, or at the end. -/
def past (keep : Token κ → Bool) (p : Walk κ) : Walk κ :=
  { p with passed := p.passed ++ Token.through keep p.ahead, ahead := Token.beyond keep p.ahead }

/-- The reply of a walk along the tokens of a tiling with the given end. -/
def answer (ending : Ending) : Request κ → Walk κ → Reply κ × Walk κ
  | .peek, p => (.look (ending.found p.ahead.head?), p)
  | .consume keep, p => (.look (ending.found (p.ahead.find? keep)), p.past keep)
  | .next, p =>
    if p.failed then (.element none, p)
    else match ending.found p.ahead.head? with
      | .ok none => (.element none, p)
      | .ok (some token) => (.element (some (.ok token)), p.past fun _ => true)
      | .error e => (.element (some (.error e)), { p with failed := true })

/-- The cursor `t` stands where the walk `p` stands. -/
structure Leads (rules : List (Rule κ)) (source : String) (p : Walk κ) (t : Tokenizer κ) :
    Prop where
  place : t.At rules source p.passed p.ahead
  failed_eq : t.failed = p.failed

end Walk

/-- **One request.**  A cursor and the walk that stands at the same place give the
    same reply, and stand at the same place again. -/
theorem answer_of_leads {p : Walk κ} (h : p.Leads rules source t) (request : Request κ) :
    (answer request t).1 = (p.answer (Tiling.ofString rules source).ending request).1 ∧
      (p.answer (Tiling.ofString rules source).ending request).2.Leads rules source
        (answer request t).2 := by
  cases request with
  | peek => exact ⟨congrArg Reply.look h.place.peek_eq, h⟩
  | consume keep =>
    simp only [answer, Walk.answer, h.place.consume_eq keep]
    exact ⟨trivial, h.place.through keep, (failed_advanceAll ..).trans h.failed_eq⟩
  | next =>
    obtain ⟨passed, ahead, failed⟩ := p
    obtain ⟨hplace, rfl⟩ := h
    by_cases hf : t.failed = true
    · rw [answer, next_of_failed hf, Walk.answer, if_pos hf]
      exact ⟨rfl, hplace, rfl⟩
    · rw [Walk.answer, if_neg hf, ← hplace.peek_eq, answer]
      rcases hp : t.peek with e | _ | token
      · rw [next_of_error hf hp]
        exact ⟨rfl, hplace.fail, rfl⟩
      · rw [next_of_none hf hp]
        exact ⟨rfl, hplace, rfl⟩
      · rw [next_of_some hf hp]
        obtain ⟨others, rfl⟩ := hplace.exists_of_peek hp
        exact ⟨rfl, hplace.advance, rfl⟩

/-- **Any requests, one after the other.** -/
theorem run_of_leads {p : Walk κ} (h : p.Leads rules source t) (requests : List (Request κ)) :
    (Request.run answer requests t).1 =
        (Request.run (Walk.answer (Tiling.ofString rules source).ending) requests p).1 ∧
      (Request.run (Walk.answer (Tiling.ofString rules source).ending) requests p).2.Leads
        rules source (Request.run answer requests t).2 := by
  induction requests generalizing t p with
  | nil => exact ⟨rfl, h⟩
  | cons request requests ih =>
    obtain ⟨hreply, hleads⟩ := answer_of_leads h request
    obtain ⟨hreplies, hend⟩ := ih hleads
    refine ⟨?_, hend⟩
    rw [Request.run, Request.run, hreply, hreplies]

/-! ## The end -/

/-- The reply that nothing is left. -/
def Reply.IsEnd (reply : Reply κ) : Prop :=
  reply = .look (.ok none) ∨ reply = .element none

/-- At the end of its text a cursor stays, and says so. -/
theorem run_of_peek_none (h : t.peek = .ok none) (requests : List (Request κ)) :
    (Request.run answer requests t).2 = t ∧
      ∀ reply ∈ (Request.run answer requests t).1, reply.IsEnd := by
  have hone (request : Request κ) : (answer request t).1.IsEnd ∧ (answer request t).2 = t := by
    cases request with
    | peek => exact ⟨.inl (congrArg Reply.look h), rfl⟩
    | consume keep =>
      rw [answer, consume_of_none h]
      exact ⟨.inl rfl, rfl⟩
    | next =>
      by_cases hf : t.failed = true
      · rw [answer, next_of_failed hf]
        exact ⟨.inr rfl, rfl⟩
      · rw [answer, next_of_none hf h]
        exact ⟨.inr rfl, rfl⟩
  induction requests with
  | nil => simp [Request.run]
  | cons request requests ih =>
    obtain ⟨hend, hstay⟩ := hone request
    rw [Request.run, hstay]
    exact ⟨ih.1, List.forall_mem_cons.2 ⟨hend, ih.2⟩⟩

/-- What a cursor replies where no rule matches: a look reports the error each
    time, the stream only once. -/
def Request.refusal (e : LexError) (failed : Bool) : Request κ → Reply κ
  | .peek | .consume _ => .look (.error e)
  | .next => .element (if failed then none else some (.error e))

def Request.isNext : Request κ → Bool
  | .next => true
  | _ => false

theorem answer_of_peek_error {e : LexError} (h : t.peek = .error e) (request : Request κ) :
    answer request t =
      (request.refusal e t.failed, { t with failed := t.failed || request.isNext }) := by
  cases request with
  | peek => simp [answer, h, Request.refusal, Request.isNext]
  | consume keep => simp [answer, consume_of_error h, Request.refusal, Request.isNext]
  | next =>
    by_cases hf : t.failed = true
    · rw [answer, next_of_failed hf, Request.refusal, if_pos hf, hf, Bool.true_or, ← hf]
    · simp [answer, next_of_error hf h, Request.refusal, Request.isNext, hf]

/-- Where no rule matches a cursor stays. -/
theorem run_of_peek_error {e : LexError} (h : t.peek = .error e) (requests : List (Request κ)) :
    (Request.run answer requests t).2 =
      { t with failed := t.failed || requests.any Request.isNext } := by
  induction requests generalizing t with
  | nil => simp [Request.run]
  | cons request requests ih =>
    rw [Request.run, answer_of_peek_error h]
    simpa [Bool.or_assoc] using @ih { t with failed := t.failed || request.isNext } h

/-! ## Replies that are final -/

/-- The tokens that a request asks for. -/
def Request.accepts : Request κ → Token κ → Bool
  | .peek | .next => fun _ => true
  | .consume keep => keep

/-- The error that is reported, if one is. -/
def Reply.error? : Reply κ → Option LexError
  | .look (.error e) | .element (some (.error e)) => some e
  | _ => none

theorem found_eq_none_iff {found : Option (Token κ)} :
    ending.found found = .ok none ↔ found = none ∧ ending.error? = none := by
  cases found <;> cases ending <;> simp [Ending.found, Ending.error?]

theorem found_eq_error_iff {found : Option (Token κ)} {e : LexError} :
    ending.found found = .error e ↔ found = none ∧ ending.error? = some e := by
  cases found <;> cases ending <;> simp [Ending.found, Ending.error?]

theorem Request.find?_accepts (request : Request κ) (ts : List (Token κ)) :
    ts.find? request.accepts =
      match request with
      | .peek | .next => ts.head?
      | .consume keep => ts.find? keep := by
  cases request with
  | consume keep => rfl
  | peek | next => cases ts <;> rfl

section
variable {passed : List (Token κ)}

/-- Only a search in vain is answered by the end. -/
theorem At.of_reply_none (h : At rules source passed ahead t) {request : Request κ}
    (hr : (answer request t).1 = .look (.ok none)) :
    ahead.find? request.accepts = none ∧ (Tiling.ofString rules source).ending.error? = none := by
  rw [Request.find?_accepts]
  cases request with
  | peek =>
    simp only [answer, h.peek_eq, Reply.look.injEq] at hr
    exact found_eq_none_iff.1 hr
  | consume keep =>
    simp only [answer, h.consume_eq, Reply.look.injEq] at hr
    exact found_eq_none_iff.1 hr
  | next => cases hr

/-- Only a search in vain is answered by an error. -/
theorem At.of_reply_error (h : At rules source passed ahead t) {request : Request κ} {e : LexError}
    (hr : (answer request t).1.error? = some e) :
    ahead.find? request.accepts = none ∧
      (Tiling.ofString rules source).ending.error? = some e := by
  have hlook {r : Except LexError (Option (Token κ))} (he : (Reply.look r).error? = some e) :
      r = .error e := by
    rcases r with e' | r
    · cases he
      rfl
    · cases he
  rw [Request.find?_accepts]
  cases request with
  | peek => exact found_eq_error_iff.1 (h.peek_eq ▸ hlook hr)
  | consume keep =>
    have hc := hlook hr
    rw [h.consume_eq] at hc
    exact found_eq_error_iff.1 hc
  | next =>
    by_cases hf : t.failed = true
    · rw [answer, next_of_failed hf] at hr
      cases hr
    · rcases hp : t.peek with e' | _ | token
      · rw [answer, next_of_error hf hp] at hr
        cases hr
        exact found_eq_error_iff.1 (h.peek_eq ▸ hp)
      · rw [answer, next_of_none hf hp] at hr
        cases hr
      · rw [answer, next_of_some hf hp] at hr
        cases hr

/-- Where a cursor is left that has searched in vain. -/
theorem At.of_find?_eq_none (h : At rules source passed ahead t) {request : Request κ}
    (hf : ahead.find? request.accepts = none) :
    At rules source (Tiling.ofString rules source).tokens [] (answer request t).2 := by
  rw [h.tokens_eq]
  cases request with
  | peek =>
    obtain rfl : ahead = [] := by simpa [Request.find?_accepts] using hf
    rwa [List.append_nil]
  | consume keep =>
    have hkeep : ahead.find? keep = none := hf
    obtain ⟨hthrough, hbeyond⟩ := Token.through_of_find?_eq_none hkeep
    have hend := h.through keep
    rw [hthrough, hbeyond] at hend
    rwa [answer, h.consume_eq, hthrough]
  | next =>
    obtain rfl : ahead = [] := by simpa [Request.find?_accepts] using hf
    rw [List.append_nil, answer]
    by_cases hfail : t.failed = true
    · rwa [next_of_failed hfail]
    · rcases hp : t.peek with e | _ | token
      · rw [next_of_error hfail hp]
        exact h.fail
      · rwa [next_of_none hfail hp]
      · obtain ⟨others, hothers⟩ := h.exists_of_peek hp
        cases hothers

end

/-- A stream that has reported an error takes note of it. -/
theorem failed_of_isNext {request : Request κ} (hn : request.isNext = true) {e : LexError}
    (hr : (answer request t).1.error? = some e) : (answer request t).2.failed = true := by
  cases request with
  | peek | consume keep => cases hn
  | next =>
    by_cases hf : t.failed = true
    · rwa [answer, next_of_failed hf]
    · rcases hp : t.peek with e' | _ | token
      · rw [answer, next_of_error hf hp]
      · rw [answer, next_of_none hf hp] at hr
        cases hr
      · rw [answer, next_of_some hf hp] at hr
        cases hr

/-- **A cursor visits one tiling of its text, whatever is asked of it.**
    The tiling lays the text out.  To any requests, one after the other, the
    cursor replies what a walk along its tokens replies, and stands behind the
    tokens that the walk has passed; a look leaves it there.
    Once the reply is that there is no token, all tokens ahead were unwanted,
    the tokens make up the text, the cursor stands at its end, and all later
    replies are that nothing is left.
    Once the reply is an error, the cursor stands behind the last token, never
    moves again, and replies with that error to all later looks; the stream
    replies with it at most once. -/
theorem visits_tiling (rules : List (Rule κ)) (source : String) (requests : List (Request κ)) :
    let tiling := Tiling.ofString rules source
    let t := (Request.run answer requests (.ofString rules source)).2
    let p := (Request.run (Walk.answer tiling.ending) requests (.start tiling.tokens)).2
    tiling.Tiles rules source ∧
    (Request.run answer requests (.ofString rules source)).1 =
      (Request.run (Walk.answer tiling.ending) requests (.start tiling.tokens)).1 ∧
    p.Leads rules source t ∧
    (answer .peek t).2 = t ∧
    (∀ request, (answer request t).1 = .look (.ok none) →
      let t' := (answer request t).2
      (∀ token ∈ p.ahead, request.accepts token = false) ∧
        Token.textOf tiling.tokens = source ∧
        t'.rest = [] ∧ t'.pos = source.utf8ByteSize ∧
        ∀ later, (Request.run answer later t').2 = t' ∧
          ∀ reply ∈ (Request.run answer later t').1, reply.IsEnd) ∧
    ∀ request e, (answer request t).1.error? = some e →
      let t' := (answer request t).2
      (∀ token ∈ p.ahead, request.accepts token = false) ∧
        tiling.ending.error? = some e ∧
        t'.At rules source tiling.tokens [] ∧
        (request.isNext = true → t'.failed = true) ∧
        ∀ later, (Request.run answer later t').2 =
            { t' with failed := t'.failed || later.any Request.isNext } ∧
          ∀ r : Request κ, (answer r (Request.run answer later t').2).1 =
            r.refusal e (t'.failed || later.any Request.isNext) := by
  intro tiling t p
  have hstart : (Walk.start tiling.tokens).Leads rules source (.ofString rules source) :=
    ⟨.ofString rules source, rfl⟩
  obtain ⟨hreplies, hleads⟩ := run_of_leads hstart requests
  have hp : p.Leads rules source t := hleads
  refine ⟨Tiling.tiles_ofString rules source, hreplies, hp, rfl, ?_, ?_⟩
  · intro request hr t'
    obtain ⟨hfind, herror⟩ := hp.place.of_reply_none hr
    have hend := hp.place.of_find?_eq_none hfind
    have hpeek : t'.peek = .ok none := by
      rw [hend.peek_eq]
      exact found_eq_none_iff.2 ⟨rfl, herror⟩
    have hrest : t'.rest = [] := tokenAt_eq_none_iff.1 hpeek
    obtain ⟨htext, hpos⟩ := hend.remains
    rw [hrest, String.ofList_nil, String.append_empty] at htext
    exact ⟨by simpa using hfind, htext, hrest, htext ▸ hpos, run_of_peek_none hpeek⟩
  · intro request e hr t'
    obtain ⟨hfind, herror⟩ := hp.place.of_reply_error hr
    have hend := hp.place.of_find?_eq_none hfind
    have hpeek : t'.peek = .error e := by
      rw [hend.peek_eq]
      exact found_eq_error_iff.2 ⟨rfl, herror⟩
    refine ⟨by simpa using hfind, herror, hend, fun hn => ?_, fun later => ?_⟩
    · exact failed_of_isNext hn hr
    · have hrun := run_of_peek_error hpeek later
      have hlater : ({ t' with failed := t'.failed || later.any Request.isNext } :
          Tokenizer κ).peek = .error e := hpeek
      refine ⟨hrun, fun r => ?_⟩
      rw [hrun, answer_of_peek_error hlater]

/-- A rule that may take nothing, and blanks: looking in vain for a blank after
    the first ends at the end of one text, and at an error in the other. -/
theorem visits_tiling_blank :
    let rules : List (Rule Bool) := [⟨false, fun rest => some (rest.takeWhile (· == 'é')).length⟩,
      ⟨true, .run Text.isWhiteSpace⟩]
    let request := Request.consume fun token : Token Bool => token.kind
    let t := (Request.run answer [.peek, .next] (.ofString rules " éé")).2
    let u := (Request.run answer [.peek, .next] (.ofString rules " éé%")).2
    let t' := (answer request t).2
    let u' := (answer request u).2
    ((answer request t).1 = .look (.ok none) ∧ t'.pos = 5 ∧
      ∀ later, (Request.run answer later t').2 = t') ∧
    (answer request u).1.error? = some ⟨5, "%"⟩ ∧
      ∀ later, (Request.run answer later u').2 =
        { u' with failed := u'.failed || later.any Request.isNext } := by
  intro rules request t u t' u'
  have ht : (answer request t).1 = .look (.ok none) := by
    unfold t
    cbv
  have hu : (answer request u).1.error? = some ⟨5, "%"⟩ := by
    unfold u
    cbv
  obtain ⟨-, -, -, hpos, hstay⟩ :=
    (visits_tiling rules " éé" [.peek, .next]).2.2.2.2.1 request ht
  obtain ⟨-, -, -, -, hstuck⟩ :=
    (visits_tiling rules " éé%" [.peek, .next]).2.2.2.2.2 request ⟨5, "%"⟩ hu
  exact ⟨⟨ht, hpos, fun later => (hstay later).1⟩, hu, fun later => (hstuck later).1⟩

end Tokenizer

end MacroLisp
