/-
  Looking ahead changes nothing.

  The reader's cursor is asked to look at the next significant token, to take
  it, or for the next element of the stream (`Ask`).  Looking may move the
  cursor over trivia, and may fail after it has, but it leaves what there is to
  deliver as it was (`Tokenizer.outlook`), on which all replies depend:

  * `search_eq_nextWhere`: the stream, as a search in the stream of all tokens;
  * `reply_outlook`: one request;
  * `transcript_outlook`: any requests, one after the other;
  * `lookahead_harmless`: the main statement.
-/
import MacroLisp.Proofs.Reader.Descent

namespace MacroLisp

namespace Tokenizer

/-! ## Searching in the stream of all tokens -/

section Search

variable {κ : Type} {keep : Token κ → Bool} {t t' : Tokenizer κ} {token : Token κ}

theorem length_rest_next (h : t.next = (some (.ok token), t')) :
    t'.rest.length < t.rest.length := by
  by_cases hf : t.failed = true
  · rw [next_of_failed hf] at h
    cases h
  · rcases hp : t.peek with e | _ | u
    · rw [next_of_error hf hp] at h
      cases h
    · rw [next_of_none hf hp] at h
      cases h
    · rw [next_of_some hf hp] at h
      cases h
      exact length_rest_advance hp

/-- The first element of the stream of all tokens that `keep` accepts, where an
    error is always accepted. -/
def search (keep : Token κ → Bool) (t : Tokenizer κ) :
    Option (Except LexError (Token κ)) × Tokenizer κ :=
  match _ : t.next with
  | (none, t') => (none, t')
  | (some (.error e), t') => (some (.error e), t')
  | (some (.ok token), t') => if keep token then (some (.ok token), t') else t'.search keep
termination_by t.rest.length
decreasing_by exact length_rest_next ‹_›

theorem search_of_none (h : t.next = (none, t')) : t.search keep = (none, t') := by
  rw [search]
  split <;> simp_all

theorem search_of_error {e : LexError} (h : t.next = (some (.error e), t')) :
    t.search keep = (some (.error e), t') := by
  rw [search]
  split <;> simp_all

theorem search_of_some (h : t.next = (some (.ok token), t')) :
    t.search keep = if keep token then (some (.ok token), t') else t'.search keep := by
  rw [search]
  split <;> simp_all

/-- **The stream of the tokens that are kept is a search** in the stream of all
    tokens. -/
theorem search_eq_nextWhere (keep : Token κ → Bool) (t : Tokenizer κ) :
    t.search keep = t.nextWhere keep := by
  by_cases hf : t.failed = true
  · rw [search_of_none (next_of_failed hf), nextWhere, if_pos hf]
  · rw [nextWhere, if_neg hf]
    fun_induction consume keep t with
    | case1 t e he => exact search_of_error (next_of_error hf he)
    | case2 t hn => exact search_of_none (next_of_none hf hn)
    | case3 t token ht hk => rw [search_of_some (next_of_some hf ht), if_pos hk]
    | case4 t token ht hk ih =>
      rw [search_of_some (next_of_some hf ht), if_neg hk]
      exact ih hf

end Search

/-! ## Requests -/

/-- What is asked of the reader's cursor. -/
inductive Ask where
  | peek
  | consume
  | next
deriving DecidableEq, Repr

/-- Does the request take what it is answered? -/
def Ask.takes : Ask → Bool
  | .peek => false
  | .consume | .next => true

/-- The reply of the cursor, and where it is left. -/
def reply : Ask → Tokenizer TokenKind → Reply TokenKind × Tokenizer TokenKind
  | .peek, t => (.look t.peekSignificant.1, t.peekSignificant.2)
  | .consume, t => (.look t.consumeSignificant.1, t.consumeSignificant.2)
  | .next, t => (.element t.nextSignificant.1, t.nextSignificant.2)

/-- The requests with their replies, one after the other. -/
def transcript {σ : Type} (reply : Ask → σ → Reply TokenKind × σ) :
    List Ask → σ → List (Ask × Reply TokenKind)
  | [], _ => []
  | ask :: asks, s => (ask, (reply ask s).1) :: transcript reply asks (reply ask s).2

/-- The state behind the requests. -/
def after {σ : Type} (reply : Ask → σ → Reply TokenKind × σ) : List Ask → σ → σ
  | [], s => s
  | ask :: asks, s => after reply asks (reply ask s).2

/-- What a reply says, whether it comes from a look or from the stream. -/
def Reply.found {κ : Type} : Reply κ → Except LexError (Option (Token κ))
  | .look r => r
  | .element none => .ok none
  | .element (some (.ok token)) => .ok (some token)
  | .element (some (.error e)) => .error e

theorem Reply.error?_eq {κ : Type} (r : Reply κ) :
    r.error? = match r.found with
      | .ok _ => none
      | .error e => some e := by
  rcases r with (_ | _) | _ | (_ | _) <;> rfl

/-- The token in a reply. -/
def Reply.token? {κ : Type} (r : Reply κ) : Option (Token κ) :=
  r.found.toOption.join

/-- The tokens that have been taken, in order. -/
def delivered (entries : List (Ask × Reply TokenKind)) : List (Token TokenKind) :=
  (entries.filter (·.1.takes)).filterMap (·.2.token?)

theorem delivered_nil : delivered [] = [] := rfl

theorem delivered_cons {ask : Ask} {r : Reply TokenKind} {entries : List (Ask × Reply TokenKind)} :
    delivered ((ask, r) :: entries) =
      (if ask.takes then r.token?.toList else []) ++ delivered entries := by
  cases ht : ask.takes with
  | false => simp [delivered, ht]
  | true => cases hr : r.token? <;> simp [delivered, ht, hr]

/-- No reply is an error. -/
def NoError (entries : List (Ask × Reply TokenKind)) : Prop :=
  ∀ entry ∈ entries, entry.2.error? = none

/-! ## What there is to deliver -/

/-- The significant tokens ahead, what is behind them, and whether the stream
    has reported its error. -/
structure Outlook where
  ahead : List (Token TokenKind)
  ending : Ending
  failed : Bool

/-- The outlook from the cursor. -/
def outlook (t : Tokenizer TokenKind) : Outlook :=
  ⟨t.significant, t.tiling.ending, t.failed⟩

namespace Outlook

/-- What comes next. -/
def found (o : Outlook) : Except LexError (Option (Token TokenKind)) :=
  o.ending.found o.ahead.head?

/-- The outlook behind what comes next. -/
def tail (o : Outlook) : Outlook :=
  { o with ahead := o.ahead.tail }

/-- The reply with this outlook, and the one behind it. -/
def reply : Ask → Outlook → Reply TokenKind × Outlook
  | .peek, o => (.look o.found, o)
  | .consume, o => (.look o.found, o.tail)
  | .next, o =>
    if o.failed then (.element none, o)
    else match o.found with
      | .ok none => (.element none, o.tail)
      | .ok (some token) => (.element (some (.ok token)), o.tail)
      | .error e => (.element (some (.error e)), { o.tail with failed := true })

end Outlook

theorem outlook_peekSignificant (t : Tokenizer TokenKind) :
    t.peekSignificant.1 = t.outlook.found ∧ t.peekSignificant.2.outlook = t.outlook := by
  obtain ⟨hr, hs, he⟩ := peekSignificant_eq t
  exact ⟨hr, by rw [outlook, hs, he, failed_peekSignificant, outlook]⟩

theorem outlook_consumeSignificant (t : Tokenizer TokenKind) :
    t.consumeSignificant.1 = t.outlook.found ∧
      t.consumeSignificant.2.outlook = t.outlook.tail := by
  obtain ⟨hr, hs, he⟩ := consumeSignificant_eq t
  exact ⟨hr, by rw [outlook, hs, he, failed_consumeSignificant, Outlook.tail, outlook]⟩

/-- **One request.**  The reply depends on the outlook only, and so does the
    outlook behind it. -/
theorem reply_outlook (ask : Ask) (t : Tokenizer TokenKind) :
    (reply ask t).1 = (t.outlook.reply ask).1 ∧
      (reply ask t).2.outlook = (t.outlook.reply ask).2 := by
  obtain ⟨hpeek, hstay⟩ := outlook_peekSignificant t
  obtain ⟨hconsume, htail⟩ := outlook_consumeSignificant t
  cases ask with
  | peek => exact ⟨congrArg Reply.look hpeek, hstay⟩
  | consume => exact ⟨congrArg Reply.look hconsume, htail⟩
  | next =>
    rcases hc : t.consumeSignificant with ⟨r, t'⟩
    rw [hc] at hconsume htail
    rw [Outlook.reply, ← hconsume, ← htail, reply]
    cases hf : t.failed with
    | true =>
      rw [nextSignificant_of_failed hf, if_pos (show t.outlook.failed = true from hf)]
      exact ⟨rfl, rfl⟩
    | false =>
      have hf' : ¬ t.outlook.failed = true := by simp [outlook, hf]
      rw [nextSignificant_of_consume hf hc, if_neg hf']
      rcases r with e | _ | token <;> exact ⟨rfl, rfl⟩

/-- **Any requests, one after the other.** -/
theorem transcript_outlook (asks : List Ask) (t : Tokenizer TokenKind) :
    transcript reply asks t = transcript Outlook.reply asks t.outlook ∧
      (after reply asks t).outlook = after Outlook.reply asks t.outlook := by
  induction asks generalizing t with
  | nil => exact ⟨rfl, rfl⟩
  | cons ask asks ih =>
    obtain ⟨hreply, hnext⟩ := reply_outlook ask t
    obtain ⟨hreplies, hend⟩ := ih (reply ask t).2
    rw [hnext] at hreplies hend
    exact ⟨by rw [transcript, transcript, hreply, hreplies], hend⟩

namespace Outlook

variable {o : Outlook} {ask : Ask} {asks asks' : List Ask}

/-- Looking changes nothing, so it need not be done. -/
theorem transcript_filter_takes (asks : List Ask) (o : Outlook) :
    transcript reply (asks.filter Ask.takes) o =
      (transcript reply asks o).filter (·.1.takes) := by
  induction asks generalizing o with
  | nil => rfl
  | cons ask asks ih =>
    cases ask with
    | peek => exact ih o
    | consume | next => exact congrArg _ (ih _)

theorem join_found (o : Outlook) : o.found.toOption.join = o.ahead.head? := by
  rw [found]
  cases o.ahead.head? with
  | none => cases o.ending <;> rfl
  | some token => rfl

/-- Until the stream has reported an error, all requests are answered alike. -/
theorem found_reply (hf : o.failed = false) (ask : Ask) : (o.reply ask).1.found = o.found := by
  cases ask with
  | peek | consume => rfl
  | next =>
    rw [reply, if_neg (by simp [hf])]
    rcases o.found with e | _ | token <;> rfl

/-- A request that takes goes on by one token, and leaves the stream unfailed if
    it is not answered by an error. -/
theorem reply_of_takes (hf : o.failed = false) (ht : ask.takes = true)
    (hr : (o.reply ask).1.error? = none) : (o.reply ask).2 = o.tail := by
  cases ask with
  | peek => cases ht
  | consume => rfl
  | next =>
    rw [reply, if_neg (by simp [hf])] at hr ⊢
    generalize o.found = r at hr ⊢
    rcases r with e | _ | token
    · cases hr
    · rfl
    · rfl

/-- A stream has reported an error only where nothing is ahead. -/
def Settled (o : Outlook) : Prop :=
  o.failed = true → o.ahead = []

theorem settled_of_failed_eq (hf : o.failed = false) : o.Settled := fun h => by simp [hf] at h

theorem Settled.tail (hs : o.Settled) : o.tail.Settled := fun hf => by
  rw [Outlook.tail, hs hf, List.tail_nil]

/-- **Every request is answered by the token that is next**, and taking goes
    on behind it. -/
theorem Settled.reply (hs : o.Settled) (ask : Ask) :
    (o.reply ask).1.token? = o.ahead.head? ∧
      (o.reply ask).2.ahead = (if ask.takes then o.ahead.tail else o.ahead) ∧
      (o.reply ask).2.Settled := by
  cases ask with
  | peek => exact ⟨join_found o, rfl, hs⟩
  | consume => exact ⟨join_found o, rfl, hs.tail⟩
  | next =>
    cases hf : o.failed with
    | true =>
      rw [Outlook.reply, if_pos hf]
      exact ⟨by rw [hs hf]; rfl, by rw [hs hf]; rfl, hs⟩
    | false =>
      refine ⟨?_, ?_⟩
      · rw [Reply.token?, found_reply hf, join_found]
      · have hjoin := join_found o
        rw [Outlook.reply, if_neg (by simp [hf])]
        generalize o.found = r at hjoin ⊢
        rcases r with e | _ | token
        · -- an error is reported where nothing is ahead
          have hnil : o.ahead.tail = [] := by
            rw [List.head?_eq_none_iff.1 hjoin.symm, List.tail_nil]
          exact ⟨rfl, fun _ => hnil⟩
        · exact ⟨rfl, hs.tail⟩
        · exact ⟨rfl, hs.tail⟩

/-- **The tokens are delivered one after the other**, one for each request that
    takes. -/
theorem Settled.delivered (hs : o.Settled) (asks : List Ask) :
    delivered (transcript Outlook.reply asks o) = o.ahead.take (asks.countP Ask.takes) := by
  induction asks generalizing o with
  | nil => simp [transcript, delivered_nil]
  | cons ask asks ih =>
    obtain ⟨htoken, hahead, hsettled⟩ := hs.reply ask
    rw [transcript, delivered_cons, htoken, ih hsettled, hahead]
    cases ht : ask.takes with
    | false => simp [ht]
    | true => cases o.ahead <;> simp [ht]

/-- Nothing but tokens ahead is ever shown. -/
theorem Settled.mem_of_token? (hs : o.Settled) (asks : List Ask) :
    ∀ entry ∈ transcript Outlook.reply asks o, ∀ token ∈ entry.2.token?, token ∈ o.ahead := by
  induction asks generalizing o with
  | nil => simp [transcript]
  | cons ask asks ih =>
    obtain ⟨htoken, hahead, hsettled⟩ := hs.reply ask
    have hsub : (o.reply ask).2.ahead ⊆ o.ahead := by
      rw [hahead]
      split
      · exact List.tail_subset _
      · exact List.Subset.refl _
    rw [transcript, List.forall_mem_cons]
    refine ⟨fun token ht => ?_, fun entry he token ht => hsub (ih hsettled entry he token ht)⟩
    exact List.mem_of_mem_head? (htoken ▸ ht)

/-! ## Until the first error -/

theorem reply_of_not_takes (ht : ask.takes = false) : (o.reply ask).2 = o := by
  cases ask with
  | peek => rfl
  | consume | next => cases ht

/-- As long as there is no error, each request that takes has gone on by one. -/
theorem after_of_noError (hf : o.failed = false)
    (h : NoError (transcript Outlook.reply asks o)) :
    after Outlook.reply asks o = { o with ahead := o.ahead.drop (asks.countP Ask.takes) } := by
  induction asks generalizing o with
  | nil => simp [after]
  | cons ask asks ih =>
    obtain ⟨hr, hrest⟩ := List.forall_mem_cons.1 h
    rw [after]
    cases ht : ask.takes with
    | false =>
      rw [reply_of_not_takes ht] at hrest ⊢
      rw [ih hf hrest, List.countP_cons_of_neg (by simp [ht])]
    | true =>
      rw [reply_of_takes hf ht hr] at hrest ⊢
      have hf' : o.tail.failed = false := hf
      rw [ih hf' hrest, List.countP_cons_of_pos ht, tail, List.drop_tail]

/-- **Taking and the stream are interchangeable** as long as there is no error. -/
theorem found_transcript (hf : o.failed = false)
    (h : NoError (transcript Outlook.reply asks o))
    (htakes : asks'.map Ask.takes = asks.map Ask.takes) :
    (transcript Outlook.reply asks' o).map (·.2.found) =
      (transcript Outlook.reply asks o).map (·.2.found) := by
  induction asks generalizing asks' o with
  | nil =>
    rw [List.map_nil, List.map_eq_nil_iff] at htakes
    rw [htakes]
  | cons ask asks ih =>
    obtain ⟨ask', asks', rfl, ht, hrest⟩ := List.map_eq_cons_iff.1 htakes
    obtain ⟨hr, hno⟩ := List.forall_mem_cons.1 h
    have hfound : (o.reply ask').1.found = (o.reply ask).1.found := by
      rw [found_reply hf, found_reply hf]
    have hr' : (o.reply ask').1.error? = none := by
      rw [Reply.error?_eq, hfound, ← Reply.error?_eq]
      exact hr
    have hnext : (o.reply ask').2 = (o.reply ask).2 := by
      cases htake : ask.takes with
      | false => rw [reply_of_not_takes htake, reply_of_not_takes (ht.trans htake)]
      | true => rw [reply_of_takes hf htake hr, reply_of_takes hf (ht.trans htake) hr']
    have hf' : (o.reply ask).2.failed = false := by
      cases htake : ask.takes with
      | false => rwa [reply_of_not_takes htake]
      | true => rwa [reply_of_takes hf htake hr]
    rw [transcript, transcript, List.map_cons, List.map_cons, hfound, hnext, ih hf' hno hrest]

end Outlook

/-- **Looking ahead never changes what is delivered.**
    The tiling lays the source out, and the stream is a search in the stream of
    all tokens.  After any requests:
    without the looks, all other replies are the same;
    a look is answered what taking would be answered, and taking after a look is
    answered the same;
    the tokens that have been taken are the first significant tokens of the
    tiling, as many as were asked for, and no reply holds trivia;
    and as long as there is no error, taking and the stream are
    interchangeable: the next reply, the first error included, depends on how
    many tokens have been taken only, and so do the replies before it. -/
theorem lookahead_harmless (source : String) :
    let tiling := Tiling.ofSource source
    let start := ofSource source
    tiling.Tiles TokenKind.rules source ∧
    (∀ t : Tokenizer TokenKind, t.search Token.isSignificant = t.nextSignificant) ∧
    ∀ asks : List Ask,
      let t := after reply asks start
      let entries := transcript reply asks start
      transcript reply (asks.filter Ask.takes) start = entries.filter (·.1.takes) ∧
      ((reply .peek t).1 = (reply .consume t).1 ∧
        (reply .consume (reply .peek t).2).1 = (reply .peek t).1) ∧
      delivered entries = tiling.significant.take (asks.countP Ask.takes) ∧
      (∀ entry ∈ entries, ∀ token ∈ entry.2.token?,
        token ∈ tiling.tokens ∧ token.kind.isTrivia = false) ∧
      (NoError entries →
        (∀ ask, (reply ask t).1.found =
          tiling.ending.found tiling.significant[asks.countP Ask.takes]?) ∧
        ∀ asks' : List Ask, asks'.map Ask.takes = asks.map Ask.takes →
          (transcript reply asks' start).map (·.2.found) = entries.map (·.2.found)) := by
  intro tiling start
  have hf : start.outlook.failed = false := rfl
  have hsettled := Outlook.settled_of_failed_eq hf
  refine ⟨Tiling.tiles_ofString _ _, search_eq_nextWhere _, fun asks => ?_⟩
  intro t entries
  obtain ⟨hrun, hafter⟩ := transcript_outlook asks start
  have hentries : entries = transcript Outlook.reply asks start.outlook := hrun
  have hlook : (reply .peek t).1 = (reply .consume t).1 := by
    rw [(reply_outlook .peek t).1, (reply_outlook .consume t).1]
    rfl
  refine ⟨?_, ⟨hlook, ?_⟩, ?_, ?_, fun hno => ⟨fun ask => ?_, fun asks' htakes => ?_⟩⟩
  · rw [(transcript_outlook _ _).1, Outlook.transcript_filter_takes, ← hentries]
  · rw [hlook, (reply_outlook .consume _).1, (reply_outlook .peek t).2,
      (reply_outlook .consume t).1]
    rfl
  · rw [hentries]
    exact hsettled.delivered asks
  · intro entry he token ht
    have hmem := hsettled.mem_of_token? asks entry (hentries ▸ he) token ht
    obtain ⟨hin, hkeep⟩ := List.mem_filter.1 hmem
    exact ⟨hin, by simpa [Token.isSignificant] using hkeep⟩
  · have hend := hafter.trans (Outlook.after_of_noError hf (hentries ▸ hno))
    rw [(reply_outlook ask t).1, hend, Outlook.found_reply rfl, Outlook.found, List.head?_drop]
    rfl
  · rw [(transcript_outlook asks' start).1, hentries]
    exact Outlook.found_transcript hf (hentries ▸ hno) htakes

/-- Looks in between, trivia, and a string that does not end: taking and the
    stream deliver the four tokens before it, and then each reports the error. -/
theorem lookahead_harmless_open :
    let start := ofSource "(a ; b)\n 'c \"d"
    let asks := [Ask.peek, .next, .peek, .peek, .consume, .next, .peek, .consume]
    let asks' := [Ask.peek, .consume, .peek, .peek, .consume, .consume, .peek, .next]
    delivered (transcript reply asks start) =
        [⟨.openParen, "(", 0⟩, ⟨.symbol, "a", 1⟩, ⟨.quote, "\x27", 9⟩, ⟨.symbol, "c", 10⟩] ∧
      (transcript reply asks' start).map (·.2.found) =
        (transcript reply asks start).map (·.2.found) ∧
      ∀ ask, (reply ask (after reply asks start)).1.found = .error ⟨12, "\"d"⟩ := by
  intro start asks asks'
  obtain ⟨-, -, hrun⟩ := lookahead_harmless "(a ; b)\n 'c \"d"
  obtain ⟨-, -, hdelivered, -, hfree⟩ := hrun asks
  have hnone : (transcript reply asks start).all (·.2.error?.isNone) = true := by
    unfold start asks
    cbv
  have hno : NoError (transcript reply asks start) := by simpa [NoError] using hnone
  obtain ⟨hnext, hlike⟩ := hfree hno
  refine ⟨?_, hlike asks' rfl, fun ask => ?_⟩
  · rw [hdelivered]
    cbv
  · rw [hnext ask]
    cbv

end Tokenizer

end MacroLisp
