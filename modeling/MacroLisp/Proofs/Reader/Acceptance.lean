/-
  The reader accepts exactly the grammar, and builds its trees.

  * `step_eq_ok_iff`: what one token does to the reader;
  * `foldlM_tokens`: over the tokens of a form, the reader adds its tree to
    what it has read;
  * `Parse`: whatever the reader has read is a part of a derivation, at every
    point of a run (`exists_step`, `exists_run`);
  * `read_eq_ok_iff_derives`: the main statement.
-/
import MacroLisp.Reader.Basic
import MacroLisp.Proofs.Lexing.Shape
import MacroLisp.Proofs.Reader.Derivation
import Mathlib

namespace MacroLisp

/-! ## Atoms -/

theorem Number.natOfDigits_eq (cs : List Char) : natOfDigits cs = Nat.ofDigitChars 10 cs 0 :=
  Nat.ofDigitChars_eq_foldl.symm

theorem Number.ofNat_eq (n : Nat) :
    ofNat n = if n ≤ Int64.maxValue.toInt then int (.ofNat n) else float (.ofNat n) := by
  by_cases h : n ≤ Int64.maxValue.toInt
  · simp [ofNat, int64?, h, Int64.ofInt_eq_ofNat]
  · simp [ofNat, int64?, h]

/-- A string loses exactly its two quotes. -/
theorem Token.leaf_of_string {t : Token TokenKind} (hs : t.kind.Shape t.text.toList)
    (h : t.kind = .string) : ∃ content : String,
      '"' ∉ content.toList ∧ t.text = "\"" ++ content ++ "\"" ∧ t.leaf = .string content := by
  rw [h] at hs
  obtain ⟨content, hq, hc⟩ := TokenKind.shape_string.1 hs
  refine ⟨String.ofList content, by simpa using hq, ?_, ?_⟩
  · rw [← String.toList_inj, hc]
    simp
  · simp [leaf, h, hc]

theorem Token.leaf_eq_ofNat {t : Token TokenKind} (h : t.kind = .number) :
    t.leaf = .number (Number.ofNat t.decimal) := by
  rw [Number.ofNat_eq]
  simp only [leaf, h]

/-- A row of digits is the integer that it denotes, if that fits. -/
theorem Token.leaf_of_number {t : Token TokenKind} (h : t.kind = .number) :
    (∀ i : Int64, t.leaf = .number (.int i) ↔ i.toInt = t.decimal) ∧
      ((∃ x, t.leaf = .number (.float x)) ↔ Int64.maxValue.toInt < t.decimal) := by
  constructor
  · intro i
    rw [leaf_eq_ofNat h, ← int64?_eq_some_iff, Number.ofNat]
    cases int64? t.decimal <;> simp
  · rw [leaf_eq_ofNat h, Number.ofNat_eq]
    by_cases hle : (t.decimal : Int) ≤ Int64.maxValue.toInt
    · simp [hle, Int.not_lt.2 hle]
    · simp [hle, Int.not_le.1 hle]

namespace Reader

theorem unquoted?_of_shape {s : String} {content : List Char}
    (h : s.toList = '"' :: (content ++ ['"'])) : unquoted? s = some (String.ofList content) := by
  simp [unquoted?, h]

theorem atom?_eq_leaf {t : Token TokenKind} (hs : t.kind.Shape t.text.toList)
    (h : t.kind.isAtom = true) : atom? t = some t.leaf := by
  obtain ⟨kind, text, pos⟩ := t
  cases kind with
  | number =>
    obtain ⟨hne, hd⟩ := TokenKind.shape_number.1 hs
    have hlit : Number.ofLiteral? text = some (Number.ofNat (Number.natOfDigits text.toList)) := by
      rw [Number.ofLiteral?, if_pos ⟨hne, List.all_eq_true.2 hd⟩]
    rw [Number.natOfDigits_eq, Number.ofNat_eq] at hlit
    simp only [atom?, hlit]
    rfl
  | string =>
    obtain ⟨content, -, hc⟩ := TokenKind.shape_string.1 hs
    simp only at hc
    simp [atom?, Token.leaf, unquoted?_of_shape hc, hc]
  | symbol | operator => rfl
  | _ => simp [TokenKind.isAtom] at h

theorem isAtom_of_atom? {t : Token TokenKind} {e : Expr} (h : atom? t = some e) :
    t.kind.isAtom = true := by
  obtain ⟨kind, text, pos⟩ := t
  cases kind <;> first | rfl | simp [atom?] at h

theorem markName?_eq_some_iff {kind : TokenKind} {name : String} :
    markName? kind = some name ↔ kind.isMark = true ∧ name = kind.word := by
  cases kind <;> simp [markName?, TokenKind.isMark, TokenKind.word, eq_comm]

/-! ## One token -/

/-- What a significant token does to the reader, where it fits. -/
inductive Step (t : Token TokenKind) : State → State → Prop where
  | atom {forms : List Expr} {stack : List Pending} (hl : stack.length < maxNesting)
      (h : t.kind.isAtom = true) : Step t ⟨forms, stack⟩ (State.add forms stack t.leaf)
  | opening {forms : List Expr} {stack : List Pending} (hl : stack.length < maxNesting)
      (h : t.kind = .openParen) : Step t ⟨forms, stack⟩ ⟨forms, .list t.pos [] :: stack⟩
  | mark {forms : List Expr} {stack : List Pending} (hl : stack.length < maxNesting)
      (h : t.kind.isMark = true) :
      Step t ⟨forms, stack⟩ ⟨forms, .mark t.pos t.kind.word :: stack⟩
  | closing {forms : List Expr} {stack : List Pending} {pos : Nat} {items : List Expr}
      (h : t.kind = .closeParen) :
      Step t ⟨forms, .list pos items :: stack⟩ (State.add forms stack (.list items.reverse))

namespace Step

variable {s s' : State} {t : Token TokenKind}

theorem of_close (hk : t.kind = .closeParen) (h : close s t.pos = .ok s') : Step t s s' := by
  obtain ⟨forms, stack⟩ := s
  unfold close at h
  rcases stack with _ | ⟨⟨pos, items⟩ | ⟨pos, name⟩, stack⟩
  · cases h
  · cases h
    exact .closing hk
  · cases h

theorem of_start (hs : t.kind.Shape t.text.toList) (h : start s t = .ok s') : Step t s s' := by
  obtain ⟨forms, stack⟩ := s
  unfold start at h
  split at h
  · cases h
  · rename_i hmax
    have hl : stack.length < maxNesting := Nat.lt_of_not_le hmax
    split at h
    · rename_i hk
      cases h
      exact .opening hl hk
    · split at h
      · rename_i name hm
        obtain ⟨hk, rfl⟩ := markName?_eq_some_iff.1 hm
        cases h
        exact .mark hl hk
      · split at h
        · rename_i e he
          have hk := isAtom_of_atom? he
          rw [atom?_eq_leaf hs hk] at he
          cases he
          cases h
          exact .atom hl hk
        · cases h

theorem step_eq (hs : t.kind.Shape t.text.toList) (h : Step t s s') : step s t = .ok s' := by
  cases h with
  | @atom forms stack hl hk =>
    obtain ⟨ho, hc, hmark⟩ := TokenKind.ne_of_isAtom hk
    have hm : markName? t.kind = none := by
      rw [Option.eq_none_iff_forall_ne_some]
      intro name hn
      simp [hmark, markName?_eq_some_iff] at hn
    simp [step_of_ne hc, start, Nat.not_le.2 hl, ho, hm, atom?_eq_leaf hs hk]
  | @opening forms stack hl hk =>
    simp [step, start, hk, Nat.not_le.2 hl]
  | @mark forms stack hl hk =>
    obtain ⟨ho, hc⟩ := TokenKind.ne_of_isMark hk
    simp [step_of_ne hc, start, Nat.not_le.2 hl, ho, markName?_eq_some_iff.2 ⟨hk, rfl⟩]
  | @closing forms stack pos items hk =>
    simp [step, close, hk]

end Step

/-- **The reader goes on exactly where the token fits.** -/
theorem step_eq_ok_iff {s s' : State} {t : Token TokenKind} (hs : t.kind.Shape t.text.toList) :
    step s t = .ok s' ↔ Step t s s' := by
  constructor
  · intro h
    by_cases hk : t.kind = .closeParen
    · rw [step, if_pos hk] at h
      exact .of_close hk h
    · rw [step_of_ne hk] at h
      exact .of_start hs h
  · intro h
    exact h.step_eq hs

/-! ## Over the tokens of a form -/

theorem foldlM_cons_of_ok {s s' : State} {t : Token TokenKind} {ts : List (Token TokenKind)}
    (h : step s t = .ok s') : (t :: ts).foldlM step s = ts.foldlM step s' := by
  rw [List.foldlM_cons, h]
  rfl

theorem foldlM_append_of_ok {s s' : State} {ts ts' : List (Token TokenKind)}
    (h : ts.foldlM step s = .ok s') : (ts ++ ts').foldlM step s = ts'.foldlM step s' := by
  rw [List.foldlM_append, h]
  rfl

mutual

/-- **Over the tokens of a form, the reader adds its syntax tree.** -/
theorem foldlM_tokens (d : Derivation) (fs : List Expr) (stack : List Pending)
    (hs : ∀ t ∈ d.tokens, t.kind.Shape t.text.toList) (hd : d.Below maxNesting stack.length) :
    d.tokens.foldlM step ⟨fs, stack⟩ = .ok (State.add fs stack d.form) := by
  match d with
  | .atom t h =>
    have hstep : step ⟨fs, stack⟩ t = .ok (State.add fs stack t.leaf) :=
      (step_eq_ok_iff (hs t (by simp [Derivation.tokens]))).2 (.atom (Derivation.lt_of_below hd) h)
    rw [Derivation.tokens, foldlM_cons_of_ok hstep]
    rfl
  | .list opening items closing ho hc =>
    obtain ⟨hl, hitems⟩ := Derivation.below_list.1 hd
    have hopen : step ⟨fs, stack⟩ opening = .ok ⟨fs, .list opening.pos [] :: stack⟩ :=
      (step_eq_ok_iff (hs opening (by simp [Derivation.tokens]))).2 (.opening hl ho)
    have hin := foldlM_yield items fs [] stack opening.pos
      (fun t ht => hs t (by simp [Derivation.tokens, ht])) hitems
    have hclose : step ⟨fs, .list opening.pos ((Derivation.forms items).reverse ++ []) :: stack⟩
        closing = .ok (State.add fs stack (.list ((Derivation.forms items).reverse ++ []).reverse)) :=
      (step_eq_ok_iff (hs closing (by simp [Derivation.tokens]))).2 (.closing hc)
    rw [Derivation.tokens, foldlM_cons_of_ok hopen, foldlM_append_of_ok hin,
      foldlM_cons_of_ok hclose, List.append_nil, List.reverse_reverse]
    rfl
  | .marked mark d h =>
    obtain ⟨hl, hbelow⟩ := Derivation.below_marked.1 hd
    have hmark : step ⟨fs, stack⟩ mark = .ok ⟨fs, .mark mark.pos mark.kind.word :: stack⟩ :=
      (step_eq_ok_iff (hs mark (by simp [Derivation.tokens]))).2 (.mark hl h)
    have hform := foldlM_tokens d fs (.mark mark.pos mark.kind.word :: stack)
      (fun t ht => hs t (by simp [Derivation.tokens, ht])) hbelow
    rw [Derivation.tokens, foldlM_cons_of_ok hmark, hform]
    rfl

/-- Over the tokens of its items, the reader fills a list. -/
theorem foldlM_yield (ds : List Derivation) (fs acc : List Expr) (stack : List Pending)
    (pos : Nat) (hs : ∀ t ∈ Derivation.yield ds, t.kind.Shape t.text.toList)
    (hd : ∀ d ∈ ds, d.Below maxNesting (stack.length + 1)) :
    (Derivation.yield ds).foldlM step ⟨fs, .list pos acc :: stack⟩ =
      .ok ⟨fs, .list pos ((Derivation.forms ds).reverse ++ acc) :: stack⟩ := by
  match ds with
  | [] => rfl
  | d :: ds =>
    have hform := foldlM_tokens d fs (.list pos acc :: stack)
      (fun t ht => hs t (by simp [Derivation.yield, ht])) (hd d (by simp))
    have hrest := foldlM_yield ds fs (d.form :: acc) stack pos
      (fun t ht => hs t (by simp [Derivation.yield, ht])) (fun d' hd' => hd d' (by simp [hd']))
    rw [Derivation.yield, foldlM_append_of_ok hform]
    simpa [Derivation.forms, State.add] using hrest

end

/-- Over the tokens of a program, the reader adds all syntax trees. -/
theorem foldlM_program (ds : List Derivation) (fs : List Expr)
    (hs : ∀ t ∈ Derivation.yield ds, t.kind.Shape t.text.toList)
    (hd : ∀ d ∈ ds, d.Below maxNesting 0) :
    (Derivation.yield ds).foldlM step ⟨fs, []⟩ = .ok ⟨(Derivation.forms ds).reverse ++ fs, []⟩ := by
  induction ds generalizing fs with
  | nil => rfl
  | cons d ds ih =>
    have hform := foldlM_tokens d fs [] (fun t ht => hs t (by simp [Derivation.yield, ht]))
      (hd d (by simp))
    have hrest := ih (d.form :: fs) (fun t ht => hs t (by simp [Derivation.yield, ht]))
      (fun d' hd' => hd d' (by simp [hd']))
    rw [Derivation.yield, foldlM_append_of_ok hform]
    simpa [Derivation.forms, State.add] using hrest

/-! ## What the reader has read -/

/-- What is open in the middle of a derivation, with its tokens. -/
inductive Frame where
  | list (opening : Token TokenKind) (items : List Derivation) (h : opening.kind = .openParen)
  | mark (mark : Token TokenKind) (h : mark.kind.isMark = true)

namespace Frame

/-- The tokens up to now. -/
def tokens : Frame → List (Token TokenKind)
  | list opening items _ => opening :: Derivation.yield items
  | mark t _ => [t]

/-- What the reader keeps of it. -/
def pending : Frame → Pending
  | list opening items _ => .list opening.pos (Derivation.forms items).reverse
  | mark t _ => .mark t.pos t.kind.word

/-- The forms in it are not too deep, where `level` lists and marks are around
    it. -/
def Fits (level : Nat) : Frame → Prop
  | list _ items _ => level < maxNesting ∧ ∀ d ∈ items, d.Below maxNesting (level + 1)
  | mark _ _ => level < maxNesting

/-- The same for all that is open, the innermost first. -/
def AllFit : List Frame → Prop
  | [] => True
  | f :: outer => f.Fits outer.length ∧ AllFit outer

end Frame

/-- The derivations that are complete, and what is open, the innermost first. -/
structure Parse where
  done : List Derivation
  frames : List Frame

namespace Parse

def tokens (p : Parse) : List (Token TokenKind) :=
  Derivation.yield p.done ++ p.frames.reverse.flatMap Frame.tokens

/-- The state of a reader that has read it. -/
def state (p : Parse) : State :=
  ⟨(Derivation.forms p.done).reverse, p.frames.map Frame.pending⟩

/-- No form in it is too deep. -/
def Fits (p : Parse) : Prop :=
  (∀ d ∈ p.done, d.Below maxNesting 0) ∧ Frame.AllFit p.frames

/-- Adds a derivation that is complete. -/
def add (done : List Derivation) : List Frame → Derivation → Parse
  | [], d => ⟨done ++ [d], []⟩
  | .list opening items h :: frames, d => ⟨done, .list opening (items ++ [d]) h :: frames⟩
  | .mark mark h :: frames, d => add done frames (.marked mark d h)

theorem state_add (done : List Derivation) (frames : List Frame) (d : Derivation) :
    (add done frames d).state =
      State.add (Derivation.forms done).reverse (frames.map Frame.pending) d.form := by
  induction frames generalizing d with
  | nil => simp [add, state, State.add, Derivation.forms_eq_map]
  | cons f frames ih =>
    cases f with
    | list opening items h =>
      simp [add, state, State.add, Frame.pending, Derivation.forms_eq_map]
    | mark mark h => exact ih (.marked mark d h)

theorem tokens_add (done : List Derivation) (frames : List Frame) (d : Derivation) :
    (add done frames d).tokens = tokens ⟨done, frames⟩ ++ d.tokens := by
  induction frames generalizing d with
  | nil => simp [add, tokens, Derivation.yield_eq_flatMap]
  | cons f frames ih =>
    cases f with
    | list opening items h =>
      simp [add, tokens, Frame.tokens, Derivation.yield_eq_flatMap]
    | mark mark h =>
      rw [add, ih]
      simp [tokens, Frame.tokens, Derivation.tokens]

theorem fits_add {done : List Derivation} {frames : List Frame} {d : Derivation}
    (hp : Fits ⟨done, frames⟩) (hd : d.Below maxNesting frames.length) :
    (add done frames d).Fits := by
  induction frames generalizing d with
  | nil =>
    refine ⟨fun d' hd' => ?_, trivial⟩
    rcases List.mem_append.1 hd' with hd' | hd'
    · exact hp.1 d' hd'
    · rwa [List.mem_singleton.1 hd']
  | cons f frames ih =>
    obtain ⟨hdone, hf, hframes⟩ := hp
    cases f with
    | list opening items h =>
      refine ⟨hdone, ⟨hf.1, fun d' hd' => ?_⟩, hframes⟩
      rcases List.mem_append.1 hd' with hd' | hd'
      · exact hf.2 d' hd'
      · rwa [List.mem_singleton.1 hd']
    | mark mark h => exact ih ⟨hdone, hframes⟩ (Derivation.below_marked.2 ⟨hf, hd⟩)

/-- **One token more leaves a part of a derivation.** -/
theorem exists_step {p : Parse} {t : Token TokenKind} {s : State} (hp : p.Fits)
    (h : Step t p.state s) : ∃ p' : Parse, p'.Fits ∧ p'.state = s ∧ p'.tokens = p.tokens ++ [t] := by
  obtain ⟨done, frames⟩ := p
  generalize hs : state ⟨done, frames⟩ = s₀ at h
  cases h with
  | atom hl ha =>
    cases hs
    rw [List.length_map] at hl
    exact ⟨add done frames (.atom t ha), fits_add hp (Derivation.below_atom.2 hl),
      state_add .., tokens_add ..⟩
  | opening hl ho =>
    cases hs
    rw [List.length_map] at hl
    exact ⟨⟨done, .list t [] ho :: frames⟩, ⟨hp.1, ⟨hl, by simp⟩, hp.2⟩, rfl,
      by simp [tokens, Frame.tokens, Derivation.yield]⟩
  | mark hl hm =>
    cases hs
    rw [List.length_map] at hl
    exact ⟨⟨done, .mark t hm :: frames⟩, ⟨hp.1, hl, hp.2⟩, rfl, by simp [tokens, Frame.tokens]⟩
  | closing hc =>
    -- the innermost frame is the list that is closed
    rcases frames with _ | ⟨⟨opening, items, ho⟩ | ⟨mark, hm⟩, frames⟩
    · cases hs
    · cases hs
      obtain ⟨hdone, hlist, hframes⟩ := hp
      refine ⟨add done frames (.list opening items t ho hc),
        fits_add ⟨hdone, hframes⟩ (Derivation.below_list.2 hlist), ?_, ?_⟩
      · simp [state_add, Derivation.form]
      · rw [tokens_add]
        simp [tokens, Frame.tokens, Derivation.tokens]
    · cases hs

/-- Whatever the reader has read is a part of a derivation. -/
theorem exists_run {p : Parse} {ts : List (Token TokenKind)} {s : State} (hp : p.Fits)
    (hs : ∀ t ∈ ts, t.kind.Shape t.text.toList) (h : ts.foldlM step p.state = .ok s) :
    ∃ p' : Parse, p'.Fits ∧ p'.state = s ∧ p'.tokens = p.tokens ++ ts := by
  induction ts generalizing p with
  | nil => exact ⟨p, hp, Except.ok.inj h, by simp⟩
  | cons t ts ih =>
    rw [List.foldlM_cons] at h
    rcases hstep : step p.state t with e | s₁
    · rw [hstep] at h; cases h
    · obtain ⟨p₁, hp₁, rfl, ht₁⟩ :=
        exists_step hp ((step_eq_ok_iff (hs t (by simp))).1 hstep)
      rw [hstep] at h
      obtain ⟨p', hp', hs', ht'⟩ := ih hp₁ (fun u hu => hs u (by simp [hu])) h
      exact ⟨p', hp', hs', by simp [ht', ht₁]⟩

end Parse

/-! ## Reading -/

theorem finish_eq_ok_iff {s : State} {ending : Ending} {fs : List Expr} :
    finish s ending = .ok fs ↔ ending.error? = none ∧ s.stack = [] ∧ s.forms.reverse = fs := by
  obtain ⟨forms, stack⟩ := s
  cases ending with
  | stuck e => simp [finish, Ending.error?]
  | covered pos =>
    rcases stack with _ | ⟨⟨_, _⟩ | ⟨_, _⟩, stack⟩ <;> simp [finish, Ending.error?]

/-- **A sequence of tokens is read as the syntax trees of its derivation**, and
    is read only if there is one without a form that lies too deep. -/
theorem readTokens_eq_ok_iff {ts : List (Token TokenKind)} {ending : Ending} {fs : List Expr}
    (hs : ∀ t ∈ ts, t.kind.Shape t.text.toList) :
    readTokens ts ending = .ok fs ↔ ending.error? = none ∧ ∃ ds, Derivation.yield ds = ts ∧
      (∀ d ∈ ds, d.Below maxNesting 0) ∧ Derivation.forms ds = fs := by
  constructor
  · intro h
    unfold readTokens at h
    rcases hrun : ts.foldlM step .initial with e | s
    · rw [hrun] at h; cases h
    · rw [hrun] at h
      obtain ⟨hend, hstack, rfl⟩ := finish_eq_ok_iff.1 h
      obtain ⟨⟨done, frames⟩, hp, rfl, ht⟩ :=
        Parse.exists_run (p := ⟨[], []⟩) ⟨by simp, trivial⟩ hs hrun
      -- nothing is open at the end
      obtain rfl : frames = [] := List.map_eq_nil_iff.1 hstack
      exact ⟨hend, done, by simpa [Parse.tokens, Derivation.yield] using ht, hp.1,
        by simp [Parse.state]⟩
  · rintro ⟨hend, ds, rfl, hd, rfl⟩
    have hfin : finish ⟨(Derivation.forms ds).reverse ++ [], []⟩ ending =
        .ok (Derivation.forms ds) := finish_eq_ok_iff.2 ⟨hend, rfl, by simp⟩
    rw [readTokens, State.initial, foldlM_program ds [] hs hd]
    exact hfin

end Reader

theorem shape_of_mem_significant {source : String} :
    ∀ t ∈ (Tiling.ofSource source).significant, t.kind.Shape t.text.toList :=
  fun t ht => TokenKind.shape_of_mem_scan t (List.mem_filter.1 ht).1

/-- The sequence `ds` derives a source text: the text falls into tokens, those
    that mean something are its yield, and no form lies too deep. -/
structure Derives (source : String) (ds : List Derivation) : Prop where
  lexes : (Tiling.ofSource source).ending.error? = none
  yield_eq : Derivation.yield ds = (Tiling.ofSource source).significant
  shallow : ∀ n ∈ Derivation.levelsOf ds, n < Reader.maxNesting

theorem read_eq_ok_iff {source : String} {fs : List Expr} :
    read source = .ok fs ↔ ∃ ds, Derives source ds ∧ ds.map Derivation.form = fs := by
  rw [read, Reader.readTokens_eq_ok_iff shape_of_mem_significant]
  constructor
  · rintro ⟨hl, ds, hy, hd, rfl⟩
    exact ⟨ds, ⟨hl, hy, Derivation.forall_below_iff.1 hd⟩, (Derivation.forms_eq_map ds).symm⟩
  · rintro ⟨ds, ⟨hl, hy, hd⟩, rfl⟩
    exact ⟨hl, ds, hy, Derivation.forall_below_iff.2 hd, Derivation.forms_eq_map ds⟩

/-- **The reader accepts exactly the grammar, and builds its trees.**
    A text is read iff there is a derivation for it, and as the trees of that.
    There is at most one derivation of its tokens; its strings and numbers are
    the texts between the quotes and the numbers that the digits denote; and no
    tree that is read holds a value. -/
theorem read_eq_ok_iff_derives (source : String) :
    (∀ fs, read source = .ok fs ↔ ∃ ds, Derives source ds ∧ ds.map Derivation.form = fs) ∧
      (∀ ds ds', Derivation.yield ds = (Tiling.ofSource source).significant →
        Derivation.yield ds' = (Tiling.ofSource source).significant → ds = ds') ∧
      (∀ t ∈ (Tiling.ofSource source).significant, t.kind = .string → ∃ content : String,
        '"' ∉ content.toList ∧ t.text = "\"" ++ content ++ "\"" ∧ t.leaf = .string content) ∧
      (∀ t ∈ (Tiling.ofSource source).significant, t.kind = .number →
        (t.text.toList ≠ [] ∧ ∀ c ∈ t.text.toList, c.isDigit = true) ∧
        (∀ i : Int64, t.leaf = .number (.int i) ↔ i.toInt = t.decimal) ∧
        ((∃ x, t.leaf = .number (.float x)) ↔ Int64.maxValue.toInt < t.decimal)) ∧
      (∀ fs, read source = .ok fs → ∀ e ∈ fs, ∀ v, ¬ (Expr.const v).Occurs e) := by
  refine ⟨fun fs => read_eq_ok_iff, ?_, ?_, ?_, ?_⟩
  · intro ds ds' h h'
    exact Derivation.yield_injective (h.trans h'.symm)
  · intro t ht hk
    exact Token.leaf_of_string (shape_of_mem_significant t ht) hk
  · intro t ht hk
    have hs := shape_of_mem_significant t ht
    rw [hk] at hs
    exact ⟨TokenKind.shape_number.1 hs, Token.leaf_of_number hk⟩
  · intro fs h e he v
    obtain ⟨ds, -, rfl⟩ := read_eq_ok_iff.1 h
    obtain ⟨d, -, rfl⟩ := List.mem_map.1 he
    exact d.not_occurs_const v

/-- A mark before a list, a string with a comment sign in it, and leading
    zeros. -/
theorem read_eq_ok_iff_derives_marked :
    ∃ ds, Derives "'(f \"a;b\" 007) ; c" ds ∧ ds.map Derivation.form =
      [.list [.symbol "quote", .list [.symbol "f", .string "a;b", .number (.int 7)]]] := by
  have hread : read "'(f \"a;b\" 007) ; c" = .ok
      [.list [.symbol "quote", .list [.symbol "f", .string "a;b", .number (.int 7)]]] := by cbv
  exact ((read_eq_ok_iff_derives _).1 _).1 hread

end MacroLisp
