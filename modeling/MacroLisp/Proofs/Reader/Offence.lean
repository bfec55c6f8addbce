/-
  The first offence decides the error of a reading.

  A scan goes over the significant tokens and keeps a stack of what is open:
  parentheses, and quote marks that wait for their form, each with its offset
  and nothing else.  A token offends if it does not fit there (`Offends`), and
  so does the end of the text (`OffendsAtEnd`).

  * `step_eq_error_iff`: a token is refused if it offends, with that error;
  * `Step.openings_eq`: a token that is taken leaves open what the scan says;
  * `readFrom_eq_error_iff`: a run of the reader reports the first offence;
  * `read_eq_error_iff`: the main statement, for both ways to read.
-/
import MacroLisp.Proofs.Reader.Acceptance
import MacroLisp.Proofs.Reader.Descent

namespace MacroLisp

namespace Reader

/-! ## The scan -/

/-- What is open at a point of a text, with its offset. -/
inductive Opening where
  | parenthesis (pos : Nat)
  | mark (pos : Nat)
deriving DecidableEq, Repr

namespace Opening

def isMark : Opening → Bool
  | parenthesis _ => false
  | mark _ => true

/-- A form is complete: the marks that waited for it are complete with it. -/
def settle (stack : List Opening) : List Opening :=
  stack.dropWhile isMark

/-- What is open behind the token `t`, the innermost first. -/
def behind (stack : List Opening) (t : Token TokenKind) : List Opening :=
  match t.kind with
  | .openParen => parenthesis t.pos :: stack
  | .quote | .backquote | .unquote => mark t.pos :: stack
  | .closeParen => settle stack.tail
  | _ => settle stack

end Opening

/-- The token `t` does not fit where `stack` is open. -/
inductive Offends (stack : List Opening) (t : Token TokenKind) : ReadError → Prop where
  /-- A form begins where as much is open as may be. -/
  | tooDeep (h : t.kind ≠ .closeParen) (hl : stack.length = maxNesting) :
      Offends stack t (.tooDeep t.pos maxNesting)
  /-- A list ends where a quote mark waits for its form. -/
  | danglingQuote {pos : Nat} {outer : List Opening} (h : t.kind = .closeParen)
      (hs : stack = .mark pos :: outer) : Offends stack t (.danglingQuote pos)
  /-- A list ends where none is open. -/
  | unexpectedClose (h : t.kind = .closeParen) (hs : stack = []) :
      Offends stack t (.unexpectedClose t.pos)

/-- The text cannot end so where `stack` is open. -/
inductive OffendsAtEnd (stack : List Opening) : Ending → ReadError → Prop where
  | lexical (e : LexError) : OffendsAtEnd stack (.stuck e) (.lexical e)
  | danglingQuote {n pos : Nat} {outer : List Opening} (hs : stack = .mark pos :: outer) :
      OffendsAtEnd stack (.covered n) (.danglingQuote pos)
  | unterminatedList {n pos : Nat} {outer : List Opening} (hs : stack = .parenthesis pos :: outer) :
      OffendsAtEnd stack (.covered n) (.unterminatedList pos)

/-- The scan from a point on, where `stack` is open, stops with the error. -/
inductive FirstOffence (ending : Ending) :
    List Opening → List (Token TokenKind) → ReadError → Prop where
  | token {stack : List Opening} {t : Token TokenKind} {ts : List (Token TokenKind)}
      {e : ReadError} (h : Offends stack t e) : FirstOffence ending stack (t :: ts) e
  | later {stack : List Opening} {t : Token TokenKind} {ts : List (Token TokenKind)}
      {e : ReadError} (hn : ∀ e', ¬ Offends stack t e')
      (h : FirstOffence ending (Opening.behind stack t) ts e) :
      FirstOffence ending stack (t :: ts) e
  | atEnd {stack : List Opening} {e : ReadError} (h : OffendsAtEnd stack ending e) :
      FirstOffence ending stack [] e

/-! ## One token -/

def Pending.opening : Pending → Opening
  | .list pos _ => .parenthesis pos
  | .mark pos _ => .mark pos

/-- What is open in a state of the reader. -/
def State.openings (s : State) : List Opening :=
  s.stack.map Pending.opening

theorem State.length_openings (s : State) : s.openings.length = s.stack.length :=
  List.length_map _

theorem State.openings_add (fs : List Expr) (stack : List Pending) (e : Expr) :
    (State.add fs stack e).openings = Opening.settle (stack.map Pending.opening) := by
  induction stack generalizing e with
  | nil => rfl
  | cons p stack ih =>
    cases p with
    | list pos items => rfl
    | mark pos name => exact ih _

/-- What a token opens or completes is what it does to the stack of the reader. -/
theorem Step.openings_eq {s s' : State} {t : Token TokenKind} (h : Step t s s') :
    s'.openings = Opening.behind s.openings t := by
  cases h with
  | atom hl ha =>
    rw [State.openings_add]
    obtain ⟨kind, text, pos⟩ := t
    cases kind <;> first | rfl | cases ha
  | opening hl ho => simp [Opening.behind, ho, State.openings, Pending.opening]
  | mark hl hm =>
    obtain ⟨kind, text, pos⟩ := t
    cases kind <;> first | rfl | cases hm
  | closing hc =>
    rw [State.openings_add]
    simp [Opening.behind, hc, State.openings]

theorem State.length_add_le (fs : List Expr) (stack : List Pending) (e : Expr) :
    (State.add fs stack e).stack.length ≤ stack.length := by
  rw [← State.length_openings, State.openings_add]
  exact (List.dropWhile_suffix _).length_le.trans_eq (List.length_map _)

/-- The reader never has more open than it may. -/
theorem Step.length_le {s s' : State} {t : Token TokenKind} (h : Step t s s')
    (hl : s.stack.length ≤ maxNesting) : s'.stack.length ≤ maxNesting := by
  cases h with
  | atom hlt ha => exact (State.length_add_le ..).trans hl
  | opening hlt ho => exact hlt
  | mark hlt hm => exact hlt
  | closing hc =>
    rw [List.length_cons] at hl
    exact (State.length_add_le ..).trans (Nat.le_of_succ_le hl)

/-- Where there is room, any significant token that begins a form is taken. -/
theorem exists_step_of_lt {s : State} {t : Token TokenKind} (hsig : t.isSignificant = true)
    (hc : t.kind ≠ .closeParen) (hl : s.stack.length < maxNesting) : ∃ s', Step t s s' := by
  obtain ⟨forms, stack⟩ := s
  cases hk : t.kind with
  | openParen => exact ⟨_, .opening hl hk⟩
  | closeParen => exact absurd hk hc
  | number | string | symbol | operator => exact ⟨_, .atom hl (by rw [hk]; rfl)⟩
  | quote | backquote | unquote => exact ⟨_, .mark hl (by rw [hk]; rfl)⟩
  | whiteSpace | comment => simp [Token.isSignificant, hk, TokenKind.isTrivia] at hsig

theorem offends_iff_of_ne {stack : List Opening} {t : Token TokenKind} {e : ReadError}
    (hc : t.kind ≠ .closeParen) :
    Offends stack t e ↔ stack.length = maxNesting ∧ e = .tooDeep t.pos maxNesting := by
  constructor
  · intro h
    cases h with
    | tooDeep _ hl => exact ⟨hl, rfl⟩
    | danglingQuote h => exact absurd h hc
    | unexpectedClose h => exact absurd h hc
  · rintro ⟨hl, rfl⟩
    exact .tooDeep hc hl

theorem close_eq_error_iff {s : State} {t : Token TokenKind} {e : ReadError}
    (hc : t.kind = .closeParen) : close s t.pos = .error e ↔ Offends s.openings t e := by
  obtain ⟨forms, stack⟩ := s
  constructor
  · intro h
    rcases stack with _ | ⟨⟨pos, items⟩ | ⟨pos, name⟩, stack⟩ <;> cases h
    · exact .unexpectedClose hc rfl
    · exact .danglingQuote hc rfl
  · intro h
    cases h with
    | tooDeep h => exact absurd hc h
    | danglingQuote _ hs =>
      rcases stack with _ | ⟨⟨pos, items⟩ | ⟨pos, name⟩, stack⟩ <;> cases hs
      rfl
    | unexpectedClose _ hs =>
      obtain rfl := List.map_eq_nil_iff.1 hs
      rfl

/-- **The reader refuses exactly the tokens that offend**, each with its error. -/
theorem step_eq_error_iff {s : State} {t : Token TokenKind} {e : ReadError}
    (hs : t.kind.Shape t.text.toList) (hsig : t.isSignificant = true)
    (hl : s.stack.length ≤ maxNesting) : step s t = .error e ↔ Offends s.openings t e := by
  by_cases hc : t.kind = .closeParen
  · rw [step_of_close hc]
    exact close_eq_error_iff hc
  · rw [offends_iff_of_ne hc, State.length_openings]
    by_cases hlt : s.stack.length < maxNesting
    · obtain ⟨s', hstep⟩ := exists_step_of_lt hsig hc hlt
      simp [hstep.step_eq hs, Nat.ne_of_lt hlt]
    · have hmax : maxNesting ≤ s.stack.length := Nat.not_lt.1 hlt
      rw [step_of_ne hc, start, if_pos hmax]
      simp [Nat.le_antisymm hl hmax, eq_comm]

theorem finish_eq_error_iff {s : State} {ending : Ending} {e : ReadError} :
    finish s ending = .error e ↔ OffendsAtEnd s.openings ending e := by
  obtain ⟨forms, stack⟩ := s
  cases ending with
  | stuck le =>
    constructor
    · intro h
      cases h
      exact .lexical le
    · intro h
      cases h
      rfl
  | covered n =>
    constructor
    · intro h
      rcases stack with _ | ⟨⟨pos, items⟩ | ⟨pos, name⟩, stack⟩ <;> cases h
      · exact .unterminatedList rfl
      · exact .danglingQuote rfl
    · intro h
      rcases stack with _ | ⟨⟨pos, items⟩ | ⟨pos, name⟩, stack⟩ <;> rcases h with _ | hs | hs <;>
        cases hs <;> rfl

/-! ## Runs -/

/-- **A run of the reader reports the first offence.** -/
theorem readFrom_eq_error_iff {s : State} {ts : List (Token TokenKind)} {ending : Ending}
    {e : ReadError} (hs : ∀ t ∈ ts, t.kind.Shape t.text.toList ∧ t.isSignificant = true)
    (hl : s.stack.length ≤ maxNesting) :
    readFrom s ts ending = .error e ↔ FirstOffence ending s.openings ts e := by
  induction ts generalizing s with
  | nil =>
    have hfinish : readFrom s [] ending = finish s ending := rfl
    rw [hfinish, finish_eq_error_iff]
    constructor
    · exact .atEnd
    · intro h
      cases h with
      | atEnd h => exact h
  | cons t ts ih =>
    obtain ⟨⟨hshape, hsig⟩, hrest⟩ := List.forall_mem_cons.1 hs
    have herr (e' : ReadError) := step_eq_error_iff (e := e') hshape hsig hl
    rw [readFrom_cons]
    rcases hstep : step s t with e₁ | s'
    · rw [hstep] at herr
      constructor
      · intro h
        obtain rfl : e₁ = e := Except.error.inj h
        exact .token ((herr e₁).1 rfl)
      · intro h
        cases h with
        | token h =>
          obtain rfl : e₁ = e := Except.error.inj ((herr e).2 h)
          rfl
        | later hn => exact absurd ((herr e₁).1 rfl) (hn e₁)
    · rw [hstep] at herr
      have hnext := (step_eq_ok_iff hshape).1 hstep
      have hn (e' : ReadError) : ¬ Offends s.openings t e' := fun h => nomatch (herr e').2 h
      have hrun : readFrom s' ts ending = .error e ↔
          FirstOffence ending (Opening.behind s.openings t) ts e := by
        rw [← hnext.openings_eq]
        exact ih hrest (hnext.length_le hl)
      constructor
      · intro h
        exact .later hn (hrun.1 h)
      · intro h
        cases h with
        | token h => exact absurd h (hn e)
        | later _ h => exact hrun.2 h

/-- No offence is a malformed atom. -/
theorem FirstOffence.ne_malformedAtom {ending : Ending} {stack : List Opening}
    {ts : List (Token TokenKind)} {e : ReadError} (h : FirstOffence ending stack ts e) (pos : Nat)
    (text : String) : e ≠ .malformedAtom pos text := by
  induction h with
  | token h => cases h <;> nofun
  | later _ _ ih => exact ih
  | atEnd h => cases h <;> nofun

end Reader

theorem read_eq_error_iff_firstOffence (source : String) (e : ReadError) :
    read source = .error e ↔ Reader.FirstOffence (Tiling.ofSource source).ending []
      (Tiling.ofSource source).significant e :=
  Reader.readFrom_eq_error_iff (s := .initial)
    (fun t ht => ⟨shape_of_mem_significant t ht, (List.mem_filter.1 ht).2⟩) (Nat.zero_le _)

/-- **The error of a reading is that of the first offence.**
    Both ways to read report the error at which the scan of the significant
    tokens stops, from where nothing is open; they read the text if it does not
    stop.  The offsets are those of the tokens in the text, and a lexical error
    is where no rule matches.  No atom is malformed. -/
theorem read_eq_error_iff (source : String) :
    let tiling := Tiling.ofSource source
    (∀ e, read source = .error e ↔
      Reader.FirstOffence tiling.ending [] tiling.significant e) ∧
    Reader.descend source = read source ∧
    ((∃ fs, read source = .ok fs) ↔
      ∀ e, ¬ Reader.FirstOffence tiling.ending [] tiling.significant e) ∧
    tiling.Tiles TokenKind.rules source ∧
    ∀ pos text, read source ≠ .error (.malformedAtom pos text) := by
  intro tiling
  have herror (e : ReadError) : read source = .error e ↔
      Reader.FirstOffence tiling.ending [] tiling.significant e :=
    read_eq_error_iff_firstOffence source e
  refine ⟨herror, Reader.descend_eq_read source, ?_, Tiling.tiles_ofString _ _, ?_⟩
  · simp only [← herror]
    cases read source <;> simp
  · intro pos text h
    exact ((herror _).1 h).ne_malformedAtom pos text rfl

/-- The innermost mark is at fault, not the list around it. -/
example : read "(a ',)" = .error (.danglingQuote 4) := by cbv

end MacroLisp
