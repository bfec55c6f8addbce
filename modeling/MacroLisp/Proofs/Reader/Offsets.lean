/-
  Offsets mean nothing to the reader.

  Tokens of the same kinds and texts lead the reader through the same states,
  wherever they stand, but for the offsets of what is open.  So they are read
  as the same forms, or with the same error, which is reported at the offset of
  corresponding tokens.

  * `Token.word`: a token without its offset;
  * `Alike`: results that differ in offsets only, as `R` relates these;
  * `step_alike`, `finish_alike`: one token, and the end;
  * `readTokens_corresponds`: all tokens.
-/
import MacroLisp.Proofs.Reader.Descent
import Mathlib.Data.List.Forall2

namespace MacroLisp

/-- What a token is, wherever it stands. -/
def Token.word (t : Token TokenKind) : TokenKind × String :=
  (t.kind, t.text)

/-- Where the error is reported. -/
def ReadError.offset : ReadError → Nat
  | lexical e => e.pos
  | unexpectedClose pos | unterminatedList pos | danglingQuote pos => pos
  | malformedAtom pos _ | tooDeep pos _ => pos

/-- The same error, reported at another offset. -/
def ReadError.moveTo (pos : Nat) : ReadError → ReadError
  | lexical e => lexical { e with pos }
  | unexpectedClose _ => unexpectedClose pos
  | unterminatedList _ => unterminatedList pos
  | danglingQuote _ => danglingQuote pos
  | malformedAtom _ text => malformedAtom pos text
  | tooDeep _ depth => tooDeep pos depth

namespace Reader

variable {R : Nat → Nat → Prop} {α β : Type}

/-! ## Results -/

/-- Results as `P` relates them, or the same error at offsets as `R` relates
    these. -/
inductive Alike (R : Nat → Nat → Prop) (P : α → β → Prop) :
    Except ReadError α → Except ReadError β → Prop where
  | ok {a : α} {b : β} (h : P a b) : Alike R P (.ok a) (.ok b)
  | error (e : ReadError) {pos : Nat} (h : R e.offset pos) :
      Alike R P (.error e) (.error (e.moveTo pos))

theorem Alike.bind {α' β' : Type} {P : α → β → Prop} {Q : α' → β' → Prop}
    {r : Except ReadError α} {r' : Except ReadError β} {next : α → Except ReadError α'}
    {next' : β → Except ReadError β'} (h : Alike R P r r')
    (hnext : ∀ a b, P a b → Alike R Q (next a) (next' b)) :
    Alike R Q (r >>= next) (r' >>= next') := by
  cases h with
  | ok h => exact hnext _ _ h
  | error e h => exact .error e h

theorem Alike.eq_of_ok {a : α} {r : Except ReadError α} (h : Alike R Eq (.ok a) r) : r = .ok a := by
  cases h with
  | ok h => rw [h]

theorem Alike.exists_of_error {P : α → β → Prop} {e : ReadError} {r : Except ReadError β}
    (h : Alike R P (.error e) r) : ∃ pos, R e.offset pos ∧ r = .error (e.moveTo pos) := by
  cases h with
  | error e h => exact ⟨_, h, rfl⟩

/-! ## States -/

/-- The same list or mark, left open at offsets as `R` relates them. -/
inductive Pending.Alike (R : Nat → Nat → Prop) : Pending → Pending → Prop where
  | list {pos pos' : Nat} (h : R pos pos') (items : List Expr) :
      Alike R (.list pos items) (.list pos' items)
  | mark {pos pos' : Nat} (h : R pos pos') (name : String) :
      Alike R (.mark pos name) (.mark pos' name)

/-- The same forms, with the same open behind them. -/
structure State.Alike (R : Nat → Nat → Prop) (s s' : State) : Prop where
  forms : s.forms = s'.forms
  stack : List.Forall₂ (Pending.Alike R) s.stack s'.stack

/-- The same token at offsets as `R` relates them. -/
structure TokenAlike (R : Nat → Nat → Prop) (t t' : Token TokenKind) : Prop where
  word : t.word = t'.word
  pos : R t.pos t'.pos

theorem add_alike (forms : List Expr) {stack stack' : List Pending}
    (h : List.Forall₂ (Pending.Alike R) stack stack') (e : Expr) :
    (State.add forms stack e).Alike R (State.add forms stack' e) := by
  induction h generalizing e with
  | nil => exact ⟨rfl, .nil⟩
  | cons hp hs ih =>
    cases hp with
    | list h items => exact ⟨rfl, .cons (.list h _) hs⟩
    | mark h name => exact ih _

/-! ## The run over the tokens -/

variable {s s' : State} {t t' : Token TokenKind} {ts ts' : List (Token TokenKind)}

theorem close_alike (hs : s.Alike R s') {pos pos' : Nat} (hpos : R pos pos') :
    Alike R (State.Alike R) (close s pos) (close s' pos') := by
  obtain ⟨forms, stack⟩ := s
  obtain ⟨forms', stack'⟩ := s'
  obtain ⟨rfl, hstack⟩ := hs
  cases hstack with
  | nil => exact .error (.unexpectedClose pos) hpos
  | cons hp hrest =>
    cases hp with
    | list h items => exact .ok (add_alike forms hrest _)
    | mark h name => exact .error (.danglingQuote _) h

theorem start_alike (hs : s.Alike R s') (ht : TokenAlike R t t') :
    Alike R (State.Alike R) (start s t) (start s' t') := by
  have hlength : s'.stack.length = s.stack.length := hs.stack.length_eq.symm
  have hkind : t'.kind = t.kind := congrArg Prod.fst ht.word.symm
  have htext : t'.text = t.text := congrArg Prod.snd ht.word.symm
  -- what a token is does not depend on where it stands
  have hatom : atom? t' = atom? t := by rw [atom?, atom?, hkind, htext]
  unfold start
  rw [hlength, hatom, hkind, htext]
  split
  · exact .error (.tooDeep t.pos maxNesting) ht.pos
  split
  · exact .ok ⟨hs.forms, .cons (.list ht.pos []) hs.stack⟩
  split
  · exact .ok ⟨hs.forms, .cons (.mark ht.pos _) hs.stack⟩
  split
  · rw [← hs.forms]
    exact .ok (add_alike s.forms hs.stack _)
  · exact .error (.malformedAtom t.pos t.text) ht.pos

/-- **One token.** -/
theorem step_alike (hs : s.Alike R s') (ht : TokenAlike R t t') :
    Alike R (State.Alike R) (step s t) (step s' t') := by
  have hkind : t.kind = t'.kind := congrArg Prod.fst ht.word
  by_cases hk : t.kind = .closeParen
  · rw [step_of_close hk, step_of_close (hkind ▸ hk)]
    exact close_alike hs ht.pos
  · rw [step_of_ne hk, step_of_ne (hkind ▸ hk)]
    exact start_alike hs ht

/-- **The end of texts that are covered.** -/
theorem finish_alike (hs : s.Alike R s') (n n' : Nat) :
    Alike R Eq (finish s (.covered n)) (finish s' (.covered n')) := by
  obtain ⟨forms, stack⟩ := s
  obtain ⟨forms', stack'⟩ := s'
  obtain ⟨rfl, hstack⟩ := hs
  cases hstack with
  | nil => exact .ok rfl
  | cons hp _ =>
    cases hp with
    | list h items => exact .error (.unterminatedList _) h
    | mark h name => exact .error (.danglingQuote _) h

theorem readFrom_alike (hs : s.Alike R s') (hts : List.Forall₂ (TokenAlike R) ts ts') (n n' : Nat) :
    Alike R Eq (readFrom s ts (.covered n)) (readFrom s' ts' (.covered n')) := by
  induction hts generalizing s s' with
  | nil => exact finish_alike hs n n'
  | cons ht _ ih =>
    rw [readFrom_cons, readFrom_cons]
    exact (step_alike hs ht).bind fun _ _ hs => ih hs

/-! ## Corresponding tokens -/

/-- The offsets of tokens in the same place of two sequences. -/
def Corresponds (ts ts' : List (Token TokenKind)) (pos pos' : Nat) : Prop :=
  ∃ (k : Nat) (t t' : Token TokenKind),
    ts[k]? = some t ∧ ts'[k]? = some t' ∧ pos = t.pos ∧ pos' = t'.pos

theorem forall₂_of_words (h : ts.map Token.word = ts'.map Token.word) :
    List.Forall₂ (TokenAlike (Corresponds ts ts')) ts ts' := by
  have hlength : ts.length = ts'.length := by simpa using congrArg List.length h
  refine List.forall₂_iff_get.2 ⟨hlength, fun k hk hk' => ⟨?_, k, _, _, ?_, ?_, rfl, rfl⟩⟩
  · simpa [hk, hk'] using congrArg (·[k]?) h
  · simp [hk]
  · simp [hk']

/-- **Tokens of the same kinds and texts are read alike.** -/
theorem readTokens_corresponds (h : ts.map Token.word = ts'.map Token.word) (n n' : Nat) :
    Alike (Corresponds ts ts') Eq (readTokens ts (.covered n)) (readTokens ts' (.covered n')) :=
  readFrom_alike ⟨rfl, .nil⟩ (forall₂_of_words h) n n'

end Reader

end MacroLisp
