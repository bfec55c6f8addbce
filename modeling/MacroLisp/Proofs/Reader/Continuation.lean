/-
  Reading on.

  The reader has nothing open when it has read a text to its end, so what is
  behind that text is read as if it stood alone: its forms come after those that
  have been read, and its offsets, also those of an error, are further on
  (`State.after`).

  * `step_after`, `finish_after`: one token, and the end;
  * `readFrom_after`: all tokens;
  * `read_append_line`: the text behind a line that can be read.
-/
import MacroLisp.Proofs.Lexing.Piece
import MacroLisp.Proofs.Reader.Acceptance
import MacroLisp.Proofs.Reader.Descent

namespace MacroLisp

/-- The error `k` bytes further on. -/
def ReadError.shift (k : Nat) : ReadError → ReadError
  | lexical e => lexical (e.shift k)
  | unexpectedClose pos => unexpectedClose (pos + k)
  | unterminatedList pos => unterminatedList (pos + k)
  | danglingQuote pos => danglingQuote (pos + k)
  | malformedAtom pos text => malformedAtom (pos + k) text
  | tooDeep pos depth => tooDeep (pos + k) depth

namespace Reader

def Pending.shift (k : Nat) : Pending → Pending
  | list pos items => list (pos + k) items
  | mark pos name => mark (pos + k) name

/-- The state `s`, where the forms `fs` had been read before, from `k` bytes. -/
def State.after (fs : List Expr) (k : Nat) (s : State) : State :=
  ⟨s.forms ++ fs.reverse, s.stack.map (.shift k)⟩

variable {fs : List Expr} {k : Nat}

theorem State.add_after (forms : List Expr) (stack : List Pending) (e : Expr) :
    State.add (forms ++ fs.reverse) (stack.map (.shift k)) e =
      (State.add forms stack e).after fs k := by
  induction stack generalizing e with
  | nil => rfl
  | cons p stack ih =>
    cases p with
    | list pos items => rfl
    | mark pos name => exact ih _

/-- What a result is where forms had been read before it. -/
def resultAfter {α β : Type} (f : α → β) (k : Nat) (r : Except ReadError α) : Except ReadError β :=
  (r.map f).mapError (.shift k)

theorem close_after (s : State) (pos : Nat) :
    close (s.after fs k) (pos + k) = resultAfter (.after fs k) k (close s pos) := by
  rcases s with ⟨forms, _ | ⟨⟨p, items⟩ | ⟨p, name⟩, stack⟩⟩
  · rfl
  · exact congrArg Except.ok (State.add_after forms stack _)
  · rfl

theorem start_after (s : State) (t : Token TokenKind) :
    start (s.after fs k) (t.shift k) = resultAfter (.after fs k) k (start s t) := by
  have hlength : (s.after fs k).stack.length = s.stack.length := List.length_map _
  -- what a token is does not depend on where it stands
  have hatom : atom? (t.shift k) = atom? t := rfl
  have hkind : (t.shift k).kind = t.kind := rfl
  unfold start
  rw [hlength, hatom, hkind]
  split
  · rfl
  split
  · rfl
  split
  · rfl
  split
  · exact congrArg Except.ok (State.add_after s.forms s.stack _)
  · rfl

theorem step_after (s : State) (t : Token TokenKind) :
    step (s.after fs k) (t.shift k) = resultAfter (.after fs k) k (step s t) := by
  by_cases hk : t.kind = .closeParen
  · rw [step_of_close hk, step_of_close (t := t.shift k) hk]
    exact close_after s t.pos
  · rw [step_of_ne hk, step_of_ne (t := t.shift k) hk, start_after]

theorem finish_after (s : State) (ending : Ending) :
    finish (s.after fs k) (ending.shift k) = resultAfter (fs ++ ·) k (finish s ending) := by
  cases ending with
  | stuck e => rfl
  | covered pos =>
    rcases s with ⟨forms, _ | ⟨⟨p, items⟩ | ⟨p, name⟩, stack⟩⟩
    · simp [finish, State.after, Ending.shift, resultAfter, Except.map, Except.mapError]
    · rfl
    · rfl

/-- **What is read on does not depend on what has been read.** -/
theorem readFrom_after (s : State) (ts : List (Token TokenKind)) (ending : Ending) :
    readFrom (s.after fs k) (ts.map (.shift k)) (ending.shift k) =
      resultAfter (fs ++ ·) k (readFrom s ts ending) := by
  induction ts generalizing s with
  | nil => exact finish_after s ending
  | cons t ts ih =>
    rw [List.map_cons, readFrom_cons, readFrom_cons, step_after]
    cases step s t with
    | error e => rfl
    | ok s' => exact ih s'

theorem readFrom_append {s s' : State} {ts : List (Token TokenKind)}
    (h : ts.foldlM step s = .ok s') (ts' : List (Token TokenKind)) (ending : Ending) :
    readFrom s (ts ++ ts') ending = readFrom s' ts' ending := by
  rw [readFrom, foldlM_append_of_ok h, readFrom]

/-- A text that can be read leaves nothing open. -/
theorem exists_run_of_readTokens {ts : List (Token TokenKind)} {ending : Ending}
    (h : readTokens ts ending = .ok fs) :
    ending.error? = none ∧ ts.foldlM step .initial = .ok (State.initial.after fs k) := by
  unfold readTokens at h
  rcases hrun : ts.foldlM step .initial with e | ⟨forms, stack⟩
  · rw [hrun] at h
    cases h
  · rw [hrun] at h
    obtain ⟨hend, hstack, hforms⟩ := finish_eq_ok_iff.1 h
    simp only at hstack hforms
    subst hstack hforms
    exact ⟨hend, by simp [State.after, State.initial]⟩

end Reader

/-- **A text behind a line that can be read is read as it is alone**, its forms
    after those of the line and its offsets behind it. -/
theorem read_append_line {s₁ : String} {fs : List Expr} (h : read s₁ = .ok fs) (s₂ : String) :
    read (s₁ ++ "\n" ++ s₂) =
      Reader.resultAfter (fs ++ ·) (s₁.utf8ByteSize + 1) (read s₂) := by
  let k := s₁.utf8ByteSize + 1
  let tiling := Tiling.ofSource s₂
  obtain ⟨hend, hrun⟩ := Reader.exists_run_of_readTokens (k := k) h
  have hline := Lexes.line s₂.toList hend
  have hpos : 0 + (String.ofList s₁.toList).utf8ByteSize + 1 = 0 + k := by
    rw [String.ofList_toList, Nat.add_assoc]
  rw [hpos] at hline
  have hjoined : Tiling.ofSource (s₁ ++ "\n" ++ s₂) =
      Tiling.scan TokenKind.rules (s₁.toList ++ ['\n'] ++ s₂.toList) 0 := by
    simp [Tiling.ofSource, Tiling.ofString]
  have hbehind : Tiling.scan TokenKind.rules s₂.toList (0 + k) = tiling.shift k :=
    Tiling.scan_shift ..
  calc read (s₁ ++ "\n" ++ s₂)
      = Reader.readFrom .initial ((Tiling.ofSource s₁).significant ++ (tiling.shift k).significant)
          (tiling.shift k).ending := by
        rw [read, hjoined, hline.significant, hline.ending, hbehind]
        rfl
    _ = Reader.readFrom (Reader.State.initial.after fs k) (tiling.significant.map (.shift k))
          (tiling.ending.shift k) := by
        rw [Reader.readFrom_append hrun, Tiling.significant_shift]
        rfl
    _ = Reader.resultAfter (fs ++ ·) k (read s₂) := Reader.readFrom_after ..

end MacroLisp
