/-
  Reading by recursion is reading with a stack.

  Where the recursive reader calls itself for a form, the other one goes on with
  the form added to what is open (`readOn_form`); while a list or a quote mark
  is read, it has that list or mark on top of its stack (`readOn_items`,
  `readOn_quoted`).  Both see the same significant tokens, whether they are
  looked at first or taken at once.

  * `descend_eq_read`: the main statement.
-/
import MacroLisp.Reader.Descent
import MacroLisp.Proofs.Lexing.Cursor

namespace MacroLisp

/-! ## Significant tokens ahead of a cursor -/

namespace Tokenizer

/-- The significant tokens ahead of the cursor. -/
def significant (t : Tokenizer TokenKind) : List (Token TokenKind) :=
  t.tiling.significant

variable {t t' : Tokenizer TokenKind} {token : Token TokenKind} {e : LexError}

theorem filter_beyond (keep : Token TokenKind → Bool) (ts : List (Token TokenKind)) :
    (Token.beyond keep ts).filter keep = (ts.filter keep).tail := by
  induction ts with
  | nil => rfl
  | cons token ts ih =>
    cases hk : keep token with
    | true => simp [Token.beyond, hk]
    | false => simpa [Token.beyond, hk] using ih

theorem filter_dropWhile (keep : Token TokenKind → Bool) (ts : List (Token TokenKind)) :
    (ts.dropWhile (!keep ·)).filter keep = ts.filter keep := by
  induction ts with
  | nil => rfl
  | cons token ts ih =>
    cases hk : keep token with
    | true => simp [hk]
    | false => simpa [hk] using ih

/-- Taking a significant token. -/
theorem consumeSignificant_eq (t : Tokenizer TokenKind) :
    t.consumeSignificant.1 = t.tiling.ending.found t.significant.head? ∧
      t.consumeSignificant.2.significant = t.significant.tail ∧
      t.consumeSignificant.2.tiling.ending = t.tiling.ending := by
  rcases h : t.tiling with ⟨ahead, ending⟩
  have hsplit : t.tiling = ⟨Token.through Token.isSignificant ahead ++
      Token.beyond Token.isSignificant ahead, ending⟩ := by
    rw [Token.through_append_beyond, h]
  rw [consumeSignificant, consume_eq Token.isSignificant h, significant, significant,
    tiling_advanceAll hsplit, h]
  exact ⟨by rw [Tiling.significant, List.head?_filter], filter_beyond _ _, rfl⟩

/-- Looking at a significant token. -/
theorem peekSignificant_eq (t : Tokenizer TokenKind) :
    t.peekSignificant.1 = t.tiling.ending.found t.significant.head? ∧
      t.peekSignificant.2.significant = t.significant ∧
      t.peekSignificant.2.tiling.ending = t.tiling.ending := by
  rcases h : t.tiling with ⟨ahead, ending⟩
  have htrivia : (fun token : Token TokenKind => token.kind.isTrivia) =
      (!Token.isSignificant ·) := by
    funext token
    simp [Token.isSignificant]
  have hsplit : t.tiling = ⟨ahead.takeWhile (!Token.isSignificant ·) ++
      ahead.dropWhile (!Token.isSignificant ·), ending⟩ := by
    rw [List.takeWhile_append_dropWhile, h]
  have hafter := tiling_advanceAll hsplit
  simp only [peekSignificant, skipWhile_eq _ h, htrivia, significant, hafter, h]
  refine ⟨?_, filter_dropWhile _ _, trivial⟩
  rw [peek_eq_found hafter, Tiling.significant, List.head?_filter,
    List.find?_eq_head?_dropWhile_not]

theorem failed_consumeSignificant (t : Tokenizer TokenKind) :
    t.consumeSignificant.2.failed = t.failed := by
  rw [consumeSignificant, consume_eq Token.isSignificant rfl]
  exact failed_advanceAll ..

theorem failed_peekSignificant (t : Tokenizer TokenKind) :
    t.peekSignificant.2.failed = t.failed := by
  rw [peekSignificant, skipWhile_eq _ rfl]
  exact failed_advanceAll ..

theorem nextSignificant_of_failed (hf : t.failed = true) : t.nextSignificant = (none, t) := by
  rw [nextSignificant, nextWhere, if_pos hf]

/-- The next element of the stream is what is taken, and an error is noted. -/
theorem nextSignificant_of_consume (hf : t.failed = false)
    {r : Except LexError (Option (Token TokenKind))} (h : t.consumeSignificant = (r, t')) :
    t.nextSignificant = match r with
      | .ok none => (none, t')
      | .ok (some token) => (some (.ok token), t')
      | .error e => (some (.error e), { t' with failed := true }) := by
  rw [consumeSignificant] at h
  rw [nextSignificant, nextWhere, if_neg (by simp [hf]), h]
  rcases r with e | _ | token <;> rfl

theorem found_head?_of_ok {ending : Ending} {ts : List (Token TokenKind)}
    (h : ending.found ts.head? = .ok (some token)) : ts = token :: ts.tail := by
  cases ts with
  | nil => cases ending <;> cases h
  | cons u ts =>
    cases h
    rfl

section
variable {r : Except LexError (Option (Token TokenKind))}

theorem significant_of_consume (h : t.consumeSignificant = (.ok (some token), t')) :
    t.significant = token :: t'.significant ∧ t'.tiling.ending = t.tiling.ending := by
  obtain ⟨hr, hs, he⟩ := consumeSignificant_eq t
  rw [h] at hr hs he
  exact ⟨hs ▸ found_head?_of_ok hr.symm, he⟩

/-- The token that has been looked at is the next to be taken. -/
theorem exists_consume_of_peek (h : t.peekSignificant = (.ok (some token), t')) :
    ∃ t'', t'.consumeSignificant = (.ok (some token), t'') := by
  obtain ⟨hr, hs, he⟩ := peekSignificant_eq t
  rw [h] at hr hs he
  have hr' := (consumeSignificant_eq t').1
  rw [hs, he, ← hr] at hr'
  exact ⟨t'.consumeSignificant.2, Prod.ext hr' rfl⟩

theorem significant_of_peek (h : t.peekSignificant = (r, t')) :
    t'.significant = t.significant ∧ t'.tiling.ending = t.tiling.ending := by
  obtain ⟨-, hs, he⟩ := peekSignificant_eq t
  rw [h] at hs he
  exact ⟨hs, he⟩

end

end Tokenizer

/-! ## The rest of a run -/

namespace Reader

/-- What is read from a state on, where the tokens `ts` and the end are left. -/
def readFrom (s : State) (ts : List (Token TokenKind)) (ending : Ending) :
    Except ReadError (List Expr) := do
  finish (← ts.foldlM step s) ending

/-- What is read from a state on, where all ahead of the cursor is left. -/
def readOn (s : State) (t : Tokenizer TokenKind) : Except ReadError (List Expr) :=
  readFrom s t.significant t.tiling.ending

theorem readFrom_cons (s : State) (token : Token TokenKind) (ts : List (Token TokenKind))
    (ending : Ending) :
    readFrom s (token :: ts) ending = step s token >>= fun s' => readFrom s' ts ending := by
  simp only [readFrom, List.foldlM_cons, bind_assoc]

section
variable {s : State} {t t' : Tokenizer TokenKind} {token : Token TokenKind}

theorem readOn_of_consume (h : t.consumeSignificant = (.ok (some token), t')) :
    readOn s t = readFrom s (token :: t'.significant) t'.tiling.ending := by
  obtain ⟨hs, he⟩ := Tokenizer.significant_of_consume h
  rw [readOn, hs, he]

theorem readOn_of_peek {r : Except LexError (Option (Token TokenKind))}
    (h : t.peekSignificant = (r, t')) : readOn s t' = readOn s t := by
  obtain ⟨hs, he⟩ := Tokenizer.significant_of_peek h
  rw [readOn, readOn, hs, he]

/-- Where the text is no token, the run is over. -/
theorem readOn_of_error {e : LexError}
    (h : t.tiling.ending.found t.significant.head? = .error e) :
    readOn s t = .error (.lexical e) := by
  obtain ⟨hs, he⟩ := Tokenizer.found_eq_error_iff.1 h
  rw [readOn, List.head?_eq_none_iff.1 hs]
  cases hend : t.tiling.ending with
  | covered pos =>
    rw [hend] at he
    cases he
  | stuck e' =>
    rw [hend] at he
    cases he
    rfl

/-- At the end of the text the run is over. -/
theorem exists_readOn_of_none (h : t.tiling.ending.found t.significant.head? = .ok none) :
    ∃ pos, readOn s t = finish s (.covered pos) := by
  obtain ⟨hs, he⟩ := Tokenizer.found_eq_none_iff.1 h
  rw [readOn, List.head?_eq_none_iff.1 hs]
  cases hend : t.tiling.ending with
  | covered pos => exact ⟨pos, rfl⟩
  | stuck e =>
    rw [hend] at he
    cases he

end

/-! ## The recursive reader -/

mutual

/-- **A call for a form adds the form to what is open.** -/
theorem readFrom_form (token : Token TokenKind) (t : Tokenizer TokenKind) (fs : List Expr)
    (stack : List Pending) (h : token.kind = .closeParen → stack = []) :
    readFrom ⟨fs, stack⟩ (token :: t.significant) t.tiling.ending =
      Descent.form stack.length token t >>= fun r => readOn (State.add fs stack r.1) r.2.1 := by
  rw [readFrom_cons, Descent.form]
  by_cases hc : token.kind = .closeParen
  · rw [step_of_close hc, h hc, if_neg (by decide), if_pos hc]
    rfl
  rw [step_of_ne hc, start, if_neg hc]
  by_cases hmax : maxNesting ≤ stack.length
  · rw [if_pos hmax, if_pos hmax]
    rfl
  rw [if_neg hmax, if_neg hmax]
  by_cases ho : token.kind = .openParen
  · rw [if_pos ho, if_pos ho]
    simp only [bind_assoc, pure_bind]
    exact readOn_items token.pos t fs [] stack
  rw [if_neg ho, if_neg ho]
  cases hm : markName? token.kind with
  | some name =>
    simp only [bind_assoc, pure_bind]
    exact readOn_quoted token.pos name t fs stack
  | none => cases atom? token <;> rfl
termination_by (t.rest.length, 1)

/-- A call for the items of a list fills the list on top of the stack. -/
theorem readOn_items (opening : Nat) (t : Tokenizer TokenKind) (fs acc : List Expr)
    (stack : List Pending) :
    readOn ⟨fs, .list opening acc :: stack⟩ t =
      Descent.items (stack.length + 1) opening t >>= fun r =>
        readOn (State.add fs stack (.list (acc.reverse ++ r.1))) r.2.1 := by
  have hfound := (Tokenizer.consumeSignificant_eq t).1
  rw [Descent.items]
  split
  · rename_i e t' h
    rw [h] at hfound
    exact readOn_of_error hfound.symm
  · rename_i t' h
    rw [h] at hfound
    obtain ⟨pos, hend⟩ := exists_readOn_of_none hfound.symm
    exact hend
  · rename_i token t₁ h
    have h₁ := Tokenizer.length_rest_consumeSignificant h
    rw [readOn_of_consume h]
    by_cases hc : token.kind = .closeParen
    · rw [readFrom_cons, step_of_close hc, if_pos hc]
      show readOn (State.add fs stack (.list acc.reverse)) t₁ =
        readOn (State.add fs stack (.list (acc.reverse ++ []))) t₁
      rw [List.append_nil]
    · rw [if_neg hc, readFrom_form token t₁ fs (.list opening acc :: stack) (absurd · hc)]
      simp only [bind_assoc, pure_bind, State.add]
      refine bind_congr fun r => ?_
      have h₂ := r.2.2
      rw [readOn_items opening r.2.1 fs (r.1 :: acc) stack]
      refine bind_congr fun r' => ?_
      simp
termination_by (t.rest.length, 0)

/-- A call for the form behind a quote mark completes the mark on top of the
    stack. -/
theorem readOn_quoted (mark : Nat) (name : String) (t : Tokenizer TokenKind) (fs : List Expr)
    (stack : List Pending) :
    readOn ⟨fs, .mark mark name :: stack⟩ t =
      Descent.quoted (stack.length + 1) mark t >>= fun r =>
        readOn (State.add fs stack (.list [.symbol name, r.1])) r.2.1 := by
  have hfound := (Tokenizer.peekSignificant_eq t).1
  rw [Descent.quoted]
  split
  · rename_i e t' h
    rw [h] at hfound
    exact readOn_of_error hfound.symm
  · rename_i t' h
    rw [h] at hfound
    obtain ⟨pos, hend⟩ := exists_readOn_of_none hfound.symm
    exact hend
  · rename_i token t₁ h
    -- the token that has been looked at is the one that is taken
    obtain ⟨t₂, h'⟩ := Tokenizer.exists_consume_of_peek h
    have h₂ := Tokenizer.length_rest_consume_peeked h h'
    rw [← readOn_of_peek h, readOn_of_consume h']
    by_cases hc : token.kind = .closeParen
    · rw [readFrom_cons, step_of_close hc, if_pos hc]
      rfl
    · rw [if_neg hc, readFrom_form token t₂ fs (.mark mark name :: stack) (absurd · hc)]
      split
      · rename_i h''
        cases h'.symm.trans h''
      · rename_i h''
        cases h'.symm.trans h''
        simp only [bind_assoc, pure_bind]
        rfl
termination_by (t.rest.length, 0)

end

/-- The call for all forms adds them to those that are read. -/
theorem readOn_forms (t : Tokenizer TokenKind) (fs : List Expr) :
    readOn ⟨fs, []⟩ t = Descent.forms t >>= fun es => pure (fs.reverse ++ es) := by
  have hfound := (Tokenizer.consumeSignificant_eq t).1
  rw [Descent.forms]
  split
  · rename_i e t' h
    rw [h] at hfound
    exact readOn_of_error hfound.symm
  · rename_i t' h
    rw [h] at hfound
    obtain ⟨pos, hend⟩ := exists_readOn_of_none hfound.symm
    rw [hend]
    show Except.ok fs.reverse = Except.ok (fs.reverse ++ [])
    rw [List.append_nil]
  · rename_i token t₁ h
    have h₁ := Tokenizer.length_rest_consumeSignificant h
    rw [readOn_of_consume h, readFrom_form token t₁ fs [] fun _ => rfl]
    simp only [bind_assoc, pure_bind]
    refine bind_congr fun r => ?_
    have h₂ := r.2.2
    rw [State.add, readOn_forms r.2.1 (r.1 :: fs)]
    simp
termination_by t.rest.length

/-- **Reading by recursion is reading with a stack.** -/
theorem descend_eq_read (source : String) : descend source = read source := by
  have hread : read source = readOn .initial (.ofSource source) := rfl
  rw [hread, State.initial, readOn_forms, descend]
  simp

end Reader

end MacroLisp
