/-
  The rule table of the language is unambiguous, and where it fails.

  The table is exclusive, as each of its rules has first characters of its own,
  so that its order is of no consequence.  No rule matches a text exactly where
  it begins with none of these, or with the quote of a string that does not
  end; then a part of the text up to white space is shown.

  * `replies_of_perm`: a cursor and the order of an exclusive table;
  * `LexError.shown_spec`: what an error shows;
  * `forall_not_matches_iff`: where no rule matches;
  * `rules_unambiguous`: the main statement.
-/
import MacroLisp.Proofs.Lexing.Cursor
import MacroLisp.Proofs.Lexing.Expression

namespace MacroLisp

/-! ## The order of the rules -/

/-- The order of an exclusive table does not change what a cursor replies. -/
theorem Tokenizer.replies_of_perm {κ : Type} {table table' : List (Rule κ)}
    (h : Rule.Exclusive table) (hp : table'.Perm table) (source : String)
    (requests : List (Request κ)) :
    (Request.run answer requests (.ofString table' source)).1 =
      (Request.run answer requests (.ofString table source)).1 := by
  have hreplies (rules : List (Rule κ)) :
      (Request.run answer requests (.ofString rules source)).1 =
        (Request.run (Walk.answer (Tiling.ofString rules source).ending) requests
          (.start (Tiling.ofString rules source).tokens)).1 :=
    (run_of_leads ⟨.ofString rules source, rfl⟩ requests).1
  rw [hreplies, hreplies, Tiling.ofString, Tiling.ofString, Tiling.scan_of_perm h hp]

/-! ## What an error shows -/

namespace LexError

/-- `found` is what an error may show of the text `rest`: its start, up to white
    space, the end or the greatest length. -/
structure Shows (rest : List Char) (found : String) : Prop where
  start : found.toList <+: rest
  unbroken : ∀ c ∈ found.toList, Text.isWhiteSpace c = false
  length_le : found.length ≤ 16
  stops : found.length < 16 → ∀ c ∈ (rest.drop found.length).head?, Text.isWhiteSpace c = true

theorem drop_length_takeWhile (p : Char → Bool) (rest : List Char) :
    rest.drop (rest.takeWhile p).length = rest.dropWhile p := by
  calc rest.drop (rest.takeWhile p).length
      = (rest.takeWhile p ++ rest.dropWhile p).drop (rest.takeWhile p).length := by
        rw [List.takeWhile_append_dropWhile]
    _ = rest.dropWhile p := List.drop_left

theorem shown_spec (rest : List Char) : Shows rest (shown rest) := by
  refine ⟨?_, ?_, ?_, ?_⟩
  · rw [shown, String.toList_ofList]
    exact (List.take_prefix ..).trans (List.takeWhile_prefix _)
  · intro c hc
    rw [shown, String.toList_ofList] at hc
    simpa using List.mem_takeWhile_imp (List.mem_of_mem_take hc)
  · simp [shown, shownLength]
  · intro hlt c hc
    rw [shown, String.length_ofList] at hlt hc
    -- nothing is cut off, so white space has ended it
    rw [List.take_of_length_le (by simp [shownLength] at hlt ⊢; omega), drop_length_takeWhile] at hc
    have hfirst := List.head?_dropWhile_not (!Text.isWhiteSpace ·) rest
    rw [Option.mem_def.1 hc] at hfirst
    simpa using hfirst

theorem shown_ne {c : Char} {cs : List Char} (hc : Text.isWhiteSpace c = false) :
    shown (c :: cs) ≠ "" := by
  intro h
  simpa [shown, shownLength, hc] using congrArg String.toList h

end LexError

/-! ## The table of the language -/

namespace TokenKind

variable {kind kind' : TokenKind} {c : Char} {cs rest : List Char}

/-- The characters that begin a token, but for white space, letters and
    digits. -/
def marks : List Char :=
  [';', '(', ')', '\x27', '\x60', ',', '"', '<', '>', '=', '+', '-', '*', '/', '!', '.', '#']

/-- Some token begins with the character. -/
theorem exists_isHead_iff :
    (∃ kind : TokenKind, kind.isHead c = true) ↔
      Text.isWhiteSpace c = true ∨ c ∈ marks ∨ c.isAlphanum = true := by
  have hbegin : ['!', '.', '#'] ⊆ marks := by simp [marks]
  have hoperator : ['<', '>', '=', '+', '-', '*', '/'] ⊆ marks := by simp [marks]
  have hmarks : (marks.all fun c => all.any fun kind => kind.isHead c) = true := by decide
  constructor
  · rintro ⟨kind, h⟩
    cases kind with
    | whiteSpace => exact .inl h
    | number =>
      have hdigit : c.isDigit = true := h
      exact .inr (.inr (by simp [Char.isAlphanum, hdigit]))
    | symbol =>
      simp only [isHead, isSymbolStart, Bool.or_eq_true, decide_eq_true_eq] at h
      rcases h with h | h
      · exact .inr (.inr (by simp [Char.isAlphanum, h]))
      · exact .inr (.inl (hbegin h))
    | comment | openParen | closeParen | quote | backquote | unquote | string =>
      exact .inr (.inl (by simp [isHead] at h; simp [marks, h]))
    | operator =>
      simp only [isHead, isOperator, decide_eq_true_eq] at h
      exact .inr (.inl (hoperator h))
  · rintro (h | h | h)
    · exact ⟨whiteSpace, h⟩
    · obtain ⟨kind, -, hhead⟩ := List.any_eq_true.1 (List.all_eq_true.1 hmarks c h)
      exact ⟨kind, hhead⟩
    · rcases Bool.or_eq_true _ _ ▸ h with h | h
      · exact ⟨symbol, by simp [isHead, isSymbolStart, h]⟩
      · exact ⟨number, h⟩

/-- **A rule matches where a token of its kind begins**, which for a string
    means that it also ends. -/
theorem matches_cons_iff :
    (⟨kind, kind.pattern⟩ : Rule TokenKind).Matches (c :: cs) ↔
      kind.isHead c = true ∧ (kind = string → '"' ∈ cs) := by
  by_cases hk : kind = string
  · subst hk
    simp only [Rule.Matches, pattern, Pattern.enclosed, isHead, Option.ite_none_right_eq_some,
      beq_iff_eq, true_imp_iff]
    constructor
    · rintro ⟨n, -, h, -⟩
      exact h
    · intro h
      exact ⟨_, by omega, h, rfl⟩
  · simp only [Rule.Matches, pattern_of_ne hk, Pattern.headed, Option.ite_none_right_eq_some, hk,
      false_imp_iff, and_true]
    constructor
    · rintro ⟨n, -, h, -⟩
      exact h
    · intro h
      exact ⟨_, by omega, h, rfl⟩

theorem forall_mem_rules {P : Rule TokenKind → Prop} :
    (∀ r ∈ rules, P r) ↔ ∀ kind : TokenKind, P ⟨kind, kind.pattern⟩ := by
  simp [rules, mem_all]

/-- **No rule matches** exactly where no token begins, or where a string does
    not end. -/
theorem forall_not_matches_iff :
    (∀ r ∈ rules, ¬ r.Matches (c :: cs)) ↔
      (c = '"' ∧ '"' ∉ cs) ∨
        (Text.isWhiteSpace c = false ∧ c ∉ marks ∧ c.isAlphanum = false) := by
  simp only [forall_mem_rules, matches_cons_iff]
  constructor
  · intro h
    by_cases hc : ∃ kind : TokenKind, kind.isHead c = true
    · obtain ⟨kind, hhead⟩ := hc
      obtain ⟨rfl, hcs⟩ : kind = string ∧ '"' ∉ cs := by simpa [hhead] using h kind
      exact .inl ⟨eq_of_beq hhead, hcs⟩
    · rw [exists_isHead_iff] at hc
      exact .inr (by simpa using hc)
  · rintro (⟨rfl, hcs⟩ | hc) kind ⟨hhead, hends⟩
    · have hquote : string.isHead '"' = true := rfl
      exact hcs (hends (eq_of_isHead hhead hquote))
    · have hbegins := exists_isHead_iff.1 ⟨kind, hhead⟩
      simp [hc] at hbegins

theorem tokenAt_eq_error_iff_not_matches {pos : Nat} {e : LexError} :
    tokenAt rules (c :: cs) pos = .error e ↔
      (∀ r ∈ rules, ¬ r.Matches (c :: cs)) ∧ e = ⟨pos, LexError.shown (c :: cs)⟩ := by
  simp [tokenAt_eq_error_iff, Rule.firstMatch_eq_none_iff_not_matches]

theorem not_isWhiteSpace_of_not_matches (h : ∀ r ∈ rules, ¬ r.Matches (c :: cs)) :
    Text.isWhiteSpace c = false := by
  rcases forall_not_matches_iff.1 h with ⟨rfl, -⟩ | ⟨hc, -, -⟩
  · decide
  · exact hc

/-- **The rule table of the language is unambiguous, and fails only where no
    token begins or where a string does not end.**
    Its eleven rules are those of their expressions, and at most one of them
    matches at the start of a text.  So the table in any other order cuts every
    source into the same tokens with the same error, and a cursor with that
    table gives the same replies.
    There is no token at the cursor, but an error, just if no rule matches.
    The error has the offset of the cursor, and what it shows is the start of
    what remains, up to white space, the end, or sixteen characters. -/
theorem rules_unambiguous :
    (rules.length = 11 ∧
      rules.map some = all.map fun kind => Rule.ofPattern? kind kind.expression) ∧
    (∀ rest ≠ [], rules.Pairwise fun r r' => ¬ (r.Matches rest ∧ r'.Matches rest)) ∧
    (∀ table : List (Rule TokenKind), table.Perm rules → ∀ source : String,
      Tiling.ofString table source = .ofSource source ∧
      ∀ requests : List (Tokenizer.Request TokenKind),
        (Tokenizer.Request.run Tokenizer.answer requests (.ofString table source)).1 =
          (Tokenizer.Request.run Tokenizer.answer requests (.ofSource source)).1) ∧
    ∀ c cs, ((∀ r ∈ rules, ¬ r.Matches (c :: cs)) ↔
        (c = '"' ∧ '"' ∉ cs) ∨
          (Text.isWhiteSpace c = false ∧ c ∉ marks ∧ c.isAlphanum = false)) ∧
      ∀ pos, ((∃ e, tokenAt rules (c :: cs) pos = .error e) ↔
          ∀ r ∈ rules, ¬ r.Matches (c :: cs)) ∧
        ∀ e, tokenAt rules (c :: cs) pos = .error e →
          e.pos = pos ∧ e.found ≠ "" ∧ LexError.Shows (c :: cs) e.found := by
  refine ⟨⟨rfl, ?_⟩, fun rest _ => exclusive_rules rest, fun table hp source => ⟨?_, ?_⟩, ?_⟩
  · rw [rules, List.map_map]
    exact List.map_congr_left fun kind _ => (ofPattern?_expression kind).symm
  · exact Tiling.scan_of_perm exclusive_rules hp source.toList 0
  · exact Tokenizer.replies_of_perm exclusive_rules hp source
  · refine fun c cs => ⟨forall_not_matches_iff, fun pos => ⟨?_, fun e he => ?_⟩⟩
    · simp [tokenAt_eq_error_iff_not_matches]
    · obtain ⟨hnone, rfl⟩ := tokenAt_eq_error_iff_not_matches.1 he
      exact ⟨rfl, LexError.shown_ne (not_isWhiteSpace_of_not_matches hnone),
        LexError.shown_spec _⟩

/-- The table turned around, with a character that begins no token, and with a
    string that does not end. -/
theorem rules_unambiguous_reversed :
    Tiling.ofString rules.reverse "(%é b" = ⟨[⟨openParen, "(", 0⟩], .stuck ⟨1, "%é"⟩⟩ ∧
    (∀ r ∈ rules, ¬ r.Matches ['"', 'a', ' ', 'b']) ∧
    LexError.Shows ['"', 'a', ' ', 'b'] "\"a" := by
  obtain ⟨-, -, horder, hfail⟩ := rules_unambiguous
  obtain ⟨hnone, herror⟩ := hfail '"' ['a', ' ', 'b']
  refine ⟨?_, hnone.2 (.inl ⟨rfl, by decide⟩), ?_⟩
  · rw [(horder rules.reverse (List.reverse_perm rules) "(%é b").1]
    cbv
  · have htoken : tokenAt rules ['"', 'a', ' ', 'b'] 3 = .error ⟨3, "\"a"⟩ := by cbv
    exact ((herror 3).2 _ htoken).2.2

end TokenKind

end MacroLisp
