/-
  What has been written is read back.

  The text of a printable tree, wherever a blank, a parenthesis or nothing
  follows, falls into the tokens of a derivation of that tree.  So written
  trees are read back as they were, alone or one after the other, up to the
  depth that the reader allows.

  * `lexed_of_printable`: a printable tree is written in its own tokens;
  * `read_printed`: the main statement.
-/
import MacroLisp.Proofs.Lexing.Piece
import MacroLisp.Proofs.Reader.Printable

namespace MacroLisp

/-! ## What follows a text -/

/-- What may stand behind a written tree: nothing, a blank, or the end of the
    list around it. -/
def Follows (rest : List Char) : Prop :=
  ∀ c ∈ rest.head?, c = ' ' ∨ c = ')'

theorem TokenKind.stops_of_follows {kind : TokenKind} {rest : List Char} (hk : kind.isAtom = true)
    (h : Follows rest) : kind.Stops rest := by
  cases rest with
  | nil => exact stops_nil kind
  | cons c cs =>
    rw [stops_cons]
    intro _
    rcases h c rfl with rfl | rfl <;> cases kind <;> first | rfl | simp [isAtom] at hk

theorem TokenKind.stops_of_isHead {kind : TokenKind} (hne : kind ≠ whiteSpace) {c : Char}
    (hc : kind.isHead c = true) (cs : List Char) : whiteSpace.Stops (c :: cs) := by
  rw [stops_cons]
  intro _
  rw [Bool.eq_false_iff]
  intro hw
  exact hne (eq_of_isHead hc hw)

/-! ## Written atoms -/

namespace Expr

/-- Wherever the text of the tree may end, it falls into the tokens of a
    derivation of the tree. -/
def Lexed (e : Expr) : Prop :=
  ∀ rest pos, Follows rest →
    ∃ d pos', Derivation.form d = e ∧ Lexes e.text.toList rest pos d.tokens pos'

/-- The text of the tree is an atom of the kind, which stands for the tree. -/
structure WrittenAs (e : Expr) (kind : TokenKind) : Prop where
  isAtom : kind.isAtom = true
  shape : kind.Shape e.text.toList
  leaf : ∀ pos, Token.leaf ⟨kind, e.text, pos⟩ = e

variable {e : Expr} {kind : TokenKind}

theorem WrittenAs.lexed (h : e.WrittenAs kind) : e.Lexed := by
  intro rest pos hr
  have htrivia : kind.isTrivia = false := by
    have ha := h.isAtom
    cases kind <;> first | rfl | simp [TokenKind.isAtom] at ha
  have hlex := Lexes.token h.shape (TokenKind.stops_of_follows h.isAtom hr) htrivia pos
  rw [String.ofList_toList] at hlex
  exact ⟨.atom ⟨kind, e.text, pos⟩ h.isAtom, _, h.leaf pos, hlex⟩

theorem WrittenAs.stops (h : e.WrittenAs kind) (rest : List Char) :
    TokenKind.whiteSpace.Stops (e.text.toList ++ rest) := by
  have hne : kind ≠ .whiteSpace := by
    rintro rfl
    exact Bool.false_ne_true h.isAtom
  obtain ⟨c, cs, hs, hc⟩ := TokenKind.isHead_of_shape h.shape
  rw [hs]
  exact TokenKind.stops_of_isHead hne hc _

/-- The text of a natural number is a row of digits that denotes it. -/
theorem writtenAs_int {i : Int64} (h : 0 ≤ i.toInt) : (number (.int i)).WrittenAs .number := by
  obtain ⟨n, hn⟩ := Int.eq_ofNat_of_zero_le h
  have htext : (number (.int i)).text.toList = Nat.toDigits 10 n := by
    have hrepr : (number (.int i)).text = n.repr := by
      rw [text, Number.text, hn]
      rfl
    rw [hrepr, Nat.toList_repr]
  refine ⟨rfl, ?_, fun pos => ?_⟩
  · rw [htext, TokenKind.shape_number]
    exact ⟨Nat.toDigits_ne_nil, fun c hc => Nat.isDigit_of_mem_toDigits (by decide) (by decide) hc⟩
  · rw [(Token.leaf_of_number rfl).1 i, hn, Token.decimal, htext, Nat.ofDigitChars_ten_toDigits]

theorem writtenAs_string {s : String} (h : '"' ∉ s.toList) : (string s).WrittenAs .string := by
  have htext : (string s).text.toList = '"' :: (s.toList ++ ['"']) := by simp [text]
  refine ⟨rfl, TokenKind.shape_string.2 ⟨s.toList, h, htext⟩, fun pos => ?_⟩
  simp [Token.leaf, htext]

theorem writtenAs_operator {c : Char} (h : TokenKind.isOperator c = true) :
    (symbol (String.ofList [c])).WrittenAs .operator := by
  refine ⟨rfl, ?_, fun pos => rfl⟩
  rw [text, String.toList_ofList]
  exact TokenKind.shape_singleton (by decide) h

theorem writtenAs_symbol {c : Char} {cs : List Char} (hc : TokenKind.isSymbolStart c = true)
    (hcs : ∀ x ∈ cs, TokenKind.isSymbolRest x = true) :
    (symbol (String.ofList (c :: cs))).WrittenAs .symbol := by
  refine ⟨rfl, ?_, fun pos => rfl⟩
  rw [text, String.toList_ofList, TokenKind.shape_of_ne (by decide)]
  exact ⟨c, cs, hc, hcs, rfl⟩

/-! ## Written lists -/

/-- The text of some trees, one after the other. -/
def joined (es : List Expr) : String :=
  " ".intercalate (es.map text)

theorem joined_cons_cons (e e' : Expr) (es : List Expr) :
    (joined (e :: e' :: es)).toList = e.text.toList ++ ([' '] ++ (joined (e' :: es)).toList) := by
  simp [joined, String.intercalate_cons_cons]

theorem toList_text_list (items : List Expr) :
    (list items).text.toList = ['('] ++ ((joined items).toList ++ [')']) := by
  simp [text_list, Value.listText, joined]

/-- A written tree does not begin with white space. -/
theorem Printable.stops_text (h : e.Printable) (rest : List Char) :
    TokenKind.whiteSpace.Stops (e.text.toList ++ rest) := by
  cases h with
  | int i h => exact (writtenAs_int h).stops rest
  | string s h => exact (writtenAs_string h).stops rest
  | operator c h => exact (writtenAs_operator h).stops rest
  | symbol c cs hc hcs => exact (writtenAs_symbol hc hcs).stops rest
  | list items h =>
    have hopen : TokenKind.openParen.isHead '(' = true := rfl
    rw [toList_text_list]
    exact TokenKind.stops_of_isHead (by decide) hopen _

theorem stops_joined (he : e.Printable) (es : List Expr) (rest : List Char) :
    TokenKind.whiteSpace.Stops ((joined (e :: es)).toList ++ rest) := by
  cases es with
  | nil => simpa [joined] using he.stops_text rest
  | cons e' es =>
    rw [joined_cons_cons, List.append_assoc]
    exact he.stops_text _

/-- Trees that are written one after the other are lexed one after the other. -/
theorem lexed_joined {es : List Expr} (hp : ∀ e ∈ es, e.Printable) (hes : ∀ e ∈ es, e.Lexed)
    (rest : List Char) (pos : Nat) (hr : Follows rest) :
    ∃ ds pos', ds.map Derivation.form = es ∧
      Lexes (joined es).toList rest pos (Derivation.yield ds) pos' := by
  induction es generalizing pos with
  | nil => exact ⟨[], pos, rfl, .nil rest pos⟩
  | cons e es ih =>
    cases es with
    | nil =>
      obtain ⟨d, pos', hd, hlex⟩ := hes e (by simp) rest pos hr
      exact ⟨[d], pos', by simp [hd], by simpa [joined, Derivation.yield] using hlex⟩
    | cons e' es =>
      have hblank : Follows ([' '] ++ (joined (e' :: es)).toList ++ rest) := by simp [Follows]
      obtain ⟨d, pos₁, hd, hlex⟩ := hes e (by simp) _ pos hblank
      have hsep := Lexes.blank (stops_joined (hp e' (by simp)) es rest) pos₁
      obtain ⟨ds, pos₂, hds, hlexs⟩ := ih (fun x hx => hp x (by simp [hx]))
        (fun x hx => hes x (by simp [hx])) (pos₁ + (String.ofList [' ']).utf8ByteSize)
      refine ⟨d :: ds, pos₂, by simp [hd, hds], ?_⟩
      rw [joined_cons_cons, Derivation.yield]
      exact hlex.append (hsep.append hlexs)

theorem lexed_list {items : List Expr} (hp : ∀ e ∈ items, e.Printable)
    (hes : ∀ e ∈ items, e.Lexed) : (list items).Lexed := by
  intro rest pos hr
  have hopen : Lexes ['('] ((joined items).toList ++ [')'] ++ rest) pos
      [⟨.openParen, String.ofList ['('], pos⟩] _ :=
    .token (TokenKind.shape_singleton (by decide) rfl) (fun _ _ _ => rfl) rfl pos
  obtain ⟨ds, pos', hds, hin⟩ := lexed_joined hp hes ([')'] ++ rest)
    (pos + (String.ofList ['(']).utf8ByteSize) (by simp [Follows])
  have hclose : Lexes [')'] rest pos' [⟨.closeParen, String.ofList [')'], pos'⟩] _ :=
    .token (TokenKind.shape_singleton (by decide) rfl) (fun _ _ _ => rfl) rfl pos'
  have hlex := hopen.append (hin.append hclose)
  rw [← toList_text_list] at hlex
  have hform : (Derivation.list ⟨.openParen, String.ofList ['('], pos⟩ ds
      ⟨.closeParen, String.ofList [')'], pos'⟩ rfl rfl).form = list items := by
    rw [Derivation.form, Derivation.forms_eq_map, hds]
  exact ⟨_, _, hform, hlex⟩

/-- **A printable tree is written in its own tokens.** -/
theorem lexed_of_printable (h : e.Printable) : e.Lexed := by
  induction h with
  | int i h => exact (writtenAs_int h).lexed
  | string s h => exact (writtenAs_string h).lexed
  | operator c h => exact (writtenAs_operator h).lexed
  | symbol c cs hc hcs => exact (writtenAs_symbol hc hcs).lexed
  | list items h ih => exact lexed_list h ih

end Expr

/-! ## Reading -/

/-- A text that falls into the tokens of some derivations is derived by them. -/
theorem Derives.of_lexes {source : String} {ds : List Derivation} {pos : Nat}
    (hlex : Lexes source.toList [] 0 (Derivation.yield ds) pos)
    (hd : ∀ n ∈ Derivation.levelsOf ds, n < Reader.maxNesting) : Derives source ds := by
  obtain ⟨hsig, hend⟩ := hlex.tiling
  exact ⟨by rw [hend]; rfl, hsig.symm, hd⟩

theorem read_joined {es : List Expr} (hp : ∀ e ∈ es, e.Printable)
    (hd : ∀ e ∈ es, e.depth ≤ Reader.maxNesting) : read (Expr.joined es) = .ok es := by
  obtain ⟨ds, pos, hds, hlex⟩ := Expr.lexed_joined hp (fun e he => Expr.lexed_of_printable (hp e he))
    [] 0 (by simp [Follows])
  refine read_eq_ok_iff.2 ⟨ds, .of_lexes hlex ?_, hds⟩
  refine Derivation.forall_below_iff.1 fun d hmem => Derivation.below_iff_depth.2 ?_
  have hdepth := hd d.form (hds ▸ List.mem_map_of_mem hmem)
  omega

/-- **What has been written is read back.**
    A printable tree that is not too deep is read from its text, and so are
    such trees one after the other; what is read is of this kind, up to
    doubles; so the forms of a text without numbers that are too large for an
    integer are read again from their own text. -/
theorem read_printed :
    (∀ e : Expr, e.Printable → e.depth ≤ Reader.maxNesting → read e.text = .ok [e]) ∧
      (∀ es : List Expr, (∀ e ∈ es, e.Printable ∧ e.depth ≤ Reader.maxNesting) →
        read (" ".intercalate (es.map Expr.text)) = .ok es) ∧
      (∀ source fs, read source = .ok fs →
        ∀ e ∈ fs, (∀ x, ¬ (Expr.number (.float x)).Occurs e) →
          e.Printable ∧ e.depth ≤ Reader.maxNesting) ∧
      (∀ source fs, read source = .ok fs →
        (∀ t ∈ (Tiling.ofSource source).significant, t.kind = .number →
          t.decimal ≤ Int64.maxValue.toInt) →
        read (" ".intercalate (fs.map Expr.text)) = .ok fs) := by
  refine ⟨?_, ?_, ?_, ?_⟩
  · intro e hp hd
    have hread := read_joined (List.forall_mem_singleton.2 hp) (List.forall_mem_singleton.2 hd)
    simpa [Expr.joined] using hread
  · intro es hes
    exact read_joined (fun e he => (hes e he).1) fun e he => (hes e he).2
  · intro source fs h e he hf
    exact printable_of_read h he hf
  · intro source fs h hn
    have hes : ∀ e ∈ fs, e.Printable ∧ e.depth ≤ Reader.maxNesting :=
      fun e he => printable_of_read h he (not_occurs_float_of_read h hn he)
    exact read_joined (fun e he => (hes e he).1) fun e he => (hes e he).2

/-- A list with a string that looks like its end, an empty list and an
    operator. -/
theorem read_printed_nested :
    let e := Expr.list [.symbol "-", .string ")\n;'", .list [], .number (.int 7)]
    e.Printable ∧ e.depth ≤ Reader.maxNesting ∧ read e.text = .ok [e] := by
  intro e
  have hp : e.Printable := by
    refine .list _ fun i hi => ?_
    simp only [List.mem_cons, List.not_mem_nil, or_false] at hi
    rcases hi with rfl | rfl | rfl | rfl
    · exact .operator '-' (by decide)
    · exact .string _ (by decide)
    · exact .list [] (by simp)
    · exact .int 7 (by decide)
  have hd : e.depth ≤ Reader.maxNesting := by decide
  exact ⟨hp, hd, read_printed.1 e hp hd⟩

end MacroLisp
