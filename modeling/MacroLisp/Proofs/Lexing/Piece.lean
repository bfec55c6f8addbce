/-
  A text in pieces.

  A piece of a text falls into tokens that mean something, whatever is behind
  it, if no token runs from the piece into what follows.  A run of white space
  may do so, but it means nothing on either side.

  * `Lexes`: a piece of text as a sequence of significant tokens;
  * `Lexes.line`: a text that has a tiling is such a piece, if a line feed is
    behind it, and its tokens are those that it has alone;
  * `Tiling.scan_shift`: a text has the same tokens wherever it stands, but for
    their offsets.
-/
import MacroLisp.Proofs.Lexing.Shape
import MacroLisp.Proofs.Lexing.Tiles

namespace MacroLisp

/-! ## Pieces of text -/

/-- The text `s` from offset `pos` to `pos'`, with `rest` behind it, falls into
    tokens of which `ts` mean something. -/
structure Lexes (s rest : List Char) (pos : Nat) (ts : List (Token TokenKind)) (pos' : Nat) :
    Prop where
  significant : (Tiling.scan TokenKind.rules (s ++ rest) pos).significant =
    ts ++ (Tiling.scan TokenKind.rules rest pos').significant
  ending : (Tiling.scan TokenKind.rules (s ++ rest) pos).ending =
    (Tiling.scan TokenKind.rules rest pos').ending

namespace Lexes

variable {s s' rest : List Char} {pos pos' pos'' : Nat} {ts ts' : List (Token TokenKind)}

theorem nil (rest : List Char) (pos : Nat) : Lexes [] rest pos [] pos := ⟨rfl, rfl⟩

theorem append (h : Lexes s (s' ++ rest) pos ts pos') (h' : Lexes s' rest pos' ts' pos'') :
    Lexes (s ++ s') rest pos (ts ++ ts') pos'' := by
  constructor
  · rw [List.append_assoc, h.significant, h'.significant, List.append_assoc]
  · rw [List.append_assoc, h.ending, h'.ending]

/-- The first part of a piece, where the second means nothing. -/
theorem of_append (h : Lexes (s ++ s') rest pos ts pos'') (h' : Lexes s' rest pos' [] pos'') :
    Lexes s (s' ++ rest) pos ts pos' := by
  constructor
  · rw [← List.append_assoc, h.significant, h'.significant, List.nil_append]
  · rw [← List.append_assoc, h.ending, h'.ending]

/-- A text of the shape of a kind is one token. -/
theorem ofShape {kind : TokenKind} (hs : kind.Shape s) (hr : kind.Stops rest) (pos : Nat) :
    Lexes s rest pos ([⟨kind, String.ofList s, pos⟩].filter Token.isSignificant)
      (pos + (String.ofList s).utf8ByteSize) := by
  have hscan := TokenKind.scan_append hs hr pos
  constructor
  · rw [hscan, Tiling.significant, List.filter_cons]
    split <;> simp_all [Tiling.significant]
  · rw [hscan]

theorem token {kind : TokenKind} (hs : kind.Shape s) (hr : kind.Stops rest)
    (hk : kind.isTrivia = false) (pos : Nat) :
    Lexes s rest pos [⟨kind, String.ofList s, pos⟩] (pos + (String.ofList s).utf8ByteSize) := by
  have h := ofShape hs hr pos
  rwa [List.filter_cons_of_pos (by simp [Token.isSignificant, hk]), List.filter_nil] at h

theorem blank (hr : TokenKind.whiteSpace.Stops rest) (pos : Nat) :
    Lexes [' '] rest pos [] (pos + (String.ofList [' ']).utf8ByteSize) :=
  ofShape (TokenKind.shape_singleton (by decide) (by decide)) hr pos

/-- The tiling of a whole text. -/
theorem tiling {source : String} (h : Lexes source.toList [] 0 ts pos) :
    (Tiling.ofSource source).significant = ts ∧ (Tiling.ofSource source).ending = .covered pos := by
  have hend : Tiling.scan TokenKind.rules [] pos = ⟨[], .covered pos⟩ :=
    Tiling.scan_of_none (tokenAt_nil _ _)
  have hscan : Tiling.ofSource source = Tiling.scan TokenKind.rules (source.toList ++ []) 0 := by
    rw [List.append_nil]
    rfl
  rw [hscan, h.significant, h.ending, hend]
  exact ⟨List.append_nil ts, rfl⟩

end Lexes

/-! ## Lines -/

theorem TokenKind.stops_append {kind : TokenKind} {s rest : List Char} (hs : kind.Stops s)
    (hr : kind.Stops rest) : kind.Stops (s ++ rest) := by
  cases s with
  | nil => exact hr
  | cons c cs => exact hs

theorem TokenKind.forall_of_shape_whiteSpace {s : List Char} (h : whiteSpace.Shape s) :
    ∀ c ∈ s, Text.isWhiteSpace c = true := by
  obtain ⟨c, cs, hc, hcs, rfl⟩ := (shape_of_ne (by decide)).1 h
  exact List.forall_mem_cons.2 ⟨hc, hcs⟩

/-- A line feed continues no token but white space and strings. -/
theorem TokenKind.stops_lineFeed {kind : TokenKind} (hk : kind ≠ .whiteSpace) (rest : List Char) :
    kind.Stops ('\n' :: rest) := by
  rw [TokenKind.stops_cons]
  intro _
  cases kind <;> first | rfl | exact absurd rfl hk

namespace Lexes

variable {s rest : List Char} {pos : Nat}

/-- White space up to where it ends. -/
theorem whole_whiteSpace (hs : ∀ c ∈ s, Text.isWhiteSpace c = true)
    (hr : TokenKind.whiteSpace.Stops rest) (pos : Nat) :
    Lexes s rest pos [] (pos + (String.ofList s).utf8ByteSize) := by
  cases s with
  | nil => exact .nil rest pos
  | cons c cs =>
    obtain ⟨hc, hcs⟩ := List.forall_mem_cons.1 hs
    have hshape : TokenKind.whiteSpace.Shape (c :: cs) :=
      (TokenKind.shape_of_ne (by decide)).2 ⟨c, cs, hc, hcs, rfl⟩
    exact ofShape hshape hr pos

/-- White space, also if there is more of it behind. -/
theorem whiteSpace (hs : ∀ c ∈ s, Text.isWhiteSpace c = true) (rest : List Char) (pos : Nat) :
    Lexes s rest pos [] (pos + (String.ofList s).utf8ByteSize) := by
  -- the run of white space ends between `more` and `others`
  let more := rest.takeWhile Text.isWhiteSpace
  let others := rest.dropWhile Text.isWhiteSpace
  have hsplit : rest = more ++ others := (List.takeWhile_append_dropWhile ..).symm
  have hmore : ∀ c ∈ more, Text.isWhiteSpace c = true := fun c hc => List.mem_takeWhile_imp hc
  have hothers : TokenKind.whiteSpace.Stops others := by
    intro _ c hc
    have hnot := List.head?_dropWhile_not Text.isWhiteSpace rest
    rwa [Option.mem_def.1 hc] at hnot
  have hboth : ∀ c ∈ s ++ more, Text.isWhiteSpace c = true := by
    simpa [or_imp, forall_and] using ⟨hs, hmore⟩
  have hlong := whole_whiteSpace hboth hothers pos
  have hshort := whole_whiteSpace hmore hothers (pos + (String.ofList s).utf8ByteSize)
  rw [String.ofList_append, String.utf8ByteSize_append, ← Nat.add_assoc] at hlong
  rw [hsplit]
  exact hlong.of_append hshort

/-- A token stays as it is when a line feed is put behind the text it stands
    in: it stops before that, or it is white space. -/
theorem of_tokenAt {t : Token TokenKind} (ht : tokenAt TokenKind.rules s pos = .ok (some t))
    (rest : List Char) :
    Lexes t.text.toList (s.drop t.text.length ++ '\n' :: rest) pos ([t].filter Token.isSignificant)
      (pos + t.text.utf8ByteSize) := by
  obtain ⟨hshape, hstops⟩ := TokenKind.shape_of_tokenAt ht
  obtain ⟨-, -, -, -, rfl⟩ := tokenAt_eq_some_iff.1 ht
  rcases t with ⟨kind, text, pos⟩
  by_cases hk : kind = .whiteSpace
  · subst hk
    have hwhite := whiteSpace (TokenKind.forall_of_shape_whiteSpace hshape)
      (s.drop text.length ++ '\n' :: rest) pos
    rwa [String.ofList_toList] at hwhite
  · have hr := TokenKind.stops_append hstops (TokenKind.stops_lineFeed hk rest)
    have htoken := ofShape hshape hr pos
    rwa [String.ofList_toList] at htoken

/-- A text that has a tiling keeps its tokens when a line feed is put behind it. -/
theorem of_error?_eq_none (rest : List Char)
    (h : (Tiling.scan TokenKind.rules s pos).ending.error? = none) :
    Lexes s ('\n' :: rest) pos (Tiling.scan TokenKind.rules s pos).significant
      (pos + (String.ofList s).utf8ByteSize) := by
  induction s, pos using Tiling.scan.induct TokenKind.rules with
  | case1 s pos e he =>
    rw [Tiling.scan_of_error he] at h
    cases h
  | case2 s pos hn =>
    obtain rfl := tokenAt_eq_none_iff.1 hn
    rw [Tiling.scan_of_none hn]
    exact .nil _ pos
  | case3 s pos t ht ih =>
    rw [Tiling.scan_of_some ht] at h ⊢
    have hsig (others : Tiling TokenKind) :
        (Tiling.mk (t :: others.tokens) others.ending).significant =
          [t].filter Token.isSignificant ++ others.significant :=
      List.filter_append [t] others.tokens
    have hall := (of_tokenAt ht rest).append (ih h)
    have hsize : (String.ofList s).utf8ByteSize =
        t.text.utf8ByteSize + (String.ofList (s.drop t.text.length)).utf8ByteSize := by
      conv => lhs; rw [← append_drop_of_tokenAt ht]
      rw [String.ofList_append, String.utf8ByteSize_append, String.ofList_toList]
    rwa [append_drop_of_tokenAt ht, ← hsig, Nat.add_assoc, ← hsize] at hall

/-- **A line is a piece**, if it has a tiling alone. -/
theorem line (rest : List Char) (h : (Tiling.scan TokenKind.rules s pos).ending.error? = none) :
    Lexes (s ++ ['\n']) rest pos (Tiling.scan TokenKind.rules s pos).significant
      (pos + (String.ofList s).utf8ByteSize + 1) := by
  have hwhite : ∀ c ∈ ['\n'], Text.isWhiteSpace c = true := List.forall_mem_singleton.2 rfl
  have hfeed := whiteSpace hwhite rest (pos + (String.ofList s).utf8ByteSize)
  have hall := (of_error?_eq_none rest h).append hfeed
  rwa [List.append_nil] at hall

end Lexes

/-! ## Offsets -/

variable {κ : Type}

/-- The token `k` bytes further on. -/
def Token.shift (k : Nat) (t : Token κ) : Token κ :=
  { t with pos := t.pos + k }

def LexError.shift (k : Nat) (e : LexError) : LexError :=
  { e with pos := e.pos + k }

def Ending.shift (k : Nat) : Ending → Ending
  | covered pos => covered (pos + k)
  | stuck e => stuck (e.shift k)

def Tiling.shift (k : Nat) (t : Tiling κ) : Tiling κ :=
  ⟨t.tokens.map (.shift k), t.ending.shift k⟩

theorem Tiling.significant_shift (k : Nat) (t : Tiling TokenKind) :
    (t.shift k).significant = t.significant.map (.shift k) := by
  rw [significant, significant, shift, List.filter_map]
  rfl

theorem tokenAt_shift {rules : List (Rule κ)} {rest : List Char} {pos : Nat} {t : Token κ}
    (h : tokenAt rules rest pos = .ok (some t)) (k : Nat) :
    tokenAt rules rest (pos + k) = .ok (some (t.shift k)) := by
  obtain ⟨hne, n, hm, ht, rfl⟩ := tokenAt_eq_some_iff.1 h
  exact tokenAt_eq_some_iff.2 ⟨hne, n, hm, ht, rfl⟩

/-- **A text has the same tokens wherever it stands**, but for their offsets. -/
theorem Tiling.scan_shift (rules : List (Rule κ)) (rest : List Char) (pos k : Nat) :
    scan rules rest (pos + k) = (scan rules rest pos).shift k := by
  induction rest, pos using scan.induct rules with
  | case1 rest pos e he =>
    obtain ⟨hne, hm, rfl⟩ := tokenAt_eq_error_iff.1 he
    rw [scan_of_error he, scan_of_error (tokenAt_eq_error_iff.2 ⟨hne, hm, rfl⟩)]
    rfl
  | case2 rest pos hn =>
    rw [scan_of_none hn, scan_of_none (tokenAt_eq_none_iff.2 (tokenAt_eq_none_iff.1 hn))]
    rfl
  | case3 rest pos t ht ih =>
    rw [scan_of_some ht, scan_of_some (tokenAt_shift ht k)]
    have hothers : scan rules (rest.drop t.text.length) (pos + k + t.text.utf8ByteSize) =
        (scan rules (rest.drop t.text.length) (pos + t.text.utf8ByteSize)).shift k := by
      rw [Nat.add_right_comm, ih]
    simp only [Token.shift, hothers]
    rfl

end MacroLisp
