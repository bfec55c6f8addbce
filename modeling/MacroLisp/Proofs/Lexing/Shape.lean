/-
  What tokens look like, and where they end.

  A string runs from one quote to the next.  A token of any other kind has a
  first character of its kind (`isHead`) and goes on as long as there are
  characters that continue it (`isTail`).  No character begins tokens of two
  kinds (`eq_of_isHead`), so the order of the rules does not matter
  (`exclusive_rules`):

  * `tokenAt_append`: a text of the shape of a kind is a token of that kind,
    wherever what follows does not continue it;
  * `shape_of_mem_scan`: all tokens of a tiling have the shape of their kind.
-/
import MacroLisp.Proofs.Lexing.Exclusive
import MacroLisp.Reader.TokenKind
import Mathlib.Data.List.TakeWhile

namespace MacroLisp

namespace TokenKind

/-! ## Shapes -/

/-- The characters that begin a token. -/
def isHead : TokenKind → Char → Bool
  | whiteSpace => Text.isWhiteSpace
  | comment => (· == ';')
  | openParen => (· == '(')
  | closeParen => (· == ')')
  | number => Char.isDigit
  | quote => (· == '\x27')
  | backquote => (· == '\x60')
  | unquote => (· == ',')
  | operator => isOperator
  | symbol => isSymbolStart
  | string => (· == '"')

/-- The characters that continue a token which is not a string. -/
def isTail : TokenKind → Char → Bool
  | whiteSpace => Text.isWhiteSpace
  | comment => (· != '\n')
  | number => Char.isDigit
  | symbol => isSymbolRest
  | _ => fun _ => false

/-- A text that looks like a token of the kind. -/
def Shape (kind : TokenKind) (s : List Char) : Prop :=
  if kind = string then ∃ content, '"' ∉ content ∧ s = '"' :: (content ++ ['"'])
  else ∃ c cs, kind.isHead c = true ∧ (∀ x ∈ cs, kind.isTail x = true) ∧ s = c :: cs

/-- A text that does not continue a token of the kind before it. -/
def Stops (kind : TokenKind) (rest : List Char) : Prop :=
  kind ≠ string → ∀ c ∈ rest.head?, kind.isTail c = false

theorem shape_string {s : List Char} :
    string.Shape s ↔ ∃ content, '"' ∉ content ∧ s = '"' :: (content ++ ['"']) := by
  simp [Shape]

theorem shape_of_ne {kind : TokenKind} (h : kind ≠ string) {s : List Char} :
    kind.Shape s ↔
      ∃ c cs, kind.isHead c = true ∧ (∀ x ∈ cs, kind.isTail x = true) ∧ s = c :: cs := by
  simp [Shape, h]

theorem shape_singleton {kind : TokenKind} (h : kind ≠ string) {c : Char}
    (hc : kind.isHead c = true) : kind.Shape [c] :=
  (shape_of_ne h).2 ⟨c, [], hc, by simp, rfl⟩

theorem shape_number {s : List Char} :
    number.Shape s ↔ s ≠ [] ∧ ∀ c ∈ s, c.isDigit = true := by
  rw [shape_of_ne (by decide)]
  constructor
  · rintro ⟨c, cs, hc, hcs, rfl⟩
    exact ⟨by simp, List.forall_mem_cons.2 ⟨hc, hcs⟩⟩
  · rintro ⟨hne, hs⟩
    obtain ⟨c, cs, rfl⟩ := List.exists_cons_of_ne_nil hne
    obtain ⟨hc, hcs⟩ := List.forall_mem_cons.1 hs
    exact ⟨c, cs, hc, hcs, rfl⟩

theorem stops_nil (kind : TokenKind) : kind.Stops [] := by simp [Stops]

theorem stops_cons {kind : TokenKind} {c : Char} {cs : List Char} :
    kind.Stops (c :: cs) ↔ (kind ≠ string → kind.isTail c = false) := by simp [Stops]

theorem ne_nil_of_shape {kind : TokenKind} {s : List Char} (h : kind.Shape s) : s ≠ [] := by
  unfold Shape at h
  split at h
  · obtain ⟨content, -, rfl⟩ := h; simp
  · obtain ⟨c, cs, -, -, rfl⟩ := h; simp

/-! ## Patterns -/

theorem one_eq_headed (p : Char → Bool) : Pattern.one p = Pattern.headed p fun _ => false := by
  funext rest
  cases rest with
  | nil => rfl
  | cons c cs => cases cs <;> rfl

theorem run_eq_headed (p : Char → Bool) : Pattern.run p = Pattern.headed p p := by
  funext rest
  cases rest <;> rfl

theorem pattern_of_ne {kind : TokenKind} (h : kind ≠ string) :
    kind.pattern = Pattern.headed kind.isHead kind.isTail := by
  cases kind with
  | whiteSpace | number => exact run_eq_headed _
  | comment | symbol => rfl
  | openParen | closeParen | quote | backquote | unquote | operator => exact one_eq_headed _
  | string => exact absurd rfl h

theorem length_takeWhile_append_iff {p : Char → Bool} {cs rest : List Char} :
    ((cs ++ rest).takeWhile p).length = cs.length ↔
      (∀ x ∈ cs, p x = true) ∧ ∀ c ∈ rest.head?, p c = false := by
  induction cs with
  | nil =>
    cases rest with
    | nil => simp
    | cons c rest => by_cases hc : p c <;> simp [hc]
  | cons c cs ih =>
    by_cases hc : p c
    · simpa [hc] using ih
    · simp [hc]

theorem takeWhile_ne_append {d : Char} {content rest : List Char} (h : d ∉ content) :
    (content ++ d :: rest).takeWhile (· != d) = content := by
  have hall : ∀ c ∈ content, (c != d) = true := by
    intro c hc
    rw [bne_iff_ne]
    rintro rfl
    exact h hc
  rw [List.takeWhile_append_of_pos hall]
  simp

theorem enclosed_append_iff {s rest : List Char} :
    Pattern.enclosed '"' (s ++ rest) = some s.length ↔
      ∃ content, '"' ∉ content ∧ s = '"' :: (content ++ ['"']) := by
  constructor
  · intro h
    cases s with
    | nil =>
      -- a match takes two characters at least
      cases rest with
      | nil => simp [Pattern.enclosed] at h
      | cons c rest => simp [Pattern.enclosed] at h
    | cons c cs =>
      simp only [List.cons_append, Pattern.enclosed, Option.ite_none_right_eq_some,
        Option.some.injEq, List.length_cons] at h
      obtain ⟨⟨rfl, hmem⟩, hlen⟩ := h
      obtain ⟨content, after, hsplit, hnot⟩ := List.eq_append_cons_of_mem hmem
      rw [hsplit, takeWhile_ne_append hnot] at hlen
      have happ : cs ++ rest = (content ++ ['"']) ++ after := by simpa using hsplit
      have hcs : cs = content ++ ['"'] := List.append_inj_left happ (by simp; omega)
      exact ⟨content, hnot, by rw [hcs]⟩
  · rintro ⟨content, hnot, rfl⟩
    simp [Pattern.enclosed, takeWhile_ne_append hnot]
    omega

theorem headed_append_iff {p q : Char → Bool} {s rest : List Char} :
    Pattern.headed p q (s ++ rest) = some s.length ↔
      (∃ c cs, p c = true ∧ (∀ x ∈ cs, q x = true) ∧ s = c :: cs) ∧
        ∀ c ∈ rest.head?, q c = false := by
  cases s with
  | nil => cases rest <;> simp [Pattern.headed]
  | cons c cs =>
    have hlen : 1 + ((cs ++ rest).takeWhile q).length = cs.length + 1 ↔
        (∀ x ∈ cs, q x = true) ∧ ∀ c ∈ rest.head?, q c = false := by
      rw [← length_takeWhile_append_iff]; omega
    simp only [List.cons_append, Pattern.headed, Option.ite_none_right_eq_some,
      Option.some.injEq, List.length_cons, hlen]
    constructor
    · rintro ⟨hp, hq, hr⟩; exact ⟨⟨c, cs, hp, hq, rfl⟩, hr⟩
    · rintro ⟨⟨_, _, hp, hq, ⟨⟩⟩, hr⟩; exact ⟨hp, hq, hr⟩

/-- **A pattern takes exactly the texts of its shape**, where they stop. -/
theorem pattern_append_iff {kind : TokenKind} {s rest : List Char} :
    kind.pattern (s ++ rest) = some s.length ↔ kind.Shape s ∧ kind.Stops rest := by
  by_cases h : kind = string
  · subst h
    rw [shape_string, show string.pattern = Pattern.enclosed '"' from rfl, enclosed_append_iff]
    simp [Stops]
  · rw [shape_of_ne h, pattern_of_ne h, headed_append_iff]
    simp [Stops, h]

/-! ## First characters -/

/-- The first characters of a kind, as ranges of code points. -/
def heads : TokenKind → List (Nat × Nat)
  | whiteSpace => Text.whiteSpaceRanges
  | comment => [(0x3b, 0x3b)]
  | openParen => [(0x28, 0x28)]
  | closeParen => [(0x29, 0x29)]
  | number => [(0x30, 0x39)]
  | quote => [(0x27, 0x27)]
  | backquote => [(0x60, 0x60)]
  | unquote => [(0x2c, 0x2c)]
  | operator => [(0x2a, 0x2b), (0x2d, 0x2d), (0x2f, 0x2f), (0x3c, 0x3e)]
  | symbol => [(0x21, 0x21), (0x23, 0x23), (0x2e, 0x2e), (0x41, 0x5a), (0x61, 0x7a)]
  | string => [(0x22, 0x22)]

theorem mem_all (kind : TokenKind) : kind ∈ all := by cases kind <;> decide

/-- The ranges of two kinds do not meet. -/
theorem heads_disjoint : ∀ kind ∈ all, ∀ kind' ∈ all, kind ≠ kind' →
    ∀ r ∈ kind.heads, ∀ r' ∈ kind'.heads, r.2 < r'.1 ∨ r'.2 < r.1 := by decide

theorem toNat_of_beq {c d : Char} (h : (c == d) = true) : c.toNat = d.toNat := by
  rw [eq_of_beq h]

theorem isAlpha_iff_toNat {c : Char} :
    c.isAlpha = true ↔ (0x41 ≤ c.toNat ∧ c.toNat ≤ 0x5a) ∨ (0x61 ≤ c.toNat ∧ c.toNat ≤ 0x7a) := by
  have halpha : c.isAlpha = (c.isUpper || c.isLower) := rfl
  have hupper : c.isUpper = decide (0x41 ≤ c.val ∧ c.val ≤ 0x5a) := rfl
  have hlower : c.isLower = (decide (0x61 ≤ c.val) && decide (c.val ≤ 0x7a)) := rfl
  simp [halpha, hupper, hlower, UInt32.le_iff_toNat_le]

theorem inRanges_of_isHead {kind : TokenKind} {c : Char} (h : kind.isHead c = true) :
    Text.inRanges kind.heads c = true := by
  cases kind with
  | whiteSpace => exact h
  | comment | openParen | closeParen | quote | backquote | unquote | string =>
    have hc := toNat_of_beq h
    simp [heads, Text.inRanges, hc]
  | number =>
    have hc := Char.isDigit_iff_toNat.1 h
    simpa [heads, Text.inRanges] using hc
  | operator =>
    simp only [isHead, isOperator, List.mem_cons, List.not_mem_nil, or_false,
      decide_eq_true_eq] at h
    rcases h with rfl | rfl | rfl | rfl | rfl | rfl | rfl <;> decide
  | symbol =>
    simp only [isHead, isSymbolStart, Bool.or_eq_true, List.mem_cons, List.not_mem_nil, or_false,
      decide_eq_true_eq, isAlpha_iff_toNat] at h
    rcases h with (hc | hc) | rfl | rfl | rfl
    · simp [heads, Text.inRanges, hc]
    · simp [heads, Text.inRanges, hc]
    all_goals decide

/-- **No character begins tokens of two kinds.** -/
theorem eq_of_isHead {kind kind' : TokenKind} {c : Char} (h : kind.isHead c = true)
    (h' : kind'.isHead c = true) : kind = kind' := by
  by_contra hne
  obtain ⟨r, hr, hc⟩ := Text.inRanges_eq_true_iff.1 (inRanges_of_isHead h)
  obtain ⟨r', hr', hc'⟩ := Text.inRanges_eq_true_iff.1 (inRanges_of_isHead h')
  have := heads_disjoint kind (mem_all kind) kind' (mem_all kind') hne r hr r' hr'
  omega

/-! ## Tokens -/

theorem le_length_of_pattern {kind : TokenKind} {rest : List Char} {n : Nat}
    (h : kind.pattern rest = some n) : n ≤ rest.length := by
  by_cases hk : kind = string
  · subst hk
    cases rest with
    | nil => simp [pattern, Pattern.enclosed] at h
    | cons c cs =>
      simp only [pattern, Pattern.enclosed, Option.ite_none_right_eq_some, Option.some.injEq] at h
      obtain ⟨⟨-, hmem⟩, rfl⟩ := h
      obtain ⟨content, after, rfl, hnot⟩ := List.eq_append_cons_of_mem hmem
      rw [takeWhile_ne_append hnot]
      simp
      omega
  · rw [pattern_of_ne hk] at h
    cases rest with
    | nil => simp [Pattern.headed] at h
    | cons c cs =>
      simp only [Pattern.headed, Option.ite_none_right_eq_some, Option.some.injEq] at h
      obtain ⟨-, rfl⟩ := h
      have hle := (cs.takeWhile_prefix kind.isTail).length_le
      simp
      omega

/-- The match of a pattern is a text of its shape. -/
theorem shape_of_pattern {kind : TokenKind} {rest : List Char} {n : Nat}
    (h : kind.pattern rest = some n) : kind.Shape (rest.take n) ∧ kind.Stops (rest.drop n) := by
  have hn := le_length_of_pattern h
  rw [← pattern_append_iff, List.take_append_drop, h, List.length_take_of_le hn]

theorem isHead_of_shape {kind : TokenKind} {s : List Char} (h : kind.Shape s) :
    ∃ c cs, s = c :: cs ∧ kind.isHead c = true := by
  by_cases hk : kind = string
  · subst hk
    obtain ⟨content, -, rfl⟩ := shape_string.1 h
    exact ⟨_, _, rfl, rfl⟩
  · obtain ⟨c, cs, hc, -, rfl⟩ := (shape_of_ne hk).1 h
    exact ⟨c, cs, rfl, hc⟩

theorem exists_isHead_of_pattern {kind : TokenKind} {rest : List Char} {n : Nat}
    (h : kind.pattern rest = some n) : ∃ c ∈ rest.head?, kind.isHead c = true := by
  obtain ⟨c, cs, hs, hc⟩ := isHead_of_shape (shape_of_pattern h).1
  refine ⟨c, ?_, hc⟩
  rw [← List.take_append_drop n rest, hs]
  rfl

theorem pos_of_pattern {kind : TokenKind} {rest : List Char} {n : Nat}
    (h : kind.pattern rest = some n) : 0 < n := by
  have hne := ne_nil_of_shape (shape_of_pattern h).1
  exact Nat.pos_of_ne_zero fun h0 => hne (by simp [h0])

/-- **The table of the language is exclusive.** -/
theorem exclusive_rules : Rule.Exclusive rules := by
  intro rest
  rw [rules, List.pairwise_map]
  have hnodup : all.Nodup := by decide
  refine hnodup.imp fun hne => ?_
  rintro ⟨⟨n, -, hn⟩, m, -, hm⟩
  obtain ⟨c, hc, hhead⟩ := exists_isHead_of_pattern hn
  obtain ⟨d, hd, hhead'⟩ := exists_isHead_of_pattern hm
  -- both begin with the character at the cursor
  obtain rfl : c = d := Option.mem_unique hc hd
  exact hne (eq_of_isHead hhead hhead')

/-- **The first rule that matches is the only one that does.** -/
theorem firstMatch_eq_some_iff {kind : TokenKind} {rest : List Char} {n : Nat} :
    firstMatch rules rest = some (kind, n) ↔ kind.pattern rest = some n := by
  rw [Rule.firstMatch_eq_some_iff (exclusive_rules rest)]
  constructor
  · rintro ⟨r, hr, hkind, hn⟩
    obtain ⟨k, -, rfl⟩ := List.mem_map.1 hr
    obtain rfl : k = kind := hkind
    exact (Rule.length?_eq_some_iff.1 hn).1
  · intro h
    exact ⟨⟨kind, kind.pattern⟩, List.mem_map.2 ⟨kind, mem_all kind, rfl⟩, rfl,
      Rule.length?_eq_some_iff.2 ⟨h, pos_of_pattern h⟩⟩

/-- The token at the cursor, in terms of its shape and of what follows it. -/
theorem tokenAt_append {kind : TokenKind} {s rest : List Char} (hs : kind.Shape s)
    (hr : kind.Stops rest) (pos : Nat) :
    tokenAt rules (s ++ rest) pos = .ok (some ⟨kind, String.ofList s, pos⟩) := by
  have hm := firstMatch_eq_some_iff.2 (pattern_append_iff.2 ⟨hs, hr⟩)
  refine tokenAt_eq_some_iff.2 ⟨?_, s.length, hm, by simp, rfl⟩
  simp [ne_nil_of_shape hs]

theorem shape_of_tokenAt {rest : List Char} {pos : Nat} {t : Token TokenKind}
    (h : tokenAt rules rest pos = .ok (some t)) :
    t.kind.Shape t.text.toList ∧ t.kind.Stops (rest.drop t.text.length) := by
  have happ := append_drop_of_tokenAt h
  obtain ⟨-, n, hm, ht, -⟩ := tokenAt_eq_some_iff.1 h
  have hp := firstMatch_eq_some_iff.1 hm
  have hn : t.text.length = n := by
    rw [ht, String.length_ofList, List.length_take_of_le (le_length_of_pattern hp)]
  rw [hn, ht, String.toList_ofList]
  exact shape_of_pattern hp

/-! ## Tilings -/

/-- A text of the shape of a kind at the start is the first token. -/
theorem scan_append {kind : TokenKind} {s rest : List Char} (hs : kind.Shape s)
    (hr : kind.Stops rest) (pos : Nat) :
    Tiling.scan rules (s ++ rest) pos =
      ⟨⟨kind, String.ofList s, pos⟩ ::
          (Tiling.scan rules rest (pos + (String.ofList s).utf8ByteSize)).tokens,
        (Tiling.scan rules rest (pos + (String.ofList s).utf8ByteSize)).ending⟩ := by
  rw [Tiling.scan_of_some (tokenAt_append hs hr pos)]
  simp

/-- **The tokens of a tiling have the shapes of their kinds.** -/
theorem shape_of_mem_scan {rest : List Char} {pos : Nat} :
    ∀ t ∈ (Tiling.scan rules rest pos).tokens, t.kind.Shape t.text.toList := by
  fun_induction Tiling.scan rules rest pos with
  | case1 | case2 => simp
  | case3 rest pos t h others ih =>
    intro u hu
    rcases List.mem_cons.1 hu with rfl | hu
    · exact (shape_of_tokenAt h).1
    · exact ih u hu

end TokenKind

end MacroLisp
