/-
  The limit on nesting.

  What is counted against the limit are the lists and quote marks that are open.
  The reader looks at the limit wherever a form begins, though, and an atom is a
  form as well: where as many are open as may be, it is refused although it opens
  nothing.

  * `Reader.openings`: what is open behind some tokens;
  * `Reader.Fits`: tokens of which none offends;
  * `Reader.Shallow`: a limit that a text stays within;
  * `Reader.firstOffence_tooDeep_iff`: where a scan stops for want of room;
  * `read_tooDeep_iff_atom`: the main statement.
-/
import MacroLisp.Proofs.Reader.Offence
import MacroLisp.Proofs.Reader.RoundTrip

namespace MacroLisp

/-- Does the token open a list or a quote mark? -/
def Token.opens (t : Token TokenKind) : Bool :=
  t.kind = .openParen || t.kind.isMark

namespace Reader

/-! ## What is open -/

/-- What is open behind the tokens `ts`, the innermost first. -/
def openings (ts : List (Token TokenKind)) : List Opening :=
  ts.foldl Opening.behind []

/-- No point of the text is enclosed by more than `limit` lists and quote marks
    that are open there. -/
def Shallow (limit : Nat) (source : String) : Prop :=
  ∀ before, before <+: (Tiling.ofSource source).significant → (openings before).length ≤ limit

variable {stack : List Opening} {t : Token TokenKind} {ts : List (Token TokenKind)}

theorem Opening.length_settle_le (stack : List Opening) : (settle stack).length ≤ stack.length :=
  (List.dropWhile_suffix _).length_le

theorem Opening.length_behind_of_opens (h : t.opens = true) :
    (behind stack t).length = stack.length + 1 := by
  obtain ⟨kind, text, pos⟩ := t
  cases kind <;> first | rfl | cases h

theorem Opening.length_behind_le (h : t.opens = false) :
    (behind stack t).length ≤ stack.length := by
  obtain ⟨kind, text, pos⟩ := t
  cases kind with
  | openParen | quote | backquote | unquote => cases h
  | closeParen => exact (length_settle_le _).trans stack.tail_sublist.length_le
  | _ => exact length_settle_le stack

/-- No more is open than has been opened. -/
theorem length_foldl_behind_le (ts : List (Token TokenKind)) (stack : List Opening) :
    (ts.foldl Opening.behind stack).length ≤ stack.length + ts.countP Token.opens := by
  induction ts generalizing stack with
  | nil => exact Nat.le_refl _
  | cons t ts ih =>
    have hrest := ih (Opening.behind stack t)
    rw [List.foldl_cons, List.countP_cons]
    cases ht : t.opens with
    | true =>
      rw [Opening.length_behind_of_opens ht] at hrest
      simp only [↓reduceIte]
      omega
    | false =>
      have hle : (Opening.behind stack t).length ≤ stack.length := Opening.length_behind_le ht
      simp only [Bool.false_eq_true, ↓reduceIte]
      omega

/-- A text stays within the number of its openings. -/
theorem shallow_of_countP {source : String} {limit : Nat}
    (h : (Tiling.ofSource source).significant.countP Token.opens ≤ limit) :
    Shallow limit source := by
  intro before hbefore
  have hle := length_foldl_behind_le before []
  rw [List.length_nil, Nat.zero_add] at hle
  exact (hle.trans hbefore.sublist.countP_le).trans h

/-! ## Where there is no room -/

/-- None of the tokens offends, where `stack` is open before them. -/
inductive Fits : List Opening → List (Token TokenKind) → Prop where
  | nil {stack : List Opening} : Fits stack []
  | cons {stack : List Opening} {t : Token TokenKind} {ts : List (Token TokenKind)}
      (hn : ∀ e, ¬ Offends stack t e) (h : Fits (Opening.behind stack t) ts) : Fits stack (t :: ts)

/-- **A scan stops for want of room where a form begins and as much is open as
    may be**, if all tokens before it fit. -/
theorem firstOffence_tooDeep_iff {ending : Ending} {pos depth : Nat} :
    FirstOffence ending stack ts (.tooDeep pos depth) ↔ depth = maxNesting ∧
      ∃ before t later, ts = before ++ t :: later ∧ Fits stack before ∧ t.pos = pos ∧
        t.kind ≠ .closeParen ∧ (before.foldl Opening.behind stack).length = maxNesting := by
  constructor
  · intro h
    generalize he : ReadError.tooDeep pos depth = e at h
    induction h with
    | token h =>
      subst he
      cases h with
      | tooDeep hc hl => exact ⟨rfl, [], _, _, rfl, .nil, rfl, hc, hl⟩
    | later hn _ ih =>
      obtain ⟨hd, before, t, later, rfl, hfits, hpos, hc, hl⟩ := ih he
      exact ⟨hd, _ :: before, t, later, rfl, .cons hn hfits, hpos, hc, hl⟩
    | atEnd h =>
      subst he
      cases h
  · rintro ⟨rfl, before, t, later, rfl, hfits, rfl, hc, hl⟩
    induction hfits with
    | nil => exact .token (.tooDeep hc hl)
    | cons hn _ ih => exact .later hn (ih hl)

end Reader

variable {source : String} {limit : Nat}

theorem isAtom_of_shallow (h : Reader.Shallow Reader.maxNesting source)
    {before later : List (Token TokenKind)} {t : Token TokenKind}
    (hsplit : (Tiling.ofSource source).significant = before ++ t :: later)
    (hl : (Reader.openings before).length = Reader.maxNesting) (hc : t.kind ≠ .closeParen) :
    t.kind.isAtom = true := by
  have hsig : t.isSignificant = true :=
    (List.mem_filter.1 (hsplit ▸ List.mem_append_right before (.head later))).2
  have hprefix : before ++ [t] <+: (Tiling.ofSource source).significant :=
    ⟨later, by rw [hsplit, List.append_assoc]; rfl⟩
  have hle := h _ hprefix
  have hopens : t.opens = false := by
    by_contra ht
    rw [Bool.not_eq_false] at ht
    rw [Reader.openings, List.foldl_concat, Reader.Opening.length_behind_of_opens ht] at hle
    exact absurd hl (by rw [Reader.openings]; omega)
  obtain ⟨kind, text, pos⟩ := t
  cases kind with
  | whiteSpace | comment => exact absurd hsig Bool.false_ne_true
  | openParen | quote | backquote | unquote => cases hopens
  | closeParen => exact absurd rfl hc
  | _ => rfl

/-- **Within the limit on lists and quote marks, only atoms lie too deep.**
    Let no point of a text be enclosed by more than `maxNesting` lists and quote
    marks that are open there.  The text is refused as too deep exactly at an atom
    that is enclosed by as many, if all tokens before it fit.  So it is never
    refused as too deep if no point is enclosed by as many. -/
theorem read_tooDeep_iff_atom (h : Reader.Shallow limit source)
    (hlimit : limit ≤ Reader.maxNesting) :
    (∀ pos depth, read source = .error (.tooDeep pos depth) ↔ depth = Reader.maxNesting ∧
      ∃ before t later, (Tiling.ofSource source).significant = before ++ t :: later ∧
        Reader.Fits [] before ∧ t.pos = pos ∧ t.kind.isAtom = true ∧
        (Reader.openings before).length = Reader.maxNesting) ∧
      (limit < Reader.maxNesting → ∀ pos depth, read source ≠ .error (.tooDeep pos depth)) := by
  have hmax : Reader.Shallow Reader.maxNesting source := fun before hb => (h before hb).trans hlimit
  have hiff (pos depth : Nat) := (read_eq_error_iff_firstOffence source (.tooDeep pos depth)).trans
    Reader.firstOffence_tooDeep_iff
  refine ⟨fun pos depth => ?_, fun hlt pos depth hread => ?_⟩
  · rw [hiff]
    refine and_congr_right fun _ => ?_
    constructor
    · rintro ⟨before, t, later, hsplit, hfits, hpos, hc, hl⟩
      exact ⟨before, t, later, hsplit, hfits, hpos, isAtom_of_shallow hmax hsplit hl hc, hl⟩
    · rintro ⟨before, t, later, hsplit, hfits, hpos, ha, hl⟩
      exact ⟨before, t, later, hsplit, hfits, hpos, (TokenKind.ne_of_isAtom ha).2.1, hl⟩
  · obtain ⟨-, before, t, later, hsplit, -, -, -, hl⟩ := (hiff pos depth).1 hread
    have hle := h before ⟨t :: later, hsplit.symm⟩
    exact absurd (hl.symm.trans_le hle) (Nat.not_le_of_lt hlt)

/-! ## An atom in many lists -/

namespace Reader

/-- The same parenthesis many times, from the offset `pos` on. -/
def parentheses (kind : TokenKind) (c : Char) (pos n : Nat) : List (Token TokenKind) :=
  (List.range' pos n).map fun p => ⟨kind, String.ofList [c], p⟩

theorem parentheses_succ (kind : TokenKind) (c : Char) (pos n : Nat) :
    parentheses kind c pos (n + 1) =
      ⟨kind, String.ofList [c], pos⟩ :: parentheses kind c (pos + 1) n := rfl

theorem lexes_parentheses {kind : TokenKind} {c : Char} (hs : kind.Shape [c])
    (hr : ∀ rest, kind.Stops rest) (ht : kind.isTrivia = false)
    (hc : (String.ofList [c]).utf8ByteSize = 1) (rest : List Char) (pos n : Nat) :
    Lexes (List.replicate n c) rest pos (parentheses kind c pos n) (pos + n) := by
  induction n generalizing pos with
  | zero => exact .nil rest pos
  | succ n ih =>
    have hone := Lexes.token hs (hr (List.replicate n c ++ rest)) ht pos
    rw [hc] at hone
    have happ := hone.append (ih (pos + 1))
    rwa [Nat.add_right_comm, Nat.add_assoc] at happ

/-- An atom in `n` lists, each with nothing else in it. -/
def nested (n : Nat) : String :=
  String.ofList (List.replicate n '(' ++ ('x' :: List.replicate n ')'))

theorem significant_nested (n : Nat) : (Tiling.ofSource (nested n)).significant =
    parentheses .openParen '(' 0 n ++
      ([⟨.symbol, "x", n⟩] ++ parentheses .closeParen ')' (n + 1) n) := by
  have hopenShape : TokenKind.openParen.Shape ['('] := TokenKind.shape_singleton (by decide) rfl
  have hcloseShape : TokenKind.closeParen.Shape [')'] := TokenKind.shape_singleton (by decide) rfl
  have hopen := lexes_parentheses hopenShape (fun _ _ _ _ => rfl) rfl rfl
    (['x'] ++ List.replicate n ')' ++ []) 0 n
  have hclose := lexes_parentheses hcloseShape (fun _ _ _ _ => rfl) rfl rfl [] (n + 1) n
  have hstops : TokenKind.symbol.Stops (List.replicate n ')' ++ []) := by
    cases n with
    | zero => exact TokenKind.stops_nil _
    | succ n => exact TokenKind.stops_cons.2 fun _ => rfl
  have hatom : Lexes ['x'] (List.replicate n ')' ++ []) n [⟨.symbol, "x", n⟩] (n + 1) :=
    .token (TokenKind.shape_singleton (by decide) (by decide)) hstops rfl n
  rw [Nat.zero_add] at hopen
  have hlex := hopen.append (hatom.append hclose)
  rw [← String.toList_ofList (l := _ ++ _)] at hlex
  exact hlex.tiling.1

theorem countP_opens_nested (n : Nat) :
    (Tiling.ofSource (nested n)).significant.countP Token.opens = n := by
  rw [significant_nested]
  simp [parentheses, List.countP_map, Function.comp_def, Token.opens, TokenKind.isMark]

/-- Open parentheses fit as long as there is room, and all stay open. -/
theorem fits_parentheses {stack : List Opening} (pos : Nat) {n : Nat}
    (h : stack.length + n ≤ maxNesting) :
    Fits stack (parentheses .openParen '(' pos n) ∧
      ((parentheses .openParen '(' pos n).foldl Opening.behind stack).length =
        stack.length + n := by
  induction n generalizing stack pos with
  | zero => exact ⟨.nil, rfl⟩
  | succ n ih =>
    let t : Token TokenKind := ⟨.openParen, String.ofList ['('], pos⟩
    have hlen : (Opening.behind stack t).length = stack.length + 1 := rfl
    have hroom : (Opening.behind stack t).length + n ≤ maxNesting := by omega
    have hopen : t.kind ≠ .closeParen := nofun
    obtain ⟨hfits, hl⟩ := ih (pos + 1) hroom
    rw [parentheses_succ]
    refine ⟨.cons (fun e he => ?_) hfits, ?_⟩
    · have hfull := ((offends_iff_of_ne hopen).1 he).1
      omega
    · rw [List.foldl_cons, hl]
      omega

end Reader

/-- An atom in as many lists as may be open is refused, although nowhere more are
    open. -/
theorem read_nested_tooDeep :
    Reader.Shallow Reader.maxNesting (Reader.nested Reader.maxNesting) ∧
      read (Reader.nested Reader.maxNesting) = .error (.tooDeep 512 512) := by
  have hcount := Reader.countP_opens_nested Reader.maxNesting
  obtain ⟨hfits, hl⟩ := Reader.fits_parentheses 0
    (by decide : ([] : List Reader.Opening).length + Reader.maxNesting ≤ Reader.maxNesting)
  refine ⟨Reader.shallow_of_countP hcount.le, ?_⟩
  rw [read_eq_error_iff_firstOffence, Reader.firstOffence_tooDeep_iff]
  exact ⟨rfl, _, _, _, Reader.significant_nested _, hfits, rfl, by decide, hl⟩

/-- The limit is reached by an atom in 512 lists, and not by one in 511. -/
theorem read_tooDeep_iff_atom_nested :
    read (Reader.nested 512) = .error (.tooDeep 512 512) ∧
      ∀ pos depth, read (Reader.nested 511) ≠ .error (.tooDeep pos depth) := by
  obtain ⟨hfits, hl⟩ := Reader.fits_parentheses 0
    (by decide : ([] : List Reader.Opening).length + 512 ≤ Reader.maxNesting)
  have hshallow (n : Nat) : Reader.Shallow n (Reader.nested n) :=
    Reader.shallow_of_countP (Reader.countP_opens_nested n).le
  have hat := read_tooDeep_iff_atom (hshallow 512) (by decide)
  have hbelow := read_tooDeep_iff_atom (hshallow 511) (by decide)
  exact ⟨(hat.1 _ _).2 ⟨rfl, _, _, _, Reader.significant_nested _, hfits, rfl, rfl, hl⟩,
    hbelow.2 (by decide)⟩

end MacroLisp
