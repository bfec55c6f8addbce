/-
  Layout means nothing.

  The tokens that mean something, written one after the other with a blank
  between each two, are the tokens of that text again: a blank ends any token
  but a string, and no token that means something begins with white space.
  Texts with the same tokens are read alike, so white space and comments, or
  none of them, make no difference to what a text means.

  * `Tokenizer.elements`: all that the stream of significant tokens yields;
  * `lexes_spaced`: the tokens of a text in which they are spaced;
  * `read_alike`: texts with the same tokens;
  * `read_spaced`: the main statement.
-/
import MacroLisp.Proofs.Reader.Offsets
import MacroLisp.Proofs.Reader.RoundTrip

namespace MacroLisp

/-! ## The stream of significant tokens -/

namespace Tokenizer

/-- A bound for what a stream may still yield: what lies ahead, and an error. -/
def left (t : Tokenizer TokenKind) : Nat :=
  t.rest.length + if t.failed then 0 else 1

theorem left_nextSignificant {t t' : Tokenizer TokenKind} {r : Except LexError (Token TokenKind)}
    (h : t.nextSignificant = (some r, t')) : t'.left < t.left := by
  unfold nextSignificant nextWhere at h
  split at h
  · cases h
  rename_i hf
  have hleft : t.left = t.rest.length + 1 := by rw [left, if_neg hf]
  rw [hleft]
  split at h
  · cases h
  · rename_i token t₁ hc
    cases h
    have hlt := length_rest_consumeSignificant hc
    have hle : t'.left ≤ t'.rest.length + 1 := by
      unfold left
      split <;> omega
    omega
  · rename_i e t₁ hc
    cases h
    have hle := length_rest_consume_le Token.isSignificant t
    rw [hc] at hle
    simpa [left] using Nat.lt_succ_of_le hle

/-- All that the stream of significant tokens yields, up to its end. -/
def elements (t : Tokenizer TokenKind) : List (Except LexError (Token TokenKind)) :=
  match _ : t.nextSignificant with
  | (none, _) => []
  | (some r, t') => r :: t'.elements
termination_by t.left
decreasing_by exact left_nextSignificant ‹_›

variable {t t' : Tokenizer TokenKind}

theorem elements_of_none (h : t.nextSignificant = (none, t')) : t.elements = [] := by
  rw [elements]
  split <;> simp_all

theorem elements_of_some {r : Except LexError (Token TokenKind)}
    (h : t.nextSignificant = (some r, t')) : t.elements = r :: t'.elements := by
  rw [elements]
  split <;> simp_all

/-- **The stream yields the significant tokens**, and the error behind them if
    there is one. -/
theorem elements_eq (hf : t.failed = false) :
    t.elements =
      t.significant.map .ok ++ (t.tiling.ending.error?.map Except.error).toList := by
  generalize hts : t.significant = ts
  induction ts generalizing t with
  | nil =>
    obtain ⟨hr, -, -⟩ := consumeSignificant_eq t
    rw [hts] at hr
    rcases hend : t.tiling.ending with pos | e
    · rw [hend] at hr
      exact elements_of_none (nextSignificant_of_consume hf (Prod.ext hr rfl))
    · rw [hend] at hr
      have hnext := nextSignificant_of_consume hf (r := .error e) (Prod.ext hr rfl)
      rw [elements_of_some hnext, elements_of_none (nextSignificant_of_failed rfl)]
      rfl
  | cons token ts ih =>
    obtain ⟨hr, hrest, hend⟩ := consumeSignificant_eq t
    have hf' := (failed_consumeSignificant t).trans hf
    rw [hts] at hr hrest
    have hnext := nextSignificant_of_consume hf (r := .ok (some token)) (Prod.ext hr rfl)
    rw [elements_of_some hnext, ih hf' hrest, hend]
    rfl

/-- A text is lexed without an error if the stream yields nothing but tokens. -/
theorem elements_eq_map_ok_iff {source : String} {ts : List (Token TokenKind)} :
    (ofSource source).elements = ts.map .ok ↔
      (Tiling.ofSource source).significant = ts ∧
        (Tiling.ofSource source).ending.error? = none := by
  have helements : (ofSource source).elements = (Tiling.ofSource source).significant.map .ok ++
      ((Tiling.ofSource source).ending.error?.map Except.error).toList := elements_eq rfl
  rw [helements]
  rcases (Tiling.ofSource source).ending.error? with _ | e
  · simp [List.map_inj_right]
  · refine ⟨fun h => ?_, fun h => nomatch h.2⟩
    have hmem : Except.error e ∈ ts.map Except.ok := h ▸ by simp
    simp at hmem

end Tokenizer

/-! ## Spaced tokens -/

/-- The texts of tokens, with a blank between each two. -/
def spaced (ts : List (Token TokenKind)) : String :=
  " ".intercalate (ts.map (·.text))

theorem toList_spaced_cons_cons (t t' : Token TokenKind) (ts : List (Token TokenKind)) :
    (spaced (t :: t' :: ts)).toList = t.text.toList ++ ([' '] ++ (spaced (t' :: ts)).toList) := by
  simp [spaced, String.intercalate_cons_cons]

theorem toList_spaced_singleton (t : Token TokenKind) : (spaced [t]).toList = t.text.toList := by
  simp [spaced]

/-- A blank ends what means something. -/
theorem TokenKind.stops_blank {kind : TokenKind} (hk : kind.isTrivia = false) (rest : List Char) :
    kind.Stops (' ' :: rest) := by
  rw [stops_cons]
  intro _
  cases kind <;> first | rfl | cases hk

/-- A token that means something, with a text of its kind. -/
structure Token.Proper (t : Token TokenKind) : Prop where
  shape : t.kind.Shape t.text.toList
  isTrivia : t.kind.isTrivia = false

theorem proper_of_mem_significant {source : String} :
    ∀ t ∈ (Tiling.ofSource source).significant, t.Proper := fun t ht =>
  ⟨shape_of_mem_significant t ht, by simpa [Token.isSignificant] using (List.mem_filter.1 ht).2⟩

/-- Nothing that means something begins with white space. -/
theorem Token.Proper.stops {t : Token TokenKind} (h : t.Proper) (rest : List Char) :
    TokenKind.whiteSpace.Stops (t.text.toList ++ rest) := by
  have hne : t.kind ≠ .whiteSpace := fun hk => by
    have htrivia := h.isTrivia
    rw [hk] at htrivia
    cases htrivia
  obtain ⟨c, cs, hs, hc⟩ := TokenKind.isHead_of_shape h.shape
  rw [hs]
  exact TokenKind.stops_of_isHead hne hc _

theorem stops_spaced {t : Token TokenKind} (h : t.Proper) (ts : List (Token TokenKind))
    (rest : List Char) : TokenKind.whiteSpace.Stops ((spaced (t :: ts)).toList ++ rest) := by
  cases ts with
  | nil =>
    rw [toList_spaced_singleton]
    exact h.stops rest
  | cons t' ts =>
    rw [toList_spaced_cons_cons, List.append_assoc]
    exact h.stops _

/-- **Spaced tokens are lexed as themselves.** -/
theorem lexes_spaced {ts : List (Token TokenKind)} (hts : ∀ t ∈ ts, t.Proper) (pos : Nat) :
    ∃ ts' pos', ts'.map Token.word = ts.map Token.word ∧
      Lexes (spaced ts).toList [] pos ts' pos' := by
  induction ts generalizing pos with
  | nil => exact ⟨[], pos, rfl, .nil [] pos⟩
  | cons t ts ih =>
    obtain ⟨hshape, htrivia⟩ := hts t (by simp)
    have htoken {rest} (hr : t.kind.Stops rest) := Lexes.token hshape hr htrivia pos
    rw [String.ofList_toList] at htoken
    cases ts with
    | nil =>
      have hlast := htoken (TokenKind.stops_nil _)
      rw [← toList_spaced_singleton] at hlast
      exact ⟨[⟨t.kind, t.text, pos⟩], _, rfl, hlast⟩
    | cons t' ts =>
      have hsep := Lexes.blank (stops_spaced (hts t' (by simp)) ts []) (pos + t.text.utf8ByteSize)
      obtain ⟨us, pos', hwords, hlex⟩ := ih (fun u hu => hts u (by simp [hu]))
        (pos + t.text.utf8ByteSize + (String.ofList [' ']).utf8ByteSize)
      refine ⟨⟨t.kind, t.text, pos⟩ :: us, pos', ?_, ?_⟩
      · rw [List.map_cons, List.map_cons, hwords]
        rfl
      · rw [toList_spaced_cons_cons]
        exact (htoken (TokenKind.stops_blank htrivia _)).append (hsep.append hlex)

/-- The tiling of spaced tokens. -/
theorem tiling_spaced {ts : List (Token TokenKind)} (hts : ∀ t ∈ ts, t.Proper) :
    (Tiling.ofSource (spaced ts)).significant.map Token.word = ts.map Token.word ∧
      (Tiling.ofSource (spaced ts)).ending.error? = none := by
  obtain ⟨us, pos, hwords, hlex⟩ := lexes_spaced hts 0
  obtain ⟨hsig, hend⟩ := hlex.tiling
  rw [hsig, hend]
  exact ⟨hwords, rfl⟩

/-! ## Reading -/

/-- **Texts with the same tokens are read alike**: as the same forms, or with the
    same error at the corresponding token. -/
theorem read_alike {source source' : String}
    (h : (Tiling.ofSource source).ending.error? = none)
    (h' : (Tiling.ofSource source').ending.error? = none)
    (hw : (Tiling.ofSource source).significant.map Token.word =
      (Tiling.ofSource source').significant.map Token.word) :
    Reader.Alike (Reader.Corresponds (Tiling.ofSource source).significant
      (Tiling.ofSource source').significant) Eq (read source) (read source') := by
  have hcovered : ∀ ending : Ending, ending.error? = none → ∃ n, ending = .covered n := by
    rintro (n | e) he
    · exact ⟨n, rfl⟩
    · cases he
  obtain ⟨n, hn⟩ := hcovered _ h
  obtain ⟨n', hn'⟩ := hcovered _ h'
  rw [read, read, hn, hn']
  exact Reader.readTokens_corresponds hw n n'

/-- **Layout and comments never change what a text means.**
    If the stream of a text yields nothing but tokens, the text of these with a
    blank between each two yields tokens of the same kinds and texts again.  It is
    read as the same forms, or with the same error, whose offset is that of the
    corresponding token. -/
theorem read_spaced {source : String} {ts : List (Token TokenKind)}
    (h : (Tokenizer.ofSource source).elements = ts.map .ok) :
    ∃ ts' : List (Token TokenKind), (Tokenizer.ofSource (spaced ts)).elements = ts'.map .ok ∧
      ts'.map Token.word = ts.map Token.word ∧
      (∀ fs, read source = .ok fs → read (spaced ts) = .ok fs) ∧
      ∀ e, read source = .error e → ∃ (k : Nat) (t t' : Token TokenKind),
        ts[k]? = some t ∧ ts'[k]? = some t' ∧ e.offset = t.pos ∧
          read (spaced ts) = .error (e.moveTo t'.pos) := by
  obtain ⟨rfl, hend⟩ := Tokenizer.elements_eq_map_ok_iff.1 h
  obtain ⟨hwords, hend'⟩ := tiling_spaced fun t ht => proper_of_mem_significant t ht
  have halike := read_alike hend hend' hwords.symm
  refine ⟨_, Tokenizer.elements_eq_map_ok_iff.2 ⟨rfl, hend'⟩, hwords, fun fs hfs => ?_,
    fun e he => ?_⟩
  · rw [hfs] at halike
    exact halike.eq_of_ok
  · rw [he] at halike
    obtain ⟨pos, ⟨k, t, t', ht, ht', hpos, rfl⟩, hread⟩ := halike.exists_of_error
    exact ⟨k, t, t', ht, ht', hpos, hread⟩

/-- Tokens that touch, a comment, and a string that looks like more of both, with
    a parenthesis too many behind it. -/
theorem read_spaced_touching :
    let source := "12abc<=; x\n\"; '\n\")"
    let ts : List (Token TokenKind) := [⟨.number, "12", 0⟩, ⟨.symbol, "abc", 2⟩,
      ⟨.operator, "<", 5⟩, ⟨.operator, "=", 6⟩, ⟨.string, "\"; '\n\"", 11⟩, ⟨.closeParen, ")", 17⟩]
    (Tokenizer.ofSource source).elements = ts.map .ok ∧
      spaced ts = "12 abc < = \"; '\n\" )" ∧ read source = .error (.unexpectedClose 17) ∧
      ∃ (k : Nat) (t t' : Token TokenKind), ts[k]? = some t ∧ t.pos = 17 ∧
        read (spaced ts) = .error (.unexpectedClose t'.pos) := by
  intro source ts
  have htiling : Tiling.ofSource source =
      ⟨ts.take 4 ++ [⟨.comment, "; x", 7⟩, ⟨.whiteSpace, "\n", 10⟩] ++ ts.drop 4, .covered 18⟩ := by
    cbv
  have helements : (Tokenizer.ofSource source).elements = ts.map .ok := by
    rw [Tokenizer.elements_eq_map_ok_iff, htiling]
    exact ⟨rfl, rfl⟩
  have hread : read source = .error (.unexpectedClose 17) := by
    rw [read, htiling]
    rfl
  obtain ⟨ts', -, -, -, herror⟩ := read_spaced helements
  obtain ⟨k, t, t', ht, -, hpos, hread'⟩ := herror _ hread
  exact ⟨helements, by decide, hread, k, t, t', ht, hpos.symm, hread'⟩

end MacroLisp
