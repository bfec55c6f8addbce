/-
  The offsets of a reader are places in its text.

  A cursor stands in its source at an offset, and has before it the text from
  there on; a string token holds its contents between the offsets of its quotes.
  All of these offsets are in the text and between characters, however the
  cursor has been moved.

  * `Text.IsSlice`: the text between two offsets;
  * `Tokenizer.Reached`: the cursors that can be come by;
  * `Tokenizer.Reached.isSlice`, `Token.isSlice_of_string`: the two kinds of
    slices.
-/
import MacroLisp.Proofs.Lexing.Cursor
import MacroLisp.Proofs.Reader.Acceptance

namespace MacroLisp

/-- `part` stands in `s` from the offset `start` to the offset `stop`.  Both are
    in the text, and neither is inside a character. -/
structure Text.IsSlice (s : String) (start stop : Nat) (part : String) : Prop where
  start_isValid : (⟨start⟩ : String.Pos.Raw).IsValid s
  stop_isValid : (⟨stop⟩ : String.Pos.Raw).IsValid s
  stop_eq : stop = start + part.utf8ByteSize
  eq_append : ∃ before after, s = before ++ part ++ after ∧ start = before.utf8ByteSize

theorem Text.isSlice_append (before part after : String) :
    IsSlice (before ++ part ++ after) before.utf8ByteSize
      (before.utf8ByteSize + part.utf8ByteSize) part where
  start_isValid := String.Pos.Raw.isValid_iff_exists_append.2
    ⟨before, part ++ after, String.append_assoc, rfl⟩
  stop_isValid := String.Pos.Raw.isValid_iff_exists_append.2
    ⟨before ++ part, after, rfl, by simp [String.rawEndPos]⟩
  stop_eq := rfl
  eq_append := ⟨before, after, rfl, rfl⟩

/-! ## Cursors -/

namespace Tokenizer

variable {κ : Type} {rules : List (Rule κ)} {source : String} {t : Tokenizer κ}

/-- The cursor `t` can be come by on the text `source`. -/
inductive Reached (rules : List (Rule κ)) (source : String) : Tokenizer κ → Prop where
  | start : Reached rules source (.ofString rules source)
  | consume {t : Tokenizer κ} (ht : Reached rules source t) (keep : Token κ → Bool) :
      Reached rules source (t.consume keep).2
  | skipWhile {t : Tokenizer κ} (ht : Reached rules source t) (p : Token κ → Bool) :
      Reached rules source (t.skipWhile p)
  | nextWhere {t : Tokenizer κ} (ht : Reached rules source t) (keep : Token κ → Bool) :
      Reached rules source (t.nextWhere keep).2

variable {passed ahead : List (Token κ)}

theorem At.consume (h : At rules source passed ahead t) (keep : Token κ → Bool) :
    ∃ passed ahead, At rules source passed ahead (t.consume keep).2 := by
  rw [h.consume_eq keep]
  exact ⟨_, _, h.through keep⟩

theorem At.skipWhile (h : At rules source passed ahead t) (p : Token κ → Bool) :
    ∃ passed ahead, At rules source passed ahead (t.skipWhile p) := by
  rw [skipWhile_eq p h.tiling_eq]
  rw [← List.takeWhile_append_dropWhile (p := p) (l := ahead)] at h
  exact ⟨_, _, h.advanceAll⟩

theorem At.nextWhere (h : At rules source passed ahead t) (keep : Token κ → Bool) :
    ∃ passed ahead, At rules source passed ahead (t.nextWhere keep).2 := by
  obtain ⟨passed', ahead', hc⟩ := h.consume keep
  unfold Tokenizer.nextWhere
  split
  · exact ⟨_, _, h⟩
  · rcases hr : t.consume keep with ⟨e | _ | token, t'⟩ <;> rw [hr] at hc
    · exact ⟨_, _, hc.fail⟩
    · exact ⟨_, _, hc⟩
    · exact ⟨_, _, hc⟩

/-- A cursor is always behind some of the tokens of its text. -/
theorem Reached.exists_at (ht : Reached rules source t) :
    ∃ passed ahead, At rules source passed ahead t := by
  induction ht with
  | start => exact ⟨_, _, .ofString rules source⟩
  | consume _ keep ih =>
    obtain ⟨_, _, h⟩ := ih
    exact h.consume keep
  | skipWhile _ p ih =>
    obtain ⟨_, _, h⟩ := ih
    exact h.skipWhile p
  | nextWhere _ keep ih =>
    obtain ⟨_, _, h⟩ := ih
    exact h.nextWhere keep

/-- **What a cursor has before it is the text from its offset on.** -/
theorem Reached.isSlice (ht : Reached rules source t) :
    Text.IsSlice source t.pos source.utf8ByteSize (String.ofList t.rest) := by
  obtain ⟨passed, ahead, h⟩ := ht.exists_at
  have hslice := Text.isSlice_append (Token.textOf passed) (String.ofList t.rest) ""
  rw [String.append_empty, h.remains.text_eq, ← h.remains.pos_eq] at hslice
  have hsize : t.pos + (String.ofList t.rest).utf8ByteSize = source.utf8ByteSize := by
    rw [h.remains.pos_eq, ← String.utf8ByteSize_append, h.remains.text_eq]
  rwa [hsize] at hslice

end Tokenizer

/-! ## Strings -/

/-- **A string has its contents between its first and its last byte**, which are
    the quotes. -/
theorem Token.isSlice_of_string {t : Token TokenKind} (hs : t.kind.Shape t.text.toList)
    (hk : t.kind = .string) : ∃ content, Reader.atom? t = some (.string content) ∧
      Text.IsSlice t.text 1 (t.text.utf8ByteSize - 1) content := by
  obtain ⟨content, -, ht, hleaf⟩ := leaf_of_string hs hk
  have hslice := Text.isSlice_append "\"" content "\""
  have hquote : "\"".utf8ByteSize = 1 := rfl
  have hsize : 1 + content.utf8ByteSize = t.text.utf8ByteSize - 1 := by
    rw [ht, String.utf8ByteSize_append, String.utf8ByteSize_append, hquote]
    omega
  rw [hquote, hsize, ← ht] at hslice
  exact ⟨content, hleaf ▸ Reader.atom?_eq_leaf hs (by rw [hk]; rfl), hslice⟩

end MacroLisp
