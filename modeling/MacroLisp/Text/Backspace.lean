/-
  Lines as they are typed: a backspace takes back the cluster that was written
  last.

  What is kept of a cluster is its size, in one byte.  So a cluster of 256 bytes
  or more is not taken back as a whole, and a backspace after it may come to
  stand inside a character, which no line can contain.

  * `typed line` is what is left of a line;
  * `typed_of_notMem`: a line without backspaces is left as it is;
  * `Line.back_write`: a backspace undoes a cluster of less than 256 bytes.
-/
import MacroLisp.Text.Cluster

namespace MacroLisp.Text

/-- The bytes of a text in UTF-8. -/
def byteSize (cs : List Char) : Nat :=
  cs.foldr (fun c n => c.utf8Size + n) 0

/-- Takes `n` bytes from the front of a text, if that cuts no character. -/
def dropBytes (n : Nat) : List Char → Option (List Char)
  | [] => if n = 0 then some [] else none
  | c :: cs =>
    if n = 0 then some (c :: cs)
    else if c.utf8Size ≤ n then dropBytes (n - c.utf8Size) cs
    else none

/-- A line that is being typed: what is written, in reverse, and the sizes of its
    clusters, the last one first. -/
structure Line where
  written : List Char
  sizes : List UInt8
deriving DecidableEq, Repr

namespace Line

/-- The empty line. -/
def empty : Line := ⟨[], []⟩

/-- Writes a cluster at the end of a line. -/
def write (l : Line) (cluster : List Char) : Line :=
  ⟨cluster.reverse ++ l.written, (byteSize cluster).toUInt8 :: l.sizes⟩

/-- Takes back as many bytes as the last cluster has, if there is one. -/
def back (l : Line) : Option Line :=
  match l.sizes with
  | [] => some l
  | size :: sizes => (dropBytes size.toNat l.written).map (⟨·, sizes⟩)

/-- Types a cluster: a backspace, or something to write. -/
def type (l : Line) (cluster : List Char) : Option Line :=
  if cluster = ['\x08'] then l.back else some (l.write cluster)

end Line

/-- What is left of a line once every backspace in it has been typed, if no
    backspace comes to stand inside a character. -/
def typed (line : String) : Option String :=
  ((clusters line.toList).foldlM Line.type .empty).map fun l => String.ofList l.written.reverse

/-! ## Lemmas -/

theorem dropBytes_zero (cs : List Char) : dropBytes 0 cs = some cs := by
  cases cs <;> rfl

theorem dropBytes_append (cs ds : List Char) :
    dropBytes (byteSize cs) (cs ++ ds) = some ds := by
  induction cs with
  | nil => exact dropBytes_zero ds
  | cons c cs ih =>
    have hc := c.utf8Size_pos
    have hs : byteSize (c :: cs) = c.utf8Size + byteSize cs := rfl
    rw [List.cons_append, dropBytes, if_neg (by omega), if_pos (by omega), hs,
      Nat.add_sub_cancel_left, ih]

theorem byteSize_append (cs ds : List Char) :
    byteSize (cs ++ ds) = byteSize cs + byteSize ds := by
  induction cs with
  | nil => simp [byteSize]
  | cons c cs ih => exact (congrArg (c.utf8Size + ·) ih).trans (Nat.add_assoc ..).symm

theorem byteSize_reverse (cs : List Char) : byteSize cs.reverse = byteSize cs := by
  induction cs with
  | nil => rfl
  | cons c cs ih =>
    rw [List.reverse_cons, byteSize_append, ih]
    exact Nat.add_comm ..

/-- **A backspace undoes a cluster whose size fits in a byte.** -/
theorem Line.back_write (l : Line) {cluster : List Char} (h : byteSize cluster < 256) :
    (l.write cluster).back = some l := by
  have hn : (byteSize cluster).toUInt8.toNat = byteSize cluster := by
    simpa using Nat.mod_eq_of_lt h
  simp only [write, back, hn]
  rw [← byteSize_reverse, dropBytes_append]
  rfl

theorem Line.foldlM_type {gs : List (List Char)} (h : ['\x08'] ∉ gs) (l : Line) :
    ∃ sizes, gs.foldlM Line.type l = some ⟨gs.flatten.reverse ++ l.written, sizes⟩ := by
  induction gs generalizing l with
  | nil => exact ⟨l.sizes, rfl⟩
  | cons g gs ih =>
    have hg : g ≠ ['\x08'] := fun e => h (e ▸ List.mem_cons_self ..)
    obtain ⟨sizes, hs⟩ := ih (fun hm => h (List.mem_cons_of_mem _ hm)) (l.write g)
    refine ⟨sizes, ?_⟩
    rw [List.foldlM_cons, Line.type, if_neg hg]
    simpa [write] using hs

/-- **A line without backspaces is left as it is.** -/
theorem typed_of_notMem {line : String} (h : '\x08' ∉ line.toList) : typed line = some line := by
  have hg : ['\x08'] ∉ clusters line.toList := fun hm =>
    h (flatten_clusters line.toList ▸ List.mem_flatten.2 ⟨_, hm, List.mem_singleton_self _⟩)
  obtain ⟨sizes, hs⟩ := Line.foldlM_type hg .empty
  rw [typed, hs]
  simp [Line.empty, flatten_clusters]

end MacroLisp.Text
