/-
  Clusters: the pieces of a text that are read as one character, such as a
  letter with its marks, a syllable, a flag or a family of pictographs.

  Whether a cluster goes on with the next character depends on more than the
  one before it: two letters make a flag and the third one begins another, and
  what a joiner does depends on what it comes after.  An `Ending` is all that
  has to be known of the text so far.

  * `clusters cs` cuts `cs` into clusters;
  * `flatten_clusters`: the clusters are the whole text;
  * `nil_notMem_clusters`: none of them is empty.

  The rules are those of the extended grapheme clusters of Unicode, version 17.
-/
import MacroLisp.Text.ClusterClass

namespace MacroLisp.Text

/-! ## Where a text can be cut -/

/-- What a text ends in, as far as the next cut depends on it. -/
inductive Ending where
  /-- A character of a class, and nothing before it matters. -/
  | plain (c : ClusterClass)
  /-- The first of the two letters of a flag. -/
  | flag
  /-- A pictograph, perhaps with marks. -/
  | picture
  /-- A picture with a joiner. -/
  | joinedPicture
  /-- A consonant, perhaps with marks. -/
  | consonant
  /-- A consonant with marks, a linker among them. -/
  | linked
deriving DecidableEq, Repr

namespace Ending

/-- The ending of the empty text, to which nothing attaches. -/
def start : Ending := plain .control

/-- The ending of a text with one more character. -/
def after : Ending → ClusterClass → Ending
  | flag, .regional => plain .regional
  | _, .regional => flag
  | picture, .extend => picture
  | picture, .linker => picture
  | picture, .nonJoiner => picture
  | picture, .joiner => joinedPicture
  | _, .pictograph => picture
  | consonant, .extend => consonant
  | consonant, .joiner => consonant
  | consonant, .linker => linked
  | linked, .extend => linked
  | linked, .joiner => linked
  | linked, .linker => linked
  | _, .consonant => consonant
  | _, c => plain c

/-- Does the last cluster of a text go on with one more character? -/
def joins : Ending → ClusterClass → Bool
  | plain .carriageReturn, .lineFeed => true
  | plain .carriageReturn, _ => false
  | plain .lineFeed, _ => false
  | plain .control, _ => false
  | _, .carriageReturn => false
  | _, .lineFeed => false
  | _, .control => false
  | _, .extend => true
  | _, .linker => true
  | _, .joiner => true
  | _, .nonJoiner => true
  | _, .spacingMark => true
  | plain .prepend, _ => true
  | plain .leading, .leading => true
  | plain .leading, .vowel => true
  | plain .leading, .openSyllable => true
  | plain .leading, .closedSyllable => true
  | plain .vowel, .vowel => true
  | plain .vowel, .trailing => true
  | plain .openSyllable, .vowel => true
  | plain .openSyllable, .trailing => true
  | plain .trailing, .trailing => true
  | plain .closedSyllable, .trailing => true
  | flag, .regional => true
  | joinedPicture, .pictograph => true
  | linked, .consonant => true
  | _, _ => false

end Ending

/-! ## Cutting a text -/

/-- A text that is being cut: its ending, and its clusters.  The clusters are
    in reverse, and so is each of them. -/
structure Cutting where
  ending : Ending
  clusters : List (List Char)

namespace Cutting

/-- The empty text. -/
def empty : Cutting := ⟨.start, []⟩

/-- One more character: in the last cluster if that goes on, otherwise in a
    cluster of its own. -/
def add (s : Cutting) (c : Char) : Cutting :=
  let kind := ClusterClass.of c
  ⟨s.ending.after kind,
    match s.clusters with
    | g :: gs => if s.ending.joins kind then (c :: g) :: gs else [c] :: g :: gs
    | [] => [[c]]⟩

theorem flatten_add (s : Cutting) (c : Char) :
    (s.add c).clusters.flatten = c :: s.clusters.flatten := by
  unfold add
  dsimp only
  split <;> rename_i h
  · split <;> simp [h]
  · simp [h]

theorem nil_notMem_add {s : Cutting} (h : [] ∉ s.clusters) (c : Char) :
    [] ∉ (s.add c).clusters := by
  unfold add
  dsimp only
  split <;> rename_i hs
  · rw [hs] at h
    split <;> simp_all
  · simp

theorem flatten_foldl_add (cs : List Char) (s : Cutting) :
    (cs.foldl add s).clusters.flatten = cs.reverse ++ s.clusters.flatten := by
  induction cs generalizing s with
  | nil => rfl
  | cons c cs ih => rw [List.foldl_cons, ih, flatten_add]; simp

theorem nil_notMem_foldl_add (cs : List Char) {s : Cutting} (h : [] ∉ s.clusters) :
    [] ∉ (cs.foldl add s).clusters := by
  induction cs generalizing s with
  | nil => exact h
  | cons c cs ih => exact ih (nil_notMem_add h c)

end Cutting

/-- The clusters of a text. -/
def clusters (cs : List Char) : List (List Char) :=
  (cs.foldl Cutting.add .empty).clusters.reverse.map List.reverse

/-- **The clusters are the whole text.** -/
theorem flatten_clusters (cs : List Char) : (clusters cs).flatten = cs := by
  have h := congrArg List.reverse (Cutting.flatten_foldl_add cs .empty)
  rw [List.reverse_flatten] at h
  simpa [clusters, List.map_reverse, Cutting.empty] using h

/-- **No cluster is empty.** -/
theorem nil_notMem_clusters (cs : List Char) : [] ∉ clusters cs := by
  have h := Cutting.nil_notMem_foldl_add cs (s := .empty) List.not_mem_nil
  simpa [clusters] using h

end MacroLisp.Text
