import Mathlib.Data.List.Basic
import Mathlib.Data.String.Basic

/-!
# `HierarchicalTags.Item` — tag items and the `#name#name` path encoding

Both pickers hand a chosen path to their host as one string, written in four places of the source
(`getCurrentPath`, the `onChange` and `onConfirm` strings, the breadcrumb) with the same expression
`path.map(t => '#' + t.display_name).join('')`. Here it is `formatPath` over a dense path; the
sparse JavaScript arrays the pickers really hold are handled in `HierarchicalTags.JsArray`.

## Contents
- **Items.** `HierarchicalTagItem`, with the three fields the pickers read.
- **Encoding.** `formatPath`, its `cons` equation and its character-level form as an
  `intercalate` of the names behind a leading empty field.
- **Decoding.** `splitPath` cuts at every `#`; it inverts `formatPath` on the names exactly when no
  name contains `#` (`splitPath_formatPath`), so the encoding is injective there
  (`formatPath_names_injective`) and not in general (`formatPath_not_injective`).
-/

namespace HierarchicalTags

/-- Modelled from the spec: the `HierarchicalTagItem` interface of `@/common/interface` is not in
    the sources. The spec's `TagNode` is `{ id, display_name, description?, has_children }`; the
    pickers read `id`, `display_name` and `has_children` (`description` is only rendered). -/
structure HierarchicalTagItem where
  id : String
  display_name : String
  has_children : Bool
  deriving DecidableEq, Repr

/-- `path.map(t => '#' + t.display_name).join('')` on a path without holes. -/
def formatPath (path : List HierarchicalTagItem) : String :=
  String.join (path.map fun t => "#" ++ t.display_name)

@[simp] theorem formatPath_nil : formatPath [] = "" := rfl

@[simp] theorem formatPath_cons (t : HierarchicalTagItem) (path : List HierarchicalTagItem) :
    formatPath (t :: path) = "#" ++ t.display_name ++ formatPath path := by
  apply String.ext
  simp [formatPath]

/-- Every tag of a path costs at least its `#`. -/
theorem length_le_formatPath (path : List HierarchicalTagItem) :
    path.length ≤ (formatPath path).length := by
  induction path with
  | nil => simp
  | cons t path ih =>
    simp only [formatPath_cons, String.length_append, List.length_cons]
    have : "#".length = 1 := rfl
    omega

/-! ## Decoding -/

/-- A display name the encoding can carry: it has no `#`. -/
def HashFree (name : String) : Prop := '#' ∉ name.data

instance (name : String) : Decidable (HashFree name) := inferInstanceAs (Decidable (_ ∉ _))

/-- Read a path string back as the sequence of names: cut at every `#` and drop the empty field
    before the first one. -/
def splitPath (s : String) : List String :=
  ((s.data.splitOn '#').map String.mk).tail

/-- `intercalate` after a first field `a`: the field, then every later one behind the separator. -/
theorem intercalate_cons {α : Type} (sep a : List α) (ls : List (List α)) :
    sep.intercalate (a :: ls) = a ++ (ls.map (sep ++ ·)).flatten := by
  induction ls generalizing a with
  | nil => simp [List.intercalate]
  | cons l ls ih =>
    have step : sep.intercalate (a :: l :: ls) = a ++ (sep ++ sep.intercalate (l :: ls)) := by
      simp [List.intercalate]
    rw [step, ih]
    simp

/-- At the level of characters, the encoding is the names joined by `#` behind an empty field. -/
theorem data_formatPath (path : List HierarchicalTagItem) :
    (formatPath path).data = ['#'].intercalate ([] :: path.map (·.display_name.data)) := by
  rw [intercalate_cons]
  simp [formatPath, Function.comp_def]

/-- **Decoding inverts the encoding** on paths whose names have no `#`. -/
theorem splitPath_formatPath (path : List HierarchicalTagItem)
    (h : ∀ t ∈ path, HashFree t.display_name) :
    splitPath (formatPath path) = path.map (·.display_name) := by
  have hfree : ∀ l ∈ ([] :: path.map (·.display_name.data)), '#' ∉ l := by
    simpa [HashFree] using h
  rw [splitPath, data_formatPath, List.splitOn_intercalate _ _ hfree (List.cons_ne_nil _ _)]
  simp [Function.comp_def]

/-- **The encoding is injective on `#`-free names**: the host can recover the name sequence. -/
theorem formatPath_names_injective (p q : List HierarchicalTagItem)
    (hp : ∀ t ∈ p, HashFree t.display_name) (hq : ∀ t ∈ q, HashFree t.display_name)
    (h : formatPath p = formatPath q) :
    p.map (·.display_name) = q.map (·.display_name) := by
  rw [← splitPath_formatPath p hp, ← splitPath_formatPath q hq, h]

/-- Two paths of different tags under the same names encode alike; only the names come back. -/
theorem formatPath_names_injective_phones :
    [HierarchicalTagItem.mk "1" "Electronics" true, ⟨"2", "Phones", false⟩].map (·.display_name)
      = [HierarchicalTagItem.mk "7" "Electronics" true, ⟨"9", "Phones", true⟩].map
          (·.display_name) :=
  formatPath_names_injective _ _ (by decide) (by decide) (by decide)

/-- **Without the `#`-free condition the encoding is not injective**: one tag named `A#B` and the
    two-tag path `A`, `B` are both sent as `#A#B`. -/
theorem formatPath_not_injective :
    ¬ ∀ p q : List HierarchicalTagItem,
      formatPath p = formatPath q → p.map (·.display_name) = q.map (·.display_name) := by
  intro h
  have := h [⟨"1", "A#B", false⟩] [⟨"2", "A", true⟩, ⟨"3", "B", false⟩] (by decide)
  exact absurd this (by decide)

end HierarchicalTags
