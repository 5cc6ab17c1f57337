import HierarchicalTags.Item

/-!
# `HierarchicalTags.JsArray` — the JavaScript array operations the pickers use

`handleTagSelect` copies `selectedPath` with a spread, writes the picked tag at its level and cuts
the copy after it; `loadTags` does the same to `tagLevels`. A JavaScript array can have *holes*
(indices never written) and *`undefined`* entries, and the two differ: a spread reads a hole as
`undefined`, `map` skips holes, and reading `display_name` of `undefined` throws.

## Contents
- **Slots.** `Slot` (a value, `undefined`, or a hole), `spread`, `assign`, `assignDense`, `splice`,
  `lastEntry`.
- **Write-then-cut.** `splice_assign` and `splice_assignDense`: the closed forms of
  `xs[i] = a; xs.splice(i + 1)`.
- **`joinPath`.** The path expression over a sparse array: it throws on `undefined`, and otherwise
  is `formatPath` of the values present (`joinPath_eq`).
-/

namespace HierarchicalTags

/-- One index of a JavaScript array: a value, an `undefined` entry, or a hole. -/
inductive Slot (α : Type) where
  | val (a : α)
  | undef
  | hole
  deriving DecidableEq, Repr

namespace Slot

variable {α : Type}

/-- The value held at an index, if any. -/
def toOption : Slot α → Option α
  | val a => some a
  | _ => none

/-- What a spread stores for an index: a hole is read as `undefined`. -/
def read : Slot α → Slot α
  | hole => undef
  | s => s

@[simp] theorem toOption_val (a : α) : (val a).toOption = some a := rfl
@[simp] theorem toOption_undef : (undef : Slot α).toOption = none := rfl
@[simp] theorem toOption_hole : (hole : Slot α).toOption = none := rfl

@[simp] theorem read_eq_val {s : Slot α} {a : α} : s.read = val a ↔ s = val a := by
  cases s <;> simp [read]

/-- A spread leaves no hole; it reads holes and `undefined` alike. -/
@[simp] theorem read_ne_hole (s : Slot α) : s.read ≠ hole := by
  cases s <;> simp [read]

@[simp] theorem read_eq_undef {s : Slot α} : s.read = undef ↔ s = hole ∨ s = undef := by
  cases s <;> simp [read]

end Slot

variable {α : Type}

open Slot

/-- `[...xs]`. -/
def spread (xs : List (Slot α)) : List (Slot α) := xs.map Slot.read

/-- `xs[i] = a`: past the end, the indices skipped over become holes. -/
def assign (xs : List (Slot α)) (i : Nat) (a : α) : List (Slot α) :=
  if i < xs.length then xs.set i (.val a)
  else xs ++ List.replicate (i - xs.length) .hole ++ [.val a]

/-- `xs[i] = a` on an array without holes, for `i ≤ xs.length`: no hole can appear. -/
def assignDense (xs : List α) (i : Nat) (a : α) : List α :=
  if i < xs.length then xs.set i a else xs ++ [a]

/-- `xs.splice(k)`: remove every element from index `k` on. -/
def splice (xs : List α) (k : Nat) : List α := xs.take k

/-- `xs[xs.length - 1]`, with `undefined` (`none`) for an empty array or a non-value. -/
def lastEntry (xs : List (Slot α)) : Option α := xs.getLast?.bind Slot.toOption

/-- The values present in a sparse array, in order. -/
def present (xs : List (Slot α)) : List α := xs.filterMap Slot.toOption

@[simp] theorem length_spread (xs : List (Slot α)) : (spread xs).length = xs.length :=
  List.length_map _ _

@[simp] theorem present_append (xs ys : List (Slot α)) :
    present (xs ++ ys) = present xs ++ present ys := List.filterMap_append _ _ _

/-! ## Write-then-cut -/

/-- **`xs[i] = a; xs.splice(i + 1)`** keeps the first `i` entries, pads with holes up to `i`, and
    ends with `a`. -/
theorem splice_assign (xs : List (Slot α)) (i : Nat) (a : α) :
    splice (assign xs i a) (i + 1)
      = xs.take i ++ List.replicate (i - xs.length) .hole ++ [.val a] := by
  unfold splice assign
  split
  · rename_i h
    rw [List.set_eq_take_append_cons_drop, if_pos h, Nat.sub_eq_zero_of_le h.le]
    simp [List.take_append_eq_append_take, List.take_take, Nat.min_eq_left h.le]
  · rename_i h
    rw [List.take_of_length_le (by simp; omega), List.take_of_length_le (by omega)]

/-- The dense form of `splice_assign`, for a write at most one past the end. -/
theorem splice_assignDense (xs : List α) (i : Nat) (a : α) (h : i ≤ xs.length) :
    splice (assignDense xs i a) (i + 1) = xs.take i ++ [a] := by
  unfold splice assignDense
  split
  · rename_i hi
    rw [List.set_eq_take_append_cons_drop, if_pos hi]
    simp [List.take_append_eq_append_take, List.take_take, Nat.min_eq_left hi.le]
  · rw [List.take_of_length_le (by simp; omega), List.take_of_length_le (by omega)]

/-- The last entry of a write-then-cut is the value written. -/
@[simp] theorem lastEntry_splice_assign (xs : List (Slot α)) (i : Nat) (a : α) :
    lastEntry (splice (assign xs i a) (i + 1)) = some a := by
  simp [splice_assign, lastEntry]

@[simp] theorem length_splice_assign (xs : List (Slot α)) (i : Nat) (a : α) :
    (splice (assign xs i a) (i + 1)).length = i + 1 := by
  simp [splice_assign]; omega

/-- **The values of a write-then-cut**: the value written, at its index, and the values that were
    before it. -/
theorem getElem?_splice_assign_val {xs : List (Slot α)} {i j : Nat} {a b : α} :
    (splice (assign xs i a) (i + 1))[j]? = some (.val b)
      ↔ (j = i ∧ b = a) ∨ (j < i ∧ xs[j]? = some (.val b)) := by
  rw [splice_assign]
  rcases Nat.lt_trichotomy j i with hj | rfl | hj
  · rw [List.getElem?_append_left (by simp; omega)]
    by_cases hx : j < xs.length
    · rw [List.getElem?_append_left (by simp; omega), List.getElem?_take_of_lt hj]
      simp [hj, Nat.ne_of_lt hj]
    · rw [List.getElem?_append_right (by simp; omega), List.getElem?_replicate,
        List.getElem?_eq_none (by omega : xs.length ≤ j)]
      simp [Nat.ne_of_lt hj, hj]
  · rw [List.getElem?_append_right (by simp; omega)]
    simp only [List.length_append, List.length_take, List.length_replicate]
    rw [show j - (min j xs.length + (j - xs.length)) = 0 by omega]
    simp [eq_comm]
  · rw [List.getElem?_eq_none (by simp; omega)]
    simp [Nat.ne_of_gt hj, Nat.not_lt_of_gt hj]

/-! ## `joinPath` -/

/-- `xs.map(t => '#' + t.display_name).join('')` on a JavaScript array: `map` skips holes, which
    `join` prints as nothing, and `t.display_name` on `undefined` throws a `TypeError` (`none`). -/
def joinPath : List (Slot HierarchicalTagItem) → Option String
  | [] => some ""
  | .val t :: xs => (joinPath xs).map ("#" ++ t.display_name ++ ·)
  | .hole :: xs => joinPath xs
  | .undef :: _ => none

/-- **`joinPath` throws exactly on an `undefined` entry, and otherwise encodes the values
    present.** -/
theorem joinPath_eq (xs : List (Slot HierarchicalTagItem)) :
    joinPath xs = if Slot.undef ∈ xs then none else some (formatPath (present xs)) := by
  induction xs with
  | nil => rfl
  | cons s xs ih =>
    cases s with
    | val t => simp only [joinPath, ih, present]; split <;> simp_all
    | undef => simp [joinPath]
    | hole => simp [joinPath, ih, present]

/-- On a path without holes, `joinPath` is `formatPath`. -/
theorem joinPath_dense (path : List HierarchicalTagItem) :
    joinPath (path.map .val) = some (formatPath path) := by
  rw [joinPath_eq, if_neg (by simp)]
  simp [present, List.filterMap_map, Function.comp_def]

end HierarchicalTags
