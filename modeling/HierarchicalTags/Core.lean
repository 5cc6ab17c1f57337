import HierarchicalTags.Gateway

/-!
# `HierarchicalTags.Core` — what the two pickers share

`HierarchicalTagDropdown` and `HierarchicalTagSelector` carry two copies of the same `loadTags` and
of the first half of `handleTagSelect`. This module states them once, together with the runs of a
picker and the facts about paths that both pickers' invariants are built from.

## Contents
- **Runs.** `Reachable` and the executable `run` of a guarded step function (`none` = the event is
  not enabled), with `Reachable.run` and `Reachable.of_runs` (a coarser step built from runs).
- **`loadTags`.** `LoadTags`, one call waiting for its fetch with the `tagLevels` its closure
  captured; its structure field keeps the written level at most one past the end, so the write
  never makes a hole. `newTagLevels_eq` is its closed form, and a fetch issued from a cascade
  writes a cascade (`levelChain_answer_root`, `levelChain_answer_child`).
- **`handleTagSelect`'s path.** `selectPath` and its lemmas: its length, its last entry, and
  which values it holds where (`getElem?_selectPath_val`).
- **Path facts.** `InLevels` (each tag present is one of its level's options), `DepthPath` (each
  tag present lies at its depth) and `Sound` (what a report may say), with one preservation lemma
  per operation.
-/

namespace HierarchicalTags

/-! ## Runs -/

section Runs

variable {σ ε : Type} (step : σ → ε → Option σ)

/-- States reached from `init` by enabled events. -/
inductive Reachable (init : σ) : σ → Prop
  | init : Reachable init init
  | next {s s' : σ} (e : ε) : Reachable init s → step s e = some s' → Reachable init s'

/-- Run a list of events, stopping (`none`) at the first one that is not enabled. -/
def run (s : σ) (evs : List ε) : Option σ := evs.foldlM step s

@[simp] theorem run_nil (s : σ) : run step s [] = some s := rfl

@[simp] theorem run_cons (s : σ) (e : ε) (evs : List ε) :
    run step s (e :: evs) = (step s e).bind (run step · evs) := by
  simp only [run, List.foldlM_cons]
  cases step s e <;> rfl

variable {step}

/-- What a run reaches from a reachable state is reachable. -/
theorem Reachable.run {init s s' : σ} (hs : Reachable step init s) {evs : List ε}
    (h : HierarchicalTags.run step s evs = some s') : Reachable step init s' := by
  induction evs generalizing s with
  | nil => exact (Option.some.inj h) ▸ hs
  | cons e evs ih =>
    obtain ⟨s₁, h₁, h₂⟩ := Option.bind_eq_some.mp ((run_cons step s e evs).symm.trans h)
    exact ih (hs.next e h₁) h₂

/-- **A coarser step made of runs of `step` reaches only states `step` reaches.** -/
theorem Reachable.of_runs {ε' : Type} {step' : σ → ε' → Option σ}
    (h : ∀ s e s', step' s e = some s' → ∃ evs, HierarchicalTags.run step s evs = some s')
    {init s : σ} (hs : Reachable step' init s) : Reachable step init s := by
  induction hs with
  | init => exact .init
  | next e _ hstep ih =>
    obtain ⟨evs, hrun⟩ := h _ e _ hstep
    exact ih.run hrun

end Runs

/-! ## `loadTags` -/

/-- One call of `loadTags(parentId, level)` waiting for its fetch. Its closure captured the
    `tagLevels` of the render that made the call. The mount and open effects ask for level `0`, and
    a pick at a shown level `l < tagLevels.length` for level `l + 1`, so `level` is at most one past
    the end of the captured levels. -/
structure LoadTags where
  parentId : String
  level : Nat
  tagLevels : List (List HierarchicalTagItem)
  level_le : level ≤ tagLevels.length
  deriving DecidableEq

namespace LoadTags

/-- `loadTags('')` of the mount or open effect: the root level. -/
def root (tagLevels : List (List HierarchicalTagItem)) : LoadTags :=
  ⟨"", 0, tagLevels, Nat.zero_le _⟩

/-- `loadTags(tag.id, level + 1)` of `handleTagSelect(tag, level)` at a shown `level`. -/
def child (tagLevels : List (List HierarchicalTagItem)) (tag : HierarchicalTagItem) (level : Nat)
    (h : level < tagLevels.length) : LoadTags :=
  ⟨tag.id, level + 1, tagLevels, h⟩

/-- What a successful `loadTags` passes to `setTagLevels`: `[...tagLevels]`,
    `newTagLevels[level] = response.tags`, `newTagLevels.splice(level + 1)`. -/
def newTagLevels (l : LoadTags) (tags : List HierarchicalTagItem) :
    List (List HierarchicalTagItem) :=
  splice (assignDense l.tagLevels l.level tags) (l.level + 1)

/-- The levels `l` writes when its fetch succeeds against `b`. -/
def answer (b : Backend) (l : LoadTags) : List (List HierarchicalTagItem) :=
  l.newTagLevels (getHierarchicalTags b l.parentId)

/-- **The write of `loadTags`**: the captured levels above `level`, then the answer. -/
theorem newTagLevels_eq (l : LoadTags) (tags : List HierarchicalTagItem) :
    l.newTagLevels tags = l.tagLevels.take l.level ++ [tags] :=
  splice_assignDense _ _ _ l.level_le

@[simp] theorem length_newTagLevels (l : LoadTags) (tags : List HierarchicalTagItem) :
    (l.newTagLevels tags).length = l.level + 1 := by
  simp [newTagLevels_eq, l.level_le]

variable {b : Backend}

/-- A root load writes the root level alone, whatever it captured. -/
@[simp] theorem answer_root (tagLevels : List (List HierarchicalTagItem)) :
    (root tagLevels).answer b = [roots b] := by
  simp [answer, newTagLevels_eq, root, roots]

/-- A child load writes the captured levels down to the picked one, then the tag's children. -/
@[simp] theorem answer_child (tagLevels : List (List HierarchicalTagItem))
    (tag : HierarchicalTagItem) (level : Nat) (h : level < tagLevels.length) :
    (child tagLevels tag level h).answer b = tagLevels.take (level + 1) ++ [children b tag] := by
  simp [answer, newTagLevels_eq, child, children]

theorem levelChain_answer_root (tagLevels : List (List HierarchicalTagItem)) :
    LevelChain b ((root tagLevels).answer b) := by
  simpa using levelChain_roots

/-- A child load issued from a cascade, for a tag shown at its level, writes a cascade. -/
theorem levelChain_answer_child {tagLevels : List (List HierarchicalTagItem)}
    (hc : LevelChain b tagLevels) {tag : HierarchicalTagItem} {level : Nat}
    {l : List HierarchicalTagItem} (hl : tagLevels[level]? = some l) (ht : tag ∈ l)
    (h : level < tagLevels.length) : LevelChain b ((child tagLevels tag level h).answer b) := by
  rw [answer, newTagLevels_eq]
  exact cascade_take_append hc hl ht

end LoadTags

/-! ## `handleTagSelect`'s path -/

/-- `newSelectedPath` of `handleTagSelect(tag, level)`: `[...selectedPath]`,
    `newSelectedPath[level] = tag`, `newSelectedPath.splice(level + 1)`. -/
def selectPath (selectedPath : List (Slot HierarchicalTagItem)) (tag : HierarchicalTagItem)
    (level : Nat) : List (Slot HierarchicalTagItem) :=
  splice (assign (spread selectedPath) level tag) (level + 1)

variable {sp : List (Slot HierarchicalTagItem)} {tag t : HierarchicalTagItem} {level i : Nat}

@[simp] theorem length_selectPath : (selectPath sp tag level).length = level + 1 :=
  length_splice_assign _ _ _

@[simp] theorem lastEntry_selectPath : lastEntry (selectPath sp tag level) = some tag :=
  lastEntry_splice_assign _ _ _

/-- **Where the picked path holds values**: the tag at its level, and the old values above it. -/
theorem getElem?_selectPath_val :
    (selectPath sp tag level)[i]? = some (.val t)
      ↔ (i = level ∧ t = tag) ∨ (i < level ∧ sp[i]? = some (.val t)) := by
  rw [selectPath, getElem?_splice_assign_val, spread, List.getElem?_map]
  cases sp[i]? <;> simp

/-- A dense path has no `undefined` entry. -/
theorem undef_not_mem_map_val (p : List HierarchicalTagItem) : Slot.undef ∉ p.map Slot.val := by
  simp

/-- On a dense path, a pick inside the path is the spec's `path[level] = tag` and cut. -/
theorem selectPath_dense {p : List HierarchicalTagItem} (h : level ≤ p.length) :
    selectPath (p.map .val) tag level = (p.take level ++ [tag]).map .val := by
  rw [selectPath, splice_assign, spread, List.map_map, ← List.map_take]
  simp [Function.comp_def, Slot.read, Nat.sub_eq_zero_of_le h]

/-- **Where the picked path has gaps**: holes exactly when the pick is past the end of the old
    path. -/
theorem hole_mem_selectPath : Slot.hole ∈ selectPath sp tag level ↔ sp.length < level := by
  rw [selectPath, splice_assign, spread, ← List.map_take]
  simp only [List.mem_append, List.mem_map, Slot.read_ne_hole, and_false, exists_false,
    List.mem_replicate, List.mem_singleton, reduceCtorEq, or_false, false_or, and_true,
    List.length_map]
  omega

/-- **Where the picked path has `undefined` entries**: where the old path had a gap before the
    picked level, since the spread reads a hole as `undefined`. -/
theorem undef_mem_selectPath :
    Slot.undef ∈ selectPath sp tag level ↔
      Slot.hole ∈ sp.take level ∨ Slot.undef ∈ sp.take level := by
  rw [selectPath, splice_assign, spread, ← List.map_take]
  simp only [List.mem_append, List.mem_map, Slot.read_eq_undef, List.mem_replicate,
    List.mem_singleton, reduceCtorEq, and_false, or_false, and_or_left, exists_or,
    exists_eq_right]

/-! ## Path facts -/

/-- Every tag present in `path` is one of the options shown at its level. -/
def InLevels (path : List (Slot HierarchicalTagItem))
    (tagLevels : List (List HierarchicalTagItem)) : Prop :=
  ∀ (i : Nat) (t : HierarchicalTagItem), path[i]? = some (.val t) →
    ∃ l, tagLevels[i]? = some l ∧ t ∈ l

/-- Every tag present in `path` lies at the depth of its index. -/
def DepthPath (b : Backend) (path : List (Slot HierarchicalTagItem)) : Prop :=
  ∀ (i : Nat) (t : HierarchicalTagItem), path[i]? = some (.val t) → AtDepth b i t

/-- What a report `(s, t)` may say: `s` encodes a path whose tags lie at their depths and whose
    last entry is `t`. -/
def Sound (b : Backend) (s : String) (t : HierarchicalTagItem) : Prop :=
  ∃ path, DepthPath b path ∧ lastEntry path = some t ∧ joinPath path = some s

variable {b : Backend} {tagLevels : List (List HierarchicalTagItem)} {l : List HierarchicalTagItem}

theorem inLevels_nil (tagLevels : List (List HierarchicalTagItem)) : InLevels [] tagLevels := by
  simp [InLevels]

theorem depthPath_nil (b : Backend) : DepthPath b [] := by simp [DepthPath]

/-- A pick at a shown level keeps every tag of the path among its level's options. -/
theorem inLevels_selectPath (h : InLevels sp tagLevels) (hl : tagLevels[level]? = some l)
    (ht : tag ∈ l) : InLevels (selectPath sp tag level) tagLevels := by
  intro i t hi
  rcases getElem?_selectPath_val.mp hi with ⟨rfl, rfl⟩ | ⟨-, hi⟩
  · exact ⟨l, hl, ht⟩
  · exact h i t hi

/-- A pick of a tag at its depth keeps every tag of the path at its depth. -/
theorem depthPath_selectPath (h : DepthPath b sp) (ht : AtDepth b level tag) :
    DepthPath b (selectPath sp tag level) := by
  intro i t hi
  rcases getElem?_selectPath_val.mp hi with ⟨rfl, rfl⟩ | ⟨-, hi⟩
  · exact ht
  · exact h i t hi

/-- Levels at and below the end of the path can be replaced without moving any of its tags. -/
theorem inLevels_take_append {path : List (Slot HierarchicalTagItem)} (h : InLevels path tagLevels)
    {n : Nat} (hn : path.length ≤ n) (rest : List (List HierarchicalTagItem)) :
    InLevels path (tagLevels.take n ++ rest) := by
  intro i t hi
  have hi' : i < path.length := (List.getElem?_eq_some_iff.mp hi).1
  obtain ⟨l, hl, ht⟩ := h i t hi
  have hl' : i < tagLevels.length := (List.getElem?_eq_some_iff.mp hl).1
  refine ⟨l, ?_, ht⟩
  rw [List.getElem?_append_left (by simp; omega), List.getElem?_take_of_lt (by omega), hl]

/-- **Tags shown by a cascade lie at their depth**, so a path drawn from it does too. -/
theorem InLevels.depthPath {path : List (Slot HierarchicalTagItem)} (h : InLevels path tagLevels)
    (hc : LevelChain b tagLevels) : DepthPath b path := by
  intro i t hi
  obtain ⟨l, hl, ht⟩ := h i t hi
  exact levelChain_atDepth hc hl ht

end HierarchicalTags
