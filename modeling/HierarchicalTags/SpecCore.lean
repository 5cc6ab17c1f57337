import HierarchicalTags.Item
import HierarchicalTags.Gateway

/-!
# `HierarchicalTags.SpecCore` — the Hierarchy Selector Core in the spec's own words

The selection logic both pickers share, as the spec states it (§3, §4.1, §6), written from the
spec's words and not from the code, so that each picker can be compared with it. The core holds a
dense `path` of tags and the `levels` shown; its operations are `loadRoot`, `selectNode` and the
two resets of `clear`, each taken to the end of the fetch it starts, with the fetch's outcome as an
argument.

A pick at depth `d` drops every level deeper than `d` whatever the fetch does (§8, and §3's
"truncating the path ... must also truncate `levels`"); §4.1's "on failure, leave levels unchanged
from `atDepth` forward" is read after that cut. The pickers' code keeps the deeper levels on a leaf
pick and on a failed fetch: `pickDiverges` names those picks, and `pickLevels_eq` and
`pickLevels_ne` say that the code's levels are the core's exactly on the other picks.

`selectNode(node, atDepth)` sets `path[atDepth] = node` on a path that has no gaps (§3), so it is
defined only for `atDepth ≤ path.length`. The spec's own input condition, `atDepth` in
`[0, levels.length)`, does not rule out the other case; the code leaves a hole there
(`pick_gap_crash`).

## Contents
- `Core`, `Core.empty`, `loadRoot`, `selectNode`, `clearKeepRoot`.
- `Op` and `Inline`: the inline control of §6, which reports `(formatPath path, node)` after every
  pick and `('', null)` after a clear.
- `isComplete`, `reset`, `ModalOp`, `ModalReport` and `Modal`: the modal control of §6, which
  reports on reaching a leaf or on the confirm intent, discards its state on cancel and when the
  host hides it, and starts empty on open (§3).
- `selectNode_eq_some`, `selectNode_enabled`: what an enabled `selectNode` does, and when it is
  enabled.
- `pickDiverges`, `pickLevels_eq`, `pickLevels_ne`: the picks on which the code's levels part
  from the core's.
-/

namespace HierarchicalTags.SpecCore

/-- The Selector State of §3 without its `loading` flag, since every operation here runs to the
    end of its fetch: the `levels`, the dense `path`, and whether the last fetch failed. -/
structure Core where
  levels : List (List HierarchicalTagItem)
  path : List HierarchicalTagItem
  error : Bool
  deriving DecidableEq, Repr

/-- "State is created empty on component mount." -/
def Core.empty : Core := ⟨[], [], false⟩

/-- `loadRoot()` with the outcome of its fetch: the root level on success; on failure no level
    and an error (§8: "a failed root fetch leaves `levels = []`, `path = []`"). -/
def loadRoot (b : Backend) (c : Core) (ok : Bool) : Core :=
  if ok then { c with levels := [roots b], error := false }
  else { c with levels := [], error := true }

/-- `selectNode(node, atDepth)` with the outcome of the fetch it starts, if any (§4.1). Its input
    is a node of `levels[atDepth]`, on a path it can extend without a gap. The path is cut after
    `atDepth`, with `node` there, and every level deeper than `atDepth` is dropped, whatever the
    fetch does (§8). A node with children has them fetched: on success they become the level after
    `atDepth`; on failure an error is surfaced. A leaf starts no fetch. -/
def selectNode (b : Backend) (c : Core) (node : HierarchicalTagItem) (atDepth : Nat) (ok : Bool) :
    Option Core :=
  if node ∈ c.levels[atDepth]?.getD [] ∧ atDepth ≤ c.path.length then
    let path := c.path.take atDepth ++ [node]
    let levels := c.levels.take (atDepth + 1)
    some (if node.has_children then
      if ok then ⟨levels ++ [children b node], path, false⟩ else ⟨levels, path, true⟩
    else ⟨levels, path, c.error⟩)
  else none

/-- `clear(state)` as the inline form uses it: the path reset to empty, and the root level kept. -/
def clearKeepRoot (c : Core) : Core := { c with path := [], levels := c.levels.take 1 }

/-! ## The inline control -/

/-- What the inline control's user and its fetches can do. -/
inductive Op where
  /-- The mount's `loadRoot()`, with the outcome of its fetch. -/
  | loadRoot (ok : Bool)
  /-- `selectNode(node, atDepth)`, with the outcome of the fetch it starts, if any. -/
  | selectNode (node : HierarchicalTagItem) (atDepth : Nat) (ok : Bool)
  /-- `clear`. -/
  | clear
  deriving DecidableEq, Repr

/-- The inline control of §6 ("continuous reporting"): the core, whether `loadRoot` has run
    (once per mount), and the `onChange(pathString, terminalNodeOrNull)` reports made so far. -/
structure Inline where
  core : Core
  rooted : Bool
  reports : List (String × Option HierarchicalTagItem)
  deriving DecidableEq, Repr

/-- Mounted: empty, with the root not loaded yet. -/
def Inline.mount : Inline := ⟨Core.empty, false, []⟩

/-- One operation of the inline control. Selection is disabled while the root level loads (§4.3);
    every completed pick reports the path and its node, and a clear reports `('', null)` (§6). -/
def Inline.step (b : Backend) (s : Inline) : Op → Option Inline
  | .loadRoot ok => if s.rooted then none else some ⟨loadRoot b s.core ok, true, s.reports⟩
  | .selectNode node atDepth ok =>
    if s.rooted then
      (selectNode b s.core node atDepth ok).map fun c =>
        ⟨c, true, s.reports ++ [(formatPath c.path, some node)]⟩
    else none
  | .clear => some ⟨clearKeepRoot s.core, s.rooted, s.reports ++ [("", none)]⟩

/-! ## The modal control -/

/-- `isComplete(state)`: the path is not empty and its last entry has no children. -/
def isComplete (c : Core) : Bool :=
  match c.path.getLast? with
  | some t => !t.has_children
  | none => false

/-- `clear(state)` as a full reset: no path and no level. -/
def reset (c : Core) : Core := { c with path := [], levels := [] }

/-- What the modal control's user and its fetches can do. -/
inductive ModalOp where
  /-- The host shows the modal, and the open's `loadRoot()` ends with this outcome. -/
  | «open» (ok : Bool)
  /-- `selectNode(node, atDepth)`, with the outcome of the fetch it starts, if any. -/
  | selectNode (node : HierarchicalTagItem) (atDepth : Nat) (ok : Bool)
  /-- The confirm intent. -/
  | confirm
  /-- Cancel. -/
  | close
  /-- The host hides the modal without a cancel, as `HierarchicalTagTest` does on `onConfirm`. -/
  | hide
  deriving DecidableEq, Repr

/-- A call of the modal control to its host (§6). -/
inductive ModalReport where
  /-- `onConfirm(terminalNode, pathString)`. -/
  | onConfirm (node : HierarchicalTagItem) (path : String)
  /-- `onClose()`. -/
  | onClose
  deriving DecidableEq, Repr

/-- The modal control of §6 ("reporting on completion"): the core, whether the modal is shown,
    and the calls made to the host so far. -/
structure Modal where
  core : Core
  shown : Bool
  reports : List ModalReport
  deriving DecidableEq, Repr

/-- Mounted and not shown. -/
def Modal.initial : Modal := ⟨Core.empty, false, []⟩

/-- One operation of the modal control. Opening creates the state empty and loads the root (§3),
    and showing a shown modal changes nothing. A pick reports only when it reaches a leaf
    (auto-confirm); the confirm intent is allowed only on a complete path; cancel discards the
    state and calls `onClose()` (§6); the host hiding the modal discards the state with no call. -/
def Modal.step (b : Backend) (s : Modal) : ModalOp → Option Modal
  | .open ok => if s.shown then some s else some ⟨loadRoot b Core.empty ok, true, s.reports⟩
  | .selectNode node atDepth ok =>
    if s.shown then
      (selectNode b s.core node atDepth ok).map fun c =>
        ⟨c, true, if node.has_children then s.reports
          else s.reports ++ [.onConfirm node (formatPath c.path)]⟩
    else none
  | .confirm =>
    if s.shown ∧ isComplete s.core then
      s.core.path.getLast?.map fun t =>
        ⟨s.core, true, s.reports ++ [.onConfirm t (formatPath s.core.path)]⟩
    else none
  | .close => if s.shown then some ⟨reset s.core, false, s.reports ++ [.onClose]⟩ else none
  | .hide => some ⟨Core.empty, false, s.reports⟩

/-! ## What `selectNode` does -/

variable {b : Backend} {c c' : Core} {node : HierarchicalTagItem} {atDepth : Nat} {ok : Bool}

/-- **What an enabled `selectNode` does**, as a spec lemma for callers. -/
theorem selectNode_eq_some (h : selectNode b c node atDepth ok = some c') :
    node ∈ c.levels[atDepth]?.getD [] ∧ atDepth ≤ c.path.length ∧
      c'.path = c.path.take atDepth ++ [node] ∧
      c'.levels = c.levels.take (atDepth + 1) ++
        (if node.has_children ∧ ok then [children b node] else []) ∧
      c'.error = (if node.has_children then !ok else c.error) := by
  unfold selectNode at h
  split at h
  · rename_i hg
    cases h
    refine ⟨hg.1, hg.2, ?_⟩
    cases node.has_children <;> cases ok <;> simp
  · cases h

/-- `selectNode` is enabled on a shown node inside the path. -/
theorem selectNode_enabled (b : Backend) (ok : Bool) (hmem : node ∈ c.levels[atDepth]?.getD [])
    (hin : atDepth ≤ c.path.length) : ∃ c', selectNode b c node atDepth ok = some c' :=
  ⟨_, if_pos ⟨hmem, hin⟩⟩

/-! ## Where the pickers' picks part from `selectNode` -/

/-- **A pick the pickers' code makes otherwise than `selectNode`**, on a path of `pathLength`
    entries over `levelCount` levels: a pick past the end of the path, which `selectNode` does not
    take; or a leaf pick or a failed fetch with a level below `atDepth`, which the code keeps and
    the core drops (§8). -/
def pickDiverges (pathLength levelCount : Nat) (node : HierarchicalTagItem) (atDepth : Nat)
    (ok : Bool) : Bool :=
  decide (pathLength < atDepth) || (!(node.has_children && ok) && decide (atDepth + 1 < levelCount))

theorem pickDiverges_eq_false {pathLength levelCount : Nat} :
    pickDiverges pathLength levelCount node atDepth ok = false ↔
      atDepth ≤ pathLength ∧ (node.has_children ∧ ok ∨ levelCount ≤ atDepth + 1) := by
  cases hc : node.has_children <;> cases ok <;> simp [pickDiverges, hc, Nat.not_lt]

/-- Off the diverging picks, the levels the code writes (the children after the cut on a
    successful fetch, the levels as they are otherwise) are the core's. -/
theorem pickLevels_eq {levels : List (List HierarchicalTagItem)} {pathLength : Nat}
    (h : pickDiverges pathLength levels.length node atDepth ok = false) :
    (if node.has_children ∧ ok then levels.take (atDepth + 1) ++ [children b node] else levels) =
      levels.take (atDepth + 1) ++ (if node.has_children ∧ ok then [children b node] else []) := by
  by_cases hc : node.has_children ∧ ok
  · simp [hc]
  · have hle := (pickDiverges_eq_false.mp h).2.resolve_left hc
    simp [hc, List.take_of_length_le hle]

/-- On a diverging pick inside the path, the levels the code writes are not the core's: it keeps a
    level that the core drops. -/
theorem pickLevels_ne {levels : List (List HierarchicalTagItem)} {pathLength : Nat}
    (hin : atDepth ≤ pathLength)
    (h : pickDiverges pathLength levels.length node atDepth ok = true) :
    (if node.has_children ∧ ok then levels.take (atDepth + 1) ++ [children b node] else levels) ≠
      levels.take (atDepth + 1) ++ (if node.has_children ∧ ok then [children b node] else []) := by
  have hd : ¬ (atDepth ≤ pathLength ∧ (node.has_children ∧ ok ∨ levels.length ≤ atDepth + 1)) :=
    fun hf => by simp [pickDiverges_eq_false.mpr hf] at h
  have hc : ¬ (node.has_children ∧ ok) := fun hc => hd ⟨hin, .inl hc⟩
  have hlt : ¬ levels.length ≤ atDepth + 1 := fun hle => hd ⟨hin, .inr hle⟩
  intro heq
  have := congrArg List.length heq
  simp only [hc, if_false, List.append_nil, List.length_take] at this
  omega

end HierarchicalTags.SpecCore
