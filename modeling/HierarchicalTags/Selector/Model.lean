import HierarchicalTags.Core

/-!
# `HierarchicalTags.Selector.Model` — `HierarchicalTagSelector`, the modal picker

The modal as a guarded step function. Unlike the dropdown, its menus are never disabled: a pick can
be made while any number of fetches are waiting, and those fetches may answer in any order. The
host drives the `visible` prop; the effect on `[visible]` starts `loadTags('')` each time the prop
turns `true`.

* `setVisible v` is the host rendering the modal with `visible = v`.
* `select tag level` is `handleTagSelect(tag, level)`; `confirm` is the Confirm button,
  `disabled={!canConfirm}`; `close` is Cancel or the modal's `onHide`, both `handleClose()`. All
  three need the modal shown.
* `settle i ok` lets the `i`-th waiting fetch answer or fail. After the `await` a pick of a tag with
  children does nothing more, so a completion is the rest of `loadTags` alone.
* As for the dropdown, a state whose `selectedPath` holds `undefined` cannot be rendered (the
  breadcrumb reads its `display_name`), and the tree is gone (`Crashed`).
-/

namespace HierarchicalTags.Selector

/-- A call the modal makes to its host. -/
inductive Call where
  /-- `onConfirm(selectedTag, path)`; `none` stands for `undefined`. -/
  | onConfirm (selectedTag : Option HierarchicalTagItem) (path : String)
  /-- `onClose()`. -/
  | onClose
  deriving DecidableEq, Repr

/-- The `visible` prop, the React state of the modal, the `loadTags` calls waiting on a fetch,
    and the calls made to the host so far, oldest first. -/
structure State where
  visible : Bool
  tagLevels : List (List HierarchicalTagItem)
  selectedPath : List (Slot HierarchicalTagItem)
  loading : Bool
  tasks : List LoadTags
  calls : List Call
  deriving DecidableEq

/-- What can happen next to a mounted modal. -/
inductive Event where
  /-- The host renders the modal with `visible`. -/
  | setVisible (visible : Bool)
  /-- A click on `tag` in the menu of `level`: `handleTagSelect(tag, level)`. -/
  | select (tag : HierarchicalTagItem) (level : Nat)
  /-- The Confirm Selection button: `handleConfirm()`. -/
  | confirm
  /-- Cancel, or the modal's close button: `handleClose()`. -/
  | close
  /-- The `i`-th waiting fetch answers (`ok`) or fails. -/
  | settle (i : Nat) (ok : Bool)
  deriving DecidableEq, Repr

/-- The render throws: the breadcrumb reads `display_name` of an `undefined` entry. -/
def Crashed (s : State) : Prop := Slot.undef ∈ s.selectedPath

instance (s : State) : Decidable (Crashed s) := inferInstanceAs (Decidable (_ ∈ _))

/-- The breadcrumb, `selectedPath.map(tag => '#' + tag.display_name).join('')`. -/
def breadcrumb (s : State) : Option String := joinPath s.selectedPath

/-- `canConfirm`: a non-empty path whose last entry is not a tag with children. -/
def canConfirm (s : State) : Bool :=
  decide (s.selectedPath.length > 0) && !((lastEntry s.selectedPath).any (·.has_children))

/-- `loadTags` up to its `await`: `setLoading(true)`, and the fetch starts. -/
def loadTags (s : State) (l : LoadTags) : State :=
  { s with loading := true, tasks := s.tasks ++ [l] }

/-- The rest of `loadTags` once its fetch is over: `setTagLevels(newTagLevels)` on success, then
    `setLoading(false)`; ignored once the tree is unmounted. -/
def loadTagsSettled (b : Backend) (s : State) (l : LoadTags) (ok : Bool) : State :=
  if Crashed s then s
  else if ok then { s with tagLevels := l.answer b, loading := false }
  else { s with loading := false }

/-- A mounted modal that is not shown: empty state, and the effect has started nothing. -/
def initial : State := ⟨false, [], [], false, [], []⟩

/-- The host renders the modal with `visible`: when the prop turns `true` the effect runs
    `loadTags('')`, with the `tagLevels` of that render. -/
def setVisible (s : State) (visible : Bool) : State :=
  if visible = true ∧ s.visible = false then
    loadTags { s with visible := true } (LoadTags.root s.tagLevels)
  else { s with visible := visible }

/-- `handleTagSelect(tag, level)` up to its `await`: set the new path, then start the children's
    `loadTags`, or for a leaf call `onConfirm(tag, fullPath)` at once. -/
def handleTagSelect (s : State) (tag : HierarchicalTagItem) (level : Nat)
    (h : level < s.tagLevels.length) : State :=
  let newSelectedPath := selectPath s.selectedPath tag level
  if tag.has_children then
    loadTags { s with selectedPath := newSelectedPath } (LoadTags.child s.tagLevels tag level h)
  else
    { s with selectedPath := newSelectedPath,
             calls := s.calls ++ ((joinPath newSelectedPath).map (.onConfirm (some tag))).toList }

/-- `handleConfirm()`: on a non-empty path, `onConfirm(lastSelected, fullPath)`. -/
def handleConfirm (s : State) : State :=
  if s.selectedPath.length > 0 then
    { s with calls := s.calls ++
        ((joinPath s.selectedPath).map (.onConfirm (lastEntry s.selectedPath))).toList }
  else s

/-- `handleClose()`: empty levels and path, then `onClose()`. -/
def handleClose (s : State) : State :=
  { s with tagLevels := [], selectedPath := [], calls := s.calls ++ [.onClose] }

/-- The `i`-th waiting fetch is over and its `loadTags` finishes. -/
def settle (b : Backend) (s : State) (i : Nat) (ok : Bool) : Option State :=
  s.tasks[i]?.map fun l => loadTagsSettled b { s with tasks := s.tasks.eraseIdx i } l ok

/-- One event, if it is enabled. -/
def step (b : Backend) (s : State) : Event → Option State
  | .setVisible v => if ¬ Crashed s then some (setVisible s v) else none
  | .select tag level =>
    if h : level < s.tagLevels.length then
      if ¬ Crashed s ∧ s.visible = true ∧ tag ∈ s.tagLevels[level] then
        some (handleTagSelect s tag level h)
      else none
    else none
  | .confirm =>
    if ¬ Crashed s ∧ s.visible = true ∧ canConfirm s = true then some (handleConfirm s) else none
  | .close => if ¬ Crashed s ∧ s.visible = true then some (handleClose s) else none
  | .settle i ok => settle b s i ok

/-- The states a mounted modal can reach, under any host. -/
def Reachable (b : Backend) (s : State) : Prop := HierarchicalTags.Reachable (step b) initial s

@[simp] theorem setVisible_selectedPath (s : State) (v : Bool) :
    (setVisible s v).selectedPath = s.selectedPath := by
  unfold setVisible; split <;> rfl

@[simp] theorem setVisible_calls (s : State) (v : Bool) : (setVisible s v).calls = s.calls := by
  unfold setVisible; split <;> rfl

@[simp] theorem setVisible_visible (s : State) (v : Bool) : (setVisible s v).visible = v := by
  unfold setVisible; split <;> simp_all [loadTags]

/-- A pick writes `newSelectedPath`, whether or not it then waits for a fetch. -/
@[simp] theorem handleTagSelect_selectedPath (s : State) (tag : HierarchicalTagItem) (level : Nat)
    (h : level < s.tagLevels.length) :
    (handleTagSelect s tag level h).selectedPath = selectPath s.selectedPath tag level := by
  unfold handleTagSelect; split <;> rfl

/-- Hiding only sets the prop. -/
@[simp] theorem setVisible_false (s : State) : setVisible s false = { s with visible := false } :=
  rfl

/-! ## Step inversion -/

variable {b : Backend} {s s' : State}

/-- What an enabled pick does. -/
theorem step_select {tag : HierarchicalTagItem} {level : Nat}
    (h : step b s (.select tag level) = some s') :
    ∃ hlt : level < s.tagLevels.length, ∃ l, s.tagLevels[level]? = some l ∧ tag ∈ l ∧
      ¬ Crashed s ∧ s.visible = true ∧ s' = handleTagSelect s tag level hlt := by
  simp only [step] at h
  split at h
  · rename_i hlt
    split at h
    · rename_i hg
      exact ⟨hlt, _, List.getElem?_eq_getElem hlt, hg.2.2, hg.1, hg.2.1, (Option.some.inj h).symm⟩
    · cases h
  · cases h

theorem step_setVisible {v : Bool} (h : step b s (.setVisible v) = some s') :
    ¬ Crashed s ∧ s' = setVisible s v := by
  simp only [step] at h
  split at h
  · exact ⟨‹_›, (Option.some.inj h).symm⟩
  · cases h

theorem step_confirm (h : step b s .confirm = some s') :
    ¬ Crashed s ∧ canConfirm s = true ∧ s' = handleConfirm s := by
  simp only [step] at h
  split at h
  · rename_i hg
    exact ⟨hg.1, hg.2.2, (Option.some.inj h).symm⟩
  · cases h

theorem step_close (h : step b s .close = some s') :
    ¬ Crashed s ∧ s.visible = true ∧ s' = handleClose s := by
  simp only [step] at h
  split at h
  · rename_i hg
    exact ⟨hg.1, hg.2, (Option.some.inj h).symm⟩
  · cases h

/-- Confirming only calls the host. -/
theorem handleConfirm_eq (s : State) : ∃ calls, handleConfirm s = { s with calls := calls } := by
  unfold handleConfirm
  split
  · exact ⟨_, rfl⟩
  · exact ⟨s.calls, rfl⟩

/-- **What one enabled event does.** -/
theorem step_cases {e : Event} (h : step b s e = some s') :
    (∃ v, ¬ Crashed s ∧ s' = setVisible s v) ∨
    (∃ tag level l, ∃ hl : level < s.tagLevels.length, s.tagLevels[level]? = some l ∧ tag ∈ l ∧
        ¬ Crashed s ∧ s.visible = true ∧ s' = handleTagSelect s tag level hl) ∨
    (¬ Crashed s ∧ canConfirm s = true ∧ s' = handleConfirm s) ∨
    (¬ Crashed s ∧ s.visible = true ∧ s' = handleClose s) ∨
    (∃ i ok, settle b s i ok = some s') := by
  cases e with
  | setVisible v => exact .inl ⟨v, step_setVisible h⟩
  | select tag level =>
    obtain ⟨hlt, l, hl, ht, hc, hv, rfl⟩ := step_select h
    exact .inr (.inl ⟨tag, level, l, hlt, hl, ht, hc, hv, rfl⟩)
  | confirm => exact .inr (.inr (.inl (step_confirm h)))
  | close => exact .inr (.inr (.inr (.inl (step_close h))))
  | settle i ok => exact .inr (.inr (.inr (.inr ⟨i, ok, h⟩)))

/-- **What a completion does**: it removes its call, never touches the path or the calls, and
    writes the fetched levels only when it succeeds on a mounted tree. -/
theorem settle_spec {i : Nat} {ok : Bool} (h : settle b s i ok = some s') :
    ∃ l, s.tasks[i]? = some l ∧ s'.selectedPath = s.selectedPath ∧
      s'.tasks = s.tasks.eraseIdx i ∧ s'.calls = s.calls ∧ s'.visible = s.visible ∧
      s'.tagLevels = (if ¬ Crashed s ∧ ok = true then l.answer b else s.tagLevels) := by
  obtain ⟨l, hl, rfl⟩ := Option.map_eq_some'.mp h
  refine ⟨l, hl, ?_⟩
  unfold loadTagsSettled Crashed
  split_ifs <;> simp_all

/-- A completion on a mounted tree turns the spinner off. -/
theorem settle_loading {i : Nat} {ok : Bool} (h : settle b s i ok = some s') :
    s'.loading = if Crashed s then s.loading else false := by
  obtain ⟨l, -, rfl⟩ := Option.map_eq_some'.mp h
  unfold loadTagsSettled Crashed
  split_ifs <;> simp_all

/-- **A step only appends calls to the host.** -/
theorem step_calls {e : Event} (h : step b s e = some s') : ∃ new, s'.calls = s.calls ++ new := by
  rcases step_cases h with ⟨v, -, rfl⟩ | ⟨tag, level, -, hlt, -, -, -, -, rfl⟩ | ⟨-, -, rfl⟩ |
    ⟨-, -, rfl⟩ | ⟨i, ok, h⟩
  · exact ⟨[], by simp⟩
  · unfold handleTagSelect
    split
    · exact ⟨[], by simp [loadTags]⟩
    · exact ⟨_, rfl⟩
  · unfold handleConfirm
    split
    · exact ⟨_, rfl⟩
    · exact ⟨[], by simp⟩
  · exact ⟨_, rfl⟩
  · obtain ⟨_, _, -, -, hc, -⟩ := settle_spec h
    exact ⟨[], by simp [hc]⟩

end HierarchicalTags.Selector
