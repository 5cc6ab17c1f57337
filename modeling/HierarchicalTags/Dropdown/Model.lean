import HierarchicalTags.Core

/-!
# `HierarchicalTags.Dropdown.Model` — `HierarchicalTagDropdown`, the inline picker

The component as a guarded step function over its React state, the async calls waiting on a fetch,
and the `onChange` calls it has made. Each event is handled against the state of the latest render,
which is what the handlers' closures capture when every update is rendered before the next event.

* `select tag level` is a click on a menu item, `handleTagSelect(tag, level)`. The menus' toggles
  are `disabled={loading}`, so a pick needs `loading = false`; the tag must be shown at `level`.
* `clear` is the `✕` button, rendered only while `selectedPath` is non-empty.
* `settle i ok` lets the fetch of the `i`-th waiting call answer or fail, in any order. The rest of
  its `loadTags` and, for a pick, the `onChange` after the `await` run in the same step: no user
  event runs between them.
* A state whose `selectedPath` holds an `undefined` entry cannot be rendered (`Crashed`): React
  unmounts the tree, user events stop, and later `setState` calls are ignored.

The `value` prop is read only by an effect whose body is empty, so it is left out.
-/

namespace HierarchicalTags.Dropdown

/-- An async call waiting on its `loadTags`: the mount effect's (`newSelectedPath = none`), or a
    `handleTagSelect` for a tag with children, which reports its `newSelectedPath` after the fetch.
    -/
structure Task where
  load : LoadTags
  newSelectedPath : Option (List (Slot HierarchicalTagItem))
  deriving DecidableEq

/-- A call `onChange(tagPath, selectedTag)`; `none` stands for `null` (and `undefined`). -/
structure Change where
  tagPath : String
  selectedTag : Option HierarchicalTagItem
  deriving DecidableEq, Repr

/-- The React state of the dropdown, the calls waiting on a fetch, and the `onChange` calls made so
    far, oldest first. -/
structure State where
  tagLevels : List (List HierarchicalTagItem)
  selectedPath : List (Slot HierarchicalTagItem)
  loading : Bool
  error : String
  tasks : List Task
  changes : List Change
  deriving DecidableEq

/-- What can happen next to a mounted dropdown. -/
inductive Event where
  /-- A click on `tag` in the menu of `level`: `handleTagSelect(tag, level)`. -/
  | select (tag : HierarchicalTagItem) (level : Nat)
  /-- A click on the clear button: `handleClear()`. -/
  | clear
  /-- The fetch of the `i`-th waiting call answers (`ok`) or fails. -/
  | settle (i : Nat) (ok : Bool)
  deriving DecidableEq, Repr

/-- The message `loadTags` sets when its fetch fails. -/
def loadError : String := "Failed to load tags. Please try again."

/-- The render throws: `getCurrentPath()` reads `display_name` of an `undefined` entry. -/
def Crashed (s : State) : Prop := Slot.undef ∈ s.selectedPath

instance (s : State) : Decidable (Crashed s) := inferInstanceAs (Decidable (_ ∈ _))

/-- `getCurrentPath()`. -/
def getCurrentPath (s : State) : Option String := joinPath s.selectedPath

/-- The `onChange(currentPath, finalTag)` that `handleTagSelect` makes for its `newSelectedPath`;
    nothing when computing `currentPath` throws. -/
def report (newSelectedPath : List (Slot HierarchicalTagItem)) : Option Change :=
  (joinPath newSelectedPath).map fun currentPath => ⟨currentPath, lastEntry newSelectedPath⟩

/-- `loadTags` up to its `await`: `setLoading(true)`, `setError('')`, and the fetch starts. -/
def loadTags (s : State) (t : Task) : State :=
  { s with loading := true, error := "", tasks := s.tasks ++ [t] }

/-- The rest of `loadTags` once its fetch is over: `setTagLevels(newTagLevels)` on success,
    `setError(...)` on failure, then `setLoading(false)`; ignored once the tree is unmounted. -/
def loadTagsSettled (b : Backend) (s : State) (l : LoadTags) (ok : Bool) : State :=
  if Crashed s then s
  else if ok then { s with tagLevels := l.answer b, loading := false }
  else { s with error := loadError, loading := false }

/-- A mounted dropdown: the empty state, with the mount effect's `loadTags('')` under way. -/
def mount : State :=
  loadTags ⟨[], [], false, "", [], []⟩ ⟨LoadTags.root [], none⟩

/-- `handleTagSelect(tag, level)` up to its `await`: set the new path, then either start the
    children's `loadTags` or, for a leaf, call `onChange` at once. -/
def handleTagSelect (s : State) (tag : HierarchicalTagItem) (level : Nat)
    (h : level < s.tagLevels.length) : State :=
  let newSelectedPath := selectPath s.selectedPath tag level
  if tag.has_children then
    loadTags { s with selectedPath := newSelectedPath }
      ⟨LoadTags.child s.tagLevels tag level h, some newSelectedPath⟩
  else
    { s with selectedPath := newSelectedPath,
             changes := s.changes ++ (report newSelectedPath).toList }

/-- `handleClear()`: empty path, `tagLevels.slice(0, 1)`, and `onChange('', null)`. -/
def handleClear (s : State) : State :=
  { s with selectedPath := [], tagLevels := s.tagLevels.take 1,
           changes := s.changes ++ [⟨"", none⟩] }

/-- The fetch of the `i`-th waiting call is over: its `loadTags` finishes, then a suspended
    `handleTagSelect` makes its `onChange`. -/
def settle (b : Backend) (s : State) (i : Nat) (ok : Bool) : Option State :=
  s.tasks[i]?.map fun t =>
    let s₁ := loadTagsSettled b { s with tasks := s.tasks.eraseIdx i } t.load ok
    { s₁ with changes := s₁.changes ++ (t.newSelectedPath.bind report).toList }

/-- One event, if it is enabled. -/
def step (b : Backend) (s : State) : Event → Option State
  | .select tag level =>
    if h : level < s.tagLevels.length then
      if ¬ Crashed s ∧ s.loading = false ∧ tag ∈ s.tagLevels[level] then
        some (handleTagSelect s tag level h)
      else none
    else none
  | .clear => if ¬ Crashed s ∧ s.selectedPath ≠ [] then some (handleClear s) else none
  | .settle i ok => settle b s i ok

/-- The states a mounted dropdown can reach. -/
def Reachable (b : Backend) (s : State) : Prop := HierarchicalTags.Reachable (step b) mount s

/-- A pick writes `newSelectedPath`, whether or not it then waits for a fetch. -/
@[simp] theorem handleTagSelect_selectedPath (s : State) (tag : HierarchicalTagItem) (level : Nat)
    (h : level < s.tagLevels.length) :
    (handleTagSelect s tag level h).selectedPath = selectPath s.selectedPath tag level := by
  unfold handleTagSelect; split <;> rfl

/-! ## Settled steps

The view in which every step waits for the fetch it starts: the mount's root fetch settles, then
every pick is followed at once by the completion of its own fetch, and clears come in between. -/

/-- A step that waits for the fetch it starts. -/
inductive SettledEvent where
  /-- The mount effect's root fetch answers (`ok`) or fails. -/
  | mountLoad (ok : Bool)
  /-- A pick, then its fetch, if it starts one, answers (`ok`) or fails. -/
  | select (tag : HierarchicalTagItem) (level : Nat) (ok : Bool)
  /-- A clear. -/
  | clear
  deriving DecidableEq, Repr

/-- Let the fetch just started, if any, answer or fail. -/
def settleIssued (b : Backend) (s : State) (ok : Bool) : Option State :=
  if s.tasks = [] then some s else step b s (.settle 0 ok)

/-- One settled step. -/
def settledStep (b : Backend) (s : State) : SettledEvent → Option State
  | .mountLoad ok => step b s (.settle 0 ok)
  | .select tag level ok => (step b s (.select tag level)).bind (settleIssued b · ok)
  | .clear => step b s .clear

/-- The states reached by settled steps. -/
def Settled (b : Backend) (s : State) : Prop := HierarchicalTags.Reachable (settledStep b) mount s

/-! ## Step inversion -/

variable {b : Backend} {s s' : State}

/-- What an enabled pick does. -/
theorem step_select {tag : HierarchicalTagItem} {level : Nat}
    (h : step b s (.select tag level) = some s') :
    ∃ hl : level < s.tagLevels.length, ∃ l, s.tagLevels[level]? = some l ∧ tag ∈ l ∧
      ¬ Crashed s ∧ s.loading = false ∧ s' = handleTagSelect s tag level hl := by
  simp only [step] at h
  split at h
  · rename_i hl
    split at h
    · rename_i hg
      exact ⟨hl, _, List.getElem?_eq_getElem hl, hg.2.2, hg.1, hg.2.1, (Option.some.inj h).symm⟩
    · cases h
  · cases h

/-- **What one enabled event does.** -/
theorem step_cases {e : Event} (h : step b s e = some s') :
    (∃ tag level l, ∃ hl : level < s.tagLevels.length, s.tagLevels[level]? = some l ∧ tag ∈ l ∧
        ¬ Crashed s ∧ s.loading = false ∧ s' = handleTagSelect s tag level hl) ∨
    (¬ Crashed s ∧ s.selectedPath ≠ [] ∧ s' = handleClear s) ∨
    (∃ i ok, settle b s i ok = some s') := by
  cases e with
  | select tag level =>
    obtain ⟨hl, l, hget, ht, hc, hload, rfl⟩ := step_select h
    exact .inl ⟨tag, level, l, hl, hget, ht, hc, hload, rfl⟩
  | clear =>
    simp only [step] at h
    split at h
    · rename_i hg
      exact .inr (.inl ⟨hg.1, hg.2, (Option.some.inj h).symm⟩)
    · cases h
  | settle i ok => exact .inr (.inr ⟨i, ok, h⟩)

/-- **What a completion does**: it removes its call and appends the call's report, never touches
    the path, and writes the fetched levels only when it succeeds on a mounted tree. -/
theorem settle_spec {i : Nat} {ok : Bool} (h : settle b s i ok = some s') :
    ∃ t, s.tasks[i]? = some t ∧ s'.selectedPath = s.selectedPath ∧
      s'.tasks = s.tasks.eraseIdx i ∧
      s'.changes = s.changes ++ (t.newSelectedPath.bind report).toList ∧
      s'.tagLevels = (if ¬ Crashed s ∧ ok = true then t.load.answer b else s.tagLevels) ∧
      s'.loading = (if Crashed s then s.loading else false) := by
  obtain ⟨t, ht, rfl⟩ := Option.map_eq_some'.mp h
  refine ⟨t, ht, ?_⟩
  unfold loadTagsSettled Crashed
  split_ifs <;> simp_all

/-- A completion that fails on a mounted tree shows `loadError`; any other keeps the error. -/
theorem settle_error {i : Nat} {ok : Bool} (h : settle b s i ok = some s') :
    s'.error = if ¬ Crashed s ∧ ok = false then loadError else s.error := by
  obtain ⟨t, -, rfl⟩ := Option.map_eq_some'.mp h
  unfold loadTagsSettled Crashed
  split_ifs <;> simp_all

/-- **A step only appends `onChange` calls.** -/
theorem step_changes {e : Event} (h : step b s e = some s') :
    ∃ new, s'.changes = s.changes ++ new := by
  rcases step_cases h with ⟨tag, level, -, hlt, -, -, -, -, rfl⟩ | ⟨-, -, rfl⟩ | ⟨i, ok, h⟩
  · unfold handleTagSelect
    split
    · exact ⟨[], by simp [loadTags]⟩
    · exact ⟨_, rfl⟩
  · exact ⟨_, rfl⟩
  · obtain ⟨_, _, -, -, hc, -⟩ := settle_spec h
    exact ⟨_, hc⟩

/-- A settled step is a run of one or two events. -/
theorem settledStep_run {e : SettledEvent} (h : settledStep b s e = some s') :
    ∃ evs, run (step b) s evs = some s' := by
  cases e with
  | mountLoad ok => exact ⟨[.settle 0 ok], by simpa using h⟩
  | clear => exact ⟨[.clear], by simpa using h⟩
  | select tag level ok =>
    obtain ⟨s₁, h₁, h₂⟩ := Option.bind_eq_some.mp h
    unfold settleIssued at h₂
    split at h₂
    · exact ⟨[.select tag level], by simp [h₁, h₂]⟩
    · exact ⟨[.select tag level, .settle 0 ok], by simp [h₁, h₂]⟩

/-- **Settled states are reachable.** -/
theorem Settled.reachable (h : Settled b s) : Reachable b s :=
  HierarchicalTags.Reachable.of_runs (fun _ _ _ => settledStep_run) h

end HierarchicalTags.Dropdown
