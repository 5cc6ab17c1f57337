import HierarchicalTags.Selector.Invariant

/-!
# `HierarchicalTags.Selector.Session` — settled steps and sessions of the modal

Two views of the modal narrower than its full interleavings.

* **Settled steps.** Every pick waits for its own fetch, and the modal is hidden only through
  `handleClose` (the host reacting to `onClose`). In this view the levels under the path are those
  of the live state, so the path is drawn from the shown levels (`Settled.inv`).
* **Sessions.** `handleClose` empties the path and the levels. Until the next pick nothing writes
  the path, and a root fetch that succeeds writes the root level alone, whatever its closure
  captured (`close_then_open_fresh`). Opening by itself never resets the path.

## Contents
- `SettledEvent`, `settledStep`, `Settled`, `Settled.reachable`, `SettledInv`, `Settled.inv`.
- `step_selectedPath`, `run_selectedPath_nil`, `settle_root`: the facts behind the contract
  `close_then_open_fresh`.
-/

namespace HierarchicalTags.Selector

variable {b : Backend} {s s' : State}

/-! ## Settled steps -/

/-- A step of the modal that waits for the fetch it starts. -/
inductive SettledEvent where
  /-- A pick, then its fetch, if it starts one, answers (`ok`) or fails. -/
  | select (tag : HierarchicalTagItem) (level : Nat) (ok : Bool)
  /-- The Confirm button. -/
  | confirm
  /-- `handleClose()`, and the host hides the modal as `onClose` asks. -/
  | close
  /-- The host shows the modal, and the open's root fetch answers (`ok`) or fails. -/
  | «open» (ok : Bool)
  deriving DecidableEq, Repr

/-- Let the fetch just started, if any, answer or fail. -/
def settleIssued (b : Backend) (s : State) (ok : Bool) : Option State :=
  if s.tasks = [] then some s else step b s (.settle 0 ok)

/-- One settled step. -/
def settledStep (b : Backend) (s : State) : SettledEvent → Option State
  | .select tag level ok => (step b s (.select tag level)).bind (settleIssued b · ok)
  | .confirm => step b s .confirm
  | .close => (step b s .close).bind (step b · (.setVisible false))
  | .open ok => (step b s (.setVisible true)).bind (settleIssued b · ok)

/-- The states reached by settled steps. -/
def Settled (b : Backend) (s : State) : Prop := HierarchicalTags.Reachable (settledStep b) initial s

theorem settleIssued_run {ok : Bool} (h : settleIssued b s ok = some s') :
    ∃ evs, run (step b) s evs = some s' := by
  unfold settleIssued at h
  split at h
  · exact ⟨[], h⟩
  · exact ⟨[.settle 0 ok], by simpa using h⟩

/-- A settled step is a run of one or two events. -/
theorem settledStep_run {e : SettledEvent} (h : settledStep b s e = some s') :
    ∃ evs, run (step b) s evs = some s' := by
  cases e with
  | confirm => exact ⟨[.confirm], by simpa using h⟩
  | close =>
    obtain ⟨s₁, h₁, h₂⟩ := Option.bind_eq_some.mp h
    exact ⟨[.close, .setVisible false], by simp [h₁, h₂]⟩
  | select tag level ok =>
    obtain ⟨s₁, h₁, h₂⟩ := Option.bind_eq_some.mp h
    obtain ⟨evs, hrun⟩ := settleIssued_run h₂
    exact ⟨.select tag level :: evs, by simp [h₁, hrun]⟩
  | «open» ok =>
    obtain ⟨s₁, h₁, h₂⟩ := Option.bind_eq_some.mp h
    obtain ⟨evs, hrun⟩ := settleIssued_run h₂
    exact ⟨.setVisible true :: evs, by simp [h₁, hrun]⟩

/-- **Settled states are reachable.** -/
theorem Settled.reachable (h : Settled b s) : Reachable b s :=
  HierarchicalTags.Reachable.of_runs (fun _ _ _ => settledStep_run) h

/-- What settled steps keep: nothing waits, the path is drawn from the shown levels, and a hidden
    modal has an empty path. -/
structure SettledInv (s : State) : Prop where
  idle : s.tasks = []
  path_le : s.selectedPath.length ≤ s.tagLevels.length
  inLevels : InLevels s.selectedPath s.tagLevels
  hidden : s.visible = false → s.selectedPath = []

/-- The fetch just started by a pick completes against the levels it captured, which are the live
    ones: the path stays drawn from the levels. -/
theorem SettledInv.select (hi : SettledInv s) {tag : HierarchicalTagItem} {level : Nat}
    {s₁ : State} (h₁ : step b s (.select tag level) = some s₁) {ok : Bool}
    (h₂ : settleIssued b s₁ ok = some s') : SettledInv s' := by
  obtain ⟨hlt, l, hl, ht, -, hv, rfl⟩ := step_select h₁
  have hin := inLevels_selectPath hi.inLevels hl ht
  have hlen : (selectPath s.selectedPath tag level).length ≤ s.tagLevels.length := by simpa
  simp only [handleTagSelect, settleIssued] at h₂
  split at h₂
  · rw [if_neg (by simp [loadTags])] at h₂
    obtain ⟨l', hl', hpath, htasks, -, hvis, hlevels⟩ := settle_spec h₂
    simp only [loadTags, hi.idle, List.nil_append, List.getElem?_cons_zero, Option.some.injEq,
      List.eraseIdx_cons_zero] at hl' hpath htasks hvis hlevels
    subst hl'
    refine ⟨htasks, ?_, ?_, fun h => absurd (hvis.symm.trans h) (by simp [hv])⟩
    all_goals rw [hpath, hlevels]; split_ifs
    · simp [LoadTags.answer, LoadTags.child]
    · exact hlen
    · rw [LoadTags.answer, LoadTags.newTagLevels_eq]
      exact inLevels_take_append hin (by simp [LoadTags.child]) _
    · exact hin
  · rw [if_pos hi.idle] at h₂
    cases h₂
    exact ⟨hi.idle, hlen, hin, by simp [hv]⟩

/-- **Settled steps keep `SettledInv`.** -/
theorem SettledInv.step (hi : SettledInv s) {e : SettledEvent} (h : settledStep b s e = some s') :
    SettledInv s' := by
  cases e with
  | select tag level ok =>
    obtain ⟨s₁, h₁, h₂⟩ := Option.bind_eq_some.mp h
    exact hi.select h₁ h₂
  | confirm =>
    obtain ⟨-, -, rfl⟩ := step_confirm (show Selector.step b s .confirm = some s' from h)
    obtain ⟨calls, hc⟩ := handleConfirm_eq s
    rw [hc]
    exact ⟨hi.idle, hi.path_le, hi.inLevels, hi.hidden⟩
  | close =>
    obtain ⟨s₁, h₁, h₂⟩ := Option.bind_eq_some.mp h
    obtain ⟨-, -, rfl⟩ := step_close h₁
    obtain ⟨-, rfl⟩ := step_setVisible h₂
    exact ⟨hi.idle, le_rfl, inLevels_nil _, fun _ => rfl⟩
  | «open» ok =>
    obtain ⟨s₁, h₁, h₂⟩ := Option.bind_eq_some.mp h
    obtain ⟨-, rfl⟩ := step_setVisible h₁
    unfold setVisible settleIssued at h₂
    split at h₂
    · rename_i hvis
      rw [if_neg (by simp [loadTags])] at h₂
      obtain ⟨-, -, hpath, htasks, -, hv, -⟩ := settle_spec h₂
      have hnil : s'.selectedPath = [] := by simpa [loadTags, hpath] using hi.hidden hvis.2
      have hin : InLevels s'.selectedPath s'.tagLevels := hnil ▸ inLevels_nil _
      refine ⟨by simpa [loadTags, hi.idle] using htasks, by simp [hnil], hin,
        fun h => by simp_all [loadTags]⟩
    · rw [if_pos (by simpa using hi.idle)] at h₂
      cases h₂
      exact ⟨hi.idle, hi.path_le, hi.inLevels, by simp⟩

/-- **Every settled state keeps `SettledInv`.** -/
theorem Settled.inv (h : Settled b s) : SettledInv s := by
  induction h with
  | init => exact ⟨rfl, le_rfl, inLevels_nil _, fun _ => rfl⟩
  | next _ _ hstep ih => exact ih.step hstep

/-! ## Sessions -/

/-- **Only a pick puts tags in the path**: any other event keeps it or empties it. -/
theorem step_selectedPath {e : Event} (h : Selector.step b s e = some s')
    (he : ∀ tag level, e ≠ .select tag level) :
    s'.selectedPath = s.selectedPath ∨ s'.selectedPath = [] := by
  cases e with
  | setVisible v =>
    obtain ⟨-, rfl⟩ := step_setVisible h
    exact .inl (setVisible_selectedPath s v)
  | select tag level => exact absurd rfl (he tag level)
  | confirm =>
    obtain ⟨-, -, rfl⟩ := step_confirm h
    obtain ⟨calls, hc⟩ := handleConfirm_eq s
    exact .inl (by rw [hc])
  | close =>
    obtain ⟨-, -, rfl⟩ := step_close h
    exact .inr rfl
  | settle i ok =>
    obtain ⟨_, _, hpath, -⟩ := settle_spec h
    exact .inl hpath

/-- **Without a pick an empty path stays empty.** -/
theorem run_selectedPath_nil {evs : List Event} (hs : s.selectedPath = [])
    (h : run (Selector.step b) s evs = some s') (hno : ∀ tag level, Event.select tag level ∉ evs) :
    s'.selectedPath = [] := by
  induction evs generalizing s with
  | nil => exact (Option.some.inj h) ▸ hs
  | cons e evs ih =>
    obtain ⟨s₁, h₁, h₂⟩ := Option.bind_eq_some.mp ((run_cons _ s e evs).symm.trans h)
    have hne : ∀ tag level, e ≠ .select tag level :=
      fun tag level he => hno tag level (he ▸ List.mem_cons_self _ _)
    refine ih ?_ h₂ (fun tag level hm => hno tag level (List.mem_cons_of_mem _ hm))
    rcases step_selectedPath h₁ hne with h | h
    · rw [h, hs]
    · exact h

/-- **A root fetch that succeeds writes the root level alone**, whatever its closure captured. -/
theorem settle_root {i : Nat} {ls : List (List HierarchicalTagItem)}
    (hl : s.tasks[i]? = some (LoadTags.root ls)) (hnc : ¬ Crashed s)
    (h : Selector.step b s (.settle i true) = some s') : s'.tagLevels = [roots b] := by
  obtain ⟨l, hl', -, -, -, -, hlevels⟩ := settle_spec h
  obtain rfl : l = LoadTags.root ls := Option.some.inj (hl'.symm.trans hl)
  rw [hlevels, if_pos ⟨hnc, rfl⟩, LoadTags.answer_root]

end HierarchicalTags.Selector
