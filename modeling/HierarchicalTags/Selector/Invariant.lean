import HierarchicalTags.Selector.Model

/-!
# `HierarchicalTags.Selector.Invariant` — what every run of the modal keeps

Nothing in the modal orders its fetches, so a completion may write levels captured long before,
and the path may then point past them. What survives any interleaving and any host is weaker than
for the dropdown: every level shown is still a cascade of real child lists, every tag in the path
lies at the depth of its index, and every `onConfirm` names a leaf and a sound path.

## Contents
- `CallOk` and `Inv`.
- One preservation lemma per operation, then `Inv.step` and `Reachable.inv`.
- `shown_state_sound`: what the modal shows, over every run.
-/

namespace HierarchicalTags.Selector

variable {b : Backend} {s s' : State}

/-- A call to the host says nothing false: `onConfirm` names a leaf and the encoding of a path of
    tags at their depths that ends in it. -/
def CallOk (b : Backend) : Call → Prop
  | .onConfirm (some t) path => t.has_children = false ∧ Sound b path t
  | .onConfirm none _ => False
  | .onClose => True

/-- **The modal's invariant.** -/
structure Inv (b : Backend) (s : State) : Prop where
  levels : LevelChain b s.tagLevels
  depth : DepthPath b s.selectedPath
  last : s.selectedPath = [] ∨ ∃ t, lastEntry s.selectedPath = some t
  tasks : ∀ l ∈ s.tasks, LevelChain b (l.answer b)
  calls : ∀ c ∈ s.calls, CallOk b c

theorem inv_initial (b : Backend) : Inv b initial :=
  ⟨trivial, depthPath_nil b, .inl rfl, by simp [initial], by simp [initial]⟩

/-- Opening starts a root load, which writes a cascade whatever it captured. -/
theorem Inv.setVisible (hi : Inv b s) (v : Bool) : Inv b (setVisible s v) := by
  unfold Selector.setVisible
  split
  · refine ⟨hi.levels, hi.depth, hi.last, ?_, hi.calls⟩
    simp only [loadTags, List.mem_append, List.mem_singleton]
    rintro l (hl | rfl)
    · exact hi.tasks l hl
    · exact LoadTags.levelChain_answer_root _
  · exact ⟨hi.levels, hi.depth, hi.last, hi.tasks, hi.calls⟩

/-- **A pick keeps the invariant**: the tag lies at the depth of its level, a child load issued
    from the live levels writes a cascade, and a leaf is confirmed with the new path. -/
theorem Inv.handleTagSelect (hi : Inv b s) {tag : HierarchicalTagItem} {level : Nat}
    {l : List HierarchicalTagItem} (hlt : level < s.tagLevels.length)
    (hl : s.tagLevels[level]? = some l) (ht : tag ∈ l) :
    Inv b (handleTagSelect s tag level hlt) := by
  have hdp := depthPath_selectPath hi.depth (levelChain_atDepth hi.levels hl ht)
  have hlast : selectPath s.selectedPath tag level = [] ∨
      ∃ t, lastEntry (selectPath s.selectedPath tag level) = some t := .inr ⟨tag, by simp⟩
  unfold Selector.handleTagSelect
  split
  · refine ⟨hi.levels, hdp, hlast, ?_, hi.calls⟩
    simp only [loadTags, List.mem_append, List.mem_singleton]
    rintro l' (hl' | rfl)
    · exact hi.tasks l' hl'
    · exact LoadTags.levelChain_answer_child hi.levels hl ht hlt
  · rename_i hleaf
    refine ⟨hi.levels, hdp, hlast, hi.tasks, ?_⟩
    simp only [List.mem_append]
    rintro c (hc | hc)
    · exact hi.calls c hc
    · obtain ⟨str, hj, rfl⟩ := Option.map_eq_some'.mp (Option.mem_toList.mp hc)
      exact ⟨by simpa using hleaf, _, hdp, by simp, hj⟩

/-- **Confirming keeps the invariant**: `canConfirm` holds only when the last entry is a leaf. -/
theorem Inv.handleConfirm (hi : Inv b s) (hc : canConfirm s = true) : Inv b (handleConfirm s) := by
  unfold Selector.handleConfirm
  split
  · rename_i hpos
    refine ⟨hi.levels, hi.depth, hi.last, hi.tasks, ?_⟩
    simp only [List.mem_append]
    rintro c (hc' | hc')
    · exact hi.calls c hc'
    · obtain ⟨str, hj, rfl⟩ := Option.map_eq_some'.mp (Option.mem_toList.mp hc')
      rcases hi.last with hnil | ⟨t, ht⟩
      · simp [hnil] at hpos
      · simp only [canConfirm, ht, Option.any_some, Bool.and_eq_true, Bool.not_eq_true'] at hc
        rw [ht]
        exact ⟨hc.2, _, hi.depth, ht, hj⟩
  · exact hi

/-- Closing empties the levels and the path. -/
theorem Inv.handleClose (hi : Inv b s) : Inv b (handleClose s) := by
  refine ⟨trivial, depthPath_nil b, .inl rfl, hi.tasks, ?_⟩
  simp only [Selector.handleClose, List.mem_append, List.mem_singleton]
  rintro c (hc | rfl)
  · exact hi.calls c hc
  · trivial

/-- **A completion keeps the invariant**, stale or not: what a waiting load writes is a cascade. -/
theorem Inv.settle (hi : Inv b s) {i : Nat} {ok : Bool} (h : settle b s i ok = some s') :
    Inv b s' := by
  obtain ⟨l, hl, hpath, htasks, hcalls, -, hlevels⟩ := settle_spec h
  refine ⟨?_, hpath ▸ hi.depth, hpath ▸ hi.last, ?_, hcalls ▸ hi.calls⟩
  · rw [hlevels]
    split_ifs
    · exact hi.tasks l (List.getElem?_mem hl)
    · exact hi.levels
  · rw [htasks]
    exact fun l' hl' => hi.tasks l' (List.mem_of_mem_eraseIdx hl')

/-- **One event keeps the invariant.** -/
theorem Inv.step (hi : Inv b s) {e : Event} (h : step b s e = some s') : Inv b s' := by
  rcases step_cases h with ⟨v, -, rfl⟩ | ⟨tag, level, l, hlt, hl, ht, -, -, rfl⟩ |
    ⟨-, hc, rfl⟩ | ⟨-, -, rfl⟩ | ⟨i, ok, h⟩
  · exact hi.setVisible v
  · exact hi.handleTagSelect hlt hl ht
  · exact hi.handleConfirm hc
  · exact hi.handleClose
  · exact hi.settle h

/-- **Every reachable state keeps the invariant.** -/
theorem Reachable.inv (h : Reachable b s) : Inv b s := by
  induction h with
  | init => exact inv_initial b
  | next _ _ hstep ih => exact ih.step hstep

/-- The spinner of a mounted modal is off once no fetch waits. -/
theorem Reachable.spinner (h : Reachable b s) (hnil : s.tasks = []) (hnc : ¬ Crashed s) :
    s.loading = false := by
  induction h with
  | init => rfl
  | next _ _ hstep ih =>
    rcases step_cases hstep with ⟨v, hc, rfl⟩ | ⟨tag, level, -, hlt, -, -, hc, -, rfl⟩ |
      ⟨hc, -, rfl⟩ | ⟨hc, -, rfl⟩ | ⟨i, ok, h⟩
    · unfold Selector.setVisible at hnil ⊢
      split at hnil
      · simp [loadTags] at hnil
      · rw [if_neg ‹_›]
        exact ih hnil hc
    · unfold Selector.handleTagSelect at hnil ⊢
      split at hnil
      · simp [loadTags] at hnil
      · rw [if_neg ‹_›]
        exact ih hnil hc
    · obtain ⟨calls, hcs⟩ := handleConfirm_eq _
      rw [hcs] at hnil ⊢
      exact ih hnil hc
    · exact ih hnil hc
    · obtain ⟨-, -, hpath, -⟩ := settle_spec h
      rw [settle_loading h, if_neg fun hcs => hnc (by rwa [Crashed, hpath])]

end HierarchicalTags.Selector
