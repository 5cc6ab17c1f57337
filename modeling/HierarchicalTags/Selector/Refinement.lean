import HierarchicalTags.Contracts
import HierarchicalTags.SpecCore

/-!
# `HierarchicalTags.Selector.Refinement` — the modal is the spec's modal control

The modal under its host, one step at a time: a settled step (`Selector.settledStep`: each pick
and each open waits for its fetch, and a cancel is `handleClose` then the host hiding the modal),
or the host hiding the modal outside `handleClose`, as `HierarchicalTagTest` does on `onConfirm`
(`HostEvent.hide`). So taken, the modal is the modal control of the spec's core (`SpecCore.Modal`)
up to a few events, named once by `HostEvent.exceptional`:

* a pick past the end of the path, which the core does not allow;
* a pick that keeps a level below it, because it is a leaf or its fetch fails: the modal leaves its
  levels as they are, while the core drops every level below the pick (§8);
* an open of a hidden modal that still holds a path, or levels when the root fetch fails: hiding
  keeps the modal's state, while the control discards it and starts empty on open (§3).

`Refines` relates the two states: the same visibility and calls to the host, and while shown the
same levels and path. Each step of the modal that is not exceptional is a step of the control
(`Refines.step`), each step of the control that is not exceptional for the modal is a step of the
modal (`Refines.step_core`), and each exceptional event that both take parts them
(`Refines.not_refines_exceptional`). The three lift to runs (`selector_refines_modal`).

The relation says nothing of the core's error flag: the modal has no error state, and a failed
fetch only leaves the levels as they were.

## Contents
- `settledStep_select_dense`, `settledStep_open`: a settled pick and a settled open in closed form;
  `canConfirm_dense`: Confirm is enabled exactly on a complete path.
- `HostEvent`, `hostStep`, `toCall`, `absOp`, `toEvent`, `HostEvent.exceptional`, `Refines`,
  `refines_initial`, and one lemma per operation.
- `Refines.step`, `Refines.step_core`, `Refines.not_refines_exceptional`.
- `matchesCore`, `Refines.run`, `Refines.run_core`, `selector_refines_modal`.
-/

namespace HierarchicalTags.Selector

open SpecCore

variable {b : Backend} {d d' : State} {tag : HierarchicalTagItem} {level : Nat} {ok : Bool}

/-! ## Settled steps on a dense path -/

/-- The path expression of a dense path throws nothing. -/
theorem not_crashed_dense (p : List HierarchicalTagItem) (h : d.selectedPath = p.map .val) :
    ¬ Crashed d := by
  simp [Crashed, h]

/-- **A settled pick inside a dense path**, from an idle shown modal: the path cut after the tag,
    the children's level on a successful fetch, and for a leaf one `onConfirm`. -/
theorem settledStep_select_dense {p : List HierarchicalTagItem} (hidle : d.tasks = [])
    (hload : d.loading = false) (hvis : d.visible = true) (hpath : d.selectedPath = p.map .val)
    (hin : level ≤ p.length) (ht : tag ∈ d.tagLevels[level]?.getD []) :
    settledStep b d (.select tag level ok) = some { d with
      selectedPath := (p.take level ++ [tag]).map .val,
      tagLevels := if tag.has_children ∧ ok then
        d.tagLevels.take (level + 1) ++ [children b tag] else d.tagLevels,
      calls := if tag.has_children then d.calls
        else d.calls ++ [.onConfirm (some tag) (formatPath (p.take level ++ [tag]))] } := by
  have hl : level < d.tagLevels.length := by
    by_contra hge
    rw [List.getElem?_eq_none (by omega)] at ht
    exact absurd ht (List.not_mem_nil _)
  have hmem : tag ∈ d.tagLevels[level] := by rwa [List.getElem?_eq_getElem hl] at ht
  have hsel : selectPath d.selectedPath tag level = (p.take level ++ [tag]).map .val := by
    rw [hpath, selectPath_dense hin]
  have hnc' := undef_not_mem_map_val (p.take level ++ [tag])
  simp only [settledStep, step, dif_pos hl,
    if_pos (And.intro (not_crashed_dense p hpath) (And.intro hvis hmem)), Option.some_bind,
    handleTagSelect, hsel, joinPath_dense, Option.map_some', Option.toList_some]
  cases hc : tag.has_children
  · simp [settleIssued, hidle]
  · simp only [if_true, settleIssued, loadTags, hidle, List.nil_append, List.cons_ne_nil,
      if_false, step, settle, List.getElem?_cons_zero, Option.map_some', List.eraseIdx_cons_zero,
      loadTagsSettled, Crashed, hnc', LoadTags.answer_child]
    cases ok <;> simp [hload]

/-- **A settled open of a hidden modal**, whatever path it holds: shown, with the root level on
    success and the levels left as they are on failure. -/
theorem settledStep_open (hidle : d.tasks = []) (hload : d.loading = false)
    (hvis : d.visible = false) (hnc : ¬ Crashed d) :
    settledStep b d (.open ok) = some (if ok then { d with visible := true, tagLevels := [roots b] }
      else { d with visible := true }) := by
  have hnu : Slot.undef ∉ d.selectedPath := hnc
  simp only [settledStep, step, hnc, not_false_eq_true, if_true, Option.some_bind, setVisible, hvis,
    and_self, loadTags, settleIssued, hidle, List.nil_append, List.cons_ne_nil, if_false, settle,
    List.getElem?_cons_zero, Option.map_some', List.eraseIdx_cons_zero, loadTagsSettled, Crashed,
    hnu, LoadTags.answer_root]
  cases ok <;> simp [hload]

/-- **On a dense path, Confirm is enabled exactly on a complete path.** -/
theorem canConfirm_dense {c : Core} (h : d.selectedPath = c.path.map .val) :
    canConfirm d = isComplete c := by
  rw [canConfirm, h, isComplete]
  cases hl : c.path.getLast? with
  | none => simp [List.getLast?_eq_none_iff.mp hl]
  | some t =>
    have hne : c.path ≠ [] := fun hnil => by simp [hnil] at hl
    simp [lastEntry, List.getLast?_map, hl, List.length_pos.mpr hne]

/-! ## The refinement relation -/

/-- What the modal's user, its fetches and its host can do: a settled step, or the host hiding the
    modal outside `handleClose`. -/
inductive HostEvent where
  /-- A settled step. -/
  | settled (e : SettledEvent)
  /-- The host renders the modal with `visible = false`, as `HierarchicalTagTest` does on
      `onConfirm`. -/
  | hide
  deriving DecidableEq, Repr

/-- One step of the modal under its host. -/
def hostStep (b : Backend) (d : State) : HostEvent → Option State
  | .settled e => settledStep b d e
  | .hide => step b d (.setVisible false)

/-- A call of the modal control, as the modal makes it. -/
def toCall : ModalReport → Call
  | .onConfirm node path => .onConfirm (some node) path
  | .onClose => .onClose

/-- The modal's events as operations of the modal control. -/
def absOp : HostEvent → ModalOp
  | .settled (.select tag level ok) => .selectNode tag level ok
  | .settled .confirm => .confirm
  | .settled .close => .close
  | .settled (.open ok) => .open ok
  | .hide => .hide

/-- The modal control's operations as events of the modal. -/
def toEvent : ModalOp → HostEvent
  | .open ok => .settled (.open ok)
  | .selectNode node atDepth ok => .settled (.select node atDepth ok)
  | .confirm => .settled .confirm
  | .close => .settled .close
  | .hide => .hide

/-- **The events the modal control makes otherwise**, on the modal's state before them: a pick
    that `pickDiverges`, and an open of a hidden modal that still holds a path, or levels when its
    root fetch fails. -/
def HostEvent.exceptional (d : State) : HostEvent → Bool
  | .settled (.select tag level ok) =>
    pickDiverges d.selectedPath.length d.tagLevels.length tag level ok
  | .settled (.open ok) => !d.visible && (!d.selectedPath.isEmpty || (!ok && !d.tagLevels.isEmpty))
  | _ => false

theorem exceptional_open_iff :
    (HostEvent.settled (.open ok)).exceptional d = true ↔
      d.visible = false ∧ (d.selectedPath ≠ [] ∨ (ok = false ∧ d.tagLevels ≠ [])) := by
  cases hv : d.visible <;> cases ok <;> simp [HostEvent.exceptional, hv]

/-- **The refinement relation.** The modal `d` is the modal control `s` when
    1. the modal is shown exactly when the control is, and its calls to the host are the control's;
    2. no fetch waits and the spinner is off;
    3. the path holds only values, and while shown the levels and the path are the core's;
    4. a hidden control has no level and no path, whatever the hidden modal still holds. -/
structure Refines (d : State) (s : Modal) : Prop where
  visible : d.visible = s.shown
  calls : d.calls = s.reports.map toCall
  tasks : d.tasks = []
  loading : d.loading = false
  dense : ∃ p : List HierarchicalTagItem, d.selectedPath = p.map .val
  levels : s.shown = true → d.tagLevels = s.core.levels
  path : s.shown = true → d.selectedPath = s.core.path.map .val
  hidden : s.shown = false → s.core.levels = [] ∧ s.core.path = []

theorem refines_initial : Refines initial Modal.initial :=
  ⟨rfl, rfl, rfl, rfl, ⟨[], rfl⟩, fun _ => rfl, fun _ => rfl, fun _ => ⟨rfl, rfl⟩⟩

theorem Refines.not_crashed {s : Modal} (hr : Refines d s) : ¬ Crashed d :=
  let ⟨p, hp⟩ := hr.dense
  not_crashed_dense p hp

/-! ## One lemma per operation -/

/-- Opening, from the related states, unless it is exceptional. -/
theorem Refines.open {s : Modal} (hr : Refines d s) (b : Backend) (ok : Bool)
    (hx : (HostEvent.settled (.open ok)).exceptional d = false) :
    ∃ d' s', settledStep b d (.open ok) = some d' ∧ Modal.step b s (.open ok) = some s' ∧
      Refines d' s' := by
  have hnc := hr.not_crashed
  cases hshown : s.shown
  · have hvis : d.visible = false := by rw [hr.visible, hshown]
    have hpath : d.selectedPath = [] := by
      by_contra hne
      simp [exceptional_open_iff.mpr ⟨hvis, .inl hne⟩] at hx
    have hlv : ok = false → d.tagLevels = [] := fun hok => by
      by_contra hne
      simp [exceptional_open_iff.mpr ⟨hvis, .inr ⟨hok, hne⟩⟩] at hx
    refine ⟨_, ⟨loadRoot b Core.empty ok, true, s.reports⟩,
      settledStep_open hr.tasks hr.loading hvis hnc, by simp [Modal.step, hshown], ?_⟩
    cases ok <;> exact ⟨rfl, hr.calls, hr.tasks, hr.loading, hr.dense,
      fun _ => by simp [loadRoot, hlv], fun _ => by simp [hpath, loadRoot, Core.empty],
      fun h => absurd h (by simp)⟩
  · have hvis : d.visible = true := by rw [hr.visible, hshown]
    have htasks := hr.tasks
    refine ⟨d, s, ?_, by simp [Modal.step, hshown], hr⟩
    obtain ⟨v, tl, sp, ld, ts, cs⟩ := d
    simp only at hvis htasks
    subst hvis htasks
    simp [settledStep, step, hnc, setVisible, settleIssued]

/-- A pick inside the path that does not diverge, from the related states. -/
theorem Refines.select {s : Modal} (hr : Refines d s) {c : Core}
    (h : selectNode b s.core tag level ok = some c) (hshown : s.shown = true)
    (hx : pickDiverges d.selectedPath.length d.tagLevels.length tag level ok = false) :
    ∃ d', settledStep b d (.select tag level ok) = some d' ∧
      Refines d' ⟨c, true, if tag.has_children then s.reports
        else s.reports ++ [.onConfirm tag (formatPath c.path)]⟩ := by
  obtain ⟨ht, hin, hpath, hlevels, -⟩ := selectNode_eq_some h
  have hvis : d.visible = true := by rw [hr.visible, hshown]
  refine ⟨_, settledStep_select_dense hr.tasks hr.loading hvis (hr.path hshown) hin
    (hr.levels hshown ▸ ht), ?_⟩
  refine ⟨hvis, ?_, hr.tasks, hr.loading, ⟨_, rfl⟩,
    fun _ => by rw [pickLevels_eq hx, hlevels, hr.levels hshown], fun _ => by simp [hpath],
    fun h => absurd h (by simp)⟩
  cases tag.has_children <;> simp [hr.calls, hpath, toCall]

/-- Confirming a complete path, from the related states. -/
theorem Refines.confirm {s s' : Modal} (hr : Refines d s)
    (h : Modal.step b s .confirm = some s') :
    ∃ d', settledStep b d .confirm = some d' ∧ Refines d' s' := by
  simp only [Modal.step] at h
  split at h
  · rename_i hg
    obtain ⟨t, ht, rfl⟩ := Option.map_eq_some'.mp h
    have hp := hr.path hg.1
    have hvis : d.visible = true := by rw [hr.visible, hg.1]
    have hpos : d.selectedPath.length > 0 := by
      rw [hp, List.length_map]
      exact List.length_pos.mpr fun hnil => by simp [hnil] at ht
    have hlast : lastEntry d.selectedPath = some t := by
      simp [hp, lastEntry, List.getLast?_map, ht]
    have hcan : canConfirm d = true := (canConfirm_dense hp).trans hg.2
    have hd : handleConfirm d =
        { d with calls := d.calls ++ [.onConfirm (some t) (formatPath s.core.path)] } := by
      simp only [handleConfirm, if_pos hpos, hlast]
      rw [hp, joinPath_dense]
      rfl
    refine ⟨handleConfirm d, by simp [settledStep, step, hr.not_crashed, hvis, hcan], ?_⟩
    rw [hd]
    exact ⟨hvis, by simp [hr.calls, toCall], hr.tasks, hr.loading, hr.dense,
      fun _ => hr.levels hg.1, fun _ => hp, fun h => absurd h (by simp)⟩
  · cases h

/-- Cancelling, from the related states: `handleClose()`, then the host hides the modal. -/
theorem Refines.close {s : Modal} (hr : Refines d s) (b : Backend) (hshown : s.shown = true) :
    ∃ d', settledStep b d .close = some d' ∧
      Refines d' ⟨reset s.core, false, s.reports ++ [.onClose]⟩ := by
  have hvis : d.visible = true := by rw [hr.visible, hshown]
  have hnc : Slot.undef ∉ d.selectedPath := hr.not_crashed
  refine ⟨{ handleClose d with visible := false },
    by simp [settledStep, step, hnc, hvis, setVisible, handleClose, Crashed], ?_⟩
  exact ⟨rfl, by simp [handleClose, hr.calls, toCall], hr.tasks, hr.loading, ⟨[], rfl⟩,
    fun h => absurd h (by simp), fun h => absurd h (by simp), fun _ => ⟨rfl, rfl⟩⟩

/-- The host hiding the modal, from the related states: the modal keeps its state, the control
    discards it. -/
theorem Refines.hide {s : Modal} (hr : Refines d s) (b : Backend) :
    ∃ d', step b d (.setVisible false) = some d' ∧ Refines d' ⟨Core.empty, false, s.reports⟩ :=
  ⟨{ d with visible := false }, by simp [step, hr.not_crashed],
    ⟨rfl, hr.calls, hr.tasks, hr.loading, hr.dense, fun h => absurd h (by simp),
      fun h => absurd h (by simp), fun _ => ⟨rfl, rfl⟩⟩⟩

/-! ## Steps -/

/-- **Every step of the modal that is not exceptional is a step of the modal control**, with the
    states still related. -/
theorem Refines.step {s : Modal} (hr : Refines d s) {e : HostEvent}
    (h : hostStep b d e = some d') (hx : e.exceptional d = false) :
    ∃ s', Modal.step b s (absOp e) = some s' ∧ Refines d' s' := by
  rcases e with (⟨tag, level, ok⟩ | _ | _ | ok) | _
  · obtain ⟨d₁, h₁, -⟩ := Option.bind_eq_some.mp h
    obtain ⟨hl, l, hget, ht, -, hvis, -⟩ := step_select h₁
    have hshown : s.shown = true := by rw [← hr.visible, hvis]
    have hin : level ≤ s.core.path.length := by
      simpa [hr.path hshown] using (pickDiverges_eq_false.mp hx).1
    obtain ⟨c, hc⟩ : ∃ c, selectNode b s.core tag level ok = some c :=
      selectNode_enabled b ok (by simp [← hr.levels hshown, hget, ht]) hin
    obtain ⟨d₂, h₂, hr₂⟩ := hr.select hc hshown hx
    obtain rfl : d' = d₂ := Option.some.inj (h.symm.trans h₂)
    exact ⟨_, by simp [absOp, Modal.step, hshown, hc], hr₂⟩
  · have hg : ¬ Crashed d ∧ d.visible = true ∧ canConfirm d = true := by
      simp only [hostStep, settledStep, Selector.step] at h
      split at h
      · assumption
      · cases h
    have hshown : s.shown = true := by rw [← hr.visible, hg.2.1]
    have hc : isComplete s.core = true := (canConfirm_dense (hr.path hshown)).symm.trans hg.2.2
    obtain ⟨t, ht⟩ : ∃ t, s.core.path.getLast? = some t := by
      cases hl : s.core.path.getLast? with
      | none => simp [isComplete, hl] at hc
      | some t => exact ⟨t, rfl⟩
    have hs : Modal.step b s .confirm =
        some ⟨s.core, true, s.reports ++ [.onConfirm t (formatPath s.core.path)]⟩ := by
      simp [Modal.step, hshown, hc, ht]
    obtain ⟨d₁, h₁, hr₁⟩ := hr.confirm hs
    obtain rfl : d' = d₁ := Option.some.inj (h.symm.trans h₁)
    exact ⟨_, hs, hr₁⟩
  · obtain ⟨d₁, h₁, -⟩ := Option.bind_eq_some.mp h
    obtain ⟨-, hvis, -⟩ := step_close h₁
    have hshown : s.shown = true := by rw [← hr.visible, hvis]
    obtain ⟨d₂, h₂, hr₂⟩ := hr.close b hshown
    obtain rfl : d' = d₂ := Option.some.inj (h.symm.trans h₂)
    exact ⟨_, by simp [absOp, Modal.step, hshown], hr₂⟩
  · obtain ⟨d₁, s₁, h₁, hs₁, hr₁⟩ := hr.open b ok hx
    obtain rfl : d' = d₁ := Option.some.inj (h.symm.trans h₁)
    exact ⟨s₁, hs₁, hr₁⟩
  · obtain ⟨d₁, h₁, hr₁⟩ := hr.hide b
    obtain rfl : d' = d₁ := Option.some.inj (h.symm.trans h₁)
    exact ⟨_, rfl, hr₁⟩

/-- **Every step of the modal control that is not exceptional for the modal is a step of the
    modal**, with the states still related. -/
theorem Refines.step_core {s s' : Modal} (hr : Refines d s) {o : ModalOp}
    (h : Modal.step b s o = some s') (hx : (toEvent o).exceptional d = false) :
    ∃ d', hostStep b d (toEvent o) = some d' ∧ Refines d' s' := by
  cases o with
  | «open» ok =>
    obtain ⟨d₁, s₁, h₁, hs₁, hr₁⟩ := hr.open b ok hx
    obtain rfl : s' = s₁ := Option.some.inj (h.symm.trans hs₁)
    exact ⟨d₁, h₁, hr₁⟩
  | selectNode node atDepth ok =>
    simp only [Modal.step] at h
    split at h
    · rename_i hshown
      obtain ⟨c, hc, rfl⟩ := Option.map_eq_some'.mp h
      exact hr.select hc hshown hx
    · cases h
  | confirm => exact hr.confirm h
  | close =>
    simp only [Modal.step] at h
    split at h
    · rename_i hshown
      cases h
      exact hr.close b hshown
    · cases h
  | hide =>
    cases h
    exact hr.hide b

/-- **Each exceptional event parts the two**: when the modal and the modal control both take it
    from related states, they are no longer related. A diverging pick inside the path leaves the
    modal a level that the core drops; an exceptional open leaves it the old path, or the old
    levels, where the control starts empty. -/
theorem Refines.not_refines_exceptional {s s' : Modal} (hr : Refines d s) {e : HostEvent}
    (hx : e.exceptional d = true) (h : hostStep b d e = some d')
    (hs : Modal.step b s (absOp e) = some s') : ¬ Refines d' s' := by
  rcases e with (⟨tag, level, ok⟩ | _ | _ | ok) | _
  · simp only [absOp, Modal.step] at hs
    split at hs
    · rename_i hshown
      obtain ⟨c, hc, rfl⟩ := Option.map_eq_some'.mp hs
      obtain ⟨ht, hin, -, hlevels, -⟩ := selectNode_eq_some hc
      have hvis : d.visible = true := by rw [hr.visible, hshown]
      obtain rfl := Option.some.inj (h.symm.trans (settledStep_select_dense hr.tasks hr.loading
        hvis (hr.path hshown) hin (hr.levels hshown ▸ ht)))
      intro hr'
      have hin' : level ≤ d.selectedPath.length := by simpa [hr.path hshown] using hin
      exact pickLevels_ne hin' hx
        ((hr'.levels rfl).trans (hlevels.trans (by rw [hr.levels hshown])))
    · cases hs
  · simp [HostEvent.exceptional] at hx
  · simp [HostEvent.exceptional] at hx
  · obtain ⟨hvis, hdiff⟩ := exceptional_open_iff.mp hx
    have hshown : s.shown = false := by rw [← hr.visible, hvis]
    simp only [absOp, Modal.step, hshown, if_false, Option.some.injEq, Bool.false_eq_true] at hs
    subst hs
    obtain rfl := Option.some.inj
      (h.symm.trans (settledStep_open hr.tasks hr.loading hvis hr.not_crashed))
    intro hr'
    have hp := hr'.path rfl
    have hl := hr'.levels rfl
    cases ok <;> simp_all [loadRoot, Core.empty]
  · simp [HostEvent.exceptional] at hx

/-! ## Runs -/

/-- Whether a run of the modal makes no exceptional event. -/
def matchesCore (b : Backend) : State → List HostEvent → Bool
  | _, [] => true
  | d, e :: evs => !e.exceptional d &&
    match hostStep b d e with
    | some d' => matchesCore b d' evs
    | none => true

/-- A run of the modal with no exceptional event is a run of the modal control. -/
theorem Refines.run {s : Modal} (hr : Refines d s) {evs : List HostEvent}
    (h : HierarchicalTags.run (hostStep b) d evs = some d') (hm : matchesCore b d evs = true) :
    ∃ s', HierarchicalTags.run (Modal.step b) s (evs.map absOp) = some s' ∧ Refines d' s' := by
  induction evs generalizing d s with
  | nil => exact ⟨s, rfl, (Option.some.inj h) ▸ hr⟩
  | cons e evs ih =>
    obtain ⟨d₁, h₁, h₂⟩ := Option.bind_eq_some.mp ((run_cons _ d e evs).symm.trans h)
    simp only [matchesCore, h₁, Bool.and_eq_true, Bool.not_eq_true'] at hm
    obtain ⟨s₁, hs₁, hr₁⟩ := hr.step h₁ hm.1
    obtain ⟨s', hs', hr'⟩ := ih hr₁ h₂ hm.2
    exact ⟨s', by simp [hs₁, hs'], hr'⟩

/-- A run of the modal control with no exceptional event for the modal is a run of the modal. -/
theorem Refines.run_core {s s' : Modal} (hr : Refines d s) {ops : List ModalOp}
    (h : HierarchicalTags.run (Modal.step b) s ops = some s')
    (hm : matchesCore b d (ops.map toEvent) = true) :
    ∃ d', HierarchicalTags.run (hostStep b) d (ops.map toEvent) = some d' ∧ Refines d' s' := by
  induction ops generalizing d s with
  | nil => exact ⟨d, rfl, (Option.some.inj h) ▸ hr⟩
  | cons o ops ih =>
    obtain ⟨s₁, h₁, h₂⟩ := Option.bind_eq_some.mp ((run_cons _ s o ops).symm.trans h)
    simp only [List.map_cons, matchesCore, Bool.and_eq_true, Bool.not_eq_true'] at hm
    obtain ⟨d₁, hd₁, hr₁⟩ := hr.step_core h₁ hm.1
    simp only [hd₁] at hm
    obtain ⟨d', hd', hr'⟩ := ih hr₁ h₂ hm.2
    exact ⟨d', by simp [hd₁, hd'], hr'⟩

/-- **The modal under its host is the spec's modal control, but for its exceptional events.**
    Every run of the mounted modal with no exceptional event is a run of the modal control, with
    the same visibility and calls to the host and, while shown, the same levels and path; every
    run of the modal control with no exceptional event for the modal is a run of the modal,
    related the same way; and an exceptional event taken by both from related states leaves them
    unrelated. -/
theorem selector_refines_modal :
    (∀ b evs d, run (hostStep b) initial evs = some d → matchesCore b initial evs = true →
      ∃ s, run (Modal.step b) Modal.initial (evs.map absOp) = some s ∧ Refines d s) ∧
    (∀ b ops s, run (Modal.step b) Modal.initial ops = some s →
      matchesCore b initial (ops.map toEvent) = true →
      ∃ d, run (hostStep b) initial (ops.map toEvent) = some d ∧ Refines d s) ∧
    (∀ b d s e d' s', Refines d s → HostEvent.exceptional d e = true →
      hostStep b d e = some d' → Modal.step b s (absOp e) = some s' → ¬ Refines d' s') :=
  ⟨fun _ _ _ h hm => refines_initial.run h hm, fun _ _ _ h hm => refines_initial.run_core h hm,
    fun _ _ _ _ _ _ hr hx h hs => hr.not_refines_exceptional hx h hs⟩

/-- Opened; `B` picked and its children loaded; `b1` picked and its fetch failing; `A` and its
    leaf `a1` picked, which confirms; confirmed again; hidden by the host, as on `onConfirm`. -/
def sessionRun : List HostEvent :=
  [.settled (.open true), .settled (.select tagB 0 true), .settled (.select tagB1 1 false),
    .settled (.select tagA 0 true), .settled (.select tagA1 1 true), .settled .confirm, .hide]

/-- The hidden modal still holds the path `A`, `a1` and its levels. -/
def sessionState : State :=
  ⟨false, [[tagA, tagB], [tagA1]], [.val tagA, .val tagA1], false, [],
    [.onConfirm (some tagA1) "#A#a1", .onConfirm (some tagA1) "#A#a1"]⟩

/-- Shown again: the root fetch lands under the old path. -/
def sessionReopened : State :=
  ⟨true, [[tagA, tagB]], [.val tagA, .val tagA1], false, [],
    [.onConfirm (some tagA1) "#A#a1", .onConfirm (some tagA1) "#A#a1"]⟩

theorem selector_refines_modal_session :
    (∃ s, run (Modal.step catalogue) Modal.initial (sessionRun.map absOp) = some s ∧
      Refines sessionState s) ∧
    ¬ Refines sessionReopened ⟨loadRoot catalogue Core.empty true, true,
      [.onConfirm tagA1 "#A#a1", .onConfirm tagA1 "#A#a1"]⟩ :=
  ⟨selector_refines_modal.1 catalogue sessionRun sessionState (by decide) (by decide),
    selector_refines_modal.2.2 catalogue sessionState
      ⟨Core.empty, false, [.onConfirm tagA1 "#A#a1", .onConfirm tagA1 "#A#a1"]⟩
      (.settled (.open true)) sessionReopened _
      ⟨rfl, rfl, rfl, rfl, ⟨[tagA, tagA1], rfl⟩, fun h => absurd h (by decide),
        fun h => absurd h (by decide), fun _ => ⟨rfl, rfl⟩⟩ (by decide) (by decide) rfl⟩

end HierarchicalTags.Selector
