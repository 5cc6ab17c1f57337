import HierarchicalTags.Contracts
import HierarchicalTags.SpecCore

/-!
# `HierarchicalTags.Dropdown.Refinement` — the dropdown is the spec's inline control

Taken one settled step at a time (`Dropdown.Settled`), the dropdown is the inline control of the
spec's core (`SpecCore.Inline`) up to a few events, named once by `SettledEvent.exceptional`:

* a pick past the end of the path, which the core does not allow;
* a pick that keeps a level below it, because it is a leaf or its fetch fails: the dropdown leaves
  its levels as they are, while the core drops every level below the pick (§8);
* a clear of an empty path, which the dropdown offers no button for.

`Refines` relates the two states: the same levels, the same path, the same error and the same
`onChange` calls. Each settled step of the dropdown that is not exceptional is a step of the core
(`Refines.step`), and each step of the core that is not exceptional for the dropdown is a settled
step of the dropdown (`Refines.step_core`). Each exceptional event that both take parts them
(`Refines.not_refines_exceptional`). The three lift to runs (`dropdown_refines_inline`).

## Contents
- `report_dense`, `settledStep_select_dense`: a settled pick on a dense path, in closed form.
- `absOp`, `toEvent`, `SettledEvent.exceptional`, `Refines`, `refines_mount`.
- One lemma per operation, then `Refines.step`, `Refines.step_core`,
  `Refines.not_refines_exceptional`.
- `matchesCore`, `Refines.run`, `Refines.run_core`, `dropdown_refines_inline`.
-/

namespace HierarchicalTags.Dropdown

open SpecCore

variable {b : Backend} {d d' : State} {tag : HierarchicalTagItem} {level : Nat} {ok : Bool}

/-! ## A settled pick on a dense path -/

/-- The report of a dense path: its encoding and its last tag. -/
theorem report_dense (p : List HierarchicalTagItem) :
    report (p.map .val) = some ⟨formatPath p, p.getLast?⟩ := by
  simp only [report, joinPath_dense, Option.map_some', lastEntry, List.getLast?_map]
  cases p.getLast? <;> rfl

/-- **A settled pick inside a dense path**, from an idle state: the path cut after the tag, the
    children's level on a successful fetch, the error of the fetch, and one report. -/
theorem settledStep_select_dense {p : List HierarchicalTagItem} (hidle : d.tasks = [])
    (hload : d.loading = false) (hpath : d.selectedPath = p.map .val) (hin : level ≤ p.length)
    (ht : tag ∈ d.tagLevels[level]?.getD []) :
    settledStep b d (.select tag level ok) = some { d with
      selectedPath := (p.take level ++ [tag]).map .val,
      tagLevels := if tag.has_children ∧ ok then
        d.tagLevels.take (level + 1) ++ [children b tag] else d.tagLevels,
      error := if tag.has_children then (if ok then "" else loadError) else d.error,
      changes := d.changes ++ [⟨formatPath (p.take level ++ [tag]), some tag⟩] } := by
  have hl : level < d.tagLevels.length := by
    by_contra hge
    rw [List.getElem?_eq_none (by omega)] at ht
    exact absurd ht (List.not_mem_nil _)
  have hnc : ¬ Crashed d := by simp [Crashed, hpath]
  have hmem : tag ∈ d.tagLevels[level] := by rwa [List.getElem?_eq_getElem hl] at ht
  have hsel : selectPath d.selectedPath tag level = (p.take level ++ [tag]).map .val := by
    rw [hpath, selectPath_dense hin]
  have hdense := undef_not_mem_map_val (p.take level ++ [tag])
  simp only [settledStep, step, dif_pos hl, if_pos (And.intro hnc (And.intro hload hmem)),
    Option.some_bind, handleTagSelect, hsel, report_dense, Option.toList_some,
    List.getLast?_append, List.getLast?_singleton, Option.or_some]
  cases hc : tag.has_children
  · simp [settleIssued, hidle]
  · simp only [if_true, settleIssued, loadTags, hidle, List.nil_append, List.cons_ne_nil,
      if_false, step, settle, List.getElem?_cons_zero, Option.map_some', List.eraseIdx_cons_zero,
      loadTagsSettled, Crashed, hdense, if_false, Option.some_bind, report_dense,
      Option.toList_some, LoadTags.answer_child]
    cases ok <;> simp [hload]

/-! ## The refinement relation -/

/-- The dropdown's settled events as operations of the inline control. -/
def absOp : SettledEvent → Op
  | .mountLoad ok => .loadRoot ok
  | .select tag level ok => .selectNode tag level ok
  | .clear => .clear

/-- The inline control's operations as settled events of the dropdown. -/
def toEvent : Op → SettledEvent
  | .loadRoot ok => .mountLoad ok
  | .selectNode node atDepth ok => .select node atDepth ok
  | .clear => .clear

/-- **The events the inline control makes otherwise**, on the dropdown's state before them: a pick
    that `pickDiverges`, and a clear of an empty path. -/
def SettledEvent.exceptional (d : State) : SettledEvent → Bool
  | .select tag level ok => pickDiverges d.selectedPath.length d.tagLevels.length tag level ok
  | .clear => d.selectedPath.isEmpty
  | .mountLoad _ => false

/-- **The refinement relation.** The dropdown `d` is the inline control `s` when
    1. the levels are the core's, and the path is the core's with every entry a value;
    2. the alert shows `loadError` exactly when the core's last fetch failed;
    3. the `onChange` calls are the reports;
    4. the mount's root fetch waits, with the spinner on, exactly until `loadRoot` has run, and
       until then the core is empty. -/
structure Refines (d : State) (s : Inline) : Prop where
  levels : d.tagLevels = s.core.levels
  path : d.selectedPath = s.core.path.map .val
  error : d.error = if s.core.error then loadError else ""
  reports : d.changes.map (fun c => (c.tagPath, c.selectedTag)) = s.reports
  tasks : d.tasks = if s.rooted then [] else [⟨LoadTags.root [], none⟩]
  loading : d.loading = !s.rooted
  unrooted : s.rooted = false → s.core = Core.empty

theorem refines_mount : Refines mount Inline.mount :=
  ⟨rfl, rfl, rfl, rfl, rfl, rfl, fun _ => rfl⟩

/-- **The mount's root fetch, settled**, on a mounted tree while it waits alone. -/
theorem settledStep_mountLoad (htasks : d.tasks = [⟨LoadTags.root [], none⟩]) (hnc : ¬ Crashed d) :
    settledStep b d (.mountLoad ok) = some (if ok then
      { d with tasks := [], tagLevels := [roots b], loading := false }
    else { d with tasks := [], error := loadError, loading := false }) := by
  simp only [settledStep, step, settle, htasks, List.getElem?_cons_zero, Option.map_some',
    List.eraseIdx_cons_zero, loadTagsSettled, Crashed]
  cases ok <;> simp_all [Crashed]

/-- The mount's root fetch, settled from the related states. -/
theorem Refines.mountLoad {s : Inline} (hr : Refines d s) (b : Backend) (ok : Bool)
    (hroot : s.rooted = false) :
    ∃ d', settledStep b d (.mountLoad ok) = some d' ∧
      Refines d' ⟨loadRoot b s.core ok, true, s.reports⟩ := by
  have hcore := hr.unrooted hroot
  have htasks : d.tasks = [⟨LoadTags.root [], none⟩] := by simpa [hroot] using hr.tasks
  have hnc : ¬ Crashed d := by simp [Crashed, hr.path]
  refine ⟨_, settledStep_mountLoad htasks hnc, ?_⟩
  have hl := hr.levels
  have hp := hr.path
  have he := hr.error
  rw [hcore] at hl hp he ⊢
  cases ok <;> exact ⟨by simp [hl, loadRoot, Core.empty], by simp [hp, loadRoot, Core.empty],
    by simp [he, loadRoot, Core.empty], hr.reports, rfl, rfl, fun h => absurd h (by simp)⟩

/-- A settled pick inside the path that does not diverge, from the related states. -/
theorem Refines.select {s : Inline} (hr : Refines d s) {c : Core}
    (h : selectNode b s.core tag level ok = some c) (hroot : s.rooted = true)
    (hx : pickDiverges d.selectedPath.length d.tagLevels.length tag level ok = false) :
    ∃ d', settledStep b d (.select tag level ok) = some d' ∧
      Refines d' ⟨c, true, s.reports ++ [(formatPath c.path, some tag)]⟩ := by
  obtain ⟨ht, hin, hpath, hlevels, herror⟩ := selectNode_eq_some h
  have hidle : d.tasks = [] := by simpa [hroot] using hr.tasks
  have hload : d.loading = false := by simpa [hroot] using hr.loading
  refine ⟨_, settledStep_select_dense hidle hload hr.path hin (hr.levels ▸ ht), ?_⟩
  refine ⟨by rw [pickLevels_eq hx, hlevels, hr.levels], by simp [hpath], ?_,
    by simp [hr.reports, hpath], by simp [hidle], by simp [hload], fun h => absurd h (by simp)⟩
  rw [herror]
  cases tag.has_children <;> cases ok <;> simp [hr.error]

/-- A clear, from the related states. -/
theorem Refines.clear {s : Inline} (hr : Refines d s) (b : Backend) (hne : s.core.path ≠ []) :
    ∃ d', settledStep b d .clear = some d' ∧
      Refines d' ⟨clearKeepRoot s.core, s.rooted, s.reports ++ [("", none)]⟩ := by
  have hnc : ¬ Crashed d := by simp [Crashed, hr.path]
  have hpne : d.selectedPath ≠ [] := by simpa [hr.path] using hne
  refine ⟨handleClear d, by simp [settledStep, step, hnc, hpne], ?_⟩
  refine ⟨by simp [handleClear, clearKeepRoot, hr.levels], rfl, hr.error,
    by simp [handleClear, hr.reports], hr.tasks, hr.loading, fun h => ?_⟩
  rw [hr.unrooted h] at hne
  exact absurd rfl hne

/-! ## Steps -/

/-- **Every settled step of the dropdown that is not exceptional is a step of the inline
    control**, with the states still related. -/
theorem Refines.step {s : Inline} (hr : Refines d s) {e : SettledEvent}
    (h : settledStep b d e = some d') (hx : e.exceptional d = false) :
    ∃ s', Inline.step b s (absOp e) = some s' ∧ Refines d' s' := by
  cases e with
  | mountLoad ok =>
    cases hroot : s.rooted
    · obtain ⟨d₁, h₁, hr₁⟩ := hr.mountLoad b ok hroot
      obtain rfl : d' = d₁ := Option.some.inj (h.symm.trans h₁)
      exact ⟨_, by simp [absOp, Inline.step, hroot], hr₁⟩
    · have htasks : d.tasks = [] := by simpa [hroot] using hr.tasks
      simp [settledStep, Dropdown.step, settle, htasks] at h
  | select tag level ok =>
    have hin : level ≤ s.core.path.length := by
      simpa [hr.path] using (pickDiverges_eq_false.mp hx).1
    obtain ⟨d₁, h₁, -⟩ := Option.bind_eq_some.mp h
    obtain ⟨hl, l, hget, ht, -, hload, -⟩ := step_select h₁
    have hroot : s.rooted = true := by simpa [hr.loading] using hload
    obtain ⟨c, hc⟩ : ∃ c, selectNode b s.core tag level ok = some c :=
      selectNode_enabled b ok (by simp [← hr.levels, hget, ht]) hin
    obtain ⟨d₂, h₂, hr₂⟩ := hr.select hc hroot hx
    obtain rfl : d' = d₂ := Option.some.inj (h.symm.trans h₂)
    exact ⟨_, by simp [absOp, Inline.step, hroot, hc], hr₂⟩
  | clear =>
    have hne : s.core.path ≠ [] := by simpa [SettledEvent.exceptional, hr.path] using hx
    obtain ⟨d₁, h₁, hr₁⟩ := hr.clear b hne
    obtain rfl : d' = d₁ := Option.some.inj (h.symm.trans h₁)
    exact ⟨_, rfl, hr₁⟩

/-- **Every step of the inline control that is not exceptional for the dropdown is a settled step
    of the dropdown**, with the states still related. -/
theorem Refines.step_core {s s' : Inline} (hr : Refines d s) {o : Op}
    (h : Inline.step b s o = some s') (hx : (toEvent o).exceptional d = false) :
    ∃ d', settledStep b d (toEvent o) = some d' ∧ Refines d' s' := by
  cases o with
  | loadRoot ok =>
    cases hroot : s.rooted
    · obtain ⟨d₁, h₁, hr₁⟩ := hr.mountLoad b ok hroot
      simp only [Inline.step, hroot] at h
      exact ⟨d₁, h₁, (Option.some.inj h) ▸ hr₁⟩
    · simp [Inline.step, hroot] at h
  | selectNode node atDepth ok =>
    cases hroot : s.rooted
    · simp [Inline.step, hroot] at h
    · simp only [Inline.step, hroot, if_true] at h
      obtain ⟨c, hc, rfl⟩ := Option.map_eq_some'.mp h
      exact hr.select hc hroot hx
  | clear =>
    have hne : s.core.path ≠ [] := by
      simpa [toEvent, SettledEvent.exceptional, hr.path] using hx
    obtain ⟨d₁, h₁, hr₁⟩ := hr.clear b hne
    simp only [Inline.step] at h
    exact ⟨d₁, h₁, (Option.some.inj h) ▸ hr₁⟩

/-- **Each exceptional event parts the two**: when the dropdown and the inline control both take
    it from related states, they are no longer related. Only a diverging pick inside the path is
    taken by both, and the dropdown then keeps a level that the core drops. -/
theorem Refines.not_refines_exceptional {s s' : Inline} (hr : Refines d s) {e : SettledEvent}
    (hx : e.exceptional d = true) (h : settledStep b d e = some d')
    (hs : Inline.step b s (absOp e) = some s') : ¬ Refines d' s' := by
  cases e with
  | mountLoad ok => simp [SettledEvent.exceptional] at hx
  | clear =>
    simp only [SettledEvent.exceptional, List.isEmpty_iff] at hx
    simp [settledStep, Dropdown.step, hx] at h
  | select tag level ok =>
    cases hroot : s.rooted
    · simp [absOp, Inline.step, hroot] at hs
    simp only [absOp, Inline.step, hroot, if_true] at hs
    obtain ⟨c, hc, rfl⟩ := Option.map_eq_some'.mp hs
    obtain ⟨ht, hin, -, hlevels, -⟩ := selectNode_eq_some hc
    have hidle : d.tasks = [] := by simpa [hroot] using hr.tasks
    have hload : d.loading = false := by simpa [hroot] using hr.loading
    obtain rfl := Option.some.inj
      (h.symm.trans (settledStep_select_dense hidle hload hr.path hin (hr.levels ▸ ht)))
    intro hr'
    have hin' : level ≤ d.selectedPath.length := by simpa [hr.path] using hin
    exact pickLevels_ne hin' hx (hr'.levels.trans (hlevels.trans (by rw [hr.levels])))

/-! ## Runs -/

/-- Whether a run of settled steps makes no exceptional event. -/
def matchesCore (b : Backend) : State → List SettledEvent → Bool
  | _, [] => true
  | d, e :: evs => !e.exceptional d &&
    match settledStep b d e with
    | some d' => matchesCore b d' evs
    | none => true

/-- A run of settled steps with no exceptional event is a run of the inline control. -/
theorem Refines.run {s : Inline} (hr : Refines d s) {evs : List SettledEvent}
    (h : HierarchicalTags.run (settledStep b) d evs = some d') (hm : matchesCore b d evs = true) :
    ∃ s', HierarchicalTags.run (Inline.step b) s (evs.map absOp) = some s' ∧ Refines d' s' := by
  induction evs generalizing d s with
  | nil => exact ⟨s, rfl, (Option.some.inj h) ▸ hr⟩
  | cons e evs ih =>
    obtain ⟨d₁, h₁, h₂⟩ := Option.bind_eq_some.mp ((run_cons _ d e evs).symm.trans h)
    simp only [matchesCore, h₁, Bool.and_eq_true, Bool.not_eq_true'] at hm
    obtain ⟨s₁, hs₁, hr₁⟩ := hr.step h₁ hm.1
    obtain ⟨s', hs', hr'⟩ := ih hr₁ h₂ hm.2
    exact ⟨s', by simp [hs₁, hs'], hr'⟩

/-- A run of the inline control with no exceptional event for the dropdown is a run of settled
    steps. -/
theorem Refines.run_core {s s' : Inline} (hr : Refines d s) {ops : List Op}
    (h : HierarchicalTags.run (Inline.step b) s ops = some s')
    (hm : matchesCore b d (ops.map toEvent) = true) :
    ∃ d', HierarchicalTags.run (settledStep b) d (ops.map toEvent) = some d' ∧ Refines d' s' := by
  induction ops generalizing d s with
  | nil => exact ⟨d, rfl, (Option.some.inj h) ▸ hr⟩
  | cons o ops ih =>
    obtain ⟨s₁, h₁, h₂⟩ := Option.bind_eq_some.mp ((run_cons _ s o ops).symm.trans h)
    simp only [List.map_cons, matchesCore, Bool.and_eq_true, Bool.not_eq_true'] at hm
    obtain ⟨d₁, hd₁, hr₁⟩ := hr.step_core h₁ hm.1
    simp only [hd₁] at hm
    obtain ⟨d', hd', hr'⟩ := ih hr₁ h₂ hm.2
    exact ⟨d', by simp [hd₁, hd'], hr'⟩

/-- **The settled dropdown is the spec's inline control, but for its exceptional events.** Every
    run of settled steps from the mount with no exceptional event is a run of the inline control
    from its mount, with the same levels, path, error and `onChange` calls; every run of the inline
    control with no exceptional event for the dropdown is a run of settled steps, related the same
    way; and an exceptional event taken by both from related states leaves them unrelated. -/
theorem dropdown_refines_inline :
    (∀ b evs d, run (settledStep b) mount evs = some d → matchesCore b mount evs = true →
      ∃ s, run (Inline.step b) Inline.mount (evs.map absOp) = some s ∧ Refines d s) ∧
    (∀ b ops s, run (Inline.step b) Inline.mount ops = some s →
      matchesCore b mount (ops.map toEvent) = true →
      ∃ d, run (settledStep b) mount (ops.map toEvent) = some d ∧ Refines d s) ∧
    (∀ b d s e d' s', Refines d s → SettledEvent.exceptional d e = true →
      settledStep b d e = some d' → Inline.step b s (absOp e) = some s' → ¬ Refines d' s') :=
  ⟨fun _ _ _ h hm => refines_mount.run h hm, fun _ _ _ h hm => refines_mount.run_core h hm,
    fun _ _ _ _ _ _ hr hx h hs => hr.not_refines_exceptional hx h hs⟩

/-- `B`, `b1` and its leaf `x` picked; then `A` and its leaf `a1`, each cutting the levels below
    it; then a clear. -/
def cascadeRun : List SettledEvent :=
  [.mountLoad true, .select tagB 0 true, .select tagB1 1 true, .select tagX 2 true,
    .select tagA 0 true, .select tagA1 1 true, .clear]

def cascadeState : State :=
  ⟨[[tagA, tagB]], [], false, "", [],
    [⟨"#B", some tagB⟩, ⟨"#B#b1", some tagB1⟩, ⟨"#B#b1#x", some tagX⟩, ⟨"#A", some tagA⟩,
      ⟨"#A#a1", some tagA1⟩, ⟨"", none⟩]⟩

/-- `B` and `b1` picked, with `x` shown below. -/
def deepState : State :=
  ⟨[[tagA, tagB], [tagB1], [tagX]], [.val tagB, .val tagB1], false, "", [],
    [⟨"#B", some tagB⟩, ⟨"#B#b1", some tagB1⟩]⟩

/-- Then `A` picked and its fetch failing: the dropdown keeps the levels below `A`. -/
def failedPickState : State :=
  ⟨[[tagA, tagB], [tagB1], [tagX]], [.val tagA], false, loadError, [],
    [⟨"#B", some tagB⟩, ⟨"#B#b1", some tagB1⟩, ⟨"#A", some tagA⟩]⟩

theorem dropdown_refines_inline_cascade :
    (∃ s, run (Inline.step catalogue) Inline.mount (cascadeRun.map absOp) = some s ∧
      Refines cascadeState s) ∧
    ¬ Refines failedPickState
      ⟨⟨[[tagA, tagB]], [tagA], true⟩, true, [("#B", some tagB), ("#B#b1", some tagB1),
        ("#A", some tagA)]⟩ :=
  ⟨dropdown_refines_inline.1 catalogue cascadeRun cascadeState (by decide) (by decide),
    dropdown_refines_inline.2.2 catalogue deepState
      ⟨⟨[[tagA, tagB], [tagB1], [tagX]], [tagB, tagB1], false⟩, true,
        [("#B", some tagB), ("#B#b1", some tagB1)]⟩ (.select tagA 0 false) failedPickState _
      ⟨rfl, rfl, rfl, rfl, rfl, rfl, fun h => absurd h (by decide)⟩ (by decide) (by decide)
      (by decide)⟩

end HierarchicalTags.Dropdown
