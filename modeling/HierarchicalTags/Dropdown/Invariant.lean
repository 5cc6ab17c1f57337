import HierarchicalTags.Dropdown.Model

/-!
# `HierarchicalTags.Dropdown.Invariant` — what every run of the dropdown keeps

The dropdown disables its menus while `loading`, and `loading` stays `true` from the start of a
fetch to its end, so at most one fetch is ever waiting. While it waits, only a clear can change the
state, and a clear empties the path. `Inv` records this together with what it buys: the levels
form a cascade, the path is drawn from them, every `onChange` is sound, and once nothing waits the
last `onChange` describes a non-empty path.

## Contents
- `ChangeOk`, `TaskOk`, `Inv`.
- One preservation lemma per operation (`Inv.handleTagSelect`, `Inv.handleClear`, `Inv.settle`),
  then `Inv.step` and `Reachable.inv`.
- `FetchOk`: the spinner and the alert; `one_fetch_in_flight`.
- `ClearReported`: under an empty path the last `onChange` is `('', null)`, on every run that
  never clears while a pick's fetch waits (`clearsDuringPick`).
-/

namespace HierarchicalTags.Dropdown

variable {b : Backend} {s s' : State}

/-- A call `onChange(tagPath, selectedTag)` says nothing false: it is the `('', null)` of a clear,
    or a tag and the encoding of a path of tags at their depths that ends in it. -/
def ChangeOk (b : Backend) (c : Change) : Prop :=
  (c.tagPath = "" ∧ c.selectedTag = none) ∨ ∃ t, c.selectedTag = some t ∧ Sound b c.tagPath t

/-- What a waiting call guarantees: what it writes is a cascade, the path it will report is drawn
    from the hierarchy, and the live state is either the one it was issued from or a cleared one. -/
structure TaskOk (b : Backend) (s : State) (t : Task) : Prop where
  answer : LevelChain b (t.load.answer b)
  path : ∀ p, t.newSelectedPath = some p → DepthPath b p ∧ ∃ tag, lastEntry p = some tag
  live : s.selectedPath = [] ∨
    (s.tagLevels = t.load.tagLevels ∧ t.newSelectedPath = some s.selectedPath ∧
      s.selectedPath.length = t.load.level)

/-- **The dropdown's invariant.** -/
structure Inv (b : Backend) (s : State) : Prop where
  levels : LevelChain b s.tagLevels
  path_le : s.selectedPath.length ≤ s.tagLevels.length
  inLevels : InLevels s.selectedPath s.tagLevels
  tasks_le : s.tasks.length ≤ 1
  loading : s.tasks ≠ [] → s.loading = true
  tasks : ∀ t ∈ s.tasks, TaskOk b s t
  changes : ∀ c ∈ s.changes, ChangeOk b c
  lastChange : s.tasks = [] → ¬ Crashed s → s.selectedPath ≠ [] →
    s.changes.getLast? = report s.selectedPath

/-! ## Reports -/

/-- A report throws exactly when the path holds `undefined`. -/
theorem report_eq_none {p : List (Slot HierarchicalTagItem)} :
    report p = none ↔ Slot.undef ∈ p := by
  rw [report, joinPath_eq]
  split <;> simp_all

/-- After a report of a path without `undefined`, the last call is that report. -/
theorem getLast?_append_report (cs : List Change) {p : List (Slot HierarchicalTagItem)}
    (h : Slot.undef ∉ p) : (cs ++ (report p).toList).getLast? = report p := by
  cases hr : report p with
  | none => exact absurd (report_eq_none.mp hr) h
  | some c => simp

/-- The report of a path of tags at their depths, ending in a tag, is sound. -/
theorem changeOk_of_report {p : List (Slot HierarchicalTagItem)} (hd : DepthPath b p)
    {tag : HierarchicalTagItem} (hl : lastEntry p = some tag) {c : Change}
    (hc : c ∈ (report p).toList) : ChangeOk b c := by
  obtain ⟨str, hj, rfl⟩ := Option.map_eq_some'.mp (Option.mem_toList.mp hc)
  exact .inr ⟨tag, hl, p, hd, hl, hj⟩

/-- The report a waiting call makes when it resumes is sound. -/
theorem TaskOk.changeOk {t : Task} (h : TaskOk b s t) {c : Change}
    (hc : c ∈ (t.newSelectedPath.bind report).toList) : ChangeOk b c := by
  cases hp : t.newSelectedPath with
  | none => simp [hp] at hc
  | some p =>
    obtain ⟨hd, tag, hl⟩ := h.path p hp
    exact changeOk_of_report hd hl (by simpa [hp] using hc)

/-- A waiting call stays well placed when the path is emptied. -/
theorem TaskOk.of_path_nil {t : Task} (h : TaskOk b s t) (h' : s'.selectedPath = []) :
    TaskOk b s' t :=
  ⟨h.answer, h.path, .inl h'⟩

/-! ## One lemma per operation -/

theorem inv_mount (b : Backend) : Inv b mount := by
  refine ⟨trivial, le_rfl, inLevels_nil _, by simp [mount, loadTags], fun _ => rfl, ?_,
    by simp [mount, loadTags], by simp [mount, loadTags]⟩
  simp only [mount, loadTags, List.nil_append, List.mem_singleton, forall_eq]
  exact ⟨LoadTags.levelChain_answer_root _, by simp, .inl rfl⟩

/-- **A pick keeps the invariant.** With nothing loading no call waits; a pick of a tag with
    children leaves exactly one waiting, issued from the live state. -/
theorem Inv.handleTagSelect (hi : Inv b s) {tag : HierarchicalTagItem} {level : Nat}
    {l : List HierarchicalTagItem} (hlt : level < s.tagLevels.length)
    (hl : s.tagLevels[level]? = some l) (ht : tag ∈ l) (hload : s.loading = false) :
    Inv b (handleTagSelect s tag level hlt) := by
  have htasks : s.tasks = [] := by
    by_contra hne; simp [hi.loading hne] at hload
  have hin := inLevels_selectPath hi.inLevels hl ht
  have hdp := hin.depthPath hi.levels
  have hlen : (selectPath s.selectedPath tag level).length ≤ s.tagLevels.length := by simpa
  unfold Dropdown.handleTagSelect
  split
  · refine ⟨hi.levels, hlen, hin, by simp [loadTags, htasks], fun _ => rfl, ?_, hi.changes,
      by simp [loadTags]⟩
    simp only [loadTags, htasks, List.nil_append, List.mem_singleton, forall_eq]
    exact ⟨LoadTags.levelChain_answer_child hi.levels hl ht hlt,
      fun p hp => Option.some.inj hp ▸ ⟨hdp, tag, lastEntry_selectPath⟩,
      .inr ⟨rfl, rfl, by simp [LoadTags.child]⟩⟩
  · refine ⟨hi.levels, hlen, hin, by simp [htasks], by simp [htasks], by simp [htasks], ?_, ?_⟩
    · simp only [List.mem_append]
      rintro c (hc | hc)
      · exact hi.changes c hc
      · exact changeOk_of_report hdp lastEntry_selectPath hc
    · intro _ hc _
      exact getLast?_append_report _ hc

/-- **A clear keeps the invariant**: it cuts the levels to the root and empties the path. -/
theorem Inv.handleClear (hi : Inv b s) : Inv b (handleClear s) := by
  refine ⟨cascade_take hi.levels 1, by simp [Dropdown.handleClear], inLevels_nil _, hi.tasks_le,
    hi.loading, fun t ht => (hi.tasks t ht).of_path_nil rfl, ?_, by simp [Dropdown.handleClear]⟩
  simp only [Dropdown.handleClear, List.mem_append, List.mem_singleton]
  rintro c (hc | rfl)
  · exact hi.changes c hc
  · exact .inl ⟨rfl, rfl⟩

/-- A completion resumes the only waiting call. -/
theorem Inv.settle_only (hi : Inv b s) {i : Nat} {t : Task} (ht : s.tasks[i]? = some t) :
    i = 0 ∧ s.tasks = [t] := by
  match hs : s.tasks, hi.tasks_le with
  | [t'], _ =>
    rw [hs] at ht
    cases i <;> simp_all
  | [], _ => simp [hs] at ht

/-- **A completion keeps the invariant.** The call it resumes is the only one waiting; if the path
    is not empty it is the call's own path, so the levels it writes still hold the path, and its
    report describes the path. -/
theorem Inv.settle (hi : Inv b s) {i : Nat} {ok : Bool} (h : settle b s i ok = some s') :
    Inv b s' := by
  obtain ⟨t, ht, hpath, htasks, hchanges, hlevels, -⟩ := settle_spec h
  obtain ⟨rfl, hone⟩ := hi.settle_only ht
  have hto := hi.tasks t (by simp [hone])
  have hempty : s'.tasks = [] := by rw [htasks, hone]; rfl
  -- the path and the levels written by the completion
  have hshape : s'.selectedPath.length ≤ s'.tagLevels.length ∧
      InLevels s'.selectedPath s'.tagLevels := by
    rw [hpath, hlevels]
    split_ifs
    · rcases hto.live with hnil | ⟨hlv, -, hlen⟩
      · simp [hnil, inLevels_nil]
      · have hle := t.load.level_le
        rw [← hlv] at hle
        rw [LoadTags.answer, LoadTags.newTagLevels_eq, ← hlv]
        exact ⟨by simp [hlen]; omega, inLevels_take_append hi.inLevels hlen.le _⟩
    · exact ⟨hi.path_le, hi.inLevels⟩
  refine ⟨?_, hshape.1, hshape.2, by simp [hempty], by simp [hempty], by simp [hempty], ?_, ?_⟩
  · rw [hlevels]; split_ifs
    · exact hto.answer
    · exact hi.levels
  · rw [hchanges]
    simp only [List.mem_append]
    rintro c (hc | hc)
    · exact hi.changes c hc
    · exact hto.changeOk hc
  · intro _ hnc hne
    rw [hpath] at hne ⊢
    rcases hto.live with hnil | ⟨-, hp, -⟩
    · exact absurd hnil hne
    · rw [hchanges, hp, Option.some_bind]
      exact getLast?_append_report _ (by simpa [Crashed, hpath] using hnc)

/-- **One event keeps the invariant.** -/
theorem Inv.step (hi : Inv b s) {e : Event} (h : step b s e = some s') : Inv b s' := by
  rcases step_cases h with ⟨tag, level, l, hlt, hl, ht, -, hload, rfl⟩ | ⟨-, -, rfl⟩ | ⟨i, ok, h⟩
  · exact hi.handleTagSelect hlt hl ht hload
  · exact hi.handleClear
  · exact hi.settle h

/-- **Every reachable state keeps the invariant.** -/
theorem Reachable.inv (h : Reachable b s) : Inv b s := by
  induction h with
  | init => exact inv_mount b
  | next _ _ hstep ih => exact ih.step hstep

/-! ## The fetch indicators -/

/-- The spinner and the alert: no error is shown while the fetch waits, the only error ever
    shown is `loadError`, and the spinner of a mounted dropdown is off once nothing waits. -/
structure FetchOk (s : State) : Prop where
  idle : s.tasks ≠ [] → s.error = ""
  error : s.error = "" ∨ s.error = loadError
  spinner : s.tasks = [] → ¬ Crashed s → s.loading = false

/-- One event keeps the indicators: a pick starts its fetch with `setError('')` and the spinner
    on, and a completion leaves nothing waiting and turns the spinner off on a mounted tree. -/
theorem FetchOk.step (hi : Inv b s) (hf : FetchOk s) {e : Event} (h : step b s e = some s') :
    FetchOk s' := by
  rcases step_cases h with ⟨tag, level, -, hlt, -, -, -, hload, rfl⟩ | ⟨hc, -, rfl⟩ | ⟨i, ok, h⟩
  · unfold handleTagSelect
    split
    · exact ⟨fun _ => rfl, .inl rfl, fun hnil => by simp [loadTags] at hnil⟩
    · exact ⟨hf.idle, hf.error, fun _ _ => hload⟩
  · exact ⟨hf.idle, hf.error, fun hnil _ => hf.spinner hnil hc⟩
  · obtain ⟨t, ht, hpath, htasks, -, -, hloading⟩ := settle_spec h
    obtain ⟨rfl, hone⟩ := hi.settle_only ht
    refine ⟨fun hne => absurd (by rw [htasks, hone]; rfl) hne, ?_, fun _ hnc => ?_⟩
    · rw [settle_error h]
      split_ifs
      · exact .inr rfl
      · exact hf.error
    · rw [hloading, if_neg fun hcs => hnc (by rwa [Crashed, hpath])]

theorem Reachable.fetchOk (h : Reachable b s) : FetchOk s := by
  induction h with
  | init => exact ⟨fun _ => rfl, .inl rfl, fun hnil => by simp [mount, loadTags] at hnil⟩
  | next _ hr hstep ih => exact ih.step (Reachable.inv hr) hstep

/-- **At most one fetch is in flight**, and while it is the dropdown shows the spinner and no
    error; the only error it ever shows is `loadError`. -/
theorem one_fetch_in_flight (b : Backend) {s : State} (h : Reachable b s) :
    s.tasks.length ≤ 1 ∧ (s.tasks ≠ [] → s.loading = true ∧ s.error = "") ∧
      (s.error = "" ∨ s.error = loadError) :=
  ⟨h.inv.tasks_le, fun ht => ⟨h.inv.loading ht, h.fetchOk.idle ht⟩, h.fetchOk.error⟩

theorem one_fetch_in_flight_mount :
    mount.tasks.length ≤ 1 ∧ (mount.tasks ≠ [] → mount.loading = true ∧ mount.error = "") ∧
      (mount.error = "" ∨ mount.error = loadError) :=
  one_fetch_in_flight ⟨fun _ => []⟩ .init

/-! ## The value after a clear -/

/-- Whether a run clears the path while a pick's fetch is pending, the one way a pick can report
    after the clear that emptied the path. -/
def clearsDuringPick (b : Backend) : State → List Event → Bool
  | _, [] => false
  | s, e :: evs => (e == .clear && s.tasks.any (·.newSelectedPath.isSome)) ||
      match step b s e with
      | some s' => clearsDuringPick b s' evs
      | none => false

/-- While the path is empty no pick waits to report, and the last `onChange`, if any, is the
    `('', null)` of a clear. -/
def ClearReported (s : State) : Prop :=
  s.selectedPath = [] → (∀ t ∈ s.tasks, t.newSelectedPath = none) ∧
    ∀ c ∈ s.changes.getLast?, c = ⟨"", none⟩

theorem clearReported_mount : ClearReported mount :=
  fun _ => ⟨by simp [mount, loadTags], by simp [mount, loadTags]⟩

/-- One event keeps `ClearReported` unless it is a clear while a pick waits: a pick leaves a
    non-empty path, a clear with no pick waiting reports `('', null)` last, and under an empty path
    a completion is the mount's, which reports nothing. -/
theorem ClearReported.step (hq : ClearReported s) {e : Event} (h : Dropdown.step b s e = some s')
    (hc : (e == .clear && s.tasks.any (·.newSelectedPath.isSome)) = false) : ClearReported s' := by
  cases e with
  | select tag level =>
    obtain ⟨hl, -, -, -, -, -, rfl⟩ := step_select h
    intro hp
    simpa using congrArg List.length hp
  | clear =>
    simp only [Dropdown.step, Option.ite_none_right_eq_some, Option.some.injEq] at h
    obtain ⟨-, rfl⟩ := h
    have hnone : ∀ t ∈ s.tasks, t.newSelectedPath = none := by simpa using hc
    exact fun _ => ⟨hnone, by simp [handleClear]⟩
  | settle i ok =>
    obtain ⟨t, ht, hpath, htasks, hchanges, -, -⟩ := settle_spec h
    intro hp
    obtain ⟨hnone, hlast⟩ := hq (hpath ▸ hp)
    rw [htasks, hchanges, hnone t (List.getElem?_mem ht)]
    exact ⟨fun t' ht' => hnone t' (List.mem_of_mem_eraseIdx ht'), by simpa using hlast⟩

/-- A run that never clears while a pick waits keeps `ClearReported`. -/
theorem ClearReported.run (hq : ClearReported s) {evs : List Event}
    (h : HierarchicalTags.run (Dropdown.step b) s evs = some s')
    (hc : clearsDuringPick b s evs = false) :
    ClearReported s' := by
  induction evs generalizing s with
  | nil => exact Option.some.inj h ▸ hq
  | cons e evs ih =>
    obtain ⟨s₁, h₁, h₂⟩ := Option.bind_eq_some.mp ((run_cons _ s _ _).symm.trans h)
    simp only [clearsDuringPick, h₁, Bool.or_eq_false_iff] at hc
    exact ih (hq.step h₁ hc.1) h₂ hc.2

end HierarchicalTags.Dropdown
