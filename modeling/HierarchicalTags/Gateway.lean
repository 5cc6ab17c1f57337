import HierarchicalTags.JsArray

/-!
# `HierarchicalTags.Gateway` — the tag fetch gateway and the hierarchy it serves

`getHierarchicalTags({ parent_id })` sends `GET /answer/api/v1/hierarchical-tags`, with the
`parent_id` query parameter only when the id is non-empty; the server answers with the child list
of that tag, or the roots. The server is a fixed map here (`Backend`); a failed request is not an
answer at all, and the pickers' models let any fetch fail.

## Contents
- **Gateway.** `parentQuery`, `Backend`, `getHierarchicalTags`, and the derived `roots`/`children`.
- **Chains.** `ChainFrom`, `IsChain` and `AtDepth`: the real root-to-node chains of the hierarchy;
  `chainsFrom` lists the short ones (`mem_chainsFrom`).
- **Cascades.** `Cascade`/`LevelChain`: a list of levels in which the first is the roots and each
  further level is the child list of a tag of the level above. Cutting keeps a cascade
  (`cascade_take`), so does replacing everything below a level by the children of one of its tags
  (`cascade_take_append`), and every tag of level `i` of a cascade lies at depth `i`
  (`levelChain_atDepth`).
-/

namespace HierarchicalTags

/-- The query `getHierarchicalTags` sends: `parent_id` is appended only when it is truthy, i.e. a
    non-empty string. -/
def parentQuery (parent_id : String) : Option String :=
  if parent_id = "" then none else some parent_id

/-- The server side of the gateway: the `tags` it answers to `GET /answer/api/v1/hierarchical-tags`,
    by the `parent_id` query parameter (`none` when absent). -/
structure Backend where
  hierarchicalTags : Option String → List HierarchicalTagItem

/-- A successful `getHierarchicalTags({ parent_id })`: the `tags` of the response. -/
def getHierarchicalTags (b : Backend) (parent_id : String) : List HierarchicalTagItem :=
  b.hierarchicalTags (parentQuery parent_id)

variable (b : Backend)

/-- The root level, as fetched by `loadTags('')`. -/
def roots : List HierarchicalTagItem := getHierarchicalTags b ""

/-- The children of a tag, as fetched by `loadTags(tag.id, level + 1)`. -/
def children (t : HierarchicalTagItem) : List HierarchicalTagItem := getHierarchicalTags b t.id

/-! ## Chains -/

/-- `c` descends from the options `level`: its first tag is one of them and every further tag is a
    child of the one before. -/
def ChainFrom : List HierarchicalTagItem → List HierarchicalTagItem → Prop
  | _, [] => True
  | level, t :: c => t ∈ level ∧ ChainFrom (children b t) c

/-- A real chain of the hierarchy: a root, a child of it, a child of that, and so on. -/
def IsChain (c : List HierarchicalTagItem) : Prop := c ≠ [] ∧ ChainFrom b (roots b) c

/-- `t` is a tag at depth `d`: some real chain of `d + 1` tags ends in it. -/
def AtDepth (d : Nat) (t : HierarchicalTagItem) : Prop :=
  ∃ c, IsChain b c ∧ c.length = d + 1 ∧ c.getLast? = some t

@[simp] theorem chainFrom_nil (level : List HierarchicalTagItem) : ChainFrom b level [] := trivial

@[simp] theorem chainFrom_cons (level : List HierarchicalTagItem) (t : HierarchicalTagItem)
    (c : List HierarchicalTagItem) :
    ChainFrom b level (t :: c) ↔ t ∈ level ∧ ChainFrom b (children b t) c := Iff.rfl

/-- The chains of at most `n` tags from `level`: `ChainFrom` decided on a finite hierarchy. -/
def chainsFrom : Nat → List HierarchicalTagItem → List (List HierarchicalTagItem)
  | 0, _ => [[]]
  | n + 1, level => [] :: level.flatMap fun t => (chainsFrom n (children b t)).map (t :: ·)

/-- **`chainsFrom` lists exactly the short chains.** -/
theorem mem_chainsFrom {n : Nat} {level c : List HierarchicalTagItem} :
    c ∈ chainsFrom b n level ↔ ChainFrom b level c ∧ c.length ≤ n := by
  induction n generalizing level c with
  | zero => cases c <;> simp [chainsFrom]
  | succ n ih =>
    cases c with
    | nil => simp [chainsFrom]
    | cons t c =>
      simp only [chainsFrom, List.mem_cons, reduceCtorEq, false_or, List.mem_flatMap,
        List.mem_map, List.cons.injEq, ih, chainFrom_cons, List.length_cons]
      constructor
      · rintro ⟨_, ht, _, ⟨hc, hlen⟩, rfl, rfl⟩
        exact ⟨⟨ht, hc⟩, by omega⟩
      · rintro ⟨⟨ht, hc⟩, hlen⟩
        exact ⟨t, ht, c, ⟨hc, by omega⟩, rfl, rfl⟩

/-! ## Cascades -/

/-- `ls` as cascading choices from the options `opts` for its first level: each level is one of
    the options, and the options for the next level are the child lists of its tags. -/
def Cascade : List (List HierarchicalTagItem) → List (List HierarchicalTagItem) → Prop
  | _, [] => True
  | opts, l :: ls => l ∈ opts ∧ Cascade (l.map (children b)) ls

/-- The levels a picker may show: the roots, then the children of a tag of the level above, and
    so on. -/
def LevelChain (tagLevels : List (List HierarchicalTagItem)) : Prop := Cascade b [roots b] tagLevels

instance decCascade : ∀ opts ls, Decidable (Cascade b opts ls)
  | _, [] => isTrue trivial
  | opts, l :: ls =>
    have := decCascade (l.map (children b)) ls
    inferInstanceAs (Decidable (l ∈ opts ∧ _))

instance (tagLevels : List (List HierarchicalTagItem)) : Decidable (LevelChain b tagLevels) :=
  decCascade b _ _

@[simp] theorem cascade_nil (opts : List (List HierarchicalTagItem)) : Cascade b opts [] := trivial

@[simp] theorem cascade_cons (opts : List (List HierarchicalTagItem))
    (l : List HierarchicalTagItem) (ls : List (List HierarchicalTagItem)) :
    Cascade b opts (l :: ls) ↔ l ∈ opts ∧ Cascade b (l.map (children b)) ls := Iff.rfl

variable {b}

/-- Cutting a cascade keeps it one. -/
theorem cascade_take {opts : List (List HierarchicalTagItem)} {ls : List (List HierarchicalTagItem)}
    (h : Cascade b opts ls) (n : Nat) : Cascade b opts (ls.take n) := by
  induction ls generalizing opts n with
  | nil => simp
  | cons l ls ih =>
    cases n with
    | zero => simp
    | succ n => exact ⟨h.1, ih h.2 n⟩

/-- **Descending keeps a cascade**: keep the levels down to `n` and add the children of a tag of
    level `n`. -/
theorem cascade_take_append {opts : List (List HierarchicalTagItem)}
    {ls : List (List HierarchicalTagItem)} (h : Cascade b opts ls) {n : Nat}
    {l : List HierarchicalTagItem} (hl : ls[n]? = some l) {x : HierarchicalTagItem} (hx : x ∈ l) :
    Cascade b opts (ls.take (n + 1) ++ [children b x]) := by
  induction ls generalizing opts n with
  | nil => simp at hl
  | cons l₀ ls ih =>
    cases n with
    | zero =>
      obtain rfl : l₀ = l := by simpa using hl
      simpa using ⟨h.1, x, hx, rfl⟩
    | succ n => exact ⟨h.1, ih h.2 (by simpa using hl)⟩

/-- Every tag of level `i` of a cascade ends a chain of `i + 1` tags from one of the options. -/
theorem cascade_chain {opts : List (List HierarchicalTagItem)}
    {ls : List (List HierarchicalTagItem)} (h : Cascade b opts ls) {i : Nat}
    {l : List HierarchicalTagItem} (hl : ls[i]? = some l) {t : HierarchicalTagItem} (ht : t ∈ l) :
    ∃ l₀ ∈ opts, ∃ c, ChainFrom b l₀ c ∧ c.length = i + 1 ∧ c.getLast? = some t := by
  induction ls generalizing opts i with
  | nil => simp at hl
  | cons l₁ ls ih =>
    cases i with
    | zero =>
      obtain rfl : l₁ = l := by simpa using hl
      exact ⟨l₁, h.1, [t], by simp [ht], rfl, rfl⟩
    | succ i =>
      obtain ⟨l₀, hl₀, c, hc, hlen, hlast⟩ := ih h.2 (by simpa using hl)
      obtain ⟨x, hx, rfl⟩ := List.mem_map.mp hl₀
      exact ⟨l₁, h.1, x :: c, ⟨hx, hc⟩, by simp [hlen], by simp [List.getLast?_cons, hlast]⟩

/-- **Every tag a picker shows at level `i` lies at depth `i`.** -/
theorem levelChain_atDepth {ls : List (List HierarchicalTagItem)} (h : LevelChain b ls) {i : Nat}
    {l : List HierarchicalTagItem} (hl : ls[i]? = some l) {t : HierarchicalTagItem} (ht : t ∈ l) :
    AtDepth b i t := by
  obtain ⟨l₀, hl₀, c, hc, hlen, hlast⟩ := cascade_chain h hl ht
  obtain rfl : l₀ = roots b := by simpa using hl₀
  exact ⟨c, ⟨by rintro rfl; simp at hlen, hc⟩, hlen, hlast⟩

/-- The root level alone is a cascade. -/
theorem levelChain_roots : LevelChain b [roots b] := by simp [LevelChain]

end HierarchicalTags
