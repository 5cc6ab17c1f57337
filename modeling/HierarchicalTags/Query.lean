import HierarchicalTags.Gateway
import Mathlib.Data.List.DropRight

/-!
# `HierarchicalTags.Query` — the query strings the tag service sends

The two getters of `services/client/hierarchical_tag.ts` put their parameter in the query of a
`GET` URL in two different ways. `getHierarchicalTags` appends `parent_id` to a `URLSearchParams`
and uses its `toString()`, the `application/x-www-form-urlencoded` serializer;
`getHierarchicalTagPath` writes `?tag_id=${params.tag_id}` with no encoding at all. The server
reads the query with the format's parser. Everything here is on bytes, the UTF-8 encoding of the
strings, as the format is.

Between the two, the browser's URL parser reads the URL the code passes: it trims leading and
trailing C0 controls and spaces, removes every tab and newline, takes the query from the first `?`
up to any `#`, and percent-encodes the query's bytes of the special-query set (`queryOf`). Its
encoding is transparent to the form parser (`percentDecode_queryEncode`); its trimming and its
removals are not.

The serializer is lossless: the parser gives back every list of pairs it serializes
(`urlencodedParse_serialize`), so the server reads `parent_id` exactly when the code appends it,
with the id's bytes unchanged (`getHierarchicalTags_query`). That justifies the `Backend` of
`Gateway`, which answers `parentQuery parent_id`. The raw interpolation is lossless exactly for the
ids with no `&`, `#` or `+`, no `%` followed by two hex digits, no tab or newline, and no C0
control or space at the end (`getHierarchicalTagPath_tag_id`).

## Contents
- **Bytes.** `utf8`, `isUnreserved`, `hexUpper`, `isHexDigit`, `hexValue`, `isC0ControlOrSpace`,
  `isTabOrNewline`, `inSpecialQuerySet`.
- **Serializer.** `percentEncodeByte`, `percentEncode`, `urlencodedSerialize`, `URLSearchParams`.
- **Form parser.** `plusByte`, `plusToSpace`, `startsWithHexPair`, `percentDecode`, `parseTuple`,
  `urlencodedParse`, `get`.
- **URL parser.** `urlClean`, `queryPart`, `queryEncodeByte`, `queryOf`.
- **The service's URLs.** `getHierarchicalTagsUrl`, `getHierarchicalTagPathUrl`.
- **Round trip.** `percentDecode_percentEncode`, `urlencodedParse_serialize`, `queryOf_plain`,
  `getHierarchicalTags_query`.
- **Raw interpolation.** `hasEscape`, `percentDecode_eq_self_iff`, `percentDecode_queryEncode`,
  `get_tag_id`, `getHierarchicalTagPath_tag_id`.
-/

namespace HierarchicalTags.Query

/-- A byte sequence. -/
abbrev Bytes := List UInt8

/-- The UTF-8 encoding of a string, as the URL and the serializer send it. -/
def utf8 (s : String) : Bytes := s.data.flatMap String.utf8EncodeChar

@[simp] theorem utf8_append (s t : String) : utf8 (s ++ t) = utf8 s ++ utf8 t := by
  simp [utf8]

/-! ## Bytes -/

/-- The bytes the serializer leaves as they are: ASCII alphanumerics, `*`, `-`, `.` and `_`
    (outside the `application/x-www-form-urlencoded` percent-encode set). -/
def isUnreserved (c : UInt8) : Bool :=
  (0x30 ≤ c && c ≤ 0x39) || (0x41 ≤ c && c ≤ 0x5A) || (0x61 ≤ c && c ≤ 0x7A) ||
    c == 0x2A || c == 0x2D || c == 0x2E || c == 0x5F

/-- The upper-case hex digit of a value below sixteen. -/
def hexUpper (n : Nat) : UInt8 := UInt8.ofNat (if n < 10 then 0x30 + n else 0x37 + n)

/-- An ASCII hex digit, of either case. -/
def isHexDigit (c : UInt8) : Bool :=
  (0x30 ≤ c && c ≤ 0x39) || (0x41 ≤ c && c ≤ 0x46) || (0x61 ≤ c && c ≤ 0x66)

/-- The value of a hex digit. -/
def hexValue (c : UInt8) : Nat :=
  if c ≤ 0x39 then c.toNat - 0x30 else if c ≤ 0x46 then c.toNat - 0x37 else c.toNat - 0x57

/-- Each of the sixteen digits is an unreserved hex digit and reads back as its value. -/
theorem hexUpper_spec : ∀ n < 16, isUnreserved (hexUpper n) = true ∧
    isHexDigit (hexUpper n) = true ∧ hexValue (hexUpper n) = n := by
  decide

/-- A byte is sixteen times its high digit plus its low digit. -/
theorem ofNat_hexValue (c : UInt8) :
    UInt8.ofNat (16 * hexValue (hexUpper (c.toNat / 16)) + hexValue (hexUpper (c.toNat % 16))) =
      c := by
  have hc := c.toNat_lt
  rw [(hexUpper_spec _ (by omega)).2.2, (hexUpper_spec _ (Nat.mod_lt _ (by omega))).2.2,
    Nat.div_add_mod]
  exact UInt8.ext (Nat.mod_eq_of_lt hc)

/-- A C0 control or a space, which the URL parser trims from both ends of its input. -/
def isC0ControlOrSpace (c : UInt8) : Bool := c ≤ 0x20

/-- An ASCII tab or newline, which the URL parser removes from its input wherever it stands. -/
def isTabOrNewline (c : UInt8) : Bool := c == 0x09 || c == 0x0A || c == 0x0D

/-- The special-query percent-encode set: the bytes the URL parser percent-encodes in the query of
    an `http` or `https` URL, namely C0 controls, space, `"`, `#`, `'`, `<`, `>` and every byte
    above `~`. -/
def inSpecialQuerySet (c : UInt8) : Bool :=
  c ≤ 0x20 || c == 0x22 || c == 0x23 || c == 0x27 || c == 0x3C || c == 0x3E || 0x7E < c

theorem isUnreserved_of_isHexDigit {c : UInt8} (h : isHexDigit c = true) :
    isUnreserved c = true := by
  obtain ⟨⟨n, hn⟩⟩ := c
  simp [isHexDigit, isUnreserved, UInt8.le_def, Fin.le_def, UInt8.toNat, BitVec.toNat] at h ⊢
  omega

/-- An unreserved byte is outside the special-query set, and is not `%`, `&` or `+`. -/
theorem isUnreserved_plain {c : UInt8} (h : isUnreserved c = true) :
    inSpecialQuerySet c = false ∧ c ≠ 0x25 ∧ c ≠ 0x26 ∧ c ≠ 0x2B := by
  obtain ⟨⟨n, hn⟩⟩ := c
  simp [isUnreserved, inSpecialQuerySet, UInt8.le_def, UInt8.lt_def, Fin.le_def, Fin.lt_def,
    UInt8.ext_iff, UInt8.size, UInt8.toNat, BitVec.toNat] at h ⊢
  omega

/-- A byte outside the special-query set is no C0 control, space, tab, newline or `#`. -/
theorem plain_of_not_inSpecialQuerySet {c : UInt8} (h : inSpecialQuerySet c = false) :
    isC0ControlOrSpace c = false ∧ isTabOrNewline c = false ∧ c ≠ 0x23 := by
  obtain ⟨⟨n, hn⟩⟩ := c
  simp [inSpecialQuerySet, isC0ControlOrSpace, isTabOrNewline, UInt8.le_def, UInt8.lt_def,
    Fin.le_def, Fin.lt_def, UInt8.ext_iff, UInt8.size, UInt8.toNat, BitVec.toNat] at h ⊢
  omega

/-! ## The serializer -/

/-- One byte of a name or a value: a space becomes `+`, an unreserved byte stays, and every other
    byte becomes `%` and its two upper-case hex digits. -/
def percentEncodeByte (c : UInt8) : Bytes :=
  if c = 0x20 then [0x2B]
  else if isUnreserved c then [c]
  else [0x25, hexUpper (c.toNat / 16), hexUpper (c.toNat % 16)]

/-- A name or a value, byte by byte. -/
def percentEncode (bs : Bytes) : Bytes := bs.flatMap percentEncodeByte

/-- The `application/x-www-form-urlencoded` serializer: `name=value` for each pair, joined by
    `&`. -/
def urlencodedSerialize (tuples : List (Bytes × Bytes)) : Bytes :=
  [0x26].intercalate
    (tuples.map fun (name, value) => percentEncode name ++ 0x3D :: percentEncode value)

@[simp] theorem urlencodedSerialize_singleton (name value : Bytes) :
    urlencodedSerialize [(name, value)] = percentEncode name ++ 0x3D :: percentEncode value := by
  simp [urlencodedSerialize, List.intercalate]

/-- A `URLSearchParams` object: its list of name-value pairs, in order. -/
structure URLSearchParams where
  list : List (String × String)
  deriving DecidableEq, Repr

/-- `new URLSearchParams()`. -/
def URLSearchParams.empty : URLSearchParams := ⟨[]⟩

/-- `append(name, value)`: a pair at the end of the list. -/
def URLSearchParams.append (p : URLSearchParams) (name value : String) : URLSearchParams :=
  ⟨p.list ++ [(name, value)]⟩

/-- `toString()`: the list serialized, each string as its UTF-8 bytes. Its output is ASCII, so its
    bytes are those of the string the code interpolates. -/
def URLSearchParams.toString (p : URLSearchParams) : Bytes :=
  urlencodedSerialize (p.list.map fun (name, value) => (utf8 name, utf8 value))

/-! ## The parser -/

/-- A `+` read as a space. -/
def plusByte (c : UInt8) : UInt8 := if c = 0x2B then 0x20 else c

/-- Every `+` read as a space. -/
def plusToSpace (bs : Bytes) : Bytes := bs.map plusByte

/-- Whether a sequence starts with two hex digits, which a `%` before it escapes. -/
def startsWithHexPair : Bytes → Bool
  | h :: l :: _ => isHexDigit h && isHexDigit l
  | _ => false

/-- Percent-decoding: a `%` followed by two hex digits is the byte they spell; any other byte, a
    lone `%` included, is kept. -/
def percentDecode : Bytes → Bytes
  | [] => []
  | c :: rest =>
    let decodedRest := percentDecode rest
    match rest with
    | h :: l :: rest' =>
      if c = 0x25 ∧ isHexDigit h ∧ isHexDigit l then
        UInt8.ofNat (16 * hexValue h + hexValue l) :: percentDecode rest'
      else c :: decodedRest
    | _ => c :: decodedRest

/-- One `name=value` sequence: split at the first `=` (the value is empty if there is none), then
    `+` as space and percent-decoding on each side. -/
def parseTuple (bytes : Bytes) : Bytes × Bytes :=
  let (name, value) := bytes.span (· != 0x3D)
  (percentDecode (plusToSpace name), percentDecode (plusToSpace (value.drop 1)))

/-- The `application/x-www-form-urlencoded` parser: split on `&`, skip the empty sequences, and
    parse each of the others. -/
def urlencodedParse (input : Bytes) : List (Bytes × Bytes) :=
  ((input.splitOn 0x26).filter (· != [])).map parseTuple

/-- `URLSearchParams.get(name)`: the value of the first pair with that name. -/
def get (tuples : List (Bytes × Bytes)) (name : Bytes) : Option Bytes :=
  (tuples.find? (·.1 == name)).map (·.2)

/-! ## The URL parser -/

/-- The URL parser's input once cleaned: leading and trailing C0 controls and spaces removed, then
    every tab and newline. -/
def urlClean (input : Bytes) : Bytes :=
  ((input.dropWhile isC0ControlOrSpace).rdropWhile isC0ControlOrSpace).filter
    fun c => !isTabOrNewline c

/-- The query of a cleaned URL: what follows a `?` that comes before any `#`, up to the next `#`,
    which starts the fragment the client keeps to itself. -/
def queryPart (url : Bytes) : Bytes :=
  match url.dropWhile fun c => c != 0x3F && c != 0x23 with
  | c :: rest => if c = 0x3F then rest.takeWhile (· != 0x23) else []
  | [] => []

/-- One byte of the query as the URL parser writes it: `%` and its two upper-case hex digits when
    it is in the special-query set, the byte itself otherwise. -/
def queryEncodeByte (c : UInt8) : Bytes :=
  if inSpecialQuerySet c then [0x25, hexUpper (c.toNat / 16), hexUpper (c.toNat % 16)] else [c]

/-- The query of a URL as the server receives it: the URL parser cleans its input, takes the query
    and percent-encodes it. -/
def queryOf (url : Bytes) : Bytes := (queryPart (urlClean url)).flatMap queryEncodeByte

/-! ## The service's URLs -/

/-- `getHierarchicalTags`'s URL: `parent_id` is appended only when it is truthy. -/
def getHierarchicalTagsUrl (parent_id : String) : Bytes :=
  let queryParams := if parent_id ≠ "" then URLSearchParams.empty.append "parent_id" parent_id
    else URLSearchParams.empty
  utf8 "/answer/api/v1/hierarchical-tags?" ++ queryParams.toString

/-- `getHierarchicalTagPath`'s URL: the id interpolated as it is. -/
def getHierarchicalTagPathUrl (tag_id : String) : Bytes :=
  utf8 ("/answer/api/v1/hierarchical-tags/path?tag_id=" ++ tag_id)

/-! ## Round trip -/

/-- Every byte the serializer writes for a name or a value is unreserved, a `+` or a `%`. -/
theorem mem_percentEncode {bs : Bytes} {b : UInt8} (h : b ∈ percentEncode bs) :
    isUnreserved b = true ∨ b = 0x2B ∨ b = 0x25 := by
  obtain ⟨c, -, hb⟩ := List.mem_flatMap.mp h
  unfold percentEncodeByte at hb
  have hc := c.toNat_lt
  split_ifs at hb with h₁ h₂
  · simp_all
  · simp_all
  · simp only [List.mem_cons, List.mem_singleton, List.not_mem_nil, or_false] at hb
    rcases hb with rfl | rfl | rfl
    · exact .inr (.inr rfl)
    · exact .inl (hexUpper_spec _ (by omega)).1
    · exact .inl (hexUpper_spec _ (Nat.mod_lt _ (by omega))).1

/-- A separator the serializer never writes inside a name or a value. -/
theorem not_mem_percentEncode {bs : Bytes} {b : UInt8} (hb : isUnreserved b = false)
    (hplus : b ≠ 0x2B) (hpct : b ≠ 0x25) : b ∉ percentEncode bs := fun h => by
  rcases mem_percentEncode h with h | h | h <;> simp_all

/-- A byte that starts no escape is kept. -/
theorem percentDecode_cons {c : UInt8} {rest : Bytes}
    (h : c ≠ 0x25 ∨ startsWithHexPair rest = false) :
    percentDecode (c :: rest) = c :: percentDecode rest := by
  rcases rest with _ | ⟨x, _ | ⟨y, rest⟩⟩
  · rfl
  · rfl
  · have : ¬ (c = 0x25 ∧ isHexDigit x = true ∧ isHexDigit y = true) := by
      rintro ⟨rfl, hx, hy⟩
      simp [startsWithHexPair, hx, hy] at h
    simp only [percentDecode, if_neg this]

/-- An escape is the byte its digits spell. -/
theorem percentDecode_escape {h l : UInt8} (hh : isHexDigit h = true) (hl : isHexDigit l = true)
    (rest : Bytes) :
    percentDecode (0x25 :: h :: l :: rest) =
      UInt8.ofNat (16 * hexValue h + hexValue l) :: percentDecode rest := by
  simp [percentDecode, hh, hl]

/-- **One encoded byte decodes back**, whatever follows it. -/
theorem percentDecode_percentEncodeByte (c : UInt8) (rest : Bytes) :
    percentDecode (plusToSpace (percentEncodeByte c) ++ rest) = c :: percentDecode rest := by
  have hc := c.toNat_lt
  unfold percentEncodeByte
  split_ifs with h₁ h₂
  · subst h₁
    exact percentDecode_cons (.inl (by decide))
  · obtain ⟨-, hne, -, hplus⟩ := isUnreserved_plain h₂
    have : percentDecode (c :: rest) = c :: percentDecode rest := percentDecode_cons (.inl hne)
    simpa [plusToSpace, plusByte, hplus] using this
  · obtain ⟨hu₁, hh₁, -⟩ := hexUpper_spec (c.toNat / 16) (by omega)
    obtain ⟨hu₂, hh₂, -⟩ := hexUpper_spec (c.toNat % 16) (Nat.mod_lt _ (by omega))
    simp [plusToSpace, plusByte, (isUnreserved_plain hu₁).2.2.2, (isUnreserved_plain hu₂).2.2.2,
      percentDecode, hh₁, hh₂, ofNat_hexValue]

/-- **Percent-decoding undoes percent-encoding**, `+` for space included. -/
theorem percentDecode_percentEncode (bs : Bytes) :
    percentDecode (plusToSpace (percentEncode bs)) = bs := by
  induction bs with
  | nil => simp [percentEncode, plusToSpace, percentDecode]
  | cons c bs ih =>
    rw [percentEncode, List.flatMap_cons, plusToSpace, List.map_append, ← plusToSpace,
      ← plusToSpace, ← percentEncode, percentDecode_percentEncodeByte, ih]

/-- A sequence whose first `=` follows `name`. -/
theorem parseTuple_append {name : Bytes} (hname : (0x3D : UInt8) ∉ name) (value : Bytes) :
    parseTuple (name ++ 0x3D :: value) =
      (percentDecode (plusToSpace name), percentDecode (plusToSpace value)) := by
  have h : ∀ b ∈ name, (b != 0x3D) = true := fun b hb => by
    simpa using fun h : b = 0x3D => hname (h ▸ hb)
  simp [parseTuple, List.span_eq_take_drop, List.takeWhile_append_of_pos h,
    List.dropWhile_append_of_pos h]

/-- An encoded pair parses back to the pair. -/
theorem parseTuple_encoded (name value : Bytes) :
    parseTuple (percentEncode name ++ 0x3D :: percentEncode value) = (name, value) := by
  rw [parseTuple_append (not_mem_percentEncode (by decide) (by decide) (by decide)),
    percentDecode_percentEncode, percentDecode_percentEncode]

/-- **The parser gives back every list of pairs the serializer writes.** -/
theorem urlencodedParse_serialize (tuples : List (Bytes × Bytes)) :
    urlencodedParse (urlencodedSerialize tuples) = tuples := by
  cases tuples with
  | nil => rfl
  | cons t ts =>
    rw [urlencodedParse, urlencodedSerialize, List.splitOn_intercalate _ _ ?amp (by simp),
      List.filter_eq_self.mpr ?nonempty, List.map_map]
    · conv_rhs => rw [← List.map_id (t :: ts)]
      exact List.map_congr_left fun (name, value) _ => parseTuple_encoded name value
    · intro _ ha
      obtain ⟨_, -, rfl⟩ := List.mem_map.mp ha
      simp
    · simp only [List.mem_map]
      rintro _ ⟨⟨name, value⟩, -, rfl⟩
      simp only [List.mem_append, List.mem_cons, not_or]
      exact ⟨not_mem_percentEncode (by decide) (by decide) (by decide), by decide,
        not_mem_percentEncode (by decide) (by decide) (by decide)⟩

/-- The URL parser encodes nothing in a query outside the special-query set. -/
theorem flatMap_queryEncodeByte_plain {q : Bytes} (h : ∀ c ∈ q, inSpecialQuerySet c = false) :
    q.flatMap queryEncodeByte = q := by
  induction q with
  | nil => rfl
  | cons c q ih =>
    rw [List.flatMap_cons, queryEncodeByte, if_neg (by simp [h c (List.mem_cons_self c q)]),
      ih fun c hc => h c (List.mem_cons_of_mem _ hc)]
    rfl

/-- A URL of bytes outside the special-query set, with its first `?` after `path`: the URL parser
    cleans nothing away and encodes nothing, so the query is what follows the `?`. -/
theorem queryOf_plain {path query : Bytes} (hne : path ≠ [])
    (hpath : ∀ c ∈ path, inSpecialQuerySet c = false ∧ c ≠ 0x3F)
    (hquery : ∀ c ∈ query, inSpecialQuerySet c = false) :
    queryOf (path ++ 0x3F :: query) = query := by
  have hplain : ∀ c ∈ path ++ 0x3F :: query, inSpecialQuerySet c = false := by
    simp only [List.mem_append, List.mem_cons]
    rintro c (hc | rfl | hc)
    exacts [(hpath c hc).1, rfl, hquery c hc]
  have hclean : urlClean (path ++ 0x3F :: query) = path ++ 0x3F :: query := by
    obtain ⟨a, as, rfl⟩ := List.exists_cons_of_ne_nil hne
    have hc0 := fun c hc => (plain_of_not_inSpecialQuerySet (hplain c hc)).1
    rw [urlClean, List.cons_append, List.dropWhile_cons_of_neg (by simp [hc0 a (by simp)]),
      List.rdropWhile_eq_self_iff.mpr fun hl => by rw [hc0 _ (List.getLast_mem hl)]; decide,
      List.filter_eq_self.mpr fun c hc => by
        simp [(plain_of_not_inSpecialQuerySet (hplain c hc)).2.1]]
  have hstop : ∀ c ∈ path, (c != 0x3F && c != 0x23) = true := fun c hc => by
    simp [(hpath c hc).2, (plain_of_not_inSpecialQuerySet (hpath c hc).1).2.2]
  rw [queryOf, hclean, queryPart, List.dropWhile_append_of_pos hstop,
    List.dropWhile_cons_of_neg (by decide)]
  dsimp only
  rw [if_pos rfl, List.takeWhile_eq_self_iff.mpr fun c hc => by
      simp [(plain_of_not_inSpecialQuerySet (hquery c hc)).2.2]]
  exact flatMap_queryEncodeByte_plain hquery

/-- Every byte the serializer writes for a name or a value is outside the special-query set. -/
theorem inSpecialQuerySet_of_mem_percentEncode {bs : Bytes} {b : UInt8}
    (h : b ∈ percentEncode bs) : inSpecialQuerySet b = false := by
  rcases mem_percentEncode h with h | rfl | rfl
  exacts [(isUnreserved_plain h).1, rfl, rfl]

/-- **The server reads `parent_id` exactly when `getHierarchicalTags` appends it**, with the bytes
    of the id, whatever they are, and no other parameter: the query the `Backend` of `Gateway`
    answers is `parentQuery parent_id`. -/
theorem getHierarchicalTags_query (parent_id : String) :
    urlencodedParse (queryOf (getHierarchicalTagsUrl parent_id)) =
      (parentQuery parent_id).toList.map fun v => (utf8 "parent_id", utf8 v) := by
  have hurl : utf8 "/answer/api/v1/hierarchical-tags?" =
      utf8 "/answer/api/v1/hierarchical-tags" ++ [0x3F] := by decide
  have hpath : ∀ c ∈ utf8 "/answer/api/v1/hierarchical-tags",
      inSpecialQuerySet c = false ∧ c ≠ 0x3F := by decide
  rw [getHierarchicalTagsUrl, hurl, List.append_assoc, List.singleton_append]
  by_cases h : parent_id = ""
  · rw [if_neg (not_not_intro h), queryOf_plain (by decide) hpath (by decide)]
    simp only [h, parentQuery, if_true, Option.toList_none, List.map_nil]
    rfl
  · have hq : (URLSearchParams.empty.append "parent_id" parent_id).toString =
        urlencodedSerialize [(utf8 "parent_id", utf8 parent_id)] := rfl
    have hplain : ∀ b ∈ urlencodedSerialize [(utf8 "parent_id", utf8 parent_id)],
        inSpecialQuerySet b = false := fun b hb => by
      rw [urlencodedSerialize_singleton, List.mem_append, List.mem_cons] at hb
      rcases hb with hb | rfl | hb
      exacts [inSpecialQuerySet_of_mem_percentEncode hb, rfl,
        inSpecialQuerySet_of_mem_percentEncode hb]
    rw [if_pos h, hq, queryOf_plain (by decide) hpath hplain, urlencodedParse_serialize]
    simp [parentQuery, h]

/-! ## Raw interpolation -/

/-- Whether some `%` is followed by two hex digits: the bytes percent-decoding changes. -/
def hasEscape : Bytes → Bool
  | [] => false
  | c :: rest => (c == 0x25 && startsWithHexPair rest) || hasEscape rest

/-- A sequence too short for an escape after its first byte. -/
theorem percentDecode_short {c : UInt8} {rest : Bytes} (h : ∀ x y r, rest = x :: y :: r → False) :
    percentDecode (c :: rest) = c :: rest ∧ hasEscape (c :: rest) = false := by
  rcases rest with _ | ⟨x, _ | ⟨y, r⟩⟩
  · exact ⟨rfl, by simp [hasEscape, startsWithHexPair]⟩
  · exact ⟨rfl, by simp [hasEscape, startsWithHexPair]⟩
  · exact absurd rfl (h x y r)

/-- A byte that starts no escape adds none. -/
theorem hasEscape_cons_of_not {c h l : UInt8} {rest : Bytes}
    (hc : ¬ (c = 0x25 ∧ isHexDigit h = true ∧ isHexDigit l = true)) :
    hasEscape (c :: h :: l :: rest) = hasEscape (h :: l :: rest) := by
  have : (c == 0x25 && startsWithHexPair (h :: l :: rest)) = false := by
    by_cases hp : c = 0x25 <;> simp_all [startsWithHexPair]
  rw [hasEscape, this, Bool.false_or]

theorem length_percentDecode_le (bs : Bytes) : (percentDecode bs).length ≤ bs.length := by
  induction bs using percentDecode.induct with
  | case1 => rfl
  | case2 c h l rest hc _ ih => simp only [percentDecode, if_pos hc, List.length_cons]; omega
  | case3 c h l rest hc ih =>
    simp only [percentDecode, if_neg hc, List.length_cons] at ih ⊢
    omega
  | case4 c rest hrest => rw [(percentDecode_short hrest).1]

/-- **Percent-decoding shortens every sequence with an escape.** -/
theorem length_percentDecode_lt {bs : Bytes} (he : hasEscape bs = true) :
    (percentDecode bs).length < bs.length := by
  induction bs using percentDecode.induct with
  | case1 => simp [hasEscape] at he
  | case2 c h l rest hc =>
    have := length_percentDecode_le rest
    simp only [percentDecode, if_pos hc, List.length_cons]
    omega
  | case3 c h l rest hc ih =>
    rw [hasEscape_cons_of_not hc] at he
    have := ih he
    simp only [percentDecode, if_neg hc, List.length_cons] at this ⊢
    omega
  | case4 c rest hrest => simp [(percentDecode_short hrest).2] at he

/-- **Percent-decoding leaves a sequence as it is exactly when it has no escape.** -/
theorem percentDecode_eq_self_iff {bs : Bytes} : percentDecode bs = bs ↔ hasEscape bs = false := by
  refine ⟨fun h => Bool.eq_false_iff.mpr fun he => ?_, fun he => ?_⟩
  · exact absurd (congrArg List.length h) (length_percentDecode_lt he).ne
  · induction bs using percentDecode.induct with
    | case1 => rfl
    | case2 c h l rest hc => simp [hasEscape, startsWithHexPair, hc] at he
    | case3 c h l rest hc ih =>
      rw [hasEscape_cons_of_not hc] at he
      simp only [percentDecode, if_neg hc, ih he]
    | case4 c rest hrest => exact (percentDecode_short hrest).1

@[simp] theorem plusToSpace_nil : plusToSpace [] = [] := rfl

@[simp] theorem plusToSpace_cons (c : UInt8) (bs : Bytes) :
    plusToSpace (c :: bs) = plusByte c :: plusToSpace bs := rfl

@[simp] theorem plusToSpace_append (bs bs' : Bytes) :
    plusToSpace (bs ++ bs') = plusToSpace bs ++ plusToSpace bs' := List.map_append _ _ _

/-- Reading `+` as a space makes no `%` and breaks none. -/
theorem plusByte_eq_pct {c : UInt8} : plusByte c = 0x25 ↔ c = 0x25 := by
  unfold plusByte
  split <;> simp_all

/-- Reading `+` as a space makes no hex digit and breaks none. -/
theorem isHexDigit_plusByte (c : UInt8) : isHexDigit (plusByte c) = isHexDigit c := by
  unfold plusByte
  split
  · subst c; decide
  · rfl

theorem startsWithHexPair_plusToSpace (bs : Bytes) :
    startsWithHexPair (plusToSpace bs) = startsWithHexPair bs := by
  rcases bs with _ | ⟨x, _ | ⟨y, r⟩⟩ <;> simp [startsWithHexPair, isHexDigit_plusByte]

/-- Reading `+` as a space makes or breaks no escape. -/
theorem hasEscape_plusToSpace (bs : Bytes) : hasEscape (plusToSpace bs) = hasEscape bs := by
  induction bs with
  | nil => rfl
  | cons c bs ih =>
    have hc : (plusByte c == 0x25) = (c == 0x25) :=
      Bool.eq_iff_iff.mpr (by simp only [beq_iff_eq, plusByte_eq_pct])
    rw [plusToSpace_cons, hasEscape, hasEscape, ih, startsWithHexPair_plusToSpace, hc]

/-- Reading `+` as a space changes a sequence exactly when it has a `+`. -/
theorem plusToSpace_eq_self_iff {bs : Bytes} : plusToSpace bs = bs ↔ (0x2B : UInt8) ∉ bs := by
  constructor
  · intro h hplus
    rw [← h, plusToSpace, List.mem_map] at hplus
    obtain ⟨c, -, hc⟩ := hplus
    unfold plusByte at hc
    split at hc
    · exact absurd hc (by decide)
    · contradiction
  · intro h
    conv_rhs => rw [← List.map_id bs]
    exact List.map_congr_left fun c hc => if_neg fun (he : c = 0x2B) => h (he ▸ hc)

/-! ## The URL parser's encoding, under the form parser -/

/-- A byte of the special-query set is no hex digit. -/
theorem isHexDigit_of_inSpecialQuerySet {c : UInt8} (h : inSpecialQuerySet c = true) :
    isHexDigit c = false :=
  Bool.eq_false_iff.mpr fun hh => by
    simp [(isUnreserved_plain (isUnreserved_of_isHexDigit hh)).1] at h

/-- The bytes the URL parser writes for a byte: the byte itself, or `%` and two unreserved
    digits. -/
theorem mem_queryEncodeByte {c b : UInt8} (hb : b ∈ queryEncodeByte c) :
    b = c ∨ b = 0x25 ∨ isUnreserved b = true := by
  have hc := c.toNat_lt
  unfold queryEncodeByte at hb
  split at hb
  · simp only [List.mem_cons, List.mem_singleton, List.not_mem_nil, or_false] at hb
    rcases hb with rfl | rfl | rfl
    · exact .inr (.inl rfl)
    · exact .inr (.inr (hexUpper_spec _ (by omega)).1)
    · exact .inr (.inr (hexUpper_spec _ (Nat.mod_lt _ (by omega))).1)
  · exact .inl (List.mem_singleton.mp hb)

theorem startsWithHexPair_cons {x : UInt8} (hx : isHexDigit x = false) (r : Bytes) :
    startsWithHexPair (x :: r) = false := by
  rcases r with _ | ⟨y, r⟩ <;> simp [startsWithHexPair, hx]

/-- The URL parser's encoding makes no escape after a `%` and breaks none. -/
theorem startsWithHexPair_queryEncode (bs : Bytes) :
    startsWithHexPair (plusToSpace (bs.flatMap queryEncodeByte)) = startsWithHexPair bs := by
  have hpct : plusByte 0x25 = 0x25 ∧ isHexDigit 0x25 = false := by decide
  rcases bs with _ | ⟨x, rest⟩
  · rfl
  by_cases hx : inSpecialQuerySet x
  · simp only [List.flatMap_cons, queryEncodeByte, hx, if_true, List.cons_append, plusToSpace_cons,
      hpct.1]
    rw [startsWithHexPair_cons hpct.2, startsWithHexPair_cons (isHexDigit_of_inSpecialQuerySet hx)]
  rcases rest with _ | ⟨y, r⟩
  · simp [queryEncodeByte, hx, startsWithHexPair]
  by_cases hy : inSpecialQuerySet y
  · simp [List.flatMap_cons, queryEncodeByte, hx, hy, startsWithHexPair, isHexDigit_plusByte,
      hpct, isHexDigit_of_inSpecialQuerySet hy]
  · simp [List.flatMap_cons, queryEncodeByte, hx, hy, startsWithHexPair, isHexDigit_plusByte]

/-- One byte of the query, encoded by the URL parser or not, decodes as it is, when the rest does
    and the byte starts no escape. -/
theorem percentDecode_queryEncode_cons {c : UInt8} {rest : Bytes}
    (ih : percentDecode (plusToSpace (rest.flatMap queryEncodeByte)) =
      percentDecode (plusToSpace rest))
    (h : c ≠ 0x25 ∨ startsWithHexPair rest = false) :
    percentDecode (plusToSpace ((c :: rest).flatMap queryEncodeByte)) =
      percentDecode (plusToSpace (c :: rest)) := by
  have hlt := c.toNat_lt
  rw [List.flatMap_cons, plusToSpace_append, plusToSpace_cons, queryEncodeByte]
  split_ifs with hs
  · have hne : c ≠ 0x25 := fun he => absurd (he ▸ hs) (by decide)
    have hpc : plusByte c = c := if_neg fun he => absurd (he ▸ hs) (by decide)
    obtain ⟨hu₁, hh₁, -⟩ := hexUpper_spec (c.toNat / 16) (by omega)
    obtain ⟨hu₂, hh₂, -⟩ := hexUpper_spec (c.toNat % 16) (Nat.mod_lt _ (by omega))
    have hp₁ : plusByte (hexUpper (c.toNat / 16)) = _ := if_neg (isUnreserved_plain hu₁).2.2.2
    have hp₂ : plusByte (hexUpper (c.toNat % 16)) = _ := if_neg (isUnreserved_plain hu₂).2.2.2
    have hpct : plusByte 0x25 = 0x25 := by decide
    simp only [plusToSpace_cons, plusToSpace_nil, hpct, hp₁, hp₂, hpc, List.cons_append,
      List.nil_append]
    rw [percentDecode_escape hh₁ hh₂, ofNat_hexValue, ih, percentDecode_cons (.inl hne)]
  · have hc : c ≠ 0x25 → plusByte c ≠ 0x25 := mt plusByte_eq_pct.mp
    have h₁ : plusByte c ≠ 0x25 ∨
        startsWithHexPair (plusToSpace (rest.flatMap queryEncodeByte)) = false := by
      rw [startsWithHexPair_queryEncode]
      exact h.imp_left hc
    have h₂ : plusByte c ≠ 0x25 ∨ startsWithHexPair (plusToSpace rest) = false := by
      rw [startsWithHexPair_plusToSpace]
      exact h.imp_left hc
    rw [plusToSpace_cons, plusToSpace_nil, List.cons_append, List.nil_append, percentDecode_cons h₁,
      percentDecode_cons h₂, ih]

/-- **The URL parser's percent-encoding of the query is transparent to the form parser**: it
    decodes the encoded query to what it decodes the query itself to. -/
theorem percentDecode_queryEncode (q : Bytes) :
    percentDecode (plusToSpace (q.flatMap queryEncodeByte)) = percentDecode (plusToSpace q) := by
  induction q using percentDecode.induct with
  | case1 => rfl
  | case2 c h l rest hc _ ih =>
    obtain ⟨rfl, hh, hl⟩ := hc
    have hkeep : ∀ x, isHexDigit x = true → queryEncodeByte x = [x] ∧ plusByte x = x :=
      fun x hx =>
        have hu := isUnreserved_plain (isUnreserved_of_isHexDigit hx)
        ⟨if_neg (by simp [hu.1]), if_neg hu.2.2.2⟩
    have hpct : queryEncodeByte 0x25 = [0x25] ∧ plusByte 0x25 = 0x25 := by decide
    simp only [List.flatMap_cons, (hkeep h hh).1, (hkeep l hl).1, hpct.1, List.singleton_append,
      plusToSpace_cons, (hkeep h hh).2, (hkeep l hl).2, hpct.2, percentDecode_escape hh hl, ih]
  | case3 c h l rest hc ih =>
    exact percentDecode_queryEncode_cons ih
      (by by_cases hp : c = 0x25 <;> simp_all [startsWithHexPair])
  | case4 c rest hrest =>
    rcases rest with _ | ⟨x, _ | ⟨y, r⟩⟩
    · exact percentDecode_queryEncode_cons rfl (.inr rfl)
    · exact percentDecode_queryEncode_cons (percentDecode_queryEncode_cons rfl (.inr rfl))
        (.inr rfl)
    · exact absurd rfl (hrest x y r)

/-- The URL parser's encoding writes an `&` only for an `&`. -/
theorem takeWhile_amp_queryEncode (bs : Bytes) :
    (bs.flatMap queryEncodeByte).takeWhile (· != 0x26) =
      (bs.takeWhile (· != 0x26)).flatMap queryEncodeByte := by
  induction bs with
  | nil => rfl
  | cons c bs ih =>
    by_cases hc : c = 0x26
    · subst hc
      simp [List.flatMap_cons, show queryEncodeByte 0x26 = [0x26] by decide]
    · have hne : ∀ b ∈ queryEncodeByte c, (b != 0x26) = true := fun b hb => by
        rcases mem_queryEncodeByte hb with rfl | rfl | hu
        · simpa using hc
        · decide
        · simpa using (isUnreserved_plain hu).2.2.1
      rw [List.flatMap_cons, List.takeWhile_append_of_pos hne, ih,
        List.takeWhile_cons_of_pos (by simpa using hc), List.flatMap_cons]

/-- The URL parser's cleaning of a URL that starts with bytes outside the special-query set: the
    rest is trimmed at its end and loses its tabs and newlines. -/
theorem urlClean_append {pre : Bytes} (hne : pre ≠ [])
    (hpre : ∀ c ∈ pre, inSpecialQuerySet c = false) (q : Bytes) :
    urlClean (pre ++ q) =
      pre ++ (q.rdropWhile isC0ControlOrSpace).filter fun c => !isTabOrNewline c := by
  have hc0 := fun c hc => (plain_of_not_inSpecialQuerySet (hpre c hc)).1
  have hkeep : pre.reverse.dropWhile isC0ControlOrSpace = pre.reverse := by
    rcases hr : pre.reverse with _ | ⟨c, l⟩
    · rfl
    · exact List.dropWhile_cons_of_neg (by
        simp [hc0 c (List.mem_reverse.mp (hr ▸ List.mem_cons_self c l))])
  obtain ⟨a, as, rfl⟩ := List.exists_cons_of_ne_nil hne
  have htrim : ((a :: as) ++ q).rdropWhile isC0ControlOrSpace =
      (a :: as) ++ q.rdropWhile isC0ControlOrSpace := by
    simp only [List.rdropWhile, List.reverse_append, List.dropWhile_append, hkeep]
    split
    · rename_i hq
      simp [List.isEmpty_iff.mp hq]
    · simp
  rw [urlClean, List.cons_append,
    List.dropWhile_cons_of_neg (by simp [hc0 a (List.mem_cons_self a as)]),
    ← List.cons_append, htrim, List.filter_append, List.filter_eq_self.mpr fun c hc => by
      simp [(plain_of_not_inSpecialQuerySet (hpre c hc)).2.1]]

/-- The query of `getHierarchicalTagPath`'s URL, as the server receives it: `tag_id=` and the id,
    trimmed at its end, without its tabs and newlines, cut at its first `#`, and encoded. -/
theorem queryOf_tagPath (tag_id : String) :
    queryOf (getHierarchicalTagPathUrl tag_id) = utf8 "tag_id=" ++
      ((((utf8 tag_id).rdropWhile isC0ControlOrSpace).filter fun c => !isTabOrNewline c).takeWhile
        (· != 0x23)).flatMap queryEncodeByte := by
  have hurl : utf8 "/answer/api/v1/hierarchical-tags/path?tag_id=" =
      utf8 "/answer/api/v1/hierarchical-tags/path" ++ 0x3F :: utf8 "tag_id=" := by
    decide
  rw [queryOf, getHierarchicalTagPathUrl, utf8_append, urlClean_append (by decide) (by decide),
    hurl, List.append_assoc, List.cons_append, queryPart, List.dropWhile_append_of_pos (by decide),
    List.dropWhile_cons_of_neg (by decide)]
  simp only [if_true, List.takeWhile_append_of_pos (by decide : ∀ c ∈ utf8 "tag_id=",
    (c != 0x23) = true), List.flatMap_append, flatMap_queryEncodeByte_plain (by decide :
    ∀ c ∈ utf8 "tag_id=", inSpecialQuerySet c = false)]

/-- `splitOn` puts the bytes before the first separator first. -/
theorem splitOn_eq_takeWhile_cons (a : UInt8) (l : Bytes) :
    ∃ rest, l.splitOn a = l.takeWhile (· != a) :: rest := by
  induction l with
  | nil => exact ⟨[], rfl⟩
  | cons x l ih =>
    obtain ⟨rest, h⟩ := ih
    by_cases hx : x = a
    · exact ⟨l.splitOn a, by simp [List.splitOn, List.splitOnP_cons, hx]⟩
    · refine ⟨rest, ?_⟩
      simp only [List.splitOn, List.splitOnP_cons] at h ⊢
      simp [hx, h]

/-- What the server reads as `tag_id`: the id trimmed at its end, without its tabs and newlines,
    cut at its first `#` and then at its first `&`, with `+` read as space and percent-decoded. -/
theorem get_tag_id (tag_id : String) :
    get (urlencodedParse (queryOf (getHierarchicalTagPathUrl tag_id))) (utf8 "tag_id") =
      some (percentDecode (plusToSpace (((((utf8 tag_id).rdropWhile isC0ControlOrSpace).filter
        fun c => !isTabOrNewline c).takeWhile (· != 0x23)).takeWhile (· != 0x26)))) := by
  rw [queryOf_tagPath]
  generalize ((((utf8 tag_id).rdropWhile isC0ControlOrSpace).filter
    fun c => !isTabOrNewline c).takeWhile (· != 0x23)) = t
  have hname : utf8 "tag_id=" = utf8 "tag_id" ++ [0x3D] := by decide
  obtain ⟨rest, hsplit⟩ :=
    splitOn_eq_takeWhile_cons 0x26 (utf8 "tag_id=" ++ t.flatMap queryEncodeByte)
  rw [urlencodedParse, hsplit, List.takeWhile_append_of_pos (by decide), takeWhile_amp_queryEncode,
    hname, List.append_assoc, List.singleton_append, List.filter_cons_of_pos (by simp),
    List.map_cons, parseTuple_append (by decide), percentDecode_queryEncode]
  have hdecoded : percentDecode (plusToSpace (utf8 "tag_id")) = utf8 "tag_id" := by decide
  simp [get, hdecoded]

/-- The form parser reads `q` back from a part of `q` only when the part is all of `q`, with no `+`
    and no escape: decoding never lengthens, and shortens every escape. -/
theorem decode_sublist_eq {q t : Bytes} (ht : t.Sublist q) (h : percentDecode (plusToSpace t) = q) :
    t = q ∧ (0x2B : UInt8) ∉ q ∧ hasEscape q = false := by
  have hle := length_percentDecode_le (plusToSpace t)
  rw [h, plusToSpace, List.length_map] at hle
  obtain rfl := ht.eq_of_length (Nat.le_antisymm ht.length_le hle)
  have hesc : hasEscape (plusToSpace t) = false := Bool.eq_false_iff.mpr fun he => by
    have := length_percentDecode_lt he
    rw [h, plusToSpace, List.length_map] at this
    omega
  refine ⟨rfl, ?_, hasEscape_plusToSpace t ▸ hesc⟩
  rw [← plusToSpace_eq_self_iff, ← percentDecode_eq_self_iff.mpr hesc, h]

/-- **`getHierarchicalTagPath` sends its id intact exactly when the id has no `&`, `#` or `+`, no
    `%` followed by two hex digits, no tab or newline, and no C0 control or space at its end.**
    The code encodes none of these; the URL parser drops the last two, and the form parser reads
    the others otherwise. -/
theorem getHierarchicalTagPath_tag_id (tag_id : String) :
    get (urlencodedParse (queryOf (getHierarchicalTagPathUrl tag_id))) (utf8 "tag_id") =
        some (utf8 tag_id) ↔
      (0x26 : UInt8) ∉ utf8 tag_id ∧ (0x23 : UInt8) ∉ utf8 tag_id ∧
        (0x2B : UInt8) ∉ utf8 tag_id ∧ hasEscape (utf8 tag_id) = false ∧
        (∀ c ∈ utf8 tag_id, isTabOrNewline c = false) ∧
        ∀ c ∈ (utf8 tag_id).getLast?, isC0ControlOrSpace c = false := by
  rw [get_tag_id, Option.some.injEq]
  generalize utf8 tag_id = q
  constructor
  · intro h
    generalize hA : q.rdropWhile isC0ControlOrSpace = A at h
    generalize hB : A.filter (fun c => !isTabOrNewline c) = B at h
    generalize hC : B.takeWhile (· != 0x23) = C at h
    generalize hT : C.takeWhile (· != 0x26) = T at h
    have hAq : A.Sublist q := by rw [← hA]; exact (List.rdropWhile_prefix _ _).sublist
    have hBA : B.Sublist A := by rw [← hB]; exact List.filter_sublist A
    have hCB : C.Sublist B := by rw [← hC]; exact (List.takeWhile_prefix _).sublist
    have hTC : T.Sublist C := by rw [← hT]; exact (List.takeWhile_prefix _).sublist
    have hTA := hTC.trans (hCB.trans hBA)
    obtain ⟨hcut, hplus, hesc⟩ := decode_sublist_eq (hTA.trans hAq) h
    have htrim : A = q := hAq.eq_of_length (Nat.le_antisymm hAq.length_le (hcut ▸ hTA.length_le))
    refine ⟨fun hq => ?_, fun hq => ?_, hplus, hesc, fun c hc => ?_, fun c hc => ?_⟩
    · rw [← hcut, ← hT] at hq
      simpa using List.mem_takeWhile_imp hq
    · have hq' := hTC.subset (hcut ▸ hq)
      rw [← hC] at hq'
      simpa using List.mem_takeWhile_imp hq'
    · have hc' := hCB.subset (hTC.subset (hcut ▸ hc))
      rw [← hB] at hc'
      simpa using (List.mem_filter.mp hc').2
    · obtain ⟨hl, rfl⟩ := List.mem_getLast?_eq_getLast hc
      simpa using List.rdropWhile_eq_self_iff.mp (hA.trans htrim) hl
  · rintro ⟨hamp, hhash, hplus, hesc, htab, hlast⟩
    have hne : ∀ a : UInt8, a ∉ q → ∀ b ∈ q, (b != a) = true := fun a ha b hb => by
      simpa using fun he : b = a => ha (he ▸ hb)
    rw [List.rdropWhile_eq_self_iff.mpr fun hl => by
        simp [hlast (q.getLast hl) (by simp [List.getLast?_eq_getLast q hl])],
      List.filter_eq_self.mpr fun c hc => by simp [htab c hc],
      List.takeWhile_eq_self_iff.mpr (hne _ hhash), List.takeWhile_eq_self_iff.mpr (hne _ hamp),
      plusToSpace_eq_self_iff.mpr hplus, percentDecode_eq_self_iff.mpr hesc]

example : get (urlencodedParse (queryOf (getHierarchicalTagPathUrl "12&x"))) (utf8 "tag_id") =
    some (utf8 "12") := by
  decide

example : get (urlencodedParse (queryOf (getHierarchicalTagPathUrl "1\t2 "))) (utf8 "tag_id") =
    some (utf8 "12") := by
  decide

end HierarchicalTags.Query
