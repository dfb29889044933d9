import AerospikeNode.Js.Arith
import AerospikeNode.Lib.Split
import AerospikeNode.Native.ToJs

/-!
# Parsing info responses

`info.parse` (`lib/info.js`): lines of a key and a value, each value split by the row of the
`separators` table that its key selects. The choice of the row, which `minimatch` makes, is a
parameter. A call that throws has no result.
-/

namespace AerospikeNode.Info

open JsValue

/-- The code unit of a character. -/
def unit (c : Char) : UInt16 := UInt16.ofNat c.toNat

def NEWLINE : UInt16 := unit '\n'
def TAB : UInt16 := unit '\t'
def SEMICOLON : UInt16 := unit ';'
def COLON : UInt16 := unit ':'
def COMMA : UInt16 := unit ','
def EQUALS : UInt16 := unit '='

/-! ### Splitting -/

/-- The text is `Number(text).toString()`. -/
def isCanonical (s : JsString) : Bool := JsString.ofChars (stringToNumber s).toChars = s

def parseValue : Option JsString → JsValue
  | some s => if isCanonical s then .num (stringToNumber s) else .str s
  | none => .undefined

theorem parseValue_some (s : JsString) :
    parseValue (some s) = if isCanonical s then .num (stringToNumber s) else .str s := rfl

/-- `kv.split(sep2, 2)` -/
def splitEntry (sep2 : UInt16) (kv : JsString) : JsString × JsValue :=
  let parts := (kv.splitOn sep2).take 2
  (parts.headD [], parseValue parts[1]?)

/-- The keys and values that `parseKeyValue` sets one after the other. -/
def entries (s : JsString) (sep1 sep2 : UInt16) : List (JsString × JsValue) :=
  ((s.splitOn sep1).filter fun kv => 0 < kv.length).map (splitEntry sep2)

/-- The properties of the object that `parseKeyValue` returns. -/
def parseKeyValue (s : JsString) (sep1 sep2 : UInt16) : Props :=
  (entries s sep1 sep2).foldl (fun result e => setProperty result (.str e.1) e.2) []

def smartParse : JsValue → JsValue
  | .str s =>
    if SEMICOLON ∈ s then
      if EQUALS ∈ s then .plain (parseKeyValue s SEMICOLON EQUALS)
      else .array ((s.splitOn SEMICOLON).map .str)
    else .str s
  | v => v

def chop (s : JsString) : JsString := s.dropLast

/-- The elements of `splitBins` that have two parts. -/
def binStats (elems : List JsString) : List (JsString × JsValue) :=
  (elems.filter fun elem => EQUALS ∈ elem).map (splitEntry EQUALS)

def binNames (elems : List JsString) : List JsString := elems.filter fun elem => EQUALS ∉ elem

def splitBins (s : JsString) : JsValue :=
  let elems := s.splitOn COMMA
  .plain [(JsString.lit "stats", .plain ((binStats elems).foldl
      (fun stats e => setProperty stats (.str e.1) e.2) [])),
    (JsString.lit "names", .array ((binNames elems).map .str))]

inductive Separator where
  | char (c : UInt16)
  | pair (c1 c2 : UInt16)
  | splitBins
  | chop
  | smartParse
deriving DecidableEq

/-- The elements between the separators, without a last empty one. -/
def splitList (s : JsString) (sep : UInt16) : List JsString :=
  let list := s.splitOn sep
  if list.getLast? = some [] then list.dropLast else list

/-- `splitString`; `none` where it throws. Only strings have `split` and `substring`. -/
def splitString : JsValue → Separator → Option JsValue
  | .str s, .char c => some (.array ((splitList s c).map .str))
  | .str s, .pair c1 c2 => some (.plain (parseKeyValue s c1 c2))
  | .str s, .splitBins => some (Info.splitBins s)
  | .str s, .chop => some (.str (Info.chop s))
  | v, .smartParse => some (Info.smartParse v)
  | _, _ => none

/-- One round of `deepSplitString`. -/
def splitLevel (sep : Separator) : JsValue → Option JsValue
  | .str s => splitString (.str s) sep
  | .array xs => (xs.mapM fun i => splitString i sep).map .array
  | .obj _ ps => (ps.mapM fun p => (splitString p.2 sep).map fun v => (p.1, v)).map .plain
  | input => some input

/-- `deepSplitString` -/
def deepSplitString : JsValue → List Separator → Option JsValue
  | input, [] => some input
  | input, sep :: separators =>
    if input.isNullish then some input
    else (splitLevel sep input).bind fun output => deepSplitString output separators

/-! ### The table -/

/-- The patterns of the `separators` table. -/
inductive Row where
  | bins
  | binsOf
  | namespaceOf
  | service
  | sindex
  | sindexOf
  | sindexOfOf
  | udfList
  | getDcConfig
  | sets
  | setsOf
  | setsOfOf
deriving DecidableEq

namespace Row

def table : List Row :=
  [bins, binsOf, namespaceOf, service, sindex, sindexOf, sindexOfOf, udfList, getDcConfig, sets, setsOf, setsOfOf]

def separators : Row → List Separator
  | bins => [.pair SEMICOLON COLON, .splitBins]
  | binsOf => [.splitBins]
  | namespaceOf => [.pair SEMICOLON EQUALS]
  | service => [.char SEMICOLON]
  | sindex | sindexOf => [.char SEMICOLON, .pair COLON EQUALS]
  | sindexOfOf => [.pair SEMICOLON EQUALS]
  | udfList => [.char SEMICOLON, .pair COMMA EQUALS]
  | getDcConfig => [.char SEMICOLON, .pair COLON EQUALS]
  | sets | setsOf => [.char SEMICOLON, .pair COLON EQUALS]
  | setsOfOf => [.chop, .pair COLON EQUALS]

end Row

section
variable (minimatch : JsString → Row → Bool)

/-- The first row whose pattern the key matches. -/
def rowOf (key : JsString) : Option Row := Row.table.find? (minimatch key)

def separatorsOf : Option Row → List Separator
  | some row => row.separators
  | none => [.smartParse]

def getSeparators (key : JsString) : List Separator := separatorsOf (rowOf minimatch key)

/-- `parse`; `none` where it throws. -/
def parse (info : JsString) : Option JsValue :=
  if info = [] then some (.plain [])
  else ((parseKeyValue info NEWLINE TAB).mapM fun p =>
    (deepSplitString p.2 (getSeparators minimatch p.1)).map fun v => (p.1, v)).map .plain

end

/-! ### What is kept of the entries -/

/-- The value of the last entry with a key. -/
def lastValue (es : List (JsString × JsValue)) (key : JsString) : Option JsValue :=
  (es.reverse.find? fun e => e.1 = key).map Prod.snd

theorem setProperty_str (ps : Props) (key : JsString) (v : JsValue) :
    setProperty ps (.str key) v = if key = PROTO then ps else Assoc.set ps key v := rfl

theorem lastValue_append {es : List (JsString × JsValue)} {e : JsString × JsValue} {key : JsString} :
    lastValue (es ++ [e]) key = if e.1 = key then some e.2 else lastValue es key := by
  rw [lastValue, List.reverse_append, List.reverse_singleton, List.singleton_append, List.find?_cons]
  by_cases h : e.1 = key
  · simp [h]
  · simp [h, lastValue]

/-- The object keeps the last value of each key, other than `__proto__`. -/
theorem mem_foldl_setProperty {es : List (JsString × JsValue)} {p : JsString × JsValue} :
    p ∈ es.foldl (fun result e => setProperty result (.str e.1) e.2) [] ↔
      p.1 ≠ PROTO ∧ lastValue es p.1 = some p.2 := by
  induction es using List.reverseRecOn with
  | nil => exact ⟨nofun, fun h => nomatch h.2⟩
  | append_singleton es e ih =>
    rw [List.foldl_append, List.foldl_cons, List.foldl_nil, setProperty_str, lastValue_append]
    by_cases hproto : e.1 = PROTO
    · rw [if_pos hproto, ih]
      refine and_congr_right fun hp => ?_
      have hne : e.1 ≠ p.1 := fun h => hp (h.symm.trans hproto)
      rw [if_neg hne]
    · rw [if_neg hproto, Assoc.mem_set]
      by_cases hp : e.1 = p.1
      · rw [if_pos hp, if_pos hp, Option.some.injEq]
        exact ⟨fun h => ⟨hp ▸ hproto, h.symm⟩, fun h => h.2.symm⟩
      · rw [if_neg hp, if_neg hp]
        exact ih

theorem mem_parseKeyValue {s : JsString} {sep1 sep2 : UInt16} {p : JsString × JsValue} :
    p ∈ parseKeyValue s sep1 sep2 ↔ p.1 ≠ PROTO ∧ lastValue (entries s sep1 sep2) p.1 = some p.2 :=
  mem_foldl_setProperty

theorem lastValue_mem {es : List (JsString × JsValue)} {key : JsString} {v : JsValue}
    (h : lastValue es key = some v) : (key, v) ∈ es := by
  obtain ⟨e, he, rfl⟩ := Option.map_eq_some_iff.1 h
  have hkey := List.find?_some he
  rw [decide_eq_true_eq] at hkey
  subst hkey
  exact List.mem_reverse.1 (List.mem_of_find?_eq_some he)

theorem parseValue_cases (o : Option JsString) :
    parseValue o = .undefined ∨ (∃ n, parseValue o = .num n) ∨ ∃ s, parseValue o = .str s := by
  cases o with
  | none => exact .inl rfl
  | some s =>
    rw [parseValue_some]
    split_ifs
    · exact .inr (.inl ⟨_, rfl⟩)
    · exact .inr (.inr ⟨_, rfl⟩)

theorem entries_value {s : JsString} {sep1 sep2 : UInt16} {e : JsString × JsValue}
    (h : e ∈ entries s sep1 sep2) :
    e.2 = .undefined ∨ (∃ n, e.2 = .num n) ∨ ∃ s, e.2 = .str s := by
  obtain ⟨kv, -, rfl⟩ := List.mem_map.1 h
  exact parseValue_cases _

/-! ### What throws -/

theorem mapM_isSome {α β : Type} {f : α → Option β} {xs : List α} :
    (xs.mapM f).isSome = true ↔ ∀ x ∈ xs, (f x).isSome = true := by
  induction xs with
  | nil => exact ⟨fun _ => nofun, fun _ => rfl⟩
  | cons x xs ih =>
    rw [List.forall_mem_cons, ← ih, List.mapM_cons]
    cases f x with
    | none => exact ⟨nofun, fun h => nomatch h.1⟩
    | some y =>
      cases xs.mapM f with
      | none => exact ⟨nofun, fun h => nomatch h.2⟩
      | some ys => exact ⟨fun _ => ⟨rfl, rfl⟩, fun _ => rfl⟩

theorem splitString_splitBins {v : JsValue} : (splitString v .splitBins).isSome = v.isString := by
  cases v <;> rfl

/-- What was split into a list of texts can be split further. -/
theorem splitLevel_texts (xs : List JsString) (c1 c2 : UInt16) :
    (splitLevel (.pair c1 c2) (.array (xs.map .str))).isSome = true := by
  rw [splitLevel, Option.isSome_map, mapM_isSome]
  intro x hx
  obtain ⟨s, -, rfl⟩ := List.mem_map.1 hx
  rfl

theorem deepSplitString_str (row : Option Row) (s : JsString) :
    (deepSplitString (.str s) (separatorsOf row)).isSome = true ↔
      (row = some .bins → ∀ p ∈ parseKeyValue s SEMICOLON COLON, p.2.isString = true) := by
  have hlists : ∀ c c1 c2, (deepSplitString (.str s) [.char c, .pair c1 c2]).isSome = true := by
    intro c c1 c2
    have hsome := splitLevel_texts (splitList s c) c1 c2
    obtain ⟨output, houtput⟩ := Option.isSome_iff_exists.1 hsome
    change ((splitLevel (.pair c1 c2) (.array ((splitList s c).map .str))).bind some).isSome = true
    rw [houtput]
    rfl
  cases row with
  | none => exact ⟨fun _ => nofun, fun _ => rfl⟩
  | some row =>
    cases row with
    | bins =>
      change ((((parseKeyValue s SEMICOLON COLON).mapM fun p =>
        (splitString p.2 .splitBins).map fun v => (p.1, v)).map JsValue.plain).bind some).isSome = true ↔ _
      rw [Option.bind_fun_some, Option.isSome_map, mapM_isSome]
      constructor
      · intro h _ p hp
        have := h p hp
        rw [Option.isSome_map, splitString_splitBins] at this
        exact this
      · intro h p hp
        rw [Option.isSome_map, splitString_splitBins]
        exact h rfl p hp
    | sindex | sindexOf | udfList | getDcConfig | sets | setsOf =>
      exact ⟨fun _ => nofun, fun _ => hlists _ _ _⟩
    | binsOf | namespaceOf | service | sindexOfOf | setsOfOf => exact ⟨fun _ => nofun, fun _ => rfl⟩

theorem deepSplitString_other {v : JsValue} (hv : v = .undefined ∨ ∃ n, v = .num n) (seps : List Separator) :
    deepSplitString v seps = some v := by
  induction seps with
  | nil => rfl
  | cons sep seps ih =>
    rcases hv with rfl | ⟨n, rfl⟩
    · rfl
    · exact ih

section
variable {minimatch : JsString → Row → Bool}

theorem parse_isSome {info : JsString} : (parse minimatch info).isSome = true ↔
    ∀ p ∈ parseKeyValue info NEWLINE TAB, (deepSplitString p.2 (getSeparators minimatch p.1)).isSome = true := by
  rw [parse]
  split_ifs with h
  · subst h
    refine ⟨fun _ p hp => ?_, fun _ => rfl⟩
    exact nomatch (mem_parseKeyValue.1 hp).2
  · rw [Option.isSome_map, mapM_isSome]
    refine forall₂_congr fun p _ => ?_
    rw [Option.isSome_map]

/-- The value of a `bins` key has an entry that is kept and has no colon, or a number after it. -/
def HasBareBins (minimatch : JsString → Row → Bool) (info : JsString) : Prop :=
  ∃ key text, key ≠ PROTO ∧ lastValue (entries info NEWLINE TAB) key = some (.str text) ∧
    rowOf minimatch key = some .bins ∧
    ∃ ns v, ns ≠ PROTO ∧ lastValue (entries text SEMICOLON COLON) ns = some v ∧ v.isString = false

/-- `parse` throws on exactly the responses with such an entry. -/
theorem parse_returns_iff (minimatch : JsString → Row → Bool) (info : JsString) :
    (parse minimatch info).isSome = true ↔ ¬HasBareBins minimatch info := by
  rw [parse_isSome]
  constructor
  · rintro h ⟨key, text, hkey, hlast, hrow, ns, v, hns, hv, hbare⟩
    have hsplit := h (key, .str text) (mem_parseKeyValue.2 ⟨hkey, hlast⟩)
    have hstr := (deepSplitString_str _ _).1 hsplit hrow (ns, v) (mem_parseKeyValue.2 ⟨hns, hv⟩)
    rw [hbare] at hstr
    cases hstr
  · rintro h ⟨key, v⟩ hp
    obtain ⟨hkey, hlast⟩ := mem_parseKeyValue.1 hp
    rcases entries_value (lastValue_mem hlast) with hv | hv | ⟨text, htext⟩
    · rw [deepSplitString_other (.inl hv)]
      rfl
    · rw [deepSplitString_other (.inr hv)]
      rfl
    · change v = .str text at htext
      subst htext
      refine (deepSplitString_str _ _).2 fun hrow q hq => ?_
      obtain ⟨hns, hq⟩ := mem_parseKeyValue.1 hq
      by_contra hbare
      exact h ⟨key, text, hkey, hlast, hrow, q.1, q.2, hns, hq, (Bool.not_eq_true _).mp hbare⟩

/-- A node without bins. -/
theorem bins_without_names_throws :
    parse (fun key row => key = JsString.lit "bins" && row = .bins) (JsString.lit "bins\ttest") = none := by
  decide +kernel

end

/-! ### Properties of what is parsed -/

section
variable {minimatch : JsString → Row → Bool} {s key : JsString} {sep1 sep2 : UInt16}

end

end AerospikeNode.Info
