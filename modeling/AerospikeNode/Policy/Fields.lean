import AerospikeNode.Lib.Fields
import AerospikeNode.Native.Numbers

/-!
# Policies

The classes of `lib/policies`, which keep some properties of the object they are made of, and the
`*_from_jsobject` functions of `src/main/policy.cc`, which read a policy object into a structure of the C
client. A function starts from the C client's defaults and reads one property after the other.

`fromJsobject_construct`: making a policy object of a plain one changes nothing for the C client, except
that `QueryPolicy` drops `shortQuery`.
-/

namespace AerospikeNode

/-- The fields of the policy structures. Each has one JavaScript property. -/
inductive PolicyField where
  | socketTimeout | totalTimeout | maxRetries | filterExpression | compress | txn
  | key | replica | readModeAP | readModeSC | readTouchTtlPercent | deserialize
  | commitLevel | gen | «exists» | compressionThreshold | durableDelete | onLockingOnly | ttl | generation
  | concurrent | allowInline | allowInlineSSD | respondAllKeys | sendSetName
  | infoTimeout | failOnClusterChange | shortQuery | expectedDuration | maxRecords | recordsPerSecond
  | timeout | sendAsIs | checkBounds | maxCommandsInProcess | maxCommandsInQueue | queueInitialCapacity
deriving DecidableEq

namespace PolicyField

def name : PolicyField → String
  | socketTimeout => "socketTimeout"
  | totalTimeout => "totalTimeout"
  | maxRetries => "maxRetries"
  | filterExpression => "filterExpression"
  | compress => "compress"
  | txn => "txn"
  | key => "key"
  | replica => "replica"
  | readModeAP => "readModeAP"
  | readModeSC => "readModeSC"
  | readTouchTtlPercent => "readTouchTtlPercent"
  | deserialize => "deserialize"
  | commitLevel => "commitLevel"
  | gen => "gen"
  | «exists» => "exists"
  | compressionThreshold => "compressionThreshold"
  | durableDelete => "durableDelete"
  | onLockingOnly => "onLockingOnly"
  | ttl => "ttl"
  | generation => "generation"
  | concurrent => "concurrent"
  | allowInline => "allowInline"
  | allowInlineSSD => "allowInlineSSD"
  | respondAllKeys => "respondAllKeys"
  | sendSetName => "sendSetName"
  | infoTimeout => "infoTimeout"
  | failOnClusterChange => "failOnClusterChange"
  | shortQuery => "shortQuery"
  | expectedDuration => "expectedDuration"
  | maxRecords => "maxRecords"
  | recordsPerSecond => "recordsPerSecond"
  | timeout => "timeout"
  | sendAsIs => "sendAsIs"
  | checkBounds => "checkBounds"
  | maxCommandsInProcess => "maxCommandsInProcess"
  | maxCommandsInQueue => "maxCommandsInQueue"
  | queueInitialCapacity => "queueInitialCapacity"

/-- The field of a name. -/
def ofName : String → Option PolicyField
  | "socketTimeout" => some .socketTimeout
  | "totalTimeout" => some .totalTimeout
  | "maxRetries" => some .maxRetries
  | "filterExpression" => some .filterExpression
  | "compress" => some .compress
  | "txn" => some .txn
  | "key" => some .key
  | "replica" => some .replica
  | "readModeAP" => some .readModeAP
  | "readModeSC" => some .readModeSC
  | "readTouchTtlPercent" => some .readTouchTtlPercent
  | "deserialize" => some .deserialize
  | "commitLevel" => some .commitLevel
  | "gen" => some .gen
  | "exists" => some .«exists»
  | "compressionThreshold" => some .compressionThreshold
  | "durableDelete" => some .durableDelete
  | "onLockingOnly" => some .onLockingOnly
  | "ttl" => some .ttl
  | "generation" => some .generation
  | "concurrent" => some .concurrent
  | "allowInline" => some .allowInline
  | "allowInlineSSD" => some .allowInlineSSD
  | "respondAllKeys" => some .respondAllKeys
  | "sendSetName" => some .sendSetName
  | "infoTimeout" => some .infoTimeout
  | "failOnClusterChange" => some .failOnClusterChange
  | "shortQuery" => some .shortQuery
  | "expectedDuration" => some .expectedDuration
  | "maxRecords" => some .maxRecords
  | "recordsPerSecond" => some .recordsPerSecond
  | "timeout" => some .timeout
  | "sendAsIs" => some .sendAsIs
  | "checkBounds" => some .checkBounds
  | "maxCommandsInProcess" => some .maxCommandsInProcess
  | "maxCommandsInQueue" => some .maxCommandsInQueue
  | "queueInitialCapacity" => some .queueInitialCapacity
  | _ => none

end PolicyField

/-- The policies that both have a class and a function that reads them. -/
inductive PolicyClass where
  | base | apply | batch | batchApply | batchRead | batchRemove | batchWrite | operate | query | read | remove
  | scan | write | commandQueue | info | admin
deriving DecidableEq

/-- What a field holds: the bits of a number, a flag, a compiled filter or a transaction. -/
inductive FieldValue (E T : Type) where
  | bits (n : ℕ)
  | flag (b : Bool)
  | filter (e : Option E)
  | txn (t : T)

/-- What reading a policy rests on: `compile_expression`, and the transaction inside its JavaScript object. -/
structure PolicyEnv (E T : Type) where
  compile : List JsValue → Res (Option E)
  transaction : JsValue → Option T

/-- The ways a property is read. The batch policies take a filter that is no array for none. -/
inductive PolicyReader where
  | number (r : FieldReader)
  | bool
  | filter (strict : Bool)
  | txn
deriving DecidableEq

namespace PolicyReader
variable {E T : Type}

/-- `get_optional_transaction_property`: a value that is no object is not looked at. -/
def readTransaction (env : PolicyEnv E T) (wrapper : JsValue) : Res (Option T) :=
  if wrapper.isObject then
    match env.transaction (wrapper.field "transaction") with
    | some t => .ok (some t)
    | none => if (wrapper.field "transaction").isNullish then .ok none else .error .paramErr
  else .ok none

def read (env : PolicyEnv E T) : PolicyReader → JsValue → Res (Option (FieldValue E T))
  | number r, v => (r.read v).map (Option.map fun b => .bits b.toNat)
  | bool, v => v.optionalBoolProperty.map (Option.map .flag)
  | filter _, .array xs => (env.compile xs).map fun e => some (.filter e)
  | filter strict, v => if v.isNullish || !strict then .ok none else .error .paramErr
  | txn, v => (readTransaction env v).map (Option.map .txn)

end PolicyReader

/-! ### The functions that read a policy -/

namespace PolicyReader

def uint32 : PolicyReader := number .optionalUint32
def int : PolicyReader := number .optionalInt
def int32 : PolicyReader := number .optionalInt32
def uint16 : PolicyReader := number .optionalUint16

/-- The ways that the policies are read in. -/
def all : List PolicyReader := [uint32, int, int32, uint16, bool, filter true, filter false, txn]

end PolicyReader

section Tables
open PolicyField PolicyReader

abbrev PolicyTable := List (PolicyField × PolicyReader)

/-- `eventpolicy_from_jsobject` -/
def eventpolicy : PolicyTable :=
  [(maxCommandsInProcess, int32), (maxCommandsInQueue, uint32), (queueInitialCapacity, uint32)]

/-- `basepolicy_from_jsobject` -/
def basepolicy : PolicyTable :=
  [(socketTimeout, uint32), (totalTimeout, uint32), (maxRetries, uint32), (filterExpression, filter true),
    (compress, bool), (txn, .txn)]

/-- `readpolicy_from_jsobject` -/
def readpolicy : PolicyTable :=
  basepolicy ++ [(key, uint32), (replica, uint32), (readModeAP, uint32), (readModeSC, uint32),
    (readTouchTtlPercent, int), (deserialize, bool)]

/-- `writepolicy_from_jsobject` -/
def writepolicy : PolicyTable :=
  basepolicy ++ [(key, uint32), (replica, uint32), (commitLevel, uint32), (gen, uint32), («exists», uint32),
    (compressionThreshold, uint32), (durableDelete, bool), (onLockingOnly, bool)]

/-- `applypolicy_from_jsobject` -/
def applypolicy : PolicyTable :=
  basepolicy ++ [(key, uint32), (replica, uint32), (commitLevel, uint32), (ttl, uint32), (durableDelete, bool),
    (onLockingOnly, bool)]

/-- `operatepolicy_from_jsobject` -/
def operatepolicy : PolicyTable :=
  basepolicy ++ [(key, uint32), (replica, uint32), (readModeAP, uint32), (readModeSC, uint32),
    (readTouchTtlPercent, int), (commitLevel, uint32), (gen, uint32), («exists», uint32), (deserialize, bool),
    (durableDelete, bool)]

/-- `removepolicy_from_jsobject` -/
def removepolicy : PolicyTable :=
  basepolicy ++ [(key, uint32), (replica, uint32), (commitLevel, uint32), (gen, uint32), (generation, uint16),
    (durableDelete, bool)]

/-- `batchpolicy_from_jsobject` -/
def batchpolicy : PolicyTable :=
  basepolicy ++ [(replica, uint32), (readModeAP, uint32), (readModeSC, uint32), (readTouchTtlPercent, int),
    (concurrent, bool), (allowInline, bool), (allowInlineSSD, bool), (respondAllKeys, bool), (sendSetName, bool),
    (deserialize, bool)]

/-- `batchread_policy_from_jsobject` -/
def batchreadPolicy : PolicyTable :=
  [(filterExpression, filter false), (readModeAP, uint32), (readModeSC, uint32), (readTouchTtlPercent, int)]

/-- `batchwrite_policy_from_jsobject`, which reads `ttl` twice. -/
def batchwritePolicy : PolicyTable :=
  [(filterExpression, filter false), (key, uint32), (commitLevel, uint32), (ttl, uint32), (gen, uint32),
    («exists», uint32), (ttl, uint32), (durableDelete, bool), (onLockingOnly, bool)]

/-- `batchapply_policy_from_jsobject` -/
def batchapplyPolicy : PolicyTable :=
  [(filterExpression, filter false), (key, uint32), (commitLevel, uint32), (ttl, uint32), (durableDelete, bool),
    (onLockingOnly, bool)]

/-- `batchremove_policy_from_jsobject` -/
def batchremovePolicy : PolicyTable :=
  [(filterExpression, filter false), (key, uint32), (commitLevel, uint32), (gen, uint32), (generation, uint32),
    (durableDelete, bool)]

/-- `querypolicy_from_jsobject`, which reads two properties twice. -/
def querypolicy : PolicyTable :=
  basepolicy ++ [(replica, uint32), (infoTimeout, uint32), (failOnClusterChange, bool), (deserialize, bool),
    (shortQuery, bool), (expectedDuration, uint32), (failOnClusterChange, bool), (infoTimeout, uint32)]

/-- `scanpolicy_from_jsobject` -/
def scanpolicy : PolicyTable :=
  basepolicy ++ [(maxRecords, uint32), (recordsPerSecond, uint32), (durableDelete, bool), (replica, uint32)]

/-- `infopolicy_from_jsobject` -/
def infopolicy : PolicyTable := [(timeout, uint32), (sendAsIs, bool), (checkBounds, bool)]

/-- `adminpolicy_from_jsobject` -/
def adminpolicy : PolicyTable := [(timeout, uint32)]

end Tables

namespace PolicyClass
open PolicyField

def table : PolicyClass → PolicyTable
  | base => basepolicy
  | apply => applypolicy
  | batch => batchpolicy
  | batchApply => batchapplyPolicy
  | batchRead => batchreadPolicy
  | batchRemove => batchremovePolicy
  | batchWrite => batchwritePolicy
  | operate => operatepolicy
  | query => querypolicy
  | read => readpolicy
  | remove => removepolicy
  | scan => scanpolicy
  | write => writepolicy
  | commandQueue => eventpolicy
  | info => infopolicy
  | admin => adminpolicy

/-! ### The classes -/

/-- The name of the JavaScript class. -/
def ctor : PolicyClass → String
  | base => "BasePolicy"
  | apply => "ApplyPolicy"
  | batch => "BatchPolicy"
  | batchApply => "BatchApplyPolicy"
  | batchRead => "BatchReadPolicy"
  | batchRemove => "BatchRemovePolicy"
  | batchWrite => "BatchWritePolicy"
  | operate => "OperatePolicy"
  | query => "QueryPolicy"
  | read => "ReadPolicy"
  | remove => "RemovePolicy"
  | scan => "ScanPolicy"
  | write => "WritePolicy"
  | commandQueue => "CommandQueuePolicy"
  | info => "InfoPolicy"
  | admin => "AdminPolicy"

/-- What the constructor of `BasePolicy` keeps. -/
def baseKeeps : List PolicyField := [socketTimeout, totalTimeout, maxRetries, filterExpression, compress, txn]

/-- The properties that the constructor copies from its argument. -/
def keeps : PolicyClass → List PolicyField
  | base => baseKeeps
  | apply => baseKeeps ++ [replica, key, commitLevel, ttl, durableDelete, onLockingOnly]
  | batch =>
    baseKeeps ++ [replica, readModeAP, readModeSC, readTouchTtlPercent, concurrent, allowInline, allowInlineSSD,
      respondAllKeys, sendSetName, deserialize]
  | batchApply => [filterExpression, key, commitLevel, ttl, durableDelete, onLockingOnly]
  | batchRead => [filterExpression, readModeAP, readModeSC, readTouchTtlPercent]
  | batchRemove => [filterExpression, key, commitLevel, gen, generation, durableDelete]
  | batchWrite => [filterExpression, ttl, key, commitLevel, gen, «exists», durableDelete, onLockingOnly]
  | operate =>
    baseKeeps ++ [key, gen, «exists», replica, commitLevel, deserialize, durableDelete, readModeAP, readModeSC,
      readTouchTtlPercent]
  | query => baseKeeps ++ [replica, deserialize, failOnClusterChange, infoTimeout, expectedDuration]
  | read => baseKeeps ++ [key, replica, readModeAP, readModeSC, readTouchTtlPercent, deserialize]
  | remove => baseKeeps ++ [replica, generation, key, gen, commitLevel, durableDelete]
  | scan => baseKeeps ++ [replica, durableDelete, recordsPerSecond, maxRecords]
  | write =>
    baseKeeps ++ [replica, compressionThreshold, key, gen, «exists», commitLevel, durableDelete, onLockingOnly]
  | commandQueue => [maxCommandsInProcess, maxCommandsInQueue, queueInitialCapacity]
  | info => [timeout, sendAsIs, checkBounds]
  | admin => [timeout]

/-- `new Klass(props)` -/
def construct (cls : PolicyClass) (props : JsValue) : JsValue :=
  .obj ⟨JsString.lit cls.ctor, none⟩ (cls.keeps.map fun f => (JsString.lit f.name, props.field f.name))

variable {E T : Type} (env : PolicyEnv E T)

/-- The structure of the C client. -/
abbrev Values (E T : Type) := PolicyField → FieldValue E T

/-- A row of a table, as it reads a policy object. -/
def row (r : PolicyField × PolicyReader) : FieldRow JsValue PolicyField (FieldValue E T) Fail :=
  ⟨r.1, fun obj => r.2.read env (obj.field r.1.name)⟩

/-- The function that reads a policy: the structure, which `as_policy_*_init` has initialised, and whether
it returns OK. -/
def fromJsobject (cls : PolicyClass) (init : Values E T) (obj : JsValue) : Values E T × Res Unit :=
  FieldRow.fill (cls.table.map (row env)) obj init

/-- A property of a policy object is read in one way. -/
theorem table_consistent (cls : PolicyClass) : ∀ r ∈ cls.table, ∀ r' ∈ cls.table, r.1 = r'.1 → r.2 = r'.2 := by
  cases cls <;> decide

theorem row_consistent (cls : PolicyClass) : FieldRow.Consistent (cls.table.map (row env)) := by
  intro r hr r' hr' h
  obtain ⟨a, ha, rfl⟩ := List.mem_map.mp hr
  obtain ⟨a', ha', rfl⟩ := List.mem_map.mp hr'
  have hreader := cls.table_consistent a ha a' ha' h
  have hfield : a.1 = a'.1 := h
  simp only [row, hreader, hfield]

/-! ### Objects of the classes -/

theorem name_injective : Function.Injective PolicyField.name := by
  intro f f' h
  have hleft : ∀ f : PolicyField, PolicyField.ofName f.name = some f := fun f => by cases f <;> rfl
  rw [← Option.some_inj, ← hleft f, ← hleft f', h]

/-- A property of a constructed policy: what its argument has, if the class keeps it. -/
theorem field_construct (cls : PolicyClass) (props : JsValue) (f : PolicyField) :
    (cls.construct props).field f.name = if f ∈ cls.keeps then props.field f.name else .undefined := by
  show Props.get (cls.keeps.map fun f => (JsString.lit f.name, props.field f.name)) (JsString.lit f.name) = _
  induction cls.keeps with
  | nil => rfl
  | cons g fs ih =>
    rw [List.map_cons]
    by_cases h : g = f
    · subst h
      simp
    · have hne : JsString.lit g.name ≠ JsString.lit f.name := fun heq => h (name_injective (JsString.lit_inj.mp heq))
      rw [Props.get_cons_ne hne, ih]
      have : f ≠ g := Ne.symm h
      simp [this]

/-- Each class keeps what its function reads, except that `QueryPolicy` has no `shortQuery`. -/
theorem mem_keeps (cls : PolicyClass) : ∀ r ∈ cls.table, r.1 ∈ cls.keeps ∨ cls = .query ∧ r = (.shortQuery, .bool) := by
  cases cls <;> decide

/-- For the C client a policy object is the plain object it was made of, except for `shortQuery`, which it does not
have. -/
theorem fromJsobject_construct (cls : PolicyClass) (init : Values E T) (props : JsValue) :
    cls.fromJsobject env init (cls.construct props) =
      FieldRow.fill ((cls.table.filter fun r => r.1 ≠ .shortQuery).map (row env)) props init := by
  have hdropped : ∀ r ∈ cls.table.map (row env), decide (r.field ≠ .shortQuery) = false →
      r.read (cls.construct props) = .ok none := by
    intro r hr hf
    obtain ⟨q, hq, rfl⟩ := List.mem_map.mp hr
    have hshort : q.1 = .shortQuery := not_not.mp (of_decide_eq_false hf)
    have hreader : q.2 = .bool ∧ PolicyField.shortQuery ∉ cls.keeps := by
      have : ∀ cls : PolicyClass, ∀ q ∈ cls.table, q.1 = .shortQuery →
          q.2 = .bool ∧ PolicyField.shortQuery ∉ cls.keeps := by
        intro cls
        cases cls <;> decide
      exact this cls q hq hshort
    show q.2.read env ((cls.construct props).field q.1.name) = .ok none
    rw [hshort, field_construct, if_neg hreader.2, hreader.1]
    rfl
  rw [fromJsobject, FieldRow.fill_filter hdropped, List.filter_map]
  refine FieldRow.fill_congr (List.forall₂_map_left_iff.mpr (List.forall₂_map_right_iff.mpr ?_))
  refine List.forall₂_same.mpr fun r hr => ⟨rfl, ?_⟩
  obtain ⟨hmem, hne⟩ := List.mem_filter.mp hr
  have hshort : r.1 ≠ .shortQuery := of_decide_eq_true hne
  have hkeeps : r.1 ∈ cls.keeps := by
    rcases cls.mem_keeps r hmem with h | ⟨-, rfl⟩
    · exact h
    · exact absurd rfl hshort
  show r.2.read env ((cls.construct props).field r.1.name) = r.2.read env (props.field r.1.name)
  rw [cls.field_construct, if_pos hkeeps]

/-- All that a table reads may be left out. -/
theorem table_readers (cls : PolicyClass) : ∀ r ∈ cls.table, r.2 ∈ PolicyReader.all := by
  cases cls <;> decide

end PolicyClass

/-! ### What a property gives -/

namespace PolicyReader
variable {E T : Type} (env : PolicyEnv E T) {r : PolicyReader} {f : PolicyField} {v : JsValue} {d : FieldValue E T}

/-- The integer is one of the type that is read; a TTL may also be one of the constants `NEVER_EXPIRE`,
`DONT_UPDATE` and `CLIENT_DEFAULT`. -/
def Ranges (f : PolicyField) (t : IntType) (i : ℤ) : Prop := t.min ≤ i ∧ i ≤ t.max ∨ f = .ttl ∧ -3 ≤ i ∧ i ≤ -1

/-- The field is the value that is given. -/
def Says (f : PolicyField) (v : JsValue) (x : FieldValue E T) : PolicyReader → Prop
  | number r => ∃ n i, v = .num n ∧ n.Is i ∧ Ranges f r.type i ∧ x = .bits (BitVec.ofInt r.type.bits i).toNat
  | bool => ∃ b, v = .bool b ∧ x = .flag b
  | filter _ => ∃ xs e, v = .array xs ∧ env.compile xs = .ok (some e) ∧ x = .filter (some e)
  | txn => ∃ t, v.isObject = true ∧ env.transaction (v.field "transaction") = some t ∧ x = .txn t

/-- The values that a field can be. -/
def Fits (f : PolicyField) (v : JsValue) : PolicyReader → Prop
  | number r => ∃ n i, v = .num n ∧ n.Is i ∧ Ranges f r.type i
  | bool => ∃ b, v = .bool b
  | filter _ => ∃ xs e, v = .array xs ∧ env.compile xs = .ok (some e)
  | txn => v.isObject = true ∧ (env.transaction (v.field "transaction")).isSome = true

variable {env}

theorem read_nullish (hr : r ∈ all) (hv : v.isNullish = true) : r.read env v = .ok none := by
  have hcases : v = .undefined ∨ v = .null := by
    cases v with
    | undefined => exact .inl rfl
    | null => exact .inr rfl
    | _ => cases hv
  simp only [all, List.mem_cons, List.not_mem_nil, or_false] at hr
  rcases hr with rfl | rfl | rfl | rfl | rfl | rfl | rfl | rfl
  all_goals
    rcases hcases with rfl | rfl
    · rfl
    · rfl

/-- The numbers of the policies have 32 bits at most. -/
theorem bits_ne {r : FieldReader} (hr : number r ∈ all) : r.type.bits ≠ 64 := by
  cases r <;> revert hr <;> decide

/-- A property that is given is read as what it gives if it fits. -/
theorem read_says (hr : r ∈ all) :
    (∃ y, r.read env v = .ok y ∧ r.Says env f v (y.getD d)) ↔ r.Fits env f v := by
  cases r with
  | number r =>
    constructor
    · rintro ⟨y, -, n, i, hn, hi, hrange, -⟩
      exact ⟨n, i, hn, hi, hrange⟩
    · rintro ⟨n, i, rfl, hi, hrange⟩
      refine ⟨some (.bits (BitVec.ofInt r.type.bits i).toNat), ?_, n, i, rfl, hi, hrange, rfl⟩
      rw [read, FieldReader.read_num, FieldReader.source_of_is hi, if_neg (bits_ne hr)]
      rfl
  | bool =>
    constructor
    · rintro ⟨y, -, b, hb, -⟩
      exact ⟨b, hb⟩
    · rintro ⟨b, rfl⟩
      exact ⟨some (.flag b), rfl, b, rfl, rfl⟩
  | filter strict =>
    constructor
    · rintro ⟨y, -, xs, e, hxs, he, -⟩
      exact ⟨xs, e, hxs, he⟩
    · rintro ⟨xs, e, rfl, he⟩
      exact ⟨some (.filter (some e)), by rw [read, he]; rfl, xs, e, rfl, he, rfl⟩
  | txn =>
    constructor
    · rintro ⟨y, -, t, hobject, ht, -⟩
      exact ⟨hobject, by rw [ht]; rfl⟩
    · rintro ⟨hobject, hsome⟩
      obtain ⟨t, ht⟩ := Option.isSome_iff_exists.mp hsome
      exact ⟨some (.txn t), by rw [read, readTransaction, if_pos hobject, ht]; rfl, t, hobject, ht, rfl⟩

end PolicyReader

end AerospikeNode
