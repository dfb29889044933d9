import AerospikeNode.Policy.Fields

/-!
# Default policies

`createPolicy` of `lib/policy.js` and `setDefaultPolicies` of `lib/config.js`, which make policy objects of
the `policies` of a configuration, and the part of `config_from_jsobject` (`src/main/config.cc`) that reads
them into the configuration of the C client. A command hands the C client its own policy, read from the
object it was given, or a null pointer, for which the C client takes the one of its configuration.

`effective_eq`: what is in effect for a command. `effective_documented_iff`: `config.js` says that a value
the command's policy leaves out is that of the default policy; it is the C client's own default, so this
holds only where no default policy gives the value another one.
-/

namespace AerospikeNode

open PolicyClass

/-! ### The configuration object -/

/-- The classes that `policyClass` of `lib/policy.js` knows. -/
def policyTypes : List (String × PolicyClass) :=
  [("base", .base), ("apply", .apply), ("batch", .batch), ("operate", .operate), ("query", .query),
    ("read", .read), ("remove", .remove), ("scan", .scan), ("write", .write), ("batchRead", .batchRead),
    ("batchRemove", .batchRemove), ("batchWrite", .batchWrite), ("batchParentWrite", .batch), ("txnRoll", .batch),
    ("txnVerify", .batch), ("batchApply", .batchApply), ("commandQueue", .commandQueue), ("info", .info),
    ("admin", .admin)]

/-- The other classes it knows, of operations, with what their constructors keep. -/
def operationPolicyTypes : List (String × String × List String) :=
  [("hll", "HLLPolicy", ["writeFlags"]), ("list", "ListPolicy", ["order", "writeFlags"]),
    ("map", "MapPolicy", ["order", "writeMode", "writeFlags"])]

/-- The classes derived from another one. -/
def PolicyClass.derived : PolicyClass → List PolicyClass
  | base => [base, apply, batch, operate, query, read, remove, scan, write]
  | cls => [cls]

/-- `values instanceof Klass` -/
def PolicyClass.isInstance (cls : PolicyClass) : JsValue → Bool
  | .obj c _ => cls.derived.any fun d => c.ctor == JsString.lit d.ctor
  | _ => false

/-- The same of a class of operations. -/
def operationInstance (ctor : String) : JsValue → Bool
  | .obj c _ => c.ctor == JsString.lit ctor
  | _ => false

/-- `createPolicy`; `none` if it throws. -/
def createPolicy (type : JsString) (values : JsValue) : Option JsValue :=
  if values.isNullish then some .undefined
  else match policyTypes.find? fun t => JsString.lit t.1 == type with
    | some (_, cls) => some (if cls.isInstance values then values else cls.construct values)
    | none => match operationPolicyTypes.find? fun t => JsString.lit t.1 == type with
      | some (_, ctor, keeps) =>
        some (if operationInstance ctor values then values
          else .obj ⟨JsString.lit ctor, none⟩ (keeps.map fun f => (JsString.lit f, values.field f)))
      | none => none

/-- `setDefaultPolicies`; `none` if it throws. -/
def setDefaultPolicies (policies : Props) : Option Props :=
  policies.mapM fun p => (createPolicy p.1 p.2).map fun v => (p.1, v)

/-! ### The configuration of the C client -/

/-- The policies of `as_policies` that `config_from_jsobject` reads, in its order. -/
inductive PolicySlot where
  | apply | batch | batchWrite | batchParentWrite | txnRoll | txnVerify | info | operate | read | remove | scan
  | query | write
deriving DecidableEq

namespace PolicySlot

def all : List PolicySlot :=
  [apply, batch, batchWrite, batchParentWrite, txnRoll, txnVerify, info, operate, read, remove, scan, query, write]

def name : PolicySlot → String
  | apply => "apply"
  | batch => "batch"
  | batchWrite => "batchWrite"
  | batchParentWrite => "batchParentWrite"
  | txnRoll => "txnRoll"
  | txnVerify => "txnVerify"
  | info => "info"
  | operate => "operate"
  | read => "read"
  | remove => "remove"
  | scan => "scan"
  | query => "query"
  | write => "write"

/-- Which function reads the policy. -/
def cls : PolicySlot → PolicyClass
  | apply => .apply
  | batch | batchParentWrite | txnRoll | txnVerify => .batch
  | batchWrite => .batchWrite
  | info => .info
  | operate => .operate
  | read => .read
  | remove => .remove
  | scan => .scan
  | query => .query
  | write => .write

variable {E T : Type} (env : PolicyEnv E T)

/-- A policy read from a value, if that is an object. -/
def readPolicy (cls : PolicyClass) (init : PolicyClass → Values E T) (v : JsValue) : Res (Option (Values E T)) :=
  if v.isObject then
    match cls.fromJsobject env (init cls) v with
    | (s, .ok ()) => .ok (some s)
    | (_, .error e) => .error e
  else .ok none

/-- The rows of `config_from_jsobject`. -/
def rows (init : PolicyClass → Values E T) : List (FieldRow JsValue PolicySlot (Values E T) Fail) :=
  all.map fun slot => ⟨slot, fun policies => readPolicy env slot.cls init (policies.field slot.name)⟩

/-- The policies part of `config_from_jsobject`. `as_config_init` has put other defaults into some policies than
the function that reads them starts from. -/
def configPolicies (init : PolicyClass → Values E T) (config : PolicySlot → Values E T) (policies : JsValue) :
    (PolicySlot → Values E T) × Res Unit :=
  FieldRow.fill (rows env init) policies config

/-- The policy in effect for a command with the policy `call`, on a client with these defaults. -/
def effective (slot : PolicySlot) (init : PolicyClass → Values E T) (config : PolicySlot → Values E T)
    (call : JsValue) : Res (Values E T) :=
  (readPolicy env slot.cls init call).map fun s => s.getD (config slot)

end PolicySlot

/-! ### The policy in effect -/

section Effective
variable {E T : Type} {env : PolicyEnv E T} {init : PolicyClass → Values E T} {config : PolicySlot → Values E T}
  {slot : PolicySlot} {cls : PolicyClass}

/-- The value that a policy object gives to a field, if it does. -/
def PolicyClass.given (env : PolicyEnv E T) (cls : PolicyClass) (v : JsValue) (f : PolicyField) :
    Option (FieldValue E T) :=
  FieldRow.found (cls.table.map (row env)) v f

/-- A policy that is accepted holds what its object gives, and the C client's defaults. -/
theorem readPolicy_object {v : JsValue} {s : Values E T} (h : PolicySlot.readPolicy env cls init v = .ok (some s)) :
    v.isObject = true ∧ ∀ f, s f = (cls.given env v f).getD (init cls f) := by
  unfold PolicySlot.readPolicy at h
  by_cases hv : v.isObject = true
  · rw [if_pos hv] at h
    refine ⟨hv, fun f => ?_⟩
    have hval : (cls.fromJsobject env (init cls) v).2 = .ok () →
        (cls.fromJsobject env (init cls) v).1 f = (cls.given env v f).getD (init cls f) := fun hok =>
      FieldRow.fill_ok (cls.row_consistent env) (FieldRow.fill_accepted.mp hok) f
    rcases hfill : cls.fromJsobject env (init cls) v with ⟨s', e | u⟩
    · rw [hfill] at h
      cases h
    · rw [hfill] at h hval
      obtain rfl : s' = s := Option.some.inj (Except.ok.inj h)
      exact hval rfl
  · rw [if_neg hv] at h
    cases h

theorem readPolicy_none {v : JsValue} (h : PolicySlot.readPolicy env cls init v = .ok none) : v.isObject = false := by
  unfold PolicySlot.readPolicy at h
  by_cases hv : v.isObject = true
  · rw [if_pos hv] at h
    rcases hfill : cls.fromJsobject env (init cls) v with ⟨s', e | u⟩
    · rw [hfill] at h
      cases h
    · rw [hfill] at h
      cases h
  · exact eq_false_of_ne_true hv

/-- A value without properties gives nothing. -/
theorem given_nothing {v : JsValue} (h : ∀ f : PolicyField, v.field f.name = .undefined) (f : PolicyField) :
    cls.given env v f = none := by
  have hread : ∀ r : PolicyReader, (r.read env .undefined).toOption.join = none := by
    intro r
    cases r with
    | number r => cases r <;> rfl
    | bool => rfl
    | filter strict =>
      cases strict with
      | true => rfl
      | false => rfl
    | txn => rfl
  rw [PolicyClass.given, FieldRow.found, Option.bind_eq_none_iff]
  intro r hr
  obtain ⟨q, -, rfl⟩ := List.mem_map.mp (List.mem_of_find?_eq_some hr)
  show (q.2.read env (v.field q.1.name)).toOption.join = none
  rw [h, hread]

theorem field_of_not_object {v : JsValue} (h : v.isObject = false) (name : String) : v.field name = .undefined := by
  cases v with
  | buffer bs => cases h
  | array xs => cases h
  | map es => cases h
  | obj cls ps => cases h
  | _ => rfl

/-- Neither `undefined` nor `null` is an object. -/
theorem isObject_of_isNullish {v : JsValue} (h : v.isNullish = true) : v.isObject = false := by
  cases v with
  | undefined => rfl
  | null => rfl
  | _ => cases h

/-- What the default policies of a configuration give to a field. -/
def PolicySlot.defaultGiven (env : PolicyEnv E T) (slot : PolicySlot) (policies : Props) (f : PolicyField) :
    Option (FieldValue E T) :=
  let values := Props.get policies (JsString.lit slot.name)
  slot.cls.given env (if slot.cls.isInstance values then values else slot.cls.construct values) f

/-- A default policy as `setDefaultPolicies` leaves it. -/
theorem get_setDefaultPolicies {policies made : Props} (h : setDefaultPolicies policies = some made) (type : JsString) :
    createPolicy type (Props.get policies type) = some (Props.get made type) := by
  unfold setDefaultPolicies at h
  induction policies generalizing made with
  | nil =>
    obtain rfl := Option.some.inj h
    rfl
  | cons p ps ih =>
    rw [List.mapM_cons] at h
    cases hp : createPolicy p.1 p.2 with
    | none =>
      rw [hp] at h
      cases h
    | some v =>
      cases hps : ps.mapM (fun p => (createPolicy p.1 p.2).map fun v => (p.1, v)) with
      | none =>
        rw [hp, hps] at h
        cases h
      | some made' =>
        rw [hp, hps] at h
        obtain rfl := Option.some.inj h
        by_cases hname : p.1 = type
        · subst hname
          rw [show Props.get (p :: ps) p.1 = p.2 from Props.get_cons_self, hp]
          exact congrArg some Props.get_cons_self.symm
        · rw [show Props.get (p :: ps) type = Props.get ps type from Props.get_cons_ne hname, ih hps]
          exact congrArg some (Props.get_cons_ne hname).symm

/-- The object that `createPolicy` makes for a policy of the C client. -/
theorem createPolicy_slot (slot : PolicySlot) {values : JsValue} (h : values.isNullish = false) :
    createPolicy (JsString.lit slot.name) values =
      some (if slot.cls.isInstance values then values else slot.cls.construct values) := by
  have htype : ∀ slot : PolicySlot,
      (policyTypes.find? fun t => JsString.lit t.1 == JsString.lit slot.name).map (·.2) = some slot.cls := by
    intro slot
    cases slot <;> rfl
  obtain ⟨t, ht, hcls⟩ := Option.map_eq_some_iff.mp (htype slot)
  rw [createPolicy, h, if_neg Bool.false_ne_true, ht, ← hcls]

theorem isObject_created (cls : PolicyClass) (values : JsValue) :
    (if cls.isInstance values then values else cls.construct values).isObject = true := by
  split_ifs with h
  · cases values with
    | obj c ps => rfl
    | _ => cases h
  · rfl

/-- What a default policy of these values has, and what its function reads: the values, but for a `shortQuery` that
is not on a policy object. -/
theorem field_created (values : JsValue) {r : PolicyField × PolicyReader} (hr : r ∈ cls.table) :
    (if cls.isInstance values then values else cls.construct values).field r.1.name =
      if r.1 = .shortQuery ∧ cls.isInstance values = false then .undefined else values.field r.1.name := by
  cases hinstance : cls.isInstance values with
  | true => simp
  | false =>
    rw [if_neg Bool.false_ne_true, cls.field_construct]
    have hshort : PolicyField.shortQuery ∉ cls.keeps := by cases cls <;> decide
    rcases cls.mem_keeps r hr with hkeeps | ⟨-, rfl⟩
    · have hne : r.1 ≠ .shortQuery := fun heq => hshort (heq ▸ hkeeps)
      simp [hkeeps, hne]
    · simp [hshort]

namespace PolicyClass

/-- A policy holds what the values give, and the C client's default in every field that they do not give. -/
structure Holds (env : PolicyEnv E T) (cls : PolicyClass) (init : Values E T) (values : JsValue) (s : Values E T) :
    Prop where
  given : ∀ r ∈ cls.table, (values.field r.1.name).isNullish = true ∧ s r.1 = init r.1 ∨
    r.2.Says env r.1 (values.field r.1.name) (s r.1)
  other : ∀ f, (∀ r ∈ cls.table, r.1 ≠ f) → s f = init f

/-- Every value that is given is one that its field can be; a `shortQuery` that is not on a policy object is the C
client's own. -/
def Fits (env : PolicyEnv E T) (cls : PolicyClass) (init : Values E T) (values : JsValue) : Prop :=
  ∀ r ∈ cls.table, (values.field r.1.name).isNullish = true ∨
    if r.1 = .shortQuery ∧ cls.isInstance values = false then r.2.Says env r.1 (values.field r.1.name) (init r.1)
    else r.2.Fits env r.1 (values.field r.1.name)

end PolicyClass

theorem readPolicy_eq_some {v : JsValue} {s : Values E T} (hv : v.isObject = true) :
    PolicySlot.readPolicy env cls init v = .ok (some s) ↔
      FieldRow.Accepts (cls.table.map (row env)) v ∧ s = (cls.fromJsobject env (init cls) v).1 := by
  have haccepted : (cls.fromJsobject env (init cls) v).2 = .ok () ↔ FieldRow.Accepts (cls.table.map (row env)) v :=
    FieldRow.fill_accepted
  rw [← haccepted, PolicySlot.readPolicy, if_pos hv]
  rcases cls.fromJsobject env (init cls) v with ⟨s', e | u⟩
  · simp
  · simp [eq_comm]

/-- A field of a default policy is as it is given. -/
theorem created_field_iff (values : JsValue) {r : PolicyField × PolicyReader} (hr : r ∈ cls.table)
    {d : FieldValue E T} :
    (∃ y, r.2.read env ((if cls.isInstance values then values else cls.construct values).field r.1.name) = .ok y ∧
      ((values.field r.1.name).isNullish = true ∧ y.getD d = d ∨
        r.2.Says env r.1 (values.field r.1.name) (y.getD d))) ↔
    ((values.field r.1.name).isNullish = true ∨
      if r.1 = .shortQuery ∧ cls.isInstance values = false then r.2.Says env r.1 (values.field r.1.name) d
      else r.2.Fits env r.1 (values.field r.1.name)) := by
  have hreader := cls.table_readers r hr
  rw [field_created values hr]
  cases hnull : (values.field r.1.name).isNullish with
  | true =>
    refine iff_of_true ⟨none, ?_, .inl ⟨rfl, rfl⟩⟩ (.inl rfl)
    split_ifs
    · exact PolicyReader.read_nullish hreader rfl
    · exact PolicyReader.read_nullish hreader hnull
  | false =>
    simp only [Bool.false_eq_true, false_and, false_or]
    split_ifs
    · rw [PolicyReader.read_nullish hreader rfl]
      simp
    · exact PolicyReader.read_says hreader

/-- A default policy is read as what its values give exactly if these fit. -/
theorem created_holds_iff (init : PolicyClass → Values E T) (values : JsValue) :
    (∃ s, PolicySlot.readPolicy env cls init (if cls.isInstance values then values else cls.construct values) =
      .ok (some s) ∧ cls.Holds env (init cls) values s) ↔ cls.Fits env (init cls) values := by
  simp only [readPolicy_eq_some (isObject_created cls values)]
  generalize hobject : (if cls.isInstance values then values else cls.construct values) = object
  have hfield : ∀ r ∈ cls.table, FieldRow.Accepts (cls.table.map (row env)) object → ∀ y,
      r.2.read env (object.field r.1.name) = .ok y →
      (cls.fromJsobject env (init cls) object).1 r.1 = y.getD (init cls r.1) := fun r hr haccepts y hy =>
    FieldRow.fill_mem (r := row env r) (cls.row_consistent env) haccepts (List.mem_map_of_mem hr) hy
  constructor
  · rintro ⟨s, ⟨haccepts, rfl⟩, hholds⟩ r hr
    obtain ⟨y, hy⟩ := haccepts _ (List.mem_map_of_mem hr)
    refine (created_field_iff values hr).mp ⟨y, hobject ▸ hy, ?_⟩
    rw [← hfield r hr haccepts y hy]
    exact hholds.given r hr
  · intro hfits
    have hread : ∀ r ∈ cls.table, ∃ y, r.2.read env (object.field r.1.name) = .ok y ∧
        ((values.field r.1.name).isNullish = true ∧ y.getD (init cls r.1) = init cls r.1 ∨
          r.2.Says env r.1 (values.field r.1.name) (y.getD (init cls r.1))) := fun r hr =>
      hobject ▸ (created_field_iff values hr).mpr (hfits r hr)
    have haccepts : FieldRow.Accepts (cls.table.map (row env)) object := by
      intro q hq
      obtain ⟨r, hr, rfl⟩ := List.mem_map.mp hq
      obtain ⟨y, hy, -⟩ := hread r hr
      exact ⟨y, hy⟩
    refine ⟨_, ⟨haccepts, rfl⟩, fun r hr => ?_, fun f hf => ?_⟩
    · obtain ⟨y, hy, hsays⟩ := hread r hr
      rw [hfield r hr haccepts y hy]
      exact hsays
    · refine FieldRow.fill_of_notMem fun q hq => ?_
      obtain ⟨r, hr, rfl⟩ := List.mem_map.mp hq
      exact hf r hr

theorem defaultGiven_nullish {policies : Props} (h : (Props.get policies (JsString.lit slot.name)).isNullish = true)
    (f : PolicyField) : slot.defaultGiven env policies f = none := by
  have hobject := isObject_of_isNullish h
  have hinstance : slot.cls.isInstance (Props.get policies (JsString.lit slot.name)) = false := by
    cases hv : Props.get policies (JsString.lit slot.name) with
    | obj cls ps =>
      rw [hv] at h
      cases h
    | _ => rfl
  show slot.cls.given env (if slot.cls.isInstance _ then _ else _) f = none
  rw [hinstance, if_neg Bool.false_ne_true]
  refine given_nothing (fun f => ?_) f
  rw [field_construct, field_of_not_object hobject, ite_self]

theorem PolicySlot.mem_all (slot : PolicySlot) : slot ∈ PolicySlot.all := by
  cases slot <;> simp [PolicySlot.all]

/-- The configuration of the C client: what the default policies give, in the policies that there are. -/
theorem configPolicies_eq {policies made : Props} (hmade : setDefaultPolicies policies = some made)
    (hconfig : (PolicySlot.configPolicies env init config (.plain made)).2 = .ok ()) (slot : PolicySlot)
    (f : PolicyField) : (PolicySlot.configPolicies env init config (.plain made)).1 slot f =
      if (Props.get policies (JsString.lit slot.name)).isNullish then config slot f
      else (slot.defaultGiven env policies f).getD (init slot.cls f) := by
  have haccepts := FieldRow.fill_accepted.mp hconfig
  have hconsistent : FieldRow.Consistent (PolicySlot.rows env init) := FieldRow.consistent_map _ PolicySlot.all
  have hfill := FieldRow.fill_ok (s := config) hconsistent haccepts slot
  rw [PolicySlot.configPolicies, hfill, PolicySlot.rows, FieldRow.found_map slot.mem_all]
  show (PolicySlot.readPolicy env slot.cls init (Props.get made (JsString.lit slot.name))).toOption.join.getD
    (config slot) f = _
  have hcreate := get_setDefaultPolicies hmade (JsString.lit slot.name)
  obtain ⟨v, hv⟩ := FieldRow.accepts_map.mp haccepts slot slot.mem_all
  change PolicySlot.readPolicy env slot.cls init (Props.get made (JsString.lit slot.name)) = .ok v at hv
  rw [hv]
  cases hnull : (Props.get policies (JsString.lit slot.name)).isNullish with
  | true =>
    rw [createPolicy, hnull, if_pos rfl] at hcreate
    rw [← Option.some.inj hcreate] at hv
    obtain rfl : v = none := (Except.ok.inj hv).symm
    rfl
  | false =>
    rw [createPolicy_slot slot hnull] at hcreate
    have hobject := isObject_created slot.cls (Props.get policies (JsString.lit slot.name))
    rw [Option.some.inj hcreate] at hobject
    cases v with
    | none =>
      rw [readPolicy_none hv] at hobject
      cases hobject
    | some s =>
      rw [if_neg Bool.false_ne_true, PolicySlot.defaultGiven, Option.some.inj hcreate]
      exact (readPolicy_object hv).2 f

/-- The policy of a command, if it is an object, replaces the default policy in all its fields. -/
theorem effective_eq {policies made : Props} {call : JsValue} {s : Values E T}
    (hmade : setDefaultPolicies policies = some made)
    (hconfig : (PolicySlot.configPolicies env init config (.plain made)).2 = .ok ())
    (hcall : slot.effective env init (PolicySlot.configPolicies env init config (.plain made)).1 call = .ok s)
    (f : PolicyField) : s f = if call.isObject then (slot.cls.given env call f).getD (init slot.cls f)
      else if (Props.get policies (JsString.lit slot.name)).isNullish then config slot f
      else (slot.defaultGiven env policies f).getD (init slot.cls f) := by
  unfold PolicySlot.effective at hcall
  rcases hread : PolicySlot.readPolicy env slot.cls init call with e | _ | s'
  · rw [hread] at hcall
    cases hcall
  · rw [hread] at hcall
    obtain rfl := Except.ok.inj hcall
    rw [readPolicy_none hread, if_neg Bool.false_ne_true, ← configPolicies_eq hmade hconfig]
    rfl
  · rw [hread] at hcall
    obtain rfl : s' = s := Except.ok.inj hcall
    obtain ⟨hobject, hvalue⟩ := readPolicy_object hread
    rw [if_pos hobject, hvalue]

/-- What `config.js` documents: a value the command's policy does not define is that of the default policy,
and a value that neither defines is the default of the C client. -/
def PolicySlot.documented (env : PolicyEnv E T) (config : PolicySlot → Values E T) (slot : PolicySlot)
    (policies : Props) (call : JsValue) (f : PolicyField) : FieldValue E T :=
  (slot.cls.given env call f).getD ((slot.defaultGiven env policies f).getD (config slot f))

/-- The policy in effect is the documented one in exactly those fields in which the command's policy, if it is an
object, has a value, or the default policies would leave the C client's own; without a policy of the command, in
those where the default policy has a value, or the C client has the same default for the slot and the class. -/
theorem effective_documented_iff {policies made : Props} {call : JsValue} {s : Values E T}
    (hmade : setDefaultPolicies policies = some made)
    (hconfig : (PolicySlot.configPolicies env init config (.plain made)).2 = .ok ())
    (hcall : slot.effective env init (PolicySlot.configPolicies env init config (.plain made)).1 call = .ok s)
    (f : PolicyField) : s f = slot.documented env config policies call f ↔
      if call.isObject then slot.cls.given env call f = none →
        (slot.defaultGiven env policies f).getD (config slot f) = init slot.cls f
      else (Props.get policies (JsString.lit slot.name)).isNullish = false →
        slot.defaultGiven env policies f = none → config slot f = init slot.cls f := by
  rw [effective_eq hmade hconfig hcall, PolicySlot.documented]
  cases hobject : call.isObject with
  | true =>
    simp only [if_true]
    cases slot.cls.given env call f with
    | some v => simp
    | none => simp [eq_comm]
  | false =>
    rw [given_nothing fun f => field_of_not_object hobject f.name]
    simp only [Bool.false_eq_true, if_false, Option.getD_none]
    cases hnull : (Props.get policies (JsString.lit slot.name)).isNullish with
    | true =>
      simp [defaultGiven_nullish hnull]
    | false =>
      cases slot.defaultGiven env policies f with
      | some v => simp
      | none => simp [eq_comm]

/-- `policies: { remove: { durableDelete: true } }` -/
def durablePolicies : Props :=
  [(JsString.lit "remove", .plain [(JsString.lit "durableDelete", .bool true)])]

/-- No expression compiles and no value is a transaction. -/
def plainEnv : PolicyEnv Unit Unit := ⟨fun _ => .ok none, fun _ => none⟩

def zeroPolicy : Values Unit Unit := fun f => if f = .durableDelete then .flag false else .bits 0

/-- A client that is to delete durably does not, for a command with an empty policy. -/
theorem durableDelete_not_inherited : ∃ made s, setDefaultPolicies durablePolicies = some made ∧
    (PolicySlot.configPolicies plainEnv (fun _ => zeroPolicy) (fun _ => zeroPolicy) (.plain made)).2 = .ok () ∧
      PolicySlot.effective plainEnv .remove (fun _ => zeroPolicy)
          (PolicySlot.configPolicies plainEnv (fun _ => zeroPolicy) (fun _ => zeroPolicy) (.plain made)).1 (.plain []) =
        .ok s ∧
      s .durableDelete ≠
        PolicySlot.documented plainEnv (fun _ => zeroPolicy) .remove durablePolicies (.plain []) .durableDelete := by
  refine ⟨_, _, rfl, rfl, rfl, fun h => ?_⟩
  have hiff := @effective_documented_iff Unit Unit plainEnv (fun _ => zeroPolicy) (fun _ => zeroPolicy) .remove
    durablePolicies _ (.plain []) _ rfl rfl rfl .durableDelete
  cases hiff.mp h rfl

end Effective

end AerospikeNode
