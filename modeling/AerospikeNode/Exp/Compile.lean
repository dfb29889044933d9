import AerospikeNode.Exp.CallCount
import AerospikeNode.Native.Policy

/-!
# Compiling an expression

`convert_entry` and `compile_expression` (`src/main/expressions.cc`) turn the array of entries into
the `as_exp_entry` array that `as_exp_compile` reads, entry by entry, up to the first error, after which
`free_entries` goes over all of them, also those that were never written.

The policy of a list or map entry is read by the functions the operate path uses, but these expect
the object that has a `policy` property, and here they get the policy itself. The bitwise and HLL
builders read `flags` where the operate path reads `writeFlags`. `compiled_policy_eq_iff` says for
which policies the two paths still agree.
-/

namespace AerospikeNode

/-- The union of an `as_exp_entry`. -/
inductive EntryVal where
  | none
  | val (v : AsVal)
  | str (s : Bytes)
  | bytes (bs : Bytes)
  | int (i : Int64)
  | uint (u : UInt64)
  | float (d : JsNumber)
  | bool (b : Bool)
  | ctx (c : Option (List CtxItem))
  | listPol (p : Option ListPolicy)
  | mapPol (p : Option MapPolicy)
deriving DecidableEq

/-- `as_exp_entry` -/
structure NativeEntry where
  op : ExpOp
  count : UInt32
  v : EntryVal
deriving DecidableEq

section
variable (D : PolicyDefaults)

/-- The object the policy readers are handed is the policy; a failed read leaves the policy as
`as_list_policy_init` or `as_map_policy_init` made it. -/
def entryListPolicy (policyObj : JsValue) : ListPolicy :=
  match getOptionalListPolicy D policyObj with
  | .ok (_, p) => p
  | .error _ => .init D

def entryMapPolicy (policyObj : JsValue) : MapPolicy :=
  match getMapPolicy D policyObj with
  | .ok p => p
  | .error _ => .init D

/-- The value of `convert_entry`, by the property that carries it. -/
def convertPayload [Platform] : Payload → Res EntryVal
  | .none => .ok .none
  | .value v => v.asvalProperty.map .val
  | .strVal v => v.stringProperty.map .str
  | .bytesVal v sz => do
    let _ ← sz.optionalUint32Property
    v.bytesProperty.map .bytes
  | .intVal v => v.int64Property.map .int
  | .uintVal v => v.uint64Property.map .uint
  | .floatVal v => v.floatProperty.map .float
  | .boolVal v => v.boolProperty.map .bool
  | .ctx c => (getOptionalCdtContext c).map .ctx
  | .listPolicy p => .ok (.listPol (p.map fun ps => entryListPolicy D (.plain ps)))
  | .mapPolicy p => .ok (.mapPol (p.map fun ps => entryMapPolicy D (.plain ps)))
  | .inf => .ok (.val .inf)
  | .wildcard => .ok (.val .wildcard)

/-- `convert_entry`; `op` and `count` are numbers in every entry the builders make. -/
def convertEntry [Platform] (e : Entry) : Res NativeEntry :=
  (convertPayload D e.payload).map fun v => ⟨e.op, .ofNat (e.count.getD 0), v⟩

/-- The members that `free_entries` frees unless they are `NULL`. -/
def Payload.owned : Payload → Bool
  | .strVal _ | .bytesVal _ _ | .ctx _ | .listPolicy _ | .mapPolicy _ => true
  | _ => false

/-- How `compile_expression` ends: with the entries for `as_exp_compile`, or with an error; or the process is gone,
by V8 or because `free_entries` frees what was never written. -/
inductive Compilation where
  | compiled (ns : List NativeEntry)
  | rejected
  | crashed
deriving DecidableEq

def Compilation.cons (n : NativeEntry) : Compilation → Compilation
  | compiled ns => compiled (n :: ns)
  | c => c

/-- `compile_expression` -/
def compileExpression [Platform] : List Entry → Compilation
  | [] => .compiled []
  | e :: es =>
    match convertEntry D e with
    | .ok n => (compileExpression es).cons n
    | .error .paramErr => if es.any (·.payload.owned) then .crashed else .rejected
    | .error .abort => .crashed

/-- What a policy comes to in the C client. -/
inductive PolicyValue where
  | list (p : ListPolicy)
  | map (p : MapPolicy)
  | bit (flags : UInt64)
  | hll (flags : Int64)
deriving DecidableEq

/-- The order, of a policy that has one, and the write flags. -/
def PolicyValue.orderAndFlags : PolicyValue → Option Int32 × ℤ
  | list p => (some p.order, p.flags.toInt)
  | map p => (some p.order, p.flags.toNat)
  | bit flags => (none, flags.toNat)
  | hll flags => (none, flags.toInt)

/-- The builders that take a policy, by family. -/
inductive PolicyFamily where
  | list | map | bit | hll
deriving DecidableEq, Repr

namespace PolicyFamily

/-- The policy of an operation of the family, from the object of the operation. -/
def operate (op : JsValue) : PolicyFamily → Res PolicyValue
  | list => (getOptionalListPolicy D op).map fun p => .list p.2
  | map => (getMapPolicy D op).map .map
  | bit => (getOptionalFlagsPolicy D.bitFlags op).map fun w =>
    .bit ((w.getD D.bitFlags).toInt64.toUInt64)
  | hll => (getOptionalFlagsPolicy D.hllFlags op).map fun w => .hll (w.getD D.hllFlags).toInt64

/-- The entry by which a builder of the family passes on its policy. -/
def entry (ps : Props) : PolicyFamily → Entry
  | list => { op := .cdtListCrmod, payload := .listPolicy (some ps) }
  | map => { op := .cdtMapCrmod, payload := .mapPolicy (some ps) }
  | bit => .uint (policyFlags (some ps))
  | hll => .int (policyFlags (some ps))

/-- The policy in a compiled entry of the family. -/
def ofEntry (v : EntryVal) : PolicyFamily → Option PolicyValue
  | list => match v with | .listPol (some p) => some (.list p) | _ => none
  | map => match v with | .mapPol (some p) => some (.map p) | _ => none
  | bit => match v with | .uint u => some (.bit u) | _ => none
  | hll => match v with | .int i => some (.hll i) | _ => none

/-- The policy of an operation is the one its entry gets; or it is refused for both, and an expression whose
entries convert up to it is rejected. -/
def CompilesAs [Platform] (op : JsValue) (pre : List Entry) (ps : Props) (post : List Entry)
    (f : PolicyFamily) : Prop :=
  match f.operate D op with
  | .ok p => ∃ n q, convertEntry D (f.entry ps) = .ok n ∧ f.ofEntry n.v = some q ∧ q.orderAndFlags = p.orderAndFlags
  | .error e => convertEntry D (f.entry ps) = .error e ∧
      ((∀ e ∈ pre, ∃ n, convertEntry D e = .ok n) → compileExpression D (pre ++ f.entry ps :: post) = .rejected)

/-- What the entry of a create-or-modify call makes of a policy object: the policy read from its
own `policy` property, the default when that is no object or does not read. -/
def nestedPolicy {α : Type} (read : JsValue → Res α) (dflt : α) (nested : JsValue) : α :=
  if nested.isObject then (match read nested with | .ok q => q | .error _ => dflt) else dflt

/-- The policies for which an expression gets what an operation gets. A list or map policy must
itself read as the order and flags that its own `policy` property reads as, the default when it has none.
A bitwise or HLL policy must have in `flags` the number its `writeFlags` reads as; or be refused for both,
with no entry behind it that has something to free, should the loop come to it. -/
def Agrees [Platform] (pre : List Entry) (ps : Props) (post : List Entry) : PolicyFamily → Prop
  | list => ∃ p, listPolicyOf D (.plain ps) = .ok p ∧
    p = nestedPolicy (listPolicyOf D) (.init D) (ps.get (JsString.lit "policy"))
  | map => ∃ p, mapPolicyOf D (.plain ps) = .ok p ∧
    p.order = (nestedPolicy (mapPolicyOf D) (.init D) (ps.get (JsString.lit "policy"))).order ∧
    p.flags = (nestedPolicy (mapPolicyOf D) (.init D) (ps.get (JsString.lit "policy"))).flags
  | bit => flagsAgree (ps.get (JsString.lit "flags")) (ps.get (JsString.lit "writeFlags")) D.bitFlags
  | hll => flagsAgree (ps.get (JsString.lit "flags")) (ps.get (JsString.lit "writeFlags")) D.hllFlags
where
  flagsAgree (flags writeFlags : JsValue) (dflt : Int32) : Prop :=
    match flags with
    | .num n => ∃ w, writeFlags.intOr dflt = .ok w ∧ n.toInt64 = w.toInt64
    | _ => writeFlags.intOr dflt = .error .paramErr ∧
        ((∀ e ∈ pre, ∃ n, convertEntry D e = .ok n) → ∀ e ∈ post, e.payload.owned = false)

end PolicyFamily

end

namespace CallBuilder

/-- The family of a builder and the policy given to it, if it takes one. -/
def policy : CallBuilder → Option (PolicyFamily × Props)
  | list c =>
    (match c with
      | .append _ _ p _ | .appendItems _ _ p _ | .insert _ _ _ p _ | .insertItems _ _ _ p _
      | .increment _ _ _ p _ | .set _ _ _ p _ => p
      | _ => none).map (.list, ·)
  | map c =>
    (match c with
      | .put _ _ _ p _ | .putItems _ _ p _ | .increment _ _ _ p _ => p
      | _ => none).map (.map, ·)
  | bit c =>
    (match c with
      | .reSize _ _ _ p | .insert _ _ _ p | .remove _ _ _ p | .set _ _ _ _ p | .or _ _ _ _ p
      | .xor _ _ _ _ p | .and _ _ _ _ p | .not _ _ _ p | .lShift _ _ _ _ p | .rShift _ _ _ _ p
      | .add _ _ _ _ _ p | .subtract _ _ _ _ _ p | .setInt _ _ _ _ p => p
      | _ => none).map (.bit, ·)
  | hll c =>
    (match c with
      | .initMH _ _ _ p | .init _ _ p | .addMH _ _ _ _ p | .add _ _ _ p | .update _ _ p => p
      | _ => none).map (.hll, ·)

/-- The parameters behind the one that passes the policy on. -/
def paramsBehind : CallBuilder → List Arg
  | bit (.reSize _ flags _ _) => [.uint flags]
  | bit (.add _ action _ _ _ _) | bit (.subtract _ action _ _ _ _) => [.uint action]
  | _ => []

/-- The entries behind the one that passes the policy on. -/
def entriesBehind (N : NativeEnums) (b : CallBuilder) : List Entry :=
  (b.paramsBehind.map Arg.entries).flatten ++ (b.call N).bin.entries

/-- A builder that is given a policy passes it on as one parameter. -/
theorem policy_params (N : NativeEnums) {f : PolicyFamily} {ps : Props} : ∀ {b : CallBuilder},
    b.policy = some (f, ps) →
      ∃ as a, (b.call N).params = as ++ a :: b.paramsBehind ∧ a.entries = [f.entry ps]
  | list c, h => by
    obtain ⟨p, hp, hf⟩ := Option.map_eq_some_iff.1 h
    obtain ⟨rfl, rfl⟩ := Prod.mk.inj hf
    cases c with
    | append bin value policy ctx | appendItems bin value policy ctx =>
      obtain rfl : policy = some p := hp
      exact ⟨[_], .listCrmod (some p), rfl, rfl⟩
    | insert bin value idx policy ctx | insertItems bin value idx policy ctx | increment bin value idx policy ctx
    | set bin value idx policy ctx =>
      obtain rfl : policy = some p := hp
      exact ⟨[_, _], .listCrmod (some p), rfl, rfl⟩
    | _ => cases hp
  | map c, h => by
    obtain ⟨p, hp, hf⟩ := Option.map_eq_some_iff.1 h
    obtain ⟨rfl, rfl⟩ := Prod.mk.inj hf
    cases c with
    | putItems bin map policy ctx =>
      obtain rfl : policy = some p := hp
      exact ⟨[_], .mapCrmod (some p), rfl, rfl⟩
    | put bin value key policy ctx | increment bin value key policy ctx =>
      obtain rfl : policy = some p := hp
      exact ⟨[_, _], .mapCrmod (some p), rfl, rfl⟩
    | _ => cases hp
  | bit c, h => by
    obtain ⟨p, hp, hf⟩ := Option.map_eq_some_iff.1 h
    obtain ⟨rfl, rfl⟩ := Prod.mk.inj hf
    cases c with
    | reSize bin flags byteSize policy =>
      obtain rfl : policy = some p := hp
      exact ⟨[_], .uint (policyFlags (some p)), rfl, rfl⟩
    | insert bin value byteOffset policy | remove bin value byteOffset policy | not bin value byteOffset policy =>
      obtain rfl : policy = some p := hp
      exact ⟨[_, _], .uint (policyFlags (some p)), rfl, rfl⟩
    | set bin value bitSize bitOffset policy | or bin value bitSize bitOffset policy
    | xor bin value bitSize bitOffset policy | and bin value bitSize bitOffset policy
    | lShift bin value bitSize bitOffset policy | rShift bin value bitSize bitOffset policy
    | setInt bin value bitSize bitOffset policy | add bin action value bitSize bitOffset policy
    | subtract bin action value bitSize bitOffset policy =>
      obtain rfl : policy = some p := hp
      exact ⟨[_, _, _], .uint (policyFlags (some p)), rfl, rfl⟩
    | _ => cases hp
  | hll c, h => by
    obtain ⟨p, hp, hf⟩ := Option.map_eq_some_iff.1 h
    obtain ⟨rfl, rfl⟩ := Prod.mk.inj hf
    cases c with
    | init bin indexBitCount policy =>
      obtain rfl : policy = some p := hp
      exact ⟨[_], .int (policyFlags (some p)), rfl, rfl⟩
    | initMH bin mhBitCount indexBitCount policy =>
      obtain rfl : policy = some p := hp
      exact ⟨[_, _], .int (policyFlags (some p)), rfl, rfl⟩
    | addMH bin mhBitCount indexBitCount list policy | add bin indexBitCount list policy | update bin list policy =>
      obtain rfl : policy = some p := hp
      exact ⟨[_, _, _], .int (policyFlags (some p)), rfl, rfl⟩
    | _ => cases hp

/-- The array of a builder, split at the entry of its policy. -/
theorem emit_split {N : NativeEnums} {b : CallBuilder} {f : PolicyFamily} {ps : Props} {es : List Entry}
    (hb : b.policy = some (f, ps)) (h : (b.call N).emit N = .ok es) :
    ∃ pre, es = pre ++ f.entry ps :: b.entriesBehind N := by
  obtain ⟨as, a, hparams, ha⟩ := policy_params N hb
  obtain ⟨type, -, rfl⟩ := Call.emit_eq h
  refine ⟨[{ op := .call, count := some 5 }, .rtype type, .int (.int (b.call N).module),
    { op := .callVopStart, count := some (b.call N).count, payload := (b.call N).ctx },
    .int (.int (N.opcode (b.call N).op))] ++ (as.map Arg.entries).flatten, ?_⟩
  rw [hparams, entriesBehind]
  simp only [List.map_append, List.map_cons, List.flatten_append, List.flatten_cons, ha, List.append_assoc,
    List.cons_append, List.nil_append]

end CallBuilder

section
variable {D : PolicyDefaults} {ps : Props} {cls : JsClass} {op : JsValue} {pre post : List Entry} {e : Entry}

theorem compileExpression_of_ok [Platform] {es : List Entry} {n : NativeEntry} (h : convertEntry D e = .ok n) :
    compileExpression D (e :: es) = (compileExpression D es).cons n := by
  rw [compileExpression, h]

/-- What is compiled of an array is the conversion of each entry. -/
theorem forall₂_compiled [Platform] : ∀ {es : List Entry} {ns : List NativeEntry},
    compileExpression D es = .compiled ns → List.Forall₂ (fun e n => convertEntry D e = .ok n) es ns
  | [], _, h => by
    cases h
    exact .nil
  | e :: es, ns, h => by
    cases he : convertEntry D e with
    | error err =>
      rw [compileExpression, he] at h
      cases err with
      | abort => cases h
      | paramErr =>
        dsimp only at h
        split_ifs at h
    | ok n =>
      rw [compileExpression_of_ok he] at h
      cases hes : compileExpression D es with
      | compiled ms =>
        rw [hes] at h
        cases h
        exact .cons he (forall₂_compiled hes)
      | rejected | crashed =>
        rw [hes] at h
        cases h

/-- An entry that is refused behind entries that convert: what is behind it decides about the cleanup. -/
theorem compileExpression_rejected_iff [Platform] (hpre : ∀ e ∈ pre, ∃ n, convertEntry D e = .ok n)
    (he : convertEntry D e = .error .paramErr) :
    compileExpression D (pre ++ e :: post) = .rejected ↔ ∀ e ∈ post, e.payload.owned = false := by
  induction pre with
  | nil =>
    have hany : post.any (·.payload.owned) = false ↔ ∀ e ∈ post, e.payload.owned = false := by
      rw [List.any_eq_false]
      exact forall₂_congr fun e _ => by rw [Bool.not_eq_true]
    rw [List.nil_append, compileExpression, he, ← hany]
    cases post.any (·.payload.owned) with
    | true => exact iff_of_false (fun h => by cases h) (by decide)
    | false => exact iff_of_true rfl rfl
  | cons x pre ih =>
    obtain ⟨n, hn⟩ := hpre x List.mem_cons_self
    rw [List.cons_append, compileExpression_of_ok hn, ← ih fun y hy => hpre y (List.mem_cons_of_mem x hy)]
    cases compileExpression D (pre ++ e :: post) with
    | compiled ns => exact iff_of_false (fun h => by cases h) (fun h => by cases h)
    | rejected => exact iff_of_true rfl rfl
    | crashed => exact iff_of_false (fun h => by cases h) (fun h => by cases h)

namespace PolicyFamily

theorem entryListPolicy_eq : entryListPolicy D (.plain ps) =
    nestedPolicy (listPolicyOf D) (.init D) (ps.get (JsString.lit "policy")) := by
  have hfield : (JsValue.plain ps).field "policy" = ps.get (JsString.lit "policy") := rfl
  rw [nestedPolicy, entryListPolicy, getOptionalListPolicy, hfield]
  split_ifs
  · cases listPolicyOf D (ps.get (JsString.lit "policy")) <;> rfl
  · rfl

theorem entryMapPolicy_eq : entryMapPolicy D (.plain ps) =
    nestedPolicy (mapPolicyOf D) (.init D) (ps.get (JsString.lit "policy")) := by
  have hfield : (JsValue.plain ps).field "policy" = ps.get (JsString.lit "policy") := rfl
  rw [nestedPolicy, entryMapPolicy, getMapPolicy, hfield]
  cases ps.get (JsString.lit "policy") with
  | undefined | null | bool | str | num | bigint | symbol => rfl
  | func | buffer | array | map | obj =>
    simp only [JsValue.isObject, if_true]
    generalize mapPolicyOf D _ = r
    cases r <;> rfl

theorem operate_list (hop : op.field "policy" = .obj cls ps) :
    list.operate D op = (listPolicyOf D (.plain ps)).map .list := by
  simp only [operate, getOptionalListPolicy, hop, JsValue.isObject, if_true]
  show Except.map _ (Except.map _ (listPolicyOf D (.plain ps))) = _
  cases listPolicyOf D (.plain ps) <;> rfl

theorem operate_map (hop : op.field "policy" = .obj cls ps) :
    map.operate D op = (mapPolicyOf D (.plain ps)).map .map := by
  simp only [operate, getMapPolicy, hop, JsValue.isObject, if_true]
  rfl

theorem getOptionalFlagsPolicy_obj (dflt : Int32) (hop : op.field "policy" = .obj cls ps) :
    getOptionalFlagsPolicy dflt op = ((ps.get (JsString.lit "writeFlags")).intOr dflt).map some := by
  simp only [getOptionalFlagsPolicy, hop, JsValue.isObject, if_true]
  rfl

theorem compilesAs_list [Platform] (hop : op.field "policy" = .obj cls ps) :
    list.CompilesAs D op pre ps post ↔ list.Agrees D pre ps post := by
  have hentry : convertEntry D (list.entry ps) =
      .ok ⟨.cdtListCrmod, 0, .listPol (some (entryListPolicy D (.plain ps)))⟩ := rfl
  rw [CompilesAs, Agrees, operate_list hop, hentry, entryListPolicy_eq]
  cases listPolicyOf D (.plain ps) with
  | error e =>
    refine iff_of_false ?_ ?_
    · rintro ⟨he, -⟩
      cases he
    · rintro ⟨p, hp, -⟩
      cases hp
  | ok p =>
    constructor
    · rintro ⟨n, q, hn, hq, hsame⟩
      cases hn
      cases hq
      obtain ⟨horder, hflags⟩ := Prod.mk.inj hsame
      refine ⟨p, rfl, ?_⟩
      rw [ListPolicy.mk.injEq]
      exact ⟨(Option.some.inj horder).symm, (Int32.toInt_inj.mp hflags).symm⟩
    · rintro ⟨p', hp, heq⟩
      cases hp
      exact ⟨_, _, rfl, rfl, by rw [heq]⟩

theorem compilesAs_map [Platform] (hop : op.field "policy" = .obj cls ps) :
    map.CompilesAs D op pre ps post ↔ map.Agrees D pre ps post := by
  have hentry : convertEntry D (map.entry ps) =
      .ok ⟨.cdtMapCrmod, 0, .mapPol (some (entryMapPolicy D (.plain ps)))⟩ := rfl
  rw [CompilesAs, Agrees, operate_map hop, hentry, entryMapPolicy_eq]
  cases mapPolicyOf D (.plain ps) with
  | error e =>
    refine iff_of_false ?_ ?_
    · rintro ⟨he, -⟩
      cases he
    · rintro ⟨p, hp, -⟩
      cases hp
  | ok p =>
    constructor
    · rintro ⟨n, q, hn, hq, hsame⟩
      cases hn
      cases hq
      obtain ⟨horder, hflags⟩ := Prod.mk.inj hsame
      exact ⟨p, rfl, (Option.some.inj horder).symm, (UInt32.toNat_inj.mp (Int.ofNat.inj hflags)).symm⟩
    · rintro ⟨p', hp, horder, hflags⟩
      cases hp
      refine ⟨_, _, rfl, rfl, ?_⟩
      rw [PolicyValue.orderAndFlags, PolicyValue.orderAndFlags, horder, hflags]

/-- Flags that the builder takes from one property and the operate path from another. -/
theorem compilesAs_flags [Platform] {dflt : Int32} (mk : Int64 → PolicyValue)
    (hmk : ∀ i j, (mk i).orderAndFlags = (mk j).orderAndFlags ↔ i = j) (f : PolicyFamily)
    (hoperate : f.operate D op = ((ps.get (JsString.lit "writeFlags")).intOr dflt).map fun w => mk w.toInt64)
    (hentry : (convertEntry D (f.entry ps)).map (fun n => f.ofEntry n.v) =
      ((ps.get (JsString.lit "flags")).int64Property).map fun i => some (mk i)) :
    f.CompilesAs D op pre ps post ↔
      Agrees.flagsAgree D pre post (ps.get (JsString.lit "flags")) (ps.get (JsString.lit "writeFlags")) dflt := by
  have hrefused : ∀ {v : JsValue} {e : Fail}, v.intOr dflt = .error e → e = .paramErr := by
    intro v e h
    cases v with
    | undefined | num n => cases h
    | _ => exact (Except.error.inj h).symm
  rw [CompilesAs, hoperate, Agrees.flagsAgree.eq_def]
  generalize ps.get (JsString.lit "writeFlags") = writeFlags
  generalize ps.get (JsString.lit "flags") = flags at hentry
  -- only a number passes `get_int64_property`
  cases flags with
  | num n =>
    obtain ⟨m, hm, hof⟩ := Except.map_eq_ok.mp hentry
    rw [hm]
    cases writeFlags.intOr dflt with
    | error e =>
      refine iff_of_false ?_ ?_
      · rintro ⟨he, -⟩
        cases he
      · rintro ⟨w, hw, -⟩
        cases hw
    | ok w =>
      constructor
      · rintro ⟨m', q, hm', hq, hsame⟩
        cases hm'
        cases hof.symm.trans hq
        exact ⟨w, rfl, (hmk _ _).mp hsame⟩
      · rintro ⟨w', hw, heq⟩
        cases hw
        exact ⟨m, _, rfl, hof, (hmk _ _).mpr heq⟩
  | _ =>
    have hconvert : convertEntry D (f.entry ps) = .error .paramErr := by
      cases hc : convertEntry D (f.entry ps) with
      | ok m =>
        rw [hc] at hentry
        cases hentry
      | error e =>
        rw [hc] at hentry
        cases hentry
        rfl
    rw [hconvert]
    cases hw : writeFlags.intOr dflt with
    | error e =>
      obtain rfl := hrefused hw
      exact and_congr (iff_of_true rfl rfl) (forall_congr' fun hpre => compileExpression_rejected_iff hpre hconvert)
    | ok w =>
      refine iff_of_false ?_ ?_
      · rintro ⟨m, q, hm, -⟩
        cases hm
      · rintro ⟨he, -⟩
        cases he

/-- A policy is compiled as an operation has it, or is refused as there, exactly for the policies of `Agrees`. -/
theorem compilesAs_iff [Platform] (f : PolicyFamily) (hop : op.field "policy" = .obj cls ps) :
    f.CompilesAs D op pre ps post ↔ f.Agrees D pre ps post := by
  cases f with
  | list => exact compilesAs_list hop
  | map => exact compilesAs_map hop
  | bit =>
    refine compilesAs_flags (fun i => .bit i.toUInt64) ?_ bit ?_ ?_
    · intro i j
      constructor
      · intro h
        have hbits := UInt64.toNat_inj.mp (Int.ofNat.inj (Prod.mk.inj h).2)
        cases i
        cases j
        exact congrArg Int64.ofUInt64 hbits
      · rintro rfl
        rfl
    · rw [operate, getOptionalFlagsPolicy_obj _ hop]
      cases (ps.get (JsString.lit "writeFlags")).intOr D.bitFlags <;> rfl
    · simp only [convertEntry, entry, Entry.uint, convertPayload, policyFlags]
      cases ps.get (JsString.lit "flags") <;> rfl
  | hll =>
    refine compilesAs_flags .hll ?_ hll ?_ ?_
    · intro i j
      constructor
      · intro h
        exact Int64.toInt_inj.mp (Prod.mk.inj h).2
      · rintro rfl
        rfl
    · rw [operate, getOptionalFlagsPolicy_obj _ hop]
      cases (ps.get (JsString.lit "writeFlags")).intOr D.hllFlags <;> rfl
    · simp only [convertEntry, entry, Entry.int, convertPayload, policyFlags]
      cases ps.get (JsString.lit "flags") <;> rfl

end PolicyFamily

/-- Whatever policy is given to a builder, the array it returns has one entry for the policy, at a place of its own,
and what is compiled of the array has there what that entry converts to. This is what an operation makes of the
policy, or refused as there and cleaned up behind, exactly for the policies of `Agrees`. -/
theorem compiled_policy_eq_iff [Platform] (N : NativeEnums) (D : PolicyDefaults) {b : CallBuilder}
    {f : PolicyFamily} {ps : Props} {es : List Entry} {op : JsValue} {cls : JsClass}
    (hb : b.policy = some (f, ps)) (hemit : (b.call N).emit N = .ok es)
    (hop : op.field "policy" = .obj cls ps) :
    ∃ pre, es = pre ++ f.entry ps :: b.entriesBehind N ∧
      (∀ ns, compileExpression D es = .compiled ns →
        ∃ n, ns[pre.length]? = some n ∧ convertEntry D (f.entry ps) = .ok n) ∧
      (f.CompilesAs D op pre ps (b.entriesBehind N) ↔ f.Agrees D pre ps (b.entriesBehind N)) := by
  obtain ⟨pre, rfl⟩ := CallBuilder.emit_split hb hemit
  refine ⟨pre, rfl, fun ns hns => ?_, f.compilesAs_iff hop⟩
  have hentries := forall₂_compiled hns
  have hlen : pre.length < ns.length := by
    rw [← hentries.length_eq, List.length_append, List.length_cons]
    omega
  have hat := hentries.get (by rw [hentries.length_eq]; exact hlen) hlen
  refine ⟨_, List.getElem?_eq_getElem hlen, ?_⟩
  simpa using hat

open Platform

/-- `{ order: 0, writeFlags: 0 }` -/
def defaultListPolicy : Props := [(JsString.lit "order", .int 0), (JsString.lit "writeFlags", .int 0)]

/-- List `append` with a policy of the defaults. -/
theorem append_default_policy : ∃ pre, PolicyFamily.list.CompilesAs .client
    (.plain [(JsString.lit "policy", .plain defaultListPolicy)]) pre defaultListPolicy nilOperand.entries := by
  obtain ⟨pre, -, -, h⟩ := compiled_policy_eq_iff appendEnums .client
    (b := .list (.append nilOperand nilOperand (some defaultListPolicy) none)) rfl rfl
    (show JsValue.field (.plain [(JsString.lit "policy", .plain defaultListPolicy)]) "policy" =
      .plain defaultListPolicy from rfl)
  refine ⟨pre, h.mpr ⟨.init .client, ?_, rfl⟩⟩
  show Except.ok (ListPolicy.mk (JsNumber.ofInt32 0).toInt32 (JsNumber.ofInt32 0).toInt32) = _
  rw [JsNumber.toInt32_ofInt32]
  rfl

/-- `{ order: 1 }` on a list expression: the entry gets the default order. -/
theorem list_order_not_compiled : ¬ ∀ (D : PolicyDefaults) (f : PolicyFamily) (pre : List Entry) (ps : Props)
    (post : List Entry) (op : JsValue) (cls : JsClass), op.field "policy" = .obj cls ps →
      f.CompilesAs D op pre ps post := by
  intro h
  have hop : JsValue.field (.plain [(JsString.lit "policy", .plain [(JsString.lit "order", .int 1)])])
      "policy" = .plain [(JsString.lit "order", .int 1)] := rfl
  obtain ⟨p, hp, hn⟩ := (PolicyFamily.compilesAs_iff .list hop).mp (h .client .list [] _ [] _ _ hop)
  obtain rfl : p = .init .client := hn
  have h1 : listPolicyOf .client (.plain [(JsString.lit "order", .int 1)]) = .ok ⟨1, 0⟩ := by
    show Except.ok (ListPolicy.mk (JsNumber.ofInt32 1).toInt32 0) = _
    rw [JsNumber.toInt32_ofInt32]
  rw [h1] at hp
  injection hp with hp
  exact absurd hp (by decide)

end

end AerospikeNode
