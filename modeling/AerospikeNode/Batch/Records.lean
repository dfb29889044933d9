import AerospikeNode.Native.Read
import AerospikeNode.Cmd.Async

/-!
# The records of a batch

`src/main/util/conversions_batch.cc`: how the array given to `batchRead` and `batchWrite` becomes the
`as_batch_records` of the C client, and how that is released, by the conversion itself when it fails,
otherwise by the command or its listener.

`batchRecords_released`: whatever fails, all that was allocated is released once, except the array made for
`bins: []` and the copy of the digest of a key without a value, which no release reaches.
`batchRecords_represent`: a batch that is accepted has a record for each element, in order, with what
the element gives.
-/

namespace AerospikeNode

inductive BatchType where
  | read
  | write
  | apply
  | remove
deriving DecidableEq

/-- `AS_BATCH_READ`, `AS_BATCH_WRITE`, `AS_BATCH_APPLY` and `AS_BATCH_REMOVE`. -/
def BatchType.ofCode (code : UInt32) : Option BatchType :=
  if code = 0 then some .read else if code = 1 then some .write else if code = 2 then some .apply
  else if code = 3 then some .remove else none

/-- `as_batch_read_record` and its siblings. Of a key, the second component is whether its digest was copied, and
of a policy, whether `filter_exp` is set. -/
structure NativeBatchRecord (K P O L : Type) where
  type : BatchType
  key : Option (K × Bool)
  policy : Option (P × Bool)
  ops : Option O
  /-- `bin_names` and, as its length, `n_bin_names`. -/
  binNames : Option (List Bytes)
  readAllBins : Bool
  module : Option Bytes
  function : Option Bytes
  arglist : Option L

/-- What a record owns, and the copy of its digest. -/
inductive BatchPart where
  | key | digest | policy | filter | ops | bins | module | function | arglist
deriving DecidableEq

/-- The vector of records, and what its records own. -/
inductive BatchAllocation where
  | vector
  | part (i : ℕ) (p : BatchPart)
deriving DecidableEq

/-- The converters of a batch element's properties. That of a policy returns the structure, whether its filter
is set and whether it was accepted, that of a UDF its out-parameters and whether it was accepted. The TTL of a
write's operations is preset. -/
structure BatchConverters (K P O L : Type) where
  key : JsValue → Res K
  policy : BatchType → JsValue → (P × Bool) × Res Unit
  operations : BatchType → List JsValue → O × Bool
  udfargs : JsValue → (Option Bytes × Option Bytes × Option L) × Res Unit
  binName : JsValue → Bytes

/-- A record with what has become of its conversion, and whether a `TypeError` was thrown. -/
structure BatchElement (K P O L : Type) where
  record : NativeBatchRecord K P O L
  rc : Res Unit
  raised : Bool

/-- The array converted so far: the records reserved in it. -/
structure BatchConversion (K P O L : Type) where
  records : List (NativeBatchRecord K P O L)
  rc : Res Unit
  raised : Bool

namespace NativeBatchRecord
variable {K P O L : Type} (c : BatchConverters K P O L)

/-- `as_batch_read_reserve` and its siblings, which leave a record of zero bytes. -/
def reserve (type : BatchType) : NativeBatchRecord K P O L :=
  ⟨type, none, none, none, none, false, none, none, none⟩

/-- What `key_from_jsobject` fills in. -/
def withKey (r : NativeBatchRecord K P O L) (key : K × Bool) : NativeBatchRecord K P O L := { r with key := some key }

/-- The `policy` property: the pointer is set before the policy is converted. -/
def readPolicy (r : NativeBatchRecord K P O L) (v : JsValue) : NativeBatchRecord K P O L × Res Unit :=
  if v.isObject then ({ r with policy := some (c.policy r.type v).1 }, (c.policy r.type v).2) else (r, .ok ())

/-- The `ops` property: operations that cannot be converted are an exception, not an error. -/
def readOps (r : NativeBatchRecord K P O L) : JsValue → NativeBatchRecord K P O L × Bool
  | .array xs => ({ r with ops := some (c.operations r.type xs).1 }, !(c.operations r.type xs).2)
  | _ => (r, false)

def readBins (r : NativeBatchRecord K P O L) : JsValue → NativeBatchRecord K P O L
  | .array xs => { r with binNames := some (xs.map c.binName) }
  | _ => r

def readReadAllBins (r : NativeBatchRecord K P O L) : JsValue → NativeBatchRecord K P O L
  | .bool b => { r with readAllBins := b }
  | _ => r

def readUdf (r : NativeBatchRecord K P O L) (v : JsValue) : NativeBatchRecord K P O L × Res Unit :=
  if v.isObject then
    let (module, function, arglist) := (c.udfargs v).1
    ({ r with module := module, function := function, arglist := arglist }, (c.udfargs v).2)
  else (r, .ok ())

/-- The key and the policy, which come first in each kind of record, and then the rest. -/
def readHead (type : BatchType) (obj : JsValue) (rest : NativeBatchRecord K P O L → BatchElement K P O L) :
    BatchElement K P O L :=
  match c.key (obj.field "key") with
  | .error e => ⟨reserve type, .error e, false⟩
  | .ok key =>
    match ((reserve type).withKey (key, digestOnly (obj.field "key"))).readPolicy c (obj.field "policy") with
    | (r, .error e) => ⟨r, .error e, false⟩
    | (r, .ok ()) => rest r

/-- `batch_read_record_from_jsobject` -/
def batchReadRecordFromJsobject (obj : JsValue) : BatchElement K P O L :=
  readHead c .read obj fun r =>
    let (r, raised) := r.readOps c (obj.field "ops")
    ⟨(r.readBins c (obj.field "bins")).readReadAllBins (obj.field "readAllBins"), .ok (), raised⟩

/-- `batch_write_record_from_jsobject` -/
def batchWriteRecordFromJsobject (obj : JsValue) : BatchElement K P O L :=
  readHead c .write obj fun r =>
    let (r, raised) := r.readOps c (obj.field "ops")
    ⟨r, .ok (), raised⟩

/-- `batch_apply_record_from_jsobject` -/
def batchApplyRecordFromJsobject (obj : JsValue) : BatchElement K P O L :=
  readHead c .apply obj fun r =>
    let (r, rc) := r.readUdf c (obj.field "udf")
    ⟨r, rc, false⟩

/-- `batch_remove_record_from_jsobject` -/
def batchRemoveRecordFromJsobject (obj : JsValue) : BatchElement K P O L :=
  readHead c .remove obj fun r => ⟨r, .ok (), false⟩

def fromJsobject (obj : JsValue) : BatchType → BatchElement K P O L
  | .read => batchReadRecordFromJsobject c obj
  | .write => batchWriteRecordFromJsobject c obj
  | .apply => batchApplyRecordFromJsobject c obj
  | .remove => batchRemoveRecordFromJsobject c obj

/-! ### What a record owns and what is released of it -/

section
variable {K P O L : Type} (r : NativeBatchRecord K P O L)

def policyParts : List BatchPart :=
  match r.policy with
  | some (_, filter) => (if filter then [.filter] else []) ++ [.policy]
  | none => []

def opsParts : List BatchPart := if r.ops.isSome then [.ops] else []

def udfParts : List BatchPart :=
  (if r.module.isSome then [.module] else []) ++ (if r.function.isSome then [.function] else []) ++
    if r.arglist.isSome then [.arglist] else []

def keyParts : List BatchPart :=
  match r.key with
  | some (_, copied) => .key :: if copied then [.digest] else []
  | none => []

/-- What has been allocated for the record. -/
def allocated : List BatchPart :=
  r.policyParts ++ r.opsParts ++ (if r.binNames.isSome then [.bins] else []) ++ r.udfParts ++ r.keyParts

/-- `batch_read_record_free` and its siblings, of which each releases what a record of its type can own. -/
def batchRecordFree : List BatchPart :=
  match r.type with
  | .read => r.policyParts ++ r.opsParts ++ if r.binNames.any (!·.isEmpty) then [.bins] else []
  | .write => r.policyParts ++ r.opsParts
  | .apply => r.policyParts ++ r.udfParts
  | .remove => r.policyParts

/-- What is released of a record, its key by `as_batch_records_destroy`. -/
def released : List BatchPart := r.batchRecordFree ++ if r.key.isSome then [.key] else []

/-- The array of `bins: []`, in which there is nothing that `n_bin_names` would count, and the copy of a digest. -/
def lost : List BatchPart :=
  (if r.binNames = some [] then [.bins] else []) ++ if r.key.any (·.2) then [.digest] else []

end

end NativeBatchRecord

namespace BatchConversion
variable {K P O L : Type} (c : BatchConverters K P O L)

/-- The loop of `batch_records_from_jsarray` and `batch_read_records_from_jsarray`, of which the second takes
every element for a read. -/
def loop (type : JsValue → Res BatchType) : List JsValue → BatchConversion K P O L → BatchConversion K P O L
  | [], s => s
  | v :: arr, s =>
    match v.asObject >>= type with
    | .error e => { s with rc := .error e }
    | .ok t =>
      let el := NativeBatchRecord.fromJsobject c v t
      let s := ⟨s.records ++ [el.record], el.rc, s.raised || el.raised⟩
      match el.rc with
      | .ok () => loop type arr s
      | .error _ => s

/-- The `type` property. -/
def elementType (obj : JsValue) : Res BatchType := do
  let code ← (obj.field "type").uint32Property
  match BatchType.ofCode code with
  | some t => return t
  | none => .error .paramErr

/-- `batch_records_from_jsarray` -/
def batchRecordsFromJsarray (arr : List JsValue) : BatchConversion K P O L :=
  loop c elementType arr ⟨[], .ok (), false⟩

/-- `batch_read_records_from_jsarray` -/
def batchReadRecordsFromJsarray (arr : List JsValue) : BatchConversion K P O L :=
  loop c (fun _ => .ok .read) arr ⟨[], .ok (), false⟩

/-- The parts of the records, each with the place of its record. -/
def parts (f : NativeBatchRecord K P O L → List BatchPart) (records : List (NativeBatchRecord K P O L)) :
    List BatchAllocation :=
  records.zipIdx.flatMap fun r => (f r.1).map (.part r.2)

def allocated (s : BatchConversion K P O L) : List BatchAllocation :=
  .vector :: parts NativeBatchRecord.allocated s.records

/-- `batch_records_free`: by the conversion if it has failed, or later by the command or its listener. -/
def batchRecordsFree (s : BatchConversion K P O L) : List BatchAllocation :=
  parts NativeBatchRecord.released s.records ++ [.vector]

def lost (s : BatchConversion K P O L) : List BatchAllocation := parts NativeBatchRecord.lost s.records

end BatchConversion

/-! ### What is released -/

namespace NativeBatchRecord
variable {K P O L : Type} {c : BatchConverters K P O L} {r : NativeBatchRecord K P O L}

/-- A record owns only what one of its type can own. -/
structure Fits (r : NativeBatchRecord K P O L) : Prop where
  bins : r.type ≠ .read → r.binNames = none
  ops : r.type ≠ .read → r.type ≠ .write → r.ops = none
  udf : r.type ≠ .apply → r.module = none ∧ r.function = none ∧ r.arglist = none

theorem Fits.reserve (type : BatchType) : (reserve type : NativeBatchRecord K P O L).Fits :=
  ⟨fun _ => rfl, fun _ _ => rfl, fun _ => ⟨rfl, rfl, rfl⟩⟩

theorem Fits.withKey (h : r.Fits) (key : K × Bool) : (r.withKey key).Fits := ⟨h.bins, h.ops, h.udf⟩

theorem readPolicy_type (v : JsValue) : (r.readPolicy c v).1.type = r.type := by
  unfold readPolicy; split <;> rfl

theorem Fits.readPolicy (h : r.Fits) (v : JsValue) : (r.readPolicy c v).1.Fits := by
  unfold NativeBatchRecord.readPolicy; split
  · exact ⟨h.bins, h.ops, h.udf⟩
  · exact h

theorem readOps_type (v : JsValue) : (r.readOps c v).1.type = r.type := by
  unfold readOps; split <;> rfl

theorem Fits.readOps (h : r.Fits) (ht : r.type = .read ∨ r.type = .write) (v : JsValue) : (r.readOps c v).1.Fits := by
  unfold NativeBatchRecord.readOps; split
  · exact ⟨h.bins, fun hr hw => (ht.elim hr hw).elim, h.udf⟩
  · exact h

theorem Fits.readBins (h : r.Fits) (ht : r.type = .read) (v : JsValue) : (r.readBins c v).Fits := by
  unfold NativeBatchRecord.readBins; split
  · exact ⟨fun hr => (hr ht).elim, h.ops, h.udf⟩
  · exact h

theorem Fits.readReadAllBins (h : r.Fits) (v : JsValue) : (r.readReadAllBins v).Fits := by
  unfold NativeBatchRecord.readReadAllBins; split
  · exact ⟨h.bins, h.ops, h.udf⟩
  · exact h

theorem Fits.readUdf (h : r.Fits) (ht : r.type = .apply) (v : JsValue) : (r.readUdf c v).1.Fits := by
  unfold NativeBatchRecord.readUdf; split
  · exact ⟨h.bins, h.ops, fun ha => (ha ht).elim⟩
  · exact h

/-- The head of a conversion hands on a record of the type that fits. -/
theorem Fits.readHead {type : BatchType} {obj : JsValue} {rest : NativeBatchRecord K P O L → BatchElement K P O L}
    (h : ∀ r : NativeBatchRecord K P O L, r.Fits → r.type = type → (rest r).record.Fits) :
    (readHead c type obj rest).record.Fits := by
  unfold NativeBatchRecord.readHead
  cases c.key (obj.field "key") with
  | error e => exact .reserve type
  | ok key =>
    have hpolicy := ((Fits.reserve type).withKey (key, digestOnly (obj.field "key"))).readPolicy (c := c)
      (obj.field "policy")
    have htype := readPolicy_type (c := c)
      (r := (NativeBatchRecord.reserve type).withKey (key, digestOnly (obj.field "key"))) (obj.field "policy")
    dsimp only
    split <;> rename_i heq <;> rw [heq] at hpolicy htype
    · exact hpolicy
    · exact h _ hpolicy htype

theorem fits_fromJsobject (obj : JsValue) (type : BatchType) : (fromJsobject c obj type).record.Fits := by
  cases type with
  | read =>
    exact .readHead fun r h ht =>
      ((h.readOps (.inl ht) _).readBins ((readOps_type _).trans ht) _).readReadAllBins _
  | write => exact .readHead fun r h ht => h.readOps (.inr ht) _
  | apply => exact .readHead fun r h ht => h.readUdf ht _
  | remove => exact .readHead fun r h _ => h

/-- Each part of a record is released or lost. -/
theorem Fits.count_allocated (h : r.Fits) (p : BatchPart) :
    r.allocated.count p = r.released.count p + r.lost.count p := by
  have hbins : ∀ b : Option (List Bytes), (if b.isSome then [BatchPart.bins] else []).count p =
      (if b.any (!·.isEmpty) then [BatchPart.bins] else []).count p +
        (if b = some [] then [.bins] else []).count p := by
    rintro (_ | _ | ⟨x, xs⟩) <;> simp
  have hkey : r.keyParts.count p = (if r.key.isSome then [BatchPart.key] else []).count p +
      (if r.key.any (·.2) then [BatchPart.digest] else []).count p := by
    unfold keyParts
    rcases r.key with _ | ⟨key, _ | _⟩
    · rfl
    · rfl
    · show ([BatchPart.key] ++ [BatchPart.digest]).count p = _
      rw [List.count_append]
      rfl
  unfold allocated released batchRecordFree lost
  cases ht : r.type with
  | read =>
    obtain ⟨hm, hf, ha⟩ := h.udf (by simp [ht])
    simp only [udfParts, hm, hf, ha, List.count_append, hbins, hkey, Option.isSome_none, Bool.false_eq_true, if_false,
      List.count_nil]
    omega
  | write =>
    obtain ⟨hm, hf, ha⟩ := h.udf (by simp [ht])
    simp only [udfParts, hm, hf, ha, h.bins (by simp [ht]), List.count_append, hkey, Option.isSome_none,
      Bool.false_eq_true, if_false, List.count_nil, reduceCtorEq]
    omega
  | apply =>
    simp only [opsParts, h.ops (by simp [ht]) (by simp [ht]), h.bins (by simp [ht]), List.count_append, hkey,
      Option.isSome_none, Bool.false_eq_true, if_false, List.count_nil, reduceCtorEq]
    omega
  | remove =>
    obtain ⟨hm, hf, ha⟩ := h.udf (by simp [ht])
    simp only [udfParts, opsParts, hm, hf, ha, h.ops (by simp [ht]) (by simp [ht]), h.bins (by simp [ht]),
      List.count_append, hkey, Option.isSome_none, Bool.false_eq_true, if_false, List.count_nil, reduceCtorEq]
    omega

theorem count_allocated_le (r : NativeBatchRecord K P O L) (p : BatchPart) : r.allocated.count p ≤ 1 := by
  have hnodup : r.allocated.Nodup := by
    unfold allocated policyParts opsParts udfParts keyParts
    rcases r.policy with _ | ⟨policy, _ | _⟩ <;> cases r.ops <;> cases r.binNames <;> cases r.module <;>
      cases r.function <;> cases r.arglist <;> rcases r.key with _ | ⟨key, _ | _⟩ <;> simp
  exact List.nodup_iff_count_le_one.mp hnodup p

end NativeBatchRecord

namespace BatchConversion
variable {K P O L : Type} {c : BatchConverters K P O L}

theorem count_parts (f : NativeBatchRecord K P O L → List BatchPart) (records : List (NativeBatchRecord K P O L))
    (i : ℕ) (p : BatchPart) :
    (parts f records).count (.part i p) = (records[i]?).elim 0 fun r => (f r).count p := by
  have hmap : ∀ (l : List BatchPart) (n : ℕ), (l.map (BatchAllocation.part n)).count (.part i p) =
      if n = i then l.count p else 0 := by
    intro l n
    split_ifs with h
    · subst h
      exact List.count_map_of_injective l _ (fun _ _ h => (BatchAllocation.part.inj h).2) p
    · refine List.count_eq_zero.mpr fun hmem => ?_
      obtain ⟨q, -, hq⟩ := List.mem_map.mp hmem
      exact h (BatchAllocation.part.inj hq).1
  have hfrom : ∀ n, ((records.zipIdx n).flatMap fun r => (f r.1).map (BatchAllocation.part r.2)).count
      (BatchAllocation.part i p) =
      if n ≤ i then (records[i - n]?).elim 0 fun r => (f r).count p else 0 := by
    induction records with
    | nil => simp
    | cons r records ih =>
      intro n
      rw [List.zipIdx_cons, List.flatMap_cons, List.count_append, ih, hmap]
      rcases Nat.lt_trichotomy n i with h | rfl | h
      · obtain ⟨k, rfl⟩ : ∃ k, i = n + 1 + k := ⟨i - (n + 1), by omega⟩
        rw [if_neg (by omega), if_pos (by omega), if_pos (by omega), Nat.zero_add, Nat.add_sub_cancel_left,
          show n + 1 + k - n = k + 1 by omega, List.getElem?_cons_succ]
      · rw [if_pos rfl, if_neg (by omega), if_pos (le_refl n), Nat.sub_self, List.getElem?_cons_zero]
        rfl
      · rw [if_neg (by omega), if_neg (by omega), if_neg (by omega)]
  exact (hfrom 0).trans (by simp)

theorem vector_notMem_parts (f : NativeBatchRecord K P O L → List BatchPart)
    (records : List (NativeBatchRecord K P O L)) : (parts f records).count .vector = 0 := by
  refine List.count_eq_zero.mpr fun h => ?_
  simp [parts] at h

/-- All records of the array fit their types. -/
theorem loop_fits {type : JsValue → Res BatchType} (arr : List JsValue) {s : BatchConversion K P O L}
    (h : ∀ r ∈ s.records, r.Fits) : ∀ r ∈ (loop c type arr s).records, r.Fits := by
  induction arr generalizing s with
  | nil => exact h
  | cons v arr ih =>
    rw [loop]
    split
    · exact h
    · rename_i t _
      have hnext : ∀ r ∈ s.records ++ [(NativeBatchRecord.fromJsobject c v t).record], r.Fits := by
        intro r hr
        rcases List.mem_append.mp hr with hr | hr
        · exact h r hr
        · rw [List.mem_singleton.mp hr]
          exact NativeBatchRecord.fits_fromJsobject v t
      dsimp only
      split
      · exact ih hnext
      · exact hnext

theorem mem_parts {f : NativeBatchRecord K P O L → List BatchPart} {records : List (NativeBatchRecord K P O L)}
    {a : BatchAllocation} :
    a ∈ parts f records ↔ ∃ i r p, records[i]? = some r ∧ p ∈ f r ∧ a = .part i p := by
  simp only [parts, List.mem_flatMap, Prod.exists, List.mem_zipIdx_iff_getElem?, List.mem_map]
  constructor
  · rintro ⟨r, i, hr, p, hp, rfl⟩
    exact ⟨i, r, p, hr, hp, rfl⟩
  · rintro ⟨i, r, p, hr, hp, rfl⟩
    exact ⟨r, i, hr, p, hp, rfl⟩

/-- The count of an allocation among those made is what is released of it and what is lost. -/
theorem count_balance {s : BatchConversion K P O L} (h : ∀ r ∈ s.records, r.Fits) (a : BatchAllocation) :
    s.allocated.count a = s.batchRecordsFree.count a + s.lost.count a := by
  unfold allocated batchRecordsFree lost
  rw [List.count_cons, List.count_append, List.count_singleton]
  cases a with
  | vector => simp only [vector_notMem_parts, beq_self_eq_true, if_true, Nat.add_zero]
  | part i p =>
    have hne : (BatchAllocation.vector == .part i p) = false := rfl
    have hne' : (BatchAllocation.vector == .part i p) = true ↔ False := by simp [hne]
    simp only [count_parts, hne', if_false, Nat.add_zero]
    rcases hr : s.records[i]? with _ | r
    · rfl
    · exact (h r (List.mem_of_getElem? hr)).count_allocated p

theorem count_allocated_le (s : BatchConversion K P O L) (a : BatchAllocation) : s.allocated.count a ≤ 1 := by
  unfold allocated
  rw [List.count_cons]
  cases a with
  | vector => simp [vector_notMem_parts]
  | part i p =>
    rw [count_parts, if_neg (by simp), Nat.add_zero]
    rcases s.records[i]? with _ | r
    · exact Nat.zero_le 1
    · exact r.count_allocated_le p

/-- The allocations of a batch are released once, but for arrays of no bins and copies of digests, which are not
released. -/
structure Settled (s : BatchConversion K P O L) : Prop where
  released : ∀ a, s.batchRecordsFree.count a = if a ∈ s.allocated ∧ a ∉ s.lost then 1 else 0
  lost : ∀ a, a ∈ s.lost ↔ ∃ i r, s.records[i]? = some r ∧ (r.binNames = some [] ∧ a = .part i .bins ∨
    (∃ key, r.key = some (key, true)) ∧ a = .part i .digest)
  allocated : ∀ a ∈ s.lost, a ∈ s.allocated

theorem settled_of_fits {s : BatchConversion K P O L} (h : ∀ r ∈ s.records, r.Fits) : s.Settled := by
  have hbalance := count_balance h
  have hle := s.count_allocated_le
  have hmem : ∀ a ∈ s.lost, a ∈ s.allocated := by
    intro a ha
    have hpos := List.count_pos_iff.mpr ha
    exact List.count_pos_iff.mp (by rw [hbalance]; omega)
  refine ⟨fun a => ?_, fun a => ?_, hmem⟩
  · specialize hbalance a
    specialize hle a
    split_ifs with ha
    · have hpos := List.count_pos_iff.mpr ha.1
      rw [List.count_eq_zero.mpr ha.2] at hbalance
      omega
    · rcases not_and_or.mp ha with ha | ha
      · rw [List.count_eq_zero.mpr ha] at hbalance
        omega
      · have hpos := List.count_pos_iff.mpr (not_not.mp ha)
        omega
  · unfold BatchConversion.lost
    rw [mem_parts]
    constructor
    · rintro ⟨i, r, p, hr, hp, rfl⟩
      rcases List.mem_append.mp hp with hp | hp
      · split_ifs at hp with hbins
        · exact ⟨i, r, hr, .inl ⟨hbins, by rw [List.mem_singleton.mp hp]⟩⟩
        · exact absurd hp List.not_mem_nil
      · split_ifs at hp with hcopied
        · obtain ⟨⟨key, copied⟩, hkey, hcopy⟩ := (Option.any_eq_true _ _).mp hcopied
          obtain rfl : copied = true := hcopy
          exact ⟨i, r, hr, .inr ⟨⟨key, hkey⟩, by rw [List.mem_singleton.mp hp]⟩⟩
        · exact absurd hp List.not_mem_nil
    · rintro ⟨i, r, hr, ⟨hbins, rfl⟩ | ⟨⟨key, hkey⟩, rfl⟩⟩
      · exact ⟨i, r, .bins, hr, List.mem_append_left _ (by rw [if_pos hbins]; exact List.mem_singleton_self _), rfl⟩
      · refine ⟨i, r, .digest, hr, List.mem_append_right _ ?_, rfl⟩
        rw [hkey]
        exact List.mem_singleton_self _

/-- Whatever the array holds and however its conversion ends, what has been allocated is released once, except
the array of a record whose `bins` are empty and the copy of the digest of a record whose key has no value, which
nothing releases. -/
theorem batchRecords_released (arr : List JsValue) :
    (batchRecordsFromJsarray c arr).Settled ∧ (batchReadRecordsFromJsarray c arr).Settled :=
  ⟨settled_of_fits (loop_fits arr fun _ hr => absurd hr List.not_mem_nil),
    settled_of_fits (loop_fits arr fun _ hr => absurd hr List.not_mem_nil)⟩

end BatchConversion

/-! ### What an accepted batch holds -/

namespace NativeBatchRecord
variable {K P O L : Type} (c : BatchConverters K P O L) (type : BatchType) (v : JsValue)

/-- An element's property that has to be an array to be looked at. -/
def arrayProperty : JsValue → Option (List JsValue)
  | .array xs => some xs
  | _ => none

/-- The record that an element of a type stands for. -/
structure Represents (r : NativeBatchRecord K P O L) : Prop where
  kind : r.type = type
  key : ∃ key, c.key (v.field "key") = .ok key ∧ r.key = some (key, digestOnly (v.field "key"))
  policy : r.policy = if (v.field "policy").isObject then some (c.policy type (v.field "policy")).1 else none
  accepted : (v.field "policy").isObject → (c.policy type (v.field "policy")).2 = .ok ()
  ops : r.ops = if type = .read ∨ type = .write then
    (arrayProperty (v.field "ops")).map fun xs => (c.operations type xs).1 else none
  binNames : r.binNames = if type = .read then (arrayProperty (v.field "bins")).map (·.map c.binName) else none
  readAllBins : r.readAllBins = true ↔ type = .read ∧ v.field "readAllBins" = .bool true
  udf : (r.module, r.function, r.arglist) =
    if type = .apply ∧ (v.field "udf").isObject then (c.udfargs (v.field "udf")).1 else (none, none, none)
  applied : type = .apply → (v.field "udf").isObject → (c.udfargs (v.field "udf")).2 = .ok ()

/-- The operations of an element are an array that cannot be converted. -/
def BadOps : Prop :=
  (type = .read ∨ type = .write) ∧ ∃ xs, v.field "ops" = .array xs ∧ (c.operations type xs).2 = false

variable {c type v}

/-- The record with the key and the policy of an element. -/
def head (c : BatchConverters K P O L) (type : BatchType) (v : JsValue) (key : K) : NativeBatchRecord K P O L :=
  ⟨type, some (key, digestOnly (v.field "key")),
    if (v.field "policy").isObject then some (c.policy type (v.field "policy")).1 else none,
    none, none, false, none, none, none⟩

theorem readHead_ok {rest : NativeBatchRecord K P O L → BatchElement K P O L}
    (h : (readHead c type v rest).rc = .ok ()) :
    ∃ key, c.key (v.field "key") = .ok key ∧
      ((v.field "policy").isObject → (c.policy type (v.field "policy")).2 = .ok ()) ∧
      readHead c type v rest = rest (head c type v key) := by
  unfold readHead at h ⊢
  cases hkey : c.key (v.field "key") with
  | error e => simp [hkey] at h
  | ok key =>
    refine ⟨key, rfl, ?_⟩
    simp only [hkey] at h ⊢
    unfold readPolicy at h ⊢
    unfold head
    split_ifs at h ⊢ with hobj
    · rcases hrc : (c.policy type (v.field "policy")).2 with e | ⟨⟨⟩⟩
      · simp [withKey, reserve, hrc] at h
      · simp [withKey, reserve, hrc]
    · exact ⟨fun ho => absurd ho hobj, rfl⟩

section
variable {key : Option (K × Bool)} {policy : Option (P × Bool)} {ops : Option O}
  {bins : Option (List Bytes)} {all : Bool}
  {m f : Option Bytes} {args : Option L}

theorem readOps_fst (w : JsValue) :
    ((⟨type, key, policy, none, bins, all, m, f, args⟩ : NativeBatchRecord K P O L).readOps c w).1 =
      ⟨type, key, policy, (arrayProperty w).map fun xs => (c.operations type xs).1, bins, all, m, f, args⟩ := by
  cases w <;> rfl

theorem readOps_snd (r : NativeBatchRecord K P O L) (w : JsValue) :
    (r.readOps c w).2 = true ↔ ∃ xs, w = .array xs ∧ (c.operations r.type xs).2 = false := by
  cases w <;> simp [readOps]

theorem readBins_eq (w : JsValue) :
    (⟨type, key, policy, ops, none, all, m, f, args⟩ : NativeBatchRecord K P O L).readBins c w =
      ⟨type, key, policy, ops, (arrayProperty w).map (·.map c.binName), all, m, f, args⟩ := by
  cases w <;> rfl

theorem readReadAllBins_eq (w : JsValue) :
    ∃ b, (⟨type, key, policy, ops, bins, false, m, f, args⟩ : NativeBatchRecord K P O L).readReadAllBins w =
      ⟨type, key, policy, ops, bins, b, m, f, args⟩ ∧ (b = true ↔ w = .bool true) := by
  unfold readReadAllBins
  split
  · exact ⟨_, rfl, by simp⟩
  · rename_i hne
    exact ⟨false, rfl, fun hb => absurd hb (by simp), fun hw => absurd hw (hne true)⟩

theorem readUdf_fst (w : JsValue) :
    ∃ m f a, ((⟨type, key, policy, ops, bins, all, none, none, none⟩ : NativeBatchRecord K P O L).readUdf c w).1 =
      ⟨type, key, policy, ops, bins, all, m, f, a⟩ ∧
      (m, f, a) = if w.isObject then (c.udfargs w).1 else (none, none, none) := by
  unfold readUdf
  split_ifs
  · exact ⟨_, _, _, rfl, rfl⟩
  · exact ⟨_, _, _, rfl, rfl⟩

theorem readUdf_snd (r : NativeBatchRecord K P O L) (w : JsValue) :
    (r.readUdf c w).2 = .ok () ↔ (w.isObject → (c.udfargs w).2 = .ok ()) := by
  unfold readUdf
  split_ifs with h <;> simp [h]

end

/-- An element that is converted is the record it stands for, and a `TypeError` is thrown if its operations
are bad. -/
theorem represents_of_ok (h : (fromJsobject c v type).rc = .ok ()) :
    Represents c type v (fromJsobject c v type).record ∧
      ((fromJsobject c v type).raised = true ↔ BadOps c type v) := by
  cases type with
  | read =>
    obtain ⟨key, hkey, haccepted, heq⟩ := readHead_ok h
    have hraised := readOps_snd (c := c) (head c .read v key) (v.field "ops")
    obtain ⟨b, hall, hb⟩ := readReadAllBins_eq (v.field "readAllBins")
    have hel : fromJsobject c v .read =
        ⟨(((head c .read v key).readOps c (v.field "ops")).1.readBins c (v.field "bins")).readReadAllBins
          (v.field "readAllBins"), .ok (), ((head c .read v key).readOps c (v.field "ops")).2⟩ := heq
    rw [hel]
    unfold head at hraised ⊢
    rw [readOps_fst, readBins_eq, hall]
    refine ⟨⟨rfl, ⟨key, hkey, rfl⟩, rfl, haccepted, rfl, rfl, ?_, rfl, nofun⟩, ?_⟩
    · exact ⟨fun h => ⟨rfl, hb.mp h⟩, fun h => hb.mpr h.2⟩
    · exact hraised.trans ⟨fun h => ⟨.inl rfl, h⟩, And.right⟩
  | write =>
    obtain ⟨key, hkey, haccepted, heq⟩ := readHead_ok h
    have hraised := readOps_snd (c := c) (head c .write v key) (v.field "ops")
    have hel : fromJsobject c v .write =
        ⟨((head c .write v key).readOps c (v.field "ops")).1, .ok (),
          ((head c .write v key).readOps c (v.field "ops")).2⟩ := heq
    rw [hel]
    unfold head at hraised ⊢
    rw [readOps_fst]
    refine ⟨⟨rfl, ⟨key, hkey, rfl⟩, rfl, haccepted, rfl, rfl, by simp, rfl, nofun⟩, ?_⟩
    exact hraised.trans ⟨fun h => ⟨.inr rfl, h⟩, And.right⟩
  | apply =>
    obtain ⟨key, hkey, haccepted, heq⟩ := readHead_ok h
    obtain ⟨m, f, a, hudf, hmfa⟩ := readUdf_fst (c := c) (v.field "udf")
    have hel : fromJsobject c v .apply =
        ⟨((head c .apply v key).readUdf c (v.field "udf")).1,
          ((head c .apply v key).readUdf c (v.field "udf")).2, false⟩ := heq
    have happlied := (readUdf_snd _ _).mp (congrArg BatchElement.rc hel ▸ h)
    rw [hel]
    unfold head
    rw [hudf]
    refine ⟨⟨rfl, ⟨key, hkey, rfl⟩, rfl, haccepted, rfl, rfl, by simp, by simpa using hmfa, ?_⟩, by simp [BadOps]⟩
    exact fun _ => happlied
  | remove =>
    obtain ⟨key, hkey, haccepted, heq⟩ := readHead_ok h
    have hel : fromJsobject c v .remove = ⟨head c .remove v key, .ok (), false⟩ := heq
    rw [hel]
    exact ⟨⟨rfl, ⟨key, hkey, rfl⟩, rfl, haccepted, rfl, rfl, by simp [head], rfl, nofun⟩, by simp [BadOps]⟩

theorem readHead_of_represents {r : NativeBatchRecord K P O L} (h : Represents c type v r)
    (rest : NativeBatchRecord K P O L → BatchElement K P O L) : ∃ r, readHead c type v rest = rest r := by
  obtain ⟨key, hkey, -⟩ := h.key
  unfold readHead readPolicy
  simp only [hkey]
  split_ifs with hobj
  · rw [show (c.policy ((reserve type).withKey (key, digestOnly (v.field "key")) :
        NativeBatchRecord K P O L).type (v.field "policy")).2 = .ok () from
      h.accepted hobj]
    exact ⟨_, rfl⟩
  · exact ⟨_, rfl⟩

/-- An element is converted if there is a record that it stands for. -/
theorem ok_of_represents {r : NativeBatchRecord K P O L} (h : Represents c type v r) :
    (fromJsobject c v type).rc = .ok () := by
  cases type with
  | read =>
    obtain ⟨r, heq⟩ := readHead_of_represents h _
    exact congrArg BatchElement.rc heq
  | write =>
    obtain ⟨r, heq⟩ := readHead_of_represents h _
    exact congrArg BatchElement.rc heq
  | apply =>
    obtain ⟨r, heq⟩ := readHead_of_represents h _
    exact (congrArg BatchElement.rc heq).trans ((readUdf_snd r _).mpr (h.applied rfl))
  | remove =>
    obtain ⟨r, heq⟩ := readHead_of_represents h _
    exact congrArg BatchElement.rc heq

end NativeBatchRecord

namespace BatchConversion
variable {K P O L : Type} (c : BatchConverters K P O L) (type : JsValue → Res BatchType)

/-- An element and the record it becomes. -/
structure Converted (v : JsValue) (r : NativeBatchRecord K P O L) : Prop where
  object : v.isObject = true
  type : type v = .ok r.type
  represents : r.Represents c r.type v

variable {c type}

theorem converted_iff {v : JsValue} :
    (∃ r, Converted c type v r) ↔
      ∃ t, v.asObject >>= type = .ok t ∧ (NativeBatchRecord.fromJsobject c v t).rc = .ok () := by
  unfold JsValue.asObject
  constructor
  · rintro ⟨r, hr⟩
    refine ⟨r.type, ?_, NativeBatchRecord.ok_of_represents hr.represents⟩
    rw [if_pos hr.object]
    exact hr.type
  · rintro ⟨t, ht, hrc⟩
    split_ifs at ht with hobj
    · have hrep := (NativeBatchRecord.represents_of_ok hrc).1
      have hkind := hrep.kind
      exact ⟨_, hobj, hkind.symm ▸ ht, hkind.symm ▸ hrep⟩
    · exact absurd ht nofun

/-- What a conversion of a batch amounts to. -/
structure Correct (c : BatchConverters K P O L) (type : JsValue → Res BatchType) (arr : List JsValue)
    (s : BatchConversion K P O L) : Prop where
  accepts : s.rc = .ok () ↔ ∀ v ∈ arr, ∃ r, Converted c type v r
  represents : s.rc = .ok () → List.Forall₂ (Converted c type) arr s.records
  raises : s.rc = .ok () → (s.raised = true ↔ ∃ v ∈ arr, ∃ t, type v = .ok t ∧ NativeBatchRecord.BadOps c t v)

theorem loop_cons_ok {v : JsValue} {t : BatchType} (ht : v.asObject >>= type = .ok t)
    (hrc : (NativeBatchRecord.fromJsobject c v t).rc = .ok ()) (arr : List JsValue) (s : BatchConversion K P O L) :
    loop c type (v :: arr) s = loop c type arr ⟨s.records ++ [(NativeBatchRecord.fromJsobject c v t).record], .ok (),
      s.raised || (NativeBatchRecord.fromJsobject c v t).raised⟩ := by
  rw [loop, ht]
  simp only [hrc]

theorem loop_cons_error {v : JsValue} (h : ¬ ∃ r, Converted c type v r) (arr : List JsValue)
    (s : BatchConversion K P O L) : (loop c type (v :: arr) s).rc ≠ .ok () := by
  rw [loop]
  cases ht : v.asObject >>= type with
  | error e => simp
  | ok t =>
    cases hrc : (NativeBatchRecord.fromJsobject c v t).rc with
    | error e => simp [hrc]
    | ok u => exact absurd (converted_iff.mpr ⟨t, ht, hrc⟩) h

/-- The elements are converted one after another, up to the first that is no record. -/
theorem loop_correct (arr : List JsValue) {s : BatchConversion K P O L} (hs : s.rc = .ok ()) :
    ((loop c type arr s).rc = .ok () ↔ ∀ v ∈ arr, ∃ r, Converted c type v r) ∧
      ((loop c type arr s).rc = .ok () →
        (∃ rs, (loop c type arr s).records = s.records ++ rs ∧ List.Forall₂ (Converted c type) arr rs) ∧
          ((loop c type arr s).raised = true ↔ s.raised = true ∨
            ∃ v ∈ arr, ∃ t, type v = .ok t ∧ NativeBatchRecord.BadOps c t v)) := by
  induction arr generalizing s with
  | nil => simp [loop, hs]
  | cons v arr ih =>
    by_cases hv : ∃ r, Converted c type v r
    · obtain ⟨t, ht, hrc⟩ := converted_iff.mp hv
      obtain ⟨hrep, hraised⟩ := NativeBatchRecord.represents_of_ok hrc
      obtain ⟨r, hr⟩ := hv
      have htype : type v = .ok t := by
        rw [JsValue.asObject, if_pos hr.object] at ht
        exact ht
      rw [loop_cons_ok ht hrc]
      obtain ⟨haccepts, hholds⟩ := ih (s := ⟨s.records ++ [(NativeBatchRecord.fromJsobject c v t).record], .ok (),
        s.raised || (NativeBatchRecord.fromJsobject c v t).raised⟩) rfl
      refine ⟨?_, fun hok => ?_⟩
      · rw [haccepts, List.forall_mem_cons]
        exact ⟨fun h => ⟨⟨r, hr⟩, h⟩, And.right⟩
      · obtain ⟨⟨rs, hrs, hall⟩, hr'⟩ := hholds hok
        refine ⟨⟨_ :: rs, by rw [hrs, List.append_assoc]; rfl, .cons ?_ hall⟩, ?_⟩
        · exact ⟨hr.object, hrep.kind.symm ▸ htype, hrep.kind.symm ▸ hrep⟩
        · rw [hr', Bool.or_eq_true, hraised, or_assoc, List.exists_mem_cons_iff]
          refine or_congr_right (or_congr_left ⟨fun h => ⟨t, htype, h⟩, ?_⟩)
          rintro ⟨t', ht', hbad⟩
          rw [htype] at ht'
          exact Except.ok.inj ht' ▸ hbad
    · have herr := loop_cons_error hv arr s
      exact ⟨⟨fun h => absurd h herr, fun h => absurd (h v List.mem_cons_self) hv⟩, fun h => absurd h herr⟩

theorem correct_loop (arr : List JsValue) : Correct c type arr (loop c type arr ⟨[], .ok (), false⟩) := by
  obtain ⟨haccepts, hholds⟩ := @loop_correct _ _ _ _ c type arr ⟨[], .ok (), false⟩ rfl
  refine ⟨haccepts, fun hok => ?_, fun hok => ?_⟩
  · obtain ⟨⟨rs, hrs, hall⟩, -⟩ := hholds hok
    rw [hrs]
    exact hall
  · rw [(hholds hok).2]
    exact or_iff_right Bool.false_ne_true

/-- A batch is accepted if each element is a record, and then its records are those of the elements, in their
order; a `TypeError` is thrown although the batch is accepted if the operations of an element are bad. -/
theorem batchRecords_represent (arr : List JsValue) :
    Correct c elementType arr (batchRecordsFromJsarray c arr) ∧
      Correct c (fun _ => .ok .read) arr (batchReadRecordsFromJsarray c arr) :=
  ⟨correct_loop arr, correct_loop arr⟩

end BatchConversion

end AerospikeNode
