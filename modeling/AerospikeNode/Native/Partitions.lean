import AerospikeNode.Lib.Memory
import AerospikeNode.Native.Read

/-!
# Partition filters

`partitions_from_jsobject` (`src/main/policy.cc`) writes to an `as_partition_filter` that its callers have
initialised with `as_partition_filter_set_all`. Begin and count are written as 32 bits each to fields of 16;
for the digest the address of its bytes is taken for that of a pointer to them, so that the first eight of
these bytes, which nobody has set, say where the digest goes.

`partitions_right_iff` says for which filters this is right whatever these bytes are.
-/

namespace AerospikeNode

def AS_PARTITION_FILTER_DIGEST_SIZE : ℕ := 20

/-- What is behind the data of a buffer, the block that `cf_malloc` would return, and whether assertions are
compiled in. -/
structure BlobEnv where
  beyond : Memory
  block : ℕ
  asserts : Bool

/-! ### Reading -/

section
variable (env : BlobEnv)

/-- `extract_blob_from_jsobject` for a buffer; `data` is the address of the pointer to the bytes. -/
def extractBlobFromJsobject (data len : ℕ) (bs : Bytes) (m : Memory) : Res Memory :=
  if len = 0 then .ok ((m.store data 8 env.block).write env.block bs)
  else if env.asserts && (m.load data 8 = 0 || len ≠ bs.length) then .error .abort
  else .ok (m.write (m.load data 8) ((bs ++ env.beyond.read 0 len).take len))

/-- `get_optional_bytes_property`, and whether the property is defined. -/
def optionalBytesProperty (data len : ℕ) (m : Memory) : JsValue → Res (Memory × Bool)
  | .buffer bs => (extractBlobFromJsobject env data len bs m).map fun m => (m, true)
  | .undefined | .null => .ok (m, false)
  | _ => .error .paramErr

end

namespace PartitionFilter

/-! The fields of an `as_partition_filter`: two `uint16_t`, and a digest, that is a flag and 20 bytes. -/

def begin' : ℕ := 0
def count : ℕ := 2
def digestInit : ℕ := 4
def digestValue : ℕ := 5
def sizeof : ℕ := 40

/-- Writing to a `uint32_t *`, if there is a value. -/
def setUint32 (m : Memory) (a : ℕ) : Option UInt32 → Memory
  | some u => m.store a 4 u.toNat
  | none => m

end PartitionFilter

open PartitionFilter

section
variable (env : BlobEnv) (pf : ℕ)

/-- The properties of the filter object. -/
def readPartFilter (filter : JsValue) (m : Memory) : Memory × Res Unit :=
  match (filter.field "begin").optionalUint32Property with
  | .error e => (m, .error e)
  | .ok b =>
    let m := setUint32 m (pf + begin') b
    match (filter.field "count").optionalUint32Property with
    | .error e => (m, .error e)
    | .ok c =>
      let m := setUint32 m (pf + count) c
      match optionalBytesProperty env (pf + digestValue) AS_PARTITION_FILTER_DIGEST_SIZE m (filter.field "digest") with
      | .error e => (m, .error e)
      | .ok (m, digestDefined) => (if digestDefined then m.store (pf + digestInit) 1 1 else m, .ok ())

/-- `partitions_from_jsobject`: the memory it leaves, and whether a filter is defined. -/
def partitionsFromJsobject (obj : JsValue) (m : Memory) : Memory × Res Bool :=
  if obj.isObject then
    match (obj.field "pfEnabled").optionalBoolProperty with
    | .error e => (m, .error e)
    | .ok enabled =>
      if enabled = some true then
        if (obj.field "partFilter").isObject then
          ((readPartFilter env pf (obj.field "partFilter") m).1,
            (readPartFilter env pf (obj.field "partFilter") m).2.map fun _ => true)
        else (m, .error .paramErr)
      else (m, .ok false)
  else (m, .error .abort)

end

/-! ### What it is for -/

/-- `as_partition_filter_set_all` -/
structure SetAll (m : Memory) (pf : ℕ) : Prop where
  begin' : m.load (pf + begin') 2 = 0
  count : m.load (pf + count) 2 = 4096
  init : m (pf + digestInit) = 0

/-- The field holds the number, or what it held before if there is none. -/
def BoundDenotes (old new : ℕ) : JsValue → Prop
  | .num n => n.Is new
  | v => v.isNullish = true ∧ new = old

def DigestDenotes (m m' : Memory) (pf : ℕ) : JsValue → Prop
  | .buffer bs => bs.length = AS_PARTITION_FILTER_DIGEST_SIZE ∧ m' (pf + digestInit) = 1 ∧
      m'.read (pf + digestValue) AS_PARTITION_FILTER_DIGEST_SIZE = bs
  | v => v.isNullish = true ∧ m' (pf + digestInit) = m (pf + digestInit)

structure FilterDenotes (m m' : Memory) (pf : ℕ) (filter : JsValue) : Prop where
  begin' : BoundDenotes (m.load (pf + begin') 2) (m'.load (pf + begin') 2) (filter.field "begin")
  count : BoundDenotes (m.load (pf + count) 2) (m'.load (pf + count) 2) (filter.field "count")
  digest : DigestDenotes m m' pf (filter.field "digest")

/-- The filter is rejected, or is the one that was given, and nothing outside of it is written. -/
structure PartitionsRight (env : BlobEnv) (pf : ℕ) (obj : JsValue) (m : Memory) : Prop where
  denotes : (partitionsFromJsobject env pf obj m).2 = .ok true →
    FilterDenotes m (partitionsFromJsobject env pf obj m).1 pf (obj.field "partFilter")
  inside : Memory.Outside m (partitionsFromJsobject env pf obj m).1 pf sizeof
  survives : (partitionsFromJsobject env pf obj m).2 ≠ .error .abort

/-! ### The filters it is right for -/

/-- A number or nothing. -/
def IsOptionalNumber (v : JsValue) : Prop := v.isNullish = true ∨ ∃ n, v = .num n

def IsOptionalBuffer (v : JsValue) : Prop := v.isNullish = true ∨ ∃ bs, v = .buffer bs

/-- An integer from 0 to 65535, or nothing. -/
def BoundFits (v : JsValue) : Prop := v.isNullish = true ∨ ∃ n, ∃ b : ℕ, v = .num n ∧ n.Is b ∧ b < 2 ^ 16

/-- A part of a wrong type; or bounds that fit, where a begin has a count, and no digest. -/
def PartFilterFits (filter : JsValue) : Prop :=
  ¬IsOptionalNumber (filter.field "begin") ∨ ¬IsOptionalNumber (filter.field "count") ∨
    ¬IsOptionalBuffer (filter.field "digest") ∨
    BoundFits (filter.field "begin") ∧ BoundFits (filter.field "count") ∧
      ((filter.field "count").isNullish = true → (filter.field "begin").isNullish = true) ∧
      (filter.field "digest").isNullish = true

/-- The options of a scan or query, which are no longer looked at if `pfEnabled` is not `true`. -/
def PartitionsFit (obj : JsValue) : Prop :=
  obj.isObject = true ∧ (obj.field "pfEnabled" ≠ .bool true ∨ (obj.field "partFilter").isObject = false ∨
    PartFilterFits (obj.field "partFilter"))

/-! ### Reading the bounds -/

section
variable {pf : ℕ} {m : Memory} {v filter : JsValue}

theorem optionalUint32Property_num {n : JsNumber} :
    (JsValue.num n).optionalUint32Property = .ok (some n.toUint32) := rfl

theorem optionalUint32Property_nullish (h : v.isNullish = true) : v.optionalUint32Property = .ok none := by
  cases v with
  | undefined | null => rfl
  | _ => cases h

theorem optionalUint32Property_of_not (h : ¬IsOptionalNumber v) : v.optionalUint32Property = .error .paramErr := by
  cases v
  case num n => exact absurd (.inr ⟨n, rfl⟩) h
  case undefined => exact absurd (.inl rfl) h
  case null => exact absurd (.inl rfl) h
  all_goals rfl

theorem boundDenotes_num {old new : ℕ} {n : JsNumber} : BoundDenotes old new (.num n) ↔ n.Is new := Iff.rfl

theorem boundDenotes_nullish {old new : ℕ} (h : v.isNullish = true) : BoundDenotes old new v ↔ new = old := by
  cases v <;> simp [BoundDenotes, JsValue.isNullish] at h ⊢

/-- What two bytes hold is a bound that fits. -/
theorem BoundDenotes.fits {old a : ℕ} (h : BoundDenotes old (m.load a 2) v) : BoundFits v := by
  cases v
  case num n => exact .inr ⟨n, _, rfl, h, Memory.load_lt⟩
  all_goals exact .inl h.1

theorem setUint32_load_of_disjoint {a b k : ℕ} {u : Option UInt32} (h : b + k ≤ a ∨ a + 4 ≤ b) :
    (setUint32 m a u).load b k = m.load b k := by
  cases u with
  | none => rfl
  | some u => exact Memory.load_store_of_disjoint h

theorem outside_setUint32 {a b n : ℕ} {u : Option UInt32} (h1 : a ≤ b) (h2 : b + 4 ≤ a + n) :
    Memory.Outside m (setUint32 m b u) a n := by
  cases u with
  | none => exact fun _ _ => rfl
  | some u => exact Memory.outside_store h1 h2

theorem IsOptionalNumber.read (h : IsOptionalNumber v) :
    v.isNullish = true ∧ v.optionalUint32Property = .ok none ∨
      ∃ n, v = .num n ∧ v.optionalUint32Property = .ok (some n.toUint32) := by
  rcases h with h | ⟨n, rfl⟩
  · exact .inl ⟨h, optionalUint32Property_nullish h⟩
  · exact .inr ⟨n, rfl, optionalUint32Property_num⟩

theorem IsOptionalNumber.exists_read (h : IsOptionalNumber v) : ∃ b, v.optionalUint32Property = .ok b := by
  rcases h.read with ⟨-, h⟩ | ⟨n, -, h⟩
  · exact ⟨_, h⟩
  · exact ⟨_, h⟩

theorem BoundFits.read (h : BoundFits v) :
    v.isNullish = true ∧ v.optionalUint32Property = .ok none ∨
      ∃ n u, v = .num n ∧ n.Is u.toNat ∧ u.toNat < 2 ^ 16 ∧ v.optionalUint32Property = .ok (some u) := by
  rcases h with h | ⟨n, b, rfl, hn, hb⟩
  · exact .inl ⟨h, optionalUint32Property_nullish h⟩
  · have hu := hn.toNat_toUint32 (hb.trans (by decide))
    exact .inr ⟨n, n.toUint32, rfl, by rwa [hu], by rwa [hu], optionalUint32Property_num⟩

/-! ### What is left in memory -/

/-- The memory when begin and count have been read. -/
def setBounds (m : Memory) (pf : ℕ) (b c : Option UInt32) : Memory :=
  setUint32 (setUint32 m (pf + begin') b) (pf + count) c

variable {env : BlobEnv} {b c : Option UInt32}

/-- The count is written up to two bytes into the digest. -/
theorem outside_setBounds : Memory.Outside m (setBounds m pf b c) pf 6 :=
  (outside_setUint32 le_rfl (by omega)).trans (outside_setUint32 (Nat.le_add_right _ _) le_rfl)

theorem extractBlobFromJsobject_digest (env : BlobEnv) (m : Memory) (data : ℕ) (bs : Bytes) :
    extractBlobFromJsobject env data 20 bs m = .error .abort ∨
    extractBlobFromJsobject env data 20 bs m =
      .ok (m.write (m.load data 8) ((bs ++ env.beyond.read 0 20).take 20)) := by
  unfold extractBlobFromJsobject
  rw [if_neg (by decide)]
  split
  · exact .inl rfl
  · exact .inr rfl

theorem readPartFilter_of_begin (h : ¬IsOptionalNumber (filter.field "begin")) :
    readPartFilter env pf filter m = (m, .error .paramErr) := by
  unfold readPartFilter
  rw [optionalUint32Property_of_not h]

theorem readPartFilter_of_count (hb : (filter.field "begin").optionalUint32Property = .ok b)
    (h : ¬IsOptionalNumber (filter.field "count")) :
    readPartFilter env pf filter m = (setUint32 m (pf + begin') b, .error .paramErr) := by
  unfold readPartFilter
  rw [hb, optionalUint32Property_of_not h]

variable (hb : (filter.field "begin").optionalUint32Property = .ok b)
  (hc : (filter.field "count").optionalUint32Property = .ok c)
include hb hc

theorem readPartFilter_of_digest (h : ¬IsOptionalBuffer (filter.field "digest")) :
    readPartFilter env pf filter m = (setBounds m pf b c, .error .paramErr) := by
  unfold readPartFilter
  rw [hb, hc]
  generalize filter.field "digest" = d at h
  cases d
  case buffer bs => exact absurd (.inr ⟨bs, rfl⟩) h
  case undefined => exact absurd (.inl rfl) h
  case null => exact absurd (.inl rfl) h
  all_goals rfl

theorem readPartFilter_nullish (h : (filter.field "digest").isNullish = true) :
    readPartFilter env pf filter m = (setBounds m pf b c, .ok ()) := by
  unfold readPartFilter
  rw [hb, hc]
  generalize filter.field "digest" = d at h
  cases d
  case undefined => rfl
  case null => rfl
  all_goals cases h

theorem readPartFilter_buffer (env : BlobEnv) (pf : ℕ) (m : Memory) {bs : Bytes}
    (h : filter.field "digest" = .buffer bs) :
    (readPartFilter env pf filter m).2 = .error .abort ∨
    (readPartFilter env pf filter m).1 =
      ((setBounds m pf b c).write ((setBounds m pf b c).load (pf + digestValue) 8)
        ((bs ++ env.beyond.read 0 20).take 20)).store (pf + digestInit) 1 1 := by
  simp only [readPartFilter, hb, hc, h, optionalBytesProperty, setBounds]
  rcases extractBlobFromJsobject_digest env (setUint32 (setUint32 m (pf + begin') b) (pf + count) c)
    (pf + digestValue) bs with he | he
  · left
    rw [show AS_PARTITION_FILTER_DIGEST_SIZE = 20 from rfl, he]
    rfl
  · right
    rw [show AS_PARTITION_FILTER_DIGEST_SIZE = 20 from rfl, he]
    rfl

end

/-! ### The filters that are read right -/

section
variable {pf : ℕ} {m : Memory} {filter : JsValue} {b c : Option UInt32}

theorem load_begin_setBounds : (setBounds m pf b c).load (pf + begin') 2 =
    (setUint32 m (pf + begin') b).load (pf + begin') 2 :=
  setUint32_load_of_disjoint (.inl le_rfl)

theorem load_count_some {u : UInt32} : (setBounds m pf b (some u)).load (pf + count) 2 = u.toNat % 2 ^ 16 := by
  have h := Memory.load_store (m := setUint32 m (pf + begin') b) (a := pf + count) (k := 0) (n := 2) (j := 2)
    (v := u.toNat)
  rwa [Nat.pow_zero, Nat.div_one] at h

/-- A begin without a count: the upper half of it is the count. -/
theorem load_count_none {u : UInt32} : (setBounds m pf (some u) none).load (pf + count) 2 = u.toNat / 2 ^ 16 := by
  have h := Memory.load_store (m := m) (a := pf + begin') (k := 2) (n := 2) (j := 0) (v := u.toNat)
  have hu : u.toNat < 2 ^ 32 := u.toNat_lt
  exact h.trans (Nat.mod_eq_of_lt (by omega))

theorem load_begin_some {u : UInt32} : (setBounds m pf (some u) c).load (pf + begin') 2 = u.toNat % 2 ^ 16 := by
  have h := Memory.load_store (m := m) (a := pf + begin') (k := 0) (n := 2) (j := 2) (v := u.toNat)
  rw [load_begin_setBounds]
  rwa [Nat.pow_zero, Nat.div_one] at h

/-- A count that fits leaves the flag of the digest as it was. -/
theorem digestInit_setBounds (h0 : m (pf + digestInit) = 0) (hc : ∀ u, c = some u → u.toNat < 2 ^ 16) :
    setBounds m pf b c (pf + digestInit) = m (pf + digestInit) := by
  have hb : setUint32 m (pf + begin') b (pf + digestInit) = m (pf + digestInit) :=
    outside_setUint32 (a := pf) (n := 4) le_rfl le_rfl _ (.inr le_rfl)
  cases c with
  | none => exact hb
  | some u =>
    have h := Memory.load_store (m := setUint32 m (pf + begin') b) (a := pf + count) (k := 2) (n := 1) (j := 1)
      (v := u.toNat)
    have hu := hc u rfl
    rw [Nat.div_eq_of_lt (by simpa using hu), Nat.zero_mod] at h
    have h1 : (setBounds m pf b (some u) (pf + digestInit)).toNat = 0 := h
    rw [h0]
    exact UInt8.toNat.inj h1

theorem filterDenotes_setBounds (hm : SetAll m pf) (hb : (filter.field "begin").optionalUint32Property = .ok b)
    (hc : (filter.field "count").optionalUint32Property = .ok c) (fb : BoundFits (filter.field "begin"))
    (fc : BoundFits (filter.field "count"))
    (hbc : (filter.field "count").isNullish = true → (filter.field "begin").isNullish = true)
    (hd : (filter.field "digest").isNullish = true) : FilterDenotes m (setBounds m pf b c) pf filter where
  begin' := by
    rcases fb.read with ⟨hn, hr⟩ | ⟨n, u, hn, hi, hu, hr⟩
    · obtain rfl : none = b := Except.ok.inj (hr.symm.trans hb)
      exact (boundDenotes_nullish hn).2 load_begin_setBounds
    · obtain rfl : some u = b := Except.ok.inj (hr.symm.trans hb)
      rw [hn, boundDenotes_num, load_begin_some, Nat.mod_eq_of_lt hu]
      exact hi
  count := by
    rcases fc.read with ⟨hn, hr⟩ | ⟨n, u, hn, hi, hu, hr⟩
    · obtain rfl : none = c := Except.ok.inj (hr.symm.trans hc)
      obtain rfl : none = b := Except.ok.inj ((optionalUint32Property_nullish (hbc hn)).symm.trans hb)
      exact (boundDenotes_nullish hn).2 rfl
    · obtain rfl : some u = c := Except.ok.inj (hr.symm.trans hc)
      rw [hn, boundDenotes_num, load_count_some, Nat.mod_eq_of_lt hu]
      exact hi
  digest := by
    have hinit : setBounds m pf b c (pf + digestInit) = m (pf + digestInit) := by
      refine digestInit_setBounds hm.init ?_
      rintro v rfl
      rcases fc.read with ⟨-, hr⟩ | ⟨n, u, -, -, hu, hr⟩
      · cases hr.symm.trans hc
      · obtain rfl : u = v := Option.some.inj (Except.ok.inj (hr.symm.trans hc))
        exact hu
    generalize filter.field "digest" = d at hd
    cases d
    case undefined => exact ⟨rfl, hinit⟩
    case null => exact ⟨rfl, hinit⟩
    all_goals cases hd

end

section
variable {env : BlobEnv} {pf : ℕ} {m : Memory} {obj filter : JsValue}

theorem partitionsFromJsobject_of_disabled (hobj : obj.isObject = true) (h : obj.field "pfEnabled" ≠ .bool true) :
    partitionsFromJsobject env pf obj m = (m, .ok false) ∨
    partitionsFromJsobject env pf obj m = (m, .error .paramErr) := by
  unfold partitionsFromJsobject
  rw [if_pos hobj]
  generalize obj.field "pfEnabled" = e at h
  cases e
  case undefined => exact .inl rfl
  case null => exact .inl rfl
  case bool b =>
    cases b with
    | false => exact .inl rfl
    | true => exact absurd rfl h
  all_goals exact .inr rfl

theorem partitionsFromJsobject_of_not_isObject (hobj : obj.isObject = true) (he : obj.field "pfEnabled" = .bool true)
    (h : (obj.field "partFilter").isObject = false) :
    partitionsFromJsobject env pf obj m = (m, .error .paramErr) := by
  unfold partitionsFromJsobject
  rw [if_pos hobj, he, h]
  rfl

theorem partitionsFromJsobject_enabled (env : BlobEnv) (pf : ℕ) (m : Memory) (hobj : obj.isObject = true)
    (he : obj.field "pfEnabled" = .bool true) (h : (obj.field "partFilter").isObject = true) :
    partitionsFromJsobject env pf obj m = ((readPartFilter env pf (obj.field "partFilter") m).1,
      (readPartFilter env pf (obj.field "partFilter") m).2.map fun _ => true) := by
  unfold partitionsFromJsobject
  rw [if_pos hobj, he]
  exact if_pos h

/-- It is right where nothing comes of the filter. -/
theorem partitionsRight_of_not {m' : Memory} {r : Res Bool} (h : partitionsFromJsobject env pf obj m = (m', r))
    (ho : Memory.Outside m m' pf sizeof) (hr : r ≠ .ok true) (ha : r ≠ .error .abort) :
    PartitionsRight env pf obj m where
  denotes hok := absurd ((congrArg Prod.snd h).symm.trans hok) hr
  inside := by
    rw [h]
    exact ho
  survives := by
    rw [h]
    exact ha

theorem outside_setBounds_sizeof {b c : Option UInt32} : Memory.Outside m (setBounds m pf b c) pf sizeof :=
  fun _ hx => outside_setBounds _ (hx.imp_right (Nat.le_trans (Nat.add_le_add_left (by decide) pf)))

theorem partitionsRight_of_fits (hm : SetAll m pf) (h : PartitionsFit obj) : PartitionsRight env pf obj m := by
  obtain ⟨hobj, h⟩ := h
  by_cases he : obj.field "pfEnabled" = .bool true
  swap
  · rcases partitionsFromJsobject_of_disabled hobj he with h | h
    · exact partitionsRight_of_not h (fun _ _ => rfl) nofun nofun
    · exact partitionsRight_of_not h (fun _ _ => rfl) nofun nofun
  rcases hf : (obj.field "partFilter").isObject with _ | _
  · exact partitionsRight_of_not (partitionsFromJsobject_of_not_isObject hobj he hf) (fun _ _ => rfl) nofun nofun
  have heq := partitionsFromJsobject_enabled env pf m hobj he hf
  -- a part that does not have its type
  by_cases hb : IsOptionalNumber ((obj.field "partFilter").field "begin")
  swap
  · rw [readPartFilter_of_begin hb] at heq
    exact partitionsRight_of_not heq (fun _ _ => rfl) nofun nofun
  obtain ⟨b, hb⟩ := hb.exists_read
  by_cases hc : IsOptionalNumber ((obj.field "partFilter").field "count")
  swap
  · rw [readPartFilter_of_count hb hc] at heq
    exact partitionsRight_of_not heq (outside_setBounds_sizeof (c := none)) nofun nofun
  obtain ⟨c, hc⟩ := hc.exists_read
  by_cases hd : IsOptionalBuffer ((obj.field "partFilter").field "digest")
  swap
  · rw [readPartFilter_of_digest hb hc hd] at heq
    exact partitionsRight_of_not heq outside_setBounds_sizeof nofun nofun
  -- a filter that is read
  rcases h with h | h | h | h | h | ⟨fb, fc, hbc, hnd⟩
  · exact absurd he h
  · rw [hf] at h
    cases h
  · exact absurd ‹_› h
  · exact absurd ‹_› h
  · exact absurd hd h
  rw [readPartFilter_nullish hb hc hnd] at heq
  exact {
    denotes := fun _ => by
      rw [heq]
      exact filterDenotes_setBounds hm hb hc fb fc hbc hnd
    inside := by
      rw [heq]
      exact outside_setBounds_sizeof
    survives := by
      rw [heq]
      nofun }

/-! ### The filters that are not -/

/-- A memory with a filter whose digest points elsewhere, and `fill` all around it. -/
def strayMemory (pf : ℕ) (fill k : UInt8) : Memory :=
  Memory.write (fun _ => fill) pf [0, 0, 0, 16, 0, 0, k, 0, 0, 0, 0, 0, 0]

section
variable {fill k : UInt8}

theorem load_strayMemory {i n : ℕ} (h : i + n ≤ 13) : (strayMemory pf fill k).load (pf + i) n =
    Memory.ofBytesLE (([0, 0, 0, 16, 0, 0, k, 0, 0, 0, 0, 0, 0].drop i).take n) :=
  congrArg Memory.ofBytesLE (Memory.read_write h)

theorem setAll_strayMemory (pf : ℕ) (fill k : UInt8) : SetAll (strayMemory pf fill k) pf where
  begin' := load_strayMemory (by decide)
  count := load_strayMemory (by decide)
  init := Memory.write_apply_add (i := 4) (by simp)

/-- The pointer that is read after the bounds: its lowest byte may be of the count. -/
theorem load_digestValue (pf : ℕ) (fill k : UInt8) (b c : Option UInt32) : ∃ r < 256,
    (setBounds (strayMemory pf fill k) pf b c).load (pf + digestValue) 8 = r + 256 * k.toNat := by
  refine ⟨_, UInt8.toNat_lt (setBounds (strayMemory pf fill k) pf b c (pf + digestValue)), ?_⟩
  have hrest : (setBounds (strayMemory pf fill k) pf b c).load (pf + digestValue + 1) 7 = k.toNat := by
    rw [show pf + digestValue + 1 = pf + 6 from rfl, outside_setBounds.load (.inr le_rfl),
      load_strayMemory (by decide)]
    simp [Memory.ofBytesLE]
  rw [Memory.load_succ, hrest]

/-- There is an address for the digest that is not in the filter. -/
theorem exists_stray (pf : ℕ) : ∃ k : UInt8, ∀ r < 256, r + 256 * k.toNat < pf ∨ pf + 40 ≤ r + 256 * k.toNat := by
  by_cases h : pf < 700
  · exact ⟨4, fun r _ => .inr (by simp; omega)⟩
  · exact ⟨1, fun r _ => .inl (by simp; omega)⟩

end

/-- A digest is written where its unset bytes point to. -/
theorem not_partitionsRight_buffer (env : BlobEnv) (pf : ℕ) {bs : Bytes} {b c : Option UInt32}
    (hobj : obj.isObject = true) (he : obj.field "pfEnabled" = .bool true)
    (hf : (obj.field "partFilter").isObject = true)
    (hb : ((obj.field "partFilter").field "begin").optionalUint32Property = .ok b)
    (hc : ((obj.field "partFilter").field "count").optionalUint32Property = .ok c)
    (hd : (obj.field "partFilter").field "digest" = .buffer bs) :
    ∃ m, SetAll m pf ∧ ¬PartitionsRight env pf obj m := by
  obtain ⟨k, hk⟩ := exists_stray pf
  obtain ⟨x, rest, hsrc⟩ : ∃ x rest, (bs ++ env.beyond.read 0 20).take 20 = x :: rest := by
    refine List.exists_cons_of_length_pos ?_
    rw [List.length_take, List.length_append, Memory.length_read]
    omega
  refine ⟨strayMemory pf (x + 1) k, setAll_strayMemory pf (x + 1) k, fun h => ?_⟩
  have heq := partitionsFromJsobject_enabled env pf (strayMemory pf (x + 1) k) hobj he hf
  rcases readPartFilter_buffer hb hc env pf (strayMemory pf (x + 1) k) hd with ha | hw
  · refine h.survives ?_
    rw [heq, ha]
    rfl
  · obtain ⟨r, hr, hp⟩ := load_digestValue pf (x + 1) k b c
    have hstray := hk r hr
    have hafter : (partitionsFromJsobject env pf obj (strayMemory pf (x + 1) k)).1 (r + 256 * k.toNat) = x := by
      have hflag : r + 256 * k.toNat < pf + digestInit ∨ pf + digestInit + 1 ≤ r + 256 * k.toNat :=
        hstray.imp (by omega) (by simp only [digestInit]; omega)
      have hhead : ∀ m' : Memory, m'.write (r + 256 * k.toNat) (x :: rest) (r + 256 * k.toNat) = x := by
        have hpos : 0 < (x :: rest).length := Nat.succ_pos _
        exact fun m' => Memory.write_apply_add hpos
      rw [heq, hw, hp, hsrc]
      exact (Memory.outside_store le_rfl le_rfl _ hflag).trans (hhead _)
    have hbefore : strayMemory pf (x + 1) k (r + 256 * k.toNat) = x + 1 := by
      rcases hstray with h | h
      · exact Memory.write_apply_of_lt h
      · exact Memory.write_apply_of_le (by simp; omega)
    have hsame := h.inside (r + 256 * k.toNat) hstray
    rw [hafter, hbefore] at hsame
    exact absurd hsame (by grind)

/-- A begin that fits, without a count, makes the count 0. -/
theorem not_boundDenotes_count {n : JsNumber} {a new : ℕ} (hn : n.Is (m.load a 2))
    (hnew : new = n.toUint32.toNat / 2 ^ 16) :
    new ≠ 4096 := by
  have hlt : m.load a 2 < 2 ^ 16 := Memory.load_lt
  rw [hnew, hn.toNat_toUint32 (hlt.trans (by decide)), Nat.div_eq_of_lt hlt]
  decide

/-- Which filters are passed on as they are, and written to nothing but the native filter, whatever the unset
bytes of its digest are. -/
theorem partitions_right_iff (env : BlobEnv) (pf : ℕ) (obj : JsValue) :
    (∀ m, SetAll m pf → PartitionsRight env pf obj m) ↔ PartitionsFit obj := by
  refine ⟨fun h => ?_, fun h m hm => partitionsRight_of_fits hm h⟩
  have hm := setAll_strayMemory pf 0 0
  have hr := h _ hm
  have hobj : obj.isObject = true := by
    by_contra hobj
    refine hr.survives ?_
    unfold partitionsFromJsobject
    rw [if_neg hobj]
  refine ⟨hobj, ?_⟩
  by_cases he : obj.field "pfEnabled" = .bool true
  swap
  · exact .inl he
  rcases hf : (obj.field "partFilter").isObject with _ | _
  · exact .inr (.inl rfl)
  refine .inr (.inr ?_)
  by_cases hb : IsOptionalNumber ((obj.field "partFilter").field "begin")
  swap
  · exact .inl hb
  by_cases hc : IsOptionalNumber ((obj.field "partFilter").field "count")
  swap
  · exact .inr (.inl hc)
  by_cases hd : IsOptionalBuffer ((obj.field "partFilter").field "digest")
  swap
  · exact .inr (.inr (.inl hd))
  refine .inr (.inr (.inr ?_))
  obtain ⟨b, hbr⟩ := hb.exists_read
  obtain ⟨c, hcr⟩ := hc.exists_read
  rcases hd with hd | ⟨bs, hd⟩
  swap
  · obtain ⟨m, hm, hnot⟩ := not_partitionsRight_buffer env pf hobj he hf hbr hcr hd
    exact absurd (h m hm) hnot
  have heq := partitionsFromJsobject_enabled env pf (strayMemory pf 0 0) hobj he hf
  rw [readPartFilter_nullish hbr hcr hd] at heq
  have hden := hr.denotes (congrArg Prod.snd heq)
  rw [heq] at hden
  refine ⟨hden.begin'.fits, hden.count.fits, fun hcn => ?_, hd⟩
  rcases hb.read with ⟨hbn, -⟩ | ⟨n, hbn, hu⟩
  · exact hbn
  · obtain rfl : some n.toUint32 = b := Except.ok.inj (hu.symm.trans hbr)
    obtain rfl : none = c := Except.ok.inj ((optionalUint32Property_nullish hcn).symm.trans hcr)
    have hbegin := hden.begin'
    have hcount := (boundDenotes_nullish hcn).1 hden.count
    rw [hbn, boundDenotes_num] at hbegin
    exact absurd (hcount.trans hm.count) (not_boundDenotes_count hbegin load_count_none)

/-- A query of one partition that starts after a record. -/
def resumedQuery : JsValue :=
  .plain [(JsString.lit "pfEnabled", .bool true),
    (JsString.lit "partFilter", .plain [(JsString.lit "begin", .int 7), (JsString.lit "count", .int 1),
      (JsString.lit "digest", .buffer (List.replicate 20 17))])]

theorem resumedQuery_strays : ¬∀ m, SetAll m 4096 → PartitionsRight ⟨fun _ => 0, 8192, false⟩ 4096 resumedQuery m := by
  intro h
  have hobj : resumedQuery.isObject = true := rfl
  have hb : ((resumedQuery.field "partFilter").field "begin").optionalUint32Property = .ok (some 7) := rfl
  have hc : ((resumedQuery.field "partFilter").field "count").optionalUint32Property = .ok (some 1) := rfl
  have hd : (resumedQuery.field "partFilter").field "digest" = .buffer (List.replicate 20 17) := rfl
  obtain ⟨m, hm, hnot⟩ := not_partitionsRight_buffer ⟨fun _ => 0, 8192, false⟩ 4096 hobj rfl rfl hb hc hd
  exact hnot (h m hm)

end

end AerospikeNode
