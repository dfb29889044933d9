import AerospikeNode.Native.Read
import AerospikeNode.Ops.Spec
import AerospikeNode.Rec.Bins
import AerospikeNode.Rec.Key

/-!
# Numbers in native fields and values

What becomes of a JavaScript number. The `get_*_property` helpers, `setTTL` and `setGeneration`
write it to a field of the C client: a helper writes as many bits as its own type has, and the field
it is called for may have more or fewer (`stores_iff`). The converters of bin values, elements, map
keys, increments and user keys make an int64 or a double of it (`keepsNumber_iff`).
-/

namespace AerospikeNode

/-! ### Fields -/

/-- The integer types of the fields. An `enum` is an `int32_t` or a `uint32_t`. -/
inductive IntType where
  | int32 | int64 | uint64 | uint32 | uint16 | uint8
deriving DecidableEq, Repr

namespace IntType

def bits : IntType → ℕ
  | int32 | uint32 => 32
  | int64 | uint64 => 64
  | uint16 => 16
  | uint8 => 8

def signed : IntType → Bool
  | int32 | int64 => true
  | uint64 | uint32 | uint16 | uint8 => false

def min (t : IntType) : ℤ := if t.signed then -2 ^ (t.bits - 1) else 0

def max (t : IntType) : ℤ := if t.signed then 2 ^ (t.bits - 1) - 1 else 2 ^ t.bits - 1

/-- What a field holds after `w` bits were written at its address: the low bits of them, or all of
them below the zero bits the policy was initialised with. -/
def ofWritten (t : IntType) {w : ℕ} (b : BitVec w) : ℤ :=
  if t.signed then (b.setWidth t.bits).toInt else (b.setWidth t.bits).toNat

end IntType

/-- A field of a policy, of a record's metadata or of an option. -/
structure NativeField where
  type : IntType
  ttl : Bool

/-- The functions that read a number into a field. -/
inductive FieldReader where
  | int | optionalInt | int64 | optionalInt64 | optionalInt32 | uint64 | optionalUint64
  | uint32 | optionalUint32 | optionalUint16 | optionalUint8 | setTTL | setGeneration
deriving DecidableEq, Repr

namespace FieldReader

/-- The type of the function's out parameter. -/
def type : FieldReader → IntType
  | int | optionalInt | optionalInt32 => .int32
  | int64 | optionalInt64 => .int64
  | uint64 | optionalUint64 => .uint64
  | uint32 | optionalUint32 | setTTL => .uint32
  | optionalUint16 | setGeneration => .uint16
  | optionalUint8 => .uint8

/-- The bits that the function writes, if it writes any. -/
def read : (r : FieldReader) → JsValue → Res (Option (BitVec r.type.bits))
  | int, v => v.intProperty.map fun i => some i.toBitVec
  | optionalInt, v => v.optionalIntProperty.map (Option.map (·.toBitVec))
  | int64, v => v.int64Property.map fun i => some i.toBitVec
  | optionalInt64, v => v.optionalInt64Property.map (Option.map (·.toBitVec))
  | optionalInt32, v => v.optionalInt32Property.map (Option.map (·.toBitVec))
  | uint64, v => v.uint64Property.map fun i => some i.toBitVec
  | optionalUint64, v => v.optionalUint64Property.map (Option.map (·.toBitVec))
  | uint32, v => v.uint32Property.map fun i => some i.toBitVec
  | optionalUint32, v => v.optionalUint32Property.map (Option.map (·.toBitVec))
  | optionalUint16, v => v.optionalUint16Property.map (Option.map (·.toBitVec))
  | optionalUint8, v => v.optionalUint8Property.map (Option.map (·.toBitVec))
  | setTTL, v => v.setTTL.map (Option.map (·.toBitVec))
  | setGeneration, v => v.setGeneration.map (Option.map (·.toBitVec))

/-- The number is one of `NEVER_EXPIRE`, `DONT_UPDATE` and `CLIENT_DEFAULT`. -/
def IsTtlConstant (n : JsNumber) : Prop := n.Is (-1) ∨ n.Is (-2) ∨ n.Is (-3)

/-- The function reports an error, or the field then holds the number. -/
def Stores (r : FieldReader) (f : NativeField) (n : JsNumber) : Prop :=
  (f.ttl = true ∧ IsTtlConstant n) ∨ (∃ e, r.read (.num n) = .error e) ∨
    ∃ b, r.read (.num n) = .ok (some b) ∧ n.Is (f.type.ofWritten b)

/-- The integers that reach a field of type `t`: those it can hold, up to the greatest `int64_t`; of
a field with more bits than the function writes, those that need no more. -/
def Reaches (r : FieldReader) (t : IntType) (i : ℤ) : Prop :=
  t.min ≤ i ∧ i ≤ t.max ∧ i < 2 ^ 63 ∧ (r.type.bits < t.bits → 0 ≤ i ∧ i < 2 ^ r.type.bits)

instance (r : FieldReader) (t : IntType) (i : ℤ) : Decidable (r.Reaches t i) :=
  inferInstanceAs (Decidable (_ ∧ _ ∧ _ ∧ _))

/-- The integer whose low bits are written: truncated, and if 64 bits are read, the nearest of an
`int64_t`. -/
def source (r : FieldReader) (n : JsNumber) : ℤ :=
  if r.type.bits = 64 then n.toInt64.toInt else n.toInteger

theorem toBitVec_toUint32 (n : JsNumber) : n.toUint32.toBitVec = BitVec.ofInt 32 n.toInteger := by
  apply BitVec.eq_of_toNat_eq
  have h := n.toNat_toUint32
  have hofInt : (BitVec.ofInt 32 n.toInteger).toNat = (n.toInteger % 2 ^ 32).toNat := BitVec.toNat_ofInt _
  have hnat : n.toUint32.toBitVec.toNat = n.toUint32.toNat := rfl
  omega

theorem setWidth_ofInt {w w' : ℕ} (h : w' ≤ w) (i : ℤ) :
    (BitVec.ofInt w i).setWidth w' = BitVec.ofInt w' i := by
  apply BitVec.eq_of_toInt_eq
  have hdvd : ((2 ^ w' : ℕ) : ℤ) ∣ ((2 ^ w : ℕ) : ℤ) := Int.natCast_dvd_natCast.2 (pow_dvd_pow 2 h)
  have hpos : 0 ≤ i % ((2 ^ w : ℕ) : ℤ) := Int.emod_nonneg _ (by positivity)
  rw [BitVec.toInt_setWidth, BitVec.toNat_ofInt, BitVec.toInt_ofInt, Int.toNat_of_nonneg hpos,
    Int.bmod_def, Int.emod_emod_of_dvd _ hdvd, ← Int.bmod_def]

/-- No function reports an error for a number, and the bits it writes are those of `source`. -/
theorem read_num (r : FieldReader) (n : JsNumber) :
    r.read (.num n) = .ok (some (BitVec.ofInt r.type.bits (r.source n))) := by
  have h16 : n.toUint32.toUInt16.toBitVec = BitVec.ofInt 16 n.toInteger := by
    change n.toUint32.toBitVec.setWidth 16 = _
    rw [toBitVec_toUint32, setWidth_ofInt (by norm_num)]
  have h8 : n.toUint32.toUInt8.toBitVec = BitVec.ofInt 8 n.toInteger := by
    change n.toUint32.toBitVec.setWidth 8 = _
    rw [toBitVec_toUint32, setWidth_ofInt (by norm_num)]
  have h64 : n.toInt64.toBitVec = BitVec.ofInt 64 n.toInt64.toInt := (BitVec.ofInt_toInt).symm
  cases r with
  | int | optionalInt | optionalInt32 => rfl
  | int64 | optionalInt64 | uint64 | optionalUint64 => exact congrArg (Except.ok ∘ some) h64
  | uint32 | optionalUint32 | setTTL => exact congrArg (Except.ok ∘ some) (toBitVec_toUint32 n)
  | optionalUint16 | setGeneration => exact congrArg (Except.ok ∘ some) h16
  | optionalUint8 => exact congrArg (Except.ok ∘ some) h8

theorem source_of_is {r : FieldReader} {n : JsNumber} {i : ℤ} (h : n.Is i) :
    r.source n = if r.type.bits = 64 then JsNumber.satInt64 i else i := by
  rw [source, h.toInt64_eq, h.toInteger_eq]
  split_ifs
  · exact Int64.toInt_ofInt_of_le (JsNumber.satInt64_mem i).1 (JsNumber.satInt64_mem i).2
  · rfl

theorem ofWritten_ofInt (t : IntType) (w : ℕ) (j : ℤ) : t.ofWritten (BitVec.ofInt w j) =
    if t.signed then Int.bmod (j % 2 ^ w) (2 ^ t.bits) else (j % 2 ^ w) % 2 ^ t.bits := by
  have hpos : 0 ≤ j % 2 ^ w := Int.emod_nonneg _ (by positivity)
  have hnat : ((BitVec.ofInt w j).toNat : ℤ) = j % 2 ^ w := by
    rw [BitVec.toNat_ofInt]
    push_cast
    exact Int.toNat_of_nonneg hpos
  unfold IntType.ofWritten
  split_ifs with hs
  · rw [BitVec.toInt_setWidth, hnat]
  · rw [BitVec.toNat_setWidth]
    push_cast
    rw [hnat]

/-- The field holds the integer it was given if and only if the integer reaches it. -/
theorem ofWritten_eq_iff (r : FieldReader) (t : IntType) (i : ℤ) :
    t.ofWritten (BitVec.ofInt r.type.bits (if r.type.bits = 64 then JsNumber.satInt64 i else i)) = i ↔
      r.Reaches t i := by
  rw [ofWritten_ofInt, Reaches]
  generalize r.type = u
  cases u <;> cases t <;>
    simp only [IntType.bits, IntType.signed, IntType.min, IntType.max, JsNumber.satInt64, Int.bmod_def,
      if_true, if_false, Bool.false_eq_true, Nat.reduceEqDiff] <;>
    omega

theorem Stores.reaches {r : FieldReader} {f : NativeField} {n : JsNumber} (h : r.Stores f n) :
    (f.ttl = true ∧ IsTtlConstant n) ∨ ∃ i, n.Is i ∧ r.Reaches f.type i := by
  rcases h with h | ⟨e, he⟩ | ⟨b, hb, hn⟩
  · exact .inl h
  · rw [read_num] at he
    cases he
  · rw [read_num] at hb
    cases hb
    refine .inr ⟨_, hn, ?_⟩
    rw [← ofWritten_eq_iff, ← source_of_is hn]

theorem stores_of_reaches {r : FieldReader} {f : NativeField} {n : JsNumber} {i : ℤ} (hn : n.Is i)
    (hi : r.Reaches f.type i) : r.Stores f n := by
  refine .inr (.inr ⟨_, read_num r n, ?_⟩)
  rw [source_of_is hn, (ofWritten_eq_iff r f.type i).2 hi]
  exact hn

/-- A number is stored as it is if and only if it is an integer that reaches the field. -/
theorem stores_iff (r : FieldReader) (f : NativeField) (n : JsNumber) :
    r.Stores f n ↔ (f.ttl = true ∧ IsTtlConstant n) ∨ ∃ i, n.Is i ∧ r.Reaches f.type i := by
  refine ⟨Stores.reaches, ?_⟩
  rintro (h | ⟨i, hn, hi⟩)
  · exact .inl h
  · exact stores_of_reaches hn hi

/-- `latencyColumns: 263` becomes 7 columns. -/
theorem latencyColumns_reduced :
    ¬optionalUint8.Stores ⟨.uint8, false⟩ (.ofInt 263 (by decide)) := by
  intro h
  rcases h.reaches with ⟨h, -⟩ | ⟨i, hn, hi⟩
  · cases h
  · have hi' : i = 263 := by
      have := hn.toInteger_eq
      rw [JsNumber.toInteger_ofInt] at this
      exact this.symm
    subst hi'
    exact absurd hi (by decide)

end FieldReader

/-! ### Values -/

/-- Where a number is converted to a native value. `list_from_jsarray`, `map_from_jsobject` and
`map_from_jsmap` convert every element, value and key by itself. -/
inductive NumberSite where
  | binValue | writeOp | element | mapKey | increment | userKey
deriving DecidableEq, Repr

namespace NumberSite

/-- The number a native user key holds. -/
def ofKeyValue : AsKeyValue → Option AsVal
  | .integer i => some (.integer i)
  | _ => none

/-- The native number that is stored, if the number is accepted; as a key, that of the entry that `map_from_jsmap`
sets. -/
def convert [Platform] : NumberSite → JsNumber → Res (Option AsVal)
  | binValue, n => AerospikeNode.binValue (.num n)
  | writeOp, n => (writeCall (.num n)).map fun c => c.scalarValue.map (·.2)
  | element, n => (JsValue.asvalFromJsvalue (.num n)).map some
  | mapKey, n => (JsValue.mapFromJsmap [(.num n, .null)] []).map fun es => es.head?.map (·.1)
  | increment, n => (incrCall (.num n)).map fun c => c.scalarValue.map (·.2)
  | userKey, n => (keyValue (.num n) .undefined).map ofKeyValue

/-- What is stored is the integer or the double that the number is; a number that is no int64 is
stored as a double or rejected. -/
def KeepsNumber [Platform] (s : NumberSite) (n : JsNumber) : Prop :=
  (∀ a, s.convert n = .ok a → a = some (.double n) ∨ ∃ i, a = some (.integer i) ∧ n.Is i.toInt) ∧
    ∀ i, n.Is i → i < -2 ^ 63 ∨ 2 ^ 63 ≤ i →
      (∃ e, s.convert n = .error e) ∨ s.convert n = .ok (some (.double n))

/-- An entry whose key is a number. -/
theorem convert_mapKey [Platform] {n : JsNumber} {a : AsVal} (h : (JsValue.num n).asvalFromJsvalue = .ok a) :
    mapKey.convert n = .ok (if Platform.takesKey a.kind then some a else none) := by
  have hset : AsVal.mapSet [] a .nil = if Platform.takesKey a.kind then [(a, .nil)] else [] := rfl
  rw [convert, JsValue.mapFromJsmap, h]
  show Except.ok ((AsVal.mapSet [] a .nil).head?.map (·.1)) = _
  rw [hset]
  split_ifs <;> rfl

/-- A number that `is_double_value` finds is stored as a double, if one can be a key there, or rejected as a user
key. -/
theorem convert_double [Platform] {s : NumberSite} {n : JsNumber} (h : (JsValue.num n).isDoubleValue = true)
    (hkey : s = .mapKey → Platform.takesKey .double = true) :
    (∃ e, s.convert n = .error e) ∨ s.convert n = .ok (some (.double n)) := by
  have hval : (JsValue.num n).asvalFromJsvalue = .ok (.double n) := by
    rw [JsValue.asvalFromJsvalue, h, if_pos rfl]
  cases s with
  | binValue => exact .inr (by rw [convert, AerospikeNode.binValue, h, if_pos rfl])
  | writeOp => exact .inr (by rw [convert, writeCall, h, if_pos rfl]; rfl)
  | element => exact .inr (by rw [convert, hval]; rfl)
  | mapKey =>
    refine .inr ?_
    rw [convert_mapKey hval, show Platform.takesKey (AsVal.double n).kind = true from hkey rfl]
    rfl
  | increment => exact .inr (by rw [convert, incrCall, h, if_pos rfl]; rfl)
  | userKey => exact .inl ⟨.paramErr, by rw [convert, keyValue, h, if_pos rfl]; rfl⟩

theorem convert_integer [Platform] {s : NumberSite} {n : JsNumber} (h : (JsValue.num n).isDoubleValue = false) :
    s.convert n = .ok (some (.integer n.toInt64)) := by
  have hval : (JsValue.num n).asvalFromJsvalue = .ok (.integer n.toInt64) := by
    rw [JsValue.asvalFromJsvalue, h, if_neg Bool.false_ne_true]
  cases s with
  | binValue => rw [convert, AerospikeNode.binValue, h, if_neg Bool.false_ne_true]
  | writeOp => rw [convert, writeCall, h, if_neg Bool.false_ne_true]; rfl
  | element => rw [convert, hval]; rfl
  | mapKey =>
    rw [convert_mapKey hval,
      show Platform.takesKey (AsVal.integer n.toInt64).kind = true from Platform.takesKey_integer]
    rfl
  | increment => rw [convert, incrCall, h, if_neg Bool.false_ne_true]; rfl
  | userKey => rw [convert, keyValue, h, if_neg Bool.false_ne_true]; rfl

/-- An int64 holds the number it was made from if and only if the number is no `2^63`. -/
theorem is_toInt64_of_le {n : JsNumber} {i : ℤ} (h : n.Is i) (h1 : -2 ^ 63 ≤ i) (h2 : i ≤ 2 ^ 63) :
    n.Is n.toInt64.toInt ↔ i ≠ 2 ^ 63 := by
  have hstored : n.toInt64.toInt = JsNumber.satInt64 i := by
    rw [h.toInt64_eq]
    exact Int64.toInt_ofInt_of_le (JsNumber.satInt64_mem i).1 (JsNumber.satInt64_mem i).2
  rw [hstored]
  constructor
  · rintro hs rfl
    have heq := h.toInteger_eq.symm.trans hs.toInteger_eq
    exact absurd heq (by decide)
  · intro hne
    rw [JsNumber.satInt64_eq h1 (by omega)]
    exact h

theorem KeepsNumber.ne [Platform] {s : NumberSite} {n : JsNumber} (h : s.KeepsNumber n) : ¬n.Is (2 ^ 63) := by
  intro hn
  have hd := JsValue.isDoubleValue_num.2 ⟨2 ^ 63, hn, by norm_num, le_rfl⟩
  rcases h.1 _ (convert_integer hd) with h | ⟨i, hi, his⟩
  · cases h
  · cases hi
    exact (is_toInt64_of_le hn (by norm_num) le_rfl).1 his rfl

/-- A key that is no integer of 64 bits is kept only if it can be a double. -/
theorem KeepsNumber.mapKey [Platform] {n : JsNumber} (h : NumberSite.mapKey.KeepsNumber n) :
    (∃ i : Int64, n.Is i.toInt) ∨ Platform.takesKey .double = true := by
  cases hd : (JsValue.num n).isDoubleValue with
  | false =>
    rcases h.1 _ (convert_integer hd) with h | ⟨i, -, his⟩
    · cases h
    · exact .inl ⟨i, his⟩
  | true =>
    have hval : (JsValue.num n).asvalFromJsvalue = .ok (.double n) := by
      rw [JsValue.asvalFromJsvalue, hd, if_pos rfl]
    cases ht : Platform.takesKey .double with
    | true => exact .inr rfl
    | false =>
      have hnone : NumberSite.mapKey.convert n = .ok none := by
        rw [convert_mapKey hval, show Platform.takesKey (AsVal.double n).kind = false from ht]
        rfl
      rcases h.1 _ hnone with h | ⟨i, h, -⟩ <;> cases h

/-- Only `2^63` is stored as another number; and as the key of a Map, a number that is no integer of 64 bits is
lost with its entry unless the C client takes doubles as keys. -/
theorem keepsNumber_iff [Platform] (s : NumberSite) (n : JsNumber) : s.KeepsNumber n ↔
    ¬n.Is (2 ^ 63) ∧ (s = .mapKey → (∃ i : Int64, n.Is i.toInt) ∨ Platform.takesKey .double = true) := by
  refine ⟨fun h => ⟨h.ne, fun hs => (hs ▸ h).mapKey⟩, fun ⟨hne, hkey⟩ => ?_⟩
  cases hd : (JsValue.num n).isDoubleValue with
  | true =>
    have htakes : s = .mapKey → Platform.takesKey .double = true := fun hs => by
      rcases hkey hs with ⟨i, hi⟩ | htakes
      · have hfalse := JsValue.isDoubleValue_num.2 ⟨i.toInt, hi, Int64.le_toInt i, (Int64.toInt_lt i).le⟩
        rw [hd] at hfalse
        cases hfalse
      · exact htakes
    have hconvert := convert_double (s := s) hd htakes
    refine ⟨fun a ha => ?_, fun _ _ _ => hconvert⟩
    rcases hconvert with ⟨e, he⟩ | hdouble
    · rw [he] at ha
      cases ha
    · rw [hdouble] at ha
      exact .inl (Except.ok.inj ha).symm
  | false =>
    obtain ⟨i, hi, h1, h2⟩ := JsValue.isDoubleValue_num.1 hd
    have hi63 : i ≠ 2 ^ 63 := by
      rintro rfl
      exact hne hi
    refine ⟨fun a ha => ?_, fun j hj hout => ?_⟩
    · rw [convert_integer hd] at ha
      exact .inr ⟨_, (Except.ok.inj ha).symm, (is_toInt64_of_le hi h1 h2).2 hi63⟩
    · have : j = i := hj.toInteger_eq.symm.trans hi.toInteger_eq
      omega

theorem isDouble_two_pow_63 : IsDouble (2 ^ 63 : ℤ) := ⟨1, 63, by norm_num, by norm_num, by norm_num, by norm_num⟩

open Platform

/-- `9223372036854775808` is put as `9223372036854775807`. -/
theorem two_pow_63_not_kept : ¬binValue.KeepsNumber (.fin (2 ^ 63 : ℤ) isDouble_two_pow_63) :=
  fun h => h.ne rfl

end NumberSite

end AerospikeNode
