import Mathlib.Algebra.Order.Floor.Ring
import Mathlib.Data.Rat.Floor
import Mathlib.Tactic.Linarith
import Mathlib.Tactic.NormNum
import Mathlib.Tactic.Positivity
import Mathlib.Tactic.Ring
import Mathlib.Tactic.FieldSimp
import Mathlib.Tactic.Common

/-!
# JavaScript numbers and their native integer conversions

A JavaScript number is an IEEE double; a finite one is kept as the rational it denotes together
with the proof that a double denotes it. `toInt32`, `toUint32` and `toInt64` are `Nan::To<int>`,
`Nan::To<uint32_t>` (both modulo `2^32`) and `Nan::To<int64_t>` (saturating).
-/

namespace AerospikeNode

/-- `q` is the value of a finite double. -/
def IsDouble (q : ℚ) : Prop :=
  ∃ m e : ℤ, |m| < 2 ^ 53 ∧ -1074 ≤ e ∧ e ≤ 971 ∧ q = m * (2 : ℚ) ^ e

theorem IsDouble.ofInt {i : ℤ} (h : |i| < 2 ^ 53) : IsDouble i :=
  ⟨i, 0, h, by norm_num, by norm_num, by simp⟩

inductive JsNumber where
  | nan
  | inf (neg : Bool)
  | negZero
  | fin (q : ℚ) (h : IsDouble q)
deriving DecidableEq

/-- `n` divided by `2^k`, rounded to nearest, ties to even. -/
def roundShift (n k : ℕ) : ℕ :=
  let q := n / 2 ^ k
  let r := n % 2 ^ k
  if 2 ^ k < 2 * r ∨ (2 ^ k = 2 * r ∧ q % 2 = 1) then q + 1 else q

/-- `(double)i`: the double nearest to an integer. -/
def roundInt (i : ℤ) : ℤ :=
  if i.natAbs < 2 ^ 53 then i
  else
    let k := Nat.log2 i.natAbs - 52
    i.sign * (roundShift i.natAbs k * 2 ^ k : ℕ)

theorem roundShift_mul (a k : ℕ) : roundShift (a * 2 ^ k) k = a := by
  have hk : 0 < 2 ^ k := Nat.two_pow_pos k
  simp only [roundShift, Nat.mul_mod_left, Nat.mul_div_cancel _ hk]
  rw [if_neg (by omega)]

/-- Rounding does nothing to an integer that a double denotes. -/
theorem roundInt_of_isDouble {i : ℤ} (h : IsDouble i) : roundInt i = i := by
  obtain ⟨m, e, hm, -, -, hi⟩ := h
  rw [Int.abs_eq_natAbs] at hm
  rw [roundInt]
  split_ifs with hlt
  · rfl
  have he : 0 ≤ e := by
    by_contra hneg
    have hle : |(i : ℚ)| ≤ |(m : ℚ)| := by
      rw [hi, abs_mul, abs_of_pos (zpow_pos (by norm_num : (0 : ℚ) < 2) e)]
      have : (2 : ℚ) ^ e ≤ 1 := zpow_le_one_of_nonpos₀ (by norm_num) (by omega)
      nlinarith [abs_nonneg (m : ℚ)]
    have : |i| ≤ |m| := by exact_mod_cast hle
    rw [Int.abs_eq_natAbs, Int.abs_eq_natAbs] at this
    omega
  obtain ⟨e, rfl⟩ := Int.eq_ofNat_of_zero_le he
  have hi' : i = m * 2 ^ e := by
    have : (i : ℚ) = ((m * 2 ^ e : ℤ) : ℚ) := by rw [hi]; push_cast; simp
    exact_mod_cast this
  have habs : i.natAbs = m.natAbs * 2 ^ e := by
    rw [hi', Int.natAbs_mul, Int.natAbs_pow]; rfl
  have hmn : m.natAbs < 2 ^ 53 := by omega
  have hne : i.natAbs ≠ 0 := by omega
  have hlog : Nat.log2 i.natAbs < 53 + e := by
    rw [Nat.log2_lt hne, habs, pow_add]
    exact Nat.mul_lt_mul_of_pos_right hmn (Nat.two_pow_pos e)
  obtain ⟨d, hd⟩ : ∃ d, e = (Nat.log2 i.natAbs - 52) + d := ⟨e - (Nat.log2 i.natAbs - 52), by omega⟩
  generalize Nat.log2 i.natAbs - 52 = k at hd ⊢
  have hsplit : i.natAbs = (m.natAbs * 2 ^ d) * 2 ^ k := by rw [habs, hd, pow_add]; ring
  have : roundShift i.natAbs k * 2 ^ k = i.natAbs := by
    conv_lhs => rw [hsplit, roundShift_mul]
    rw [hsplit]
  simp only [this, Int.sign_mul_natAbs]

theorem roundInt_maxInt64 : roundInt (2 ^ 63 - 1) = 2 ^ 63 := by decide +kernel

theorem roundInt_minInt64 : roundInt (-2 ^ 63) = -2 ^ 63 := by decide +kernel

namespace JsNumber

/-- Truncation toward zero. -/
def trunc (q : ℚ) : ℤ := if 0 ≤ q then ⌊q⌋ else ⌈q⌉

/-- The truncated value; NaN counts as 0, an infinity has none. -/
def toInteger : JsNumber → ℤ
  | fin q _ => trunc q
  | _ => 0

/-- `Nan::To<int>`: the low 32 bits, read as a signed integer. -/
def toInt32 (n : JsNumber) : Int32 := Int32.ofInt n.toInteger

/-- `Nan::To<uint32_t>`: the low 32 bits. -/
def toUint32 (n : JsNumber) : UInt32 := UInt32.ofNat (n.toInteger % 2 ^ 32).toNat

/-- The nearest value of an int64. -/
def satInt64 (i : ℤ) : ℤ := max (-2 ^ 63) (min i (2 ^ 63 - 1))

/-- `Nan::To<int64_t>`. -/
def toInt64 : JsNumber → Int64
  | inf neg => if neg then Int64.minValue else Int64.maxValue
  | n => Int64.ofInt (satInt64 n.toInteger)

/-- `d != (double)i`. -/
def neInt : JsNumber → ℤ → Bool
  | nan, _ => true
  | inf _, _ => true
  | negZero, i => roundInt i ≠ 0
  | fin q _, i => q ≠ roundInt i

/-- The number is an integer (`Number.isInteger`). -/
def isInteger : JsNumber → Bool
  | negZero => true
  | fin q _ => q.den = 1
  | _ => false

/-- JavaScript truthiness of a number. -/
def truthy : JsNumber → Bool
  | nan => false
  | negZero => false
  | fin q _ => q ≠ 0
  | inf _ => true

/-- The rational a finite number denotes. -/
def val : JsNumber → Option ℚ
  | negZero => some 0
  | fin q _ => some q
  | _ => none

/-- The number is the integer `i`. -/
def Is (n : JsNumber) (i : ℤ) : Prop := n.val = some (i : ℚ)

/-- `===` on numbers. -/
def strictEq : JsNumber → JsNumber → Bool
  | inf a, inf b => a = b
  | a, b => a.val.isSome && a.val = b.val

def ofInt (i : ℤ) (h : |i| < 2 ^ 53) : JsNumber := fin i (.ofInt h)

theorem abs_toInt_lt (i : Int32) : |i.toInt| < 2 ^ 53 := by
  have h1 := i.le_toInt
  have h2 := i.toInt_lt
  rw [abs_lt]
  constructor <;> omega

/-- A C `int` as a number. -/
def ofInt32 (i : Int32) : JsNumber := ofInt i.toInt (abs_toInt_lt i)

@[simp] theorem trunc_intCast (i : ℤ) : trunc i = i := by
  simp only [trunc, Int.floor_intCast, Int.ceil_intCast, ite_self]

@[simp] theorem toInteger_ofInt {i : ℤ} (h : |i| < 2 ^ 53) : (ofInt i h).toInteger = i :=
  trunc_intCast i

@[simp] theorem toInt32_ofInt32 (i : Int32) : (ofInt32 i).toInt32 = i := by
  rw [toInt32, ofInt32, toInteger_ofInt]
  exact Int32.ofInt_toInt i

theorem toUint32_ofInt32 {n : ℕ} (h : n < 2 ^ 31) :
    (ofInt32 (Int32.ofNat n)).toUint32 = UInt32.ofNat n := by
  have hint : (Int32.ofNat n).toInt = n := Int32.toInt_ofNat_of_lt h
  rw [toUint32, ofInt32, toInteger_ofInt, hint, Int.emod_eq_of_lt (Int.natCast_nonneg n) (by omega),
    Int.toNat_natCast]

theorem satInt64_eq {i : ℤ} (h1 : -2 ^ 63 ≤ i) (h2 : i < 2 ^ 63) : satInt64 i = i := by
  simp only [satInt64]; omega

theorem satInt64_mem (i : ℤ) : -2 ^ 63 ≤ satInt64 i ∧ satInt64 i < 2 ^ 63 := by
  simp only [satInt64]; omega

theorem toInt_toInt64_fin {q : ℚ} (h : IsDouble q) : (fin q h).toInt64.toInt = satInt64 (trunc q) :=
  Int64.toInt_ofInt_of_le (satInt64_mem _).1 (satInt64_mem _).2

theorem neInt_fin {q : ℚ} {h : IsDouble q} {i : ℤ} :
    neInt (fin q h) i = false ↔ q = roundInt i := by
  simp [neInt]

/-- The test `is_double_value` makes on a number finds the doubles that are no int64, save `2^63`,
which saturates to `2^63 - 1` and rounds back to itself. -/
theorem neInt_toInt64_fin {q : ℚ} (h : IsDouble q) :
    neInt (fin q h) (fin q h).toInt64.toInt = false ↔ ∃ i : ℤ, q = i ∧ -2 ^ 63 ≤ i ∧ i ≤ 2 ^ 63 := by
  rw [neInt_fin, toInt_toInt64_fin]
  constructor
  · intro hq
    have hint : q = (roundInt (satInt64 (trunc q)) : ℤ) := hq
    generalize roundInt (satInt64 (trunc q)) = r at hint
    subst hint
    refine ⟨r, rfl, ?_⟩
    rw [trunc_intCast] at hq
    have hq' : r = roundInt (satInt64 r) := by exact_mod_cast hq
    by_cases h1 : r < -2 ^ 63
    · have : satInt64 r = -2 ^ 63 := by simp only [satInt64]; omega
      rw [this, roundInt_minInt64] at hq'; omega
    by_cases h2 : 2 ^ 63 - 1 ≤ r
    · have : satInt64 r = 2 ^ 63 - 1 := by simp only [satInt64]; omega
      rw [this, roundInt_maxInt64] at hq'; omega
    omega
  · rintro ⟨i, rfl, h1, h2⟩
    rw [trunc_intCast]
    rcases eq_or_lt_of_le h2 with rfl | h2
    · have : satInt64 (2 ^ 63) = 2 ^ 63 - 1 := by decide
      rw [this, roundInt_maxInt64]
    · rw [satInt64_eq h1 h2, roundInt_of_isDouble h]

theorem Is.toInteger_eq {n : JsNumber} {i : ℤ} (h : n.Is i) : n.toInteger = i := by
  cases n with
  | nan => cases h
  | inf neg => cases h
  | negZero =>
    have h0 : (0 : ℚ) = i := Option.some.inj h
    exact_mod_cast h0
  | fin q hq =>
    obtain rfl : q = i := Option.some.inj h
    exact trunc_intCast i

theorem Is.toInt64_eq {n : JsNumber} {i : ℤ} (h : n.Is i) : n.toInt64 = Int64.ofInt (satInt64 i) := by
  have hi := h.toInteger_eq
  cases n with
  | nan => cases h
  | inf neg => cases h
  | negZero => rw [toInt64, hi]; nofun
  | fin q hq => rw [toInt64, hi]; nofun

/-- A conversion to 32 bits is exact for the integers that have so many. -/
theorem is_toInt32 {n : JsNumber} : n.Is n.toInt32.toInt ↔ ∃ i : Int32, n.Is i.toInt := by
  constructor
  · intro h
    exact ⟨_, h⟩
  · rintro ⟨i, h⟩
    rw [toInt32, h.toInteger_eq, Int32.ofInt_toInt]
    exact h

theorem is_toUint32 {n : JsNumber} : n.Is n.toUint32.toNat ↔ ∃ u : UInt32, n.Is u.toNat := by
  constructor
  · intro h
    exact ⟨_, h⟩
  · rintro ⟨u, h⟩
    have hlt : (u.toNat : ℤ) < 2 ^ 32 := by exact_mod_cast u.toNat_lt
    have hu : n.toUint32 = u := by
      rw [toUint32, h.toInteger_eq, Int.emod_eq_of_lt (Int.natCast_nonneg _) hlt, Int.toNat_natCast,
        UInt32.ofNat_toNat]
    rw [hu]
    exact h

/-- The conversion to 64 bits is exact for the integers that have so many. -/
theorem is_toInt64 {n : JsNumber} : n.Is n.toInt64.toInt ↔ ∃ i : Int64, n.Is i.toInt := by
  constructor
  · intro h
    exact ⟨_, h⟩
  · rintro ⟨i, h⟩
    rw [h.toInt64_eq, satInt64_eq i.le_toInt i.toInt_lt, Int64.ofInt_toInt]
    exact h

theorem toNat_toUint32 (n : JsNumber) : (n.toUint32.toNat : ℤ) = n.toInteger % 2 ^ 32 := by
  have hpos : 0 ≤ n.toInteger % 2 ^ 32 := Int.emod_nonneg _ (by norm_num)
  have hlt : n.toInteger % 2 ^ 32 < 2 ^ 32 := Int.emod_lt_of_pos _ (by norm_num)
  rw [toUint32, UInt32.toNat_ofNat_of_lt' ((Int.toNat_lt hpos).mpr hlt), Int.toNat_of_nonneg hpos]

theorem Is.toNat_toUint32 {n : JsNumber} {k : ℕ} (h : n.Is k) (hk : k < 2 ^ 32) : n.toUint32.toNat = k := by
  have hu := JsNumber.toNat_toUint32 n
  rw [h.toInteger_eq] at hu
  omega

theorem toUInt32_toInt32 (n : JsNumber) : n.toInt32.toUInt32 = n.toUint32 := by
  apply UInt32.toNat.inj
  have hofInt : (n.toInt32.toUInt32.toNat : ℤ) = n.toInteger % 2 ^ 32 := by
    have hpos : 0 ≤ n.toInteger % 2 ^ 32 := Int.emod_nonneg _ (by norm_num)
    have hbits : n.toInt32.toUInt32.toNat = (n.toInteger % 2 ^ 32).toNat :=
      BitVec.toNat_ofInt n.toInteger
    rw [hbits, Int.toNat_of_nonneg hpos]
  have := n.toNat_toUint32
  omega

/-- A `uint32_t` as a number. -/
def ofUInt32 (u : UInt32) : JsNumber :=
  ofInt u.toNat (by have := u.toNat_lt; rw [abs_lt]; omega)

/-- `IsUint32` -/
def isUint32 : JsNumber → Bool
  | fin q _ => q.den = 1 && 0 ≤ q && q < 2 ^ 32
  | _ => false

theorem isUint32_ofUInt32 (u : UInt32) : (ofUInt32 u).isUint32 = true := by
  have hlt : (u.toNat : ℚ) < 2 ^ 32 := by exact_mod_cast u.toNat_lt
  simp [ofUInt32, ofInt, isUint32, hlt]

theorem toUint32_ofUInt32 (u : UInt32) : (ofUInt32 u).toUint32 = u := by
  have hlt : (u.toNat : ℤ) < 2 ^ 32 := by exact_mod_cast u.toNat_lt
  rw [toUint32, ofUInt32, toInteger_ofInt, Int.emod_eq_of_lt (Int.natCast_nonneg _) hlt,
    Int.toNat_natCast, UInt32.ofNat_toNat]

/-- `IsInt32` -/
def isInt32 : JsNumber → Bool
  | fin q _ => q.den = 1 ∧ -2 ^ 31 ≤ q.num ∧ q.num < 2 ^ 31
  | _ => false

theorem isInt32_is {n : JsNumber} (h : n.isInt32 = true) : ∃ i : Int32, n.Is i.toInt := by
  cases n with
  | fin q hq =>
    rw [isInt32, decide_eq_true_eq] at h
    obtain ⟨hden, h1, h2⟩ := h
    refine ⟨Int32.ofInt q.num, ?_⟩
    rw [Int32.toInt_ofInt_of_le h1 h2, Is, val, Rat.coe_int_num_of_den_eq_one hden]
  | _ => cases h

theorem isUint32_is {n : JsNumber} (h : n.isUint32 = true) : ∃ u : UInt32, n.Is u.toNat := by
  cases n with
  | fin q hq =>
    simp only [isUint32, Bool.and_eq_true, decide_eq_true_eq] at h
    obtain ⟨⟨hden, h1⟩, h2⟩ := h
    obtain ⟨i, rfl⟩ : ∃ i : ℤ, q = i := ⟨q.num, (Rat.coe_int_num_of_den_eq_one hden).symm⟩
    have h1' : 0 ≤ i := by exact_mod_cast h1
    have h2' : i < 2 ^ 32 := by exact_mod_cast h2
    refine ⟨UInt32.ofNat i.toNat, ?_⟩
    have hlt : i.toNat < 2 ^ 32 := by omega
    rw [UInt32.toNat_ofNat_of_lt' hlt, Int.toNat_of_nonneg h1', Is, val]
  | _ => cases h

end JsNumber

end AerospikeNode
