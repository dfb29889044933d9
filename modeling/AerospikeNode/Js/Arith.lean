import AerospikeNode.Js.PropertyKey
import Mathlib.Data.Int.Log

/-!
# Arithmetic on JavaScript values

The operators `+`, `-` and `>` as far as they are applied to values that a caller chose. A sum of
numbers is rounded to the nearest double, so it is the exact sum only where that is a double
(`add_val`, `sub_val`). An operand that is no number is converted first: `+` joins strings if either
operand is one, and a string that denotes no number is `NaN` to `-` and `>`.
-/

namespace AerospikeNode

/-! ### Rounding -/

theorem roundHalfEven_intCast (k : ℤ) : roundHalfEven k = k := by
  simp [roundHalfEven]

theorem abs_roundHalfEven_le {q : ℚ} {n : ℕ} (h : |q| ≤ n) : |roundHalfEven q| ≤ n := by
  have hlo := Int.floor_le q
  have hhi := Int.lt_floor_add_one q
  obtain ⟨h1, h2⟩ := abs_le.mp h
  have hf1 : -(n : ℤ) ≤ ⌊q⌋ := Int.le_floor.mpr (by push_cast; exact h1)
  have hf2 : ⌊q⌋ ≤ (n : ℤ) := by exact_mod_cast hlo.trans h2
  have hup : ⌊q⌋ = (n : ℤ) → q - ⌊q⌋ = 0 := by
    intro h
    have : (⌊q⌋ : ℚ) = n := by rw [h]; simp
    linarith
  rw [abs_le]
  simp only [roundHalfEven]
  split_ifs with ha hb hc
  · omega
  · have : ⌊q⌋ ≠ (n : ℤ) := fun h => by rw [hup h] at hb; norm_num at hb
    omega
  · omega
  · have : ⌊q⌋ ≠ (n : ℤ) := fun h => by rw [hup h] at ha; norm_num at ha
    omega

theorem le_abs_roundHalfEven {q : ℚ} {n : ℕ} (h : (n : ℚ) ≤ |q|) : (n : ℤ) ≤ |roundHalfEven q| := by
  have hlo := Int.floor_le q
  have hhi := Int.lt_floor_add_one q
  rcases le_abs.mp h with h | h
  · have hf : (n : ℤ) ≤ ⌊q⌋ := Int.le_floor.mpr (by push_cast; exact h)
    refine le_abs.mpr (.inl ?_)
    simp only [roundHalfEven]
    split_ifs <;> omega
  · have hq : q ≤ -(n : ℚ) := by linarith
    have hf : ⌊q⌋ ≤ -(n : ℤ) := by
      have : (⌊q⌋ : ℚ) ≤ ((-(n : ℤ) : ℤ) : ℚ) := by push_cast; linarith
      exact_mod_cast this
    have hdown : ⌊q⌋ = -(n : ℤ) → q - ⌊q⌋ = 0 := by
      intro h
      have : (⌊q⌋ : ℚ) = -(n : ℚ) := by rw [h]; simp
      linarith
    refine le_abs.mpr (.inr ?_)
    simp only [roundHalfEven]
    split_ifs with ha hb hc
    · omega
    · have : ⌊q⌋ ≠ -(n : ℤ) := fun h => by rw [hdown h] at hb; norm_num at hb
      omega
    · omega
    · have : ⌊q⌋ ≠ -(n : ℤ) := fun h => by rw [hdown h] at ha; norm_num at ha
      omega

/-- The exponent of the last binary digit that a double near `q` keeps. -/
def lastPlace (q : ℚ) : ℤ := max (Int.log 2 |q| - 52) (-1074)

/-- `q` rounded to a multiple of its last place, ties to even. -/
def roundPlace (q : ℚ) : ℚ := roundHalfEven (q / 2 ^ lastPlace q) * 2 ^ lastPlace q

private theorem two_zpow_pos (e : ℤ) : (0 : ℚ) < 2 ^ e := zpow_pos (by norm_num) e

/-- A double is a multiple of its last place. -/
theorem IsDouble.roundPlace_eq {q : ℚ} (h : IsDouble q) : roundPlace q = q := by
  obtain ⟨m, e, hm, hlo, -, rfl⟩ := h
  rcases eq_or_ne m 0 with rfl | hm0
  · simp [roundPlace, roundHalfEven]
  have habs : |(m : ℚ) * 2 ^ e| = |(m : ℚ)| * 2 ^ e := by
    rw [abs_mul, abs_of_pos (two_zpow_pos e)]
  have hpos : 0 < |(m : ℚ) * 2 ^ e| := by
    rw [habs]
    exact mul_pos (abs_pos.mpr (by exact_mod_cast hm0)) (two_zpow_pos e)
  have hlog : Int.log 2 |(m : ℚ) * 2 ^ e| < 53 + e := by
    rw [← Int.lt_zpow_iff_log_lt (by norm_num) hpos, habs, Nat.cast_ofNat,
      zpow_add₀ (by norm_num : (2 : ℚ) ≠ 0)]
    exact mul_lt_mul_of_pos_right (by exact_mod_cast hm) (two_zpow_pos e)
  have hle : lastPlace ((m : ℚ) * 2 ^ e) ≤ e := by
    rw [lastPlace]
    omega
  obtain ⟨k, hk⟩ := Int.eq_ofNat_of_zero_le (sub_nonneg.mpr hle)
  have hdiv : (m : ℚ) * 2 ^ e / 2 ^ lastPlace ((m : ℚ) * 2 ^ e) = ((m * 2 ^ k : ℤ) : ℚ) := by
    rw [mul_div_assoc, ← zpow_sub₀ (by norm_num : (2 : ℚ) ≠ 0), hk]
    push_cast
    rw [zpow_natCast]
  rw [roundPlace, hdiv, roundHalfEven_intCast, ← hdiv, div_mul_cancel₀ _ (two_zpow_pos _).ne']

/-- A normal number has 53 binary digits. -/
theorem le_roundHalfEven_of_log {q : ℚ} (hpos : 0 < |q|) (hl : lastPlace q = Int.log 2 |q| - 52) :
    ((2 ^ 52 : ℕ) : ℤ) ≤ |roundHalfEven (q / 2 ^ lastPlace q)| := by
  refine le_abs_roundHalfEven ?_
  have hge := Int.zpow_log_le_self (b := 2) (by norm_num) hpos
  rw [abs_div, abs_of_pos (two_zpow_pos _), le_div_iff₀ (two_zpow_pos _)]
  refine le_trans (le_of_eq ?_) hge
  rw [Nat.cast_ofNat, Nat.cast_pow, Nat.cast_ofNat, ← zpow_natCast,
    ← zpow_add₀ (by norm_num : (2 : ℚ) ≠ 0), hl]
  congr 1
  push_cast
  omega

/-- A rounded number is a double unless it overflows. -/
theorem isDouble_roundPlace {q : ℚ} (h : |roundPlace q| < 2 ^ 1024) : IsDouble (roundPlace q) := by
  rcases eq_or_ne q 0 with rfl | hq
  · exact ⟨0, 0, by norm_num, by norm_num, by norm_num, by simp [roundPlace, roundHalfEven]⟩
  have hpos : 0 < |q| := abs_pos.mpr hq
  have hmax : |roundHalfEven (q / 2 ^ lastPlace q)| ≤ (2 ^ 53 : ℕ) := by
    refine abs_roundHalfEven_le ?_
    have hlt := Int.lt_zpow_succ_log_self (b := 2) (by norm_num) |q|
    rw [abs_div, abs_of_pos (two_zpow_pos _), div_le_iff₀ (two_zpow_pos _)]
    refine hlt.le.trans ?_
    rw [Nat.cast_ofNat, Nat.cast_pow, Nat.cast_ofNat, ← zpow_natCast,
      ← zpow_add₀ (by norm_num : (2 : ℚ) ≠ 0)]
    exact zpow_le_zpow_right₀ (by norm_num) (by rw [lastPlace]; push_cast; omega)
  have hexp : lastPlace q ≤ 971 := by
    by_contra hbig
    rw [not_le] at hbig
    have hl : lastPlace q = Int.log 2 |q| - 52 := by rw [lastPlace] at hbig ⊢; omega
    have hmin := le_roundHalfEven_of_log hpos hl
    have hge : (2 : ℚ) ^ 1024 ≤ |roundPlace q| := by
      rw [roundPlace, abs_mul, abs_of_pos (two_zpow_pos _)]
      have h1 : (2 : ℚ) ^ 52 ≤ |(roundHalfEven (q / 2 ^ lastPlace q) : ℚ)| := by
        exact_mod_cast hmin
      have h2 : (2 : ℚ) ^ (972 : ℤ) ≤ 2 ^ lastPlace q :=
        zpow_le_zpow_right₀ (by norm_num) (by omega)
      calc (2 : ℚ) ^ 1024 = 2 ^ 52 * 2 ^ (972 : ℤ) := by
            rw [← zpow_natCast, ← zpow_natCast, ← zpow_add₀ (by norm_num : (2 : ℚ) ≠ 0)]
            norm_num
        _ ≤ _ := mul_le_mul h1 h2 (two_zpow_pos _).le (abs_nonneg _)
    exact absurd h (not_lt.mpr hge)
  have hmin : -1074 ≤ lastPlace q := le_max_right _ _
  rcases hmax.lt_or_eq with hlt | heq
  · exact ⟨_, _, by exact_mod_cast hlt, hmin, hexp, rfl⟩
  · have hmul : roundHalfEven (q / 2 ^ lastPlace q) =
        (roundHalfEven (q / 2 ^ lastPlace q)).sign * 2 ^ 52 * 2 := by
      conv_lhs => rw [← Int.sign_mul_abs (roundHalfEven (q / 2 ^ lastPlace q)), heq]
      norm_num
      ring
    have hexp' : lastPlace q < 971 := by
      by_contra hbig
      have h971 : lastPlace q = 971 := by omega
      have hval : |roundPlace q| = 2 ^ 1024 := by
        have hq53 : |(roundHalfEven (q / 2 ^ lastPlace q) : ℚ)| = 2 ^ 53 := by exact_mod_cast heq
        rw [roundPlace, abs_mul, abs_of_pos (two_zpow_pos _), hq53, h971, ← zpow_natCast,
          ← zpow_natCast, ← zpow_add₀ (by norm_num : (2 : ℚ) ≠ 0)]
        norm_num
      exact absurd h (by rw [hval]; exact lt_irrefl _)
    refine ⟨(roundHalfEven (q / 2 ^ lastPlace q)).sign * 2 ^ 52, lastPlace q + 1, ?_, by omega,
      by omega, ?_⟩
    · have : |(roundHalfEven (q / 2 ^ lastPlace q)).sign| ≤ 1 := by
        rcases Int.sign_trichotomy (roundHalfEven (q / 2 ^ lastPlace q)) with h | h | h <;>
          simp [h]
      rw [abs_mul]
      have h52 : |(2 : ℤ) ^ 52| = 2 ^ 52 := by norm_num
      rw [h52]
      omega
    · rw [zpow_add₀ (by norm_num : (2 : ℚ) ≠ 0), zpow_one, roundPlace]
      conv_lhs => rw [hmul]
      push_cast
      ring

/-- Rounding keeps a large number large. -/
theorem le_abs_roundPlace {q : ℚ} (h : 2 ^ 53 ≤ |q|) : 2 ^ 52 ≤ |roundPlace q| := by
  have hpos : 0 < |q| := lt_of_lt_of_le (by norm_num) h
  have hlog : 53 ≤ Int.log 2 |q| := by
    rw [← Int.zpow_le_iff_le_log (by norm_num) hpos]
    exact_mod_cast h
  have hlast : lastPlace q = Int.log 2 |q| - 52 := max_eq_left (by omega)
  have hdigits : (2 : ℚ) ^ 52 ≤ |(roundHalfEven (q / 2 ^ lastPlace q) : ℚ)| := by
    exact_mod_cast le_roundHalfEven_of_log hpos hlast
  have hplace : (1 : ℚ) ≤ 2 ^ lastPlace q := one_le_zpow₀ (by norm_num) (by omega)
  calc (2 : ℚ) ^ 52 = 2 ^ 52 * 1 := (mul_one _).symm
    _ ≤ |(roundHalfEven (q / 2 ^ lastPlace q) : ℚ)| * 2 ^ lastPlace q :=
        mul_le_mul hdigits hplace zero_le_one (abs_nonneg _)
    _ = |roundPlace q| := by rw [roundPlace, abs_mul, abs_of_pos (two_zpow_pos _)]

namespace JsNumber

/-- The double nearest to a rational. -/
def ofRat (q : ℚ) : JsNumber :=
  if h : |roundPlace q| < 2 ^ 1024 then
    if roundPlace q = 0 ∧ q < 0 then negZero else fin (roundPlace q) (isDouble_roundPlace h)
  else inf (q < 0)

theorem ofRat_val {q : ℚ} (h : IsDouble q) : (ofRat q).val = some q := by
  have hlt : |roundPlace q| < 2 ^ 1024 := by
    rw [h.roundPlace_eq]
    obtain ⟨m, e, hm, -, he, rfl⟩ := h
    rw [abs_mul, abs_of_pos (two_zpow_pos e)]
    calc |(m : ℚ)| * 2 ^ e < 2 ^ 53 * 2 ^ e :=
          mul_lt_mul_of_pos_right (by exact_mod_cast hm) (two_zpow_pos e)
      _ ≤ 2 ^ 53 * 2 ^ (971 : ℤ) := by
          gcongr
          · norm_num
      _ = 2 ^ 1024 := by
          rw [← zpow_natCast, ← zpow_natCast, ← zpow_add₀ (by norm_num : (2 : ℚ) ≠ 0)]
          norm_num
  rw [ofRat, dif_pos hlt]
  simp only [h.roundPlace_eq]
  split_ifs with hz
  · exact absurd hz.1 (by rintro rfl; exact lt_irrefl _ hz.2)
  · rfl

/-- The double nearest to a natural number is a small number only if it is that number. -/
theorem ofRat_is {n k : ℕ} (hk : k < 2 ^ 52) : (ofRat n).Is k ↔ n = k := by
  by_cases hn : n < 2 ^ 53
  · have hd : IsDouble (n : ℚ) := by
      exact_mod_cast IsDouble.ofInt (i := n) (by rw [Nat.abs_cast]; exact_mod_cast hn)
    rw [Is, ofRat_val hd, Option.some.injEq]
    exact_mod_cast Iff.rfl
  · have hlarge : 2 ^ 52 ≤ |roundPlace (n : ℚ)| := by
      refine le_abs_roundPlace ?_
      rw [Nat.abs_cast]
      exact_mod_cast Nat.le_of_not_lt hn
    refine iff_of_false (fun h => ?_) (by omega)
    have hval : roundPlace (n : ℚ) = k := by
      unfold ofRat at h
      split_ifs at h with h1 h2
      · exact absurd h2.2 (by simp)
      · exact_mod_cast Option.some.inj h
      · cases h
    rw [hval, Nat.abs_cast] at hlarge
    have hge : 2 ^ 52 ≤ k := by exact_mod_cast hlarge
    omega

def neg : JsNumber → JsNumber
  | nan => nan
  | inf s => inf !s
  | negZero => fin 0 ⟨0, 0, by norm_num, by norm_num, by norm_num, by simp⟩
  | fin q h =>
    if q = 0 then negZero
    else fin (-q) (by
      obtain ⟨m, e, hm, h1, h2, rfl⟩ := h
      exact ⟨-m, e, by rwa [abs_neg], h1, h2, by push_cast; ring⟩)

/-- `+` on numbers. -/
def add : JsNumber → JsNumber → JsNumber
  | nan, _ => nan
  | _, nan => nan
  | inf s, inf t => if s = t then inf s else nan
  | inf s, _ => inf s
  | _, inf t => inf t
  | negZero, n => n
  | n, negZero => n
  | fin q _, fin r _ => ofRat (q + r)

/-- `-` on numbers. -/
def sub (n m : JsNumber) : JsNumber := n.add m.neg

/-- `>` on numbers. -/
def gt : JsNumber → JsNumber → Bool
  | nan, _ => false
  | _, nan => false
  | inf s, inf t => !s && t
  | inf s, _ => !s
  | _, inf t => t
  | n, m => n.val.getD 0 > m.val.getD 0

/-- A sum that is a double is not rounded. -/
theorem add_val {n m : JsNumber} {q r : ℚ} (hn : n.val = some q) (hm : m.val = some r)
    (h : IsDouble (q + r)) : (n.add m).val = some (q + r) := by
  cases n <;> cases m <;> simp only [val, Option.some.injEq, reduceCtorEq] at hn hm <;> subst hn hm
  · simp [add, val]
  · simp [add, val]
  · simp [add, val]
  · exact ofRat_val h

theorem add_comm' (n m : JsNumber) : n.add m = m.add n := by
  cases n <;> cases m <;> simp only [add]
  · split_ifs with h h' h'
    · rw [h]
    · exact absurd h.symm h'
    · exact absurd h'.symm h
    · rfl
  · rw [add_comm]

theorem neg_val {n : JsNumber} {q : ℚ} (hn : n.val = some q) : n.neg.val = some (-q) := by
  cases n <;> simp only [val, Option.some.injEq, reduceCtorEq] at hn <;> subst hn
  · rfl
  · rw [neg]
    split_ifs with h
    · rw [h, neg_zero]; rfl
    · rfl

theorem sub_val {n m : JsNumber} {q r : ℚ} (hn : n.val = some q) (hm : m.val = some r)
    (h : IsDouble (q - r)) : (n.sub m).val = some (q - r) := by
  rw [sub_eq_add_neg] at h ⊢
  exact add_val hn (neg_val hm) h

theorem gt_eq {n m : JsNumber} {q r : ℚ} (hn : n.val = some q) (hm : m.val = some r) :
    n.gt m = decide (q > r) := by
  cases n <;> cases m <;> simp only [val, Option.some.injEq, reduceCtorEq] at hn hm <;>
    subst hn hm <;> rfl

end JsNumber

/-! ### Strings -/

/-- `WhiteSpace` and `LineTerminator` -/
def isWhitespace (u : UInt16) : Bool :=
  u ∈ [9, 10, 11, 12, 13, 32, 0xA0, 0x1680, 0x2028, 0x2029, 0x202F, 0x205F, 0x3000, 0xFEFF] ||
    (0x2000 ≤ u && u ≤ 0x200A)

/-- The value of the digits, if there are some and all are digits of the radix. -/
def digitsValue (radix : ℕ) (ds : List Char) : Option ℕ :=
  if ds.isEmpty then none
  else ds.foldlM (fun n c =>
    let d := if c.isDigit then c.toNat - 48
      else if 'a' ≤ c ∧ c ≤ 'z' then c.toNat - 87
      else if 'A' ≤ c ∧ c ≤ 'Z' then c.toNat - 55 else 36
    if d < radix then some (n * radix + d) else none) 0

/-- The value of an exponent part. -/
def exponentValue : List Char → Option ℤ
  | '-' :: ds => (digitsValue 10 ds).map fun n => -(n : ℤ)
  | '+' :: ds => (digitsValue 10 ds).map Int.ofNat
  | ds => (digitsValue 10 ds).map Int.ofNat

/-- `StrUnsignedDecimalLiteral` -/
def unsignedDecimal (cs : List Char) : Option JsNumber :=
  if cs = "Infinity".toList then some (.inf false)
  else do
    let mantissa := cs.takeWhile fun c => c ≠ 'e' && c ≠ 'E'
    let whole := mantissa.takeWhile (· ≠ '.')
    let fraction := (mantissa.dropWhile (· ≠ '.')).drop 1
    let digits ← digitsValue 10 (whole ++ fraction)
    let e ← match cs.drop mantissa.length with
      | [] => some 0
      | _ :: ds => exponentValue ds
    return .ofRat (digits * 10 ^ (e - fraction.length))

/-- The number a string denotes. -/
def stringToNumber (s : JsString) : JsNumber :=
  let trimmed := ((s.dropWhile isWhitespace).reverse.dropWhile isWhitespace).reverse
  let radix (r : ℕ) (ds : List Char) : JsNumber :=
    ((digitsValue r ds).map fun n => .ofRat n).getD .nan
  match trimmed.map fun u => Char.ofNat u.toNat with
  | [] => .ofInt32 0
  | '0' :: 'x' :: ds | '0' :: 'X' :: ds => radix 16 ds
  | '0' :: 'o' :: ds | '0' :: 'O' :: ds => radix 8 ds
  | '0' :: 'b' :: ds | '0' :: 'B' :: ds => radix 2 ds
  | '+' :: cs => (unsignedDecimal cs).getD .nan
  | '-' :: cs => ((unsignedDecimal cs).map .neg).getD .nan
  | cs => (unsignedDecimal cs).getD .nan

/-! ### Operators -/

namespace JsValue

/-- `ToPrimitive`; `none` where it throws. The text of a function is not kept. -/
def toPrimitive : JsValue → Option JsValue
  | func => some (str (JsString.lit "function () {}"))
  | v => if v.isObject then v.toPropertyKey.map str else some v

/-- `ToString` of a primitive; `none` where it throws. -/
def primitiveToString (v : JsValue) : Option JsString := v.toPropertyKey

/-- `ToNumber` of a primitive; `none` where it throws. -/
def primitiveToNumber : JsValue → Option JsNumber
  | undefined => some .nan
  | null => some (.ofInt32 0)
  | bool b => some (.ofInt32 (if b then 1 else 0))
  | str s => some (stringToNumber s)
  | num n => some n
  | _ => none

def isString : JsValue → Bool
  | str _ => true
  | _ => false

def bigint? : JsValue → Option ℤ
  | bigint i => some i
  | _ => none

/-- `+` on primitives; `none` where it throws. -/
def plusPrimitive (p p' : JsValue) : Option JsValue :=
  if p.isString || p'.isString then do
    return str ((← p.primitiveToString) ++ (← p'.primitiveToString))
  else match p.bigint?, p'.bigint? with
  | some i, some j => some (bigint (i + j))
  | _, _ => do return num ((← p.primitiveToNumber).add (← p'.primitiveToNumber))

/-- `v + w`; `none` where it throws. -/
def plus (v w : JsValue) : Option JsValue := do plusPrimitive (← v.toPrimitive) (← w.toPrimitive)

/-- `v - w`; `none` where it throws. -/
def minus (v w : JsValue) : Option JsValue := do
  match ← v.toPrimitive, ← w.toPrimitive with
  | bigint i, bigint j => return bigint (i - j)
  | p, p' => return num ((← p.primitiveToNumber).sub (← p'.primitiveToNumber))

theorem num_plus_num (n m : JsNumber) : (num n).plus (num m) = some (num (n.add m)) := rfl

theorem num_minus_num (n m : JsNumber) : (num n).minus (num m) = some (num (n.sub m)) := rfl

theorem plusPrimitive_num_comm {p p' : JsValue} {n : JsNumber}
    (h : plusPrimitive p p' = some (num n)) : plusPrimitive p' p = some (num n) := by
  rw [plusPrimitive] at h ⊢
  rw [Bool.or_comm]
  split_ifs at h ⊢ with hs
  · cases hp : p.primitiveToString <;> cases hp' : p'.primitiveToString <;> simp [hp, hp'] at h
  · cases hb : p.bigint? with
    | some i =>
      cases hb' : p'.bigint? with
      | some j => simp [hb, hb'] at h
      | none =>
        have hnone : p.primitiveToNumber = none := by
          cases p with
          | bigint i => rfl
          | _ => cases hb
        simp [hb, hb', hnone] at h
    | none =>
      cases ha : p.primitiveToNumber <;> cases ha' : p'.primitiveToNumber <;> simp [hb, ha, ha'] at h
      cases p'.bigint? <;> simpa [JsNumber.add_comm'] using h

/-- What adds up to a number does so in either order. -/
theorem plus_num_comm {v w : JsValue} {n : JsNumber} (h : v.plus w = some (num n)) :
    w.plus v = some (num n) := by
  rw [plus] at h ⊢
  cases hv : v.toPrimitive with
  | none => simp [hv] at h
  | some p =>
    cases hw : w.toPrimitive with
    | none => simp [hv, hw] at h
    | some p' =>
      simp only [hv, hw, Option.bind_eq_bind, Option.bind_some] at h ⊢
      exact plusPrimitive_num_comm h

/-- `v > n` for a value that is no BigInt; a conversion that throws counts as `false`. -/
def gtNumber (v : JsValue) (n : JsNumber) : Bool :=
  match v.toPrimitive.bind primitiveToNumber with
  | some m => m.gt n
  | none => false

end JsValue

end AerospikeNode
