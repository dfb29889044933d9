import AerospikeNode.Js.Val

/-!
# Property keys

What `ToPropertyKey` makes of a value that is used as a property name: numbers in the shortest
decimal notation that reads back as the number, buffers decoded as UTF-8 with replacement, arrays
joined with commas.
-/

namespace AerospikeNode

/-! ### Numbers -/

/-- `⌊log2 q⌋` of a positive rational. -/
def log2Floor (q : ℚ) : ℤ :=
  let l : ℤ := (Nat.log2 q.num.natAbs : ℤ) - Nat.log2 q.den
  if q < (2 : ℚ) ^ l then l - 1 else l

def roundHalfEven (q : ℚ) : ℤ :=
  let f := ⌊q⌋
  let r := q - f
  if r < 1 / 2 then f else if 1 / 2 < r then f + 1 else if f % 2 = 0 then f else f + 1

/-- The double nearest to a positive rational. -/
def nearestDouble (q : ℚ) : ℚ :=
  let e := max (log2Floor q - 52) (-1074)
  roundHalfEven (q / (2 : ℚ) ^ e) * (2 : ℚ) ^ e

/-- The number of digits before the decimal point, or minus the zeros after it. -/
def pointPosition (q : ℚ) : ℤ :=
  if 1 ≤ q then (Nat.toDigits 10 ⌊q⌋.toNat).length
  else -(((List.range 330).find? fun (j : ℕ) => (1 : ℚ) ≤ q * 10 ^ (j + 1)).getD 0 : ℕ)

/-- `s` without its trailing zeros, at most `fuel` of them. -/
def stripZeros : ℕ → ℕ → ℕ
  | 0, s => s
  | fuel + 1, s => if s % 10 = 0 then stripZeros fuel (s / 10) else s

/-- The digits of a positive double and the position of the decimal point: the fewest digits that
are nearer to it than to any other double. -/
def shortestDigits (q : ℚ) : List Char × ℤ :=
  let p := pointPosition q
  let digits (k : ℕ) : ℕ := (roundHalfEven (q / (10 : ℚ) ^ (p - k))).toNat
  let k := ((List.range 17).find? fun (k : ℕ) =>
    nearestDouble (digits (k + 1) * (10 : ℚ) ^ (p - (k + 1 : ℕ))) = q).getD 16 + 1
  let s := digits k
  (Nat.toDigits 10 (stripZeros 18 s), p - k + (Nat.toDigits 10 s).length)

def zeros (n : ℤ) : List Char := List.replicate n.toNat '0'

/-- `Number::toString` of a positive number. -/
def positiveToString (q : ℚ) : List Char :=
  let (ds, n) := shortestDigits q
  let k : ℤ := ds.length
  if k ≤ n ∧ n ≤ 21 then ds ++ zeros (n - k)
  else if 0 < n ∧ n ≤ 21 then ds.take n.toNat ++ '.' :: ds.drop n.toNat
  else if -6 < n ∧ n ≤ 0 then '0' :: '.' :: zeros (-n) ++ ds
  else
    let e := (if 0 < n then '+' else '-') :: Nat.toDigits 10 (n - 1).natAbs
    match ds with
    | [d] => d :: 'e' :: e
    | d :: ds => d :: '.' :: ds ++ 'e' :: e
    | [] => []

def JsNumber.toChars : JsNumber → List Char
  | nan => "NaN".toList
  | inf neg => if neg then "-Infinity".toList else "Infinity".toList
  | negZero => ['0']
  | fin q _ =>
    if q = 0 then ['0'] else if q < 0 then '-' :: positiveToString (-q) else positiveToString q

def bigintToChars (i : ℤ) : List Char :=
  if i < 0 then '-' :: Nat.toDigits 10 i.natAbs else Nat.toDigits 10 i.natAbs

/-! ### Buffers -/

/-- A UTF-8 decoder within a character: the continuation bytes still needed, the bits read, and the
range of the next byte. -/
structure Utf8State where
  needed : ℕ
  bits : ℕ
  lower : ℕ
  upper : ℕ

namespace Utf8State

def idle : Utf8State := ⟨0, 0, 0x80, 0xBF⟩

/-- The first byte of a character. -/
def lead (b : ℕ) : List Char × Utf8State :=
  if b < 0x80 then ([Char.ofNat b], idle)
  else if 0xC2 ≤ b ∧ b ≤ 0xDF then ([], ⟨1, b - 0xC0, 0x80, 0xBF⟩)
  else if 0xE0 ≤ b ∧ b ≤ 0xEF then
    ([], ⟨2, b - 0xE0, if b = 0xE0 then 0xA0 else 0x80, if b = 0xED then 0x9F else 0xBF⟩)
  else if 0xF0 ≤ b ∧ b ≤ 0xF4 then
    ([], ⟨3, b - 0xF0, if b = 0xF0 then 0x90 else 0x80, if b = 0xF4 then 0x8F else 0xBF⟩)
  else (['\uFFFD'], idle)

/-- A byte that does not continue the character ends it and is read again as a first byte. -/
def next (st : Utf8State) (b : ℕ) : List Char × Utf8State :=
  if st.needed = 0 then lead b
  else if st.lower ≤ b ∧ b ≤ st.upper then
    let bits := st.bits * 0x40 + (b - 0x80)
    if st.needed = 1 then ([Char.ofNat bits], idle)
    else ([], ⟨st.needed - 1, bits, 0x80, 0xBF⟩)
  else ('\uFFFD' :: (lead b).1, (lead b).2)

def decode : Utf8State → Bytes → List Char
  | st, [] => if st.needed = 0 then [] else ['\uFFFD']
  | st, b :: bs => (next st b.toNat).1 ++ decode (next st b.toNat).2 bs

end Utf8State

/-- `Buffer.prototype.toString` -/
def bufferToString (bs : Bytes) : JsString := JsString.ofChars (Utf8State.idle.decode bs)

/-! ### Values -/

namespace JsValue

def PROTO : JsString := JsString.lit "__proto__"

/-- A property that hides `Object.prototype.toString`. -/
def hidesToString (ps : Props) : Bool := ps.any (·.1 = JsString.lit "toString")

mutual
/-- `ToPropertyKey`; `none` where it throws, or is no string. An object of data that has its own
`toString` has no method to call. -/
def toPropertyKey : JsValue → Option JsString
  | undefined => some (JsString.lit "undefined")
  | null => some (JsString.lit "null")
  | bool b => some (JsString.lit (if b then "true" else "false"))
  | str s => some s
  | num n => some (JsString.ofChars n.toChars)
  | bigint i => some (JsString.ofChars (bigintToChars i))
  | buffer bs => some (bufferToString bs)
  | array xs => (elementStrings xs).map (JsString.lit ",").intercalate
  | map _ => some (JsString.lit "[object Map]")
  | obj _ ps => if hidesToString ps then none else some (JsString.lit "[object Object]")
  | symbol => none
  | func => none

/-- The strings `Array.prototype.join` puts commas between. -/
def elementStrings : List JsValue → Option (List JsString)
  | [] => some []
  | x :: xs => do
    let s ← if x.isNullish then some [] else toPropertyKey x
    let ss ← elementStrings xs
    return s :: ss
end

end JsValue

end AerospikeNode
