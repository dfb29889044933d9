import Mathlib.Data.List.TakeWhile
import Mathlib.Tactic.Common

/-!
# JavaScript strings and C strings

A JavaScript string is a list of UTF-16 code units. The native code reads it through
`Nan::Utf8String`, which writes UTF-8 (a lone surrogate becomes U+FFFD) and ends the buffer with a
NUL, so whatever reads the buffer as a `char *` sees it up to the first NUL byte.
-/

namespace AerospikeNode

abbrev Bytes := List UInt8

/-- A JavaScript string: its UTF-16 code units. -/
abbrev JsString := List UInt16

namespace JsString

def isHigh (u : UInt16) : Bool := 0xD800 ≤ u.toNat && u.toNat < 0xDC00

def isLow (u : UInt16) : Bool := 0xDC00 ≤ u.toNat && u.toNat < 0xE000

/-- The scalar value of a code unit that is not part of a surrogate pair. -/
def unitChar (u : UInt16) : Char :=
  if isHigh u || isLow u then '\uFFFD' else Char.ofNat u.toNat

def pairChar (hi lo : UInt16) : Char :=
  Char.ofNat (0x10000 + (hi.toNat - 0xD800) * 0x400 + (lo.toNat - 0xDC00))

/-- The code points of a string, a lone surrogate replaced by U+FFFD. -/
def codePoints : JsString → List Char
  | [] => []
  | [u] => [unitChar u]
  | u :: v :: rest =>
    if isHigh u && isLow v then pairChar u v :: codePoints rest
    else unitChar u :: codePoints (v :: rest)

/-- No surrogate stands alone. -/
def WellFormed : JsString → Bool
  | [] => true
  | [u] => !(isHigh u || isLow u)
  | u :: v :: rest =>
    if isHigh u && isLow v then WellFormed rest
    else !(isHigh u || isLow u) && WellFormed (v :: rest)

/-- The code units of one code point. -/
def ofChar (c : Char) : JsString :=
  if c.toNat < 0x10000 then [UInt16.ofNat c.toNat]
  else [UInt16.ofNat (0xD800 + (c.toNat - 0x10000) / 0x400),
    UInt16.ofNat (0xDC00 + (c.toNat - 0x10000) % 0x400)]

def ofChars (cs : List Char) : JsString := cs.flatMap ofChar

/-- `Nan::Utf8String`: the UTF-8 bytes of a string (without the final NUL). -/
def utf8 (s : JsString) : Bytes := (codePoints s).flatMap String.utf8EncodeChar

/-- The string of UTF-8 bytes; bytes that are not UTF-8 have none. -/
def ofUtf8 (bs : Bytes) : Option JsString :=
  bs.toByteArray.utf8Decode?.map fun cs => ofChars cs.toList

/-- The part of a buffer that a reader of a `char *` sees. -/
def cstr (bs : Bytes) : Bytes := bs.takeWhile (· ≠ 0)

/-- A source text as a JavaScript string. -/
def lit (s : String) : JsString := ofChars s.toList

theorem ofNat_toNat_char {n : Nat} (h : n.isValidChar) : (Char.ofNat n).toNat = n := by
  rw [Char.ofNat, dif_pos h]
  rfl

theorem toNat_lt_surrogate {c : Char} (h : 0xD800 ≤ c.toNat) : 0xE000 ≤ c.toNat := by
  have := c.valid
  simp only [UInt32.isValidChar, Nat.isValidChar] at this
  change c.toNat < 55296 ∨ 57343 < c.toNat ∧ c.toNat < 1114112 at this
  omega

theorem toNat_lt_max (c : Char) : c.toNat < 0x110000 := by
  have := c.valid
  simp only [UInt32.isValidChar, Nat.isValidChar] at this
  change c.toNat < 55296 ∨ 57343 < c.toNat ∧ c.toNat < 1114112 at this
  omega

theorem char_ext {c d : Char} (h : c.toNat = d.toNat) : c = d :=
  Char.ext (UInt32.toNat.inj h)

theorem ofChar_unitChar {u : UInt16} (h : (isHigh u || isLow u) = false) :
    ofChar (unitChar u) = [u] := by
  have hu := u.toNat_lt
  have hv : u.toNat.isValidChar := by
    simp only [isHigh, isLow, Bool.or_eq_false_iff, Bool.and_eq_false_iff, decide_eq_false_iff_not] at h
    simp only [Nat.isValidChar]; omega
  simp only [unitChar, h, Bool.false_eq_true, ↓reduceIte, ofChar, ofNat_toNat_char hv, hu]
  simp

theorem ofChar_pairChar {u v : UInt16} (hu : isHigh u = true) (hv : isLow v = true) :
    ofChar (pairChar u v) = [u, v] := by
  simp only [isHigh, isLow, Bool.and_eq_true, decide_eq_true_eq] at hu hv
  have hval : (0x10000 + (u.toNat - 0xD800) * 0x400 + (v.toNat - 0xDC00)).isValidChar := by
    simp only [Nat.isValidChar]; omega
  simp only [pairChar, ofChar, ofNat_toNat_char hval]
  rw [if_neg (by omega)]
  have h1 : 0xD800 + (0x10000 + (u.toNat - 0xD800) * 0x400 + (v.toNat - 0xDC00) - 0x10000) / 0x400
      = u.toNat := by omega
  have h2 : 0xDC00 + (0x10000 + (u.toNat - 0xD800) * 0x400 + (v.toNat - 0xDC00) - 0x10000) % 0x400
      = v.toNat := by omega
  rw [h1, h2]
  simp

/-- Encoding the code points of a well-formed string gives it back. -/
theorem ofChars_codePoints : ∀ s : JsString, WellFormed s = true → ofChars (codePoints s) = s
  | [], _ => rfl
  | [u], h => by
    simp only [WellFormed, Bool.not_eq_true'] at h
    simp [codePoints, ofChars, ofChar_unitChar h]
  | u :: v :: rest, h => by
    rw [WellFormed] at h
    rw [codePoints]
    split_ifs at h ⊢ with hp
    · simp only [Bool.and_eq_true] at hp
      have ih := ofChars_codePoints rest h
      simp only [ofChars, List.flatMap_cons] at ih ⊢
      rw [ofChar_pairChar hp.1 hp.2, ih]; rfl
    · simp only [Bool.and_eq_true, Bool.not_eq_true'] at h
      have ih := ofChars_codePoints (v :: rest) h.2
      simp only [ofChars, List.flatMap_cons] at ih ⊢
      rw [ofChar_unitChar h.1, ih]; rfl

theorem codePoints_cons_unit {u : UInt16} (h : (isHigh u || isLow u) = false) (rest : JsString) :
    codePoints (u :: rest) = unitChar u :: codePoints rest := by
  cases rest with
  | nil => rfl
  | cons v rest =>
    have : ¬ (isHigh u && isLow v) = true := by simp at h; simp [h]
    rw [codePoints, if_neg this]

theorem wellFormed_cons_unit {u : UInt16} (h : (isHigh u || isLow u) = false) (rest : JsString) :
    WellFormed (u :: rest) = WellFormed rest := by
  cases rest with
  | nil => simpa [WellFormed] using h
  | cons v rest =>
    have : ¬ (isHigh u && isLow v) = true := by simp at h; simp [h]
    rw [WellFormed, if_neg this]; simp [h]

/-- A code point is one unit outside the surrogate range, or a surrogate pair. -/
theorem ofChar_cases (c : Char) :
    (∃ u, ofChar c = [u] ∧ (isHigh u || isLow u) = false ∧ unitChar u = c) ∨
    (∃ u v, ofChar c = [u, v] ∧ isHigh u = true ∧ isLow v = true ∧ pairChar u v = c) := by
  have hmax := toNat_lt_max c
  by_cases hc : c.toNat < 0x10000
  · have hn : (UInt16.ofNat c.toNat).toNat = c.toNat := by simp; omega
    have hs : (isHigh (UInt16.ofNat c.toNat) || isLow (UInt16.ofNat c.toNat)) = false := by
      simp only [isHigh, isLow, hn, Bool.or_eq_false_iff, Bool.and_eq_false_iff,
        decide_eq_false_iff_not]
      by_cases hd : 0xD800 ≤ c.toNat
      · have := toNat_lt_surrogate hd; omega
      · omega
    refine .inl ⟨UInt16.ofNat c.toNat, by simp [ofChar, hc], hs, ?_⟩
    simp [unitChar, hs, hn]
  · have h1 : (UInt16.ofNat (0xD800 + (c.toNat - 0x10000) / 0x400)).toNat
        = 0xD800 + (c.toNat - 0x10000) / 0x400 := by simp; omega
    have h2 : (UInt16.ofNat (0xDC00 + (c.toNat - 0x10000) % 0x400)).toNat
        = 0xDC00 + (c.toNat - 0x10000) % 0x400 := by simp; omega
    refine .inr ⟨_, _, by rw [ofChar, if_neg hc], ?_, ?_, ?_⟩
    · simp only [isHigh, h1, Bool.and_eq_true, decide_eq_true_eq]; omega
    · simp only [isLow, h2, Bool.and_eq_true, decide_eq_true_eq]; omega
    · have : 0x10000 + (0xD800 + (c.toNat - 0x10000) / 0x400 - 0xD800) * 0x400 +
          (0xDC00 + (c.toNat - 0x10000) % 0x400 - 0xDC00) = c.toNat := by omega
      rw [pairChar, h1, h2, this, Char.ofNat_toNat]

theorem codePoints_ofChars (cs : List Char) : codePoints (ofChars cs) = cs := by
  induction cs with
  | nil => rfl
  | cons c cs ih =>
    simp only [ofChars, List.flatMap_cons] at ih ⊢
    rcases ofChar_cases c with ⟨u, hu, hs, hc⟩ | ⟨u, v, huv, hh, hl, hc⟩
    · rw [hu, List.singleton_append, codePoints_cons_unit hs, hc, ih]
    · rw [huv, List.cons_append, List.singleton_append, codePoints, if_pos (by simp [hh, hl]), hc, ih]

@[simp] theorem lit_inj {s t : String} : lit s = lit t ↔ s = t := by
  constructor
  · intro h
    have hchars : s.toList = t.toList := by
      rw [← codePoints_ofChars s.toList, ← codePoints_ofChars t.toList]
      exact congrArg codePoints h
    exact String.toList_inj.1 hchars
  · rintro rfl
    rfl

theorem wellFormed_ofChars (cs : List Char) : WellFormed (ofChars cs) = true := by
  induction cs with
  | nil => rfl
  | cons c cs ih =>
    simp only [ofChars, List.flatMap_cons] at ih ⊢
    rcases ofChar_cases c with ⟨u, hu, hs, -⟩ | ⟨u, v, huv, hh, hl, -⟩
    · rw [hu, List.singleton_append, wellFormed_cons_unit hs, ih]
    · rw [huv, List.cons_append, List.singleton_append, WellFormed, if_pos (by simp [hh, hl]), ih]

theorem ofUtf8_encode (cs : List Char) :
    ofUtf8 (cs.flatMap String.utf8EncodeChar) = some (ofChars cs) := by
  have : (cs.flatMap String.utf8EncodeChar).toByteArray = cs.utf8Encode := rfl
  rw [ofUtf8, this, List.utf8Decode?_utf8Encode]
  rfl

/-- A well-formed string survives the way to C bytes and back. -/
theorem ofUtf8_utf8 {s : JsString} (h : WellFormed s = true) : ofUtf8 (utf8 s) = some s := by
  rw [utf8, ofUtf8_encode, ofChars_codePoints s h]

/-- Distinct well-formed strings have distinct UTF-8 bytes. -/
theorem utf8_inj {s t : JsString} (hs : WellFormed s = true) (ht : WellFormed t = true)
    (h : utf8 s = utf8 t) : s = t := by
  have := ofUtf8_utf8 hs
  rw [h, ofUtf8_utf8 ht] at this
  exact (Option.some.inj this).symm

/-! ### NUL bytes -/

theorem zero_mem_utf8EncodeChar {c : Char} (h : 0 ∈ String.utf8EncodeChar c) : c = '\x00' := by
  apply char_ext
  have hb : ∀ n : Nat, (0 : UInt8) = UInt8.ofNat n → n % 256 = 0 := fun n hn => by
    have := congrArg UInt8.toNat hn; simpa using this.symm
  have hc : c.val.toNat = c.toNat := rfl
  have hmax := toNat_lt_max c
  simp only [String.utf8EncodeChar, hc] at h
  split_ifs at h <;> simp only [List.mem_cons, List.not_mem_nil, or_false] at h
  · have := hb _ h
    change c.toNat = 0
    omega
  · rcases h with h | h <;> have := hb _ h <;> omega
  · rcases h with h | h | h <;> have := hb _ h <;> omega
  · rcases h with h | h | h | h <;> have := hb _ h <;> omega

theorem cstr_eq_self {bs : Bytes} : cstr bs = bs ↔ 0 ∉ bs := by
  rw [cstr, List.takeWhile_eq_self_iff]
  constructor
  · intro h h0; simpa using h 0 h0
  · intro h x hx; simpa using fun (h0 : x = 0) => h (h0 ▸ hx)

theorem zero_not_mem_cstr (bs : Bytes) : 0 ∉ cstr bs := fun h => by
  simpa using List.mem_takeWhile_imp h

theorem cstr_append {as bs : Bytes} (h : 0 ∉ as) : cstr (as ++ bs) = as ++ cstr bs := by
  refine List.takeWhile_append_of_pos fun x hx => ?_
  simpa using fun (h0 : x = 0) => h (h0 ▸ hx)

/-- The C string of some code points is the encoding of those before the first NUL. -/
theorem cstr_encode (cs : List Char) :
    cstr (cs.flatMap String.utf8EncodeChar) =
      (cs.takeWhile (· ≠ '\x00')).flatMap String.utf8EncodeChar := by
  induction cs with
  | nil => rfl
  | cons c cs ih =>
    rw [List.flatMap_cons]
    by_cases hc : c = '\x00'
    · subst hc; rfl
    · have h0 : 0 ∉ String.utf8EncodeChar c := fun h => hc (zero_mem_utf8EncodeChar h)
      rw [cstr_append h0, ih, List.takeWhile_cons_of_pos (by simpa using hc), List.flatMap_cons]

theorem zero_mem_utf8 {s : JsString} : 0 ∈ utf8 s ↔ '\x00' ∈ codePoints s := by
  rw [utf8, List.mem_flatMap]
  constructor
  · rintro ⟨c, hc, h0⟩; exact zero_mem_utf8EncodeChar h0 ▸ hc
  · intro h; exact ⟨_, h, by decide⟩

/-- A string that a `char *` holds as it is. -/
def Clean (s : JsString) : Prop := WellFormed s = true ∧ 0 ∉ utf8 s

instance (s : JsString) : Decidable (Clean s) := inferInstanceAs (Decidable (_ ∧ _))

/-- What is read back of a string that went through a `char *`. -/
def clean (s : JsString) : JsString := ofChars ((codePoints s).takeWhile (· ≠ '\x00'))

theorem ofUtf8_cstr_utf8 (s : JsString) : ofUtf8 (cstr (utf8 s)) = some (clean s) := by
  rw [utf8, cstr_encode, ofUtf8_encode, clean]

theorem clean_clean (s : JsString) : Clean (clean s) := by
  refine ⟨wellFormed_ofChars _, fun h0 => ?_⟩
  rw [zero_mem_utf8, clean, codePoints_ofChars] at h0
  simpa using List.mem_takeWhile_imp h0

/-- A string survives the way through a `char *` exactly when it is well-formed and holds no NUL. -/
theorem clean_eq_self {s : JsString} : clean s = s ↔ Clean s := by
  constructor
  · intro h
    exact h ▸ clean_clean s
  · rintro ⟨hw, h0⟩
    have h := ofUtf8_cstr_utf8 s
    rw [cstr_eq_self.2 h0, ofUtf8_utf8 hw] at h
    exact (Option.some.inj h).symm

end JsString

end AerospikeNode
