import AerospikeNode.Js.Str

/-!
# Decoding UTF-8

What `Nan::New(const char *)` makes of bytes: V8 reads them as UTF-8 and puts U+FFFD for every maximal
part that is none. A text comes back from its encoding (`decode_encode`), and without the last byte of
the encoding it ends in U+FFFD, unless that byte was a character of its own (`decode_dropLast`).
-/

namespace AerospikeNode

namespace JsString

def REPLACEMENT : Char := '\uFFFD'

/-- A code point that still needs bytes, with the bounds of the next one. -/
structure Pending where
  value : ℕ
  needed : ℕ
  lower : ℕ
  upper : ℕ

/-- The first byte of a code point: the characters that are complete, and what is pending. -/
def leadByte (b : ℕ) : List Char × Option Pending :=
  if b < 0x80 then ([Char.ofNat b], none)
  else if 0xC2 ≤ b ∧ b < 0xE0 then ([], some ⟨b - 0xC0, 1, 0x80, 0xBF⟩)
  else if 0xE0 ≤ b ∧ b < 0xF0 then
    ([], some ⟨b - 0xE0, 2, if b = 0xE0 then 0xA0 else 0x80, if b = 0xED then 0x9F else 0xBF⟩)
  else if 0xF0 ≤ b ∧ b < 0xF5 then
    ([], some ⟨b - 0xF0, 3, if b = 0xF0 then 0x90 else 0x80, if b = 0xF4 then 0x8F else 0xBF⟩)
  else ([REPLACEMENT], none)

/-- A byte that does not continue the code point starts another one. -/
def Pending.next (p : Pending) (b : ℕ) : List Char × Option Pending :=
  if p.lower ≤ b ∧ b ≤ p.upper then
    if p.needed = 1 then ([Char.ofNat (p.value * 64 + (b - 0x80))], none)
    else ([], some ⟨p.value * 64 + (b - 0x80), p.needed - 1, 0x80, 0xBF⟩)
  else (REPLACEMENT :: (leadByte b).1, (leadByte b).2)

def decodeByte : Option Pending → ℕ → List Char × Option Pending
  | none, b => leadByte b
  | some p, b => p.next b

def decodeFrom : Option Pending → Bytes → List Char
  | none, [] => []
  | some _, [] => [REPLACEMENT]
  | p, b :: bs => (decodeByte p b.toNat).1 ++ decodeFrom (decodeByte p b.toNat).2 bs

/-- `Nan::New(const char *)` -/
def decode (bs : Bytes) : JsString := ofChars (decodeFrom none bs)

/-! ### Bytes of one code point -/

theorem decodeFrom_cons (p : Option Pending) (b : UInt8) (bs : Bytes) : decodeFrom p (b :: bs) =
    (decodeByte p b.toNat).1 ++ decodeFrom (decodeByte p b.toNat).2 bs := by
  rw [decodeFrom]

theorem leadByte_cases (b : ℕ) : (∃ c, leadByte b = ([c], none)) ∨ ∃ p, leadByte b = ([], some p) := by
  unfold leadByte
  split
  · exact .inl ⟨_, rfl⟩
  split
  · exact .inr ⟨_, rfl⟩
  split
  · exact .inr ⟨_, rfl⟩
  split
  · exact .inr ⟨_, rfl⟩
  · exact .inl ⟨_, rfl⟩

/-- What is pending becomes a character in the end. -/
theorem decodeFrom_some_ne_nil (p : Pending) (bs : Bytes) : decodeFrom (some p) bs ≠ [] := by
  induction bs generalizing p with
  | nil => exact List.cons_ne_nil _ _
  | cons b bs ih =>
    rw [decodeFrom_cons, decodeByte, Pending.next]
    split_ifs
    · exact List.cons_ne_nil _ _
    · exact ih _
    · exact List.cons_ne_nil _ _

theorem decode_eq_nil {bs : Bytes} : decode bs = [] ↔ bs = [] := by
  refine ⟨fun h => ?_, fun h => h ▸ rfl⟩
  have hchars : decodeFrom none bs = [] := by
    rw [← codePoints_ofChars (decodeFrom none bs)]
    exact congrArg codePoints h
  cases bs with
  | nil => rfl
  | cons b bs =>
    rw [decodeFrom_cons, decodeByte] at hchars
    rcases leadByte_cases b.toNat with ⟨c, hb⟩ | ⟨p, hb⟩
    · rw [hb] at hchars
      cases hchars
    · rw [hb] at hchars
      exact absurd hchars (decodeFrom_some_ne_nil p bs)

theorem leadByte_two {x : ℕ} (h1 : 2 ≤ x) (h2 : x < 32) :
    leadByte (x + 0xC0) = ([], some ⟨x, 1, 0x80, 0xBF⟩) := by
  rw [leadByte, if_neg (by omega), if_pos (by omega), Nat.add_sub_cancel]

theorem leadByte_three {x : ℕ} (h : x < 16) : leadByte (x + 0xE0) =
    ([], some ⟨x, 2, if x = 0 then 0xA0 else 0x80, if x = 13 then 0x9F else 0xBF⟩) := by
  rw [leadByte, if_neg (by omega), if_neg (by omega), if_pos (by omega), Nat.add_sub_cancel]
  have h0 : x + 0xE0 = 0xE0 ↔ x = 0 := by omega
  have h13 : x + 0xE0 = 0xED ↔ x = 13 := by omega
  simp only [h0, h13]

theorem leadByte_four {x : ℕ} (h : x < 5) : leadByte (x + 0xF0) =
    ([], some ⟨x, 3, if x = 0 then 0x90 else 0x80, if x = 4 then 0x8F else 0xBF⟩) := by
  rw [leadByte, if_neg (by omega), if_neg (by omega), if_neg (by omega), if_pos (by omega), Nat.add_sub_cancel]
  have h0 : x + 0xF0 = 0xF0 ↔ x = 0 := by omega
  have h4 : x + 0xF0 = 0xF4 ↔ x = 4 := by omega
  simp only [h0, h4]

theorem Pending.next_last {p : Pending} {x : ℕ} (hn : p.needed = 1) (hl : p.lower ≤ x + 0x80)
    (hu : x + 0x80 ≤ p.upper) : p.next (x + 0x80) = ([Char.ofNat (p.value * 64 + x)], none) := by
  rw [next, if_pos ⟨hl, hu⟩, if_pos hn, Nat.add_sub_cancel]

theorem Pending.next_more {p : Pending} {x : ℕ} (hn : p.needed ≠ 1) (hl : p.lower ≤ x + 0x80)
    (hu : x + 0x80 ≤ p.upper) : p.next (x + 0x80) = ([], some ⟨p.value * 64 + x, p.needed - 1, 0x80, 0xBF⟩) := by
  rw [next, if_pos ⟨hl, hu⟩, if_neg hn, Nat.add_sub_cancel]

/-- Reading bytes: the characters that are complete, and what is pending. -/
def feed : Option Pending → Bytes → List Char × Option Pending
  | p, [] => ([], p)
  | p, b :: bs =>
    ((decodeByte p b.toNat).1 ++ (feed (decodeByte p b.toNat).2 bs).1, (feed (decodeByte p b.toNat).2 bs).2)

theorem decodeFrom_append (p : Option Pending) (as bs : Bytes) :
    decodeFrom p (as ++ bs) = (feed p as).1 ++ decodeFrom (feed p as).2 bs := by
  induction as generalizing p with
  | nil => rw [feed, List.nil_append, List.nil_append]
  | cons a as ih => rw [List.cons_append, decodeFrom_cons, ih, feed, List.append_assoc]

theorem feed_one {p q : Option Pending} {a : UInt8} (ha : decodeByte p a.toNat = ([], q)) :
    feed p [a] = ([], q) := by
  rw [feed, feed, ha, List.append_nil]

theorem feed_cons {p q r : Option Pending} {a : UInt8} {as : Bytes} (ha : decodeByte p a.toNat = ([], q))
    (has : feed q as = ([], r)) : feed p (a :: as) = ([], r) := by
  rw [feed, ha, has, List.append_nil]

theorem toNat_ofNat_byte {n : ℕ} (h : n < 256) : (UInt8.ofNat n).toNat = n := by
  rw [UInt8.toNat_ofNat', Nat.mod_eq_of_lt h]

/-- Nothing is complete before the last byte of a code point, and then it is the code point. -/
theorem encode_bytes (c : Char) : ∃ start last p, String.utf8EncodeChar c = start ++ [last] ∧
    feed none start = ([], p) ∧ decodeByte p last.toNat = ([c], none) ∧ (p = none ↔ start = []) := by
  have hmax := toNat_lt_max c
  have hsurrogate := @toNat_lt_surrogate c
  have hval : c.val.toNat = c.toNat := rfl
  rw [String.utf8EncodeChar, hval]
  generalize hn : c.toNat = n at *
  have hc : Char.ofNat n = c := by rw [← hn, Char.ofNat_toNat]
  split_ifs with h1 h2 h3
  · refine ⟨[], UInt8.ofNat n, none, rfl, rfl, ?_, iff_of_true rfl rfl⟩
    rw [toNat_ofNat_byte (by omega), decodeByte, leadByte, if_pos (by omega), hc]
  · refine ⟨[_], _, some ⟨n / 64 % 32, 1, 0x80, 0xBF⟩, rfl, feed_one ?_, ?_, iff_of_false nofun nofun⟩
    · rw [toNat_ofNat_byte (by omega)]
      exact leadByte_two (by omega) (by omega)
    · rw [toNat_ofNat_byte (by omega), decodeByte, Pending.next_last rfl (by simp) (by simp; omega), ← hc]
      congr 3
      simp only
      omega
  · have hlead : decodeByte none (UInt8.ofNat (n / 4096 % 16 + 0xE0)).toNat = ([], some ⟨n / 4096 % 16, 2,
        if n / 4096 % 16 = 0 then 0xA0 else 0x80, if n / 4096 % 16 = 13 then 0x9F else 0xBF⟩) := by
      rw [toNat_ofNat_byte (by omega)]
      exact leadByte_three (by omega)
    refine ⟨[_, _], _, some ⟨n / 4096 % 16 * 64 + n / 64 % 64, 1, 0x80, 0xBF⟩, rfl,
      feed_cons hlead (feed_one ?_), ?_, iff_of_false nofun nofun⟩
    · rw [toNat_ofNat_byte (by omega)]
      refine Pending.next_more (by simp) ?_ ?_
      · simp only
        split_ifs <;> omega
      · simp only
        split_ifs <;> omega
    · rw [toNat_ofNat_byte (by omega), decodeByte, Pending.next_last rfl (by simp) (by simp; omega), ← hc]
      congr 3
      simp only
      omega
  · have hlead : decodeByte none (UInt8.ofNat (n / 262144 % 8 + 0xF0)).toNat = ([], some ⟨n / 262144 % 8, 3,
        if n / 262144 % 8 = 0 then 0x90 else 0x80, if n / 262144 % 8 = 4 then 0x8F else 0xBF⟩) := by
      rw [toNat_ofNat_byte (by omega)]
      exact leadByte_four (by omega)
    have hsecond : decodeByte (some ⟨n / 262144 % 8, 3, if n / 262144 % 8 = 0 then 0x90 else 0x80,
        if n / 262144 % 8 = 4 then 0x8F else 0xBF⟩) (UInt8.ofNat (n / 4096 % 64 + 0x80)).toNat =
        ([], some ⟨n / 262144 % 8 * 64 + n / 4096 % 64, 2, 0x80, 0xBF⟩) := by
      rw [toNat_ofNat_byte (by omega)]
      refine Pending.next_more (by simp) ?_ ?_
      · simp only
        split_ifs <;> omega
      · simp only
        split_ifs <;> omega
    refine ⟨[_, _, _], _, some ⟨(n / 262144 % 8 * 64 + n / 4096 % 64) * 64 + n / 64 % 64, 1, 0x80, 0xBF⟩, rfl,
      feed_cons hlead (feed_cons hsecond (feed_one ?_)), ?_, iff_of_false nofun nofun⟩
    · rw [toNat_ofNat_byte (by omega)]
      exact Pending.next_more (by simp) (by simp) (by simp; omega)
    · rw [toNat_ofNat_byte (by omega), decodeByte, Pending.next_last rfl (by simp) (by simp; omega), ← hc]
      congr 3
      simp only
      omega

/-! ### Encoded texts -/

theorem decodeFrom_encodeChar (c : Char) (bs : Bytes) :
    decodeFrom none (String.utf8EncodeChar c ++ bs) = c :: decodeFrom none bs := by
  obtain ⟨start, last, p, hbytes, hstart, hlast, -⟩ := encode_bytes c
  rw [hbytes, List.append_assoc, decodeFrom_append, hstart, List.nil_append, List.singleton_append,
    decodeFrom_cons, hlast, List.singleton_append]

theorem decodeFrom_encode (cs : List Char) (bs : Bytes) :
    decodeFrom none (cs.flatMap String.utf8EncodeChar ++ bs) = cs ++ decodeFrom none bs := by
  induction cs with
  | nil => rfl
  | cons c cs ih => rw [List.flatMap_cons, List.append_assoc, decodeFrom_encodeChar, ih, List.cons_append]

theorem decode_encode (cs : List Char) : decode (cs.flatMap String.utf8EncodeChar) = ofChars cs := by
  have h := decodeFrom_encode cs []
  rw [List.append_nil, decodeFrom, List.append_nil] at h
  rw [decode, h]

theorem decode_cstr_utf8 (s : JsString) : decode (cstr (utf8 s)) = clean s := by
  rw [utf8, cstr_encode, decode_encode, clean]

/-- A code point without its last byte is one U+FFFD, or nothing. -/
theorem decodeFrom_dropLast (c : Char) : decodeFrom none (String.utf8EncodeChar c).dropLast =
    if (String.utf8EncodeChar c).length = 1 then [] else [REPLACEMENT] := by
  obtain ⟨start, last, p, hbytes, hstart, -, hp⟩ := encode_bytes c
  have hfeed := decodeFrom_append none start []
  rw [List.append_nil, hstart, List.nil_append] at hfeed
  rw [hbytes, List.dropLast_concat, hfeed, List.length_append, List.length_singleton]
  cases p with
  | none =>
    rw [hp.1 rfl, List.length_nil, if_pos rfl]
    rfl
  | some p =>
    have hne : start ≠ [] := fun h => nomatch hp.2 h
    have hpos := List.length_pos_iff.2 hne
    rw [if_neg (by omega)]
    rfl

/-- What comes back of a text without the last byte of its encoding. -/
theorem decode_dropLast (cs : List Char) (c : Char) :
    decode ((cs ++ [c]).flatMap String.utf8EncodeChar).dropLast =
      ofChars (cs ++ if (String.utf8EncodeChar c).length = 1 then [] else [REPLACEMENT]) := by
  have hne : String.utf8EncodeChar c ≠ [] := String.utf8EncodeChar_ne_nil
  rw [decode, List.flatMap_append, List.flatMap_singleton, List.dropLast_append_of_ne_nil hne, decodeFrom_encode,
    decodeFrom_dropLast]

end JsString

end AerospikeNode
