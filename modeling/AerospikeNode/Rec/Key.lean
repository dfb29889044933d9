import AerospikeNode.Native.Denotes
import AerospikeNode.Native.Read

/-!
# Keys

The constructor of `Key` (`lib/key.js`), which checks lengths in UTF-16 units, and
`key_from_jsobject` (`src/main/util/conversions.cc`), which copies bytes into the fixed buffers of an
`as_key`. `keyFromJsobject_denotes_iff` says when the `as_key` is the key it was made from.
-/

namespace AerospikeNode

def AS_NAMESPACE_MAX_SIZE : ℕ := 32
def AS_SET_MAX_SIZE : ℕ := 64
def AS_DIGEST_VALUE_SIZE : ℕ := 20

/-! ### The constructor -/

namespace Key

def MAX_NAMESPACE_NAME_LENGTH : ℕ := 32
def MAX_SET_NAME_LENGTH : ℕ := 64
def DIGEST_LENGTH : ℕ := 20

def isSet (value : JsValue) : Bool := !value.isNullish

def isValidName (maxLength : ℕ) : JsValue → Bool
  | .str s => 0 < s.length && s.length ≤ maxLength
  | _ => false

def isValidNamespace (ns : JsValue) : Bool := isValidName MAX_NAMESPACE_NAME_LENGTH ns

def isValidSetName (set : JsValue) : Bool := isValidName MAX_SET_NAME_LENGTH set

/-- `validateKey`: whether it returns. -/
def validateKey : JsValue → Bool
  | .str s => s.length ≠ 0
  | .num n => n.isInteger
  | .bigint i => -2 ^ 63 ≤ i ∧ i ≤ 2 ^ 63 - 1
  | .buffer bs => bs.length ≠ 0
  | _ => false

def isValidDigest : JsValue → Bool
  | .buffer bs => bs.length = DIGEST_LENGTH
  | _ => false

def toJs (ns set key digest : JsValue) : JsValue :=
  .obj ⟨JsString.lit "Key", none⟩ [(JsString.lit "ns", ns), (JsString.lit "set", set),
    (JsString.lit "key", key), (JsString.lit "digest", digest)]

/-- `new Key(ns, set, key, digest)`; `none` where it throws. -/
def new (ns set key digest : JsValue) : Option JsValue :=
  if !isValidNamespace ns then none
  else if isSet set && !isValidSetName set then none
  else if isSet key && !validateKey key then none
  else if isSet digest && !isValidDigest digest then none
  else if !(isSet key || isSet digest) then none
  else some (toJs ns set key (if isSet digest then digest else .null))

end Key

/-! ### The native key -/

/-- The value of an `as_key`, or its digest. `unspecified` is a digest copied from beyond the end of
a buffer. -/
inductive AsKeyValue where
  | string (s : Bytes)
  | integer (i : Int64)
  | bytes (bs : Bytes)
  | digest (bs : Bytes)
  | unspecified
deriving DecidableEq

structure AsKey where
  ns : Bytes
  set : Bytes
  value : AsKeyValue
deriving DecidableEq

/-- `as_strlcpy`: what is copied, and the length of the source. -/
def strlcpy (s : Bytes) (bufsize : ℕ) : Bytes × ℕ :=
  (if bufsize ≤ s.length then s.take (bufsize - 1) else s, s.length)

/-- A name copied into a buffer; its length is compared with the size of the buffer. -/
def copyName (s : JsString) (size : ℕ) : Res Bytes :=
  if size < (strlcpy (nativeStr s) size).2 then .error .paramErr
  else .ok (strlcpy (nativeStr s) size).1

def keyNamespace : JsValue → Res Bytes
  | .str s => do
    let ns ← copyName s AS_NAMESPACE_MAX_SIZE
    if ns = [] then .error .paramErr else return ns
  | _ => .error .paramErr

def keySet : JsValue → Res Bytes
  | .str s => copyName s AS_SET_MAX_SIZE
  | .null | .undefined => .ok []
  | _ => .error .paramErr

/-- `memcpy` of `AS_DIGEST_VALUE_SIZE` bytes. -/
def keyDigest : JsValue → Res AsKeyValue
  | .buffer bs =>
    .ok (if AS_DIGEST_VALUE_SIZE ≤ bs.length then .digest (bs.take AS_DIGEST_VALUE_SIZE) else .unspecified)
  | _ => .error .paramErr

def keyValue (val digest : JsValue) : Res AsKeyValue :=
  match val with
  | .str s => .ok (.string (nativeStr s))
  | .num n => if val.isDoubleValue then .error .paramErr else .ok (.integer n.toInt64)
  | .bigint i => (JsValue.bigintToInt64 i).map .integer
  | .buffer bs => .ok (.bytes bs)
  | .null | .undefined => keyDigest digest
  | _ => .error .paramErr

/-- `key_from_jsobject` -/
def keyFromJsobject (obj : JsValue) : Res AsKey := do
  let ns ← keyNamespace (obj.field "ns")
  let set ← keySet (obj.field "set")
  let value ← keyValue (obj.field "key") (obj.field "digest")
  return ⟨ns, set, value⟩

/-! ### The key that is meant -/

inductive UserValue where
  | text (s : JsString)
  | int (i : ℤ)
  | bytes (bs : Bytes)
  | digest (bs : Bytes)
deriving DecidableEq

/-- A key as its owner sees it; no set is the empty set name. -/
structure UserKey where
  ns : JsString
  set : JsString
  value : UserValue
deriving DecidableEq

def userNamespace : JsValue → Option JsString
  | .str s => some s
  | _ => none

def userSet : JsValue → Option JsString
  | .str s => some s
  | .null | .undefined => some []
  | _ => none

def userValue (val digest : JsValue) : Option UserValue :=
  match val with
  | .str s => some (.text s)
  | .num n => n.val.bind fun q => if q.den = 1 then some (.int q.num) else none
  | .bigint i => some (.int i)
  | .buffer bs => some (.bytes bs)
  | .null | .undefined => match digest with | .buffer bs => some (.digest bs) | _ => none
  | _ => none

def userKey (obj : JsValue) : Option UserKey := do
  let ns ← userNamespace (obj.field "ns")
  let set ← userSet (obj.field "set")
  let value ← userValue (obj.field "key") (obj.field "digest")
  return ⟨ns, set, value⟩

def AsKeyValue.Denotes : AsKeyValue → UserValue → Prop
  | string bs, .text s => Utf8Of bs s
  | integer i, .int j => i.toInt = j
  | bytes bs, .bytes bs' => bs = bs'
  | digest bs, .digest bs' => bs = bs' ∧ bs'.length = AS_DIGEST_VALUE_SIZE
  | _, _ => False

structure AsKey.Denotes (k : AsKey) (u : UserKey) : Prop where
  ns : Utf8Of k.ns u.ns
  set : Utf8Of k.set u.set
  value : k.value.Denotes u.value

/-- The keys that the buffers hold as they are. -/
structure FitsAsKey (obj : JsValue) : Prop where
  ns : ∀ s, obj.field "ns" = .str s → s.Clean ∧ s.utf8.length < AS_NAMESPACE_MAX_SIZE
  set : ∀ s, obj.field "set" = .str s → s.Clean ∧ s.utf8.length < AS_SET_MAX_SIZE
  text : ∀ s, obj.field "key" = .str s → s.Clean
  int : ∀ n, obj.field "key" = .num n → n.val ≠ some (2 ^ 63)
  digest : (obj.field "key").isNullish → ∀ bs, obj.field "digest" = .buffer bs →
    bs.length = AS_DIGEST_VALUE_SIZE

/-! ### Names -/

section
variable {s t : JsString} {bs b : Bytes} {size : ℕ}

theorem Utf8Of.nil : Utf8Of [] [] := ⟨rfl, rfl⟩

theorem copyName_ok (h : copyName s size = .ok b) :
    b = (strlcpy (nativeStr s) size).1 ∧ (nativeStr s).length ≤ size := by
  rw [copyName] at h
  split_ifs at h with hlt
  exact ⟨(Except.ok.inj h).symm, Nat.le_of_not_lt hlt⟩

/-- A copied name is the whole name exactly when it leaves room for the NUL. -/
theorem utf8Of_strlcpy (hsize : 0 < size) :
    Utf8Of (strlcpy (nativeStr s) size).1 s ↔ s.Clean ∧ s.utf8.length < size := by
  by_cases hlt : size ≤ (nativeStr s).length
  · simp only [strlcpy, if_pos hlt]
    have hshort : ((nativeStr s).take (size - 1)).length < size := by
      rw [List.length_take]; omega
    constructor
    · rintro ⟨hw, heq⟩
      have h0 : 0 ∉ s.utf8 := heq ▸ fun hm => JsString.zero_not_mem_cstr _ (List.mem_of_mem_take hm)
      exact ⟨⟨hw, h0⟩, heq ▸ hshort⟩
    · rintro ⟨hc, hl⟩
      rw [(utf8Of_nativeStr.2 hc).2] at hlt
      omega
  · simp only [strlcpy, if_neg hlt]
    rw [utf8Of_nativeStr]
    refine ⟨fun hc => ⟨hc, ?_⟩, And.left⟩
    rw [← (utf8Of_nativeStr.2 hc).2]
    omega

theorem utf8Of_copyName (hsize : 0 < size) (h : copyName s size = .ok b) :
    Utf8Of b s ↔ s.Clean ∧ s.utf8.length < size := by
  obtain ⟨rfl, -⟩ := copyName_ok h
  exact utf8Of_strlcpy hsize

end

/-! ### Values -/

section
variable {v d : JsValue} {x : AsKeyValue} {u u' : UserValue}

theorem AsKeyValue.Denotes.inj (h : x.Denotes u) (h' : x.Denotes u') : u = u' := by
  cases x <;> cases u <;> try exact h.elim
  all_goals cases u' <;> try exact h'.elim
  case string.text.text => rw [Utf8Of.inj h h']
  case integer.int.int => exact congrArg _ (Eq.trans (Eq.symm h) h')
  case bytes.bytes.bytes => exact congrArg _ (Eq.trans (Eq.symm h) h')
  case digest.digest.digest => exact congrArg _ (h.1.symm.trans h'.1)

/-- An accepted number is an integer, and it is the one stored unless it is `2^63`. -/
theorem keyValue_num {n : JsNumber} (h : keyValue (.num n) d = .ok x) :
    ∃ i, userValue (.num n) d = some (.int i) ∧ (x.Denotes (.int i) ↔ n.val ≠ some (2 ^ 63)) := by
  have hnd : n.neInt n.toInt64.toInt = false := by
    cases hd : n.neInt n.toInt64.toInt with
    | false => rfl
    | true =>
      have : (JsValue.num n).isDoubleValue = true := hd
      rw [keyValue, this, if_pos rfl] at h
      cases h
  have hx : x = .integer n.toInt64 := by
    have : (JsValue.num n).isDoubleValue = false := hnd
    rw [keyValue, this, if_neg Bool.false_ne_true] at h
    exact (Except.ok.inj h).symm
  subst hx
  cases n with
  | nan => cases hnd
  | inf neg => cases hnd
  | negZero =>
    refine ⟨0, rfl, ?_⟩
    have h0 : JsNumber.negZero.toInt64.toInt = 0 := by decide
    rw [AsKeyValue.Denotes, h0]
    refine ⟨fun _ he => ?_, fun _ => rfl⟩
    rw [JsNumber.val, Option.some.injEq] at he
    norm_num at he
  | fin q hq =>
    obtain ⟨i, rfl, h1, h2⟩ := (JsNumber.neInt_toInt64_fin hq).1 hnd
    refine ⟨i, ?_, ?_⟩
    · rw [userValue, JsNumber.val, Option.bind_some, if_pos (Rat.den_intCast i), Rat.num_intCast]
    · have hval : (JsNumber.fin (i : ℚ) hq).val = some (2 ^ 63) ↔ i = 2 ^ 63 := by
        rw [JsNumber.val, Option.some.injEq]
        exact_mod_cast Iff.rfl
      rw [AsKeyValue.Denotes, JsNumber.toInt_toInt64_fin, JsNumber.trunc_intCast, ne_eq, hval]
      simp only [JsNumber.satInt64]
      omega

/-- A digest of another length is copied in part, or with what lies behind it. -/
theorem keyDigest_ok {n : JsValue} (hn : n = .null ∨ n = .undefined) (h : keyDigest d = .ok x) :
    ∃ bs, d = .buffer bs ∧ userValue n d = some (.digest bs) ∧
      (x.Denotes (.digest bs) ↔ bs.length = AS_DIGEST_VALUE_SIZE) := by
  cases d with
  | buffer bs =>
    refine ⟨bs, rfl, by rcases hn with rfl | rfl <;> rfl, ?_⟩
    obtain rfl := Except.ok.inj h
    split_ifs with hle
    · rw [AsKeyValue.Denotes]
      refine ⟨And.right, fun hlen => ⟨?_, hlen⟩⟩
      rw [← hlen, List.take_length]
    · exact ⟨False.elim, fun hlen => hle hlen.ge⟩
  | _ => cases h

/-- An accepted value is one a user means, and is stored as that in the cases of `FitsAsKey`. -/
theorem keyValue_ok (h : keyValue v d = .ok x) : ∃ u, userValue v d = some u ∧
    (x.Denotes u ↔ (∀ s, v = .str s → s.Clean) ∧ (∀ n, v = .num n → n.val ≠ some (2 ^ 63)) ∧
      (v.isNullish → ∀ bs, d = .buffer bs → bs.length = AS_DIGEST_VALUE_SIZE)) := by
  cases v with
  | str s =>
    obtain rfl := Except.ok.inj h
    refine ⟨.text s, rfl, ?_⟩
    rw [AsKeyValue.Denotes, utf8Of_nativeStr]
    exact ⟨fun hc => ⟨fun t ht => by cases ht; exact hc, fun _ hn => (by cases hn), fun hn => (by cases hn)⟩,
      fun hc => hc.1 s rfl⟩
  | num n =>
    obtain ⟨i, hu, hi⟩ := keyValue_num h
    refine ⟨.int i, hu, hi.trans ?_⟩
    exact ⟨fun hc => ⟨fun _ hs => (by cases hs), fun m hm => by cases hm; exact hc, fun hn => (by cases hn)⟩,
      fun hc => hc.2.1 n rfl⟩
  | bigint i =>
    refine ⟨.int i, rfl, ?_⟩
    rw [keyValue, JsValue.bigintToInt64] at h
    split_ifs at h with hr
    · obtain rfl := Except.ok.inj h
      exact ⟨fun _ => ⟨fun _ hs => (by cases hs), fun _ hn => (by cases hn), fun hn => (by cases hn)⟩,
        fun _ => Int64.toInt_ofInt_of_le hr.1 hr.2⟩
    · cases h
  | buffer bs =>
    obtain rfl := Except.ok.inj h
    exact ⟨.bytes bs, rfl, fun _ => ⟨fun _ hs => (by cases hs), fun _ hn => (by cases hn), fun hn => (by cases hn)⟩,
      fun _ => rfl⟩
  | null =>
    obtain ⟨bs, rfl, hu, hd⟩ := keyDigest_ok (.inl rfl) h
    refine ⟨.digest bs, hu, hd.trans ?_⟩
    exact ⟨fun hl => ⟨fun _ hs => (by cases hs), fun _ hn => (by cases hn), fun _ b hb => by cases hb; exact hl⟩,
      fun hc => hc.2.2 rfl bs rfl⟩
  | undefined =>
    obtain ⟨bs, rfl, hu, hd⟩ := keyDigest_ok (.inr rfl) h
    refine ⟨.digest bs, hu, hd.trans ?_⟩
    exact ⟨fun hl => ⟨fun _ hs => (by cases hs), fun _ hn => (by cases hn), fun _ b hb => by cases hb; exact hl⟩,
      fun hc => hc.2.2 rfl bs rfl⟩
  | _ => cases h

end

/-! ### Keys -/

section
variable {obj obj' v : JsValue} {k : AsKey} {b : Bytes}

theorem keyNamespace_ok (h : keyNamespace v = .ok b) : ∃ s, userNamespace v = some s ∧
    (Utf8Of b s ↔ ∀ t, v = .str t → t.Clean ∧ t.utf8.length < AS_NAMESPACE_MAX_SIZE) := by
  cases v with
  | str s =>
    obtain ⟨ns, hns, h⟩ := Except.bind_eq_ok.1 h
    split_ifs at h
    obtain rfl := Except.ok.inj h
    refine ⟨s, rfl, (utf8Of_copyName (by decide) hns).trans ?_⟩
    exact ⟨fun hc t ht => by cases ht; exact hc, fun hc => hc s rfl⟩
  | _ => cases h

theorem keySet_ok (h : keySet v = .ok b) : ∃ s, userSet v = some s ∧
    (Utf8Of b s ↔ ∀ t, v = .str t → t.Clean ∧ t.utf8.length < AS_SET_MAX_SIZE) := by
  cases v with
  | str s =>
    refine ⟨s, rfl, (utf8Of_copyName (by decide) h).trans ?_⟩
    exact ⟨fun hc t ht => by cases ht; exact hc, fun hc => hc s rfl⟩
  | null =>
    obtain rfl := Except.ok.inj h
    exact ⟨[], rfl, fun _ => nofun, fun _ => Utf8Of.nil⟩
  | undefined =>
    obtain rfl := Except.ok.inj h
    exact ⟨[], rfl, fun _ => nofun, fun _ => Utf8Of.nil⟩
  | _ => cases h

theorem AsKey.Denotes.inj {u u' : UserKey} (h : k.Denotes u) (h' : k.Denotes u') : u = u' := by
  cases u; cases u'
  congr
  · exact h.ns.inj h'.ns
  · exact h.set.inj h'.set
  · exact h.value.inj h'.value

/-- An accepted key is a user's key, and the native key is that key when it fits. -/
theorem keyFromJsobject_ok (h : keyFromJsobject obj = .ok k) :
    ∃ u, userKey obj = some u ∧ (k.Denotes u ↔ FitsAsKey obj) := by
  obtain ⟨ns, hns, h⟩ := Except.bind_eq_ok.1 h
  obtain ⟨set, hset, h⟩ := Except.bind_eq_ok.1 h
  obtain ⟨value, hvalue, h⟩ := Except.bind_eq_ok.1 h
  obtain rfl := Except.ok.inj h
  obtain ⟨s, hs, hns⟩ := keyNamespace_ok hns
  obtain ⟨t, ht, hset⟩ := keySet_ok hset
  obtain ⟨u, hu, hvalue⟩ := keyValue_ok hvalue
  refine ⟨⟨s, t, u⟩, ?_, ?_⟩
  · rw [userKey, hs, ht, hu]
    rfl
  · constructor
    · intro hd
      obtain ⟨htext, hint, hdigest⟩ := hvalue.1 hd.value
      exact ⟨hns.1 hd.ns, hset.1 hd.set, htext, hint, hdigest⟩
    · intro hf
      exact ⟨hns.2 hf.ns, hset.2 hf.set, hvalue.2 ⟨hf.text, hf.int, hf.digest⟩⟩

/-- The native key of an accepted object is the key the object means exactly when its names leave
room for a NUL in their buffers, its texts are clean, its number is not `2^63` and its digest has 20
bytes; and two such objects with one native key mean one key. -/
theorem keyFromJsobject_denotes_iff (h : keyFromJsobject obj = .ok k) :
    ((∃ u, userKey obj = some u ∧ k.Denotes u) ↔ FitsAsKey obj) ∧
      (keyFromJsobject obj' = .ok k → FitsAsKey obj → FitsAsKey obj' → userKey obj = userKey obj') := by
  obtain ⟨u, hu, hd⟩ := keyFromJsobject_ok h
  refine ⟨⟨?_, fun hf => ⟨u, hu, hd.2 hf⟩⟩, fun h' hf hf' => ?_⟩
  · rintro ⟨u', hu', hd'⟩
    rw [hu, Option.some.injEq] at hu'
    exact hd.1 (hu' ▸ hd')
  · obtain ⟨u', hu', hd'⟩ := keyFromJsobject_ok h'
    rw [hu, hu', AsKey.Denotes.inj (hd.2 hf) (hd'.2 hf')]

end

/-- A namespace of 32 characters. -/
def longNamespace (last : UInt16) : JsString := List.replicate 31 97 ++ [last]

/-- The key `('test', null, 'k')` fits. -/
theorem test_key_denotes : ∃ u, userKey (Key.toJs (.str (JsString.lit "test")) .null
    (.str (JsString.lit "k")) .null) = some u ∧
      AsKey.Denotes ⟨[116, 101, 115, 116], [], .string [107]⟩ u := by
  refine (@keyFromJsobject_denotes_iff _ .undefined _ (by decide)).1.2 ?_
  have htext : (JsString.lit "test").Clean ∧ (JsString.lit "test").utf8.length < 32 := by decide
  have hkey : (JsString.lit "k").Clean := by decide
  exact ⟨fun s hs => by cases hs; exact htext, nofun, fun s hs => by cases hs; exact hkey,
    fun _ hn => (by cases hn), nofun⟩

/-- Two namespaces of 32 characters that differ in the last one give one native key. -/
theorem long_namespace_collides : ¬ ∀ (ns set key digest ns' set' key' digest' obj obj' : JsValue)
    (k : AsKey), Key.new ns set key digest = some obj → Key.new ns' set' key' digest' = some obj' →
      keyFromJsobject obj = .ok k → keyFromJsobject obj' = .ok k → userKey obj = userKey obj' := by
  intro h
  have := h (.str (longNamespace 98)) .null (.str (JsString.lit "k")) .null
    (.str (longNamespace 99)) .null (.str (JsString.lit "k")) .null _ _
    ⟨List.replicate 31 97, [], .string [107]⟩ rfl rfl (by decide +kernel) (by decide +kernel)
  exact absurd this (by decide +kernel)

end AerospikeNode
