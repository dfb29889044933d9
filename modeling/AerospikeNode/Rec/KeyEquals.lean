import AerospikeNode.Batch.Clone
import AerospikeNode.Rec.Key

/-!
# Keys compared, and on their way through the C client

`Key.prototype.equals` and `Key.fromASKey` (`lib/key.js`), and the way of a key through
`key_from_jsobject` and `key_to_jsobject` (`src/main/util/conversions.cc`). `AcceptedKeys.equals_sound_iff`
says which keys come back as they were, when `equals` is an equivalence, and when it compares Buffers
by content.
-/

namespace AerospikeNode

/-- A value that a variable holds, and which object it is, if it is one. -/
structure Held where
  value : JsValue
  ref : ℕ

/-- `===` -/
def Held.strictEquals (a b : Held) : Bool :=
  match a.value, b.value with
  | .undefined, .undefined => true
  | .null, .null => true
  | .bool x, .bool y => x = y
  | .str s, .str t => s = t
  | .num n, .num m => n.strictEq m
  | .bigint i, .bigint j => i = j
  | .symbol, .symbol => a.ref = b.ref
  | v, w => v.isObject && w.isObject && a.ref = b.ref

structure KeyObject where
  ns : Held
  set : Held
  key : Held
  digest : JsValue

/-- The 20 bytes of an `as_digest_value`. -/
abbrev Digest := { bs : Bytes // bs.length = AS_DIGEST_VALUE_SIZE }

/-- The `as_key`, after `as_key_digest` has computed the digest of its value. A digest that is not known
gives none. -/
def AsKey.withDigest (digestOf : AsKey → Digest) (k : AsKey) : Option ResultKey :=
  match k.value with
  | .string s => some ⟨k.ns, k.set, some (.string s), some (digestOf k).1⟩
  | .integer i => some ⟨k.ns, k.set, some (.integer i), some (digestOf k).1⟩
  | .bytes bs => some ⟨k.ns, k.set, some (.bytes bs), some (digestOf k).1⟩
  | .digest bs => some ⟨k.ns, k.set, none, some bs⟩
  | .unspecified => none

namespace KeyObject

def toJs (k : KeyObject) : JsValue := Key.toJs k.ns.value k.set.value k.key.value k.digest

/-- `new Key(ns, set, key, digest)`; `none` where it throws. -/
def new (ns set key : Held) (digest : JsValue) : Option KeyObject :=
  if (Key.new ns.value set.value key.value digest).isSome then
    some ⟨ns, set, key, if Key.isSet digest then digest else .null⟩
  else none

/-- `Key.fromASKey`; what it reads is a new object. -/
def fromASKey (fresh : ℕ) (keyObj : JsValue) : Option KeyObject :=
  if !keyObj.truthy then none
  else new ⟨keyObj.field "ns", fresh⟩ ⟨keyObj.field "set", fresh⟩ ⟨keyObj.field "key", fresh⟩
    (keyObj.field "digest")

/-- `Buffer.prototype.equals` -/
def digestEquals : JsValue → JsValue → Bool
  | .buffer bs, .buffer bs' => bs = bs'
  | _, _ => false

/-- `Key.prototype.equals` -/
def equals (k other : KeyObject) : Bool :=
  k.ns.strictEquals other.ns &&
  ((!Key.isSet k.set.value && !Key.isSet other.set.value) || k.set.strictEquals other.set) &&
  ((!Key.isSet k.key.value && !Key.isSet other.key.value) || k.key.strictEquals other.key) &&
  (!Key.isSet k.digest || !Key.isSet other.digest || digestEquals k.digest other.digest)

section
variable (digestOf : AsKey → Digest)

/-- The object that `key_from_jsobject` leaves behind: it sets the digest of a key that has a value. -/
def converted (k : KeyObject) : KeyObject :=
  match keyFromJsobject k.toJs with
  | .ok a => if Key.isSet k.key.value then { k with digest := .buffer (digestOf a).1 } else k
  | .error _ => k

/-- `Key.fromASKey(key_to_jsobject(key_from_jsobject(k)))` -/
def returned (fresh : ℕ) (k : KeyObject) : Option KeyObject :=
  match keyFromJsobject k.toJs with
  | .ok a => (a.withDigest digestOf).bind fun r => fromASKey fresh (keyToJsobject r)
  | .error _ => none

end

/-- A key that the constructor and `key_from_jsobject` accept. -/
structure Accepted (k : KeyObject) : Prop where
  constructed : ∃ ns set key digest, new ns set key digest = some k
  converted : ∃ a, keyFromJsobject k.toJs = .ok a

end KeyObject

/-- Some accepted keys and the heap with their Buffers; `fresh` is an object that is not there yet. -/
structure AcceptedKeys where
  keys : Set KeyObject
  heap : ℕ → Bytes
  fresh : ℕ
  accepted : ∀ k ∈ keys, k.Accepted
  stored : ∀ k ∈ keys, ∀ bs, k.key.value = .buffer bs → k.key.ref ≠ fresh ∧ heap k.key.ref = bs

/-! ### What is claimed of them -/

/-- An integer or BigInt that is still the same one. -/
def SameInteger : JsValue → JsValue → Prop
  | .num n, v => ∃ m, v = .num m ∧ m.val = n.val
  | .bigint i, v => v = .bigint i
  | _, _ => True

/-- The set of a key, or none. -/
def JsValue.name? : JsValue → Option JsString
  | .str s => some s
  | _ => none

namespace KeyObject

/-- Two digests are not different ones. -/
def DigestsMatch (k k' : KeyObject) : Prop :=
  ∀ bs bs', k.digest = .buffer bs → k'.digest = .buffer bs' → bs = bs'

/-- The key comes back, equal to what it was. -/
def ComesBack (digestOf : AsKey → Digest) (fresh : ℕ) (k : KeyObject) : Prop :=
  ∃ r, k.returned digestOf fresh = some r ∧ r.equals (k.converted digestOf) = true ∧
    SameInteger k.key.value r.key.value

end KeyObject

namespace AcceptedKeys
open KeyObject

def Equals (ks : AcceptedKeys) (k k' : ks.keys) : Prop := k.1.equals k'.1 = true

/-- `equals` of Buffer keys is equality of their contents, besides that of the names and digests. -/
def ComparesContent (ks : AcceptedKeys) : Prop :=
  ∀ k ∈ ks.keys, ∀ k' ∈ ks.keys, ∀ bs bs', k.key.value = .buffer bs → k'.key.value = .buffer bs' →
    (k.equals k' = true ↔
      k.ns.value.name? = k'.ns.value.name? ∧ k.set.value.name? = k'.set.value.name? ∧ bs = bs' ∧
        k.DigestsMatch k')

end AcceptedKeys

/-! ### What holds of them -/

/-- A name comes back from a buffer of a size that its bytes and a NUL fit in, or else if the byte that
is missing belongs to a U+FFFD. -/
def NameSurvives (s : JsString) (size : ℕ) : Prop :=
  s.Clean ∧ (s.utf8.length < size ∨ (s.utf8.length = size ∧ s.getLast? = some 0xFFFD))

/-- Numbers, clean texts, and digests in place of a value. -/
def KeySurvives : JsValue → Prop
  | .str s => s.Clean
  | .bigint _ | .buffer _ => False
  | _ => True

structure KeyObject.Survives (k : KeyObject) : Prop where
  ns : ∀ s, k.ns.value = .str s → NameSurvives s AS_NAMESPACE_MAX_SIZE
  set : ∀ s, k.set.value = .str s → NameSurvives s AS_SET_MAX_SIZE
  key : KeySurvives k.key.value

/-- What identifies a user key to `===`. -/
inductive KeyIdentity where
  | none
  | text (s : JsString)
  | number (q : ℚ)
  | bigint (i : ℤ)
  | buffer (ref : ℕ)

def Held.identity (a : Held) : KeyIdentity :=
  match a.value with
  | .str s => .text s
  | .num n => .number (n.val.getD 0)
  | .bigint i => .bigint i
  | .buffer _ => .buffer a.ref
  | _ => .none

/-- The same namespace, set and user key. -/
structure KeyObject.SameName (k k' : KeyObject) : Prop where
  ns : k.ns.value.name? = k'.ns.value.name?
  set : k.set.value.name? = k'.set.value.name?
  key : k.key.identity = k'.key.identity

namespace AcceptedKeys
open KeyObject

/-- No key without a digest stands between two with different ones. -/
def DigestsDecide (ks : AcceptedKeys) : Prop :=
  ∀ k₁ ∈ ks.keys, ∀ k₂ ∈ ks.keys, ∀ k₃ ∈ ks.keys, k₁.SameName k₂ → k₂.SameName k₃ → k₂.digest = .null →
    k₁.DigestsMatch k₃

/-- Keys of one name have equal Buffers only if they have one Buffer. -/
def BuffersShared (ks : AcceptedKeys) : Prop :=
  ∀ k ∈ ks.keys, ∀ k' ∈ ks.keys, ∀ bs, k.key.value = .buffer bs → k'.key.value = .buffer bs →
    k.ns.value.name? = k'.ns.value.name? → k.set.value.name? = k'.set.value.name? → k.DigestsMatch k' →
    k.key.ref = k'.key.ref

end AcceptedKeys

/-! ### Names through a buffer -/

namespace JsString

theorem getLast_ofChar_eq {c : Char} : (ofChar c).getLast? = some 0xFFFD ↔ c = REPLACEMENT := by
  constructor
  · intro h
    rcases ofChar_cases c with ⟨u, hu, hs, hc⟩ | ⟨u, v, huv, -, hl, -⟩
    · rw [hu, List.getLast?_singleton, Option.some.injEq] at h
      rw [← hc, h]
      decide
    · rw [huv, List.getLast?_cons_cons, List.getLast?_singleton, Option.some.injEq] at h
      rw [h] at hl
      cases hl
  · rintro rfl
    decide

theorem ofChars_concat (cs : List Char) (c : Char) : ofChars (cs ++ [c]) = ofChars cs ++ ofChar c := by
  rw [ofChars, List.flatMap_append, List.flatMap_singleton]
  rfl

theorem ofChar_ne_nil (c : Char) : ofChar c ≠ [] := by
  rcases ofChar_cases c with ⟨u, hu, -⟩ | ⟨u, v, huv, -⟩
  · rw [hu]
    exact nofun
  · rw [huv]
    exact nofun

/-- A string is the encoding of some code points exactly if it is well-formed and has these. -/
theorem ofChars_eq_iff {cs : List Char} {s : JsString} :
    ofChars cs = s ↔ s.WellFormed = true ∧ codePoints s = cs := by
  constructor
  · rintro rfl
    exact ⟨wellFormed_ofChars cs, codePoints_ofChars cs⟩
  · rintro ⟨hw, rfl⟩
    exact ofChars_codePoints s hw

end JsString

section
variable {s : JsString} {b : Bytes} {size : ℕ}

theorem decode_nativeStr (s : JsString) : JsString.decode (nativeStr s) = s ↔ s.Clean := by
  rw [nativeStr, JsString.decode_cstr_utf8, JsString.clean_eq_self]

/-- The code points that a `char *` holds. -/
def nativeChars (s : JsString) : List Char := (JsString.codePoints s).takeWhile (· ≠ '\x00')

theorem nativeStr_eq (s : JsString) : nativeStr s = (nativeChars s).flatMap String.utf8EncodeChar := by
  rw [nativeStr, JsString.utf8, JsString.cstr_encode, nativeChars]

theorem clean_of_nativeChars {s : JsString} (hw : s.WellFormed = true) (h : nativeChars s = JsString.codePoints s) :
    s.Clean := by
  refine JsString.clean_eq_self.1 ?_
  rw [JsString.clean, ← nativeChars, h, JsString.ofChars_codePoints s hw]

/-- Without its last byte a text comes back if that byte belongs to a U+FFFD. -/
theorem decode_dropLast_nativeStr (hne : nativeStr s ≠ []) :
    JsString.decode (nativeStr s).dropLast = s ↔ s.Clean ∧ s.getLast? = some 0xFFFD := by
  have hchars : nativeChars s ≠ [] := by
    intro h
    rw [nativeStr_eq, h] at hne
    exact hne rfl
  have hlast := List.dropLast_concat_getLast hchars
  generalize (nativeChars s).dropLast = cs at hlast
  generalize (nativeChars s).getLast hchars = c at hlast
  rw [nativeStr_eq, ← hlast, JsString.decode_dropLast, JsString.ofChars_eq_iff]
  constructor
  · rintro ⟨hw, hcodes⟩
    have hprefix : (nativeChars s) <+: JsString.codePoints s := List.takeWhile_prefix _
    have hlen := hprefix.length_le
    rw [← hlast, hcodes, List.length_append, List.length_singleton, List.length_append] at hlen
    split_ifs at hcodes hlen with h1
    · rw [List.length_nil] at hlen
      omega
    · have hall : nativeChars s = JsString.codePoints s := by
        refine hprefix.eq_of_length ?_
        rw [← hlast, hcodes, List.length_append, List.length_append, List.length_singleton, List.length_singleton]
      refine ⟨clean_of_nativeChars hw hall, ?_⟩
      rw [← JsString.ofChars_codePoints s hw, hcodes, JsString.ofChars_concat,
        List.getLast?_append_of_ne_nil _ (JsString.ofChar_ne_nil _)]
      exact JsString.getLast_ofChar_eq.2 rfl
  · rintro ⟨hclean, hunit⟩
    have hall : nativeChars s = JsString.codePoints s := by
      have h := congrArg JsString.codePoints (JsString.clean_eq_self.2 hclean)
      rw [JsString.clean, JsString.codePoints_ofChars] at h
      exact h
    have hc : c = JsString.REPLACEMENT := by
      rw [← JsString.ofChars_codePoints s hclean.1, ← hall, ← hlast, JsString.ofChars_concat,
        List.getLast?_append_of_ne_nil _ (JsString.ofChar_ne_nil _)] at hunit
      exact JsString.getLast_ofChar_eq.1 hunit
    subst hc
    have hlong : ¬(String.utf8EncodeChar JsString.REPLACEMENT).length = 1 := by decide
    rw [if_neg hlong, hlast]
    exact ⟨hclean.1, hall.symm⟩

/-- What comes back of a name. -/
theorem decode_copyName (hsize : 0 < size) (h : copyName s size = .ok b) :
    JsString.decode b = s ↔ NameSurvives s size := by
  obtain ⟨rfl, hle⟩ := copyName_ok h
  have hbytes : s.Clean → s.utf8 = nativeStr s := fun hc => (utf8Of_nativeStr.2 hc).2.symm
  rcases Nat.lt_or_eq_of_le hle with hlt | heq
  · rw [strlcpy, if_neg (by omega), decode_nativeStr, NameSurvives]
    refine ⟨fun hc => ⟨hc, .inl ?_⟩, And.left⟩
    rw [hbytes hc]
    exact hlt
  · have hne : nativeStr s ≠ [] := by
      intro h0
      rw [h0, List.length_nil] at heq
      omega
    rw [strlcpy, if_pos heq.ge, ← heq, ← List.dropLast_eq_take, decode_dropLast_nativeStr hne, NameSurvives]
    refine and_congr_right fun hc => ?_
    rw [hbytes hc]
    exact ⟨fun hu => .inr ⟨rfl, hu⟩, fun hu => hu.elim (fun hlt => absurd hlt (lt_irrefl _)) And.right⟩

end

/-! ### What the constructor accepts -/

theorem Key.new_isSome {ns set key digest : JsValue} : (Key.new ns set key digest).isSome = true ↔
    isValidNamespace ns = true ∧ (isSet set = true → isValidSetName set = true) ∧
      (isSet key = true → validateKey key = true) ∧ (isSet digest = true → isValidDigest digest = true) ∧
      (isSet key = true ∨ isSet digest = true) := by
  rw [new]
  cases isValidNamespace ns with
  | false => simp
  | true =>
    cases isSet set <;> cases isValidSetName set <;> cases isSet key <;> cases validateKey key <;>
      cases isSet digest <;> cases isValidDigest digest <;> simp

namespace KeyObject
variable {k k' r : KeyObject} {ns set key : Held} {digest : JsValue}

/-- The fields of a key, as the constructor checks them. -/
structure Shape (k : KeyObject) : Prop where
  ns : ∃ s, k.ns.value = .str s
  set : Key.isSet k.set.value = true → ∃ s, k.set.value = .str s ∧ s ≠ []
  key : Key.isSet k.key.value = true → Key.validateKey k.key.value = true
  digest : k.digest = .null ∨ ∃ bs, k.digest = .buffer bs ∧ bs.length = AS_DIGEST_VALUE_SIZE
  named : Key.isSet k.key.value = true ∨ k.digest ≠ .null

theorem isValidName_str {maxLength : ℕ} {v : JsValue} (h : Key.isValidName maxLength v = true) :
    ∃ s, v = .str s ∧ s ≠ [] := by
  cases v with
  | str s =>
    rw [Key.isValidName, Bool.and_eq_true, decide_eq_true_eq] at h
    exact ⟨s, rfl, List.length_pos_iff.1 h.1⟩
  | _ => cases h

theorem isValidDigest_buffer {v : JsValue} (h : Key.isValidDigest v = true) :
    ∃ bs, v = .buffer bs ∧ bs.length = AS_DIGEST_VALUE_SIZE := by
  cases v with
  | buffer bs =>
    rw [Key.isValidDigest, decide_eq_true_eq] at h
    exact ⟨bs, rfl, h⟩
  | _ => cases h

theorem new_eq_some : new ns set key digest = some k ↔
    (Key.new ns.value set.value key.value digest).isSome = true ∧
      k = ⟨ns, set, key, if Key.isSet digest then digest else .null⟩ := by
  rw [new]
  by_cases h : (Key.new ns.value set.value key.value digest).isSome = true
  · rw [if_pos h, Option.some.injEq]
    exact ⟨fun hk => ⟨h, hk.symm⟩, fun hk => hk.2.symm⟩
  · rw [if_neg h]
    exact ⟨nofun, fun hk => absurd hk.1 h⟩

theorem shape_of_new (h : new ns set key digest = some k) : k.Shape := by
  obtain ⟨hsome, rfl⟩ := new_eq_some.1 h
  obtain ⟨hns, hset, hkey, hdigest, hnamed⟩ := Key.new_isSome.1 hsome
  obtain ⟨s, hs, -⟩ := isValidName_str hns
  refine ⟨⟨s, hs⟩, fun hm => isValidName_str (hset hm), hkey, ?_, ?_⟩
  · simp only
    split_ifs with hd
    · exact .inr (isValidDigest_buffer (hdigest hd))
    · exact .inl rfl
  · simp only
    rcases hnamed with hk | hd
    · exact .inl hk
    · obtain ⟨bs, rfl, -⟩ := isValidDigest_buffer (hdigest hd)
      exact .inr nofun

theorem Accepted.shape (h : k.Accepted) : k.Shape := by
  obtain ⟨ns, set, key, digest, hk⟩ := h.constructed
  exact shape_of_new hk

/-! ### Comparing -/

theorem name?_of_unset {v : JsValue} (h : Key.isSet v = false) : v.name? = none := by
  cases v with
  | str s => cases h
  | _ => rfl

theorem identity_of_unset {a : Held} (h : Key.isSet a.value = false) : a.identity = .none := by
  obtain ⟨v, ref⟩ := a
  cases v with
  | undefined => rfl
  | null => rfl
  | _ => cases h

theorem identity_of_set {a : Held} (h : Key.validateKey a.value = true) : a.identity ≠ .none := by
  obtain ⟨v, ref⟩ := a
  cases v with
  | str s => exact nofun
  | num n => exact nofun
  | bigint i => exact nofun
  | buffer bs => exact nofun
  | _ => cases h

/-- A value that is there is never the same as one that is not. -/
theorem strictEquals_unset {a b : Held} (ha : Key.isSet a.value = true) (hb : Key.isSet b.value = false) :
    a.strictEquals b = false ∧ b.strictEquals a = false := by
  obtain ⟨v, ref⟩ := a
  obtain ⟨w, ref'⟩ := b
  cases w with
  | undefined =>
    cases v with
    | undefined => cases ha
    | null => cases ha
    | _ => simp [Held.strictEquals, JsValue.isObject]
  | null =>
    cases v with
    | undefined => cases ha
    | null => cases ha
    | _ => simp [Held.strictEquals, JsValue.isObject]
  | _ => cases hb

theorem isInteger_val {n : JsNumber} (h : n.isInteger = true) : n.val.isSome = true := by
  cases n with
  | negZero => rfl
  | fin q hq => rfl
  | _ => cases h

theorem strictEq_iff {n m : JsNumber} (hn : n.isInteger = true) (hm : m.isInteger = true) :
    n.strictEq m = true ↔ n.val.getD 0 = m.val.getD 0 := by
  obtain ⟨q, hq⟩ := Option.isSome_iff_exists.1 (isInteger_val hn)
  obtain ⟨r, hr⟩ := Option.isSome_iff_exists.1 (isInteger_val hm)
  have hstrict : n.strictEq m = (n.val.isSome && decide (n.val = m.val)) := by
    cases n with
    | inf neg => cases hn
    | _ => rfl
  rw [hstrict, hq, hr, Option.getD_some, Option.getD_some, Option.isSome_some, Bool.true_and, decide_eq_true_eq,
    Option.some.injEq]

theorem strictEquals_iff {a b : Held} (ha : Key.validateKey a.value = true) (hb : Key.validateKey b.value = true) :
    a.strictEquals b = true ↔ a.identity = b.identity := by
  obtain ⟨v, ref⟩ := a
  obtain ⟨w, ref'⟩ := b
  cases v with
  | str s =>
    cases w with
    | str t => simp [Held.strictEquals, Held.identity]
    | _ => simp [Held.strictEquals, Held.identity, JsValue.isObject]
  | num n =>
    cases w with
    | num m => simp only [Held.strictEquals, Held.identity, strictEq_iff ha hb, KeyIdentity.number.injEq]
    | _ => simp [Held.strictEquals, Held.identity, JsValue.isObject]
  | bigint i =>
    cases w with
    | bigint j => simp [Held.strictEquals, Held.identity]
    | _ => simp [Held.strictEquals, Held.identity, JsValue.isObject]
  | buffer bs =>
    cases w with
    | buffer bs' => simp [Held.strictEquals, Held.identity, JsValue.isObject]
    | str t => simp [Held.strictEquals, Held.identity, JsValue.isObject]
    | num m => simp [Held.strictEquals, Held.identity, JsValue.isObject]
    | bigint j => simp [Held.strictEquals, Held.identity, JsValue.isObject]
    | _ => cases hb
  | _ => cases ha

theorem keyEquals_iff {a b : Held} (ha : Key.isSet a.value = true → Key.validateKey a.value = true)
    (hb : Key.isSet b.value = true → Key.validateKey b.value = true) :
    ((!Key.isSet a.value && !Key.isSet b.value) || a.strictEquals b) = true ↔ a.identity = b.identity := by
  cases hsa : Key.isSet a.value with
  | false =>
    cases hsb : Key.isSet b.value with
    | false => exact iff_of_true rfl ((identity_of_unset hsa).trans (identity_of_unset hsb).symm)
    | true =>
      rw [identity_of_unset hsa, (strictEquals_unset hsb hsa).2]
      exact iff_of_false nofun (identity_of_set (hb hsb)).symm
  | true =>
    cases hsb : Key.isSet b.value with
    | false =>
      rw [identity_of_unset hsb, (strictEquals_unset hsa hsb).1]
      exact iff_of_false nofun (identity_of_set (ha hsa))
    | true =>
      rw [← strictEquals_iff (ha hsa) (hb hsb)]
      rfl

theorem setEquals_iff {a b : Held} (ha : Key.isSet a.value = true → ∃ s, a.value = .str s ∧ s ≠ [])
    (hb : Key.isSet b.value = true → ∃ s, b.value = .str s ∧ s ≠ []) :
    ((!Key.isSet a.value && !Key.isSet b.value) || a.strictEquals b) = true ↔ a.value.name? = b.value.name? := by
  have hvalid : ∀ {c : Held}, (Key.isSet c.value = true → ∃ s, c.value = .str s ∧ s ≠ []) →
      Key.isSet c.value = true → Key.validateKey c.value = true := by
    intro c hc hset
    obtain ⟨s, hs, hne⟩ := hc hset
    rw [hs, Key.validateKey, decide_eq_true_eq]
    exact fun h => hne (List.length_eq_zero_iff.1 h)
  have hname : ∀ {c : Held}, (Key.isSet c.value = true → ∃ s, c.value = .str s ∧ s ≠ []) →
      c.identity = (c.value.name?.elim .none .text) := by
    intro c hc
    cases hset : Key.isSet c.value with
    | false => rw [identity_of_unset hset, name?_of_unset hset, Option.elim_none]
    | true =>
      obtain ⟨s, hs, -⟩ := hc hset
      rw [Held.identity, hs, JsValue.name?, Option.elim_some]
  rw [keyEquals_iff (hvalid ha) (hvalid hb), hname ha, hname hb]
  cases a.value.name? with
  | none =>
    cases b.value.name? with
    | none => exact iff_of_true rfl rfl
    | some t => exact iff_of_false nofun nofun
  | some s =>
    cases b.value.name? with
    | none => exact iff_of_false nofun nofun
    | some t => rw [Option.elim_some, Option.elim_some, KeyIdentity.text.injEq, Option.some.injEq]

theorem digestEquals_iff (hd : k.digest = .null ∨ ∃ bs, k.digest = .buffer bs ∧ bs.length = AS_DIGEST_VALUE_SIZE)
    (hd' : k'.digest = .null ∨ ∃ bs, k'.digest = .buffer bs ∧ bs.length = AS_DIGEST_VALUE_SIZE) :
    (!Key.isSet k.digest || !Key.isSet k'.digest || digestEquals k.digest k'.digest) = true ↔ k.DigestsMatch k' := by
  rw [DigestsMatch]
  rcases hd with hd | ⟨bs, hd, -⟩
  · rw [hd]
    exact iff_of_true rfl nofun
  · rcases hd' with hd' | ⟨bs', hd', -⟩
    · rw [hd, hd']
      exact iff_of_true rfl nofun
    · rw [hd, hd']
      change decide (bs = bs') = true ↔ _
      rw [decide_eq_true_eq]
      constructor
      · rintro rfl c c' hc hc'
        rw [← JsValue.buffer.inj hc, ← JsValue.buffer.inj hc']
      · intro h
        exact h bs bs' rfl rfl

/-- `equals` compares names and values, and digests where both are there. -/
theorem equals_iff (h : k.Shape) (h' : k'.Shape) :
    k.equals k' = true ↔ k.SameName k' ∧ k.DigestsMatch k' := by
  obtain ⟨s, hs⟩ := h.ns
  obtain ⟨t, ht⟩ := h'.ns
  have hns : k.ns.strictEquals k'.ns = true ↔ k.ns.value.name? = k'.ns.value.name? := by
    rw [Held.strictEquals, hs, ht, JsValue.name?, JsValue.name?, Option.some.injEq]
    exact decide_eq_true_iff
  rw [equals, Bool.and_eq_true, Bool.and_eq_true, Bool.and_eq_true, hns, setEquals_iff h.set h'.set,
    keyEquals_iff h.key h'.key, digestEquals_iff h.digest h'.digest]
  constructor
  · rintro ⟨⟨⟨h1, h2⟩, h3⟩, h4⟩
    exact ⟨⟨h1, h2, h3⟩, h4⟩
  · rintro ⟨⟨h1, h2, h3⟩, h4⟩
    exact ⟨⟨⟨h1, h2⟩, h3⟩, h4⟩

/-! ### The way through the C client -/

theorem keyToJsobject_fields {r : ResultKey} {d : Bytes} {v : JsValue} (hns : r.ns ≠ []) (hd : r.digest = some d)
    (hv : (r.value.map keyValueToJs).getD [] = [] ∧ v = .undefined ∨
      (r.value.map keyValueToJs).getD [] = [(JsString.lit "key", v)]) :
    (keyToJsobject r).field "ns" = .str (JsString.decode r.ns) ∧
      (keyToJsobject r).field "set" = (if r.set = [] then .undefined else .str (JsString.decode r.set)) ∧
      (keyToJsobject r).field "key" = v ∧ (keyToJsobject r).field "digest" = .buffer d := by
  rw [keyToJsobject, hd, if_pos (List.length_pos_iff.2 hns)]
  by_cases hset : r.set = []
  · rw [if_neg (by simp [hset]), if_pos hset]
    rcases hv with ⟨hv, rfl⟩ | hv
    · rw [hv]
      exact ⟨rfl, rfl, rfl, rfl⟩
    · rw [hv]
      exact ⟨rfl, rfl, rfl, rfl⟩
  · rw [if_pos (List.length_pos_iff.2 hset), if_neg hset]
    rcases hv with ⟨hv, rfl⟩ | hv
    · rw [hv]
      exact ⟨rfl, rfl, rfl, rfl⟩
    · rw [hv]
      exact ⟨rfl, rfl, rfl, rfl⟩

theorem ofRat_toInt64 {n : JsNumber} (h : (JsValue.num n).isDoubleValue = false) :
    (JsNumber.ofRat n.toInt64.toInt).val = n.val := by
  have hne : n.neInt n.toInt64.toInt = false := h
  cases n with
  | nan => cases hne
  | inf neg => cases hne
  | negZero =>
    have h0 : JsNumber.negZero.toInt64.toInt = 0 := by decide
    rw [h0]
    exact JsNumber.ofRat_val (.ofInt (by norm_num))
  | fin q hq =>
    obtain ⟨i, rfl, h1, h2⟩ := (JsNumber.neInt_toInt64_fin hq).1 hne
    rw [JsNumber.toInt_toInt64_fin, JsNumber.trunc_intCast]
    rcases eq_or_lt_of_le h2 with rfl | h2
    · have hsat : JsNumber.satInt64 (2 ^ 63) = 2 ^ 63 - 1 := by decide
      have hround : (JsNumber.ofRat ((2 ^ 63 - 1 : ℤ) : ℚ)).val = some (2 ^ 63) := by decide +kernel
      rw [hsat, hround, JsNumber.val]
      norm_num
    · rw [JsNumber.satInt64_eq h1 h2, JsNumber.ofRat_val hq, JsNumber.val]

/-- The value that `key_to_jsobject` sets, for a value that `key_from_jsobject` has read. -/
def returnedKey : JsValue → JsValue
  | .str s => .str (JsString.decode (nativeStr s))
  | .num n => .num (.ofRat n.toInt64.toInt)
  | .bigint i => .num (.ofRat (Int64.ofInt i).toInt)
  | .buffer bs => .buffer bs
  | _ => .undefined

/-- The value and the digest of the native key of a key. -/
theorem withDigest_keyValue (digestOf : AsKey → Digest) (h : k.Shape) {a : AsKey}
    (ha : keyValue k.key.value k.digest = .ok a.value) : ∃ v d, a.withDigest digestOf = some ⟨a.ns, a.set, v, some d⟩ ∧
      d.length = AS_DIGEST_VALUE_SIZE ∧
      ((v.map keyValueToJs).getD [] = [] ∧ returnedKey k.key.value = .undefined ∨
        (v.map keyValueToJs).getD [] = [(JsString.lit "key", returnedKey k.key.value)]) ∧
      (if Key.isSet k.key.value then JsValue.buffer (digestOf a).1 else k.digest) = .buffer d := by
  have hunset : Key.isSet k.key.value = false → keyValue k.key.value k.digest = keyDigest k.digest ∧
      returnedKey k.key.value = .undefined := by
    intro hset
    cases hv : k.key.value with
    | undefined => exact ⟨rfl, rfl⟩
    | null => exact ⟨rfl, rfl⟩
    | _ =>
      rw [hv] at hset
      cases hset
  cases hset : Key.isSet k.key.value with
  | false =>
    rw [(hunset hset).1] at ha
    rcases h.digest with hd | ⟨bs, hd, hlen⟩
    · rw [hd] at ha
      cases ha
    · have hvalue : a.value = .digest bs := by
        rw [hd, keyDigest, if_pos hlen.ge, ← hlen, List.take_length] at ha
        exact (Except.ok.inj ha).symm
      refine ⟨none, bs, ?_, hlen, .inl ⟨rfl, (hunset hset).2⟩, hd⟩
      rw [AsKey.withDigest, hvalue]
  | true =>
    have hvalid := h.key hset
    have hvalue : ∃ x, a.withDigest digestOf = some ⟨a.ns, a.set, some x, some (digestOf a).1⟩ ∧
        keyValueToJs x = [(JsString.lit "key", returnedKey k.key.value)] := by
      cases hv : k.key.value with
      | str s =>
        rw [hv] at ha
        have hval := (Except.ok.inj ha).symm
        refine ⟨.string (nativeStr s), ?_, rfl⟩
        rw [AsKey.withDigest, hval]
      | num n =>
        rw [hv, keyValue] at ha
        split_ifs at ha
        have hval := (Except.ok.inj ha).symm
        refine ⟨.integer n.toInt64, ?_, rfl⟩
        rw [AsKey.withDigest, hval]
      | bigint i =>
        rw [hv, keyValue, JsValue.bigintToInt64] at ha
        split_ifs at ha
        · have hval := (Except.ok.inj ha).symm
          refine ⟨.integer (Int64.ofInt i), ?_, rfl⟩
          rw [AsKey.withDigest, hval]
        · cases ha
      | buffer bs =>
        rw [hv] at ha
        have hval := (Except.ok.inj ha).symm
        refine ⟨.bytes bs, ?_, rfl⟩
        rw [AsKey.withDigest, hval]
      | _ =>
        rw [hv] at hvalid
        cases hvalid
    obtain ⟨x, hx, hprops⟩ := hvalue
    exact ⟨some x, (digestOf a).1, hx, (digestOf a).2, .inr hprops, rfl⟩

/-- The set that is read back. -/
def returnedSet (set : Bytes) : JsValue := if set = [] then .undefined else .str (JsString.decode set)

/-- What comes back of an accepted key. -/
theorem returned_eq (digestOf : AsKey → Digest) (fresh : ℕ) (h : k.Accepted) : ∃ nsBytes setBytes d,
    keyNamespace k.ns.value = .ok nsBytes ∧ keySet k.set.value = .ok setBytes ∧ d.length = AS_DIGEST_VALUE_SIZE ∧
      k.returned digestOf fresh = new ⟨.str (JsString.decode nsBytes), fresh⟩ ⟨returnedSet setBytes, fresh⟩
        ⟨returnedKey k.key.value, fresh⟩ (.buffer d) ∧
      k.converted digestOf = { k with digest := .buffer d } := by
  obtain ⟨a, ha⟩ := h.converted
  obtain ⟨nsBytes, hns, h'⟩ := Except.bind_eq_ok.1 ha
  obtain ⟨setBytes, hset, h'⟩ := Except.bind_eq_ok.1 h'
  obtain ⟨value, hvalue, h'⟩ := Except.bind_eq_ok.1 h'
  obtain rfl := Except.ok.inj h'
  have hvalue : keyValue k.key.value k.digest = .ok (AsKey.value ⟨nsBytes, setBytes, value⟩) := hvalue
  obtain ⟨v, d, hwith, hlen, hprops, hdigest⟩ := withDigest_keyValue digestOf h.shape hvalue
  have hne : nsBytes ≠ [] := by
    obtain ⟨s, hs⟩ := h.shape.ns
    have hcopy : keyNamespace k.ns.value = .ok nsBytes := hns
    rw [hs] at hcopy
    obtain ⟨b, -, hb⟩ := Except.bind_eq_ok.1 hcopy
    split_ifs at hb with hempty
    rw [← Except.ok.inj hb]
    exact hempty
  obtain ⟨hfns, hfset, hfkey, hfdigest⟩ := @keyToJsobject_fields ⟨nsBytes, setBytes, v, some d⟩ d _ hne rfl hprops
  refine ⟨nsBytes, setBytes, d, hns, hset, hlen, ?_, ?_⟩
  · rw [returned, ha]
    change (AsKey.withDigest digestOf ⟨nsBytes, setBytes, value⟩).bind _ = _
    rw [hwith, Option.bind_some, fromASKey, if_neg (by simp [keyToJsobject, JsValue.truthy]), hfns, hfset, hfkey,
      hfdigest]
    rfl
  · rw [converted, ha]
    simp only
    split_ifs with hkey
    · rw [if_pos hkey] at hdigest
      rw [← hdigest]
    · rw [if_neg hkey] at hdigest
      rw [← hdigest]

theorem ns_returns {b : Bytes} (h : keyNamespace k.ns.value = .ok b) :
    (JsValue.str (JsString.decode b)).name? = k.ns.value.name? ↔
      ∀ s, k.ns.value = .str s → NameSurvives s AS_NAMESPACE_MAX_SIZE := by
  cases hv : k.ns.value with
  | str s =>
    rw [hv] at h
    obtain ⟨b', hb, h⟩ := Except.bind_eq_ok.1 h
    split_ifs at h
    obtain rfl := Except.ok.inj h
    rw [JsValue.name?, JsValue.name?, Option.some.injEq, decode_copyName (by decide) hb]
    constructor
    · intro hs t ht
      rw [← JsValue.str.inj ht]
      exact hs
    · intro hs
      exact hs s rfl
  | _ =>
    rw [hv] at h
    cases h

theorem set_returns {b : Bytes} (hk : k.Shape) (h : keySet k.set.value = .ok b) :
    (returnedSet b).name? = k.set.value.name? ↔ ∀ s, k.set.value = .str s → NameSurvives s AS_SET_MAX_SIZE := by
  have hunset : Key.isSet k.set.value = false → b = [] := by
    intro hset
    cases hv : k.set.value with
    | undefined =>
      rw [hv] at h
      exact (Except.ok.inj h).symm
    | null =>
      rw [hv] at h
      exact (Except.ok.inj h).symm
    | _ =>
      rw [hv] at hset
      cases hset
  cases hset : Key.isSet k.set.value with
  | false =>
    rw [hunset hset, name?_of_unset hset]
    refine iff_of_true rfl fun s hs => ?_
    rw [hs] at hset
    cases hset
  | true =>
    obtain ⟨s, hs, hne⟩ := hk.set hset
    rw [hs] at h ⊢
    have hname : (∀ t, JsValue.str s = .str t → NameSurvives t AS_SET_MAX_SIZE) ↔ NameSurvives s AS_SET_MAX_SIZE := by
      constructor
      · intro hall
        exact hall s rfl
      · intro hsurvives t ht
        rw [← JsValue.str.inj ht]
        exact hsurvives
    rw [hname, ← decode_copyName (by decide) h, JsValue.name?, returnedSet]
    split_ifs with hb
    · rw [hb]
      refine iff_of_false nofun fun hdecode => hne ?_
      rw [← hdecode]
      rfl
    · rw [JsValue.name?, Option.some.injEq]

theorem key_returns {fresh : ℕ} (hset : Key.isSet k.key.value = true → Key.validateKey k.key.value = true)
    (hnum : ∀ n, k.key.value = .num n → (JsValue.num n).isDoubleValue = false)
    (hfresh : ∀ bs, k.key.value = .buffer bs → k.key.ref ≠ fresh) :
    Held.identity ⟨returnedKey k.key.value, fresh⟩ = k.key.identity ↔ KeySurvives k.key.value := by
  cases hv : k.key.value with
  | undefined =>
    rw [Held.identity, Held.identity, hv]
    exact iff_of_true rfl trivial
  | null =>
    rw [Held.identity, Held.identity, hv]
    exact iff_of_true rfl trivial
  | str s =>
    rw [Held.identity, Held.identity, hv, returnedKey, KeyIdentity.text.injEq, decode_nativeStr]
    rfl
  | num n =>
    rw [Held.identity, Held.identity, hv, returnedKey, KeyIdentity.number.injEq, ofRat_toInt64 (hnum n hv)]
    exact iff_of_true rfl trivial
  | bigint i =>
    rw [Held.identity, Held.identity, hv, returnedKey]
    exact iff_of_false nofun id
  | buffer bs =>
    rw [Held.identity, Held.identity, hv, returnedKey, KeyIdentity.buffer.injEq]
    exact iff_of_false (hfresh bs hv).symm id
  | _ =>
    rw [hv] at hset
    cases hset rfl

/-- An accepted number is one that the C client has. -/
theorem Accepted.isDoubleValue {n : JsNumber} (h : k.Accepted) (hn : k.key.value = .num n) :
    (JsValue.num n).isDoubleValue = false := by
  obtain ⟨a, ha⟩ := h.converted
  obtain ⟨nsBytes, -, h'⟩ := Except.bind_eq_ok.1 ha
  obtain ⟨setBytes, -, h'⟩ := Except.bind_eq_ok.1 h'
  obtain ⟨value, hvalue, -⟩ := Except.bind_eq_ok.1 h'
  have hvalue : keyValue k.key.value k.digest = .ok value := hvalue
  rw [hn, keyValue] at hvalue
  split_ifs at hvalue with hd
  exact (Bool.not_eq_true _).mp hd

theorem isInteger_of_val {n m : JsNumber} (h : n.val = m.val) (hm : m.isInteger = true) : n.isInteger = true := by
  have hint : ∃ i : ℤ, m.val = some (i : ℚ) := by
    cases m with
    | negZero => exact ⟨0, by norm_num [JsNumber.val]⟩
    | fin q hq =>
      rw [JsNumber.isInteger, decide_eq_true_eq] at hm
      exact ⟨q.num, congrArg some ((Rat.den_eq_one_iff q).1 hm).symm⟩
    | _ => cases hm
  obtain ⟨i, hi⟩ := hint
  rw [hi] at h
  cases n with
  | negZero => rfl
  | fin q hq =>
    obtain rfl : q = i := Option.some.inj h
    rw [JsNumber.isInteger, Rat.den_intCast]
    rfl
  | _ => cases h

theorem returnedKey_valid (h : k.Accepted) (hs : KeySurvives k.key.value)
    (hset : Key.isSet (returnedKey k.key.value) = true) : Key.validateKey (returnedKey k.key.value) = true := by
  have hvalid := h.shape.key
  cases hv : k.key.value with
  | str s =>
    rw [hv] at hvalid hs
    rw [returnedKey, (decode_nativeStr s).2 hs]
    exact hvalid rfl
  | num n =>
    rw [hv] at hvalid
    exact isInteger_of_val (ofRat_toInt64 (h.isDoubleValue hv)) (hvalid rfl)
  | bigint i =>
    rw [hv] at hs
    cases hs
  | buffer bs =>
    rw [hv] at hs
    cases hs
  | _ =>
    rw [hv] at hset
    cases hset

theorem DigestsMatch.symm (h : k.DigestsMatch k') : k'.DigestsMatch k :=
  fun bs bs' hbs hbs' => (h bs' bs hbs' hbs).symm

theorem SameInteger.of_identity {a : Held} {v : JsValue} {ref : ℕ} (ha : Key.isSet a.value = true →
    Key.validateKey a.value = true) (hv : Key.isSet v = true → Key.validateKey v = true)
    (h : Held.identity ⟨v, ref⟩ = a.identity) : SameInteger a.value v := by
  obtain ⟨w, ref'⟩ := a
  cases w with
  | num n =>
    cases v with
    | num m =>
      have hn := isInteger_val (ha rfl)
      have hm := isInteger_val (hv rfl)
      obtain ⟨q, hq⟩ := Option.isSome_iff_exists.1 hn
      obtain ⟨r, hr⟩ := Option.isSome_iff_exists.1 hm
      have hval : m.val.getD 0 = n.val.getD 0 := KeyIdentity.number.inj h
      refine ⟨m, rfl, ?_⟩
      rw [hq, hr, Option.getD_some, Option.getD_some] at hval
      rw [hq, hr, hval]
    | _ => cases h
  | bigint i =>
    cases v with
    | bigint j =>
      rw [SameInteger, KeyIdentity.bigint.inj h]
    | _ => cases h
  | _ => trivial

/-- An accepted key comes back exactly if it survives. -/
theorem comesBack_iff (digestOf : AsKey → Digest) {fresh : ℕ} (h : k.Accepted)
    (hfresh : ∀ bs, k.key.value = .buffer bs → k.key.ref ≠ fresh) :
    k.ComesBack digestOf fresh ↔ k.Survives := by
  obtain ⟨nsBytes, setBytes, d, hns, hset, hd, hreturned, hconverted⟩ := returned_eq digestOf fresh h
  have hshape : (k.converted digestOf).Shape := by
    rw [hconverted]
    exact ⟨h.shape.ns, h.shape.set, h.shape.key, .inr ⟨d, rfl, hd⟩, .inr nofun⟩
  have hkey := key_returns h.shape.key (fun n hn => h.isDoubleValue hn) hfresh
  have hset := set_returns h.shape hset
  have hns := ns_returns hns
  constructor
  · rintro ⟨r, hr, heq, -⟩
    rw [hreturned] at hr
    have hsame := ((equals_iff (shape_of_new hr) hshape).1 heq).1
    obtain ⟨-, rfl⟩ := new_eq_some.1 hr
    rw [hconverted] at hsame
    exact ⟨hns.1 hsame.ns, hset.1 hsame.set, hkey.1 hsame.key⟩
  · intro hs
    have hname := hns.2 hs.ns
    have hsetName := hset.2 hs.set
    have hidentity := hkey.2 hs.key
    obtain ⟨ns, set, key, digest, hnew⟩ := h.constructed
    obtain ⟨hsome, hk⟩ := new_eq_some.1 hnew
    have hparts := Key.new_isSome.1 hsome
    rw [show ns = k.ns by rw [hk], show set = k.set by rw [hk]] at hparts
    obtain ⟨hvalidNs, hvalidSet, -⟩ := hparts
    have hvalid : (Key.new (.str (JsString.decode nsBytes)) (returnedSet setBytes) (returnedKey k.key.value)
        (.buffer d)).isSome = true := by
      refine Key.new_isSome.2 ⟨?_, ?_, returnedKey_valid h hs.key, fun _ => ?_, .inr rfl⟩
      · obtain ⟨s, hstr⟩ := h.shape.ns
        rw [hstr] at hname hvalidNs
        rw [Option.some.inj hname]
        exact hvalidNs
      · intro hisSet
        rw [returnedSet] at hisSet hsetName ⊢
        split_ifs at hisSet hsetName ⊢ with hempty
        · cases hisSet
        · cases hv : k.set.value with
          | str t =>
            rw [hv] at hsetName hvalidSet
            rw [Option.some.inj hsetName]
            exact hvalidSet rfl
          | _ =>
            rw [hv] at hsetName
            cases hsetName
      · rw [Key.isValidDigest, decide_eq_true_eq]
        exact hd
    have hr : new ⟨.str (JsString.decode nsBytes), fresh⟩ ⟨returnedSet setBytes, fresh⟩
        ⟨returnedKey k.key.value, fresh⟩ (.buffer d) = some ⟨⟨.str (JsString.decode nsBytes), fresh⟩,
          ⟨returnedSet setBytes, fresh⟩, ⟨returnedKey k.key.value, fresh⟩, .buffer d⟩ := new_eq_some.2 ⟨hvalid, rfl⟩
    refine ⟨_, hreturned.trans hr, (equals_iff (shape_of_new hr) hshape).2 ?_,
      SameInteger.of_identity h.shape.key (returnedKey_valid h hs.key) hidentity⟩
    rw [hconverted]
    refine ⟨⟨hname, hsetName, hidentity⟩, fun bs bs' hbs hbs' => ?_⟩
    rw [← JsValue.buffer.inj hbs, ← JsValue.buffer.inj hbs']

end KeyObject

/-! ### A set of keys -/

namespace AcceptedKeys
open KeyObject

variable {ks : AcceptedKeys}

theorem equals_iff {k k' : KeyObject} (h : k ∈ ks.keys) (h' : k' ∈ ks.keys) :
    k.equals k' = true ↔ k.SameName k' ∧ k.DigestsMatch k' :=
  KeyObject.equals_iff (ks.accepted k h).shape (ks.accepted k' h').shape

theorem equivalence_iff : Equivalence ks.Equals ↔ ks.DigestsDecide := by
  constructor
  · intro heq k₁ h₁ k₂ h₂ k₃ h₃ h12 h23 hnull
    have heq12 : k₁.equals k₂ = true :=
      (equals_iff h₁ h₂).2 ⟨h12, fun bs bs' _ hbs' => nomatch hnull.symm.trans hbs'⟩
    have heq23 : k₂.equals k₃ = true :=
      (equals_iff h₂ h₃).2 ⟨h23, fun bs bs' hbs _ => nomatch hnull.symm.trans hbs⟩
    have heq13 : k₁.equals k₃ = true := @Equivalence.trans _ _ heq ⟨k₁, h₁⟩ ⟨k₂, h₂⟩ ⟨k₃, h₃⟩ heq12 heq23
    exact ((equals_iff h₁ h₃).1 heq13).2
  · intro hdecide
    refine ⟨?_, ?_, ?_⟩
    · rintro ⟨k, h⟩
      refine (equals_iff h h).2 ⟨⟨rfl, rfl, rfl⟩, fun bs bs' hbs hbs' => ?_⟩
      exact JsValue.buffer.inj (hbs.symm.trans hbs')
    · rintro ⟨k, h⟩ ⟨k', h'⟩ heq
      obtain ⟨hname, hdigest⟩ := (equals_iff h h').1 heq
      exact (equals_iff h' h).2 ⟨⟨hname.ns.symm, hname.set.symm, hname.key.symm⟩, hdigest.symm⟩
    · rintro ⟨k₁, h₁⟩ ⟨k₂, h₂⟩ ⟨k₃, h₃⟩ heq12 heq23
      obtain ⟨h12, hd12⟩ := (equals_iff h₁ h₂).1 heq12
      obtain ⟨h23, hd23⟩ := (equals_iff h₂ h₃).1 heq23
      refine (equals_iff h₁ h₃).2 ⟨⟨h12.ns.trans h23.ns, h12.set.trans h23.set, h12.key.trans h23.key⟩, ?_⟩
      rcases (ks.accepted k₂ h₂).shape.digest with hnull | ⟨bs₂, hbs₂, -⟩
      · exact hdecide k₁ h₁ k₂ h₂ k₃ h₃ h12 h23 hnull
      · intro bs bs' hbs hbs'
        exact (hd12 bs bs₂ hbs hbs₂).trans (hd23 bs₂ bs' hbs₂ hbs')

theorem comparesContent_iff : ks.ComparesContent ↔ ks.BuffersShared := by
  constructor
  · intro hcontent k h k' h' bs hbs hbs' hns hset hdigest
    have heq := (hcontent k h k' h' bs bs hbs hbs').2 ⟨hns, hset, rfl, hdigest⟩
    have hkey := ((equals_iff h h').1 heq).1.key
    rw [Held.identity, Held.identity, hbs, hbs'] at hkey
    exact KeyIdentity.buffer.inj hkey
  · intro hshared k h k' h' bs bs' hbs hbs'
    rw [equals_iff h h']
    constructor
    · rintro ⟨hname, hdigest⟩
      have hkey := hname.key
      rw [Held.identity, Held.identity, hbs, hbs'] at hkey
      have hheap := (ks.stored k h bs hbs).2
      rw [KeyIdentity.buffer.inj hkey, (ks.stored k' h' bs' hbs').2] at hheap
      exact ⟨hname.ns, hname.set, hheap.symm, hdigest⟩
    · rintro ⟨hns, hset, rfl, hdigest⟩
      refine ⟨⟨hns, hset, ?_⟩, hdigest⟩
      rw [Held.identity, Held.identity, hbs, hbs', hshared k h k' h' bs hbs hbs' hns hset hdigest]

/-- Of accepted keys, those come back that survive; `equals` is an equivalence exactly if no key without
a digest stands between two with different ones, and compares Buffers by content exactly if equal ones
are shared. -/
theorem equals_sound_iff (digestOf : AsKey → Digest) (ks : AcceptedKeys) :
    (∀ k ∈ ks.keys, k.ComesBack digestOf ks.fresh ↔ k.Survives) ∧
      (Equivalence ks.Equals ↔ ks.DigestsDecide) ∧ (ks.ComparesContent ↔ ks.BuffersShared) := by
  refine ⟨fun k h => ?_, equivalence_iff, comparesContent_iff⟩
  exact comesBack_iff digestOf (ks.accepted k h) fun bs hbs => (ks.stored k h bs hbs).1

end AcceptedKeys

/-- `new Key('test', null, key, digest)` -/
def testKey (key : Held) (digest : JsValue) : KeyObject :=
  ⟨⟨.str (JsString.lit "test"), 0⟩, ⟨.null, 0⟩, key, digest⟩

theorem testKey_accepted {key : Held} {digest : JsValue}
    (hkey : (∃ s, key.value = .str s ∧ s ≠ []) ∨ key.value = .bigint 5 ∨ ∃ bs, key.value = .buffer bs ∧ bs ≠ [])
    (hdigest : digest = .null ∨ ∃ b, digest = .buffer (List.replicate 20 b)) : (testKey key digest).Accepted := by
  have hns : Key.isValidNamespace (.str (JsString.lit "test")) = true := by decide +kernel
  have hvalid : Key.isSet key.value = true ∧ Key.validateKey key.value = true := by
    rcases hkey with ⟨s, hs, hne⟩ | hs | ⟨bs, hs, hne⟩
    · rw [hs, Key.validateKey, decide_eq_true_eq]
      exact ⟨rfl, fun h => hne (List.length_eq_zero_iff.1 h)⟩
    · rw [hs]
      exact ⟨rfl, by decide⟩
    · rw [hs, Key.validateKey, decide_eq_true_eq]
      exact ⟨rfl, fun h => hne (List.length_eq_zero_iff.1 h)⟩
  refine ⟨⟨⟨.str (JsString.lit "test"), 0⟩, ⟨.null, 0⟩, key, digest, KeyObject.new_eq_some.2 ⟨?_, ?_⟩⟩, ?_⟩
  · refine Key.new_isSome.2 ⟨hns, nofun, fun _ => hvalid.2, fun hset => ?_, .inl hvalid.1⟩
    rcases hdigest with rfl | ⟨b, rfl⟩
    · cases hset
    · rw [Key.isValidDigest, List.length_replicate]
      rfl
  · rcases hdigest with rfl | ⟨b, rfl⟩
    · rfl
    · rfl
  · have hname : keyNamespace (.str (JsString.lit "test")) = .ok (nativeStr (JsString.lit "test")) := by
      decide +kernel
    obtain ⟨value, hvalue⟩ : ∃ value, keyValue key.value digest = .ok value := by
      rcases hkey with ⟨s, hs, -⟩ | hs | ⟨bs, hs, -⟩
      · rw [hs]
        exact ⟨_, rfl⟩
      · rw [hs]
        exact ⟨_, rfl⟩
      · rw [hs]
        exact ⟨_, rfl⟩
    refine ⟨⟨nativeStr (JsString.lit "test"), [], value⟩, ?_⟩
    change (do
      let ns ← keyNamespace (.str (JsString.lit "test"))
      let set ← keySet .null
      let value ← keyValue key.value digest
      return AsKey.mk ns set value) = _
    rw [hname, hvalue]
    rfl

/-- A BigInt key, a key without a digest between two with different ones, and two Buffers. -/
def mixedKeys : AcceptedKeys where
  keys := {k | k = testKey ⟨.bigint 5, 0⟩ .null ∨
    (∃ digest, k = testKey ⟨.str (JsString.lit "k"), 0⟩ digest ∧
      (digest = .null ∨ ∃ b, digest = .buffer (List.replicate 20 b))) ∨
    ∃ ref < 2, k = testKey ⟨.buffer [1], ref⟩ .null}
  heap := fun _ => [1]
  fresh := 2
  accepted := by
    rintro k (rfl | ⟨digest, rfl, hdigest⟩ | ⟨ref, -, rfl⟩)
    · exact testKey_accepted (.inr (.inl rfl)) (.inl rfl)
    · exact testKey_accepted (.inl ⟨_, rfl, nofun⟩) hdigest
    · exact testKey_accepted (.inr (.inr ⟨_, rfl, nofun⟩)) (.inl rfl)
  stored := by
    rintro k (rfl | ⟨digest, rfl, -⟩ | ⟨ref, href, rfl⟩) bs hbs
    · cases hbs
    · cases hbs
    · exact ⟨href.ne, JsValue.buffer.inj hbs⟩

/-- `5n` comes back as the number 5, `equals` is not transitive and tells equal Buffers apart. -/
theorem mixedKeys_not_sound : (∀ digestOf, ∃ k ∈ mixedKeys.keys, ¬k.ComesBack digestOf mixedKeys.fresh) ∧
    ¬Equivalence mixedKeys.Equals ∧ ¬mixedKeys.ComparesContent := by
  refine ⟨fun digestOf => ⟨testKey ⟨.bigint 5, 0⟩ .null, .inl rfl, fun h => ?_⟩, fun h => ?_, fun h => ?_⟩
  · have hsurvives := (KeyObject.comesBack_iff digestOf (mixedKeys.accepted _ (.inl rfl)) nofun).1 h
    exact hsurvives.key
  · have hdecide := AcceptedKeys.equivalence_iff.1 h
    have hmatch := hdecide (testKey ⟨.str (JsString.lit "k"), 0⟩ (.buffer (List.replicate 20 1)))
      (.inr (.inl ⟨_, rfl, .inr ⟨1, rfl⟩⟩)) (testKey ⟨.str (JsString.lit "k"), 0⟩ .null)
      (.inr (.inl ⟨_, rfl, .inl rfl⟩))
      (testKey ⟨.str (JsString.lit "k"), 0⟩ (.buffer (List.replicate 20 2))) (.inr (.inl ⟨_, rfl, .inr ⟨2, rfl⟩⟩))
      ⟨rfl, rfl, rfl⟩ ⟨rfl, rfl, rfl⟩ rfl
    exact absurd (hmatch _ _ rfl rfl) (by decide)
  · have hshared := AcceptedKeys.comparesContent_iff.1 h
    have href := hshared (testKey ⟨.buffer [1], 0⟩ .null) (.inr (.inr ⟨0, by decide, rfl⟩))
      (testKey ⟨.buffer [1], 1⟩ .null) (.inr (.inr ⟨1, by decide, rfl⟩)) [1] rfl rfl rfl rfl nofun
    exact absurd href (by decide)

end AerospikeNode
