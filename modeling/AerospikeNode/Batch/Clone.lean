import AerospikeNode.Rec.Bins
import AerospikeNode.Page.State
import AerospikeNode.Js.Arith

/-!
# Results of a batch and their clones

`asval_clone`, `key_clone` and `record_clone` (`src/main/util/conversions.cc`), by which the worker
commands keep what the C client hands to their callback, and `key_to_jsobject`,
`recordmeta_to_jsobject` and `recordbins_to_jsobject`, by which a result is given to the user. A
clone is what it was made of (`asvalClone_eq`, `keyClone_eq`, `recordClone_eq`).
-/

namespace AerospikeNode

namespace AsVal

mutual
/-- `asval_clone`. A value it does not know becomes a null pointer, which is read as nil. -/
def clone : AsVal → AsVal
  | nil => .nil
  | boolean b => .boolean b
  | integer i => .integer i
  | double d => .double d
  | string s => .string s
  | bytes bs => .bytes bs
  | list xs => .list (cloneList xs)
  | map es => .map (cloneEntries es [])
  | geojson s => .geojson s
  | inf => .nil
  | wildcard => .nil

def cloneList : List AsVal → List AsVal
  | [] => []
  | x :: xs => clone x :: cloneList xs

/-- `as_orderedmap_set` of every entry. The keys are those of a map of the C client, which takes them. -/
def cloneEntries : List (AsVal × AsVal) → List (AsVal × AsVal) → List (AsVal × AsVal)
  | [], acc => acc
  | (k, v) :: es, acc => cloneEntries es (Assoc.set acc (clone k) (clone v))
end

mutual
/-- A value that a record can have: the keys of its maps are distinct. -/
def Stored : AsVal → Prop
  | list xs => StoredList xs
  | map es => StoredEntries es ∧ (es.map Prod.fst).Nodup
  | inf => False
  | wildcard => False
  | _ => True

def StoredList : List AsVal → Prop
  | [] => True
  | x :: xs => Stored x ∧ StoredList xs

def StoredEntries : List (AsVal × AsVal) → Prop
  | [] => True
  | (k, v) :: es => Stored k ∧ Stored v ∧ StoredEntries es
end

mutual
theorem clone_eq : ∀ {v : AsVal}, v.Stored → v.clone = v
  | nil, _ => rfl
  | boolean _, _ => rfl
  | integer _, _ => rfl
  | double _, _ => rfl
  | string _, _ => rfl
  | bytes _, _ => rfl
  | list xs, h => by rw [clone, cloneList_eq h]
  | map es, h => by
    rw [clone, cloneEntries_eq h.1 h.2 (by simp), List.nil_append]
  | geojson _, _ => rfl

theorem cloneList_eq : ∀ {xs : List AsVal}, StoredList xs → cloneList xs = xs
  | [], _ => rfl
  | x :: xs, h => by rw [cloneList, clone_eq h.1, cloneList_eq h.2]

theorem cloneEntries_eq : ∀ {es acc : List (AsVal × AsVal)}, StoredEntries es →
    (es.map Prod.fst).Nodup → (∀ e ∈ es, e.1 ∉ acc.map Prod.fst) → cloneEntries es acc = acc ++ es
  | [], acc, _, _, _ => by rw [cloneEntries, List.append_nil]
  | (k, v) :: es, acc, h, hnodup, hnew => by
    obtain ⟨hk, hv, hes⟩ := h
    obtain ⟨hkes, hnodup⟩ := List.nodup_cons.mp hnodup
    have hset : Assoc.set acc k v = acc ++ [(k, v)] :=
      Assoc.set_of_notMem (hnew (k, v) (List.mem_cons_self ..))
    rw [cloneEntries, clone_eq hk, clone_eq hv, hset, cloneEntries_eq hes hnodup, List.append_assoc,
      List.singleton_append]
    intro e he
    rw [List.map_append, List.mem_append, not_or]
    refine ⟨hnew e (List.mem_cons_of_mem _ he), ?_⟩
    intro hmem
    obtain rfl : e.1 = k := List.mem_singleton.mp hmem
    exact hkes (List.mem_map.mpr ⟨e, he, rfl⟩)
end

end AsVal

/-- The `as_key` of a result: its value and its digest, if it has them. -/
structure ResultKey where
  ns : Bytes
  set : Bytes
  value : Option AsVal
  digest : Option Bytes

/-- The `as_record` of a result. -/
structure ResultRecord where
  gen : UInt16
  ttl : UInt32
  bins : List (Bytes × AsVal)
  key : ResultKey

/-- `key_clone`; `none` is the null pointer that is left for a key with neither value nor digest. -/
def ResultKey.clone (src : ResultKey) : Option ResultKey :=
  if src.digest.isSome || src.value.isSome then
    some ⟨src.ns, src.set, src.value.map AsVal.clone, src.digest⟩
  else none

/-- The loop of `record_clone` over the bins. -/
def cloneBins (dest : AsRecord) (bins : List (Bytes × AsVal)) : AsRecord :=
  bins.foldl (fun dest b => dest.set b.1 b.2.clone) dest

/-- `record_clone` into a record that has room for so many bins; the key inside a record is left as
it is if the source has none. -/
def ResultRecord.clone (capacity : ℕ) (src : ResultRecord) : ResultRecord where
  gen := src.gen
  ttl := src.ttl
  bins := (cloneBins (.init capacity) src.bins).bins
  key := src.key.clone.getD ⟨[], [], none, none⟩

namespace ResultKey

/-- A key by which a record can be found. -/
structure Identified (k : ResultKey) : Prop where
  named : k.digest.isSome = true ∨ k.value.isSome = true
  stored : ∀ v, k.value = some v → v.Stored

theorem clone_eq {k : ResultKey} (h : k.Identified) : k.clone = some k := by
  have hvalue : k.value.map AsVal.clone = k.value := by
    cases hv : k.value with
    | none => rfl
    | some v => exact congrArg some (AsVal.clone_eq (h.stored v hv))
  have hnamed : (k.digest.isSome || k.value.isSome) = true := by
    rw [Bool.or_eq_true]
    exact h.named
  rw [clone, if_pos hnamed, hvalue]

end ResultKey

namespace ResultRecord

/-- What the C client makes of the answer of a server. -/
structure Stored (r : ResultRecord) : Prop where
  length : r.bins.length < 2 ^ 16
  short : ∀ b ∈ r.bins, b.1.length ≤ AS_BIN_NAME_MAX_LEN
  nodup : (r.bins.map Prod.fst).Nodup
  stored : ∀ b ∈ r.bins, b.2.Stored

end ResultRecord

theorem cloneBins_eq {bins : List (Bytes × AsVal)} {dest : AsRecord}
    (hroom : dest.bins.length + bins.length ≤ dest.capacity)
    (hshort : ∀ b ∈ bins, b.1.length ≤ AS_BIN_NAME_MAX_LEN)
    (hnodup : ((dest.bins ++ bins).map Prod.fst).Nodup) (hstored : ∀ b ∈ bins, b.2.Stored) :
    (cloneBins dest bins).bins = dest.bins ++ bins := by
  induction bins generalizing dest with
  | nil => rw [cloneBins, List.foldl_nil, List.append_nil]
  | cons b bins ih =>
    obtain ⟨hb, hshort⟩ := List.forall_mem_cons.mp hshort
    obtain ⟨hv, hstored⟩ := List.forall_mem_cons.mp hstored
    rw [List.length_cons] at hroom
    have hnew : b.1 ∉ dest.bins.map Prod.fst := by
      rw [List.map_append, List.map_cons, List.nodup_append] at hnodup
      intro hmem
      exact hnodup.2.2 b.1 hmem b.1 (List.mem_cons_self ..) rfl
    have hset := AsRecord.set_new (v := b.2) hb hnew (by omega)
    have hcap := AsRecord.capacity_set dest b.1 b.2
    rw [cloneBins, List.foldl_cons, AsVal.clone_eq hv]
    have htail : (cloneBins (dest.set b.1 b.2) bins).bins = (dest.set b.1 b.2).bins ++ bins := by
      refine ih ?_ hshort ?_ hstored
      · rw [hset, hcap, List.length_append, List.length_singleton]
        omega
      · rw [hset, List.append_assoc, List.singleton_append]
        exact hnodup
    rw [cloneBins] at htail
    rw [htail, hset, List.append_assoc, List.singleton_append]

/-- A record that is cloned into one of its size keeps its bins. -/
theorem ResultRecord.clone_bins {r : ResultRecord} (h : r.Stored) :
    (r.clone r.bins.length).bins = r.bins := by
  have hcap : (AsRecord.init r.bins.length).capacity = r.bins.length := Nat.mod_eq_of_lt h.length
  have hroom : (AsRecord.init r.bins.length).bins.length + r.bins.length ≤
      (AsRecord.init r.bins.length).capacity := by
    rw [hcap]
    exact (Nat.zero_add _).le
  exact cloneBins_eq hroom h.short h.nodup h.stored

/-! ### As JavaScript objects -/

/-- The value of a key; a value of another type is left out. -/
def keyValueToJs : AsVal → Props
  | .integer i => [(JsString.lit "key", .num (.ofRat i.toInt))]
  | .string s => [(JsString.lit "key", .ofCString s)]
  | .bytes bs => [(JsString.lit "key", .buffer bs)]
  | _ => []

/-- `key_to_jsobject` -/
def keyToJsobject (k : ResultKey) : JsValue :=
  .plain ((if k.ns.length > 0 then [(JsString.lit "ns", .ofCString k.ns)] else []) ++
    (if k.set.length > 0 then [(JsString.lit "set", .ofCString k.set)] else []) ++
    (k.value.map keyValueToJs).getD [] ++
    (k.digest.map fun bs => [(JsString.lit "digest", JsValue.buffer bs)]).getD [])

/-- `recordmeta_to_jsobject`; `AS_RECORD_NO_EXPIRE_TTL` is `TTL_NEVER_EXPIRE`. -/
def recordmetaToJsobject (r : ResultRecord) : JsValue :=
  .plain [(JsString.lit "ttl",
      if r.ttl = 0xFFFFFFFF then .int (-1) else .num (.ofUInt32 r.ttl)),
    (JsString.lit "gen", .num (.ofUInt32 r.gen.toUInt32))]

/-- `recordbins_to_jsobject` -/
def recordbinsToJsobject (le : AsVal → AsVal → Bool) (bins : List (Bytes × AsVal)) : JsValue :=
  .plain (bins.foldl (fun ps b => JsValue.setProperty ps (.ofCString b.1) (b.2.toJsvalue le)) [])

end AerospikeNode
