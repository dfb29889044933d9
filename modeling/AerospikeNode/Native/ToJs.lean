import AerospikeNode.Js.PropertyKey
import AerospikeNode.Js.Utf8
import AerospikeNode.Native.AsVal

/-!
# Native values as JavaScript values

`val_to_jsvalue` (`src/main/util/conversions.cc`). An `as_orderedmap` is iterated in the order of its
keys, which the C client defines; `le` stands for it.
-/

namespace AerospikeNode

namespace JsValue

/-- `Nan::Set` on a plain object: `__proto__` is a setter of its prototype, and a key that is no
property name throws. -/
def setProperty (ps : Props) (key value : JsValue) : Props :=
  match key.toPropertyKey with
  | none => ps
  | some name => if name = PROTO then ps else Assoc.set ps name value

/-- An `int64_t`: a number between `MIN_SAFE_INTEGER` and `MAX_SAFE_INTEGER`, else a BigInt. -/
def ofInt64 (i : Int64) : JsValue :=
  if h : |i.toInt| < 2 ^ 53 then num (.ofInt i.toInt h) else bigint i.toInt

/-- `Nan::New(const char *)` -/
def ofCString (bs : Bytes) : JsValue := str (JsString.decode bs)

end JsValue

namespace AsVal
variable (le : AsVal → AsVal → Bool)

/-- The object of a map's entries, each with its key and value converted. -/
def objectOf (es : List (AsVal × JsValue × JsValue)) : Props :=
  ((es.mergeSort fun a b => le a.1 b.1).map (·.2)).foldl
    (fun ps e => JsValue.setProperty ps e.1 e.2) []

mutual
/-- `val_to_jsvalue` -/
def toJsvalue : AsVal → JsValue
  | nil => .null
  | integer i => .ofInt64 i
  | double d => .num d
  | string s => .ofCString s
  | boolean b => .bool b
  | bytes bs => .buffer bs
  | list xs => .array (listToJs xs)
  | map es => .plain (objectOf le (entriesToJs es))
  | geojson s => .ofCString s
  | inf => .undefined
  | wildcard => .undefined

def listToJs : List AsVal → List JsValue
  | [] => []
  | x :: xs => toJsvalue x :: listToJs xs

def entriesToJs : List (AsVal × AsVal) → List (AsVal × JsValue × JsValue)
  | [] => []
  | (k, v) :: es => (k, toJsvalue k, toJsvalue v) :: entriesToJs es
end

variable {le}

theorem listToJs_eq_map (xs : List AsVal) : listToJs le xs = xs.map (toJsvalue le) := by
  induction xs with
  | nil => rw [listToJs, List.map_nil]
  | cons x xs ih => rw [listToJs, ih, List.map_cons]

theorem entriesToJs_eq_map (es : List (AsVal × AsVal)) :
    entriesToJs le es = es.map fun e => (e.1, toJsvalue le e.1, toJsvalue le e.2) := by
  induction es with
  | nil => rw [entriesToJs, List.map_nil]
  | cons e es ih => rw [entriesToJs, ih, List.map_cons]

end AsVal

namespace JsValue

/-- The properties set one after the other, the keys being property names. -/
theorem foldl_setProperty {es : List (JsValue × JsValue)} {ps : Props} {acc : Props}
    (h : List.Forall₂ (fun e p => e.1.toPropertyKey = some p.1 ∧ e.2 = p.2) es ps)
    (hproto : PROTO ∉ ps.map Prod.fst) :
    es.foldl (fun ps e => setProperty ps e.1 e.2) acc =
      ps.foldl (fun acc p => Assoc.set acc p.1 p.2) acc := by
  induction h generalizing acc with
  | nil => rfl
  | @cons e p es ps he _ ih =>
    rw [List.map_cons, List.mem_cons, not_or] at hproto
    obtain ⟨hname, hval⟩ := he
    have hset : setProperty acc e.1 e.2 = Assoc.set acc p.1 p.2 := by
      rw [setProperty, hname, hval]
      exact if_neg (Ne.symm hproto.1)
    rw [List.foldl_cons, List.foldl_cons, hset, ih hproto.2]

/-- A property of the object is the property name of some key, other than `__proto__`. -/
theorem mem_keys_foldl_setProperty {es : List (JsValue × JsValue)} {acc : Props} {name : JsString}
    (h : name ∈ (es.foldl (fun ps e => setProperty ps e.1 e.2) acc).map Prod.fst) :
    name ∈ acc.map Prod.fst ∨ name ≠ PROTO ∧ ∃ e ∈ es, e.1.toPropertyKey = some name := by
  induction es generalizing acc with
  | nil => exact .inl h
  | cons e es ih =>
    rcases ih h with h | ⟨hne, e', he', hk⟩
    · change name ∈ (setProperty acc e.1 e.2).map Prod.fst at h
      unfold setProperty at h
      split at h
      · exact .inl h
      · rename_i name' hname
        split_ifs at h with hp
        · exact .inl h
        · rcases Assoc.mem_keys_set.1 h with h | rfl
          · exact .inl h
          · exact .inr ⟨hp, e, .head _, hname⟩
    · exact .inr ⟨hne, e', .tail _ he', hk⟩

end JsValue

end AerospikeNode
