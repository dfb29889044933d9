import AerospikeNode.Js.Val
import AerospikeNode.Lib.Assoc

/-!
# Native values

`as_val` of the C client and `asval_from_jsvalue` (`src/main/util/conversions.cc`), which every
command uses to turn an argument into one. A native string is the `char *` the C client keeps: the
bytes before the first NUL.
-/

namespace AerospikeNode

/-- How a native function fails: `AS_NODE_PARAM_ERR`, or the process is gone (V8 aborts on a
`ToLocalChecked` or `FromJust` of nothing). -/
inductive Fail where
  | paramErr
  | abort
deriving DecidableEq, Repr

abbrev Res := Except Fail

/-- `FromJust()` -/
def fromJust {α : Type} : Option α → Res α
  | some a => .ok a
  | none => .error .abort

theorem fromJust_error {α : Type} {a : Option α} {e : Fail} (h : fromJust a = .error e) : e = .abort := by
  cases a with
  | none => exact (Except.error.inj h).symm
  | some a => cases h

theorem Except.bind_eq_ok {ε α β : Type} {x : Except ε α} {f : α → Except ε β} {b : β} :
    (x >>= f) = .ok b ↔ ∃ a, x = .ok a ∧ f a = .ok b := by
  cases x with
  | error e => exact ⟨nofun, nofun⟩
  | ok a =>
    constructor
    · exact fun h => ⟨a, rfl, h⟩
    · rintro ⟨a', ha, h⟩
      cases ha
      exact h

theorem Except.map_eq_ok {ε α β : Type} {r : Except ε α} {f : α → β} {b : β} :
    r.map f = .ok b ↔ ∃ a, r = .ok a ∧ f a = b := by
  cases r with
  | error e => exact ⟨fun h => (nomatch h), fun ⟨_, h, _⟩ => (nomatch h)⟩
  | ok a =>
    rw [Except.map, Except.ok.injEq]
    constructor
    · intro h
      exact ⟨a, rfl, h⟩
    · rintro ⟨a', ha, h⟩
      cases ha
      exact h

inductive AsVal where
  | nil
  | boolean (b : Bool)
  | integer (i : Int64)
  | double (d : JsNumber)
  | string (s : Bytes)
  | bytes (bs : Bytes)
  | list (xs : List AsVal)
  | map (es : List (AsVal × AsVal))
  | geojson (s : Bytes)
  | inf
  | wildcard

namespace AsVal

mutual
def beq : AsVal → AsVal → Bool
  | nil, nil => true
  | boolean a, boolean b => a == b
  | integer a, integer b => a == b
  | double a, double b => a == b
  | string a, string b => a == b
  | bytes a, bytes b => a == b
  | list a, list b => beqList a b
  | map a, map b => beqEntries a b
  | geojson a, geojson b => a == b
  | inf, inf => true
  | wildcard, wildcard => true
  | _, _ => false

def beqList : List AsVal → List AsVal → Bool
  | [], [] => true
  | a :: as, b :: bs => beq a b && beqList as bs
  | _, _ => false

def beqEntries : List (AsVal × AsVal) → List (AsVal × AsVal) → Bool
  | [], [] => true
  | (a, b) :: as, (c, d) :: bs => beq a c && beq b d && beqEntries as bs
  | _, _ => false
end

mutual
theorem beq_iff : ∀ a b : AsVal, beq a b = true ↔ a = b
  | nil, b => by cases b <;> simp [beq]
  | boolean a, b => by cases b <;> simp [beq]
  | integer a, b => by cases b <;> simp [beq]
  | double a, b => by cases b <;> simp [beq]
  | string a, b => by cases b <;> simp [beq]
  | bytes a, b => by cases b <;> simp [beq]
  | list a, b => by cases b <;> simp [beq, beqList_iff]
  | map a, b => by cases b <;> simp [beq, beqEntries_iff]
  | geojson a, b => by cases b <;> simp [beq]
  | inf, b => by cases b <;> simp [beq]
  | wildcard, b => by cases b <;> simp [beq]

theorem beqList_iff : ∀ a b : List AsVal, beqList a b = true ↔ a = b
  | [], b => by cases b <;> simp [beqList]
  | a :: as, b => by cases b <;> simp [beqList, beq_iff a, beqList_iff as]

theorem beqEntries_iff : ∀ a b : List (AsVal × AsVal), beqEntries a b = true ↔ a = b
  | [], b => by cases b <;> simp [beqEntries]
  | (a, a') :: as, b => by
    rcases b with _ | ⟨⟨b, b'⟩, bs⟩
    · simp [beqEntries]
    · simp [beqEntries, beq_iff a, beq_iff a', beqEntries_iff as]
end

instance : DecidableEq AsVal := fun a b => decidable_of_iff _ (beq_iff a b)

/-- `as_val_t` -/
inductive Kind where
  | nil | boolean | integer | double | string | bytes | list | map | geojson | inf | wildcard
deriving DecidableEq, Repr

/-- `as_val_type` -/
def kind : AsVal → Kind
  | nil => .nil
  | boolean _ => .boolean
  | integer _ => .integer
  | double _ => .double
  | string _ => .string
  | bytes _ => .bytes
  | list _ => .list
  | map _ => .map
  | geojson _ => .geojson
  | inf => .inf
  | wildcard => .wildcard

end AsVal

/-- What the conversions call that is not here: the `ToNumber` of V8, of strings and objects (`none` if it throws),
and the kinds of keys that `as_map_set` of the C client takes. -/
class Platform where
  toNumber : JsValue → Option JsNumber
  takesKey : AsVal.Kind → Bool
  takesKey_integer : takesKey .integer = true
  takesKey_string : takesKey .string = true
  takesKey_bytes : takesKey .bytes = true

namespace Platform

/-- A platform for examples: the keys are those of the C client, and no text is a numeral. -/
scoped instance sample : Platform where
  toNumber _ := some .nan
  takesKey
    | .integer | .string | .bytes => true
    | _ => false
  takesKey_integer := rfl
  takesKey_string := rfl
  takesKey_bytes := rfl

end Platform

/-- `as_map_set` on an `as_orderedmap`: the value of an entry with that key is replaced. A key that it does not take
is left out, and nobody looks at what it returns. -/
def AsVal.mapSet [Platform] (es : List (AsVal × AsVal)) (k v : AsVal) : List (AsVal × AsVal) :=
  if Platform.takesKey k.kind then Assoc.set es k v else es

section
variable [Platform]

/-- `as_stringmap_set` -/
@[simp]
theorem AsVal.mapSet_string (es : List (AsVal × AsVal)) (s : Bytes) (v : AsVal) :
    AsVal.mapSet es (.string s) v = Assoc.set es (.string s) v := if_pos Platform.takesKey_string

/-- Setting entries one after the other is setting those whose keys are taken. -/
theorem AsVal.foldl_mapSet (cs es : List (AsVal × AsVal)) :
    cs.foldl (fun es c => AsVal.mapSet es c.1 c.2) es =
      (cs.filter fun c => Platform.takesKey c.1.kind).foldl (fun es c => Assoc.set es c.1 c.2) es := by
  rw [List.foldl_filter]
  rfl

end

/-- `as_string_new(strdup(*Nan::Utf8String(s)), true)`: what the C client sees of a string. -/
def nativeStr (s : JsString) : Bytes := JsString.cstr (JsString.utf8 s)

namespace JsValue

def DoubleType := "Double"
def GeoJSONType := "GeoJSON"
def BinType := "Bin"

/-- `instanceof`: the constructor's name starts with that of the type. -/
def instanceOf (v : JsValue) (type : String) : Bool :=
  match v with
  | obj cls _ => (JsString.utf8 (JsString.lit type)).isPrefixOf (JsString.utf8 cls.ctor)
  | _ => false

def isGeojsonValue (v : JsValue) : Bool := v.instanceOf GeoJSONType

def isBinValue (v : JsValue) : Bool := v.instanceOf BinType

/-- `is_double_value` -/
def isDoubleValue (v : JsValue) : Bool :=
  match v with
  | num n => n.neInt n.toInt64.toInt
  | _ => v.instanceOf DoubleType

/-- `Nan::To<double>(v).FromJust()`, which V8 does not survive where `ToNumber` throws. -/
def toDouble [Platform] : JsValue → Res JsNumber
  | num n => .ok n
  | undefined => .ok .nan
  | null => .ok (.ofInt32 0)
  | bool b => .ok (.ofInt32 (if b then 1 else 0))
  | bigint _ | symbol => .error .abort
  | v => fromJust (Platform.toNumber v)

theorem toDouble_error [Platform] {v : JsValue} {e : Fail} (h : v.toDouble = .error e) : e = .abort := by
  cases v with
  | undefined | null | bool b | num n => cases h
  | bigint i | symbol => exact (Except.error.inj h).symm
  | str s | func | buffer bs | array xs | map es | obj cls ps => exact fromJust_error h

/-- `double_value` -/
def doubleValue [Platform] (v : JsValue) : Res JsNumber :=
  if v.instanceOf DoubleType then (v.get (JsString.lit "Double")).toDouble else v.toDouble

/-- `*Nan::Utf8String(v)` of what a wrapper's `str` property holds; the constructor of `GeoJSON`
keeps a string there. -/
def toStr : JsValue → JsString
  | str s => s
  | null => JsString.lit "null"
  | undefined => JsString.lit "undefined"
  | _ => JsString.lit "[object Object]"

/-- `geojson_as_string` -/
def geojsonAsString (v : JsValue) : Bytes := nativeStr (v.get (JsString.lit "str")).toStr

/-- `BigInt::Int64Value` with its `lossless` flag tested. -/
def bigintToInt64 (i : ℤ) : Res Int64 :=
  if -2 ^ 63 ≤ i ∧ i < 2 ^ 63 then .ok (Int64.ofInt i) else .error .paramErr

mutual
/-- `asval_from_jsvalue`. Its `IsInt32` and `IsUint32` branches store the integer that the last
number branch would; a symbol is cast to an object it is not. -/
def asvalFromJsvalue [Platform] : JsValue → Res AsVal
  | null => .ok .nil
  | undefined => .ok .nil
  | bool b => .ok (.boolean b)
  | str s => .ok (.string (nativeStr s))
  | num n => .ok (if (num n).isDoubleValue then .double n else .integer n.toInt64)
  | bigint i => (bigintToInt64 i).map .integer
  | buffer bs => .ok (.bytes bs)
  | array xs => (listFromJsarray xs).map .list
  | map es => (mapFromJsmap es []).map .map
  | obj cls ps =>
    if (obj cls ps).isDoubleValue then (obj cls ps).doubleValue.map .double
    else if (obj cls ps).isGeojsonValue then .ok (.geojson (obj cls ps).geojsonAsString)
    else (mapFromJsobject ps []).map .map
  | func => .ok (.map [])
  | symbol => .error .abort

/-- `list_from_jsarray` -/
def listFromJsarray [Platform] : List JsValue → Res (List AsVal)
  | [] => .ok []
  | x :: xs => do
    let v ← asvalFromJsvalue x
    let vs ← listFromJsarray xs
    return v :: vs

/-- `map_from_jsobject`: `as_stringmap_set` of every own property. -/
def mapFromJsobject [Platform] : List (JsString × JsValue) → List (AsVal × AsVal) → Res (List (AsVal × AsVal))
  | [], acc => .ok acc
  | (name, x) :: ps, acc => do
    let v ← asvalFromJsvalue x
    mapFromJsobject ps (AsVal.mapSet acc (.string (nativeStr name)) v)

/-- `map_from_jsmap`: the value is converted before its key. -/
def mapFromJsmap [Platform] : List (JsValue × JsValue) → List (AsVal × AsVal) → Res (List (AsVal × AsVal))
  | [], acc => .ok acc
  | (k, x) :: es, acc => do
    let v ← asvalFromJsvalue x
    let nameVal ← asvalFromJsvalue k
    mapFromJsmap es (AsVal.mapSet acc nameVal v)
end

/-- The kind of native value that `asval_from_jsvalue` makes; a symbol is none. -/
def valKind : JsValue → AsVal.Kind
  | null | undefined | symbol => .nil
  | bool _ => .boolean
  | str _ => .string
  | num n => if (num n).isDoubleValue then .double else .integer
  | bigint _ => .integer
  | buffer _ => .bytes
  | array _ => .list
  | map _ | func => .map
  | obj cls ps =>
    if (obj cls ps).isDoubleValue then .double
    else if (obj cls ps).isGeojsonValue then .geojson
    else .map

/-! ### What the converters return -/

theorem kind_asval [Platform] {v : JsValue} {a : AsVal} (h : v.asvalFromJsvalue = .ok a) : a.kind = v.valKind := by
  cases v with
  | null | undefined | bool b | str s | buffer bs | func =>
    obtain rfl := Except.ok.inj h
    rfl
  | num n =>
    obtain rfl := Except.ok.inj h
    rw [valKind]
    split_ifs <;> rfl
  | symbol => cases h
  | bigint i | array xs | map es =>
    obtain ⟨b, -, rfl⟩ := Except.map_eq_ok.mp h
    rfl
  | obj cls ps =>
    rw [asvalFromJsvalue] at h
    rw [valKind]
    split_ifs at h ⊢ with hd hg
    · obtain ⟨b, -, rfl⟩ := Except.map_eq_ok.mp h
      rfl
    · obtain rfl := Except.ok.inj h
      rfl
    · obtain ⟨b, -, rfl⟩ := Except.map_eq_ok.mp h
      rfl

/-- The numbers `is_double_value` takes for an int64. -/
theorem isDoubleValue_num {n : JsNumber} :
    (num n).isDoubleValue = false ↔ ∃ i : ℤ, n.Is i ∧ -2 ^ 63 ≤ i ∧ i ≤ 2 ^ 63 := by
  change n.neInt n.toInt64.toInt = false ↔ _
  cases n with
  | nan => exact ⟨nofun, fun ⟨_, h, _⟩ => nomatch h⟩
  | inf neg => exact ⟨nofun, fun ⟨_, h, _⟩ => nomatch h⟩
  | negZero => exact ⟨fun _ => ⟨0, rfl, by norm_num, by norm_num⟩, fun _ => by decide +kernel⟩
  | fin q hq =>
    rw [JsNumber.neInt_toInt64_fin]
    refine exists_congr fun i => and_congr_left fun _ => ?_
    rw [JsNumber.Is, JsNumber.val, Option.some.injEq]

theorem listFromJsarray_ok [Platform] : ∀ {xs : List JsValue} {vs : List AsVal},
    listFromJsarray xs = .ok vs ↔ List.Forall₂ (fun x v => asvalFromJsvalue x = .ok v) xs vs
  | [], vs => by
    rw [listFromJsarray, List.forall₂_nil_left_iff, Except.ok.injEq, eq_comm]
  | x :: xs, vs => by
    rw [listFromJsarray, List.forall₂_cons_left_iff]
    constructor
    · intro h
      obtain ⟨v, hv, h⟩ := Except.bind_eq_ok.1 h
      obtain ⟨vs', hvs, h⟩ := Except.bind_eq_ok.1 h
      exact ⟨v, vs', hv, listFromJsarray_ok.1 hvs, (Except.ok.inj h).symm⟩
    · rintro ⟨v, vs', hv, hvs, rfl⟩
      rw [hv, listFromJsarray_ok.2 hvs]
      rfl

theorem mapFromJsobject_ok [Platform] {ps : Props} {acc r : List (AsVal × AsVal)} :
    mapFromJsobject ps acc = .ok r ↔ ∃ cs : List (AsVal × AsVal),
      r = cs.foldl (fun es c => Assoc.set es c.1 c.2) acc ∧
      List.Forall₂ (fun p c => c.1 = .string (nativeStr p.1) ∧ asvalFromJsvalue p.2 = .ok c.2) ps cs := by
  induction ps generalizing acc with
  | nil =>
    rw [mapFromJsobject, Except.ok.injEq]
    constructor
    · rintro rfl
      exact ⟨[], rfl, .nil⟩
    · rintro ⟨cs, rfl, hcs⟩
      rw [List.forall₂_nil_left_iff] at hcs
      rw [hcs, List.foldl_nil]
  | cons p ps ih =>
    obtain ⟨name, x⟩ := p
    rw [mapFromJsobject]
    constructor
    · intro h
      obtain ⟨v, hv, h⟩ := Except.bind_eq_ok.1 h
      obtain ⟨cs, hr, hcs⟩ := ih.1 h
      rw [AsVal.mapSet_string] at hr
      exact ⟨(.string (nativeStr name), v) :: cs, hr, .cons ⟨rfl, hv⟩ hcs⟩
    · rintro ⟨cs, hr, hcs⟩
      rcases hcs with _ | @⟨_, ⟨k, v⟩, _, cs, ⟨hk, hv⟩, hcs⟩
      obtain rfl : k = .string (nativeStr name) := hk
      rw [show asvalFromJsvalue x = .ok v from hv]
      refine ih.2 ⟨cs, ?_, hcs⟩
      rw [AsVal.mapSet_string]
      exact hr

theorem mapFromJsmap_ok [Platform] {es : List (JsValue × JsValue)} {acc r : List (AsVal × AsVal)} :
    mapFromJsmap es acc = .ok r ↔ ∃ cs : List (AsVal × AsVal),
      r = cs.foldl (fun es c => AsVal.mapSet es c.1 c.2) acc ∧
      List.Forall₂ (fun e c => asvalFromJsvalue e.1 = .ok c.1 ∧ asvalFromJsvalue e.2 = .ok c.2) es cs := by
  induction es generalizing acc with
  | nil =>
    rw [mapFromJsmap, Except.ok.injEq]
    constructor
    · rintro rfl
      exact ⟨[], rfl, .nil⟩
    · rintro ⟨cs, rfl, hcs⟩
      rw [List.forall₂_nil_left_iff] at hcs
      rw [hcs, List.foldl_nil]
  | cons e es ih =>
    obtain ⟨k, x⟩ := e
    rw [mapFromJsmap]
    constructor
    · intro h
      obtain ⟨v, hv, h⟩ := Except.bind_eq_ok.1 h
      obtain ⟨nameVal, hk, h⟩ := Except.bind_eq_ok.1 h
      obtain ⟨cs, hr, hcs⟩ := ih.1 h
      exact ⟨(nameVal, v) :: cs, hr, .cons ⟨hk, hv⟩ hcs⟩
    · rintro ⟨cs, hr, hcs⟩
      rcases hcs with _ | @⟨_, ⟨nameVal, v⟩, _, cs, ⟨hk, hv⟩, hcs⟩
      rw [show asvalFromJsvalue x = .ok v from hv, show asvalFromJsvalue k = .ok nameVal from hk]
      exact ih.2 ⟨cs, hr, hcs⟩

theorem asvalFromJsvalue_array [Platform] {xs : List JsValue} {a : AsVal} :
    (array xs).asvalFromJsvalue = .ok a ↔ ∃ vs, a = .list vs ∧
      List.Forall₂ (fun x v => asvalFromJsvalue x = .ok v) xs vs := by
  rw [asvalFromJsvalue]
  constructor
  · intro h
    cases hvs : listFromJsarray xs with
    | error e => rw [hvs] at h; cases h
    | ok vs => rw [hvs] at h; cases h; exact ⟨vs, rfl, listFromJsarray_ok.1 hvs⟩
  · rintro ⟨vs, rfl, hvs⟩
    rw [listFromJsarray_ok.2 hvs]
    rfl

theorem asvalFromJsvalue_map [Platform] {es : List (JsValue × JsValue)} {a : AsVal}
    (h : (map es).asvalFromJsvalue = .ok a) : ∃ cs : List (AsVal × AsVal),
      a = .map ((cs.filter fun c => Platform.takesKey c.1.kind).foldl (fun es c => Assoc.set es c.1 c.2) []) ∧
      List.Forall₂ (fun e c => asvalFromJsvalue e.1 = .ok c.1 ∧ asvalFromJsvalue e.2 = .ok c.2) es cs := by
  rw [asvalFromJsvalue] at h
  cases hr : mapFromJsmap es [] with
  | error e => rw [hr] at h; cases h
  | ok r =>
    obtain ⟨cs, rfl, hcs⟩ := mapFromJsmap_ok.1 hr
    rw [hr] at h; cases h
    exact ⟨cs, congrArg AsVal.map (AsVal.foldl_mapSet cs []), hcs⟩

end JsValue

end AerospikeNode
