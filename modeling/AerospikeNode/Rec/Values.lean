import AerospikeNode.Native.Numbers

/-!
# The three converters of a bin's value

`recordbins_from_jsobject`, `asval_from_jsvalue` and `add_write_op` each test the type of a value in
an order of their own. Arrays, Maps, Buffers and functions have no class in `JsValue`, but a subclass
may have a name that the client takes for one of its wrappers; `BinInput` adds it. What is inside an
array, a Map or an object is converted by `asval_from_jsvalue`, whichever converter is called
(`agree_iff`).
-/

namespace AerospikeNode

/-- A value with the name of its constructor and its named properties, if it is an array, a Map, a
Buffer or a function. -/
structure BinInput where
  value : JsValue
  ctor : JsString
  props : Props

namespace BinInput

def instanceOf (x : BinInput) (type : String) : Bool :=
  match x.value with
  | .array _ | .map _ | .buffer _ | .func =>
    (JsString.utf8 (JsString.lit type)).isPrefixOf (JsString.utf8 x.ctor)
  | v => v.instanceOf type

def get (x : BinInput) (name : JsString) : JsValue :=
  match x.value with
  | .array _ | .map _ | .buffer _ | .func => Props.get x.props name
  | v => v.get name

def isGeojsonValue (x : BinInput) : Bool := x.instanceOf JsValue.GeoJSONType

def isDoubleValue (x : BinInput) : Bool :=
  match x.value with
  | .num n => n.neInt n.toInt64.toInt
  | _ => x.instanceOf JsValue.DoubleType

def doubleValue [Platform] (x : BinInput) : Res JsNumber :=
  if x.instanceOf JsValue.DoubleType then (x.get (JsString.lit "Double")).toDouble else x.value.toDouble

def geojsonAsString (x : BinInput) : Bytes := nativeStr (x.get (JsString.lit "str")).toStr

/-- The value of a bin in `recordbins_from_jsobject`; `none` is a value that is skipped. -/
def recordbinsValue [Platform] (x : BinInput) : Res (Option AsVal) :=
  match x.value with
  | .undefined => .error .paramErr
  | .null => .ok (some .nil)
  | .bool b => .ok (some (.boolean b))
  | .str s => .ok (some (.string (nativeStr s)))
  | v =>
    if x.isDoubleValue then x.doubleValue.map fun d => some (.double d)
    else match v with
    | .num n => .ok (some (.integer n.toInt64))
    | .bigint i => (JsValue.bigintToInt64 i).map fun i => some (.integer i)
    | .buffer bs => .ok (some (.bytes bs))
    | v =>
      if x.isGeojsonValue then .ok (some (.geojson x.geojsonAsString))
      else match v with
      | .array xs => (JsValue.listFromJsarray xs).map fun xs => some (.list xs)
      | .map es => (JsValue.mapFromJsmap es []).map fun es => some (.map es)
      | .obj _ ps => (JsValue.mapFromJsobject ps []).map fun es => some (.map es)
      | .func => (JsValue.mapFromJsobject x.props []).map fun es => some (.map es)
      | _ => .ok none

/-- `asval_from_jsvalue` -/
def asvalFromJsvalue [Platform] (x : BinInput) : Res AsVal :=
  match x.value with
  | .null | .undefined => .ok .nil
  | .bool b => .ok (.boolean b)
  | .str s => .ok (.string (nativeStr s))
  | .num n =>
    if n.isInt32 then .ok (.integer (Int64.ofInt n.toInt32.toInt))
    else if n.isUint32 then .ok (.integer (Int64.ofInt n.toUint32.toNat))
    else if x.isDoubleValue then x.doubleValue.map .double
    else .ok (.integer n.toInt64)
  | v =>
    if x.isDoubleValue then x.doubleValue.map .double
    else match v with
    | .bigint i => (JsValue.bigintToInt64 i).map .integer
    | .buffer bs => .ok (.bytes bs)
    | .array xs => (JsValue.listFromJsarray xs).map .list
    | .map es => (JsValue.mapFromJsmap es []).map .map
    | v =>
      if x.isGeojsonValue then .ok (.geojson x.geojsonAsString)
      else match v with
      | .obj _ ps => (JsValue.mapFromJsobject ps []).map .map
      | .func => (JsValue.mapFromJsobject x.props []).map .map
      | _ => .error .abort

/-- `add_write_op`, by the value. -/
def addWriteOp [Platform] (x : BinInput) : Res OpCall :=
  if x.isDoubleValue then x.doubleValue.map fun d => { fn := .addWriteDouble, args := [.double d] }
  else match x.value with
  | .num n => .ok { fn := .addWriteInt64, args := [.int64 n.toInt64] }
  | .bool b => .ok { fn := .addWrite, args := [.val (some (.boolean b))] }
  | .str s => .ok { fn := .addWriteStrp, args := [.str (nativeStr s)] }
  | .buffer bs => .ok { fn := .addWriteRawp, args := [.bytes bs] }
  | .null => .ok { fn := .addWrite, args := [.val (some .nil)] }
  | v =>
    if x.isGeojsonValue then .ok { fn := .addWriteGeojsonStrp, args := [.str x.geojsonAsString] }
    else match v with
    | .array _ | .map _ | .obj _ _ | .func =>
      x.asvalFromJsvalue.map fun v => { fn := .addWrite, args := [.val (some v)] }
    | _ => .error .paramErr

/-- All three reject the value, or all three come to one native value. -/
def Agree [Platform] (x : BinInput) : Prop :=
  (x.recordbinsValue = .error .paramErr ∧ x.asvalFromJsvalue = .error .paramErr ∧
      x.addWriteOp = .error .paramErr) ∨
    ∃ a, x.recordbinsValue = .ok (some a) ∧ x.asvalFromJsvalue = .ok a ∧
      ∃ c, x.addWriteOp = .ok c ∧ c.scalarValue = some (.write, a)

/-- A value of the built-in class. -/
def ofValue (v : JsValue) : BinInput :=
  ⟨v, JsString.lit (match v with
    | .array _ => "Array"
    | .map _ => "Map"
    | .buffer _ => "Buffer"
    | .func => "Function"
    | _ => ""), []⟩

end BinInput

/-! ### What stops a conversion -/

namespace JsValue

/-- What the `Double` property of a wrapper stops. -/
def doubleFault [Platform] : JsValue → Option Fail
  | bigint _ | symbol => some .abort
  | undefined | null | bool _ | num _ => none
  | v => if (Platform.toNumber v).isSome then none else some .abort

/-- What a value without parts stops. -/
def fault [Platform] : JsValue → Option Fail
  | symbol => some .abort
  | bigint i => if -2 ^ 63 ≤ i ∧ i < 2 ^ 63 then none else some .paramErr
  | obj cls ps =>
    if (obj cls ps).instanceOf DoubleType then doubleFault ((obj cls ps).get (JsString.lit "Double")) else none
  | _ => none

mutual
/-- The values without parts that the conversion comes to, in its order. -/
def leaves : JsValue → List JsValue
  | array xs => listLeaves xs
  | map es => entryLeaves es
  | obj cls ps =>
    if (obj cls ps).instanceOf DoubleType || (obj cls ps).instanceOf GeoJSONType then [obj cls ps]
    else propLeaves ps
  | undefined => [undefined]
  | null => [null]
  | bool b => [bool b]
  | str s => [str s]
  | num n => [num n]
  | bigint i => [bigint i]
  | symbol => [symbol]
  | func => [func]
  | buffer bs => [buffer bs]

def listLeaves : List JsValue → List JsValue
  | [] => []
  | x :: xs => leaves x ++ listLeaves xs

def propLeaves : List (JsString × JsValue) → List JsValue
  | [] => []
  | (_, x) :: ps => leaves x ++ propLeaves ps

def entryLeaves : List (JsValue × JsValue) → List JsValue
  | [] => []
  | (k, x) :: es => leaves x ++ leaves k ++ entryLeaves es
end

/-- The first of the values that stops the conversion says how. -/
def firstFault [Platform] (vs : List JsValue) : Option Fail := vs.findSome? fault

end JsValue

/-- The failure of a result. -/
def failure {α : Type} : Res α → Option Fail
  | .error e => some e
  | .ok _ => none

section
variable {α β : Type}

@[simp] theorem failure_ok (a : α) : failure (.ok a) = none := rfl

@[simp] theorem failure_error (e : Fail) : failure (.error e : Res α) = some e := rfl

@[simp] theorem failure_map (f : α → β) (x : Res α) : failure (x.map f) = failure x := by
  cases x <;> rfl

theorem failure_bind {x : Res α} {f : α → Res β} {o : Option Fail} (h : ∀ a, x = .ok a → failure (f a) = o) :
    failure (x >>= f) = (failure x).or o := by
  cases x with
  | error e => rfl
  | ok a => exact h a rfl

theorem failure_fromJust (a : Option α) : failure (fromJust a) = if a.isSome then none else some .abort := by
  cases a <;> rfl

theorem failure_eq_none {x : Res α} : failure x = none ↔ ∃ a, x = .ok a := by
  cases x with
  | error e => exact ⟨nofun, nofun⟩
  | ok a => exact ⟨fun _ => ⟨a, rfl⟩, fun _ => rfl⟩

theorem failure_eq_some {x : Res α} {e : Fail} : failure x = some e ↔ x = .error e := by
  cases x <;> simp

end

namespace JsValue

theorem firstFault_append [Platform] (xs ys : List JsValue) :
    firstFault (xs ++ ys) = (firstFault xs).or (firstFault ys) := List.findSome?_append

theorem firstFault_singleton [Platform] (v : JsValue) : firstFault [v] = fault v := by
  rw [firstFault, List.findSome?_cons, List.findSome?_nil]
  cases fault v <;> rfl

theorem failure_toDouble [Platform] (v : JsValue) : failure v.toDouble = doubleFault v := by
  cases v with
  | undefined | null | bool b | num n | bigint i | symbol => rfl
  | str s | func | buffer bs | array xs | map es | obj cls ps => exact failure_fromJust _

theorem failure_bigintToInt64 [Platform] (i : ℤ) : failure (bigintToInt64 i) = fault (bigint i) := by
  rw [bigintToInt64, fault]
  split_ifs <;> rfl

mutual
/-- A conversion fails at the first value that stops it. -/
theorem failure_asval [Platform] : ∀ v : JsValue, failure (asvalFromJsvalue v) = firstFault (leaves v)
  | array xs => by
    rw [asvalFromJsvalue, failure_map, leaves]
    exact failure_list xs
  | map es => by
    rw [asvalFromJsvalue, failure_map, leaves]
    exact failure_entries es []
  | obj cls ps => by
    rw [asvalFromJsvalue, leaves]
    change failure (if (obj cls ps).instanceOf DoubleType = true then _ else
      if (obj cls ps).instanceOf GeoJSONType = true then _ else _) = _
    cases hd : (obj cls ps).instanceOf DoubleType with
    | true =>
      rw [if_pos rfl, failure_map, doubleValue, if_pos hd, failure_toDouble, Bool.true_or, if_pos rfl,
        firstFault_singleton, fault, if_pos hd]
    | false =>
      cases hg : (obj cls ps).instanceOf GeoJSONType with
      | true =>
        rw [if_neg Bool.false_ne_true, if_pos rfl, Bool.or_true, if_pos rfl, firstFault_singleton, fault, hd]
        rfl
      | false =>
        rw [if_neg Bool.false_ne_true, if_neg Bool.false_ne_true, failure_map, Bool.or_false,
          if_neg Bool.false_ne_true]
        exact failure_props ps []
  | bigint i => by
    rw [asvalFromJsvalue, failure_map, failure_bigintToInt64, leaves, firstFault_singleton]
  | undefined => by rw [asvalFromJsvalue, leaves]; rfl
  | null => by rw [asvalFromJsvalue, leaves]; rfl
  | bool b => by rw [asvalFromJsvalue, leaves]; rfl
  | str s => by rw [asvalFromJsvalue, leaves]; rfl
  | num n => by rw [asvalFromJsvalue, leaves]; rfl
  | symbol => by rw [asvalFromJsvalue, leaves]; rfl
  | func => by rw [asvalFromJsvalue, leaves]; rfl
  | buffer bs => by rw [asvalFromJsvalue, leaves]; rfl

theorem failure_list [Platform] : ∀ xs : List JsValue, failure (listFromJsarray xs) = firstFault (listLeaves xs)
  | [] => by rw [listFromJsarray, listLeaves]; rfl
  | x :: xs => by
    rw [listFromJsarray, listLeaves, firstFault_append, ← failure_asval x, ← failure_list xs]
    refine failure_bind fun v _ => ?_
    cases listFromJsarray xs <;> rfl

theorem failure_props [Platform] : ∀ (ps : List (JsString × JsValue)) (acc : List (AsVal × AsVal)),
    failure (mapFromJsobject ps acc) = firstFault (propLeaves ps)
  | [], acc => by rw [mapFromJsobject, propLeaves]; rfl
  | (name, x) :: ps, acc => by
    rw [mapFromJsobject, propLeaves, firstFault_append, ← failure_asval x]
    exact failure_bind fun v _ => failure_props ps _

theorem failure_entries [Platform] : ∀ (es : List (JsValue × JsValue)) (acc : List (AsVal × AsVal)),
    failure (mapFromJsmap es acc) = firstFault (entryLeaves es)
  | [], acc => by rw [mapFromJsmap, entryLeaves]; rfl
  | (k, x) :: es, acc => by
    rw [mapFromJsmap, entryLeaves, List.append_assoc, firstFault_append, firstFault_append,
      ← failure_asval x, ← failure_asval k]
    exact failure_bind fun v _ => failure_bind fun nameVal _ => failure_entries es _
end

end JsValue

namespace BinInput

/-- What stops the conversion of the value. -/
def fault [Platform] (x : BinInput) : Option Fail :=
  if x.instanceOf JsValue.DoubleType then JsValue.doubleFault (x.get (JsString.lit "Double"))
  else if x.isGeojsonValue then none
  else match x.value with
  | .func => JsValue.firstFault (JsValue.propLeaves x.props)
  | v => JsValue.firstFault (JsValue.leaves v)

/-- The values the three converters do not tell apart. -/
structure Unambiguous [Platform] (x : BinInput) : Prop where
  bigint : ∀ i, x.value = .bigint i → i < -2 ^ 63 ∨ 2 ^ 63 ≤ i
  array : ∀ xs, x.value = .array xs → x.isGeojsonValue = false
  map : ∀ es, x.value = .map es → x.isGeojsonValue = false
  fault : x.fault ≠ some .abort

/-- A constructor's name does not start with both names. -/
theorem not_both_prefixes (s : Bytes) : ¬((JsString.utf8 (JsString.lit JsValue.DoubleType)).isPrefixOf s = true ∧
    (JsString.utf8 (JsString.lit JsValue.GeoJSONType)).isPrefixOf s = true) := by
  have hD : JsString.utf8 (JsString.lit JsValue.DoubleType) = 68 :: [111, 117, 98, 108, 101] := by decide
  have hG : JsString.utf8 (JsString.lit JsValue.GeoJSONType) = 71 :: [101, 111, 74, 83, 79, 78] := by decide
  rw [hD, hG]
  rintro ⟨h1, h2⟩
  cases s with
  | nil => cases h1
  | cons b s =>
    rw [List.isPrefixOf, Bool.and_eq_true, beq_iff_eq] at h1 h2
    obtain ⟨rfl, -⟩ := h1
    exact absurd h2.1 (by decide)

/-- Where the three converters make the same of a value, they agree unless the process is gone. -/
theorem agree_of_same [Platform] {x : BinInput} {r : Res AsVal} (hput : x.recordbinsValue = r.map some)
    (hval : x.asvalFromJsvalue = r) (hfail : failure x.addWriteOp = failure r)
    (hwrite : ∀ a c, r = .ok a → x.addWriteOp = .ok c → c.scalarValue = some (.write, a)) :
    x.Agree ↔ failure r ≠ some .abort := by
  rw [Agree, hput, hval]
  cases r with
  | ok a =>
    obtain ⟨c, hc⟩ := failure_eq_none.1 hfail
    exact ⟨fun _ => nofun, fun _ => .inr ⟨a, rfl, rfl, c, hc, hwrite a c rfl hc⟩⟩
  | error e =>
    cases e with
    | paramErr => exact ⟨fun _ => nofun, fun _ => .inl ⟨rfl, rfl, failure_eq_some.1 hfail⟩⟩
    | abort =>
      refine ⟨?_, fun h => absurd rfl h⟩
      rintro (⟨h, -⟩ | ⟨a, h, -⟩)
      · cases h
      · cases h

/-- An integer that an int64 holds is no double value, and becomes that int64. -/
theorem integer_num {n : JsNumber} {i : ℤ} (h : n.Is i) (h1 : -2 ^ 63 ≤ i) (h2 : i < 2 ^ 63) :
    (JsValue.num n).isDoubleValue = false ∧ n.toInt64 = Int64.ofInt i := by
  refine ⟨JsValue.isDoubleValue_num.2 ⟨i, h, h1, h2.le⟩, ?_⟩
  rw [h.toInt64_eq, JsNumber.satInt64_eq h1 h2]

/-- The `IsInt32` and `IsUint32` branches store what the number branches would. -/
theorem asval_num [Platform] {x : BinInput} {n : JsNumber} (h : x.value = .num n) :
    x.asvalFromJsvalue = .ok (if (JsValue.num n).isDoubleValue then .double n else .integer n.toInt64) := by
  have hd : x.isDoubleValue = (JsValue.num n).isDoubleValue := by
    simp only [isDoubleValue, h, JsValue.isDoubleValue]
  have hv : x.doubleValue = .ok n := by
    simp only [doubleValue, instanceOf, h, JsValue.instanceOf, Bool.false_eq_true, if_false, JsValue.toDouble]
  rw [asvalFromJsvalue]
  simp only [h, hd, hv]
  cases h32 : n.isInt32 with
  | true =>
    have his := JsNumber.is_toInt32.2 (JsNumber.isInt32_is h32)
    have hlo := n.toInt32.le_toInt
    have hhi := n.toInt32.toInt_lt
    obtain ⟨hdouble, h64⟩ := integer_num his (by omega) (by omega)
    rw [if_pos rfl, hdouble, if_neg Bool.false_ne_true, h64]
  | false =>
    rw [if_neg Bool.false_ne_true]
    cases hu32 : n.isUint32 with
    | true =>
      have his := JsNumber.is_toUint32.2 (JsNumber.isUint32_is hu32)
      have hhi := n.toUint32.toNat_lt
      obtain ⟨hdouble, h64⟩ := integer_num his (by omega) (by omega)
      rw [if_pos rfl, hdouble, if_neg Bool.false_ne_true, h64]
    | false =>
      rw [if_neg Bool.false_ne_true]
      split_ifs <;> rfl

/-- No built-in class is taken for a wrapper. -/
theorem builtin_not_wrapper (v : JsValue) (hobj : v.isObject = true) (hplain : ∀ cls ps, v ≠ .obj cls ps) :
    ¬(ofValue v).isDoubleValue = true ∧ ¬(ofValue v).isGeojsonValue = true := by
  have hnames : ∀ name ∈ ["Array", "Map", "Buffer", "Function"],
      ¬(JsString.utf8 (JsString.lit JsValue.DoubleType)).isPrefixOf (JsString.utf8 (JsString.lit name)) = true ∧
        ¬(JsString.utf8 (JsString.lit JsValue.GeoJSONType)).isPrefixOf (JsString.utf8 (JsString.lit name)) =
          true := by
    decide +kernel
  have hnamed : ∀ ctor, (BinInput.mk v ctor []).isDoubleValue =
        (JsString.utf8 (JsString.lit JsValue.DoubleType)).isPrefixOf (JsString.utf8 ctor) ∧
      (BinInput.mk v ctor []).isGeojsonValue =
        (JsString.utf8 (JsString.lit JsValue.GeoJSONType)).isPrefixOf (JsString.utf8 ctor) := by
    intro ctor
    cases v with
    | array _ | map _ | buffer _ | func => exact ⟨rfl, rfl⟩
    | obj cls ps => exact absurd rfl (hplain cls ps)
    | _ => cases hobj
  have hname : ∃ name ∈ ["Array", "Map", "Buffer", "Function"], ofValue v = ⟨v, JsString.lit name, []⟩ := by
    cases v with
    | array xs => exact ⟨"Array", by decide, rfl⟩
    | map es => exact ⟨"Map", by decide, rfl⟩
    | buffer bs => exact ⟨"Buffer", by decide, rfl⟩
    | func => exact ⟨"Function", by decide, rfl⟩
    | obj cls ps => exact absurd rfl (hplain cls ps)
    | _ => cases hobj
  obtain ⟨name, hmem, hv⟩ := hname
  rw [hv, (hnamed _).1, (hnamed _).2]
  exact hnames name hmem

/-- On a value of a built-in class the converters are `binValue`, `JsValue.asvalFromJsvalue` and
`writeCall`. -/
theorem recordbinsValue_ofValue [Platform] (v : JsValue) : (ofValue v).recordbinsValue = binValue v := by
  have hbuiltin := builtin_not_wrapper v
  cases v with
  | num n => exact (apply_ite (fun a => (.ok (some a) : Res (Option AsVal))) _ _ _).symm
  | array _ | map _ | buffer _ | func =>
    obtain ⟨hd, hg⟩ := hbuiltin rfl fun _ _ h => by cases h
    simp only [recordbinsValue, if_neg hd, if_neg hg]
    rfl
  | _ => rfl

theorem asvalFromJsvalue_ofValue [Platform] (v : JsValue) : (ofValue v).asvalFromJsvalue = v.asvalFromJsvalue := by
  have hbuiltin := builtin_not_wrapper v
  cases v with
  | num n => rw [asval_num rfl, JsValue.asvalFromJsvalue]
  | array _ | map _ | buffer _ | func =>
    obtain ⟨hd, hg⟩ := hbuiltin rfl fun _ _ h => by cases h
    rw [JsValue.asvalFromJsvalue]
    simp only [asvalFromJsvalue, if_neg hd, if_neg hg]
    rfl
  | obj _ _ | bigint _ =>
    rw [JsValue.asvalFromJsvalue]
    rfl
  | _ => rfl

theorem addWriteOp_ofValue [Platform] (v : JsValue) : (ofValue v).addWriteOp = writeCall v := by
  have hbuiltin := builtin_not_wrapper v
  cases v with
  | num n => exact (apply_ite (fun c => (.ok c : Res OpCall)) _ _ _).symm
  | array xs =>
    obtain ⟨hd, hg⟩ := hbuiltin rfl fun _ _ h => by cases h
    simp only [addWriteOp, if_neg hd, if_neg hg, asvalFromJsvalue_ofValue]
    change (JsValue.array xs).asvalFromJsvalue.map _ = _
    rw [JsValue.asvalFromJsvalue, writeCall]
    cases JsValue.listFromJsarray xs <;> rfl
  | map _ | buffer _ | func =>
    obtain ⟨hd, hg⟩ := hbuiltin rfl fun _ _ h => by cases h
    simp only [addWriteOp, if_neg hd, if_neg hg, asvalFromJsvalue_ofValue]
    rfl
  | obj cls ps =>
    rw [writeCall, ← asvalFromJsvalue_ofValue]
    rfl
  | _ => rfl

/-- A value the order of the tests does not matter for is ambiguous only if the process is gone. -/
theorem unambiguous_iff_fault [Platform] {x : BinInput} (hbigint : ∀ i, x.value ≠ .bigint i)
    (harray : ∀ xs, x.value = .array xs → x.isGeojsonValue = false)
    (hmap : ∀ es, x.value = .map es → x.isGeojsonValue = false) : x.Unambiguous ↔ x.fault ≠ some .abort :=
  ⟨fun h => h.fault, fun h => ⟨fun i hi => absurd hi (hbigint i), harray, hmap, h⟩⟩

/-- An array or a Map is not taken for both a `Double` and a `GeoJSON`. -/
theorem isGeojsonValue_of_double {x : BinInput} (hd : x.instanceOf JsValue.DoubleType = true) :
    (∀ xs, x.value = .array xs → x.isGeojsonValue = false) ∧
      ∀ es, x.value = .map es → x.isGeojsonValue = false := by
  have hboth : ∀ s, (JsString.utf8 (JsString.lit JsValue.DoubleType)).isPrefixOf s = true →
      (JsString.utf8 (JsString.lit JsValue.GeoJSONType)).isPrefixOf s = false := by
    intro s h1
    cases h2 : (JsString.utf8 (JsString.lit JsValue.GeoJSONType)).isPrefixOf s with
    | true => exact absurd ⟨h1, h2⟩ (not_both_prefixes s)
    | false => rfl
  unfold isGeojsonValue instanceOf at *
  constructor
  · intro xs hx
    rw [hx] at hd ⊢
    exact hboth _ hd
  · intro es hx
    rw [hx] at hd ⊢
    exact hboth _ hd

/-- An object that is taken for a `Double` is one for all three. -/
theorem agree_of_double [Platform] {x : BinInput} (hobj : x.value.isObject = true)
    (hd : x.instanceOf JsValue.DoubleType = true) : x.Agree ↔ x.Unambiguous := by
  have hvalue : x.doubleValue = (x.get (JsString.lit "Double")).toDouble := by
    rw [doubleValue, if_pos hd]
  have hsame : x.recordbinsValue = (x.doubleValue.map AsVal.double).map some ∧
      x.asvalFromJsvalue = x.doubleValue.map AsVal.double ∧
      x.addWriteOp = x.doubleValue.map fun d => { fn := .addWriteDouble, args := [.double d] } := by
    have hmap : ∀ r : Res JsNumber, (r.map fun d => some (AsVal.double d)) = (r.map AsVal.double).map some := by
      intro r
      cases r <;> rfl
    obtain ⟨value, ctor, props⟩ := x
    rw [← hmap]
    cases value with
    | func | buffer _ | array _ | map _ | obj _ _ => exact ⟨if_pos hd, if_pos hd, if_pos hd⟩
    | _ => cases hobj
  obtain ⟨hput, hval, hwrite⟩ := hsame
  have hbigint : ∀ i, x.value ≠ .bigint i := by
    intro i hi
    rw [hi] at hobj
    cases hobj
  rw [unambiguous_iff_fault hbigint (isGeojsonValue_of_double hd).1 (isGeojsonValue_of_double hd).2,
    agree_of_same hput hval]
  · rw [failure_map, hvalue, JsValue.failure_toDouble, fault, if_pos hd]
  · rw [hwrite, failure_map, failure_map]
  · intro a c ha hc
    rw [hwrite] at hc
    cases hx : x.doubleValue with
    | error e =>
      rw [hx] at ha
      cases ha
    | ok d =>
      rw [hx] at ha hc
      cases ha
      cases hc
      rfl

section
variable {ctor : JsString} {props : Props}

/-- A value without parts that all three take. -/
theorem agree_of_ok [Platform] {x : BinInput} {a : AsVal} {c : OpCall} (hput : x.recordbinsValue = .ok (some a))
    (hval : x.asvalFromJsvalue = .ok a) (hwrite : x.addWriteOp = .ok c)
    (hc : c.scalarValue = some (.write, a)) : x.Agree := .inr ⟨a, hput, hval, c, hwrite, hc⟩

theorem agree_num [Platform] (n : JsNumber) : Agree ⟨.num n, ctor, props⟩ := by
  have hval := asval_num (x := ⟨.num n, ctor, props⟩) rfl
  cases hd : (JsValue.num n).isDoubleValue with
  | true =>
    rw [hd, if_pos rfl] at hval
    exact agree_of_ok (c := { fn := .addWriteDouble, args := [.double n] }) (if_pos hd) hval (if_pos hd) rfl
  | false =>
    rw [hd, if_neg Bool.false_ne_true] at hval
    have hd' : ¬isDoubleValue ⟨.num n, ctor, props⟩ = true := by
      rw [show isDoubleValue ⟨.num n, ctor, props⟩ = false from hd]
      exact Bool.false_ne_true
    exact agree_of_ok (c := { fn := .addWriteInt64, args := [.int64 n.toInt64] }) (if_neg hd') hval (if_neg hd')
      rfl

/-- A BigInt is rejected by a write operation, whether it is an int64 or not. -/
theorem agree_bigint [Platform] (i : ℤ) : Agree ⟨.bigint i, ctor, props⟩ ↔ i < -2 ^ 63 ∨ 2 ^ 63 ≤ i := by
  have hput : recordbinsValue ⟨.bigint i, ctor, props⟩ =
      (JsValue.bigintToInt64 i).map fun i => some (.integer i) := rfl
  have hval : asvalFromJsvalue ⟨.bigint i, ctor, props⟩ = (JsValue.bigintToInt64 i).map .integer := rfl
  have hwrite : addWriteOp ⟨.bigint i, ctor, props⟩ = .error .paramErr := rfl
  rw [Agree, hput, hval, hwrite, JsValue.bigintToInt64]
  split_ifs with hr
  · constructor
    · rintro (⟨h, -⟩ | ⟨a, -, -, c, h, -⟩)
      · cases h
      · cases h
    · intro h
      omega
  · exact ⟨fun _ => by omega, fun _ => .inl ⟨rfl, rfl, rfl⟩⟩

theorem not_agree_symbol [Platform] : ¬Agree ⟨.symbol, ctor, props⟩ := by
  rintro (⟨h, -⟩ | ⟨a, h, -⟩)
  · cases h
  · cases h

/-- An array or a Map of a class called `GeoJSON..` is a GeoJSON string to two of the converters. -/
theorem not_agree_of_geojson [Platform] {value : JsValue} (hvalue : (∃ xs, value = .array xs) ∨ ∃ es, value = .map es)
    (hd : instanceOf ⟨value, ctor, props⟩ JsValue.DoubleType = false)
    (hg : isGeojsonValue ⟨value, ctor, props⟩ = true) : ¬Agree ⟨value, ctor, props⟩ := by
  have hd' : ¬instanceOf ⟨value, ctor, props⟩ JsValue.DoubleType = true := by
    rw [hd]
    exact Bool.false_ne_true
  have hput : recordbinsValue ⟨value, ctor, props⟩ =
      .ok (some (.geojson (geojsonAsString ⟨value, ctor, props⟩))) := by
    rcases hvalue with ⟨xs, rfl⟩ | ⟨es, rfl⟩
    · exact (if_neg hd').trans (if_pos hg)
    · exact (if_neg hd').trans (if_pos hg)
  have hval : ∀ s, asvalFromJsvalue ⟨value, ctor, props⟩ ≠ .ok (.geojson s) := by
    intro s hs
    rcases hvalue with ⟨xs, rfl⟩ | ⟨es, rfl⟩
    · rw [show asvalFromJsvalue ⟨.array xs, ctor, props⟩ = (JsValue.listFromJsarray xs).map .list from
        if_neg hd'] at hs
      cases h : JsValue.listFromJsarray xs with
      | error e => rw [h] at hs; cases hs
      | ok vs => rw [h] at hs; cases hs
    · rw [show asvalFromJsvalue ⟨.map es, ctor, props⟩ = (JsValue.mapFromJsmap es []).map .map from
        if_neg hd'] at hs
      cases h : JsValue.mapFromJsmap es [] with
      | error e => rw [h] at hs; cases hs
      | ok vs => rw [h] at hs; cases hs
  rintro (⟨h, -⟩ | ⟨a, h, h', -⟩)
  · rw [hput] at h
    cases h
  · rw [hput] at h
    cases h
    exact hval _ h'

theorem agree_of_parts [Platform] {α : Type} {x : BinInput} {r : Res α} (mk : α → AsVal)
    (hput : x.recordbinsValue = r.map fun y => some (mk y)) (hval : x.asvalFromJsvalue = r.map mk)
    (hwrite : x.addWriteOp =
      x.asvalFromJsvalue.map fun v => { fn := .addWrite, args := [.val (some v)] }) :
    x.Agree ↔ failure r ≠ some .abort := by
  have hput' : x.recordbinsValue = (r.map mk).map some := by
    rw [hput]
    cases r <;> rfl
  rw [← failure_map mk r]
  refine agree_of_same hput' hval ?_ ?_
  · rw [hwrite, hval, failure_map]
  · intro a c ha hc
    rw [hwrite, hval, ha] at hc
    cases hc
    rfl

theorem agree_of_unnamed [Platform] {value : JsValue} (hd : instanceOf ⟨value, ctor, props⟩ JsValue.DoubleType = false)
    (hg : isGeojsonValue ⟨value, ctor, props⟩ = false)
    (hvalue : value.isObject = true) (hbuffer : ∀ bs, value ≠ .buffer bs) :
    Agree ⟨value, ctor, props⟩ ↔ fault ⟨value, ctor, props⟩ ≠ some .abort := by
  have hd' : ¬instanceOf ⟨value, ctor, props⟩ JsValue.DoubleType = true := by
    rw [hd]
    exact Bool.false_ne_true
  have hg' : ¬isGeojsonValue ⟨value, ctor, props⟩ = true := by
    rw [hg]
    exact Bool.false_ne_true
  cases value with
  | array xs =>
    have hfault : fault ⟨.array xs, ctor, props⟩ = failure (JsValue.listFromJsarray xs) := by
      rw [JsValue.failure_list]
      exact (if_neg hd').trans (if_neg hg')
    rw [hfault]
    exact agree_of_parts .list ((if_neg hd').trans (if_neg hg')) (if_neg hd')
      ((if_neg hd').trans (if_neg hg'))
  | map es =>
    have hfault : fault ⟨.map es, ctor, props⟩ = failure (JsValue.mapFromJsmap es []) := by
      rw [JsValue.failure_entries]
      exact (if_neg hd').trans (if_neg hg')
    rw [hfault]
    exact agree_of_parts .map ((if_neg hd').trans (if_neg hg')) (if_neg hd')
      ((if_neg hd').trans (if_neg hg'))
  | obj cls ps =>
    have hleaves : JsValue.leaves (.obj cls ps) = JsValue.propLeaves ps := by
      rw [JsValue.leaves]
      refine if_neg ?_
      rw [Bool.or_eq_true]
      exact not_or.2 ⟨hd', hg'⟩
    have hfault : fault ⟨.obj cls ps, ctor, props⟩ = failure (JsValue.mapFromJsobject ps []) := by
      rw [JsValue.failure_props, ← hleaves]
      exact (if_neg hd').trans (if_neg hg')
    rw [hfault]
    exact agree_of_parts .map ((if_neg hd').trans (if_neg hg')) ((if_neg hd').trans (if_neg hg'))
      ((if_neg hd').trans (if_neg hg'))
  | func =>
    have hfault : fault ⟨.func, ctor, props⟩ = failure (JsValue.mapFromJsobject props []) := by
      rw [JsValue.failure_props]
      exact (if_neg hd').trans (if_neg hg')
    rw [hfault]
    exact agree_of_parts .map ((if_neg hd').trans (if_neg hg')) ((if_neg hd').trans (if_neg hg'))
      ((if_neg hd').trans (if_neg hg'))
  | buffer bs => exact absurd rfl (hbuffer bs)
  | _ => cases hvalue

theorem agree_object [Platform] {value : JsValue} (hvalue : value.isObject = true) :
    Agree ⟨value, ctor, props⟩ ↔ Unambiguous ⟨value, ctor, props⟩ := by
  have hbigint : ∀ i, value ≠ .bigint i := by
    rintro i rfl
    cases hvalue
  cases hd : instanceOf ⟨value, ctor, props⟩ JsValue.DoubleType with
  | true => exact agree_of_double hvalue hd
  | false =>
    have hd' : ¬instanceOf ⟨value, ctor, props⟩ JsValue.DoubleType = true := by
      rw [hd]
      exact Bool.false_ne_true
    cases hg : isGeojsonValue ⟨value, ctor, props⟩ with
    | false =>
      rw [unambiguous_iff_fault hbigint (fun _ _ => hg) fun _ _ => hg]
      cases value with
      | buffer bs =>
        have hfault : fault ⟨.buffer bs, ctor, props⟩ = none := by
          refine (if_neg hd').trans ?_
          rw [hg]
          rfl
        rw [hfault]
        exact ⟨fun _ => nofun, fun _ => agree_of_ok (if_neg hd') (if_neg hd') (if_neg hd') rfl⟩
      | array _ | map _ | obj _ _ | func => exact agree_of_unnamed hd hg rfl fun _ => nofun
      | _ => cases hvalue
    | true =>
      have hfault : fault ⟨value, ctor, props⟩ = none := (if_neg hd').trans (if_pos hg)
      cases value with
      | array xs =>
        refine iff_of_false (not_agree_of_geojson (.inl ⟨xs, rfl⟩) hd hg) fun h => ?_
        rw [h.array xs rfl] at hg
        cases hg
      | map es =>
        refine iff_of_false (not_agree_of_geojson (.inr ⟨es, rfl⟩) hd hg) fun h => ?_
        rw [h.map es rfl] at hg
        cases hg
      | obj _ _ | func =>
        rw [unambiguous_iff_fault hbigint (fun _ h => by cases h) (fun _ h => by cases h), hfault]
        refine ⟨fun _ => nofun, fun _ => ?_⟩
        exact agree_of_ok ((if_neg hd').trans (if_pos hg)) ((if_neg hd').trans (if_pos hg))
          ((if_neg hd').trans (if_pos hg)) rfl
      | buffer bs =>
        rw [unambiguous_iff_fault hbigint (fun _ h => by cases h) (fun _ h => by cases h), hfault]
        exact ⟨fun _ => nofun, fun _ => agree_of_ok (if_neg hd') (if_neg hd') (if_neg hd') rfl⟩
      | _ => cases hvalue

/-- The three converters agree on exactly the unambiguous values. -/
theorem agree_iff [Platform] (x : BinInput) (hundef : x.value ≠ .undefined) : x.Agree ↔ x.Unambiguous := by
  obtain ⟨value, ctor, props⟩ := x
  cases value with
  | undefined => exact absurd rfl hundef
  | null => exact iff_of_true (agree_of_ok rfl rfl rfl rfl) ⟨nofun, nofun, nofun, nofun⟩
  | bool b => exact iff_of_true (agree_of_ok rfl rfl rfl rfl) ⟨nofun, nofun, nofun, nofun⟩
  | str s => exact iff_of_true (agree_of_ok rfl rfl rfl rfl) ⟨nofun, nofun, nofun, nofun⟩
  | num n => exact iff_of_true (agree_num n) ⟨nofun, nofun, nofun, nofun⟩
  | bigint i =>
    have hfault : fault ⟨.bigint i, ctor, props⟩ ≠ some .abort := by
      change JsValue.firstFault [.bigint i] ≠ some .abort
      rw [JsValue.firstFault_singleton, JsValue.fault]
      split_ifs
      · exact nofun
      · exact nofun
    refine (agree_bigint i).trans ⟨fun h => ⟨?_, nofun, nofun, hfault⟩, fun h => h.bigint i rfl⟩
    rintro j hj
    cases hj
    exact h
  | symbol => exact iff_of_false not_agree_symbol fun h => h.fault rfl
  | func | buffer _ | array _ | map _ | obj _ _ => exact agree_object rfl

open Platform

theorem agree_list_of_text :
    JsValue.array [.str (JsString.lit "a")] ≠ .undefined ∧
      Agree ⟨.array [.str (JsString.lit "a")], JsString.lit "Array", []⟩ := by
  refine ⟨nofun, (agree_iff ⟨.array [.str (JsString.lit "a")], JsString.lit "Array", []⟩ nofun).2 ?_⟩
  have hg : isGeojsonValue ⟨.array [.str (JsString.lit "a")], JsString.lit "Array", []⟩ = false := by
    decide +kernel
  refine ⟨nofun, fun _ _ => hg, fun _ _ => hg, ?_⟩
  decide +kernel

/-- `put` stores the BigInt `5n`, which a write operation rejects. -/
theorem bigint_not_agree : ¬Agree ⟨.bigint 5, [], []⟩ := by
  rw [agree_bigint]
  decide

end

end BinInput

end AerospikeNode
