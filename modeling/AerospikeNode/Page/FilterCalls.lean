import AerospikeNode.Page.Filter
import AerospikeNode.Rec.KeyEquals

/-!
# The builders of index filters

`lib/filter.js` makes the object of an index filter, `setup_options` (`src/main/query.cc`) the predicate of
the `as_query`. `IndexPredicate` is what a predicate says of the values of a bin, whoever says it: a builder
(`FilterCall.Asks`) or the C client's structure (`AsPredicate.meaning`).

`setupWhere_says_iff`: a query that is given the filters of any calls of the builders looks for what the
calls ask exactly if each number is an integer of 64 bits, each text one that a `char *` holds, each value
of a region one that has a JSON text, and all filters after the first with a context have that context.
-/

namespace AerospikeNode

/-- What is asked of the values in a bin. -/
inductive IndexPredicate where
  | range (min max : ℤ)
  | number (n : ℤ)
  | text (s : JsString)
  | bytes (bs : Bytes)
  | region (geojson : JsString)

/-- `AS_INDEX_TYPE_DEFAULT` -/
def AS_INDEX_TYPE_DEFAULT : Int32 := 0

/-- A call of one of the builders of `lib/filter.js`. -/
inductive FilterCall where
  | range (bin min max indexType context : JsValue)
  | equal (bin value : JsValue)
  | contains (bin value indexType context : JsValue)
  | geoWithinGeoJSONRegion (bin value indexType context : JsValue)
  | geoContainsGeoJSONPoint (bin value indexType context : JsValue)
  | geoWithinRadius (bin lon lat radius indexType context : JsValue)
  | geoContainsPoint (bin lon lat indexType context : JsValue)

namespace JsString

/-- `String.prototype.toLowerCase`, as far as ASCII letters go. -/
def toLowerCase (s : JsString) : JsString := s.map fun u => if 65 ≤ u ∧ u ≤ 90 then u + 32 else u

end JsString

namespace FilterCall

/-- `dataTypeOf`, with `typeOf` -/
def dataTypeOf : JsValue → Except JsError Int32
  | .str _ => .ok AS_INDEX_STRING
  | .num _ => .ok AS_INDEX_NUMERIC
  | .obj cls _ =>
    let valueType := cls.ctor.toLowerCase
    if valueType = JsString.lit "string" then .ok AS_INDEX_STRING
    else if valueType = JsString.lit "number" ∨ valueType = JsString.lit "double" then .ok AS_INDEX_NUMERIC
    else .error .typeError
  | .buffer _ => .ok AS_INDEX_BLOB
  | _ => .error .typeError

/-- The constructor of `SindexFilterPredicate` -/
def sindexFilterPredicate (predicate : Int32) (bin : JsValue) (dataType : Int32) (indexType context : JsValue)
    (props : Props) : JsValue :=
  .obj ⟨JsString.lit "SindexFilterPredicate", none⟩ ([(JsString.lit "predicate", .int predicate),
    (JsString.lit "bin", bin), (JsString.lit "datatype", .int dataType),
    (JsString.lit "type", if indexType.truthy then indexType else .int AS_INDEX_TYPE_DEFAULT),
    (JsString.lit "context", context)] ++ props)

def equalPredicate (bin value : JsValue) (dataType : Int32) (indexType context : JsValue) : JsValue :=
  sindexFilterPredicate AS_PREDICATE_EQUAL bin dataType indexType context [(JsString.lit "val", value)]

def rangePredicate (bin min max : JsValue) (dataType : Int32) (indexType context : JsValue) : JsValue :=
  sindexFilterPredicate AS_PREDICATE_RANGE bin dataType indexType context
    [(JsString.lit "min", min), (JsString.lit "max", max)]

def geoPredicate (bin value indexType context : JsValue) : JsValue :=
  sindexFilterPredicate AS_PREDICATE_RANGE bin AS_INDEX_GEO2DSPHERE indexType context [(JsString.lit "val", value)]

section
-- `JSON.stringify`, which may throw and need not give a text
variable (stringify : JsValue → Except JsError (Option JsString))

/-- What `JSON.stringify` returns. -/
def json (v : JsValue) : Except JsError JsValue := (stringify v).map fun s => s.elim .undefined .str

/-- The value of `geoWithinGeoJSONRegion` and `geoContainsGeoJSONPoint`; `typeof null` is `'object'`. -/
def geoValue : JsValue → Except JsError JsValue
  | .obj cls ps => if cls.wrapper = some .geojson then .ok (Props.get ps (JsString.lit "str"))
    else json stringify (.obj cls ps)
  | .null => json stringify .null
  | .buffer bs => json stringify (.buffer bs)
  | .array xs => json stringify (.array xs)
  | .map es => json stringify (.map es)
  | v => .ok v

/-- `GeoJSON.Circle(lon, lat, radius).toString()` -/
def circle (lon lat radius : JsValue) : Except JsError JsValue :=
  json stringify (.plain [(JsString.lit "type", .str (JsString.lit "AeroCircle")),
    (JsString.lit "coordinates", .array [.array [lon, lat], radius])])

/-- `GeoJSON.Point(lon, lat).toString()` -/
def point (lon lat : JsValue) : Except JsError JsValue :=
  json stringify (.plain [(JsString.lit "type", .str (JsString.lit "Point")),
    (JsString.lit "coordinates", .array [lon, lat])])

/-- The filter a call returns. -/
def filter : FilterCall → Except JsError JsValue
  | range bin min max indexType context => .ok (rangePredicate bin min max AS_INDEX_NUMERIC indexType context)
  | equal bin value => (dataTypeOf value).map fun t => equalPredicate bin value t .undefined .undefined
  | contains bin value indexType context =>
    (dataTypeOf value).map fun t => equalPredicate bin value t indexType context
  | geoWithinGeoJSONRegion bin value indexType context | geoContainsGeoJSONPoint bin value indexType context =>
    (geoValue stringify value).map fun v => geoPredicate bin v indexType context
  | geoWithinRadius bin lon lat radius indexType context =>
    (circle stringify lon lat radius).map fun v => geoPredicate bin v indexType context
  | geoContainsPoint bin lon lat indexType context =>
    (point stringify lon lat).map fun v => geoPredicate bin v indexType context

/-! ### What a call asks -/

def bin : FilterCall → JsValue
  | range bin _ _ _ _ | equal bin _ | contains bin _ _ _ | geoWithinGeoJSONRegion bin _ _ _
  | geoContainsGeoJSONPoint bin _ _ _ | geoWithinRadius bin _ _ _ _ _ | geoContainsPoint bin _ _ _ _ => bin

def indexType : FilterCall → JsValue
  | range _ _ _ t _ | contains _ _ t _ | geoWithinGeoJSONRegion _ _ t _
  | geoContainsGeoJSONPoint _ _ t _ | geoWithinRadius _ _ _ _ t _ | geoContainsPoint _ _ _ t _ => t
  | equal _ _ => .undefined

def context : FilterCall → JsValue
  | range _ _ _ _ c | contains _ _ _ c | geoWithinGeoJSONRegion _ _ _ c
  | geoContainsGeoJSONPoint _ _ _ c | geoWithinRadius _ _ _ _ _ c | geoContainsPoint _ _ _ _ c => c
  | equal _ _ => .undefined

/-- The number that a value stands for: a `Double` is one, too. -/
def IsNumber (v : JsValue) (i : ℤ) : Prop :=
  match v with
  | .num n => n.Is i
  | .obj cls ps => cls.ctor.toLowerCase = JsString.lit "double" ∧
    ∃ n, Props.get ps (JsString.lit "Double") = .num n ∧ n.Is i
  | _ => False

/-- Equality with a value. -/
def AsksValue (value : JsValue) : IndexPredicate → Prop
  | .number i => IsNumber value i
  | .text s => value = .str s
  | .bytes bs => value = .buffer bs
  | _ => False

def AsksRange (min max : JsValue) : IndexPredicate → Prop
  | .range i j => IsNumber min i ∧ IsNumber max j
  | _ => False

/-- A region or a point, by its text. -/
def AsksRegion (value : Except JsError JsValue) : IndexPredicate → Prop
  | .region s => value = .ok (.str s)
  | _ => False

def Asks : FilterCall → IndexPredicate → Prop
  | range _ min max _ _ => AsksRange min max
  | equal _ value | contains _ value _ _ => AsksValue value
  | geoWithinGeoJSONRegion _ value _ _ | geoContainsGeoJSONPoint _ value _ _ => AsksRegion (geoValue stringify value)
  | geoWithinRadius _ lon lat radius _ _ => AsksRegion (circle stringify lon lat radius)
  | geoContainsPoint _ lon lat _ _ => AsksRegion (point stringify lon lat)

/-- The type of the index: the default, if the call gives none. -/
def HasType [Platform] (c : FilterCall) (type : Int32) : Prop :=
  if c.indexType.truthy then ∃ n, c.indexType.toDouble = .ok n ∧ n.Is type.toInt else type = AS_INDEX_TYPE_DEFAULT

end

end FilterCall

namespace AsPredicate
variable {X : Type}

/-- What the C client looks for. -/
def meaning (p : AsPredicate X) : Option IndexPredicate :=
  if p.predicate = AS_PREDICATE_RANGE then
    match p.value with
    | .range min max => if p.datatype = AS_INDEX_NUMERIC then some (.range min.toInt max.toInt) else none
    | .string s => if p.datatype = AS_INDEX_GEO2DSPHERE then some (.region (JsString.decode s)) else none
    | _ => none
  else if p.predicate = AS_PREDICATE_EQUAL then
    match p.value with
    | .integer i => if p.datatype = AS_INDEX_NUMERIC then some (.number i.toInt) else none
    | .string s => if p.datatype = AS_INDEX_STRING then some (.text (JsString.decode s)) else none
    | .bytes bs => if p.datatype = AS_INDEX_BLOB then some (.bytes bs) else none
    | _ => none
  else none

/-- The predicate says what the call asks, of the bin and the index that the call names. -/
structure Says [Platform] (stringify : JsValue → Except JsError (Option JsString)) (c : FilterCall)
    (p : AsPredicate X) : Prop where
  bin : ∃ b, p.target = .bin b ∧ c.bin = .str (JsString.decode b)
  asks : ∃ P, p.meaning = some P ∧ c.Asks stringify P
  type : c.HasType p.type
  context : contextOfJs c.context = .ok p.ctx

end AsPredicate

namespace FilterCall

/-- The value is held by an `int64_t`. -/
def Int64Exact (v : JsValue) : Prop := ∃ n, ∃ i : Int64, v = .num n ∧ n.Is i.toInt

/-- The text is held by a `char *`. -/
def TextExact (v : JsValue) : Prop := ∃ s, v = .str s ∧ s.Clean

/-- The region has a text that is held by a `char *`. -/
def RegionExact (v : Except JsError JsValue) : Prop := ∃ s, v = .ok (.str s) ∧ s.Clean

section
variable (stringify : JsValue → Except JsError (Option JsString))

def ValueExact : FilterCall → Prop
  | range _ min max _ _ => Int64Exact min ∧ Int64Exact max
  | equal _ value | contains _ value _ _ => Int64Exact value ∨ TextExact value ∨ ∃ bs, value = .buffer bs
  | geoWithinGeoJSONRegion _ value _ _ | geoContainsGeoJSONPoint _ value _ _ => RegionExact (geoValue stringify value)
  | geoWithinRadius _ lon lat radius _ _ => RegionExact (circle stringify lon lat radius)
  | geoContainsPoint _ lon lat _ _ => RegionExact (point stringify lon lat)

/-- Everything that the call is given is passed on as it is. -/
structure Exact [Platform] (c : FilterCall) : Prop where
  bin : TextExact c.bin
  value : c.ValueExact stringify
  type : c.indexType.truthy = true → ∃ n, ∃ t : Int32, c.indexType.toDouble = .ok n ∧ n.Is t.toInt
  context : ∃ path, contextOfJs c.context = .ok path

/-- A context of the first call is that of the second. -/
def SameContext [Platform] (c c' : FilterCall) : Prop :=
  ∀ path, contextOfJs c.context = .ok (some path) → contextOfJs c'.context = .ok (some path)

/-- The predicate, the datatype and the value that `setup_options` reads for equality with a value. -/
def NativeEqual (value : JsValue) (p d : Int32) (v : PredicateValue) : Prop :=
  p = AS_PREDICATE_EQUAL ∧
    ((∃ n, value = .num n ∧ d = AS_INDEX_NUMERIC ∧ v = .integer n.toInt64) ∨
      (∃ s, value = .str s ∧ d = AS_INDEX_STRING ∧ v = .string (nativeStr s)) ∨
      ∃ bs, value = .buffer bs ∧ d = AS_INDEX_BLOB ∧ v = .bytes bs)

/-- Those for a region or a point. -/
def NativeGeo (value : Except JsError JsValue) (p d : Int32) (v : PredicateValue) : Prop :=
  p = AS_PREDICATE_RANGE ∧ d = AS_INDEX_GEO2DSPHERE ∧ ∃ s, value = .ok (.str s) ∧ v = .string (nativeStr s)

/-- Those for a call. -/
def Native : FilterCall → Int32 → Int32 → PredicateValue → Prop
  | range _ min max _ _, p, d, v => p = AS_PREDICATE_RANGE ∧ d = AS_INDEX_NUMERIC ∧
    ∃ n m, min = .num n ∧ max = .num m ∧ v = .range n.toInt64 m.toInt64
  | equal _ value, p, d, v | contains _ value _ _, p, d, v => NativeEqual value p d v
  | geoWithinGeoJSONRegion _ value _ _, p, d, v | geoContainsGeoJSONPoint _ value _ _, p, d, v =>
    NativeGeo (geoValue stringify value) p d v
  | geoWithinRadius _ lon lat radius _ _, p, d, v => NativeGeo (circle stringify lon lat radius) p d v
  | geoContainsPoint _ lon lat _ _, p, d, v => NativeGeo (point stringify lon lat) p d v

/-- The property `type` of a filter. -/
def typeOfIndex (indexType : JsValue) : JsValue := if indexType.truthy then indexType else .int AS_INDEX_TYPE_DEFAULT

end

/-! ### One filter -/

section
variable {X : Type} {D : PolicyDefaults} {compile : List ExpEntry → Option X}
  {stringify : JsValue → Except JsError (Option JsString)}
  {c : FilterCall} {f : JsValue} {ctx : Option (List CtxItem)} {es : List (AsPredicate X)} {w : WhereClause X}
  {p d t : Int32} {v : PredicateValue}

/-- The context of the query at a filter that has this one. -/
def contextAt [Platform] (ctx : Option (List CtxItem)) (own : JsValue) : Except Thrown (Option (List CtxItem)) :=
  match ctx with
  | some path => .ok (some path)
  | none => orThrow .typeError (contextOfJs own)

/-- What follows in an iteration of the loop. -/
def addPredicate [Platform] (filter : JsValue) (path : Option (List CtxItem)) (es : List (AsPredicate X))
    (name : FilterName X) : Except Thrown (WhereClause X) := do
  let predicate ← orThrow .error (CtxItem.toInt (filter.field "predicate"))
  let type ← orThrow .error (CtxItem.toInt (filter.field "type"))
  let datatype ← orThrow .error (CtxItem.toInt (filter.field "datatype"))
  match ← predicateValue filter predicate datatype with
  | none => return ⟨path, name.expAfter none, es⟩
  | some value =>
    let (target, ctx) ← name.target none path
    return ⟨path, name.expAfter none, es ++ [⟨target, predicate, type, datatype, value, ctx⟩]⟩

theorem toInt_int [Platform] (i : Int32) : CtxItem.toInt (.int i) = .ok i := by
  rw [CtxItem.toInt, JsValue.int, JsValue.toDouble]
  exact congrArg Except.ok (JsNumber.toInt32_ofInt32 i)

/-- An iteration of the loop over a filter of the builders; its properties other than the common ones are
neither an expression nor the name of an index. -/
theorem addFilter_sindex [Platform] {bin indexType own : JsValue} {props : Props}
    (hexp : props.get (JsString.lit "exp") = .undefined) (hname : props.get (JsString.lit "indexName") = .undefined) :
    addFilter D compile ⟨ctx, none, es⟩ (sindexFilterPredicate p bin d indexType own props) = .ok w ↔
      ∃ s t path, bin = .str s ∧ CtxItem.toInt (typeOfIndex indexType) = .ok t ∧ contextAt ctx own = .ok path ∧
        ∃ value, predicateValue (sindexFilterPredicate p bin d indexType own props) p d = .ok value ∧
          w = ⟨path, none, es ++
            (value.map fun v => (⟨.bin (nativeStr s), p, t, d, v, path⟩ : AsPredicate X)).toList⟩ := by
  have h1 : (sindexFilterPredicate p bin d indexType own props).field "exp" = .undefined := hexp
  have h2 : (sindexFilterPredicate p bin d indexType own props).field "indexName" = .undefined := hname
  have h3 : (sindexFilterPredicate p bin d indexType own props).field "bin" = bin := rfl
  have hpredicate : CtxItem.toInt ((sindexFilterPredicate p bin d indexType own props).field "predicate") = .ok p :=
    toInt_int p
  have hdatatype : CtxItem.toInt ((sindexFilterPredicate p bin d indexType own props).field "datatype") = .ok d :=
    toInt_int d
  have htype : (sindexFilterPredicate p bin d indexType own props).field "type" = typeOfIndex indexType := rfl
  have hadd : addFilter D compile ⟨ctx, none, es⟩ (sindexFilterPredicate p bin d indexType own props) =
      (contextAt ctx own).bind fun path =>
        (filterName D compile (sindexFilterPredicate p bin d indexType own props)).bind fun name =>
          addPredicate (sindexFilterPredicate p bin d indexType own props) path es name := by
    cases ctx <;> rfl
  rw [hadd, filterName, h1, h2, h3]
  cases hpath : contextAt ctx own with
  | error e => simp [Except.bind]
  | ok path =>
    cases bin with
    | str s =>
      rw [Except.bind, Except.bind, addPredicate, hpredicate, hdatatype, htype]
      cases ht : CtxItem.toInt (typeOfIndex indexType) with
      | error e => cases e <;> simp [orThrow, bind, Except.bind]
      | ok t =>
        cases hv : predicateValue (sindexFilterPredicate p (.str s) d indexType own props) p d with
        | error e => simp [orThrow, bind, Except.bind, hv]
        | ok value =>
          cases value with
          | none => simp [orThrow, bind, Except.bind, hv, FilterName.expAfter, pure, Except.pure, eq_comm]
          | some v =>
            simp [orThrow, bind, Except.bind, hv, FilterName.expAfter, FilterName.target, pure, Except.pure, eq_comm]
    | _ => simp [Except.bind]

theorem predicateValue_range {bin min max indexType own : JsValue} {x : Option PredicateValue} :
    predicateValue (rangePredicate bin min max AS_INDEX_NUMERIC indexType own) AS_PREDICATE_RANGE AS_INDEX_NUMERIC =
      .ok x ↔ ∃ n m, min = .num n ∧ max = .num m ∧ x = some (.range n.toInt64 m.toInt64) := by
  have hmin : (rangePredicate bin min max AS_INDEX_NUMERIC indexType own).field "min" = min := rfl
  have hmax : (rangePredicate bin min max AS_INDEX_NUMERIC indexType own).field "max" = max := rfl
  rw [predicateValue, if_pos rfl, if_pos rfl, hmin, hmax]
  cases min <;> cases max <;> simp [eq_comm]

theorem predicateValue_geo {bin value indexType own : JsValue} {x : Option PredicateValue} :
    predicateValue (geoPredicate bin value indexType own) AS_PREDICATE_RANGE AS_INDEX_GEO2DSPHERE = .ok x ↔
      ∃ s, value = .str s ∧ x = some (.string (nativeStr s)) := by
  have hval : (geoPredicate bin value indexType own).field "val" = value := rfl
  have hne : ¬AS_INDEX_GEO2DSPHERE = AS_INDEX_NUMERIC := by decide
  rw [predicateValue, if_pos rfl, if_neg hne, if_pos rfl, hval]
  cases value <;> simp [eq_comm]

theorem predicateValue_equal {bin value indexType own : JsValue} {x : Option PredicateValue}
    (hd : dataTypeOf value = .ok d) :
    predicateValue (equalPredicate bin value d indexType own) AS_PREDICATE_EQUAL d = .ok x ↔
      ∃ v, x = some v ∧ ((∃ n, value = .num n ∧ d = AS_INDEX_NUMERIC ∧ v = .integer n.toInt64) ∨
        (∃ s, value = .str s ∧ d = AS_INDEX_STRING ∧ v = .string (nativeStr s)) ∨
        ∃ bs, value = .buffer bs ∧ d = AS_INDEX_BLOB ∧ v = .bytes bs) := by
  have hval : (equalPredicate bin value d indexType own).field "val" = value := rfl
  have hne : ¬AS_PREDICATE_EQUAL = AS_PREDICATE_RANGE := by decide
  rw [predicateValue, if_neg hne, if_pos rfl, hval]
  cases value with
  | str s =>
    obtain rfl := Except.ok.inj hd
    simp [AS_INDEX_STRING, AS_INDEX_NUMERIC, eq_comm]
  | num n =>
    obtain rfl := Except.ok.inj hd
    simp [eq_comm]
  | buffer bs =>
    obtain rfl := Except.ok.inj hd
    simp [AS_INDEX_STRING, AS_INDEX_NUMERIC, AS_INDEX_BLOB, eq_comm]
  | obj cls ps =>
    -- a `Double` gets the datatype of numbers and a `String` that of strings, but neither is one
    have hd' : d = AS_INDEX_STRING ∨ d = AS_INDEX_NUMERIC := by
      simp only [dataTypeOf] at hd
      split_ifs at hd
      · exact .inl (Except.ok.inj hd).symm
      · exact .inr (Except.ok.inj hd).symm
    rcases hd' with rfl | rfl <;> simp [AS_INDEX_STRING, AS_INDEX_NUMERIC]
  | _ => cases hd

/-- The filter of a call, and the values that are read from it. -/
theorem exists_sindex (hf : c.filter stringify = .ok f) : ∃ p d props,
    f = sindexFilterPredicate p c.bin d c.indexType c.context props ∧
    props.get (JsString.lit "exp") = .undefined ∧ props.get (JsString.lit "indexName") = .undefined ∧
    (∀ x, predicateValue f p d = .ok x ↔ ∃ v, x = some v ∧ c.Native stringify p d v) ∧
    ∀ p' d' v, c.Native stringify p' d' v → p' = p ∧ d' = d := by
  have hequal : ∀ {bin value indexType own : JsValue} {f : JsValue},
      (dataTypeOf value).map (fun t => equalPredicate bin value t indexType own) = .ok f → ∃ p d props,
        f = sindexFilterPredicate p bin d indexType own props ∧
        props.get (JsString.lit "exp") = .undefined ∧ props.get (JsString.lit "indexName") = .undefined ∧
        (∀ x, predicateValue f p d = .ok x ↔ ∃ v, x = some v ∧ NativeEqual value p d v) ∧
        ∀ p' d' v, NativeEqual value p' d' v → p' = p ∧ d' = d := by
    intro bin value indexType own f hf
    obtain ⟨d, hd, rfl⟩ := Except.map_eq_ok.1 hf
    refine ⟨_, _, _, rfl, rfl, rfl, fun x => ?_, ?_⟩
    · rw [predicateValue_equal hd]
      simp [NativeEqual]
    · rintro p' d' v ⟨rfl, h⟩
      refine ⟨rfl, ?_⟩
      rcases h with ⟨n, rfl, rfl, -⟩ | ⟨s, rfl, rfl, -⟩ | ⟨bs, rfl, rfl, -⟩ <;> exact Except.ok.inj hd
  have hgeo : ∀ {value : Except JsError JsValue} {bin indexType own : JsValue} {f : JsValue},
      value.map (fun v => geoPredicate bin v indexType own) = .ok f →
      ∃ p d props, f = sindexFilterPredicate p bin d indexType own props ∧
        props.get (JsString.lit "exp") = .undefined ∧ props.get (JsString.lit "indexName") = .undefined ∧
        (∀ x, predicateValue f p d = .ok x ↔ ∃ v, x = some v ∧ NativeGeo value p d v) ∧
        ∀ p' d' v, NativeGeo value p' d' v → p' = p ∧ d' = d := by
    intro value bin indexType own f hf
    obtain ⟨value, rfl, rfl⟩ := Except.map_eq_ok.1 hf
    refine ⟨_, _, _, rfl, rfl, rfl, fun x => ?_, fun p' d' v h => ⟨h.1, h.2.1⟩⟩
    rw [predicateValue_geo]
    constructor
    · rintro ⟨s, rfl, rfl⟩
      exact ⟨_, rfl, rfl, rfl, s, rfl, rfl⟩
    · rintro ⟨v, rfl, -, -, s, hs, rfl⟩
      exact ⟨s, Except.ok.inj hs, rfl⟩
  cases c with
  | range bin min max indexType context =>
    obtain rfl := Except.ok.inj hf
    refine ⟨_, _, _, rfl, rfl, rfl, fun x => ?_, fun p' d' v h => ⟨h.1, h.2.1⟩⟩
    rw [predicateValue_range]
    constructor
    · rintro ⟨n, m, rfl, rfl, rfl⟩
      exact ⟨_, rfl, rfl, rfl, n, m, rfl, rfl, rfl⟩
    · rintro ⟨v, rfl, -, -, n, m, rfl, rfl, rfl⟩
      exact ⟨n, m, rfl, rfl, rfl⟩
  | equal bin value => exact hequal hf
  | contains bin value indexType context => exact hequal hf
  | geoWithinGeoJSONRegion bin value indexType context => exact hgeo hf
  | geoContainsGeoJSONPoint bin value indexType context => exact hgeo hf
  | geoWithinRadius bin lon lat radius indexType context => exact hgeo hf
  | geoContainsPoint bin lon lat indexType context => exact hgeo hf

/-- An iteration of the loop over the filter of a call. -/
theorem addFilter_call [Platform] (hf : c.filter stringify = .ok f) :
    addFilter D compile ⟨ctx, none, es⟩ f = .ok w ↔
      ∃ s t path p d v, c.bin = .str s ∧ CtxItem.toInt (typeOfIndex c.indexType) = .ok t ∧
        contextAt ctx c.context = .ok path ∧ c.Native stringify p d v ∧
        w = ⟨path, none, es ++ [⟨.bin (nativeStr s), p, t, d, v, path⟩]⟩ := by
  obtain ⟨p, d, props, rfl, hexp, hname, hvalue, hunique⟩ := exists_sindex hf
  rw [addFilter_sindex hexp hname]
  constructor
  · rintro ⟨s, t, path, hbin, ht, hpath, x, hx, rfl⟩
    obtain ⟨v, rfl, hv⟩ := (hvalue x).1 hx
    exact ⟨s, t, path, p, d, v, hbin, ht, hpath, hv, rfl⟩
  · rintro ⟨s, t, path, p', d', v, hbin, ht, hpath, hv, rfl⟩
    obtain ⟨rfl, rfl⟩ := hunique p' d' v hv
    exact ⟨s, t, path, hbin, ht, hpath, some v, (hvalue _).2 ⟨v, rfl, hv⟩, rfl⟩

theorem int64Exact_num {n : JsNumber} : Int64Exact (.num n) ↔ n.Is n.toInt64.toInt := by
  rw [JsNumber.is_toInt64]
  constructor
  · rintro ⟨m, i, hm, hi⟩
    obtain rfl := JsValue.num.inj hm
    exact ⟨i, hi⟩
  · rintro ⟨i, hi⟩
    exact ⟨n, i, rfl, hi⟩

theorem textExact_str {s : JsString} : TextExact (.str s) ↔ JsString.decode (nativeStr s) = s := by
  rw [decode_nativeStr]
  constructor
  · rintro ⟨s', heq, hs⟩
    obtain rfl := JsValue.str.inj heq
    exact hs
  · exact fun hs => ⟨s, rfl, hs⟩

theorem regionExact_text {s : JsString} : RegionExact (.ok (.str s)) ↔ JsString.decode (nativeStr s) = s := by
  rw [← textExact_str]
  simp [RegionExact, TextExact]

/-- The value that is read for a call is the one the call is given, if it is passed on as it is. -/
theorem meaning_asks_iff {target : PredicateTarget X} {path : Option (List CtxItem)} (hv : c.Native stringify p d v) :
    (∃ P, (⟨target, p, t, d, v, path⟩ : AsPredicate X).meaning = some P ∧ c.Asks stringify P) ↔
      c.ValueExact stringify := by
  have hne : ¬AS_PREDICATE_EQUAL = AS_PREDICATE_RANGE := by decide
  have hequal : ∀ {value : JsValue}, NativeEqual value p d v →
      ((∃ P, (⟨target, p, t, d, v, path⟩ : AsPredicate X).meaning = some P ∧ AsksValue value P) ↔
        Int64Exact value ∨ TextExact value ∨ ∃ bs, value = .buffer bs) := by
    rintro value ⟨rfl, ⟨n, rfl, rfl, rfl⟩ | ⟨s, rfl, rfl, rfl⟩ | ⟨bs, rfl, rfl, rfl⟩⟩
    · simp [AsPredicate.meaning, hne, AsksValue, IsNumber, int64Exact_num, TextExact]
    · simp [AsPredicate.meaning, hne, AsksValue, textExact_str, Int64Exact, eq_comm]
    · simp [AsPredicate.meaning, hne, AsksValue]
  have hgeo : ∀ {value : Except JsError JsValue}, NativeGeo value p d v →
      ((∃ P, (⟨target, p, t, d, v, path⟩ : AsPredicate X).meaning = some P ∧ AsksRegion value P) ↔
        RegionExact value) := by
    rintro value ⟨rfl, rfl, s, rfl, rfl⟩
    simp [AsPredicate.meaning, AsksRegion, regionExact_text, eq_comm]
  cases c with
  | range bin min max indexType context =>
    obtain ⟨rfl, rfl, n, m, rfl, rfl, rfl⟩ := hv
    simp [AsPredicate.meaning, Asks, AsksRange, IsNumber, ValueExact, int64Exact_num]
  | equal bin value => exact hequal hv
  | contains bin value indexType context => exact hequal hv
  | geoWithinGeoJSONRegion bin value indexType context => exact hgeo hv
  | geoContainsGeoJSONPoint bin value indexType context => exact hgeo hv
  | geoWithinRadius bin lon lat radius indexType context => exact hgeo hv
  | geoContainsPoint bin lon lat indexType context => exact hgeo hv

theorem hasType_iff [Platform] (ht : CtxItem.toInt (typeOfIndex c.indexType) = .ok t) :
    c.HasType t ↔
      (c.indexType.truthy = true → ∃ n, ∃ t : Int32, c.indexType.toDouble = .ok n ∧ n.Is t.toInt) := by
  rw [HasType]
  rw [typeOfIndex] at ht
  split_ifs at ht ⊢ with htruthy
  · simp only [htruthy, forall_const]
    refine exists_congr fun n => ?_
    constructor
    · rintro ⟨hn, hi⟩
      exact ⟨t, hn, hi⟩
    · rintro ⟨i, hn, hi⟩
      rw [CtxItem.toInt, hn] at ht
      obtain rfl : n.toInt32 = t := Except.ok.inj ht
      exact ⟨hn, JsNumber.is_toInt32.2 ⟨i, hi⟩⟩
  · rw [toInt_int] at ht
    exact iff_of_true (Except.ok.inj ht).symm (fun h => absurd h htruthy)

/-- What the predicate of a call says is what the call asks if everything is passed on as it is. -/
theorem says_iff [Platform] {s : JsString} {path : Option (List CtxItem)} (hbin : c.bin = .str s)
    (ht : CtxItem.toInt (typeOfIndex c.indexType) = .ok t) (hv : c.Native stringify p d v) :
    (⟨.bin (nativeStr s), p, t, d, v, path⟩ : AsPredicate X).Says stringify c ↔
      c.Exact stringify ∧ contextOfJs c.context = .ok path := by
  have hasks : (∃ P, (⟨.bin (nativeStr s), p, t, d, v, path⟩ : AsPredicate X).meaning = some P ∧
      c.Asks stringify P) ↔ c.ValueExact stringify := meaning_asks_iff hv
  have htype := hasType_iff ht
  constructor
  · rintro ⟨⟨b, htarget, hb⟩, h, h', hpath⟩
    obtain rfl := PredicateTarget.bin.inj htarget
    refine ⟨⟨?_, hasks.1 h, htype.1 h', path, hpath⟩, hpath⟩
    rw [hbin] at hb ⊢
    exact textExact_str.2 (JsValue.str.inj hb).symm
  · rintro ⟨⟨hb, hval, hty, -⟩, hpath⟩
    refine ⟨⟨_, rfl, ?_⟩, hasks.2 hval, htype.2 hty, hpath⟩
    rw [hbin] at hb ⊢
    rw [textExact_str.1 hb]

/-! ### All filters -/

/-- The call gives no context, or that which the query has already. -/
def Fits [Platform] (ctx : Option (List CtxItem)) (c : FilterCall) : Prop :=
  ∀ path, ctx = some path → contextOfJs c.context = .ok (some path)

/-- The filter of a call whose context fits is read with its own context. -/
theorem contextAt_eq [Platform] {path : Option (List CtxItem)} (hpath : contextOfJs c.context = .ok path) :
    contextAt ctx c.context = .ok path ↔ c.Fits ctx := by
  cases ctx with
  | none => simp [contextAt, orThrow, hpath, Fits]
  | some path' => simp [contextAt, hpath, Fits, eq_comm]

theorem exists_filter [Platform] (hc : c.Exact stringify) : ∃ f, c.filter stringify = .ok f := by
  have hequal : ∀ {bin value indexType own : JsValue}, Int64Exact value ∨ TextExact value ∨ (∃ bs, value = .buffer bs) →
      ∃ f, (dataTypeOf value).map (fun t => equalPredicate bin value t indexType own) = .ok f := by
    rintro bin value indexType own (⟨n, i, rfl, -⟩ | ⟨s, rfl, -⟩ | ⟨bs, rfl⟩)
    · exact ⟨_, rfl⟩
    · exact ⟨_, rfl⟩
    · exact ⟨_, rfl⟩
  have hgeo : ∀ {value : Except JsError JsValue} {bin indexType own : JsValue}, RegionExact value →
      ∃ f, value.map (fun v => geoPredicate bin v indexType own) = .ok f := by
    rintro value bin indexType own ⟨s, rfl, -⟩
    exact ⟨_, rfl⟩
  cases c with
  | range bin min max indexType context => exact ⟨_, rfl⟩
  | equal bin value => exact hequal hc.value
  | contains bin value indexType context => exact hequal hc.value
  | geoWithinGeoJSONRegion bin value indexType context => exact hgeo hc.value
  | geoContainsGeoJSONPoint bin value indexType context => exact hgeo hc.value
  | geoWithinRadius bin lon lat radius indexType context => exact hgeo hc.value
  | geoContainsPoint bin lon lat indexType context => exact hgeo hc.value

/-- A call that is exact is read. -/
theorem exists_native [Platform] (hc : c.Exact stringify) : ∃ s t p d v, c.bin = .str s ∧
    CtxItem.toInt (typeOfIndex c.indexType) = .ok t ∧ c.Native stringify p d v := by
  obtain ⟨s, hbin, -⟩ := hc.bin
  have htype : ∃ t, CtxItem.toInt (typeOfIndex c.indexType) = .ok t := by
    rw [typeOfIndex]
    split_ifs with h
    · obtain ⟨n, t, hn, -⟩ := hc.type h
      exact ⟨n.toInt32, by rw [CtxItem.toInt, hn]; rfl⟩
    · exact ⟨_, toInt_int _⟩
  obtain ⟨t, ht⟩ := htype
  have hnative : ∃ p d v, c.Native stringify p d v := by
    have hequal : ∀ {value : JsValue}, Int64Exact value ∨ TextExact value ∨ (∃ bs, value = .buffer bs) →
        ∃ p d v, NativeEqual value p d v := by
      rintro value (⟨n, i, rfl, -⟩ | ⟨s, rfl, -⟩ | ⟨bs, rfl⟩)
      · exact ⟨_, _, _, rfl, .inl ⟨n, rfl, rfl, rfl⟩⟩
      · exact ⟨_, _, _, rfl, .inr (.inl ⟨s, rfl, rfl, rfl⟩)⟩
      · exact ⟨_, _, _, rfl, .inr (.inr ⟨bs, rfl, rfl, rfl⟩)⟩
    have hgeo : ∀ {value : Except JsError JsValue}, RegionExact value → ∃ p d v, NativeGeo value p d v := by
      rintro value ⟨s, rfl, -⟩
      exact ⟨_, _, _, rfl, rfl, s, rfl, rfl⟩
    have hval := hc.value
    cases c with
    | range bin min max indexType context =>
      obtain ⟨⟨n, i, rfl, -⟩, m, j, rfl, -⟩ := hval
      exact ⟨_, _, _, rfl, rfl, n, m, rfl, rfl, rfl⟩
    | equal bin value => exact hequal hval
    | contains bin value indexType context => exact hequal hval
    | geoWithinGeoJSONRegion bin value indexType context => exact hgeo hval
    | geoContainsGeoJSONPoint bin value indexType context => exact hgeo hval
    | geoWithinRadius bin lon lat radius indexType context => exact hgeo hval
    | geoContainsPoint bin lon lat indexType context => exact hgeo hval
  obtain ⟨p, d, v, hv⟩ := hnative
  exact ⟨s, t, p, d, v, hbin, ht, hv⟩

theorem fits_iff [Platform] {c' : FilterCall} {path : Option (List CtxItem)}
    (hpath : contextOfJs c.context = .ok path) :
    c'.Fits path ↔ SameContext c c' := by
  simp [Fits, SameContext, hpath]

theorem exists_entries [Platform] {calls : List FilterCall} {filters : List JsValue}
    (hf : List.Forall₂ (fun c f => c.filter stringify = .ok f) calls filters)
    (hw : filters.foldlM (addFilter D compile) ⟨ctx, none, es⟩ = .ok w) : ∃ ps, w.entries = es ++ ps := by
  induction hf generalizing ctx es with
  | nil =>
    obtain rfl := Except.ok.inj hw
    exact ⟨[], (List.append_nil es).symm⟩
  | cons hcf _ ih =>
    obtain ⟨w₁, hw₁, hw⟩ := Except.bind_eq_ok.1 (List.foldlM_cons.symm.trans hw)
    obtain ⟨s, t, path, p, d, v, -, -, -, -, rfl⟩ := (addFilter_call hcf).1 hw₁
    obtain ⟨ps, hps⟩ := ih hw
    exact ⟨_ :: ps, by rw [hps, List.append_assoc]; rfl⟩

/-- The loop over the filters of some calls, when the predicates `es` are there already. -/
theorem foldlM_addFilter_says_iff [Platform] {calls : List FilterCall} {filters : List JsValue}
    (hf : List.Forall₂ (fun c f => c.filter stringify = .ok f) calls filters) :
    (∃ w ps, filters.foldlM (addFilter D compile) ⟨ctx, none, es⟩ = .ok w ∧ w.entries = es ++ ps ∧
      List.Forall₂ (AsPredicate.Says stringify) calls ps) ↔
    (∀ c ∈ calls, c.Exact stringify) ∧ (∀ c ∈ calls, c.Fits ctx) ∧ calls.Pairwise SameContext := by
  induction hf generalizing ctx es with
  | nil => simpa using ⟨_, rfl, by simp⟩
  | @cons c f calls filters hcf hrest ih =>
    simp only [List.forall_mem_cons, List.pairwise_cons]
    constructor
    · rintro ⟨w, _, hw, hps, hsays⟩
      rcases hsays with _ | @⟨_, q, _, qs, hq, hqs⟩
      obtain ⟨w₁, hw₁, hw⟩ := Except.bind_eq_ok.1 (List.foldlM_cons.symm.trans hw)
      obtain ⟨s, t, path, p, d, v, hbin, ht, hpath, hv, rfl⟩ := (addFilter_call hcf).1 hw₁
      obtain ⟨ps, hentries⟩ := exists_entries hrest hw
      have heq : q :: qs = ⟨.bin (nativeStr s), p, t, d, v, path⟩ :: ps := by
        rw [hps, List.append_assoc] at hentries
        exact List.append_cancel_left hentries
      obtain ⟨rfl, rfl⟩ := List.cons.inj heq
      obtain ⟨hexact, hown⟩ := (says_iff hbin ht hv).1 hq
      obtain ⟨hall, hfits, hpair⟩ := ih.1 ⟨w, qs, hw, hentries, hqs⟩
      have hc := (contextAt_eq hown).1 hpath
      have hsame : ∀ c' ∈ calls, SameContext c c' := fun c' hc' => (fits_iff hown).1 (hfits c' hc')
      exact ⟨⟨hexact, hall⟩, ⟨hc, fun c' hc' path' h => hsame c' hc' path' (hc path' h)⟩, hsame, hpair⟩
    · rintro ⟨⟨hexact, hall⟩, ⟨hc, -⟩, hsame, hpair⟩
      obtain ⟨path, hown⟩ := hexact.context
      obtain ⟨s, t, p, d, v, hbin, ht, hv⟩ := exists_native hexact
      have hadd : addFilter D compile ⟨ctx, none, es⟩ f =
          .ok ⟨path, none, es ++ [⟨.bin (nativeStr s), p, t, d, v, path⟩]⟩ :=
        (addFilter_call hcf).2 ⟨s, t, path, p, d, v, hbin, ht, (contextAt_eq hown).2 hc, hv, rfl⟩
      obtain ⟨w, ps, hw, hps, hsays⟩ := ih.2 ⟨hall, fun c' hc' => (fits_iff hown).2 (hsame c' hc'), hpair⟩
      refine ⟨w, _ :: ps, ?_, ?_, .cons ((says_iff hbin ht hv).2 ⟨hexact, hown⟩) hsays⟩
      · rw [List.foldlM_cons, hadd]
        exact hw
      · rw [hps, List.append_assoc]
        rfl

/-- A query that is given the filters of the calls looks for what the calls ask exactly if everything that the
calls are given is passed on as it is and the calls after one with a context have the same context. -/
theorem setupWhere_says_iff [Platform] {X : Type} (D : PolicyDefaults) (compile : List ExpEntry → Option X)
    (stringify : JsValue → Except JsError (Option JsString)) (calls : List FilterCall) :
    (∃ filters w, List.Forall₂ (fun c f => c.filter stringify = .ok f) calls filters ∧
      setupWhere D compile none filters = .ok w ∧ List.Forall₂ (AsPredicate.Says stringify) calls w.entries) ↔
    (∀ c ∈ calls, c.Exact stringify) ∧ calls.Pairwise SameContext := by
  have hnone : ∀ c ∈ calls, c.Fits none := fun c _ path h => nomatch h
  constructor
  · rintro ⟨filters, w, hf, hw, hsays⟩
    obtain ⟨hexact, -, hpair⟩ := (foldlM_addFilter_says_iff hf).1 ⟨w, w.entries, hw, rfl, hsays⟩
    exact ⟨hexact, hpair⟩
  · rintro ⟨hexact, hpair⟩
    obtain ⟨filters, hf⟩ : ∃ filters, List.Forall₂ (fun c f => c.filter stringify = .ok f) calls filters := by
      clear hpair hnone
      induction calls with
      | nil => exact ⟨[], .nil⟩
      | cons c calls ih =>
        obtain ⟨hc, hcalls⟩ := List.forall_mem_cons.1 hexact
        obtain ⟨f, hf⟩ := exists_filter hc
        obtain ⟨filters, hfs⟩ := ih hcalls
        exact ⟨f :: filters, .cons hf hfs⟩
    obtain ⟨w, ps, hw, hps, hsays⟩ : ∃ w ps, filters.foldlM (addFilter D compile) ⟨none, none, []⟩ = .ok w ∧
        w.entries = [] ++ ps ∧ List.Forall₂ (AsPredicate.Says stringify) calls ps :=
      (foldlM_addFilter_says_iff hf).2 ⟨hexact, hnone, hpair⟩
    rw [List.nil_append] at hps
    exact ⟨filters, w, hf, hw, hps ▸ hsays⟩

end

end FilterCall

end AerospikeNode
