import AerospikeNode.Exp.Compile

/-!
# Expression entries as JavaScript objects

`convert_entry` and `compile_expression` (`src/main/expressions.cc`) on whatever array a caller has
put in place of an expression. The value of an entry is read from the first of the properties that
it has. What `as_exp_compile` makes of the entries is left to it: an `as_exp` is kept as the entries.
-/

namespace AerospikeNode

/-- `as_exp_entry`, its operator as the number it is. -/
structure ExpEntry where
  op : Int32
  count : UInt32
  v : EntryVal
deriving DecidableEq

namespace JsValue

/-- `Nan::Has(obj, Nan::New(prop))` -/
def has (obj : JsValue) (prop : String) : Bool :=
  match obj with
  | .obj _ ps => ps.any fun p => p.1 = JsString.lit prop
  | _ => false

end JsValue

section
variable (D : PolicyDefaults)

/-- The value of `convert_entry`. -/
def entryVal [Platform] (obj : JsValue) : Res EntryVal :=
  if obj.has "value" then (obj.field "value").asvalProperty.map .val
  else if obj.has "strVal" then (obj.field "strVal").stringProperty.map .str
  else if obj.has "bytesVal" then (obj.field "bytesVal").bytesProperty.map .bytes
  else if obj.has "intVal" then (obj.field "intVal").int64Property.map .int
  else if obj.has "uintVal" then (obj.field "uintVal").uint64Property.map .uint
  else if obj.has "floatVal" then (obj.field "floatVal").floatProperty.map .float
  else if obj.has "boolVal" then (obj.field "boolVal").boolProperty.map .bool
  else if obj.has "ctx" then (contextOfJs (obj.field "ctx")).map .ctx
  else if obj.has "listPolicy" then
    .ok (.listPol (if (obj.field "listPolicy").isObject then
      some (entryListPolicy D (obj.field "listPolicy")) else none))
  else if obj.has "mapPolicy" then
    .ok (.mapPol (if (obj.field "mapPolicy").isObject then
      some (entryMapPolicy D (obj.field "mapPolicy")) else none))
  else if obj.has "wildcard" then .ok (.val .wildcard)
  else if obj.has "inf" then .ok (.val .inf)
  else .ok .none

/-- `convert_entry` -/
def expEntryOfJs [Platform] (obj : JsValue) : Res ExpEntry := do
  let op ← (obj.field "op").intProperty
  let count ← (obj.field "count").optionalUint32Property
  let _ ← (obj.field "sz").optionalUint32Property
  let v ← entryVal D obj
  return ⟨op, count.getD 0, v⟩

/-- The loop of `compile_expression`. -/
def expOfJsarray [Platform] : List JsValue → Res (List ExpEntry)
  | [] => .ok []
  | x :: xs => do
    let e ← expEntryOfJs D (← x.asObject)
    let es ← expOfJsarray xs
    return e :: es

end

end AerospikeNode
