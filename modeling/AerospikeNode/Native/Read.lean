import AerospikeNode.Native.AsVal

/-!
# Reading a property of a JavaScript object

The `get_*_property` functions of `src/main/util/conversions.cc`, each split into reading the
property (`field`) and what is made of its value. An optional property that is `undefined` or
`null` is not defined; any other value of the wrong type is `AS_NODE_PARAM_ERR`.
-/

namespace AerospikeNode

namespace JsValue

/-- `get_int_property` -/
def intProperty : JsValue → Res Int32
  | num n => .ok n.toInt32
  | _ => .error .paramErr

/-- `get_int64_property` -/
def int64Property : JsValue → Res Int64
  | num n => .ok n.toInt64
  | _ => .error .paramErr

/-- `get_uint32_property` -/
def uint32Property : JsValue → Res UInt32
  | num n => .ok n.toUint32
  | _ => .error .paramErr

/-- `get_uint64_property`: `Nan::To<int64_t>` assigned to a `uint64_t`. -/
def uint64Property : JsValue → Res UInt64
  | num n => .ok n.toInt64.toUInt64
  | _ => .error .paramErr

/-- `get_bool_property` -/
def boolProperty : JsValue → Res Bool
  | bool b => .ok b
  | _ => .error .paramErr

/-- `get_float_property` -/
def floatProperty [Platform] : JsValue → Res JsNumber
  | num n => .ok n
  | v => if v.instanceOf DoubleType then v.doubleValue else .error .paramErr

/-- `get_string_property` -/
def stringProperty : JsValue → Res Bytes
  | str s => .ok (nativeStr s)
  | _ => .error .paramErr

/-- `get_bytes_property` -/
def bytesProperty : JsValue → Res Bytes
  | buffer bs => .ok bs
  | _ => .error .paramErr

/-- `get_list_property` -/
def listProperty [Platform] : JsValue → Res (List AsVal)
  | array xs => listFromJsarray xs
  | _ => .error .paramErr

/-- `get_asval_property` -/
def asvalProperty [Platform] : JsValue → Res AsVal
  | undefined => .error .paramErr
  | v => asvalFromJsvalue v

/-- `get_optional_asval_property` -/
def optionalAsvalProperty [Platform] : JsValue → Res (Option AsVal)
  | undefined | null => .ok none
  | v => (asvalFromJsvalue v).map some

/-- The `get_optional_*_property` functions over numbers. -/
def optionalNumber {α : Type} (read : JsNumber → α) : JsValue → Res (Option α)
  | num n => .ok (some (read n))
  | undefined | null => .ok none
  | _ => .error .paramErr

/-- `get_optional_int_property` -/
def optionalIntProperty : JsValue → Res (Option Int32) := optionalNumber JsNumber.toInt32

/-- `get_optional_int64_property` -/
def optionalInt64Property : JsValue → Res (Option Int64) := optionalNumber JsNumber.toInt64

/-- `get_optional_uint32_property` -/
def optionalUint32Property : JsValue → Res (Option UInt32) := optionalNumber JsNumber.toUint32

/-- `get_optional_int32_property` -/
def optionalInt32Property : JsValue → Res (Option Int32) := optionalNumber JsNumber.toInt32

/-- `get_optional_uint64_property`: `Nan::To<int64_t>` assigned to a `uint64_t`. -/
def optionalUint64Property : JsValue → Res (Option UInt64) := optionalNumber (·.toInt64.toUInt64)

/-- `get_optional_uint16_property`: `Nan::To<uint32_t>` assigned to a `uint16_t`. -/
def optionalUint16Property : JsValue → Res (Option UInt16) := optionalNumber (·.toUint32.toUInt16)

/-- `get_optional_uint8_property`: `Nan::To<uint32_t>` assigned to a `uint8_t`. -/
def optionalUint8Property : JsValue → Res (Option UInt8) := optionalNumber (·.toUint32.toUInt8)

/-- `setTTL`, by the `ttl` property. -/
def setTTL : JsValue → Res (Option UInt32) := optionalNumber JsNumber.toUint32

/-- `setGeneration`, by the `gen` property. -/
def setGeneration : JsValue → Res (Option UInt16) := optionalNumber (·.toUint32.toUInt16)

/-- `get_optional_bool_property` -/
def optionalBoolProperty : JsValue → Res (Option Bool)
  | bool b => .ok (some b)
  | undefined | null => .ok none
  | _ => .error .paramErr

/-- `As<Object>()`, which V8 does not survive of a value that is no object. -/
def asObject (v : JsValue) : Res JsValue := if v.isObject then .ok v else .error .abort

/-- `Nan::Get(obj, Nan::New(prop))` -/
def field (obj : JsValue) (prop : String) : JsValue := obj.get (JsString.lit prop)

end JsValue

end AerospikeNode
