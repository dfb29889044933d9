import AerospikeNode.Js.Num
import AerospikeNode.Js.Str

/-!
# JavaScript values

The values a caller can hand to the client. An object keeps the name of its constructor (the native
code tells its own wrapper classes by that name) and its own enumerable properties in order.
-/

namespace AerospikeNode

/-- The wrapper classes of the client: `lib/bin.js`, `lib/double.js`, `lib/geojson.js`. -/
inductive Wrapper where
  | bin
  | double
  | geojson
deriving DecidableEq, Repr

/-- The class of an object: the name of its constructor, and whether that is one of the client's
own wrapper classes. -/
structure JsClass where
  ctor : JsString
  wrapper : Option Wrapper
deriving DecidableEq

inductive JsValue where
  | undefined
  | null
  | bool (b : Bool)
  | str (s : JsString)
  | num (n : JsNumber)
  | bigint (i : ℤ)
  | symbol
  | func
  | buffer (bs : Bytes)
  | array (xs : List JsValue)
  | map (es : List (JsValue × JsValue))
  | obj (cls : JsClass) (props : List (JsString × JsValue))

/-- The own properties of an object, in order. -/
abbrev Props := List (JsString × JsValue)

/-- Reading a property; a missing one is `undefined`. -/
def Props.get (ps : Props) (name : JsString) : JsValue :=
  ((ps.find? fun p => p.1 == name).map (·.2)).getD .undefined

namespace JsValue

/-- `value->IsObject()` -/
def isObject : JsValue → Bool
  | func | buffer _ | array _ | map _ | obj _ _ => true
  | _ => false

/-- `value->IsUndefined() || value->IsNull()` -/
def isNullish : JsValue → Bool
  | undefined | null => true
  | _ => false

def truthy : JsValue → Bool
  | undefined | null => false
  | bool b => b
  | str s => !s.isEmpty
  | num n => n.truthy
  | bigint i => i ≠ 0
  | _ => true

/-- Reading a named property. The names the client reads are no own properties of functions,
buffers, arrays and Maps. -/
def get : JsValue → JsString → JsValue
  | obj _ ps, name => Props.get ps name
  | _, _ => undefined

/-- The class of a plain object. -/
def plainClass : JsClass := ⟨JsString.lit "Object", none⟩

abbrev plain (ps : Props) : JsValue := obj plainClass ps

def int (i : Int32) : JsValue := num (.ofInt32 i)

/-- The own properties of an array; a buffer is one of its bytes. -/
def indexed (xs : List JsValue) : Props :=
  xs.mapIdx fun i x => (JsString.ofChars (Nat.toDigits 10 i), x)

def byte (b : UInt8) : JsValue := int (Int32.ofNat b.toNat)

end JsValue

namespace Props
variable {ps : Props} {name name' : JsString} {v : JsValue}

@[simp] theorem get_nil : Props.get [] name = .undefined := rfl

@[simp] theorem get_cons_self : Props.get ((name, v) :: ps) name = v := by
  simp [Props.get]

theorem get_cons_ne (h : name' ≠ name) : Props.get ((name', v) :: ps) name = Props.get ps name := by
  simp [Props.get, h]

end Props

end AerospikeNode
