import AerospikeNode.Lib.Assoc
import AerospikeNode.Ops.Handlers

/-!
# Operation builders

The builders of `lib/operations.js`, `lib/lists.js`, `lib/maps.js`, `lib/bitwise.js` and
`lib/hll.js`, and the methods of the objects they return. An optional parameter that is left out is
`undefined`; `bin` is the first parameter of all builders that have one.
-/

namespace AerospikeNode

inductive OperationClass where
  | operation | listOperation | invertibleListOp | mapOperation | bitwiseOperation
  | overflowableBitwiseOp | hllOperation
deriving DecidableEq

namespace OperationClass

def name : OperationClass → String
  | operation => "Operation"
  | listOperation => "ListOperation"
  | invertibleListOp => "InvertibleListOp"
  | mapOperation => "MapOperation"
  | bitwiseOperation => "BitwiseOperation"
  | overflowableBitwiseOp => "OverflowableBitwiseOp"
  | hllOperation => "HLLOperation"

def hasAndReturn : OperationClass → Bool
  | listOperation | invertibleListOp | mapOperation => true
  | _ => false

def hasWithContext : OperationClass → Bool
  | listOperation | invertibleListOp | mapOperation => true
  | _ => false

def hasWithPolicy : OperationClass → Bool
  | bitwiseOperation | overflowableBitwiseOp | hllOperation => true
  | _ => false

end OperationClass

/-- An operation object: its class and own properties. -/
structure Operation where
  cls : OperationClass
  props : Props

namespace Operation

/-- The constructor of `Operation`. -/
def new (cls : OperationClass) (op : UInt32) (bin : JsValue) (props : List (String × JsValue)) : Operation :=
  ⟨cls, (JsString.lit "op", .int (Int32.ofNat op.toNat)) :: (JsString.lit "bin", bin) ::
    props.map fun p => (JsString.lit p.1, p.2)⟩

def toJs (o : Operation) : JsValue := .obj ⟨JsString.lit o.cls.name, none⟩ o.props

def set (o : Operation) (prop : String) (v : JsValue) : Operation :=
  { o with props := Assoc.set o.props (JsString.lit prop) v }

end Operation

/-! ### The methods -/

/-- An argument of `withContext`: a `CdtContext`, a function and the context it is handed as it
leaves it, or another value. -/
inductive ContextArg where
  | context (ctx : CdtContext)
  | function (filled : CdtContext)
  | other (v : JsValue) (h : v ≠ .func)

/-- `typeof v === 'object'` -/
def JsValue.typeofObject (v : JsValue) : Bool :=
  match v with
  | null => true
  | func => false
  | _ => v.isObject

/-- A call of a method of an operation object. -/
inductive Modifier where
  | andReturn (returnType : JsValue)
  | invertSelection
  | withContext (arg : ContextArg)
  | withPolicy (policy : JsValue)
  | onOverflow (action : JsValue)

namespace Operation

/-- `ListOperation.prototype.withContext`, which throws of anything else, and
`MapOperation.prototype.withContext`, which takes any object and ignores other values. -/
def withContext (o : Operation) : ContextArg → Option Operation
  | .context ctx | .function ctx =>
    if o.cls.hasWithContext then some (o.set "context" ctx.toJs) else none
  | .other v _ =>
    if o.cls = .mapOperation then some (if v.typeofObject then o.set "context" v else o) else none

/-- What a method makes of an object; `none` if it throws, or the class has no such method. -/
def apply (o : Operation) : Modifier → Option Operation
  | .andReturn returnType => if o.cls.hasAndReturn then some (o.set "returnType" returnType) else none
  | .invertSelection => if o.cls = .invertibleListOp then some (o.set "inverted" (.bool true)) else none
  | .withContext arg => o.withContext arg
  | .withPolicy policy => if o.cls.hasWithPolicy then some (o.set "policy" policy) else none
  | .onOverflow action =>
    if o.cls = .overflowableBitwiseOp then some (o.set "overflowAction" action) else none

/-- A chain of method calls. -/
def applyAll (o : Operation) : List Modifier → Option Operation
  | [] => some o
  | m :: ms => (o.apply m).bind fun o => o.applyAll ms

end Operation

/-! ### Scalar operations -/

inductive ScalarBuilder where
  | read (bin : JsValue)
  | write (bin value : JsValue)
  | add (bin value : JsValue)
  | incr (bin value : JsValue)
  | append (bin value : JsValue)
  | prepend (bin value : JsValue)
  | touch (ttl : JsValue)
  | delete

def ScalarBuilder.build [Platform] : ScalarBuilder → Operation
  | read bin => .new .operation (ScalarOp.table.opcode .read) bin []
  | write bin value => .new .operation (ScalarOp.table.opcode .write) bin [("value", value)]
  | add bin value => .new .operation (ScalarOp.table.opcode .incr) bin [("value", value)]
  | incr bin value => .new .operation (ScalarOp.table.opcode .incr) bin [("value", value)]
  | append bin value => .new .operation (ScalarOp.table.opcode .append) bin [("value", value)]
  | prepend bin value => .new .operation (ScalarOp.table.opcode .prepend) bin [("value", value)]
  | touch ttl => .new .operation (ScalarOp.table.opcode .touch) .undefined [("ttl", ttl)]
  | delete => .new .operation (ScalarOp.table.opcode .delete) .undefined []

/-- The value of a parameter that has a default. -/
def JsValue.default (v dflt : JsValue) : JsValue :=
  match v with
  | undefined => dflt
  | v => v

/-- `if (ctx === undefined) return op; return op.withContext(ctx)` -/
def optionalContext : ContextArg → List Modifier
  | .other .undefined _ => []
  | ctx => [.withContext ctx]

/-! ### List operations -/

inductive ListBuilder where
  | setOrder (order : JsValue)
  | sort (flags : JsValue)
  | append (value policy : JsValue)
  | appendItems (list policy : JsValue)
  | insert (index value policy : JsValue)
  | insertItems (index list policy : JsValue)
  | pop (index : JsValue)
  | popRange (index count : JsValue)
  | remove (index : JsValue)
  | removeRange (index count : JsValue)
  | removeByIndex (index returnType : JsValue)
  | removeByIndexRange (index count returnType : JsValue)
  | removeByValue (value returnType : JsValue)
  | removeByValueList (values returnType : JsValue)
  | removeByValueRange (begin_ end_ returnType : JsValue)
  | removeByValueRelRankRange (value rank count returnType : JsValue)
  | removeByRank (rank returnType : JsValue)
  | removeByRankRange (rank count returnType : JsValue)
  | clear
  | create (order pad persistIndex : JsValue) (ctx : ContextArg)
  | set (index value policy : JsValue)
  | trim (index count : JsValue)
  | get (index : JsValue)
  | getRange (index count : JsValue)
  | getByIndex (index returnType : JsValue)
  | getByIndexRange (index count returnType : JsValue)
  | getByValue (value returnType : JsValue)
  | getByValueList (values returnType : JsValue)
  | getByValueRange (begin_ end_ returnType : JsValue)
  | getByValueRelRankRange (value rank count returnType : JsValue)
  | getByRank (rank returnType : JsValue)
  | getByRankRange (rank count returnType : JsValue)
  | increment (index value policy : JsValue)
  | size

/-- `new ListOperation(..)` and `new InvertibleListOp(..)`, which sets `inverted` to false. -/
def newListOperation [Platform] (name : ListOp) (bin : JsValue) (props : List (String × JsValue)) : Operation :=
  .new .listOperation ((ListOp.table .client).opcode name) bin props

def newInvertibleListOp [Platform] (name : ListOp) (bin : JsValue) (props : List (String × JsValue)) : Operation :=
  .new .invertibleListOp ((ListOp.table .client).opcode name) bin (props ++ [("inverted", .bool false)])

namespace ListBuilder

def build [Platform] (bin : JsValue) : ListBuilder → Operation
  | setOrder order => newListOperation .setOrder bin [("order", order)]
  | sort flags => newListOperation .sort bin [("flags", flags)]
  | append value policy => newListOperation .append bin [("value", value), ("policy", policy)]
  | appendItems list policy => newListOperation .appendItems bin [("list", list), ("policy", policy)]
  | insert index value policy =>
    newListOperation .insert bin [("index", index), ("value", value), ("policy", policy)]
  | insertItems index list policy =>
    newListOperation .insertItems bin [("index", index), ("list", list), ("policy", policy)]
  | pop index => newListOperation .pop bin [("index", index)]
  | popRange index count => newListOperation .popRange bin [("index", index), ("count", count)]
  | remove index => newListOperation .remove bin [("index", index)]
  | removeRange index count => newListOperation .removeRange bin [("index", index), ("count", count)]
  | removeByIndex index returnType =>
    newListOperation .removeByIndex bin [("index", index), ("returnType", returnType)]
  | removeByIndexRange index count returnType =>
    newInvertibleListOp .removeByIndexRange bin
      [("index", index), ("count", count), ("returnType", returnType)]
  | removeByValue value returnType =>
    newInvertibleListOp .removeByValue bin [("value", value), ("returnType", returnType)]
  | removeByValueList values returnType =>
    newInvertibleListOp .removeByValueList bin [("values", values), ("returnType", returnType)]
  | removeByValueRange begin_ end_ returnType =>
    newInvertibleListOp .removeByValueRange bin
      [("begin", begin_), ("end", end_), ("returnType", returnType)]
  | removeByValueRelRankRange value rank count returnType =>
    newInvertibleListOp .removeByValueRelRankRange bin
      [("value", value), ("rank", rank), ("count", count), ("returnType", returnType)]
  | removeByRank rank returnType =>
    newListOperation .removeByRank bin [("rank", rank), ("returnType", returnType)]
  | removeByRankRange rank count returnType =>
    newInvertibleListOp .removeByRankRange bin
      [("rank", rank), ("count", count), ("returnType", returnType)]
  | clear => newListOperation .clear bin []
  | create order pad persistIndex _ =>
    newListOperation .create bin [("order", order), ("pad", pad.default (.bool false)),
      ("persistIndex", persistIndex.default (.bool false))]
  | set index value policy =>
    newListOperation .set bin [("index", index), ("value", value), ("policy", policy)]
  | trim index count => newListOperation .trim bin [("index", index), ("count", count)]
  | get index => newListOperation .get bin [("index", index)]
  | getRange index count => newListOperation .getRange bin [("index", index), ("count", count)]
  | getByIndex index returnType =>
    newListOperation .getByIndex bin [("index", index), ("returnType", returnType)]
  | getByIndexRange index count returnType =>
    newInvertibleListOp .getByIndexRange bin
      [("index", index), ("count", count), ("returnType", returnType)]
  | getByValue value returnType =>
    newInvertibleListOp .getByValue bin [("value", value), ("returnType", returnType)]
  | getByValueList values returnType =>
    newInvertibleListOp .getByValueList bin [("values", values), ("returnType", returnType)]
  | getByValueRange begin_ end_ returnType =>
    newInvertibleListOp .getByValueRange bin
      [("begin", begin_), ("end", end_), ("returnType", returnType)]
  | getByValueRelRankRange value rank count returnType =>
    newInvertibleListOp .getByValueRelRankRange bin
      [("value", value), ("rank", rank), ("count", count), ("returnType", returnType)]
  | getByRank rank returnType =>
    newListOperation .getByRank bin [("rank", rank), ("returnType", returnType)]
  | getByRankRange rank count returnType =>
    newInvertibleListOp .getByRankRange bin
      [("rank", rank), ("count", count), ("returnType", returnType)]
  | increment index value policy =>
    newListOperation .increment bin [("index", index), ("value", value), ("policy", policy)]
  | size => newListOperation .size bin []

/-- The methods a builder itself calls. -/
def calls : ListBuilder → List Modifier
  | create _ _ _ ctx => optionalContext ctx
  | _ => []

end ListBuilder

/-! ### Map operations -/

inductive MapBuilder where
  | setPolicy (policy : JsValue)
  | put (key value policy : JsValue)
  | putItems (items policy : JsValue)
  | increment (key incr policy : JsValue)
  | decrement (key decr policy : JsValue)
  | clear
  | removeByKey (key returnType : JsValue)
  | removeByKeyList (keys returnType : JsValue)
  | removeByKeyRange (begin_ end_ returnType : JsValue)
  | removeByKeyRelIndexRange (key index count returnType : JsValue)
  | removeByValue (value returnType : JsValue)
  | removeByValueList (values returnType : JsValue)
  | removeByValueRange (begin_ end_ returnType : JsValue)
  | removeByValueRelRankRange (value rank count returnType : JsValue)
  | removeByIndex (index returnType : JsValue)
  | removeByIndexRange (index count returnType : JsValue)
  | removeByRank (rank returnType : JsValue)
  | removeByRankRange (rank count returnType : JsValue)
  | size
  | getByKey (key returnType : JsValue)
  | getByKeyList (keys returnType : JsValue)
  | getByKeyRange (begin_ end_ returnType : JsValue)
  | getByKeyRelIndexRange (key index count returnType : JsValue)
  | getByValue (value returnType : JsValue)
  | getByValueList (values returnType : JsValue)
  | getByValueRange (begin_ end_ returnType : JsValue)
  | getByValueRelRankRange (value rank count returnType : JsValue)
  | getByIndex (index returnType : JsValue)
  | getByIndexRange (index count returnType : JsValue)
  | getByRank (rank returnType : JsValue)
  | getByRankRange (rank count returnType : JsValue)
  | create (order persistIndex : JsValue) (ctx : ContextArg)

def newMapOperation [Platform] (name : MapOp) (bin : JsValue) (props : List (String × JsValue)) : Operation :=
  .new .mapOperation ((MapOp.table .client).opcode name) bin props

namespace MapBuilder

def build [Platform] (bin : JsValue) : MapBuilder → Operation
  | setPolicy policy => newMapOperation .setPolicy bin [("policy", policy)]
  | put key value policy =>
    newMapOperation .put bin [("key", key), ("value", value), ("policy", policy)]
  | putItems items policy => newMapOperation .putItems bin [("items", items), ("policy", policy)]
  | increment key incr policy =>
    newMapOperation .increment bin [("key", key), ("incr", incr), ("policy", policy)]
  | decrement key decr policy =>
    newMapOperation .decrement bin [("key", key), ("decr", decr), ("policy", policy)]
  | clear => newMapOperation .clear bin []
  | removeByKey key returnType =>
    newMapOperation .removeByKey bin [("key", key), ("returnType", returnType)]
  | removeByKeyList keys returnType =>
    newMapOperation .removeByKeyList bin [("keys", keys), ("returnType", returnType)]
  | removeByKeyRange begin_ end_ returnType =>
    newMapOperation .removeByKeyRange bin [("begin", begin_), ("end", end_), ("returnType", returnType)]
  | removeByKeyRelIndexRange key index count returnType =>
    newMapOperation .removeByKeyRelIndexRange bin
      [("key", key), ("index", index), ("count", count), ("returnType", returnType)]
  | removeByValue value returnType =>
    newMapOperation .removeByValue bin [("value", value), ("returnType", returnType)]
  | removeByValueList values returnType =>
    newMapOperation .removeByValueList bin [("values", values), ("returnType", returnType)]
  | removeByValueRange begin_ end_ returnType =>
    newMapOperation .removeByValueRange bin
      [("begin", begin_), ("end", end_), ("returnType", returnType)]
  | removeByValueRelRankRange value rank count returnType =>
    newMapOperation .removeByValueRelRankRange bin
      [("value", value), ("rank", rank), ("count", count), ("returnType", returnType)]
  | removeByIndex index returnType =>
    newMapOperation .removeByIndex bin [("index", index), ("returnType", returnType)]
  | removeByIndexRange index count returnType =>
    newMapOperation .removeByIndexRange bin
      [("index", index), ("count", count), ("returnType", returnType)]
  | removeByRank rank returnType =>
    newMapOperation .removeByRank bin [("rank", rank), ("returnType", returnType)]
  | removeByRankRange rank count returnType =>
    newMapOperation .removeByRankRange bin
      [("rank", rank), ("count", count), ("returnType", returnType)]
  | size => newMapOperation .size bin []
  | getByKey key returnType =>
    newMapOperation .getByKey bin [("key", key), ("returnType", returnType)]
  | getByKeyList keys returnType =>
    newMapOperation .getByKeyList bin [("keys", keys), ("returnType", returnType)]
  | getByKeyRange begin_ end_ returnType =>
    newMapOperation .getByKeyRange bin [("begin", begin_), ("end", end_), ("returnType", returnType)]
  | getByKeyRelIndexRange key index count returnType =>
    newMapOperation .getByKeyRelIndexRange bin
      [("key", key), ("index", index), ("count", count), ("returnType", returnType)]
  | getByValue value returnType =>
    newMapOperation .getByValue bin [("value", value), ("returnType", returnType)]
  | getByValueList values returnType =>
    newMapOperation .getByValueList bin [("values", values), ("returnType", returnType)]
  | getByValueRange begin_ end_ returnType =>
    newMapOperation .getByValueRange bin
      [("begin", begin_), ("end", end_), ("returnType", returnType)]
  | getByValueRelRankRange value rank count returnType =>
    newMapOperation .getByValueRelRankRange bin
      [("value", value), ("rank", rank), ("count", count), ("returnType", returnType)]
  | getByIndex index returnType =>
    newMapOperation .getByIndex bin [("index", index), ("returnType", returnType)]
  | getByIndexRange index count returnType =>
    newMapOperation .getByIndexRange bin
      [("index", index), ("count", count), ("returnType", returnType)]
  | getByRank rank returnType =>
    newMapOperation .getByRank bin [("rank", rank), ("returnType", returnType)]
  | getByRankRange rank count returnType =>
    newMapOperation .getByRankRange bin
      [("rank", rank), ("count", count), ("returnType", returnType)]
  | create order persistIndex _ =>
    newMapOperation .create bin
      [("order", order), ("persistIndex", persistIndex.default (.bool false))]

/-- The methods a builder itself calls. -/
def calls : MapBuilder → List Modifier
  | create _ _ ctx => optionalContext ctx
  | _ => []

end MapBuilder

/-! ### Bitwise operations -/

inductive BitBuilder where
  | resize (size flags : JsValue)
  | insert (byteOffset value : JsValue)
  | remove (byteOffset byteSize : JsValue)
  | set (bitOffset bitSize value : JsValue)
  | or (bitOffset bitSize value : JsValue)
  | xor (bitOffset bitSize value : JsValue)
  | and (bitOffset bitSize value : JsValue)
  | not (bitOffset bitSize : JsValue)
  | lshift (bitOffset bitSize shift : JsValue)
  | rshift (bitOffset bitSize shift : JsValue)
  | add (bitOffset bitSize value sign : JsValue)
  | subtract (bitOffset bitSize value sign : JsValue)
  | get (bitOffset bitSize : JsValue)
  | getInt (bitOffset bitSize sign : JsValue)
  | lscan (bitOffset bitSize value : JsValue)
  | rscan (bitOffset bitSize value : JsValue)

/-- `AS_BIT_OVERFLOW_FAIL` -/
def BIT_OVERFLOW_FAIL : Int32 := 0

def newBitwiseOperation (name : BitOp) (bin : JsValue) (props : List (String × JsValue)) : Operation :=
  .new .bitwiseOperation (BitOp.table.opcode name) bin props

def newOverflowableBitwiseOp (name : BitOp) (bin : JsValue) (props : List (String × JsValue)) : Operation :=
  .new .overflowableBitwiseOp (BitOp.table.opcode name) bin
    (props ++ [("overflowAction", .int BIT_OVERFLOW_FAIL)])

/-- `Number.isSafeInteger` -/
def JsNumber.isSafeInteger (n : JsNumber) : Bool := n.isInteger && decide (|n.toInteger| < 2 ^ 53)

namespace BitBuilder

/-- `set` throws a TypeError of a value that is neither a buffer nor a safe integer. -/
def build (bin : JsValue) : BitBuilder → Option Operation
  | resize size flags =>
    some (newBitwiseOperation .resize bin [("size", size), ("flags", flags.default (.int 0))])
  | insert byteOffset value =>
    some (newBitwiseOperation .insert bin [("offset", byteOffset), ("value", value)])
  | remove byteOffset byteSize =>
    some (newBitwiseOperation .remove bin [("offset", byteOffset), ("size", byteSize)])
  | set bitOffset bitSize value =>
    match value with
    | .buffer bs =>
      some (newBitwiseOperation .set bin
        [("bitOffset", bitOffset), ("bitSize", bitSize), ("value", .buffer bs)])
    | .num n =>
      if n.isSafeInteger then
        some (newBitwiseOperation .setInt bin
          [("bitOffset", bitOffset), ("bitSize", bitSize), ("value", .num n)])
      else none
    | _ => none
  | or bitOffset bitSize value =>
    some (newBitwiseOperation .or bin
      [("bitOffset", bitOffset), ("bitSize", bitSize), ("value", value)])
  | xor bitOffset bitSize value =>
    some (newBitwiseOperation .xor bin
      [("bitOffset", bitOffset), ("bitSize", bitSize), ("value", value)])
  | and bitOffset bitSize value =>
    some (newBitwiseOperation .and bin
      [("bitOffset", bitOffset), ("bitSize", bitSize), ("value", value)])
  | not bitOffset bitSize =>
    some (newBitwiseOperation .not bin [("offset", bitOffset), ("size", bitSize)])
  | lshift bitOffset bitSize shift =>
    some (newBitwiseOperation .lshift bin
      [("bitOffset", bitOffset), ("bitSize", bitSize), ("shift", shift)])
  | rshift bitOffset bitSize shift =>
    some (newBitwiseOperation .rshift bin
      [("bitOffset", bitOffset), ("bitSize", bitSize), ("shift", shift)])
  | add bitOffset bitSize value sign =>
    some (newOverflowableBitwiseOp .add bin
      [("bitOffset", bitOffset), ("bitSize", bitSize), ("value", value), ("sign", sign)])
  | subtract bitOffset bitSize value sign =>
    some (newOverflowableBitwiseOp .subtract bin
      [("bitOffset", bitOffset), ("bitSize", bitSize), ("value", value), ("sign", sign)])
  | get bitOffset bitSize =>
    some (newBitwiseOperation .get bin [("bitOffset", bitOffset), ("bitSize", bitSize)])
  | getInt bitOffset bitSize sign =>
    some (newBitwiseOperation .getInt bin
      [("bitOffset", bitOffset), ("bitSize", bitSize), ("sign", sign)])
  | lscan bitOffset bitSize value =>
    some (newBitwiseOperation .lscan bin
      [("bitOffset", bitOffset), ("bitSize", bitSize), ("value", value)])
  | rscan bitOffset bitSize value =>
    some (newBitwiseOperation .rscan bin
      [("bitOffset", bitOffset), ("bitSize", bitSize), ("value", value)])

end BitBuilder

/-! ### HyperLogLog operations -/

def GET_COUNT_COMMAND : Int32 := 50
def GET_UNION_COMMAND : Int32 := 51
def GET_UNION_COUNT_COMMAND : Int32 := 52
def GET_INTERSECT_COUNT_COMMAND : Int32 := 53
def GET_SIMILARITY_COMMAND : Int32 := 54
def DESCRIBE_COMMAND : Int32 := 55

inductive HllBuilder where
  | init (indexBits minhashBits : JsValue)
  | add (list indexBits minhashBits : JsValue)
  | setUnion (list : JsValue)
  | refreshCount
  | fold (indexBits : JsValue)
  | getCount
  | getUnion (list : JsValue)
  | getUnionCount (list : JsValue)
  | getIntersectCount (list : JsValue)
  | getSimilarity (list : JsValue)
  | describe

def newHLLOperation [Platform] (name : HllOp) (bin : JsValue) (props : List (String × JsValue)) : Operation :=
  .new .hllOperation ((HllOp.table .client).opcode name) bin props

def HllBuilder.build [Platform] (bin : JsValue) : HllBuilder → Operation
  | init indexBits minhashBits =>
    newHLLOperation .init bin
      [("indexBits", indexBits), ("minhashBits", minhashBits.default (.int (-1)))]
  | add list indexBits minhashBits =>
    newHLLOperation .add bin [("list", list), ("indexBits", indexBits.default (.int (-1))),
      ("minhashBits", minhashBits.default (.int (-1)))]
  | setUnion list => newHLLOperation .setUnion bin [("list", list)]
  | refreshCount => newHLLOperation .refreshCount bin []
  | fold indexBits => newHLLOperation .fold bin [("indexBits", indexBits)]
  | getCount => newHLLOperation .read bin [("command", .int GET_COUNT_COMMAND)]
  | getUnion list => newHLLOperation .readList bin [("list", list), ("command", .int GET_UNION_COMMAND)]
  | getUnionCount list =>
    newHLLOperation .readList bin [("list", list), ("command", .int GET_UNION_COUNT_COMMAND)]
  | getIntersectCount list =>
    newHLLOperation .readList bin [("list", list), ("command", .int GET_INTERSECT_COUNT_COMMAND)]
  | getSimilarity list =>
    newHLLOperation .readList bin [("list", list), ("command", .int GET_SIMILARITY_COMMAND)]
  | describe => newHLLOperation .read bin [("command", .int DESCRIBE_COMMAND)]

/-! ### All builders -/

/-- A call of a builder. -/
inductive Builder where
  | scalar (b : ScalarBuilder)
  | list (bin : JsValue) (b : ListBuilder)
  | map (bin : JsValue) (b : MapBuilder)
  | bit (bin : JsValue) (b : BitBuilder)
  | hll (bin : JsValue) (b : HllBuilder)

namespace Builder

def build [Platform] : Builder → Option Operation
  | scalar b => some b.build
  | list bin b => some (b.build bin)
  | map bin b => some (b.build bin)
  | bit bin b => b.build bin
  | hll bin b => some (b.build bin)

def calls : Builder → List Modifier
  | list _ b => b.calls
  | map _ b => b.calls
  | _ => []

/-- The object of a builder and a chain of method calls on it; `none` if one throws. -/
def run [Platform] (b : Builder) (ms : List Modifier) : Option Operation :=
  b.build.bind fun o => o.applyAll (b.calls ++ ms)

end Builder

end AerospikeNode
