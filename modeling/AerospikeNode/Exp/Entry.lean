import AerospikeNode.Cdt.Context
import AerospikeNode.Lib.Prefix

/-!
# Expression entries

An expression is built in JavaScript as a flat array of entry objects `{ op, count, … }`
(`lib/exp.js`), one for each `as_exp_entry` that `as_exp_compile` reads. `Entry.shape` is how
`as_exp_compile` reads an entry: an operator of count `n` takes `n - 1` terms, `CALL_VOP_START`
of count `n` takes `n` parameters, a CDT create-or-modify entry stands for its policy's order and
flags, or for nothing when it has no policy.

The numbers behind the enumerations live in the C client; `NativeEnums` stands for them.
-/

namespace AerospikeNode
open PrefixTerm (Shape Terms)

/-- `as_exp_ops` -/
inductive ExpOp where
  | cmpEq | cmpNe | cmpGt | cmpGe | cmpLt | cmpLe | cmpRegex | cmpGeo
  | and | or | not | exclusive
  | digestModulo | deviceSize | lastUpdate | sinceUpdate | voidTime | ttl | setName | keyExist
  | memorySize | recordSize
  | key | bin | binType | call
  | asVal | valGeo | valInt | valUint | valFloat | valBool | valStr | valBytes | valRawstr | valRtype
  | callVopStart | cdtListCrmod | cdtMapCrmod | endOfVaArgs
  | add | sub | mul | div | pow | log | mod | abs | floor | ceil | toInt | toFloat
  | intAnd | intOr | intXor | intNot | intLshift | intRshift | intArshift | intCount | intLscan
  | intRscan | min | max | cond | letOp | var
deriving DecidableEq, Repr

/-- `as_exp_type`, in the order of `exp.type`. -/
inductive ExpType where
  | nil | bool | int | str | list | map | blob | float | geojson | hll | auto | error
deriving DecidableEq, Repr

def ExpType.all : List ExpType :=
  [.nil, .bool, .int, .str, .list, .map, .blob, .float, .geojson, .hll, .auto, .error]

/-- `as_exp_call_system_type` -/
inductive ExpSys where
  | callCdt | callBits | callHll | flagModifyLocal
deriving DecidableEq, Repr

/-- `as_list_return_type` -/
inductive ListReturnType where
  | none | index | reverseIndex | rank | reverseRank | count | value | exists_ | inverted
deriving DecidableEq, Repr

/-- `as_map_return_type` -/
inductive MapReturnType where
  | none | index | reverseIndex | rank | reverseRank | count | key | value | keyValue | exists_
  | unorderedMap | orderedMap | inverted
deriving DecidableEq, Repr

/-- `as_cdt_op_list`, `as_cdt_op_map`, `as_bit_op` and `as_hll_op`: the codes the builders use. -/
inductive CdtOpcode where
  | listAppend | listAppendItems | listInsert | listInsertItems | listSet | listClear
  | listIncrement | listSort | listSize | listGetByIndex | listGetByRank | listGetAllByValue
  | listGetByValueList | listGetByIndexRange | listGetByValueInterval | listGetByRankRange
  | listGetByValueRelRankRange | listRemoveByIndex | listRemoveByRank | listRemoveAllByValue
  | listRemoveByValueList | listRemoveByIndexRange | listRemoveByValueInterval
  | listRemoveByRankRange | listRemoveByValueRelRankRange
  | mapPut | mapPutItems | mapIncrement | mapClear | mapRemoveByKey | mapRemoveByIndex
  | mapRemoveByRank | mapRemoveByKeyList | mapRemoveAllByValue | mapRemoveByValueList
  | mapRemoveByKeyInterval | mapRemoveByIndexRange | mapRemoveByValueInterval
  | mapRemoveByRankRange | mapRemoveByKeyRelIndexRange | mapRemoveByValueRelRankRange | mapSize
  | mapGetByKey | mapGetByIndex | mapGetByRank | mapGetAllByValue | mapGetByKeyInterval
  | mapGetByIndexRange | mapGetByValueInterval | mapGetByRankRange | mapGetByKeyList
  | mapGetByValueList | mapGetByKeyRelIndexRange | mapGetByValueRelRankRange
  | bitResize | bitInsert | bitRemove | bitSet | bitOr | bitXor | bitAnd | bitNot | bitLshift
  | bitRshift | bitAdd | bitSubtract | bitSetInt | bitGet | bitCount | bitLscan | bitRscan
  | bitGetInt
  | hllInit | hllAdd | hllCount | hllGetUnion | hllUnionCount | hllIntersectCount | hllSimilarity
  | hllDescribe | hllMayContain
deriving DecidableEq, Repr

/-- The numbers the C client gives its enumerations. -/
structure NativeEnums where
  expType : ExpType → Int32
  sys : ExpSys → Int32
  listReturn : ListReturnType → Int32
  mapReturn : MapReturnType → Int32
  opcode : CdtOpcode → Int32

/-- The property of an entry that carries its value, and the value. A policy is an object, kept as
its own properties, or absent. -/
inductive Payload where
  | none
  | value (v : JsValue)
  | strVal (v : JsValue)
  | bytesVal (v sz : JsValue)
  | intVal (v : JsValue)
  | uintVal (v : JsValue)
  | floatVal (v : JsValue)
  | boolVal (v : JsValue)
  | ctx (c : Option CdtContext)
  | listPolicy (p : Option Props)
  | mapPolicy (p : Option Props)
  | inf
  | wildcard

structure Entry where
  op : ExpOp
  count : Option ℕ := .none
  payload : Payload := .none

namespace ExpOp

/-- The operators that `END_OF_VA_ARGS` closes. -/
def isVariadic : ExpOp → Bool
  | and | or | exclusive | add | sub | mul | div | intAnd | intOr | intXor | min | max | cond
  | letOp => true
  | _ => false

end ExpOp

namespace Entry

/-- What an entry's policy counts for among the parameters of a call: its order and its flags. -/
def policySlots : Payload → ℕ
  | .listPolicy (some _) | .mapPolicy (some _) => 2
  | _ => 0

/-- How `as_exp_compile` reads an entry. -/
def shape (e : Entry) : Shape :=
  match e.op with
  | .endOfVaArgs => .close
  | .callVopStart => .node 1 (e.count.getD 0)
  | .cdtListCrmod | .cdtMapCrmod => .node (policySlots e.payload) 0
  | op => if op.isVariadic then .variadic else .node 1 (e.count.getD 1 - 1)

end Entry

/-- A flat array of entries that reads as exactly one term. -/
abbrev IsTerm (es : List Entry) : Prop := Terms Entry.shape 1 es

end AerospikeNode
