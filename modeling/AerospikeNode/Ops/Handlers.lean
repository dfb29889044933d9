import AerospikeNode.Ops.Native

/-!
# Operation handlers

The `add_*_op` functions of `scalar_operations.cc`, `list_operations.cc`, `map_operations.cc`,
`bit_operations.cc` and `hll_operations.cc`, up to the call of the C client each ends with, and the
tables that list them. Handlers that differ only in the property they read and the function they
call are one definition with parameters.
-/

namespace AerospikeNode

/-- What a handler reads from an operation object comes to a call. -/
abbrev Handler := JsValue → Res OpCall

/-- An `ops_table`: the offset of its opcodes, and for each name its handler. -/
structure OpTable (α β : Type) where
  offset : UInt32
  entries : List (α × β)

namespace OpTable
variable {α β : Type}

/-- The opcode that the table's `*_opcode_values` gives a name. -/
def opcode [DecidableEq α] (t : OpTable α β) (name : α) : UInt32 :=
  t.offset ||| UInt32.ofNat (t.entries.findIdx (·.1 = name))

/-- `&ops_table[opcode ^ OFFSET]`; `none` is beyond the table. -/
def lookup (t : OpTable α β) (opcode : UInt32) : Option (α × β) :=
  t.entries[(opcode ^^^ t.offset).toNat]?

/-- The opcode is that of an entry, up to the bits of the offset. -/
def Lists (t : OpTable α β) (opcode : UInt32) : Prop := (opcode ^^^ t.offset).toNat < t.entries.length

instance (t : OpTable α β) (opcode : UInt32) : Decidable (t.Lists opcode) :=
  inferInstanceAs (Decidable (_ < _))

theorem lookup_eq_none {t : OpTable α β} {opcode : UInt32} : t.lookup opcode = none ↔ ¬t.Lists opcode := by
  rw [lookup, List.getElem?_eq_none_iff, Lists, Nat.not_lt]

end OpTable

/-! ### Scalar operations -/

/-- `add_write_op`, by the value. -/
def writeCall [Platform] : JsValue → Res OpCall
  | .num n => .ok (if (JsValue.num n).isDoubleValue then { fn := .addWriteDouble, args := [.double n] }
    else { fn := .addWriteInt64, args := [.int64 n.toInt64] })
  | .bool b => .ok { fn := .addWrite, args := [.val (some (.boolean b))] }
  | .str s => .ok { fn := .addWriteStrp, args := [.str (nativeStr s)] }
  | .buffer bs => .ok { fn := .addWriteRawp, args := [.bytes bs] }
  | .null => .ok { fn := .addWrite, args := [.val (some .nil)] }
  | .array xs => (JsValue.listFromJsarray xs).map fun xs => { fn := .addWrite, args := [.val (some (.list xs))] }
  | .obj cls ps =>
    if (JsValue.obj cls ps).isDoubleValue then
      (JsValue.obj cls ps).doubleValue.map fun d => { fn := .addWriteDouble, args := [.double d] }
    else if (JsValue.obj cls ps).isGeojsonValue then
      .ok { fn := .addWriteGeojsonStrp, args := [.str (JsValue.obj cls ps).geojsonAsString] }
    else (JsValue.obj cls ps).asvalFromJsvalue.map fun v => { fn := .addWrite, args := [.val (some v)] }
  | .map es => (JsValue.map es).asvalFromJsvalue.map fun v => { fn := .addWrite, args := [.val (some v)] }
  | .func => JsValue.func.asvalFromJsvalue.map fun v => { fn := .addWrite, args := [.val (some v)] }
  | .undefined | .bigint _ | .symbol => .error .paramErr

def addWriteOp [Platform] : Handler := fun obj => writeCall (obj.field "value")

def addReadOp : Handler := fun _ => .ok { fn := .addRead }

/-- `add_incr_op`, by the value. -/
def incrCall [Platform] : JsValue → Res OpCall
  | .num n => .ok (if (JsValue.num n).isDoubleValue then { fn := .addIncrDouble, args := [.double n] }
    else { fn := .addIncr, args := [.int64 n.toInt64] })
  | v => if v.isDoubleValue then v.doubleValue.map fun d => { fn := .addIncrDouble, args := [.double d] }
    else .error .paramErr

def addIncrOp [Platform] : Handler := fun obj => incrCall (obj.field "value")

/-- `add_prepend_op` and `add_append_op`, by the value. -/
def stringCall (strp rawp : OpFn) : JsValue → Res OpCall
  | .str s => .ok { fn := strp, args := [.str (nativeStr s)] }
  | .buffer bs => .ok { fn := rawp, args := [.bytes bs] }
  | _ => .error .paramErr

def addPrependOp : Handler := fun obj => stringCall .addPrependStrp .addPrependRawp (obj.field "value")

def addAppendOp : Handler := fun obj => stringCall .addAppendStrp .addAppendRawp (obj.field "value")

/-- `add_touch_op`, by the TTL; the result of `setTTL` is ignored. -/
def touchCall : JsValue → OpCall
  | .num n => { fn := .addTouch, args := [.uint32 n.toUint32] }
  | _ => { fn := .addTouch }

def addTouchOp : Handler := fun obj => .ok (touchCall (obj.field "ttl"))

def addDeleteOp : Handler := fun _ => .ok { fn := .addDelete }

inductive ScalarOp where
  | write | read | incr | prepend | append | touch | delete
deriving DecidableEq, Repr

namespace ScalarOp

def needsBin : ScalarOp → Bool
  | touch | delete => false
  | _ => true

def table [Platform] : OpTable ScalarOp Handler where
  offset := 0x0000
  entries := [(write, addWriteOp), (read, addReadOp), (incr, addIncrOp), (prepend, addPrependOp),
    (append, addAppendOp), (touch, addTouchOp), (delete, addDeleteOp)]

end ScalarOp

/-! ### Selecting elements of lists and maps -/

/-- A number that names a return type, `NONE` if there is none. -/
def returnTypeOf (v : JsValue) : Res Int32 := v.intOr 0

/-- `AS_LIST_RETURN_INVERTED` -/
def LIST_RETURN_INVERTED : Int32 := 0x10000

/-- `get_list_return_type` -/
def getListReturnType (obj : JsValue) : Res Int32 := do
  let returnType ← returnTypeOf (obj.field "returnType")
  let inverted ← (obj.field "inverted").optionalBoolProperty
  return if inverted = some true then returnType ||| LIST_RETURN_INVERTED else returnType

/-- `get_map_return_type` -/
def getMapReturnType (obj : JsValue) : Res Int32 := returnTypeOf (obj.field "returnType")

section
variable (rt : JsValue → Res Int32) (prop : String) (fn toEnd : OpFn)

/-- An index. -/
def atOp : Handler := fun obj => do
  let index ← (obj.field prop).int64Property
  return { fn := fn, args := [.int64 index] }

/-- An index and a count, or up to the end. -/
def atRangeOp : Handler := fun obj => do
  let index ← (obj.field prop).int64Property
  match ← (obj.field "count").optionalInt64Property with
  | some count => return { fn := fn, args := [.int64 index, .int64 count] }
  | none => return { fn := toEnd, args := [.int64 index] }

/-- An index or rank and what to return. -/
def byIndexOp : Handler := fun obj => do
  let index ← (obj.field prop).int64Property
  let returnType ← rt obj
  return { fn := fn, args := [.int64 index, .int returnType] }

/-- A range of indexes or ranks and what to return. -/
def byIndexRangeOp : Handler := fun obj => do
  let index ← (obj.field prop).int64Property
  let count ← (obj.field "count").optionalInt64Property
  let returnType ← rt obj
  match count with
  | some count => return { fn := fn, args := [.int64 index, .int64 count, .int returnType] }
  | none => return { fn := toEnd, args := [.int64 index, .int returnType] }

/-- A value or key and what to return. -/
def byValueOp [Platform] : Handler := fun obj => do
  let value ← (obj.field prop).asvalProperty
  let returnType ← rt obj
  return { fn := fn, args := [.val (some value), .int returnType] }

/-- A list of values or keys and what to return. -/
def byValueListOp [Platform] : Handler := fun obj => do
  let values ← (obj.field prop).listProperty
  let returnType ← rt obj
  return { fn := fn, args := [.list values, .int returnType] }

/-- An interval of values or keys, open where it has no end, and what to return. -/
def byRangeOp [Platform] : Handler := fun obj => do
  let begin_ ← (obj.field "begin").optionalAsvalProperty
  let end_ ← (obj.field "end").optionalAsvalProperty
  let returnType ← rt obj
  return { fn := fn, args := [.val begin_, .val end_, .int returnType] }

/-- A range relative to a value or key and what to return. -/
def byRelRangeOp [Platform] (rel : String) : Handler := fun obj => do
  let value ← (obj.field prop).asvalProperty
  let rank ← (obj.field rel).int64Property
  let count ← (obj.field "count").optionalInt64Property
  let returnType ← rt obj
  match count with
  | some count => return { fn := fn, args := [.val (some value), .int64 rank, .int64 count, .int returnType] }
  | none => return { fn := toEnd, args := [.val (some value), .int64 rank, .int returnType] }

end

/-! ### List operations -/

section
variable (D : PolicyDefaults)

/-- The policy argument, `NULL` where there is no policy. -/
def listPolicyArg (obj : JsValue) : Res OpPolicy :=
  (getOptionalListPolicy D obj).map fun p => if p.1 then .list p.2 else .none

def addListSetOrderOp : Handler := fun obj => do
  let order ← (obj.field "order").intProperty
  return { fn := .listSetOrder, args := [.int order] }

def addListSortOp : Handler := fun obj => do
  let flags ← (obj.field "flags").intProperty
  return { fn := .listSort, args := [.int flags] }

def addListAppendOp [Platform] : Handler := fun obj => do
  let val ← (obj.field "value").asvalProperty
  let policy ← listPolicyArg D obj
  return { fn := .listAppend, policy := policy, args := [.val (some val)] }

def addListAppendItemsOp [Platform] : Handler := fun obj => do
  let list ← (obj.field "list").listProperty
  let policy ← listPolicyArg D obj
  return { fn := .listAppendItems, policy := policy, args := [.list list] }

/-- `add_list_insert_op` and `add_list_set_op`. -/
def addListPutOp [Platform] (fn : OpFn) : Handler := fun obj => do
  let index ← (obj.field "index").int64Property
  let val ← (obj.field "value").asvalProperty
  let policy ← listPolicyArg D obj
  return { fn := fn, policy := policy, args := [.int64 index, .val (some val)] }

def addListInsertOp [Platform] : Handler := addListPutOp D .listInsert

def addListInsertItemsOp [Platform] : Handler := fun obj => do
  let index ← (obj.field "index").int64Property
  let list ← (obj.field "list").listProperty
  let policy ← listPolicyArg D obj
  return { fn := .listInsertItems, policy := policy, args := [.int64 index, .list list] }

def addListPopOp : Handler := atOp "index" .listPop

def addListPopRangeOp : Handler := atRangeOp "index" .listPopRange .listPopRangeFrom

def addListRemoveOp : Handler := atOp "index" .listRemove

def addListRemoveRangeOp : Handler := atRangeOp "index" .listRemoveRange .listRemoveRangeFrom

def addListRemoveByIndexOp : Handler := byIndexOp getListReturnType "index" .listRemoveByIndex

def addListRemoveByIndexRangeOp : Handler :=
  byIndexRangeOp getListReturnType "index" .listRemoveByIndexRange .listRemoveByIndexRangeToEnd

def addListRemoveByValueOp [Platform] : Handler := byValueOp getListReturnType "value" .listRemoveByValue

def addListRemoveByValueListOp [Platform] : Handler :=
  byValueListOp getListReturnType "values" .listRemoveByValueList

def addListRemoveByValueRangeOp [Platform] : Handler := byRangeOp getListReturnType .listRemoveByValueRange

def addListRemoveByValueRelRankRangeOp [Platform] : Handler :=
  byRelRangeOp getListReturnType "value" .listRemoveByValueRelRankRange
    .listRemoveByValueRelRankRangeToEnd "rank"

def addListRemoveByRankOp : Handler := byIndexOp getListReturnType "rank" .listRemoveByRank

def addListRemoveByRankRangeOp : Handler :=
  byIndexRangeOp getListReturnType "rank" .listRemoveByRankRange .listRemoveByRankRangeToEnd

def addListClearOp : Handler := fun _ => .ok { fn := .listClear }

def addListSetOp [Platform] : Handler := addListPutOp D .listSet

def addListTrimOp : Handler := fun obj => do
  let index ← (obj.field "index").int64Property
  let count ← (obj.field "count").int64Property
  return { fn := .listTrim, args := [.int64 index, .int64 count] }

def addListGetOp : Handler := atOp "index" .listGet

def addListGetRangeOp : Handler := atRangeOp "index" .listGetRange .listGetRangeFrom

def addListGetByIndexOp : Handler := byIndexOp getListReturnType "index" .listGetByIndex

def addListGetByIndexRangeOp : Handler :=
  byIndexRangeOp getListReturnType "index" .listGetByIndexRange .listGetByIndexRangeToEnd

def addListGetByValueOp [Platform] : Handler := byValueOp getListReturnType "value" .listGetByValue

def addListGetByValueListOp [Platform] : Handler := byValueListOp getListReturnType "values" .listGetByValueList

def addListGetByValueRangeOp [Platform] : Handler := byRangeOp getListReturnType .listGetByValueRange

def addListGetByValueRelRankRangeOp [Platform] : Handler :=
  byRelRangeOp getListReturnType "value" .listGetByValueRelRankRange
    .listGetByValueRelRankRangeToEnd "rank"

def addListGetByRankOp : Handler := byIndexOp getListReturnType "rank" .listGetByRank

def addListGetByRankRangeOp : Handler :=
  byIndexRangeOp getListReturnType "rank" .listGetByRankRange .listGetByRankRangeToEnd

def addListIncrementOp [Platform] : Handler := fun obj => do
  let index ← (obj.field "index").int64Property
  let value ← (obj.field "value").optionalAsvalProperty
  let policy ← listPolicyArg D obj
  return { fn := .listIncrement, policy := policy, args := [.int64 index, .val value] }

def addListCreateOp : Handler := fun obj => do
  let order ← (obj.field "order").uint32Property
  let pad ← (obj.field "pad").boolProperty
  let persistIndex ← (obj.field "persistIndex").boolProperty
  return { fn := .listCreateAll, args := [.uint32 order, .bool pad, .bool persistIndex] }

def addListSizeOp : Handler := fun _ => .ok { fn := .listSize }

end

inductive ListOp where
  | setOrder | sort | append | appendItems | insert | insertItems | pop | popRange | remove
  | removeRange | removeByIndex | removeByIndexRange | removeByValue | removeByValueList
  | removeByValueRange | removeByValueRelRankRange | removeByRank | removeByRankRange | clear | set
  | trim | get | getRange | getByIndex | getByIndexRange | getByValue | getByValueList
  | getByValueRange | getByValueRelRankRange | getByRank | getByRankRange | increment | size | create
deriving DecidableEq, Repr

def ListOp.table [Platform] (D : PolicyDefaults) : OpTable ListOp Handler where
  offset := 0x0100
  entries := [(setOrder, addListSetOrderOp), (sort, addListSortOp), (append, addListAppendOp D),
    (appendItems, addListAppendItemsOp D), (insert, addListInsertOp D),
    (insertItems, addListInsertItemsOp D), (pop, addListPopOp), (popRange, addListPopRangeOp),
    (remove, addListRemoveOp), (removeRange, addListRemoveRangeOp),
    (removeByIndex, addListRemoveByIndexOp), (removeByIndexRange, addListRemoveByIndexRangeOp),
    (removeByValue, addListRemoveByValueOp), (removeByValueList, addListRemoveByValueListOp),
    (removeByValueRange, addListRemoveByValueRangeOp),
    (removeByValueRelRankRange, addListRemoveByValueRelRankRangeOp),
    (removeByRank, addListRemoveByRankOp), (removeByRankRange, addListRemoveByRankRangeOp),
    (clear, addListClearOp), (set, addListSetOp D), (trim, addListTrimOp), (get, addListGetOp),
    (getRange, addListGetRangeOp), (getByIndex, addListGetByIndexOp),
    (getByIndexRange, addListGetByIndexRangeOp), (getByValue, addListGetByValueOp),
    (getByValueList, addListGetByValueListOp), (getByValueRange, addListGetByValueRangeOp),
    (getByValueRelRankRange, addListGetByValueRelRankRangeOp), (getByRank, addListGetByRankOp),
    (getByRankRange, addListGetByRankRangeOp), (increment, addListIncrementOp D),
    (size, addListSizeOp), (create, addListCreateOp)]

/-! ### Map operations -/

section
variable (D : PolicyDefaults)

/-- The policy argument; map operations are never passed `NULL`. -/
def mapPolicyArg (obj : JsValue) : Res OpPolicy := (getMapPolicy D obj).map .map

def addMapSetPolicyOp : Handler := fun obj => do
  let policy ← mapPolicyArg D obj
  return { fn := .mapSetPolicy, policy := policy }

def addMapPutOp [Platform] : Handler := fun obj => do
  let key ← (obj.field "key").asvalProperty
  let value ← (obj.field "value").asvalProperty
  let policy ← mapPolicyArg D obj
  return { fn := .mapPut, policy := policy, args := [.val (some key), .val (some value)] }

/-- The items of `add_map_put_items_op`: any object is read as one of named items. -/
def itemsProperty [Platform] : JsValue → Res (List (AsVal × AsVal))
  | .map es => JsValue.mapFromJsmap es []
  | .obj _ ps => JsValue.mapFromJsobject ps []
  | .array xs => JsValue.mapFromJsobject (JsValue.indexed xs) []
  | .buffer bs => JsValue.mapFromJsobject (JsValue.indexed (bs.map JsValue.byte)) []
  | .func => .ok []
  | _ => .error .paramErr

def addMapPutItemsOp [Platform] : Handler := fun obj => do
  let items ← itemsProperty (obj.field "items")
  let policy ← mapPolicyArg D obj
  return { fn := .mapPutItems, policy := policy, args := [.map items] }

/-- `add_map_increment_op` and `add_map_decrement_op`. -/
def addMapAddOp [Platform] (prop : String) (fn : OpFn) : Handler := fun obj => do
  let key ← (obj.field "key").asvalProperty
  let incr ← (obj.field prop).asvalProperty
  let policy ← mapPolicyArg D obj
  return { fn := fn, policy := policy, args := [.val (some key), .val (some incr)] }

def addMapIncrementOp [Platform] : Handler := addMapAddOp D "incr" .mapIncrement

def addMapDecrementOp [Platform] : Handler := addMapAddOp D "decr" .mapDecrement

def addMapClearOp : Handler := fun _ => .ok { fn := .mapClear }

def addMapRemoveByKeyOp [Platform] : Handler := byValueOp getMapReturnType "key" .mapRemoveByKey

def addMapRemoveByKeyListOp [Platform] : Handler := byValueListOp getMapReturnType "keys" .mapRemoveByKeyList

def addMapRemoveByKeyRangeOp [Platform] : Handler := byRangeOp getMapReturnType .mapRemoveByKeyRange

def addMapRemoveByKeyRelIndexRangeOp [Platform] : Handler :=
  byRelRangeOp getMapReturnType "key" .mapRemoveByKeyRelIndexRange .mapRemoveByKeyRelIndexRangeToEnd "index"

def addMapRemoveByValueOp [Platform] : Handler := byValueOp getMapReturnType "value" .mapRemoveByValue

def addMapRemoveByValueListOp [Platform] : Handler :=
  byValueListOp getMapReturnType "values" .mapRemoveByValueList

def addMapRemoveByValueRangeOp [Platform] : Handler := byRangeOp getMapReturnType .mapRemoveByValueRange

def addMapRemoveByValueRelRankRangeOp [Platform] : Handler :=
  byRelRangeOp getMapReturnType "value" .mapRemoveByValueRelRankRange
    .mapRemoveByValueRelRankRangeToEnd "rank"

def addMapRemoveByIndexOp : Handler := byIndexOp getMapReturnType "index" .mapRemoveByIndex

def addMapRemoveByIndexRangeOp : Handler :=
  byIndexRangeOp getMapReturnType "index" .mapRemoveByIndexRange .mapRemoveByIndexRangeToEnd

def addMapRemoveByRankOp : Handler := byIndexOp getMapReturnType "rank" .mapRemoveByRank

def addMapRemoveByRankRangeOp : Handler :=
  byIndexRangeOp getMapReturnType "rank" .mapRemoveByRankRange .mapRemoveByRankRangeToEnd

def addMapSizeOp : Handler := fun _ => .ok { fn := .mapSize }

def addMapGetByKeyOp [Platform] : Handler := byValueOp getMapReturnType "key" .mapGetByKey

def addMapGetByKeyListOp [Platform] : Handler := byValueListOp getMapReturnType "keys" .mapGetByKeyList

def addMapGetByKeyRangeOp [Platform] : Handler := byRangeOp getMapReturnType .mapGetByKeyRange

def addMapGetByKeyRelIndexRangeOp [Platform] : Handler :=
  byRelRangeOp getMapReturnType "key" .mapGetByKeyRelIndexRange .mapGetByKeyRelIndexRangeToEnd "index"

def addMapGetByValueOp [Platform] : Handler := byValueOp getMapReturnType "value" .mapGetByValue

def addMapGetByValueListOp [Platform] : Handler := byValueListOp getMapReturnType "values" .mapGetByValueList

def addMapGetByValueRangeOp [Platform] : Handler := byRangeOp getMapReturnType .mapGetByValueRange

def addMapGetByValueRelRankRangeOp [Platform] : Handler :=
  byRelRangeOp getMapReturnType "value" .mapGetByValueRelRankRange
    .mapGetByValueRelRankRangeToEnd "rank"

def addMapGetByIndexOp : Handler := byIndexOp getMapReturnType "index" .mapGetByIndex

def addMapGetByIndexRangeOp : Handler :=
  byIndexRangeOp getMapReturnType "index" .mapGetByIndexRange .mapGetByIndexRangeToEnd

def addMapGetByRankOp : Handler := byIndexOp getMapReturnType "rank" .mapGetByRank

def addMapGetByRankRangeOp : Handler :=
  byIndexRangeOp getMapReturnType "rank" .mapGetByRankRange .mapGetByRankRangeToEnd

def addMapCreateOp : Handler := fun obj => do
  let order ← (obj.field "order").uint32Property
  let persistIndex ← (obj.field "persistIndex").boolProperty
  return { fn := .mapCreateAll, args := [.uint32 order, .bool persistIndex] }

end

inductive MapOp where
  | setPolicy | put | putItems | increment | decrement | clear | removeByKey | removeByKeyList
  | removeByKeyRange | removeByKeyRelIndexRange | removeByValue | removeByValueList
  | removeByValueRange | removeByValueRelRankRange | removeByIndex | removeByIndexRange
  | removeByRank | removeByRankRange | size | getByKey | getByKeyList | getByKeyRange
  | getByKeyRelIndexRange | getByValue | getByValueList | getByValueRange | getByValueRelRankRange
  | getByIndex | getByIndexRange | getByRank | getByRankRange | create
deriving DecidableEq, Repr

def MapOp.table [Platform] (D : PolicyDefaults) : OpTable MapOp Handler where
  offset := 0x0200
  entries := [(setPolicy, addMapSetPolicyOp D), (put, addMapPutOp D), (putItems, addMapPutItemsOp D),
    (increment, addMapIncrementOp D), (decrement, addMapDecrementOp D), (clear, addMapClearOp),
    (removeByKey, addMapRemoveByKeyOp), (removeByKeyList, addMapRemoveByKeyListOp),
    (removeByKeyRange, addMapRemoveByKeyRangeOp),
    (removeByKeyRelIndexRange, addMapRemoveByKeyRelIndexRangeOp),
    (removeByValue, addMapRemoveByValueOp), (removeByValueList, addMapRemoveByValueListOp),
    (removeByValueRange, addMapRemoveByValueRangeOp),
    (removeByValueRelRankRange, addMapRemoveByValueRelRankRangeOp),
    (removeByIndex, addMapRemoveByIndexOp), (removeByIndexRange, addMapRemoveByIndexRangeOp),
    (removeByRank, addMapRemoveByRankOp), (removeByRankRange, addMapRemoveByRankRangeOp),
    (size, addMapSizeOp), (getByKey, addMapGetByKeyOp), (getByKeyList, addMapGetByKeyListOp),
    (getByKeyRange, addMapGetByKeyRangeOp), (getByKeyRelIndexRange, addMapGetByKeyRelIndexRangeOp),
    (getByValue, addMapGetByValueOp), (getByValueList, addMapGetByValueListOp),
    (getByValueRange, addMapGetByValueRangeOp),
    (getByValueRelRankRange, addMapGetByValueRelRankRangeOp), (getByIndex, addMapGetByIndexOp),
    (getByIndexRange, addMapGetByIndexRangeOp), (getByRank, addMapGetByRankOp),
    (getByRankRange, addMapGetByRankRangeOp), (create, addMapCreateOp)]

/-! ### Bitwise operations -/

section
variable (policy : OpPolicy)

def addBitResizeOp : Handler := fun obj => do
  let size ← (obj.field "size").uint32Property
  let flags ← (obj.field "flags").intProperty
  return { fn := .bitResize, policy := policy, args := [.uint32 size, .int flags] }

def addBitInsertOp : Handler := fun obj => do
  let offset ← (obj.field "offset").intProperty
  let value ← (obj.field "value").bytesProperty
  return { fn := .bitInsert, policy := policy, args := [.int offset, .bytes value] }

def addBitWriteOp (fn : OpFn) : Handler := fun obj => do
  let offset ← (obj.field "offset").intProperty
  let size ← (obj.field "size").uint32Property
  return { fn := fn, policy := policy, args := [.int offset, .uint32 size] }

def addBitRemoveOp : Handler := addBitWriteOp policy .bitRemove

def addBitByteMathOp (fn : OpFn) : Handler := fun obj => do
  let bitOffset ← (obj.field "bitOffset").intProperty
  let bitSize ← (obj.field "bitSize").uint32Property
  let value ← (obj.field "value").bytesProperty
  return { fn := fn, policy := policy, args := [.int bitOffset, .uint32 bitSize, .bytes value] }

def addBitSetOp : Handler := addBitByteMathOp policy .bitSet

def addBitOrOp : Handler := addBitByteMathOp policy .bitOr

def addBitXorOp : Handler := addBitByteMathOp policy .bitXor

def addBitAndOp : Handler := addBitByteMathOp policy .bitAnd

def addBitNotOp : Handler := addBitWriteOp policy .bitNot

def addBitShiftOp (fn : OpFn) : Handler := fun obj => do
  let bitOffset ← (obj.field "bitOffset").intProperty
  let bitSize ← (obj.field "bitSize").uint32Property
  let shift ← (obj.field "shift").uint32Property
  return { fn := fn, policy := policy, args := [.int bitOffset, .uint32 bitSize, .uint32 shift] }

def addBitLshiftOp : Handler := addBitShiftOp policy .bitLshift

def addBitRshiftOp : Handler := addBitShiftOp policy .bitRshift

def addBitMathOp (fn : OpFn) : Handler := fun obj => do
  let bitOffset ← (obj.field "bitOffset").intProperty
  let bitSize ← (obj.field "bitSize").uint32Property
  let value ← (obj.field "value").int64Property
  let sign ← (obj.field "sign").boolProperty
  let action ← (obj.field "overflowAction").intProperty
  return { fn := fn, policy := policy, args := [.int bitOffset, .uint32 bitSize, .int64 value, .bool sign,
    .int action] }

def addBitAddOp : Handler := addBitMathOp policy .bitAdd

def addBitSubtractOp : Handler := addBitMathOp policy .bitSubtract

def addBitSetIntOp : Handler := fun obj => do
  let bitOffset ← (obj.field "bitOffset").intProperty
  let bitSize ← (obj.field "bitSize").uint32Property
  let value ← (obj.field "value").int64Property
  return { fn := .bitSetInt, policy := policy, args := [.int bitOffset, .uint32 bitSize, .int64 value] }

end

def addBitReadOp (fn : OpFn) : Handler := fun obj => do
  let bitOffset ← (obj.field "bitOffset").intProperty
  let bitSize ← (obj.field "bitSize").uint32Property
  return { fn := fn, args := [.int bitOffset, .uint32 bitSize] }

def addBitGetOp : Handler := addBitReadOp .bitGet

/-- `add_bit_scan_op`, and `add_bit_get_int_op`, whose flag is `sign`. -/
def addBitFlagOp (prop : String) (fn : OpFn) : Handler := fun obj => do
  let bitOffset ← (obj.field "bitOffset").intProperty
  let bitSize ← (obj.field "bitSize").uint32Property
  let value ← (obj.field prop).boolProperty
  return { fn := fn, args := [.int bitOffset, .uint32 bitSize, .bool value] }

/-- It calls `as_operations_bit_rscan`. -/
def addBitLscanOp : Handler := addBitFlagOp "value" .bitRscan

def addBitRscanOp : Handler := addBitFlagOp "value" .bitRscan

def addBitGetIntOp : Handler := addBitFlagOp "sign" .bitGetInt

inductive BitOp where
  | resize | insert | remove | set | or | xor | and | not | lshift | rshift | add | subtract | setInt
  | get | lscan | rscan | getInt
deriving DecidableEq, Repr

/-- The handlers are handed the policy. -/
def BitOp.table : OpTable BitOp (OpPolicy → Handler) where
  offset := 0x0300
  entries := [(resize, addBitResizeOp), (insert, addBitInsertOp), (remove, addBitRemoveOp),
    (set, addBitSetOp), (or, addBitOrOp), (xor, addBitXorOp), (and, addBitAndOp), (not, addBitNotOp),
    (lshift, addBitLshiftOp), (rshift, addBitRshiftOp), (add, addBitAddOp),
    (subtract, addBitSubtractOp), (setInt, addBitSetIntOp), (get, fun _ => addBitGetOp),
    (lscan, fun _ => addBitLscanOp), (rscan, fun _ => addBitRscanOp),
    (getInt, fun _ => addBitGetIntOp)]

/-! ### HyperLogLog operations -/

section
variable (D : PolicyDefaults)

/-- A bitwise or HLL policy argument. -/
def flagsPolicyArg (dflt : Int32) (obj : JsValue) : Res OpPolicy :=
  (getOptionalFlagsPolicy dflt obj).map fun
    | some flags => .flags flags
    | none => .none

def addHllInitOp : Handler := fun obj => do
  let indexBits ← (obj.field "indexBits").intProperty
  let minhashBits ← (obj.field "minhashBits").intProperty
  let policy ← flagsPolicyArg D.hllFlags obj
  return { fn := .hllInitMh, policy := policy, args := [.int indexBits, .int minhashBits] }

def addHllAddOp [Platform] : Handler := fun obj => do
  let indexBits ← (obj.field "indexBits").intProperty
  let minhashBits ← (obj.field "minhashBits").intProperty
  let policy ← flagsPolicyArg D.hllFlags obj
  let list ← (obj.field "list").listProperty
  return { fn := .hllAddMh, policy := policy, args := [.list list, .int indexBits, .int minhashBits] }

def addHllSetUnionOp [Platform] : Handler := fun obj => do
  let policy ← flagsPolicyArg D.hllFlags obj
  let list ← (obj.field "list").listProperty
  return { fn := .hllSetUnion, policy := policy, args := [.list list] }

def addHllRefreshCountOp : Handler := fun _ => .ok { fn := .hllRefreshCount }

def addHllFoldOp : Handler := fun obj => do
  let indexBits ← (obj.field "indexBits").intProperty
  return { fn := .hllFold, args := [.int indexBits] }

def addHllReadOp : Handler := fun obj => do
  let command ← (obj.field "command").uint32Property
  return { fn := .hllRead, args := [.uint16 command.toUInt16] }

def addHllReadListOp [Platform] : Handler := fun obj => do
  let command ← (obj.field "command").uint32Property
  let list ← (obj.field "list").listProperty
  return { fn := .hllReadList, args := [.uint16 command.toUInt16, .list list] }

end

inductive HllOp where
  | init | add | setUnion | refreshCount | fold | read | readList
deriving DecidableEq, Repr

def HllOp.table [Platform] (D : PolicyDefaults) : OpTable HllOp Handler where
  offset := 0x0400
  entries := [(init, addHllInitOp D), (add, addHllAddOp D), (setUnion, addHllSetUnionOp D),
    (refreshCount, addHllRefreshCountOp), (fold, addHllFoldOp), (read, addHllReadOp),
    (readList, addHllReadListOp)]

/-! ### Expression operations -/

def addExpWriteOp (exp : Option (List ExpEntry)) (flags : Int32) : OpCall :=
  { fn := .expWrite, args := [.exp exp, .int flags] }

def addExpReadOp (exp : Option (List ExpEntry)) (flags : Int32) : OpCall :=
  { fn := .expRead, args := [.exp exp, .int flags] }

inductive ExpOpName where
  | write | read
deriving DecidableEq, Repr

/-- The handlers are handed the compiled expression and the flags. -/
def ExpOpName.table : OpTable ExpOpName (Option (List ExpEntry) → Int32 → OpCall) where
  offset := 0x0500
  entries := [(write, addExpWriteOp), (read, addExpReadOp)]

end AerospikeNode
