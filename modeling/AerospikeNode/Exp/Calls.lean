import AerospikeNode.Exp.Entry

/-!
# The list, map, bitwise and HLL expression builders

`lib/exp_lists.js`, `lib/exp_maps.js`, `lib/exp_bit.js` and `lib/exp_hll.js`. Every builder emits a
`CALL` header, a `CALL_VOP_START` entry with the number of parameters that follow it, the opcode,
the parameters and the bin. The number is written by hand at each builder: the parameters other
than the policy, and what the policy adds when there is one.

`isCall_iff` compares the number with the parameters that really follow.
-/

namespace AerospikeNode
open PrefixTerm (Shape Terms)

/-- A well-formed operand: the array of an expression. -/
structure Operand where
  entries : List Entry
  isTerm : IsTerm entries

/-- One parameter of a call as a builder writes it. -/
inductive Arg where
  | expr (e : Operand)
  | int (v : JsValue)
  | uint (v : JsValue)
  | listCrmod (policy : Option Props)
  | mapCrmod (policy : Option Props)

/-- A builder's call before it is spread into an array. -/
structure Call where
  rtype : Except JsError JsNumber
  module : Int32
  count : ℕ
  ctx : Payload
  op : CdtOpcode
  params : List Arg
  bin : Operand

namespace Entry

/-- `_int` -/
def int (v : JsValue) : Entry := { op := .valInt, payload := .intVal v }

/-- `_uint` -/
def uint (v : JsValue) : Entry := { op := .valUint, payload := .uintVal v }

/-- `_rtype` -/
def rtype (type : JsNumber) : Entry := { op := .valRtype, payload := .intVal (.num type) }

end Entry

def Arg.entries : Arg → List Entry
  | expr e => e.entries
  | int v => [.int v]
  | uint v => [.uint v]
  | listCrmod policy => [{ op := .cdtListCrmod, payload := .listPolicy policy }]
  | mapCrmod policy => [{ op := .cdtMapCrmod, payload := .mapPolicy policy }]

/-- The slots a parameter takes among those `CALL_VOP_START` counts. -/
def Arg.slots : Arg → ℕ
  | listCrmod policy | mapCrmod policy => if policy.isSome then 2 else 0
  | _ => 1

/-- The array a builder returns. -/
def Call.emit (N : NativeEnums) (c : Call) : Except JsError (List Entry) :=
  c.rtype.map fun type =>
    [{ op := .call, count := some 5 }, .rtype type, .int (.int c.module),
      { op := .callVopStart, count := some c.count, payload := c.ctx }, .int (.int (N.opcode c.op))] ++
    (c.params.map Arg.entries).flatten ++ c.bin.entries

section
variable (N : NativeEnums)

/-- A constant of `exp.type`. -/
def expType (t : ExpType) : JsNumber := .ofInt32 (N.expType t)

/-- The check of `getListType` and `getMapType` on the type a caller gives. -/
def checkValueType (type : JsNumber) : Except JsError Unit :=
  if ExpType.all.any fun t => type.strictEq (expType N t) then .ok () else .error .typeError

/-- The last test of `getListType` and `getMapType`. -/
def checkExpected (type expected : JsNumber) : Except JsError JsNumber :=
  if type.strictEq (expType N .auto) || type.strictEq expected then .ok expected else .error .typeError

/-- `getListType` -/
def getListType (type returnType : JsNumber) (isMulti : Bool) : Except JsError JsNumber := do
  checkValueType N type
  let r := returnType.toInt32 &&& ~~~N.listReturn .inverted
  let is (rt : ListReturnType) : Bool := r = N.listReturn rt
  let expected ←
    if is .index || is .reverseIndex || is .rank || is .reverseRank then
      pure (if isMulti then expType N .list else expType N .int)
    else if is .count then pure (expType N .int)
    else if is .value then pure (if isMulti then expType N .list else type)
    else if is .exists_ then pure (expType N .bool)
    else throw .typeError
  checkExpected N type expected

/-- `getMapType` -/
def getMapType (type returnType : JsNumber) (isMulti : Bool) : Except JsError JsNumber := do
  checkValueType N type
  let r := returnType.toInt32 &&& ~~~N.mapReturn .inverted
  let is (rt : MapReturnType) : Bool := r = N.mapReturn rt
  let expected ←
    if is .index || is .reverseIndex || is .rank || is .reverseRank then
      pure (if isMulti then expType N .list else expType N .int)
    else if is .count then pure (expType N .int)
    else if is .key || is .value then pure (if isMulti then expType N .list else type)
    else if is .exists_ then pure (expType N .bool)
    else if is .keyValue || is .orderedMap || is .unorderedMap then pure (expType N .map)
    else throw .typeError
  checkExpected N type expected

/-- `CdtContext.getContextType`: an empty context has no last item to look at. -/
def getContextType (ctx : Option CdtContext) (type : ExpType) : Except JsError JsNumber :=
  match ctx with
  | none => .ok (expType N type)
  | some ctx =>
    match ctx.items.getLast? with
    | none => .error .typeError
    | some it => .ok (if it.1 &&& CdtContext.LIST_INDEX = 0 then expType N .map else expType N .list)

/-- `_listRead` and `_listStart` -/
def listRead (type returnType : JsNumber) (isMulti : Bool) (ctx : Option CdtContext) (op : CdtOpcode)
    (param : ℕ) (params : List Arg) (bin : Operand) : Call :=
  ⟨getListType N type returnType isMulti, N.sys .callCdt, 1 + param, .ctx ctx, op, params, bin⟩

/-- `_listModify` -/
def listModify (ctx : Option CdtContext) (policy : Option Props) (op : CdtOpcode)
    (param extraParam : ℕ) (params : List Arg) (bin : Operand) : Call :=
  ⟨getContextType N ctx .list, N.sys .callCdt ||| N.sys .flagModifyLocal,
    1 + param + (if policy.isSome then extraParam else 0), .ctx ctx, op, params, bin⟩

/-- `_mapRead` and `_mapStart` -/
def mapRead (type returnType : JsNumber) (isMulti : Bool) (ctx : Option CdtContext) (op : CdtOpcode)
    (param : ℕ) (params : List Arg) (bin : Operand) : Call :=
  ⟨getMapType N type returnType isMulti, N.sys .callCdt, 1 + param, .ctx ctx, op, params, bin⟩

/-- `_mapModify` -/
def mapModify (ctx : Option CdtContext) (policy : Option Props) (op : CdtOpcode)
    (param extraParam : ℕ) (params : List Arg) (bin : Operand) : Call :=
  ⟨getContextType N ctx .map, N.sys .callCdt ||| N.sys .flagModifyLocal,
    1 + param + (if policy.isSome then extraParam else 0), .ctx ctx, op, params, bin⟩

/-- `_bitModStart` -/
def bitModStart (op : CdtOpcode) (param : ℕ) (params : List Arg) (bin : Operand) : Call :=
  ⟨.ok (expType N .blob), N.sys .callBits ||| N.sys .flagModifyLocal, 1 + param, .none, op, params, bin⟩

/-- `_bitReadStart` -/
def bitReadStart (returnType : ExpType) (op : CdtOpcode) (param : ℕ) (params : List Arg)
    (bin : Operand) : Call :=
  ⟨.ok (expType N returnType), N.sys .callBits, 1 + param, .none, op, params, bin⟩

/-- `_hllModifyStart` -/
def hllModifyStart (op : CdtOpcode) (param : ℕ) (params : List Arg) (bin : Operand) : Call :=
  ⟨.ok (expType N .hll), N.sys .callHll ||| N.sys .flagModifyLocal, 1 + param, .none, op, params, bin⟩

/-- `_hllReadStart` -/
def hllReadStart (returnType : ExpType) (op : CdtOpcode) (param : ℕ) (params : List Arg)
    (bin : Operand) : Call :=
  ⟨.ok (expType N returnType), N.sys .callHll, 1 + param, .none, op, params, bin⟩

end

/-- The builders of `lib/exp_lists.js`; their arguments in the source's order. The `returnType` of
the remove builders is dropped by the source. -/
inductive ListCall where
  | size (bin : Operand) (ctx : Option CdtContext)
  | getByValue (bin value : Operand) (returnType : JsNumber) (ctx : Option CdtContext)
  | getByValueRange (bin begin_ end_ : Operand) (returnType : JsNumber) (ctx : Option CdtContext)
  | getByValueList (bin value : Operand) (returnType : JsNumber) (ctx : Option CdtContext)
  | getByRelRankRangeToEnd (bin value rank : Operand) (returnType : JsNumber) (ctx : Option CdtContext)
  | getByRelRankRange (bin value rank count : Operand) (returnType : JsNumber) (ctx : Option CdtContext)
  | getByIndex (bin index : Operand) (valueType returnType : JsNumber) (ctx : Option CdtContext)
  | getByIndexRangeToEnd (bin index : Operand) (returnType : JsNumber) (ctx : Option CdtContext)
  | getByIndexRange (bin index count : Operand) (returnType : JsNumber) (ctx : Option CdtContext)
  | getByRank (bin rank : Operand) (valueType returnType : JsNumber) (ctx : Option CdtContext)
  | getByRankRangeToEnd (bin rank : Operand) (returnType : JsNumber) (ctx : Option CdtContext)
  | getByRankRange (bin rank count : Operand) (returnType : JsNumber) (ctx : Option CdtContext)
  | append (bin value : Operand) (policy : Option Props) (ctx : Option CdtContext)
  | appendItems (bin value : Operand) (policy : Option Props) (ctx : Option CdtContext)
  | insert (bin value idx : Operand) (policy : Option Props) (ctx : Option CdtContext)
  | insertItems (bin value idx : Operand) (policy : Option Props) (ctx : Option CdtContext)
  | increment (bin value idx : Operand) (policy : Option Props) (ctx : Option CdtContext)
  | set (bin value idx : Operand) (policy : Option Props) (ctx : Option CdtContext)
  | clear (bin : Operand) (ctx : Option CdtContext)
  | sort (bin : Operand) (order : JsValue) (ctx : Option CdtContext)
  | removeByValue (bin value : Operand) (ctx : Option CdtContext)
  | removeByValueList (bin values : Operand) (ctx : Option CdtContext)
  | removeByValueRange (bin end_ begin_ : Operand) (ctx : Option CdtContext)
  | removeByRelRankRangeToEnd (bin rank value : Operand) (ctx : Option CdtContext)
  | removeByRelRankRange (bin count rank value : Operand) (ctx : Option CdtContext)
  | removeByIndex (bin idx : Operand) (ctx : Option CdtContext)
  | removeByIndexRangeToEnd (bin idx : Operand) (ctx : Option CdtContext)
  | removeByIndexRange (bin count idx : Operand) (ctx : Option CdtContext)
  | removeByRank (bin rank : Operand) (ctx : Option CdtContext)
  | removeByRankRangeToEnd (bin rank : Operand) (ctx : Option CdtContext)
  | removeByRankRange (bin count rank : Operand) (ctx : Option CdtContext)

/-- The builders of `lib/exp_maps.js`. -/
inductive MapCall where
  | put (bin value key : Operand) (policy : Option Props) (ctx : Option CdtContext)
  | putItems (bin map : Operand) (policy : Option Props) (ctx : Option CdtContext)
  | increment (bin value key : Operand) (policy : Option Props) (ctx : Option CdtContext)
  | clear (bin : Operand) (ctx : Option CdtContext)
  | removeByKey (bin key : Operand) (ctx : Option CdtContext) (returnType : JsNumber)
  | removeByKeyList (bin keys : Operand) (ctx : Option CdtContext) (returnType : JsNumber)
  | removeByKeyRange (bin end_ begin_ : Operand) (ctx : Option CdtContext) (returnType : JsNumber)
  | removeByKeyRelIndexRangeToEnd (bin idx key : Operand) (ctx : Option CdtContext) (returnType : JsNumber)
  | removeByKeyRelIndexRange (bin count idx key : Operand) (ctx : Option CdtContext) (returnType : JsNumber)
  | removeByValue (bin value : Operand) (ctx : Option CdtContext) (returnType : JsNumber)
  | removeByValueList (bin values : Operand) (ctx : Option CdtContext) (returnType : JsNumber)
  | removeByValueRange (bin end_ begin_ : Operand) (ctx : Option CdtContext) (returnType : JsNumber)
  | removeByValueRelRankRangeToEnd (bin rank value : Operand) (ctx : Option CdtContext)
    (returnType : JsNumber)
  | removeByValueRelRankRange (bin count rank value : Operand) (ctx : Option CdtContext)
    (returnType : JsNumber)
  | removeByIndex (bin idx : Operand) (ctx : Option CdtContext) (returnType : JsNumber)
  | removeByIndexRangeToEnd (bin idx : Operand) (ctx : Option CdtContext) (returnType : JsNumber)
  | removeByIndexRange (bin count idx : Operand) (ctx : Option CdtContext) (returnType : JsNumber)
  | removeByRank (bin rank : Operand) (ctx : Option CdtContext) (returnType : JsNumber)
  | removeByRankRangeToEnd (bin rank : Operand) (ctx : Option CdtContext) (returnType : JsNumber)
  | removeByRankRange (bin count rank : Operand) (ctx : Option CdtContext) (returnType : JsNumber)
  | size (bin : Operand) (ctx : Option CdtContext)
  | getByKey (bin key : Operand) (valueType returnType : JsNumber) (ctx : Option CdtContext)
  | getByKeyRange (bin end_ begin_ : Operand) (returnType : JsNumber) (ctx : Option CdtContext)
  | getByKeyList (bin keys : Operand) (returnType : JsNumber) (ctx : Option CdtContext)
  | getByKeyRelIndexRangeToEnd (bin idx key : Operand) (returnType : JsNumber) (ctx : Option CdtContext)
  | getByKeyRelIndexRange (bin count idx key : Operand) (returnType : JsNumber) (ctx : Option CdtContext)
  | getByValue (bin value : Operand) (returnType : JsNumber) (ctx : Option CdtContext)
  | getByValueRange (bin end_ begin_ : Operand) (returnType : JsNumber) (ctx : Option CdtContext)
  | getByValueList (bin values : Operand) (returnType : JsNumber) (ctx : Option CdtContext)
  | getByValueRelRankRangeToEnd (bin rank value : Operand) (returnType : JsNumber)
    (ctx : Option CdtContext)
  | getByValueRelRankRange (bin count rank value : Operand) (returnType : JsNumber)
    (ctx : Option CdtContext)
  | getByIndex (bin idx : Operand) (valueType returnType : JsNumber) (ctx : Option CdtContext)
  | getByIndexRangeToEnd (bin idx : Operand) (returnType : JsNumber) (ctx : Option CdtContext)
  | getByIndexRange (bin count idx : Operand) (returnType : JsNumber) (ctx : Option CdtContext)
  | getByRank (bin rank : Operand) (valueType returnType : JsNumber) (ctx : Option CdtContext)
  | getByRankRangeToEnd (bin rank : Operand) (returnType : JsNumber) (ctx : Option CdtContext)
  | getByRankRange (bin count rank : Operand) (returnType : JsNumber) (ctx : Option CdtContext)

/-- The builders of `lib/exp_bit.js`. -/
inductive BitCall where
  | reSize (bin : Operand) (flags : JsValue) (byteSize : Operand) (policy : Option Props)
  | insert (bin value byteOffset : Operand) (policy : Option Props)
  | remove (bin byteSize byteOffset : Operand) (policy : Option Props)
  | set (bin value bitSize bitOffset : Operand) (policy : Option Props)
  | or (bin value bitSize bitOffset : Operand) (policy : Option Props)
  | xor (bin value bitSize bitOffset : Operand) (policy : Option Props)
  | and (bin value bitSize bitOffset : Operand) (policy : Option Props)
  | not (bin bitSize bitOffset : Operand) (policy : Option Props)
  | lShift (bin shift bitSize bitOffset : Operand) (policy : Option Props)
  | rShift (bin shift bitSize bitOffset : Operand) (policy : Option Props)
  | add (bin : Operand) (action : JsValue) (value bitSize bitOffset : Operand) (policy : Option Props)
  | subtract (bin : Operand) (action : JsValue) (value bitSize bitOffset : Operand)
    (policy : Option Props)
  | setInt (bin value bitSize bitOffset : Operand) (policy : Option Props)
  | get (bin bitSize bitOffset : Operand)
  | count (bin bitSize bitOffset : Operand)
  | lScan (bin value bitSize bitOffset : Operand)
  | rScan (bin value bitSize bitOffset : Operand)
  | getInt (bin : Operand) (sign : JsValue) (bitSize bitOffset : Operand)

/-- The builders of `lib/exp_hll.js`. -/
inductive HllCall where
  | initMH (bin : Operand) (mhBitCount indexBitCount : JsValue) (policy : Option Props)
  | init (bin : Operand) (indexBitCount : JsValue) (policy : Option Props)
  | addMH (bin : Operand) (mhBitCount indexBitCount : JsValue) (list : Operand) (policy : Option Props)
  | add (bin : Operand) (indexBitCount : JsValue) (list : Operand) (policy : Option Props)
  | update (bin list : Operand) (policy : Option Props)
  | getCount (bin : Operand)
  | getUnion (bin list : Operand)
  | getUnionCount (bin list : Operand)
  | getIntersectCount (bin list : Operand)
  | getSimilarity (bin list : Operand)
  | describe (bin : Operand)
  | mayContain (bin list : Operand)

/-- `policy ? policy.flags : 0` -/
def policyFlags (policy : Option Props) : JsValue :=
  match policy with
  | some ps => ps.get (JsString.lit "flags")
  | none => .int 0

def ListCall.call (N : NativeEnums) : ListCall → Call
  | size bin ctx =>
    listRead N (expType N .auto) (.ofInt32 (N.listReturn .count)) false ctx .listSize 0 [] bin
  | getByValue bin value returnType ctx =>
    listRead N (expType N .auto) returnType true ctx .listGetAllByValue 2
      [.int (.num returnType), .expr value] bin
  | getByValueRange bin begin_ end_ returnType ctx =>
    listRead N (expType N .auto) returnType true ctx .listGetByValueInterval 3
      [.int (.num returnType), .expr begin_, .expr end_] bin
  | getByValueList bin value returnType ctx =>
    listRead N (expType N .auto) returnType true ctx .listGetByValueList 2
      [.int (.num returnType), .expr value] bin
  | getByRelRankRangeToEnd bin value rank returnType ctx =>
    listRead N (expType N .auto) returnType true ctx .listGetByValueRelRankRange 3
      [.int (.num returnType), .expr value, .expr rank] bin
  | getByRelRankRange bin value rank count returnType ctx =>
    listRead N (expType N .auto) returnType true ctx .listGetByValueRelRankRange 4
      [.int (.num returnType), .expr value, .expr rank, .expr count] bin
  | getByIndex bin index valueType returnType ctx =>
    listRead N valueType returnType false ctx .listGetByIndex 2
      [.int (.num returnType), .expr index] bin
  | getByIndexRangeToEnd bin index returnType ctx =>
    listRead N (expType N .auto) returnType true ctx .listGetByIndexRange 2
      [.int (.num returnType), .expr index] bin
  | getByIndexRange bin index count returnType ctx =>
    listRead N (expType N .auto) returnType true ctx .listGetByIndexRange 3
      [.int (.num returnType), .expr index, .expr count] bin
  | getByRank bin rank valueType returnType ctx =>
    listRead N valueType returnType false ctx .listGetByRank 2
      [.int (.num returnType), .expr rank] bin
  | getByRankRangeToEnd bin rank returnType ctx =>
    listRead N (expType N .auto) returnType true ctx .listGetByRankRange 2
      [.int (.num returnType), .expr rank] bin
  | getByRankRange bin rank count returnType ctx =>
    listRead N (expType N .auto) returnType true ctx .listGetByRankRange 3
      [.int (.num returnType), .expr rank, .expr count] bin
  | append bin value policy ctx =>
    listModify N ctx policy .listAppend 1 2 [.expr value, .listCrmod policy] bin
  | appendItems bin value policy ctx =>
    listModify N ctx policy .listAppendItems 1 2 [.expr value, .listCrmod policy] bin
  | insert bin value idx policy ctx =>
    listModify N ctx policy .listInsert 2 1 [.expr idx, .expr value, .listCrmod policy] bin
  | insertItems bin value idx policy ctx =>
    listModify N ctx policy .listInsertItems 2 1 [.expr idx, .expr value, .listCrmod policy] bin
  | increment bin value idx policy ctx =>
    listModify N ctx policy .listIncrement 2 2 [.expr idx, .expr value, .listCrmod policy] bin
  | set bin value idx policy ctx =>
    listModify N ctx policy .listSet 2 1 [.expr idx, .expr value, .listCrmod policy] bin
  | clear bin ctx => listModify N ctx none .listClear 0 0 [] bin
  | sort bin order ctx => listModify N ctx none .listSort 1 0 [.int order] bin
  | removeByValue bin value ctx =>
    listModify N ctx none .listRemoveAllByValue 2 0
      [.int (.int (N.listReturn .none)), .expr value] bin
  | removeByValueList bin values ctx =>
    listModify N ctx none .listRemoveByValueList 2 0
      [.int (.int (N.listReturn .none)), .expr values] bin
  | removeByValueRange bin end_ begin_ ctx =>
    listModify N ctx none .listRemoveByValueInterval 3 0
      [.int (.int (N.listReturn .none)), .expr begin_, .expr end_] bin
  | removeByRelRankRangeToEnd bin rank value ctx =>
    listModify N ctx none .listRemoveByValueRelRankRange 3 0
      [.int (.int (N.listReturn .none)), .expr value, .expr rank] bin
  | removeByRelRankRange bin count rank value ctx =>
    listModify N ctx none .listRemoveByValueRelRankRange 4 0
      [.int (.int (N.listReturn .none)), .expr value, .expr rank, .expr count] bin
  | removeByIndex bin idx ctx =>
    listModify N ctx none .listRemoveByIndex 2 0 [.int (.int (N.listReturn .none)), .expr idx] bin
  | removeByIndexRangeToEnd bin idx ctx =>
    listModify N ctx none .listRemoveByIndexRange 2 0
      [.int (.int (N.listReturn .none)), .expr idx] bin
  | removeByIndexRange bin count idx ctx =>
    listModify N ctx none .listRemoveByIndexRange 3 0
      [.int (.int (N.listReturn .none)), .expr idx, .expr count] bin
  | removeByRank bin rank ctx =>
    listModify N ctx none .listRemoveByRank 2 0 [.int (.int (N.listReturn .none)), .expr rank] bin
  | removeByRankRangeToEnd bin rank ctx =>
    listModify N ctx none .listRemoveByRankRange 2 0
      [.int (.int (N.listReturn .none)), .expr rank] bin
  | removeByRankRange bin count rank ctx =>
    listModify N ctx none .listRemoveByRankRange 3 0
      [.int (.int (N.listReturn .none)), .expr rank, .expr count] bin

def MapCall.call (N : NativeEnums) : MapCall → Call
  | put bin value key policy ctx =>
    mapModify N ctx policy .mapPut 2 2 [.expr key, .expr value, .mapCrmod policy] bin
  | putItems bin map policy ctx =>
    mapModify N ctx policy .mapPutItems 1 2 [.expr map, .mapCrmod policy] bin
  | increment bin value key policy ctx =>
    mapModify N ctx policy .mapIncrement 2 1 [.expr key, .expr value, .mapCrmod policy] bin
  | clear bin ctx => mapModify N ctx none .mapClear 0 0 [] bin
  | removeByKey bin key ctx returnType =>
    mapModify N ctx none .mapRemoveByKey 2 0 [.int (.num returnType), .expr key] bin
  | removeByKeyList bin keys ctx returnType =>
    mapModify N ctx none .mapRemoveByKeyList 2 0 [.int (.num returnType), .expr keys] bin
  | removeByKeyRange bin end_ begin_ ctx returnType =>
    mapModify N ctx none .mapRemoveByKeyInterval 3 0
      [.int (.num returnType), .expr begin_, .expr end_] bin
  | removeByKeyRelIndexRangeToEnd bin idx key ctx returnType =>
    mapModify N ctx none .mapRemoveByKeyRelIndexRange 3 0
      [.int (.num returnType), .expr key, .expr idx] bin
  | removeByKeyRelIndexRange bin count idx key ctx returnType =>
    mapModify N ctx none .mapRemoveByKeyRelIndexRange 4 0
      [.int (.num returnType), .expr key, .expr idx, .expr count] bin
  | removeByValue bin value ctx returnType =>
    mapModify N ctx none .mapRemoveAllByValue 2 0 [.int (.num returnType), .expr value] bin
  | removeByValueList bin values ctx returnType =>
    mapModify N ctx none .mapRemoveByValueList 2 0 [.int (.num returnType), .expr values] bin
  | removeByValueRange bin end_ begin_ ctx returnType =>
    mapModify N ctx none .mapRemoveByValueInterval 3 0
      [.int (.num returnType), .expr begin_, .expr end_] bin
  | removeByValueRelRankRangeToEnd bin rank value ctx returnType =>
    mapModify N ctx none .mapRemoveByValueRelRankRange 3 0
      [.int (.num returnType), .expr value, .expr rank] bin
  | removeByValueRelRankRange bin count rank value ctx returnType =>
    mapModify N ctx none .mapRemoveByValueRelRankRange 4 0
      [.int (.num returnType), .expr value, .expr rank, .expr count] bin
  | removeByIndex bin idx ctx returnType =>
    mapModify N ctx none .mapRemoveByIndex 2 0 [.int (.num returnType), .expr idx] bin
  | removeByIndexRangeToEnd bin idx ctx returnType =>
    mapModify N ctx none .mapRemoveByIndexRange 2 0 [.int (.num returnType), .expr idx] bin
  | removeByIndexRange bin count idx ctx returnType =>
    mapModify N ctx none .mapRemoveByIndexRange 3 0
      [.int (.num returnType), .expr idx, .expr count] bin
  | removeByRank bin rank ctx returnType =>
    mapModify N ctx none .mapRemoveByRank 2 0 [.int (.num returnType), .expr rank] bin
  | removeByRankRangeToEnd bin rank ctx returnType =>
    mapModify N ctx none .mapRemoveByRankRange 2 0 [.int (.num returnType), .expr rank] bin
  | removeByRankRange bin count rank ctx returnType =>
    mapModify N ctx none .mapRemoveByRankRange 3 0
      [.int (.num returnType), .expr rank, .expr count] bin
  | size bin ctx =>
    mapRead N (expType N .auto) (.ofInt32 (N.mapReturn .count)) false ctx .mapSize 0 [] bin
  | getByKey bin key valueType returnType ctx =>
    mapRead N valueType returnType false ctx .mapGetByKey 2 [.int (.num returnType), .expr key] bin
  | getByKeyRange bin end_ begin_ returnType ctx =>
    mapRead N (expType N .auto) returnType true ctx .mapGetByKeyInterval 3
      [.int (.num returnType), .expr begin_, .expr end_] bin
  | getByKeyList bin keys returnType ctx =>
    mapRead N (expType N .auto) returnType true ctx .mapGetByKeyList 2
      [.int (.num returnType), .expr keys] bin
  | getByKeyRelIndexRangeToEnd bin idx key returnType ctx =>
    mapRead N (expType N .auto) returnType true ctx .mapGetByKeyRelIndexRange 3
      [.int (.num returnType), .expr key, .expr idx] bin
  | getByKeyRelIndexRange bin count idx key returnType ctx =>
    mapRead N (expType N .auto) returnType true ctx .mapGetByKeyRelIndexRange 4
      [.int (.num returnType), .expr key, .expr idx, .expr count] bin
  | getByValue bin value returnType ctx =>
    mapRead N (expType N .auto) returnType true ctx .mapGetAllByValue 2
      [.int (.num returnType), .expr value] bin
  | getByValueRange bin end_ begin_ returnType ctx =>
    mapRead N (expType N .auto) returnType true ctx .mapGetByValueInterval 3
      [.int (.num returnType), .expr begin_, .expr end_] bin
  | getByValueList bin values returnType ctx =>
    mapRead N (expType N .auto) returnType true ctx .mapGetByValueList 2
      [.int (.num returnType), .expr values] bin
  | getByValueRelRankRangeToEnd bin rank value returnType ctx =>
    mapRead N (expType N .auto) returnType true ctx .mapGetByValueRelRankRange 3
      [.int (.num returnType), .expr value, .expr rank] bin
  | getByValueRelRankRange bin count rank value returnType ctx =>
    mapRead N (expType N .auto) returnType true ctx .mapGetByValueRelRankRange 4
      [.int (.num returnType), .expr value, .expr rank, .expr count] bin
  | getByIndex bin idx valueType returnType ctx =>
    mapRead N valueType returnType false ctx .mapGetByIndex 2 [.int (.num returnType), .expr idx] bin
  | getByIndexRangeToEnd bin idx returnType ctx =>
    mapRead N (expType N .auto) returnType true ctx .mapGetByIndexRange 2
      [.int (.num returnType), .expr idx] bin
  | getByIndexRange bin count idx returnType ctx =>
    mapRead N (expType N .auto) returnType true ctx .mapGetByIndexRange 3
      [.int (.num returnType), .expr idx, .expr count] bin
  | getByRank bin rank valueType returnType ctx =>
    mapRead N valueType returnType false ctx .mapGetByRank 2 [.int (.num returnType), .expr rank] bin
  | getByRankRangeToEnd bin rank returnType ctx =>
    mapRead N (expType N .auto) returnType true ctx .mapGetByRankRange 2
      [.int (.num returnType), .expr rank] bin
  | getByRankRange bin count rank returnType ctx =>
    mapRead N (expType N .auto) returnType true ctx .mapGetByRankRange 3
      [.int (.num returnType), .expr rank, .expr count] bin

def BitCall.call (N : NativeEnums) : BitCall → Call
  | reSize bin flags byteSize policy =>
    bitModStart N .bitResize 3 [.expr byteSize, .uint (policyFlags policy), .uint flags] bin
  | insert bin value byteOffset policy =>
    bitModStart N .bitInsert 3 [.expr byteOffset, .expr value, .uint (policyFlags policy)] bin
  | remove bin byteSize byteOffset policy =>
    bitModStart N .bitRemove 3 [.expr byteOffset, .expr byteSize, .uint (policyFlags policy)] bin
  | set bin value bitSize bitOffset policy =>
    bitModStart N .bitSet 4
      [.expr bitOffset, .expr bitSize, .expr value, .uint (policyFlags policy)] bin
  | or bin value bitSize bitOffset policy =>
    bitModStart N .bitOr 4
      [.expr bitOffset, .expr bitSize, .expr value, .uint (policyFlags policy)] bin
  | xor bin value bitSize bitOffset policy =>
    bitModStart N .bitXor 4
      [.expr bitOffset, .expr bitSize, .expr value, .uint (policyFlags policy)] bin
  | and bin value bitSize bitOffset policy =>
    bitModStart N .bitAnd 4
      [.expr bitOffset, .expr bitSize, .expr value, .uint (policyFlags policy)] bin
  | not bin bitSize bitOffset policy =>
    bitModStart N .bitNot 3 [.expr bitOffset, .expr bitSize, .uint (policyFlags policy)] bin
  | lShift bin shift bitSize bitOffset policy =>
    bitModStart N .bitLshift 4
      [.expr bitOffset, .expr bitSize, .expr shift, .uint (policyFlags policy)] bin
  | rShift bin shift bitSize bitOffset policy =>
    bitModStart N .bitRshift 4
      [.expr bitOffset, .expr bitSize, .expr shift, .uint (policyFlags policy)] bin
  | add bin action value bitSize bitOffset policy =>
    bitModStart N .bitAdd 5
      [.expr bitOffset, .expr bitSize, .expr value, .uint (policyFlags policy), .uint action] bin
  | subtract bin action value bitSize bitOffset policy =>
    bitModStart N .bitSubtract 5
      [.expr bitOffset, .expr bitSize, .expr value, .uint (policyFlags policy), .uint action] bin
  | setInt bin value bitSize bitOffset policy =>
    bitModStart N .bitSetInt 4
      [.expr bitOffset, .expr bitSize, .expr value, .uint (policyFlags policy)] bin
  | get bin bitSize bitOffset => bitReadStart N .blob .bitGet 2 [.expr bitOffset, .expr bitSize] bin
  | count bin bitSize bitOffset => bitReadStart N .int .bitCount 2 [.expr bitOffset, .expr bitSize] bin
  | lScan bin value bitSize bitOffset =>
    bitReadStart N .int .bitLscan 3 [.expr bitOffset, .expr bitSize, .expr value] bin
  | rScan bin value bitSize bitOffset =>
    bitReadStart N .int .bitRscan 3 [.expr bitOffset, .expr bitSize, .expr value] bin
  | getInt bin sign bitSize bitOffset =>
    bitReadStart N .int .bitGetInt 3
      [.expr bitOffset, .expr bitSize, .int (.int (if sign.truthy then 1 else 0))] bin

def HllCall.call (N : NativeEnums) : HllCall → Call
  | initMH bin mhBitCount indexBitCount policy =>
    hllModifyStart N .hllInit 3
      [.int indexBitCount, .int mhBitCount, .int (policyFlags policy)] bin
  | init bin indexBitCount policy =>
    hllModifyStart N .hllInit 2 [.int indexBitCount, .int (policyFlags policy)] bin
  | addMH bin mhBitCount indexBitCount list policy =>
    hllModifyStart N .hllAdd 4
      [.expr list, .int indexBitCount, .int mhBitCount, .int (policyFlags policy)] bin
  | add bin indexBitCount list policy =>
    hllModifyStart N .hllAdd 4
      [.expr list, .int indexBitCount, .int (.int (-1)), .int (policyFlags policy)] bin
  | update bin list policy =>
    hllModifyStart N .hllAdd 4
      [.expr list, .int (.int (-1)), .int (.int (-1)), .int (policyFlags policy)] bin
  | getCount bin => hllReadStart N .int .hllCount 0 [] bin
  | getUnion bin list => hllReadStart N .hll .hllGetUnion 1 [.expr list] bin
  | getUnionCount bin list => hllReadStart N .int .hllUnionCount 1 [.expr list] bin
  | getIntersectCount bin list => hllReadStart N .int .hllIntersectCount 1 [.expr list] bin
  | getSimilarity bin list => hllReadStart N .float .hllSimilarity 1 [.expr list] bin
  | describe bin => hllReadStart N .list .hllDescribe 0 [] bin
  | mayContain bin list => hllReadStart N .int .hllMayContain 1 [.expr list] bin

/-- A call of a list, map, bitwise or HLL builder. -/
inductive CallBuilder where
  | list (c : ListCall)
  | map (c : MapCall)
  | bit (c : BitCall)
  | hll (c : HllCall)

namespace CallBuilder

def call (N : NativeEnums) : CallBuilder → Call
  | list c => c.call N
  | map c => c.call N
  | bit c => c.call N
  | hll c => c.call N

/-- The module a family of builders calls. -/
def sys : CallBuilder → ExpSys
  | list _ | map _ => .callCdt
  | bit _ => .callBits
  | hll _ => .callHll

/-- The builders that count one parameter for a policy, which is two: list `insert`, `insertItems`
and `set` and map `increment`, given a policy. -/
def countsPolicyShort : CallBuilder → Bool
  | list (.insert _ _ _ policy _) | list (.insertItems _ _ _ policy _) | list (.set _ _ _ policy _)
  | map (.increment _ _ _ policy _) => policy.isSome
  | _ => false

end CallBuilder

end AerospikeNode
