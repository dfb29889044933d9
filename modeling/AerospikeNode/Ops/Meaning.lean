import AerospikeNode.Ops.Given

/-!
# What the builders mean

For each builder the operation of the C client that it names, with the builder's arguments and what
the methods were given (`Given`). A return type given by `andReturn` replaces the builder's own.
-/

namespace AerospikeNode

/-- A function on a range with a count, or its variant up to the end where there is no count. -/
def rangeCall (fn toEnd : OpFn) (args : List ArgSpec) (count : JsValue) (more : List ArgSpec) : CallSpec :=
  if count.isNullish then .call toEnd .none (args ++ more)
  else .call fn .none (args ++ .int64 count :: more)

variable (g : Given)

def Given.returning (returnType : JsValue) (inverted : Bool) : ArgSpec :=
  .returnType (g.returnType.getD returnType) inverted

def Given.policyOr (policy : JsValue) : JsValue := g.policy.getD policy

def ScalarBuilder.spec : ScalarBuilder → OpSpec
  | read bin => ⟨some bin, g.context, .call .addRead .none []⟩
  | write bin value => ⟨some bin, g.context, .value .write value⟩
  | add bin value => ⟨some bin, g.context, .value .incr value⟩
  | incr bin value => ⟨some bin, g.context, .value .incr value⟩
  | append bin value => ⟨some bin, g.context, .value .append value⟩
  | prepend bin value => ⟨some bin, g.context, .value .prepend value⟩
  | touch ttl => ⟨none, g.context, .touch ttl⟩
  | delete => ⟨none, g.context, .call .addDelete .none []⟩

def ListBuilder.spec : ListBuilder → CallSpec
  | setOrder order => .call .listSetOrder .none [.int order]
  | sort flags => .call .listSort .none [.int flags]
  | append value policy => .call .listAppend (.list (g.policyOr policy)) [.val value]
  | appendItems list policy => .call .listAppendItems (.list (g.policyOr policy)) [.list list]
  | insert index value policy => .call .listInsert (.list (g.policyOr policy)) [.int64 index, .val value]
  | insertItems index list policy =>
    .call .listInsertItems (.list (g.policyOr policy)) [.int64 index, .list list]
  | pop index => .call .listPop .none [.int64 index]
  | popRange index count => rangeCall .listPopRange .listPopRangeFrom [.int64 index] count []
  | remove index => .call .listRemove .none [.int64 index]
  | removeRange index count => rangeCall .listRemoveRange .listRemoveRangeFrom [.int64 index] count []
  | removeByIndex index returnType =>
    .call .listRemoveByIndex .none [.int64 index, g.returning returnType g.inverted]
  | removeByIndexRange index count returnType =>
    rangeCall .listRemoveByIndexRange .listRemoveByIndexRangeToEnd [.int64 index] count
      [g.returning returnType g.inverted]
  | removeByValue value returnType =>
    .call .listRemoveByValue .none [.val value, g.returning returnType g.inverted]
  | removeByValueList values returnType =>
    .call .listRemoveByValueList .none [.list values, g.returning returnType g.inverted]
  | removeByValueRange begin_ end_ returnType =>
    .call .listRemoveByValueRange .none [.optVal begin_, .optVal end_, g.returning returnType g.inverted]
  | removeByValueRelRankRange value rank count returnType =>
    rangeCall .listRemoveByValueRelRankRange .listRemoveByValueRelRankRangeToEnd
      [.val value, .int64 rank] count [g.returning returnType g.inverted]
  | removeByRank rank returnType =>
    .call .listRemoveByRank .none [.int64 rank, g.returning returnType g.inverted]
  | removeByRankRange rank count returnType =>
    rangeCall .listRemoveByRankRange .listRemoveByRankRangeToEnd [.int64 rank] count
      [g.returning returnType g.inverted]
  | clear => .call .listClear .none []
  | create order pad persistIndex _ => .call .listCreateAll .none
      [.uint32 order, .bool (pad.default (.bool false)), .bool (persistIndex.default (.bool false))]
  | set index value policy => .call .listSet (.list (g.policyOr policy)) [.int64 index, .val value]
  | trim index count => .call .listTrim .none [.int64 index, .int64 count]
  | get index => .call .listGet .none [.int64 index]
  | getRange index count => rangeCall .listGetRange .listGetRangeFrom [.int64 index] count []
  | getByIndex index returnType =>
    .call .listGetByIndex .none [.int64 index, g.returning returnType g.inverted]
  | getByIndexRange index count returnType =>
    rangeCall .listGetByIndexRange .listGetByIndexRangeToEnd [.int64 index] count
      [g.returning returnType g.inverted]
  | getByValue value returnType =>
    .call .listGetByValue .none [.val value, g.returning returnType g.inverted]
  | getByValueList values returnType =>
    .call .listGetByValueList .none [.list values, g.returning returnType g.inverted]
  | getByValueRange begin_ end_ returnType =>
    .call .listGetByValueRange .none [.optVal begin_, .optVal end_, g.returning returnType g.inverted]
  | getByValueRelRankRange value rank count returnType =>
    rangeCall .listGetByValueRelRankRange .listGetByValueRelRankRangeToEnd
      [.val value, .int64 rank] count [g.returning returnType g.inverted]
  | getByRank rank returnType =>
    .call .listGetByRank .none [.int64 rank, g.returning returnType g.inverted]
  | getByRankRange rank count returnType =>
    rangeCall .listGetByRankRange .listGetByRankRangeToEnd [.int64 rank] count
      [g.returning returnType g.inverted]
  | increment index value policy =>
    .call .listIncrement (.list (g.policyOr policy)) [.int64 index, .optVal value]
  | size => .call .listSize .none []

def MapBuilder.spec : MapBuilder → CallSpec
  | setPolicy policy => .call .mapSetPolicy (.map (g.policyOr policy)) []
  | put key value policy => .call .mapPut (.map (g.policyOr policy)) [.val key, .val value]
  | putItems items policy => .call .mapPutItems (.map (g.policyOr policy)) [.items items]
  | increment key incr policy => .call .mapIncrement (.map (g.policyOr policy)) [.val key, .val incr]
  | decrement key decr policy => .call .mapDecrement (.map (g.policyOr policy)) [.val key, .val decr]
  | clear => .call .mapClear .none []
  | removeByKey key returnType => .call .mapRemoveByKey .none [.val key, g.returning returnType false]
  | removeByKeyList keys returnType =>
    .call .mapRemoveByKeyList .none [.list keys, g.returning returnType false]
  | removeByKeyRange begin_ end_ returnType =>
    .call .mapRemoveByKeyRange .none [.optVal begin_, .optVal end_, g.returning returnType false]
  | removeByKeyRelIndexRange key index count returnType =>
    rangeCall .mapRemoveByKeyRelIndexRange .mapRemoveByKeyRelIndexRangeToEnd [.val key, .int64 index] count
      [g.returning returnType false]
  | removeByValue value returnType =>
    .call .mapRemoveByValue .none [.val value, g.returning returnType false]
  | removeByValueList values returnType =>
    .call .mapRemoveByValueList .none [.list values, g.returning returnType false]
  | removeByValueRange begin_ end_ returnType =>
    .call .mapRemoveByValueRange .none [.optVal begin_, .optVal end_, g.returning returnType false]
  | removeByValueRelRankRange value rank count returnType =>
    rangeCall .mapRemoveByValueRelRankRange .mapRemoveByValueRelRankRangeToEnd
      [.val value, .int64 rank] count [g.returning returnType false]
  | removeByIndex index returnType =>
    .call .mapRemoveByIndex .none [.int64 index, g.returning returnType false]
  | removeByIndexRange index count returnType =>
    rangeCall .mapRemoveByIndexRange .mapRemoveByIndexRangeToEnd [.int64 index] count
      [g.returning returnType false]
  | removeByRank rank returnType =>
    .call .mapRemoveByRank .none [.int64 rank, g.returning returnType false]
  | removeByRankRange rank count returnType =>
    rangeCall .mapRemoveByRankRange .mapRemoveByRankRangeToEnd [.int64 rank] count
      [g.returning returnType false]
  | size => .call .mapSize .none []
  | getByKey key returnType => .call .mapGetByKey .none [.val key, g.returning returnType false]
  | getByKeyList keys returnType => .call .mapGetByKeyList .none [.list keys, g.returning returnType false]
  | getByKeyRange begin_ end_ returnType =>
    .call .mapGetByKeyRange .none [.optVal begin_, .optVal end_, g.returning returnType false]
  | getByKeyRelIndexRange key index count returnType =>
    rangeCall .mapGetByKeyRelIndexRange .mapGetByKeyRelIndexRangeToEnd [.val key, .int64 index] count
      [g.returning returnType false]
  | getByValue value returnType => .call .mapGetByValue .none [.val value, g.returning returnType false]
  | getByValueList values returnType =>
    .call .mapGetByValueList .none [.list values, g.returning returnType false]
  | getByValueRange begin_ end_ returnType =>
    .call .mapGetByValueRange .none [.optVal begin_, .optVal end_, g.returning returnType false]
  | getByValueRelRankRange value rank count returnType =>
    rangeCall .mapGetByValueRelRankRange .mapGetByValueRelRankRangeToEnd
      [.val value, .int64 rank] count [g.returning returnType false]
  | getByIndex index returnType => .call .mapGetByIndex .none [.int64 index, g.returning returnType false]
  | getByIndexRange index count returnType =>
    rangeCall .mapGetByIndexRange .mapGetByIndexRangeToEnd [.int64 index] count
      [g.returning returnType false]
  | getByRank rank returnType => .call .mapGetByRank .none [.int64 rank, g.returning returnType false]
  | getByRankRange rank count returnType =>
    rangeCall .mapGetByRankRange .mapGetByRankRangeToEnd [.int64 rank] count
      [g.returning returnType false]
  | create order persistIndex _ =>
    .call .mapCreateAll .none [.uint32 order, .bool (persistIndex.default (.bool false))]

/-- `set` on a number sets an integer. -/
def BitBuilder.spec : BitBuilder → CallSpec
  | resize size flags =>
    .call .bitResize (.bit (g.policyOr .undefined)) [.uint32 size, .int (flags.default (.int 0))]
  | insert byteOffset value =>
    .call .bitInsert (.bit (g.policyOr .undefined)) [.int byteOffset, .bytes value]
  | remove byteOffset byteSize =>
    .call .bitRemove (.bit (g.policyOr .undefined)) [.int byteOffset, .uint32 byteSize]
  | set bitOffset bitSize (.num n) =>
    .call .bitSetInt (.bit (g.policyOr .undefined)) [.int bitOffset, .uint32 bitSize, .int64 (.num n)]
  | set bitOffset bitSize value =>
    .call .bitSet (.bit (g.policyOr .undefined)) [.int bitOffset, .uint32 bitSize, .bytes value]
  | or bitOffset bitSize value =>
    .call .bitOr (.bit (g.policyOr .undefined)) [.int bitOffset, .uint32 bitSize, .bytes value]
  | xor bitOffset bitSize value =>
    .call .bitXor (.bit (g.policyOr .undefined)) [.int bitOffset, .uint32 bitSize, .bytes value]
  | and bitOffset bitSize value =>
    .call .bitAnd (.bit (g.policyOr .undefined)) [.int bitOffset, .uint32 bitSize, .bytes value]
  | not bitOffset bitSize =>
    .call .bitNot (.bit (g.policyOr .undefined)) [.int bitOffset, .uint32 bitSize]
  | lshift bitOffset bitSize shift =>
    .call .bitLshift (.bit (g.policyOr .undefined)) [.int bitOffset, .uint32 bitSize, .uint32 shift]
  | rshift bitOffset bitSize shift =>
    .call .bitRshift (.bit (g.policyOr .undefined)) [.int bitOffset, .uint32 bitSize, .uint32 shift]
  | add bitOffset bitSize value sign =>
    .call .bitAdd (.bit (g.policyOr .undefined)) [.int bitOffset, .uint32 bitSize, .int64 value, .bool sign,
      .int (g.overflowAction.getD (.int BIT_OVERFLOW_FAIL))]
  | subtract bitOffset bitSize value sign =>
    .call .bitSubtract (.bit (g.policyOr .undefined)) [.int bitOffset, .uint32 bitSize, .int64 value,
      .bool sign, .int (g.overflowAction.getD (.int BIT_OVERFLOW_FAIL))]
  | get bitOffset bitSize =>
    .call .bitGet (.bitUnused (g.policyOr .undefined)) [.int bitOffset, .uint32 bitSize]
  | getInt bitOffset bitSize sign =>
    .call .bitGetInt (.bitUnused (g.policyOr .undefined)) [.int bitOffset, .uint32 bitSize, .bool sign]
  | lscan bitOffset bitSize value =>
    .call .bitLscan (.bitUnused (g.policyOr .undefined)) [.int bitOffset, .uint32 bitSize, .bool value]
  | rscan bitOffset bitSize value =>
    .call .bitRscan (.bitUnused (g.policyOr .undefined)) [.int bitOffset, .uint32 bitSize, .bool value]

def HllBuilder.spec : HllBuilder → CallSpec
  | init indexBits minhashBits => .call .hllInitMh (.hll (g.policyOr .undefined))
      [.int indexBits, .int (minhashBits.default (.int (-1)))]
  | add list indexBits minhashBits => .call .hllAddMh (.hll (g.policyOr .undefined))
      [.list list, .int (indexBits.default (.int (-1))), .int (minhashBits.default (.int (-1)))]
  | setUnion list => .call .hllSetUnion (.hll (g.policyOr .undefined)) [.list list]
  | refreshCount => .call .hllRefreshCount .none []
  | fold indexBits => .call .hllFold .none [.int indexBits]
  | getCount => .call .hllRead .none [.command 50]
  | getUnion list => .call .hllReadList .none [.command 51, .list list]
  | getUnionCount list => .call .hllReadList .none [.command 52, .list list]
  | getIntersectCount list => .call .hllReadList .none [.command 53, .list list]
  | getSimilarity list => .call .hllReadList .none [.command 54, .list list]
  | describe => .call .hllRead .none [.command 55]

/-- The operation that a builder and its methods ask for. -/
def Builder.spec : Builder → OpSpec
  | scalar b => b.spec g
  | list bin b => ⟨some bin, g.context, b.spec g⟩
  | map bin b => ⟨some bin, g.context, b.spec g⟩
  | bit bin b => ⟨some bin, g.context, b.spec g⟩
  | hll bin b => ⟨some bin, g.context, b.spec g⟩

end AerospikeNode
