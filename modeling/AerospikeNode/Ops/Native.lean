import AerospikeNode.Exp.Objects

/-!
# Native operations

The operations of an `as_operations` of the C client. Of its `as_operations_*` functions it is
assumed that each appends one operation, and that it appends nothing and returns false when the bin
name is longer than 15 bytes or the capacity, a `uint16_t`, is used up.
-/

namespace AerospikeNode

/-- The `as_operations_*` functions the client calls. -/
inductive OpFn where
  | addRead | addWriteDouble | addWriteInt64 | addWrite | addWriteStrp | addWriteRawp
  | addWriteGeojsonStrp | addIncrDouble | addIncr | addPrependStrp | addPrependRawp | addAppendStrp
  | addAppendRawp | addTouch | addDelete
  | listSetOrder | listSort | listAppend | listAppendItems | listInsert | listInsertItems | listPop
  | listPopRange | listPopRangeFrom | listRemove | listRemoveRange | listRemoveRangeFrom
  | listRemoveByIndex | listRemoveByIndexRange | listRemoveByIndexRangeToEnd | listRemoveByValue
  | listRemoveByValueList | listRemoveByValueRange | listRemoveByValueRelRankRange
  | listRemoveByValueRelRankRangeToEnd | listRemoveByRank | listRemoveByRankRange
  | listRemoveByRankRangeToEnd | listClear | listSet | listTrim | listGet | listGetRange
  | listGetRangeFrom | listGetByIndex | listGetByIndexRange | listGetByIndexRangeToEnd
  | listGetByValue | listGetByValueList | listGetByValueRange | listGetByValueRelRankRange
  | listGetByValueRelRankRangeToEnd | listGetByRank | listGetByRankRange | listGetByRankRangeToEnd
  | listIncrement | listSize | listCreateAll
  | mapSetPolicy | mapPut | mapPutItems | mapIncrement | mapDecrement | mapClear | mapRemoveByKey
  | mapRemoveByKeyList | mapRemoveByKeyRange | mapRemoveByKeyRelIndexRange
  | mapRemoveByKeyRelIndexRangeToEnd | mapRemoveByValue | mapRemoveByValueList
  | mapRemoveByValueRange | mapRemoveByValueRelRankRange | mapRemoveByValueRelRankRangeToEnd
  | mapRemoveByIndex | mapRemoveByIndexRange | mapRemoveByIndexRangeToEnd | mapRemoveByRank
  | mapRemoveByRankRange | mapRemoveByRankRangeToEnd | mapSize | mapGetByKey | mapGetByKeyList
  | mapGetByKeyRange | mapGetByKeyRelIndexRange | mapGetByKeyRelIndexRangeToEnd | mapGetByValue
  | mapGetByValueList | mapGetByValueRange | mapGetByValueRelRankRange
  | mapGetByValueRelRankRangeToEnd | mapGetByIndex | mapGetByIndexRange | mapGetByIndexRangeToEnd
  | mapGetByRank | mapGetByRankRange | mapGetByRankRangeToEnd | mapCreateAll
  | bitResize | bitInsert | bitRemove | bitSet | bitOr | bitXor | bitAnd | bitNot | bitLshift
  | bitRshift | bitAdd | bitSubtract | bitSetInt | bitGet | bitLscan | bitRscan | bitGetInt
  | hllInitMh | hllAddMh | hllSetUnion | hllRefreshCount | hllFold | hllRead | hllReadList
  | expWrite | expRead
deriving DecidableEq

/-- An argument of an `as_operations_*` function other than its policy. -/
inductive OpArg where
  | int (i : Int32)
  | int64 (i : Int64)
  | uint32 (u : UInt32)
  | uint16 (u : UInt16)
  | bool (b : Bool)
  | double (d : JsNumber)
  | str (s : Bytes)
  | bytes (bs : Bytes)
  | val (v : Option AsVal)
  | list (xs : List AsVal)
  | map (es : List (AsVal × AsVal))
  | exp (es : Option (List ExpEntry))
deriving DecidableEq

/-- The policy argument; `NULL` is `none`. -/
inductive OpPolicy where
  | none
  | list (p : ListPolicy)
  | map (p : MapPolicy)
  | flags (f : Int32)
deriving DecidableEq

/-- A call of an `as_operations_*` function, its operations, bin and context apart. -/
structure OpCall where
  fn : OpFn
  policy : OpPolicy := .none
  args : List OpArg := []
deriving DecidableEq

/-- An operation; `addTouch` and `addDelete` have no bin, and a touch may set the TTL of all. -/
structure NativeOp where
  bin : Option Bytes
  ctx : Option (List CtxItem) := none
  call : OpCall
deriving DecidableEq

/-- The bin name is not too long. -/
def NativeOp.Fits (op : NativeOp) : Prop := ∀ bin ∈ op.bin, bin.length ≤ 15

instance (op : NativeOp) : Decidable op.Fits :=
  match h : op.bin with
  | none => .isTrue fun _ hb => by rw [h] at hb; cases hb
  | some bin => decidable_of_iff (bin.length ≤ 15) ⟨fun hl b hb => by rw [h] at hb; cases hb; exact hl,
      fun hf => hf bin h⟩

/-- `as_operations` -/
structure Operations where
  capacity : ℕ
  entries : List NativeOp
  room : entries.length ≤ capacity
  fits : ∀ op ∈ entries, op.Fits

namespace Operations

/-- `as_operations_init` -/
def init (capacity : UInt16) : Operations := ⟨capacity.toNat, [], Nat.zero_le _, List.forall_mem_nil _⟩

/-- An `as_operations_*` function: what becomes of the operations, `none` where it returns false. -/
def add (ops : Operations) (op : NativeOp) : Option Operations :=
  if h : op.Fits ∧ ops.entries.length < ops.capacity then
    some ⟨ops.capacity, ops.entries ++ [op], by rw [List.length_append]; exact h.2, fun op' hop => by
      rcases List.mem_append.1 hop with hop | hop
      · exact ops.fits op' hop
      · exact List.mem_singleton.1 hop ▸ h.1⟩
  else none

theorem add_eq_some {ops ops' : Operations} {op : NativeOp} : ops.add op = some ops' ↔
    op.Fits ∧ ops.entries.length < ops.capacity ∧ ops'.capacity = ops.capacity ∧
      ops'.entries = ops.entries ++ [op] := by
  rw [add]
  constructor
  · intro h
    split_ifs at h with hf
    cases h
    exact ⟨hf.1, hf.2, rfl, rfl⟩
  · rintro ⟨hf, hr, hc, he⟩
    rw [dif_pos ⟨hf, hr⟩]
    cases ops'
    cases hc; cases he
    rfl

theorem add_eq_none {ops : Operations} {op : NativeOp} :
    ops.add op = none ↔ ¬(op.Fits ∧ ops.entries.length < ops.capacity) := by
  rw [add]
  split_ifs with h
  · simp [h]
  · simp [h]

end Operations

end AerospikeNode
