import AerospikeNode.Ops.Exact
import AerospikeNode.Ops.Meaning

/-!
# What the handlers read

Each handler makes of the properties of an object the call that `CallSpec.read` makes of their
values: one lemma for each kind of handler, with the property names and C functions it takes.
-/

namespace AerospikeNode

open JsValue

theorem Except.map_bind {ε α β γ : Type} (x : Except ε α) (f : α → β) (g : β → Except ε γ) :
    (x.map f >>= g) = x >>= fun a => g (f a) := by
  cases x with
  | error e => rfl
  | ok a => rfl

/-- An optional integer is none, or one like any other. -/
theorem optionalInt64Property_cases (v : JsValue) :
    (v.isNullish = true ∧ v.optionalInt64Property = .ok none) ∨
      (v.isNullish = false ∧ v.optionalInt64Property = v.int64Property.map some) := by
  cases v with
  | undefined | null => exact .inl ⟨rfl, rfl⟩
  | _ => exact .inr ⟨rfl, rfl⟩

/-- The return type that `rt` reads of an object is `v`, inverted if `inv` says so. -/
def ReturnsAs [Platform] (rt : JsValue → Res Int32) (obj v : JsValue) (inv : Bool) : Prop :=
  (rt obj).map OpArg.int = (ArgSpec.returnType v inv).read

section
variable {D : PolicyDefaults} {obj : JsValue} {rt : JsValue → Res Int32} {prop rel : String}
  {fn toEnd : OpFn} {v : JsValue} {inv : Bool}

/-- A call is read argument by argument, and its policy last. -/
theorem CallSpec.read_call [Platform] {policy : PolicySpec} {args : List ArgSpec} :
    (CallSpec.call fn policy args).read D =
      (ArgSpec.readAll args >>= fun as =>
        (policy.read D).map fun p => (⟨fn, p, as⟩ : OpCall)).toOption := by
  rw [CallSpec.read]
  cases policy.read D with
  | error e => cases ArgSpec.readAll args <;> rfl
  | ok p => cases ArgSpec.readAll args <;> rfl

/-! ### Return types -/

theorem returnsAs_list [Platform] (h : obj.field "inverted" = .undefined ∧ inv = false ∨
    obj.field "inverted" = .bool inv) :
    ReturnsAs getListReturnType obj (obj.field "returnType") inv := by
  rw [ReturnsAs, getListReturnType, ArgSpec.read]
  rcases h with ⟨hu, rfl⟩ | hb
  · rw [hu]
    cases returnTypeOf (obj.field "returnType") with
    | error e => rfl
    | ok t => rfl
  · rw [hb]
    cases returnTypeOf (obj.field "returnType") with
    | error e => rfl
    | ok t => cases inv <;> rfl

theorem returnsAs_map [Platform] : ReturnsAs getMapReturnType obj (obj.field "returnType") false := by
  rw [ReturnsAs, getMapReturnType, ArgSpec.read]
  cases returnTypeOf (obj.field "returnType") with
  | error e => rfl
  | ok t => rfl

/-! ### Selecting elements of lists and maps -/

theorem atOp_read [Platform] :
    (atOp prop fn obj).toOption = (CallSpec.call fn .none [.int64 (obj.field prop)]).read D := by
  simp only [CallSpec.read_call, ArgSpec.readAll, ArgSpec.read, Except.map_bind, bind_assoc]
  rfl

theorem atRangeOp_read [Platform] :
    (atRangeOp prop fn toEnd obj).toOption =
      (rangeCall fn toEnd [.int64 (obj.field prop)] (obj.field "count") []).read D := by
  rw [atRangeOp, rangeCall]
  rcases optionalInt64Property_cases (obj.field "count") with ⟨hn, hcount⟩ | ⟨hn, hcount⟩
  · rw [hcount, if_pos hn]
    exact atOp_read
  · rw [hcount, hn, if_neg Bool.false_ne_true, List.singleton_append]
    simp only [CallSpec.read_call, ArgSpec.readAll, ArgSpec.read, Except.map_bind, bind_assoc]
    rfl

theorem byIndexOp_read [Platform] (hrt : ReturnsAs rt obj v inv) :
    (byIndexOp rt prop fn obj).toOption =
      (CallSpec.call fn .none [.int64 (obj.field prop), .returnType v inv]).read D := by
  rw [ReturnsAs] at hrt
  simp only [CallSpec.read_call, ArgSpec.readAll, ← hrt]
  simp only [ArgSpec.read, Except.map_bind, bind_assoc]
  rfl

theorem byIndexRangeOp_read [Platform] (hrt : ReturnsAs rt obj v inv) :
    (byIndexRangeOp rt prop fn toEnd obj).toOption =
      (rangeCall fn toEnd [.int64 (obj.field prop)] (obj.field "count") [.returnType v inv]).read D := by
  rw [byIndexRangeOp, rangeCall]
  rcases optionalInt64Property_cases (obj.field "count") with ⟨hn, hcount⟩ | ⟨hn, hcount⟩
  · rw [hcount, if_pos hn]
    exact byIndexOp_read hrt
  · rw [ReturnsAs] at hrt
    rw [hcount, hn, if_neg Bool.false_ne_true, List.singleton_append]
    simp only [CallSpec.read_call, ArgSpec.readAll, ← hrt]
    simp only [ArgSpec.read, Except.map_bind, bind_assoc]
    rfl

theorem byValueOp_read [Platform] (hrt : ReturnsAs rt obj v inv) :
    (byValueOp rt prop fn obj).toOption =
      (CallSpec.call fn .none [.val (obj.field prop), .returnType v inv]).read D := by
  rw [ReturnsAs] at hrt
  simp only [CallSpec.read_call, ArgSpec.readAll, ← hrt]
  simp only [ArgSpec.read, Except.map_bind, bind_assoc]
  rfl

theorem byValueListOp_read [Platform] (hrt : ReturnsAs rt obj v inv) :
    (byValueListOp rt prop fn obj).toOption =
      (CallSpec.call fn .none [.list (obj.field prop), .returnType v inv]).read D := by
  rw [ReturnsAs] at hrt
  simp only [CallSpec.read_call, ArgSpec.readAll, ← hrt]
  simp only [ArgSpec.read, Except.map_bind, bind_assoc]
  rfl

theorem byRangeOp_read [Platform] (hrt : ReturnsAs rt obj v inv) :
    (byRangeOp rt fn obj).toOption =
      (CallSpec.call fn .none [.optVal (obj.field "begin"), .optVal (obj.field "end"),
        .returnType v inv]).read D := by
  rw [ReturnsAs] at hrt
  simp only [CallSpec.read_call, ArgSpec.readAll, ← hrt]
  simp only [ArgSpec.read, Except.map_bind, bind_assoc]
  rfl

theorem byRelRangeOp_read [Platform] (hrt : ReturnsAs rt obj v inv) :
    (byRelRangeOp rt prop fn toEnd rel obj).toOption =
      (rangeCall fn toEnd [.val (obj.field prop), .int64 (obj.field rel)] (obj.field "count")
        [.returnType v inv]).read D := by
  rw [ReturnsAs] at hrt
  rw [byRelRangeOp, rangeCall]
  rcases optionalInt64Property_cases (obj.field "count") with ⟨hn, hcount⟩ | ⟨hn, hcount⟩
  · rw [hcount, if_pos hn, List.cons_append, List.singleton_append]
    simp only [CallSpec.read_call, ArgSpec.readAll, ← hrt]
    simp only [ArgSpec.read, Except.map_bind, bind_assoc]
    rfl
  · rw [hcount, hn, if_neg Bool.false_ne_true, List.cons_append, List.singleton_append]
    simp only [CallSpec.read_call, ArgSpec.readAll, ← hrt]
    simp only [ArgSpec.read, Except.map_bind, bind_assoc]
    rfl

/-! ### Lists -/

theorem addListSetOrderOp_read [Platform] :
    (addListSetOrderOp obj).toOption =
      (CallSpec.call .listSetOrder .none [.int (obj.field "order")]).read D := by
  simp only [CallSpec.read_call, ArgSpec.readAll, ArgSpec.read, Except.map_bind, bind_assoc]
  rfl

theorem addListSortOp_read [Platform] :
    (addListSortOp obj).toOption =
      (CallSpec.call .listSort .none [.int (obj.field "flags")]).read D := by
  simp only [CallSpec.read_call, ArgSpec.readAll, ArgSpec.read, Except.map_bind, bind_assoc]
  rfl

theorem addListAppendOp_read [Platform] :
    (addListAppendOp D obj).toOption =
      (CallSpec.call .listAppend (.list (obj.field "policy")) [.val (obj.field "value")]).read D := by
  simp only [CallSpec.read_call, ArgSpec.readAll, ArgSpec.read, Except.map_bind, bind_assoc]
  rfl

theorem addListAppendItemsOp_read [Platform] :
    (addListAppendItemsOp D obj).toOption =
      (CallSpec.call .listAppendItems (.list (obj.field "policy")) [.list (obj.field "list")]).read D := by
  simp only [CallSpec.read_call, ArgSpec.readAll, ArgSpec.read, Except.map_bind, bind_assoc]
  rfl

theorem addListPutOp_read [Platform] :
    (addListPutOp D fn obj).toOption = (CallSpec.call fn (.list (obj.field "policy"))
      [.int64 (obj.field "index"), .val (obj.field "value")]).read D := by
  simp only [CallSpec.read_call, ArgSpec.readAll, ArgSpec.read, Except.map_bind, bind_assoc]
  rfl

theorem addListInsertItemsOp_read [Platform] :
    (addListInsertItemsOp D obj).toOption = (CallSpec.call .listInsertItems (.list (obj.field "policy"))
      [.int64 (obj.field "index"), .list (obj.field "list")]).read D := by
  simp only [CallSpec.read_call, ArgSpec.readAll, ArgSpec.read, Except.map_bind, bind_assoc]
  rfl

theorem addListTrimOp_read [Platform] :
    (addListTrimOp obj).toOption = (CallSpec.call .listTrim .none
      [.int64 (obj.field "index"), .int64 (obj.field "count")]).read D := by
  simp only [CallSpec.read_call, ArgSpec.readAll, ArgSpec.read, Except.map_bind, bind_assoc]
  rfl

theorem addListIncrementOp_read [Platform] :
    (addListIncrementOp D obj).toOption = (CallSpec.call .listIncrement (.list (obj.field "policy"))
      [.int64 (obj.field "index"), .optVal (obj.field "value")]).read D := by
  simp only [CallSpec.read_call, ArgSpec.readAll, ArgSpec.read, Except.map_bind, bind_assoc]
  rfl

theorem addListCreateOp_read [Platform] :
    (addListCreateOp obj).toOption = (CallSpec.call .listCreateAll .none
      [.uint32 (obj.field "order"), .bool (obj.field "pad"),
        .bool (obj.field "persistIndex")]).read D := by
  simp only [CallSpec.read_call, ArgSpec.readAll, ArgSpec.read, Except.map_bind, bind_assoc]
  rfl

/-! ### Maps -/

theorem addMapSetPolicyOp_read [Platform] :
    (addMapSetPolicyOp D obj).toOption =
      (CallSpec.call .mapSetPolicy (.map (obj.field "policy")) []).read D := by
  simp only [CallSpec.read_call, ArgSpec.readAll]
  rfl

theorem addMapPutOp_read [Platform] :
    (addMapPutOp D obj).toOption = (CallSpec.call .mapPut (.map (obj.field "policy"))
      [.val (obj.field "key"), .val (obj.field "value")]).read D := by
  simp only [CallSpec.read_call, ArgSpec.readAll, ArgSpec.read, Except.map_bind, bind_assoc]
  rfl

theorem addMapPutItemsOp_read [Platform] :
    (addMapPutItemsOp D obj).toOption =
      (CallSpec.call .mapPutItems (.map (obj.field "policy")) [.items (obj.field "items")]).read D := by
  simp only [CallSpec.read_call, ArgSpec.readAll, ArgSpec.read, Except.map_bind, bind_assoc]
  rfl

theorem addMapAddOp_read [Platform] :
    (addMapAddOp D prop fn obj).toOption = (CallSpec.call fn (.map (obj.field "policy"))
      [.val (obj.field "key"), .val (obj.field prop)]).read D := by
  simp only [CallSpec.read_call, ArgSpec.readAll, ArgSpec.read, Except.map_bind, bind_assoc]
  rfl

theorem addMapCreateOp_read [Platform] :
    (addMapCreateOp obj).toOption = (CallSpec.call .mapCreateAll .none
      [.uint32 (obj.field "order"), .bool (obj.field "persistIndex")]).read D := by
  simp only [CallSpec.read_call, ArgSpec.readAll, ArgSpec.read, Except.map_bind, bind_assoc]
  rfl

/-! ### HyperLogLogs -/

theorem addHllInitOp_read [Platform] :
    (addHllInitOp D obj).toOption = (CallSpec.call .hllInitMh (.hll (obj.field "policy"))
      [.int (obj.field "indexBits"), .int (obj.field "minhashBits")]).read D := by
  simp only [CallSpec.read_call, ArgSpec.readAll, ArgSpec.read, Except.map_bind, bind_assoc]
  rfl

/-- The list is read last. -/
theorem addHllAddOp_read [Platform] :
    (addHllAddOp D obj).toOption = (CallSpec.call .hllAddMh (.hll (obj.field "policy"))
      [.list (obj.field "list"), .int (obj.field "indexBits"), .int (obj.field "minhashBits")]).read D := by
  simp only [CallSpec.read_call, ArgSpec.readAll, ArgSpec.read, Except.map_bind, bind_assoc]
  rw [addHllAddOp]
  cases (obj.field "list").listProperty with
  | error e =>
    cases (obj.field "indexBits").intProperty <;> cases (obj.field "minhashBits").intProperty <;>
      cases flagsPolicyArg D.hllFlags obj <;> rfl
  | ok xs =>
    cases (obj.field "indexBits").intProperty with
    | error e => rfl
    | ok i =>
      cases (obj.field "minhashBits").intProperty with
      | error e => rfl
      | ok m =>
        have hpolicy : PolicySpec.read D (.hll (obj.field "policy")) = flagsPolicyArg D.hllFlags obj := rfl
        rw [hpolicy]
        cases flagsPolicyArg D.hllFlags obj <;> rfl

theorem addHllSetUnionOp_read [Platform] :
    (addHllSetUnionOp D obj).toOption =
      (CallSpec.call .hllSetUnion (.hll (obj.field "policy")) [.list (obj.field "list")]).read D := by
  have hpolicy : PolicySpec.read D (.hll (obj.field "policy")) = flagsPolicyArg D.hllFlags obj := rfl
  simp only [CallSpec.read_call, ArgSpec.readAll, ArgSpec.read, Except.map_bind, bind_assoc, hpolicy,
    addHllSetUnionOp]
  cases (obj.field "list").listProperty with
  | error e => cases flagsPolicyArg D.hllFlags obj <;> rfl
  | ok xs => cases flagsPolicyArg D.hllFlags obj <;> rfl

theorem addHllFoldOp_read [Platform] :
    (addHllFoldOp obj).toOption =
      (CallSpec.call .hllFold .none [.int (obj.field "indexBits")]).read D := by
  simp only [CallSpec.read_call, ArgSpec.readAll, ArgSpec.read, Except.map_bind, bind_assoc]
  rfl

theorem addHllReadOp_read [Platform] {c : Int32} (h : obj.field "command" = .int c) :
    (addHllReadOp obj).toOption =
      (CallSpec.call .hllRead .none [.command (JsNumber.ofInt32 c).toUint32.toUInt16]).read D := by
  simp only [CallSpec.read_call, ArgSpec.readAll, ArgSpec.read, addHllReadOp, h]
  rfl

theorem addHllReadListOp_read [Platform] {c : Int32} (h : obj.field "command" = .int c) :
    (addHllReadListOp obj).toOption = (CallSpec.call .hllReadList .none
      [.command (JsNumber.ofInt32 c).toUint32.toUInt16, .list (obj.field "list")]).read D := by
  simp only [CallSpec.read_call, ArgSpec.readAll, ArgSpec.read, Except.map_bind, bind_assoc,
    addHllReadListOp, h]
  rfl

end

/-! ### Bits

The handlers are handed the policy, which has been read before their arguments. -/

/-- What a bitwise handler reads: the arguments of a call of `fn`, with its policy or without one. -/
def ReadsBits [Platform] (handler : OpPolicy → Handler) (obj : JsValue) (fn : OpFn) (policy : OpPolicy → OpPolicy)
    (args : List ArgSpec) : Prop :=
  ∀ p, handler p obj = ArgSpec.readAll args >>= fun as => pure ⟨fn, policy p, as⟩

section
variable {obj : JsValue} {fn : OpFn} {prop : String}

theorem addBitResizeOp_reads [Platform] :
    ReadsBits addBitResizeOp obj .bitResize id [.uint32 (obj.field "size"), .int (obj.field "flags")] := by
  intro p
  simp only [ArgSpec.readAll, ArgSpec.read, Except.map_bind, bind_assoc]
  rfl

theorem addBitInsertOp_reads [Platform] :
    ReadsBits addBitInsertOp obj .bitInsert id
      [.int (obj.field "offset"), .bytes (obj.field "value")] := by
  intro p
  simp only [ArgSpec.readAll, ArgSpec.read, Except.map_bind, bind_assoc]
  rfl

theorem addBitWriteOp_reads [Platform] :
    ReadsBits (addBitWriteOp · fn) obj fn id [.int (obj.field "offset"), .uint32 (obj.field "size")] := by
  intro p
  simp only [ArgSpec.readAll, ArgSpec.read, Except.map_bind, bind_assoc]
  rfl

theorem addBitByteMathOp_reads [Platform] :
    ReadsBits (addBitByteMathOp · fn) obj fn id
      [.int (obj.field "bitOffset"), .uint32 (obj.field "bitSize"), .bytes (obj.field "value")] := by
  intro p
  simp only [ArgSpec.readAll, ArgSpec.read, Except.map_bind, bind_assoc]
  rfl

theorem addBitShiftOp_reads [Platform] :
    ReadsBits (addBitShiftOp · fn) obj fn id
      [.int (obj.field "bitOffset"), .uint32 (obj.field "bitSize"), .uint32 (obj.field "shift")] := by
  intro p
  simp only [ArgSpec.readAll, ArgSpec.read, Except.map_bind, bind_assoc]
  rfl

theorem addBitMathOp_reads [Platform] :
    ReadsBits (addBitMathOp · fn) obj fn id
      [.int (obj.field "bitOffset"), .uint32 (obj.field "bitSize"), .int64 (obj.field "value"),
        .bool (obj.field "sign"), .int (obj.field "overflowAction")] := by
  intro p
  simp only [ArgSpec.readAll, ArgSpec.read, Except.map_bind, bind_assoc]
  rfl

theorem addBitSetIntOp_reads [Platform] :
    ReadsBits addBitSetIntOp obj .bitSetInt id
      [.int (obj.field "bitOffset"), .uint32 (obj.field "bitSize"), .int64 (obj.field "value")] := by
  intro p
  simp only [ArgSpec.readAll, ArgSpec.read, Except.map_bind, bind_assoc]
  rfl

theorem addBitGetOp_reads [Platform] :
    ReadsBits (fun _ => addBitGetOp) obj .bitGet (fun _ => .none)
      [.int (obj.field "bitOffset"), .uint32 (obj.field "bitSize")] := by
  intro p
  simp only [ArgSpec.readAll, ArgSpec.read, Except.map_bind, bind_assoc]
  rfl

theorem addBitFlagOp_reads [Platform] :
    ReadsBits (fun _ => addBitFlagOp prop fn) obj fn (fun _ => .none)
      [.int (obj.field "bitOffset"), .uint32 (obj.field "bitSize"), .bool (obj.field prop)] := by
  intro p
  simp only [ArgSpec.readAll, ArgSpec.read, Except.map_bind, bind_assoc]
  rfl

end

/-! ### Tables -/

namespace OpTable
variable {α β γ : Type}

theorem lists_of_entry {t : OpTable α β} {opcode : UInt32} {e : α × β} (h : t.entry opcode = .ok e) :
    t.Lists opcode := by
  by_contra hnot
  rw [← lookup_eq_none] at hnot
  rw [entry, hnot] at h
  cases h

variable [DecidableEq α]

/-- Names have the same opcodes in tables of the same names. -/
theorem opcode_congr {t : OpTable α β} {t' : OpTable α γ} (name : α) (hoffset : t.offset = t'.offset)
    (hnames : t.entries.map (·.1) = t'.entries.map (·.1)) : t.opcode name = t'.opcode name := by
  have hidx : t.entries.findIdx (·.1 = name) = t'.entries.findIdx (·.1 = name) := by
    have hmap : (t.entries.map (·.1)).findIdx (· = name) = (t'.entries.map (·.1)).findIdx (· = name) := by
      rw [hnames]
    rwa [List.findIdx_map, List.findIdx_map] at hmap
  rw [opcode, opcode, hoffset, hidx]

/-- The opcode of a name selects its entry, if the offset leaves the bits of the indexes free. -/
theorem entry_opcode {t : OpTable α β} {name : α} {e : α × β}
    (hfree : ∀ i ≤ t.entries.length, ((t.offset ||| UInt32.ofNat i) ^^^ t.offset).toNat = i)
    (he : t.entries.find? (·.1 = name) = some e) : t.entry (t.opcode name) = .ok e := by
  have hlookup : t.lookup (t.opcode name) = some e := by
    rw [lookup, opcode, hfree _ List.findIdx_le_length, ← List.find?_eq_getElem?_findIdx, he]
  rw [entry, hlookup]

/-- The opcodes of a table have the bits of its offset under the mask, if the indexes leave them alone. -/
theorem opcode_bits {t : OpTable α β} (name : α)
    (hbits : ∀ i ≤ t.entries.length, (t.offset ||| UInt32.ofNat i) &&& OPS_MASK = t.offset ∧
      (t.offset ||| UInt32.ofNat i).toNat < 2 ^ 31) :
    t.opcode name &&& OPS_MASK = t.offset ∧ (t.opcode name).toNat < 2 ^ 31 :=
  hbits _ List.findIdx_le_length

end OpTable

end AerospikeNode
