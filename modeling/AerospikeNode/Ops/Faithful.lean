import AerospikeNode.Ops.Handled

/-!
# From a builder to a native operation

The object of each builder, with any methods called on it, is read as the operation that the builder
names (`Builder.handled`), but for `bitwise.lscan`, which is read as `bitwise.rscan`.
`addsFaithfully_iff` says for which builders and arguments `add_operation` fails or appends the
operation that was asked for: an operation on a list or a map is dropped without an error when its bin
name is too long or there is no room, and numbers and texts that the C client has no room for are
changed on the way.
-/

namespace AerospikeNode

open JsValue

/-- What `add_operation` reads of an object is the operation `s`; `checked` says that it tests what
the C client returns. -/
structure Handled [Platform] (D : PolicyDefaults) (obj : JsValue) (checked : Bool) (s : OpSpec) : Prop where
  read : (elementOperation D obj).toOption = (s.read D (obj.field "context")).map (checked, ·)
  context : obj.field "context" = s.ctx ∨ NoContext s.ctx
  inside : elementOperation D obj ≠ .error .outOfBounds

section
variable {D : PolicyDefaults} {op : UInt32} {bin : JsValue} {props : List (String × JsValue)}
  {g : Given} {o : Operation} {call : CallSpec}

/-- The opcode that a builder sets is read back. -/
theorem elementOperation_of_gives [Platform] (hg : Gives op bin props g o.toJs) (hop : op.toNat < 2 ^ 31) :
    elementOperation D o.toJs = readOperation D op o.toJs := by
  have hopcode : elementOpcode o.toJs = .ok op := by
    show (o.toJs.field "op").uint32Property = .ok op
    rw [hg.op]
    show Except.ok (JsNumber.ofInt32 (Int32.ofNat op.toNat)).toUint32 = .ok op
    rw [JsNumber.toUint32_ofInt32 hop, UInt32.ofNat_toNat]
  rw [elementOperation, hopcode]
  rfl

theorem map_toOption {ε α β : Type} {r : Except ε α} {f : α → β} :
    (r.map f).toOption = r.toOption.map f := by
  cases r with
  | error e => rfl
  | ok a => rfl

/-! ### Shapes of arguments -/

/-- The object of a builder, whose handler reads the calls of `R` of it: the object is read as any of them. -/
structure HandledBy [Platform] (D : PolicyDefaults) (bin : JsValue) (props : List (String × JsValue)) (g : Given)
    (obj : JsValue) (checked : Bool) (R : CallSpec → Prop) : Prop where
  other : ∀ name, name ∉ "op" :: "bin" :: methodProps → obj.field name = propOf props name
  policy : obj.field "policy" = g.policyOr (propOf props "policy")
  handled : ∀ call, R call → Handled D obj checked ⟨some bin, g.context, call⟩

namespace HandledBy
variable [Platform] {obj : JsValue} {checked : Bool} {R : CallSpec → Prop} {fn : OpFn} {P : JsValue → PolicySpec}
  (h : HandledBy D bin props g obj checked R)
include h

/-- One field. -/
theorem one {C : JsValue → CallSpec} (n : String) (v : JsValue) (hn : n ∉ "op" :: "bin" :: methodProps)
    (hv : propOf props n = v) (hread : R (C (obj.field n))) :
    Handled D obj checked ⟨some bin, g.context, C v⟩ := by
  rw [h.other n hn, hv] at hread
  exact h.handled _ hread

/-- Two fields. -/
theorem two {C : JsValue → JsValue → CallSpec} (n m : String) (v w : JsValue)
    (hnames : ∀ name ∈ [n, m], name ∉ "op" :: "bin" :: methodProps) (hv : propOf props n = v)
    (hw : propOf props m = w) (hread : R (C (obj.field n) (obj.field m))) :
    Handled D obj checked ⟨some bin, g.context, C v w⟩ := by
  rw [h.other m (hnames m (by simp)), hw] at hread
  apply h.one n v (hnames n (by simp)) hv
  exact hread

/-- Three fields. -/
theorem three {C : JsValue → JsValue → JsValue → CallSpec} (n m k : String) (v w x : JsValue)
    (hnames : ∀ name ∈ [n, m, k], name ∉ "op" :: "bin" :: methodProps) (hv : propOf props n = v)
    (hw : propOf props m = w) (hx : propOf props k = x) (hread : R (C (obj.field n) (obj.field m) (obj.field k))) :
    Handled D obj checked ⟨some bin, g.context, C v w x⟩ := by
  rw [h.other k (hnames k (by simp)), hx] at hread
  apply h.two n m v w (fun name hname => hnames name (List.mem_append_left [k] hname)) hv hw
  exact hread

/-- One field and the policy. -/
theorem onePolicy {args : JsValue → List ArgSpec} {p : JsValue} (n : String) (v : JsValue)
    (hn : n ∉ "op" :: "bin" :: methodProps) (hv : propOf props n = v) (hp : propOf props "policy" = p)
    (hread : R (.call fn (P (obj.field "policy")) (args (obj.field n)))) :
    Handled D obj checked ⟨some bin, g.context, .call fn (P (g.policyOr p)) (args v)⟩ := by
  rw [h.policy, hp] at hread
  apply h.one n v hn hv
  exact hread

/-- Two fields and the policy. -/
theorem twoPolicy {args : JsValue → JsValue → List ArgSpec} {p : JsValue} (n m : String) (v w : JsValue)
    (hnames : ∀ name ∈ [n, m], name ∉ "op" :: "bin" :: methodProps) (hv : propOf props n = v)
    (hw : propOf props m = w) (hp : propOf props "policy" = p)
    (hread : R (.call fn (P (obj.field "policy")) (args (obj.field n) (obj.field m)))) :
    Handled D obj checked ⟨some bin, g.context, .call fn (P (g.policyOr p)) (args v w)⟩ := by
  rw [h.policy, hp] at hread
  apply h.two n m v w hnames hv hw
  exact hread

end HandledBy

/-! ### Tables of list and map operations -/

theorem cdtOp_read [Platform] {α : Type} {t : OpTable α Handler} {name : α} {handler : Handler} {obj ctx : JsValue}
    (hentry : t.entry op = .ok (name, handler)) (hcall : (handler obj).toOption = call.read D) :
    (cdtOp op obj t).toOption =
      OpSpec.read D ⟨some (obj.field "bin"), ctx, call⟩ (obj.field "context") := by
  simp only [cdtOp, hentry, OpSpec.read, OpSpec.readBin, ← hcall]
  cases (obj.field "bin").stringProperty with
  | error e => rfl
  | ok b =>
    cases contextOfJs (obj.field "context") with
    | error e => rfl
    | ok c =>
      show (reading (handler obj) >>= fun call => pure (⟨some b, c, call⟩ : NativeOp)).toOption = _
      cases handler obj <;> rfl

theorem cdtOp_inside [Platform] {α : Type} {t : OpTable α Handler} {name : α} {handler : Handler} {obj : JsValue}
    (hentry : t.entry op = .ok (name, handler)) : cdtOp op obj t ≠ .error .outOfBounds := by
  rw [Ne, cdtOp_outOfBounds]
  rintro ⟨-, -, hnot⟩
  exact hnot (OpTable.lists_of_entry hentry)

theorem ListOp.entry_opcode [Platform] {name : ListOp} {handler : Handler}
    (hfind : (ListOp.table D).entries.find? (·.1 = name) = some (name, handler)) :
    (ListOp.table D).entry ((ListOp.table .client).opcode name) = .ok (name, handler) := by
  have hsame : (ListOp.table .client).opcode name = (ListOp.table D).opcode name :=
    OpTable.opcode_congr name rfl rfl
  have hfree : ∀ i ≤ 34, (((0x0100 : UInt32) ||| UInt32.ofNat i) ^^^ 0x0100).toNat = i := by decide
  rw [hsame]
  exact OpTable.entry_opcode hfree hfind

theorem ListOp.opcode_bits [Platform] (name : ListOp) : (ListOp.table .client).opcode name &&& OPS_MASK = 0x0100 ∧
    ((ListOp.table .client).opcode name).toNat < 2 ^ 31 := by
  have hbits : ∀ i ≤ 34, ((0x0100 : UInt32) ||| UInt32.ofNat i) &&& OPS_MASK = 0x0100 ∧
      ((0x0100 : UInt32) ||| UInt32.ofNat i).toNat < 2 ^ 31 := by decide
  exact OpTable.opcode_bits name hbits

theorem Gives.handled_list [Platform] {name : ListOp} {handler : Handler}
    (hg : Gives ((ListOp.table .client).opcode name) bin props g o.toJs)
    (hfind : (ListOp.table D).entries.find? (·.1 = name) = some (name, handler)) :
    HandledBy D bin props g o.toJs false fun call => (handler o.toJs).toOption = call.read D := by
  obtain ⟨hmask, hlt⟩ := name.opcode_bits
  have hentry := ListOp.entry_opcode hfind
  have hread : elementOperation D o.toJs =
      (cdtOp ((ListOp.table .client).opcode name) o.toJs (ListOp.table D)).map (false, ·) := by
    rw [elementOperation_of_gives hg hlt, readOperation, hmask, if_neg (by decide), if_pos rfl]
  refine ⟨hg.other, hg.policy, fun call hcall => ⟨?_, hg.context, ?_⟩⟩
  · rw [hread, map_toOption, cdtOp_read hentry hcall, hg.bin]
  · rw [hread, Ne, map_eq_error]
    exact cdtOp_inside hentry

theorem MapOp.entry_opcode [Platform] {name : MapOp} {handler : Handler}
    (hfind : (MapOp.table D).entries.find? (·.1 = name) = some (name, handler)) :
    (MapOp.table D).entry ((MapOp.table .client).opcode name) = .ok (name, handler) := by
  have hsame : (MapOp.table .client).opcode name = (MapOp.table D).opcode name :=
    OpTable.opcode_congr name rfl rfl
  have hfree : ∀ i ≤ 32, (((0x0200 : UInt32) ||| UInt32.ofNat i) ^^^ 0x0200).toNat = i := by decide
  rw [hsame]
  exact OpTable.entry_opcode hfree hfind

theorem MapOp.opcode_bits [Platform] (name : MapOp) : (MapOp.table .client).opcode name &&& OPS_MASK = 0x0200 ∧
    ((MapOp.table .client).opcode name).toNat < 2 ^ 31 := by
  have hbits : ∀ i ≤ 32, ((0x0200 : UInt32) ||| UInt32.ofNat i) &&& OPS_MASK = 0x0200 ∧
      ((0x0200 : UInt32) ||| UInt32.ofNat i).toNat < 2 ^ 31 := by decide
  exact OpTable.opcode_bits name hbits

theorem Gives.handled_map [Platform] {name : MapOp} {handler : Handler}
    (hg : Gives ((MapOp.table .client).opcode name) bin props g o.toJs)
    (hfind : (MapOp.table D).entries.find? (·.1 = name) = some (name, handler)) :
    HandledBy D bin props g o.toJs false fun call => (handler o.toJs).toOption = call.read D := by
  obtain ⟨hmask, hlt⟩ := name.opcode_bits
  have hentry := MapOp.entry_opcode hfind
  have hread : elementOperation D o.toJs =
      (cdtOp ((MapOp.table .client).opcode name) o.toJs (MapOp.table D)).map (false, ·) := by
    rw [elementOperation_of_gives hg hlt, readOperation, hmask, if_neg (by decide), if_neg (by decide), if_pos rfl]
  refine ⟨hg.other, hg.policy, fun call hcall => ⟨?_, hg.context, ?_⟩⟩
  · rw [hread, map_toOption, cdtOp_read hentry hcall, hg.bin]
  · rw [hread, Ne, map_eq_error]
    exact cdtOp_inside hentry

/-! ### Tables of operations without a context -/

/-- The classes without `withContext` are given no context. -/
theorem Operation.context_of_applyAll {ms : List Modifier} {o' : Operation} (h : o.applyAll ms = some o')
    (hcls : o.cls.hasWithContext = false) : (Given.of ms).context = .undefined := by
  have hfold : ∀ g : Given, g.context = .undefined → (ms.foldl Given.add g).context = .undefined := by
    induction ms generalizing o with
    | nil => exact fun g hg => hg
    | cons m ms ih =>
      obtain ⟨o₁, hm, hms⟩ := Option.bind_eq_some_iff.1 h
      intro g hg
      have hadd : (g.add m).context = .undefined ∧ o₁.cls = o.cls := by
        cases m with
        | withContext arg =>
          have hnot : o.cls ≠ .mapOperation := by
            intro hmap
            rw [hmap] at hcls
            cases hcls
          cases arg with
          | context ctx | function ctx =>
            rw [Operation.apply, Operation.withContext, hcls, if_neg Bool.false_ne_true] at hm
            cases hm
          | other v hv =>
            rw [Operation.apply, Operation.withContext, if_neg hnot] at hm
            cases hm
        | _ =>
          rw [Operation.apply] at hm
          split_ifs at hm
          cases hm
          exact ⟨hg, rfl⟩
      exact ih hms (hadd.2 ▸ hcls) _ hadd.1
  exact hfold {} rfl

theorem Gives.noContext [Platform] {obj : JsValue} (hg : Gives op bin props g obj) (hctx : g.context = .undefined) :
    contextOfJs (obj.field "context") = .ok none := by
  rcases hg.context with h | ⟨h, -⟩
  · rw [h, hctx]
    rfl
  · rw [hctx] at h
    cases h

theorem BitOp.opcode_bits (name : BitOp) : BitOp.table.opcode name &&& OPS_MASK = 0x0300 ∧
    (BitOp.table.opcode name).toNat < 2 ^ 31 := by
  cases name <;> decide

theorem Gives.handled_bit [Platform] {name : BitOp} {handler : OpPolicy → Handler}
    {policy : OpPolicy → OpPolicy} {spec : PolicySpec} (hg : Gives (BitOp.table.opcode name) bin props g o.toJs)
    (hctx : g.context = .undefined)
    (hfind : BitOp.table.entries.find? (·.1 = name) = some (name, handler))
    (hpolicy : spec.read D = (flagsPolicyArg D.bitFlags o.toJs).map policy) :
    HandledBy D bin props g o.toJs true fun call =>
      ∃ fn args, call = .call fn spec args ∧ ReadsBits handler o.toJs fn policy args := by
  obtain ⟨hmask, hlt⟩ := name.opcode_bits
  have hentry : BitOp.table.entry (BitOp.table.opcode name) = .ok (name, handler) :=
    OpTable.entry_opcode (by decide) hfind
  have hread : elementOperation D o.toJs = (bitOp D (BitOp.table.opcode name) o.toJs).map (true, ·) := by
    rw [elementOperation_of_gives hg hlt, readOperation, hmask, if_neg (by decide), if_neg (by decide),
      if_neg (by decide), if_pos rfl]
  have hnone := hg.noContext hctx
  refine ⟨hg.other, hg.policy, ?_⟩
  rintro _ ⟨fn, args, rfl, hcall⟩
  refine ⟨?_, hg.context, ?_⟩
  · rw [hread, map_toOption, bitOp, hentry, hg.bin]
    simp only [OpSpec.read, OpSpec.readBin, hnone, CallSpec.read_call, hpolicy]
    cases bin.stringProperty with
    | error e => rfl
    | ok b =>
      cases flagsPolicyArg D.bitFlags o.toJs with
      | error e => cases ArgSpec.readAll args <;> rfl
      | ok p =>
        show (reading (handler p o.toJs) >>= fun call =>
          pure (⟨some b, none, call⟩ : NativeOp)).toOption.map _ = _
        rw [hcall p]
        cases ArgSpec.readAll args <;> rfl
  · rw [hread, Ne, map_eq_error, bitOp_outOfBounds]
    rintro ⟨-, -, hnot⟩
    exact hnot (OpTable.lists_of_entry hentry)

theorem HllOp.entry_opcode [Platform] {name : HllOp} {handler : Handler}
    (hfind : (HllOp.table D).entries.find? (·.1 = name) = some (name, handler)) :
    (HllOp.table D).entry ((HllOp.table .client).opcode name) = .ok (name, handler) := by
  have hsame : (HllOp.table .client).opcode name = (HllOp.table D).opcode name :=
    OpTable.opcode_congr name rfl rfl
  have hfree : ∀ i ≤ 7, (((0x0400 : UInt32) ||| UInt32.ofNat i) ^^^ 0x0400).toNat = i := by decide
  rw [hsame]
  exact OpTable.entry_opcode hfree hfind

theorem HllOp.opcode_bits [Platform] (name : HllOp) : (HllOp.table .client).opcode name &&& OPS_MASK = 0x0400 ∧
    ((HllOp.table .client).opcode name).toNat < 2 ^ 31 := by
  have hbits : ∀ i ≤ 7, ((0x0400 : UInt32) ||| UInt32.ofNat i) &&& OPS_MASK = 0x0400 ∧
      ((0x0400 : UInt32) ||| UInt32.ofNat i).toNat < 2 ^ 31 := by decide
  exact OpTable.opcode_bits name hbits

theorem Gives.handled_hll [Platform] {name : HllOp} {handler : Handler}
    (hg : Gives ((HllOp.table .client).opcode name) bin props g o.toJs) (hctx : g.context = .undefined)
    (hfind : (HllOp.table D).entries.find? (·.1 = name) = some (name, handler)) :
    HandledBy D bin props g o.toJs true fun call => (handler o.toJs).toOption = call.read D := by
  obtain ⟨hmask, hlt⟩ := name.opcode_bits
  have hentry := HllOp.entry_opcode hfind
  have hread : elementOperation D o.toJs =
      (hllOp D ((HllOp.table .client).opcode name) o.toJs).map (true, ·) := by
    rw [elementOperation_of_gives hg hlt, readOperation, hmask, if_neg (by decide), if_neg (by decide),
      if_neg (by decide), if_neg (by decide), if_pos rfl]
  refine ⟨hg.other, hg.policy, fun call hcall => ⟨?_, hg.context, ?_⟩⟩
  · rw [hread, map_toOption, hllOp, hentry, hg.bin]
    simp only [OpSpec.read, OpSpec.readBin, hg.noContext hctx, ← hcall]
    cases bin.stringProperty with
    | error e => rfl
    | ok b =>
      show (reading (handler o.toJs) >>= fun call =>
        pure (⟨some b, none, call⟩ : NativeOp)).toOption.map _ = _
      cases handler o.toJs <;> rfl
  · rw [hread, Ne, map_eq_error, hllOp_outOfBounds]
    rintro ⟨-, hnot⟩
    exact hnot (OpTable.lists_of_entry hentry)

theorem ScalarOp.opcode_bits [Platform] (name : ScalarOp) : ScalarOp.table.opcode name &&& OPS_MASK = 0x0000 ∧
    (ScalarOp.table.opcode name).toNat < 2 ^ 31 := by
  have hbits : ∀ i ≤ 7, ((0x0000 : UInt32) ||| UInt32.ofNat i) &&& OPS_MASK = 0x0000 ∧
      ((0x0000 : UInt32) ||| UInt32.ofNat i).toNat < 2 ^ 31 := by decide
  exact OpTable.opcode_bits name hbits

theorem Gives.handled_scalar [Platform] {name : ScalarOp} {handler : Handler}
    (hg : Gives (ScalarOp.table.opcode name) bin props g o.toJs) (hctx : g.context = .undefined)
    (hfind : ScalarOp.table.entries.find? (·.1 = name) = some (name, handler))
    (hcall : (handler o.toJs).toOption = call.read D) :
    Handled D o.toJs true ⟨if name.needsBin then some bin else none, g.context, call⟩ := by
  obtain ⟨hmask, hlt⟩ := name.opcode_bits
  have hfree : ∀ i ≤ 7, (((0x0000 : UInt32) ||| UInt32.ofNat i) ^^^ 0x0000).toNat = i := by decide
  have hentry : ScalarOp.table.entry (ScalarOp.table.opcode name) = .ok (name, handler) :=
    OpTable.entry_opcode hfree hfind
  have hread : elementOperation D o.toJs = (scalarOp (ScalarOp.table.opcode name) o.toJs).map (true, ·) := by
    rw [elementOperation_of_gives hg hlt, readOperation, hmask, if_pos rfl]
  refine ⟨?_, hg.context, ?_⟩
  · rw [hread, map_toOption, scalarOp, hentry, hg.bin]
    simp only [OpSpec.read, hg.noContext hctx, ← hcall]
    show (reading (if name.needsBin then bin.stringProperty.map some else .ok none) >>= fun b =>
      reading (handler o.toJs) >>= fun call => pure (⟨b, none, call⟩ : NativeOp)).toOption.map _ = _
    cases name.needsBin with
    | false => cases handler o.toJs <;> rfl
    | true =>
      simp only [if_true, OpSpec.readBin]
      cases bin.stringProperty with
      | error e => rfl
      | ok b => cases handler o.toJs <;> rfl
  · rw [hread, Ne, map_eq_error, scalarOp_outOfBounds]
    exact fun hnot => hnot (OpTable.lists_of_entry hentry)

/-! ### What a builder's object is read as -/

theorem Gives.returnsList [Platform] {returnType : JsValue} {obj : JsValue} (hg : Gives op bin props g obj)
    (hr : propOf props "returnType" = returnType)
    (hi : propOf props "inverted" = .undefined ∨ propOf props "inverted" = .bool false) :
    ReturnsAs getListReturnType obj (g.returnType.getD returnType) g.inverted := by
  rw [← hr, ← hg.returnType]
  refine returnsAs_list ?_
  rw [hg.inverted]
  cases g.inverted with
  | true => exact .inr rfl
  | false =>
    rcases hi with hi | hi
    · exact .inl ⟨hi, rfl⟩
    · exact .inr hi

theorem Gives.returnsMap [Platform] {returnType : JsValue} {obj : JsValue} (hg : Gives op bin props g obj)
    (hr : propOf props "returnType" = returnType) :
    ReturnsAs getMapReturnType obj (g.returnType.getD returnType) false := by
  rw [← hr, ← hg.returnType]
  exact returnsAs_map

theorem ListBuilder.handled [Platform] {b : ListBuilder} {ms : List Modifier}
    (h : (b.build bin).applyAll ms = some o) :
    Handled D o.toJs false ⟨some bin, (Given.of ms).context, b.spec (Given.of ms)⟩ := by
  cases b with
  | setOrder order =>
    apply ((gives h rfl).handled_list rfl).one "order" order (by decide) rfl
    exact addListSetOrderOp_read
  | sort flags =>
    apply ((gives h rfl).handled_list rfl).one "flags" flags (by decide) rfl
    exact addListSortOp_read
  | append value policy =>
    apply ((gives h rfl).handled_list rfl).onePolicy "value" value (by decide) rfl rfl
    exact addListAppendOp_read
  | appendItems list policy =>
    apply ((gives h rfl).handled_list rfl).onePolicy "list" list (by decide) rfl rfl
    exact addListAppendItemsOp_read
  | insert index value policy =>
    apply ((gives h rfl).handled_list rfl).twoPolicy "index" "value" index value (by decide) rfl rfl rfl
    exact addListPutOp_read
  | insertItems index list policy =>
    apply ((gives h rfl).handled_list rfl).twoPolicy "index" "list" index list (by decide) rfl rfl rfl
    exact addListInsertItemsOp_read
  | pop index =>
    apply ((gives h rfl).handled_list rfl).one "index" index (by decide) rfl
    exact atOp_read
  | popRange index count =>
    apply ((gives h rfl).handled_list rfl).two "index" "count" index count (by decide) rfl rfl
    exact atRangeOp_read
  | remove index =>
    apply ((gives h rfl).handled_list rfl).one "index" index (by decide) rfl
    exact atOp_read
  | removeRange index count =>
    apply ((gives h rfl).handled_list rfl).two "index" "count" index count (by decide) rfl rfl
    exact atRangeOp_read
  | removeByIndex index returnType =>
    have hg := gives h rfl
    apply (hg.handled_list rfl).one "index" index (by decide) rfl
    exact byIndexOp_read (hg.returnsList rfl (.inl rfl))
  | removeByIndexRange index count returnType =>
    have hg := gives h rfl
    apply (hg.handled_list rfl).two "index" "count" index count (by decide) rfl rfl
    exact byIndexRangeOp_read (hg.returnsList rfl (.inr rfl))
  | removeByValue value returnType =>
    have hg := gives h rfl
    apply (hg.handled_list rfl).one "value" value (by decide) rfl
    exact byValueOp_read (hg.returnsList rfl (.inr rfl))
  | removeByValueList values returnType =>
    have hg := gives h rfl
    apply (hg.handled_list rfl).one "values" values (by decide) rfl
    exact byValueListOp_read (hg.returnsList rfl (.inr rfl))
  | removeByValueRange begin_ end_ returnType =>
    have hg := gives h rfl
    apply (hg.handled_list rfl).two "begin" "end" begin_ end_ (by decide) rfl rfl
    exact byRangeOp_read (hg.returnsList rfl (.inr rfl))
  | removeByValueRelRankRange value rank count returnType =>
    have hg := gives h rfl
    apply (hg.handled_list rfl).three "value" "rank" "count" value rank count (by decide) rfl rfl rfl
    exact byRelRangeOp_read (hg.returnsList rfl (.inr rfl))
  | removeByRank rank returnType =>
    have hg := gives h rfl
    apply (hg.handled_list rfl).one "rank" rank (by decide) rfl
    exact byIndexOp_read (hg.returnsList rfl (.inl rfl))
  | removeByRankRange rank count returnType =>
    have hg := gives h rfl
    apply (hg.handled_list rfl).two "rank" "count" rank count (by decide) rfl rfl
    exact byIndexRangeOp_read (hg.returnsList rfl (.inr rfl))
  | clear => exact ((gives h rfl).handled_list rfl).handled _ rfl
  | create order pad persistIndex ctx =>
    rw [ListBuilder.spec]
    generalize hpad : pad.default (.bool false) = pad'
    generalize hpersist : persistIndex.default (.bool false) = persistIndex'
    apply ((gives h rfl).handled_list rfl).three "order" "pad" "persistIndex" order pad' persistIndex' (by decide)
      rfl hpad hpersist
    exact addListCreateOp_read
  | set index value policy =>
    apply ((gives h rfl).handled_list rfl).twoPolicy "index" "value" index value (by decide) rfl rfl rfl
    exact addListPutOp_read
  | trim index count =>
    apply ((gives h rfl).handled_list rfl).two "index" "count" index count (by decide) rfl rfl
    exact addListTrimOp_read
  | get index =>
    apply ((gives h rfl).handled_list rfl).one "index" index (by decide) rfl
    exact atOp_read
  | getRange index count =>
    apply ((gives h rfl).handled_list rfl).two "index" "count" index count (by decide) rfl rfl
    exact atRangeOp_read
  | getByIndex index returnType =>
    have hg := gives h rfl
    apply (hg.handled_list rfl).one "index" index (by decide) rfl
    exact byIndexOp_read (hg.returnsList rfl (.inl rfl))
  | getByIndexRange index count returnType =>
    have hg := gives h rfl
    apply (hg.handled_list rfl).two "index" "count" index count (by decide) rfl rfl
    exact byIndexRangeOp_read (hg.returnsList rfl (.inr rfl))
  | getByValue value returnType =>
    have hg := gives h rfl
    apply (hg.handled_list rfl).one "value" value (by decide) rfl
    exact byValueOp_read (hg.returnsList rfl (.inr rfl))
  | getByValueList values returnType =>
    have hg := gives h rfl
    apply (hg.handled_list rfl).one "values" values (by decide) rfl
    exact byValueListOp_read (hg.returnsList rfl (.inr rfl))
  | getByValueRange begin_ end_ returnType =>
    have hg := gives h rfl
    apply (hg.handled_list rfl).two "begin" "end" begin_ end_ (by decide) rfl rfl
    exact byRangeOp_read (hg.returnsList rfl (.inr rfl))
  | getByValueRelRankRange value rank count returnType =>
    have hg := gives h rfl
    apply (hg.handled_list rfl).three "value" "rank" "count" value rank count (by decide) rfl rfl rfl
    exact byRelRangeOp_read (hg.returnsList rfl (.inr rfl))
  | getByRank rank returnType =>
    have hg := gives h rfl
    apply (hg.handled_list rfl).one "rank" rank (by decide) rfl
    exact byIndexOp_read (hg.returnsList rfl (.inl rfl))
  | getByRankRange rank count returnType =>
    have hg := gives h rfl
    apply (hg.handled_list rfl).two "rank" "count" rank count (by decide) rfl rfl
    exact byIndexRangeOp_read (hg.returnsList rfl (.inr rfl))
  | increment index value policy =>
    apply ((gives h rfl).handled_list rfl).twoPolicy "index" "value" index value (by decide) rfl rfl rfl
    exact addListIncrementOp_read
  | size => exact ((gives h rfl).handled_list rfl).handled _ rfl

theorem MapBuilder.handled [Platform] {b : MapBuilder} {ms : List Modifier}
    (h : (b.build bin).applyAll ms = some o) :
    Handled D o.toJs false ⟨some bin, (Given.of ms).context, b.spec (Given.of ms)⟩ := by
  cases b with
  | setPolicy policy =>
    have hg := gives h rfl
    have hpolicy : o.toJs.field "policy" = (Given.of ms).policyOr policy := hg.policy
    refine (hg.handled_map rfl).handled _ ?_
    rw [MapBuilder.spec, ← hpolicy]
    exact addMapSetPolicyOp_read
  | put key value policy =>
    apply ((gives h rfl).handled_map rfl).twoPolicy "key" "value" key value (by decide) rfl rfl rfl
    exact addMapPutOp_read
  | putItems items policy =>
    apply ((gives h rfl).handled_map rfl).onePolicy "items" items (by decide) rfl rfl
    exact addMapPutItemsOp_read
  | increment key incr policy =>
    apply ((gives h rfl).handled_map rfl).twoPolicy "key" "incr" key incr (by decide) rfl rfl rfl
    exact addMapAddOp_read
  | decrement key decr policy =>
    apply ((gives h rfl).handled_map rfl).twoPolicy "key" "decr" key decr (by decide) rfl rfl rfl
    exact addMapAddOp_read
  | clear => exact ((gives h rfl).handled_map rfl).handled _ rfl
  | removeByKey key returnType =>
    have hg := gives h rfl
    apply (hg.handled_map rfl).one "key" key (by decide) rfl
    exact byValueOp_read (hg.returnsMap rfl)
  | removeByKeyList keys returnType =>
    have hg := gives h rfl
    apply (hg.handled_map rfl).one "keys" keys (by decide) rfl
    exact byValueListOp_read (hg.returnsMap rfl)
  | removeByKeyRange begin_ end_ returnType =>
    have hg := gives h rfl
    apply (hg.handled_map rfl).two "begin" "end" begin_ end_ (by decide) rfl rfl
    exact byRangeOp_read (hg.returnsMap rfl)
  | removeByKeyRelIndexRange key index count returnType =>
    have hg := gives h rfl
    apply (hg.handled_map rfl).three "key" "index" "count" key index count (by decide) rfl rfl rfl
    exact byRelRangeOp_read (hg.returnsMap rfl)
  | removeByValue value returnType =>
    have hg := gives h rfl
    apply (hg.handled_map rfl).one "value" value (by decide) rfl
    exact byValueOp_read (hg.returnsMap rfl)
  | removeByValueList values returnType =>
    have hg := gives h rfl
    apply (hg.handled_map rfl).one "values" values (by decide) rfl
    exact byValueListOp_read (hg.returnsMap rfl)
  | removeByValueRange begin_ end_ returnType =>
    have hg := gives h rfl
    apply (hg.handled_map rfl).two "begin" "end" begin_ end_ (by decide) rfl rfl
    exact byRangeOp_read (hg.returnsMap rfl)
  | removeByValueRelRankRange value rank count returnType =>
    have hg := gives h rfl
    apply (hg.handled_map rfl).three "value" "rank" "count" value rank count (by decide) rfl rfl rfl
    exact byRelRangeOp_read (hg.returnsMap rfl)
  | removeByIndex index returnType =>
    have hg := gives h rfl
    apply (hg.handled_map rfl).one "index" index (by decide) rfl
    exact byIndexOp_read (hg.returnsMap rfl)
  | removeByIndexRange index count returnType =>
    have hg := gives h rfl
    apply (hg.handled_map rfl).two "index" "count" index count (by decide) rfl rfl
    exact byIndexRangeOp_read (hg.returnsMap rfl)
  | removeByRank rank returnType =>
    have hg := gives h rfl
    apply (hg.handled_map rfl).one "rank" rank (by decide) rfl
    exact byIndexOp_read (hg.returnsMap rfl)
  | removeByRankRange rank count returnType =>
    have hg := gives h rfl
    apply (hg.handled_map rfl).two "rank" "count" rank count (by decide) rfl rfl
    exact byIndexRangeOp_read (hg.returnsMap rfl)
  | size => exact ((gives h rfl).handled_map rfl).handled _ rfl
  | getByKey key returnType =>
    have hg := gives h rfl
    apply (hg.handled_map rfl).one "key" key (by decide) rfl
    exact byValueOp_read (hg.returnsMap rfl)
  | getByKeyList keys returnType =>
    have hg := gives h rfl
    apply (hg.handled_map rfl).one "keys" keys (by decide) rfl
    exact byValueListOp_read (hg.returnsMap rfl)
  | getByKeyRange begin_ end_ returnType =>
    have hg := gives h rfl
    apply (hg.handled_map rfl).two "begin" "end" begin_ end_ (by decide) rfl rfl
    exact byRangeOp_read (hg.returnsMap rfl)
  | getByKeyRelIndexRange key index count returnType =>
    have hg := gives h rfl
    apply (hg.handled_map rfl).three "key" "index" "count" key index count (by decide) rfl rfl rfl
    exact byRelRangeOp_read (hg.returnsMap rfl)
  | getByValue value returnType =>
    have hg := gives h rfl
    apply (hg.handled_map rfl).one "value" value (by decide) rfl
    exact byValueOp_read (hg.returnsMap rfl)
  | getByValueList values returnType =>
    have hg := gives h rfl
    apply (hg.handled_map rfl).one "values" values (by decide) rfl
    exact byValueListOp_read (hg.returnsMap rfl)
  | getByValueRange begin_ end_ returnType =>
    have hg := gives h rfl
    apply (hg.handled_map rfl).two "begin" "end" begin_ end_ (by decide) rfl rfl
    exact byRangeOp_read (hg.returnsMap rfl)
  | getByValueRelRankRange value rank count returnType =>
    have hg := gives h rfl
    apply (hg.handled_map rfl).three "value" "rank" "count" value rank count (by decide) rfl rfl rfl
    exact byRelRangeOp_read (hg.returnsMap rfl)
  | getByIndex index returnType =>
    have hg := gives h rfl
    apply (hg.handled_map rfl).one "index" index (by decide) rfl
    exact byIndexOp_read (hg.returnsMap rfl)
  | getByIndexRange index count returnType =>
    have hg := gives h rfl
    apply (hg.handled_map rfl).two "index" "count" index count (by decide) rfl rfl
    exact byIndexRangeOp_read (hg.returnsMap rfl)
  | getByRank rank returnType =>
    have hg := gives h rfl
    apply (hg.handled_map rfl).one "rank" rank (by decide) rfl
    exact byIndexOp_read (hg.returnsMap rfl)
  | getByRankRange rank count returnType =>
    have hg := gives h rfl
    apply (hg.handled_map rfl).two "rank" "count" rank count (by decide) rfl rfl
    exact byIndexRangeOp_read (hg.returnsMap rfl)
  | create order persistIndex ctx =>
    rw [MapBuilder.spec]
    generalize hpersist : persistIndex.default (.bool false) = persistIndex'
    apply ((gives h rfl).handled_map rfl).two "order" "persistIndex" order persistIndex' (by decide) rfl hpersist
    exact addMapCreateOp_read

theorem Gives.bitPolicy {obj v : JsValue} (hg : Gives op bin props g obj)
    (hp : propOf props "policy" = v) :
    (PolicySpec.bit (g.policyOr v)).read D = (flagsPolicyArg D.bitFlags obj).map id := by
  have hpolicy : obj.field "policy" = g.policyOr v := by
    rw [hg.policy, hp]
    rfl
  have hread : PolicySpec.read D (.bit (obj.field "policy")) = flagsPolicyArg D.bitFlags obj := rfl
  rw [← hpolicy, hread]
  cases flagsPolicyArg D.bitFlags obj <;> rfl

theorem Gives.bitUnusedPolicy {obj v : JsValue} (hg : Gives op bin props g obj)
    (hp : propOf props "policy" = v) :
    (PolicySpec.bitUnused (g.policyOr v)).read D =
      (flagsPolicyArg D.bitFlags obj).map fun _ => .none := by
  have hpolicy : obj.field "policy" = g.policyOr v := by
    rw [hg.policy, hp]
    rfl
  rw [← hpolicy]
  rfl

/-- A handler that hands its policy on. -/
theorem Gives.handled_bitWrite [Platform] {name : BitOp} {handler : OpPolicy → Handler} {o₀ : Operation}
    {ms : List Modifier} (hg : Gives (BitOp.table.opcode name) bin props (Given.of ms) o.toJs)
    (h : o₀.applyAll ms = some o) (hcls : o₀.cls.hasWithContext = false)
    (hfind : BitOp.table.entries.find? (·.1 = name) = some (name, handler)) :
    HandledBy D bin props (Given.of ms) o.toJs true fun call => ∃ fn args,
      call = .call fn (.bit ((Given.of ms).policyOr (propOf props "policy"))) args ∧
        ReadsBits handler o.toJs fn id args :=
  hg.handled_bit (Operation.context_of_applyAll h hcls) hfind (hg.bitPolicy rfl)

/-- A handler that reads its policy and does not use it. -/
theorem Gives.handled_bitRead [Platform] {name : BitOp} {handler : OpPolicy → Handler} {o₀ : Operation}
    {ms : List Modifier} (hg : Gives (BitOp.table.opcode name) bin props (Given.of ms) o.toJs)
    (h : o₀.applyAll ms = some o) (hcls : o₀.cls.hasWithContext = false)
    (hfind : BitOp.table.entries.find? (·.1 = name) = some (name, handler)) :
    HandledBy D bin props (Given.of ms) o.toJs true fun call => ∃ fn args,
      call = .call fn (.bitUnused ((Given.of ms).policyOr (propOf props "policy"))) args ∧
        ReadsBits handler o.toJs fn (fun _ => .none) args :=
  hg.handled_bit (Operation.context_of_applyAll h hcls) hfind (hg.bitUnusedPolicy rfl)

/-- The four fields of `add` and `subtract`, and what they do on an overflow. -/
theorem HandledBy.bitMath [Platform] {obj bitOffset bitSize value sign action : JsValue} {fn : OpFn}
    {spec : PolicySpec} {handler : OpPolicy → Handler}
    (h : HandledBy D bin props g obj true fun call =>
      ∃ fn args, call = .call fn spec args ∧ ReadsBits handler obj fn id args)
    (hhandler : handler = (addBitMathOp · fn))
    (hoffset : propOf props "bitOffset" = bitOffset) (hsize : propOf props "bitSize" = bitSize)
    (hvalue : propOf props "value" = value) (hsign : propOf props "sign" = sign)
    (haction : obj.field "overflowAction" = action) :
    Handled D obj true ⟨some bin, g.context,
      .call fn spec [.int bitOffset, .uint32 bitSize, .int64 value, .bool sign, .int action]⟩ := by
  have hread : ReadsBits (addBitMathOp · fn) obj fn id [.int (obj.field "bitOffset"), .uint32 (obj.field "bitSize"),
      .int64 (obj.field "value"), .bool (obj.field "sign"), .int (obj.field "overflowAction")] := addBitMathOp_reads
  rw [h.other "bitOffset" (by decide), h.other "bitSize" (by decide), h.other "value" (by decide),
    h.other "sign" (by decide), hoffset, hsize, hvalue, hsign, haction] at hread
  exact h.handled _ ⟨_, _, rfl, hhandler ▸ hread⟩

/-- The builder whose C function the handler of a builder's opcode calls. -/
def BitBuilder.readAs : BitBuilder → BitBuilder
  | lscan bitOffset bitSize value => rscan bitOffset bitSize value
  | b => b

theorem BitBuilder.handled [Platform] {b : BitBuilder} {ms : List Modifier} {o₀ : Operation}
    (hb : b.build bin = some o₀) (h : o₀.applyAll ms = some o) :
    Handled D o.toJs true ⟨some bin, (Given.of ms).context, b.readAs.spec (Given.of ms)⟩ := by
  cases b with
  | resize size flags =>
    cases hb
    have hbits := (gives h rfl).handled_bitWrite (D := D) h rfl rfl
    dsimp only [BitBuilder.readAs, BitBuilder.spec]
    generalize hflags : flags.default (.int 0) = flags'
    apply hbits.two "size" "flags" size flags' (by decide) rfl hflags
    exact ⟨_, _, rfl, addBitResizeOp_reads⟩
  | insert byteOffset value =>
    cases hb
    have hbits := (gives h rfl).handled_bitWrite (D := D) h rfl rfl
    apply hbits.two "offset" "value" byteOffset value (by decide) rfl rfl
    exact ⟨_, _, rfl, addBitInsertOp_reads⟩
  | remove byteOffset byteSize =>
    cases hb
    have hbits := (gives h rfl).handled_bitWrite (D := D) h rfl rfl
    apply hbits.two "offset" "size" byteOffset byteSize (by decide) rfl rfl
    exact ⟨_, _, rfl, addBitWriteOp_reads⟩
  | set bitOffset bitSize value =>
    cases value with
    | buffer bs =>
      cases hb
      have hbits := (gives h rfl).handled_bitWrite (D := D) h rfl rfl
      dsimp only [BitBuilder.readAs, BitBuilder.spec]
      generalize hvalue : JsValue.buffer bs = value
      apply hbits.three "bitOffset" "bitSize" "value" bitOffset bitSize value (by decide) rfl rfl hvalue
      exact ⟨_, _, rfl, addBitByteMathOp_reads⟩
    | num n =>
      rw [BitBuilder.build] at hb
      split_ifs at hb
      cases hb
      have hbits := (gives h rfl).handled_bitWrite (D := D) h rfl rfl
      dsimp only [BitBuilder.readAs, BitBuilder.spec]
      generalize hvalue : JsValue.num n = value
      apply hbits.three "bitOffset" "bitSize" "value" bitOffset bitSize value (by decide) rfl rfl hvalue
      exact ⟨_, _, rfl, addBitSetIntOp_reads⟩
    | _ => cases hb
  | or bitOffset bitSize value =>
    cases hb
    have hbits := (gives h rfl).handled_bitWrite (D := D) h rfl rfl
    apply hbits.three "bitOffset" "bitSize" "value" bitOffset bitSize value (by decide) rfl rfl rfl
    exact ⟨_, _, rfl, addBitByteMathOp_reads⟩
  | xor bitOffset bitSize value =>
    cases hb
    have hbits := (gives h rfl).handled_bitWrite (D := D) h rfl rfl
    apply hbits.three "bitOffset" "bitSize" "value" bitOffset bitSize value (by decide) rfl rfl rfl
    exact ⟨_, _, rfl, addBitByteMathOp_reads⟩
  | and bitOffset bitSize value =>
    cases hb
    have hbits := (gives h rfl).handled_bitWrite (D := D) h rfl rfl
    apply hbits.three "bitOffset" "bitSize" "value" bitOffset bitSize value (by decide) rfl rfl rfl
    exact ⟨_, _, rfl, addBitByteMathOp_reads⟩
  | not bitOffset bitSize =>
    cases hb
    have hbits := (gives h rfl).handled_bitWrite (D := D) h rfl rfl
    apply hbits.two "offset" "size" bitOffset bitSize (by decide) rfl rfl
    exact ⟨_, _, rfl, addBitWriteOp_reads⟩
  | lshift bitOffset bitSize shift =>
    cases hb
    have hbits := (gives h rfl).handled_bitWrite (D := D) h rfl rfl
    apply hbits.three "bitOffset" "bitSize" "shift" bitOffset bitSize shift (by decide) rfl rfl rfl
    exact ⟨_, _, rfl, addBitShiftOp_reads⟩
  | rshift bitOffset bitSize shift =>
    cases hb
    have hbits := (gives h rfl).handled_bitWrite (D := D) h rfl rfl
    apply hbits.three "bitOffset" "bitSize" "shift" bitOffset bitSize shift (by decide) rfl rfl rfl
    exact ⟨_, _, rfl, addBitShiftOp_reads⟩
  | add bitOffset bitSize value sign =>
    cases hb
    have hg := gives h rfl
    have hbits := hg.handled_bitWrite (D := D) h rfl rfl
    exact hbits.bitMath rfl rfl rfl rfl rfl hg.overflowAction
  | subtract bitOffset bitSize value sign =>
    cases hb
    have hg := gives h rfl
    have hbits := hg.handled_bitWrite (D := D) h rfl rfl
    exact hbits.bitMath rfl rfl rfl rfl rfl hg.overflowAction
  | get bitOffset bitSize =>
    cases hb
    have hbits := (gives h rfl).handled_bitRead (D := D) h rfl rfl
    apply hbits.two "bitOffset" "bitSize" bitOffset bitSize (by decide) rfl rfl
    exact ⟨_, _, rfl, addBitGetOp_reads⟩
  | getInt bitOffset bitSize sign =>
    cases hb
    have hbits := (gives h rfl).handled_bitRead (D := D) h rfl rfl
    apply hbits.three "bitOffset" "bitSize" "sign" bitOffset bitSize sign (by decide) rfl rfl rfl
    exact ⟨_, _, rfl, addBitFlagOp_reads⟩
  | lscan bitOffset bitSize value =>
    cases hb
    have hbits := (gives h rfl).handled_bitRead (D := D) h rfl rfl
    apply hbits.three "bitOffset" "bitSize" "value" bitOffset bitSize value (by decide) rfl rfl rfl
    exact ⟨_, _, rfl, addBitFlagOp_reads⟩
  | rscan bitOffset bitSize value =>
    cases hb
    have hbits := (gives h rfl).handled_bitRead (D := D) h rfl rfl
    apply hbits.three "bitOffset" "bitSize" "value" bitOffset bitSize value (by decide) rfl rfl rfl
    exact ⟨_, _, rfl, addBitFlagOp_reads⟩

theorem HllBuilder.handled [Platform] {b : HllBuilder} {ms : List Modifier}
    (h : (b.build bin).applyAll ms = some o) :
    Handled D o.toJs true ⟨some bin, (Given.of ms).context, b.spec (Given.of ms)⟩ := by
  cases b with
  | init indexBits minhashBits =>
    have hhll := (gives h rfl).handled_hll (D := D) (Operation.context_of_applyAll h rfl) rfl
    rw [HllBuilder.spec]
    generalize hminhash : minhashBits.default (.int (-1)) = minhashBits'
    apply hhll.twoPolicy "indexBits" "minhashBits" indexBits minhashBits' (by decide) rfl hminhash rfl
    exact addHllInitOp_read
  | add list indexBits minhashBits =>
    have hg := gives h rfl
    obtain rfl : o.toJs.field "list" = list := hg.other _ (by decide)
    have hindex : o.toJs.field "indexBits" = indexBits.default (.int (-1)) := hg.other _ (by decide)
    have hminhash : o.toJs.field "minhashBits" = minhashBits.default (.int (-1)) := hg.other _ (by decide)
    have hpolicy : o.toJs.field "policy" = (Given.of ms).policyOr .undefined := hg.policy
    refine (hg.handled_hll (Operation.context_of_applyAll h rfl) rfl).handled _ ?_
    rw [HllBuilder.spec, ← hindex, ← hminhash, ← hpolicy]
    exact addHllAddOp_read
  | setUnion list =>
    apply ((gives h rfl).handled_hll (Operation.context_of_applyAll h rfl) rfl).onePolicy "list" list (by decide) rfl
      rfl
    exact addHllSetUnionOp_read
  | refreshCount => exact ((gives h rfl).handled_hll (Operation.context_of_applyAll h rfl) rfl).handled _ rfl
  | fold indexBits =>
    apply ((gives h rfl).handled_hll (Operation.context_of_applyAll h rfl) rfl).one "indexBits" indexBits (by decide)
      rfl
    exact addHllFoldOp_read
  | getCount =>
    have hg := gives h rfl
    exact (hg.handled_hll (Operation.context_of_applyAll h rfl) rfl).handled _
      (addHllReadOp_read (hg.other _ (by decide)))
  | getUnion list =>
    have hg := gives h rfl
    apply (hg.handled_hll (Operation.context_of_applyAll h rfl) rfl).one "list" list (by decide) rfl
    exact addHllReadListOp_read (hg.other _ (by decide))
  | getUnionCount list =>
    have hg := gives h rfl
    apply (hg.handled_hll (Operation.context_of_applyAll h rfl) rfl).one "list" list (by decide) rfl
    exact addHllReadListOp_read (hg.other _ (by decide))
  | getIntersectCount list =>
    have hg := gives h rfl
    apply (hg.handled_hll (Operation.context_of_applyAll h rfl) rfl).one "list" list (by decide) rfl
    exact addHllReadListOp_read (hg.other _ (by decide))
  | getSimilarity list =>
    have hg := gives h rfl
    apply (hg.handled_hll (Operation.context_of_applyAll h rfl) rfl).one "list" list (by decide) rfl
    exact addHllReadListOp_read (hg.other _ (by decide))
  | describe =>
    have hg := gives h rfl
    exact (hg.handled_hll (Operation.context_of_applyAll h rfl) rfl).handled _
      (addHllReadOp_read (hg.other _ (by decide)))

/-- The TTL and the values of scalar operations are looked at by their handlers only. -/
theorem ScalarBuilder.handled [Platform] {b : ScalarBuilder} {ms : List Modifier} (h : b.build.applyAll ms = some o) :
    Handled D o.toJs true (b.spec (Given.of ms)) := by
  cases b with
  | read bin => exact (gives h rfl).handled_scalar (Operation.context_of_applyAll h rfl) rfl rfl
  | write bin value =>
    have hg := gives h rfl
    obtain rfl : o.toJs.field "value" = value := hg.other _ (by decide)
    exact hg.handled_scalar (Operation.context_of_applyAll h rfl) rfl rfl
  | add bin value =>
    have hg := gives h rfl
    obtain rfl : o.toJs.field "value" = value := hg.other _ (by decide)
    exact hg.handled_scalar (Operation.context_of_applyAll h rfl) rfl rfl
  | incr bin value =>
    have hg := gives h rfl
    obtain rfl : o.toJs.field "value" = value := hg.other _ (by decide)
    exact hg.handled_scalar (Operation.context_of_applyAll h rfl) rfl rfl
  | append bin value =>
    have hg := gives h rfl
    obtain rfl : o.toJs.field "value" = value := hg.other _ (by decide)
    exact hg.handled_scalar (Operation.context_of_applyAll h rfl) rfl rfl
  | prepend bin value =>
    have hg := gives h rfl
    obtain rfl : o.toJs.field "value" = value := hg.other _ (by decide)
    exact hg.handled_scalar (Operation.context_of_applyAll h rfl) rfl rfl
  | touch ttl =>
    have hg := gives h rfl
    obtain rfl : o.toJs.field "ttl" = ttl := hg.other _ (by decide)
    exact hg.handled_scalar (Operation.context_of_applyAll h rfl) rfl rfl
  | delete => exact (gives h rfl).handled_scalar (Operation.context_of_applyAll h rfl) rfl rfl

/-! ### All builders -/

namespace Builder

/-- The result of the C client is tested. -/
def checked : Builder → Bool
  | list .. | map .. => false
  | _ => true

def isLscan : Builder → Bool
  | bit _ (.lscan ..) => true
  | _ => false

def readAs : Builder → Builder
  | bit bin b => bit bin b.readAs
  | b => b

theorem handled [Platform] {b : Builder} {ms : List Modifier} (h : b.run ms = some o) :
    Handled D o.toJs b.checked (b.readAs.spec (Given.of (b.calls ++ ms))) := by
  obtain ⟨o₀, hb, h⟩ := Option.bind_eq_some_iff.1 h
  cases b with
  | scalar b =>
    cases hb
    exact b.handled h
  | list bin b =>
    cases hb
    exact b.handled h
  | map bin b =>
    cases hb
    exact b.handled h
  | bit bin b => exact b.handled hb h
  | hll bin b =>
    cases hb
    exact b.handled h

theorem readAs_of_not_lscan {b : Builder} (h : b.isLscan = false) : b.readAs = b := by
  cases b with
  | bit bin b =>
    cases b with
    | lscan bitOffset bitSize value => cases h
    | _ => rfl
  | _ => rfl

end Builder

namespace OpSpec
variable {s : OpSpec} {nop : NativeOp} {ctx : JsValue}

/-- The readers take all parts of the operation, with the context that its object has. -/
def Accepted [Platform] (D : PolicyDefaults) (s : OpSpec) (ctx : JsValue) : Prop := (s.read D ctx).isSome = true

/-- The C client does not take bin names of more than 15 bytes. -/
def BinFits (s : OpSpec) : Prop := ∀ name, s.bin = some (.str name) → (nativeStr name).length ≤ 15

theorem fits_iff [Platform] (h : s.read D ctx = some nop) : nop.Fits ↔ s.BinFits := by
  obtain ⟨b, c, call, hb, rfl⟩ : ∃ b c call, readBin s.bin = some b ∧ nop = ⟨b, c, call⟩ := by
    rw [OpSpec.read] at h
    split at h
    · rename_i b c call hb _ _
      exact ⟨b, c, call, hb, (Option.some.inj h).symm⟩
    · cases h
  rw [BinFits]
  cases hbin : s.bin with
  | none =>
    rw [hbin] at hb
    cases hb
    exact ⟨fun _ _ hn => (by cases hn), fun _ _ hn => (by cases hn)⟩
  | some v =>
    rw [hbin] at hb
    cases v with
    | str name =>
      cases hb
      constructor
      · intro hfits name' hname
        cases hname
        exact hfits _ rfl
      · intro hlen b hmem
        cases hmem
        exact hlen name rfl
    | _ => cases hb

end OpSpec

/-- `as_operations` has room for another operation. -/
def Operations.HasRoom (ops : Operations) : Prop := ops.entries.length < ops.capacity

/-- The operation fails with an error, or it is the one that was asked for and the only one added. -/
def AddsFaithfully [Platform] (D : PolicyDefaults) (ops : Operations) (obj : JsValue) (s : OpSpec) : Prop :=
  addElement D ops obj = .error (.fail .paramErr) ∨
    ∃ ops' nop, addElement D ops obj = .ok ops' ∧ ops'.entries = ops.entries ++ [nop] ∧ s.Denotes D nop

/-- What becomes of an operation that is read. -/
theorem addsFaithfully_of_ok [Platform] {ops : Operations} {obj : JsValue} {s : OpSpec} {nop : NativeOp}
    {checked : Bool} (h : elementOperation D obj = .ok (checked, nop)) :
    AddsFaithfully D ops obj s ↔
      ((checked = true → nop.Fits ∧ ops.HasRoom) → nop.Fits ∧ ops.HasRoom ∧ s.Denotes D nop) := by
  by_cases hfits : nop.Fits ∧ ops.HasRoom
  · obtain ⟨ops', hops⟩ : ∃ ops', ops.add nop = some ops' := by
      by_contra hnone
      have : ops.add nop = none := Option.eq_none_iff_forall_ne_some.2 fun a ha => hnone ⟨a, ha⟩
      exact Operations.add_eq_none.1 this hfits
    obtain ⟨-, -, -, hentries⟩ := Operations.add_eq_some.1 hops
    have hadd : addElement D ops obj = .ok ops' := by
      rw [addElement_of_ok h, hops]
    constructor
    · rintro (herr | ⟨ops'', nop', hok, hentries', hden⟩) -
      · rw [hadd] at herr
        cases herr
      · rw [hadd, Except.ok.injEq] at hok
        subst hok
        rw [hentries, List.append_cancel_left_eq, List.cons.injEq] at hentries'
        exact ⟨hfits.1, hfits.2, hentries'.1 ▸ hden⟩
    · intro hcond
      obtain ⟨-, -, hden⟩ := hcond fun _ => hfits
      exact .inr ⟨ops', nop, hadd, hentries, hden⟩
  · have hadd : addElement D ops obj = if checked then .error (.fail .paramErr) else .ok ops := by
      rw [addElement_of_ok h, Operations.add_eq_none.2 hfits]
    cases checked with
    | true => exact iff_of_true (.inl hadd) fun hcond => absurd (hcond rfl) hfits
    | false =>
      rw [if_neg Bool.false_ne_true] at hadd
      refine iff_of_false ?_ fun hcond => ?_
      · rintro (herr | ⟨ops', nop', hok, hentries, -⟩)
        · rw [hadd] at herr
          cases herr
        · rw [hadd] at hok
          cases hok
          have := congrArg List.length hentries
          rw [List.length_append, List.length_singleton] at this
          omega
      · obtain ⟨hf, hr, -⟩ := hcond fun hfalse => (by cases hfalse)
        exact hfits ⟨hf, hr⟩

/-- `bitwise.lscan` and `bitwise.rscan` are read of the same arguments. -/
theorem Builder.accepted_readAs [Platform] {b : Builder} {ctx : JsValue} :
    (b.readAs.spec g).Accepted D ctx ↔ (b.spec g).Accepted D ctx := by
  cases hl : b.isLscan with
  | false => rw [b.readAs_of_not_lscan hl]
  | true =>
    rcases b with _ | _ | _ | ⟨bin, b⟩ | _
    · cases hl
    · cases hl
    · cases hl
    · cases b with
      | lscan bitOffset bitSize value =>
        rw [OpSpec.Accepted, OpSpec.Accepted]
        simp only [readAs, BitBuilder.readAs, spec, BitBuilder.spec, OpSpec.read, CallSpec.read_call]
        cases OpSpec.readBin (some bin) with
        | none => rfl
        | some b =>
          cases contextOfJs ctx with
          | error e => rfl
          | ok c =>
            cases ArgSpec.readAll [.int bitOffset, .uint32 bitSize, .bool value] with
            | error e => rfl
            | ok as => cases PolicySpec.read D (.bitUnused (g.policyOr .undefined)) <;> rfl
      | _ => cases hl
    · cases hl

/-- What is read is the operation that was asked for exactly if all its parts are exact and it is no
`bitwise.lscan`. -/
theorem Builder.denotes_read [Platform] {b : Builder} {ctx : JsValue} {nop : NativeOp}
    (h : (b.readAs.spec g).read D ctx = some nop) (hctx : ctx = (b.spec g).ctx ∨ NoContext (b.spec g).ctx) :
    (b.spec g).Denotes D nop ↔ (b.spec g).Exact ∧ b.isLscan = false := by
  cases hl : b.isLscan with
  | false =>
    rw [b.readAs_of_not_lscan hl] at h
    rw [OpSpec.denotes_read h hctx]
    exact ⟨fun hexact => ⟨hexact, rfl⟩, And.left⟩
  | true =>
    refine iff_of_false ?_ fun hno => by cases hno.2
    rcases b with _ | _ | _ | ⟨bin, b⟩ | _
    · cases hl
    · cases hl
    · cases hl
    · cases b with
      | lscan bitOffset bitSize value =>
        intro hden
        have hfn : nop.call.fn = .bitLscan := hden.call.1
        rw [OpSpec.read] at h
        split at h
        · rename_i bin' c call _ _ hcall
          cases h
          have hread : call.fn = .bitRscan := by
            have hcall' : (CallSpec.call .bitRscan (.bitUnused (g.policyOr .undefined))
                [.int bitOffset, .uint32 bitSize, .bool value]).read D = some call := hcall
            rw [CallSpec.read] at hcall'
            split at hcall'
            · cases hcall'
              rfl
            · cases hcall'
          rw [hread] at hfn
          cases hfn
        · cases h
      | _ => cases hl
    · cases hl

/-- The object of a builder adds the operation that was asked for, or fails, exactly if its conversion
makes V8 not abort and, where it is accepted and the C client's result hides nothing, its bin name fits,
there is room, all parts are exact and it is no `bitwise.lscan`. -/
theorem addsFaithfully_iff [Platform] (D : PolicyDefaults) (ops : Operations) (b : Builder) (ms : List Modifier)
    (o : Operation) (h : b.run ms = some o) :
    AddsFaithfully D ops o.toJs (b.spec (Given.of (b.calls ++ ms))) ↔
      ¬ElementAborts D o.toJs ∧
        ((b.spec (Given.of (b.calls ++ ms))).Accepted D (o.toJs.field "context") →
          (b.checked = true → (b.spec (Given.of (b.calls ++ ms))).BinFits ∧ ops.HasRoom) →
            (b.spec (Given.of (b.calls ++ ms))).BinFits ∧ ops.HasRoom ∧
              (b.spec (Given.of (b.calls ++ ms))).Exact ∧ b.isLscan = false) := by
  have hh := b.handled h (D := D)
  generalize Given.of (b.calls ++ ms) = g at hh
  have hbin : (b.readAs.spec g).BinFits ↔ (b.spec g).BinFits := by
    rcases b with _ | _ | _ | ⟨bin, b⟩ | _ <;> rfl
  have hctx : (b.readAs.spec g).ctx = (b.spec g).ctx := by
    rcases b with _ | _ | _ | ⟨bin, b⟩ | _ <;> rfl
  cases hop : elementOperation D o.toJs with
  | error e =>
    have hread := hh.read
    rw [hop] at hread
    have hnone : ¬ (b.spec g).Accepted D (o.toJs.field "context") := by
      rw [← Builder.accepted_readAs, OpSpec.Accepted]
      cases hr : (b.readAs.spec g).read D (o.toJs.field "context") with
      | none => exact Bool.false_ne_true
      | some nop =>
        rw [hr] at hread
        cases hread
    have hadd : addElement D ops o.toJs = .error e := addElement_of_error hop
    have hinside := hh.inside
    rw [hop] at hinside
    rw [AddsFaithfully, ElementAborts, hadd, hop]
    constructor
    · rintro (herr | ⟨ops', nop, hok, -⟩)
      · cases herr
        exact ⟨nofun, fun hacc => absurd hacc hnone⟩
      · cases hok
    · rintro ⟨habort, -⟩
      rcases e with (_ | _) | _
      · exact .inl rfl
      · exact absurd rfl habort
      · exact absurd rfl hinside
  | ok r =>
    obtain ⟨checked, nop⟩ := r
    have hread := hh.read
    rw [hop] at hread
    obtain ⟨nop', hr, hnop⟩ := Option.map_eq_some_iff.1 hread.symm
    cases hnop
    have hacc : (b.spec g).Accepted D (o.toJs.field "context") := by
      rw [← Builder.accepted_readAs, OpSpec.Accepted, hr]
      rfl
    have hnot : ¬ElementAborts D o.toJs := by
      rw [ElementAborts, hop]
      nofun
    have hden := Builder.denotes_read hr (hctx ▸ hh.context)
    rw [addsFaithfully_of_ok hop, OpSpec.fits_iff hr, hbin, hden]
    exact ⟨fun hcond => ⟨hnot, fun _ => hcond⟩, fun hcond => hcond.2 hacc⟩

end

open Platform

/-- `lists.pop('bin', 0)` -/
theorem listPop_added : ∃ o, (Builder.list (.str (JsString.lit "bin")) (.pop (.int 0))).run [] = some o ∧
    AddsFaithfully .client (.init 1) o.toJs
      ⟨some (.str (JsString.lit "bin")), .undefined, .call .listPop .none [.int64 (.int 0)]⟩ := by
  refine ⟨_, rfl, (addsFaithfully_iff .client (.init 1) (.list (.str (JsString.lit "bin")) (.pop (.int 0)))
    [] _ rfl).2 ⟨?_, fun _ _ => ⟨?_, ?_, ⟨?_, ?_, ?_⟩, rfl⟩⟩⟩
  · intro habort
    have hread := congrArg Except.toOption habort
    revert hread
    decide
  · intro name hname
    cases hname
    decide
  · exact Nat.zero_lt_one
  · intro name hname
    cases hname
    decide
  · exact .inl rfl
  · refine ⟨trivial, fun s hs => ?_⟩
    rw [List.mem_singleton.1 hs]
    exact ⟨0, .ofInt32 0, rfl, rfl⟩

/-- `bitwise.lscan('bin', 0, 8, true)` adds a scan from the right. -/
theorem bitLscan_not_added :
    ∃ o, (Builder.bit (.str (JsString.lit "bin")) (.lscan (.int 0) (.int 8) (.bool true))).run [] = some o ∧
      ¬AddsFaithfully .client (.init 1) o.toJs ⟨some (.str (JsString.lit "bin")), .undefined,
        .call .bitLscan (.bitUnused .undefined) [.int (.int 0), .uint32 (.int 8), .bool (.bool true)]⟩ := by
  refine ⟨_, rfl, ?_⟩
  intro hadds
  generalize hobj : Operation.toJs _ = obj at hadds
  have hop : ((elementOperation .client obj).toOption.map fun r => (r.1, r.2.bin.map List.length, r.2.call.fn)) =
      some (true, some 3, .bitRscan) := by
    rw [← hobj]
    decide
  obtain ⟨r, hr, hfn⟩ := Option.map_eq_some_iff.1 hop
  obtain ⟨checked, nop⟩ := r
  cases hel : elementOperation .client obj with
  | error e =>
    rw [hel] at hr
    cases hr
  | ok r =>
    rw [hel] at hr
    cases hr
    rw [Prod.mk.injEq, Prod.mk.injEq] at hfn
    obtain ⟨-, hlen, hfn⟩ := hfn
    have hfits : nop.Fits := by
      intro bin hbin
      rw [Option.mem_def.1 hbin, Option.map_some, Option.some.injEq] at hlen
      rw [hlen]
      decide
    obtain ⟨-, -, hden⟩ := (addsFaithfully_of_ok hel).1 hadds fun _ => ⟨hfits, Nat.zero_lt_one⟩
    rw [hden.call.1] at hfn
    cases hfn

end AerospikeNode
