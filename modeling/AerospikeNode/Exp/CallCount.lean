import AerospikeNode.Exp.Calls

/-!
# The parameter counts of the list, map, bitwise and HLL builders

`IsCall` is what `as_exp_compile` expects of the array of a call. The count in `CALL_VOP_START` is
compared with the slots of the parameters up to the bin, which no other split of the array into
parameters can change (`Terms.unique`).
-/

namespace AerospikeNode
open PrefixTerm (Shape Terms)

/-- A parameter of a call that takes `n` slots: a term, or a create-or-modify entry, which stands
for the order and the flags of its policy. -/
inductive IsParam : ℕ → List Entry → Prop
  | term {es : List Entry} : IsTerm es → IsParam 1 es
  | crmod {e : Entry} : e.op = .cdtListCrmod ∨ e.op = .cdtMapCrmod → IsParam (Entry.policySlots e.payload) [e]

/-- `es` is a call of the module `sys` on the bin expression `bin`: one `CALL` entry of count 5, its
return type, its module, one `CALL_VOP_START` entry, whose count is that of the opcode and the
parameters up to the bin, and the bin. -/
def IsCall (N : NativeEnums) (sys : ExpSys) (bin es : List Entry) : Prop :=
  ∃ (type : JsNumber) (module : Int32) (k : ℕ) (ctx : Payload) (op : JsValue)
    (params : List (ℕ × List Entry)),
    es = [{ op := .call, count := some 5 }, .rtype type, .int (.int module),
      { op := .callVopStart, count := some k, payload := ctx }, .int op] ++
      (params.map (·.2)).flatten ++ bin ∧
    (module = N.sys sys ∨ module = N.sys sys ||| N.sys .flagModifyLocal) ∧
    (∀ p ∈ params, IsParam p.1 p.2) ∧ k = 1 + (params.map (·.1)).sum

section
variable (v : JsValue) (type : JsNumber) (k : ℕ) (ctx : Payload)

theorem shape_int : (Entry.int v).shape = .leaf := rfl
theorem shape_rtype : (Entry.rtype type).shape = .leaf := rfl
theorem shape_call : Entry.shape ⟨.call, some 5, .none⟩ = .node 1 4 := rfl
theorem shape_vopStart : Entry.shape ⟨.callVopStart, some k, ctx⟩ = .node 1 k := rfl
end

theorem IsParam.terms {n : ℕ} {es : List Entry} : IsParam n es → Terms Entry.shape n es
  | .term h => h
  | .crmod (e := e) h => .apply (by rcases h with h | h <;> rw [Entry.shape, h]) .nil

theorem Arg.isParam : ∀ a : Arg, IsParam a.slots a.entries
  | expr e => .term e.isTerm
  | int _ | uint _ => .term (.leaf rfl)
  | listCrmod none => .crmod (e := ⟨.cdtListCrmod, none, .listPolicy none⟩) (.inl rfl)
  | listCrmod (some ps) => .crmod (e := ⟨.cdtListCrmod, none, .listPolicy (some ps)⟩) (.inl rfl)
  | mapCrmod none => .crmod (e := ⟨.cdtMapCrmod, none, .mapPolicy none⟩) (.inr rfl)
  | mapCrmod (some ps) => .crmod (e := ⟨.cdtMapCrmod, none, .mapPolicy (some ps)⟩) (.inr rfl)

namespace Call
variable {N : NativeEnums} {sys : ExpSys} {c : Call} {es : List Entry}

theorem emit_eq (h : c.emit N = .ok es) : ∃ type, c.rtype = .ok type ∧
    [{ op := .call, count := some 5 }, .rtype type, .int (.int c.module),
      { op := .callVopStart, count := some c.count, payload := c.ctx }, .int (.int (N.opcode c.op))] ++
    (c.params.map Arg.entries).flatten ++ c.bin.entries = es := by
  rw [emit] at h
  cases ht : c.rtype with
  | error e => rw [ht] at h; cases h
  | ok type => rw [ht] at h; exact ⟨type, rfl, by injection h⟩

/-- What a builder emits is a call on its bin exactly when the count it wrote is right. -/
theorem isCall_iff (h : c.emit N = .ok es)
    (hmod : c.module = N.sys sys ∨ c.module = N.sys sys ||| N.sys .flagModifyLocal) :
    IsCall N sys c.bin.entries es ↔ c.count = 1 + (c.params.map Arg.slots).sum := by
  obtain ⟨type, -, rfl⟩ := emit_eq h
  constructor
  · rintro ⟨type', module, k, ctx, op, params, hes, -, hparams, hk⟩
    simp only [List.cons_append, List.nil_append, List.cons.injEq, Entry.mk.injEq,
      Option.some.injEq, true_and] at hes
    obtain ⟨-, -, ⟨hcount, -⟩, -, hrest⟩ := hes
    have hsplit := List.append_cancel_right hrest
    -- the same array read as two lists of parameters
    have h1 : Terms Entry.shape (c.params.map Arg.slots).sum (c.params.map Arg.entries).flatten :=
      .flatten fun a _ => a.isParam.terms
    have h2 : Terms Entry.shape (params.map (·.1)).sum (params.map (·.2)).flatten :=
      .flatten fun p hp => (hparams p hp).terms
    rw [hsplit] at h1
    rw [hcount, hk, h1.unique h2]
  · intro hcount
    refine ⟨type, c.module, c.count, c.ctx, .int (N.opcode c.op),
      c.params.map fun a => (a.slots, a.entries), ?_, hmod, ?_, ?_⟩
    · simp only [List.map_map, Function.comp_def]
    · simp only [List.mem_map]
      rintro _ ⟨a, -, rfl⟩
      exact a.isParam
    · simpa only [List.map_map, Function.comp_def] using hcount

end Call

/-- A call of the right count is again an operand for other builders. -/
theorem Call.isTerm {N : NativeEnums} {c : Call} {es : List Entry} (h : c.emit N = .ok es)
    (hcount : c.count = 1 + (c.params.map Arg.slots).sum) : IsTerm es := by
  obtain ⟨type, -, rfl⟩ := Call.emit_eq h
  have hparams : Terms Entry.shape (c.params.map Arg.slots).sum (c.params.map Arg.entries).flatten :=
    .flatten fun a _ => a.isParam.terms
  have hbody : Terms Entry.shape (c.count + 1) (.int (.int (N.opcode c.op)) ::
      ((c.params.map Arg.entries).flatten ++ c.bin.entries)) := by
    rw [hcount, Nat.add_assoc]
    exact .cons_leaf (shape_int _) (hparams.append c.bin.isTerm)
  have hvop : Terms Entry.shape 2 (⟨.callVopStart, some c.count, c.ctx⟩ :: .int (.int (N.opcode c.op)) ::
      ((c.params.map Arg.entries).flatten ++ c.bin.entries)) :=
    .node (shape_vopStart _ _) hbody
  exact .apply shape_call
    (.cons_leaf (n := 3) (shape_rtype _) (.cons_leaf (n := 2) (shape_int _) hvop))

/-- `exp.nil()` as an operand. -/
def nilOperand : Operand := ⟨[{ op := .asVal, payload := .value .null }], .leaf rfl⟩

/-- The C client's numbers for what list `append` uses of them. -/
def appendEnums : NativeEnums where
  expType _ := 4
  sys s := if s = .flagModifyLocal then 0x40 else 0
  listReturn _ := 0
  mapReturn _ := 0
  opcode _ := 1

namespace CallBuilder
variable (N : NativeEnums)

theorem module_eq : ∀ b : CallBuilder, (b.call N).module = N.sys b.sys ∨
    (b.call N).module = N.sys b.sys ||| N.sys .flagModifyLocal
  | list c => by cases c <;> first | exact .inl rfl | exact .inr rfl
  | map c => by cases c <;> first | exact .inl rfl | exact .inr rfl
  | bit c => by cases c <;> first | exact .inl rfl | exact .inr rfl
  | hll c => by cases c <;> first | exact .inl rfl | exact .inr rfl

/-- The hand-written counts, builder by builder. -/
theorem count_eq_iff : ∀ b : CallBuilder,
    (b.call N).count = 1 + ((b.call N).params.map Arg.slots).sum ↔ b.countsPolicyShort = false
  | list c => by
    cases c
    -- without a policy the count is a numeral
    all_goals try exact iff_of_true rfl rfl
    all_goals rename_i policy _; cases policy
    all_goals first
      | exact iff_of_true rfl rfl
      | exact iff_of_false (by simp [call, ListCall.call, listModify, Arg.slots]) nofun
  | map c => by
    cases c
    all_goals try exact iff_of_true rfl rfl
    all_goals rename_i policy _; cases policy
    all_goals first
      | exact iff_of_true rfl rfl
      | exact iff_of_false (by simp [call, MapCall.call, mapModify, Arg.slots]) nofun
  | bit c => by cases c <;> exact iff_of_true rfl rfl
  | hll c => by cases c <;> exact iff_of_true rfl rfl

/-- A list, map, bitwise or HLL builder emits a well-formed call on its bin, whatever its operands,
its context and its policy, unless it counts one parameter for a policy that is there. -/
theorem emit_isCall_iff (b : CallBuilder) {es : List Entry} (h : (b.call N).emit N = .ok es) :
    IsCall N b.sys (b.call N).bin.entries es ↔ b.countsPolicyShort = false :=
  (Call.isCall_iff h (module_eq N b)).trans (count_eq_iff N b)

/-- List `append` with a policy. -/
theorem append_isCall : IsCall appendEnums .callCdt nilOperand.entries
    [⟨.call, some 5, .none⟩, .rtype (.ofInt32 4), .int (.int 0x40),
      ⟨.callVopStart, some 4, .ctx none⟩, .int (.int 1), ⟨.asVal, none, .value .null⟩,
      ⟨.cdtListCrmod, none, .listPolicy (some [])⟩, ⟨.asVal, none, .value .null⟩] :=
  (emit_isCall_iff _ (list (.append nilOperand nilOperand (some []) none)) rfl).2 rfl

/-- List `insert` with a policy: three slots counted, four there. -/
theorem insert_not_isCall : ¬ ∀ (N : NativeEnums) (b : CallBuilder) (es : List Entry),
    (b.call N).emit N = .ok es → IsCall N b.sys (b.call N).bin.entries es := by
  intro h
  have := h appendEnums (list (.insert nilOperand nilOperand nilOperand (some []) none)) _ rfl
  rw [Call.isCall_iff rfl (module_eq appendEnums _)] at this
  exact absurd this (by simp [call, ListCall.call, listModify, Arg.slots])

end CallBuilder

end AerospikeNode
