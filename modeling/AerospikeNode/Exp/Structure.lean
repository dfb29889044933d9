import AerospikeNode.Exp.Builders
import AerospikeNode.Exp.Compile
import AerospikeNode.Lib.Trees

/-!
# The structure of a compiled expression

A nest of builder calls is sent to the C client as a flat array of native entries, and `as_exp_compile`
reads the nest back from it: an operator by its count, a variadic one up to the entry that ends it.

`Exp.terms` is the nest as the caller means it. `compiled_structure_iff` says when the C client reads that:
a `def` is two terms of the operator around it, so it must stand in one that takes any number of them.
-/

namespace AerospikeNode
open PrefixTerm (Shape TermTree)
open PrefixTerm.TermTree (flattenAll AllShaped AllAgree)

namespace NativeEntry

def policySlots : EntryVal → ℕ
  | .listPol (some _) | .mapPol (some _) => 2
  | _ => 0

/-- How `as_exp_compile` reads a compiled entry, from its operator and its count alone. -/
def shape (n : NativeEntry) : Shape :=
  match n.op with
  | .endOfVaArgs => .close
  | .callVopStart => .node 1 n.count.toNat
  | .cdtListCrmod | .cdtMapCrmod => .node (policySlots n.v) 0
  | op => if op.isVariadic then .variadic else .node 1 (n.count.toNat - 1)

end NativeEntry

def CmpBuilder.op : CmpBuilder → ExpOp
  | eq => .cmpEq | ne => .cmpNe | gt => .cmpGt | ge => .cmpGe | lt => .cmpLt | le => .cmpLe
  | cmpGeo => .cmpGeo

def VABuilder.op : VABuilder → ExpOp
  | and => .and | or => .or | exclusive => .exclusive
  | add => .add | sub => .sub | mul => .mul | div => .div
  | intAnd => .intAnd | intOr => .intOr | intXor => .intXor
  | min => .min | max => .max | cond => .cond | let_ => .letOp

def ParamsBuilder.op : ParamsBuilder → ExpOp
  | pow => .pow | log => .log | mod => .mod | abs => .abs | floor => .floor
  | ceil => .ceil | toInt => .toInt | toFloat => .toFloat | intNot => .intNot
  | intLshift => .intLshift | intRshift => .intRshift | intArshift => .intArshift
  | intCount => .intCount | intLscan => .intLscan | intRscan => .intRscan

/-- A value, or an operator without operands. -/
abbrev valueTree (op : ExpOp) (payload : Payload := .none) : TermTree Entry := .node ⟨op, none, payload⟩ []

abbrev metaTree (op : ExpOp) : TermTree Entry := .node ⟨op, some 1, .none⟩ []

abbrev rawStrTree (v : JsValue) : TermTree Entry := valueTree .valRawstr (.strVal v)

abbrev intTree (v : JsValue) : TermTree Entry := valueTree .valInt (.intVal v)

section
variable (N : NativeEnums)

abbrev keyTree (type : ExpType) : TermTree Entry := .node ⟨.key, some 2, .none⟩ [intTree (.int (N.expType type))]

abbrev binTree (type : ExpType) (name : JsValue) : TermTree Entry :=
  .node ⟨.bin, some 3, .none⟩ [intTree (.int (N.expType type)), rawStrTree name]

abbrev binTypeTree (name : JsValue) : TermTree Entry := .node ⟨.binType, some 2, .none⟩ [rawStrTree name]

/-- The term of a builder that takes no expression. -/
def LeafBuilder.tree : LeafBuilder → TermTree Entry
  | bool v => valueTree .valBool (.boolVal v)
  | int v => intTree v
  | uint v => valueTree .valUint (.uintVal v)
  | float v => valueTree .valFloat (.floatVal v)
  | str v => valueTree .valStr (.strVal v)
  | bytes v size => valueTree .valBytes (.bytesVal v size)
  | geo v => valueTree .valGeo (.value v)
  | nil => valueTree .asVal (.value .null)
  | inf => valueTree .asVal .inf
  | wildcard => valueTree .asVal .wildcard
  | list v | map v => valueTree .asVal (.value v)
  | keyInt => keyTree N .int
  | keyStr => keyTree N .str
  | keyBlob => keyTree N .blob
  | keyExist => metaTree .keyExist
  | binBool n => binTree N .bool n
  | binInt n => binTree N .int n
  | binFloat n => binTree N .float n
  | binStr n => binTree N .str n
  | binBlob n => binTree N .blob n
  | binGeo n => binTree N .geojson n
  | binList n => binTree N .list n
  | binMap n => binTree N .map n
  | binHll n => binTree N .hll n
  | binType n => binTypeTree n
  | binExists n => .node ⟨.cmpNe, some 3, .none⟩ [binTypeTree n, intTree (.int 0)]
  | setName => metaTree .setName
  | deviceSize => metaTree .deviceSize
  | lastUpdate => metaTree .lastUpdate
  | sinceUpdate => metaTree .sinceUpdate
  | voidTime => metaTree .voidTime
  | ttl => metaTree .ttl
  | isTombstone => metaTree .not
  | memorySize => metaTree .memorySize
  | recordSize => metaTree .recordSize
  | digestModulo => metaTree .digestModulo
  | var n => .node ⟨.var, some 2, .none⟩ [rawStrTree n]

namespace Exp

mutual
/-- The terms a nest stands for: one, but for `def`, which is its variable name and its expression. -/
def terms : Exp → List (TermTree Entry)
  | leaf b => [b.tree N]
  | cmp b l r => [.node ⟨b.op, some 3, .none⟩ (terms l ++ terms r)]
  | cmpRegex options regex e =>
    [.node ⟨.cmpRegex, some 4, .none⟩ (intTree options :: rawStrTree regex :: terms e)]
  | not e => [.node ⟨.not, some 2, .none⟩ (terms e)]
  | va b es => [.bracket ⟨b.op, none, .none⟩ (termsAll es) ⟨.endOfVaArgs, none, .none⟩]
  | params b es => [.node ⟨b.op, some (es.length + 1), .none⟩ (termsAll es)]
  | def_ name e => rawStrTree name :: terms e

def termsAll : List Exp → List (TermTree Entry)
  | [] => []
  | e :: es => terms e ++ termsAll es
end

def isDef : Exp → Bool
  | def_ _ _ => true
  | _ => false

mutual
/-- No `def` is an operand of a builder that takes a fixed number of expressions. -/
def Placed : Exp → Bool
  | leaf _ => true
  | cmp _ l r => !l.isDef && !r.isDef && Placed l && Placed r
  | cmpRegex _ _ e | not e => !e.isDef && Placed e
  | va _ es => AllPlaced es
  | params _ es => es.all (!·.isDef) && AllPlaced es
  | def_ _ e => Placed e

def AllPlaced : List Exp → Bool
  | [] => true
  | e :: es => Placed e && AllPlaced es
end

end Exp

/-! ### The array of a nest is that of its terms -/

theorem LeafBuilder.build_flatten (b : LeafBuilder) : b.build N = (b.tree N).flatten.map Item.entry := by
  cases b <;> rfl

theorem CmpBuilder.build_op (b : CmpBuilder) : b.build = cmpExp b.op := by cases b <;> rfl

theorem VABuilder.build_op (b : VABuilder) : b.build = VAExp b.op := by cases b <;> rfl

theorem ParamsBuilder.build_op (b : ParamsBuilder) : b.build = paramsExp b.op := by cases b <;> rfl

theorem LeafBuilder.tree_shaped (b : LeafBuilder) : (b.tree N).Shaped Entry.shape := by
  cases b <;> simp [tree, TermTree.Shaped, AllShaped, Entry.shape, ExpOp.isVariadic]

theorem CmpBuilder.shape_op (b : CmpBuilder) : (Entry.mk b.op (some 3) .none).shape = .node 1 2 := by
  cases b <;> rfl

theorem VABuilder.shape_op (b : VABuilder) : (Entry.mk b.op none .none).shape = .variadic := by
  cases b <;> rfl

theorem ParamsBuilder.shape_op (b : ParamsBuilder) : (Entry.mk b.op (some 1) .none).shape = .leaf := by
  cases b <;> rfl

namespace Exp
variable {N}

mutual
theorem build_flatten : ∀ e : Exp, e.ParamFree = true → e.build N = (flattenAll (e.terms N)).map Item.entry
  | leaf b, _ => by simp [build, terms, flattenAll, b.build_flatten]
  | cmp b l r, h => by
    rw [ParamFree, Bool.and_eq_true] at h
    simp [build, terms, flattenAll, TermTree.flatten, b.build_op, cmpExp, build_flatten l h.1, build_flatten r h.2]
  | cmpRegex _ _ e, h => by
    rw [build, exp.cmpRegex, build_flatten e h]
    simp [terms, flattenAll, TermTree.flatten, exp.int, rawStr, valueExp]
  | not e, h => by
    rw [build, exp.not, build_flatten e h]
    simp [terms, flattenAll, TermTree.flatten]
  | va b es, h => by
    rw [build, b.build_op, VAExp, buildAll_flatten es h]
    simp [terms, flattenAll, TermTree.flatten]
  | params b es, h => by
    obtain rfl := List.isEmpty_iff.1 h
    simp [build, buildAll, terms, termsAll, flattenAll, TermTree.flatten, b.build_op, paramsExp]
  | def_ _ e, h => by
    rw [build, exp.def_, build_flatten e h]
    simp [terms, flattenAll, TermTree.flatten, rawStr, valueExp]

theorem buildAll_flatten : ∀ es : List Exp, AllParamFree es = true →
    (buildAll N es).flatten = (flattenAll (termsAll N es)).map Item.entry
  | [], _ => rfl
  | e :: es, h => by
    rw [AllParamFree, Bool.and_eq_true] at h
    simp [buildAll, termsAll, build_flatten e h.1, buildAll_flatten es h.2]
end

/-! ### The terms are shaped as the entries say -/

theorem length_terms : ∀ e : Exp, 1 ≤ (e.terms N).length ∧ ((e.terms N).length = 1 ↔ e.isDef = false)
  | leaf _ | cmp _ _ _ | cmpRegex _ _ _ | not _ | va _ _ | params _ _ => by simp [terms, isDef]
  | def_ _ e => by
    have := length_terms e
    simp only [terms, isDef, List.length_cons]
    exact ⟨by omega, by omega, nofun⟩

mutual
theorem terms_shaped_iff : ∀ e : Exp, e.ParamFree = true →
    (AllShaped Entry.shape (e.terms N) ↔ e.Placed = true)
  | leaf b, _ => by simp [terms, AllShaped, b.tree_shaped, Placed]
  | cmp b l r, h => by
    rw [ParamFree, Bool.and_eq_true] at h
    have hl := length_terms (N := N) l
    have hr := length_terms (N := N) r
    have hlen : 2 = (l.terms N ++ r.terms N).length ↔ l.isDef = false ∧ r.isDef = false := by
      rw [List.length_append, ← hl.2, ← hr.2]
      omega
    simp only [terms, AllShaped, TermTree.Shaped, b.shape_op, Shape.node.injEq, true_and, hlen,
      TermTree.allShaped_append, terms_shaped_iff l h.1, terms_shaped_iff r h.2, and_true, Placed,
      Bool.and_eq_true, Bool.not_eq_true', and_assoc]
  | cmpRegex options regex e, h => by
    have he := (length_terms (N := N) e).2
    have hlen : 3 = (intTree options :: rawStrTree regex :: e.terms N).length ↔ e.isDef = false := by
      simp only [List.length_cons, ← he]
      omega
    have hop : (Entry.mk .cmpRegex (some 4) .none).shape = .node 1 3 := rfl
    simp only [terms, AllShaped, TermTree.Shaped, hop, Shape.node.injEq, true_and, hlen, terms_shaped_iff e h,
      and_true, Placed, Bool.and_eq_true, Bool.not_eq_true']
    simp [Entry.shape, ExpOp.isVariadic]
  | not e, h => by
    have he := (length_terms (N := N) e).2
    have hop : (Entry.mk .not (some 2) .none).shape = .node 1 1 := rfl
    simp only [terms, AllShaped, TermTree.Shaped, hop, Shape.node.injEq, true_and, eq_comm (a := 1), he,
      terms_shaped_iff e h, and_true, Placed, Bool.and_eq_true, Bool.not_eq_true']
  | va b es, h => by
    have hclose : (Entry.mk .endOfVaArgs none .none).shape = .close := rfl
    simp only [terms, AllShaped, TermTree.Shaped, b.shape_op, true_and, termsAll_shaped_iff es h, hclose, and_true,
      Placed]
  | params b es, h => by
    obtain rfl := List.isEmpty_iff.1 h
    simp [terms, termsAll, AllShaped, TermTree.Shaped, b.shape_op, Placed, AllPlaced]
  | def_ _ e, h => by
    simp [terms, AllShaped, TermTree.Shaped, Entry.shape, ExpOp.isVariadic, terms_shaped_iff e h, Placed]

theorem termsAll_shaped_iff : ∀ es : List Exp, AllParamFree es = true →
    (AllShaped Entry.shape (termsAll N es) ↔ AllPlaced es = true)
  | [], _ => by simp [termsAll, AllShaped, AllPlaced]
  | e :: es, h => by
    rw [AllParamFree, Bool.and_eq_true] at h
    simp [termsAll, AllPlaced, terms_shaped_iff e h.1, termsAll_shaped_iff es h.2]
end

/-! ### What compiling keeps -/

mutual
/-- The counts the builders write are small, so none is cut to 32 bits. -/
theorem count_le : ∀ e : Exp, e.ParamFree = true → ∀ a ∈ flattenAll (e.terms N), a.count.getD 0 ≤ 4
  | leaf b, _ => by cases b <;> simp [terms, LeafBuilder.tree, flattenAll, TermTree.flatten]
  | cmp _ l r, h => by
    rw [ParamFree, Bool.and_eq_true] at h
    have hl := count_le l h.1
    have hr := count_le r h.2
    simp only [terms, flattenAll, TermTree.flatten, TermTree.flattenAll_append, List.append_nil, List.mem_cons,
      List.mem_append]
    rintro a (rfl | ha | ha)
    · simp
    · exact hl a ha
    · exact hr a ha
  | cmpRegex _ _ e, h => by simpa [terms, flattenAll, TermTree.flatten] using count_le e h
  | not e, h => by simpa [terms, flattenAll, TermTree.flatten] using count_le e h
  | va _ es, h => by
    have hes := countAll_le es h
    simp only [terms, flattenAll, TermTree.flatten, List.append_nil, List.mem_cons, List.mem_append,
      List.not_mem_nil, or_false]
    rintro a (rfl | ha | rfl)
    · simp
    · exact hes a ha
    · simp
  | params _ es, h => by
    obtain rfl := List.isEmpty_iff.1 h
    simp [terms, termsAll, flattenAll, TermTree.flatten]
  | def_ _ e, h => by simpa [terms, flattenAll, TermTree.flatten] using count_le e h

theorem countAll_le : ∀ es : List Exp, AllParamFree es = true →
    ∀ a ∈ flattenAll (termsAll N es), a.count.getD 0 ≤ 4
  | [], _ => by simp [termsAll, flattenAll]
  | e :: es, h => by
    rw [AllParamFree, Bool.and_eq_true] at h
    have he := count_le e h.1
    have hes := countAll_le es h.2
    simp only [termsAll, TermTree.flattenAll_append, List.mem_append]
    rintro a (ha | ha)
    · exact he a ha
    · exact hes a ha
end

end Exp

variable {N} {D : PolicyDefaults} {e : Entry} {n : NativeEntry}

/-- The entry that `convert_entry` makes of one of the builders. -/
abbrev Converts [Platform] (D : PolicyDefaults) (e : Entry) (n : NativeEntry) : Prop := convertEntry D e = .ok n

theorem policySlots_convert [Platform] {p : Payload} {v : EntryVal} (h : convertPayload D p = .ok v) :
    NativeEntry.policySlots v = Entry.policySlots p := by
  cases p with
  | listPolicy p => cases h; cases p <;> rfl
  | mapPolicy p => cases h; cases p <;> rfl
  | none | inf | wildcard => cases h; rfl
  | bytesVal v sz =>
    obtain ⟨_, -, h⟩ := Except.bind_eq_ok.1 h
    obtain ⟨_, -, rfl⟩ := Except.map_eq_ok.1 h
    rfl
  | _ =>
    obtain ⟨_, -, rfl⟩ := Except.map_eq_ok.1 h
    rfl

theorem Converts.shape_eq [Platform] (h : Converts D e n) (hc : e.count.getD 0 < 2 ^ 32) : n.shape = e.shape := by
  obtain ⟨op, count, payload⟩ := e
  obtain ⟨v, hv, rfl⟩ := Except.map_eq_ok.1 h
  have hslots := policySlots_convert hv
  have hcount : (UInt32.ofNat (count.getD 0)).toNat = count.getD 0 := Nat.mod_eq_of_lt hc
  have hpred : count.getD 0 - 1 = count.getD 1 - 1 := by cases count <;> rfl
  cases op <;> simp only [NativeEntry.shape, Entry.shape, hslots, hcount, hpred]

namespace Exp

theorem paramFree_of_flat {x : Exp} {es : List Entry} (h : x.build N = es.map Item.entry) : x.ParamFree = true := by
  by_contra hp
  obtain ⟨ys, hys⟩ := array_mem_build (N := N) x (Bool.eq_false_iff.2 hp)
  simp [h] at hys

/-- When the array of a nest compiles, what the C client reads in the native entries is the nest, and that
in one way only, exactly if no `def` is an operand of a builder with a fixed number of them. -/
theorem compiled_structure_iff [Platform] (N : NativeEnums) (D : PolicyDefaults) (x : Exp) {es : List Entry}
    {ns : List NativeEntry} (hes : x.build N = es.map Item.entry) (hns : compileExpression D es = .compiled ns) :
    (∃ t, AllAgree (Converts D) (x.terms N) [t] ∧
      ∀ t', t'.Shaped NativeEntry.shape ∧ t'.flatten = ns ↔ t' = t) ↔
    x.isDef = false ∧ x.Placed = true := by
  have hp := paramFree_of_flat hes
  obtain rfl : flattenAll (x.terms N) = es :=
    (List.map_inj_right fun _ _ h => by injection h).1 ((build_flatten x hp).symm.trans hes)
  have hshape : ∀ a ∈ flattenAll (x.terms N), ∀ b, Converts D a b → b.shape = a.shape := fun a ha b hab =>
    hab.shape_eq ((count_le x hp a ha).trans_lt (by decide))
  obtain ⟨ts, hts, hflat⟩ := TermTree.exists_allAgree (forall₂_compiled hns)
  have hlen := hts.length_eq
  constructor
  · rintro ⟨t, ht, hread⟩
    have hshaped := (ht.shaped_iff hshape).1 ⟨((hread t).2 rfl).1, trivial⟩
    exact ⟨(length_terms x).2.1 ht.length_eq, (terms_shaped_iff x hp).1 hshaped⟩
  · rintro ⟨hd, hplaced⟩
    obtain ⟨t, rfl⟩ := List.length_eq_one_iff.1 (hlen.symm.trans ((length_terms x).2.2 hd))
    have ht := (hts.shaped_iff hshape).2 ((terms_shaped_iff x hp).2 hplaced)
    have hflat' : t.flatten = ns := by simpa [flattenAll] using hflat
    refine ⟨t, hts, fun t' => ⟨fun h => ?_, ?_⟩⟩
    · have heq : t'.flatten ++ [] = t.flatten ++ [] := by rw [h.2, hflat']
      exact (TermTree.flatten_inj h.1 ht.1 heq).1
    · rintro rfl
      exact ⟨ht.1, hflat'⟩

/-- `exp.let(exp.def('x', exp.int(5)), exp.ge(exp.var('x'), exp.int(1)))` -/
def letGe : Exp :=
  .va .let_ [.def_ (.str (JsString.lit "x")) (.leaf (.int (.int 5))),
    .cmp .ge (.leaf (.var (.str (JsString.lit "x")))) (.leaf (.int (.int 1)))]

open Platform

/-- The `let` is read back as it was written. -/
theorem letGe_structure : ∃ ns, compileExpression .client (flattenAll (letGe.terms appendEnums)) = .compiled ns ∧
    ∃ t, AllAgree (Converts .client) (letGe.terms appendEnums) [t] ∧
      ∀ t', t'.Shaped NativeEntry.shape ∧ t'.flatten = ns ↔ t' = t :=
  ⟨_, rfl, (compiled_structure_iff appendEnums .client letGe (build_flatten letGe rfl) rfl).2 ⟨rfl, rfl⟩⟩

end Exp
end

end AerospikeNode
