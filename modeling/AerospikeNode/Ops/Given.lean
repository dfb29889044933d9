import AerospikeNode.Ops.Builders
import AerospikeNode.Ops.Spec

/-!
# The object of a builder and its methods

`Given.of` is what a chain of method calls asks for. `gives` says what the properties of the object
are after it: those the methods set hold what was given last, or what the builder put there, and all
others are the builder's.
-/

namespace AerospikeNode

open JsValue

/-! ### Reading and setting properties -/

theorem Props.get_set {ps : Props} {k k' : JsString} {v : JsValue} :
    Props.get (Assoc.set ps k v) k' = if k = k' then v else Props.get ps k' := by
  have hmap : ∀ ps : Props, Props.get (ps.map fun e => if e.1 = k then (k, v) else e) k' =
      if k = k' ∧ k ∈ ps.map Prod.fst then v else Props.get ps k' := by
    intro ps
    induction ps with
    | nil => simp
    | cons p ps ih =>
      obtain ⟨q, w⟩ := p
      rw [List.map_cons]
      by_cases hq : q = k
      · subst hq
        rw [if_pos rfl]
        by_cases hk : q = k'
        · subst hk
          simp
        · rw [Props.get_cons_ne hk, Props.get_cons_ne hk, ih]
          simp [hk]
      · rw [if_neg hq]
        by_cases hk : q = k'
        · subst hk
          simp [Ne.symm hq]
        · have hmem : k ∈ ((q, w) :: ps).map Prod.fst ↔ k ∈ ps.map Prod.fst := by
            rw [List.map_cons, List.mem_cons, or_iff_right (Ne.symm hq)]
          rw [Props.get_cons_ne hk, Props.get_cons_ne hk, ih]
          simp only [hmem]
  have hadd : ∀ ps : Props, k ∉ ps.map Prod.fst →
      Props.get (ps ++ [(k, v)]) k' = if k = k' then v else Props.get ps k' := by
    intro ps hps
    induction ps with
    | nil =>
      by_cases hk : k = k'
      · subst hk
        simp
      · rw [List.nil_append, Props.get_cons_ne hk, if_neg hk]
    | cons p ps ih =>
      obtain ⟨q, w⟩ := p
      rw [List.map_cons, List.mem_cons, not_or] at hps
      rw [List.cons_append]
      by_cases hq : q = k'
      · subst hq
        rw [Props.get_cons_self, Props.get_cons_self, if_neg hps.1]
      · rw [Props.get_cons_ne hq, Props.get_cons_ne hq, ih hps.2]
  by_cases h : k ∈ ps.map Prod.fst
  · rw [Assoc.set, if_pos (Assoc.any_key_iff.2 h), hmap]
    simp [h]
  · rw [Assoc.set_of_notMem h, hadd ps h]

/-- A property of those a builder lists. -/
def propOf (props : List (String × JsValue)) (name : String) : JsValue :=
  match props with
  | [] => .undefined
  | p :: props => if p.1 = name then p.2 else propOf props name

namespace Operation

theorem field_set {o : Operation} {prop name : String} {v : JsValue} :
    (o.set prop v).toJs.field name = if prop = name then v else o.toJs.field name := by
  show Props.get (Assoc.set o.props _ v) _ = _
  rw [Props.get_set]
  simp only [JsString.lit_inj]
  rfl

theorem field_new {cls : OperationClass} {op : UInt32} {bin : JsValue} {props : List (String × JsValue)}
    {name : String} : (Operation.new cls op bin props).toJs.field name =
      if "op" = name then .int (Int32.ofNat op.toNat) else if "bin" = name then bin else propOf props name := by
  have hprops : Props.get (props.map fun p => (JsString.lit p.1, p.2)) (JsString.lit name) = propOf props name := by
    induction props with
    | nil => rfl
    | cons p props ih =>
      rw [List.map_cons, propOf]
      by_cases hp : p.1 = name
      · rw [if_pos hp, hp, Props.get_cons_self]
      · rw [if_neg hp, Props.get_cons_ne (mt JsString.lit_inj.1 hp), ih]
  show Props.get (_ :: _ :: _) _ = _
  by_cases hop : "op" = name
  · subst hop
    rw [Props.get_cons_self, if_pos rfl]
  · rw [Props.get_cons_ne (mt JsString.lit_inj.1 hop), if_neg hop]
    by_cases hbin : "bin" = name
    · subst hbin
      rw [Props.get_cons_self, if_pos rfl]
    · rw [Props.get_cons_ne (mt JsString.lit_inj.1 hbin), if_neg hbin, hprops]

end Operation

/-! ### What the methods give -/

structure Given where
  returnType : Option JsValue := none
  inverted : Bool := false
  context : JsValue := .undefined
  policy : Option JsValue := none
  overflowAction : Option JsValue := none

namespace Given

/-- A further call; no context is given by `withContext()`. -/
def add (g : Given) : Modifier → Given
  | .andReturn returnType => { g with returnType := some returnType }
  | .invertSelection => { g with inverted := true }
  | .withContext (.context ctx) | .withContext (.function ctx) => { g with context := ctx.toJs }
  | .withContext (.other .undefined _) => g
  | .withContext (.other v _) => { g with context := v }
  | .withPolicy policy => { g with policy := some policy }
  | .onOverflow action => { g with overflowAction := some action }

def of (ms : List Modifier) : Given := ms.foldl add {}

end Given

/-- The properties that the methods set. -/
def methodProps : List String := ["returnType", "inverted", "context", "policy", "overflowAction"]

/-- The properties of an object that a builder made with `op`, `bin` and `props` and its methods were
given `g`. -/
structure Gives (op : UInt32) (bin : JsValue) (props : List (String × JsValue)) (g : Given)
    (obj : JsValue) : Prop where
  op : obj.field "op" = .int (Int32.ofNat op.toNat)
  bin : obj.field "bin" = bin
  other : ∀ name, name ∉ "op" :: "bin" :: methodProps → obj.field name = propOf props name
  returnType : obj.field "returnType" = g.returnType.getD (propOf props "returnType")
  inverted : obj.field "inverted" = if g.inverted then .bool true else propOf props "inverted"
  context : obj.field "context" = g.context ∨ NoContext g.context
  policy : obj.field "policy" = g.policy.getD (propOf props "policy")
  overflowAction : obj.field "overflowAction" = g.overflowAction.getD (propOf props "overflowAction")

section
variable {op : UInt32} {bin : JsValue} {props : List (String × JsValue)} {g : Given} {o o' : Operation}

theorem gives_new {cls : OperationClass} (hctx : propOf props "context" = .undefined) :
    Gives op bin props {} (Operation.new cls op bin props).toJs where
  op := by rw [Operation.field_new, if_pos rfl]
  bin := by rw [Operation.field_new, if_neg (by decide), if_pos rfl]
  other name hname := by
    simp only [List.mem_cons, not_or] at hname
    rw [Operation.field_new, if_neg (Ne.symm hname.1), if_neg (Ne.symm hname.2.1)]
  returnType := by rw [Operation.field_new, if_neg (by decide), if_neg (by decide)]; rfl
  inverted := by rw [Operation.field_new, if_neg (by decide), if_neg (by decide)]; rfl
  context := .inl (by rw [Operation.field_new, if_neg (by decide), if_neg (by decide), hctx])
  policy := by rw [Operation.field_new, if_neg (by decide), if_neg (by decide)]; rfl
  overflowAction := by rw [Operation.field_new, if_neg (by decide), if_neg (by decide)]; rfl

/-- Setting a property of the methods changes what was given of that name only. -/
theorem Gives.set {g' : Given} {prop : String} {v : JsValue} (h : Gives op bin props g o.toJs)
    (hprop : prop ∈ methodProps)
    (hreturnType : g'.returnType.getD (propOf props "returnType") =
      if prop = "returnType" then v else g.returnType.getD (propOf props "returnType"))
    (hinverted : (if g'.inverted then .bool true else propOf props "inverted") =
      if prop = "inverted" then v else if g.inverted then .bool true else propOf props "inverted")
    (hcontext : g'.context = if prop = "context" then v else g.context)
    (hpolicy : g'.policy.getD (propOf props "policy") =
      if prop = "policy" then v else g.policy.getD (propOf props "policy"))
    (hoverflow : g'.overflowAction.getD (propOf props "overflowAction") =
      if prop = "overflowAction" then v else g.overflowAction.getD (propOf props "overflowAction")) :
    Gives op bin props g' (o.set prop v).toJs where
  op := by
    rw [Operation.field_set, if_neg]
    · exact h.op
    · rintro rfl
      exact absurd hprop (by decide)
  bin := by
    rw [Operation.field_set, if_neg]
    · exact h.bin
    · rintro rfl
      exact absurd hprop (by decide)
  other name hname := by
    rw [Operation.field_set, if_neg]
    · exact h.other name hname
    · rintro rfl
      exact hname (List.mem_cons_of_mem _ (List.mem_cons_of_mem _ hprop))
  returnType := by rw [Operation.field_set, hreturnType, h.returnType]
  inverted := by rw [Operation.field_set, hinverted, h.inverted]
  context := by
    rw [Operation.field_set, hcontext]
    split_ifs
    · exact .inl rfl
    · exact h.context
  policy := by rw [Operation.field_set, hpolicy, h.policy]
  overflowAction := by rw [Operation.field_set, hoverflow, h.overflowAction]

/-- `withContext` sets a context, or what it is given is ignored. -/
theorem withContext_cases {arg : ContextArg} (h : o.withContext arg = some o') :
    (∃ v, o' = o.set "context" v ∧ ∀ g, Given.add g (.withContext arg) = { g with context := v }) ∨
    (o' = o ∧ ∀ g, Given.add g (.withContext arg) = g ∨
      ∃ v, NoContext v ∧ Given.add g (.withContext arg) = { g with context := v }) := by
  cases arg with
  | context ctx | function ctx =>
    rw [Operation.withContext] at h
    split_ifs at h
    cases h
    exact .inl ⟨ctx.toJs, rfl, fun g => rfl⟩
  | other v hv =>
    rw [Operation.withContext] at h
    split_ifs at h
    · rename_i ho
      cases h
      cases v with
      | undefined => cases ho
      | _ => exact .inl ⟨_, rfl, fun g => rfl⟩
    · rename_i ho
      cases h
      cases v with
      | undefined => exact .inr ⟨rfl, fun g => .inl rfl⟩
      | bool | str | num | bigint | symbol => exact .inr ⟨rfl, fun g => .inr ⟨_, ⟨rfl, rfl⟩, rfl⟩⟩
      | func => exact absurd rfl hv
      | null | buffer | array | map | obj => exact absurd rfl ho

/-- What a method does, it gives. -/
theorem Gives.apply {m : Modifier} (h : Gives op bin props g o.toJs) (hm : o.apply m = some o') :
    Gives op bin props (g.add m) o'.toJs := by
  cases m with
  | andReturn v =>
    rw [Operation.apply] at hm
    split_ifs at hm
    cases hm
    exact h.set (by decide) rfl rfl rfl rfl rfl
  | invertSelection =>
    rw [Operation.apply] at hm
    split_ifs at hm
    cases hm
    exact h.set (by decide) rfl rfl rfl rfl rfl
  | withPolicy p =>
    rw [Operation.apply] at hm
    split_ifs at hm
    cases hm
    exact h.set (by decide) rfl rfl rfl rfl rfl
  | onOverflow a =>
    rw [Operation.apply] at hm
    split_ifs at hm
    cases hm
    exact h.set (by decide) rfl rfl rfl rfl rfl
  | withContext arg =>
    rcases withContext_cases hm with ⟨v, rfl, hadd⟩ | ⟨rfl, hadd⟩
    · rw [hadd]
      exact h.set (by decide) rfl rfl rfl rfl rfl
    · rcases hadd g with hsame | ⟨v, hv, hadd⟩
      · rw [hsame]
        exact h
      · rw [hadd]
        exact { h with context := .inr hv }

theorem Gives.applyAll {ms : List Modifier} (h : Gives op bin props g o.toJs)
    (hms : o.applyAll ms = some o') : Gives op bin props (ms.foldl Given.add g) o'.toJs := by
  induction ms generalizing g o with
  | nil =>
    cases hms
    exact h
  | cons m ms ih =>
    obtain ⟨o₁, hm, hms⟩ := Option.bind_eq_some_iff.1 hms
    exact ih (h.apply hm) hms

/-- The properties of an object that a builder has made and a chain of methods was called on. -/
theorem gives {cls : OperationClass} {ms : List Modifier}
    (h : (Operation.new cls op bin props).applyAll ms = some o)
    (hctx : propOf props "context" = .undefined) : Gives op bin props (Given.of ms) o.toJs :=
  (gives_new hctx).applyAll h

end

end AerospikeNode
