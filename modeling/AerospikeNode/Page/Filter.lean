import AerospikeNode.Exp.Objects

/-!
# The index filters of a query

`setup_options` (`src/main/query.cc`) turns the filters of a query into the predicates of an
`as_query`. The context of the first filter that has one is used for every bin filter from there on,
and so is an expression for every filter. `AsPredicate.ofFilter` is what a filter says by itself;
`setupWhere_eq_iff` says for which filters without a context the predicates of the query are these.
-/

namespace AerospikeNode

/-- How a call of the client ends that issues no command. -/
inductive Thrown where
  | exception (e : JsError)
  | abort
deriving DecidableEq

/-- A failed conversion throws. What the native code goes on with after that, the exception is
pending when it returns. -/
def orThrow {α : Type} (e : JsError) : Res α → Except Thrown α
  | .ok a => .ok a
  | .error .paramErr => .error (.exception e)
  | .error .abort => .error .abort

def AS_PREDICATE_EQUAL : Int32 := 0
def AS_PREDICATE_RANGE : Int32 := 1

def AS_INDEX_STRING : Int32 := 0
def AS_INDEX_NUMERIC : Int32 := 1
def AS_INDEX_GEO2DSPHERE : Int32 := 2
def AS_INDEX_BLOB : Int32 := 3

/-- What a filter is put on; an expression is what `as_exp_compile` returned, null if it failed. -/
inductive FilterName (X : Type) where
  | bin (name : Bytes)
  | index (name : Bytes)
  | exp (e : Option X)

/-- What the index of a predicate is found by. -/
inductive PredicateTarget (X : Type) where
  | bin (name : Bytes)
  | index (name : Bytes)
  | exp (e : X)

inductive PredicateValue where
  | range (min max : Int64)
  | integer (val : Int64)
  | string (val : Bytes)
  | bytes (val : Bytes)

/-- `as_predicate` -/
structure AsPredicate (X : Type) where
  target : PredicateTarget X
  predicate : Int32
  type : Int32
  datatype : Int32
  value : PredicateValue
  ctx : Option (List CtxItem)

/-- The `as_query_where` part of a query that is being set up. -/
structure WhereClause (X : Type) where
  context : Option (List CtxItem)
  exp : Option X
  entries : List (AsPredicate X)

section
variable {X : Type} (D : PolicyDefaults) (compile : List ExpEntry → Option X)

/-- The name or the expression of a filter. -/
def filterName [Platform] (filter : JsValue) : Except Thrown (FilterName X) :=
  match filter.field "exp" with
  | .array es =>
    match filter.field "indexName", filter.field "bin" with
    | .str _, _ => .error (.exception .error)
    | _, .str _ => .error (.exception .error)
    | _, _ => (orThrow .error (expOfJsarray D es)).map fun es => .exp (compile es)
  | _ =>
    match filter.field "indexName", filter.field "bin" with
    | .str _, .str _ => .error (.exception .error)
    | .str name, _ => .ok (.index (nativeStr name))
    | _, .str name => .ok (.bin (nativeStr name))
    | _, _ => .error (.exception .error)

/-- The values of a predicate; a predicate or a datatype of another kind adds nothing. -/
def predicateValue (filter : JsValue) (predicate datatype : Int32) :
    Except Thrown (Option PredicateValue) :=
  if predicate = AS_PREDICATE_RANGE then
    if datatype = AS_INDEX_NUMERIC then
      match filter.field "min", filter.field "max" with
      | .num min, .num max => .ok (some (.range min.toInt64 max.toInt64))
      | _, _ => .error (.exception .error)
    else if datatype = AS_INDEX_GEO2DSPHERE then
      match filter.field "val" with
      | .str s => .ok (some (.string (nativeStr s)))
      | _ => .error (.exception .error)
    else .ok none
  else if predicate = AS_PREDICATE_EQUAL then
    if datatype = AS_INDEX_NUMERIC then
      match filter.field "val" with
      | .num n => .ok (some (.integer n.toInt64))
      | _ => .error (.exception .error)
    else if datatype = AS_INDEX_STRING then
      match filter.field "val" with
      | .str s => .ok (some (.string (nativeStr s)))
      | _ => .error (.exception .error)
    else if datatype = AS_INDEX_BLOB then
      match filter.field "val" with
      | .buffer bs => .ok (some (.bytes bs))
      | _ => .error (.exception .error)
    else .ok none
  else .ok none

/-- The expression of the query after a filter. -/
def FilterName.expAfter (e : Option X) : FilterName X → Option X
  | .exp e' => e'
  | _ => e

/-- The call of `as_query_where_with_exp`, `as_query_where_with_index_name` or
`as_query_where_with_ctx`: its target and its context. Without an expression it has no name to copy. -/
def FilterName.target (e : Option X) (context : Option (List CtxItem)) (name : FilterName X) :
    Except Thrown (PredicateTarget X × Option (List CtxItem)) :=
  match name.expAfter e, name with
  | some e, _ => .ok (.exp e, none)
  | none, .index i => .ok (.index i, none)
  | none, .bin b => .ok (.bin b, context)
  | none, .exp _ => .error .abort

/-- An iteration of the loop of `setup_options` over the filters. -/
def addFilter [Platform] (w : WhereClause X) (filter : JsValue) : Except Thrown (WhereClause X) := do
  let filter ← orThrow .error filter.asObject
  let context ← match w.context with
    | some c => pure (some c)
    | none => orThrow .typeError (contextOfJs (filter.field "context"))
  let name ← filterName D compile filter
  let predicate ← orThrow .error (CtxItem.toInt (filter.field "predicate"))
  let type ← orThrow .error (CtxItem.toInt (filter.field "type"))
  let datatype ← orThrow .error (CtxItem.toInt (filter.field "datatype"))
  match ← predicateValue filter predicate datatype with
  | none => return { w with context := context, exp := name.expAfter w.exp }
  | some value =>
    let (target, ctx) ← name.target w.exp context
    return {
      context := context
      exp := name.expAfter w.exp
      entries := w.entries ++ [⟨target, predicate, type, datatype, value, ctx⟩] }

/-- The loop of `setup_options` over the filters, with the context that there is already. -/
def setupWhere [Platform] (context : Option (List CtxItem)) (filters : List JsValue) :
    Except Thrown (WhereClause X) :=
  filters.foldlM (addFilter D compile) ⟨context, none, []⟩

/-- The target of a filter by itself. -/
def FilterName.own : FilterName X → Option (PredicateTarget X)
  | bin name => some (.bin name)
  | index name => some (.index name)
  | exp e => e.map .exp

/-- What a filter says by itself. -/
def AsPredicate.ofFilter [Platform] (filter : JsValue) : Option (AsPredicate X) := do
  let ctx ← (contextOfJs (filter.field "context")).toOption
  let name ← (filterName D compile filter).toOption
  let target ← name.own
  let predicate ← (CtxItem.toInt (filter.field "predicate")).toOption
  let type ← (CtxItem.toInt (filter.field "type")).toOption
  let datatype ← (CtxItem.toInt (filter.field "datatype")).toOption
  let value ← (predicateValue filter predicate datatype).toOption.join
  return ⟨target, predicate, type, datatype, value, ctx⟩

end

/-- The filter is put on an expression. -/
def hasExp (filter : JsValue) : Bool := filter.field "exp" matches .array _

section
variable {X : Type}

def FilterName.isExp : FilterName X → Bool
  | exp _ => true
  | _ => false

def PredicateTarget.isExp : PredicateTarget X → Bool
  | exp _ => true
  | _ => false

/-- The expression of the query after a predicate with this target. -/
def PredicateTarget.expAfter (e : Option X) : PredicateTarget X → Option X
  | exp e' => some e'
  | _ => e

/-- What becomes of a predicate in a query that has an expression already. -/
def AsPredicate.under (e : Option X) (p : AsPredicate X) : AsPredicate X :=
  match p.target.expAfter e with
  | some e => { p with target := .exp e }
  | none => p

def entriesUnder : Option X → List (AsPredicate X) → List (AsPredicate X)
  | _, [] => []
  | e, p :: ps => p.under e :: entriesUnder (p.target.expAfter e) ps

variable {D : PolicyDefaults} {compile : List ExpEntry → Option X} {p : AsPredicate X}
  {filter : JsValue} {e : Option X}

theorem toOption_eq_some {ε α : Type} {x : Except ε α} {a : α} : x.toOption = some a ↔ x = .ok a := by
  cases x with
  | error e => exact ⟨nofun, nofun⟩
  | ok b =>
    constructor
    · exact fun h => congrArg Except.ok (Option.some.inj h)
    · exact fun h => congrArg some (Except.ok.inj h)

/-- What a filter says, part by part. -/
theorem AsPredicate.ofFilter_eq_some [Platform] (h : AsPredicate.ofFilter D compile filter = some p) :
    contextOfJs (filter.field "context") = .ok p.ctx ∧
    (∃ name, filterName D compile filter = .ok name ∧ name.own = some p.target) ∧
    CtxItem.toInt (filter.field "predicate") = .ok p.predicate ∧
    CtxItem.toInt (filter.field "type") = .ok p.type ∧
    CtxItem.toInt (filter.field "datatype") = .ok p.datatype ∧
    predicateValue filter p.predicate p.datatype = .ok (some p.value) := by
  simp only [AsPredicate.ofFilter, Option.bind_eq_bind, Option.bind_eq_some_iff] at h
  obtain ⟨ctx, hctx, name, hname, target, htarget, predicate, hpredicate, type, htype, datatype,
    hdatatype, value, hvalue, hp⟩ := h
  obtain rfl := Option.some.inj hp
  exact ⟨toOption_eq_some.mp hctx, ⟨name, toOption_eq_some.mp hname, htarget⟩,
    toOption_eq_some.mp hpredicate, toOption_eq_some.mp htype, toOption_eq_some.mp hdatatype,
    toOption_eq_some.mp (Option.join_eq_some_iff.mp hvalue)⟩

theorem filterName_isExp [Platform] {name : FilterName X} (h : filterName D compile filter = .ok name) :
    name.isExp = hasExp filter := by
  rw [filterName] at h
  rw [hasExp]
  split at h
  · rename_i es _
    split at h
    · cases h
    · cases h
    · cases hes : expOfJsarray D es with
      | error err =>
        rw [hes] at h
        cases err <;> cases h
      | ok a =>
        rw [hes] at h
        obtain rfl := Except.ok.inj h
        rfl
  · split at h
    · cases h
    · obtain rfl := Except.ok.inj h
      rfl
    · obtain rfl := Except.ok.inj h
      rfl
    · cases h

theorem FilterName.own_isExp {name : FilterName X} {t : PredicateTarget X} (h : name.own = some t) :
    t.isExp = name.isExp := by
  rcases name with b | i | _ | e
  · obtain rfl := Option.some.inj h
    rfl
  · obtain rfl := Option.some.inj h
    rfl
  · cases h
  · obtain rfl := Option.some.inj h
    rfl

theorem AsPredicate.ofFilter_isExp [Platform] (h : AsPredicate.ofFilter D compile filter = some p) :
    p.target.isExp = hasExp filter := by
  obtain ⟨-, ⟨name, hname, hown⟩, -⟩ := ofFilter_eq_some h
  rw [FilterName.own_isExp hown, filterName_isExp hname]

/-- A value without a context is what `undefined` and `null` are. -/
theorem contextOfJs_eq_none [Platform] {v : JsValue} : contextOfJs v = .ok none ↔ v.isNullish = true := by
  rw [contextOfJs]
  split_ifs with hnull hobj
  · exact iff_of_true rfl hnull
  · exact iff_of_false nofun hnull
  · refine iff_of_false ?_ hnull
    split
    · rename_i items _
      cases contextItemsOfJs items with
      | error err => nofun
      | ok cs => nofun
    · nofun

/-- A filter without a context adds what it says, on the expression of the query if there is one. -/
theorem addFilter_of_ofFilter [Platform] (h : AsPredicate.ofFilter D compile filter = some p) (hctx : p.ctx = none)
    (es : List (AsPredicate X)) :
    addFilter D compile ⟨none, e, es⟩ filter = .ok ⟨none, p.target.expAfter e, es ++ [p.under e]⟩ := by
  obtain ⟨hcontext, ⟨name, hname, hown⟩, hpredicate, htype, hdatatype, hvalue⟩ :=
    AsPredicate.ofFilter_eq_some h
  have hobj : filter.asObject = .ok filter := by
    cases filter with
    | obj cls ps => rfl
    | _ => cases hname
  have hexp : name.expAfter e = p.target.expAfter e := by
    rcases name with b | i | _ | e'
    · rw [← Option.some.inj hown]
      rfl
    · rw [← Option.some.inj hown]
      rfl
    · cases hown
    · rw [← Option.some.inj hown]
      rfl
  have htarget : name.target e none = .ok ((p.under e).target, none) := by
    unfold FilterName.target AsPredicate.under
    rw [hexp]
    cases hafter : p.target.expAfter e with
    | some e' => rfl
    | none =>
      rcases name with b | i | _ | e'
      · exact congrArg (fun t => Except.ok (t, none)) (Option.some.inj hown)
      · exact congrArg (fun t => Except.ok (t, none)) (Option.some.inj hown)
      · cases hown
      · rw [← Option.some.inj hown] at hafter
        cases hafter
  have hunder : p.under e = ⟨(p.under e).target, p.predicate, p.type, p.datatype, p.value, none⟩ := by
    rw [← hctx, AsPredicate.under]
    split <;> rfl
  rw [addFilter, hobj]
  simp only [orThrow, bind, Except.bind, hcontext, hctx, hname, hpredicate, htype, hdatatype, hvalue,
    htarget, hexp, ← hunder]
  rfl

/-- The predicates are what the filters say. -/
def Supplied [Platform] (D : PolicyDefaults) (compile : List ExpEntry → Option X) (filters : List JsValue)
    (ps : List (AsPredicate X)) : Prop :=
  List.Forall₂ (fun f p => AsPredicate.ofFilter D compile f = some p) filters ps

theorem exists_supplied_iff [Platform] {filters : List JsValue} :
    (∃ ps, Supplied D compile filters ps) ↔
      ∀ f ∈ filters, (AsPredicate.ofFilter D compile f).isSome = true := by
  induction filters with
  | nil => exact iff_of_true ⟨[], .nil⟩ (by simp)
  | cons f fs ih =>
    rw [List.forall_mem_cons, ← ih, Option.isSome_iff_exists]
    constructor
    · rintro ⟨_, h⟩
      rcases h with _ | @⟨_, p, _, ps, hp, hps⟩
      exact ⟨⟨p, hp⟩, ps, hps⟩
    · rintro ⟨⟨p, hp⟩, ps, hps⟩
      exact ⟨p :: ps, .cons hp hps⟩

/-- The filters of a query, none of which has a context. -/
theorem setupWhere_of_supplied [Platform] {filters : List JsValue} {ps : List (AsPredicate X)}
    (h : Supplied D compile filters ps) (hctx : ∀ p ∈ ps, p.ctx = none) (es : List (AsPredicate X)) :
    ∃ e', filters.foldlM (addFilter D compile) ⟨none, e, es⟩ =
      .ok ⟨none, e', es ++ entriesUnder e ps⟩ := by
  induction h generalizing e es with
  | nil => exact ⟨e, by rw [entriesUnder, List.append_nil]; rfl⟩
  | @cons f p fs ps hf _ ih =>
    obtain ⟨hp, hps⟩ := List.forall_mem_cons.mp hctx
    obtain ⟨e', he'⟩ := ih hps (e := p.target.expAfter e) (es ++ [p.under e])
    refine ⟨e', ?_⟩
    rw [List.foldlM_cons, addFilter_of_ofFilter hf hp]
    refine he'.trans ?_
    rw [entriesUnder, List.append_assoc, List.singleton_append]

theorem AsPredicate.under_eq_iff : p.under e = p ↔ e = none ∨ p.target.isExp = true := by
  unfold AsPredicate.under
  rcases p with ⟨b | i | e', predicate, type, datatype, value, ctx⟩
  · cases e <;> simp [PredicateTarget.expAfter, PredicateTarget.isExp]
  · cases e <;> simp [PredicateTarget.expAfter, PredicateTarget.isExp]
  · simp [PredicateTarget.expAfter, PredicateTarget.isExp]

/-- The predicates of the query are the filters' own if no filter without an expression stands after
one with an expression. -/
theorem entriesUnder_eq_iff {ps : List (AsPredicate X)} :
    entriesUnder e ps = ps ↔ (e = none ∨ ∀ p ∈ ps, p.target.isExp = true) ∧
      ps.Pairwise fun p q => p.target.isExp = true → q.target.isExp = true := by
  induction ps generalizing e with
  | nil => simp [entriesUnder]
  | cons p ps ih =>
    have hafter : p.target.expAfter e = none ↔ e = none ∧ p.target.isExp = false := by
      cases p.target <;> simp [PredicateTarget.expAfter, PredicateTarget.isExp]
    rw [entriesUnder, List.cons.injEq, ih, AsPredicate.under_eq_iff, hafter, List.pairwise_cons,
      List.forall_mem_cons]
    cases hexp : p.target.isExp with
    | true =>
      simp only [reduceCtorEq, and_false, false_or, or_true, true_and, forall_const]
      exact ⟨fun h => ⟨.inr h.1, h⟩, And.right⟩
    | false =>
      cases e with
      | none => simp
      | some e => simp

/-- The filters by which the predicates are those of the filters. -/
def ExpStays (filters : List JsValue) : Prop :=
  filters.Pairwise fun f g => hasExp f = true → hasExp g = true

theorem Supplied.expStays_iff [Platform] {filters : List JsValue} {ps : List (AsPredicate X)}
    (h : Supplied D compile filters ps) :
    (ps.Pairwise fun p q => p.target.isExp = true → q.target.isExp = true) ↔ ExpStays filters := by
  have hmap : ps.map (·.target.isExp) = filters.map hasExp := by
    induction h with
    | nil => rfl
    | cons hf _ ih => rw [List.map_cons, List.map_cons, ih, AsPredicate.ofFilter_isExp hf]
  have hps : (ps.map (·.target.isExp)).Pairwise (fun b c => b = true → c = true) ↔
      ps.Pairwise fun p q => p.target.isExp = true → q.target.isExp = true := List.pairwise_map
  rw [← hps, hmap, ExpStays, List.pairwise_map]

end

end AerospikeNode
