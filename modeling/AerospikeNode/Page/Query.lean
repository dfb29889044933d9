import AerospikeNode.Page.Filter
import AerospikeNode.Page.State

/-!
# The pages of a query

`Query#foreach` of a paginated query (`lib/query.js`) and `QueryPages`
(`src/main/commands/query_pages.cc`). The first page takes its predicates from the filters, every
other one from the saved state, and the C client does not keep the context of a predicate in that
state: it is to be passed as an argument of its own, which `foreach` guards with
`(this.filters == null) && (this.filters[0].context)`.

`samePredicates_iff`: the predicates of every page are what the filters say in exactly the queries
whose filters are an array of well-formed filters without a context, none of them without an
expression after one with an expression.
-/

namespace AerospikeNode

/-- An `as_query`: its predicates and how far it has come. -/
structure AsQuery (X P : Type) where
  predicates : List (AsPredicate X)
  progress : P

/-- The functions of the C client that a paginated query uses. -/
structure QueryClient (X P : Type) where
  /-- `as_exp_compile` -/
  compile : List ExpEntry → Option X
  /-- The progress of a new query. -/
  new : P
  /-- `as_query_to_bytes` -/
  toBytes : AsQuery X P → Bytes
  /-- `as_query_from_bytes_new` -/
  fromBytes : Bytes → AsQuery X P

def AsPredicate.withContext {X : Type} (p : AsPredicate X) (ctx : Option (List CtxItem)) :
    AsPredicate X := { p with ctx := ctx }

section
variable {X P : Type} (D : PolicyDefaults) (C : QueryClient X P)

/-- `if (with_context) { query->where.entries[0].ctx = &context; }` -/
def setFirstContext (context : Option (List CtxItem)) : List (AsPredicate X) → List (AsPredicate X)
  | [] => []
  | p :: ps => match context with
    | some c => p.withContext (some c) :: ps
    | none => p :: ps

/-- The predicates of a new query, from its option `filters`. -/
def setupFilters [Platform] (context : Option (List CtxItem)) (filters : JsValue) :
    Except Thrown (List (AsPredicate X)) :=
  match filters with
  | .undefined | .null => .ok []
  | .array fs => do
    let w ← setupWhere D C.compile context fs
    return setFirstContext w.context w.entries
  | _ => .error (.exception .typeError)

/-- The query of `QueryPages`, from the filters, the saved query and the context argument. What the
C client makes of bytes that are not set is not known. -/
def queryPages [Platform] (filters savedQuery contextArg : JsValue) : Except Thrown (AsQuery X P) := do
  let context ← if contextArg.isObject then
      orThrow .typeError (contextOfJs (contextArg.field "context"))
    else pure none
  if savedQuery.isNullish then
    let ps ← setupFilters D C context filters
    return ⟨ps, C.new⟩
  else if savedQuery.isObject then
    match loadBytes savedQuery (loadBytesSize savedQuery) with
    | none => throw .abort
    | some [] => return ⟨[], C.new⟩
    | some bytes =>
      let query := C.fromBytes bytes
      return { query with predicates := setFirstContext context query.predicates }
  else throw (.exception .typeError)

/-- Reading a property of a value; `undefined` and `null` have none. -/
def readProperty (v : JsValue) (name : String) : Except Thrown JsValue :=
  if v.isNullish then .error (.exception .typeError) else .ok (v.field name)

/-- The context argument of `foreach`. -/
def foreachContext (filters : JsValue) : Except Thrown JsValue :=
  if filters.isNullish then do
    let filter ← readProperty filters "0"
    let context ← readProperty filter "context"
    return if context.truthy then .plain [(JsString.lit "context", context)] else .null
  else return .null

/-- `Query#foreach` of a paginated query, up to its native command. -/
def foreach [Platform] (filters queryState : JsValue) : Except Thrown (AsQuery X P) := do
  let contextArg ← foreachContext filters
  queryPages D C filters queryState contextArg

/-- The query of each page, where the page before has come as far as `progress` says and has been
saved at its end. -/
def page [Platform] (filters : JsValue) (progress : ℕ → P) : ℕ → Except Thrown (AsQuery X P)
  | 0 => foreach D C filters .undefined
  | n + 1 => do
    let query ← page filters progress n
    foreach D C filters (queryBytesToJsobject (C.toBytes { query with progress := progress n }))

/-- What the filters of a query say. -/
def SuppliedBy [Platform] (filters : JsValue) (ps : List (AsPredicate X)) : Prop :=
  match filters with
  | .array fs => Supplied D C.compile fs ps
  | v => v.isNullish = true ∧ ps = []

/-- Every page is issued, with the predicates that the filters say. -/
def SamePredicates [Platform] (filters : JsValue) (progress : ℕ → P) : Prop :=
  ∃ ps, SuppliedBy D C filters ps ∧
    ∀ n, ∃ query, page D C filters progress n = .ok query ∧ query.predicates = ps

/-- The C client saves a query with these predicates and restores all of it but the contexts. -/
def QueryClient.Restores (ps : List (AsPredicate X)) : Prop :=
  ∀ progress, 0 < (C.toBytes ⟨ps, progress⟩).length ∧ (C.toBytes ⟨ps, progress⟩).length < 2 ^ 32 ∧
    C.fromBytes (C.toBytes ⟨ps, progress⟩) = ⟨ps.map (·.withContext none), progress⟩

variable {D C} {filters : JsValue} {progress : ℕ → P}

theorem foreachContext_nullish (h : filters.isNullish = true) :
    foreachContext filters = .error (.exception .typeError) := by
  rw [foreachContext, if_pos h, readProperty, if_pos h]
  rfl

theorem setFirstContext_none (ps : List (AsPredicate X)) : setFirstContext none ps = ps := by
  cases ps <;> rfl

/-- Without a context argument a query goes on as the C client restores it. -/
theorem queryPages_saved [Platform] {bytes : Bytes} (hpos : 0 < bytes.length) (hlt : bytes.length < 2 ^ 32) :
    queryPages D C filters (queryBytesToJsobject bytes) .null = .ok (C.fromBytes bytes) := by
  obtain ⟨hsize, hbytes⟩ := loadSaved_queryBytesToJsobject hlt
  have hload : loadBytes (queryBytesToJsobject bytes) (loadBytesSize (queryBytesToJsobject bytes)) =
      some bytes := by
    rw [hsize, hbytes]
  have hobject : (queryBytesToJsobject bytes).isNullish = false ∧
      (queryBytesToJsobject bytes).isObject = true := ⟨rfl, rfl⟩
  cases bytes with
  | nil => cases hpos
  | cons b bs =>
    unfold queryPages
    simp only [JsValue.isObject, Bool.false_eq_true, if_false, pure_bind, hobject, hload,
      setFirstContext_none]
    rfl

theorem page_succ [Platform] {fs : List JsValue} {query : AsQuery X P} {n : ℕ}
    (hn : page D C (.array fs) progress n = .ok query) (h : C.Restores query.predicates) :
    page D C (.array fs) progress (n + 1) =
      .ok ⟨query.predicates.map (·.withContext none), progress n⟩ := by
  obtain ⟨hpos, hlt, hrestored⟩ := h (progress n)
  have hsaved : queryPages D C (.array fs)
      (queryBytesToJsobject (C.toBytes ⟨query.predicates, progress n⟩)) .null = .ok (C.fromBytes _) :=
    queryPages_saved hpos hlt
  rw [hrestored] at hsaved
  rw [page, hn]
  exact hsaved

theorem page_zero [Platform] (fs : List JsValue) :
    page D C (.array fs) progress 0 =
      (setupWhere D C.compile none fs).map fun w => ⟨setFirstContext w.context w.entries, C.new⟩ := by
  show (setupFilters D C none (.array fs) >>= fun ps => pure (AsQuery.mk ps C.new)) = _
  rw [setupFilters]
  cases setupWhere D C.compile none fs with
  | error e => rfl
  | ok w => rfl

theorem AsPredicate.withContext_none_eq_iff {p : AsPredicate X} :
    p.withContext none = p ↔ p.ctx = none := by
  rcases p with ⟨target, predicate, type, datatype, value, ctx⟩
  simp [AsPredicate.withContext, eq_comm]

theorem map_withContext_none_eq_iff {ps : List (AsPredicate X)} :
    ps.map (·.withContext none) = ps ↔ ∀ p ∈ ps, p.ctx = none := by
  induction ps with
  | nil => simp
  | cons p ps ih =>
    rw [List.map_cons, List.cons.injEq, AsPredicate.withContext_none_eq_iff, ih, List.forall_mem_cons]

/-- The predicates have no context exactly if the filters have none. -/
theorem Supplied.noContext_iff [Platform] {fs : List JsValue} {ps : List (AsPredicate X)}
    (h : Supplied D C.compile fs ps) :
    (∀ p ∈ ps, p.ctx = none) ↔ ∀ f ∈ fs, (f.field "context").isNullish = true := by
  induction h with
  | nil => simp
  | @cons f p fs ps hf _ ih =>
    obtain ⟨hcontext, -⟩ := AsPredicate.ofFilter_eq_some hf
    have hnone : p.ctx = none ↔ (f.field "context").isNullish = true := by
      rw [← contextOfJs_eq_none, hcontext, Except.ok.injEq]
    rw [List.forall_mem_cons, List.forall_mem_cons, hnone, ih]

/-- Two pages with the predicates of the filters leave no context to a filter. -/
theorem SamePredicates.noContext [Platform] (h : SamePredicates D C filters progress)
    (hC : ∀ query, page D C filters progress 0 = .ok query → C.Restores query.predicates) :
    ∃ fs ps, filters = .array fs ∧ Supplied D C.compile fs ps ∧ (∀ p ∈ ps, p.ctx = none) ∧
      ∃ query, page D C filters progress 0 = .ok query ∧ query.predicates = ps := by
  obtain ⟨ps, hsupplied, hpages⟩ := h
  obtain ⟨query, hzero, hps⟩ := hpages 0
  have harray : ∃ fs, filters = .array fs := by
    rw [SuppliedBy.eq_def] at hsupplied
    split at hsupplied
    · exact ⟨_, rfl⟩
    · rw [page, foreach, foreachContext_nullish hsupplied.1] at hzero
      cases hzero
  obtain ⟨fs, rfl⟩ := harray
  refine ⟨fs, ps, rfl, hsupplied, ?_, query, hzero, hps⟩
  obtain ⟨query', hone, hps'⟩ := hpages 1
  rw [page_succ hzero (hC query hzero), Except.ok.injEq] at hone
  rw [← hone, hps] at hps'
  exact map_withContext_none_eq_iff.mp hps'

/-- Filters without a context give the first page what they say, on the expressions before them. -/
theorem page_zero_of_supplied [Platform] {fs : List JsValue} {ps : List (AsPredicate X)}
    (h : Supplied D C.compile fs ps) (hctx : ∀ p ∈ ps, p.ctx = none) :
    page D C (.array fs) progress 0 = .ok ⟨entriesUnder none ps, C.new⟩ := by
  obtain ⟨e, he⟩ := setupWhere_of_supplied h hctx (e := none) []
  rw [List.nil_append] at he
  rw [page_zero, setupWhere, he]
  exact congrArg (fun ps => Except.ok (AsQuery.mk ps C.new)) (setFirstContext_none _)

/-- Every page has the predicates of the filters exactly if they are well-formed filters without a
context, and an expression stays on every filter after it. -/
theorem samePredicates_iff [Platform] (D : PolicyDefaults) (C : QueryClient X P) (filters : JsValue)
    (progress : ℕ → P)
    (hC : ∀ query, page D C filters progress 0 = .ok query → C.Restores query.predicates) :
    SamePredicates D C filters progress ↔ ∃ fs, filters = .array fs ∧
      (∀ f ∈ fs, (AsPredicate.ofFilter D C.compile f).isSome = true ∧
        (f.field "context").isNullish = true) ∧ ExpStays fs := by
  constructor
  · intro h
    obtain ⟨fs, ps, rfl, hsupplied, hctx, query, hzero, hps⟩ := h.noContext hC
    rw [page_zero_of_supplied hsupplied hctx, Except.ok.injEq] at hzero
    rw [← hzero] at hps
    have hstays := (entriesUnder_eq_iff.mp hps).2
    have hsome := exists_supplied_iff.mp ⟨ps, hsupplied⟩
    exact ⟨fs, rfl, fun f hf => ⟨hsome f hf, hsupplied.noContext_iff.mp hctx f hf⟩,
      hsupplied.expStays_iff.mp hstays⟩
  · rintro ⟨fs, rfl, hfs, hstays⟩
    obtain ⟨ps, hsupplied⟩ := exists_supplied_iff.mpr fun f hf => (hfs f hf).1
    have hctx := hsupplied.noContext_iff.mpr fun f hf => (hfs f hf).2
    have hentries : entriesUnder none ps = ps :=
      entriesUnder_eq_iff.mpr ⟨.inl rfl, hsupplied.expStays_iff.mpr hstays⟩
    have hzero : page D C (.array fs) progress 0 = .ok ⟨ps, C.new⟩ := by
      rw [page_zero_of_supplied hsupplied hctx, hentries]
    have hrestores : C.Restores ps := hC _ hzero
    refine ⟨ps, hsupplied, fun n => ?_⟩
    induction n with
    | zero => exact ⟨_, hzero, rfl⟩
    | succ n ih =>
      obtain ⟨query, hn, hps⟩ := ih
      refine ⟨_, page_succ hn (hps ▸ hrestores), ?_⟩
      rw [hps]
      exact map_withContext_none_eq_iff.mpr hctx

/-- A C client that has the bytes of a query with these predicates, and the progress as a byte. -/
def QueryClient.storing (ps : List (AsPredicate (List ExpEntry))) : QueryClient (List ExpEntry) UInt8 where
  compile := some
  new := 0
  toBytes query := [1, query.progress]
  fromBytes
    | [_, progress] => ⟨ps, progress⟩
    | _ => ⟨[], 0⟩

end

/-- A filter `equal('a', 'v')`, with a context. -/
def equalFilter (context : JsValue) : JsValue :=
  .plain [(JsString.lit "predicate", .int 0), (JsString.lit "bin", .str (JsString.lit "a")),
    (JsString.lit "datatype", .int 0), (JsString.lit "type", .int 0), (JsString.lit "context", context),
    (JsString.lit "val", .str (JsString.lit "v"))]

def equalPredicate (ctx : Option (List CtxItem)) : AsPredicate (List ExpEntry) :=
  ⟨.bin [97], 0, 0, 0, .string [118], ctx⟩

theorem storing_restores (ctx : Option (List CtxItem)) :
    (QueryClient.storing [equalPredicate none]).Restores [equalPredicate ctx] :=
  fun _ => ⟨Nat.zero_lt_two, (by decide : 2 < 2 ^ 32), rfl⟩

open Platform

theorem samePredicates_equal :
    SamePredicates .client (.storing [equalPredicate none]) (.array [equalFilter .undefined])
      fun n => n.toUInt8 := by
  refine (samePredicates_iff .client (.storing [equalPredicate none]) (.array [equalFilter .undefined])
    (fun n => n.toUInt8) ?_).mpr ⟨[equalFilter .undefined], rfl, ?_, List.pairwise_singleton _ _⟩
  · intro query hquery
    rw [show page .client (.storing [equalPredicate none]) (.array [equalFilter .undefined])
        (fun n => n.toUInt8) 0 = .ok ⟨[equalPredicate none], 0⟩ from rfl, Except.ok.injEq] at hquery
    rw [← hquery]
    exact storing_restores none
  · intro f hf
    rw [List.mem_singleton.mp hf]
    exact ⟨rfl, rfl⟩

/-- A context that the first page takes from the filter is missing on the second. -/
theorem samePredicates_context :
    ¬ SamePredicates .client (.storing [equalPredicate none])
      (.array [equalFilter (CdtContext.toJs ⟨[(CdtContext.LIST_INDEX, .int 0)]⟩)])
      fun n => n.toUInt8 := by
  intro h
  have hzero : page .client (.storing [equalPredicate none])
      (.array [equalFilter (CdtContext.toJs ⟨[(CdtContext.LIST_INDEX, .int 0)]⟩)])
      (fun n => n.toUInt8) 0 = .ok ⟨[equalPredicate (some [.listIndex 0])], 0⟩ := rfl
  obtain ⟨-, ps, -, -, hctx, query, hquery, hps⟩ := h.noContext fun query hquery => by
    rw [hzero, Except.ok.injEq] at hquery
    rw [← hquery]
    exact storing_restores _
  rw [hzero, Except.ok.injEq] at hquery
  rw [← hquery] at hps
  cases hctx (equalPredicate (some [.listIndex 0])) (hps ▸ List.mem_singleton_self _)

end AerospikeNode
