import AerospikeNode.Cdt.RoundTrip

/-!
# Contexts that do not convert

`get_optional_cdt_context`, its copy for the heap, and the two methods of `src/main/cdt_ctx.cc` that write a
context as base64 and read it back. None of them looks at the result codes of `asval_from_jsvalue`, of
`get_optional_cdt_context` and of `as_cdt_ctx_from_base64`. `context_reports_iff` says when an error is
reported all the same.
-/

namespace AerospikeNode

namespace CtxItem
open CdtContext

/-- A branch of the `switch`: it adds a step of an integer, or of a value. -/
inductive Branch where
  | index (add : Int32 → CtxItem)
  | value (add : Option AsVal → CtxItem)

/-- The `switch` on the type of an item, of which both functions have a copy. -/
def branches : List (Int32 × Branch) := [
  (LIST_INDEX, .index listIndex),
  (LIST_RANK, .index listRank),
  (LIST_VALUE, .value listValue),
  (MAP_INDEX, .index mapIndex),
  (MAP_RANK, .index mapRank),
  (MAP_KEY, .value mapKey),
  (MAP_VALUE, .value mapValue),
  (LIST_INDEX ||| 0x40, .index fun i => listIndexCreate i 0 false),
  (MAP_KEY ||| 0x40, .value fun v => mapKeyCreate v 0),
  (LIST_INDEX ||| 0x80, .index fun i => listIndexCreate i 0 true),
  (MAP_KEY ||| 0x80, .value fun v => mapKeyCreate v 1),
  (LIST_INDEX ||| 0xc0, .index fun i => listIndexCreate i 1 false),
  (MAP_KEY ||| 0xc0, .value fun v => mapKeyCreate v 3)]

def branch (type : Int32) : Option Branch := branches.lookup type

/-- The value of the step, if it has one, is that of the item. -/
def Initialised : CtxItem → Bool
  | listValue v | mapKey v | mapValue v | mapKeyCreate v _ => v.isSome
  | _ => true

/-- What a branch adds is initialised, if its value is. -/
def Branch.Fills : Branch → Prop
  | index add => ∀ i, (add i).Initialised = true
  | value add => ∀ v, (add v).Initialised = v.isSome

theorem branches_fill : ∀ b ∈ branches, b.2.Fills := by
  unfold branches
  simp [Branch.Fills, Initialised]

theorem lookup_cons_ite (t type : Int32) (b : Branch) (rest : List (Int32 × Branch)) :
    ((t, b) :: rest).lookup type = if type = t then some b else rest.lookup type := by
  rw [List.lookup_cons]
  split_ifs with h
  · rw [beq_iff_eq.2 h]
  · rw [beq_eq_false_iff_ne.2 h]

theorem mem_of_lookup {type : Int32} {b : Branch} : ∀ {bs : List (Int32 × Branch)},
    bs.lookup type = some b → (type, b) ∈ bs
  | [], h => by cases h
  | (t, c) :: bs, h => by
    rw [lookup_cons_ite] at h
    split_ifs at h with ht
    · cases h
      rw [ht]
      exact List.mem_cons_self
    · exact List.mem_cons_of_mem _ (mem_of_lookup h)

theorem branch_fills {type : Int32} {b : Branch} (h : branch type = some b) : b.Fills :=
  branches_fill _ (mem_of_lookup h)

section
variable (toInt : JsValue → Option Int32)

/-- `Nan::To<int>(v).FromJust()`; the conversion of some values throws, which V8 does not survive. -/
def toIntFromJust (v : JsValue) : Res Int32 :=
  match toInt v with
  | some i => .ok i
  | none => .error .abort

/-- What a branch adds to the context; where no branch is, nothing is added. -/
def addedBy [Platform] (v : JsValue) : Option Branch → Res (Option CtxItem)
  | some (.index add) => (toIntFromJust toInt v).map fun i => some (add i)
  | some (.value add) => (toVal v).map fun a => some (add a)
  | none => .ok none

/-- The type is known, and the value converts. -/
def Converts [Platform] (type : Int32) (v : JsValue) : Bool :=
  match branch type with
  | some (.index _) => (toInt v).isSome
  | some (.value _) => v.asvalFromJsvalue.isOk
  | none => false

end

theorem addedBy_toInt [Platform] (it : Int32 × JsValue) :
    addedBy (fun v => (CtxItem.toInt v).toOption) it.2 (branch it.1) = ofItem it := by
  have hint : toIntFromJust (fun v => (CtxItem.toInt v).toOption) it.2 = CtxItem.toInt it.2 := by
    unfold toIntFromJust CtxItem.toInt
    cases h : it.2.toDouble with
    | ok n => simp [h, Except.map, Except.toOption]
    | error e =>
      obtain rfl := JsValue.toDouble_error h
      simp [h, Except.map, Except.toOption]
  unfold branch branches ofItem
  simp only [lookup_cons_ite, List.lookup_nil, apply_ite (addedBy _ it.2)]
  simp only [addedBy, hint]

end CtxItem

/-! ### The two readers -/

section
variable (toInt : JsValue → Option Int32)

/-- The loop over the items, each cast to an array without a test. -/
def readItems [Platform] : List JsValue → Res (List CtxItem)
  | [] => .ok []
  | .array item :: items => do
    let type ← CtxItem.toIntFromJust toInt (item.getD 0 .undefined)
    let c ← CtxItem.addedBy toInt (item.getD 1 .undefined) (CtxItem.branch type)
    let cs ← readItems items
    return c.toList ++ cs
  | _ :: _ => .error .abort

/-- What both readers do with the property of the context. -/
def readContext [Platform] (v : JsValue) : Res (Option (List CtxItem)) :=
  if v.isNullish then .ok none
  else if !v.isObject then .error .paramErr
  else match v.field "items" with
    | .array items => (readItems toInt items).map some
    | _ => .error .abort

/-- `get_optional_cdt_context`: `none` where it sets `has_context` to false. -/
def optionalCdtContext [Platform] (v : JsValue) : Res (Option (List CtxItem)) := readContext toInt v

/-- `get_optional_cdt_context_heap`: `none` where it returns `NULL`. -/
def optionalCdtContextHeap [Platform] (v : JsValue) : Res (Option (List CtxItem)) := readContext toInt v

/-! ### Base64 -/

/-- How a call of a method ends; `undefined` reads a context that nobody has initialised. -/
inductive CallEnd (α : Type) where
  | returned (x : α)
  | thrown (e : JsError)
  | aborted
  | undefined

/-- `ContextToBase64`. The result code is not looked at: `has_context`, false at first, decides. -/
def nativeContextToBase64 [Platform] (toBase64 : List AsCdtCtxItem → Bytes) (obj : JsValue) : CallEnd Bytes :=
  if !obj.isObject then .thrown .typeError
  else match optionalCdtContext toInt (obj.field "context") with
    | .ok (some path) => .returned (toBase64 (path.map CtxItem.toNative))
    | .ok none => .thrown .error
    | .error .paramErr => .thrown .error
    | .error .abort => .aborted

/-- `contextToBase64` of `lib/client.js` -/
def contextToBase64 [Platform] (toBase64 : List AsCdtCtxItem → Bytes) (context : JsValue) : CallEnd Bytes :=
  nativeContextToBase64 toInt toBase64 (.plain [(JsString.lit "context", context)])

end

section
variable (le : AsVal → AsVal → Bool) (fromBase64 : Bytes → Option (List CtxItem))

/-- `ContextFromBase64`. `as_cdt_ctx_from_base64` returns false, here `none`, of what it cannot decode, and then
leaves the context as it was. -/
def nativeContextFromBase64 (obj : JsValue) : CallEnd (List JsValue) :=
  if !obj.isObject then .thrown .typeError
  else match (obj.field "context").stringProperty with
    | .error _ => .thrown .error
    | .ok serializedContext =>
      match fromBase64 serializedContext with
      | none => .undefined
      | some path =>
        match getV8CdtContext le (path.map CtxItem.toNative) with
        | some v8Items => .returned v8Items
        | none => .undefined

/-- `contextFromBase64` of `lib/client.js`: the items of the context it returns. -/
def contextFromBase64 (serializedContext : JsValue) : CallEnd (List JsValue) :=
  nativeContextFromBase64 le fromBase64 (.plain [(JsString.lit "context", serializedContext)])

end

/-! ### What is to be reported -/

section
variable (toInt : JsValue → Option Int32)

def ItemConverts [Platform] : JsValue → Bool
  | .array item =>
    match toInt (item.getD 0 .undefined) with
    | some type => CtxItem.Converts toInt type (item.getD 1 .undefined)
    | none => false
  | _ => false

/-- There is no context, or one all items of which convert. -/
def ContextConverts [Platform] (v : JsValue) : Bool :=
  v.isNullish || v.isObject &&
    match v.field "items" with
    | .array items => items.all (ItemConverts toInt)
    | _ => false

/-- A path that has a step for each item, with its value. -/
def WholePath (v : JsValue) (path : List CtxItem) : Prop :=
  ∃ items, v.field "items" = .array items ∧ path.length = items.length ∧ ∀ c ∈ path, c.Initialised = true

/-- What is asked of a reader. -/
structure ReaderReports [Platform] (v : JsValue) (r : Res (Option (List CtxItem))) : Prop where
  rejects : ContextConverts toInt v = false → r = .error .paramErr
  whole : ∀ path, r = .ok (some path) → WholePath v path

/-- What is asked of `contextToBase64`. -/
structure WriterReports [Platform] (toBase64 : List AsCdtCtxItem → Bytes) (v : JsValue) (r : CallEnd Bytes) : Prop where
  rejects : ContextConverts toInt v = false → ∃ e, r = .thrown e
  whole : ∀ out, r = .returned out →
    ∃ path, WholePath v path ∧ out = toBase64 (path.map CtxItem.toNative)

end

/-- The whole text, which has no NUL, decodes. -/
def Decodes (fromBase64 : Bytes → Option (List CtxItem)) : JsValue → Prop
  | .str s => 0 ∉ s.utf8 ∧ (fromBase64 s.utf8).isSome = true
  | _ => False

/-- What is asked of `contextFromBase64`. -/
structure DecoderReports (fromBase64 : Bytes → Option (List CtxItem)) (v : JsValue)
    (r : CallEnd (List JsValue)) : Prop where
  rejects : ¬Decodes fromBase64 v → ∃ e, r = .thrown e
  defined : r ≠ .undefined
  whole : ∀ v8Items, r = .returned v8Items →
    ∃ s path, v = .str s ∧ fromBase64 s.utf8 = some path ∧ v8Items.length = path.length

/-! ### The readers report only what is no object -/

section
variable {toInt : JsValue → Option Int32} {v x : JsValue} {items : List JsValue} {path : List CtxItem}

theorem CtxItem.toVal_ne_paramErr [Platform] : CtxItem.toVal v ≠ .error .paramErr := by
  unfold CtxItem.toVal
  intro h
  split at h
  · cases h
  · cases h
  · cases h
    exact absurd rfl ‹_›

theorem CtxItem.addedBy_converts [Platform] {type : Int32} (h : CtxItem.Converts toInt type v = true) :
    ∃ c, CtxItem.addedBy toInt v (CtxItem.branch type) = .ok (some c) ∧ c.Initialised = true := by
  unfold CtxItem.Converts at h
  cases hb : CtxItem.branch type with
  | none =>
    rw [hb] at h
    cases h
  | some b =>
    have hfills := CtxItem.branch_fills hb
    rw [hb] at h
    cases b with
    | index add =>
      obtain ⟨i, hi⟩ := Option.isSome_iff_exists.1 h
      refine ⟨add i, ?_, hfills i⟩
      unfold CtxItem.addedBy CtxItem.toIntFromJust
      dsimp only
      rw [hi]
      rfl
    | value add =>
      cases ha : v.asvalFromJsvalue with
      | error e =>
        rw [ha] at h
        cases h
      | ok a =>
        refine ⟨add (some a), ?_, hfills (some a)⟩
        unfold CtxItem.addedBy
        dsimp only
        rw [toVal_of_ok ha]
        rfl

theorem readItems_converts [Platform] (h : ∀ x ∈ items, ItemConverts toInt x = true) : ∃ path,
    readItems toInt items = .ok path ∧ path.length = items.length ∧ ∀ c ∈ path, c.Initialised = true := by
  induction items with
  | nil => exact ⟨[], rfl, rfl, fun c hc => absurd hc List.not_mem_nil⟩
  | cons x items ih =>
    obtain ⟨path, hpath, hlen, hinit⟩ := ih fun y hy => h y (List.mem_cons_of_mem _ hy)
    have hx := h x List.mem_cons_self
    cases x with
    | array item =>
      unfold ItemConverts at hx
      dsimp only at hx
      cases htype : toInt (item.getD 0 .undefined) with
      | none =>
        rw [htype] at hx
        cases hx
      | some type =>
        rw [htype] at hx
        obtain ⟨c, hc, hcinit⟩ := CtxItem.addedBy_converts hx
        refine ⟨c :: path, ?_, congrArg (· + 1) hlen, ?_⟩
        · unfold readItems CtxItem.toIntFromJust
          rw [htype]
          show (do
            let c ← CtxItem.addedBy toInt (item.getD 1 .undefined) (CtxItem.branch type)
            let cs ← readItems toInt items
            return c.toList ++ cs) = _
          rw [hc, hpath]
          rfl
        · intro d hd
          rcases List.mem_cons.1 hd with rfl | hd
          · exact hcinit
          · exact hinit d hd
    | _ => cases hx

theorem toIntFromJust_ne_paramErr : CtxItem.toIntFromJust toInt v ≠ .error .paramErr := by
  unfold CtxItem.toIntFromJust
  cases toInt v with
  | none => intro h; cases h
  | some i => intro h; cases h

theorem bind_ne_paramErr {α β : Type} {r : Res α} {f : α → Res β} (hr : r ≠ .error .paramErr)
    (hf : ∀ a, f a ≠ .error .paramErr) : (r >>= f) ≠ .error .paramErr := by
  cases r with
  | error e =>
    intro h
    exact hr (congrArg Except.error (Except.error.inj h))
  | ok a => exact hf a

theorem map_ne_paramErr {α β : Type} {r : Res α} {f : α → β} (hr : r ≠ .error .paramErr) :
    r.map f ≠ .error .paramErr := by
  cases r with
  | error e =>
    intro h
    exact hr (congrArg Except.error (Except.error.inj h))
  | ok a =>
    intro h
    cases h

/-- No item makes a reader report an error. -/
theorem readItems_ne_paramErr [Platform] : ∀ items : List JsValue, readItems toInt items ≠ .error .paramErr
  | [] => by
    intro h
    cases h
  | x :: items => by
    have ih := readItems_ne_paramErr items
    cases x with
    | array item =>
      unfold readItems
      refine bind_ne_paramErr toIntFromJust_ne_paramErr fun type => ?_
      have hadded : CtxItem.addedBy toInt (item.getD 1 .undefined) (CtxItem.branch type) ≠ .error .paramErr := by
        unfold CtxItem.addedBy
        split
        · exact map_ne_paramErr toIntFromJust_ne_paramErr
        · exact map_ne_paramErr CtxItem.toVal_ne_paramErr
        · intro h
          cases h
      refine bind_ne_paramErr hadded fun c => bind_ne_paramErr ih fun cs => ?_
      intro h
      cases h
    | _ =>
      intro h
      cases h

theorem isObject_of_nullish (hnull : v.isNullish = true) : v.isObject = false := by
  cases v with
  | undefined => rfl
  | null => rfl
  | _ => cases hnull

theorem readContext_object [Platform] (hobj : v.isObject = true) :
    (∃ path, readContext toInt v = .ok (some path)) ∨ readContext toInt v = .error .abort := by
  have hnull : v.isNullish = false := by
    by_contra hn
    rw [isObject_of_nullish (Bool.eq_true_of_not_eq_false hn)] at hobj
    cases hobj
  unfold readContext
  rw [hnull, hobj]
  simp only [Bool.false_eq_true, Bool.not_true, if_false]
  split
  · rename_i items _
    cases hitems : readItems toInt items with
    | ok path => exact .inl ⟨path, rfl⟩
    | error e =>
      cases e with
      | abort => exact .inr rfl
      | paramErr => exact absurd hitems (readItems_ne_paramErr items)
  · exact .inr rfl

theorem readContext_notObject [Platform] (hnull : v.isNullish = false) (hobj : v.isObject = false) :
    readContext toInt v = .error .paramErr := by
  unfold readContext
  rw [hnull, hobj]
  rfl

theorem readContext_nullish [Platform] (hnull : v.isNullish = true) : readContext toInt v = .ok none := by
  unfold readContext
  rw [if_pos hnull]

theorem readContext_converts [Platform] (h : ContextConverts toInt v = true) (hnull : v.isNullish = false) :
    ∃ path, readContext toInt v = .ok (some path) ∧ WholePath v path := by
  unfold ContextConverts at h
  rw [hnull, Bool.false_or, Bool.and_eq_true] at h
  obtain ⟨hobj, hitems⟩ := h
  split at hitems
  · rename_i items hfield
    obtain ⟨path, hpath, hlen, hinit⟩ := readItems_converts (List.all_eq_true.1 hitems)
    refine ⟨path, ?_, items, hfield, hlen, hinit⟩
    unfold readContext
    rw [hnull, hobj, hfield]
    show (readItems toInt items).map some = _
    rw [hpath]
    rfl
  · cases hitems

/-- The inputs of which the readers report what they have to. -/
def Reported [Platform] (toInt : JsValue → Option Int32) (v : JsValue) : Prop :=
  ContextConverts toInt v = true ∨ v.isObject = false

theorem readContext_reports [Platform] : ReaderReports toInt v (readContext toInt v) ↔ Reported toInt v := by
  constructor
  · intro h
    cases hc : ContextConverts toInt v with
    | true => exact .inl hc
    | false =>
      refine .inr (Bool.eq_false_iff.2 fun hobj => ?_)
      have hread := h.rejects hc
      rcases readContext_object hobj with ⟨path, hpath⟩ | habort
      · rw [hpath] at hread
        cases hread
      · rw [habort] at hread
        cases hread
  · intro h
    cases hnull : v.isNullish with
    | true =>
      have hc : ContextConverts toInt v = true := by
        unfold ContextConverts
        rw [hnull, Bool.true_or]
      rw [readContext_nullish hnull]
      refine ⟨fun hfalse => ?_, fun path hpath => ?_⟩
      · rw [hc] at hfalse
        cases hfalse
      · cases hpath
    | false =>
      rcases h with hc | hobj
      · obtain ⟨path, hpath, hwhole⟩ := readContext_converts hc hnull
        rw [hpath]
        refine ⟨fun hfalse => ?_, fun path' hpath' => ?_⟩
        · rw [hc] at hfalse
          cases hfalse
        · cases hpath'
          exact hwhole
      · rw [readContext_notObject hnull hobj]
        refine ⟨fun _ => rfl, fun path hpath => ?_⟩
        cases hpath

theorem contextToBase64_eq [Platform] (toBase64 : List AsCdtCtxItem → Bytes) : contextToBase64 toInt toBase64 v =
    match readContext toInt v with
    | .ok (some path) => .returned (toBase64 (path.map CtxItem.toNative))
    | .ok none => .thrown .error
    | .error .paramErr => .thrown .error
    | .error .abort => .aborted := rfl

theorem contextToBase64_reports [Platform] {toBase64 : List AsCdtCtxItem → Bytes} :
    WriterReports toInt toBase64 v (contextToBase64 toInt toBase64 v) ↔ Reported toInt v := by
  rw [contextToBase64_eq]
  constructor
  · intro h
    cases hc : ContextConverts toInt v with
    | true => exact .inl hc
    | false =>
      refine .inr (Bool.eq_false_iff.2 fun hobj => ?_)
      obtain ⟨e, he⟩ := h.rejects hc
      rcases readContext_object hobj with ⟨path, hpath⟩ | habort
      · rw [hpath] at he
        cases he
      · rw [habort] at he
        cases he
  · intro h
    cases hnull : v.isNullish with
    | true =>
      rw [readContext_nullish hnull]
      refine ⟨fun _ => ⟨.error, rfl⟩, fun out hout => ?_⟩
      cases hout
    | false =>
      rcases h with hc | hobj
      · obtain ⟨path, hpath, hwhole⟩ := readContext_converts hc hnull
        rw [hpath]
        refine ⟨fun hfalse => ?_, fun out hout => ?_⟩
        · rw [hc] at hfalse
          cases hfalse
        · cases hout
          exact ⟨path, hwhole, rfl⟩
      · rw [readContext_notObject hnull hobj]
        refine ⟨fun _ => ⟨.error, rfl⟩, fun out hout => ?_⟩
        cases hout

end

/-! ### Reading base64 -/

section
variable (le : AsVal → AsVal → Bool) {fromBase64 : Bytes → Option (List CtxItem)} {v : JsValue}

theorem itemToJs_initialised {c : CtxItem} (h : c.Initialised = true) :
    ∃ js, itemToJs le c.toNative = some js := by
  have hpval : ∀ {type : UInt32} {a : Option AsVal}, 0x1 < type &&& 0xF → a.isSome = true →
      ∃ js, itemToJs le ⟨type, .pval a⟩ = some js := by
    intro type a htype ha
    obtain ⟨a, rfl⟩ := Option.isSome_iff_exists.1 ha
    exact ⟨_, if_pos htype⟩
  have hival : ∀ {type : UInt32} {i : Int64}, ¬0x1 < type &&& 0xF → ∃ js, itemToJs le ⟨type, .ival i⟩ = some js := by
    intro type i htype
    exact ⟨_, if_neg htype⟩
  cases c with
  | listIndex i | listRank i | mapIndex i | mapRank i => exact hival (by decide)
  | listValue a | mapKey a | mapValue a => exact hpval (by decide) h
  | listIndexCreate i order pad =>
    refine hival ?_
    unfold listOrderToFlag
    split_ifs <;> decide
  | mapKeyCreate a order =>
    refine hpval ?_ h
    unfold mapOrderToFlag
    split_ifs <;> decide

theorem getV8CdtContext_initialised : ∀ {path : List CtxItem}, (∀ c ∈ path, c.Initialised = true) →
    ∃ v8Items, getV8CdtContext le (path.map CtxItem.toNative) = some v8Items ∧ v8Items.length = path.length
  | [], _ => ⟨[], rfl, rfl⟩
  | c :: path, h => by
    obtain ⟨v8Items, hitems, hlen⟩ :=
      getV8CdtContext_initialised fun d hd => h d (List.mem_cons_of_mem _ hd)
    obtain ⟨js, hjs⟩ := itemToJs_initialised le (h c List.mem_cons_self)
    refine ⟨js :: v8Items, ?_, congrArg (· + 1) hlen⟩
    rw [List.map_cons, getV8CdtContext, hjs, hitems]
    rfl

theorem contextFromBase64_str (s : JsString) : contextFromBase64 le fromBase64 (.str s) =
    match fromBase64 (nativeStr s) with
    | none => .undefined
    | some path =>
      match getV8CdtContext le (path.map CtxItem.toNative) with
      | some v8Items => .returned v8Items
      | none => .undefined := rfl

theorem contextFromBase64_notString (h : ∀ s, v ≠ .str s) : contextFromBase64 le fromBase64 v = .thrown .error := by
  cases v with
  | str s => exact absurd rfl (h s)
  | _ => rfl

theorem contextFromBase64_reports (hdec : ∀ s path, fromBase64 s = some path → ∀ c ∈ path, c.Initialised = true) :
    DecoderReports fromBase64 v (contextFromBase64 le fromBase64 v) ↔ ∀ s, v = .str s → Decodes fromBase64 v := by
  constructor
  · rintro h s rfl
    by_contra hno
    obtain ⟨e, he⟩ := h.rejects hno
    rw [contextFromBase64_str le] at he
    split at he
    · cases he
    · split at he
      · cases he
      · cases he
  · intro h
    by_cases hstr : ∃ s, v = .str s
    · obtain ⟨s, rfl⟩ := hstr
      have hd := h s rfl
      obtain ⟨h0, hsome⟩ := hd
      obtain ⟨path, hpath⟩ := Option.isSome_iff_exists.1 hsome
      have hself : nativeStr s = s.utf8 := JsString.cstr_eq_self.2 h0
      obtain ⟨v8Items, hitems, hlen⟩ := getV8CdtContext_initialised le (hdec _ _ hpath)
      have hreturned : contextFromBase64 le fromBase64 (.str s) = .returned v8Items := by
        rw [contextFromBase64_str le, hself, hpath]
        dsimp only
        rw [hitems]
      rw [hreturned]
      refine ⟨fun hno => absurd ⟨h0, hsome⟩ hno, fun hu => ?_, fun v8Items' h' => ?_⟩
      · cases hu
      · cases h'
        exact ⟨s, path, rfl, hpath, hlen⟩
    · have hthrown : contextFromBase64 le fromBase64 v = .thrown .error :=
        contextFromBase64_notString le fun s hs => hstr ⟨s, hs⟩
      rw [hthrown]
      refine ⟨fun _ => ⟨.error, rfl⟩, fun hu => ?_, fun v8Items h' => ?_⟩
      · cases hu
      · cases h'

end

/-! ### Contexts and base64 -/

/-- The readers and `contextToBase64` report what they have to exactly of what is no object and of the contexts
all items of which convert; `contextFromBase64` exactly of what is no string and of the strings that decode. -/
theorem context_reports_iff [Platform] (toInt : JsValue → Option Int32) (le : AsVal → AsVal → Bool)
    (toBase64 : List AsCdtCtxItem → Bytes) (fromBase64 : Bytes → Option (List CtxItem))
    (hdec : ∀ s path, fromBase64 s = some path → ∀ c ∈ path, c.Initialised = true) (v : JsValue) :
    (ReaderReports toInt v (optionalCdtContext toInt v) ↔ Reported toInt v) ∧
    (ReaderReports toInt v (optionalCdtContextHeap toInt v) ↔ Reported toInt v) ∧
    (WriterReports toInt toBase64 v (contextToBase64 toInt toBase64 v) ↔ Reported toInt v) ∧
    (DecoderReports fromBase64 v (contextFromBase64 le fromBase64 v) ↔
      ∀ s, v = .str s → Decodes fromBase64 v) :=
  ⟨readContext_reports, readContext_reports, contextToBase64_reports, contextFromBase64_reports le hdec⟩

/-- The integer of a number, and of what converts to none. -/
def numberToInt [Platform] (v : JsValue) : Option Int32 := (CtxItem.toInt v).toOption

/-- The context of the list index 5, and its base64 text `khAF`. -/
def listIndexFive : JsValue := CdtContext.toJs ⟨[(CdtContext.LIST_INDEX, .int 5)]⟩

def listIndexFiveBase64 : Bytes := [107, 104, 65, 70]

def decodeFive (s : Bytes) : Option (List CtxItem) := if s = listIndexFiveBase64 then some [.listIndex 5] else none

theorem decodeFive_initialised : ∀ s path, decodeFive s = some path → ∀ c ∈ path, c.Initialised = true := by
  intro s path h c hc
  unfold decodeFive at h
  split_ifs at h
  cases h
  rw [List.mem_singleton] at hc
  rw [hc]
  rfl

open Platform

/-- The list index 5 is read and written as a whole. -/
theorem listIndexFive_reported :
    ReaderReports numberToInt listIndexFive (optionalCdtContext numberToInt listIndexFive) ∧
    ReaderReports numberToInt listIndexFive (optionalCdtContextHeap numberToInt listIndexFive) ∧
    WriterReports numberToInt (fun _ => listIndexFiveBase64) listIndexFive
      (contextToBase64 numberToInt (fun _ => listIndexFiveBase64) listIndexFive) := by
  have hall := context_reports_iff numberToInt (fun _ _ => true) (fun _ => listIndexFiveBase64) decodeFive
    decodeFive_initialised listIndexFive
  have hreported : Reported numberToInt listIndexFive := .inl (by decide)
  exact ⟨hall.1.2 hreported, hall.2.1.2 hreported, hall.2.2.1.2 hreported⟩

/-- An item of the type 0x55, which is none, is left out of the path. -/
theorem unknown_type_left_out : ¬ ∀ v : JsValue, ReaderReports numberToInt v (optionalCdtContext numberToInt v) := by
  intro h
  have hreports := h (CdtContext.toJs ⟨[(0x55, .int 1)]⟩)
  have hread : optionalCdtContext numberToInt (CdtContext.toJs ⟨[(0x55, .int 1)]⟩) = .ok (some []) := by decide
  have hrejected := hreports.rejects (by decide)
  rw [hread] at hrejected
  cases hrejected

end AerospikeNode
