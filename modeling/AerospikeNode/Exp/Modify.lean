import AerospikeNode.Exp.CallCount

/-!
# What the list and map modify expressions return

A modify expression that is given a context returns the collection the bin holds, not the nested one it
changes. `_listModify` and `_mapModify` take the type they declare from the last item of the context
(`CdtContext.getContextType`), so it is right where the context begins and ends with the same kind of item:
`declares_iff`. What the server finds for an item of a context is left to it (`Paths`).

The remove builders have a `returnType` parameter, which those of `lib/exp_lists.js` do not look at:
`passesReturnType_iff`.
-/

namespace AerospikeNode

/-- The kinds of a collection. -/
inductive Collection where
  | list
  | map
deriving DecidableEq

/-- The constant of `exp.type`. -/
def Collection.type : Collection → ExpType
  | list => .list
  | map => .map

def AsVal.collection : AsVal → Option Collection
  | .list _ => some .list
  | .map _ => some .map
  | _ => none

namespace CdtContext

/-- The types that the `add` methods give list items. -/
def listItems : List Int32 :=
  [LIST_INDEX, LIST_RANK, LIST_VALUE, LIST_INDEX ||| 0x40, LIST_INDEX ||| 0x80, LIST_INDEX ||| 0xc0]

/-- The types that the `add` methods give map items. -/
def mapItems : List Int32 :=
  [MAP_INDEX, MAP_RANK, MAP_KEY, MAP_VALUE, MAP_KEY ||| 0x40, MAP_KEY ||| 0x80, MAP_KEY ||| 0xc0]

/-- The kind of collection that an item of this type is looked up in. -/
def itemKind (type : Int32) : Option Collection :=
  if type ∈ listItems then some .list else if type ∈ mapItems then some .map else none

theorem listIndex_of_itemKind {type : Int32} {kind : Collection} (h : itemKind type = some kind) :
    type &&& LIST_INDEX = 0 ↔ kind = .map := by
  have hlist : listItems.all (fun t => t &&& LIST_INDEX ≠ 0) = true := by decide
  have hmap : mapItems.all (fun t => t &&& LIST_INDEX = 0) = true := by decide
  rw [List.all_eq_true] at hlist hmap
  unfold itemKind at h
  split_ifs at h with hl hm
  · obtain rfl := Option.some.inj h
    exact iff_of_false (of_decide_eq_true (hlist type hl)) (by decide)
  · obtain rfl := Option.some.inj h
    exact iff_of_true (of_decide_eq_true (hmap type hm)) rfl

end CdtContext

/-- What the server finds in a value for an item of a context: nothing in a value of another kind. -/
structure Paths where
  find : Int32 × JsValue → AsVal → Option AsVal
  kind : ∀ {item v w}, find item v = some w → ∃ k, CdtContext.itemKind item.1 = some k ∧ v.collection = some k

namespace Paths

variable {S : Paths} {items : List (Int32 × JsValue)} {v w : AsVal}

/-- The value at the end of a path. -/
def walk (S : Paths) : List (Int32 × JsValue) → AsVal → Option AsVal
  | [], v => some v
  | item :: items, v => (S.find item v).bind (S.walk items)

theorem itemKind_of_walk (h : S.walk items v = some w) :
    ∀ item ∈ items, (CdtContext.itemKind item.1).isSome = true := by
  induction items generalizing v with
  | nil => exact fun item hitem => absurd hitem List.not_mem_nil
  | cons item items ih =>
    obtain ⟨u, hu, hrest⟩ := Option.bind_eq_some_iff.1 h
    obtain ⟨k, hk, -⟩ := S.kind hu
    rw [List.forall_mem_cons, hk]
    exact ⟨rfl, ih hrest⟩

/-- The kind of the value at the beginning is that of the first item. -/
theorem collection_of_walk {item : Int32 × JsValue} (h : S.walk (item :: items) v = some w) :
    v.collection = CdtContext.itemKind item.1 := by
  obtain ⟨u, hu, -⟩ := Option.bind_eq_some_iff.1 h
  obtain ⟨k, hk, hv⟩ := S.kind hu
  rw [hk, hv]

end Paths

/-! ### Modify builders -/

/-- The context of a modify builder of `lib/exp_lists.js`. -/
def ListCall.modifies : ListCall → Option (Option CdtContext)
  | .append _ _ _ ctx | .appendItems _ _ _ ctx | .insert _ _ _ _ ctx | .insertItems _ _ _ _ ctx
  | .increment _ _ _ _ ctx | .set _ _ _ _ ctx | .clear _ ctx | .sort _ _ ctx
  | .removeByValue _ _ ctx | .removeByValueList _ _ ctx | .removeByValueRange _ _ _ ctx
  | .removeByRelRankRangeToEnd _ _ _ ctx | .removeByRelRankRange _ _ _ _ ctx | .removeByIndex _ _ ctx
  | .removeByIndexRangeToEnd _ _ ctx | .removeByIndexRange _ _ _ ctx | .removeByRank _ _ ctx
  | .removeByRankRangeToEnd _ _ ctx | .removeByRankRange _ _ _ ctx => some ctx
  | _ => none

/-- The context of a modify builder of `lib/exp_maps.js`. -/
def MapCall.modifies : MapCall → Option (Option CdtContext)
  | .put _ _ _ _ ctx | .putItems _ _ _ ctx | .increment _ _ _ _ ctx | .clear _ ctx
  | .removeByKey _ _ ctx _ | .removeByKeyList _ _ ctx _ | .removeByKeyRange _ _ _ ctx _
  | .removeByKeyRelIndexRangeToEnd _ _ _ ctx _ | .removeByKeyRelIndexRange _ _ _ _ ctx _
  | .removeByValue _ _ ctx _ | .removeByValueList _ _ ctx _ | .removeByValueRange _ _ _ ctx _
  | .removeByValueRelRankRangeToEnd _ _ _ ctx _ | .removeByValueRelRankRange _ _ _ _ ctx _
  | .removeByIndex _ _ ctx _ | .removeByIndexRangeToEnd _ _ ctx _ | .removeByIndexRange _ _ _ ctx _
  | .removeByRank _ _ ctx _ | .removeByRankRangeToEnd _ _ ctx _ | .removeByRankRange _ _ _ ctx _ => some ctx
  | _ => none

namespace CallBuilder

/-- The kind of collection that a modify builder changes, and its context. -/
def modifies : CallBuilder → Option (Collection × Option CdtContext)
  | list c => c.modifies.map (.list, ·)
  | map c => c.modifies.map (.map, ·)
  | _ => none

variable {N : NativeEnums} {b : CallBuilder} {kind : Collection} {ctx : Option CdtContext} {v : AsVal}

theorem rtype_of_modifies (h : b.modifies = some (kind, ctx)) :
    (b.call N).rtype = getContextType N ctx kind.type := by
  cases b with
  | list c =>
    obtain ⟨ctx', hctx, heq⟩ := Option.map_eq_some_iff.1 h
    cases heq
    cases c <;> cases hctx <;> rfl
  | map c =>
    obtain ⟨ctx', hctx, heq⟩ := Option.map_eq_some_iff.1 h
    cases heq
    cases c <;> cases hctx <;> rfl
  | bit c => cases h
  | hll c => cases h

/-- The context leads, in a bin that holds this value, to a collection that the builder can change. -/
def Resolves (S : Paths) (kind : Collection) (ctx : Option CdtContext) (v : AsVal) : Prop :=
  ∃ w, S.walk (ctx.elim [] CdtContext.items) v = some w ∧ w.collection = some kind

/-- The builder returns an array, whose return type is the kind of the collection in the bin. -/
def Declares (b : CallBuilder) (v : AsVal) : Prop :=
  ∀ N : NativeEnums, ∃ k es, v.collection = some k ∧ (b.call N).emit N = .ok es ∧
    es[1]? = some (.rtype (expType N k.type))

/-- The context has a first and a last item of one kind, if there is one. -/
def EndsAsItBegins : Option CdtContext → Prop
  | none => True
  | some ctx => ∃ first last, ctx.items.head? = some first ∧ ctx.items.getLast? = some last ∧
      CdtContext.itemKind first.1 = CdtContext.itemKind last.1

/-- Numbers that tell the types apart. -/
def distinctTypes : NativeEnums where
  expType t := if t = .map then 5 else 4
  sys _ := 0
  listReturn _ := 0
  mapReturn _ := 0
  opcode _ := 0

theorem expType_inj {k k' : Collection} (h : expType distinctTypes k.type = expType distinctTypes k'.type) :
    k = k' := by
  have hne : expType distinctTypes .list ≠ expType distinctTypes .map := by decide
  cases k <;> cases k'
  · rfl
  · exact absurd h hne
  · exact absurd h.symm hne
  · rfl

theorem emit_of_rtype {c : Call} {type : JsNumber} (h : c.rtype = .ok type) :
    ∃ es, c.emit N = .ok es ∧ es[1]? = some (.rtype type) := by
  rw [Call.emit, h]
  exact ⟨_, rfl, rfl⟩

theorem declares_iff_rtype : b.Declares v ↔
    ∀ N : NativeEnums, ∃ k, v.collection = some k ∧ (b.call N).rtype = .ok (expType N k.type) := by
  refine forall_congr' fun N => ?_
  constructor
  · rintro ⟨k, es, hk, hes, htype⟩
    obtain ⟨type, hrtype, rfl⟩ := Call.emit_eq hes
    have heq : Entry.rtype type = Entry.rtype (expType N k.type) := Option.some.inj htype
    have htypes : type = expType N k.type := by
      injection heq with _ _ hpayload
      injection hpayload with hnum
      injection hnum
    exact ⟨k, hk, by rw [hrtype, htypes]⟩
  · rintro ⟨k, hk, hrtype⟩
    obtain ⟨es, hes, htype⟩ := emit_of_rtype (N := N) hrtype
    exact ⟨k, es, hk, hes, htype⟩

/-- The type by the last item. -/
theorem getContextType_some {c : CdtContext} {last : Int32 × JsValue} {k : Collection} {type : ExpType}
    (hlast : c.items.getLast? = some last) (hk : CdtContext.itemKind last.1 = some k) :
    getContextType N (some c) type = .ok (expType N k.type) := by
  have hand := CdtContext.listIndex_of_itemKind hk
  simp only [getContextType, hlast]
  cases k with
  | list => rw [if_neg fun h => Collection.noConfusion (hand.1 h)]; rfl
  | map => rw [if_pos (hand.2 rfl)]; rfl

/-- A modify builder returns an array that declares the kind of the collection in the bin if and only if its
context, which leads to a collection the builder can change, begins and ends with the same kind of item. -/
theorem declares_iff {S : Paths} (hb : b.modifies = some (kind, ctx)) (hv : Resolves S kind ctx v) :
    b.Declares v ↔ EndsAsItBegins ctx := by
  obtain ⟨w, hwalk, hw⟩ := hv
  have htype : ∀ N, (b.call N).rtype = getContextType N ctx kind.type := fun N => rtype_of_modifies hb
  rw [declares_iff_rtype]
  simp only [htype]
  cases ctx with
  | none =>
    refine iff_of_true (fun N => ⟨kind, ?_, rfl⟩) trivial
    rwa [Option.some.inj hwalk]
  | some c =>
    rcases List.eq_nil_or_concat c.items with hnil | ⟨init, last, hconcat⟩
    · refine iff_of_false (fun h => ?_) ?_
      · obtain ⟨k, -, hk⟩ := h distinctTypes
        simp only [getContextType, hnil, List.getLast?_nil] at hk
        cases hk
      · rintro ⟨first, last, hfirst, -⟩
        rw [hnil] at hfirst
        cases hfirst
    · have hitems : c.items ≠ [] := by
        rw [hconcat, List.concat_eq_append]
        exact List.concat_ne_nil last init
      obtain ⟨first, rest, hfirst⟩ := List.exists_cons_of_ne_nil hitems
      have hhead : c.items.head? = some first := by rw [hfirst]; rfl
      have hlast : c.items.getLast? = some last := by rw [hconcat, List.concat_eq_append, List.getLast?_concat]
      have hmem : last ∈ c.items := List.mem_of_getLast? hlast
      obtain ⟨k, hk⟩ := Option.isSome_iff_exists.1 (Paths.itemKind_of_walk hwalk last hmem)
      have hvfirst : v.collection = CdtContext.itemKind first.1 := by
        have hfrom : S.walk (first :: rest) v = some w := by
          rw [← hfirst]
          exact hwalk
        exact Paths.collection_of_walk hfrom
      have hrtype : ∀ N, getContextType N (some c) kind.type = .ok (expType N k.type) := fun N =>
        getContextType_some hlast hk
      simp only [hrtype]
      constructor
      · intro h
        obtain ⟨k', hk', heq⟩ := h distinctTypes
        obtain rfl := expType_inj (Except.ok.inj heq)
        exact ⟨first, last, hhead, hlast, by rw [← hvfirst, hk', hk]⟩
      · rintro ⟨first', last', hfirst', hlast', heq⟩ N
        obtain rfl := Option.some.inj (hhead.symm.trans hfirst')
        obtain rfl := Option.some.inj (hlast.symm.trans hlast')
        exact ⟨k, by rw [hvfirst, heq, hk], rfl⟩

/-- A server that looks up the first element of a list and the value of the first key of a map. -/
def firstPaths : Paths where
  find item v := match CdtContext.itemKind item.1, v with
    | some .list, .list (x :: _) => some x
    | some .map, .map ((_, x) :: _) => some x
    | _, _ => none
  kind := by
    intro item v w h
    split at h
    · rename_i hk
      exact ⟨_, hk, rfl⟩
    · rename_i hk
      exact ⟨_, hk, rfl⟩
    · cases h

/-- `new CdtContext().addListIndex(0).addMapKey('k').addListIndex(0)` -/
def nestedContext : CdtContext :=
  ⟨[(CdtContext.LIST_INDEX, .int 0), (CdtContext.MAP_KEY, .str (JsString.lit "k")), (CdtContext.LIST_INDEX, .int 0)]⟩

/-- `new CdtContext().addListIndex(0).addMapKey('k')` -/
def mixedContext : CdtContext :=
  ⟨[(CdtContext.LIST_INDEX, .int 0), (CdtContext.MAP_KEY, .str (JsString.lit "k"))]⟩

/-- A list in a list in a map in a list. -/
def nestedList : AsVal := .list [.map [(.string [107], .list [.list []])]]

/-- List `append` to the innermost list. -/
theorem append_declares :
    (list (.append nilOperand nilOperand none (some nestedContext))).Declares nestedList :=
  (declares_iff rfl (⟨.list [], rfl, rfl⟩ : Resolves firstPaths .list (some nestedContext) nestedList)).2
    ⟨_, _, rfl, rfl, rfl⟩

/-- List `append` within a map in a list: the list in the bin is declared as a map. -/
theorem append_in_map_not_declared :
    ¬ ∀ (S : Paths) (b : CallBuilder) (kind : Collection) (ctx : Option CdtContext) (v : AsVal),
      b.modifies = some (kind, ctx) → Resolves S kind ctx v → b.Declares v := by
  intro h
  have hdeclares := h firstPaths (list (.append nilOperand nilOperand none (some mixedContext))) .list
    (some mixedContext) (.list [.map [(.string [107], .list [])]]) rfl ⟨.list [], rfl, rfl⟩
  obtain ⟨k, hk, hrtype⟩ := declares_iff_rtype.1 hdeclares distinctTypes
  obtain rfl : Collection.list = k := Option.some.inj hk
  have hmap : getContextType distinctTypes (some mixedContext) .list = .ok (expType distinctTypes .map) := rfl
  have hsame : expType distinctTypes Collection.map.type = expType distinctTypes Collection.list.type :=
    Except.ok.inj (hmap.symm.trans hrtype)
  exact absurd (expType_inj hsame) (by decide)

end CallBuilder

/-! ### Remove builders -/

/-- The remove builders of `lib/exp_lists.js`. -/
inductive ListRemove where
  | removeByValue (bin value : Operand)
  | removeByValueList (bin values : Operand)
  | removeByValueRange (bin end_ begin_ : Operand)
  | removeByRelRankRangeToEnd (bin rank value : Operand)
  | removeByRelRankRange (bin count rank value : Operand)
  | removeByIndex (bin idx : Operand)
  | removeByIndexRangeToEnd (bin idx : Operand)
  | removeByIndexRange (bin count idx : Operand)
  | removeByRank (bin rank : Operand)
  | removeByRankRangeToEnd (bin rank : Operand)
  | removeByRankRange (bin count rank : Operand)

/-- The remove builders of `lib/exp_maps.js`. -/
inductive MapRemove where
  | removeByKey (bin key : Operand)
  | removeByKeyList (bin keys : Operand)
  | removeByKeyRange (bin end_ begin_ : Operand)
  | removeByKeyRelIndexRangeToEnd (bin idx key : Operand)
  | removeByKeyRelIndexRange (bin count idx key : Operand)
  | removeByValue (bin value : Operand)
  | removeByValueList (bin values : Operand)
  | removeByValueRange (bin end_ begin_ : Operand)
  | removeByValueRelRankRangeToEnd (bin rank value : Operand)
  | removeByValueRelRankRange (bin count rank value : Operand)
  | removeByIndex (bin idx : Operand)
  | removeByIndexRangeToEnd (bin idx : Operand)
  | removeByIndexRange (bin count idx : Operand)
  | removeByRank (bin rank : Operand)
  | removeByRankRangeToEnd (bin rank : Operand)
  | removeByRankRange (bin count rank : Operand)

/-- The call with a context and a return type; the builders of the list module take the return type and do
not use it. -/
def ListRemove.call (ctx : Option CdtContext) (_returnType : JsNumber) : ListRemove → ListCall
  | removeByValue bin value => .removeByValue bin value ctx
  | removeByValueList bin values => .removeByValueList bin values ctx
  | removeByValueRange bin end_ begin_ => .removeByValueRange bin end_ begin_ ctx
  | removeByRelRankRangeToEnd bin rank value => .removeByRelRankRangeToEnd bin rank value ctx
  | removeByRelRankRange bin count rank value => .removeByRelRankRange bin count rank value ctx
  | removeByIndex bin idx => .removeByIndex bin idx ctx
  | removeByIndexRangeToEnd bin idx => .removeByIndexRangeToEnd bin idx ctx
  | removeByIndexRange bin count idx => .removeByIndexRange bin count idx ctx
  | removeByRank bin rank => .removeByRank bin rank ctx
  | removeByRankRangeToEnd bin rank => .removeByRankRangeToEnd bin rank ctx
  | removeByRankRange bin count rank => .removeByRankRange bin count rank ctx

def MapRemove.call (ctx : Option CdtContext) (returnType : JsNumber) : MapRemove → MapCall
  | removeByKey bin key => .removeByKey bin key ctx returnType
  | removeByKeyList bin keys => .removeByKeyList bin keys ctx returnType
  | removeByKeyRange bin end_ begin_ => .removeByKeyRange bin end_ begin_ ctx returnType
  | removeByKeyRelIndexRangeToEnd bin idx key => .removeByKeyRelIndexRangeToEnd bin idx key ctx returnType
  | removeByKeyRelIndexRange bin count idx key => .removeByKeyRelIndexRange bin count idx key ctx returnType
  | removeByValue bin value => .removeByValue bin value ctx returnType
  | removeByValueList bin values => .removeByValueList bin values ctx returnType
  | removeByValueRange bin end_ begin_ => .removeByValueRange bin end_ begin_ ctx returnType
  | removeByValueRelRankRangeToEnd bin rank value => .removeByValueRelRankRangeToEnd bin rank value ctx returnType
  | removeByValueRelRankRange bin count rank value =>
    .removeByValueRelRankRange bin count rank value ctx returnType
  | removeByIndex bin idx => .removeByIndex bin idx ctx returnType
  | removeByIndexRangeToEnd bin idx => .removeByIndexRangeToEnd bin idx ctx returnType
  | removeByIndexRange bin count idx => .removeByIndexRange bin count idx ctx returnType
  | removeByRank bin rank => .removeByRank bin rank ctx returnType
  | removeByRankRangeToEnd bin rank => .removeByRankRangeToEnd bin rank ctx returnType
  | removeByRankRange bin count rank => .removeByRankRange bin count rank ctx returnType

inductive RemoveBuilder where
  | list (b : ListRemove)
  | map (b : MapRemove)

namespace RemoveBuilder

/-- `returnType.NONE` of the builder's module, the default of its parameter. -/
def NONE (N : NativeEnums) : RemoveBuilder → JsNumber
  | list _ => .ofInt32 (N.listReturn .none)
  | map _ => .ofInt32 (N.mapReturn .none)

/-- The builder's call; without a return type the default is passed. -/
def call (N : NativeEnums) (b : RemoveBuilder) (ctx : Option CdtContext) (returnType : Option JsNumber) : Call :=
  match b with
  | list c => (c.call ctx (returnType.getD (b.NONE N))).call N
  | map c => (c.call ctx (returnType.getD (b.NONE N))).call N

/-- The opcode is followed by the caller's return type in every array the builder returns. -/
def PassesReturnType (N : NativeEnums) (b : RemoveBuilder) (ctx : Option CdtContext)
    (returnType : Option JsNumber) : Prop :=
  ∀ es, (b.call N ctx returnType).emit N = .ok es →
    es[5]? = some (.int (.num (returnType.getD (b.NONE N))))

/-- The builder throws on a context without items. -/
def Throws (ctx : Option CdtContext) : Prop := ∃ c, ctx = some c ∧ c.items = []

variable {N : NativeEnums} {ctx : Option CdtContext} {returnType : Option JsNumber}

/-- An entry of a number determines it. -/
theorem Entry.int_num_inj {m n : JsNumber} (h : Entry.int (.num m) = Entry.int (.num n)) : m = n := by
  injection h with _ _ hpayload
  injection hpayload with hnum
  injection hnum

theorem emit_param {c : Call} {first : JsValue} {params : List Arg} {es : List Entry}
    (h : c.emit N = .ok es) (hparams : c.params = .int first :: params) : es[5]? = some (.int first) := by
  obtain ⟨type, -, rfl⟩ := Call.emit_eq h
  rw [hparams]
  rfl

/-- The first parameter that a builder of the list module writes. -/
theorem list_params (b : ListRemove) (type : JsNumber) : ∃ params,
    ((b.call ctx type).call N).params = .int (.int (N.listReturn .none)) :: params ∧
      ((b.call ctx type).call N).rtype = getContextType N ctx .list := by
  cases b <;> exact ⟨_, rfl, rfl⟩

theorem map_params (b : MapRemove) (type : JsNumber) : ∃ params,
    ((b.call ctx type).call N).params = .int (.num type) :: params := by
  cases b <;> exact ⟨_, rfl⟩

theorem getContextType_isOk (type : ExpType) (h : ¬ Throws ctx) : ∃ t, getContextType N ctx type = .ok t := by
  cases ctx with
  | none => exact ⟨_, rfl⟩
  | some c =>
    cases hlast : c.items.getLast? with
    | none => exact absurd ⟨c, rfl, List.getLast?_eq_none_iff.1 hlast⟩ h
    | some last =>
      rw [getContextType]
      simp only [hlast]
      exact ⟨_, rfl⟩

theorem getContextType_throws (type : ExpType) (h : Throws ctx) : getContextType N ctx type = .error .typeError := by
  obtain ⟨c, rfl, hnil⟩ := h
  rw [getContextType]
  simp only [hnil, List.getLast?_nil]

/-- The map builders pass the return type, and the list builders do if it is `NONE` anyway. -/
theorem passesReturnType_iff (N : NativeEnums) (b : RemoveBuilder) (ctx : Option CdtContext)
    (returnType : Option JsNumber) : b.PassesReturnType N ctx returnType ↔
      (∃ c, b = map c) ∨ returnType.getD (b.NONE N) = b.NONE N ∨ Throws ctx := by
  cases b with
  | map c =>
    refine iff_of_true (fun es hes => ?_) (.inl ⟨c, rfl⟩)
    obtain ⟨params, hparams⟩ := @map_params N ctx c (returnType.getD ((map c).NONE N))
    exact emit_param hes hparams
  | list c =>
    obtain ⟨params, hparams, hrtype⟩ := @list_params N ctx c (returnType.getD ((list c).NONE N))
    constructor
    · intro h
      by_cases hthrows : Throws ctx
      · exact .inr (.inr hthrows)
      · obtain ⟨type, htype⟩ := getContextType_isOk (N := N) .list hthrows
        obtain ⟨es, hes, -⟩ := CallBuilder.emit_of_rtype (N := N) (hrtype.trans htype)
        have heq := (emit_param hes hparams).symm.trans (h es hes)
        have hentry : Entry.int (.int (N.listReturn .none)) =
            Entry.int (.num (returnType.getD ((list c).NONE N))) := Option.some.inj heq
        exact .inr (.inl (Entry.int_num_inj hentry).symm)
    · rintro (⟨c', hc'⟩ | hnone | hthrows) es hes
      · cases hc'
      · rw [hnone]
        exact emit_param hes hparams
      · obtain ⟨type, htype, -⟩ := Call.emit_eq hes
        have herror := hrtype.symm.trans htype
        rw [getContextType_throws .list hthrows] at herror
        cases herror

/-- The C client's `INVERTED`. -/
def inverted : JsNumber := .ofInt32 0x10000

/-- Inverted removal from a list passes `NONE`. -/
theorem inverted_not_passed :
    ¬ (list (.removeByValue nilOperand nilOperand)).PassesReturnType appendEnums none (some inverted) := by
  intro h
  have hentry : Entry.int (.int 0) = Entry.int (.num inverted) := Option.some.inj (h _ rfl)
  exact absurd (Entry.int_num_inj hentry) (by decide)

end RemoveBuilder

end AerospikeNode
