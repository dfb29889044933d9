import AerospikeNode.Ops.Args
import AerospikeNode.Rec.Key

/-!
# What an operation stands for

`OpSpec` is an operation in the terms of its caller, put together from the parts of `Ops.Args` and a
context. `OpSpec.denotes_read` says that the native operation read of it is the caller's operation
exactly where all its parts are `Exact`.
-/

namespace AerospikeNode

open JsValue

/-! ### Contexts -/

namespace CtxItem
open CdtContext

/-- The number that `ToNumber` makes of the value is the integer `i`. -/
def IsNumber [Platform] (v : JsValue) (i : ℤ) : Prop := ∃ n, v.toDouble = .ok n ∧ n.Is i

/-- The native value is there, and it is the one that the value stands for. -/
def IsValue (v : JsValue) (a : Option AsVal) : Prop := ∃ a', a = some a' ∧ v.Denotes a'

/-- The step is the one that `CdtContext` writes as an item of this type and value. -/
def Is [Platform] (type : Int32) (v : JsValue) : CtxItem → Prop
  | listIndex i => type = LIST_INDEX ∧ IsNumber v i.toInt
  | listRank i => type = LIST_RANK ∧ IsNumber v i.toInt
  | listValue a => type = LIST_VALUE ∧ IsValue v a
  | mapIndex i => type = MAP_INDEX ∧ IsNumber v i.toInt
  | mapRank i => type = MAP_RANK ∧ IsNumber v i.toInt
  | mapKey a => type = MAP_KEY ∧ IsValue v a
  | mapValue a => type = MAP_VALUE ∧ IsValue v a
  | listIndexCreate i order pad => IsNumber v i.toInt ∧
      (type, order, pad) ∈ [(LIST_INDEX ||| 0x40, (0 : Int32), false), (LIST_INDEX ||| 0x80, 0, true),
        (LIST_INDEX ||| 0xc0, 1, false)]
  | mapKeyCreate a order => IsValue v a ∧
      (type, order) ∈ [(MAP_KEY ||| 0x40, (0 : Int32)), (MAP_KEY ||| 0x80, 1), (MAP_KEY ||| 0xc0, 3)]

/-- The types of items whose value is an index or a rank. -/
def indexTypes : List Int32 :=
  [LIST_INDEX, LIST_RANK, MAP_INDEX, MAP_RANK, LIST_INDEX ||| 0x40, LIST_INDEX ||| 0x80, LIST_INDEX ||| 0xc0]

/-- The types of items whose value is an element or a key. -/
def valueTypes : List Int32 :=
  [LIST_VALUE, MAP_KEY, MAP_VALUE, MAP_KEY ||| 0x40, MAP_KEY ||| 0x80, MAP_KEY ||| 0xc0]

/-- An item whose type is known and whose value is one for it. -/
def Exact [Platform] (type : Int32) (v : JsValue) : Prop :=
  (type ∈ indexTypes ∧ ∃ i : Int32, IsNumber v i.toInt) ∨
    (type ∈ valueTypes ∧ v.Whole ∧ ∃ a, v.asvalFromJsvalue = .ok a)

theorem toInt_is [Platform] {v : JsValue} {i : Int32} (h : toInt v = .ok i) :
    IsNumber v i.toInt ↔ ∃ i : Int32, IsNumber v i.toInt := by
  obtain ⟨d, hd, rfl⟩ := Except.map_eq_ok.1 h
  constructor
  · exact fun h => ⟨_, h⟩
  · rintro ⟨i, n, hn, hi⟩
    cases hd.symm.trans hn
    exact ⟨d, hd, JsNumber.is_toInt32.mpr ⟨i, hi⟩⟩

theorem toVal_is [Platform] {v : JsValue} {a : Option AsVal} (h : toVal v = .ok a) :
    IsValue v a ↔ v.Whole ∧ ∃ a, v.asvalFromJsvalue = .ok a := by
  rw [toVal] at h
  cases hv : v.asvalFromJsvalue with
  | ok b =>
    rw [hv] at h
    cases h
    rw [← denotes_asval v hv]
    constructor
    · rintro ⟨b', hb, hden⟩
      cases hb
      exact ⟨hden, b, rfl⟩
    · rintro ⟨hden, -⟩
      exact ⟨b, rfl, hden⟩
  | error e =>
    rw [hv] at h
    cases e with
    | abort => cases h
    | paramErr =>
      cases h
      constructor
      · rintro ⟨a', ha, -⟩
        cases ha
      · rintro ⟨-, b, hb⟩
        cases hb

theorem ofIndex_is [Platform] {type : Int32} {v : JsValue} {c : Option CtxItem} {f : Int32 → CtxItem}
    (ht : type ∈ indexTypes ∧ type ∉ valueTypes) (hf : ∀ i, (f i).Is type v ↔ IsNumber v i.toInt)
    (h : ((toInt v).map fun i => some (f i)) = .ok c) :
    (∃ c', c = some c' ∧ c'.Is type v) ↔ Exact type v := by
  obtain ⟨i, hi, rfl⟩ := Except.map_eq_ok.1 h
  constructor
  · rintro ⟨c', hc, his⟩
    cases hc
    exact .inl ⟨ht.1, i, (hf i).1 his⟩
  · rintro (⟨-, hint⟩ | ⟨hmem, -⟩)
    · exact ⟨f i, rfl, (hf i).2 ((toInt_is hi).2 hint)⟩
    · exact absurd hmem ht.2

theorem ofValue_is [Platform] {type : Int32} {v : JsValue} {c : Option CtxItem} {f : Option AsVal → CtxItem}
    (ht : type ∈ valueTypes ∧ type ∉ indexTypes) (hf : ∀ a, (f a).Is type v ↔ IsValue v a)
    (h : ((toVal v).map fun a => some (f a)) = .ok c) :
    (∃ c', c = some c' ∧ c'.Is type v) ↔ Exact type v := by
  obtain ⟨a, ha, rfl⟩ := Except.map_eq_ok.1 h
  constructor
  · rintro ⟨c', hc, his⟩
    cases hc
    exact .inr ⟨ht.1, (toVal_is ha).1 ((hf a).1 his)⟩
  · rintro (⟨hmem, -⟩ | ⟨-, hval⟩)
    · exact absurd hmem ht.2
    · exact ⟨f a, rfl, (hf a).2 ((toVal_is ha).2 hval)⟩

/-- An item becomes the step it stands for exactly when it is exact. -/
theorem ofItem_is [Platform] {type : Int32} {v : JsValue} {c : Option CtxItem} (h : ofItem (type, v) = .ok c) :
    (∃ c', c = some c' ∧ c'.Is type v) ↔ Exact type v := by
  simp only [ofItem] at h
  by_cases h1 : type = LIST_INDEX
  · rw [if_pos h1] at h
    subst h1
    exact ofIndex_is (f := listIndex) (by decide) (fun _ => ⟨And.right, fun h => ⟨rfl, h⟩⟩) h
  rw [if_neg h1] at h
  by_cases h2 : type = LIST_RANK
  · rw [if_pos h2] at h
    subst h2
    exact ofIndex_is (f := listRank) (by decide) (fun _ => ⟨And.right, fun h => ⟨rfl, h⟩⟩) h
  rw [if_neg h2] at h
  by_cases h3 : type = LIST_VALUE
  · rw [if_pos h3] at h
    subst h3
    exact ofValue_is (f := listValue) (by decide) (fun _ => ⟨And.right, fun h => ⟨rfl, h⟩⟩) h
  rw [if_neg h3] at h
  by_cases h4 : type = MAP_INDEX
  · rw [if_pos h4] at h
    subst h4
    exact ofIndex_is (f := mapIndex) (by decide) (fun _ => ⟨And.right, fun h => ⟨rfl, h⟩⟩) h
  rw [if_neg h4] at h
  by_cases h5 : type = MAP_RANK
  · rw [if_pos h5] at h
    subst h5
    exact ofIndex_is (f := mapRank) (by decide) (fun _ => ⟨And.right, fun h => ⟨rfl, h⟩⟩) h
  rw [if_neg h5] at h
  by_cases h6 : type = MAP_KEY
  · rw [if_pos h6] at h
    subst h6
    exact ofValue_is (f := mapKey) (by decide) (fun _ => ⟨And.right, fun h => ⟨rfl, h⟩⟩) h
  rw [if_neg h6] at h
  by_cases h7 : type = MAP_VALUE
  · rw [if_pos h7] at h
    subst h7
    exact ofValue_is (f := mapValue) (by decide) (fun _ => ⟨And.right, fun h => ⟨rfl, h⟩⟩) h
  rw [if_neg h7] at h
  by_cases h8 : type = LIST_INDEX ||| 0x40
  · rw [if_pos h8] at h
    subst h8
    exact ofIndex_is (f := fun i => listIndexCreate i 0 false) (by decide)
      (fun _ => ⟨And.left, fun h => ⟨h, by decide⟩⟩) h
  rw [if_neg h8] at h
  by_cases h9 : type = MAP_KEY ||| 0x40
  · rw [if_pos h9] at h
    subst h9
    exact ofValue_is (f := fun a => mapKeyCreate a 0) (by decide) (fun _ => ⟨And.left, fun h => ⟨h, by decide⟩⟩) h
  rw [if_neg h9] at h
  by_cases h10 : type = LIST_INDEX ||| 0x80
  · rw [if_pos h10] at h
    subst h10
    exact ofIndex_is (f := fun i => listIndexCreate i 0 true) (by decide)
      (fun _ => ⟨And.left, fun h => ⟨h, by decide⟩⟩) h
  rw [if_neg h10] at h
  by_cases h11 : type = MAP_KEY ||| 0x80
  · rw [if_pos h11] at h
    subst h11
    exact ofValue_is (f := fun a => mapKeyCreate a 1) (by decide) (fun _ => ⟨And.left, fun h => ⟨h, by decide⟩⟩) h
  rw [if_neg h11] at h
  by_cases h12 : type = LIST_INDEX ||| 0xc0
  · rw [if_pos h12] at h
    subst h12
    exact ofIndex_is (f := fun i => listIndexCreate i 1 false) (by decide)
      (fun _ => ⟨And.left, fun h => ⟨h, by decide⟩⟩) h
  rw [if_neg h12] at h
  by_cases h13 : type = MAP_KEY ||| 0xc0
  · rw [if_pos h13] at h
    subst h13
    exact ofValue_is (f := fun a => mapKeyCreate a 3) (by decide) (fun _ => ⟨And.left, fun h => ⟨h, by decide⟩⟩) h
  rw [if_neg h13] at h
  -- no step is added for an unknown type
  cases h
  constructor
  · rintro ⟨c', hc, -⟩
    cases hc
  · rintro (⟨hmem, -⟩ | ⟨hmem, -⟩)
    · simp only [indexTypes, List.mem_cons, List.not_mem_nil, or_false] at hmem
      tauto
    · simp only [valueTypes, List.mem_cons, List.not_mem_nil, or_false] at hmem
      tauto

/-- The step is the one an element of a context's items stands for. -/
def Denotes [Platform] (c : CtxItem) (x : JsValue) : Prop :=
  ∃ xs, x = .array xs ∧ ∃ type : Int32, IsNumber (xs.getD 0 .undefined) type.toInt ∧
    c.Is type (xs.getD 1 .undefined)

def ExactItem [Platform] (x : JsValue) : Prop :=
  ∃ xs, x = .array xs ∧ ∃ type : Int32, IsNumber (xs.getD 0 .undefined) type.toInt ∧
    Exact type (xs.getD 1 .undefined)

theorem denotes_item [Platform] {x : JsValue} {it : Int32 × JsValue} {c : Option CtxItem} (hit : itemOfJs x = .ok it)
    (h : ofItem it = .ok c) : (∃ c', c = some c' ∧ c'.Denotes x) ↔ ExactItem x := by
  cases x with
  | array xs =>
    obtain ⟨type, htype, rfl⟩ := Except.map_eq_ok.1 hit
    have hsame : ∀ t : Int32, IsNumber (xs.getD 0 .undefined) t.toInt → type = t := by
      rintro t ⟨n, hn, ht⟩
      obtain ⟨d, hd, rfl⟩ := Except.map_eq_ok.1 htype
      cases hd.symm.trans hn
      rw [JsNumber.toInt32, ht.toInteger_eq, Int32.ofInt_toInt]
    constructor
    · rintro ⟨c', hc, xs', hx, t, ht, his⟩
      cases hx
      obtain rfl := hsame t ht
      exact ⟨xs, rfl, type, ht, (ofItem_is h).1 ⟨c', hc, his⟩⟩
    · rintro ⟨xs', hx, t, ht, hexact⟩
      cases hx
      obtain rfl := hsame t ht
      obtain ⟨c', hc, his⟩ := (ofItem_is h).2 hexact
      exact ⟨c', hc, xs, rfl, type, ht, his⟩
  | _ => cases hit

/-- The items become the steps they stand for exactly when all are exact; one that is not known is
left out. -/
theorem denotes_items [Platform] {xs : List JsValue} {cs : List CtxItem} (h : contextItemsOfJs xs = .ok cs) :
    cs.length ≤ xs.length ∧ (List.Forall₂ Denotes cs xs ↔ ∀ x ∈ xs, ExactItem x) := by
  induction xs generalizing cs with
  | nil =>
    cases h
    exact ⟨Nat.le_refl 0, fun _ x hx => absurd hx List.not_mem_nil, fun _ => .nil⟩
  | cons x xs ih =>
    rw [contextItemsOfJs] at h
    obtain ⟨it, hit, h⟩ := Except.bind_eq_ok.1 h
    obtain ⟨c, hc, h⟩ := Except.bind_eq_ok.1 h
    obtain ⟨cs', hcs, h⟩ := Except.bind_eq_ok.1 h
    cases h
    obtain ⟨hlen, hall⟩ := ih hcs
    have hitem := denotes_item hit hc
    rw [List.forall_mem_cons]
    cases c with
    | none =>
      refine ⟨hlen.trans (Nat.le_succ _), fun hden => ?_, fun hexact => ?_⟩
      · have hlen' : cs'.length = xs.length + 1 := hden.length_eq
        omega
      · obtain ⟨c', hc', -⟩ := hitem.2 hexact.1
        cases hc'
    | some c =>
      refine ⟨Nat.succ_le_succ hlen, fun hden => ?_, fun hexact => ?_⟩
      · rcases hden with _ | ⟨hd, hden⟩
        exact ⟨hitem.1 ⟨c, rfl, hd⟩, hall.1 hden⟩
      · obtain ⟨c', hc', hd⟩ := hitem.2 hexact.1
        cases hc'
        exact .cons hd (hall.2 hexact.2)

end CtxItem

/-- The path of a context value; a value that is no context has none. -/
def DenotesContext [Platform] (c : Option (List CtxItem)) (v : JsValue) : Prop :=
  (v.isNullish = true ∧ c = none) ∨
    (v.isObject = true ∧ ∃ xs cs, v.field "items" = .array xs ∧ c = some cs ∧ List.Forall₂ CtxItem.Denotes cs xs)

def ExactContext [Platform] (v : JsValue) : Prop :=
  v.isNullish = true ∨
    (v.isObject = true ∧ ∃ xs, v.field "items" = .array xs ∧ ∀ x ∈ xs, CtxItem.ExactItem x)

theorem denotesContext_read [Platform] {v : JsValue} {c : Option (List CtxItem)} (h : contextOfJs v = .ok c) :
    DenotesContext c v ↔ ExactContext v := by
  rw [contextOfJs] at h
  split_ifs at h with hn ho
  · cases h
    exact ⟨fun _ => .inl hn, fun _ => .inl ⟨hn, rfl⟩⟩
  have hobj : v.isObject = true := by
    rw [Bool.not_eq_true', Bool.not_eq_false] at ho
    exact ho
  cases hitems : v.field "items" with
  | array xs =>
    rw [hitems] at h
    obtain ⟨cs, hcs, rfl⟩ := Except.map_eq_ok.1 h
    have hall := (CtxItem.denotes_items hcs).2
    constructor
    · rintro (⟨h, -⟩ | ⟨-, xs', cs', hxs, hc, hden⟩)
      · exact absurd h hn
      · rw [hitems] at hxs
        cases hxs
        cases hc
        exact .inr ⟨hobj, xs, hitems, hall.1 hden⟩
    · rintro (h | ⟨-, xs', hxs, hexact⟩)
      · exact absurd h hn
      · rw [hitems] at hxs
        cases hxs
        exact .inr ⟨hobj, xs, cs, hitems, rfl, hall.2 hexact⟩
  | _ =>
    rw [hitems] at h
    cases h

/-! ### Calls -/

namespace ArgSpec

def readAll [Platform] : List ArgSpec → Res (List OpArg)
  | [] => .ok []
  | s :: ss => do
    let a ← s.read
    let as ← readAll ss
    return a :: as

theorem denotes_readAll [Platform] {ss : List ArgSpec} {as : List OpArg} (h : readAll ss = .ok as) :
    List.Forall₂ Denotes as ss ↔ ∀ s ∈ ss, s.Exact := by
  induction ss generalizing as with
  | nil =>
    cases h
    exact ⟨fun _ s hs => absurd hs List.not_mem_nil, fun _ => .nil⟩
  | cons s ss ih =>
    rw [readAll] at h
    obtain ⟨a, ha, h⟩ := Except.bind_eq_ok.1 h
    obtain ⟨as', has, h⟩ := Except.bind_eq_ok.1 h
    cases h
    rw [List.forall₂_cons, denotes_read ha, ih has, List.forall_mem_cons]

end ArgSpec

/-- The value that a scalar operation carries, and what it does with it. -/
def OpCall.scalarValue (c : OpCall) : Option (ScalarOp × AsVal) :=
  match c.fn, c.args with
  | .addWriteDouble, [.double d] => some (.write, .double d)
  | .addWriteInt64, [.int64 i] => some (.write, .integer i)
  | .addWrite, [.val (some a)] => some (.write, a)
  | .addWriteStrp, [.str s] => some (.write, .string s)
  | .addWriteRawp, [.bytes bs] => some (.write, .bytes bs)
  | .addWriteGeojsonStrp, [.str s] => some (.write, .geojson s)
  | .addIncrDouble, [.double d] => some (.incr, .double d)
  | .addIncr, [.int64 i] => some (.incr, .integer i)
  | .addPrependStrp, [.str s] => some (.prepend, .string s)
  | .addPrependRawp, [.bytes bs] => some (.prepend, .bytes bs)
  | .addAppendStrp, [.str s] => some (.append, .string s)
  | .addAppendRawp, [.bytes bs] => some (.append, .bytes bs)
  | _, _ => none

/-- What an operation asks of the C client: a function with a policy and arguments; or a scalar
operation on a value, or a touch, which have their function and arguments by the value's type. -/
inductive CallSpec where
  | call (fn : OpFn) (policy : PolicySpec) (args : List ArgSpec)
  | value (name : ScalarOp) (v : JsValue)
  | touch (ttl : JsValue)

namespace CallSpec

def readValue [Platform] (name : ScalarOp) (v : JsValue) : Res OpCall :=
  match name with
  | .write => writeCall v
  | .incr => incrCall v
  | .prepend => stringCall .addPrependStrp .addPrependRawp v
  | .append => stringCall .addAppendStrp .addAppendRawp v
  | _ => .error .paramErr

section
variable (D : PolicyDefaults)

def read [Platform] : CallSpec → Option OpCall
  | call fn policy args =>
    match policy.read D, ArgSpec.readAll args with
    | .ok p, .ok as => some ⟨fn, p, as⟩
    | _, _ => none
  | value name v => (readValue name v).toOption
  | touch ttl => some (touchCall ttl)

/-- The TTL is the number, or one of the special values -1, -2 and -3. -/
def TtlIs (ttl : JsValue) (u : UInt32) : Prop :=
  ttl.IsInt u.toNat ∨ (2 ^ 32 - 3 ≤ u.toNat ∧ ttl.IsInt ((u.toNat : ℤ) - 2 ^ 32))

def Denotes [Platform] (c : OpCall) : CallSpec → Prop
  | call fn policy args => c.fn = fn ∧ policy.Denotes D c.policy ∧ List.Forall₂ ArgSpec.Denotes c.args args
  | value name v => ∃ a, c.scalarValue = some (name, a) ∧ v.Denotes a
  | touch ttl => (ttl.isNullish = true ∧ c = { fn := .addTouch }) ∨
      ∃ u, c = { fn := .addTouch, args := [.uint32 u] } ∧ TtlIs ttl u

end

def Exact [Platform] : CallSpec → Prop
  | call _ policy args => policy.Exact ∧ ∀ s ∈ args, s.Exact
  | value _ v => v.Whole
  | touch ttl => ttl.isNullish = true ∨ ∃ u, TtlIs ttl u

theorem writeCall_value [Platform] {v : JsValue} {c : OpCall} (h : writeCall v = .ok c) :
    ∃ a, c.scalarValue = some (.write, a) ∧ v.asvalFromJsvalue = .ok a := by
  cases v with
  | num n =>
    rw [writeCall] at h
    rw [asvalFromJsvalue]
    cases hd : (JsValue.num n).isDoubleValue with
    | true =>
      rw [hd] at h
      cases h
      exact ⟨_, rfl, rfl⟩
    | false =>
      rw [hd] at h
      cases h
      exact ⟨_, rfl, rfl⟩
  | obj cls ps =>
    rw [writeCall] at h
    rw [asvalFromJsvalue]
    split_ifs at h ⊢
    · obtain ⟨d, hd, rfl⟩ := Except.map_eq_ok.1 h
      exact ⟨_, rfl, Except.map_eq_ok.2 ⟨d, hd, rfl⟩⟩
    · cases h
      exact ⟨_, rfl, rfl⟩
    · obtain ⟨a, ha, rfl⟩ := Except.map_eq_ok.1 h
      rename_i hd hg
      rw [asvalFromJsvalue, if_neg hd, if_neg hg] at ha
      exact ⟨a, rfl, ha⟩
  | array xs =>
    obtain ⟨as, has, rfl⟩ := Except.map_eq_ok.1 h
    rw [asvalFromJsvalue]
    exact ⟨_, rfl, Except.map_eq_ok.2 ⟨as, has, rfl⟩⟩
  | map es =>
    obtain ⟨a, ha, rfl⟩ := Except.map_eq_ok.1 h
    exact ⟨a, rfl, ha⟩
  | func =>
    rw [writeCall] at h
    obtain ⟨a, ha, rfl⟩ := Except.map_eq_ok.1 h
    exact ⟨a, rfl, ha⟩
  | null | bool | str | buffer =>
    cases h
    rw [asvalFromJsvalue]
    exact ⟨_, rfl, rfl⟩
  | undefined | bigint | symbol => cases h

theorem incrCall_value [Platform] {v : JsValue} {c : OpCall} (h : incrCall v = .ok c) :
    ∃ a, c.scalarValue = some (.incr, a) ∧ v.asvalFromJsvalue = .ok a := by
  cases v with
  | num n =>
    rw [incrCall] at h
    rw [asvalFromJsvalue]
    cases hd : (JsValue.num n).isDoubleValue with
    | true =>
      rw [hd] at h
      cases h
      exact ⟨_, rfl, rfl⟩
    | false =>
      rw [hd] at h
      cases h
      exact ⟨_, rfl, rfl⟩
  | obj cls ps =>
    rw [incrCall] at h
    · rw [asvalFromJsvalue]
      split_ifs at h ⊢
      obtain ⟨d, hd, rfl⟩ := Except.map_eq_ok.1 h
      exact ⟨_, rfl, Except.map_eq_ok.2 ⟨d, hd, rfl⟩⟩
    · intro n hn
      cases hn
  | _ => cases h

theorem readValue_denotes [Platform] {name : ScalarOp} {v : JsValue} {c : OpCall} (h : readValue name v = .ok c) :
    ∃ a, c.scalarValue = some (name, a) ∧ v.asvalFromJsvalue = .ok a := by
  cases name with
  | write => exact writeCall_value h
  | incr => exact incrCall_value h
  | prepend | append =>
    cases v with
    | str s =>
      cases h
      rw [asvalFromJsvalue]
      exact ⟨_, rfl, rfl⟩
    | buffer bs =>
      cases h
      rw [asvalFromJsvalue]
      exact ⟨_, rfl, rfl⟩
    | _ => cases h
  | read | touch | delete => cases h

theorem ttlIs_toUint32 {n : JsNumber} (h : ∃ u, TtlIs (.num n) u) : TtlIs (.num n) n.toUint32 := by
  obtain ⟨u, hu | ⟨hlarge, hu⟩⟩ := h
  · exact .inl (isInt_num.2 (JsNumber.is_toUint32.2 ⟨u, isInt_num.1 hu⟩))
  · have his := isInt_num.1 hu
    have hu' : n.toUint32 = u := by
      have hmod : ((u.toNat : ℤ) - 2 ^ 32) % 2 ^ 32 = u.toNat := by
        have := u.toNat_lt
        omega
      rw [JsNumber.toUint32, his.toInteger_eq, hmod, Int.toNat_natCast, UInt32.ofNat_toNat]
    rw [hu']
    exact .inr ⟨hlarge, hu⟩

variable {D : PolicyDefaults}

theorem denotes_touch [Platform] {ttl : JsValue} : Denotes D (touchCall ttl) (touch ttl) ↔ (touch ttl).Exact := by
  constructor
  · rintro (⟨hn, -⟩ | ⟨u, -, hu⟩)
    · exact .inl hn
    · exact .inr ⟨u, hu⟩
  · rintro (hn | hu)
    · refine .inl ⟨hn, ?_⟩
      cases ttl with
      | num n => cases hn
      | _ => rfl
    · cases ttl with
      | num n => exact .inr ⟨_, rfl, ttlIs_toUint32 hu⟩
      | _ =>
        obtain ⟨u, ⟨n, hn, -⟩ | ⟨-, n, hn, -⟩⟩ := hu
        · cases hn
        · cases hn

theorem denotes_read [Platform] {s : CallSpec} {c : OpCall} (h : s.read D = some c) : Denotes D c s ↔ s.Exact := by
  cases s with
  | call fn policy args =>
    rw [read] at h
    split at h
    · rename_i p as hp has
      cases h
      rw [Denotes, Exact, PolicySpec.denotes_read hp, ArgSpec.denotes_readAll has]
      exact ⟨And.right, fun h => ⟨rfl, h⟩⟩
    · cases h
  | value name v =>
    rw [read] at h
    cases hr : readValue name v with
    | error e =>
      rw [hr] at h
      cases h
    | ok c' =>
      rw [hr] at h
      cases h
      obtain ⟨a, hscalar, ha⟩ := readValue_denotes hr
      rw [Exact, ← denotes_asval v ha]
      constructor
      · rintro ⟨a', hscalar', hden⟩
        cases hscalar.symm.trans hscalar'
        exact hden
      · exact fun hden => ⟨a, hscalar, hden⟩
  | touch ttl =>
    cases h
    exact denotes_touch

end CallSpec

/-! ### Operations -/

/-- An operation as its caller gave it; `bin` is none for those on a record. -/
structure OpSpec where
  bin : Option JsValue
  ctx : JsValue
  call : CallSpec

/-- A context argument that `contextOfJs` cannot be given. -/
def NoContext (v : JsValue) : Prop := v.isNullish = false ∧ v.isObject = false

namespace OpSpec
variable (D : PolicyDefaults)

def readBin : Option JsValue → Option (Option Bytes)
  | none => some none
  | some v => v.stringProperty.toOption.map some

/-- What the native code makes of an operation whose object has the context `ctx`. -/
def read [Platform] (s : OpSpec) (ctx : JsValue) : Option NativeOp :=
  match readBin s.bin, (contextOfJs ctx).toOption, s.call.read D with
  | some bin, some ctx, some call => some ⟨bin, ctx, call⟩
  | _, _, _ => none

def DenotesBin (bin : Option Bytes) : Option JsValue → Prop
  | none => bin = none
  | some v => ∃ s b, v = .str s ∧ bin = some b ∧ Utf8Of b s

/-- The native operation is the caller's operation: on the same bin, with its context, policy and
arguments. -/
structure Denotes [Platform] (s : OpSpec) (op : NativeOp) : Prop where
  bin : DenotesBin op.bin s.bin
  ctx : DenotesContext op.ctx s.ctx
  call : s.call.Denotes D op.call

structure Exact [Platform] (s : OpSpec) : Prop where
  bin : ∀ name, s.bin = some (.str name) → name.Clean
  ctx : ExactContext s.ctx
  call : s.call.Exact

variable {D}

theorem denotesBin_read {v : Option JsValue} {bin : Option Bytes} (h : readBin v = some bin) :
    DenotesBin bin v ↔ ∀ name, v = some (.str name) → name.Clean := by
  cases v with
  | none =>
    cases h
    exact ⟨fun _ _ h => (nomatch h), fun _ => rfl⟩
  | some v =>
    cases v with
    | str name =>
      cases h
      constructor
      · rintro ⟨s, b, hs, hb, hutf⟩ name' hname
        cases hs
        cases hb
        cases hname
        exact utf8Of_nativeStr.1 hutf
      · intro hclean
        exact ⟨name, _, rfl, rfl, utf8Of_nativeStr.2 (hclean name rfl)⟩
    | _ => cases h

/-- What is read of an operation is the caller's operation exactly when all its parts are exact. -/
theorem denotes_read [Platform] {s : OpSpec} {ctx : JsValue} {op : NativeOp} (h : s.read D ctx = some op)
    (hctx : ctx = s.ctx ∨ NoContext s.ctx) : s.Denotes D op ↔ s.Exact := by
  rw [read] at h
  split at h
  · rename_i bin c call hbin hc hcall
    cases h
    have hc' : contextOfJs ctx = .ok c := by
      cases hx : contextOfJs ctx with
      | ok c' =>
        rw [hx] at hc
        cases hc
        rfl
      | error e =>
        rw [hx] at hc
        cases hc
    have hcontext : DenotesContext c s.ctx ↔ ExactContext s.ctx := by
      rcases hctx with rfl | ⟨hn, ho⟩
      · exact denotesContext_read hc'
      · constructor
        · rintro (⟨h, -⟩ | ⟨h, -⟩)
          · exact absurd (hn.symm.trans h) (by decide)
          · exact absurd (ho.symm.trans h) (by decide)
        · rintro (h | ⟨h, -⟩)
          · exact absurd (hn.symm.trans h) (by decide)
          · exact absurd (ho.symm.trans h) (by decide)
    constructor
    · rintro ⟨hb, hx, hd⟩
      exact ⟨(denotesBin_read hbin).1 hb, hcontext.1 hx, (CallSpec.denotes_read hcall).1 hd⟩
    · rintro ⟨hb, hx, hd⟩
      exact ⟨(denotesBin_read hbin).2 hb, hcontext.2 hx, (CallSpec.denotes_read hcall).2 hd⟩
  · cases h

end OpSpec

end AerospikeNode
