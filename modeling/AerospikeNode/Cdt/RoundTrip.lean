import AerospikeNode.Cdt.Context
import AerospikeNode.Js.Arith
import AerospikeNode.Native.ToJs

/-!
# CDT contexts and back

The `add*` methods of `CdtContext` (`lib/cdt_context.js`), the `as_cdt_ctx` that the C client keeps of
a path, and `get_v8_cdt_context` (`src/main/cdt_ctx.cc`), which makes items of it again. A context is
converted by one `switch` for the stack and by a copy of it for the heap (`roundTrip_context`).
-/

namespace AerospikeNode

/-! ### The methods -/

/-- A call of one of the `add*` methods. -/
inductive CtxAdd where
  | listIndex (index : JsNumber)
  | listIndexCreate (index : JsNumber) (order pad : JsValue)
  | listRank (rank : JsNumber)
  | listValue (value : JsValue)
  | mapIndex (index : JsNumber)
  | mapRank (rank : JsNumber)
  | mapKey (key : JsValue)
  | mapKeyCreate (key order : JsValue)
  | mapValue (value : JsValue)

namespace CdtContext
variable (ctx : CdtContext)

def int32Max : JsNumber := .ofInt32 2147483647

def int32Min : JsNumber := .ofInt32 (-2147483648)

def empty : CdtContext := ⟨[]⟩

def add (type : Int32) (value : JsValue) : CdtContext := ⟨ctx.items ++ [(type, value)]⟩

/-- A method that takes an index or a rank. -/
def addInt (type : Int32) (n : JsNumber) : Except JsError CdtContext :=
  if n.gt int32Max then .error .error
  else if int32Min.gt n then .error .error
  else .ok (ctx.add type (.num n))

def addListIndex (index : JsNumber) : Except JsError CdtContext := ctx.addInt LIST_INDEX index

def addListIndexCreate (index : JsNumber) (order pad : JsValue) : Except JsError CdtContext :=
  if order.truthy then ctx.addInt (LIST_INDEX ||| 0xc0) index
  else if pad.truthy then ctx.addInt (LIST_INDEX ||| 0x80) index
  else ctx.addInt (LIST_INDEX ||| 0x40) index

def addListRank (rank : JsNumber) : Except JsError CdtContext := ctx.addInt LIST_RANK rank

def addListValue (value : JsValue) : CdtContext := ctx.add LIST_VALUE value

def addMapIndex (index : JsNumber) : Except JsError CdtContext := ctx.addInt MAP_INDEX index

def addMapRank (rank : JsNumber) : Except JsError CdtContext := ctx.addInt MAP_RANK rank

def addMapKey (key : JsValue) : CdtContext := ctx.add MAP_KEY key

/-- `order === 1` -/
def isOne : JsValue → Bool
  | .num n => n.strictEq (.ofInt32 1)
  | _ => false

def addMapKeyCreate (key order : JsValue) : CdtContext :=
  if !order.truthy then ctx.add (MAP_KEY ||| 0x40) key
  else if isOne order then ctx.add (MAP_KEY ||| 0x80) key
  else ctx.add (MAP_KEY ||| 0xc0) key

def addMapValue (value : JsValue) : CdtContext := ctx.add MAP_VALUE value

def call : CtxAdd → Except JsError CdtContext
  | .listIndex index => ctx.addListIndex index
  | .listIndexCreate index order pad => ctx.addListIndexCreate index order pad
  | .listRank rank => ctx.addListRank rank
  | .listValue value => .ok (ctx.addListValue value)
  | .mapIndex index => ctx.addMapIndex index
  | .mapRank rank => ctx.addMapRank rank
  | .mapKey key => .ok (ctx.addMapKey key)
  | .mapKeyCreate key order => .ok (ctx.addMapKeyCreate key order)
  | .mapValue value => .ok (ctx.addMapValue value)

/-- A sequence of calls. -/
def build (ctx : CdtContext) : List CtxAdd → Except JsError CdtContext
  | [] => .ok ctx
  | a :: as => do
    let ctx' ← ctx.call a
    build ctx' as

end CdtContext

/-! ### The native context -/

/-- `union { int64_t ival; as_val *pval; }`; `none` is a pointer that was not initialised. -/
inductive CtxUnion where
  | ival (i : Int64)
  | pval (v : Option AsVal)
deriving DecidableEq

structure AsCdtCtxItem where
  type : UInt32
  val : CtxUnion
deriving DecidableEq

/-- The flags for an element to create: `AS_LIST_ORDERED` is 1. -/
def listOrderToFlag (order : Int32) (pad : Bool) : UInt32 :=
  if order = 1 then 0xc0 else if pad then 0x80 else 0x40

/-- The orders are `AS_MAP_UNORDERED` 0, `AS_MAP_KEY_ORDERED` 1 and `AS_MAP_KEY_VALUE_ORDERED` 3. -/
def mapOrderToFlag (order : Int32) : UInt32 :=
  if order = 0 then 0x40 else if order = 1 then 0x80 else 0xc0

namespace CtxItem
open CdtContext

/-- `as_cdt_ctx_add_list_index` and the like. -/
def toNative : CtxItem → AsCdtCtxItem
  | listIndex i => ⟨LIST_INDEX.toUInt32, .ival i.toInt64⟩
  | listRank i => ⟨LIST_RANK.toUInt32, .ival i.toInt64⟩
  | listValue v => ⟨LIST_VALUE.toUInt32, .pval v⟩
  | mapIndex i => ⟨MAP_INDEX.toUInt32, .ival i.toInt64⟩
  | mapRank i => ⟨MAP_RANK.toUInt32, .ival i.toInt64⟩
  | mapKey v => ⟨MAP_KEY.toUInt32, .pval v⟩
  | mapValue v => ⟨MAP_VALUE.toUInt32, .pval v⟩
  | listIndexCreate i order pad => ⟨LIST_INDEX.toUInt32 ||| listOrderToFlag order pad, .ival i.toInt64⟩
  | mapKeyCreate v order => ⟨MAP_KEY.toUInt32 ||| mapOrderToFlag order, .pval v⟩

/-- The `switch` of `get_optional_cdt_context_heap`. -/
def ofItemHeap [Platform] (it : Int32 × JsValue) : Res (Option CtxItem) :=
  if it.1 = LIST_INDEX then (toInt it.2).map fun i => some (listIndex i)
  else if it.1 = LIST_RANK then (toInt it.2).map fun i => some (listRank i)
  else if it.1 = LIST_VALUE then (toVal it.2).map fun v => some (listValue v)
  else if it.1 = MAP_INDEX then (toInt it.2).map fun i => some (mapIndex i)
  else if it.1 = MAP_RANK then (toInt it.2).map fun i => some (mapRank i)
  else if it.1 = MAP_KEY then (toVal it.2).map fun v => some (mapKey v)
  else if it.1 = MAP_VALUE then (toVal it.2).map fun v => some (mapValue v)
  else if it.1 = LIST_INDEX ||| 0x40 then (toInt it.2).map fun i => some (listIndexCreate i 0 false)
  else if it.1 = MAP_KEY ||| 0x40 then (toVal it.2).map fun v => some (mapKeyCreate v 0)
  else if it.1 = LIST_INDEX ||| 0x80 then (toInt it.2).map fun i => some (listIndexCreate i 0 true)
  else if it.1 = MAP_KEY ||| 0x80 then (toVal it.2).map fun v => some (mapKeyCreate v 1)
  else if it.1 = LIST_INDEX ||| 0xc0 then (toInt it.2).map fun i => some (listIndexCreate i 1 false)
  else if it.1 = MAP_KEY ||| 0xc0 then (toVal it.2).map fun v => some (mapKeyCreate v 3)
  else .ok none

end CtxItem

/-- The loop of `get_optional_cdt_context_heap`. -/
def contextItemsHeap [Platform] : List (Int32 × JsValue) → Res (List CtxItem)
  | [] => .ok []
  | it :: its => do
    let c ← CtxItem.ofItemHeap it
    let cs ← contextItemsHeap its
    return c.toList ++ cs

/-- `get_optional_cdt_context_heap`, on the context a caller gave. -/
def getOptionalCdtContextHeap [Platform] : Option CdtContext → Res (Option (List CtxItem))
  | none => .ok none
  | some ctx => (contextItemsHeap ctx.items).map some

/-! ### Items again -/

section
variable (le : AsVal → AsVal → Bool)

/-- The integer of a step: the low 31 bits, and the sign bit put where a 32-bit integer has it. -/
def itemInt (i : Int64) : Int32 :=
  let ival := (i &&& 0x7FFFFFFF).toInt32
  if i &&& Int64.minValue ≠ 0 then ival ||| Int32.minValue else ival

/-- An item of `get_v8_cdt_context`; `none` where it would take an integer for a pointer. -/
def itemToJs (item : AsCdtCtxItem) : Option JsValue :=
  if 0x1 < item.type &&& 0xF then
    match item.val with
    | .pval (some v) => some (.array [.num (.ofUInt32 item.type), v.toJsvalue le])
    | _ => none
  else
    match item.val with
    | .ival i => some (.array [.num (.ofUInt32 item.type), .int (itemInt i)])
    | _ => none

/-- `get_v8_cdt_context` -/
def getV8CdtContext : List AsCdtCtxItem → Option (List JsValue)
  | [] => some []
  | item :: items => do
    let v8Item ← itemToJs le item
    let v8Items ← getV8CdtContext items
    return v8Item :: v8Items

/-- The normal form of a value: what becomes of it from JavaScript to the C client and back. -/
def normalForm [Platform] (v : JsValue) : Option JsValue :=
  match v.asvalFromJsvalue with
  | .ok a => some (a.toJsvalue le)
  | .error _ => none

/-- The item has the type and the value, in its normal form. -/
def SameItem [Platform] (it : Int32 × JsValue) (v8Item : JsValue) : Prop :=
  ∃ type value, v8Item = .array [.num type, value] ∧ type.Is it.1.toInt ∧ normalForm le it.2 = some value

end

/-! ### The integer of a step -/

namespace CtxBits

/-- The mask leaves the low 31 bits of an integer that was extended. -/
theorem getLsbD_low (x : BitVec 32) {k : ℕ} (hk : k < 32) :
    ((x.signExtend 64 &&& 0x7FFFFFFF#64).signExtend 32).getLsbD k = (x.getLsbD k && decide (k < 31)) := by
  have hmask : ∀ k, k < 32 → (0x7FFFFFFF#64).getLsbD k = decide (k < 31) := by decide
  have hk64 : k < 64 := by omega
  rw [BitVec.getLsbD_signExtend, BitVec.getLsbD_and, BitVec.getLsbD_signExtend, hmask k hk, if_pos hk64,
    if_pos hk]
  simp only [hk, hk64, decide_true, Bool.true_and]

/-- The sign bit is that of the integer that was extended. -/
theorem sign_ne_zero (x : BitVec 32) : x.signExtend 64 &&& BitVec.intMin 64 ≠ 0 ↔ x.msb = true := by
  have hbit : ∀ k, (x.signExtend 64 &&& BitVec.intMin 64).getLsbD k = (x.msb && decide (k = 63)) := by
    intro k
    rw [BitVec.getLsbD_and, BitVec.getLsbD_signExtend, BitVec.getLsbD_intMin]
    by_cases h : k = 63
    · subst h
      simp
    · have : k + 1 ≠ 64 := by omega
      simp [h]
  constructor
  · intro h
    by_contra hm
    refine h (BitVec.eq_of_getLsbD_eq fun k _ => ?_)
    rw [hbit, (Bool.not_eq_true _).mp hm]
    simp
  · intro hm h
    have h63 := hbit 63
    rw [h, hm] at h63
    exact absurd h63 (by decide)

theorem restored (x : BitVec 32) :
    (if x.signExtend 64 &&& BitVec.intMin 64 ≠ 0 then
      (x.signExtend 64 &&& 0x7FFFFFFF#64).signExtend 32 ||| BitVec.intMin 32
      else (x.signExtend 64 &&& 0x7FFFFFFF#64).signExtend 32) = x := by
  have hlast : x.msb = x.getLsbD 31 := BitVec.msb_eq_getLsbD_last x
  refine BitVec.eq_of_getLsbD_eq fun k hk => ?_
  split_ifs with h
  · rw [sign_ne_zero, hlast] at h
    rw [BitVec.getLsbD_or, getLsbD_low x hk, BitVec.getLsbD_intMin]
    rcases Nat.lt_or_ge k 31 with h31 | h31
    · have hk32 : k + 1 ≠ 32 := by omega
      simp only [h31, hk32, decide_true, decide_false, Bool.and_true, Bool.or_false]
    · obtain rfl : k = 31 := by omega
      rw [h]
      rfl
  · rw [sign_ne_zero, hlast] at h
    rw [getLsbD_low x hk]
    rcases Nat.lt_or_ge k 31 with h31 | h31
    · simp only [h31, decide_true, Bool.and_true]
    · obtain rfl : k = 31 := by omega
      rw [(Bool.not_eq_true _).mp h]
      rfl

end CtxBits

/-- The integer of a step comes back as it was. -/
theorem itemInt_toInt64 (i : Int32) : itemInt i.toInt64 = i := by
  apply Int32.toBitVec_inj.1
  have hne : (i.toInt64 &&& Int64.minValue ≠ 0) ↔ i.toBitVec.signExtend 64 &&& BitVec.intMin 64 ≠ 0 :=
    not_congr Int64.toBitVec_inj.symm
  rw [itemInt]
  refine Eq.trans ?_ (CtxBits.restored i.toBitVec)
  split_ifs with h h' h'
  · rfl
  · exact absurd (hne.1 h) h'
  · exact absurd (hne.2 h') h
  · rfl

/-! ### The round trip -/

section
variable {le : AsVal → AsVal → Bool} {it : Int32 × JsValue}

theorem toInt_of_is [Platform] {n : JsNumber} {i : Int32} (h : n.Is i.toInt) : CtxItem.toInt (.num n) = .ok i := by
  have hi : n.toInt32 = i := by rw [JsNumber.toInt32, h.toInteger_eq, Int32.ofInt_toInt]
  rw [CtxItem.toInt, JsValue.toDouble, Except.map, hi]

theorem toVal_of_ok [Platform] {v : JsValue} {a : AsVal} (h : v.asvalFromJsvalue = .ok a) :
    CtxItem.toVal v = .ok (some a) := by
  rw [CtxItem.toVal, h]

theorem normalForm_int [Platform] {n : JsNumber} {i : Int32} (h : n.Is i.toInt) :
    normalForm le (.num n) = some (.int i) := by
  have hlo := i.le_toInt
  have hhi := i.toInt_lt
  have hd : (JsValue.num n).isDoubleValue = false :=
    JsValue.isDoubleValue_num.2 ⟨i.toInt, h, by omega, by omega⟩
  have hval : (JsValue.num n).asvalFromJsvalue = .ok (.integer n.toInt64) := by
    rw [JsValue.asvalFromJsvalue, hd, if_neg Bool.false_ne_true]
  have h64 : n.toInt64.toInt = i.toInt := by
    rw [h.toInt64_eq, JsNumber.satInt64_eq (by omega) (by omega)]
    exact Int64.toInt_ofInt_of_le (by omega) (by omega)
  rw [normalForm, hval]
  simp only [AsVal.toJsvalue, JsValue.ofInt64, h64]
  rw [dif_pos (JsNumber.abs_toInt_lt i)]
  rfl

/-- The calls a caller may make: indices and ranks of 32 bits, and values that convert. -/
def CtxAdd.Valid [Platform] : CtxAdd → Prop
  | .listIndex n | .listRank n | .mapIndex n | .mapRank n => ∃ i : Int32, n.Is i.toInt
  | .listIndexCreate n _ _ => ∃ i : Int32, n.Is i.toInt
  | .listValue v | .mapKey v | .mapKeyCreate v _ | .mapValue v => ∃ a, v.asvalFromJsvalue = .ok a

/-- What a call adds: its type, and an index or a value. -/
def CtxAdd.item : CtxAdd → Int32 × JsValue
  | .listIndex n => (CdtContext.LIST_INDEX, .num n)
  | .listIndexCreate n order pad =>
    (CdtContext.LIST_INDEX ||| if order.truthy then 0xc0 else if pad.truthy then 0x80 else 0x40, .num n)
  | .listRank n => (CdtContext.LIST_RANK, .num n)
  | .listValue v => (CdtContext.LIST_VALUE, v)
  | .mapIndex n => (CdtContext.MAP_INDEX, .num n)
  | .mapRank n => (CdtContext.MAP_RANK, .num n)
  | .mapKey v => (CdtContext.MAP_KEY, v)
  | .mapKeyCreate v order =>
    (CdtContext.MAP_KEY ||| if !order.truthy then 0x40 else if CdtContext.isOne order then 0x80 else 0xc0, v)
  | .mapValue v => (CdtContext.MAP_VALUE, v)

theorem addInt_of_is {ctx : CdtContext} {type : Int32} {n : JsNumber} {i : Int32} (h : n.Is i.toInt) :
    ctx.addInt type n = .ok (ctx.add type (.num n)) := by
  have hlo := i.le_toInt
  have hhi := i.toInt_lt
  have hmax : CdtContext.int32Max.val = some ((2147483647 : ℤ) : ℚ) := rfl
  have hmin : CdtContext.int32Min.val = some ((-2147483648 : ℤ) : ℚ) := rfl
  have h1 : ¬n.gt CdtContext.int32Max = true := by
    rw [JsNumber.gt_eq h hmax, decide_eq_true_eq, gt_iff_lt, Int.cast_lt]
    omega
  have h2 : ¬CdtContext.int32Min.gt n = true := by
    rw [JsNumber.gt_eq hmin h, decide_eq_true_eq, gt_iff_lt, Int.cast_lt]
    omega
  rw [CdtContext.addInt, if_neg h1, if_neg h2]

/-- A valid call adds its item. -/
theorem call_of_valid [Platform] {ctx : CdtContext} {a : CtxAdd} (h : a.Valid) :
    ctx.call a = .ok (ctx.add a.item.1 a.item.2) := by
  cases a with
  | listIndexCreate n order pad =>
    obtain ⟨i, hi⟩ := h
    rw [CdtContext.call, CdtContext.addListIndexCreate, CtxAdd.item]
    split_ifs
    · exact addInt_of_is hi
    · exact addInt_of_is hi
    · exact addInt_of_is hi
  | mapKeyCreate v order =>
    rw [CdtContext.call, CdtContext.addMapKeyCreate, CtxAdd.item]
    split_ifs <;> rfl
  | listIndex n | listRank n | mapIndex n | mapRank n =>
    obtain ⟨i, hi⟩ := h
    exact addInt_of_is hi
  | listValue v | mapKey v | mapValue v => rfl

theorem build_of_valid [Platform] {ctx : CdtContext} {as : List CtxAdd} (h : ∀ a ∈ as, a.Valid) :
    ctx.build as = .ok ⟨ctx.items ++ as.map CtxAdd.item⟩ := by
  induction as generalizing ctx with
  | nil => rw [CdtContext.build, List.map_nil, List.append_nil]
  | cons a as ih =>
    rw [CdtContext.build, call_of_valid (h a (.head _))]
    refine (ih fun b hb => h b (.tail _ hb)).trans ?_
    rw [CdtContext.add, List.append_assoc]
    rfl


theorem is_ofUInt32 (u : UInt32) : (JsNumber.ofUInt32 u).Is u.toNat := rfl

theorem sameItem_int [Platform] {type : Int32} {n : JsNumber} {i : Int32} {c : CtxItem} (hn : n.Is i.toInt)
    (hnative : c.toNative = ⟨type.toUInt32, .ival i.toInt64⟩) (htype : ¬0x1 < type.toUInt32 &&& 0xF)
    (hpos : (type.toUInt32.toNat : ℤ) = type.toInt) :
    ∃ js, itemToJs le c.toNative = some js ∧ SameItem le (type, .num n) js := by
  refine ⟨.array [.num (.ofUInt32 type.toUInt32), .int i], ?_, _, _, rfl, ?_, normalForm_int hn⟩
  · rw [itemToJs, hnative, if_neg htype]
    simp only [itemInt_toInt64]
  · rw [← hpos]
    exact is_ofUInt32 _

theorem sameItem_val [Platform] {type : Int32} {v : JsValue} {a : AsVal} {c : CtxItem} (ha : v.asvalFromJsvalue = .ok a)
    (hnative : c.toNative = ⟨type.toUInt32, .pval (some a)⟩) (htype : 0x1 < type.toUInt32 &&& 0xF)
    (hpos : (type.toUInt32.toNat : ℤ) = type.toInt) :
    ∃ js, itemToJs le c.toNative = some js ∧ SameItem le (type, v) js := by
  refine ⟨.array [.num (.ofUInt32 type.toUInt32), a.toJsvalue le], ?_, _, _, rfl, ?_, ?_⟩
  · rw [itemToJs, hnative, if_pos htype]
  · rw [← hpos]
    exact is_ofUInt32 _
  · rw [normalForm, ha]

/-- The two copies of the `switch` do the same. -/
theorem ofItemHeap_eq [Platform] (it : Int32 × JsValue) : CtxItem.ofItemHeap it = CtxItem.ofItem it := rfl

theorem contextItemsHeap_eq [Platform] (its : List (Int32 × JsValue)) : contextItemsHeap its = contextItems its := by
  induction its with
  | nil => rfl
  | cons it its ih => rw [contextItemsHeap, contextItems, ofItemHeap_eq, ih]

/-- The step that the item of a valid call becomes, and the item that becomes of the step. -/
theorem item_roundTrip [Platform] (le : AsVal → AsVal → Bool) {a : CtxAdd} (h : a.Valid) :
    ∃ c, CtxItem.ofItem a.item = .ok (some c) ∧
      ∃ js, itemToJs le c.toNative = some js ∧ SameItem le a.item js := by
  have hstep : ∀ {n : JsNumber} {i : Int32} (f : Int32 → Option CtxItem), n.Is i.toInt →
      (CtxItem.toInt (.num n)).map f = .ok (f i) := by
    intro n i f hi
    rw [toInt_of_is hi]
    rfl
  have hkey : ∀ {v : JsValue} {w : AsVal} (f : Option AsVal → Option CtxItem),
      v.asvalFromJsvalue = .ok w → (CtxItem.toVal v).map f = .ok (f (some w)) := by
    intro v w f hw
    rw [toVal_of_ok hw]
    rfl
  cases a with
  | listIndex n =>
    obtain ⟨i, hi⟩ := h
    exact ⟨.listIndex i, hstep (fun i => some (.listIndex i)) hi, sameItem_int hi rfl (by decide) (by decide)⟩
  | listIndexCreate n order pad =>
    obtain ⟨i, hi⟩ := h
    rw [CtxAdd.item]
    split_ifs
    · exact ⟨.listIndexCreate i 1 false, hstep (fun i => some (.listIndexCreate i 1 false)) hi,
        sameItem_int hi rfl (by decide) (by decide)⟩
    · exact ⟨.listIndexCreate i 0 true, hstep (fun i => some (.listIndexCreate i 0 true)) hi,
        sameItem_int hi rfl (by decide) (by decide)⟩
    · exact ⟨.listIndexCreate i 0 false, hstep (fun i => some (.listIndexCreate i 0 false)) hi,
        sameItem_int hi rfl (by decide) (by decide)⟩
  | listRank n =>
    obtain ⟨i, hi⟩ := h
    exact ⟨.listRank i, hstep (fun i => some (.listRank i)) hi, sameItem_int hi rfl (by decide) (by decide)⟩
  | listValue v =>
    obtain ⟨w, hw⟩ := h
    exact ⟨.listValue (some w), hkey _ hw, sameItem_val hw rfl (by decide) (by decide)⟩
  | mapIndex n =>
    obtain ⟨i, hi⟩ := h
    exact ⟨.mapIndex i, hstep (fun i => some (.mapIndex i)) hi, sameItem_int hi rfl (by decide) (by decide)⟩
  | mapRank n =>
    obtain ⟨i, hi⟩ := h
    exact ⟨.mapRank i, hstep (fun i => some (.mapRank i)) hi, sameItem_int hi rfl (by decide) (by decide)⟩
  | mapKey v =>
    obtain ⟨w, hw⟩ := h
    exact ⟨.mapKey (some w), hkey _ hw, sameItem_val hw rfl (by decide) (by decide)⟩
  | mapKeyCreate v order =>
    obtain ⟨w, hw⟩ := h
    rw [CtxAdd.item]
    split_ifs
    · exact ⟨.mapKeyCreate (some w) 0, hkey _ hw, sameItem_val hw rfl (by decide) (by decide)⟩
    · exact ⟨.mapKeyCreate (some w) 1, hkey _ hw, sameItem_val hw rfl (by decide) (by decide)⟩
    · exact ⟨.mapKeyCreate (some w) 3, hkey _ hw, sameItem_val hw rfl (by decide) (by decide)⟩
  | mapValue v =>
    obtain ⟨w, hw⟩ := h
    exact ⟨.mapValue (some w), hkey _ hw, sameItem_val hw rfl (by decide) (by decide)⟩

theorem items_roundTrip [Platform] (le : AsVal → AsVal → Bool) {as : List CtxAdd} (h : ∀ a ∈ as, a.Valid) :
    ∃ cs, contextItems (as.map CtxAdd.item) = .ok cs ∧
      ∃ v8Items, getV8CdtContext le (cs.map CtxItem.toNative) = some v8Items ∧
        List.Forall₂ (SameItem le) (as.map CtxAdd.item) v8Items := by
  induction as with
  | nil => exact ⟨[], rfl, [], rfl, .nil⟩
  | cons a as ih =>
    obtain ⟨c, hc, js, hjs, hsame⟩ := item_roundTrip le (h a (.head _))
    obtain ⟨cs, hcs, v8Items, hitems, hall⟩ := ih fun b hb => h b (.tail _ hb)
    refine ⟨c :: cs, ?_, js :: v8Items, ?_, .cons hsame hall⟩
    · rw [List.map_cons, contextItems, hc, hcs]
      rfl
    · rw [List.map_cons, getV8CdtContext, hjs, hitems]
      rfl

/-- A context of valid calls comes back item by item, and is the same for the stack and the heap. -/
theorem roundTrip_context [Platform] (le : AsVal → AsVal → Bool) (as : List CtxAdd) (h : ∀ a ∈ as, a.Valid) :
    ∃ ctx cs, CdtContext.empty.build as = .ok ctx ∧
      getOptionalCdtContext (some ctx) = .ok (some cs) ∧
      getOptionalCdtContextHeap (some ctx) = .ok (some cs) ∧
      ∃ v8Items, getV8CdtContext le (cs.map CtxItem.toNative) = some v8Items ∧
        List.Forall₂ (SameItem le) ctx.items v8Items := by
  obtain ⟨cs, hcs, v8Items, hitems, hsame⟩ := items_roundTrip le h
  have hstack : getOptionalCdtContext (some ⟨as.map CtxAdd.item⟩) = .ok (some cs) := by
    rw [getOptionalCdtContext, hcs]
    rfl
  refine ⟨⟨as.map CtxAdd.item⟩, cs, build_of_valid h, hstack, ?_, v8Items, hitems, hsame⟩
  rw [getOptionalCdtContextHeap, contextItemsHeap_eq]
  exact hstack

open Platform

theorem roundTrip_index_and_key :
    ∃ ctx cs, CdtContext.empty.build
        [.listIndexCreate (.ofInt32 (-1)) (.bool true) .undefined, .mapKey (.str (JsString.lit "a"))] = .ok ctx ∧
      getOptionalCdtContext (some ctx) = .ok (some cs) ∧
      getOptionalCdtContextHeap (some ctx) = .ok (some cs) ∧
      ∃ v8Items, getV8CdtContext (fun _ _ => true) (cs.map CtxItem.toNative) = some v8Items ∧
        List.Forall₂ (SameItem fun _ _ => true) ctx.items v8Items := by
  refine roundTrip_context _ _ fun a ha => ?_
  rcases List.mem_cons.1 ha with rfl | ha
  · exact ⟨-1, rfl⟩
  · obtain rfl := List.mem_singleton.1 ha
    exact ⟨_, rfl⟩

end

end AerospikeNode
