import AerospikeNode.Native.Read

/-!
# CDT contexts

`CdtContext` (`lib/cdt_context.js`) collects `[type, value]` pairs; `get_optional_cdt_context`
(`src/main/cdt_ctx.cc`) turns them into the path of an `as_cdt_ctx`. The item types are those of
`as_cdt_ctx_type` in the C client.
-/

namespace AerospikeNode

/-- A thrown JavaScript error. -/
inductive JsError where
  | error
  | typeError
deriving DecidableEq, Repr

structure CdtContext where
  items : List (Int32 × JsValue)

namespace CdtContext

def LIST_INDEX : Int32 := 0x10
def LIST_RANK : Int32 := 0x11
def LIST_VALUE : Int32 := 0x13
def MAP_INDEX : Int32 := 0x20
def MAP_RANK : Int32 := 0x21
def MAP_KEY : Int32 := 0x22
def MAP_VALUE : Int32 := 0x23

/-- The object the native code reads. -/
def toJs (ctx : CdtContext) : JsValue :=
  .obj ⟨JsString.lit "CdtContext", none⟩
    [(JsString.lit "items", .array (ctx.items.map fun it => .array [.int it.1, it.2]))]

end CdtContext

/-- A step of an `as_cdt_ctx`. A value that does not convert leaves an uninitialised pointer in its
step, or a list or map that is not complete; `none` here. -/
inductive CtxItem where
  | listIndex (i : Int32)
  | listRank (i : Int32)
  | listValue (v : Option AsVal)
  | mapIndex (i : Int32)
  | mapRank (i : Int32)
  | mapKey (v : Option AsVal)
  | mapValue (v : Option AsVal)
  | listIndexCreate (i : Int32) (order : Int32) (pad : Bool)
  | mapKeyCreate (v : Option AsVal) (order : Int32)
deriving DecidableEq

namespace CtxItem
open CdtContext

/-- `Nan::To<int>(v8value).FromJust()` -/
def toInt [Platform] (v : JsValue) : Res Int32 := v.toDouble.map JsNumber.toInt32

/-- `asval_from_jsvalue` with its result code ignored; V8 may still abort. -/
def toVal [Platform] (v : JsValue) : Res (Option AsVal) :=
  match v.asvalFromJsvalue with
  | .ok a => .ok (some a)
  | .error .paramErr => .ok none
  | .error e => .error e

/-- The `switch` on an item's type; an unknown type adds nothing. -/
def ofItem [Platform] (it : Int32 × JsValue) : Res (Option CtxItem) :=
  if it.1 = LIST_INDEX then (toInt it.2).map fun i => some (listIndex i)
  else if it.1 = LIST_RANK then (toInt it.2).map fun i => some (listRank i)
  else if it.1 = LIST_VALUE then (toVal it.2).map fun v => some (listValue v)
  else if it.1 = MAP_INDEX then (toInt it.2).map fun i => some (mapIndex i)
  else if it.1 = MAP_RANK then (toInt it.2).map fun i => some (mapRank i)
  else if it.1 = MAP_KEY then (toVal it.2).map fun v => some (mapKey v)
  else if it.1 = MAP_VALUE then (toVal it.2).map fun v => some (mapValue v)
  else if it.1 = LIST_INDEX ||| 0x40 then (toInt it.2).map fun i => some (listIndexCreate i 0 false)
  else if it.1 = MAP_KEY ||| 0x40 then (toVal it.2).map fun v => some (mapKeyCreate v 0)
  else if it.1 = LIST_INDEX ||| 0x80 then (toInt it.2).map fun i => some (listIndexCreate i 0 true)
  else if it.1 = MAP_KEY ||| 0x80 then (toVal it.2).map fun v => some (mapKeyCreate v 1)
  else if it.1 = LIST_INDEX ||| 0xc0 then (toInt it.2).map fun i => some (listIndexCreate i 1 false)
  else if it.1 = MAP_KEY ||| 0xc0 then (toVal it.2).map fun v => some (mapKeyCreate v 3)
  else .ok none

end CtxItem

/-- The loop of `get_optional_cdt_context` over the items. -/
def contextItems [Platform] : List (Int32 × JsValue) → Res (List CtxItem)
  | [] => .ok []
  | it :: its => do
    let c ← CtxItem.ofItem it
    let cs ← contextItems its
    return c.toList ++ cs

/-- `get_optional_cdt_context` and `get_optional_cdt_context_heap`, on the context a caller gave. -/
def getOptionalCdtContext [Platform] : Option CdtContext → Res (Option (List CtxItem))
  | none => .ok none
  | some ctx => (contextItems ctx.items).map some

/-! ### Contexts as JavaScript values -/

/-- The type and value of an item. The code casts an item, like the list of items, to an array
without a test; V8 does not survive that of anything else. -/
def itemOfJs [Platform] : JsValue → Res (Int32 × JsValue)
  | .array xs => (CtxItem.toInt (xs.getD 0 .undefined)).map fun type => (type, xs.getD 1 .undefined)
  | _ => .error .abort

def contextItemsOfJs [Platform] : List JsValue → Res (List CtxItem)
  | [] => .ok []
  | x :: xs => do
    let it ← itemOfJs x
    let c ← CtxItem.ofItem it
    let cs ← contextItemsOfJs xs
    return c.toList ++ cs

/-- `get_optional_cdt_context`, on any value a property holds. -/
def contextOfJs [Platform] (v : JsValue) : Res (Option (List CtxItem)) :=
  if v.isNullish then .ok none
  else if !v.isObject then .error .paramErr
  else match v.field "items" with
    | .array items => (contextItemsOfJs items).map some
    | _ => .error .abort

theorem contextItemsOfJs_map [Platform] (its : List (Int32 × JsValue)) :
    contextItemsOfJs (its.map fun it => .array [.int it.1, it.2]) = contextItems its := by
  induction its with
  | nil => rfl
  | cons it its ih =>
    have hitem : itemOfJs (.array [.int it.1, it.2]) = .ok it := by
      have htype : CtxItem.toInt (.int it.1) = .ok it.1 := by
        rw [CtxItem.toInt, JsValue.int, JsValue.toDouble]
        exact congrArg Except.ok (JsNumber.toInt32_ofInt32 it.1)
      rw [itemOfJs, List.getD_cons_zero, htype]
      rfl
    rw [List.map_cons, contextItemsOfJs, contextItems, hitem, ih]
    rfl

/-- A `CdtContext` is read item by item. -/
theorem contextOfJs_toJs [Platform] (ctx : CdtContext) :
    contextOfJs ctx.toJs = getOptionalCdtContext (some ctx) := by
  show (contextItemsOfJs (ctx.items.map fun it => .array [.int it.1, it.2])).map some = _
  rw [contextItemsOfJs_map]
  rfl

end AerospikeNode
