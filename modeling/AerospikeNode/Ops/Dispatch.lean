import AerospikeNode.Ops.Handlers

/-!
# Lists of operations

`add_operation` and `operations_from_jsarray` (`src/main/operations.cc`). The opcode selects a
table by its bits 8 to 15, and then an entry by all its bits but those of the table's offset. The
entry is read without a test that it is one. The handlers of list and map operations ignore what the
C client returns.
-/

namespace AerospikeNode

def OPS_MASK : UInt32 := 0xFF00

/-- A conversion fails, or reads a table outside its bounds. -/
inductive OpError where
  | fail (e : Fail)
  | outOfBounds
deriving DecidableEq, Repr

/-- A conversion that reads no table. -/
def reading {α : Type} (r : Res α) : Except OpError α := r.mapError .fail

/-- The entry of an opcode. -/
def OpTable.entry {α β : Type} (t : OpTable α β) (opcode : UInt32) : Except OpError (α × β) :=
  match t.lookup opcode with
  | some e => .ok e
  | none => .error .outOfBounds

section
variable (D : PolicyDefaults) (opcode : UInt32) (obj : JsValue)

/-- The operation `add_scalar_op` reads. -/
def scalarOp [Platform] : Except OpError NativeOp := do
  let (name, handler) ← ScalarOp.table.entry opcode
  let bin ← reading (if name.needsBin then (obj.field "bin").stringProperty.map some else .ok none)
  let call ← reading (handler obj)
  return { bin := bin, call := call }

/-- The operation `add_list_op` and `add_map_op` read, by their table. -/
def cdtOp [Platform] {α : Type} (t : OpTable α Handler) : Except OpError NativeOp := do
  let bin ← reading (obj.field "bin").stringProperty
  let ctx ← reading (contextOfJs (obj.field "context"))
  let (_, handler) ← t.entry opcode
  let call ← reading (handler obj)
  return { bin := some bin, ctx := ctx, call := call }

/-- The operation `add_bit_op` reads. -/
def bitOp : Except OpError NativeOp := do
  let bin ← reading (obj.field "bin").stringProperty
  let policy ← reading (flagsPolicyArg D.bitFlags obj)
  let (_, handler) ← BitOp.table.entry opcode
  let call ← reading (handler policy obj)
  return { bin := some bin, call := call }

/-- The operation `add_hll_op` reads. -/
def hllOp [Platform] : Except OpError NativeOp := do
  let bin ← reading (obj.field "bin").stringProperty
  let (_, handler) ← (HllOp.table D).entry opcode
  let call ← reading (handler obj)
  return { bin := some bin, call := call }

/-- The `exp` property: compiled if it is an array, and left out otherwise. -/
def expProperty [Platform] : JsValue → Res (Option (List ExpEntry))
  | .array entries => (expOfJsarray D entries).map some
  | _ => .ok none

/-- The operation `add_exp_op` reads. -/
def expOp [Platform] : Except OpError NativeOp := do
  let bin ← reading (obj.field "bin").stringProperty
  let flags ← reading (obj.field "flags").intProperty
  let exp ← reading (expProperty D (obj.field "exp"))
  let (_, handler) ← ExpOpName.table.entry opcode
  return { bin := some bin, call := handler exp flags }

/-- The operation of an opcode, and whether the result of the C client is tested: list and map
handlers ignore it. -/
def readOperation [Platform] : Except OpError (Bool × NativeOp) :=
  if opcode &&& OPS_MASK = 0x0000 then (scalarOp opcode obj).map (true, ·)
  else if opcode &&& OPS_MASK = 0x0100 then (cdtOp opcode obj (ListOp.table D)).map (false, ·)
  else if opcode &&& OPS_MASK = 0x0200 then (cdtOp opcode obj (MapOp.table D)).map (false, ·)
  else if opcode &&& OPS_MASK = 0x0300 then (bitOp D opcode obj).map (true, ·)
  else if opcode &&& OPS_MASK = 0x0400 then (hllOp D opcode obj).map (true, ·)
  else if opcode &&& OPS_MASK = 0x0500 then (expOp D opcode obj).map (true, ·)
  else .error (.fail .paramErr)

/-- `add_operation` -/
def addOperation [Platform] (ops : Operations) : Except OpError Operations := do
  let (checked, op) ← readOperation D opcode obj
  match ops.add op with
  | some ops' => return ops'
  | none => if checked then .error (.fail .paramErr) else return ops

end

section
variable (D : PolicyDefaults)

/-- The opcode of an element; `Nan::To<uint32_t>` wraps the number around. -/
def elementOpcode (x : JsValue) : Res UInt32 := do
  let obj ← x.asObject
  (obj.field "op").uint32Property

/-- The operation an element of an array stands for. -/
def elementOperation [Platform] (x : JsValue) : Except OpError (Bool × NativeOp) := do
  let op ← reading (elementOpcode x)
  readOperation D op x

/-- An iteration of the loop of `operations_from_jsarray`. -/
def addElement [Platform] (ops : Operations) (x : JsValue) : Except OpError Operations := do
  let op ← reading (elementOpcode x)
  addOperation D op x ops

end

end AerospikeNode
