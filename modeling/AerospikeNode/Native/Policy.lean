import AerospikeNode.Native.Read

/-!
# List, map, bitwise and HLL policies

The readers of a `policy` property in `list_operations.cc`, `map_operations.cc`, `bit_operations.cc`
and `hll_operations.cc`. All are handed the object that has the `policy` property. The default
values are the C client's; `PolicyDefaults` stands for them.
-/

namespace AerospikeNode

/-- `AS_LIST_UNORDERED`, `AS_LIST_WRITE_DEFAULT`, and the defaults of the other policies. -/
structure PolicyDefaults where
  listOrder : Int32
  listFlags : Int32
  mapOrder : Int32
  mapMode : Int32
  mapFlags : UInt32
  bitFlags : Int32
  hllFlags : Int32

/-- The C client's defaults are all 0. -/
def PolicyDefaults.client : PolicyDefaults := ⟨0, 0, 0, 0, 0, 0, 0⟩

/-- `as_list_policy` -/
structure ListPolicy where
  order : Int32
  flags : Int32
deriving DecidableEq

/-- `as_map_policy`; the write mode selects the map commands. -/
structure MapPolicy where
  order : Int32
  mode : Int32
  flags : UInt32
deriving DecidableEq

namespace JsValue

/-- A number, or a default for `undefined`: how `order` and `writeFlags` are read. -/
def intOr (dflt : Int32) : JsValue → Res Int32
  | num n => .ok n.toInt32
  | undefined => .ok dflt
  | _ => .error .paramErr

end JsValue

section
variable (D : PolicyDefaults)

/-- `as_list_policy_init` -/
def ListPolicy.init : ListPolicy := ⟨D.listOrder, D.listFlags⟩

/-- `as_map_policy_init` -/
def MapPolicy.init : MapPolicy := ⟨D.mapOrder, D.mapMode, D.mapFlags⟩

/-- The body of `get_optional_list_policy` on the policy object. -/
def listPolicyOf (policyObj : JsValue) : Res ListPolicy := do
  let order ← (policyObj.field "order").intOr D.listOrder
  let writeFlags ← (policyObj.field "writeFlags").intOr D.listFlags
  return ⟨order, writeFlags⟩

/-- `get_optional_list_policy`: the policy, and whether there is one. A `policy` that is no object is
no policy. -/
def getOptionalListPolicy (obj : JsValue) : Res (Bool × ListPolicy) :=
  if (obj.field "policy").isObject then (listPolicyOf D (obj.field "policy")).map (true, ·)
  else .ok (false, .init D)

/-- The body of `get_map_policy` on the policy object. -/
def mapPolicyOf (policyObj : JsValue) : Res MapPolicy := do
  let order ← (policyObj.field "order").optionalIntProperty
  let mode ← (policyObj.field "writeMode").optionalIntProperty
  let flags ← (policyObj.field "writeFlags").optionalUint32Property
  match flags with
  | some flags => return ⟨order.getD D.mapOrder, D.mapMode, flags⟩
  | none => return ⟨order.getD D.mapOrder, mode.getD D.mapMode, D.mapFlags⟩

/-- `get_map_policy` -/
def getMapPolicy (obj : JsValue) : Res MapPolicy :=
  match obj.field "policy" with
  | .undefined => .ok (.init D)
  | v => if v.isObject then mapPolicyOf D v else .error .paramErr

/-- `get_optional_bit_policy` and `get_optional_hll_policy`: the write flags, if there is a policy. -/
def getOptionalFlagsPolicy (dflt : Int32) (obj : JsValue) : Res (Option Int32) :=
  match obj.field "policy" with
  | .undefined => .ok none
  | v => if v.isObject then ((v.field "writeFlags").intOr dflt).map some else .error .paramErr

end

end AerospikeNode
