import AerospikeNode.Admin.Arrays
import AerospikeNode.Cmd.Async
import AerospikeNode.Rec.KeyEquals

/-!
# A role on its way through the C client

`RoleCreate` (`src/main/commands/role_create.cc`) hands a role to the C client; `QueryRole` and `QueryRoles`
give the user the roles that the C client reports (`as_roles_to_jsobject`, `as_privileges_to_jsarray` in
`src/main/util/conversions.cc`).

`role_returns_iff`: the role that a call of `createRole` hands over is reported as the call gives it exactly
if all texts are ones that a `char *` holds, the names of namespaces and sets are shorter than their
buffers, and the codes and quotas are integers of 32 bits.
-/

namespace AerospikeNode

open Slots

/-- `as_role` -/
structure AsRole where
  name : Bytes
  readQuota : Int32
  writeQuota : Int32
  whitelist : List Bytes
  privileges : List Privilege

namespace Privilege

/-- An element of `as_privileges_to_jsarray`; the code is an `int` for `Nan::New`. -/
def toJs (p : Privilege) : JsValue :=
  .plain [(JsString.lit "namespace", .ofCString p.ns), (JsString.lit "set", .ofCString p.set),
    (JsString.lit "code", .int p.code.toInt32)]

end Privilege

namespace AsRole

/-- An element of `as_roles_to_jsobject` -/
def toJs (r : AsRole) : JsValue :=
  .plain [(JsString.lit "name", .ofCString r.name), (JsString.lit "readQuota", .int r.readQuota),
    (JsString.lit "writeQuota", .int r.writeQuota),
    (JsString.lit "whitelist", .array (r.whitelist.map .ofCString)),
    (JsString.lit "privileges", .array (r.privileges.map Privilege.toJs))]

end AsRole

namespace RoleCreate

def typeChecks : List TypeCheck :=
  [.req 0 JsValue.isString "role must be a string", .req 1 JsValue.isArray "privileges must be an array",
    .opt 2 JsValue.isObject "Policy must be an object", .opt 3 JsValue.isArray "whitelist must be an array",
    .opt 4 isNumber "read quota must be a number", .opt 5 isNumber "write quota must be a number",
    .req 6 JsValue.isFunction "Callback must be a function"]

/-- No type check throws. -/
def accepts (args : List JsValue) : Bool := typeChecks.all (·.passes args)

/-- An array of strings, empty if there is none. -/
def strings : JsValue → Option (List Bytes)
  | .array xs => (stringFromJsarray xs).elements
  | _ => some []

def privileges : JsValue → Option (List Privilege)
  | .array xs => (privilegesFromJsarray xs).elements
  | _ => some []

/-- `Nan::To<int>` of a quota, 0 if there is none. -/
def quota : JsValue → Int32
  | .num n => n.toInt32
  | _ => 0

/-- The role that `aerospike_create_role_quotas` is called with, if it is called. -/
def sent (policy : JsValue → Bool) (args : List JsValue) : Option AsRole :=
  let info i := args.getD i .undefined
  match info 0 with
  | .str name => do
    guard (accepts args)
    let privileges ← privileges (info 1)
    guard (!(info 2).isObject || policy (info 2))
    let whitelist ← strings (info 3)
    return ⟨nativeStr name, quota (info 4), quota (info 5), whitelist, privileges⟩
  | _ => none

/-! ### What a call gives -/

def name? (v : JsValue) : JsValue := if v.isString then v else .str []

def privilegeGiven (v : JsValue) : JsValue :=
  .plain [(JsString.lit "namespace", name? (v.field "namespace")), (JsString.lit "set", name? (v.field "set")),
    (JsString.lit "code", v.field "code")]

def elements? : JsValue → List JsValue
  | .array xs => xs
  | _ => []

def quotaGiven (v : JsValue) : JsValue := if isNumber v then v else .int 0

/-- The role of a call; what it leaves out is empty or 0. -/
def given (args : List JsValue) : JsValue :=
  let info i := args.getD i .undefined
  .plain [(JsString.lit "name", info 0), (JsString.lit "readQuota", quotaGiven (info 4)),
    (JsString.lit "writeQuota", quotaGiven (info 5)), (JsString.lit "whitelist", .array (elements? (info 3))),
    (JsString.lit "privileges", .array ((elements? (info 1)).map privilegeGiven))]

/-- A text that a `char *` holds. -/
def IsText (v : JsValue) : Prop := ∃ s, v = .str s ∧ s.Clean

/-- A name that a buffer holds, if there is one. -/
def NameHeld (v : JsValue) (size : ℕ) : Prop :=
  ∀ s, v = .str s → (nativeStr s).length ≤ size ∧ NameSurvives s size

def Int32Held (v : JsValue) : Prop := isNumber v = true → ∃ i : Int32, v = .int i

def PrivilegeHeld (v : JsValue) : Prop :=
  v.isObject = true ∧ (∃ i : Int32, v.field "code" = .int i) ∧
    NameHeld (v.field "namespace") AS_NAMESPACE_MAX_SIZE ∧ NameHeld (v.field "set") AS_SET_MAX_SIZE

structure Held (policy : JsValue → Bool) (args : List JsValue) : Prop where
  accepts : accepts args = true
  name : IsText (args.getD 0 .undefined)
  privileges : ∀ v ∈ elements? (args.getD 1 .undefined), PrivilegeHeld v
  policy : (args.getD 2 .undefined).isObject = true → policy (args.getD 2 .undefined) = true
  whitelist : ∀ v ∈ elements? (args.getD 3 .undefined), IsText v
  readQuota : Int32Held (args.getD 4 .undefined)
  writeQuota : Int32Held (args.getD 5 .undefined)

/-! ### One element -/

section
variable {policy : JsValue → Bool} {args : List JsValue} {r : AsRole} {v : JsValue} {size : ℕ}

theorem ofCString_nativeStr {s : JsString} : JsValue.ofCString (nativeStr s) = .str s ↔ s.Clean := by
  rw [JsValue.ofCString, JsValue.str.injEq, decode_nativeStr]

/-- A string of an array is reported as it was given. -/
theorem string_returns : (∃ b, stringRound v = .stored b ∧ JsValue.ofCString b = v) ↔ IsText v := by
  cases v with
  | str s =>
    constructor
    · rintro ⟨b, hb, h⟩
      obtain rfl := Round.stored.inj hb
      exact ⟨s, rfl, ofCString_nativeStr.1 h⟩
    · rintro ⟨t, ht, hclean⟩
      obtain rfl := JsValue.str.inj ht
      exact ⟨_, rfl, ofCString_nativeStr.2 hclean⟩
  | _ => simp [stringRound, IsText]

theorem name_returns (hsize : 0 < size) :
    (∃ b, privilegeName v size = some b ∧ JsValue.ofCString b = name? v) ↔ NameHeld v size := by
  cases v with
  | str s =>
    have hlen : (strlcpy (nativeStr s) size).2 = (nativeStr s).length := rfl
    have hname : name? (.str s) = .str s := rfl
    rw [privilegeName, hlen, hname]
    have hheld : NameHeld (.str s) size ↔ (nativeStr s).length ≤ size ∧ NameSurvives s size := by
      simp [NameHeld]
    rw [hheld]
    split_ifs with hlong
    · simp [Nat.not_le.2 hlong]
    · have hcopy : copyName s size = .ok (strlcpy (nativeStr s) size).1 := by rw [copyName, hlen, if_neg hlong]
      simp only [Option.some.injEq, exists_eq_left', JsValue.ofCString, JsValue.str.injEq,
        decode_copyName hsize hcopy, Nat.not_lt.1 hlong, true_and]
  | _ =>
    have hempty : JsString.decode [] = [] := JsString.decode_eq_nil.2 rfl
    simp [privilegeName, NameHeld, name?, JsValue.isString, JsValue.ofCString, hempty]

theorem int_quota {n : JsNumber} : JsValue.int n.toInt32 = .num n ↔ ∃ i : Int32, JsValue.num n = .int i := by
  constructor
  · intro h
    exact ⟨_, h.symm⟩
  · rintro ⟨i, h⟩
    obtain rfl := JsValue.num.inj h
    rw [JsNumber.toInt32_ofInt32]
    rfl

theorem quota_returns : JsValue.int (quota v) = quotaGiven v ↔ Int32Held v := by
  cases v with
  | num n => simp only [quota, quotaGiven, isNumber, if_true, Int32Held, int_quota, forall_const]
  | _ => simp [quota, quotaGiven, isNumber, Int32Held]

theorem code_returns {n : JsNumber} :
    JsValue.int n.toUint32.toInt32 = .num n ↔ ∃ i : Int32, JsValue.num n = .int i := by
  have heq : n.toUint32.toInt32 = n.toInt32 := by
    rw [← n.toUInt32_toInt32]
    rfl
  rw [heq, int_quota]

theorem privilege_returns :
    (∃ p, privilegeRound v = .stored p ∧ p.toJs = privilegeGiven v) ↔ PrivilegeHeld v := by
  rw [privilegeRound, PrivilegeHeld, privilegeGiven, ← name_returns (by decide), ← name_returns (by decide)]
  cases v.isObject with
  | false => simp
  | true =>
    rw [if_pos rfl]
    cases hcode : v.field "code" with
    | num code =>
      rw [← code_returns]
      cases privilegeName (v.field "namespace") AS_NAMESPACE_MAX_SIZE with
      | none => simp
      | some ns =>
        cases privilegeName (v.field "set") AS_SET_MAX_SIZE with
        | none => simp
        | some set =>
          simp only [Round.stored.injEq, exists_eq_left', Privilege.toJs, JsValue.obj.injEq, List.cons.injEq,
            Prod.mk.injEq, true_and, and_true, Option.some.injEq]
          tauto
    | _ => simp [JsValue.int]

/-! ### All -/

/-- The elements of an array that are reported as they were given. -/
theorem forall₂_returns {α : Type} {round : JsValue → Round α} {toJs : α → JsValue} {given : JsValue → JsValue}
    {xs : List JsValue} : (∃ bs, (fill round xs).elements = some bs ∧ bs.map toJs = xs.map given) ↔
      ∀ x ∈ xs, ∃ b, round x = .stored b ∧ toJs b = given x := by
  simp only [elements_fill_eq_some]
  induction xs with
  | nil => simp
  | cons x xs ih =>
    rw [List.forall_mem_cons, ← ih]
    constructor
    · rintro ⟨_, h, heq⟩
      rcases h with _ | @⟨_, b, _, bs, hb, hbs⟩
      obtain ⟨h1, h2⟩ := List.cons.inj heq
      exact ⟨⟨b, hb, h1⟩, bs, hbs, h2⟩
    · rintro ⟨⟨b, hb, h1⟩, bs, hbs, h2⟩
      exact ⟨b :: bs, .cons hb hbs, by rw [List.map_cons, List.map_cons, h1, h2]⟩


theorem sent_eq_some : sent policy args = some r ↔ ∃ s ps ws, args.getD 0 .undefined = .str s ∧
    accepts args = true ∧ privileges (args.getD 1 .undefined) = some ps ∧
    ((args.getD 2 .undefined).isObject = true → policy (args.getD 2 .undefined) = true) ∧
    strings (args.getD 3 .undefined) = some ws ∧
    r = ⟨nativeStr s, quota (args.getD 4 .undefined), quota (args.getD 5 .undefined), ws, ps⟩ := by
  simp only [sent]
  cases hs : args.getD 0 .undefined with
  | str s =>
    have hpolicy : (!(args.getD 2 .undefined).isObject || policy (args.getD 2 .undefined)) = true ↔
        ((args.getD 2 .undefined).isObject = true → policy (args.getD 2 .undefined) = true) := by
      cases (args.getD 2 .undefined).isObject <;> simp
    simp only [Option.bind_eq_bind, Option.bind_eq_some_iff, Option.guard_eq_some', hpolicy, JsValue.str.injEq,
      Option.pure_def, Option.some.injEq]
    constructor
    · rintro ⟨-, haccepts, ps, hps, -, hpol, ws, hws, rfl⟩
      exact ⟨s, ps, ws, rfl, haccepts, hps, hpol, hws, rfl⟩
    · rintro ⟨_, ps, ws, rfl, haccepts, hps, hpol, hws, rfl⟩
      exact ⟨(), haccepts, ps, hps, (), hpol, ws, hws, rfl⟩
  | _ => simp

end

/-- The role that a call of `createRole` hands over is reported as the call gives it exactly if every part of it
is held by the type the C client has for it. -/
theorem role_returns_iff (policy : JsValue → Bool) (args : List JsValue) :
    (∃ r, sent policy args = some r ∧ r.toJs = given args) ↔ Held policy args := by
  have hstrings : ∀ v, (∃ ws, strings v = some ws ∧ ws.map JsValue.ofCString = elements? v) ↔
      ∀ x ∈ elements? v, IsText x := fun v => by
    cases v with
    | array xs =>
      have h : (∃ bs, (fill stringRound xs).elements = some bs ∧ bs.map JsValue.ofCString = xs.map id) ↔ _ :=
        forall₂_returns
      rw [List.map_id] at h
      simp only [id, string_returns] at h
      exact h
    | _ => simp [strings, elements?]
  have hprivileges : ∀ v,
      (∃ ps, privileges v = some ps ∧ ps.map Privilege.toJs = (elements? v).map privilegeGiven) ↔
        ∀ x ∈ elements? v, PrivilegeHeld x := fun v => by
    cases v with
    | array xs =>
      have h : (∃ ps, (fill privilegeRound xs).elements = some ps ∧
          ps.map Privilege.toJs = xs.map privilegeGiven) ↔ _ := forall₂_returns
      simp only [privilege_returns] at h
      exact h
    | _ => simp [privileges, elements?]
  constructor
  · rintro ⟨r, hsent, hr⟩
    obtain ⟨s, ps, ws, hs, haccepts, hps, hpolicy, hws, rfl⟩ := sent_eq_some.1 hsent
    simp only [AsRole.toJs, given, hs, JsValue.obj.injEq, List.cons.injEq, Prod.mk.injEq, true_and, and_true,
      JsValue.array.injEq] at hr
    obtain ⟨hname, hread, hwrite, hws', hps'⟩ := hr
    exact ⟨haccepts, ⟨s, hs, ofCString_nativeStr.1 hname⟩, (hprivileges _).1 ⟨ps, hps, hps'⟩, hpolicy,
      (hstrings _).1 ⟨ws, hws, hws'⟩, quota_returns.1 hread, quota_returns.1 hwrite⟩
  · rintro ⟨haccepts, ⟨s, hs, hclean⟩, hps, hpolicy, hws, hread, hwrite⟩
    obtain ⟨ps, hps, hps'⟩ := (hprivileges _).2 hps
    obtain ⟨ws, hws, hws'⟩ := (hstrings _).2 hws
    refine ⟨_, sent_eq_some.2 ⟨s, ps, ws, hs, haccepts, hps, hpolicy, hws, rfl⟩, ?_⟩
    simp only [AsRole.toJs, given, hs, hps', hws', quota_returns.2 hread, quota_returns.2 hwrite,
      ofCString_nativeStr.2 hclean]

end RoleCreate

end AerospikeNode
