import AerospikeNode.Lib.Slots
import AerospikeNode.Rec.Key

/-!
# Arrays of strings and of privileges

`string_from_jsarray` and `privileges_from_jsarray` (`src/main/util/conversions.cc`), by which the commands
for users and roles convert their arrays. When one of them fails, the command frees what is in the slots below
the size that it has set, and then the array.
-/

namespace AerospikeNode

open Slots

/-- `as_privilege` -/
structure Privilege where
  code : UInt32
  ns : Bytes
  set : Bytes
deriving DecidableEq

/-- A round of `string_from_jsarray`. -/
def stringRound : JsValue → Round Bytes
  | .str s => .stored (nativeStr s)
  | _ => .failed false .index

def stringFromJsarray (stringArray : List JsValue) : Filling Bytes := fill stringRound stringArray

/-- A name copied into a buffer, if it is a string; `none` where it is longer than the buffer. -/
def privilegeName (v : JsValue) (size : ℕ) : Option Bytes :=
  match v with
  | .str s =>
    if size < (strlcpy (nativeStr s) size).2 then none else some (strlcpy (nativeStr s) size).1
  | _ => some []

/-- A round of `privileges_from_jsarray`. The privilege is allocated before its properties are read, and stored
when all are converted. -/
def privilegeRound (maybePrivilege : JsValue) : Round Privilege :=
  if maybePrivilege.isObject then
    match maybePrivilege.field "code" with
    | .num code =>
      match privilegeName (maybePrivilege.field "namespace") AS_NAMESPACE_MAX_SIZE with
      | none => .failed true .whole
      | some ns =>
        match privilegeName (maybePrivilege.field "set") AS_SET_MAX_SIZE with
        | none => .failed true .next
        | some set => .stored ⟨code.toUint32, ns, set⟩
    | _ => .failed true .next
  else .failed false .index

def privilegesFromJsarray (privilegeArray : List JsValue) : Filling Privilege := fill privilegeRound privilegeArray

theorem isStored_stringRound (v : JsValue) (h : (stringRound v).isStored = false) :
    stringRound v = .failed false .index := by
  cases v with
  | str s => cases h
  | _ => rfl

/-- Only a value that is no object fails before its privilege is allocated. -/
theorem privilegeRound_eq_index_iff (v : JsValue) : privilegeRound v = .failed false .index ↔ v.isObject = false := by
  unfold privilegeRound
  split_ifs with hobj
  · refine iff_of_false (fun h => ?_) (fun h => ?_)
    · split at h
      · split at h
        · cases h
        · split at h
          · cases h
          · cases h
      · cases h
    · rw [h] at hobj
      cases hobj
  · exact iff_of_true rfl (Bool.eq_false_iff.2 hobj)

/-- A name that is not longer than its buffer. -/
def nameFits (v : JsValue) (size : ℕ) : Bool :=
  match v with
  | .str s => decide ((nativeStr s).length ≤ size)
  | _ => true

def isNumber : JsValue → Bool
  | .num _ => true
  | _ => false

/-- A privilege that is converted. -/
def validPrivilege (v : JsValue) : Bool :=
  v.isObject && isNumber (v.field "code") && nameFits (v.field "namespace") AS_NAMESPACE_MAX_SIZE &&
    nameFits (v.field "set") AS_SET_MAX_SIZE

theorem isSome_privilegeName (v : JsValue) (size : ℕ) : (privilegeName v size).isSome = nameFits v size := by
  cases v with
  | str s =>
    have hlen : (strlcpy (nativeStr s) size).2 = (nativeStr s).length := rfl
    rw [privilegeName, nameFits, hlen]
    by_cases h : size < (nativeStr s).length
    · rw [if_pos h, decide_eq_false (Nat.not_le.2 h)]
      rfl
    · rw [if_neg h, decide_eq_true (Nat.not_lt.1 h)]
      rfl
  | _ => rfl

theorem isStored_privilegeRound (v : JsValue) : (privilegeRound v).isStored = validPrivilege v := by
  rw [privilegeRound, validPrivilege, ← isSome_privilegeName, ← isSome_privilegeName]
  cases v.isObject with
  | false => rfl
  | true =>
    rw [if_pos rfl, Bool.true_and]
    cases v.field "code" with
    | num code =>
      cases privilegeName (v.field "namespace") AS_NAMESPACE_MAX_SIZE with
      | none => rfl
      | some ns => cases privilegeName (v.field "set") AS_SET_MAX_SIZE <;> rfl
    | _ => rfl

/-- The cleanup after `string_from_jsarray` is always right; after `privileges_from_jsarray` it is exactly if the
first invalid privilege, if there is one, is no object. -/
theorem arrays_cleaned_iff (stringArray privilegeArray : List JsValue) :
    (stringFromJsarray stringArray).Cleaned ∧
      ((privilegesFromJsarray privilegeArray).Cleaned ↔
        ∀ v ∈ privilegeArray.find? fun v => !validPrivilege v, v.isObject = false) := by
  constructor
  · refine cleaned_fill_iff.2 fun v hv => ?_
    have hnot := List.find?_some hv
    rw [Bool.not_eq_true'] at hnot
    exact isStored_stringRound v hnot
  · have hfind : (fun v => !(privilegeRound v).isStored) = fun v => !validPrivilege v :=
      funext fun v => congrArg (! ·) (isStored_privilegeRound v)
    rw [privilegesFromJsarray, cleaned_fill_iff, hfind]
    exact forall₂_congr fun v _ => privilegeRound_eq_index_iff v

/-- A privilege whose code is no number: its slot is read but was not written, and the privilege is not freed. -/
theorem privilege_without_code_not_cleaned :
    (privilegesFromJsarray [.plain []]).cleanup = [none] ∧ (privilegesFromJsarray [.plain []]).allocated = 1 ∧
      ¬ (privilegesFromJsarray [.plain []]).Cleaned := by
  refine ⟨rfl, rfl, fun h => ?_⟩
  exact h.initialised (.head _)

end AerospikeNode
