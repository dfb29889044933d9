import Mathlib.Data.List.Basic
import Mathlib.Logic.Function.Basic
import Mathlib.Tactic.Common

/-!
# Records filled from a table

A record of fields `F` starts with default values; each row of a table reads one field from an input, which
may leave it out or be rejected. The rows are read in order up to the first that is rejected.

`fill_ok`: with every row accepted, a field holds what its row has read, or what it started with.
-/

/-- A row: the field and how it is read. -/
structure FieldRow (ι F V ε : Type*) where
  field : F
  read : ι → Except ε (Option V)

namespace FieldRow

variable {ι F V ε : Type*} {table l m : List (FieldRow ι F V ε)} {input : ι} {s : F → V} {r : FieldRow ι F V ε}

/-- The rows accept the input. -/
def Accepts (table : List (FieldRow ι F V ε)) (input : ι) : Prop :=
  ∀ r ∈ table, ∃ v, r.read input = .ok v

/-- A field is read in one way only. -/
def Consistent (table : List (FieldRow ι F V ε)) : Prop :=
  ∀ r ∈ table, ∀ r' ∈ table, r.field = r'.field → r.read = r'.read

theorem Consistent.tail (h : Consistent (r :: table)) : Consistent table :=
  fun q hq q' hq' => h q (.tail _ hq) q' (.tail _ hq')

/-- A table of one way to read each field, if a field is read at all. -/
theorem consistent_map (read : F → ι → Except ε (Option V)) (l : List F) :
    Consistent (l.map fun f => ⟨f, read f⟩) := by
  intro r hr r' hr' h
  obtain ⟨f, -, rfl⟩ := List.mem_map.mp hr
  obtain ⟨f', -, rfl⟩ := List.mem_map.mp hr'
  exact congrArg read h

theorem accepts_map {read : F → ι → Except ε (Option V)} {l : List F} :
    Accepts (l.map fun f => ⟨f, read f⟩) input ↔ ∀ f ∈ l, ∃ v, read f input = .ok v := by
  simp [Accepts]

variable [DecidableEq F]

/-- The row is read into the record. -/
def store (r : FieldRow ι F V ε) (v : Option V) (s : F → V) : F → V :=
  v.elim s fun v => Function.update s r.field v

/-- The rows are read into the record, which is left as it is when one is rejected. -/
def fill : List (FieldRow ι F V ε) → ι → (F → V) → (F → V) × Except ε Unit
  | [], _, s => (s, .ok ())
  | r :: table, input, s =>
    match r.read input with
    | .ok v => fill table input (r.store v s)
    | .error e => (s, .error e)

/-- The value that the input gives to a field. -/
def found (table : List (FieldRow ι F V ε)) (input : ι) (f : F) : Option V :=
  (table.find? fun r => r.field = f).bind fun r => (r.read input).toOption.join

@[simp]
theorem fill_nil : fill ([] : List (FieldRow ι F V ε)) input s = (s, .ok ()) := rfl

theorem fill_cons_ok {v : Option V} (h : r.read input = .ok v) :
    fill (r :: table) input s = fill table input (r.store v s) := by
  rw [fill, h]

theorem fill_cons_error {e : ε} (h : r.read input = .error e) : fill (r :: table) input s = (s, .error e) := by
  rw [fill, h]

theorem store_of_ne {v : Option V} {f : F} (h : f ≠ r.field) : r.store v s f = s f := by
  cases v with
  | none => rfl
  | some v => exact Function.update_of_ne h ..

theorem store_self {v : Option V} : r.store v s r.field = v.getD (s r.field) := by
  cases v with
  | none => rfl
  | some v => exact Function.update_self ..

theorem fill_accepted : (fill table input s).2 = .ok () ↔ Accepts table input := by
  induction table generalizing s with
  | nil => simp [Accepts]
  | cons r table ih =>
    cases h : r.read input with
    | ok v =>
      rw [fill_cons_ok h, ih]
      simp [Accepts, h]
    | error e =>
      rw [fill_cons_error h]
      simp [Accepts, h]

/-- Rows that find nothing make no difference. -/
theorem fill_filter {keep : FieldRow ι F V ε → Bool} (h : ∀ r ∈ table, keep r = false → r.read input = .ok none) :
    fill table input s = fill (table.filter keep) input s := by
  induction table generalizing s with
  | nil => rfl
  | cons r table ih =>
    have htail := fun s => ih (s := s) fun q hq => h q (.tail _ hq)
    cases hk : keep r with
    | true =>
      rw [List.filter_cons_of_pos hk, fill, fill]
      cases r.read input with
      | ok v => exact htail _
      | error e => rfl
    | false =>
      rw [List.filter_cons_of_neg (by simp [hk]), fill_cons_ok (h r (.head _) hk)]
      exact htail s

/-- A field that no row finds a value for keeps its value, also if a row is rejected. -/
theorem fill_of_unread {f : F} (h : ∀ r ∈ table, r.field = f → r.read input = .ok none) :
    (fill table input s).1 f = s f := by
  induction table generalizing s with
  | nil => rfl
  | cons r table ih =>
    have htail := fun s => ih (s := s) fun q hq => h q (.tail _ hq)
    cases hr : r.read input with
    | error e => rw [fill_cons_error hr]
    | ok v =>
      rw [fill_cons_ok hr, htail]
      by_cases hf : r.field = f
      · obtain rfl : v = none := by
          rw [h r (.head _) hf] at hr
          exact (Except.ok.inj hr).symm
        rfl
      · exact store_of_ne (Ne.symm hf)

theorem fill_of_notMem {f : F} (h : ∀ r ∈ table, r.field ≠ f) : (fill table input s).1 f = s f :=
  fill_of_unread fun r hr hf => absurd hf (h r hr)

/-- What an accepted table leaves in a field, whatever the field held while other rows were read. -/
theorem fill_mem {v : Option V} (hc : Consistent table) (ha : Accepts table input) (hr : r ∈ table)
    (hv : r.read input = .ok v) : (fill table input s).1 r.field = v.getD (s r.field) := by
  induction table generalizing s r with
  | nil => cases hr
  | cons q table ih =>
    obtain ⟨w, hw⟩ := ha q (.head _)
    have htail : Accepts table input := fun p hp => ha p (.tail _ hp)
    rw [fill_cons_ok hw]
    by_cases hlater : ∃ p ∈ table, p.field = r.field
    · obtain ⟨p, hp, hpf⟩ := hlater
      have hread : p.read input = .ok v := by rw [hc p (.tail _ hp) r hr hpf, hv]
      rw [← hpf, ih hc.tail htail hp hread, hpf]
      by_cases hq : q.field = r.field
      · have : w = v := by
          rw [hc q (.head _) r hr hq, hv] at hw
          exact (Except.ok.inj hw).symm
        rw [← hq, store_self, this]
        cases v <;> rfl
      · rw [store_of_ne (Ne.symm hq)]
    · rw [fill_of_notMem fun p hp hpf => hlater ⟨p, hp, hpf⟩]
      rcases List.mem_cons.mp hr with rfl | hr
      · rw [hv] at hw
        obtain rfl := Except.ok.inj hw
        exact store_self
      · exact absurd ⟨r, hr, rfl⟩ hlater

/-- An accepted table leaves in each field what its row has read, or what it held before. -/
theorem fill_ok (hc : Consistent table) (ha : Accepts table input) (f : F) :
    (fill table input s).1 f = (found table input f).getD (s f) := by
  rw [found]
  cases h : table.find? fun r => r.field = f with
  | none =>
    refine fill_of_notMem fun r hr hf => ?_
    have := List.find?_eq_none.mp h r hr
    simp [hf] at this
  | some r =>
    have hr := List.mem_of_find?_eq_some h
    have hf : r.field = f := by simpa using List.find?_some h
    obtain ⟨v, hv⟩ := ha r hr
    rw [← hf, fill_mem hc ha hr hv, Option.bind_some, hv]
    rfl

theorem found_map {read : F → ι → Except ε (Option V)} {l : List F} {f : F} (h : f ∈ l) :
    found (l.map fun f => ⟨f, read f⟩) input f = (read f input).toOption.join := by
  induction l with
  | nil => cases h
  | cons g l ih =>
    by_cases hg : g = f
    · subst hg
      simp [found]
    · have hmem := List.mem_of_ne_of_mem (Ne.symm hg) h
      simpa [found, hg] using ih hmem

/-- Tables with the same fields that read two inputs alike fill a record alike. -/
theorem fill_congr {ι' : Type*} {table' : List (FieldRow ι' F V ε)} {input' : ι'}
    (h : List.Forall₂ (fun r r' => r.field = r'.field ∧ r.read input = r'.read input') table table') :
    fill table input s = fill table' input' s := by
  induction h generalizing s with
  | nil => rfl
  | @cons r r' table table' hr _ ih =>
    obtain ⟨hf, hv⟩ := hr
    rw [fill, fill, hv]
    cases r'.read input' with
    | ok v =>
      have hstore : r.store v s = r'.store v s := by rw [store, store, hf]
      show fill table input (r.store v s) = fill table' input' (r'.store v s)
      rw [hstore, ih]
    | error e => rfl

end FieldRow
