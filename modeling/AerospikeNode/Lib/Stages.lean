import AerospikeNode.Lib.Ledger
import Mathlib.Data.List.Nodup

/-!
# Stages

A function that acquires resources in stages, leaves at the first stage that fails and then releases
what it has kept track of. A stage that fails may have acquired something already; unless the function
tracks it even so, it is lost. What a stage leaks nobody tracks, also if it succeeds.

`count_heldBy_iff`: what was acquired is held for the release at the end, each resource once, exactly if the
stage that fails loses nothing; with what was leaked (`count_heldBy_leaked_iff`), if there was none.
-/

structure Stage (ρ ε : Type*) where
  ok : Bool
  /-- What the function reports if the stage fails. -/
  error : ε
  acquired : List ρ
  /-- What the stage has acquired is released at the end also if it fails. -/
  tracked : Bool
  /-- What the stage acquires besides and forgets. -/
  leaked : List ρ

namespace Stage

variable {ρ ε : Type*} {stages : List (Stage ρ ε)} {s : Stage ρ ε} {r : ρ}

/-- What the function knows it has to release. -/
def held (s : Stage ρ ε) : List ρ := if s.ok || s.tracked then s.acquired else []

/-- What the function forgets. -/
def lost (s : Stage ρ ε) : List ρ := if s.ok || s.tracked then [] else s.acquired

/-- The stages that are entered: those up to the first that fails. -/
def entered : List (Stage ρ ε) → List (Stage ρ ε)
  | [] => []
  | s :: stages => s :: if s.ok then entered stages else []

/-- The stage the function leaves at. -/
def failed (stages : List (Stage ρ ε)) : Option (Stage ρ ε) := stages.find? fun s => !s.ok

def acquiredBy (stages : List (Stage ρ ε)) : List ρ := (entered stages).flatMap acquired

def heldBy (stages : List (Stage ρ ε)) : List ρ := (entered stages).flatMap held

def leakedBy (stages : List (Stage ρ ε)) : List ρ := (entered stages).flatMap leaked

theorem held_of_ok (h : s.ok = true) : s.held = s.acquired := by simp [held, h]

theorem lost_of_ok (h : s.ok = true) : s.lost = [] := by simp [lost, h]

theorem held_append_lost (s : Stage ρ ε) : s.held ++ s.lost = s.acquired := by
  unfold held lost; split <;> simp

@[simp]
theorem entered_cons_ok (h : s.ok = true) : entered (s :: stages) = s :: entered stages := by
  simp [entered, h]

@[simp]
theorem entered_cons_fail (h : s.ok = false) : entered (s :: stages) = [s] := by
  simp [entered, h]

theorem failed_cons_ok (h : s.ok = true) : failed (s :: stages) = failed stages := by
  simp [failed, h]

theorem failed_cons_fail (h : s.ok = false) : failed (s :: stages) = some s := by
  simp [failed, h]

theorem failed_eq_none : failed stages = none ↔ ∀ s ∈ stages, s.ok = true := by
  simp [failed]

theorem entered_sublist (stages : List (Stage ρ ε)) : (entered stages).Sublist stages := by
  induction stages with
  | nil => exact List.Sublist.refl _
  | cons s stages ih =>
    cases h : s.ok with
    | true =>
      rw [entered_cons_ok h]
      exact ih.cons_cons s
    | false =>
      rw [entered_cons_fail h]
      exact (List.nil_sublist stages).cons_cons s

/-- What is acquired is held, but for what the stage that fails loses. -/
theorem acquiredBy_eq (stages : List (Stage ρ ε)) :
    acquiredBy stages = heldBy stages ++ ((failed stages).elim [] lost) := by
  induction stages with
  | nil => rfl
  | cons s stages ih =>
    unfold acquiredBy heldBy at *
    cases h : s.ok with
    | true => simp [h, ih, failed_cons_ok h, held_of_ok h]
    | false => simp [h, failed_cons_fail h, held_append_lost]

theorem heldBy_sublist (stages : List (Stage ρ ε)) : (heldBy stages).Sublist (acquiredBy stages) := by
  rw [acquiredBy_eq]
  exact List.sublist_append_left ..

/-- If the stages behind the first leak nothing, that is all that is leaked. -/
theorem leakedBy_cons (h : ∀ t ∈ stages, t.leaked = []) : leakedBy (s :: stages) = s.leaked := by
  have hrest : leakedBy stages = [] := by
    rw [leakedBy, List.flatMap_eq_nil_iff]
    intro t ht
    exact h t ((entered_sublist stages).subset ht)
  unfold leakedBy at hrest ⊢
  cases hs : s.ok with
  | true => rw [entered_cons_ok hs, List.flatMap_cons, hrest, List.append_nil]
  | false => rw [entered_cons_fail hs, List.flatMap_singleton]

theorem acquiredBy_sublist (stages : List (Stage ρ ε)) :
    (acquiredBy stages).Sublist (stages.flatMap acquired) := by
  induction stages with
  | nil => exact List.Sublist.refl _
  | cons s stages ih =>
    unfold acquiredBy at *
    cases h : s.ok with
    | true =>
      rw [entered_cons_ok h, List.flatMap_cons, List.flatMap_cons]
      exact ih.append_left _
    | false =>
      rw [entered_cons_fail h, List.flatMap_cons, List.flatMap_cons]
      exact (List.nil_sublist _).append_left _

variable [DecidableEq ρ]

/-- With distinct resources, each that was acquired is held once exactly if nothing is lost. -/
theorem count_heldBy_iff (hnodup : (acquiredBy stages).Nodup) :
    (∀ r ∈ acquiredBy stages, (heldBy stages).count r = 1) ↔
      ∀ s, failed stages = some s → s.lost = [] := by
  have heq := acquiredBy_eq stages
  constructor
  · intro h s hs
    rw [hs, Option.elim_some] at heq
    rw [List.eq_nil_iff_forall_not_mem]
    intro r hr
    have hmem : r ∈ acquiredBy stages := by simp [heq, hr]
    have hone := List.count_eq_one_of_mem hnodup hmem
    rw [heq, List.count_append, h r hmem] at hone
    have := List.count_pos_iff.mpr hr
    omega
  · intro h r hr
    have hheld : heldBy stages = acquiredBy stages := by
      cases hf : failed stages with
      | none => simp [heq, hf]
      | some s => simp [heq, hf, h s hf]
    rw [hheld]
    exact List.count_eq_one_of_mem hnodup hr

/-- Each resource is held once exactly if nothing is lost and nothing was leaked. -/
theorem count_heldBy_leaked_iff (hnodup : (acquiredBy stages ++ leakedBy stages).Nodup) :
    (∀ r ∈ acquiredBy stages ++ leakedBy stages, (heldBy stages).count r = 1) ↔
      (∀ s, failed stages = some s → s.lost = []) ∧ leakedBy stages = [] := by
  obtain ⟨hacquired, -, hdisjoint⟩ := List.nodup_append.mp hnodup
  rw [List.forall_mem_append, count_heldBy_iff hacquired]
  refine and_congr_right fun _ => ?_
  constructor
  · intro h
    rw [List.eq_nil_iff_forall_not_mem]
    intro r hr
    have hheld : r ∈ heldBy stages := List.count_pos_iff.mp (by rw [h r hr]; exact Nat.one_pos)
    exact hdisjoint r ((heldBy_sublist stages).subset hheld) r hr rfl
  · intro h r hr
    rw [h] at hr
    exact absurd hr List.not_mem_nil

end Stage
