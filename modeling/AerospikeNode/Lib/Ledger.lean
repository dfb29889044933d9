import Mathlib.Data.List.Count
import Mathlib.Data.List.Pairwise
import Mathlib.Tactic.Common

/-!
# Ledgers of resources

A ledger lists what a program does with the resources it owns: each use and each release, in order.
-/

inductive Access (ρ : Type*) where
  | use (r : ρ)
  | release (r : ρ)
deriving DecidableEq

namespace Access

variable {ρ : Type*} {l l' : List (Access ρ)} {r : ρ}

/-- No resource is used after its release. -/
def NoUseAfterRelease (l : List (Access ρ)) : Prop :=
  l.Pairwise fun a b => ∀ r, a = release r → b ≠ use r

/-- How often the resource is released. -/
def releases [DecidableEq ρ] (l : List (Access ρ)) (r : ρ) : ℕ := l.count (release r)

theorem noUseAfterRelease_iff : NoUseAfterRelease l ↔
    ∀ r before later, l = before ++ release r :: later → use r ∉ later := by
  constructor
  · rintro h r before later rfl hmem
    rw [NoUseAfterRelease, List.pairwise_append, List.pairwise_cons] at h
    exact h.2.1.1 _ hmem r rfl rfl
  · intro h
    induction l with
    | nil => exact List.Pairwise.nil
    | cons a l ih =>
      refine List.pairwise_cons.mpr ⟨?_, ih fun r before later hl =>
        h r (a :: before) later (by rw [hl]; rfl)⟩
      rintro b hb r rfl rfl
      exact h r [] l rfl hb

theorem NoUseAfterRelease.of_none (h : ∀ r, release r ∉ l) : NoUseAfterRelease l := by
  refine noUseAfterRelease_iff.mpr ?_
  rintro r before later rfl
  exact absurd (by simp) (h r)

theorem NoUseAfterRelease.append (h : NoUseAfterRelease l) (h' : NoUseAfterRelease l')
    (hsep : ∀ r, release r ∈ l → use r ∉ l') : NoUseAfterRelease (l ++ l') := by
  refine List.pairwise_append.mpr ⟨h, h', ?_⟩
  rintro a ha b hb r rfl rfl
  exact hsep r ha hb

theorem NoUseAfterRelease.uses (rs : List ρ) : NoUseAfterRelease (rs.map use) :=
  .of_none fun r h => by simp at h

theorem NoUseAfterRelease.releases (rs : List ρ) : NoUseAfterRelease (rs.map release) := by
  refine List.Pairwise.imp_of_mem (R := fun _ _ => True) ?_ (List.pairwise_of_forall fun _ _ => trivial)
  rintro a b - hb - r - rfl
  simp at hb

variable [DecidableEq ρ]

@[simp]
theorem releases_nil : releases ([] : List (Access ρ)) r = 0 := rfl

@[simp]
theorem releases_append : releases (l ++ l') r = releases l r + releases l' r :=
  List.count_append

@[simp]
theorem releases_cons_use {r' : ρ} : releases (use r' :: l) r = releases l r := by
  simp [releases]

@[simp]
theorem releases_map_use {rs : List ρ} : releases (rs.map use) r = 0 := by
  rw [releases, List.count_eq_zero]
  simp

/-- What a list of releases releases. -/
@[simp]
theorem releases_map_release {rs : List ρ} : releases (rs.map release) r = rs.count r :=
  List.count_map_of_injective rs release (fun _ _ h => release.inj h) r

theorem releases_eq_zero : releases l r = 0 ↔ release r ∉ l := List.count_eq_zero

end Access
