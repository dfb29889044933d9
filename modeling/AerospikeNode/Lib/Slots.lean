import Mathlib.Data.List.Count
import Mathlib.Data.List.Nodup
import Mathlib.Data.List.Range
import Mathlib.Data.List.ReduceOption
import Mathlib.Data.List.Forall2
import Mathlib.Tactic.Common

/-!
# Arrays of pointers that a loop fills

A loop allocates an element for each item of a list and stores it in a slot of an array whose slots are
uninitialised at first; it stops at an item that is invalid, and reports how many slots are in use. A cleanup
loop later frees what is in those slots. The element allocated in round `i` belongs in slot `i`.

`cleaned_fill_iff`: the cleanup frees every element once and reads no uninitialised slot exactly if the round
that stopped the loop allocated nothing and reported its own index.
-/

namespace Slots

variable {α β : Type}

/-- The size that is reported by a round that fails: its index, the index after it, or that of the array. -/
inductive Size where
  | index
  | next
  | whole
deriving DecidableEq

/-- What a round does: it allocates an element and stores it, or it fails. -/
inductive Round (β : Type) where
  | stored (b : β)
  | failed (allocated : Bool) (size : Size)

def Round.isStored : Round β → Bool
  | stored _ => true
  | failed _ _ => false

/-- What the loop leaves; `none` is an uninitialised slot. The rounds below `allocated` have allocated. -/
structure Filling (β : Type) where
  ok : Bool
  slots : List (Option β)
  size : ℕ
  allocated : ℕ

/-- The array after the rounds that stored these elements. -/
def slotsOf (total : ℕ) (done : List β) : List (Option β) :=
  done.map some ++ List.replicate (total - done.length) none

def fillFrom (round : α → Round β) (total : ℕ) : List α → List β → Filling β
  | [], done => ⟨true, slotsOf total done, total, done.length⟩
  | x :: xs, done =>
    match round x with
    | .stored b => fillFrom round total xs (done ++ [b])
    | .failed allocated size =>
      { ok := false
        slots := slotsOf total done
        size := match size with
          | .index => done.length
          | .next => done.length + 1
          | .whole => total
        allocated := if allocated then done.length + 1 else done.length }

def fill (round : α → Round β) (xs : List α) : Filling β := fillFrom round xs.length xs []

namespace Filling

variable {f : Filling β}

/-- The slot holds the element of its round. -/
def Has (f : Filling β) (i : ℕ) : Prop := ∃ b, f.slots[i]? = some (some b)

/-- What the cleanup loop frees, slot by slot. -/
def cleanup (f : Filling β) : List (Option ℕ) :=
  (List.range f.size).map fun i => if (f.slots[i]?).join.isSome then some i else none

/-- The slots in use hold the elements, and the cleanup frees each of them once. -/
structure Cleaned (f : Filling β) : Prop where
  filled : ∀ i < f.size, i < f.allocated ∧ f.Has i
  stored : ∀ i < f.allocated, i < f.size ∧ f.Has i
  once : ∀ i < f.allocated, f.cleanup.count (some i) = 1
  initialised : none ∉ f.cleanup

/-- It is enough that the slots in use are those of the elements. -/
theorem Cleaned.of_slots (hsize : f.size = f.allocated) (hhas : ∀ i < f.allocated, f.Has i) : f.Cleaned := by
  have hcleanup : f.cleanup = (List.range f.allocated).map some := by
    rw [cleanup, hsize]
    refine List.map_congr_left fun i hi => ?_
    obtain ⟨b, hb⟩ := hhas i (List.mem_range.1 hi)
    rw [hb]
    rfl
  refine ⟨fun i hi => ⟨hsize ▸ hi, hhas i (hsize ▸ hi)⟩, fun i hi => ⟨hsize ▸ hi, hhas i hi⟩, fun i hi => ?_, ?_⟩
  · rw [hcleanup, List.count_map_of_injective _ _ fun _ _ => Option.some.inj]
    exact List.count_eq_one_of_mem List.nodup_range (List.mem_range.2 hi)
  · rw [hcleanup, List.mem_map]
    rintro ⟨i, -, hi⟩
    cases hi

end Filling

theorem slotsOf_getElem? {total : ℕ} {done : List β} {i : ℕ} {b : β} (h : (slotsOf total done)[i]? = some (some b)) :
    i < done.length := by
  by_contra hi
  rw [slotsOf, List.getElem?_append_right (by rw [List.length_map]; omega), List.getElem?_replicate] at h
  split_ifs at h
  cases h

theorem has_of_lt {f : Filling β} {total : ℕ} {done : List β} (hslots : f.slots = slotsOf total done) {i : ℕ}
    (hi : i < done.length) : f.Has i := by
  refine ⟨done[i], ?_⟩
  rw [hslots, slotsOf, List.getElem?_append_left (by rwa [List.length_map]), List.getElem?_map,
    List.getElem?_eq_getElem hi]
  rfl

theorem cleaned_iff {f : Filling β} {total : ℕ} (done : List β) (hslots : f.slots = slotsOf total done)
    (hallocated : done.length ≤ f.allocated) :
    f.Cleaned ↔ f.size = done.length ∧ f.allocated = done.length := by
  have hlt : ∀ {i}, f.Has i → i < done.length := fun ⟨b, hb⟩ => slotsOf_getElem? (hslots ▸ hb)
  constructor
  · intro h
    have hle : f.allocated ≤ done.length := by
      by_contra hlt'
      have := hlt (h.stored done.length (by omega)).2
      omega
    refine ⟨Nat.le_antisymm ?_ ?_, Nat.le_antisymm hle hallocated⟩
    · by_contra hlt'
      have := hlt (h.filled done.length (by omega)).2
      omega
    · by_contra hlt'
      have := (h.stored f.size (by omega)).1
      omega
  · rintro ⟨hsize, heq⟩
    refine .of_slots (hsize.trans heq.symm) fun i hi => has_of_lt hslots ?_
    omega

theorem cleaned_fillFrom_iff {round : α → Round β} {total : ℕ} {xs : List α} {done : List β}
    (htotal : total = done.length + xs.length) : (fillFrom round total xs done).Cleaned ↔
      ∀ x ∈ xs.find? fun x => !(round x).isStored, round x = .failed false .index := by
  induction xs generalizing done with
  | nil =>
    rw [List.length_nil, Nat.add_zero] at htotal
    have hiff := cleaned_iff (f := fillFrom round total [] done) done rfl le_rfl
    exact hiff.trans (iff_of_true ⟨htotal, rfl⟩ nofun)
  | cons x xs ih =>
    rw [List.length_cons] at htotal
    cases hx : round x with
    | stored b =>
      have hfill : fillFrom round total (x :: xs) done = fillFrom round total xs (done ++ [b]) := by
        rw [fillFrom, hx]
      have htotal' : total = (done ++ [b]).length + xs.length := by
        rw [List.length_append, List.length_singleton]
        omega
      rw [hfill, ih htotal', List.find?_cons, hx]
      rfl
    | failed allocated size =>
      have hfind : (x :: xs).find? (fun x => !(round x).isStored) = some x := by
        rw [List.find?_cons, hx]
        rfl
      rw [hfind, fillFrom, hx]
      have hall : (∀ y ∈ some x, round y = .failed false .index) ↔ allocated = false ∧ size = .index := by
        constructor
        · intro h
          have := hx.symm.trans (h x rfl)
          exact ⟨(Round.failed.inj this).1, (Round.failed.inj this).2⟩
        · rintro ⟨rfl, rfl⟩ y hy
          rw [← Option.some.inj hy]
          exact hx
      rw [hall]
      dsimp only
      rw [cleaned_iff done rfl]
      · have hwhole : total ≠ done.length := by omega
        cases size with
        | index => cases allocated <;> simp
        | next => cases allocated <;> simp
        | whole => cases allocated <;> simp [hwhole]
      · dsimp only
        split_ifs <;> omega

/-- The cleanup is right exactly if the first invalid item, if there is one, fails before anything is allocated
for it and its index is reported as the size. -/
theorem cleaned_fill_iff {round : α → Round β} {xs : List α} : (fill round xs).Cleaned ↔
    ∀ x ∈ xs.find? fun x => !(round x).isStored, round x = .failed false .index :=
  cleaned_fillFrom_iff (Nat.zero_add _).symm

/-- The elements of an array that was filled; `none` if a round has failed. -/
def Filling.elements (f : Filling β) : Option (List β) := if f.ok then some f.slots.reduceOption else none

theorem elements_fillFrom_eq_some {round : α → Round β} {total : ℕ} {xs : List α} {done bs : List β}
    (htotal : total = done.length + xs.length) : (fillFrom round total xs done).elements = some bs ↔
      ∃ cs, bs = done ++ cs ∧ List.Forall₂ (fun x b => round x = .stored b) xs cs := by
  induction xs generalizing done with
  | nil =>
    have hslots : (slotsOf total done).reduceOption = done := by
      rw [slotsOf, htotal, List.length_nil, Nat.add_zero, Nat.sub_self, List.replicate_zero, List.append_nil]
      simp [List.reduceOption]
    simp [fillFrom, Filling.elements, hslots, eq_comm]
  | cons x xs ih =>
    rw [List.length_cons] at htotal
    cases hx : round x with
    | stored b =>
      have hfill : fillFrom round total (x :: xs) done = fillFrom round total xs (done ++ [b]) := by
        rw [fillFrom, hx]
      have htotal' : total = (done ++ [b]).length + xs.length := by
        rw [List.length_append, List.length_singleton]
        omega
      rw [hfill, ih htotal']
      constructor
      · rintro ⟨cs, rfl, hcs⟩
        exact ⟨b :: cs, by simp, .cons hx hcs⟩
      · rintro ⟨_, rfl, hcs⟩
        rcases hcs with _ | @⟨_, c, _, cs, hc, hcs⟩
        obtain rfl := Round.stored.inj (hx.symm.trans hc)
        exact ⟨cs, by simp, hcs⟩
    | failed allocated size =>
      have hnone : (fillFrom round total (x :: xs) done).elements = none := by
        rw [fillFrom, hx]
        rfl
      rw [hnone]
      refine iff_of_false nofun ?_
      rintro ⟨_, -, hcs⟩
      rcases hcs with _ | @⟨_, c, _, cs, hc, -⟩
      rw [hx] at hc
      cases hc

/-- The elements are those of the rounds, in the order of the items. -/
theorem elements_fill_eq_some {round : α → Round β} {xs : List α} {bs : List β} :
    (fill round xs).elements = some bs ↔ List.Forall₂ (fun x b => round x = .stored b) xs bs := by
  rw [fill, elements_fillFrom_eq_some (Nat.zero_add _).symm]
  simp

end Slots
