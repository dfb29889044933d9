import Mathlib.Data.List.Perm.Basic
import Mathlib.Tactic.Common

/-!
# Work queues

Works that a number of threads do in the background. A thread that is free takes the work that has waited
longest and may be done with it at any time; what is done is handed back in the order in which it was done.

Between its submission and its return a work is neither lost nor doubled (`works_submit`, `works_take`,
`perm_finish`, `works_of_done`), and with one thread the works come back in the order in which they were
submitted (`works_finish`).
-/

structure WorkQueue (ω : Type*) where
  queued : List ω
  running : List ω
  done : List ω

namespace WorkQueue

variable {ω : Type*} {q : WorkQueue ω} {w : ω}

def empty : WorkQueue ω := ⟨[], [], []⟩

def submit (q : WorkQueue ω) (w : ω) : WorkQueue ω := { q with queued := q.queued ++ [w] }

def take (threads : ℕ) (q : WorkQueue ω) : WorkQueue ω :=
  match q.queued with
  | [] => q
  | w :: ws => if q.running.length < threads then { q with queued := ws, running := q.running ++ [w] } else q

def finish (q : WorkQueue ω) (i : ℕ) : WorkQueue ω :=
  match q.running[i]? with
  | none => q
  | some w => { q with running := q.running.eraseIdx i, done := q.done ++ [w] }

def handBack (q : WorkQueue ω) : WorkQueue ω := { q with done := q.done.tail }

/-- The works that have not been handed back, in the order in which one thread would do them. -/
def works (q : WorkQueue ω) : List ω := q.done ++ q.running ++ q.queued

@[simp]
theorem works_submit : (q.submit w).works = q.works ++ [w] := by
  simp [works, submit]

@[simp]
theorem works_take (threads : ℕ) : (q.take threads).works = q.works := by
  unfold take
  split
  · rfl
  · rename_i h
    split_ifs
    · simp [works, h]
    · rfl

theorem perm_finish (i : ℕ) : (q.finish i).works.Perm q.works := by
  unfold finish
  split
  · exact List.Perm.refl _
  · rename_i w h
    obtain ⟨hi, rfl⟩ := List.getElem?_eq_some_iff.mp h
    show (q.done ++ [q.running[i]] ++ q.running.eraseIdx i ++ q.queued).Perm (q.done ++ q.running ++ q.queued)
    rw [List.append_assoc q.done]
    exact ((List.getElem_cons_eraseIdx_perm hi).append_left q.done).append_right q.queued

theorem works_of_done {ds : List ω} (h : q.done = w :: ds) : q.works = w :: q.handBack.works := by
  simp [works, handBack, h]

/-! ### One thread -/

theorem running_take {threads n : ℕ} (hn : threads ≤ n) (h : q.running.length ≤ n) :
    (q.take threads).running.length ≤ n := by
  unfold take
  split
  · exact h
  · split_ifs with hlt
    · rw [List.length_append]
      exact Nat.le_trans hlt hn
    · exact h

theorem running_finish (i : ℕ) : (q.finish i).running.length ≤ q.running.length := by
  unfold finish
  split
  · exact Nat.le_refl _
  · exact List.length_eraseIdx_le _ _

theorem works_finish (h : q.running.length ≤ 1) (i : ℕ) : (q.finish i).works = q.works := by
  unfold finish
  split
  · rfl
  · rename_i w hi
    obtain ⟨hlt, rfl⟩ := List.getElem?_eq_some_iff.mp hi
    obtain ⟨v, hv⟩ := List.length_eq_one_iff.mp (Nat.le_antisymm h (Nat.zero_lt_of_lt hlt))
    obtain rfl : i = 0 := by omega
    simp [works, hv]

end WorkQueue
