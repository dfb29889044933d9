import Mathlib.Data.List.Forall2
import Mathlib.Data.List.Nodup
import Mathlib.Tactic.Common

/-!
# Association lists with replacement

`set` gives a key its value where the key stands, or adds the entry at the end: a map that keeps
insertion order. Setting entries one after the other loses one exactly when two keys agree.
-/

namespace Assoc

variable {κ β : Type} [DecidableEq κ] {es cs : List (κ × β)} {k k' : κ} {v : β}

def set (es : List (κ × β)) (k : κ) (v : β) : List (κ × β) :=
  if es.any (·.1 = k) then es.map fun e => if e.1 = k then (k, v) else e
  else es ++ [(k, v)]

omit [DecidableEq κ] in
theorem key_mem {c : κ × β} (h : c ∈ cs) : c.1 ∈ cs.map Prod.fst := List.mem_map_of_mem h

theorem any_key_iff : es.any (fun e => decide (e.1 = k)) = true ↔ k ∈ es.map Prod.fst := by
  rw [List.any_eq_true, List.mem_map]
  constructor
  · rintro ⟨e, he, hk⟩
    exact ⟨e, he, of_decide_eq_true hk⟩
  · rintro ⟨e, he, hk⟩
    exact ⟨e, he, decide_eq_true hk⟩

theorem set_of_notMem (h : k ∉ es.map Prod.fst) : set es k v = es ++ [(k, v)] := by
  rw [set, if_neg (mt any_key_iff.1 h)]

theorem keys_set_of_mem (h : k ∈ es.map Prod.fst) : (set es k v).map Prod.fst = es.map Prod.fst := by
  rw [set, if_pos (any_key_iff.2 h), List.map_map]
  refine List.map_congr_left fun e _ => ?_
  by_cases he : e.1 = k
  · simp [he]
  · simp [he]

theorem mem_keys_set : k' ∈ (set es k v).map Prod.fst ↔ k' ∈ es.map Prod.fst ∨ k' = k := by
  by_cases h : k ∈ es.map Prod.fst
  · rw [keys_set_of_mem h]
    constructor
    · exact .inl
    · rintro (h' | rfl)
      · exact h'
      · exact h
  · rw [set_of_notMem h, List.map_append, List.mem_append, List.map_singleton, List.mem_singleton]

theorem mem_set {e : κ × β} : e ∈ set es k v ↔ if k = e.1 then e.2 = v else e ∈ es := by
  by_cases h : k ∈ es.map Prod.fst
  · rw [set, if_pos (any_key_iff.2 h), List.mem_map]
    split_ifs with hk
    · constructor
      · rintro ⟨e', -, rfl⟩
        split_ifs at hk ⊢ with he'
        · rfl
        · exact absurd hk.symm he'
      · intro hv
        obtain ⟨e', he', hkey⟩ := List.mem_map.1 h
        exact ⟨e', he', by rw [if_pos hkey, hk, ← hv]⟩
    · constructor
      · rintro ⟨e', he', rfl⟩
        split_ifs at hk ⊢ with hk'
        · exact absurd rfl hk
        · exact he'
      · intro he
        exact ⟨e, he, if_neg (Ne.symm hk)⟩
  · rw [set_of_notMem h, List.mem_append, List.mem_singleton]
    split_ifs with hk
    · subst hk
      constructor
      · rintro (he | he)
        · exact absurd (key_mem he) h
        · exact congrArg Prod.snd he
      · intro hv
        exact .inr (Prod.ext rfl hv)
    · constructor
      · rintro (he | rfl)
        · exact he
        · exact absurd rfl hk
      · exact .inl

/-- Every entry set is there under its key, and nothing else. -/
theorem mem_keys_foldl_set :
    k' ∈ (cs.foldl (fun es c => set es c.1 c.2) es).map Prod.fst ↔
      k' ∈ es.map Prod.fst ∨ k' ∈ cs.map Prod.fst := by
  induction cs generalizing es with
  | nil => simp
  | cons c cs ih =>
    rw [List.foldl_cons, ih, mem_keys_set, List.map_cons, List.mem_cons, or_assoc]

theorem length_set_of_mem (h : k ∈ es.map Prod.fst) : (set es k v).length = es.length := by
  rw [set, if_pos (any_key_iff.2 h), List.length_map]

theorem length_foldl_set_le (es cs : List (κ × β)) :
    (cs.foldl (fun es c => set es c.1 c.2) es).length ≤ es.length + cs.length := by
  induction cs generalizing es with
  | nil => exact Nat.le_refl _
  | cons c cs ih =>
    have hlen := ih (set es c.1 c.2)
    rw [List.foldl_cons, List.length_cons]
    by_cases hc : c.1 ∈ es.map Prod.fst
    · rw [length_set_of_mem hc] at hlen
      omega
    · rw [set_of_notMem hc, List.length_append, List.length_singleton] at hlen
      rw [set_of_notMem hc]
      omega

/-- Where no entry is lost the keys are distinct. -/
theorem nodup_of_length_foldl_set (hes : (es.map Prod.fst).Nodup)
    (h : (cs.foldl (fun es c => set es c.1 c.2) es).length = es.length + cs.length) :
    ((es ++ cs).map Prod.fst).Nodup := by
  induction cs generalizing es with
  | nil => rwa [List.append_nil]
  | cons c cs ih =>
    rw [List.foldl_cons, List.length_cons] at h
    have hc : c.1 ∉ es.map Prod.fst := by
      intro hc
      have hlen := length_foldl_set_le (set es c.1 c.2) cs
      rw [length_set_of_mem hc] at hlen
      omega
    have hassoc : es ++ c :: cs = (es ++ [c]) ++ cs := by simp
    rw [hassoc]
    rw [set_of_notMem hc] at h
    refine ih ?_ (by rw [h, List.length_append, List.length_singleton]; omega)
    rw [List.map_append, List.nodup_append]
    refine ⟨hes, List.nodup_singleton _, ?_⟩
    rintro k hk k' hk' rfl
    rw [List.map_singleton, List.mem_singleton] at hk'
    exact hc (hk' ▸ hk)

/-- Entries with distinct keys all stay, in order. -/
theorem foldl_set_of_nodup (h : ((es ++ cs).map Prod.fst).Nodup) :
    cs.foldl (fun es c => set es c.1 c.2) es = es ++ cs := by
  induction cs generalizing es with
  | nil => simp
  | cons c cs ih =>
    have hassoc : es ++ c :: cs = (es ++ [c]) ++ cs := by simp
    have hc : c.1 ∉ es.map Prod.fst := by
      rw [List.map_append, List.map_cons] at h
      exact fun hm => (List.nodup_append.1 h).2.2 _ hm _ (.head _) rfl
    rw [List.foldl_cons, set_of_notMem hc, hassoc]
    rw [hassoc] at h
    exact ih h

end Assoc

/-- An element of a list has its partner in a list that goes in step. -/
theorem List.Forall₂.exists_mem {α β : Type} {R : α → β → Prop} {xs : List α} {ys : List β}
    (h : List.Forall₂ R xs ys) {x : α} (hx : x ∈ xs) : ∃ y ∈ ys, R x y := by
  induction h with
  | nil => cases hx
  | @cons a b xs ys hab _ ih =>
    rcases List.mem_cons.1 hx with rfl | hx
    · exact ⟨b, .head _, hab⟩
    · obtain ⟨y, hy, hr⟩ := ih hx
      exact ⟨y, .tail _ hy, hr⟩
