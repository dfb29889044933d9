import Mathlib.Data.List.TakeWhile
import Mathlib.Data.List.Forall2
import Mathlib.Tactic.Common

/-!
# Texts of separated pieces

`join` puts a separator between the pieces of a text, or after each of them, and `splitOn` takes them
apart. `upTo` is a text up to the first separator, what a split limited to two pieces keeps of the
second.
-/

namespace Split

variable {α : Type} [DecidableEq α] {terminated : Bool} {sep c : α} {pieces : List (List α)} {s p : List α}

/-- The pieces with a separator between them, or after each of them. -/
def join (terminated : Bool) (sep : α) (pieces : List (List α)) : List α :=
  if terminated then pieces.flatMap (· ++ [sep]) else [sep].intercalate pieces

def upTo (sep : α) (s : List α) : List α := s.takeWhile (· ≠ sep)

omit [DecidableEq α] in
@[simp] theorem join_nil : join terminated sep [] = [] := by
  unfold join
  split_ifs <;> rfl

omit [DecidableEq α] in
theorem join_cons_cons (p q : List α) :
    join false sep (p :: q :: pieces) = p ++ sep :: join false sep (q :: pieces) := by
  simp [join, List.intercalate]

omit [DecidableEq α] in
theorem join_singleton (p : List α) : join false sep [p] = p := by
  simp [join, List.intercalate]

omit [DecidableEq α] in
theorem join_cons_true (p : List α) : join true sep (p :: pieces) = p ++ sep :: join true sep pieces := by
  simp [join]

omit [DecidableEq α] in
/-- What a joined text is made of. -/
theorem mem_join : c ∈ join terminated sep pieces → c = sep ∨ ∃ p ∈ pieces, c ∈ p := by
  cases terminated with
  | true =>
    intro h
    obtain ⟨p, hp, hc⟩ := List.mem_flatMap.1 h
    rcases List.mem_append.1 hc with hc | hc
    · exact .inr ⟨p, hp, hc⟩
    · exact .inl (List.mem_singleton.1 hc)
  | false =>
    induction pieces with
    | nil => intro h; cases h
    | cons p pieces ih =>
      cases pieces with
      | nil =>
        rw [join_singleton]
        exact fun h => .inr ⟨p, .head _, h⟩
      | cons q pieces =>
        rw [join_cons_cons, List.mem_append, List.mem_cons]
        rintro (h | rfl | h)
        · exact .inr ⟨p, .head _, h⟩
        · exact .inl rfl
        · rcases ih h with h | ⟨r, hr, h⟩
          · exact .inl h
          · exact .inr ⟨r, .tail _ hr, h⟩

omit [DecidableEq α] in
theorem mem_join_of_mem (hp : p ∈ pieces) (hc : c ∈ p) : c ∈ join terminated sep pieces := by
  cases terminated with
  | true => exact List.mem_flatMap.2 ⟨p, hp, List.mem_append_left _ hc⟩
  | false =>
    induction pieces with
    | nil => cases hp
    | cons q pieces ih =>
      cases pieces with
      | nil =>
        obtain rfl := List.mem_singleton.1 hp
        rw [join_singleton]
        exact hc
      | cons r pieces =>
        rw [join_cons_cons, List.mem_append, List.mem_cons]
        rcases List.mem_cons.1 hp with rfl | hp
        · exact .inl hc
        · exact .inr (.inr (ih hp))

omit [DecidableEq α] in
/-- Two pieces have a separator between them, and a terminated piece one after it. -/
theorem sep_mem_join (h : 2 ≤ pieces.length ∨ (terminated = true ∧ pieces ≠ [])) :
    sep ∈ join terminated sep pieces := by
  rcases pieces with _ | ⟨p, pieces⟩
  · rcases h with h | ⟨-, h⟩
    · exact absurd h (by simp)
    · exact absurd rfl h
  · cases terminated with
    | true =>
      rw [join_cons_true]
      exact List.mem_append_right _ (.head _)
    | false =>
      rcases pieces with _ | ⟨q, pieces⟩
      · rcases h with h | ⟨h, -⟩
        · exact absurd h (by simp)
        · cases h
      · rw [join_cons_cons]
        exact List.mem_append_right _ (.head _)

/-- Separated pieces come apart again. -/
theorem splitOn_join (h : ∀ p ∈ pieces, sep ∉ p) (hne : pieces ≠ []) :
    (join false sep pieces).splitOn sep = pieces := List.splitOn_intercalate sep h hne

/-- After the last separator comes an empty piece. -/
theorem splitOn_join_true (h : ∀ p ∈ pieces, sep ∉ p) :
    (join true sep pieces).splitOn sep = pieces ++ [[]] := by
  induction pieces with
  | nil => rw [join_nil, List.splitOn_nil, List.nil_append]
  | cons p pieces ih =>
    rw [join_cons_true, List.splitOn_append_cons_self_of_not_mem (h p (.head _)),
      ih fun q hq => h q (.tail _ hq), List.cons_append]

/-- Without the empty ones the pieces are the same in either form. -/
theorem filter_splitOn_join (h : ∀ p ∈ pieces, sep ∉ p) :
    ((join terminated sep pieces).splitOn sep).filter (fun p => 0 < p.length) =
      pieces.filter fun p => 0 < p.length := by
  cases terminated with
  | true =>
    rw [splitOn_join_true h, List.filter_append]
    exact List.append_nil _
  | false =>
    by_cases hne : pieces = []
    · subst hne
      rw [join_nil, List.splitOn_nil]
      rfl
    · rw [splitOn_join h hne]

theorem mem_of_mem_splitOn (hp : p ∈ s.splitOn sep) (hc : c ∈ p) : c ∈ s := by
  have hjoin : join false sep (s.splitOn sep) = s := List.intercalate_splitOn sep
  rw [← hjoin]
  exact mem_join_of_mem hp hc

theorem splitOn_eq_singleton_or (sep : α) (s : List α) :
    (sep ∉ s ∧ s.splitOn sep = [s]) ∨
      ∃ rest, s = upTo sep s ++ sep :: rest ∧ s.splitOn sep = upTo sep s :: rest.splitOn sep := by
  by_cases h : sep ∈ s
  · right
    have hdrop : ∃ rest, s.dropWhile (· ≠ sep) = sep :: rest := by
      rcases hd : s.dropWhile (· ≠ sep) with _ | ⟨x, rest⟩
      · rw [List.dropWhile_eq_nil_iff] at hd
        exact absurd (hd sep h) (by simp)
      · have hx := List.head_dropWhile_not (fun y => decide (y ≠ sep)) (l := s) (by rw [hd]; exact nofun)
        simp only [hd, List.head_cons, decide_eq_false_iff_not, ne_eq, not_not] at hx
        exact ⟨rest, by rw [hx]⟩
    obtain ⟨rest, hrest⟩ := hdrop
    have hs : s = upTo sep s ++ sep :: rest := by
      rw [upTo, ← hrest, List.takeWhile_append_dropWhile]
    have hnot : sep ∉ upTo sep s := by
      intro hm
      have := List.mem_takeWhile_imp hm
      simp at this
    refine ⟨rest, hs, ?_⟩
    conv_lhs => rw [hs]
    exact List.splitOn_append_cons_self_of_not_mem hnot rest
  · exact .inl ⟨h, List.splitOn_eq_singleton h⟩

/-- The first piece is the text up to the first separator. -/
theorem splitOn_eq_cons (sep : α) (s : List α) : ∃ rest, s.splitOn sep = upTo sep s :: rest := by
  rcases splitOn_eq_singleton_or sep s with ⟨h, hs⟩ | ⟨rest, -, hs⟩
  · refine ⟨[], ?_⟩
    rw [hs, upTo, List.takeWhile_eq_self_iff.2]
    intro x hx
    exact decide_eq_true fun he => h (he ▸ hx)
  · exact ⟨_, hs⟩

theorem upTo_eq_self : upTo sep s = s ↔ sep ∉ s := by
  rw [upTo, List.takeWhile_eq_self_iff]
  constructor
  · intro h hs
    exact absurd (h sep hs) (by simp)
  · intro h x hx
    exact decide_eq_true fun he => h (he ▸ hx)

/-- A piece ends where the text does or a separator stands. -/
theorem upTo_append {t : List α} (hs : sep ∉ s) (ht : ∀ c, t.head? = some c → c = sep) : upTo sep (s ++ t) = s := by
  have hnil : t.takeWhile (· ≠ sep) = [] := by
    rcases t with _ | ⟨c, t⟩
    · rfl
    · exact List.takeWhile_cons_of_neg (by simpa using ht c rfl)
  unfold upTo
  rw [List.takeWhile_append_of_pos, hnil, List.append_nil]
  exact fun c hc => decide_eq_true fun h => hs (h ▸ hc)

theorem append_inj_of_sep {s' t t' : List α} (hs : sep ∉ s) (hs' : sep ∉ s') (ht : ∀ c, t.head? = some c → c = sep)
    (ht' : ∀ c, t'.head? = some c → c = sep) (h : s ++ t = s' ++ t') : s = s' ∧ t = t' := by
  have heq : s = s' := by rw [← upTo_append hs ht, h, upTo_append hs' ht']
  subst heq
  exact ⟨rfl, List.append_cancel_left h⟩

theorem sep_not_mem_upTo : sep ∉ upTo sep s := by
  intro hm
  have := List.mem_takeWhile_imp hm
  simp at this

end Split

/-! ### Selected elements -/

section
variable {α β : Type} {p : α → Bool} {f g : α → β} {xs : List α}

/-- Selecting and then mapping gives the image of all exactly if all are selected. -/
theorem List.map_filter_eq_map :
    (xs.filter p).map f = xs.map g ↔ ∀ x ∈ xs, p x = true ∧ f x = g x := by
  constructor
  · intro h x hx
    have hlen : (xs.filter p).length = xs.length := by
      have := congrArg List.length h
      rwa [List.length_map, List.length_map] at this
    have hall : xs.filter p = xs := List.filter_sublist.eq_of_length hlen
    rw [hall] at h
    exact ⟨List.filter_eq_self.1 hall x hx, List.map_inj_left.1 h x hx⟩
  · intro h
    rw [List.filter_eq_self.2 fun x hx => (h x hx).1]
    exact List.map_congr_left fun x hx => (h x hx).2

theorem List.mapM_eq_some_iff {F : α → Option β} {ys : List β} :
    xs.mapM F = some ys ↔ List.Forall₂ (fun x y => F x = some y) xs ys := by
  induction xs generalizing ys with
  | nil =>
    rw [List.mapM_nil, List.forall₂_nil_left_iff]
    exact ⟨fun h => (Option.some.inj h).symm, fun h => congrArg some h.symm⟩
  | cons x xs ih =>
    rw [List.mapM_cons, List.forall₂_cons_left_iff]
    constructor
    · intro h
      obtain ⟨y, hy, h⟩ := Option.bind_eq_some_iff.1 h
      obtain ⟨ys', hys', h⟩ := Option.bind_eq_some_iff.1 h
      exact ⟨y, ys', hy, ih.1 hys', (Option.some.inj h).symm⟩
    · rintro ⟨y, ys', hy, hys', rfl⟩
      rw [hy, ih.2 hys']
      rfl

theorem List.mapM_eq_some_map {F : α → Option β} :
    xs.mapM F = some (xs.map g) ↔ ∀ x ∈ xs, F x = some (g x) := by
  rw [List.mapM_eq_some_iff, List.forall₂_map_right_iff, List.forall₂_same]

theorem List.forall₂_const_left {p : β → Prop} {ys : List β} :
    List.Forall₂ (fun _ y => p y) xs ys ↔ xs.length = ys.length ∧ ∀ y ∈ ys, p y := by
  rw [List.forall₂_iff_get]
  refine and_congr_right fun hlength => ?_
  rw [List.forall_mem_iff_get]
  constructor
  · exact fun h n => h n (n.2.trans_eq hlength.symm) n.2
  · exact fun h i _ hi => h ⟨i, hi⟩

/-- The same for a function that may fail. -/
theorem List.mapM_filter_eq_some {F : α → Option β} :
    (xs.filter p).mapM F = some (xs.map g) ↔ ∀ x ∈ xs, p x = true ∧ F x = some (g x) := by
  have hlength : ∀ {ys : List α} {zs : List β}, ys.mapM F = some zs → zs.length = ys.length := by
    intro ys
    induction ys with
    | nil => rintro zs ⟨⟩; rfl
    | cons y ys ih =>
      intro zs h
      rw [List.mapM_cons] at h
      obtain ⟨z, -, h⟩ := Option.bind_eq_some_iff.1 h
      obtain ⟨zs', hzs', h⟩ := Option.bind_eq_some_iff.1 h
      cases h
      rw [List.length_cons, List.length_cons, ih hzs']
  constructor
  · intro h x hx
    have hlen := hlength h
    rw [List.length_map] at hlen
    have hall : xs.filter p = xs := List.filter_sublist.eq_of_length hlen.symm
    rw [hall, List.mapM_eq_some_map] at h
    exact ⟨List.filter_eq_self.1 hall x hx, h x hx⟩
  · intro h
    rw [List.filter_eq_self.2 fun x hx => (h x hx).1, List.mapM_eq_some_map]
    exact fun x hx => (h x hx).2

end
