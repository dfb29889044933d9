import Mathlib.Data.List.Basic
import Mathlib.Tactic.Common

/-!
# Regular expressions with groups

`Matches r s cs`: the whole text `s` is of the form of `r`, and its groups are `cs`, each with its number, in
order. A matcher tries the alternatives in their order and repeats as often as it can; `results` lists the ways
it finds to match the start of a text, the preferred one first, each with its groups and the rest of the text.
`exec` takes the first of them that leaves nothing.

What is found are the matches (`mem_results`); where the groups of a text are determined by it, `exec` finds
them (`exec_eq_some_of_unique`).
-/

inductive Regex (α : Type) where
  | char (p : α → Bool)
  | eps
  | seq (r r' : Regex α)
  | alt (r r' : Regex α)
  | star (r : Regex α)
  | group (n : ℕ) (r : Regex α)

namespace Regex

variable {α : Type}

/-- The groups of a match. -/
abbrev Captures (α : Type) := List (ℕ × List α)

def plus (r : Regex α) : Regex α := .seq r (.star r)
def opt (r : Regex α) : Regex α := .alt r .eps

/-- `r{n}` -/
def times (r : Regex α) : ℕ → Regex α
  | 0 => .eps
  | n + 1 => .seq r (r.times n)

/-- `r{0,n}` -/
def upTo (r : Regex α) : ℕ → Regex α
  | 0 => .eps
  | n + 1 => opt (.seq r (r.upTo n))

/-- `r{m,m+n}` -/
def between (r : Regex α) (m n : ℕ) : Regex α := .seq (r.times m) (r.upTo n)

/-! ### The matches -/

/-- A repetition does not match the empty text. -/
inductive Matches : Regex α → List α → Captures α → Prop where
  | char {p : α → Bool} {a : α} (h : p a = true) : Matches (.char p) [a] []
  | eps : Matches .eps [] []
  | seq {r r' : Regex α} {s s' : List α} {cs cs' : Captures α} (h : Matches r s cs) (h' : Matches r' s' cs') :
      Matches (.seq r r') (s ++ s') (cs ++ cs')
  | altLeft {r r' : Regex α} {s : List α} {cs : Captures α} (h : Matches r s cs) : Matches (.alt r r') s cs
  | altRight {r r' : Regex α} {s : List α} {cs : Captures α} (h : Matches r' s cs) : Matches (.alt r r') s cs
  | starNil {r : Regex α} : Matches (.star r) [] []
  | starCons {r : Regex α} {s s' : List α} {cs cs' : Captures α} (hne : s ≠ []) (h : Matches r s cs)
      (h' : Matches (.star r) s' cs') : Matches (.star r) (s ++ s') (cs ++ cs')
  | group {n : ℕ} {r : Regex α} {s : List α} {cs : Captures α} (h : Matches r s cs) :
      Matches (.group n r) s ((n, s) :: cs)

section
variable {r r' : Regex α} {s : List α} {cs : Captures α} {p : α → Bool} {n : ℕ}

@[simp] theorem matches_char : Matches (.char p) s cs ↔ (∃ a, p a = true ∧ s = [a]) ∧ cs = [] := by
  constructor
  · rintro (h | _)
    exact ⟨⟨_, h, rfl⟩, rfl⟩
  · rintro ⟨⟨a, h, rfl⟩, rfl⟩
    exact .char h

@[simp] theorem matches_eps : Matches .eps s cs ↔ s = [] ∧ cs = [] := by
  constructor
  · rintro ⟨⟩
    exact ⟨rfl, rfl⟩
  · rintro ⟨rfl, rfl⟩
    exact .eps

theorem matches_seq : Matches (.seq r r') s cs ↔
    ∃ s1 s2 cs1 cs2, Matches r s1 cs1 ∧ Matches r' s2 cs2 ∧ s = s1 ++ s2 ∧ cs = cs1 ++ cs2 := by
  constructor
  · rintro ⟨⟩
    exact ⟨_, _, _, _, ‹_›, ‹_›, rfl, rfl⟩
  · rintro ⟨s1, s2, cs1, cs2, h, h', rfl, rfl⟩
    exact .seq h h'

@[simp] theorem matches_alt : Matches (.alt r r') s cs ↔ Matches r s cs ∨ Matches r' s cs := by
  constructor
  · rintro (_ | _ | _ | h | h)
    · exact .inl h
    · exact .inr h
  · rintro (h | h)
    · exact .altLeft h
    · exact .altRight h

theorem matches_group : Matches (.group n r) s cs ↔ ∃ cs', Matches r s cs' ∧ cs = (n, s) :: cs' := by
  constructor
  · rintro ⟨⟩
    exact ⟨_, ‹_›, rfl⟩
  · rintro ⟨cs', h, rfl⟩
    exact .group h

theorem matches_opt : Matches r.opt s cs ↔ Matches r s cs ∨ s = [] ∧ cs = [] := by
  unfold opt
  rw [matches_alt, matches_eps]

theorem matches_star : Matches (.star r) s cs ↔ s = [] ∧ cs = [] ∨
    ∃ s1 s2 cs1 cs2, s1 ≠ [] ∧ Matches r s1 cs1 ∧ Matches (.star r) s2 cs2 ∧ s = s1 ++ s2 ∧ cs = cs1 ++ cs2 := by
  constructor
  · rintro ⟨⟩
    · exact .inl ⟨rfl, rfl⟩
    · exact .inr ⟨_, _, _, _, ‹_›, ‹_›, ‹_›, rfl, rfl⟩
  · rintro (⟨rfl, rfl⟩ | ⟨s1, s2, cs1, cs2, hne, h, h', rfl, rfl⟩)
    · exact .starNil
    · exact .starCons hne h h'

/-! ### Repetitions of a character -/

theorem matches_char_seq :
    Matches (.seq (.char p) r) s cs ↔ ∃ a s', p a = true ∧ s = a :: s' ∧ Matches r s' cs := by
  rw [matches_seq]
  constructor
  · rintro ⟨s1, s2, cs1, cs2, h1, h2, rfl, rfl⟩
    obtain ⟨⟨a, ha, rfl⟩, rfl⟩ := matches_char.1 h1
    exact ⟨a, s2, ha, rfl, h2⟩
  · rintro ⟨a, s', ha, rfl, h⟩
    exact ⟨[a], s', [], cs, .char ha, h, rfl, rfl⟩

theorem matches_star_char : Matches (.star (.char p)) s cs ↔ (∀ a ∈ s, p a = true) ∧ cs = [] := by
  induction s generalizing cs with
  | nil =>
    rw [matches_star]
    constructor
    · rintro (⟨-, rfl⟩ | ⟨s1, s2, cs1, cs2, hne, -, -, h, -⟩)
      · exact ⟨nofun, rfl⟩
      · exact absurd (List.append_eq_nil_iff.1 h.symm).1 hne
    · rintro ⟨-, rfl⟩
      exact .inl ⟨rfl, rfl⟩
  | cons a s ih =>
    rw [matches_star, List.forall_mem_cons]
    constructor
    · rintro (⟨h, -⟩ | ⟨s1, s2, cs1, cs2, -, h1, h2, h, rfl⟩)
      · cases h
      · obtain ⟨⟨b, hb, rfl⟩, rfl⟩ := matches_char.1 h1
        obtain ⟨rfl, rfl⟩ := List.cons.inj h
        obtain ⟨hall, rfl⟩ := ih.1 h2
        exact ⟨⟨hb, hall⟩, rfl⟩
    · rintro ⟨⟨ha, hall⟩, rfl⟩
      exact .inr ⟨[a], s, [], [], List.cons_ne_nil _ _, .char ha, ih.2 ⟨hall, rfl⟩, rfl, rfl⟩

theorem matches_plus_char :
    Matches (Regex.char p).plus s cs ↔ s ≠ [] ∧ (∀ a ∈ s, p a = true) ∧ cs = [] := by
  unfold plus
  rw [matches_char_seq]
  constructor
  · rintro ⟨a, s, ha, rfl, h⟩
    obtain ⟨hall, rfl⟩ := matches_star_char.1 h
    exact ⟨List.cons_ne_nil _ _, List.forall_mem_cons.2 ⟨ha, hall⟩, rfl⟩
  · rintro ⟨hne, hall, rfl⟩
    obtain ⟨a, s, rfl⟩ := List.exists_cons_of_ne_nil hne
    rw [List.forall_mem_cons] at hall
    exact ⟨a, s, hall.1, rfl, matches_star_char.2 ⟨hall.2, rfl⟩⟩

theorem matches_upTo_char :
    Matches ((Regex.char p).upTo n) s cs ↔ s.length ≤ n ∧ (∀ a ∈ s, p a = true) ∧ cs = [] := by
  induction n generalizing s with
  | zero =>
    unfold upTo
    rw [matches_eps, Nat.le_zero, List.length_eq_zero_iff]
    constructor
    · rintro ⟨rfl, rfl⟩
      exact ⟨rfl, nofun, rfl⟩
    · rintro ⟨rfl, -, rfl⟩
      exact ⟨rfl, rfl⟩
  | succ n ih =>
    unfold upTo
    rw [matches_opt, matches_char_seq]
    constructor
    · rintro (⟨a, s, ha, rfl, h⟩ | ⟨rfl, rfl⟩)
      · obtain ⟨hlen, hall, rfl⟩ := ih.1 h
        exact ⟨Nat.succ_le_succ hlen, List.forall_mem_cons.2 ⟨ha, hall⟩, rfl⟩
      · exact ⟨Nat.zero_le _, nofun, rfl⟩
    · rintro ⟨hlen, hall, rfl⟩
      rcases s with _ | ⟨a, s⟩
      · exact .inr ⟨rfl, rfl⟩
      · rw [List.forall_mem_cons] at hall
        exact .inl ⟨a, s, hall.1, rfl, ih.2 ⟨Nat.le_of_succ_le_succ hlen, hall.2, rfl⟩⟩

/-- `p{1,n+1}` -/
theorem matches_between_char : Matches ((Regex.char p).between 1 n) s cs ↔
    s ≠ [] ∧ s.length ≤ n + 1 ∧ (∀ a ∈ s, p a = true) ∧ cs = [] := by
  unfold between times times
  rw [matches_seq]
  constructor
  · rintro ⟨s1, s2, cs1, cs2, h1, h2, rfl, rfl⟩
    obtain ⟨a, s', ha, rfl, h⟩ := matches_char_seq.1 h1
    obtain ⟨rfl, rfl⟩ := matches_eps.1 h
    obtain ⟨hlen, hall, rfl⟩ := matches_upTo_char.1 h2
    exact ⟨List.cons_ne_nil _ _, Nat.succ_le_succ hlen, List.forall_mem_cons.2 ⟨ha, hall⟩, rfl⟩
  · rintro ⟨hne, hlen, hall, rfl⟩
    obtain ⟨a, s, rfl⟩ := List.exists_cons_of_ne_nil hne
    rw [List.forall_mem_cons] at hall
    exact ⟨[a], s, [], [], matches_char_seq.2 ⟨a, [], hall.1, rfl, .eps⟩,
      matches_upTo_char.2 ⟨Nat.le_of_succ_le_succ hlen, hall.2, rfl⟩, rfl, rfl⟩

end

/-! ### The matcher -/

/-- The ways to repeat a step that leaves less of the text, at most so often. -/
def repeated (step : List α → List (Captures α × List α)) : ℕ → List α → List (Captures α × List α)
  | 0, s => [([], s)]
  | fuel + 1, s =>
    ((step s).filter fun x => x.2.length < s.length).flatMap (fun x =>
      (repeated step fuel x.2).map fun y => (x.1 ++ y.1, y.2)) ++ [([], s)]

def results : Regex α → List α → List (Captures α × List α)
  | char _, [] => []
  | char p, a :: s => if p a then [([], s)] else []
  | eps, s => [([], s)]
  | seq r r', s => (r.results s).flatMap fun x => (r'.results x.2).map fun y => (x.1 ++ y.1, y.2)
  | alt r r', s => r.results s ++ r'.results s
  | star r, s => repeated r.results s.length s
  | group n r, s => (r.results s).map fun x => ((n, s.take (s.length - x.2.length)) :: x.1, x.2)

/-- The groups of the preferred match of the whole text. -/
def exec (r : Regex α) (s : List α) : Option (Captures α) :=
  ((r.results s).find? fun x => x.2.isEmpty).map (·.1)

/-- The text of a group. -/
def Captures.get (cs : Captures α) (n : ℕ) : Option (List α) := cs.lookup n

section
variable {r r' : Regex α} {s t : List α} {cs : Captures α}

/-- A step finds the matches of a regular expression. -/
def Finds (step : List α → List (Captures α × List α)) (r : Regex α) : Prop :=
  ∀ s cs t, (cs, t) ∈ step s ↔ ∃ p, s = p ++ t ∧ Matches r p cs

theorem mem_repeated {step : List α → List (Captures α × List α)} (h : Finds step r) {fuel : ℕ}
    (hfuel : s.length ≤ fuel) :
    (cs, t) ∈ repeated step fuel s ↔ ∃ p, s = p ++ t ∧ Matches (.star r) p cs := by
  induction fuel generalizing s cs with
  | zero =>
    obtain rfl := List.length_eq_zero_iff.1 (Nat.le_zero.1 hfuel)
    unfold repeated
    rw [List.mem_singleton, Prod.mk.injEq]
    constructor
    · rintro ⟨rfl, rfl⟩
      exact ⟨[], rfl, .starNil⟩
    · rintro ⟨p, hp, hm⟩
      obtain ⟨rfl, rfl⟩ := List.append_eq_nil_iff.1 hp.symm
      rcases matches_star.1 hm with ⟨-, rfl⟩ | ⟨s1, s2, cs1, cs2, hne, -, -, hs, -⟩
      · exact ⟨rfl, rfl⟩
      · exact absurd (List.append_eq_nil_iff.1 hs.symm).1 hne
  | succ fuel ih =>
    unfold repeated
    rw [List.mem_append, List.mem_flatMap, List.mem_singleton, Prod.mk.injEq]
    constructor
    · rintro (⟨⟨cs1, t1⟩, hx, hy⟩ | ⟨rfl, rfl⟩)
      · obtain ⟨hx, hlt⟩ := List.mem_filter.1 hx
        obtain ⟨⟨cs2, t2⟩, hz, heq⟩ := List.mem_map.1 hy
        obtain ⟨rfl, rfl⟩ := Prod.mk.inj heq
        obtain ⟨p1, rfl, hm1⟩ := (h _ _ _).1 hx
        have hlt : t1.length < (p1 ++ t1).length := of_decide_eq_true hlt
        rw [List.length_append] at hlt hfuel
        have hrest : t1.length ≤ fuel := by omega
        obtain ⟨p2, rfl, hm2⟩ := (ih hrest).1 hz
        refine ⟨p1 ++ p2, (List.append_assoc _ _ _).symm, .starCons ?_ hm1 hm2⟩
        rintro rfl
        exact absurd hlt (by simp)
      · exact ⟨[], rfl, .starNil⟩
    · rintro ⟨p, rfl, hm⟩
      rcases matches_star.1 hm with ⟨rfl, rfl⟩ | ⟨p1, p2, cs1, cs2, hne, hm1, hm2, rfl, rfl⟩
      · exact .inr ⟨rfl, rfl⟩
      · have hpos := List.length_pos_of_ne_nil hne
        have hlt : (p2 ++ t).length < (p1 ++ p2 ++ t).length := by
          simp only [List.length_append]
          omega
        have hrest : (p2 ++ t).length ≤ fuel := by omega
        exact .inl ⟨(cs1, p2 ++ t),
          List.mem_filter.2 ⟨(h _ _ _).2 ⟨p1, List.append_assoc _ _ _, hm1⟩, decide_eq_true hlt⟩,
          List.mem_map.2 ⟨(cs2, t), (ih hrest).2 ⟨p2, rfl, hm2⟩, rfl⟩⟩

/-- The matcher finds the matches of the start of a text. -/
theorem mem_results : Finds r.results r := by
  induction r with
  | char p =>
    intro s cs t
    simp only [matches_char]
    rcases s with _ | ⟨a, s⟩
    · simp [results]
    · by_cases ha : p a = true
      · rw [results, if_pos ha, List.mem_singleton, Prod.mk.injEq]
        constructor
        · rintro ⟨rfl, rfl⟩
          exact ⟨[a], rfl, ⟨a, ha, rfl⟩, rfl⟩
        · rintro ⟨p', h, ⟨b, -, rfl⟩, rfl⟩
          exact ⟨rfl, (List.cons.inj h).2.symm⟩
      · rw [results, if_neg ha]
        constructor
        · nofun
        · rintro ⟨p', h, ⟨b, hb, rfl⟩, -⟩
          obtain ⟨rfl, -⟩ := List.cons.inj h
          exact absurd hb ha
  | eps =>
    intro s cs t
    rw [results, List.mem_singleton, Prod.mk.injEq]
    simp only [matches_eps]
    constructor
    · rintro ⟨rfl, rfl⟩
      exact ⟨[], rfl, rfl, rfl⟩
    · rintro ⟨p', rfl, rfl, rfl⟩
      exact ⟨rfl, rfl⟩
  | seq r r' ih ih' =>
    intro s cs t
    rw [results, List.mem_flatMap]
    constructor
    · rintro ⟨⟨cs1, t1⟩, hx, hy⟩
      obtain ⟨⟨cs2, t2⟩, hz, heq⟩ := List.mem_map.1 hy
      obtain ⟨rfl, rfl⟩ := Prod.mk.inj heq
      obtain ⟨p1, rfl, hm1⟩ := (ih _ _ _).1 hx
      obtain ⟨p2, rfl, hm2⟩ := (ih' _ _ _).1 hz
      exact ⟨p1 ++ p2, (List.append_assoc _ _ _).symm, .seq hm1 hm2⟩
    · rintro ⟨p, rfl, hm⟩
      obtain ⟨p1, p2, cs1, cs2, hm1, hm2, rfl, rfl⟩ := matches_seq.1 hm
      exact ⟨(cs1, p2 ++ t), (ih _ _ _).2 ⟨p1, List.append_assoc _ _ _, hm1⟩,
        List.mem_map.2 ⟨(cs2, t), (ih' _ _ _).2 ⟨p2, rfl, hm2⟩, rfl⟩⟩
  | alt r r' ih ih' =>
    intro s cs t
    rw [results, List.mem_append, ih, ih']
    simp only [matches_alt, and_or_left, exists_or]
  | star r ih => exact fun s cs t => mem_repeated ih (Nat.le_refl _)
  | group n r ih =>
    intro s cs t
    rw [results, List.mem_map]
    simp only [matches_group]
    constructor
    · rintro ⟨⟨cs', t'⟩, hx, heq⟩
      obtain ⟨rfl, rfl⟩ := Prod.mk.inj heq
      obtain ⟨p, rfl, hm⟩ := (ih _ _ _).1 hx
      refine ⟨p, rfl, cs', hm, ?_⟩
      rw [List.length_append, Nat.add_sub_cancel, List.take_left]
    · rintro ⟨p, rfl, cs', hm, rfl⟩
      refine ⟨(cs', t), (ih _ _ _).2 ⟨p, rfl, hm⟩, ?_⟩
      rw [List.length_append, Nat.add_sub_cancel, List.take_left]

theorem exec_eq_none : r.exec s = none ↔ ∀ cs, ¬Matches r s cs := by
  unfold exec
  rw [Option.map_eq_none_iff, List.find?_eq_none]
  constructor
  · intro h cs hm
    exact h (cs, []) ((mem_results _ _ _).2 ⟨s, (List.append_nil s).symm, hm⟩) rfl
  · rintro h ⟨cs, t⟩ hx ht
    obtain rfl := List.isEmpty_iff.1 ht
    obtain ⟨p, rfl, hm⟩ := (mem_results _ _ _).1 hx
    rw [List.append_nil] at h
    exact h cs hm

theorem matches_of_exec (h : r.exec s = some cs) : Matches r s cs := by
  unfold exec at h
  obtain ⟨⟨cs, t⟩, hfind, rfl⟩ := Option.map_eq_some_iff.1 h
  have ht : t.isEmpty = true := List.find?_some (p := fun x : Captures α × List α => x.2.isEmpty) hfind
  obtain rfl := List.isEmpty_iff.1 ht
  obtain ⟨p, rfl, hm⟩ := (mem_results _ _ _).1 (List.mem_of_find?_eq_some hfind)
  rwa [List.append_nil]

/-- The groups of a text that determines them. -/
theorem exec_eq_some_of_unique (h : Matches r s cs) (hu : ∀ cs', Matches r s cs' → cs' = cs) :
    r.exec s = some cs := by
  rcases he : r.exec s with _ | cs'
  · exact absurd h (exec_eq_none.1 he cs)
  · rw [hu cs' (matches_of_exec he)]

end

end Regex
