import AerospikeNode.Lib.Prefix
import Mathlib.Data.List.Forall2

/-!
# Trees of prefix terms

The tree that a flat sequence of prefix terms stands for, where each operand is one term. A tree is written
as its token followed by its operands, a variadic one with its closing token behind them.

A sequence is that of at most one shaped tree (`flatten_inj`), and tokens that are replaced one by one make
a tree of the same form (`exists_agree`), shaped as the first if the new tokens are read as the old ones
(`Agree.shaped`).
-/

namespace PrefixTerm

inductive TermTree (α : Type*) where
  | node (a : α) (args : List (TermTree α))
  | bracket (a : α) (args : List (TermTree α)) (c : α)

namespace TermTree

variable {α β : Type*} {shape : α → Shape} {shape' : β → Shape} {R : α → β → Prop}

mutual
def flatten : TermTree α → List α
  | node a args => a :: flattenAll args
  | bracket a args c => a :: (flattenAll args ++ [c])

def flattenAll : List (TermTree α) → List α
  | [] => []
  | t :: ts => flatten t ++ flattenAll ts
end

mutual
/-- Each token has the operands its shape asks for. -/
def Shaped (shape : α → Shape) : TermTree α → Prop
  | node a args => shape a = .node 1 args.length ∧ AllShaped shape args
  | bracket a args c => shape a = .variadic ∧ AllShaped shape args ∧ shape c = .close

def AllShaped (shape : α → Shape) : List (TermTree α) → Prop
  | [] => True
  | t :: ts => Shaped shape t ∧ AllShaped shape ts
end

mutual
/-- Trees of one form whose tokens are related. -/
def Agree (R : α → β → Prop) : TermTree α → TermTree β → Prop
  | node a args, node b args' => R a b ∧ AllAgree R args args'
  | bracket a args c, bracket b args' c' => R a b ∧ AllAgree R args args' ∧ R c c'
  | _, _ => False

def AllAgree (R : α → β → Prop) : List (TermTree α) → List (TermTree β) → Prop
  | [], [] => True
  | t :: ts, t' :: ts' => Agree R t t' ∧ AllAgree R ts ts'
  | _, _ => False
end

@[simp]
theorem flattenAll_append : ∀ ts ts' : List (TermTree α), flattenAll (ts ++ ts') = flattenAll ts ++ flattenAll ts'
  | [], _ => rfl
  | t :: ts, ts' => by simp [flattenAll, flattenAll_append ts ts']

@[simp]
theorem allShaped_append : ∀ ts ts' : List (TermTree α),
    AllShaped shape (ts ++ ts') ↔ AllShaped shape ts ∧ AllShaped shape ts'
  | [], _ => by simp [AllShaped]
  | t :: ts, ts' => by simp [AllShaped, allShaped_append ts ts', and_assoc]

/-! ### One tree for a sequence -/

/-- A tree begins with a token that does not close a bracket. -/
theorem head_shape (t : TermTree α) (h : Shaped shape t) : ∃ a es, t.flatten = a :: es ∧ shape a ≠ .close := by
  cases t with
  | node a args => exact ⟨a, _, rfl, by simp [h.1]⟩
  | bracket a args c => exact ⟨a, _, rfl, by simp [h.1]⟩

mutual
theorem flatten_inj : ∀ {t t' : TermTree α}, Shaped shape t → Shaped shape t' → ∀ {rest rest' : List α},
    t.flatten ++ rest = t'.flatten ++ rest' → t = t' ∧ rest = rest'
  | node a args, node a' args', h, h', rest, rest', heq => by
    obtain ⟨rfl, hargs⟩ := List.cons.inj heq
    have hlen := h.1.symm.trans h'.1
    obtain ⟨rfl, hrest⟩ := flattenAll_inj h.2 h'.2 (by simpa using hlen) hargs
    exact ⟨rfl, hrest⟩
  | node a args, bracket a' args' c, h, h', _, _, heq => by
    obtain ⟨rfl, -⟩ := List.cons.inj heq
    exact absurd (h.1.symm.trans h'.1) (by simp)
  | bracket a args c, node a' args', h, h', _, _, heq => by
    obtain ⟨rfl, -⟩ := List.cons.inj heq
    exact absurd (h.1.symm.trans h'.1) (by simp)
  | bracket a args c, bracket a' args' c', h, h', rest, rest', heq => by
    obtain ⟨rfl, hargs⟩ := List.cons.inj heq
    obtain ⟨rfl, rfl, hrest⟩ := closed_inj h.2.1 h'.2.1 h.2.2 h'.2.2 (by simpa using hargs)
    exact ⟨rfl, hrest⟩

theorem flattenAll_inj : ∀ {ts ts' : List (TermTree α)}, AllShaped shape ts → AllShaped shape ts' →
    ts.length = ts'.length → ∀ {rest rest' : List α},
    flattenAll ts ++ rest = flattenAll ts' ++ rest' → ts = ts' ∧ rest = rest'
  | [], [], _, _, _, _, _, heq => ⟨rfl, heq⟩
  | t :: ts, t' :: ts', h, h', hlen, rest, rest', heq => by
    obtain ⟨rfl, htl⟩ := flatten_inj h.1 h'.1 (by simpa [flattenAll] using heq)
    obtain ⟨rfl, hrest⟩ := flattenAll_inj h.2 h'.2 (by simpa using hlen) htl
    exact ⟨rfl, hrest⟩

/-- Operands up to a closing token. -/
theorem closed_inj : ∀ {ts ts' : List (TermTree α)}, AllShaped shape ts → AllShaped shape ts' → ∀ {c c' : α},
    shape c = .close → shape c' = .close → ∀ {rest rest' : List α},
    flattenAll ts ++ c :: rest = flattenAll ts' ++ c' :: rest' → ts = ts' ∧ c = c' ∧ rest = rest'
  | [], [], _, _, _, _, _, _, _, _, heq => ⟨rfl, List.cons.inj heq⟩
  | [], t' :: ts', _, h', c, _, hc, _, _, _, heq => by
    obtain ⟨a, es, ht, ha⟩ := head_shape t' h'.1
    rw [flattenAll, flattenAll, ht] at heq
    exact absurd ((List.cons.inj heq).1 ▸ hc) ha
  | t :: ts, [], h, _, _, c', _, hc', _, _, heq => by
    obtain ⟨a, es, ht, ha⟩ := head_shape t h.1
    rw [flattenAll, flattenAll, ht] at heq
    exact absurd ((List.cons.inj heq).1 ▸ hc') ha
  | t :: ts, t' :: ts', h, h', c, c', hc, hc', rest, rest', heq => by
    obtain ⟨rfl, htl⟩ := flatten_inj h.1 h'.1 (by simpa [flattenAll] using heq)
    obtain ⟨rfl, hrest⟩ := closed_inj h.2 h'.2 hc hc' htl
    exact ⟨rfl, hrest⟩
end

/-! ### Other tokens -/

theorem forall₂_append {as bs : List α} : ∀ {es : List β}, List.Forall₂ R (as ++ bs) es →
    ∃ es₁ es₂, es = es₁ ++ es₂ ∧ List.Forall₂ R as es₁ ∧ List.Forall₂ R bs es₂ := by
  induction as with
  | nil => exact fun h => ⟨[], _, rfl, .nil, h⟩
  | cons a as ih =>
    intro es h
    rcases h with _ | ⟨hab, h⟩
    obtain ⟨es₁, es₂, rfl, h₁, h₂⟩ := ih h
    exact ⟨_ :: es₁, es₂, rfl, .cons hab h₁, h₂⟩

mutual
theorem exists_agree : ∀ {t : TermTree α} {es : List β}, List.Forall₂ R t.flatten es →
    ∃ t' : TermTree β, Agree R t t' ∧ t'.flatten = es
  | node a args, _, .cons hab h => by
    obtain ⟨args', hargs, rfl⟩ := exists_allAgree h
    exact ⟨node _ args', ⟨hab, hargs⟩, rfl⟩
  | bracket a args c, _, .cons hab h => by
    obtain ⟨es₁, es₂, rfl, h₁, h₂⟩ := forall₂_append h
    obtain ⟨args', hargs, rfl⟩ := exists_allAgree h₁
    rcases h₂ with _ | ⟨hc, _ | _⟩
    exact ⟨bracket _ args' _, ⟨hab, hargs, hc⟩, rfl⟩

theorem exists_allAgree : ∀ {ts : List (TermTree α)} {es : List β}, List.Forall₂ R (flattenAll ts) es →
    ∃ ts' : List (TermTree β), AllAgree R ts ts' ∧ flattenAll ts' = es
  | [], _, .nil => ⟨[], trivial, rfl⟩
  | t :: ts, _, h => by
    obtain ⟨es₁, es₂, rfl, h₁, h₂⟩ := forall₂_append h
    obtain ⟨t', ht, rfl⟩ := exists_agree h₁
    obtain ⟨ts', hts, rfl⟩ := exists_allAgree h₂
    exact ⟨t' :: ts', ⟨ht, hts⟩, rfl⟩
end

theorem AllAgree.length_eq : ∀ {ts : List (TermTree α)} {ts' : List (TermTree β)}, AllAgree R ts ts' →
    ts.length = ts'.length
  | [], [], _ => rfl
  | _ :: _, _ :: _, h => congrArg (· + 1) (length_eq h.2)

mutual
theorem Agree.shaped_iff : ∀ {t : TermTree α} {t' : TermTree β},
    (∀ a ∈ t.flatten, ∀ b, R a b → shape' b = shape a) → Agree R t t' →
    (Shaped shape' t' ↔ Shaped shape t)
  | node a args, node b args', hR, h => by
    have hargs := h.2.shaped_iff fun a ha => hR a (.tail _ ha)
    simp only [Shaped, hR a (.head _) b h.1, h.2.length_eq, hargs]
  | bracket a args c, bracket b args' c', hR, h => by
    have hargs := h.2.1.shaped_iff fun a ha => hR a (.tail _ (List.mem_append_left _ ha))
    have hc := hR c (.tail _ (List.mem_append_right _ (.head _))) c' h.2.2
    simp only [Shaped, hR a (.head _) b h.1, hargs, hc]

theorem AllAgree.shaped_iff : ∀ {ts : List (TermTree α)} {ts' : List (TermTree β)},
    (∀ a ∈ flattenAll ts, ∀ b, R a b → shape' b = shape a) → AllAgree R ts ts' →
    (AllShaped shape' ts' ↔ AllShaped shape ts)
  | [], [], _, _ => Iff.rfl
  | t :: ts, t' :: ts', hR, h => by
    have ht := h.1.shaped_iff fun a ha => hR a (List.mem_append_left _ ha)
    have hts := h.2.shaped_iff fun a ha => hR a (List.mem_append_right _ ha)
    simp only [AllShaped, ht, hts]
end

end TermTree

end PrefixTerm
