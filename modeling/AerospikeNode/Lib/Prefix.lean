import Mathlib.Algebra.Order.Ring.Nat
import Mathlib.Data.Int.Notation
import Mathlib.Tactic.Common

/-!
# Flat sequences of prefix terms

A flat sequence of tokens read in prefix order: a node says how much follows it, a variadic token
is followed by terms up to its closing token. A node also says what it counts for in the node
above it; that is 1 for most, but a token may stand for several slots or for none.

`Terms shape n es` reads `es` as terms of total weight `n`. The total is unique (`Terms.unique`)
although the split into terms need not be: `total` computes it in one pass, bracket depth in hand.
-/

namespace PrefixTerm

/-- How a token is read: a node of a weight, followed by terms of total weight `arity`; or the
opening or closing token of a variadic term. -/
inductive Shape where
  | node (weight arity : ℕ)
  | variadic
  | close
deriving DecidableEq, Repr

/-- One token that is a term of weight 1 by itself. -/
abbrev Shape.leaf : Shape := .node 1 0

variable {α : Type*} {shape : α → Shape} {a c : α} {es es' args : List α} {n m k w : ℕ}

/-- `es` is a sequence of terms of total weight `n`. -/
inductive Terms (shape : α → Shape) : ℕ → List α → Prop
  | nil : Terms shape 0 []
  | node {a : α} {w k n : ℕ} {es : List α} :
    shape a = .node w k → Terms shape (k + n) es → Terms shape (w + n) (a :: es)
  | variadic {a c : α} {k n : ℕ} {args es : List α} :
    shape a = .variadic → Terms shape k args → shape c = .close → Terms shape n es →
    Terms shape (1 + n) (a :: (args ++ c :: es))

theorem Terms.append (h : Terms shape n es) (h' : Terms shape m es') :
    Terms shape (n + m) (es ++ es') := by
  induction h with
  | nil => simpa using h'
  | @node a w k n es ha _ ih =>
    rw [Nat.add_assoc]
    exact .node ha (by rw [← Nat.add_assoc]; exact ih)
  | @variadic a c k n args es ha hargs hc _ _ ih =>
    rw [Nat.add_assoc, List.cons_append, List.append_assoc]
    exact .variadic ha hargs hc ih

theorem Terms.leaf (ha : shape a = .leaf) : Terms shape 1 [a] := .node (n := 0) ha .nil

theorem Terms.cons_leaf (ha : shape a = .leaf) (h : Terms shape n es) :
    Terms shape (1 + n) (a :: es) := .node ha (by rwa [Nat.zero_add])

/-- A node followed by exactly its operands. -/
theorem Terms.apply (ha : shape a = .node w k) (h : Terms shape k es) : Terms shape w (a :: es) :=
  .node (n := 0) ha h

/-- A node whose operands carry more than its arity: the rest follows it as further terms. -/
theorem Terms.apply_add (ha : shape a = .node w k) (h : Terms shape (k + n) es) :
    Terms shape (w + n) (a :: es) := .node ha h

theorem Terms.bracket (ha : shape a = .variadic) (h : Terms shape k args) (hc : shape c = .close) :
    Terms shape 1 (a :: (args ++ [c])) := .variadic (n := 0) ha h hc .nil

theorem Terms.flatten {ι : Type*} {f : ι → List α} {wt : ι → ℕ} :
    ∀ {l : List ι}, (∀ i ∈ l, Terms shape (wt i) (f i)) →
      Terms shape (l.map wt).sum (l.map f).flatten
  | [], _ => .nil
  | i :: l, h => by
    simp only [List.map_cons, List.sum_cons, List.flatten_cons]
    exact (h i (.head _)).append (flatten fun j hj => h j (.tail _ hj))

/-- The total weight of a sequence read at bracket depth `d`: tokens inside brackets count for
nothing, a node outside adds its weight and takes its arity. -/
def total (shape : α → Shape) : ℕ → List α → ℤ
  | _, [] => 0
  | d, a :: es =>
    match shape a with
    | .node w k => (if d = 0 then (w : ℤ) - k else 0) + total shape d es
    | .variadic => (if d = 0 then 1 else 0) + total shape (d + 1) es
    | .close => total shape (d - 1) es

theorem Terms.total_append (h : Terms shape n es) :
    ∀ (d : ℕ) (rest : List α),
      total shape d (es ++ rest) = (if d = 0 then (n : ℤ) else 0) + total shape d rest := by
  induction h with
  | nil => intro d rest; simp
  | node ha _ ih =>
    intro d rest
    rw [List.cons_append, total]
    simp only [ha, ih]
    split_ifs <;> push_cast <;> omega
  | variadic ha _ hc _ ihargs ih =>
    intro d rest
    rw [List.cons_append, List.append_assoc, total]
    simp only [ha, ihargs, List.cons_append, Nat.succ_ne_zero, if_false, Int.zero_add]
    rw [total]
    simp only [hc, Nat.add_sub_cancel, ih]
    split_ifs <;> push_cast <;> omega

theorem Terms.total_eq (h : Terms shape n es) : total shape 0 es = n := by
  simpa [total] using h.total_append 0 []

/-- A sequence has only one total weight, however it is split. -/
theorem Terms.unique (h : Terms shape n es) (h' : Terms shape m es) : n = m := by
  have := h.total_eq.symm.trans h'.total_eq
  exact_mod_cast this

end PrefixTerm
