import AerospikeNode.Txn.Count

/-!
# The limit of the transaction pool

`pushTransaction` compares the counter with `readWriteLimit` before it adds the new transaction.
`withinLimit_of_allSteps`: what was constructed stays within the limit, and a construction throws the
`RangeError` of the pool for that reason only, in every run whose constructions all fit into the
limit. One that does not fit succeeds all the same, unless the counter is above the limit already.
-/

namespace AerospikeNode

namespace TransactionPool

variable {p q : TransactionPool}

/-- The loads of the live transactions that are neither `COMMITTED` nor `ABORTED`. -/
def openLoads (p : TransactionPool) : List ℚ :=
  p.objects.filterMap fun t =>
    if t.state = .committed ∨ t.state = .aborted then none else t.liveLoad

/-- The transaction that a construction makes. -/
def constructed (readsCapacity writesCapacity : JsValue) : Transaction :=
  ⟨withDefault readsCapacity readDefault, withDefault writesCapacity writeDefault, false, .ok⟩

/-- After a successful construction the capacities of the live transactions are numbers whose sum is
within the limit, and one that throws the `RangeError` of the pool would exceed it together with the
transactions that are still open. -/
def WithinLimit (p : TransactionPool) : Action → Prop
  | .construct reads writes =>
    (∀ q, p.construct reads writes = .ok q →
      (∀ t ∈ q.objects, t.destroyed = false → t.load.isSome = true) ∧ q.liveLoads.sum ≤ 500000) ∧
    ∀ q, p.construct reads writes = .error (.maximumCapacity, q) →
      ∃ x, (constructed reads writes).load = some x ∧ 500000 < p.openLoads.sum + x
  | _ => True

/-- The constructor rejects the capacities, or they add up to a number that fits into the limit and
does not make any sum of live loads one that is rounded. -/
def Fits (p : TransactionPool) : Action → Prop
  | .construct reads writes =>
    (rejects (withDefault reads readDefault) (withDefault writes writeDefault)).isSome = true ∨
    p.liveLoads.sum ≤ 500000 ∧ (Unaddable (constructed reads writes) ∨
      ∃ x, (constructed reads writes).load = some x ∧ p.liveLoads.sum + x ≤ 500000 ∧
        ∀ qs : List ℚ, qs.Sublist (p.liveLoads ++ [x]) → IsDouble qs.sum)
  | _ => True

theorem Fits.counts {a : Action} (h : Fits p a) : Counts p a := by
  cases a with
  | construct reads writes =>
    rcases h with h | ⟨hsum, h | ⟨x, hx, -, hexact⟩⟩
    · exact .inl h
    · exact .inr (.inl ⟨hsum, .inl h⟩)
    · exact .inr (.inl ⟨hsum, .inr ⟨x, hx, hexact⟩⟩)
  | _ => trivial

theorem rejects_ne_maximumCapacity (reads writes : JsValue) :
    rejects reads writes ≠ some .maximumCapacity := by
  rw [rejects]
  split
  · split_ifs <;> simp
  all_goals simp

theorem Fits.withinLimit (hp : Inv p) {a : Action} (h : Fits p a) : WithinLimit p a := by
  cases a with
  | construct reads writes =>
    rw [WithinLimit, TransactionPool.construct]
    cases hr : rejects (withDefault reads readDefault) (withDefault writes writeDefault) with
    | some e =>
      refine ⟨fun q hq => (by cases hq), fun q hq => ?_⟩
      obtain ⟨rfl, -⟩ := Prod.mk.inj (Except.error.inj hq)
      exact absurd hr (rejects_ne_maximumCapacity _ _)
    | none =>
      rcases h with h | ⟨hsum, h | ⟨x, hx, hfits, hexact⟩⟩
      · simp [hr] at h
      · have hpush := pushTransaction_unaddable (j := p.objects.length) hp hsum h
        rw [constructed] at hpush
        simp only [hpush]
        exact ⟨fun q hq => (by cases hq), fun q hq => (by cases hq)⟩
      · obtain ⟨q, hq, hinv, hobj⟩ := pushTransaction_counts hp hsum rfl hx hexact
        rw [constructed] at hq
        simp only [hq]
        refine ⟨fun q' hq' => ?_, fun q' hq' => (by cases hq')⟩
        obtain rfl := Except.ok.inj hq'
        refine ⟨hinv.counted.numbers, ?_⟩
        have hx' : (constructed reads writes).liveLoad = some x := hx
        rw [constructed] at hx'
        simp only [liveLoads, hobj, List.filterMap_append, List.filterMap_cons, hx',
          List.filterMap_nil, List.sum_append, List.sum_cons, List.sum_nil, add_zero]
        exact hfits
  | _ => trivial

/-- The limit holds for every construction of a run in which all of them fit. -/
theorem withinLimit_of_allSteps (as : List Action) (h : Run.AllSteps step Fits new as) :
    Run.AllSteps step WithinLimit new as :=
  h.imp (fun _ a hp ha => hp.step a ha.counts) (fun _ _ hp ha => ha.withinLimit hp) Inv.new

theorem WholeFits.fits {a : Action} (h : WholeFits p a) : Fits p a := by
  cases a with
  | construct reads writes =>
    obtain ⟨hsome, hfits⟩ := h
    obtain ⟨x, hx⟩ := Option.isSome_iff_exists.mp hsome
    obtain ⟨hsum, hwhole⟩ := hfits x hx
    have hnonneg : (0 : ℚ) ≤ x := Rat.num_nonneg.mp (hwhole x (by simp)).2
    refine .inr ⟨by linarith, .inr ⟨x, hx, hsum, isDouble_of_whole hwhole ?_⟩⟩
    rwa [List.sum_append, List.sum_singleton]
  | _ => trivial

/-- The third transaction has what the others leave of the limit; one of these is committed then. -/
def fullRun : List Action :=
  [.construct .undefined .undefined, .construct (.num (.ofInt 200000 (by decide))) (.num (.ofInt 50000 (by decide))),
    .construct (.num (.ofInt 249000 (by decide))) (.num (.ofInt 744 (by decide))), .native 1 .committed, .tend]

/-- The limit is reached and not exceeded. -/
theorem withinLimit_of_whole :
    Run.AllSteps step WithinLimit new fullRun ∧ (Run.after step new fullRun).liveLoads.sum = 500000 :=
  ⟨withinLimit_of_allSteps fullRun
    (Run.AllSteps.mono (fun _ _ h => h.fits) (by decide +kernel : Run.AllSteps step WholeFits new fullRun)),
    by decide +kernel⟩

/-- One transaction of more than the limit is constructed. -/
theorem construct_beyond_limit :
    ¬ Run.AllSteps step WithinLimit new
      [.construct (.num (.ofInt 300000 (by decide))) (.num (.ofInt 300000 (by decide)))] := by
  rintro ⟨⟨h, -⟩, -⟩
  have hsum := (h _ rfl).2
  exact absurd hsum (by decide +kernel)

end TransactionPool

end AerospikeNode
