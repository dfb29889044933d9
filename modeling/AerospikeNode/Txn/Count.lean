import AerospikeNode.Txn.Pool

/-!
# The counter of the transaction pool

`totalReadsAndWrites` is increased by the pool and decreased by each transaction that is closed.
`counted_of_allSteps`: it is the sum of the capacities of the live transactions, each of which is in
the pool, in every run whose constructions all meet `Counts`. A construction fails to when the
counter is above the limit and the sweep brings it back to the limit: `pushTransaction` then neither
counts nor stores the transaction. It also fails to when the two capacities are added to something
that is not a number.
-/

namespace AerospikeNode

namespace Transaction

/-- `readsCapacity + writesCapacity`, if that is a finite number. -/
def load (t : Transaction) : Option ℚ :=
  match t.readsCapacity.plus t.writesCapacity with
  | some (.num n) => n.val
  | _ => none

/-- The load of a transaction that is not destroyed. -/
def liveLoad (t : Transaction) : Option ℚ := if t.destroyed then none else t.load

end Transaction

namespace TransactionPool

variable {p q : TransactionPool} {i : ℕ}

def liveLoads (p : TransactionPool) : List ℚ := p.objects.filterMap Transaction.liveLoad

instance (p : TransactionPool) (i : ℕ) : Decidable (p.Sweeps i) :=
  inferInstanceAs (Decidable (_ ∧ _))

/-- The loads that a sweep leaves. -/
def sweptLoads (p : TransactionPool) : List ℚ :=
  p.objects.zipIdx.filterMap fun x => if p.Sweeps x.2 then none else x.1.liveLoad

/-- The counter is a number, the sum of the loads of the live transactions, and each of them is in
the pool. -/
structure Counted (p : TransactionPool) : Prop where
  total : ∃ n, p.totalReadsAndWrites = .num n ∧ n.val = some p.liveLoads.sum
  numbers : ∀ t ∈ p.objects, t.destroyed = false → t.load.isSome = true
  pooled : ∀ i, p.Live i → i ∈ p.transactions

/-- No sum of live loads is rounded. -/
def Exact (p : TransactionPool) : Prop := ∀ qs : List ℚ, qs.Sublist p.liveLoads → IsDouble qs.sum

/-- The sum is something that cannot be added to a number: the operator throws. -/
def Unaddable (t : Transaction) : Prop :=
  ∀ v, t.readsCapacity.plus t.writesCapacity = some v → ∃ i, v = .bigint i

/-- The construction of a transaction with these capacities throws, or it counts the transaction: the
counter is not above the limit, or stays so after the sweep, and the capacities add up to a number
that does not make any sum of live loads one that is rounded. -/
def Counts (p : TransactionPool) : Action → Prop
  | .construct readsCapacity writesCapacity =>
    let reads := withDefault readsCapacity readDefault
    let writes := withDefault writesCapacity writeDefault
    let t : Transaction := ⟨reads, writes, false, .ok⟩
    (rejects reads writes).isSome = true ∨
    (p.liveLoads.sum ≤ 500000 ∧ (Unaddable t ∨
      ∃ x, t.load = some x ∧ ∀ qs : List ℚ, qs.Sublist (p.liveLoads ++ [x]) → IsDouble qs.sum)) ∨
    (500000 < p.liveLoads.sum ∧ 500000 < p.sweptLoads.sum)
  | _ => True

/-! ### Closing -/

theorem filterMap_set {α β : Type*} (f : α → Option β) {l : List α} :
    ∀ {i : ℕ} {a : α}, l[i]? = some a → ∃ A B, l.filterMap f = A ++ ((f a).toList ++ B) ∧
      ∀ a', (l.set i a').filterMap f = A ++ ((f a').toList ++ B) := by
  induction l with
  | nil => exact fun h => by simp at h
  | cons b l ih =>
    intro i a h
    cases i with
    | zero =>
      obtain rfl : b = a := by simpa using h
      refine ⟨[], l.filterMap f, ?_, fun a' => ?_⟩
      · cases hf : f b <;> simp [hf]
      · cases hf : f a' <;> simp [hf]
    | succ i =>
      obtain ⟨A, B, h1, h2⟩ := ih (i := i) (by simpa using h)
      refine ⟨(f b).toList ++ A, B, ?_, fun a' => ?_⟩
      · cases hf : f b <;> simp [hf, h1]
      · cases hf : f b <;> simp [hf, h2]

/-- The invariant of the runs that meet the condition. -/
structure Inv (p : TransactionPool) : Prop where
  counted : p.Counted
  exact : p.Exact

theorem Inv.new : Inv new := by
  refine ⟨⟨⟨_, rfl, rfl⟩, by simp [TransactionPool.new], ?_⟩, ?_⟩
  · rintro i ⟨t, ht, -⟩
    simp [TransactionPool.new] at ht
  · intro qs hqs
    obtain rfl := List.sublist_nil.mp hqs
    exact ⟨0, 0, by norm_num, by norm_num, by norm_num, by simp⟩

theorem load_eq_some {t : Transaction} {x : ℚ} (h : t.load = some x) :
    ∃ n, t.readsCapacity.plus t.writesCapacity = some (.num n) ∧ n.val = some x := by
  rw [Transaction.load] at h
  split at h
  next n hn => exact ⟨n, hn, h⟩
  next => cases h

theorem Inv.close (h : Inv p) (hc : p.close i = .ok q) : Inv q := by
  rcases close_ok_cases hc with ⟨rfl, -⟩ | ⟨t, total, ht, hd, htotal, rfl⟩
  · exact h
  obtain ⟨n₀, hn₀, hval⟩ := h.counted.total
  obtain ⟨x, hx⟩ := Option.isSome_iff_exists.mp (h.counted.numbers t (List.mem_of_getElem? ht) hd)
  obtain ⟨n, hn, hnx⟩ := load_eq_some hx
  have hlive : t.liveLoad = some x := by rw [Transaction.liveLoad, hd, if_neg Bool.false_ne_true, hx]
  obtain ⟨A, B, hl, hl'⟩ := filterMap_set Transaction.liveLoad ht
  have hloads : p.liveLoads = A ++ x :: B := by rw [liveLoads, hl, hlive]; rfl
  have hloads' : (p.objects.set i { t with destroyed := true }).filterMap Transaction.liveLoad =
      A ++ B := by rw [hl']; rfl
  have hsub : (A ++ B).Sublist p.liveLoads := by
    rw [hloads]
    exact (List.Sublist.refl A).append (List.sublist_cons_self x B)
  have hsum : p.liveLoads.sum - x = (A ++ B).sum := by
    rw [hloads, List.sum_append, List.sum_cons, List.sum_append]
    ring
  refine ⟨⟨?_, ?_, ?_⟩, ?_⟩
  · rw [JsValue.plus_num_comm hn, hn₀, Option.bind_some, JsValue.num_minus_num] at htotal
    refine ⟨n₀.sub n, (Option.some.inj htotal).symm, ?_⟩
    rw [liveLoads, hloads', ← hsum]
    exact JsNumber.sub_val hval hnx (by rw [hsum]; exact h.exact _ hsub)
  · intro t' ht' hd'
    rcases List.mem_or_eq_of_mem_set ht' with ht' | rfl
    · exact h.counted.numbers t' ht' hd'
    · cases hd'
  · exact fun j hj => h.counted.pooled j ((close_live_iff hc).mp hj).1
  · intro qs hqs
    rw [liveLoads, hloads'] at hqs
    exact h.exact qs (hqs.trans hsub)

theorem Inv.closedTo {S : ℕ → Prop} (h : Inv p) (hc : ClosedTo S p q) : Inv q :=
  hc.rule (fun _ _ _ hq _ hclose => hq.close hclose) h

theorem Inv.setPool (h : Inv p) {ts : List ℕ} {c : ℕ} (hts : ∀ i, p.Live i → i ∈ ts) :
    Inv { p with transactions := ts, capacity := c } :=
  ⟨⟨h.counted.total, h.counted.numbers, hts⟩, h.exact⟩

theorem Inv.tendTransactions (h : Inv p) : Inv (left p.tendTransactions) := by
  obtain ⟨q, hq, ⟨e, he⟩ | ⟨-, ts, c, hok, hts⟩⟩ := tendTransactions_spec p
  · rw [he]
    exact h.closedTo hq
  · rw [hok]
    exact (h.closedTo hq).setPool fun i hi => hts i (h.counted.pooled i (hq.of_live hi)) hi

theorem Inv.removeAllTransactions (h : Inv p) : Inv (left p.removeAllTransactions) := by
  obtain ⟨q, hq, ⟨e, he⟩ | ⟨hok, hdead⟩⟩ := removeAllTransactions_spec p
  · rw [he]
    exact h.closedTo hq
  · rw [hok]
    refine (h.closedTo hq).setPool fun i hi => ?_
    exact absurd hi (hdead i (h.counted.pooled i (hq.of_live hi)))

theorem Inv.setState (h : Inv p) (state : TxnState) : Inv (p.setState i state) := by
  rw [TransactionPool.setState]
  split
  next t ht =>
    split_ifs with hd
    · exact h
    obtain ⟨A, B, hl, hl'⟩ := filterMap_set Transaction.liveLoad ht
    have hloads : (p.objects.set i { t with state := state }).filterMap Transaction.liveLoad =
        p.liveLoads := by
      rw [hl', liveLoads, hl]
      rfl
    obtain ⟨hlt, rfl⟩ := List.getElem?_eq_some_iff.mp ht
    refine ⟨⟨?_, ?_, ?_⟩, ?_⟩
    · obtain ⟨n, hn, hval⟩ := h.counted.total
      exact ⟨n, hn, by rw [liveLoads, hloads]; exact hval⟩
    · intro t' ht' hd'
      rcases List.mem_or_eq_of_mem_set ht' with ht' | rfl
      · exact h.counted.numbers t' ht' hd'
      · have hnum := h.counted.numbers p.objects[i] (List.getElem_mem hlt) hd'
        exact hnum
    · rintro j ⟨t', ht', hd'⟩
      refine h.counted.pooled j ?_
      rw [List.getElem?_set] at ht'
      split_ifs at ht' with hij
      · subst hij
        exact ⟨_, ht, by simpa using hd⟩
      · exact ⟨t', ht', hd'⟩
    · intro qs hqs
      rw [liveLoads, hloads] at hqs
      exact h.exact qs hqs
  next => exact h

/-! ### Constructing -/

theorem filterMap_zipIdx_congr {α β : Type*} {f : α → Option β} {g : α × ℕ → Option β} {l : List α} :
    ∀ {l' : List α} {n : ℕ}, l'.length = l.length →
      (∀ k t t', l[k]? = some t → l'[k]? = some t' → f t' = g (t, n + k)) →
      l'.filterMap f = (l.zipIdx n).filterMap g := by
  induction l with
  | nil => exact fun hlen _ => by rw [List.eq_nil_of_length_eq_zero hlen]; rfl
  | cons t l ih =>
    intro l' n hlen h
    obtain ⟨t', l', rfl⟩ := List.exists_cons_of_length_eq_add_one hlen
    have htail : l'.filterMap f = (l.zipIdx (n + 1)).filterMap g :=
      ih (Nat.succ.inj hlen) fun k u u' hu hu' => by
        rw [Nat.add_assoc, Nat.add_comm 1 k]
        exact h (k + 1) u u' hu hu'
    rw [List.zipIdx_cons, List.filterMap_cons, List.filterMap_cons, h 0 t t' rfl rfl, htail]
    rfl

theorem ClosedTo.length {S : ℕ → Prop} (h : ClosedTo S p q) : q.objects.length = p.objects.length := by
  refine h.rule (I := fun q => q.objects.length = p.objects.length) (fun q q' i hq _ hc => ?_) rfl
  rcases close_ok_cases hc with ⟨rfl, -⟩ | ⟨t, total, -, -, -, rfl⟩
  · exact hq
  · rw [List.length_set]
    exact hq

/-- After a sweep the live loads are those it leaves. -/
theorem ClosedTo.sweptLoads (h : ClosedTo p.Sweeps p q) (hdead : ∀ i, p.Sweeps i → ¬ q.Live i) :
    q.liveLoads = p.sweptLoads := by
  refine filterMap_zipIdx_congr h.length fun k t t' ht ht' => ?_
  have hobj := h.objects k
  rw [ht, ht', Option.map_some, Option.map_some, Option.some.injEq] at hobj
  have hload : t'.load = t.load := by
    have := congrArg Transaction.load hobj
    exact this
  rw [Nat.zero_add]
  by_cases hk : p.Sweeps k
  · have : t'.destroyed = true := by
      by_contra hd
      exact hdead k hk ⟨t', ht', by simpa using hd⟩
    rw [if_pos hk, Transaction.liveLoad, this, if_pos rfl]
  · have hd : t'.destroyed = t.destroyed := by
      cases hd : t.destroyed with
      | false =>
        obtain ⟨u, hu, hu'⟩ := h.live_of_not ⟨t, ht, hd⟩ hk
        rw [ht'] at hu
        exact Option.some.inj hu ▸ hu'
      | true =>
        by_contra hd'
        obtain ⟨u, hu, hu'⟩ := h.of_live ⟨t', ht', by simpa using hd'⟩
        rw [ht] at hu
        rw [Option.some.inj hu, hu'] at hd
        cases hd
    rw [if_neg hk, Transaction.liveLoad, Transaction.liveLoad, hd, hload]

theorem gtNumber_total {n : JsNumber} {x : ℚ} (hn : p.totalReadsAndWrites = .num n)
    (hx : n.val = some x) : p.totalReadsAndWrites.gtNumber readWriteLimit = decide (500000 < x) := by
  rw [hn]
  exact JsNumber.gt_eq hx (r := 500000) rfl

theorem pushTransaction_full (h : Inv p) {t : Transaction} {j : ℕ} (hsum : 500000 < p.liveLoads.sum)
    (hswept : 500000 < p.sweptLoads.sum) :
    ∃ e, p.pushTransaction t j = .error e ∧ Inv e.2 := by
  obtain ⟨n, hn, hval⟩ := h.counted.total
  have htend := h.tendTransactions
  rw [pushTransaction, gtNumber_total hn hval, decide_eq_true hsum, if_pos rfl]
  obtain ⟨q, hq, ⟨e, he⟩ | ⟨hdead, ts, c, hok, -⟩⟩ := tendTransactions_spec p
  · rw [he]
    exact ⟨(e, q), rfl, h.closedTo hq⟩
  · obtain ⟨m, hm, hmval⟩ := (h.closedTo hq).counted.total
    rw [hq.sweptLoads hdead] at hmval
    have hgt := gtNumber_total (p := { q with transactions := ts, capacity := c }) hm hmval
    rw [decide_eq_true hswept] at hgt
    rw [hok] at htend ⊢
    refine ⟨(.maximumCapacity, { q with transactions := ts, capacity := c }), ?_, htend⟩
    show (if _ then _ else _) = _
    rw [hgt]
    rfl

theorem pushTransaction_unaddable (h : Inv p) {t : Transaction} {j : ℕ}
    (hsum : p.liveLoads.sum ≤ 500000) (ht : Unaddable t) :
    p.pushTransaction t j = .error (.typeError, p) := by
  obtain ⟨n, hn, hval⟩ := h.counted.total
  rw [pushTransaction, gtNumber_total hn hval, decide_eq_false (not_lt.mpr hsum),
    if_neg Bool.false_ne_true]
  cases hplus : t.readsCapacity.plus t.writesCapacity with
  | none => rfl
  | some v =>
    obtain ⟨i, rfl⟩ := ht v hplus
    rw [hn]
    rfl

theorem pushTransaction_counts (h : Inv p) {t : Transaction} {x : ℚ}
    (hsum : p.liveLoads.sum ≤ 500000) (hd : t.destroyed = false) (ht : t.load = some x)
    (hexact : ∀ qs : List ℚ, qs.Sublist (p.liveLoads ++ [x]) → IsDouble qs.sum) :
    ∃ q, p.pushTransaction t p.objects.length = .ok q ∧
      Inv { q with objects := q.objects ++ [t] } ∧ q.objects = p.objects := by
  obtain ⟨n, hn, hval⟩ := h.counted.total
  obtain ⟨m, hm, hmval⟩ := load_eq_some ht
  rw [pushTransaction, gtNumber_total hn hval, decide_eq_false (not_lt.mpr hsum),
    if_neg Bool.false_ne_true, hm, hn, Option.bind_some, JsValue.num_plus_num]
  refine ⟨_, rfl, ?_, rfl⟩
  have hloads : (p.objects ++ [t]).filterMap Transaction.liveLoad = p.liveLoads ++ [x] := by
    rw [List.filterMap_append, liveLoads]
    simp [Transaction.liveLoad, hd, ht]
  have hadd : p.liveLoads.sum + x = (p.liveLoads ++ [x]).sum := by simp
  refine ⟨⟨?_, ?_, ?_⟩, ?_⟩
  · refine ⟨_, rfl, ?_⟩
    rw [liveLoads, hloads, ← hadd]
    exact JsNumber.add_val hval hmval (by rw [hadd]; exact hexact _ (List.Sublist.refl _))
  · intro t' ht' hd'
    rcases List.mem_append.mp ht' with ht' | ht'
    · exact h.counted.numbers t' ht' hd'
    · rw [List.mem_singleton.mp ht', ht]
      rfl
  · rintro j ⟨t', ht', hd'⟩
    rw [List.getElem?_append] at ht'
    refine List.mem_append.mpr ?_
    split_ifs at ht' with hlt
    · exact .inl (h.counted.pooled j ⟨t', ht', hd'⟩)
    · have hj : j - p.objects.length < 1 := (List.getElem?_eq_some_iff.mp ht').1
      have hge : ¬ j < p.objects.length := hlt
      exact .inr (List.mem_singleton.mpr (by omega))
  · intro qs hqs
    rw [liveLoads, hloads] at hqs
    exact hexact qs hqs

theorem Inv.construct (h : Inv p) {reads writes : JsValue} (hc : Counts p (.construct reads writes)) :
    Inv (left (p.construct reads writes)) := by
  rw [TransactionPool.construct]
  cases hr : rejects (withDefault reads readDefault) (withDefault writes writeDefault) with
  | some e => exact h
  | none =>
    rcases hc with hc | ⟨hsum, hc⟩ | ⟨hsum, hswept⟩
    · simp [hr] at hc
    · rcases hc with hc | ⟨x, hx, hexact⟩
      · simp only [pushTransaction_unaddable h hsum hc]
        exact h
      · obtain ⟨q, hq, hinv, hobj⟩ := pushTransaction_counts h hsum rfl hx hexact
        simp only [hq]
        show Inv { q with objects := _ }
        exact hinv
    · obtain ⟨e, he, hinv⟩ := pushTransaction_full h
        (t := ⟨withDefault reads readDefault, withDefault writes writeDefault, false, .ok⟩)
        (j := p.objects.length) hsum hswept
      simp only [he]
      exact hinv

theorem Inv.step (h : Inv p) (a : Action) (hc : Counts p a) : Inv (p.step a) := by
  cases a with
  | construct reads writes => exact h.construct hc
  | commit i => exact h.tendTransactions
  | abort i => exact h.tendTransactions
  | tend => exact h.tendTransactions
  | destroyAll => exact h.removeAllTransactions
  | clientClose connectedClients destroyTransactions =>
    rw [TransactionPool.step, act]
    split_ifs
    · exact h.removeAllTransactions
    · exact h
  | native i state => exact h.setState state

/-- In every state of a run whose constructions meet the condition, the counter is the sum of the
capacities of the live transactions, and these are in the pool. -/
theorem counted_of_allSteps (as : List Action) (h : Run.AllSteps step Counts new as) :
    Run.Always step Counted new as :=
  .of_allSteps (fun _ a hp ha => hp.step a ha) (fun _ hp => hp.counted) Inv.new h

/-- Natural numbers with a small sum are never rounded. -/
theorem isDouble_of_naturals {l : List ℕ} (h : l.sum < 2 ^ 53) :
    ∀ qs : List ℚ, qs.Sublist (l.map Nat.cast) → IsDouble qs.sum := by
  intro qs hqs
  obtain ⟨l', hl', rfl⟩ := List.sublist_map_iff.mp hqs
  have hle : l'.sum ≤ l.sum := hl'.sum_le_sum fun _ _ => Nat.zero_le _
  have hcast : (l'.map (Nat.cast : ℕ → ℚ)).sum = ((l'.sum : ℤ) : ℚ) := by
    rw [Int.cast_natCast]
    exact (map_list_sum (Nat.castRingHom ℚ) l').symm
  rw [hcast]
  refine .ofInt ?_
  rw [abs_of_nonneg (Int.natCast_nonneg _)]
  exact_mod_cast hle.trans_lt h

/-- Whole capacities that fit into the limit with those of the live transactions, which are whole too. -/
def WholeFits (p : TransactionPool) : Action → Prop
  | .construct readsCapacity writesCapacity =>
    let t : Transaction :=
      ⟨withDefault readsCapacity readDefault, withDefault writesCapacity writeDefault, false, .ok⟩
    t.load.isSome = true ∧ ∀ x ∈ t.load,
      p.liveLoads.sum + x ≤ 500000 ∧ ∀ y ∈ p.liveLoads ++ [x], y.den = 1 ∧ 0 ≤ y.num
  | _ => True

instance (p : TransactionPool) : (a : Action) → Decidable (WholeFits p a)
  | .construct _ _ => inferInstanceAs (Decidable (_ ∧ _))
  | .commit _ | .abort _ | .tend | .destroyAll | .clientClose _ _ | .native _ _ => instDecidableTrue

theorem isDouble_of_whole {l : List ℚ} (h : ∀ y ∈ l, y.den = 1 ∧ 0 ≤ y.num) (hsum : l.sum ≤ 500000) :
    ∀ qs : List ℚ, qs.Sublist l → IsDouble qs.sum := by
  have hnat : l = (l.map fun y => y.num.toNat).map Nat.cast := by
    rw [List.map_map]
    refine (List.map_id l).symm.trans (List.map_congr_left fun y hy => ?_)
    obtain ⟨hden, hnum⟩ := h y hy
    have hcast : ((y.num.toNat : ℤ) : ℚ) = y := by
      rw [Int.toNat_of_nonneg hnum]
      exact Rat.coe_int_num_of_den_eq_one hden
    exact hcast.symm
  have hcast : (((l.map fun y => y.num.toNat).sum : ℕ) : ℚ) = l.sum := by
    conv_rhs => rw [hnat]
    exact map_list_sum (Nat.castRingHom ℚ) _
  have hlt : (l.map fun y => y.num.toNat).sum < 2 ^ 53 := by
    have hle : (((l.map fun y => y.num.toNat).sum : ℕ) : ℚ) ≤ ((500000 : ℕ) : ℚ) := by
      rw [hcast]
      exact_mod_cast hsum
    have hlimit : (l.map fun y => y.num.toNat).sum ≤ 500000 := Nat.cast_le.mp hle
    omega
  rw [hnat]
  exact isDouble_of_naturals hlt

/-- Such constructions are counted, and none is dropped. -/
theorem WholeFits.counts {a : Action} (h : WholeFits p a) : Counts p a := by
  cases a with
  | construct reads writes =>
    obtain ⟨hsome, hfits⟩ := h
    obtain ⟨x, hx⟩ := Option.isSome_iff_exists.mp hsome
    obtain ⟨hsum, hwhole⟩ := hfits x hx
    have hnonneg : (0 : ℚ) ≤ x := Rat.num_nonneg.mp (hwhole x (by simp)).2
    refine .inr (.inl ⟨by linarith, .inr ⟨x, hx, isDouble_of_whole hwhole ?_⟩⟩)
    rwa [List.sum_append, List.sum_singleton]
  | _ => trivial

/-- `129` transactions with the default capacities, one more than the pool has room for; the first is committed. -/
def committedRun : List Action :=
  List.replicate 129 (.construct .undefined .undefined) ++ [.native 0 .committed, .tend]

/-- The sweep removes the transaction that is committed. -/
theorem counted_of_default : Run.Always step Counted new committedRun ∧
    (Run.after step new committedRun).transactions = List.range' 1 128 :=
  ⟨counted_of_allSteps committedRun
    (Run.AllSteps.mono (fun _ _ h => h.counts)
      (by decide +kernel : Run.AllSteps step WholeFits new committedRun)), by decide +kernel⟩

theorem reads_safe : |(3900 : ℤ)| < 2 ^ 53 := by decide

theorem writes_safe : |(0 : ℤ)| < 2 ^ 53 := by decide

/-- The pool is longer than its capacity and the counter above the limit; two transactions are
complete when the next one is constructed. -/
def sweptRun : List Action :=
  List.replicate 129 (.construct (.num (.ofInt 3900 reads_safe)) (.num (.ofInt 0 writes_safe))) ++
    [.native 0 .committed, .native 1 .committed, .construct .undefined .undefined]

/-- The transaction constructed last is live, and neither counted nor in the pool. -/
theorem sweptRun_not_counted : ¬ Counted (Run.after step new sweptRun) := by
  intro h
  have heval : (Run.after step new sweptRun).objects[129]?.map (·.destroyed) = some false ∧
      129 ∉ (Run.after step new sweptRun).transactions := by decide +kernel
  obtain ⟨t, ht, hd⟩ := Option.map_eq_some_iff.mp heval.1
  exact heval.2 (h.pooled 129 ⟨t, ht, hd⟩)

end TransactionPool

end AerospikeNode
