import AerospikeNode.Txn.Count
import AerospikeNode.Lib.Ledger

/-!
# The native transaction behind a `Transaction`

`Client#commit`, `Client#abort` and data commands hand the native transaction to a native command,
which keeps it until it calls back; `Transaction#close` destroys it. A data command takes the pointer
out of `policy.txn.transaction` (`get_optional_transaction_property`) and looks at nothing else.

`sound_of_allSteps`: a native transaction is closed at most once, not while a command that was handed
it is in flight, and handed to none afterwards, in every run whose steps are `Careful`: no data
command is given a destroyed transaction, and nothing that a command in flight uses is swept or
removed.
-/

namespace AerospikeNode

open Access

/-- The transactions of a process, those that native commands in flight were handed, and what was
handed (`use`) and closed (`release`), in order. -/
structure TxnSystem where
  pool : TransactionPool
  inFlight : List ℕ
  ledger : List (Access ℕ)

namespace TxnSystem

def start : TxnSystem := ⟨.new, [], []⟩

inductive Action where
  | construct (readsCapacity writesCapacity : JsValue)
  /-- `Client#commit` or `Client#abort`, on a client that is connected or not. -/
  | commit (i : ℕ) (connected : Bool)
  | abort (i : ℕ) (connected : Bool)
  /-- A command with the transaction in its policy. -/
  | data (i : ℕ) (connected : Bool)
  /-- A command in flight calls back. -/
  | complete (k : ℕ)
  | native (i : ℕ) (state : TxnState)
  | tend
  | destroyAll
  | clientClose (connectedClients : ℕ) (destroyTransactions : Bool)

/-- The pool after an operation; what the operation closed goes to the ledger. -/
def settle (s : TxnSystem) (p : TransactionPool) : TxnSystem :=
  { s with
    pool := p
    ledger := s.ledger ++ (p.closed.drop s.pool.closed.length).map release }

/-- A native command is given the transaction. -/
def hand (s : TxnSystem) (i : ℕ) : TxnSystem :=
  { s with inFlight := s.inFlight ++ [i], ledger := s.ledger ++ [use i] }

/-- What `commit` and `abort` check after their sweep before they execute a command. -/
def mayComplete (p : TransactionPool) (i : ℕ) : Bool :=
  match p.objects[i]? with
  | some t => !(t.state == .committed) && !(t.state == .aborted) && !t.destroyed
  | none => false

/-- `Client#commit` and `Client#abort`: a sweep, the checks, and the command, which is not issued on
a client that is not connected. -/
def finish (s : TxnSystem) (i : ℕ) (connected : Bool) : TxnSystem :=
  match s.pool.tendTransactions with
  | .error (_, p) => s.settle p
  | .ok p => if mayComplete p i && connected then (s.settle p).hand i else s.settle p

def step (s : TxnSystem) : Action → TxnSystem
  | .construct reads writes => s.settle (TransactionPool.left (s.pool.construct reads writes))
  | .commit i connected | .abort i connected => s.finish i connected
  | .data i connected => if connected && i < s.pool.objects.length then s.hand i else s
  | .complete k => { s with inFlight := s.inFlight.eraseIdx k }
  | .native i state => { s with pool := s.pool.setState i state }
  | .tend => s.settle (TransactionPool.left s.pool.tendTransactions)
  | .destroyAll => s.settle (TransactionPool.left s.pool.removeAllTransactions)
  | .clientClose connectedClients destroyTransactions =>
    if connectedClients = 0 ∧ destroyTransactions = true then
      s.settle (TransactionPool.left s.pool.removeAllTransactions)
    else s

/-- Closed at most once, not while in flight, and not handed to a command afterwards. -/
structure Sound (s : TxnSystem) : Prop where
  once : ∀ i, releases s.ledger i ≤ 1
  notInFlight : ∀ i ∈ s.inFlight, release i ∉ s.ledger
  orderly : NoUseAfterRelease s.ledger

/-- No data command is given a destroyed transaction, and no operation closes a transaction that a
command in flight uses: neither a sweep, which closes the complete ones of a pool that is longer than
its capacity, nor the removal of all. -/
def Careful (s : TxnSystem) : Action → Prop
  | .construct reads writes =>
    TransactionPool.rejects (TransactionPool.withDefault reads TransactionPool.readDefault)
        (TransactionPool.withDefault writes TransactionPool.writeDefault) = none →
      s.pool.totalReadsAndWrites.gtNumber TransactionPool.readWriteLimit = true →
        ∀ i ∈ s.inFlight, ¬ s.pool.Sweeps i
  | .commit _ _ | .abort _ _ | .tend => ∀ i ∈ s.inFlight, ¬ s.pool.Sweeps i
  | .data i connected => connected = true → i < s.pool.objects.length → s.pool.Live i
  | .complete _ | .native _ _ => True
  | .destroyAll => ∀ i ∈ s.inFlight, i ∉ s.pool.transactions
  | .clientClose connectedClients destroyTransactions =>
    connectedClients = 0 → destroyTransactions = true → ∀ i ∈ s.inFlight, i ∉ s.pool.transactions

/-! ### What an operation closes -/

variable {s : TxnSystem} {p q : TransactionPool} {S : ℕ → Prop} {i : ℕ}

theorem closedTo_closed (h : TransactionPool.ClosedTo S p q) :
    ∃ is, q.closed = p.closed ++ is ∧ is.Nodup ∧ ∀ i ∈ is, p.Live i ∧ S i ∧ ¬ q.Live i := by
  induction h with
  | refl => exact ⟨[], by simp, List.nodup_nil, by simp⟩
  | @close q q' i h hi hc ih =>
    obtain ⟨is, his, hnd, hlive⟩ := ih
    have hsub : ∀ j, ¬ q.Live j → ¬ q'.Live j := fun j hj hj' =>
      hj ((TransactionPool.close_live_iff hc).mp hj').1
    rcases TransactionPool.close_ok_cases hc with ⟨rfl, -⟩ | ⟨t, total, ht, hd, -, rfl⟩
    · exact ⟨is, his, hnd, hlive⟩
    · have hqi : q.Live i := ⟨t, ht, hd⟩
      refine ⟨is ++ [i], by simp [his], ?_, ?_⟩
      · rw [List.nodup_append]
        refine ⟨hnd, List.nodup_singleton i, ?_⟩
        rintro j hj k hk rfl
        rw [List.mem_singleton.mp hk] at hj
        exact (hlive i hj).2.2 hqi
      · intro j hj
        rcases List.mem_append.mp hj with hj | hj
        · exact ⟨(hlive j hj).1, (hlive j hj).2.1, hsub j (hlive j hj).2.2⟩
        · obtain rfl := List.mem_singleton.mp hj
          exact ⟨h.of_live hqi, hi, fun hj' => ((TransactionPool.close_live_iff hc).mp hj').2 rfl⟩

/-- Live transactions are not closed, what is in flight is live, and only constructed transactions
are closed. -/
structure Inv (s : TxnSystem) : Prop where
  once : ∀ i, releases s.ledger i ≤ 1
  orderly : NoUseAfterRelease s.ledger
  live : ∀ i, s.pool.Live i → release i ∉ s.ledger
  inFlight : ∀ i ∈ s.inFlight, s.pool.Live i
  below : ∀ i, release i ∈ s.ledger → i < s.pool.objects.length

theorem Inv.sound (h : Inv s) : Sound s :=
  ⟨h.once, fun i hi => h.live i (h.inFlight i hi), h.orderly⟩

theorem Inv.start : Inv start := by
  refine ⟨by simp [TxnSystem.start], .of_none (by simp [TxnSystem.start]), ?_, ?_, ?_⟩ <;>
    simp [TxnSystem.start]

/-- Closing transactions that no command in flight uses, and constructing one or none. -/
theorem Inv.settle (h : Inv s) (hc : TransactionPool.ClosedTo S s.pool q)
    (hS : ∀ i ∈ s.inFlight, ¬ S i) (hclosed : p.closed = q.closed)
    (hobj : p.objects = q.objects ∨ ∃ t, p.objects = q.objects ++ [t]) : Inv (s.settle p) := by
  obtain ⟨is, his, hnd, hlive⟩ := closedTo_closed hc
  have hdrop : p.closed.drop s.pool.closed.length = is := by rw [hclosed, his, List.drop_left]
  have hledger : (s.settle p).ledger = s.ledger ++ is.map release := by
    rw [TxnSystem.settle, hdrop]
  have hmem : ∀ i, release i ∈ (s.settle p).ledger ↔ release i ∈ s.ledger ∨ i ∈ is := by
    intro i
    rw [hledger, List.mem_append, List.mem_map_of_injective fun _ _ => release.inj]
  have hlt : ∀ i, s.pool.Live i → i < s.pool.objects.length := by
    rintro i ⟨t, ht, -⟩
    exact (List.getElem?_eq_some_iff.mp ht).1
  have hlen : s.pool.objects.length ≤ p.objects.length := by
    rw [← hc.length]
    rcases hobj with hobj | ⟨t, hobj⟩ <;> simp [hobj]
  have hofLive : ∀ i, i < s.pool.objects.length → p.Live i → q.Live i := by
    rintro i hi ⟨t, ht, hd⟩
    refine ⟨t, ?_, hd⟩
    rcases hobj with hobj | ⟨t', hobj⟩
    · rwa [hobj] at ht
    · rwa [hobj, List.getElem?_append_left (by rw [hc.length]; exact hi)] at ht
  have htoLive : ∀ i, q.Live i → p.Live i := by
    rintro i ⟨t, ht, hd⟩
    refine ⟨t, ?_, hd⟩
    rcases hobj with hobj | ⟨t', hobj⟩
    · rwa [hobj]
    · rwa [hobj, List.getElem?_append_left (List.getElem?_eq_some_iff.mp ht).1]
  refine ⟨fun i => ?_, ?_, fun i hi => ?_, fun i hi => ?_, fun i hi => ?_⟩
  · rw [hledger, releases_append]
    by_cases hi : i ∈ is
    · have hzero := releases_eq_zero.mpr (h.live i (hlive i hi).1)
      have hone : releases (is.map release) i ≤ 1 := by
        rw [releases, List.count_map_of_injective _ _ fun _ _ => release.inj]
        exact List.nodup_iff_count_le_one.mp hnd i
      omega
    · have hzero : releases (is.map release) i = 0 := by
        rw [releases_eq_zero, List.mem_map_of_injective fun _ _ => release.inj]
        exact hi
      have := h.once i
      omega
  · rw [hledger]
    refine h.orderly.append ?_ (by simp)
    exact noUseAfterRelease_iff.mpr fun r before later heq hmem => by
      have : use r ∈ is.map release := by rw [heq]; simp [hmem]
      simp at this
  · rw [hmem, not_or]
    by_cases hi' : i < s.pool.objects.length
    · have hqi := hofLive i hi' hi
      exact ⟨h.live i (hc.of_live hqi), fun his => (hlive i his).2.2 hqi⟩
    · exact ⟨fun hr => hi' (h.below i hr), fun his => hi' (hlt i (hlive i his).1)⟩
  · exact htoLive i (hc.live_of_not (h.inFlight i hi) (hS i hi))
  · rcases (hmem i).mp hi with hi | hi
    · exact (h.below i hi).trans_le hlen
    · exact (hlt i (hlive i hi).1).trans_le hlen

theorem Inv.hand (h : Inv s) (hi : s.pool.Live i) : Inv (s.hand i) := by
  have hmem : ∀ j, release j ∈ (s.hand i).ledger ↔ release j ∈ s.ledger := by simp [TxnSystem.hand]
  refine ⟨fun j => ?_, ?_, fun j hj => ?_, fun j hj => ?_, fun j hj => ?_⟩
  · rw [TxnSystem.hand, releases_append]
    have hzero : releases [use i] j = 0 := releases_eq_zero.mpr (by simp)
    have := h.once j
    omega
  · refine h.orderly.append (List.pairwise_singleton _ _) fun j hj hu => ?_
    obtain rfl : j = i := by simpa using hu
    exact h.live j hi hj
  · rw [hmem]
    exact h.live j hj
  · rcases List.mem_append.mp hj with hj | hj
    · exact h.inFlight j hj
    · exact List.mem_singleton.mp hj ▸ hi
  · exact h.below j ((hmem j).mp hj)

theorem Inv.tend (h : Inv s) (hS : ∀ i ∈ s.inFlight, ¬ s.pool.Sweeps i) :
    Inv (s.settle (TransactionPool.left s.pool.tendTransactions)) := by
  obtain ⟨q, hq, ⟨e, he⟩ | ⟨-, ts, c, hok, -⟩⟩ := s.pool.tendTransactions_spec
  · rw [he]
    exact h.settle hq hS rfl (.inl rfl)
  · rw [hok]
    exact h.settle hq hS rfl (.inl rfl)

theorem Inv.removeAll (h : Inv s) (hS : ∀ i ∈ s.inFlight, i ∉ s.pool.transactions) :
    Inv (s.settle (TransactionPool.left s.pool.removeAllTransactions)) := by
  obtain ⟨q, hq, ⟨e, he⟩ | ⟨hok, -⟩⟩ := s.pool.removeAllTransactions_spec
  · rw [he]
    exact h.settle hq hS rfl (.inl rfl)
  · rw [hok]
    exact h.settle hq hS rfl (.inl rfl)

theorem live_of_mayComplete (h : mayComplete p i = true) : p.Live i := by
  rw [mayComplete] at h
  split at h
  next t ht => exact ⟨t, ht, by simp at h; exact h.2⟩
  next => cases h

theorem Inv.finish (h : Inv s) (connected : Bool) (hS : ∀ i ∈ s.inFlight, ¬ s.pool.Sweeps i) :
    Inv (s.finish i connected) := by
  have htend := h.tend hS
  rw [TxnSystem.finish]
  rcases hok : s.pool.tendTransactions with ⟨e, p⟩ | p
  · rw [hok] at htend
    exact htend
  · rw [hok] at htend
    dsimp only
    split_ifs with hc
    · rw [Bool.and_eq_true] at hc
      exact Inv.hand (s := s.settle p) htend (live_of_mayComplete hc.1)
    · exact htend

theorem setState_live_iff (p : TransactionPool) (i j : ℕ) (state : TxnState) :
    (p.setState i state).Live j ↔ p.Live j := by
  rw [TransactionPool.setState]
  split
  next t ht =>
    split_ifs with hd
    · rfl
    · obtain ⟨hlt, rfl⟩ := List.getElem?_eq_some_iff.mp ht
      simp only [TransactionPool.Live, List.getElem?_set]
      by_cases hij : i = j
      · subst hij
        simp [hlt]
      · simp [hij]
  next => rfl

theorem setState_length (p : TransactionPool) (i : ℕ) (state : TxnState) :
    (p.setState i state).objects.length = p.objects.length := by
  rw [TransactionPool.setState]
  split
  next => split_ifs <;> simp
  next => rfl

theorem Inv.step (h : Inv s) (a : Action) (ha : Careful s a) : Inv (s.step a) := by
  cases a with
  | construct reads writes =>
    obtain ⟨q, hq, hclosed, hobj⟩ := s.pool.construct_spec reads writes
    exact h.settle hq (fun i hi hS => ha hS.1 hS.2.1 i hi hS.2.2) hclosed hobj
  | commit i connected => exact h.finish connected ha
  | abort i connected => exact h.finish connected ha
  | data i connected =>
    rw [TxnSystem.step]
    split_ifs with hc
    · simp only [Bool.and_eq_true, decide_eq_true_eq] at hc
      exact h.hand (ha hc.1 hc.2)
    · exact h
  | complete k =>
    exact ⟨h.once, h.orderly, h.live, fun i hi => h.inFlight i (List.mem_of_mem_eraseIdx hi), h.below⟩
  | native i state =>
    refine ⟨h.once, h.orderly, fun j hj => ?_, fun j hj => ?_, fun j hj => ?_⟩
    · exact h.live j ((setState_live_iff _ _ _ _).mp hj)
    · exact (setState_live_iff _ _ _ _).mpr (h.inFlight j hj)
    · rw [TxnSystem.step, setState_length]
      exact h.below j hj
  | tend => exact h.tend ha
  | destroyAll => exact h.removeAll ha
  | clientClose connectedClients destroyTransactions =>
    rw [TxnSystem.step]
    split_ifs with hc
    · exact h.removeAll (ha hc.1 hc.2)
    · exact h

/-- Every state of a careful run is sound. -/
theorem sound_of_allSteps (as : List Action) (h : Run.AllSteps step Careful start as) :
    Run.Always step Sound start as :=
  .of_allSteps (fun _ a hs ha => hs.step a ha) (fun _ hs => hs.sound) Inv.start h

/-- A transaction is used by a write, committed, and destroyed when the last client is closed. -/
theorem sound_commit :
    Run.Always step Sound start
      [.construct .undefined .undefined, .data 0 true, .complete 0, .commit 0 true,
        .native 0 .committed, .complete 0, .clientClose 0 true] :=
  sound_of_allSteps
    [.construct .undefined .undefined, .data 0 true, .complete 0, .commit 0 true,
      .native 0 .committed, .complete 0, .clientClose 0 true]
    ⟨fun _ _ _ hi => (nomatch hi), fun _ _ => ⟨_, rfl, rfl⟩, trivial, fun _ hi => (nomatch hi),
      trivial, trivial, fun _ _ _ hi => (nomatch hi), trivial⟩

/-- A write in flight uses a transaction that `destroyAll` closes. -/
theorem destroyAll_in_flight :
    ¬ Run.Always step Sound start [.construct .undefined .undefined, .data 0 true, .destroyAll] := by
  intro h
  exact h.last.notInFlight 0 (by decide +kernel) (by decide +kernel)

end TxnSystem

end AerospikeNode
