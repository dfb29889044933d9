import AerospikeNode.Js.Arith
import AerospikeNode.Lib.Run
import Mathlib.Data.List.Zip

/-!
# Transactions and their pool

`lib/transaction.js` and `lib/transaction_pool.js`. Every `Transaction` that was constructed has an
index in `objects`; the pool's `transactions` lists indices. An operation that throws leaves the
state it has reached, so an outcome is a state either way. The counter `totalReadsAndWrites` is a
JavaScript value: what the operators make of the capacities decides what it is.
-/

namespace AerospikeNode

inductive TxnState where
  | ok
  | verified
  | committed
  | aborted
deriving DecidableEq

/-- A `Transaction`. Its state is that of the native transaction, or the one `prepareToClose` saved. -/
structure Transaction where
  readsCapacity : JsValue
  writesCapacity : JsValue
  destroyed : Bool
  state : TxnState

inductive TxnError where
  /-- The `RangeError` of `pushTransaction`. -/
  | maximumCapacity
  | rangeError (message : JsString)
  | typeError
deriving DecidableEq

/-- The transactions constructed so far, the pool, and the native transactions that were closed. -/
structure TransactionPool where
  objects : List Transaction
  transactions : List ℕ
  capacity : ℕ
  totalReadsAndWrites : JsValue
  closed : List ℕ

namespace TransactionPool

/-- What an operation leaves, and what it throws if it does. -/
abbrev Outcome := Except (TxnError × TransactionPool) TransactionPool

/-- The state an operation leaves. -/
def left : Outcome → TransactionPool
  | .ok p => p
  | .error (_, p) => p

def readWriteLimit : JsNumber := .ofInt 500000 (by decide)

def readDefault : JsValue := .num (.ofInt 128 (by decide))

def writeDefault : JsValue := .num (.ofInt 128 (by decide))

def new : TransactionPool := ⟨[], [], 128, .num (.ofInt 0 (by decide)), []⟩

def getState (p : TransactionPool) (i : ℕ) : Option TxnState := p.objects[i]?.map (·.state)

/-- `Transaction.close`, with `prepareToClose`. -/
def close (p : TransactionPool) (i : ℕ) : Outcome :=
  match p.objects[i]? with
  | none => .ok p
  | some t =>
    if t.destroyed then .ok p
    else
      match (t.writesCapacity.plus t.readsCapacity).bind p.totalReadsAndWrites.minus with
      | none => .error (.typeError, p)
      | some total => .ok { p with
          totalReadsAndWrites := total
          objects := p.objects.set i { t with destroyed := true }
          closed := p.closed ++ [i] }

/-- `COMMITTED` or `ABORTED` -/
def isComplete (p : TransactionPool) (i : ℕ) : Bool :=
  p.getState i == some .committed || p.getState i == some .aborted

/-- The body of the loop of `tendTransactions` at an element of the pool and its index. -/
def tendOne (acc : TransactionPool × List ℕ) (x : ℕ × ℕ) :
    Except (TxnError × TransactionPool) (TransactionPool × List ℕ) :=
  if acc.1.isComplete x.1 then do
    let p ← acc.1.close x.1
    return (p, x.2 :: acc.2)
  else return acc

/-- `removeTransactions` -/
def removeTransactions (ts : List ℕ) (indices : List ℕ) : List ℕ :=
  indices.foldl List.eraseIdx ts

def increaseCapacity (p : TransactionPool) : TransactionPool := { p with capacity := p.capacity * 2 }

def tendTransactions (p : TransactionPool) : Outcome :=
  if p.transactions.length > p.capacity then do
    let (p, indicesToDelete) ← p.transactions.zipIdx.foldlM tendOne (p, [])
    let p := { p with transactions := removeTransactions p.transactions indicesToDelete }
    return if p.transactions.length > p.capacity then p.increaseCapacity else p
  else return p

def removeAllTransactions (p : TransactionPool) : Outcome := do
  let p ← p.transactions.foldlM close p
  return { p with transactions := [] }

/-- `pushTransaction`, for a transaction that gets the index `i` when it is constructed. -/
def pushTransaction (p : TransactionPool) (t : Transaction) (i : ℕ) : Outcome :=
  if p.totalReadsAndWrites.gtNumber readWriteLimit then do
    let p ← p.tendTransactions
    if p.totalReadsAndWrites.gtNumber readWriteLimit then throw (.maximumCapacity, p) else return p
  else
    match (t.readsCapacity.plus t.writesCapacity).bind p.totalReadsAndWrites.plus with
    | none => throw (.typeError, p)
    | some total => return { p with
        totalReadsAndWrites := total
        transactions := p.transactions ++ [i] }

/-- The number of `Number.isInteger`. -/
def integer? : JsValue → Option ℤ
  | .num n => if n.isInteger then some n.toInteger else none
  | _ => none

def isValidUint32 (i : ℤ) : Bool := 0 ≤ i && i ≤ 0xFFFFFFFF

/-- What the constructor of `Transaction` rejects before it comes to the pool. -/
def rejects (reads writes : JsValue) : Option TxnError :=
  match integer? reads, integer? writes with
  | some r, some w =>
    if isValidUint32 r then
      if isValidUint32 w then none
      else some (.rangeError (JsString.lit "writesCapacity is out of uint32 range"))
    else if isValidUint32 w then
      some (.rangeError (JsString.lit "readsCapacity is out of uint32 range"))
    else some (.rangeError
      (JsString.lit "both readsCapacity and writesCapacity are out of uint32 range"))
  | some _, none => some .typeError
  | none, some _ => some .typeError
  | none, none => none

/-- The value of a parameter that has a default. -/
def withDefault (v default : JsValue) : JsValue := if v matches .undefined then default else v

/-- `new Transaction(readsCapacity, writesCapacity)` -/
def construct (p : TransactionPool) (readsCapacity writesCapacity : JsValue) : Outcome :=
  let reads := withDefault readsCapacity readDefault
  let writes := withDefault writesCapacity writeDefault
  match rejects reads writes with
  | some e => throw (e, p)
  | none => do
    let t : Transaction := ⟨reads, writes, false, .ok⟩
    let p ← p.pushTransaction t p.objects.length
    return { p with objects := p.objects ++ [t] }

/-- What happens to the transactions of a process. -/
inductive Action where
  | construct (readsCapacity writesCapacity : JsValue)
  /-- `Client#commit` and `Client#abort` begin with a sweep. -/
  | commit (i : ℕ)
  | abort (i : ℕ)
  | tend
  | destroyAll
  /-- `Client#close`, after which so many clients are connected. -/
  | clientClose (connectedClients : ℕ) (destroyTransactions : Bool)
  /-- The native client changes the state of a transaction that is not closed. -/
  | native (i : ℕ) (state : TxnState)

def setState (p : TransactionPool) (i : ℕ) (state : TxnState) : TransactionPool :=
  match p.objects[i]? with
  | some t => if t.destroyed then p else { p with objects := p.objects.set i { t with state := state } }
  | none => p

def act (p : TransactionPool) : Action → Outcome
  | .construct reads writes => p.construct reads writes
  | .commit _ | .abort _ | .tend => p.tendTransactions
  | .destroyAll => p.removeAllTransactions
  | .clientClose connectedClients destroyTransactions =>
    if connectedClients = 0 ∧ destroyTransactions = true then p.removeAllTransactions else return p
  | .native i state => return p.setState i state

def step (p : TransactionPool) (a : Action) : TransactionPool := left (p.act a)

/-! ### What a sweep does -/

variable {p q : TransactionPool} {S : ℕ → Prop} {i j : ℕ}

/-- The transaction is constructed and not destroyed. -/
def Live (p : TransactionPool) (i : ℕ) : Prop := ∃ t, p.objects[i]? = some t ∧ t.destroyed = false

/-- `q` is what closing transactions of `S`, one after the other, makes of `p`. -/
inductive ClosedTo (S : ℕ → Prop) (p : TransactionPool) : TransactionPool → Prop where
  | refl : ClosedTo S p p
  | close {q q' : TransactionPool} {i : ℕ} (h : ClosedTo S p q) (hi : S i) (hq : q.close i = .ok q') :
      ClosedTo S p q'

/-- A transaction is closed unless it is not live. -/
theorem close_ok_cases (h : p.close i = .ok q) : q = p ∧ ¬ p.Live i ∨
    ∃ t total, p.objects[i]? = some t ∧ t.destroyed = false ∧
      (t.writesCapacity.plus t.readsCapacity).bind p.totalReadsAndWrites.minus = some total ∧
      q = { p with
        totalReadsAndWrites := total
        objects := p.objects.set i { t with destroyed := true }
        closed := p.closed ++ [i] } := by
  rw [close] at h
  split at h
  next hnone =>
    refine .inl ⟨(Except.ok.inj h).symm, ?_⟩
    rintro ⟨t, ht, -⟩
    simp [hnone] at ht
  next t ht =>
    split at h
    next hd =>
      refine .inl ⟨(Except.ok.inj h).symm, ?_⟩
      rintro ⟨t', ht', hlive⟩
      rw [ht] at ht'
      cases ht'
      simp [hlive] at hd
    next hd =>
      split at h
      next => cases h
      next total htotal =>
        exact .inr ⟨t, total, ht, by simpa using hd, htotal, (Except.ok.inj h).symm⟩

/-- `close` throws before it changes anything. -/
theorem close_error {e : TxnError × TransactionPool} (h : p.close i = .error e) : e.2 = p := by
  rw [close] at h
  split at h
  next => cases h
  next =>
    split at h
    next => cases h
    next => split at h <;> cases h; rfl

theorem close_transactions (h : p.close i = .ok q) : q.transactions = p.transactions := by
  rcases close_ok_cases h with ⟨rfl, -⟩ | ⟨t, total, -, -, -, rfl⟩ <;> rfl

theorem close_getState (h : p.close i = .ok q) (j : ℕ) : q.getState j = p.getState j := by
  rcases close_ok_cases h with ⟨rfl, -⟩ | ⟨t, total, ht, -, -, rfl⟩
  · rfl
  · obtain ⟨hlt, rfl⟩ := List.getElem?_eq_some_iff.mp ht
    simp only [getState, List.getElem?_set]
    split_ifs with hij
    · subst hij
      simp [hlt]
    · rfl

theorem close_live_iff (h : p.close i = .ok q) : q.Live j ↔ p.Live j ∧ j ≠ i := by
  rcases close_ok_cases h with ⟨rfl, hi⟩ | ⟨t, total, ht, -, -, rfl⟩
  · exact ⟨fun hj => ⟨hj, fun hji => hi (hji ▸ hj)⟩, And.left⟩
  · obtain ⟨hlt, rfl⟩ := List.getElem?_eq_some_iff.mp ht
    simp only [Live, List.getElem?_set]
    by_cases hij : i = j
    · subst hij
      simp [hlt]
    · simp [hij, Ne.symm hij]

theorem close_objects (h : p.close i = .ok q) (j : ℕ) :
    q.objects[j]?.map (fun t => { t with destroyed := false }) =
      p.objects[j]?.map fun t => { t with destroyed := false } := by
  rcases close_ok_cases h with ⟨rfl, -⟩ | ⟨t, total, ht, -, -, rfl⟩
  · rfl
  · obtain ⟨hlt, rfl⟩ := List.getElem?_eq_some_iff.mp ht
    rw [List.getElem?_set]
    split_ifs with hij
    · subst hij
      simp [hlt]
    · rfl

namespace ClosedTo

theorem rule {I : TransactionPool → Prop} (hclose : ∀ q q' i, I q → S i → q.close i = .ok q' → I q')
    (h : ClosedTo S p q) (hp : I p) : I q := by
  induction h with
  | refl => exact hp
  | close _ hi hq ih => exact hclose _ _ _ ih hi hq

theorem mono {S' : ℕ → Prop} (hS : ∀ i, S i → S' i) (h : ClosedTo S p q) : ClosedTo S' p q :=
  h.rule (fun _ _ i hq hi hc => hq.close (hS i hi) hc) .refl

theorem transactions (h : ClosedTo S p q) : q.transactions = p.transactions :=
  h.rule (I := fun q => q.transactions = p.transactions)
    (fun _ _ _ hq _ hc => (close_transactions hc).trans hq) rfl

theorem getState (h : ClosedTo S p q) (j : ℕ) : q.getState j = p.getState j :=
  h.rule (I := fun q => q.getState j = p.getState j)
    (fun _ _ _ hq _ hc => (close_getState hc j).trans hq) rfl

theorem isComplete (h : ClosedTo S p q) (j : ℕ) : q.isComplete j = p.isComplete j := by
  rw [TransactionPool.isComplete, h.getState, ← TransactionPool.isComplete]

/-- Closing changes nothing of a transaction but whether it is destroyed. -/
theorem objects (h : ClosedTo S p q) (j : ℕ) :
    q.objects[j]?.map (fun t => { t with destroyed := false }) =
      p.objects[j]?.map fun t => { t with destroyed := false } :=
  h.rule (I := fun q => q.objects[j]?.map (fun t => { t with destroyed := false }) =
      p.objects[j]?.map fun t => { t with destroyed := false })
    (fun _ _ _ hq _ hc => (close_objects hc j).trans hq) rfl

theorem live_of_not (h : ClosedTo S p q) (hj : p.Live j) (hS : ¬ S j) : q.Live j :=
  h.rule (I := fun q => q.Live j)
    (fun _ _ _ hq hi hc => (close_live_iff hc).mpr ⟨hq, fun hji => hS (hji ▸ hi)⟩) hj

theorem of_live (h : ClosedTo S p q) (hj : q.Live j) : p.Live j :=
  h.rule (I := fun q => q.Live j → p.Live j)
    (fun _ _ _ hq _ hc hj => hq ((close_live_iff hc).mp hj).1) id hj

end ClosedTo

/-- What is removed at descending indices is removed at those indices only. -/
theorem mem_removeTransactions {is : List ℕ} (hdesc : is.Pairwise (· > ·)) :
    ∀ {ts : List ℕ} {k x : ℕ}, ts[k]? = some x → k ∉ is → x ∈ removeTransactions ts is := by
  induction is with
  | nil =>
    intro ts k x hx _
    exact List.mem_of_getElem? hx
  | cons d is ih =>
    intro ts k x hx hk
    obtain ⟨hd, htail⟩ := List.pairwise_cons.mp hdesc
    rw [List.mem_cons, not_or] at hk
    show x ∈ removeTransactions (ts.eraseIdx d) is
    by_cases hlt : k < d
    · exact ih htail (by rwa [List.getElem?_eraseIdx_of_lt hlt]) hk.2
    · obtain ⟨k, rfl⟩ : ∃ k', k = k' + 1 := ⟨k - 1, by omega⟩
      refine ih htail (k := k) (by rwa [List.getElem?_eraseIdx_of_ge (by omega)]) fun hmem => ?_
      have := hd k hmem
      omega

/-- What the loop of `tendTransactions` has done: it has closed transactions, and the indices it
has collected are descending and lead to transactions that are not live; what it has come past is
not both complete and live. -/
structure Tended (p : TransactionPool) (n : ℕ) (acc : TransactionPool × List ℕ) : Prop where
  closedTo : ClosedTo (fun i => i ∈ p.transactions ∧ p.isComplete i = true) p acc.1
  desc : acc.2.Pairwise (· > ·)
  below : ∀ k ∈ acc.2, k < n
  dead : ∀ k ∈ acc.2, ∃ x, p.transactions[k]? = some x ∧ ¬ acc.1.Live x
  swept : ∀ k < n, ∀ x, p.transactions[k]? = some x → p.isComplete x = true → ¬ acc.1.Live x

theorem Tended.next {n x : ℕ} {acc : TransactionPool × List ℕ} (h : Tended p n acc)
    (hx : p.transactions[n]? = some x) :
    (∃ e, tendOne acc (x, n) = .error (e, acc.1)) ∨
      ∃ acc', tendOne acc (x, n) = .ok acc' ∧ Tended p (n + 1) acc' := by
  have hbelow : ∀ k ∈ acc.2, k < n + 1 := fun k hk => Nat.lt_succ_of_lt (h.below k hk)
  rw [tendOne]
  split_ifs with hc
  · rcases hclose : acc.1.close x with ⟨e, q⟩ | q
    · have hq : q = acc.1 := close_error hclose
      exact .inl ⟨e, by simp [hq]⟩
    · refine .inr ⟨(q, n :: acc.2), rfl, ?_⟩
      have hcx : p.isComplete x = true := by rwa [h.closedTo.isComplete] at hc
      have hx' : ¬ q.Live x := fun hlive => ((close_live_iff hclose).mp hlive).2 rfl
      have hsub : ∀ y, ¬ acc.1.Live y → ¬ q.Live y := fun y hdead hlive =>
        hdead ((close_live_iff hclose).mp hlive).1
      refine ⟨h.closedTo.close ⟨List.mem_of_getElem? hx, hcx⟩ hclose, ?_, ?_, ?_, ?_⟩
      · exact List.pairwise_cons.mpr ⟨h.below, h.desc⟩
      · exact List.forall_mem_cons.mpr ⟨Nat.lt_succ_self n, hbelow⟩
      · refine List.forall_mem_cons.mpr ⟨⟨x, hx, hx'⟩, fun k hk => ?_⟩
        obtain ⟨y, hy, hdead⟩ := h.dead k hk
        exact ⟨y, hy, hsub y hdead⟩
      · intro k hk y hy hcy
        rcases Nat.lt_succ_iff_lt_or_eq.mp hk with hk | rfl
        · exact hsub y (h.swept k hk y hy hcy)
        · rw [hx] at hy
          exact Option.some.inj hy ▸ hx'
  · refine .inr ⟨acc, rfl, h.closedTo, h.desc, hbelow, h.dead, fun k hk y hy hcy => ?_⟩
    rcases Nat.lt_succ_iff_lt_or_eq.mp hk with hk | rfl
    · exact h.swept k hk y hy hcy
    · rw [hx] at hy
      rw [h.closedTo.isComplete, Option.some.inj hy, hcy] at hc
      exact absurd rfl hc

theorem Tended.foldlM {l : List ℕ} : ∀ {n : ℕ} {acc : TransactionPool × List ℕ}, Tended p n acc →
    (∀ m x, l[m]? = some x → p.transactions[n + m]? = some x) →
    (∃ e acc' m, Tended p m acc' ∧ (l.zipIdx n).foldlM tendOne acc = .error (e, acc'.1)) ∨
      ∃ acc', Tended p (n + l.length) acc' ∧ (l.zipIdx n).foldlM tendOne acc = .ok acc' := by
  induction l with
  | nil => exact fun {n acc} h _ => .inr ⟨acc, h, rfl⟩
  | cons x l ih =>
    intro n acc h hl
    rw [List.zipIdx_cons, List.foldlM_cons]
    rcases h.next (hl 0 x rfl) with ⟨e, he⟩ | ⟨acc', hok, h'⟩
    · exact .inl ⟨e, acc, n, h, by rw [he]; rfl⟩
    · rw [hok, List.length_cons, ← Nat.add_assoc, Nat.add_right_comm]
      refine ih h' fun m y hy => ?_
      rw [Nat.add_assoc, Nat.add_comm 1 m]
      exact hl (m + 1) y hy

/-- The transactions that a sweep closes if they are live. -/
def Sweeps (p : TransactionPool) (i : ℕ) : Prop :=
  p.capacity < p.transactions.length ∧ i ∈ p.transactions ∧ p.isComplete i = true

/-- A sweep closes the transactions of the pool that are complete, and what is live stays in the
pool. -/
theorem tendTransactions_spec (p : TransactionPool) :
    ∃ q, ClosedTo p.Sweeps p q ∧
      ((∃ e, p.tendTransactions = .error (e, q)) ∨
        (∀ i, p.Sweeps i → ¬ q.Live i) ∧
        ∃ ts c, p.tendTransactions = .ok { q with transactions := ts, capacity := c } ∧
          ∀ i ∈ p.transactions, q.Live i → i ∈ ts) := by
  by_cases hlen : p.capacity < p.transactions.length
  · have hmono : ∀ q, ClosedTo (fun i => i ∈ p.transactions ∧ p.isComplete i = true) p q →
        ClosedTo p.Sweeps p q := fun q h => h.mono fun i hi => ⟨hlen, hi.1, hi.2⟩
    have hstart : Tended p 0 (p, []) := ⟨.refl, .nil, by simp, by simp, by simp⟩
    rw [tendTransactions, if_pos hlen]
    rcases hstart.foldlM (l := p.transactions) (by simp) with ⟨e, acc, m, h, he⟩ | ⟨acc, h, hok⟩
    · exact ⟨acc.1, hmono _ h.closedTo, .inl ⟨e, by rw [he]; rfl⟩⟩
    have hlive : ∀ i ∈ p.transactions, acc.1.Live i →
        i ∈ removeTransactions acc.1.transactions acc.2 := by
      intro i hi hi'
      obtain ⟨k, hk⟩ := List.mem_iff_getElem?.mp hi
      rw [h.closedTo.transactions]
      refine mem_removeTransactions h.desc hk fun hmem => ?_
      obtain ⟨x, hx, hdead⟩ := h.dead k hmem
      rw [hk] at hx
      exact hdead (Option.some.inj hx ▸ hi')
    refine ⟨acc.1, hmono _ h.closedTo, .inr ⟨fun i hi => ?_, ?_⟩⟩
    · obtain ⟨k, hk⟩ := List.mem_iff_getElem?.mp hi.2.1
      obtain ⟨hlt, -⟩ := List.getElem?_eq_some_iff.mp hk
      exact h.swept k (by omega) i hk hi.2.2
    · rw [hok]
      by_cases hmore : (removeTransactions acc.1.transactions acc.2).length > acc.1.capacity
      · exact ⟨_, acc.1.capacity * 2, by simp [bind, Except.bind, hmore, increaseCapacity]; rfl,
          hlive⟩
      · exact ⟨_, acc.1.capacity, by simp [bind, Except.bind, hmore]; rfl, hlive⟩
  · refine ⟨p, .refl, .inr ⟨fun i hi => absurd hi.1 hlen, p.transactions, p.capacity, ?_,
      fun i hi _ => hi⟩⟩
    rw [tendTransactions, if_neg hlen]
    rfl

theorem foldlM_close {l : List ℕ} : ∀ {q : TransactionPool},
    ClosedTo (· ∈ p.transactions) p q → (∀ i ∈ l, i ∈ p.transactions) →
    ∃ q', ClosedTo (· ∈ p.transactions) p q' ∧ (∀ i, q'.Live i → q.Live i) ∧
      ((∃ e, l.foldlM close q = .error (e, q')) ∨
        l.foldlM close q = .ok q' ∧ ∀ i ∈ l, ¬ q'.Live i) := by
  induction l with
  | nil => exact fun {q} h _ => ⟨q, h, fun _ => id, .inr ⟨rfl, by simp⟩⟩
  | cons x l ih =>
    intro q h hl
    obtain ⟨hx, hl⟩ := List.forall_mem_cons.mp hl
    rw [List.foldlM_cons]
    rcases hclose : q.close x with ⟨e, q'⟩ | q'
    · have hq : q' = q := close_error hclose
      exact ⟨q, h, fun _ => id, .inl ⟨e, by rw [hq]; rfl⟩⟩
    · obtain ⟨q'', h'', hsub, hfold⟩ := ih (h.close hx hclose) hl
      refine ⟨q'', h'', fun i hi => ((close_live_iff hclose).mp (hsub i hi)).1, ?_⟩
      rcases hfold with he | ⟨hok, hdead⟩
      · exact .inl he
      · refine .inr ⟨hok, List.forall_mem_cons.mpr ⟨fun hlive => ?_, hdead⟩⟩
        exact ((close_live_iff hclose).mp (hsub x hlive)).2 rfl

/-- `removeAllTransactions` closes what is in the pool and empties it. -/
theorem removeAllTransactions_spec (p : TransactionPool) :
    ∃ q, ClosedTo (· ∈ p.transactions) p q ∧
      ((∃ e, p.removeAllTransactions = .error (e, q)) ∨
        p.removeAllTransactions = .ok { q with transactions := [] } ∧
          ∀ i ∈ p.transactions, ¬ q.Live i) := by
  obtain ⟨q, h, -, hfold⟩ := foldlM_close (p := p) (l := p.transactions) .refl fun _ => id
  refine ⟨q, h, ?_⟩
  rw [removeAllTransactions]
  rcases hfold with ⟨e, he⟩ | ⟨hok, hdead⟩
  · exact .inl ⟨e, by rw [he]; rfl⟩
  · exact .inr ⟨by rw [hok]; rfl, hdead⟩

theorem construct_spec (p : TransactionPool) (reads writes : JsValue) :
    ∃ q, ClosedTo (fun i => rejects (withDefault reads readDefault)
          (withDefault writes writeDefault) = none ∧
        p.totalReadsAndWrites.gtNumber readWriteLimit = true ∧ p.Sweeps i) p q ∧
      (left (p.construct reads writes)).closed = q.closed ∧
      ((left (p.construct reads writes)).objects = q.objects ∨
        ∃ t, (left (p.construct reads writes)).objects = q.objects ++ [t]) := by
  rw [construct]
  cases hr : rejects (withDefault reads readDefault) (withDefault writes writeDefault) with
  | some e => exact ⟨p, .refl, rfl, .inl rfl⟩
  | none =>
    dsimp only
    rw [pushTransaction]
    split_ifs with hgt
    · obtain ⟨q, hq, htend⟩ := tendTransactions_spec p
      refine ⟨q, hq.mono fun i hi => ⟨rfl, hgt, hi⟩, ?_⟩
      rcases htend with ⟨e, he⟩ | ⟨-, ts, c, hok, -⟩
      · rw [he]
        exact ⟨rfl, .inl rfl⟩
      · rw [hok]
        by_cases hgt' : q.totalReadsAndWrites.gtNumber readWriteLimit = true
        · simp only [bind, Except.bind, hgt', if_true]
          exact ⟨rfl, .inl rfl⟩
        · simp only [bind, Except.bind, hgt']
          exact ⟨rfl, .inr ⟨_, rfl⟩⟩
    · refine ⟨p, .refl, ?_⟩
      split
      next => exact ⟨rfl, .inl rfl⟩
      next => exact ⟨rfl, .inr ⟨_, rfl⟩⟩

end TransactionPool

end AerospikeNode
