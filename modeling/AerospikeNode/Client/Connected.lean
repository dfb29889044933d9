import AerospikeNode.Client.EventLoop

/-!
# The count of the connected clients

`Client#connect` sets the `connected` flag of a client and counts it in one continuation, `close`
takes both back, and the `catch` handler of `connect` closes the native client without looking at
the flag. `connections_sound_iff`: the counter is the number of flags that are set, every handle is
closed at most once for each successful connect (or once altogether, by a connect that failed) and
with its flag down, `close` does not throw, and nothing shared is given up under a connected client, in
exactly the runs in which no continuation runs because a callback threw, no connect succeeds on a
client that is connected already, only the first connect of a client fails, no such client is closed
after it has connected after all, and no last `close` finds transactions that cannot be removed or
drops the reference to a loop that is not there.
-/

namespace AerospikeNode

/-- `as_client.close()` -/
def ClientEvent.closesHandle (i : ℕ) : ClientEvent → Bool
  | .closed j _ => j = i
  | .failed j _ => j = i
  | _ => false

/-- The event closes a handle that a connect has opened. -/
def ClientEvent.closesOpened (i : ℕ) : ClientEvent → Bool
  | .closed j _ => j = i
  | .failed j connected => j = i && connected
  | _ => false

/-- No handle is closed under its flag, `close` does not throw, and what the clients share is given
up when none of them is connected. -/
def ClientEvent.Fine : ClientEvent → Prop
  | .opened _ => True
  | .closed _ connected => connected = false
  | .failed _ connected => connected = false
  | .closeThrew _ => False
  | .destroyed connected => connected = 0
  | .released connected => connected = 0

namespace ClientModule

open ClientEvent

/-- The handle is closed at most once for each successful connect, or has been closed once, by a
connect that failed. -/
def ClosedOnce (s : ClientModule) (i : ℕ) : Prop :=
  s.events.countP (closesHandle i) ≤ s.events.count (.opened i) ∨
    s.events.countP (closesHandle i) = 1 ∧ .failed i false ∈ s.events

structure Sound (s : ClientModule) : Prop where
  count : s.connectedClients = s.connected.card
  once : ∀ i, s.ClosedOnce i
  fine : ∀ e ∈ s.events, e.Fine

/-- The clients with the flag whose handle has not been closed since it was opened. -/
def openClients (s : ClientModule) : Finset ℕ :=
  s.connected.filter fun i => s.events.countP (closesOpened i) < s.events.count (.opened i)

/-- The native cluster count includes the clients that are open. -/
def Counted (s : ClientModule) : ClientAction → Prop
  | .releaseEventLoop clusterCount => s.openClients.card ≤ clusterCount
  | .timer clusterCount => s.openClients.card ≤ clusterCount
  | _ => True

/-- No continuation runs because a callback threw, no connect succeeds for a client that is connected
already or fails for one that has connected or failed before, and no `close` closes a handle that a
failed connect has closed, comes to remove transactions that cannot be removed or to drop its
reference to a loop that is not there. -/
def Undisturbed (s : ClientModule) : ClientAction → Prop
  | .settle k _ =>
    match s.pending[k]? with
    | some (i, .resolved) => i ∉ s.connected
    | some (i, .rejected) => .opened i ∉ s.events ∧ .failed i false ∉ s.events
    | some (_, .thrown) => False
    | none => True
  | .close i release destroy poolThrows _ =>
    (i ∈ s.connected → .failed i false ∉ s.events) ∧
    (s.connectedClients = (if i ∈ s.connected then 1 else 0) →
      (destroy && poolThrows) = false ∧
      (release = false → s.eventLoopInitialized = true ∧ s.eventLoopReleased = false))
  | _ => True

/-- Every client has been opened as often as it was closed, and once more if it is connected. Where a
failed connect closed the handle too, nothing else has. -/
structure Balanced (s : ClientModule) : Prop where
  count : s.connectedClients = s.connected.card
  balance : ∀ i, s.events.countP (closesOpened i) + (if i ∈ s.connected then 1 else 0) =
    s.events.count (.opened i)
  once : ∀ i, .failed i false ∈ s.events →
    s.events.countP (closesHandle i) = 1 ∧ s.events.countP (closesOpened i) = 0
  fine : ∀ e ∈ s.events, e.Fine

variable {s t : ClientModule}

theorem closesHandle_of_closesOpened (i : ℕ) (e : ClientEvent) (h : e.closesOpened i = true) :
    e.closesHandle i = true := by
  cases e with
  | failed j connected => exact (Bool.and_eq_true_iff.mp h).1
  | closed _ _ => exact h
  | opened _ => cases h
  | closeThrew _ => cases h
  | destroyed _ => cases h
  | released _ => cases h

theorem countP_closesOpened_le (s : ClientModule) (i : ℕ) :
    s.events.countP (closesOpened i) ≤ s.events.countP (closesHandle i) :=
  List.countP_mono_left fun e _ => closesHandle_of_closesOpened i e

/-- Without a connect that failed, what closes the handle has been opened. -/
theorem countP_closesHandle {i : ℕ} (h : .failed i false ∉ s.events) :
    s.events.countP (closesHandle i) = s.events.countP (closesOpened i) := by
  refine List.countP_congr fun e he => ?_
  cases e with
  | failed j connected =>
    cases connected with
    | true => simp [closesHandle, closesOpened]
    | false =>
      have hne : j ≠ i := by
        rintro rfl
        exact h he
      simp [closesHandle, closesOpened, hne]
  | opened _ => rfl
  | closed _ _ => rfl
  | closeThrew _ => rfl
  | destroyed _ => rfl
  | released _ => rfl

theorem Balanced.sound (hs : s.Balanced) : s.Sound := by
  refine ⟨hs.count, fun i => ?_, hs.fine⟩
  have hbalance := hs.balance i
  by_cases hfailed : .failed i false ∈ s.events
  · exact .inr ⟨(hs.once i hfailed).1, hfailed⟩
  · rw [ClosedOnce, countP_closesHandle hfailed]
    exact .inl (by omega)

/-- Nobody is connected once the counter is zero. -/
theorem Balanced.connected_eq_empty (hs : s.Balanced) (h : s.connectedClients = 0) :
    s.connected = ∅ := by
  have hcard := hs.count
  rw [h] at hcard
  exact Finset.card_eq_zero.mp (by omega)

theorem Balanced.openClients_eq (hs : s.Balanced) : s.openClients = s.connected := by
  refine Finset.filter_true_of_mem fun i hi => ?_
  have hbalance := hs.balance i
  rw [if_pos hi] at hbalance
  omega

theorem Balanced.congr (hs : s.Balanced) (hconnected : t.connected = s.connected)
    (hcount : t.connectedClients = s.connectedClients) (hevents : t.events = s.events) :
    t.Balanced := by
  constructor
  · rw [hcount, hconnected]
    exact hs.count
  · rw [hevents, hconnected]
    exact hs.balance
  · rw [hevents]
    exact hs.once
  · rw [hevents]
    exact hs.fine

@[simp]
theorem log_events (s : ClientModule) (e : ClientEvent) : (s.log e).events = s.events ++ [e] := rfl

@[simp]
theorem log_connected (s : ClientModule) (e : ClientEvent) : (s.log e).connected = s.connected := rfl

theorem fine_append (h : ∀ d ∈ s.events, d.Fine) {e : ClientEvent} (he : e.Fine) :
    ∀ d ∈ s.events ++ [e], d.Fine := by
  intro d hd
  rcases List.mem_append.mp hd with hd | hd
  · exact h d hd
  · rw [List.mem_singleton.mp hd]
    exact he

/-- A fine event that neither opens nor closes a handle. -/
theorem Balanced.log (hs : s.Balanced) {e : ClientEvent} (he : e.Fine)
    (hcloses : ∀ i, e.closesHandle i = false) (hopens : ∀ i, e ≠ .opened i) :
    (s.log e).Balanced := by
  have hopened : ∀ i, (s.log e).events.countP (closesOpened i) = s.events.countP (closesOpened i) := by
    intro i
    have hnot := mt (closesHandle_of_closesOpened i e) (Bool.eq_false_iff.mp (hcloses i))
    simp [List.countP_append, hnot]
  refine ⟨hs.count, fun i => ?_, fun i hfailed => ?_, fine_append hs.fine he⟩
  · have hcount : (s.log e).events.count (.opened i) = s.events.count (.opened i) := by
      simp [List.count_append, hopens]
    rw [hopened, hcount]
    exact hs.balance i
  · have hclosed : (s.log e).events.countP (closesHandle i) = s.events.countP (closesHandle i) := by
      simp [List.countP_append, hcloses]
    have hbefore : .failed i false ∈ s.events := by
      rcases List.mem_append.mp hfailed with h | h
      · exact h
      · have hcloses := hcloses i
        rw [← List.mem_singleton.mp h] at hcloses
        simp [closesHandle] at hcloses
    rw [hclosed, hopened]
    exact hs.once i hbefore

theorem Balanced.closeHandle (hs : s.Balanced) {i : ℕ}
    (hi : i ∈ s.connected → .failed i false ∉ s.events) : (s.closeHandle i).Balanced := by
  rw [ClientModule.closeHandle]
  split_ifs with hmem
  · have hpos : 0 < s.connected.card := Finset.card_pos.mpr ⟨i, hmem⟩
    refine ⟨?_, fun j => ?_, fun j hj => ?_, fine_append hs.fine rfl⟩
    · have hcount := hs.count
      simp only [Finset.card_erase_of_mem hmem]
      omega
    · have hbalance := hs.balance j
      by_cases hj : i = j
      · subst hj
        simpa [List.countP_append, List.count_append, closesOpened, hmem] using hbalance
      · simpa [List.countP_append, List.count_append, closesOpened, hj, Ne.symm hj] using hbalance
    · -- the handle of the client that is closed was not closed by a failed connect
      have hbefore : .failed j false ∈ s.events := by simpa using hj
      have hne : i ≠ j := by
        rintro rfl
        exact hi hmem hbefore
      simpa [List.countP_append, closesHandle, closesOpened, hne] using hs.once j hbefore
  · exact hs

theorem Balanced.opened (hs : s.Balanced) {i : ℕ} (hi : i ∉ s.connected) (callback : Bool) :
    (s.runContinuation callback (i, .resolved)).Balanced := by
  refine ⟨?_, fun j => ?_, fun j hj => ?_, fine_append hs.fine trivial⟩
  · have hcount := hs.count
    simp only [runContinuation, Finset.card_insert_of_notMem hi, hcount]
    push_cast
    rfl
  · have hbalance := hs.balance j
    by_cases hj : i = j
    · subst hj
      simpa [runContinuation, List.countP_append, List.count_append, closesOpened, hi] using hbalance
    · simpa [runContinuation, List.countP_append, List.count_append, closesOpened, hj, Ne.symm hj]
        using hbalance
  · have hbefore : .failed j false ∈ s.events := by simpa [runContinuation] using hj
    simpa [runContinuation, List.countP_append, closesHandle, closesOpened] using hs.once j hbefore

/-- A client that was never connected has its flag down and its handle open. -/
theorem Balanced.unopened (hs : s.Balanced) {i : ℕ} (hi : .opened i ∉ s.events) :
    i ∉ s.connected ∧ s.events.countP (closesOpened i) = 0 := by
  have hbalance := hs.balance i
  rw [List.count_eq_zero_of_not_mem hi] at hbalance
  split_ifs at hbalance with hmem
  exact ⟨hmem, by omega⟩

/-- The first connect of a client fails. -/
theorem Balanced.failed (hs : s.Balanced) {i : ℕ} (hopened : .opened i ∉ s.events)
    (hfailed : .failed i false ∉ s.events) (callback : Bool) :
    (s.runContinuation callback (i, .rejected)).Balanced := by
  obtain ⟨hdown, hzero⟩ := hs.unopened hopened
  have hall : s.events.countP (closesHandle i) = 0 := (countP_closesHandle hfailed).trans hzero
  simp only [runContinuation, hdown, decide_false]
  refine ⟨hs.count, fun j => ?_, fun j hj => ?_, fine_append hs.fine rfl⟩
  · have hclosed : (s.events ++ [ClientEvent.failed i false]).countP (closesOpened j) =
        s.events.countP (closesOpened j) := by
      simp [List.countP_append, closesOpened]
    have hcount : (s.events ++ [ClientEvent.failed i false]).count (ClientEvent.opened j) =
        s.events.count (.opened j) := by
      simp [List.count_append]
    rw [log_events, hclosed, hcount]
    exact hs.balance j
  · by_cases hij : i = j
    · subst hij
      simp [List.countP_append, closesHandle, closesOpened, hall, hzero]
    · have hbefore : .failed j false ∈ s.events := by simpa [Ne.symm hij] using hj
      simpa [List.countP_append, closesHandle, closesOpened, hij] using hs.once j hbefore

theorem Balanced.releaseEventLoop (hs : s.Balanced) {n : ℕ} (hn : s.connected.card ≤ n) :
    (s.releaseEventLoop n).Balanced := by
  rw [ClientModule.releaseEventLoop]
  split_ifs with hreleased hcount
  · exact hs
  · exact hs.congr rfl rfl rfl
  · have hcard : s.connected.card = 0 := by omega
    have hlog : (s.log (.released s.connected.card)).Balanced :=
      hs.log hcard (fun _ => rfl) (fun _ => ClientEvent.noConfusion)
    exact hlog.congr rfl rfl rfl

theorem Balanced.closeLast (hs : s.Balanced) (hempty : s.connected = ∅) (i : ℕ)
    {release destroy poolThrows : Bool} (n : ℕ) (hpool : (destroy && poolThrows) = false)
    (hloop : release = false → s.eventLoopInitialized = true ∧ s.eventLoopReleased = false) :
    (s.closeLast i release destroy poolThrows n).Balanced := by
  have ht : (s.destroyTransactions destroy).Balanced := by
    rw [destroyTransactions]
    split_ifs
    · refine hs.log ?_ (fun _ => rfl) (fun _ => ClientEvent.noConfusion)
      rw [hempty]
      rfl
    · exact hs
  rw [ClientModule.closeLast, if_neg (Bool.eq_false_iff.mp hpool)]
  cases release with
  | true =>
    refine ht.releaseEventLoop ?_
    rw [destroyTransactions_connected, hempty]
    exact Nat.zero_le n
  | false =>
    have hunref : (s.destroyTransactions destroy).unreferenceEventLoop =
        some ((s.destroyTransactions destroy).call .unref) := by
      simp [unreferenceEventLoop, hloop rfl]
    simp only [Bool.false_eq_true, if_false, hunref, Option.getD_some]
    exact ht.congr rfl rfl rfl

/-- `close` opens and closes no handle once it has looked at the counter. -/
theorem closeLast_countP (i : ℕ) (release destroy poolThrows : Bool) (n : ℕ)
    {p : ClientEvent → Bool} (hthrew : ∀ j, p (.closeThrew j) = false)
    (hdestroyed : ∀ j, p (.destroyed j) = false) (hreleased : ∀ j, p (.released j) = false) :
    (s.closeLast i release destroy poolThrows n).events.countP p = s.events.countP p := by
  have hpool : (s.destroyTransactions destroy).events.countP p = s.events.countP p := by
    cases destroy <;> simp [destroyTransactions, List.countP_append, hdestroyed]
  rw [closeLast, ← hpool]
  split_ifs
  · simp [List.countP_append, hthrew]
  · rw [ClientModule.releaseEventLoop]
    split_ifs <;> simp [List.countP_append, hreleased, call]
  · rw [unreferenceEventLoop]
    split_ifs <;> simp [List.countP_append, hthrew, call]

theorem closedOnce_of_closeLast {i j : ℕ} {release destroy poolThrows : Bool} {n : ℕ}
    (h : (s.closeLast j release destroy poolThrows n).ClosedOnce i) : s.ClosedOnce i := by
  have hclosed := s.closeLast_countP j release destroy poolThrows n (p := closesHandle i)
    (fun _ => rfl) (fun _ => rfl) (fun _ => rfl)
  have hcount (e : ClientEvent) (hthrew : ∀ j, .closeThrew j ≠ e) (hdestroyed : ∀ j, .destroyed j ≠ e)
      (hreleased : ∀ j, .released j ≠ e) :
      (s.closeLast j release destroy poolThrows n).events.count e = s.events.count e :=
    s.closeLast_countP j release destroy poolThrows n (fun j => by simpa using hthrew j)
      (fun j => by simpa using hdestroyed j) (fun j => by simpa using hreleased j)
  rw [ClosedOnce, ← List.count_pos_iff] at h ⊢
  rwa [hclosed, hcount _ (by simp) (by simp) (by simp), hcount _ (by simp) (by simp) (by simp)] at h

theorem closeLast_threw (i : ℕ) {release destroy poolThrows : Bool} (n : ℕ)
    (h : ¬ ((destroy && poolThrows) = false ∧
      (release = false → s.eventLoopInitialized = true ∧ s.eventLoopReleased = false))) :
    .closeThrew i ∈ (s.closeLast i release destroy poolThrows n).events := by
  rw [closeLast]
  split_ifs with hthrows hrelease
  · simp
  · exact absurd ⟨Bool.eq_false_iff.mpr hthrows, fun hfalse => absurd hrelease (by simp [hfalse])⟩ h
  · have hunref : (s.destroyTransactions destroy).unreferenceEventLoop = none := by
      rw [unreferenceEventLoop, destroyTransactions_initialized, destroyTransactions_released, if_pos]
      by_contra hguard
      simp only [Bool.or_eq_true, Bool.not_eq_true', not_or, Bool.not_eq_false,
        Bool.not_eq_true] at hguard
      exact h ⟨Bool.eq_false_iff.mpr hthrows, fun _ => hguard⟩
    simp [hunref]

theorem connect_clients (s : ClientModule) (i : ℕ) (registers succeeds : Bool) :
    (s.connect i registers succeeds).connected = s.connected ∧
    (s.connect i registers succeeds).connectedClients = s.connectedClients ∧
    (s.connect i registers succeeds).events = s.events := by
  rw [connect]
  rcases s.registerASEventLoop_cases registers with ⟨-, h⟩ | ⟨-, -, h⟩ | ⟨-, -, h⟩
  · rw [h]
    exact ⟨rfl, rfl, rfl⟩
  · rw [h]
    exact ⟨rfl, rfl, rfl⟩
  · rw [h]
    cases registers <;> exact ⟨rfl, rfl, rfl⟩

/-- What an undisturbed step keeps. -/
theorem Balanced.next (hs : s.Balanced) {a : ClientAction} (hcount : s.Counted a)
    (ha : s.Undisturbed a) : (step s a).Balanced := by
  cases a with
  | connect i registers succeeds =>
    obtain ⟨hconnected, hclients, hevents⟩ := s.connect_clients i registers succeeds
    exact hs.congr hconnected hclients hevents
  | settle k callback =>
    simp only [ClientModule.step, Undisturbed] at ha ⊢
    split
    · rename_i c hc
      rw [hc] at ha
      have hs' : { s with pending := s.pending.eraseIdx k }.Balanced := hs.congr rfl rfl rfl
      rcases c with ⟨i, _ | _ | _⟩
      · exact hs'.opened ha callback
      · exact hs'.failed ha.1 ha.2 callback
      · exact ha.elim
    · exact hs
  | callbackReturns k => exact hs.congr rfl rfl rfl
  | callbackThrows k =>
    simp only [ClientModule.step]
    split
    · exact hs.congr rfl rfl rfl
    · exact hs
  | close i release destroy poolThrows n =>
    have hs' := hs.closeHandle ha.1
    have hclients := s.closeHandle_connectedClients i
    obtain ⟨-, hreleased, hinit⟩ := s.closeHandle_loop i
    simp only [ClientModule.step, close_eq]
    split_ifs with hzero
    · have heq : s.connectedClients = if i ∈ s.connected then 1 else 0 := by omega
      obtain ⟨hpool, hloop⟩ := ha.2 heq
      rw [← hreleased, ← hinit] at hloop
      exact hs'.closeLast (hs'.connected_eq_empty hzero) i n hpool hloop
    · exact hs'
  | releaseEventLoop n =>
    refine hs.releaseEventLoop ?_
    rw [← hs.openClients_eq]
    exact hcount
  | timer n =>
    simp only [ClientModule.step]
    split_ifs
    · have hs' : { s with timers := s.timers - 1 }.Balanced := hs.congr rfl rfl rfl
      refine hs'.releaseEventLoop ?_
      rw [← hs'.openClients_eq]
      exact hcount
    · exact hs

/-- An event that may close the handle finds it opened, or is a connect that fails on one that
nothing has closed. -/
theorem Balanced.closes_next (hs : s.Balanced) {i : ℕ} {e : ClientEvent}
    (he : e.closesHandle i = true) (h : (s.log e).ClosedOnce i) :
    s.events.countP (closesHandle i) < s.events.count (.opened i) ∨
      s.events.countP (closesHandle i) = 0 ∧ e = .failed i false := by
  have hcloses : (s.log e).events.countP (closesHandle i) = s.events.countP (closesHandle i) + 1 := by
    simp [List.countP_append, he]
  have hopened : (s.log e).events.count (.opened i) = s.events.count (.opened i) := by
    have hne : e ≠ .opened i := by
      rintro rfl
      cases he
    simp [List.count_append, hne]
  rw [ClosedOnce, hcloses, hopened] at h
  refine h.imp id fun ⟨hone, hmem⟩ => ⟨by omega, ?_⟩
  rcases List.mem_append.mp hmem with hbefore | hlast
  · have honce := (hs.once i hbefore).1
    omega
  · exact (List.mem_singleton.mp hlast).symm

/-- A handle with its flag down has been closed as often as opened. -/
theorem Balanced.opened_le (hs : s.Balanced) {i : ℕ} (hi : i ∉ s.connected) :
    s.events.count (.opened i) ≤ s.events.countP (closesHandle i) := by
  have hbalance := hs.balance i
  have hle := s.countP_closesOpened_le i
  rw [if_neg hi] at hbalance
  omega

/-- A step that leaves everything sound is undisturbed. -/
theorem Balanced.undisturbed (hs : s.Balanced) {a : ClientAction} (h : (step s a).Sound) :
    s.Undisturbed a := by
  cases a with
  | settle k callback =>
    simp only [step, Undisturbed] at h ⊢
    split at h
    · rename_i c hc
      rw [hc]
      rcases c with ⟨i, _ | _ | _⟩
      · intro hi
        have hcount := h.count
        have hbefore := hs.count
        simp only [runContinuation, Finset.insert_eq_of_mem hi] at hcount
        omega
      · have hfine := h.fine (.failed i (i ∈ s.connected)) (by simp [runContinuation])
        simp only [Fine, decide_eq_false_iff_not] at hfine
        rcases hs.closes_next (by simp [closesHandle]) (h.once i) with hlt | ⟨hzero, -⟩
        · exact absurd hlt (hs.opened_le hfine).not_gt
        · have hopened := hs.opened_le hfine
          refine ⟨List.count_eq_zero.mp (by omega), fun hfailed => ?_⟩
          have honce := (hs.once i hfailed).1
          omega
      · have hfine := h.fine (.closed i (i ∈ s.connected)) (by simp [runContinuation])
        simp only [Fine, decide_eq_false_iff_not] at hfine
        rcases hs.closes_next (by simp [closesHandle]) (h.once i) with hlt | ⟨-, heq⟩
        · exact absurd hlt (hs.opened_le hfine).not_gt
        · cases heq
    · rename_i hc
      rw [hc]
      trivial
  | close i release destroy poolThrows n =>
    have hclients := s.closeHandle_connectedClients i
    obtain ⟨-, hreleased, hinit⟩ := s.closeHandle_loop i
    simp only [step, close_eq] at h
    refine ⟨fun hmem hfailed => ?_, fun heq => ?_⟩
    · obtain ⟨hone, hzero⟩ := hs.once i hfailed
      have hevents : (s.closeHandle i).events = (s.log (.closed i false)).events := by
        rw [ClientModule.closeHandle, if_pos hmem]
      have honce : (s.closeHandle i).ClosedOnce i := by
        split_ifs at h
        · exact closedOnce_of_closeLast (h.once i)
        · exact h.once i
      rw [ClosedOnce, hevents] at honce
      have hbalance := hs.balance i
      rw [if_pos hmem] at hbalance
      rcases hs.closes_next (e := .closed i false) (by simp [closesHandle]) honce with hlt | ⟨hnone, -⟩
      · omega
      · omega
    · have hzero : (s.closeHandle i).connectedClients = 0 := by omega
      rw [if_pos hzero] at h
      by_contra hloop
      rw [← hreleased, ← hinit] at hloop
      exact h.fine _ (closeLast_threw i n hloop)
  | connect _ _ _ => trivial
  | callbackReturns _ => trivial
  | callbackThrows _ => trivial
  | releaseEventLoop _ => trivial
  | timer _ => trivial

theorem balanced_start : start.Balanced :=
  ⟨rfl, fun _ => rfl, fun _ h => absurd h List.not_mem_nil, fun _ h => absurd h List.not_mem_nil⟩

/-- A run leaves the clients sound throughout exactly if every step is undisturbed. -/
theorem connections_sound_iff (as : List ClientAction) (h : Run.AllSteps step Counted start as) :
    Run.Always step Sound start as ↔ Run.AllSteps step Undisturbed start as :=
  Run.always_iff_allSteps (fun _ _ hs hcount ha => Balanced.next hs hcount ha)
    (fun _ _ hs hcount => ⟨hs.undisturbed, fun ha => (hs.next hcount ha).sound⟩)
    balanced_start balanced_start.sound h

/-- The first connect of one client fails; another client connects and is closed, then the loop is
released. -/
theorem connections_sound_once :
    Run.Always step Sound start
      [.connect 0 true false, .settle 0 true, .connect 1 true true, .settle 0 true,
        .callbackReturns 0, .close 1 false true false 1, .releaseEventLoop 0] :=
  (connections_sound_iff
    [.connect 0 true false, .settle 0 true, .connect 1 true true, .settle 0 true,
      .callbackReturns 0, .close 1 false true false 1, .releaseEventLoop 0]
    ⟨trivial, trivial, trivial, trivial, trivial, trivial, Nat.zero_le 0, trivial⟩).mpr
    ⟨trivial, ⟨List.not_mem_nil, List.not_mem_nil⟩, trivial, Finset.notMem_empty 1, trivial,
      ⟨fun _ => by decide, fun _ => ⟨rfl, fun _ => ⟨rfl, rfl⟩⟩⟩, trivial, trivial⟩

/-- The callback throws when it is told of the success: the native client is closed, and the client
goes on as connected. -/
theorem callback_throws_unsound :
    ¬ Run.Always step Sound start
      [.connect 0 true true, .settle 0 true, .callbackThrows 0, .settle 0 false] := by
  intro h
  have hfine := h.last.fine (.closed 0 true) (by decide)
  cases hfine

end ClientModule

end AerospikeNode
