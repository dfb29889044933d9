import AerospikeNode.Lib.Run
import Mathlib.Data.Finset.Card
import Mathlib.Data.Finset.Insert

/-!
# Connecting and closing clients

The shared state of `lib/client.js` and `lib/event_loop.js`: the clients whose `connected` flag is
set, the counter `_connectedClients`, the two flags of the event loop, the promise continuations of
`connect` that have not run and the retry timers of `releaseEventLoop`. What the native side answers
(whether a loop is registered, whether a client connects, how many clusters it counts) is part of
the action, and so is whether the transactions of the pool can be removed.

`calls_wellFormed_iff`: the native event-loop calls are `register`, then `ref` and `unref`, then
`release` at a cluster count of zero, in exactly the runs in which `releaseEventLoop` does not come
to release a loop that was never registered and no failed registration is repeated.
-/

namespace AerospikeNode

/-- A call of the native event-loop functions; `release` with the cluster count it was made at. -/
inductive LoopCall where
  | register
  | ref
  | unref
  | release (clusterCount : ℕ)
deriving DecidableEq

/-- What happens to the native handles of the clients and to what they share. -/
inductive ClientEvent where
  /-- A connect has succeeded, as far as the client knows. -/
  | opened (i : ℕ)
  /-- `as_client.close()`, with the client's `connected` flag afterwards. -/
  | closed (i : ℕ) (connected : Bool)
  /-- `as_client.close()` of a connect that failed, with the flag. -/
  | failed (i : ℕ) (connected : Bool)
  /-- `close` throws. -/
  | closeThrew (i : ℕ)
  /-- The transactions are destroyed while so many clients are connected. -/
  | destroyed (connected : ℕ)
  /-- The event loop is released while so many clients are connected. -/
  | released (connected : ℕ)
deriving DecidableEq

/-- What the promise of a connect goes on with. -/
inductive Continuation where
  | resolved
  /-- The native connect failed. -/
  | rejected
  /-- The user's callback threw when it was told of the success. -/
  | thrown
deriving DecidableEq

structure ClientModule where
  connected : Finset ℕ
  connectedClients : ℤ
  eventLoopReleased : Bool
  eventLoopInitialized : Bool
  /-- Timers that will call `releaseEventLoop`. -/
  timers : ℕ
  /-- Promise continuations that have not run, each with its client. -/
  pending : List (ℕ × Continuation)
  /-- The clients whose callbacks are running after a success. -/
  calling : List ℕ
  calls : List LoopCall
  events : List ClientEvent

inductive ClientAction where
  /-- `Client#connect`. `registers` and `succeeds` are what the native side does. -/
  | connect (i : ℕ) (registers succeeds : Bool)
  /-- A continuation of `connect` runs; `callback` if `connect` was given one. -/
  | settle (k : ℕ) (callback : Bool)
  | callbackReturns (k : ℕ)
  | callbackThrows (k : ℕ)
  /-- `Client#close`; `poolThrows` if `removeAllTransactions` would throw. -/
  | close (i : ℕ) (releaseEventLoop destroyTransactions poolThrows : Bool) (clusterCount : ℕ)
  /-- The user calls `releaseEventLoop`. -/
  | releaseEventLoop (clusterCount : ℕ)
  | timer (clusterCount : ℕ)
deriving DecidableEq

namespace ClientModule

def start : ClientModule := ⟨∅, 0, false, false, 0, [], [], [], []⟩

def call (s : ClientModule) (c : LoopCall) : ClientModule := { s with calls := s.calls ++ [c] }

def log (s : ClientModule) (e : ClientEvent) : ClientModule := { s with events := s.events ++ [e] }

/-- `releaseEventLoop` -/
def releaseEventLoop (s : ClientModule) (clusterCount : ℕ) : ClientModule :=
  if s.eventLoopReleased then s
  else if clusterCount > 0 then { s with timers := s.timers + 1 }
  else { (s.call (.release clusterCount)).log (.released s.connected.card) with
    eventLoopReleased := true }

/-- `referenceEventLoop`; `none` where it throws. -/
def referenceEventLoop (s : ClientModule) : Option ClientModule :=
  if !s.eventLoopInitialized || s.eventLoopReleased then none else some (s.call .ref)

/-- `unreferenceEventLoop`; `none` where it throws. -/
def unreferenceEventLoop (s : ClientModule) : Option ClientModule :=
  if !s.eventLoopInitialized || s.eventLoopReleased then none else some (s.call .unref)

/-- `registerASEventLoop`, and whether it returns. -/
def registerASEventLoop (s : ClientModule) (registers : Bool) : ClientModule × Bool :=
  if s.eventLoopReleased then (s, false)
  else if s.eventLoopInitialized then
    match s.referenceEventLoop with
    | some s => (s, true)
    | none => (s, false)
  else if registers then ({ s.call .register with eventLoopInitialized := true }, true)
  else (s.call .register, false)

def connect (s : ClientModule) (i : ℕ) (registers succeeds : Bool) : ClientModule :=
  match s.registerASEventLoop registers with
  | (s, false) => s
  | (s, true) =>
    { s with pending := s.pending ++ [(i, if succeeds then .resolved else .rejected)] }

/-- The `then` and `catch` handlers of `connect`. -/
def runContinuation (s : ClientModule) (callback : Bool) : ℕ × Continuation → ClientModule
  | (i, .resolved) =>
    { s.log (.opened i) with
      connected := insert i s.connected
      connectedClients := s.connectedClients + 1
      calling := if callback then s.calling ++ [i] else s.calling }
  | (i, .rejected) => s.log (.failed i (i ∈ s.connected))
  | (i, .thrown) => s.log (.closed i (i ∈ s.connected))

/-- `Client#close` -/
def close (s : ClientModule) (i : ℕ) (releaseEventLoop destroyTransactions poolThrows : Bool)
    (clusterCount : ℕ) : ClientModule :=
  let s := if i ∈ s.connected then
      { s.log (.closed i false) with
        connected := s.connected.erase i
        connectedClients := s.connectedClients - 1 }
    else s
  if s.connectedClients = 0 then
    let s := if destroyTransactions then s.log (.destroyed s.connected.card) else s
    if destroyTransactions && poolThrows then s.log (.closeThrew i)
    else if releaseEventLoop then s.releaseEventLoop clusterCount
    else s.unreferenceEventLoop.getD (s.log (.closeThrew i))
  else s

def step (s : ClientModule) : ClientAction → ClientModule
  | .connect i registers succeeds => s.connect i registers succeeds
  | .settle k callback =>
    match s.pending[k]? with
    | some c => { s with pending := s.pending.eraseIdx k }.runContinuation callback c
    | none => s
  | .callbackReturns k => { s with calling := s.calling.eraseIdx k }
  | .callbackThrows k =>
    match s.calling[k]? with
    | some i =>
      { s with calling := s.calling.eraseIdx k, pending := s.pending ++ [(i, .thrown)] }
    | none => s
  | .close i release destroy poolThrows clusterCount =>
    s.close i release destroy poolThrows clusterCount
  | .releaseEventLoop clusterCount => s.releaseEventLoop clusterCount
  | .timer clusterCount =>
    if 0 < s.timers then { s with timers := s.timers - 1 }.releaseEventLoop clusterCount else s

/-! ### The native event-loop calls -/

/-- A prefix of `register, (ref | unref)*, release`, released at a cluster count of zero. -/
def WellFormed (calls : List LoopCall) : Prop :=
  calls = [] ∨ ∃ uses last, calls = .register :: (uses ++ last) ∧
    (∀ c ∈ uses, c = .ref ∨ c = .unref) ∧ (last = [] ∨ last = [.release 0])

/-- `releaseEventLoop` does not come to the native call, or a loop was to be registered before. -/
def MayRelease (s : ClientModule) (clusterCount : ℕ) : Prop :=
  s.eventLoopReleased = true ∨ 0 < clusterCount ∨ .register ∈ s.calls

/-- No loop is released that was never to be registered, and no loop is registered after an attempt
that failed. -/
def Orderly (s : ClientModule) : ClientAction → Prop
  | .connect _ _ _ =>
    s.eventLoopReleased = true ∨ s.eventLoopInitialized = true ∨ .register ∉ s.calls
  | .close i release destroy poolThrows clusterCount =>
    s.connectedClients = (if i ∈ s.connected then 1 else 0) → (destroy && poolThrows) = false →
      release = true → s.MayRelease clusterCount
  | .releaseEventLoop clusterCount => s.MayRelease clusterCount
  | .timer clusterCount => 0 < s.timers → s.MayRelease clusterCount
  | _ => True

/-- The flags of the event loop say what the native calls were. -/
structure Tracked (s : ClientModule) : Prop where
  released : s.eventLoopReleased = true ↔ ∃ n, .release n ∈ s.calls
  initialized : s.eventLoopInitialized = true → .register ∈ s.calls

variable {s t : ClientModule} {calls : List LoopCall}

/-- A loop that was registered and not released: only the uses of it stand after `register`. -/
theorem WellFormed.uses (h : WellFormed calls) (hreg : .register ∈ calls)
    (hrel : ¬ ∃ n, .release n ∈ calls) :
    ∃ uses, calls = .register :: uses ∧ ∀ c ∈ uses, c = .ref ∨ c = .unref := by
  rcases h with rfl | ⟨uses, last, rfl, huses, rfl | rfl⟩
  · simp at hreg
  · exact ⟨uses, by simp, huses⟩
  · exact absurd ⟨0, by simp⟩ hrel

theorem WellFormed.register_mem (h : WellFormed calls) (hne : calls ≠ []) : .register ∈ calls := by
  rcases h with rfl | ⟨uses, last, rfl, -, -⟩
  · exact absurd rfl hne
  · simp

theorem wellFormed_register_iff (h : WellFormed calls) :
    WellFormed (calls ++ [.register]) ↔ .register ∉ calls := by
  constructor
  · rintro (h | ⟨uses, last, h, huses, hlast⟩) hmem
    · simp at h
    · cases calls with
      | nil => simp at hmem
      | cons c rest =>
        obtain ⟨rfl, htail⟩ := List.cons.inj h
        have hlater : .register ∈ uses ++ last := htail ▸ List.mem_append_right rest (List.mem_singleton_self _)
        rcases List.mem_append.mp hlater with hu | hl
        · rcases huses _ hu with h | h <;> simp at h
        · rcases hlast with rfl | rfl <;> simp at hl
  · intro hnot
    have hempty : calls = [] := by
      by_contra hne
      exact hnot (h.register_mem hne)
    rw [hempty]
    exact .inr ⟨[], [], rfl, by simp, .inl rfl⟩

theorem WellFormed.use (h : WellFormed calls) (hreg : .register ∈ calls)
    (hrel : ¬ ∃ n, .release n ∈ calls) {c : LoopCall} (hc : c = .ref ∨ c = .unref) :
    WellFormed (calls ++ [c]) := by
  obtain ⟨uses, rfl, huses⟩ := h.uses hreg hrel
  refine .inr ⟨uses ++ [c], [], by simp, ?_, .inl rfl⟩
  intro d hd
  rcases List.mem_append.mp hd with hd | hd
  · exact huses d hd
  · rw [List.mem_singleton.mp hd]
    exact hc

theorem wellFormed_release_iff (h : WellFormed calls) (hrel : ¬ ∃ n, .release n ∈ calls) :
    WellFormed (calls ++ [.release 0]) ↔ .register ∈ calls := by
  constructor
  · rintro (h | ⟨uses, last, h, -, -⟩)
    · simp at h
    · cases calls with
      | nil => simp at h
      | cons c rest =>
        obtain ⟨rfl, -⟩ := List.cons.inj h
        simp
  · intro hreg
    obtain ⟨uses, rfl, huses⟩ := h.uses hreg hrel
    exact .inr ⟨uses, [.release 0], by simp, huses, .inr rfl⟩

theorem Tracked.congr (hs : s.Tracked) (hcalls : t.calls = s.calls)
    (hreleased : t.eventLoopReleased = s.eventLoopReleased)
    (hinitialized : t.eventLoopInitialized = s.eventLoopInitialized) : t.Tracked := by
  constructor
  · rw [hreleased, hcalls]
    exact hs.released
  · rw [hinitialized, hcalls]
    exact hs.initialized

theorem Tracked.use (hs : s.Tracked) {c : LoopCall} (hc : c = .ref ∨ c = .unref) :
    (s.call c).Tracked := by
  constructor
  · have hno : ∀ n, (.release n : LoopCall) ≠ c := by
      rintro n rfl
      rcases hc with h | h <;> simp at h
    simp only [call, List.mem_append, List.mem_singleton, hno, or_false]
    exact hs.released
  · intro h
    exact List.mem_append_left _ (hs.initialized h)

theorem Tracked.releaseEventLoop (hs : s.Tracked) (n : ℕ) : (s.releaseEventLoop n).Tracked := by
  rw [ClientModule.releaseEventLoop]
  split_ifs with hreleased hcount
  · exact hs
  · exact hs.congr rfl rfl rfl
  · refine ⟨⟨fun _ => ⟨n, by simp [log, call]⟩, fun _ => rfl⟩, fun h => ?_⟩
    exact List.mem_append_left _ (hs.initialized h)

theorem wellFormed_releaseEventLoop_iff (hs : s.Tracked) (hw : WellFormed s.calls) (n : ℕ) :
    WellFormed (s.releaseEventLoop n).calls ↔ s.MayRelease n := by
  rw [ClientModule.releaseEventLoop, MayRelease]
  split_ifs with hreleased hcount
  · exact iff_of_true hw (.inl hreleased)
  · exact iff_of_true hw (.inr (.inl hcount))
  · obtain rfl : n = 0 := by omega
    have hrel : ¬ ∃ n, .release n ∈ s.calls := fun h => hreleased (hs.released.mpr h)
    simp only [hreleased, lt_irrefl, false_or, Bool.false_eq_true]
    exact wellFormed_release_iff hw hrel

theorem unreferenceEventLoop_eq_some (h : s.unreferenceEventLoop = some t) :
    s.eventLoopInitialized = true ∧ s.eventLoopReleased = false ∧ t = s.call .unref := by
  rw [unreferenceEventLoop] at h
  split_ifs at h with hguard
  simp only [Bool.or_eq_true, Bool.not_eq_true', not_or, Bool.not_eq_false,
    Bool.not_eq_true] at hguard
  exact ⟨hguard.1, hguard.2, (Option.some.inj h).symm⟩

/-- What `connect` registers or references: nothing once released, a reference once initialized. -/
theorem registerASEventLoop_cases (s : ClientModule) (registers : Bool) :
    (s.eventLoopReleased = true ∧ s.registerASEventLoop registers = (s, false)) ∨
    (s.eventLoopReleased = false ∧ s.eventLoopInitialized = true ∧
      s.registerASEventLoop registers = (s.call .ref, true)) ∨
    (s.eventLoopReleased = false ∧ s.eventLoopInitialized = false ∧
      s.registerASEventLoop registers =
        ({ s.call .register with eventLoopInitialized := registers }, registers)) := by
  cases hreleased : s.eventLoopReleased with
  | true => exact .inl ⟨rfl, by simp [registerASEventLoop, hreleased]⟩
  | false =>
    cases hinit : s.eventLoopInitialized with
    | true =>
      exact .inr (.inl ⟨rfl, rfl, by simp [registerASEventLoop, referenceEventLoop, hreleased, hinit]⟩)
    | false =>
      refine .inr (.inr ⟨rfl, rfl, ?_⟩)
      cases registers <;> simp [registerASEventLoop, hreleased, hinit, call]

theorem connect_eq (s : ClientModule) (i : ℕ) (registers succeeds : Bool) :
    (s.connect i registers succeeds).calls = (s.registerASEventLoop registers).1.calls ∧
    (s.connect i registers succeeds).eventLoopReleased =
      (s.registerASEventLoop registers).1.eventLoopReleased ∧
    (s.connect i registers succeeds).eventLoopInitialized =
      (s.registerASEventLoop registers).1.eventLoopInitialized := by
  rw [connect]
  rcases s.registerASEventLoop registers with ⟨t, _ | _⟩
  · exact ⟨rfl, rfl, rfl⟩
  · exact ⟨rfl, rfl, rfl⟩

theorem Tracked.registerASEventLoop (hs : s.Tracked) (registers : Bool) :
    (s.registerASEventLoop registers).1.Tracked := by
  rcases s.registerASEventLoop_cases registers with ⟨-, h⟩ | ⟨-, -, h⟩ | ⟨hreleased, -, h⟩
  · rw [h]
    exact hs
  · rw [h]
    exact hs.use (.inl rfl)
  · rw [h]
    refine ⟨?_, fun _ => by simp [call]⟩
    simp only [call, List.mem_append, List.mem_singleton, reduceCtorEq, or_false]
    exact hs.released

theorem wellFormed_connect_iff (hs : s.Tracked) (hw : WellFormed s.calls) (i : ℕ)
    (registers succeeds : Bool) :
    WellFormed (s.connect i registers succeeds).calls ↔
      s.eventLoopReleased = true ∨ s.eventLoopInitialized = true ∨ .register ∉ s.calls := by
  rw [(s.connect_eq i registers succeeds).1]
  rcases s.registerASEventLoop_cases registers with ⟨hreleased, h⟩ | ⟨hreleased, hinit, h⟩ |
    ⟨hreleased, hinit, h⟩
  · rw [h]
    exact iff_of_true hw (.inl hreleased)
  · rw [h]
    refine iff_of_true (hw.use (hs.initialized hinit) ?_ (.inl rfl)) (.inr (.inl hinit))
    intro hrel
    rw [hs.released.mpr hrel] at hreleased
    cases hreleased
  · rw [h]
    simp only [hreleased, hinit, Bool.false_eq_true, false_or]
    exact wellFormed_register_iff hw

/-- `close` before it looks at the counter. -/
def closeHandle (s : ClientModule) (i : ℕ) : ClientModule :=
  if i ∈ s.connected then
    { s.log (.closed i false) with
      connected := s.connected.erase i
      connectedClients := s.connectedClients - 1 }
  else s

theorem closeHandle_loop (s : ClientModule) (i : ℕ) :
    (s.closeHandle i).calls = s.calls ∧
    (s.closeHandle i).eventLoopReleased = s.eventLoopReleased ∧
    (s.closeHandle i).eventLoopInitialized = s.eventLoopInitialized := by
  rw [closeHandle]
  split_ifs
  · exact ⟨rfl, rfl, rfl⟩
  · exact ⟨rfl, rfl, rfl⟩

theorem closeHandle_connectedClients (s : ClientModule) (i : ℕ) :
    (s.closeHandle i).connectedClients =
      s.connectedClients - if i ∈ s.connected then 1 else 0 := by
  rw [closeHandle]
  split_ifs
  · rfl
  · simp

/-- `removeAllTransactions` of `close`. -/
def destroyTransactions (s : ClientModule) (destroy : Bool) : ClientModule :=
  if destroy then s.log (.destroyed s.connected.card) else s

@[simp]
theorem destroyTransactions_calls (s : ClientModule) (destroy : Bool) :
    (s.destroyTransactions destroy).calls = s.calls := by
  cases destroy <;> rfl

@[simp]
theorem destroyTransactions_released (s : ClientModule) (destroy : Bool) :
    (s.destroyTransactions destroy).eventLoopReleased = s.eventLoopReleased := by
  cases destroy <;> rfl

@[simp]
theorem destroyTransactions_initialized (s : ClientModule) (destroy : Bool) :
    (s.destroyTransactions destroy).eventLoopInitialized = s.eventLoopInitialized := by
  cases destroy <;> rfl

@[simp]
theorem destroyTransactions_connected (s : ClientModule) (destroy : Bool) :
    (s.destroyTransactions destroy).connected = s.connected := by
  cases destroy <;> rfl

/-- `close` once the counter is zero. -/
def closeLast (s : ClientModule) (i : ℕ) (releaseEventLoop destroy poolThrows : Bool)
    (clusterCount : ℕ) : ClientModule :=
  let s := s.destroyTransactions destroy
  if destroy && poolThrows then s.log (.closeThrew i)
  else if releaseEventLoop then s.releaseEventLoop clusterCount
  else s.unreferenceEventLoop.getD (s.log (.closeThrew i))

theorem close_eq (s : ClientModule) (i : ℕ) (release destroy poolThrows : Bool) (n : ℕ) :
    s.close i release destroy poolThrows n =
      if (s.closeHandle i).connectedClients = 0 then
        (s.closeHandle i).closeLast i release destroy poolThrows n
      else s.closeHandle i := rfl

theorem Tracked.closeLast (hs : s.Tracked) (i : ℕ) (release destroy poolThrows : Bool) (n : ℕ) :
    (s.closeLast i release destroy poolThrows n).Tracked := by
  have ht : (s.destroyTransactions destroy).Tracked := hs.congr (by simp) (by simp) (by simp)
  rw [ClientModule.closeLast]
  split_ifs
  · exact ht.congr rfl rfl rfl
  · exact ht.releaseEventLoop n
  · cases h : (s.destroyTransactions destroy).unreferenceEventLoop with
    | none => exact ht.congr rfl rfl rfl
    | some u =>
      obtain ⟨-, -, rfl⟩ := unreferenceEventLoop_eq_some h
      exact ht.use (.inr rfl)

theorem wellFormed_closeLast_iff (hs : s.Tracked) (hw : WellFormed s.calls) (i : ℕ)
    (release destroy poolThrows : Bool) (n : ℕ) :
    WellFormed (s.closeLast i release destroy poolThrows n).calls ↔
      ((destroy && poolThrows) = false → release = true → s.MayRelease n) := by
  have ht : (s.destroyTransactions destroy).Tracked := hs.congr (by simp) (by simp) (by simp)
  have hcalls : WellFormed (s.destroyTransactions destroy).calls := by
    rw [destroyTransactions_calls]
    exact hw
  rw [closeLast]
  split_ifs with hthrows hrelease
  · exact iff_of_true hcalls fun h => by simp [hthrows] at h
  · have hmay : (s.destroyTransactions destroy).MayRelease n ↔ s.MayRelease n := by
      simp [MayRelease]
    rw [← hmay, forall_prop_of_true (Bool.eq_false_iff.mpr hthrows), forall_prop_of_true hrelease]
    exact wellFormed_releaseEventLoop_iff ht hcalls n
  · refine iff_of_true ?_ fun _ h => absurd h hrelease
    cases h : (s.destroyTransactions destroy).unreferenceEventLoop with
    | none => exact hcalls
    | some u =>
      obtain ⟨hinit, hreleased, rfl⟩ := unreferenceEventLoop_eq_some h
      refine hcalls.use (ht.initialized hinit) ?_ (.inr rfl)
      intro hrel
      rw [ht.released.mpr hrel] at hreleased
      cases hreleased

theorem Tracked.closeHandle (hs : s.Tracked) (i : ℕ) : (s.closeHandle i).Tracked := by
  obtain ⟨hcalls, hreleased, hinit⟩ := s.closeHandle_loop i
  exact hs.congr hcalls hreleased hinit

theorem runContinuation_loop (s : ClientModule) (callback : Bool) (c : ℕ × Continuation) :
    (s.runContinuation callback c).calls = s.calls ∧
    (s.runContinuation callback c).eventLoopReleased = s.eventLoopReleased ∧
    (s.runContinuation callback c).eventLoopInitialized = s.eventLoopInitialized := by
  rcases c with ⟨i, _ | _ | _⟩
  all_goals exact ⟨rfl, rfl, rfl⟩

theorem Tracked.step (hs : s.Tracked) (a : ClientAction) : (step s a).Tracked := by
  cases a with
  | connect i registers succeeds =>
    obtain ⟨hcalls, hreleased, hinit⟩ := s.connect_eq i registers succeeds
    exact (hs.registerASEventLoop registers).congr hcalls hreleased hinit
  | settle k callback =>
    simp only [ClientModule.step]
    split
    · rename_i c hc
      obtain ⟨hcalls, hreleased, hinit⟩ :=
        { s with pending := s.pending.eraseIdx k }.runContinuation_loop callback c
      exact hs.congr hcalls hreleased hinit
    · exact hs
  | callbackReturns k => exact hs.congr rfl rfl rfl
  | callbackThrows k =>
    simp only [ClientModule.step]
    split
    · exact hs.congr rfl rfl rfl
    · exact hs
  | close i release destroy poolThrows n =>
    simp only [ClientModule.step, close_eq]
    split_ifs
    · exact (hs.closeHandle i).closeLast i release destroy poolThrows n
    · exact hs.closeHandle i
  | releaseEventLoop n => exact hs.releaseEventLoop n
  | timer n =>
    simp only [ClientModule.step]
    split_ifs
    · exact Tracked.releaseEventLoop (s := { s with timers := s.timers - 1 }) (hs.congr rfl rfl rfl) n
    · exact hs

/-- One step keeps the calls well formed exactly if it is orderly. -/
theorem wellFormed_step_iff (hs : s.Tracked) (hw : WellFormed s.calls) (a : ClientAction) :
    WellFormed (step s a).calls ↔ s.Orderly a := by
  cases a with
  | connect i registers succeeds => exact wellFormed_connect_iff hs hw i registers succeeds
  | settle k callback =>
    refine iff_of_true ?_ trivial
    simp only [step]
    split
    · rename_i c hc
      rw [(runContinuation_loop _ callback c).1]
      exact hw
    · exact hw
  | callbackReturns k => exact iff_of_true hw trivial
  | callbackThrows k =>
    refine iff_of_true ?_ trivial
    simp only [step]
    split
    · exact hw
    · exact hw
  | close i release destroy poolThrows n =>
    obtain ⟨hcalls, hreleased, -⟩ := s.closeHandle_loop i
    have hcount := s.closeHandle_connectedClients i
    have hmay : (s.closeHandle i).MayRelease n ↔ s.MayRelease n := by
      rw [MayRelease, MayRelease, hcalls, hreleased]
    simp only [step, close_eq, Orderly]
    by_cases hzero : (s.closeHandle i).connectedClients = 0
    · have heq : s.connectedClients = if i ∈ s.connected then 1 else 0 := by omega
      rw [if_pos hzero, forall_prop_of_true heq, ← hmay]
      exact wellFormed_closeLast_iff (hs.closeHandle i) (hcalls ▸ hw) i release destroy poolThrows n
    · rw [if_neg hzero, hcalls]
      refine iff_of_true hw fun heq => absurd ?_ hzero
      omega
  | releaseEventLoop n => exact wellFormed_releaseEventLoop_iff hs hw n
  | timer n =>
    simp only [step, Orderly]
    split_ifs with htimers
    · rw [forall_prop_of_true htimers]
      exact wellFormed_releaseEventLoop_iff (s := { s with timers := s.timers - 1 })
        (hs.congr rfl rfl rfl) hw n
    · exact iff_of_true hw fun h => absurd h htimers

theorem Tracked.start : start.Tracked :=
  ⟨by simp [ClientModule.start], fun h => nomatch h⟩

/-- The native calls of a run are register, uses, release exactly if every step is orderly. -/
theorem calls_wellFormed_iff (as : List ClientAction) :
    Run.Always step (fun s => WellFormed s.calls) start as ↔ Run.AllSteps step Orderly start as := by
  have hall : Run.AllSteps step (fun _ _ => True) start as := .of_forall (fun _ _ => trivial) as start
  have hstep : ∀ s a, Tracked s ∧ WellFormed s.calls → True → Orderly s a →
      Tracked (step s a) ∧ WellFormed (step s a).calls := by
    rintro s a ⟨hs, hw⟩ - ha
    exact ⟨hs.step a, (wellFormed_step_iff hs hw a).mpr ha⟩
  refine Run.always_iff_allSteps hstep ?_ ⟨Tracked.start, .inl rfl⟩ (.inl rfl) hall
  rintro s a ⟨hs, hw⟩ -
  exact wellFormed_step_iff hs hw a

/-- `releaseEventLoop` before any client connects: the loop is released and was never registered. -/
theorem release_before_register :
    ¬ Run.Always step (fun s => WellFormed s.calls) start [.releaseEventLoop 0] := by
  rintro ⟨-, h⟩
  rcases h with h | ⟨uses, last, h, -, -⟩
  · exact absurd h (by decide)
  · cases (List.cons.inj h).1

end ClientModule

end AerospikeNode
