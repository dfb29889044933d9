import AerospikeNode.Batch.Clone
import AerospikeNode.Cmd.Stream

/-!
# Results of a stream UDF

`QueryForeachCommand` (`src/main/commands/query_foreach.cc`). The query runs in a worker thread and pushes
clones of its results to a queue; now and then, and when it has ended, it signals the event loop, which
merges signals that it has not attended to yet. The event loop empties the queue, one value after the
other, when it attends to a signal, and once more when the worker has ended.

`calls_deliver`: in every order of these steps the callback gets the pushed values, or the first of them,
in order, then nothing after the call that ends the query; all of them, if there was no error.
-/

namespace AerospikeNode

open Run

namespace QueryForeach

def QUEUE_SZ : ℕ := 100000

/-- The worker thread: `execute` has not begun, `aerospike_query_foreach` runs, `execute` has returned. -/
inductive Worker where
  | waiting
  | querying
  | returned
deriving DecidableEq

/-- The event loop thread: in no function of the command, in `async_queue_process` for a signal or for
`respond`, or past `uv_close`. -/
inductive Loop where
  | idle
  | processing
  | responding
  | closed
deriving DecidableEq

structure Cmd where
  worker : Worker
  loop : Loop
  err : Option AsError
  results : List AsVal
  signalInterval : ℕ
  signalled : Bool
  /-- The clones pushed so far. -/
  pushed : List AsVal
  /-- The calls of the callback so far. -/
  calls : List NativeEvent

/-- The command when the worker is queued; `err` is what `prepare` found wrong. -/
def start (err : Option AsError) : Cmd := ⟨.waiting, .idle, err, [], 0, false, [], []⟩

namespace Cmd

def isError (c : Cmd) : Bool := c.err.any fun e => e.code ≠ Status.ok

/-- `uv_async_send` -/
def send (c : Cmd) : Cmd := { c with signalled := true }

def push (c : Cmd) (clone : AsVal) : Cmd :=
  { c with results := c.results ++ [clone], pushed := c.pushed ++ [clone] }

/-- The signal that is due every `max_q_size / 20` values. -/
def countSignal (c : Cmd) : Cmd :=
  if (c.signalInterval + 1) % (QUEUE_SZ / 20) = 0 then { c with signalInterval := 0 }.send
  else { c with signalInterval := c.signalInterval + 1 }

/-- `async_queue_populate` with what `asval_clone` returned. -/
def populate (c : Cmd) : Option AsVal → Cmd
  | some clone => (c.push clone).countSignal
  | none => c

def call (c : Cmd) (n : NativeEvent) : Cmd := { c with calls := c.calls ++ [n] }

/-- `uv_close` -/
def close (c : Cmd) : Cmd := { c with loop := .closed }

/-- What follows the last value: the end of the async callback, or that of `respond`. -/
def processed (c : Cmd) : Cmd :=
  match c.loop with
  | .responding => (c.call (.finish .undefined)).close
  | _ => { c with loop := .idle }

/-- One round of the loop in `async_queue_process`. -/
def process (le : AsVal → AsVal → Bool) (c : Cmd) : Cmd :=
  match c.results with
  | [] => c.processed
  | val :: results => { c with results }.call (.value (val.toJsvalue le))

/-- The beginning of `respond`. -/
def respond (c : Cmd) : Cmd :=
  if c.isError then
    match c.err with
    | some e => (c.call (.error e)).close
    | none => c
  else { c with loop := .responding }

end Cmd

inductive Action where
  /-- `execute` begins; `connected` is whether the client has a cluster. -/
  | execute (connected : Bool)
  /-- The query calls `query_foreach_callback` with a value, of which this is the clone. -/
  | value (clone : Option AsVal)
  /-- The query ends. -/
  | queryEnd (err : Option AsError)
  /-- The event loop attends to the signal. -/
  | wakeup
  | process
  | respond

open Cmd

def step (le : AsVal → AsVal → Bool) (c : Cmd) : Action → Cmd
  | .execute connected => { c with worker := if c.isError || !connected then .returned else .querying }
  | .value clone => c.populate clone
  | .queryEnd err => { c with err, worker := .returned }.send
  | .wakeup => { c with signalled := false, loop := .processing }
  | .process => c.process le
  | .respond => c.respond

/-- What the two threads may do next. Signals are attended to, and `respond` is called, while the event
loop is in no other function, and not after `uv_close`. -/
def Allowed (c : Cmd) : Action → Prop
  | .execute _ => c.worker = .waiting
  | .value _ => c.worker = .querying
  | .queryEnd _ => c.worker = .querying
  | .wakeup => c.signalled = true ∧ c.loop = .idle
  | .process => c.loop = .processing ∨ c.loop = .responding
  | .respond => c.worker = .returned ∧ c.loop = .idle

/-! ### What the callback gets -/

def valueOf : NativeEvent → Option JsValue
  | .value v => some v
  | _ => none

/-- The values among the calls. -/
def values (calls : List NativeEvent) : List JsValue := calls.filterMap valueOf

/-- The calls of the callback are values, or values and then one that is none. -/
structure Delivers (le : AsVal → AsVal → Bool) (c : Cmd) : Prop where
  inOrder : values c.calls <+: c.pushed.map fun v => v.toJsvalue le
  nothingAfter : ∀ before n later, c.calls = before ++ n :: later → valueOf n = none → later = []
  all : ∀ v, .finish v ∈ c.calls → values c.calls = c.pushed.map fun v => v.toJsvalue le

/-! ### Steps -/

section
variable {le : AsVal → AsVal → Bool} {c : Cmd}

theorem values_concat (calls : List NativeEvent) (n : NativeEvent) :
    values (calls ++ [n]) = values calls ++ (valueOf n).toList := by
  rw [values, List.filterMap_append]
  rfl

/-- The queue holds what was pushed and not yet handed over. While the callback can still be called it has
been given values only; the call that ended the query is the last one. -/
structure Inv (le : AsVal → AsVal → Bool) (c : Cmd) : Prop where
  queue : values c.calls ++ c.results.map (fun v => v.toJsvalue le) = c.pushed.map fun v => v.toJsvalue le
  opened : c.loop ≠ .closed → ∀ n ∈ c.calls, (valueOf n).isSome = true
  closed : c.loop = .closed → ∃ before n, c.calls = before ++ [n] ∧ (∀ m ∈ before, (valueOf m).isSome = true) ∧
    valueOf n = none ∧ ∀ v, n = .finish v → c.results = []
  ended : c.loop = .responding ∨ c.loop = .closed → c.worker = .returned

theorem inv_start (err : Option AsError) : Inv le (start err) where
  queue := rfl
  opened := fun _ => nofun
  closed := nofun
  ended := fun h => h.elim nofun nofun

/-- Steps of the worker that push nothing. -/
theorem Inv.worker (h : Inv le c) (hw : c.worker ≠ .returned) {worker : Worker} {err : Option AsError}
    {signalInterval : ℕ} {signalled : Bool} : Inv le { c with worker, err, signalInterval, signalled } := by
  have hloop : c.loop ≠ .responding ∧ c.loop ≠ .closed :=
    ⟨fun hl => hw (h.ended (.inl hl)), fun hl => hw (h.ended (.inr hl))⟩
  exact ⟨h.queue, h.opened, fun hl => absurd hl hloop.2,
    fun hl => hl.elim (fun hl => absurd hl hloop.1) fun hl => absurd hl hloop.2⟩

theorem Inv.push (h : Inv le c) (hw : c.worker ≠ .returned) (clone : AsVal) : Inv le (c.push clone) := by
  have hclosed : c.loop ≠ .closed := fun hl => hw (h.ended (.inr hl))
  refine ⟨?_, h.opened, fun hl => absurd hl hclosed, h.ended⟩
  change values c.calls ++ (c.results ++ [clone]).map _ = (c.pushed ++ [clone]).map _
  rw [List.map_append, ← List.append_assoc, h.queue, List.map_append]

theorem Inv.populate (h : Inv le c) (hw : c.worker = .querying) (clone : Option AsVal) : Inv le (c.populate clone) := by
  have hne : c.worker ≠ .returned := by
    rw [hw]
    exact nofun
  cases clone with
  | none => exact h
  | some clone =>
    have hpush := h.push hne clone
    rw [Cmd.populate, countSignal]
    split_ifs
    · exact hpush.worker hne
    · exact hpush.worker hne

/-- The call that ends the query. -/
theorem Inv.finish (h : Inv le c) (hl : c.loop ≠ .closed) (hw : c.worker = .returned) {n : NativeEvent}
    (hn : valueOf n = none) (hresults : ∀ v, n = .finish v → c.results = []) : Inv le (c.call n).close := by
  refine ⟨?_, fun hl' => absurd rfl hl', fun _ => ⟨c.calls, n, rfl, h.opened hl, hn, hresults⟩, fun _ => hw⟩
  change values (c.calls ++ [n]) ++ _ = _
  rw [values_concat, hn, Option.toList_none, List.append_nil]
  exact h.queue

theorem Inv.process (h : Inv le c) (hl : c.loop = .processing ∨ c.loop = .responding) : Inv le (c.process le) := by
  have hopen : c.loop ≠ .closed := by
    rcases hl with hl | hl
    · rw [hl]
      exact nofun
    · rw [hl]
      exact nofun
  rw [Cmd.process]
  cases hr : c.results with
  | nil =>
    simp only [processed]
    rcases hl with hl | hl
    · rw [hl]
      exact ⟨h.queue, fun _ => h.opened hopen, nofun, fun hl => hl.elim nofun nofun⟩
    · rw [hl]
      exact h.finish hopen (h.ended (.inl hl)) rfl fun _ _ => hr
  | cons val results =>
    have hqueue := h.queue
    rw [hr, List.map_cons] at hqueue
    refine ⟨?_, fun _ n hn => ?_, fun hl' => absurd hl' hopen, h.ended⟩
    · change values (c.calls ++ [.value (val.toJsvalue le)]) ++ results.map _ = _
      rw [values_concat, List.append_assoc]
      exact hqueue
    · rcases List.mem_append.1 hn with hn | hn
      · exact h.opened hopen n hn
      · rw [List.mem_singleton.1 hn]
        rfl

theorem Inv.respond (h : Inv le c) (hw : c.worker = .returned) (hl : c.loop = .idle) : Inv le c.respond := by
  have hopen : c.loop ≠ .closed := by
    rw [hl]
    exact nofun
  rw [Cmd.respond]
  split_ifs
  · cases c.err with
    | none => exact h
    | some e => exact h.finish hopen hw rfl nofun
  · exact ⟨h.queue, fun _ => h.opened hopen, nofun, fun _ => hw⟩

theorem inv_step {a : Action} (h : Inv le c) (ha : Allowed c a) : Inv le (step le c a) := by
  cases a with
  | execute connected =>
    have hw : c.worker = .waiting := ha
    exact h.worker (by rw [hw]; nofun)
  | value clone => exact h.populate ha clone
  | queryEnd err =>
    have hw : c.worker = .querying := ha
    exact h.worker (by rw [hw]; nofun)
  | wakeup =>
    have hopen : c.loop ≠ .closed := by
      rw [ha.2]
      exact nofun
    exact ⟨h.queue, fun _ => h.opened hopen, nofun, fun hl => hl.elim nofun nofun⟩
  | process => exact h.process ha
  | respond => exact h.respond ha.1 ha.2

/-! ### Runs -/

theorem values_eq_of_open {calls : List NativeEvent} (h : ∀ n ∈ calls, (valueOf n).isSome = true)
    {before later : List NativeEvent} {n : NativeEvent} (hcalls : calls = before ++ n :: later) : valueOf n ≠ none := by
  intro hn
  have := h n (by rw [hcalls]; exact List.mem_append_right _ (.head _))
  rw [hn] at this
  cases this

theorem Inv.delivers (h : Inv le c) : Delivers le c := by
  refine ⟨⟨_, h.queue⟩, fun before n later hcalls hn => ?_, fun v hv => ?_⟩
  · by_cases hl : c.loop = .closed
    · obtain ⟨before', n', hcalls', hbefore', -⟩ := h.closed hl
      rcases List.eq_nil_or_concat later with hnil | ⟨later', last, rfl⟩
      · exact hnil
      · rw [hcalls, List.concat_eq_append, ← List.cons_append, ← List.append_assoc] at hcalls'
        obtain ⟨rfl, -⟩ := List.append_inj' hcalls' rfl
        exact absurd hn (values_eq_of_open hbefore' rfl)
    · exact absurd hn (values_eq_of_open (h.opened hl) hcalls)
  · by_cases hl : c.loop = .closed
    · obtain ⟨before, n, hcalls, hbefore, hn, hresults⟩ := h.closed hl
      rw [hcalls] at hv
      have hfinish : n = .finish v := by
        rcases List.mem_append.1 hv with hv | hv
        · cases hbefore _ hv
        · exact (List.mem_singleton.1 hv).symm
      have hqueue := h.queue
      rw [hresults v hfinish, List.map_nil, List.append_nil] at hqueue
      exact hqueue
    · cases h.opened hl _ hv

/-- In every order of pushes, signals and wakeups the callback gets the pushed values in order, without
a gap, then the call that ends the query and nothing more; all of them, if it ends without error. -/
theorem calls_deliver (le : AsVal → AsVal → Bool) (err : Option AsError) (as : List Action)
    (h : AllSteps (step le) Allowed (start err) as) : Delivers le (after (step le) (start err) as) :=
  (AllSteps.invariant (fun _ _ hs ha => inv_step hs ha) (inv_start err) h).delivers

end

/-- A query with two values, which the signal at its end hands over. -/
theorem two_values_deliver : Delivers (fun _ _ => true) (after (step fun _ _ => true) (start none)
    [.execute true, .value (some (.integer 1)), .value (some (.integer 2)), .queryEnd none, .wakeup, .process,
      .process, .process, .respond, .process]) :=
  calls_deliver _ _ _
    ⟨rfl, rfl, rfl, rfl, ⟨rfl, rfl⟩, .inl rfl, .inl rfl, .inl rfl, ⟨rfl, rfl⟩, .inr rfl, trivial⟩

end QueryForeach

end AerospikeNode
