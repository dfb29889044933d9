import AerospikeNode.Lib.Run
import AerospikeNode.Native.ToJs

/-!
# Cluster events

`src/main/events.cc`. A thread of the C client pushes events to the queue behind a libuv handle and signals
the event loop, which merges signals that it has not attended to yet, and empties the queue, one event after
the other, when it attends to one. Closing takes the queue away from the handle; it may happen between two
functions of the event loop, and in the callback for an event.

`handedOver_iff`: in every order of these steps the callback gets the pushed events in order, all that were
pushed before a wakeup that was processed, and none after the close, unless the loop that empties the queue
still finds an event when its callback has closed it.
-/

namespace AerospikeNode

open Run

/-- `as_cluster_event_type` -/
inductive ClusterEventType where
  | addNode
  | removeNode
  | disconnected
deriving DecidableEq

structure ClusterEvent where
  type : ClusterEventType
  nodeName : Bytes
  nodeAddress : Bytes
deriving DecidableEq

namespace ClusterEvent

def name : ClusterEvent → String
  | ⟨.addNode, _, _⟩ => "nodeAdded"
  | ⟨.removeNode, _, _⟩ => "nodeRemoved"
  | ⟨.disconnected, _, _⟩ => "disconnected"

/-- `EventQueue::convert` -/
def convert (event : ClusterEvent) : JsValue :=
  .plain [(JsString.lit "name", .str (JsString.lit event.name)),
    (JsString.lit "nodeName", .ofCString event.nodeName),
    (JsString.lit "nodeAddress", .ofCString event.nodeAddress)]

end ClusterEvent

/-- The thread that calls `cluster_event_callback`: outside of it, after the test of `handle->data`, with the
queue that it has read from there, with the event pushed; or it has pushed to no queue, which ends the process. -/
inductive EventThread where
  | idle
  | tested (event : ClusterEvent)
  | loaded (event : ClusterEvent)
  | pushed
  | crashed

/-- The event loop: in no function of the queue, in the loop of `process`, or in the callback. -/
inductive EventsLoop where
  | idle
  | processing
  | calling

/-- A call of the callback, and whether the queue was closed by then. -/
structure EventCall where
  event : JsValue
  closed : Bool

structure EventQueue where
  thread : EventThread
  loop : EventsLoop
  events : List ClusterEvent
  /-- The handle has its queue. -/
  data : Bool
  signalled : Bool
  /-- The events pushed so far. -/
  pushed : List ClusterEvent
  calls : List EventCall
  /-- The number of events pushed before the last wakeup. -/
  before : ℕ
  /-- The same for the last wakeup that was processed while the queue was open. -/
  due : ℕ

namespace EventQueue

/-- `events_callback_init` -/
def init : EventQueue := ⟨.idle, .idle, [], true, false, [], [], 0, 0⟩

/-- `if (handle->data)` -/
def test (q : EventQueue) (event : ClusterEvent) : EventQueue :=
  if q.data then { q with thread := .tested event } else q

/-- Reading `handle->data` again. -/
def load (q : EventQueue) : EventQueue :=
  match q.thread with
  | .tested event => { q with thread := if q.data then .loaded event else .crashed }
  | _ => q

/-- `queue->push(event)` -/
def push (q : EventQueue) : EventQueue :=
  match q.thread with
  | .loaded event => { q with events := q.events ++ [event], pushed := q.pushed ++ [event], thread := .pushed }
  | _ => q

/-- One round of the loop in `process`. -/
def process (q : EventQueue) : EventQueue :=
  match q.events with
  | [] => { q with loop := .idle, due := if q.data then q.before else q.due }
  | event :: events => { q with events, loop := .calling, calls := q.calls ++ [⟨event.convert, !q.data⟩] }

/-- `cluster_event_async` -/
def wakeup (q : EventQueue) : EventQueue :=
  if q.data then { q with signalled := false, loop := .processing, before := q.pushed.length }
  else { q with signalled := false }

inductive Action where
  /-- The C client calls `cluster_event_callback`. -/
  | event (event : ClusterEvent)
  | load
  | push
  /-- `uv_async_send` -/
  | send
  | wakeup
  | process
  /-- The callback has returned, or has thrown and its exception was handled. -/
  | returned
  /-- `events_callback_close` -/
  | close

def step (q : EventQueue) : Action → EventQueue
  | .event event => q.test event
  | .load => q.load
  | .push => q.push
  | .send => { q with signalled := true, thread := .idle }
  | .wakeup => q.wakeup
  | .process => q.process
  | .returned => { q with loop := .processing }
  | .close => { q with data := false }

/-- What the two threads may do next. Signals are attended to while the event loop is in no other function, and
`close` is called there or by the callback; nothing happens after a crash. -/
def Allowed (q : EventQueue) (a : Action) : Prop :=
  q.thread ≠ .crashed ∧
    match a with
    | .event _ => q.thread = .idle
    | .load => ∃ event, q.thread = .tested event
    | .push => ∃ event, q.thread = .loaded event
    | .send => q.thread = .pushed
    | .wakeup => q.signalled = true ∧ q.loop = .idle
    | .process => q.loop = .processing
    | .returned => q.loop = .calling
    | .close => q.data = true ∧ q.loop ≠ .processing

/-- The calls are for the first pushed events, in order, all while the queue was open, and at least for those
pushed before the last wakeup that was processed. -/
structure HandedOver (q : EventQueue) : Prop where
  inOrder : q.calls.map EventCall.event <+: q.pushed.map ClusterEvent.convert
  opened : ∀ c ∈ q.calls, c.closed = false
  all : q.due ≤ q.calls.length

/-- The loop finds no event in a queue that is closed. -/
def Prompt (q : EventQueue) : Action → Prop
  | .process => q.data = false → q.events = []
  | _ => True

/-! ### Steps -/

/-- The queue holds what was pushed and not yet handed over. -/
structure Inv (q : EventQueue) : Prop where
  queue : q.calls.map EventCall.event ++ q.events.map ClusterEvent.convert = q.pushed.map ClusterEvent.convert
  before : q.before ≤ q.pushed.length
  due : q.due ≤ q.calls.length
  opened : ∀ c ∈ q.calls, c.closed = false

section
variable {q : EventQueue} {a : Action}

theorem inv_init : Inv init := ⟨rfl, le_refl _, le_refl _, nofun⟩

theorem Inv.length_calls (h : Inv q) : q.calls.length + q.events.length = q.pushed.length := by
  have hlen := congrArg List.length h.queue
  rwa [List.length_append, List.length_map, List.length_map, List.length_map] at hlen

theorem Inv.handedOver (h : Inv q) : HandedOver q := ⟨⟨_, h.queue⟩, h.opened, h.due⟩

/-- Whatever changes none of the lists keeps the invariant. -/
theorem Inv.frame (h : Inv q) {thread : EventThread} {loop : EventsLoop} {data signalled : Bool} :
    Inv { q with thread, loop, data, signalled } := ⟨h.queue, h.before, h.due, h.opened⟩

theorem Inv.test (h : Inv q) (event : ClusterEvent) : Inv (q.test event) := by
  unfold EventQueue.test
  split_ifs
  · exact h.frame
  · exact h

theorem Inv.load (h : Inv q) : Inv q.load := by
  unfold EventQueue.load
  split
  · exact h.frame
  · exact h

theorem Inv.push (h : Inv q) : Inv q.push := by
  unfold EventQueue.push
  split
  · rename_i event _
    refine ⟨?_, ?_, h.due, h.opened⟩
    · show _ ++ (q.events ++ [event]).map _ = (q.pushed ++ [event]).map _
      rw [List.map_append, ← List.append_assoc, h.queue, List.map_append]
    · show q.before ≤ (q.pushed ++ [event]).length
      rw [List.length_append]
      exact h.before.trans (Nat.le_add_right _ _)
  · exact h

theorem Inv.wakeup (h : Inv q) : Inv q.wakeup := by
  unfold EventQueue.wakeup
  split_ifs
  · exact ⟨h.queue, le_refl _, h.due, h.opened⟩
  · exact h.frame

theorem process_nil (h : q.events = []) :
    q.process = { q with loop := .idle, due := if q.data then q.before else q.due } := by
  unfold EventQueue.process
  rw [h]

theorem process_cons {event : ClusterEvent} {events : List ClusterEvent} (h : q.events = event :: events) :
    q.process = { q with events, loop := .calling, calls := q.calls ++ [⟨event.convert, !q.data⟩] } := by
  unfold EventQueue.process
  rw [h]

theorem Inv.process (h : Inv q) (hprompt : q.data = false → q.events = []) : Inv q.process := by
  have hlen := h.length_calls
  rcases hevents : q.events with _ | ⟨event, events⟩
  · rw [process_nil hevents]
    rw [hevents, List.length_nil] at hlen
    refine ⟨h.queue, h.before, ?_, h.opened⟩
    show (if q.data then q.before else q.due) ≤ q.calls.length
    split_ifs
    · have := h.before
      omega
    · exact h.due
  · have hopen : q.data = true := by
      by_contra hclosed
      have hnone := hprompt (Bool.eq_false_of_not_eq_true hclosed)
      rw [hevents] at hnone
      cases hnone
    have hqueue := h.queue
    rw [hevents] at hqueue
    rw [process_cons hevents]
    refine ⟨?_, h.before, ?_, ?_⟩
    · show (q.calls ++ [EventCall.mk event.convert (!q.data)]).map EventCall.event ++ _ = _
      rw [List.map_append, List.append_assoc]
      exact hqueue
    · show q.due ≤ (q.calls ++ [EventCall.mk event.convert (!q.data)]).length
      rw [List.length_append]
      exact h.due.trans (Nat.le_add_right _ _)
    · intro c hc
      rcases List.mem_append.1 hc with hc | hc
      · exact h.opened c hc
      · rw [List.mem_singleton.1 hc, hopen]
        rfl

theorem inv_step (h : Inv q) (hprompt : Prompt q a) : Inv (step q a) := by
  cases a with
  | event event => exact h.test event
  | load => exact h.load
  | push => exact h.push
  | send => exact h.frame
  | wakeup => exact h.wakeup
  | process => exact h.process hprompt
  | returned => exact h.frame
  | close => exact h.frame

/-- A round that finds an event in a closed queue hands it over. -/
theorem prompt_of_handedOver (h : HandedOver (step q a)) : Prompt q a := by
  cases a with
  | process =>
    intro hclosed
    rcases hevents : q.events with _ | ⟨event, events⟩
    · rfl
    · have hcall : EventCall.mk event.convert (!q.data) ∈ (step q .process).calls := by
        show _ ∈ q.process.calls
        rw [process_cons hevents]
        exact List.mem_append_right _ (List.mem_singleton.2 rfl)
      have hopen := h.opened _ hcall
      rw [hclosed] at hopen
      cases hopen
  | _ => trivial

/-- In every order of pushes, signals, wakeups and the close the events are handed over in order, up to the
close, exactly if no round of the loop finds an event in a closed queue. -/
theorem handedOver_iff (as : List Action) (h : AllSteps step Allowed init as) :
    Always step HandedOver init as ↔ AllSteps step Prompt init as :=
  always_iff_allSteps (I := Inv) (fun _ _ hq _ hok => inv_step hq hok)
    (fun _ _ hq _ => ⟨prompt_of_handedOver, fun hok => (inv_step hq hok).handedOver⟩)
    inv_init inv_init.handedOver h

end

def nodeRemoved : ClusterEvent := ⟨.removeNode, [65], [49]⟩

def disconnected : ClusterEvent := ⟨.disconnected, [65], [49]⟩

/-- Two events come before a wakeup, and the queue is closed when the callback for the second one has returned. -/
theorem two_events_handedOver : Always step HandedOver init
    [.event nodeRemoved, .load, .push, .send, .event disconnected, .load, .push, .send, .wakeup, .process, .returned,
      .process, .returned, .process, .close] :=
  (handedOver_iff _ (by simp [AllSteps, Allowed, step, init, test, load, push, wakeup, process])).2
    (by simp [AllSteps, Prompt, step, init, test, load, push, wakeup, process])

/-- The callback closes the client at the first of two events: it is still called for the second one. -/
theorem closed_in_callback : ¬ ∀ as, AllSteps step Allowed init as → Always step HandedOver init as := by
  intro h
  have hrun := h [.event nodeRemoved, .load, .push, .send, .event disconnected, .load, .push, .send, .wakeup,
    .process, .close, .returned, .process]
    (by simp [AllSteps, Allowed, step, init, test, load, push, wakeup, process])
  have hcalls := hrun.last.opened ⟨disconnected.convert, true⟩
    (by simp [after, step, init, test, load, push, wakeup, process])
  cases hcalls

end EventQueue

end AerospikeNode
