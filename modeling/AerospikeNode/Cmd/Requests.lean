import AerospikeNode.Cmd.Async
import AerospikeNode.Cmd.Execute

/-!
# Requests for single records and batches

The methods of `lib/client.js` that issue the commands of `Async`, from the call by the user to what the
user hears: the optional arguments are sorted out, the command object of `lib/commands` is executed, the
native method is called with its arguments and a callback, and its calls are converted for the user.

`execute_tells`: whatever the arguments convert to and however the C client answers, the user is told once and
after the method has returned, unless an argument has the wrong type; then the method throws, or its
promise is rejected, if it is not settled already.
-/

namespace AerospikeNode

/-- A call of a method of the client, with the arguments it declares. -/
inductive Request where
  | apply (key udfArgs policy callback : JsValue)
  | batchRead (records policy callback : JsValue)
  | batchWrite (records policy callback : JsValue)
  | exists (key policy callback : JsValue)
  | existsWithMetadata (key policy callback : JsValue)
  | get (key policy callback : JsValue)
  | operate (key operations metadata policy callback : JsValue)
  | put (key bins metadata policy callback : JsValue)
  | remove (key policy callback : JsValue)
  | select (key bins policy callback : JsValue)

/-- A command object: the native method and the class it is derived from, its arguments and its callback. -/
structure Issued where
  native : AsyncClass
  cls : CommandClass
  args : List JsValue
  callback : JsValue

/-- What a request has led to when it is over: a `TypeError` that the method throws or its promise is rejected
with, or an execution, or both. -/
inductive RequestOutcome where
  | throws
  | rejects (message : String)
  | executed (x : Execution)
  | throwsAndExecuted (x : Execution)

namespace Request

/-- The policy and the callback, if the policy was left out. -/
def optPolicy (policy callback : JsValue) : JsValue × JsValue :=
  if policy.isFunction then (.null, policy) else (policy, callback)

/-- `operate`: the metadata, the policy and the callback. -/
def operateArgs (metadata policy callback : JsValue) : JsValue × JsValue × JsValue :=
  if policy.isFunction then (metadata, .null, policy)
  else if metadata.isFunction then (.null, policy, metadata)
  else (metadata, policy, callback)

/-- `put` looks at the metadata first. -/
def putArgs (metadata policy callback : JsValue) : JsValue × JsValue × JsValue :=
  if metadata.isFunction then (.null, policy, metadata)
  else if policy.isFunction then (metadata, .null, policy)
  else (metadata, policy, callback)

/-- The arguments of an `ExistsCommand`. -/
def existsArgs (key : JsValue) (args : List JsValue) : List JsValue := if key.truthy then key :: args else args

def issued : Request → Issued
  | apply key udfArgs policy callback =>
    let (policy, callback) := optPolicy policy callback
    ⟨.apply, .command, [key, udfArgs, policy], callback⟩
  | batchRead records policy callback =>
    let (policy, callback) := optPolicy policy callback
    ⟨.batchRead, .batch, [records, policy], callback⟩
  | batchWrite records policy callback =>
    let (policy, callback) := optPolicy policy callback
    ⟨.batchWrite, .batch, [records, policy], callback⟩
  | .exists key policy callback =>
    let (policy, callback) := optPolicy policy callback
    ⟨.exists, .exists .null, existsArgs .null [key, policy], callback⟩
  | existsWithMetadata key policy callback =>
    let (policy, callback) := optPolicy policy callback
    ⟨.exists, .exists key, existsArgs key [policy], callback⟩
  | get key policy callback =>
    let (policy, callback) := optPolicy policy callback
    ⟨.get, .readRecord key, [key, policy], callback⟩
  | operate key operations metadata policy callback =>
    let (metadata, policy, callback) := operateArgs metadata policy callback
    ⟨.operate, .readRecord key, [key, operations, metadata, policy], callback⟩
  | put key bins metadata policy callback =>
    let (metadata, policy, callback) := putArgs metadata policy callback
    ⟨.put, .writeRecord key, [key, bins, metadata, policy], callback⟩
  | remove key policy callback =>
    let (policy, callback) := optPolicy policy callback
    ⟨.remove, .writeRecord key, [key, policy], callback⟩
  | select key bins policy callback =>
    let (policy, callback) := optPolicy policy callback
    ⟨.select, .readRecord key, [key, bins, policy], callback⟩

end Request

namespace Issued

/-- `if (callback) this.callback = callback` -/
def command (i : Issued) : Command := .plain i.cls i.callback.truthy

/-- The arguments of the native method: those of the command, and `asCallback`. -/
def info (i : Issued) : List JsValue := i.args ++ [.func]

def nativeMethod (i : Issued) (c : Converters) (answer : AsyncAnswer) : Command.NativeMethod i.command where
  sync := (i.native.run c i.info answer).sync
  later := (i.native.run c i.info answer).later
  admits := ⟨_, i.native.run_calls c i.info answer⟩

/-- `execute`: a callback that is no function cannot be bound, nor queued with `process.nextTick`, and an
exception of the native method leaves `process`. It rejects a promise that the native method has not settled by
calling back before it returned, and a promise settled once stays so, while a callback is called even so. -/
def execute (i : Issued) (connected : Bool) (c : Converters) (answer : AsyncAnswer) : RequestOutcome :=
  if i.callback.truthy && !i.callback.isFunction then .throws
  else if !connected then .executed { i.command.sendError .start with running := false }.drain
  else match i.native.method c i.info answer with
    | .error message => if i.command.expectsPromise then .rejects message else .throws
    | .ok run =>
      let x := i.command.execute true (i.nativeMethod c answer)
      if run.raised then
        if !i.command.expectsPromise then .throwsAndExecuted x
        else if run.sync.isEmpty then .rejects "Error in parsing the operations"
        else .executed x
      else .executed x

end Issued

/-! ### What the user is told -/

/-- An error has another code than `AEROSPIKE_OK`. -/
def AsyncAnswer.Proper : AsyncAnswer → Prop
  | refused err => err.code ≠ Status.ok
  | accepted _ reply => ∀ err, reply.err = some err → err.code ≠ Status.ok

namespace Request

/-- The result of a request that succeeds. -/
def result (le : AsVal → AsVal → Bool) (reply : AsyncReply) : Request → CommandResult
  | apply .. => .value (AsVal.toJsvalue le reply.value)
  | batchRead .. | batchWrite .. =>
    .batch (reply.results.map fun r => BatchCommand.batchResult (batchRecordToJs le r))
  | .exists .. => .value (.bool true)
  | existsWithMetadata key .. =>
    if key.truthy then .record (.new key .null (recordmetaToJsobject reply.record)) else .value (.bool true)
  | get key .. | operate key .. | select key .. =>
    .record (.new key (recordbinsToJsobject le reply.record.bins) (recordmetaToJsobject reply.record))
  | put key .. | remove key .. => .value key

/-- What becomes of an error of the C client: that there is no record is a result for two requests. -/
def failure (err : AsError) : Request → Except AerospikeError CommandResult
  | .exists .. => if err.code = Status.errRecordNotFound then .ok (.value (.bool false)) else .error (.native err)
  | existsWithMetadata key .. =>
    if err.code = Status.errRecordNotFound then
      .ok (if key.truthy then
        .record ⟨key, .null, .null, .null⟩ else .value (.bool false))
    else .error (.native err)
  | _ => .error (.native err)

/-- A batch of which some records failed is a result. -/
def partly (reply : AsyncReply) (err : AsError) : Request → Bool
  | batchRead .. | batchWrite .. => err.code = Status.batchFailed ∧ reply.results.length ≠ 0
  | _ => false

/-- What the user of a connected client is to be told. -/
def told (r : Request) (c : Converters) (answer : AsyncAnswer) : Except AerospikeError CommandResult :=
  match Stage.failed (r.issued.native.stages c r.issued.info), answer with
  | some s, _ => .error (.native (AsyncClass.paramError c s.error))
  | none, .refused err => r.failure err
  | none, .accepted _ reply =>
    match reply.err with
    | some err => if r.partly reply err then .ok (r.result c.le reply) else r.failure err
    | none => .ok (r.result c.le reply)

/-- `Tells promise told report`: the report hands the result or the error to the user. A callback that gets an
error also gets a second argument. -/
def Tells (promise : Bool) : Except AerospikeError CommandResult → Report → Prop
  | .ok result, report => report = if promise then .resolve result else .callback none (some result)
  | .error err, report => if promise then report = .reject err else ∃ result, report = .callback (some err) result

end Request

namespace Command
variable {cls : CommandClass} {callback : Bool} {call : NativeCall}

theorem answer_tells_ok {result : CommandResult} (h : convertResponse (plain cls callback) call = (none, result)) :
    Request.Tells (!callback) (.ok result) (answer (plain cls callback) call) := by
  cases callback <;> simp [answer, h, expectsPromise, Request.Tells, settlement, bound]

theorem answer_tells_error {err : AerospikeError} (h : (convertResponse (plain cls callback) call).1 = some err) :
    Request.Tells (!callback) (.error err) (answer (plain cls callback) call) := by
  obtain ⟨result, hr⟩ : ∃ result, convertResponse (plain cls callback) call = (some err, result) :=
    ⟨_, Prod.ext h rfl⟩
  cases callback with
  | true => exact ⟨some result, by simp [answer, hr, expectsPromise, bound]⟩
  | false =>
    show answer (plain cls false) call = .reject err
    simp [answer, hr, expectsPromise, settlement]

end Command

namespace Issued

/-- The first type check that fails. -/
def typeError (i : Issued) : Option String :=
  (i.native.typeChecks.find? fun check => !check.passes i.info).map (·.message)

/-- The native method calls back before it returns: a conversion fails, or the C client answers at once. -/
def CallsBackEarly (i : Issued) (c : Converters) (answer : AsyncAnswer) : Prop :=
  (∃ s, Stage.failed (i.native.stages c i.info) = some s) ∨ ∀ reply, answer ≠ .accepted false reply

/-- The exception that rejects a promise: a failed type check, or operations that cannot be parsed, if the native
method has not called back then. -/
def Rejects (i : Issued) (c : Converters) (answer : AsyncAnswer) (message : String) : Prop :=
  i.typeError = some message ∨ i.typeError = none ∧ i.native.raises c i.info = true ∧
    ¬ i.CallsBackEarly c answer ∧ message = "Error in parsing the operations"

/-- The callback is neither missing nor a function. -/
def BadCallback (i : Issued) : Prop := i.callback.truthy = true ∧ i.callback.isFunction = false

variable {i : Issued} {connected : Bool} {c : Converters} {answer : AsyncAnswer}

theorem execute_bad (h : i.BadCallback) : i.execute connected c answer = .throws := by
  simp [execute, h.1, h.2]

/-- A request that is not thrown out is executed, rejected or thrown by the native method. -/
theorem execute_good (h : ¬ i.BadCallback) : i.execute connected c answer =
    if connected then match i.typeError with
      | some message => if i.command.expectsPromise then .rejects message else .throws
      | none =>
        if i.native.raises c i.info then
          if !i.command.expectsPromise then .throwsAndExecuted (i.command.execute true (i.nativeMethod c answer))
          else if (i.native.run c i.info answer).sync.isEmpty then .rejects "Error in parsing the operations"
          else .executed (i.command.execute true (i.nativeMethod c answer))
        else .executed (i.command.execute true (i.nativeMethod c answer))
    else .executed { i.command.sendError .start with running := false }.drain := by
  have hcallback : (i.callback.truthy && !i.callback.isFunction) = false := by
    rw [BadCallback, not_and, Bool.not_eq_false] at h
    cases ht : i.callback.truthy with
    | false => rfl
    | true => simp [h ht]
  rw [execute, hcallback, if_neg Bool.false_ne_true]
  cases connected with
  | false => rfl
  | true =>
    simp only [Bool.not_true, Bool.false_eq_true, if_false, if_true, typeError, AsyncClass.method]
    cases i.native.typeChecks.find? fun check => !check.passes i.info with
    | some check => rfl
    | none =>
      simp only [Option.map_none, AsyncClass.run_raised]

theorem callsBackEarly_iff : i.CallsBackEarly c answer ↔ (i.native.run c i.info answer).sync.isEmpty = false := by
  unfold CallsBackEarly
  cases h : Stage.failed (i.native.stages c i.info) with
  | some s =>
    have hsync : (i.native.run c i.info answer).sync.isEmpty = false := by simp [AsyncClass.run, h]
    exact iff_of_true (.inl ⟨s, rfl⟩) hsync
  | none =>
    have hnone : ¬ ∃ s, (none : Option AsyncClass.AsyncStage) = some s := by
      rintro ⟨s, hs⟩
      cases hs
    rw [or_iff_right hnone]
    rcases answer with err | ⟨early | early, reply⟩
    · have hsync : (i.native.run c i.info (.refused err)).sync.isEmpty = false := by simp [AsyncClass.run, h]
      exact iff_of_true (by rintro reply ⟨⟩) hsync
    · have hsync : (i.native.run c i.info (.accepted false reply)).sync.isEmpty = true := by simp [AsyncClass.run, h]
      rw [hsync]
      exact iff_of_false (fun hr => hr reply rfl) (by decide)
    · have hsync : (i.native.run c i.info (.accepted true reply)).sync.isEmpty = false := by simp [AsyncClass.run, h]
      exact iff_of_true (by rintro reply ⟨⟩) hsync

/-- The user hears of the one call of the native method. -/
theorem reports_connected (i : Issued) (c : Converters) (answer : AsyncAnswer) :
    (i.command.execute true (i.nativeMethod c answer)).reports =
      [(false, i.command.answer (i.native.callMade c i.info answer))] := by
  rw [Command.execute_reports _ (by simp)]
  show ((i.native.run c i.info answer).sync ++ (i.native.run c i.info answer).later).map _ = _
  rw [AsyncClass.run_calls]
  rfl

theorem reports_notConnected (i : Issued) : ∃ report,
    ({ i.command.sendError .start with running := false }.drain).reports = [(false, report)] ∧
      Request.Tells (!i.callback.truthy) (.error .notConnected) report := by
  unfold command Command.sendError
  cases i.callback.truthy with
  | true => exact ⟨.callback (some .notConnected) none, rfl, none, rfl⟩
  | false => exact ⟨.reject .notConnected, rfl, rfl⟩

end Issued

namespace Request

variable {r : Request} {c : Converters} {answer : AsyncAnswer} {le : AsVal → AsVal → Bool}

theorem fromASError_native {err : AsError} (h : err.code ≠ Status.ok) :
    AerospikeError.fromASError (some err) = some (.native err) := by
  simp [AerospikeError.fromASError, h]

/-- An error of the native method, as each request passes it on. -/
theorem error_told (r : Request) {err : AsError} (h : err.code ≠ Status.ok) :
    Tells (!r.issued.callback.truthy) (r.failure err) (r.issued.command.answer (AsyncReply.errorCall err)) := by
  have hnative := fromASError_native h
  have hexists : ∀ (key : JsValue) (callback : Bool), err.code ≠ Status.errRecordNotFound →
      Tells (!callback) (.error (.native err))
        (Command.answer (.plain (.exists key) callback) (AsyncReply.errorCall err)) := by
    intro key callback hne
    refine Command.answer_tells_error ?_
    simp [Command.convertResponse, ExistsCommand.convertResponse, AsyncReply.errorCall, hnative, AerospikeError.code,
      hne]
  have hplain : ∀ (cls : CommandClass) (callback : Bool), (∀ key, cls ≠ .exists key) →
      Tells (!callback) (.error (.native err)) (Command.answer (.plain cls callback) (AsyncReply.errorCall err)) := by
    intro cls callback hcls
    refine Command.answer_tells_error ?_
    cases cls <;> first | exact hnative | exact absurd rfl (hcls _)
  have hmissing : ∀ (key : JsValue) (callback : Bool), err.code = Status.errRecordNotFound →
      Tells (!callback) (.ok (if key.truthy then .record ⟨key, .null, .null, .null⟩ else .value (.bool false)))
        (Command.answer (.plain (.exists key) callback) (AsyncReply.errorCall err)) := by
    intro key callback heq
    refine Command.answer_tells_ok ?_
    have hnull : ExistsCommand.convertResult key (.plain [(JsString.lit "ttl", .null), (JsString.lit "gen", .null)]) =
        .record ⟨key, .null, .null, .null⟩ := rfl
    cases hkey : key.truthy <;>
      simp [Command.convertResponse, ExistsCommand.convertResponse, AsyncReply.errorCall, hnative, AerospikeError.code,
        heq, hkey, hnull]
  cases r with
  | «exists» key policy callback =>
    rw [failure]
    split_ifs with h
    · exact hmissing .null _ h
    · exact hexists _ _ h
  | existsWithMetadata key policy callback =>
    rw [failure]
    by_cases h : err.code = Status.errRecordNotFound
    · rw [if_pos h]
      exact hmissing key _ h
    · rw [if_neg h]
      exact hexists _ _ h
  | _ => exact hplain _ _ (by rintro key ⟨⟩)

/-- An answer of the C client without an error. -/
theorem ok_told (r : Request) {reply : AsyncReply} (h : reply.err = none) :
    Tells (!r.issued.callback.truthy) (.ok (r.result le reply))
      (r.issued.command.answer (r.issued.native.listener le reply)) := by
  refine Command.answer_tells_ok ?_
  have hrecord : reply.asyncRecordListener le =
      ⟨none, recordbinsToJsobject le reply.record.bins, recordmetaToJsobject reply.record, .undefined⟩ := by
    rw [AsyncReply.asyncRecordListener, h]
  have hwrite : reply.asyncWriteListener le = ⟨none, .undefined, .undefined, .undefined⟩ := by
    rw [AsyncReply.asyncWriteListener, h]
  have hvalue : reply.asyncValueListener le = ⟨none, reply.value.toJsvalue le, .undefined, .undefined⟩ := by
    rw [AsyncReply.asyncValueListener, h]
  have hbatch : reply.batchListener le =
      ⟨none, .array (reply.results.map (batchRecordToJs le)), .undefined, .undefined⟩ := by
    rw [AsyncReply.batchListener, h]
    rfl
  have hresults : BatchCommand.convertResult (.array (reply.results.map (batchRecordToJs le))) =
      .batch (reply.results.map fun r => BatchCommand.batchResult (batchRecordToJs le r)) := by
    rw [BatchCommand.convertResult, List.map_map]
    rfl
  have hexists : ∀ (key : JsValue) (callback : Bool),
      Command.convertResponse (.plain (.exists key) callback) (reply.asyncRecordListener le) =
        (none, if key.truthy then .record (.new key .null (recordmetaToJsobject reply.record))
          else .value (.bool true)) := by
    intro key callback
    rw [hrecord]
    cases hkey : key.truthy <;>
      simp [Command.convertResponse, ExistsCommand.convertResponse, AerospikeError.fromASError, hkey,
        ExistsCommand.convertResult]
  cases r with
  | apply key udfArgs policy callback =>
    show Command.convertResponse (.plain .command _) (reply.asyncValueListener le) = _
    rw [hvalue]
    rfl
  | batchRead records policy callback =>
    show Command.convertResponse (.plain .batch _) (reply.batchListener le) = _
    rw [hbatch]
    exact congrArg (Prod.mk none) hresults
  | batchWrite records policy callback =>
    show Command.convertResponse (.plain .batch _) (reply.batchListener le) = _
    rw [hbatch]
    exact congrArg (Prod.mk none) hresults
  | «exists» key policy callback => exact hexists .null _
  | existsWithMetadata key policy callback => exact hexists key _
  | put key bins metadata policy callback =>
    show Command.convertResponse (.plain (.writeRecord key) _) (reply.asyncWriteListener le) = _
    rw [hwrite]
    rfl
  | remove key policy callback =>
    show Command.convertResponse (.plain (.writeRecord key) _) (reply.asyncWriteListener le) = _
    rw [hwrite]
    rfl
  | get key policy callback =>
    show Command.convertResponse (.plain (.readRecord key) _) (reply.asyncRecordListener le) = _
    rw [hrecord]
    rfl
  | operate key operations metadata policy callback =>
    show Command.convertResponse (.plain (.readRecord key) _) (reply.asyncRecordListener le) = _
    rw [hrecord]
    rfl
  | select key bins policy callback =>
    show Command.convertResponse (.plain (.readRecord key) _) (reply.asyncRecordListener le) = _
    rw [hrecord]
    rfl

theorem batchListener_error {reply : AsyncReply} {err : AsError} (h : reply.err = some err) :
    reply.batchListener le = if err.code = Status.batchFailed ∧ reply.results.length ≠ 0 then
      ⟨none, .array (reply.results.map (batchRecordToJs le)), .undefined, .undefined⟩
    else AsyncReply.errorCall err := by
  rw [AsyncReply.batchListener, h]
  unfold asyncBatchListener
  dsimp only
  split_ifs <;> rfl

/-- Some records of a batch failed. -/
theorem partly_told (r : Request) {reply : AsyncReply} {err : AsError} (h : reply.err = some err)
    (hpartly : r.partly reply err = true) :
    Tells (!r.issued.callback.truthy) (.ok (r.result le reply))
      (r.issued.command.answer (r.issued.native.listener le reply)) := by
  refine Command.answer_tells_ok ?_
  have hbatch : ∀ callback, (err.code = Status.batchFailed ∧ reply.results.length ≠ 0) →
      Command.convertResponse (.plain .batch callback) (reply.batchListener le) =
        (none, .batch (reply.results.map fun r => BatchCommand.batchResult (batchRecordToJs le r))) := by
    intro callback hcond
    rw [batchListener_error h, if_pos hcond]
    refine congrArg (Prod.mk none) ?_
    show BatchCommand.convertResult (.array _) = _
    rw [BatchCommand.convertResult, List.map_map]
    rfl
  cases r with
  | batchRead records policy callback => exact hbatch _ (of_decide_eq_true hpartly)
  | batchWrite records policy callback => exact hbatch _ (of_decide_eq_true hpartly)
  | _ => cases hpartly

theorem listener_error (r : Request) {reply : AsyncReply} {err : AsError} (h : reply.err = some err)
    (hpartly : r.partly reply err = false) : r.issued.native.listener le reply = AsyncReply.errorCall err := by
  cases r with
  | batchRead records policy callback => exact (batchListener_error h).trans (if_neg (of_decide_eq_false hpartly))
  | batchWrite records policy callback => exact (batchListener_error h).trans (if_neg (of_decide_eq_false hpartly))
  | apply key udfArgs policy callback =>
    show reply.asyncValueListener le = _
    rw [AsyncReply.asyncValueListener, h]
  | put key bins metadata policy callback =>
    show reply.asyncWriteListener le = _
    rw [AsyncReply.asyncWriteListener, h]
  | remove key policy callback =>
    show reply.asyncWriteListener le = _
    rw [AsyncReply.asyncWriteListener, h]
  | _ =>
    show reply.asyncRecordListener le = _
    rw [AsyncReply.asyncRecordListener, h]

theorem failure_paramError (r : Request) (c : Converters) (message : String) :
    r.failure (AsyncClass.paramError c message) = .error (.native (AsyncClass.paramError c message)) := by
  have hcode : Status.errParam ≠ Status.errRecordNotFound := by decide
  cases r with
  | «exists» => simp [failure, AsyncClass.paramError, hcode]
  | existsWithMetadata => simp [failure, AsyncClass.paramError, hcode]
  | _ => rfl

/-- The one call of the native method tells the user what the C client has answered. -/
theorem callMade_told (r : Request) (c : Converters) (h : answer.Proper) :
    Tells (!r.issued.callback.truthy) (r.told c answer)
      (r.issued.command.answer (r.issued.native.callMade c r.issued.info answer)) := by
  cases hf : Stage.failed (r.issued.native.stages c r.issued.info) with
  | some s =>
    simp only [told, AsyncClass.callMade, hf]
    rw [← r.failure_paramError]
    exact r.error_told (show Status.errParam ≠ Status.ok by decide)
  | none =>
    cases answer with
    | refused err =>
      simp only [told, AsyncClass.callMade, hf]
      exact r.error_told h
    | accepted early reply =>
      simp only [told, AsyncClass.callMade, hf]
      cases herr : reply.err with
      | none => exact r.ok_told herr
      | some err =>
        show Tells _ (if r.partly reply err then .ok (r.result c.le reply) else r.failure err) _
        cases hpartly : r.partly reply err with
        | true =>
          rw [if_pos rfl]
          exact r.partly_told herr hpartly
        | false =>
          rw [if_neg Bool.false_ne_true, r.listener_error herr hpartly]
          exact r.error_told (h err herr)

/-- A request tells its user once, after it has returned, what the C client has answered, or that the client is
not connected, unless it throws or rejects its promise instead: for a callback that is no function, and on a
connected client for an argument of the wrong type, or for a batch with invalid operations whose promise is not
settled then. Only such a batch throws and calls back even so. -/
theorem execute_tells (r : Request) (connected : Bool) (c : Converters) (h : answer.Proper) :
    (r.issued.execute connected c answer = .throws ↔ r.issued.BadCallback ∨
        connected = true ∧ r.issued.callback.truthy = true ∧ r.issued.typeError.isSome = true) ∧
      (∀ message, r.issued.execute connected c answer = .rejects message ↔
        connected = true ∧ r.issued.callback.truthy = false ∧ r.issued.Rejects c answer message) ∧
      (∀ x, r.issued.execute connected c answer = .executed x → ∃ report, x.reports = [(false, report)] ∧
        Tells (!r.issued.callback.truthy) (if connected then r.told c answer else .error .notConnected) report) ∧
      ∀ x, r.issued.execute connected c answer = .throwsAndExecuted x →
        r.issued.native.raises c r.issued.info = true ∧ connected = true ∧
          ∃ report, x.reports = [(false, report)] ∧ Tells false (r.told c answer) report := by
  have hpromise : r.issued.command.expectsPromise = !r.issued.callback.truthy := rfl
  by_cases hbad : r.issued.BadCallback
  · rw [Issued.execute_bad hbad]
    refine ⟨iff_of_true rfl (.inl hbad), fun message => iff_of_false nofun ?_, nofun, nofun⟩
    rintro ⟨-, hfalsy, -⟩
    rw [hbad.1] at hfalsy
    cases hfalsy
  rw [Issued.execute_good hbad]
  cases connected with
  | false =>
    refine ⟨iff_of_false nofun ?_, fun message => iff_of_false nofun ?_, ?_, nofun⟩
    · rintro (h | ⟨h, -⟩)
      · exact hbad h
      · cases h
    · rintro ⟨h, -⟩
      cases h
    · rintro x ⟨⟩
      exact r.issued.reports_notConnected
  | true =>
    have htells : ∃ report,
        (r.issued.command.execute true (r.issued.nativeMethod c answer)).reports = [(false, report)] ∧
        Tells (!r.issued.callback.truthy) (r.told c answer) report :=
      ⟨_, r.issued.reports_connected c answer, r.callMade_told c h⟩
    simp only [if_true, true_and, Issued.Rejects, hpromise]
    cases htype : r.issued.typeError with
    | some message => cases ht : r.issued.callback.truthy <;> simp [hbad]
    | none =>
      cases hraises : r.issued.native.raises c r.issued.info with
      | false =>
        refine ⟨iff_of_false nofun ?_, fun message => iff_of_false nofun ?_, ?_, nofun⟩
        · rintro (h | ⟨-, h⟩)
          · exact hbad h
          · cases h
        · rintro ⟨-, h | ⟨-, h, -⟩⟩
          · cases h
          · cases h
        · rintro x ⟨⟩
          exact htells
      | true =>
        cases ht : r.issued.callback.truthy with
        | false =>
          rw [ht] at htells
          rw [Issued.callsBackEarly_iff]
          cases hsync : (r.issued.native.run c r.issued.info answer).sync.isEmpty with
          | true => simpa [hbad] using fun message => eq_comm
          | false =>
            refine ⟨iff_of_false nofun ?_, fun message => iff_of_false nofun ?_, ?_, nofun⟩
            · rintro (h | ⟨h, -⟩)
              · exact hbad h
              · cases h
            · rintro ⟨-, h | ⟨-, -, h, -⟩⟩
              · cases h
              · exact h rfl
            · rintro x ⟨⟩
              exact htells
        | true =>
          rw [ht] at htells
          refine ⟨iff_of_false nofun ?_, fun message => iff_of_false nofun nofun, nofun, ?_⟩
          · rintro (h | ⟨-, h⟩)
            · exact hbad h
            · cases h
          · rintro x ⟨⟩
            exact ⟨rfl, htells⟩

/-- Conversions that succeed, of policies without a filter expression. -/
def converted : Converters where
  key _ := true
  record _ := true
  metadata _ := true
  operations _ := true
  udfargs _ := ⟨true, true, true, true⟩
  records _ := ⟨true, false, false⟩
  policy _ := ⟨false, true⟩
  transaction _ := true
  func _ := []
  file _ := []
  line _ := 0
  le _ _ := true

/-- An answer of the server that there is no record. -/
def missing : AsyncReply :=
  ⟨some ⟨Status.errRecordNotFound, [], [], [], 0, false⟩, ⟨0, 0, [], ⟨[], [], none, none⟩⟩, .nil, [], 0⟩

/-- `exists` of a missing record resolves its promise with `false`. -/
theorem exists_tells_missing : ∃ x, (Request.exists (.plain []) .undefined .undefined).issued.execute true converted
      (.accepted false missing) = .executed x ∧ x.reports = [(false, .resolve (.value (.bool false)))] := by
  have hproper : AsyncAnswer.Proper (.accepted false missing) := by
    rintro err ⟨⟩
    decide
  obtain ⟨report, hreports, rfl⟩ :=
    (execute_tells (.exists (.plain []) .undefined .undefined) true converted hproper).2.2.1 _ rfl
  exact ⟨_, rfl, hreports⟩

end Request

end AerospikeNode
