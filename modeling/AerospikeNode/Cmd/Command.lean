import AerospikeNode.Js.Val

/-!
# The command classes

`lib/commands/*.js`: what each class derived from `Command` makes of a call of its callback by the
native add-on. The add-on calls back with an error object (or nothing) and up to three more
arguments; `convertResponse` turns the call into an error or a result.
-/

namespace AerospikeNode

/-- An error object of the native add-on. -/
structure AsError where
  code : ℤ
  message : JsString
  func : JsString
  file : JsString
  line : ℤ
  inDoubt : Bool

/-- An error as the user sees it: one that the client raised itself, or one converted from an error
of the add-on, whose properties it copies. -/
inductive AerospikeError where
  | client (message : JsString)
  | native (asError : AsError)

namespace Status

def ok : ℤ := 0

def errClient : ℤ := -1

def errRecordNotFound : ℤ := 2

end Status

namespace AerospikeError

def code : AerospikeError → ℤ
  | client _ => Status.errClient
  | native e => e.code

/-- `AerospikeError.fromASError` -/
def fromASError : Option AsError → Option AerospikeError
  | none => none
  | some e => if e.code = Status.ok then none else some (.native e)

def notConnected : AerospikeError := .client (JsString.lit "Not connected.")

end AerospikeError

/-- `lib/record.js` -/
structure Record where
  key : JsValue
  bins : JsValue
  ttl : JsValue
  gen : JsValue

def Record.new (key bins metadata : JsValue) : Record :=
  ⟨key, bins, metadata.get (JsString.lit "ttl"), metadata.get (JsString.lit "gen")⟩

structure BatchResult where
  status : JsValue
  record : Record
  inDoubt : JsValue

/-- `lib/job.js` -/
structure Job where
  jobID : JsValue
  module : JsString

/-- What a command hands to the user. -/
inductive CommandResult where
  | value (v : JsValue)
  | null
  | record (r : Record)
  | batch (rs : List BatchResult)
  | job (j : Job)
  | state (s : JsValue)

/-- A call of a command's callback by the add-on. -/
structure NativeCall where
  err : Option AsError
  arg1 : JsValue
  arg2 : JsValue
  arg3 : JsValue

/-- The classes that `lib/commands/index.js` derives its commands from, with what an instance
keeps. A stream command reports to its stream; any other command to the user's callback if it was
given one, else to a promise. -/
inductive CommandClass where
  | command
  | batch
  | connect
  | exists (key : JsValue)
  | queryBackground (queryID filters : JsValue)
  | readRecord (key : JsValue)
  | writeRecord (key : JsValue)

inductive Command where
  | plain (cls : CommandClass) (callback : Bool)
  | stream

namespace BatchCommand

def batchResult (result : JsValue) : BatchResult where
  status := result.get (JsString.lit "status")
  record := .new (result.get (JsString.lit "key")) (result.get (JsString.lit "bins"))
    (result.get (JsString.lit "meta"))
  inDoubt := result.get (JsString.lit "inDoubt")

def convertResult : JsValue → CommandResult
  | .array results => .batch (results.map batchResult)
  | _ => .batch []

end BatchCommand

namespace QueryBackgroundBaseCommand

def notEmpty : JsValue → Bool
  | .array xs => !xs.isEmpty
  | _ => false

def moduleName (filters : JsValue) : JsString :=
  if notEmpty filters then JsString.lit "query" else JsString.lit "scan"

end QueryBackgroundBaseCommand

namespace StreamCommand

/-- `Key.fromASKey` -/
def fromASKey (asKey : JsValue) : JsValue :=
  if asKey.truthy then asKey else .null

def convertResult (bins metadata asKey : JsValue) : CommandResult :=
  if bins.truthy then .record (.new (fromASKey asKey) bins metadata) else .state metadata

end StreamCommand

namespace ExistsCommand

def convertResult (key metadata : JsValue) : CommandResult :=
  .record (.new key .null metadata)

/-- A missing record is a result here, not an error. -/
def convertResponse (key : JsValue) (call : NativeCall) : Option AerospikeError × CommandResult :=
  match AerospikeError.fromASError call.err with
  | some e =>
    if e.code = Status.errRecordNotFound then
      if key.truthy then
        (none, convertResult key
          (.plain [(JsString.lit "ttl", .null), (JsString.lit "gen", .null)]))
      else (none, .value (.bool false))
    else (some e, .null)
  | none =>
    if key.truthy then (none, convertResult key call.arg2) else (none, .value (.bool true))

end ExistsCommand

/-- `convertResult` of the classes that do not override `convertResponse`. -/
def CommandClass.convertResult (cls : CommandClass) (call : NativeCall) : CommandResult :=
  match cls with
  | .command | .connect => .value call.arg1
  | .batch => BatchCommand.convertResult call.arg1
  | .queryBackground queryID filters =>
    .job ⟨queryID, QueryBackgroundBaseCommand.moduleName filters⟩
  | .exists key => ExistsCommand.convertResult key call.arg1
  | .readRecord key => .record (.new key call.arg1 call.arg2)
  | .writeRecord key => .value key

namespace Command

def convertResult (c : Command) (call : NativeCall) : CommandResult :=
  match c with
  | plain cls _ => cls.convertResult call
  | stream => StreamCommand.convertResult call.arg1 call.arg2 call.arg3

def convertResponse (c : Command) (call : NativeCall) : Option AerospikeError × CommandResult :=
  match c with
  | plain (.exists key) _ => ExistsCommand.convertResponse key call
  | _ => (AerospikeError.fromASError call.err, c.convertResult call)

def ensureConnected : Command → Bool
  | plain .connect _ => false
  | _ => true

/-- The `callback` of a stream command is a method of its class. -/
def expectsPromise : Command → Bool
  | plain _ callback => !callback
  | stream => false

end Command

end AerospikeNode
