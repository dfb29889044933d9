import AerospikeNode.Batch.Results
import AerospikeNode.Cmd.Worker
import AerospikeNode.Lib.Stages

/-!
# Commands that the C client answers later

The methods of `src/main/commands` that convert their arguments, hand them to an asynchronous function
of the C client and return: `ApplyAsync`, `BatchReadAsync`, `BatchWriteAsync`, `ExistsAsync`, `GetAsync`,
`OperateAsync`, `PutAsync`, `RemoveAsync`, `SelectAsync`, `TransactionAbort` and `TransactionCommit`, with
the listeners of `src/main/async.cc` that finish them.

`run_settles`: a method throws if an argument has the wrong type; otherwise it calls back once, deletes its
command once and uses nothing after its release; what it has allocated is released once, unless the conversion
that fails is one that has allocated something no flag tells of, or a key without a value had its digest copied.
-/

namespace AerospikeNode

namespace Status

def errParam : ℤ := -2

end Status

inductive AsyncClass where
  | apply
  | batchRead
  | batchWrite
  | exists
  | get
  | operate
  | put
  | remove
  | select
  | transactionAbort
  | transactionCommit
deriving DecidableEq

/-- What a method allocates or initialises. -/
inductive AsyncObject where
  | cmd
  | key
  | record
  | operations
  | udfModule
  | udfFunction
  | udfArgs
  | bins
  | records
  /-- `policy.base.filter_exp` -/
  | filter
  /-- The copy that `extract_blob_from_jsobject` makes of a digest for `key_from_jsobject`. -/
  | digest
  /-- What `batch_records_free` does not release of the records. -/
  | recordParts
deriving DecidableEq

/-- A key without a value, of which `key_from_jsobject` copies the digest twice: nothing frees the first copy. -/
def digestOnly (key : JsValue) : Bool := (key.field "key").isNullish

/-- What `udfargs_from_jsobject` does: which of its three out-parameters it sets, and whether it returns
OK. -/
structure UdfConversion where
  module : Bool
  function : Bool
  args : Bool
  ok : Bool

/-- What `batch_records_from_jsarray` does: whether it returns OK, whether it has thrown a `TypeError` for
the operations of a record, after which it goes on, and whether it has allocated something for a record that
nothing releases. -/
structure RecordsConversion where
  ok : Bool
  raised : Bool
  leaks : Bool

/-- What converting each kind of argument does. A key that is rejected has allocated nothing, and
`batch_records_from_jsarray` releases what it has converted when it fails, as far as it can; `bins_from_jsarray`
does not fail. -/
structure Converters where
  key : JsValue → Bool
  record : JsValue → Bool
  metadata : JsValue → Bool
  operations : JsValue → Bool
  udfargs : JsValue → UdfConversion
  records : JsValue → RecordsConversion
  policy : JsValue → Conversion
  transaction : JsValue → Bool
  /-- `__func__`, `__FILE__` and `__LINE__` where `CmdErrorCallback` is called with a message. -/
  func : String → JsString
  file : String → JsString
  line : String → ℤ
  /-- The order in which a map of a result is iterated. -/
  le : AsVal → AsVal → Bool

/-- What the C client hands to a listener. -/
structure AsyncReply where
  err : Option AsError
  record : ResultRecord
  value : AsVal
  results : List BatchRead
  status : UInt32

/-- The C client refuses a command, or accepts it and calls the listener once, perhaps before the method
has returned. -/
inductive AsyncAnswer where
  | refused (err : AsError)
  | accepted (early : Bool) (reply : AsyncReply)

/-- `TYPE_CHECK_REQ` and `TYPE_CHECK_OPT` of `info[index]`. -/
structure TypeCheck where
  index : ℕ
  type : JsValue → Bool
  optional : Bool
  message : String

namespace JsValue

/-- `value->IsArray()` -/
def isArray : JsValue → Bool
  | array _ => true
  | _ => false

/-- `value->IsFunction()` -/
def isFunction : JsValue → Bool
  | func => true
  | _ => false

end JsValue

namespace TypeCheck

def req (index : ℕ) (type : JsValue → Bool) (message : String) : TypeCheck := ⟨index, type, false, message⟩

def opt (index : ℕ) (type : JsValue → Bool) (message : String) : TypeCheck := ⟨index, type, true, message⟩

def passes (info : List JsValue) (c : TypeCheck) : Bool :=
  let val := info.getD c.index .undefined
  c.type val || c.optional && val.isNullish

end TypeCheck

/-- What a call of a method has led to when the command is over. -/
structure AsyncRun where
  allocated : List AsyncObject
  log : List (Access AsyncObject)
  /-- The calls of the callback before the method returns, and after. -/
  sync : List NativeCall
  later : List NativeCall
  /-- An exception is pending when the method returns. -/
  raised : Bool

namespace AsyncClass

open Access AsyncObject

/-! ### The methods -/

def typeChecks : AsyncClass → List TypeCheck
  | apply =>
    [.req 0 JsValue.isObject "Key must be an object", .req 1 JsValue.isObject "UDF args must be an array",
      .opt 2 JsValue.isObject "Policy must be an object", .req 3 JsValue.isFunction "Callback must be a function"]
  | batchRead | batchWrite =>
    [.req 0 JsValue.isArray "Records must be an array of objects", .opt 1 JsValue.isObject "Policy must be an object",
      .req 2 JsValue.isFunction "Callback must be a function"]
  | .exists | get | remove =>
    [.req 0 JsValue.isObject "Key must be an object", .opt 1 JsValue.isObject "Policy must be an object",
      .req 2 JsValue.isFunction "Callback must be a function"]
  | operate =>
    [.req 0 JsValue.isObject "Key must be an object", .req 1 JsValue.isArray "Operations must be an array",
      .opt 2 JsValue.isObject "Metadata must be an object", .opt 3 JsValue.isObject "Policy must be an object",
      .req 4 JsValue.isFunction "Callback must be a function"]
  | put =>
    [.req 0 JsValue.isObject "Key must be an object", .req 1 JsValue.isObject "Record must be an object",
      .opt 2 JsValue.isObject "Metadata must be an object", .opt 3 JsValue.isObject "Policy must be an object",
      .req 4 JsValue.isFunction "Callback must be a function"]
  | select =>
    [.req 0 JsValue.isObject "Key must be an object", .req 1 JsValue.isArray "Bins must be a string array",
      .opt 2 JsValue.isObject "Policy must be an object", .req 3 JsValue.isFunction "Callback must be a function"]
  | transactionAbort | transactionCommit => [.req 1 JsValue.isFunction "Callback must be a function"]

/-- The conversions of a method, each with the message of its `CmdErrorCallback`. -/
abbrev AsyncStage := Stage AsyncObject String

namespace AsyncStage

def key (c : Converters) (v : JsValue) : AsyncStage :=
  ⟨c.key v, "Key object invalid", if c.key v then [.key] else [], false,
    if c.key v && digestOnly v then [.digest] else []⟩

/-- `recordbins_from_jsobject` initialises the record first, and `record_initalized` is set after it. -/
def record (c : Converters) (v : JsValue) : AsyncStage :=
  ⟨c.record v, "Record object invalid", [.record], false, []⟩

def metadata (c : Converters) (v : JsValue) : AsyncStage :=
  ⟨!v.isObject || c.metadata v, "Meta object invalid", [], false, []⟩

/-- `as_operations_init` comes before the conversion, and `operations_initalized` is set after it. -/
def operations (c : Converters) (v : JsValue) : AsyncStage :=
  ⟨c.operations v, "Operations array invalid", [.operations], false, []⟩

/-- The three pointers are tested in `Cleanup`. -/
def udfargs (c : Converters) (v : JsValue) : AsyncStage :=
  let u := c.udfargs v
  ⟨u.ok, "UDF args object invalid", (if u.module then [udfModule] else []) ++
    (if u.function then [udfFunction] else []) ++ (if u.args then [udfArgs] else []), true, []⟩

def bins : AsyncStage := ⟨true, "Bins array invalid", [.bins], true, []⟩

def records (c : Converters) (v : JsValue) : AsyncStage :=
  ⟨(c.records v).ok, "Records array invalid", if (c.records v).ok then [.records] else [], false,
    if (c.records v).leaks then [.recordParts] else []⟩

/-- `p_policy` is set after the conversion. -/
def policy (c : Converters) (v : JsValue) : AsyncStage :=
  if v.isObject then
    ⟨(c.policy v).ok, "Policy object invalid", if (c.policy v).filter then [filter] else [], false, []⟩
  else ⟨true, "Policy object invalid", [], false, []⟩

def transaction (c : Converters) (v : JsValue) : AsyncStage :=
  ⟨c.transaction v, "Transaction object invalid", [], false, []⟩

end AsyncStage

def stages (c : Converters) (info : List JsValue) (cls : AsyncClass) : List AsyncStage :=
  let info i := info.getD i .undefined
  match cls with
  | apply => [.key c (info 0), .udfargs c (info 1), .policy c (info 2)]
  | batchRead | batchWrite => [.records c (info 0), .policy c (info 1)]
  | .exists | get | remove => [.key c (info 0), .policy c (info 1)]
  | operate => [.key c (info 0), .operations c (info 1), .policy c (info 3)]
  | put => [.key c (info 0), .record c (info 1), .metadata c (info 2), .policy c (info 3)]
  | select => [.key c (info 0), .bins, .policy c (info 2)]
  | transactionAbort | transactionCommit => [.transaction c (info 0)]

/-- What is destroyed below `Cleanup`, after the command, if its flag or pointer is set. -/
def cleanup : AsyncClass → List AsyncObject
  | apply => [key, udfModule, udfFunction, udfArgs, filter]
  | batchRead | batchWrite => [filter]
  | .exists | get | remove => [key, filter]
  | operate => [key, operations, filter]
  | put => [key, record, filter]
  | select => [key, filter, bins]
  | transactionAbort | transactionCommit => []

/-- What the listener owns besides the command. -/
def handedOver : AsyncClass → List AsyncObject
  | batchRead | batchWrite => [records]
  | _ => []

/-- A conversion has thrown an exception without failing. -/
def raises (c : Converters) (info : List JsValue) : AsyncClass → Bool
  | batchRead | batchWrite => (c.records (info.getD 0 .undefined)).raised
  | _ => false

def releaseHeld (objects held : List AsyncObject) : List (Access AsyncObject) :=
  (objects.filter (· ∈ held)).map release

end AsyncClass

/-! ### The listeners -/

namespace AsyncReply

def errorCall (err : AsError) : NativeCall := ⟨some err, .undefined, .undefined, .undefined⟩

/-- The arguments of the callback in `async_record_listener`. -/
def asyncRecordListener (le : AsVal → AsVal → Bool) (r : AsyncReply) : NativeCall :=
  match r.err with
  | some err => errorCall err
  | none => ⟨none, recordbinsToJsobject le r.record.bins, recordmetaToJsobject r.record, .undefined⟩

/-- `async_write_listener` -/
def asyncWriteListener (_ : AsVal → AsVal → Bool) (r : AsyncReply) : NativeCall :=
  match r.err with
  | some err => errorCall err
  | none => ⟨none, .undefined, .undefined, .undefined⟩

/-- `async_value_listener` -/
def asyncValueListener (le : AsVal → AsVal → Bool) (r : AsyncReply) : NativeCall :=
  match r.err with
  | some err => errorCall err
  | none => ⟨none, AsVal.toJsvalue le r.value, .undefined, .undefined⟩

/-- `as_error_init` -/
def noError : AsError := ⟨Status.ok, [], [], [], 0, false⟩

/-- The call that `async_batch_listener` makes. -/
def batchListener (le : AsVal → AsVal → Bool) (r : AsyncReply) : NativeCall :=
  (asyncBatchListener le ⟨none, noError, [.records], []⟩ r.err r.results).1

/-- `async_mrt_listener` -/
def asyncMrtListener (_ : AsVal → AsVal → Bool) (r : AsyncReply) : NativeCall :=
  match r.err with
  | some err => errorCall err
  | none => ⟨none, .num (.ofUInt32 r.status), .undefined, .undefined⟩

end AsyncReply

namespace AsyncClass

open Access AsyncObject

def listener : AsyncClass → (AsVal → AsVal → Bool) → AsyncReply → NativeCall
  | apply => AsyncReply.asyncValueListener
  | batchRead | batchWrite => AsyncReply.batchListener
  | .exists | get | operate | select => AsyncReply.asyncRecordListener
  | put | remove => AsyncReply.asyncWriteListener
  | transactionAbort | transactionCommit => AsyncReply.asyncMrtListener

/-- `CmdErrorCallback` with `AEROSPIKE_ERR_PARAM`. -/
def paramError (c : Converters) (message : String) : AsError where
  code := Status.errParam
  message := JsString.lit message
  func := c.func message
  file := c.file message
  line := c.line message
  inDoubt := false

/-- What a listener does with what it owns: it uses it for the call, and releases it. -/
def listenerLog (cls : AsyncClass) : List (Access AsyncObject) :=
  use cmd :: cls.handedOver.map use ++ cls.handedOver.map release ++ [release cmd]

/-- A method that has passed its type checks. -/
def run (cls : AsyncClass) (c : Converters) (info : List JsValue) (answer : AsyncAnswer) : AsyncRun :=
  let stages := cls.stages c info
  let held := Stage.heldBy stages
  let destroy := releaseHeld cls.cleanup held
  let giveUp := releaseHeld cls.handedOver held
  let send := use cmd :: held.map use
  let allocated := cmd :: Stage.acquiredBy stages ++ Stage.leakedBy stages
  let raised := cls.raises c info
  match Stage.failed stages, answer with
  | some s, _ =>
    ⟨allocated, use cmd :: giveUp ++ release cmd :: destroy, [AsyncReply.errorCall (paramError c s.error)], [],
      raised⟩
  | none, .refused err =>
    ⟨allocated, send ++ giveUp ++ use cmd :: release cmd :: destroy, [AsyncReply.errorCall err], [], raised⟩
  | none, .accepted true reply =>
    ⟨allocated, send ++ cls.listenerLog ++ destroy, [cls.listener c.le reply], [], raised⟩
  | none, .accepted false reply =>
    ⟨allocated, send ++ destroy ++ cls.listenerLog, [], [cls.listener c.le reply], raised⟩

/-- What the callback is called with. -/
def callMade (cls : AsyncClass) (c : Converters) (info : List JsValue) (answer : AsyncAnswer) : NativeCall :=
  match Stage.failed (cls.stages c info), answer with
  | some s, _ => AsyncReply.errorCall (paramError c s.error)
  | none, .refused err => AsyncReply.errorCall err
  | none, .accepted _ reply => cls.listener c.le reply

/-- The callback is called once. -/
theorem run_calls (cls : AsyncClass) (c : Converters) (info : List JsValue) (answer : AsyncAnswer) :
    (cls.run c info answer).sync ++ (cls.run c info answer).later = [cls.callMade c info answer] := by
  cases h : Stage.failed (cls.stages c info) with
  | some s => simp [run, callMade, h]
  | none => rcases answer with err | ⟨early | early, reply⟩ <;> simp [run, callMade, h]

theorem run_raised (cls : AsyncClass) (c : Converters) (info : List JsValue) (answer : AsyncAnswer) :
    (cls.run c info answer).raised = cls.raises c info := by
  cases h : Stage.failed (cls.stages c info) with
  | some s => simp [run, h]
  | none => rcases answer with err | ⟨early | early, reply⟩ <;> simp [run, h]

/-- The method: `ThrowTypeError`, before anything is allocated, or a run. -/
def method (cls : AsyncClass) (c : Converters) (info : List JsValue) (answer : AsyncAnswer) :
    Except String AsyncRun :=
  match cls.typeChecks.find? fun check => !check.passes info with
  | some check => .error check.message
  | none => .ok (cls.run c info answer)

/-! ### What a run releases -/

section Releases
variable {cls : AsyncClass} {c : Converters} {info : List JsValue} {answer : AsyncAnswer}

/-- What a method can allocate besides its command, in the order of its stages. -/
def objects : AsyncClass → List AsyncObject
  | apply => [key, udfModule, udfFunction, udfArgs, filter]
  | batchRead | batchWrite => [records, filter]
  | .exists | get | remove => [key, filter]
  | operate => [key, operations, filter]
  | put => [key, record, filter]
  | select => [key, bins, filter]
  | transactionAbort | transactionCommit => []

theorem objects_perm (cls : AsyncClass) : cls.objects.Perm (cls.handedOver ++ cls.cleanup) := by
  cases cls <;> decide

theorem objects_nodup (cls : AsyncClass) : (cmd :: cls.objects).Nodup := by
  cases cls <;> decide

theorem ite_sublist {α : Type*} (b : Bool) (l : List α) : (if b then l else []).Sublist l := by
  cases b <;> simp

theorem policy_sublist (c : Converters) (v : JsValue) : (AsyncStage.policy c v).acquired.Sublist [filter] := by
  unfold AsyncStage.policy
  split
  · exact ite_sublist ..
  · exact List.nil_sublist _

theorem stages_sublist (cls : AsyncClass) (c : Converters) (info : List JsValue) :
    ((cls.stages c info).flatMap Stage.acquired).Sublist cls.objects := by
  have hkey : ∀ v, (AsyncStage.key c v).acquired.Sublist [.key] := fun v => ite_sublist ..
  have hrecords : ∀ v, (AsyncStage.records c v).acquired.Sublist [.records] := fun v => ite_sublist ..
  have hudf : ∀ v, (AsyncStage.udfargs c v).acquired.Sublist [udfModule, udfFunction, udfArgs] := fun v =>
    ((ite_sublist ..).append (ite_sublist ..)).append (ite_sublist ..)
  have hpolicy : ∀ v, ([AsyncStage.policy c v].flatMap Stage.acquired).Sublist [filter] := fun v =>
    (policy_sublist c v).append (List.Sublist.refl [])
  cases cls with
  | apply => exact (hkey _).append ((hudf _).append (hpolicy _))
  | batchRead => exact (hrecords _).append (hpolicy _)
  | batchWrite => exact (hrecords _).append (hpolicy _)
  | «exists» => exact (hkey _).append (hpolicy _)
  | get => exact (hkey _).append (hpolicy _)
  | remove => exact (hkey _).append (hpolicy _)
  | operate => exact (hkey _).append ((hpolicy _).cons_cons AsyncObject.operations)
  | put => exact (hkey _).append ((hpolicy _).cons_cons AsyncObject.record)
  | select => exact (hkey _).append ((hpolicy _).cons_cons AsyncObject.bins)
  | transactionAbort => exact List.Sublist.refl []
  | transactionCommit => exact List.Sublist.refl []

theorem acquired_sublist (cls : AsyncClass) (c : Converters) (info : List JsValue) :
    (Stage.acquiredBy (cls.stages c info)).Sublist cls.objects :=
  (Stage.acquiredBy_sublist _).trans (stages_sublist cls c info)

theorem held_sublist (cls : AsyncClass) (c : Converters) (info : List JsValue) :
    (Stage.heldBy (cls.stages c info)).Sublist cls.objects :=
  (Stage.heldBy_sublist _).trans (acquired_sublist cls c info)

/-- A batch that is sent has its records. -/
theorem handedOver_subset (h : Stage.failed (cls.stages c info) = none) :
    ∀ o ∈ cls.handedOver, o ∈ Stage.heldBy (cls.stages c info) := by
  have hall := Stage.failed_eq_none.mp h
  have hbatch : ∀ (v : JsValue) (s : AsyncStage), (c.records v).ok = true →
      records ∈ Stage.heldBy [AsyncStage.records c v, s] := by
    intro v s hok
    have hmem : records ∈ (AsyncStage.records c v).held := by simp [Stage.held, AsyncStage.records, hok]
    exact List.mem_flatMap.mpr ⟨_, .head _, hmem⟩
  intro o ho
  cases cls with
  | batchRead =>
    obtain rfl := List.mem_singleton.mp ho
    exact hbatch _ _ (hall (AsyncStage.records c _) (.head _))
  | batchWrite =>
    obtain rfl := List.mem_singleton.mp ho
    exact hbatch _ _ (hall (AsyncStage.records c _) (.head _))
  | _ => cases ho

theorem releases_releaseHeld (objects held : List AsyncObject) (o : AsyncObject) :
    releases (releaseHeld objects held) o = if o ∈ held then objects.count o else 0 := by
  rw [releaseHeld, releases_map_release]
  split_ifs with h
  · exact List.count_filter (by simpa using h)
  · exact List.count_eq_zero.mpr fun hmem => h (by simpa using (List.mem_filter.mp hmem).2)

/-- Together, the listener's objects and those below `Cleanup` are each held object once. -/
theorem count_held (cls : AsyncClass) (c : Converters) (info : List JsValue) (o : AsyncObject) :
    (let held := Stage.heldBy (cls.stages c info)
     (if o ∈ held then cls.handedOver.count o else 0) + if o ∈ held then cls.cleanup.count o else 0) =
      (Stage.heldBy (cls.stages c info)).count o := by
  have hsub := held_sublist cls c info
  have hnodup := (List.nodup_cons.mp cls.objects_nodup).2
  show (_ : ℕ) + _ = _
  split_ifs with h
  · rw [← List.count_append, ← cls.objects_perm.count_eq, List.count_eq_one_of_mem hnodup (hsub.subset h),
      List.count_eq_one_of_mem (hnodup.sublist hsub) h]
  · rw [List.count_eq_zero.mpr h]

theorem releases_run (o : AsyncObject) :
    releases (cls.run c info answer).log o = (cmd :: Stage.heldBy (cls.stages c info)).count o := by
  have hcount := count_held cls c info o
  have hcmd : releases [release cmd] o = if cmd = o then 1 else 0 := by
    simp [releases, List.count_cons]
  have hlog : releases cls.listenerLog o = cls.handedOver.count o + if cmd = o then 1 else 0 := by
    simp [listenerLog, hcmd]
  have hcons : ∀ l : List (Access AsyncObject),
      releases (release cmd :: l) o = (if cmd = o then 1 else 0) + releases l o := fun l => by
    rw [← hcmd, ← releases_append, List.singleton_append]
  have hlisten : Stage.failed (cls.stages c info) = none → ∀ o : AsyncObject,
      cls.handedOver.count o = if o ∈ Stage.heldBy (cls.stages c info) then cls.handedOver.count o else 0 := by
    intro h o
    split_ifs with hmem
    · rfl
    · exact List.count_eq_zero.mpr fun ho => hmem (handedOver_subset h o ho)
  simp only [List.count_cons, beq_iff_eq, ← hcount]
  cases h : Stage.failed (cls.stages c info) with
  | some s =>
    simp only [run, h, releases_cons_use, List.cons_append, releases_append, hcons, releases_releaseHeld]
    omega
  | none =>
    rw [hlisten h] at hlog
    rcases answer with err | ⟨early | early, reply⟩
    · simp only [run, h, List.cons_append, releases_cons_use, releases_append, hcons, releases_map_use,
        releases_releaseHeld]
      omega
    · simp only [run, h, List.cons_append, releases_cons_use, releases_append, releases_map_use, hlog,
        releases_releaseHeld]
      omega
    · simp only [run, h, List.cons_append, releases_cons_use, releases_append, releases_map_use, hlog,
        releases_releaseHeld]
      omega

/-! ### The order of uses and releases -/

theorem not_release_uses {o : AsyncObject} {l : List AsyncObject} : release o ∉ use cmd :: l.map use := by
  simp

theorem mem_releaseHeld {o : AsyncObject} {objects held : List AsyncObject} (h : release o ∈ releaseHeld objects held) :
    o ∈ objects := by
  simp only [releaseHeld, List.mem_map, List.mem_filter, Access.release.injEq, exists_eq_right] at h
  exact h.1

theorem use_notMem_releaseHeld {o : AsyncObject} {objects held : List AsyncObject} :
    use o ∉ releaseHeld objects held := by
  simp [releaseHeld]

theorem notMem_cleanup {o : AsyncObject} (h : o ∈ cls.cleanup) : o ≠ cmd ∧ o ∉ cls.handedOver := by
  have hnodup := cls.objects_nodup
  rw [(cls.objects_perm.cons cmd).nodup_iff, List.nodup_cons, List.mem_append, List.nodup_append] at hnodup
  refine ⟨fun heq => hnodup.1 (.inr (heq ▸ h)), fun hmem => ?_⟩
  exact hnodup.2.2.2 o hmem o h rfl

theorem cmd_notMem_handedOver : cmd ∉ cls.handedOver := by
  have hnodup := cls.objects_nodup
  rw [(cls.objects_perm.cons cmd).nodup_iff, List.nodup_cons, List.mem_append] at hnodup
  exact fun h => hnodup.1 (.inl h)

theorem listenerLog_ordered (cls : AsyncClass) : NoUseAfterRelease cls.listenerLog := by
  have huses : NoUseAfterRelease (use cmd :: cls.handedOver.map use) := .uses (cmd :: cls.handedOver)
  have hreleases : NoUseAfterRelease (cls.handedOver.map release ++ [release cmd]) := by
    have := NoUseAfterRelease.releases (cls.handedOver ++ [cmd])
    simpa using this
  rw [listenerLog, List.append_assoc]
  exact huses.append hreleases fun r h => absurd h not_release_uses

theorem releaseHeld_ordered (objects held : List AsyncObject) : NoUseAfterRelease (releaseHeld objects held) :=
  .releases _

/-- Nothing is used after its release. -/
theorem run_ordered : NoUseAfterRelease (cls.run c info answer).log := by
  have hsend : ∀ {l : List (Access AsyncObject)}, NoUseAfterRelease l →
      NoUseAfterRelease (use cmd :: (Stage.heldBy (cls.stages c info)).map use ++ l) := fun hl =>
    NoUseAfterRelease.append (.uses (cmd :: _)) hl fun r h => absurd h not_release_uses
  have hend : NoUseAfterRelease (release cmd :: releaseHeld cls.cleanup (Stage.heldBy (cls.stages c info))) :=
    .releases (cmd :: _)
  have hcall : ∀ {l : List (Access AsyncObject)}, NoUseAfterRelease l → NoUseAfterRelease (use cmd :: l) := fun hl =>
    NoUseAfterRelease.append (.uses [cmd]) hl fun r h => absurd h (not_release_uses (l := []))
  have hgive : ∀ {l : List (Access AsyncObject)}, NoUseAfterRelease l → (∀ o, use o ∈ l → o = cmd) →
      NoUseAfterRelease (releaseHeld cls.handedOver (Stage.heldBy (cls.stages c info)) ++ l) := fun hl huse =>
    (releaseHeld_ordered _ _).append hl fun r hr hu => cmd_notMem_handedOver (huse r hu ▸ mem_releaseHeld hr)
  have hdestroy : ∀ o, use o ∉ release cmd :: releaseHeld cls.cleanup (Stage.heldBy (cls.stages c info)) := by
    intro o h
    rcases List.mem_cons.mp h with h | h
    · cases h
    · exact use_notMem_releaseHeld h
  cases h : Stage.failed (cls.stages c info) with
  | some s =>
    simp only [run, h, List.cons_append]
    exact hcall (hgive hend fun o ho => absurd ho (hdestroy o))
  | none =>
    rcases answer with err | ⟨early | early, reply⟩
    · simp only [run, h, List.append_assoc]
      refine hsend (hgive (hcall hend) fun o ho => ?_)
      rcases List.mem_cons.mp ho with ho | ho
      · exact Access.use.inj ho
      · exact absurd ho (hdestroy o)
    · simp only [run, h, List.append_assoc]
      refine hsend ((releaseHeld_ordered _ _).append cls.listenerLog_ordered fun r hr hu => ?_)
      obtain ⟨hne, hnot⟩ := notMem_cleanup (mem_releaseHeld hr)
      simp only [listenerLog, List.mem_append, List.mem_cons, List.mem_map, Access.use.injEq, exists_eq_right,
        reduceCtorEq, and_false, exists_false, or_false, List.not_mem_nil] at hu
      exact hu.elim hne hnot
    · simp only [run, h, List.append_assoc]
      exact hsend (cls.listenerLog_ordered.append (releaseHeld_ordered _ _) fun r _ => use_notMem_releaseHeld)

/-! ### What a run forgets -/

/-- The policy has a filter expression, and a property read after it is invalid. -/
def PolicyLoses (c : Converters) (v : JsValue) : Prop :=
  v.isObject = true ∧ (c.policy v).filter = true ∧ (c.policy v).ok = false

/-- The conversion that fails has allocated something that no flag tells of. -/
def Loses (c : Converters) (info : List JsValue) (cls : AsyncClass) : Prop :=
  let info i := info.getD i .undefined
  match cls with
  | apply => c.key (info 0) = true ∧ (c.udfargs (info 1)).ok = true ∧ PolicyLoses c (info 2)
  | batchRead | batchWrite => (c.records (info 0)).ok = true ∧ PolicyLoses c (info 1)
  | .exists | get | remove => c.key (info 0) = true ∧ PolicyLoses c (info 1)
  | operate => c.key (info 0) = true ∧ (c.operations (info 1) = false ∨ PolicyLoses c (info 3))
  | put => c.key (info 0) = true ∧ (c.record (info 1) = false ∨
      ((info 2).isObject = true → c.metadata (info 2) = true) ∧ PolicyLoses c (info 3))
  | select => c.key (info 0) = true ∧ PolicyLoses c (info 2)
  | transactionAbort | transactionCommit => False

/-- The stages of a list, the one that fails included, up to one that loses something. -/
def LosesIn : List AsyncStage → Prop
  | [] => False
  | s :: stages => s.lost ≠ [] ∨ s.ok = true ∧ LosesIn stages

theorem losesIn_iff (stages : List AsyncStage) :
    LosesIn stages ↔ ∃ s, Stage.failed stages = some s ∧ s.lost ≠ [] := by
  induction stages with
  | nil => simp [LosesIn, Stage.failed]
  | cons s stages ih =>
    cases h : s.ok with
    | true => simp [LosesIn, ih, h, Stage.failed_cons_ok h, Stage.lost_of_ok h]
    | false => simp [LosesIn, h, Stage.failed_cons_fail h]

theorem policy_lost (c : Converters) (v : JsValue) : (AsyncStage.policy c v).lost ≠ [] ↔ PolicyLoses c v := by
  unfold AsyncStage.policy PolicyLoses Stage.lost
  cases v.isObject <;> cases (c.policy v).ok <;> cases (c.policy v).filter <;> simp

theorem key_lost (c : Converters) (v : JsValue) : (AsyncStage.key c v).lost = [] := by
  unfold AsyncStage.key Stage.lost
  cases c.key v <;> simp

theorem losesIn_stages (cls : AsyncClass) (c : Converters) (info : List JsValue) :
    LosesIn (cls.stages c info) ↔ cls.Loses c info := by
  have hpolicy : ∀ v, LosesIn [AsyncStage.policy c v] ↔ PolicyLoses c v := fun v => by
    simp [LosesIn, policy_lost]
  have hkey : ∀ v stages, LosesIn (AsyncStage.key c v :: stages) ↔ c.key v = true ∧ LosesIn stages := fun v stages => by
    simp only [LosesIn, key_lost, ne_eq, not_true_eq_false, false_or]
    rfl
  have hrecords : ∀ v stages, LosesIn (AsyncStage.records c v :: stages) ↔ (c.records v).ok = true ∧ LosesIn stages :=
    fun v stages => by
      rw [LosesIn, AsyncStage.records, Stage.lost]
      cases (c.records v).ok <;> simp
  have hmetadata : ∀ v stages, LosesIn (AsyncStage.metadata c v :: stages) ↔
      (v.isObject = true → c.metadata v = true) ∧ LosesIn stages := fun v stages => by
    rw [LosesIn, AsyncStage.metadata, Stage.lost]
    cases v.isObject <;> simp
  cases cls with
  | apply =>
    rw [stages, hkey]
    refine and_congr_right fun _ => ?_
    rw [LosesIn, hpolicy, Stage.lost, show (AsyncStage.udfargs c _).tracked = true from rfl, Bool.or_true, if_pos rfl]
    simp [AsyncStage.udfargs]
  | batchRead => rw [stages, hrecords, hpolicy, Loses]
  | batchWrite => rw [stages, hrecords, hpolicy, Loses]
  | «exists» => rw [stages, hkey, hpolicy, Loses]
  | get => rw [stages, hkey, hpolicy, Loses]
  | remove => rw [stages, hkey, hpolicy, Loses]
  | operate =>
    rw [stages, hkey, LosesIn, hpolicy]
    refine and_congr_right fun _ => ?_
    unfold AsyncStage.operations Stage.lost
    cases c.operations (info.getD 1 .undefined) <;> simp
  | put =>
    rw [stages, hkey, LosesIn, hmetadata, hpolicy]
    refine and_congr_right fun _ => ?_
    unfold AsyncStage.record Stage.lost
    cases c.record (info.getD 1 .undefined) <;> simp
  | select =>
    rw [stages, hkey, LosesIn, hpolicy]
    simp [AsyncStage.bins, Stage.lost, Loses]
  | transactionAbort => simp [stages, LosesIn, AsyncStage.transaction, Stage.lost, Loses]
  | transactionCommit => simp [stages, LosesIn, AsyncStage.transaction, Stage.lost, Loses]

/-- What is leaked though every conversion succeeds: the copy of a digest, or what the records of a batch leak. -/
def Leaks (c : Converters) (info : List JsValue) (cls : AsyncClass) : Prop :=
  let info i := info.getD i .undefined
  match cls with
  | apply | .exists | get | remove | operate | put | select => c.key (info 0) = true ∧ digestOnly (info 0) = true
  | batchRead | batchWrite => (c.records (info 0)).leaks = true
  | transactionAbort | transactionCommit => False

theorem policy_leaked (c : Converters) (v : JsValue) : (AsyncStage.policy c v).leaked = [] := by
  unfold AsyncStage.policy
  split <;> rfl

/-- Only the first stage of a method leaks something. -/
theorem leakedBy_stages (cls : AsyncClass) (c : Converters) (info : List JsValue) :
    Stage.leakedBy (cls.stages c info) = match cls with
      | apply | .exists | get | remove | operate | put | select => (AsyncStage.key c (info.getD 0 .undefined)).leaked
      | batchRead | batchWrite => (AsyncStage.records c (info.getD 0 .undefined)).leaked
      | transactionAbort | transactionCommit => [] := by
  have hpolicy := policy_leaked c
  cases cls with
  | transactionAbort | transactionCommit => exact Stage.leakedBy_cons fun t ht => absurd ht List.not_mem_nil
  | put =>
    refine Stage.leakedBy_cons ?_
    rw [List.forall_mem_cons, List.forall_mem_cons, List.forall_mem_singleton]
    exact ⟨rfl, rfl, hpolicy _⟩
  | apply | operate | select =>
    refine Stage.leakedBy_cons ?_
    rw [List.forall_mem_cons, List.forall_mem_singleton]
    exact ⟨rfl, hpolicy _⟩
  | _ =>
    refine Stage.leakedBy_cons ?_
    rw [List.forall_mem_singleton]
    exact hpolicy _

theorem leakedBy_eq_nil_iff (cls : AsyncClass) (c : Converters) (info : List JsValue) :
    Stage.leakedBy (cls.stages c info) = [] ↔ ¬ cls.Leaks c info := by
  have hkey : ∀ v, (AsyncStage.key c v).leaked = [] ↔ ¬ (c.key v = true ∧ digestOnly v = true) := by
    intro v
    unfold AsyncStage.key
    cases c.key v <;> cases digestOnly v <;> simp
  have hrecords : ∀ v, (AsyncStage.records c v).leaked = [] ↔ ¬ (c.records v).leaks = true := by
    intro v
    unfold AsyncStage.records
    cases (c.records v).leaks <;> simp
  rw [leakedBy_stages]
  cases cls with
  | batchRead | batchWrite => exact hrecords _
  | transactionAbort | transactionCommit => exact iff_of_true rfl id
  | _ => exact hkey _

/-- What is leaked is one object that is not among those that a method tracks. -/
theorem leakedBy_sublist (cls : AsyncClass) (c : Converters) (info : List JsValue) :
    (Stage.leakedBy (cls.stages c info)).Sublist [digest, recordParts] := by
  have hkey : ∀ v, (AsyncStage.key c v).leaked.Sublist [digest, recordParts] := fun v =>
    (ite_sublist _ [digest]).trans (List.sublist_append_left [digest] [recordParts])
  have hrecords : ∀ v, (AsyncStage.records c v).leaked.Sublist [digest, recordParts] := fun v =>
    (ite_sublist _ [recordParts]).trans (List.sublist_append_right [digest] [recordParts])
  rw [leakedBy_stages]
  cases cls with
  | batchRead | batchWrite => exact hrecords _
  | transactionAbort | transactionCommit => exact List.nil_sublist _
  | _ => exact hkey _

theorem tracked_nodup (cls : AsyncClass) : (cmd :: cls.objects ++ [digest, recordParts]).Nodup := by
  cases cls <;> decide

theorem method_ok {r : AsyncRun} (h : cls.method c info answer = .ok r) : r = cls.run c info answer := by
  unfold method at h
  split at h
  · cases h
  · exact (Except.ok.inj h).symm

theorem method_throws_iff : (∃ message, cls.method c info answer = .error message) ↔
    ∃ check ∈ cls.typeChecks, check.passes info = false := by
  unfold method
  cases hfind : cls.typeChecks.find? fun check => !check.passes info with
  | none =>
    rw [List.find?_eq_none] at hfind
    refine iff_of_false ?_ ?_
    · rintro ⟨message, h⟩
      cases h
    · rintro ⟨check, hmem, hfails⟩
      exact hfind check hmem (by rw [hfails]; rfl)
  | some check =>
    have hfails := List.find?_some hfind
    rw [Bool.not_eq_true'] at hfails
    exact iff_of_true ⟨_, rfl⟩ ⟨check, List.mem_of_find?_eq_some hfind, hfails⟩

/-- A method throws a `TypeError` exactly if a type check fails. Otherwise it calls back once, deletes its command
once, uses nothing after its release and releases nothing twice; all that it has allocated is released exactly if
the conversion that fails, if one does, has not allocated something that no flag tells of, and the first one has
leaked nothing. -/
theorem run_settles (cls : AsyncClass) (c : Converters) (info : List JsValue) (answer : AsyncAnswer) :
    ((∃ message, cls.method c info answer = .error message) ↔ ∃ check ∈ cls.typeChecks, check.passes info = false) ∧
    ∀ r, cls.method c info answer = .ok r →
      (r.sync ++ r.later).length = 1 ∧ releases r.log cmd = 1 ∧ NoUseAfterRelease r.log ∧
        (∀ o, releases r.log o ≤ 1) ∧ (∀ o, o ∉ r.allocated → releases r.log o = 0) ∧
        ((∀ o ∈ r.allocated, releases r.log o = 1) ↔ ¬ (cls.Leaks c info ∨ cls.Loses c info)) := by
  refine ⟨method_throws_iff, fun r hr => ?_⟩
  obtain rfl := method_ok hr
  have hallocated : (cls.run c info answer).allocated =
      cmd :: Stage.acquiredBy (cls.stages c info) ++ Stage.leakedBy (cls.stages c info) := by
    cases h : Stage.failed (cls.stages c info) with
    | some s => simp only [run, h]
    | none => rcases answer with err | ⟨early | early, reply⟩ <;> simp only [run, h]
  have hsub := ((acquired_sublist cls c info).cons_cons cmd).append (leakedBy_sublist cls c info)
  have hnodup := cls.tracked_nodup.sublist hsub
  have hheld := ((Stage.heldBy_sublist (cls.stages c info)).cons_cons cmd)
  have hheldAll := hheld.trans (List.sublist_append_left _ (Stage.leakedBy (cls.stages c info)))
  have hcmd : (cmd :: Stage.heldBy (cls.stages c info)).count cmd = 1 :=
    List.count_eq_one_of_mem (hnodup.sublist hheldAll) (.head _)
  refine ⟨?_, ?_, run_ordered, fun o => ?_, fun o ho => ?_, ?_⟩
  · rw [run_calls, List.length_singleton]
  · rw [releases_run, hcmd]
  · rw [releases_run]
    exact List.nodup_iff_count_le_one.mp (hnodup.sublist hheldAll) o
  · rw [releases_run]
    rw [hallocated] at ho
    exact List.count_eq_zero.mpr fun hmem => ho (hheldAll.subset hmem)
  · rw [List.cons_append] at hnodup hallocated
    have hcount := Stage.count_heldBy_leaked_iff (List.nodup_cons.mp hnodup).2
    rw [hallocated, not_or, and_comm, ← losesIn_stages, losesIn_iff, ← leakedBy_eq_nil_iff]
    simp only [releases_run, List.forall_mem_cons, hcmd, true_and, not_exists, not_and, not_not, ← hcount]
    refine forall₂_congr fun o ho => ?_
    have hne : cmd ≠ o := fun heq => (List.nodup_cons.mp hnodup).1 (heq ▸ ho)
    rw [List.count_cons_of_ne hne]

end Releases

end AsyncClass

end AerospikeNode
