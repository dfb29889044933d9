import AerospikeNode.Batch.Clone
import AerospikeNode.Cmd.Command

/-!
# What a batch command delivers

`batchGet`, `batchExists`, `batchSelect`, `batchApply` and `batchRemove` run on a worker: a callback
clones the results of the C client, `execute` ends the call and `respond` hands the clones to the
user and releases them. `batchRead` and `batchWrite` hand over the results themselves in
`async_batch_listener`.

`batch_delivers_iff`: a command delivers one result for each key, and releases what it cloned, in exactly
the calls that succeed or produce no results; for `batchRead` and `batchWrite` in all calls.
`execute` drops the results of every other call, which `respond` was to hand over if the call failed
with `AEROSPIKE_BATCH_FAILED`.
-/

namespace AerospikeNode

namespace Status

def batchFailed : ℤ := -16

end Status

inductive BatchKind where
  | batchGet
  | batchExists
  | batchSelect
  | batchApply
  | batchRemove
  | batchRead
  | batchWrite
deriving DecidableEq

/-- `as_batch_read`, `as_batch_result` and `as_batch_base_record`. -/
structure BatchRead where
  key : ResultKey
  result : Int32
  record : ResultRecord
  inDoubt : Bool

def AEROSPIKE_OK : Int32 := 0

/-- A batch call of the C client: the keys of the batch, the results it hands to the callback or the
listener, if it comes to that, and how it ends. A batch that asks whether records exist gets their
metadata only. -/
structure BatchCall (kind : BatchKind) where
  keys : List ResultKey
  results : Option (List BatchRead)
  err : AsError
  inOrder : ∀ rs, results = some rs → rs.map (·.key) = keys
  succeeds : err.code = Status.ok → results.isSome = true
  identified : ∀ k ∈ keys, k.Identified
  stored : ∀ rs, results = some rs → ∀ r ∈ rs, r.record.Stored
  bare : kind = .batchExists → ∀ rs, results = some rs → ∀ r ∈ rs,
    r.record.bins = [] ∧ r.record.key.value = none

/-- What a batch command allocates for its results. -/
inductive BatchObject where
  /-- The array of cloned results. -/
  | array
  | key (i : ℕ)
  | record (i : ℕ)
  /-- What a clone owns that no `as_record_init` has prepared. -/
  | stray (i : ℕ)
  /-- The `as_batch_records` of an asynchronous command. -/
  | records
deriving DecidableEq

/-- The result that an object belongs to. -/
def BatchObject.index : BatchObject → Option ℕ
  | key i | record i | stray i => some i
  | _ => none

structure ClonedRead where
  key : Option ResultKey
  result : Int32
  record : ResultRecord

/-- A command whose call has been prepared, with the array of clones it points at. -/
structure BatchRun where
  results : Option (List ClonedRead)
  err : AsError
  /-- What has been allocated for the results, and what has been released. -/
  allocated : List BatchObject
  released : List BatchObject

/-- A worker command: whether its callback calls `as_record_init` and whether its `respond` returns
the bins and falls back on the key of the record. -/
structure WorkerBatch where
  init : Bool
  bins : Bool
  recordKey : Bool

namespace WorkerBatch

def batchGet : WorkerBatch := ⟨true, true, true⟩

def batchExists : WorkerBatch := ⟨false, false, false⟩

def batchSelect : WorkerBatch := ⟨true, true, true⟩

def batchApply : WorkerBatch := ⟨true, true, true⟩

def batchRemove : WorkerBatch := ⟨true, true, true⟩

variable (c : WorkerBatch)

/-- The clone of a result; the record of one that is not `AEROSPIKE_OK` stays as `calloc` left it. -/
def cloneResult (r : BatchRead) : ClonedRead where
  key := r.key.clone
  result := r.result
  record := if r.result = AEROSPIKE_OK then
      r.record.clone (if c.init then r.record.bins.length else 0)
    else ⟨0, 0, [], ⟨[], [], none, none⟩⟩

/-- What the clone of the result at an index owns. -/
def owned (r : BatchRead) (i : ℕ) : List BatchObject :=
  (if r.key.clone.isSome then [.key i] else []) ++
    if r.result = AEROSPIKE_OK then
      if c.init then [.record i]
      else if r.record.bins ≠ [] ∨ r.record.key.value.isSome then [.stray i] else []
    else []

/-- `batch_get_callback` and its siblings. -/
def callback (s : BatchRun) (results : List BatchRead) : BatchRun :=
  { s with
    results := some (results.map c.cloneResult)
    allocated := s.allocated ++ .array :: results.zipIdx.flatMap fun r => c.owned r.1 r.2 }

/-- `execute`: the call of the C client, and what becomes of the results if it does not succeed. -/
def execute {kind : BatchKind} (s : BatchRun) (call : BatchCall kind) : BatchRun :=
  let s := match call.results with
    | some results => c.callback s results
    | none => s
  let s := { s with err := call.err }
  if call.err.code ≠ Status.ok then { s with results := none } else s

/-- The object of a result in `respond`. -/
def resultToJs (le : AsVal → AsVal → Bool) (r : ClonedRead) : JsValue :=
  .plain ([(JsString.lit "status", .int r.result),
    (JsString.lit "key", match r.key with
      | some key => keyToJsobject key
      | none => if c.recordKey then keyToJsobject r.record.key else .undefined)] ++
    if r.result = AEROSPIKE_OK then
      (JsString.lit "meta", recordmetaToJsobject r.record) ::
        if c.bins then [(JsString.lit "bins", recordbinsToJsobject le r.record.bins)] else []
    else [])

/-- `as_key_destroy` and `as_record_destroy` of a result, of which the second releases a record that
was initialised and nothing else. -/
def destroyed (r : ClonedRead) (i : ℕ) : List BatchObject :=
  (if r.key.isSome then [.key i] else []) ++
    if r.result = AEROSPIKE_OK ∧ c.init = true then [.record i] else []

/-- `respond`: the call of the user's callback; the array goes with the command. -/
def respond (le : AsVal → AsVal → Bool) (s : BatchRun) : NativeCall × BatchRun :=
  let results := s.results.getD []
  let freed := if s.results.isSome then [BatchObject.array] else []
  if s.err.code = Status.ok ∨ (s.err.code = Status.batchFailed ∧ results.length ≠ 0) then
    (⟨none, .array (results.map (c.resultToJs le)), .undefined, .undefined⟩,
      { s with released := s.released ++
          (results.zipIdx.flatMap fun r => c.destroyed r.1 r.2) ++ freed })
  else (⟨some s.err, .undefined, .undefined, .undefined⟩, { s with released := s.released ++ freed })

/-- A worker command from its preparation to its end. -/
def run {kind : BatchKind} (le : AsVal → AsVal → Bool) (call : BatchCall kind) :
    NativeCall × BatchRun :=
  c.respond le (c.execute ⟨none, call.err, [], []⟩ call)

end WorkerBatch

/-! ### The asynchronous commands -/

/-- The object of a result in `batch_records_to_jsarray`. -/
def batchRecordToJs (le : AsVal → AsVal → Bool) (r : BatchRead) : JsValue :=
  .plain ([(JsString.lit "status", .int r.result), (JsString.lit "key", keyToJsobject r.key)] ++
    (if r.result = AEROSPIKE_OK then
      [(JsString.lit "meta", recordmetaToJsobject r.record),
        (JsString.lit "bins", recordbinsToJsobject le r.record.bins)]
    else []) ++ [(JsString.lit "inDoubt", .bool r.inDoubt)])

/-- `async_batch_listener`, which is called with an error unless the call succeeds. -/
def asyncBatchListener (le : AsVal → AsVal → Bool) (s : BatchRun) (err : Option AsError)
    (records : List BatchRead) : NativeCall × BatchRun :=
  let s := { s with released := s.released ++ [.records] }
  match err with
  | none => (⟨none, .array (records.map (batchRecordToJs le)), .undefined, .undefined⟩, s)
  | some e =>
    if e.code = Status.batchFailed ∧ records.length ≠ 0 then
      (⟨none, .array (records.map (batchRecordToJs le)), .undefined, .undefined⟩, s)
    else (⟨some e, .undefined, .undefined, .undefined⟩, s)

/-- `BatchRead` and `BatchWrite`: without results the C client has not taken the call. -/
def runAsyncBatch {kind : BatchKind} (le : AsVal → AsVal → Bool) (call : BatchCall kind) :
    NativeCall × BatchRun :=
  let s : BatchRun := ⟨none, call.err, [.records], []⟩
  match call.results with
  | some records =>
    asyncBatchListener le s (if call.err.code = Status.ok then none else some call.err) records
  | none =>
    (⟨some call.err, .undefined, .undefined, .undefined⟩, { s with released := [.records] })

/-- The five commands that run on a worker. -/
def BatchKind.worker : BatchKind → Option WorkerBatch
  | batchGet => some .batchGet
  | batchExists => some .batchExists
  | batchSelect => some .batchSelect
  | batchApply => some .batchApply
  | batchRemove => some .batchRemove
  | batchRead => none
  | batchWrite => none

def BatchCall.run {kind : BatchKind} (le : AsVal → AsVal → Bool) (call : BatchCall kind) :
    NativeCall × BatchRun :=
  match kind.worker with
  | some c => c.run le call
  | none => runAsyncBatch le call

/-! ### What is to be delivered -/

/-- The result a user gets for a key: its status, and the record if that is `AEROSPIKE_OK`. -/
def BatchKind.userResult (kind : BatchKind) (le : AsVal → AsVal → Bool) (r : BatchRead) :
    BatchResult where
  status := .int r.result
  record := .new (keyToJsobject r.key)
    (if r.result = AEROSPIKE_OK ∧ kind ≠ .batchExists then recordbinsToJsobject le r.record.bins
      else .undefined)
    (if r.result = AEROSPIKE_OK then recordmetaToJsobject r.record else .undefined)
  inDoubt := if kind.worker.isSome then .undefined else .bool r.inDoubt

/-- The call has succeeded, or it has failed on some of its keys after it produced the results. -/
def BatchCall.Produced {kind : BatchKind} (call : BatchCall kind) : Prop :=
  call.err.code = Status.ok ∨
    (call.err.code = Status.batchFailed ∧ ∃ rs, call.results = some rs ∧ rs ≠ [])

/-- The user gets the result of each key, and what was allocated for them is released once. -/
structure BatchCall.Delivers {kind : BatchKind} (le : AsVal → AsVal → Bool) (call : BatchCall kind) :
    Prop where
  results : call.Produced → ∃ rs, call.results = some rs ∧ rs.map (·.key) = call.keys ∧
    ∀ callback, (Command.plain .batch callback).convertResponse (call.run le).1 =
      (none, .batch (rs.map (kind.userResult le)))
  distinct : (call.run le).2.allocated.Nodup
  released : (call.run le).2.released.Perm (call.run le).2.allocated

/-! ### The worker commands -/

/-- A worker command that returns bins has prepared the records that it clones them into. -/
theorem BatchKind.worker_bins {kind : BatchKind} {c : WorkerBatch} (h : kind.worker = some c) :
    (c.init = true ∧ c.bins = true ∧ kind ≠ .batchExists) ∨
      (c.init = false ∧ c.bins = false ∧ kind = .batchExists) := by
  cases kind with
  | batchGet | batchSelect | batchApply | batchRemove =>
    obtain rfl := Option.some.inj h
    exact .inl ⟨rfl, rfl, nofun⟩
  | batchExists =>
    obtain rfl := Option.some.inj h
    exact .inr ⟨rfl, rfl, rfl⟩
  | batchRead | batchWrite => cases h

section
variable (status key metadata bins inDoubt : JsValue)

theorem batchResult_of_status :
    BatchCommand.batchResult (.plain [(JsString.lit "status", status), (JsString.lit "key", key)]) =
      ⟨status, .new key .undefined .undefined, .undefined⟩ := rfl

theorem batchResult_of_meta :
    BatchCommand.batchResult (.plain [(JsString.lit "status", status), (JsString.lit "key", key),
        (JsString.lit "meta", metadata)]) =
      ⟨status, .new key .undefined metadata, .undefined⟩ := rfl

theorem batchResult_of_record :
    BatchCommand.batchResult (.plain [(JsString.lit "status", status), (JsString.lit "key", key),
        (JsString.lit "meta", metadata), (JsString.lit "bins", bins)]) =
      ⟨status, .new key bins metadata, .undefined⟩ := rfl

theorem batchResult_of_status_inDoubt :
    BatchCommand.batchResult (.plain [(JsString.lit "status", status), (JsString.lit "key", key),
        (JsString.lit "inDoubt", inDoubt)]) =
      ⟨status, .new key .undefined .undefined, inDoubt⟩ := rfl

theorem batchResult_of_record_inDoubt :
    BatchCommand.batchResult (.plain [(JsString.lit "status", status), (JsString.lit "key", key),
        (JsString.lit "meta", metadata), (JsString.lit "bins", bins), (JsString.lit "inDoubt", inDoubt)]) =
      ⟨status, .new key bins metadata, inDoubt⟩ := rfl

end

namespace WorkerBatch

variable {kind : BatchKind} {c : WorkerBatch} {le : AsVal → AsVal → Bool} {call : BatchCall kind}

/-- The result that a worker command hands over is the one it has cloned. -/
theorem batchResult_cloneResult (hc : kind.worker = some c) {r : BatchRead} (hkey : r.key.Identified)
    (hrecord : r.record.Stored) :
    BatchCommand.batchResult (c.resultToJs le (c.cloneResult r)) = kind.userResult le r := by
  have hworker : kind.worker.isSome = true := by
    rw [hc]
    rfl
  have hclone := ResultKey.clone_eq hkey
  simp only [resultToJs, cloneResult, hclone, BatchKind.userResult, hworker, if_true]
  by_cases hok : r.result = AEROSPIKE_OK
  · rcases kind.worker_bins hc with ⟨hinit, hbins, hkind⟩ | ⟨hinit, hbins, rfl⟩
    · simp only [hok, hinit, hbins, hkind, if_true, ne_eq, not_false_eq_true, and_self]
      rw [ResultRecord.clone_bins hrecord]
      exact batchResult_of_record _ _ _ _
    · simp only [hok, hbins, if_true, Bool.false_eq_true, if_false, ne_eq, not_true_eq_false, and_false]
      exact batchResult_of_meta _ _ _
  · simp only [hok, if_false, false_and]
    exact batchResult_of_status _ _

/-- The clones of a call are destroyed with what they own. -/
theorem owned_eq_destroyed (hc : kind.worker = some c) {r : BatchRead}
    (hbare : kind = .batchExists → r.record.bins = [] ∧ r.record.key.value = none) (i : ℕ) :
    c.owned r i = c.destroyed (c.cloneResult r) i := by
  rw [owned, destroyed, cloneResult]
  congr 1
  by_cases hok : r.result = AEROSPIKE_OK
  · rcases kind.worker_bins hc with ⟨hinit, -, -⟩ | ⟨hinit, -, hkind⟩
    · simp [hok, hinit]
    · obtain ⟨hbins, hvalue⟩ := hbare hkind
      simp [hok, hinit, hbins, hvalue]
  · simp [hok]

theorem destroyed_clones (hc : kind.worker = some c) (call : BatchCall kind) {rs : List BatchRead}
    (hrs : call.results = some rs) :
    ((rs.map c.cloneResult).zipIdx.flatMap fun r => c.destroyed r.1 r.2) =
      rs.zipIdx.flatMap fun r => c.owned r.1 r.2 := by
  rw [List.zipIdx_map, List.flatMap_map]
  refine List.flatMap_congr fun r hr => ?_
  have hmem : r.1 ∈ rs := (List.mem_zipIdx' hr).2 ▸ List.getElem_mem _
  exact (owned_eq_destroyed hc (fun h => call.bare h rs hrs r.1 hmem) r.2).symm

/-- What the result at an index owns. -/
theorem index_of_mem_owned {r : BatchRead} {i : ℕ} {o : BatchObject} (h : o ∈ c.owned r i) :
    o.index = some i := by
  rw [owned, List.mem_append] at h
  rcases h with h | h
  · split_ifs at h with hkey
    · rw [List.mem_singleton.mp h]
      rfl
    · cases h
  · split_ifs at h with hok hinit hstray
    · rw [List.mem_singleton.mp h]
      rfl
    · rw [List.mem_singleton.mp h]
      rfl
    · cases h
    · cases h

theorem nodup_owned (r : BatchRead) (i : ℕ) : (c.owned r i).Nodup := by
  rw [owned]
  split_ifs <;> simp

theorem nodup_allocated (rs : List BatchRead) :
    (BatchObject.array :: rs.zipIdx.flatMap fun r => c.owned r.1 r.2).Nodup := by
  refine List.nodup_cons.mpr ⟨?_, List.nodup_flatMap.mpr ⟨fun r _ => nodup_owned r.1 r.2, ?_⟩⟩
  · intro h
    obtain ⟨r, -, hr⟩ := List.mem_flatMap.mp h
    cases index_of_mem_owned hr
  · have hindices : (rs.zipIdx.map Prod.snd).Nodup := by
      rw [List.zipIdx_map_snd]
      exact List.nodup_range'
    refine (List.pairwise_map.mp hindices).imp fun hne => ?_
    intro o ho ho'
    have hindex := index_of_mem_owned ho
    rw [index_of_mem_owned ho'] at hindex
    exact hne (Option.some.inj hindex).symm

theorem run_of_ok (le : AsVal → AsVal → Bool) (hc : kind.worker = some c) {rs : List BatchRead}
    (hrs : call.results = some rs)
    (hok : call.err.code = Status.ok) :
    c.run le call = (⟨none, .array ((rs.map c.cloneResult).map (c.resultToJs le)), .undefined, .undefined⟩,
      ⟨some (rs.map c.cloneResult), call.err,
        .array :: rs.zipIdx.flatMap fun r => c.owned r.1 r.2,
        (rs.zipIdx.flatMap fun r => c.owned r.1 r.2) ++ [.array]⟩) := by
  have hdestroyed := destroyed_clones hc call hrs
  simp only [run, respond, execute, hrs, callback, hok, ne_eq, not_true_eq_false, if_false,
    Option.getD_some, true_or, if_true, Option.isSome_some, List.nil_append, hdestroyed]

theorem run_of_error (c : WorkerBatch) (le : AsVal → AsVal → Bool) (call : BatchCall kind)
    (herr : call.err.code ≠ Status.ok) :
    (c.run le call).1 = ⟨some call.err, .undefined, .undefined, .undefined⟩ ∧
    (c.run le call).2.released = [] ∧
    (c.run le call).2.allocated = (call.results.map fun rs =>
      BatchObject.array :: rs.zipIdx.flatMap fun r => c.owned r.1 r.2).getD [] := by
  cases hrs : call.results with
  | none => simp [run, respond, execute, hrs, herr]
  | some rs => simp [run, respond, execute, callback, hrs, herr]

end WorkerBatch

/-! ### All commands -/

variable {kind : BatchKind} {le : AsVal → AsVal → Bool} {call : BatchCall kind}

theorem convertResponse_array (vs : List JsValue) (callback : Bool) :
    (Command.plain .batch callback).convertResponse ⟨none, .array vs, .undefined, .undefined⟩ =
      (none, .batch (vs.map BatchCommand.batchResult)) := rfl

theorem WorkerBatch.delivers_iff {c : WorkerBatch} (hc : kind.worker = some c) :
    call.Delivers le ↔ call.err.code = Status.ok ∨ call.results = none := by
  have hrun : call.run le = c.run le call := by
    rw [BatchCall.run, hc]
  by_cases hok : call.err.code = Status.ok
  · refine iff_of_true ?_ (.inl hok)
    obtain ⟨rs, hrs⟩ := Option.isSome_iff_exists.mp (call.succeeds hok)
    have hcall := WorkerBatch.run_of_ok le hc hrs hok
    refine ⟨fun _ => ⟨rs, hrs, call.inOrder rs hrs, fun callback => ?_⟩, ?_, ?_⟩
    · rw [hrun, hcall, convertResponse_array, List.map_map, List.map_map]
      refine congrArg (fun rs => (none, CommandResult.batch rs)) (List.map_congr_left fun r hr => ?_)
      have hkey : r.key ∈ call.keys := call.inOrder rs hrs ▸ List.mem_map_of_mem hr
      exact WorkerBatch.batchResult_cloneResult hc (call.identified r.key hkey)
        (call.stored rs hrs r hr)
    · rw [hrun, hcall]
      exact WorkerBatch.nodup_allocated rs
    · rw [hrun, hcall]
      exact List.perm_append_comm
  · obtain ⟨hresponse, hreleased, hallocated⟩ := WorkerBatch.run_of_error c le call hok
    cases hrs : call.results with
    | none =>
      refine iff_of_true ⟨?_, ?_, ?_⟩ (.inr rfl)
      · rintro (h | ⟨-, rs, h, -⟩)
        · exact absurd h hok
        · rw [hrs] at h
          cases h
      · rw [hrun, hallocated, hrs]
        exact List.nodup_nil
      · rw [hrun, hreleased, hallocated, hrs]
        exact List.Perm.refl _
    | some rs =>
      refine iff_of_false (fun h => ?_) (by simp [hok])
      have hperm := h.released
      rw [hrun, hreleased, hallocated, hrs] at hperm
      exact absurd hperm.symm (List.not_perm_cons_nil)

/-- The result that an asynchronous command hands over. -/
theorem batchResult_batchRecordToJs (hkind : kind.worker = none) (r : BatchRead) :
    BatchCommand.batchResult (batchRecordToJs le r) = kind.userResult le r := by
  have hexists : kind ≠ .batchExists := by
    rintro rfl
    cases hkind
  have hworker : kind.worker.isSome = false := by
    rw [hkind]
    rfl
  simp only [batchRecordToJs, BatchKind.userResult, hworker, Bool.false_eq_true, if_false]
  by_cases hok : r.result = AEROSPIKE_OK
  · simp only [hok, if_true, hexists, ne_eq, not_false_eq_true, and_self]
    exact batchResult_of_record_inDoubt _ _ _ _ _
  · simp only [hok, if_false, false_and]
    exact batchResult_of_status_inDoubt _ _ _

theorem asyncBatch_delivers (hkind : kind.worker = none) : call.Delivers le := by
  have hrun : call.run le = runAsyncBatch le call := by
    rw [BatchCall.run, hkind]
  have hobjects : (runAsyncBatch le call).2.allocated = [.records] ∧
      (runAsyncBatch le call).2.released = [.records] := by
    rw [runAsyncBatch]
    cases call.results with
    | none => exact ⟨rfl, rfl⟩
    | some rs =>
      simp only [asyncBatchListener]
      split
      · exact ⟨rfl, rfl⟩
      · split_ifs
        · exact ⟨rfl, rfl⟩
        · exact ⟨rfl, rfl⟩
  refine ⟨fun hproduced => ?_, ?_, ?_⟩
  · have hresults : ∃ rs, call.results = some rs := by
      rcases hproduced with hok | ⟨-, rs, hrs, -⟩
      · exact Option.isSome_iff_exists.mp (call.succeeds hok)
      · exact ⟨rs, hrs⟩
    obtain ⟨rs, hrs⟩ := hresults
    have hcall : (runAsyncBatch le call).1 =
        ⟨none, .array (rs.map (batchRecordToJs le)), .undefined, .undefined⟩ := by
      simp only [runAsyncBatch, hrs, asyncBatchListener]
      rcases hproduced with hok | ⟨hfailed, rs', hrs', hne⟩
      · rw [if_pos hok]
      · obtain rfl := Option.some.inj (hrs.symm.trans hrs')
        have hcode : call.err.code ≠ Status.ok := by
          rw [hfailed]
          decide
        have hlength : rs.length ≠ 0 := fun h => hne (List.length_eq_zero_iff.mp h)
        rw [if_neg hcode]
        simp only [hfailed, hlength, ne_eq, not_false_eq_true, and_self, if_true]
    refine ⟨rs, hrs, call.inOrder rs hrs, fun callback => ?_⟩
    rw [hrun, hcall, convertResponse_array, List.map_map]
    exact congrArg (fun rs => (none, CommandResult.batch rs))
      (List.map_congr_left fun r _ => batchResult_batchRecordToJs hkind r)
  · rw [hrun, hobjects.1]
    exact List.nodup_singleton _
  · rw [hrun, hobjects.1, hobjects.2]

/-- A command delivers what it was asked for exactly if it is asynchronous, its call succeeds, or the
call produces no results. -/
theorem batch_delivers_iff (le : AsVal → AsVal → Bool) (call : BatchCall kind) :
    call.Delivers le ↔
      kind = .batchRead ∨ kind = .batchWrite ∨ call.err.code = Status.ok ∨ call.results = none := by
  cases hkind : kind.worker with
  | some c =>
    have hread : kind ≠ .batchRead ∧ kind ≠ .batchWrite := by
      constructor
      · rintro rfl
        cases hkind
      · rintro rfl
        cases hkind
    rw [WorkerBatch.delivers_iff hkind]
    simp [hread]
  | none =>
    refine iff_of_true (asyncBatch_delivers hkind) ?_
    cases kind with
    | batchRead => exact .inl rfl
    | batchWrite => exact .inr (.inl rfl)
    | _ => cases hkind

/-- A batch of one key that has been found, in a call that fails with `AEROSPIKE_BATCH_FAILED`. -/
def BatchCall.failed : BatchCall .batchGet where
  keys := [⟨[116], [], some (.integer 1), none⟩]
  results := some [⟨⟨[116], [], some (.integer 1), none⟩, AEROSPIKE_OK,
    ⟨1, 0, [([97], .integer 5)], ⟨[], [], none, none⟩⟩, false⟩]
  err := ⟨Status.batchFailed, [], [], [], 0, false⟩
  inOrder rs h := by
    rw [← Option.some.inj h]
    rfl
  succeeds h := nomatch h
  identified k hk := by
    rw [List.mem_singleton.mp hk]
    exact ⟨.inr rfl, fun v hv => Option.some.inj hv ▸ trivial⟩
  stored rs h r hr := by
    rw [← Option.some.inj h] at hr
    rw [List.mem_singleton.mp hr]
    exact ⟨by decide, by decide, by decide, fun b hb => List.mem_singleton.mp hb ▸ trivial⟩
  bare h := nomatch h

/-- The result of its key does not reach the user. -/
theorem batchFailed_lost : ¬ BatchCall.failed.Delivers fun _ _ => true := by
  intro h
  obtain ⟨rs, -, -, hresponse⟩ := h.results (.inr ⟨rfl, _, rfl, List.cons_ne_nil _ _⟩)
  have herr := congrArg Prod.fst (hresponse true)
  cases herr

end AerospikeNode
