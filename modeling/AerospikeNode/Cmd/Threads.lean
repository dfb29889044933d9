import AerospikeNode.Cmd.Methods
import AerospikeNode.Lib.Run
import AerospikeNode.Lib.WorkQueue

/-!
# Commands on worker threads

`async_invoke` of `src/main/async.cc` prepares a command, has a thread of the pool execute it and is handed it back
for the response, while `Client#close` may give up the cluster and the log that the commands point at. The commands
are those of the ten methods of `WorkerMethod`, which tell their user once; others that go through `async_invoke`
are not among them (a query tells its user of every record or value).

`pool_orderly`: in any order of steps a command of these methods is sent once at most, and the user is told once what
came of it; of a command that the closing overtakes the user is told that it succeeded, though it was not sent.
`pool_safe_iff`: nothing is used after the closing exactly if the client is closed when no command is on its way.
-/

namespace AerospikeNode

/-- `as_job_info` -/
structure JobInfo where
  progressPct : UInt32
  recordsRead : UInt64
  status : Int32

/-- What the C client leaves in a command: its error, the response to an info request, the responses of all nodes with
their names, and a job. -/
structure MethodReply where
  err : AsError
  response : Option Bytes
  infos : List (Bytes × Option Bytes)
  job : JobInfo

namespace MethodReply

/-- `IsError` -/
def isError (r : MethodReply) : Bool := r.err.code ≠ Status.ok

def responseValue : Option Bytes → JsValue
  | some (b :: bs) => .ofCString (b :: bs)
  | _ => .null

/-- A response that `aerospike_info_callback` has kept. -/
def infoValue (node : Bytes) (info : Option Bytes) : JsValue :=
  let name := node.take (AS_NODE_NAME_SIZE - 1)
  let host : Props := if name = [] then [] else [(JsString.lit "node_id", .ofCString name)]
  let info : Props := if info.getD [] = [] then [] else [(JsString.lit "info", .ofCString (info.getD []))]
  .plain ((JsString.lit "host", .plain host) :: info)

end MethodReply

/-- `jobinfo_to_jsobject` -/
def JobInfo.toJs (job : JobInfo) : JsValue :=
  .plain [(JsString.lit "progressPct", .num (.ofUInt32 job.progressPct)),
    (JsString.lit "recordsRead", .num (.ofRat job.recordsRead.toNat)),
    (JsString.lit "status", .num (.ofInt32 job.status))]

/-- What becomes of a command: it is sent to the C client, or not. -/
inductive TaskState where
  | waiting
  | skipped
  | refused
  | asked
  | answered (r : MethodReply)

namespace TaskState

/-- The command has been sent. -/
def Entered : TaskState → Prop
  | asked | answered _ => True
  | _ => False

end TaskState

namespace MethodCmd

variable {P X C : Type}

/-- `execute` of `IndexCreate` finds neither an expression nor a bin. -/
def refused : MethodCmd P X C → Bool
  | indexCreate _ _ _ source _ _ _ => source.isNone
  | _ => false

def isInfoNode : MethodCmd P X C → Bool
  | infoNode .. => true
  | _ => false

/-- What `respond` hands over if there is no error; `none` is an `as_job_info` that nothing has written to. -/
def result (reply : Option MethodReply) : MethodCmd P X C → Option JsValue
  | infoAny .. | infoHost .. | infoNode .. => some (MethodReply.responseValue (reply.bind (·.response)))
  | infoForeach .. => some (.array ((reply.elim [] (·.infos)).map fun r => MethodReply.infoValue r.1 r.2))
  | jobInfo .. => reply.map (·.job.toJs)
  | _ => some .undefined

/-- The call of the callback if there is no error. -/
def success (reply : Option MethodReply) (cmd : MethodCmd P X C) : Option NativeCall :=
  (cmd.result reply).map fun v => ⟨none, v, .undefined, .undefined⟩

/-- The call for what the C client has left. -/
def answer (cmd : MethodCmd P X C) (r : MethodReply) : Option NativeCall :=
  if r.isError then some (AsyncReply.errorCall r.err) else cmd.success (some r)

end MethodCmd

/-- What the commands share with their client. -/
inductive ClientMemory where
  | log
  | cluster
deriving DecidableEq

/-- What happens to the commands, by the order of their submission. -/
inductive PoolEvent (P X C : Type) where
  | submitted (prepared : Except AsError (MethodCmd P X C))
  | asked (i : ℕ) (cmd : MethodCmd P X C)
  | answered (i : ℕ) (r : MethodReply)
  | told (i : ℕ) (call : Option NativeCall)
  | closed

structure WorkerPool (P X C : Type) where
  prepared : List (Except AsError (MethodCmd P X C))
  state : ℕ → TaskState
  work : WorkQueue ℕ
  closed : Bool
  accesses : List (Access ClientMemory)
  events : List (PoolEvent P X C)

inductive PoolAction where
  | submit (m : WorkerMethod) (info : List JsValue)
  /-- A thread takes a command; it may look for a node. -/
  | take (nodeFound : Bool)
  /-- A thread is done. -/
  | finish (k : ℕ) (r : MethodReply)
  | respond
  | close

namespace WorkerPool

open Access ClientMemory

variable {P X C : Type} (env : MethodEnv P X C)

/-- A client that is connected. -/
def start : WorkerPool P X C := ⟨[], fun _ => .waiting, .empty, false, [], []⟩

def log (s : WorkerPool P X C) (e : PoolEvent P X C) : WorkerPool P X C := { s with events := s.events ++ [e] }

def access (s : WorkerPool P X C) (as : List (Access ClientMemory)) : WorkerPool P X C :=
  { s with accesses := s.accesses ++ as }

def setState (s : WorkerPool P X C) (i : ℕ) (st : TaskState) : WorkerPool P X C :=
  { s with state := Function.update s.state i st }

/-- `async_invoke` -/
def submit (s : WorkerPool P X C) (prepared : Except AsError (MethodCmd P X C)) : WorkerPool P X C :=
  { (s.access [use .log]).log (.submitted prepared) with
    prepared := s.prepared ++ [prepared], work := s.work.submit s.prepared.length }

/-- `execute`, up to the call of the C client. -/
def execute (s : WorkerPool P X C) (i : ℕ) (nodeFound : Bool) : WorkerPool P X C :=
  match s.prepared[i]? with
  | some (.ok cmd) =>
    -- `CanExecute` looks for the cluster, and writes to the log that there is none.
    if s.closed then (s.access [use .log]).setState i .skipped
    else if cmd.refused then s.setState i .refused
    else
      let s := s.access [use .log, use .cluster]
      if cmd.isInfoNode && !nodeFound then s.setState i .skipped
      else (s.setState i .asked).log (.asked i cmd)
  | _ => s.access [use .log]

/-- The C client returns. -/
def complete (s : WorkerPool P X C) (i : ℕ) (r : MethodReply) : WorkerPool P X C :=
  match s.state i with
  | .asked => ((s.access [use .cluster]).setState i (.answered r)).log (.answered i r)
  | _ => s

/-- The error of an index that is over nothing. -/
def refusal : AsError :=
  WorkerMethod.indexCreate.paramErr env "Creation of an index requires either a bin name or an expression."

/-- The call of the callback in `respond`. -/
def callOf (prepared : Except AsError (MethodCmd P X C)) (st : TaskState) : Option NativeCall :=
  match prepared, st with
  | .error err, _ => some (AsyncReply.errorCall err)
  | .ok _, .refused => some (AsyncReply.errorCall (refusal env))
  | .ok cmd, .answered r => cmd.answer r
  | .ok cmd, _ => cmd.success none

def respond (s : WorkerPool P X C) (i : ℕ) : WorkerPool P X C :=
  match s.prepared[i]? with
  | some prepared => (s.access [use .log]).log (.told i (callOf env prepared (s.state i)))
  | none => s

/-- `AerospikeClient::Close` -/
def close (s : WorkerPool P X C) : WorkerPool P X C :=
  { (s.access [use .log, release .cluster, release .log]).log .closed with closed := true }

def step (threads : ℕ) (s : WorkerPool P X C) : PoolAction → WorkerPool P X C
  | .submit m info => if m.accepts info then s.submit (m.prepare env info) else s
  | .take nodeFound =>
    match s.work.queued with
    | [] => s
    | i :: _ =>
      if s.work.running.length < threads then { s.execute i nodeFound with work := s.work.take threads } else s
  | .finish k r =>
    match s.work.running[k]? with
    | none => s
    | some i => { s.complete i r with work := s.work.finish k }
  | .respond =>
    match s.work.done with
    | [] => s
    | i :: _ => { s.respond env i with work := s.work.handBack }
  | .close => s.close

/-- A client that is closed is not connected: it issues no command, and is not closed again. -/
def Allowed (s : WorkerPool P X C) : PoolAction → Prop
  | .submit _ _ | .close => s.closed = false
  | _ => True

instance (s : WorkerPool P X C) : (a : PoolAction) → Decidable (Allowed s a)
  | .submit _ _ | .close => inferInstanceAs (Decidable (_ = _))
  | .take _ | .finish _ _ | .respond => instDecidableTrue

/-- The client is closed when no command is on its way. -/
def ClosesIdle (s : WorkerPool P X C) : PoolAction → Prop
  | .close => s.work.works = []
  | _ => True

/-! ### What the user is told -/

/-- The commands that are submitted. -/
def submissions (events : List (PoolEvent P X C)) : List (Except AsError (MethodCmd P X C)) :=
  events.filterMap fun e => match e with | .submitted prepared => some prepared | _ => none

/-- The commands whose users are told. -/
def tolds (events : List (PoolEvent P X C)) : List ℕ :=
  events.filterMap fun e => match e with | .told i _ => some i | _ => none

/-- What is told of a command: its error if it was not prepared, what the C client has left if it was sent, and
otherwise that it is refused, or that it succeeded: the client is closed, or has no such node. -/
def Told (before : List (PoolEvent P X C)) (i : ℕ) (call : Option NativeCall) : Except AsError (MethodCmd P X C) → Prop
  | .error err => err.code ≠ Status.ok ∧ call = some (AsyncReply.errorCall err) ∧ ∀ cmd, .asked i cmd ∉ before
  | .ok cmd => (∃ r, .answered i r ∈ before ∧ call = cmd.answer r) ∨
      (∀ cmd, .asked i cmd ∉ before) ∧
        (cmd.refused = true ∧ call = some (AsyncReply.errorCall (refusal env)) ∨
          (.closed ∈ before ∨ cmd.isInfoNode = true) ∧ call = cmd.success none)

/-- What holds when something happens to a command. -/
def InTurn (before : List (PoolEvent P X C)) : PoolEvent P X C → Prop
  | .submitted _ => .closed ∉ before
  | .asked i cmd =>
    (submissions before)[i]? = some (.ok cmd) ∧ .closed ∉ before ∧ cmd.refused = false ∧ ∀ cmd', .asked i cmd' ∉ before
  | .answered i _ => (∃ cmd, .asked i cmd ∈ before) ∧ ∀ r, .answered i r ∉ before
  | .told i call => i ∉ tolds before ∧ ∃ prepared, (submissions before)[i]? = some prepared ∧
    Told env before i call prepared
  | .closed => .closed ∉ before

section
variable {l : List (PoolEvent P X C)} {p : Except AsError (MethodCmd P X C)} {cmd : MethodCmd P X C} {i : ℕ}
  {r : MethodReply} {call : Option NativeCall}

@[simp]
theorem submissions_submitted : submissions (l ++ [.submitted p]) = submissions l ++ [p] := by simp [submissions]

@[simp]
theorem submissions_asked : submissions (l ++ [.asked i cmd]) = submissions l := by simp [submissions]

@[simp]
theorem submissions_answered : submissions (l ++ [.answered i r]) = submissions l := by simp [submissions]

@[simp]
theorem submissions_told : submissions (l ++ [.told i call]) = submissions l := by simp [submissions]

@[simp]
theorem submissions_closed : submissions (l ++ [.closed]) = submissions l := by simp [submissions]

@[simp]
theorem tolds_submitted : tolds (l ++ [.submitted p]) = tolds l := by simp [tolds]

@[simp]
theorem tolds_asked : tolds (l ++ [.asked i cmd]) = tolds l := by simp [tolds]

@[simp]
theorem tolds_answered : tolds (l ++ [.answered i r]) = tolds l := by simp [tolds]

@[simp]
theorem tolds_told : tolds (l ++ [.told i call]) = tolds l ++ [i] := by simp [tolds]

@[simp]
theorem tolds_closed : tolds (l ++ [.closed]) = tolds l := by simp [tolds]

end

/-! ### The invariant -/

/-- How far the commands are that the threads have, and those that wait for their response. -/
structure Placed (s : WorkerPool P X C) : Prop where
  nodup : s.work.works.Nodup
  lt : ∀ i ∈ s.work.works, i < s.prepared.length
  skipped : ∀ i cmd, s.prepared[i]? = some (.ok cmd) → s.state i = .skipped → s.closed = true ∨ cmd.isInfoNode = true
  refused : ∀ i cmd, s.prepared[i]? = some (.ok cmd) → s.state i = .refused → cmd.refused = true
  fresh : ∀ i, s.prepared.length ≤ i ∨ i ∈ s.work.queued → s.state i = .waiting
  executed : ∀ i cmd, i ∈ s.work.running ++ s.work.done → s.prepared[i]? = some (.ok cmd) → s.state i ≠ .waiting
  returned : ∀ i ∈ s.work.done, s.state i ≠ .asked

/-- What has happened to the commands. -/
structure Recorded (s : WorkerPool P X C) : Prop where
  orderly : Run.Orderly (InTurn env) s.events
  submitted : submissions s.events = s.prepared
  perm : (tolds s.events ++ s.work.works).Perm (List.range s.prepared.length)
  closed : .closed ∈ s.events ↔ s.closed = true
  codes : ∀ err, .error err ∈ s.prepared → err.code ≠ Status.ok
  asked : ∀ i cmd, .asked i cmd ∈ s.events → s.prepared[i]? = some (.ok cmd)
  entered : ∀ i, (∃ cmd, .asked i cmd ∈ s.events) ↔ (s.state i).Entered
  answered : ∀ i r, .answered i r ∈ s.events ↔ s.state i = .answered r

section
variable {env} {s : WorkerPool P X C} {threads i : ℕ} {is : List ℕ}

theorem placed_start : (start : WorkerPool P X C).Placed where
  nodup := .nil
  lt := by simp [start, WorkQueue.works, WorkQueue.empty]
  skipped := by simp [start]
  refused := by simp [start]
  fresh := fun _ _ => rfl
  executed := by simp [start]
  returned := by simp [start, WorkQueue.empty]

theorem recorded_start : (start : WorkerPool P X C).Recorded env where
  orderly := .nil
  submitted := rfl
  perm := .nil
  closed := by simp [start]
  codes := by simp [start]
  asked := by simp [start]
  entered := by simp [start, TaskState.Entered]
  answered := by simp [start]

/-! A command is submitted, or the client closed. -/

theorem Placed.submit (h : s.Placed) (p : Except AsError (MethodCmd P X C)) : (s.submit p).Placed := by
  have hnew : ∀ {i : ℕ} {q : Except AsError (MethodCmd P X C)}, (s.prepared ++ [p])[i]? = some q →
      s.state i ≠ .waiting →
      s.prepared[i]? = some q := fun {i q} hq hstate => by
    have hlt : i < s.prepared.length := by
      by_contra hge
      exact hstate (h.fresh i (.inl (Nat.le_of_not_lt hge)))
    rwa [List.getElem?_append_left hlt] at hq
  have hmem : ∀ {i : ℕ}, i ∈ (s.work.submit s.prepared.length).works → i ∈ s.work.works ∨ i = s.prepared.length :=
    fun hi => by simpa using hi
  constructor
  · show (s.work.submit s.prepared.length).works.Nodup
    rw [WorkQueue.works_submit]
    exact List.nodup_append.mpr ⟨h.nodup, List.nodup_singleton _, fun i hi j hj heq => by
      have hlt := h.lt i hi
      rw [heq, List.mem_singleton.mp hj] at hlt
      exact Nat.lt_irrefl _ hlt⟩
  · intro i hi
    show i < (s.prepared ++ [p]).length
    rw [List.length_append, List.length_singleton]
    rcases hmem hi with hi | rfl
    · exact Nat.lt_succ_of_lt (h.lt i hi)
    · exact Nat.lt_succ_self _
  · intro i cmd hq hstate
    have hs : s.state i = .skipped := hstate
    exact h.skipped i cmd (hnew hq (by simp [hs])) hs
  · intro i cmd hq hstate
    have hs : s.state i = .refused := hstate
    exact h.refused i cmd (hnew hq (by simp [hs])) hs
  · rintro i (hi | hi)
    · have hi : s.prepared.length + 1 ≤ i := by simpa [WorkerPool.submit] using hi
      exact h.fresh i (.inl (Nat.le_of_succ_le hi))
    · rcases List.mem_append.mp hi with hi | hi
      · exact h.fresh i (.inr hi)
      · exact h.fresh i (.inl (List.mem_singleton.mp hi).ge)
  · intro i cmd hi hq
    have hlt : i < s.prepared.length := h.lt i (by
      simp only [WorkQueue.works, List.mem_append]
      exact .inl (List.mem_append.mp hi).symm)
    have hq : (s.prepared ++ [p])[i]? = some (.ok cmd) := hq
    rw [List.getElem?_append_left hlt] at hq
    exact h.executed i cmd hi hq
  · exact h.returned

theorem Recorded.submit (h : s.Recorded env) (hclosed : s.closed = false) {p : Except AsError (MethodCmd P X C)}
    (hp : WorkerMethod.FailsWell p) : (s.submit p).Recorded env := by
  have hnot : .closed ∉ s.events := by simp [h.closed, hclosed]
  constructor
  · exact Run.orderly_concat.mpr ⟨h.orderly, hnot⟩
  · show submissions (s.events ++ [.submitted p]) = s.prepared ++ [p]
    rw [submissions_submitted, h.submitted]
  · show (tolds (s.events ++ [.submitted p]) ++ (s.work.submit s.prepared.length).works).Perm
      (List.range (s.prepared ++ [p]).length)
    rw [tolds_submitted, WorkQueue.works_submit, ← List.append_assoc, List.length_append, List.length_singleton,
      List.range_succ]
    exact h.perm.append_right _
  · show .closed ∈ s.events ++ [.submitted p] ↔ s.closed = true
    simp [h.closed]
  · intro err herr
    rcases List.mem_append.mp herr with herr | herr
    · exact h.codes err herr
    · exact hp err (List.mem_singleton.mp herr).symm
  · intro i cmd hmem
    have hcmd := h.asked i cmd (by simpa [WorkerPool.submit, log, access] using hmem)
    show (s.prepared ++ [p])[i]? = some (.ok cmd)
    rw [List.getElem?_append_left (List.getElem?_eq_some_iff.mp hcmd).1, hcmd]
  · intro i
    simpa [WorkerPool.submit, log, access] using h.entered i
  · intro i r
    simpa [WorkerPool.submit, log, access] using h.answered i r

theorem Placed.close (h : s.Placed) : s.close.Placed :=
  ⟨h.nodup, h.lt, fun _ _ _ _ => .inl rfl, h.refused, h.fresh, h.executed, h.returned⟩

theorem Recorded.close (h : s.Recorded env) (hclosed : s.closed = false) : s.close.Recorded env := by
  have hnot : .closed ∉ s.events := by simp [h.closed, hclosed]
  constructor
  · exact Run.orderly_concat.mpr ⟨h.orderly, hnot⟩
  · exact (submissions_closed (l := s.events)).trans h.submitted
  · show (tolds (s.events ++ [.closed]) ++ s.work.works).Perm (List.range s.prepared.length)
    rw [tolds_closed]
    exact h.perm
  · simp [WorkerPool.close, log]
  · exact h.codes
  · intro i cmd hmem
    exact h.asked i cmd (by simpa [WorkerPool.close, log, access] using hmem)
  · intro i
    simpa [WorkerPool.close, log, access] using h.entered i
  · intro i r
    simpa [WorkerPool.close, log, access] using h.answered i r

/-! A thread takes the command that has waited longest. -/

theorem take_eq (hq : s.work.queued = i :: is) (ht : s.work.running.length < threads) :
    s.work.take threads = { s.work with queued := is, running := s.work.running ++ [i] } := by
  rw [WorkQueue.take, hq]
  exact if_pos ht

/-- Where the command is when it is taken. -/
theorem Placed.head (h : s.Placed) (hq : s.work.queued = i :: is) :
    s.state i = .waiting ∧ i < s.prepared.length ∧ i ∉ is ∧ i ∉ s.work.running ∧ i ∉ s.work.done := by
  have hnodup := h.nodup
  simp only [WorkQueue.works, hq, List.nodup_append, List.nodup_cons, List.mem_append, List.mem_cons] at hnodup
  obtain ⟨⟨-, -, -⟩, ⟨his, -⟩, hdisjoint⟩ := hnodup
  refine ⟨h.fresh i (.inr (hq ▸ .head _)), h.lt i ?_, his, fun hi => ?_, fun hi => ?_⟩
  · simp [WorkQueue.works, hq]
  · exact hdisjoint i (.inr hi) i (.inl rfl) rfl
  · exact hdisjoint i (.inl hi) i (.inl rfl) rfl

theorem Placed.take (h : s.Placed) (hq : s.work.queued = i :: is) (ht : s.work.running.length < threads)
    (st : TaskState)
    (hskipped : st = .skipped → ∀ cmd, s.prepared[i]? = some (.ok cmd) → s.closed = true ∨ cmd.isInfoNode = true)
    (hrefused : st = .refused → ∀ cmd, s.prepared[i]? = some (.ok cmd) → cmd.refused = true)
    (hwaiting : st = .waiting → ∀ cmd, s.prepared[i]? ≠ some (.ok cmd)) :
    ({ s.setState i st with work := s.work.take threads } : WorkerPool P X C).Placed := by
  obtain ⟨-, hlt, his, -, hdone⟩ := h.head hq
  rw [take_eq hq ht]
  have hworks : ({ s.work with queued := is, running := s.work.running ++ [i] } : WorkQueue ℕ).works =
      s.work.works := by
    rw [← take_eq hq ht, WorkQueue.works_take]
  constructor
  · rw [hworks]
    exact h.nodup
  · intro j hj
    rw [hworks] at hj
    exact h.lt j hj
  · intro j cmd hcmd hstate
    by_cases hj : j = i
    · subst hj
      exact hskipped (by simpa [setState] using hstate) cmd hcmd
    · exact h.skipped j cmd hcmd (by simpa [setState, hj] using hstate)
  · intro j cmd hcmd hstate
    by_cases hj : j = i
    · subst hj
      exact hrefused (by simpa [setState] using hstate) cmd hcmd
    · exact h.refused j cmd hcmd (by simpa [setState, hj] using hstate)
  · intro j hj
    have hne : j ≠ i := by
      rintro rfl
      rcases hj with hj | hj
      · exact Nat.lt_irrefl _ (Nat.lt_of_lt_of_le hlt hj)
      · exact his hj
    have := h.fresh j (hj.imp_right fun hj => hq ▸ .tail _ hj)
    simpa [setState, hne] using this
  · intro j cmd hj hcmd
    by_cases hne : j = i
    · subst hne
      simpa [setState] using fun heq => hwaiting heq cmd hcmd
    · have hmem : j ∈ s.work.running ++ s.work.done := by simpa [hne] using hj
      simpa [setState, hne] using h.executed j cmd hmem hcmd
  · intro j hj
    have hne : j ≠ i := by
      rintro rfl
      exact hdone hj
    simpa [setState, hne] using h.returned j hj

theorem Recorded.skip (h : s.Recorded env) (hstate : s.state i = .waiting) (st : TaskState) (hst : ¬st.Entered) :
    ({ s.setState i st with work := s.work.take threads } : WorkerPool P X C).Recorded env := by
  constructor
  · exact h.orderly
  · exact h.submitted
  · show (tolds s.events ++ (s.work.take threads).works).Perm (List.range s.prepared.length)
    rw [WorkQueue.works_take]
    exact h.perm
  · exact h.closed
  · exact h.codes
  · exact h.asked
  · intro j
    by_cases hj : j = i
    · subst hj
      have := h.entered j
      simp only [hstate, TaskState.Entered, iff_false] at this
      simpa [setState, hst] using this
    · simpa [setState, hj] using h.entered j
  · intro j r
    by_cases hj : j = i
    · subst hj
      have hne : st ≠ .answered r := fun heq => hst (heq ▸ trivial)
      simpa [setState, hne, hstate] using h.answered j r
    · simpa [setState, hj] using h.answered j r

theorem Recorded.send (h : s.Recorded env) (hstate : s.state i = .waiting) {cmd : MethodCmd P X C}
    (hcmd : s.prepared[i]? = some (.ok cmd)) (hclosed : s.closed = false) (hrefused : cmd.refused = false) :
    ({ (s.setState i .asked).log (.asked i cmd) with work := s.work.take threads } : WorkerPool P X C).Recorded
      env := by
  have hnot : .closed ∉ s.events := by simp [h.closed, hclosed]
  have hasked : ∀ cmd', .asked i cmd' ∉ s.events := by
    have := h.entered i
    simpa [hstate, TaskState.Entered] using this
  constructor
  · exact Run.orderly_concat.mpr ⟨h.orderly, (congrArg (·[i]?) h.submitted).trans hcmd, hnot, hrefused, hasked⟩
  · exact (submissions_asked (l := s.events)).trans h.submitted
  · show (tolds (s.events ++ [.asked i cmd]) ++ (s.work.take threads).works).Perm (List.range s.prepared.length)
    rw [tolds_asked, WorkQueue.works_take]
    exact h.perm
  · show .closed ∈ s.events ++ [.asked i cmd] ↔ s.closed = true
    simp [h.closed]
  · exact h.codes
  · intro j cmd' hmem
    rcases List.mem_append.mp hmem with hmem | hmem
    · exact h.asked j cmd' hmem
    · obtain ⟨rfl, rfl⟩ := PoolEvent.asked.inj (List.mem_singleton.mp hmem)
      exact hcmd
  · intro j
    by_cases hj : j = i
    · subst hj
      simp [setState, log, TaskState.Entered]
    · simpa [setState, log, hj] using h.entered j
  · intro j r
    by_cases hj : j = i
    · subst hj
      simpa [setState, log, hstate] using h.answered j r
    · simpa [setState, log, hj] using h.answered j r

/-! A thread is done with its command. -/

section
variable {k : ℕ}

theorem finish_eq (hk : s.work.running[k]? = some i) :
    s.work.finish k = { s.work with running := s.work.running.eraseIdx k, done := s.work.done ++ [i] } := by
  rw [WorkQueue.finish, hk]

/-- The thread returns with what has become of its command. -/
theorem Placed.finish (h : s.Placed) (hk : s.work.running[k]? = some i) (st : TaskState) (hst : st ≠ .asked)
    (hold : st = s.state i ∨ ∃ r, st = .answered r) :
    ({ s.setState i st with work := s.work.finish k } : WorkerPool P X C).Placed := by
  have hperm := WorkQueue.perm_finish (q := s.work) k
  have hmem : i ∈ s.work.running := List.mem_of_getElem? hk
  have hlt : i < s.prepared.length := h.lt i (by simp [WorkQueue.works, hmem])
  have hqueued : i ∉ s.work.queued := by
    have hnodup := h.nodup
    simp only [WorkQueue.works, List.nodup_append, List.mem_append] at hnodup
    exact fun hi => hnodup.2.2 i (.inr hmem) i hi rfl
  constructor
  · exact hperm.nodup_iff.mpr h.nodup
  · exact fun j hj => h.lt j (hperm.mem_iff.mp hj)
  · intro j cmd hcmd hstate
    by_cases hj : j = i
    · subst hj
      have hst' : st = .skipped := by simpa [setState] using hstate
      rcases hold with rfl | ⟨r, rfl⟩
      · exact h.skipped j cmd hcmd hst'
      · cases hst'
    · exact h.skipped j cmd hcmd (by simpa [setState, hj] using hstate)
  · intro j cmd hcmd hstate
    by_cases hj : j = i
    · subst hj
      have hst' : st = .refused := by simpa [setState] using hstate
      rcases hold with rfl | ⟨r, rfl⟩
      · exact h.refused j cmd hcmd hst'
      · cases hst'
    · exact h.refused j cmd hcmd (by simpa [setState, hj] using hstate)
  · intro j hj
    rw [finish_eq hk] at hj
    have hne : j ≠ i := by
      rintro rfl
      rcases hj with hj | hj
      · exact Nat.lt_irrefl _ (Nat.lt_of_lt_of_le hlt hj)
      · exact hqueued hj
    simpa [setState, hne] using h.fresh j hj
  · intro j cmd hj hcmd
    rw [finish_eq hk] at hj
    by_cases hne : j = i
    · subst hne
      rcases hold with rfl | ⟨r, rfl⟩
      · simpa [setState] using h.executed j cmd (List.mem_append_left _ hmem) hcmd
      · simp [setState]
    · have hj' : j ∈ s.work.running ++ s.work.done := by
        rcases List.mem_append.mp hj with hj | hj
        · exact List.mem_append_left _ (List.mem_of_mem_eraseIdx hj)
        · simpa [hne] using List.mem_append_right s.work.running hj
      simpa [setState, hne] using h.executed j cmd hj' hcmd
  · intro j hj
    rw [finish_eq hk] at hj
    by_cases hne : j = i
    · subst hne
      simpa [setState] using hst
    · have hj' : j ∈ s.work.done := by simpa [hne] using hj
      simpa [setState, hne] using h.returned j hj'

theorem Recorded.finish (h : s.Recorded env) : ({ s with work := s.work.finish k } : WorkerPool P X C).Recorded env :=
  ⟨h.orderly, h.submitted, ((WorkQueue.perm_finish k).append_left _).trans h.perm, h.closed, h.codes, h.asked,
    h.entered, h.answered⟩

theorem Recorded.answer (h : s.Recorded env) (hstate : s.state i = .asked) (r : MethodReply) :
    ((s.setState i (.answered r)).log (.answered i r)).Recorded env := by
  have hasked : ∃ cmd, .asked i cmd ∈ s.events := (h.entered i).mpr (by simp [hstate, TaskState.Entered])
  have hnot : ∀ r, .answered i r ∉ s.events := fun r => by simp [h.answered, hstate]
  constructor
  · exact Run.orderly_concat.mpr ⟨h.orderly, hasked, hnot⟩
  · exact (submissions_answered (l := s.events)).trans h.submitted
  · show (tolds (s.events ++ [.answered i r]) ++ s.work.works).Perm (List.range s.prepared.length)
    rw [tolds_answered]
    exact h.perm
  · show .closed ∈ s.events ++ [.answered i r] ↔ s.closed = true
    simp [h.closed]
  · exact h.codes
  · intro j cmd hmem
    exact h.asked j cmd (by simpa [setState, log] using hmem)
  · intro j
    by_cases hj : j = i
    · subst hj
      have := h.entered j
      simp only [hstate, TaskState.Entered, iff_true] at this
      simpa [setState, log, TaskState.Entered] using this
    · simpa [setState, log, hj] using h.entered j
  · intro j r'
    by_cases hj : j = i
    · subst hj
      simp [setState, log, h.answered, hstate, eq_comm]
    · simpa [setState, log, hj] using h.answered j r'

end

/-! A command is responded to. -/

section
variable {ds : List ℕ}

theorem Placed.handBack (h : s.Placed) (hd : s.work.done = i :: ds) :
    ({ s with work := s.work.handBack } : WorkerPool P X C).Placed := by
  have hworks := WorkQueue.works_of_done hd
  have hdone : s.work.handBack.done = ds := by simp [WorkQueue.handBack, hd]
  have hnodup := h.nodup
  rw [hworks] at hnodup
  refine ⟨(List.nodup_cons.mp hnodup).2, fun j hj => h.lt j (hworks ▸ .tail _ hj), h.skipped, h.refused, h.fresh,
    ?_, ?_⟩
  · intro j cmd hj hcmd
    refine h.executed j cmd ?_ hcmd
    rw [List.mem_append] at hj ⊢
    refine hj.imp_right fun hj => ?_
    rw [hdone] at hj
    exact hd ▸ .tail _ hj
  · intro j hj
    rw [hdone] at hj
    exact h.returned j (hd ▸ .tail _ hj)

/-- What the callback is called with is what has become of the command. -/
theorem told (h : s.Recorded env) (hp : s.Placed) (hd : s.work.done = i :: ds)
    {p : Except AsError (MethodCmd P X C)} (hi : s.prepared[i]? = some p) :
    Told env s.events i (callOf env p (s.state i)) p := by
  have hmem : i ∈ s.work.done := hd ▸ .head _
  cases p with
  | error err =>
    refine ⟨h.codes err (List.mem_of_getElem? hi), rfl, fun cmd hasked => ?_⟩
    rw [h.asked i cmd hasked] at hi
    cases hi
  | ok cmd =>
    have hnot : ¬(s.state i).Entered → ∀ cmd, .asked i cmd ∉ s.events := fun hst cmd hasked =>
      hst ((h.entered i).mp ⟨cmd, hasked⟩)
    cases hstate : s.state i with
    | waiting => exact absurd hstate (hp.executed i cmd (List.mem_append_right _ hmem) hi)
    | asked => exact absurd hstate (hp.returned i hmem)
    | answered r => exact .inl ⟨r, (h.answered i r).mpr hstate, rfl⟩
    | refused => exact .inr ⟨hnot (by simp [hstate, TaskState.Entered]), .inl ⟨hp.refused i cmd hi hstate, rfl⟩⟩
    | skipped =>
      refine .inr ⟨hnot (by simp [hstate, TaskState.Entered]), .inr ⟨?_, rfl⟩⟩
      exact (hp.skipped i cmd hi hstate).imp_left h.closed.mpr

theorem Recorded.respond (h : s.Recorded env) (hp : s.Placed) (hd : s.work.done = i :: ds) :
    ({ s.respond env i with work := s.work.handBack } : WorkerPool P X C).Recorded env := by
  have hworks := WorkQueue.works_of_done hd
  have hlt : i < s.prepared.length := hp.lt i (hworks ▸ .head _)
  have hi := List.getElem?_eq_getElem hlt
  have htold := told h hp hd hi
  have hnot : i ∉ tolds s.events := by
    have hnodup := h.perm.nodup_iff.mpr List.nodup_range
    rw [hworks, List.nodup_append] at hnodup
    exact fun hmem => hnodup.2.2 i hmem i (.head _) rfl
  rw [WorkerPool.respond, hi]
  constructor
  · exact Run.orderly_concat.mpr ⟨h.orderly, hnot, _, (congrArg (·[i]?) h.submitted).trans hi, htold⟩
  · exact (submissions_told (l := s.events)).trans h.submitted
  · show (tolds (s.events ++ [.told i _]) ++ s.work.handBack.works).Perm (List.range s.prepared.length)
    rw [tolds_told, List.append_assoc, List.singleton_append, ← hworks]
    exact h.perm
  · show .closed ∈ s.events ++ [.told i _] ↔ s.closed = true
    simp [h.closed]
  · exact h.codes
  · intro j cmd hmem
    exact h.asked j cmd (by simpa [log, access] using hmem)
  · intro j
    simpa [log, access] using h.entered j
  · intro j r
    simpa [log, access] using h.answered j r

end

/-! ### Runs -/

theorem Placed.access (h : s.Placed) (as : List (Access ClientMemory)) : (s.access as).Placed :=
  ⟨h.nodup, h.lt, h.skipped, h.refused, h.fresh, h.executed, h.returned⟩

theorem Recorded.access (h : s.Recorded env) (as : List (Access ClientMemory)) : (s.access as).Recorded env :=
  ⟨h.orderly, h.submitted, h.perm, h.closed, h.codes, h.asked, h.entered, h.answered⟩

theorem setState_self (s : WorkerPool P X C) (i : ℕ) : s.setState i (s.state i) = s := by
  simp [setState, Function.update_eq_self]

theorem inv_execute (hp : s.Placed) (hr : s.Recorded env) (hq : s.work.queued = i :: is)
    (ht : s.work.running.length < threads) (nodeFound : Bool) :
    ({ s.execute i nodeFound with work := s.work.take threads } : WorkerPool P X C).Placed ∧
      ({ s.execute i nodeFound with work := s.work.take threads } : WorkerPool P X C).Recorded env := by
  have hstate := (hp.head hq).1
  unfold execute
  split
  · rename_i cmd hcmd
    have hcmd' : ∀ cmd', s.prepared[i]? = some (.ok cmd') → cmd = cmd' := fun cmd' h => by
      rw [hcmd] at h
      exact Except.ok.inj (Option.some.inj h)
    split_ifs with hclosed hrefused hnode
    · exact ⟨(hp.access _).take hq ht .skipped (fun _ _ _ => .inl hclosed) nofun nofun,
        (hr.access _).skip hstate _ nofun⟩
    · exact ⟨hp.take hq ht .refused nofun (fun _ cmd' h => hcmd' cmd' h ▸ hrefused) nofun, hr.skip hstate _ nofun⟩
    · rw [Bool.and_eq_true] at hnode
      exact ⟨(hp.access _).take hq ht .skipped (fun _ cmd' h => .inr (hcmd' cmd' h ▸ hnode.1)) nofun nofun,
        (hr.access _).skip hstate _ nofun⟩
    · have htake := (hp.access [use .log, use .cluster]).take hq ht .asked nofun nofun nofun
      refine ⟨⟨htake.nodup, htake.lt, htake.skipped, htake.refused, htake.fresh, htake.executed, htake.returned⟩, ?_⟩
      have hopen : s.closed = false := by simpa using hclosed
      exact (hr.access _).send hstate hcmd hopen (by simpa using hrefused)
  · rename_i hnone
    have htake := (hp.access [use .log]).take hq ht (s.state i) (fun h => by simp [hstate] at h)
      (fun h => by simp [hstate] at h) fun _ cmd hcmd => hnone cmd hcmd
    have hskip : ({ (s.access [use .log]).setState i (s.state i) with work := s.work.take threads } :
        WorkerPool P X C).Recorded env :=
      (hr.access _).skip hstate _ (by simp [hstate, TaskState.Entered])
    have hself := setState_self (s.access [use .log]) i
    exact ⟨hself ▸ htake, hself ▸ hskip⟩

theorem inv_finish {k : ℕ} (hp : s.Placed) (hr : s.Recorded env) (hk : s.work.running[k]? = some i) (r : MethodReply) :
    ({ s.complete i r with work := s.work.finish k } : WorkerPool P X C).Placed ∧
      ({ s.complete i r with work := s.work.finish k } : WorkerPool P X C).Recorded env := by
  unfold complete
  split
  · rename_i hstate
    have hplaced := (hp.access [use .cluster]).finish hk (.answered r) nofun (.inr ⟨r, rfl⟩)
    refine ⟨⟨hplaced.nodup, hplaced.lt, hplaced.skipped, hplaced.refused, hplaced.fresh, hplaced.executed,
      hplaced.returned⟩, ?_⟩
    exact ((hr.access _).answer hstate r).finish
  · rename_i hstate
    have hplaced := hp.finish hk (s.state i) hstate (.inl rfl)
    exact ⟨setState_self s i ▸ hplaced, hr.finish⟩

theorem inv_step {a : PoolAction} (h : s.Placed ∧ s.Recorded env) (ha : Allowed s a) :
    (step env threads s a).Placed ∧ (step env threads s a).Recorded env := by
  obtain ⟨hp, hr⟩ := h
  cases a with
  | submit m info =>
    rw [step]
    split_ifs
    · exact ⟨hp.submit _, hr.submit ha (WorkerMethod.failsWell_prepare info)⟩
    · exact ⟨hp, hr⟩
  | take nodeFound =>
    rw [step]
    split
    · exact ⟨hp, hr⟩
    · rename_i hq
      split_ifs with ht
      · exact inv_execute hp hr hq ht nodeFound
      · exact ⟨hp, hr⟩
  | finish k r =>
    rw [step]
    split
    · exact ⟨hp, hr⟩
    · rename_i hk
      exact inv_finish hp hr hk r
  | respond =>
    rw [step]
    split
    · exact ⟨hp, hr⟩
    · rename_i hd
      have hback := hp.handBack hd
      refine ⟨?_, hr.respond hp hd⟩
      unfold WorkerPool.respond
      split
      · exact ⟨hback.nodup, hback.lt, hback.skipped, hback.refused, hback.fresh, hback.executed, hback.returned⟩
      · exact hback
  | close => exact ⟨hp.close, hr.close ha⟩

/-- In any order of steps a command of the ten methods is sent once at most, not after the closing and not if it was
not prepared; each user is told at most once, and what came of the command; those who are not are the users of the
commands on their way. -/
theorem pool_orderly (threads : ℕ) {as : List PoolAction}
    (h : Run.AllSteps (step env threads) Allowed (start : WorkerPool P X C) as) :
    let s := Run.after (step env threads) (start : WorkerPool P X C) as
    Run.Orderly (InTurn env) s.events ∧
      (tolds s.events ++ s.work.works).Perm (List.range (submissions s.events).length) := by
  have hinv := h.invariant (I := fun s => s.Placed ∧ s.Recorded env) (fun _ _ hi ha => inv_step hi ha)
    ⟨placed_start, recorded_start⟩
  refine ⟨hinv.2.orderly, ?_⟩
  rw [hinv.2.submitted]
  exact hinv.2.perm

/-! ### What is used after the closing -/

/-- Nothing has been given up. -/
def Open (s : WorkerPool P X C) : Prop := s.closed = false ∧ ∀ r, release r ∉ s.accesses

/-- The client was closed when no command was on its way. -/
def Idle (s : WorkerPool P X C) : Prop := s.closed = true ∧ s.work.works = [] ∧ NoUseAfterRelease s.accesses

/-- The client was closed and a command is on its way, or something was used since. -/
def Doomed (s : WorkerPool P X C) : Prop :=
  release .log ∈ s.accesses ∧ (s.work.works ≠ [] ∨ ¬NoUseAfterRelease s.accesses)

theorem not_noUse_append {l l' : List (Access ClientMemory)} (h : ¬NoUseAfterRelease l) :
    ¬NoUseAfterRelease (l ++ l') :=
  fun h' => h (List.Pairwise.sublist (List.sublist_append_left l l') h')

theorem not_noUse_log {l : List (Access ClientMemory)} (h : release .log ∈ l) :
    ¬NoUseAfterRelease (l ++ [use .log]) := by
  obtain ⟨before, later, rfl⟩ := List.append_of_mem h
  intro hno
  rw [List.append_assoc, List.cons_append] at hno
  exact noUseAfterRelease_iff.mp hno .log before _ rfl (by simp)

/-- Until the client is closed its memory is only used. -/
theorem step_accesses (env : MethodEnv P X C) (threads : ℕ) (s : WorkerPool P X C) {a : PoolAction}
    (ha : a ≠ .close) :
    (step env threads s a).closed = s.closed ∧
      ∃ rs : List ClientMemory, (step env threads s a).accesses = s.accesses ++ rs.map use := by
  have hrefl : ∃ rs : List ClientMemory, s.accesses = s.accesses ++ rs.map use := ⟨[], by simp⟩
  cases a with
  | submit m info =>
    rw [step]
    split_ifs
    · exact ⟨rfl, [.log], rfl⟩
    · exact ⟨rfl, hrefl⟩
  | take nodeFound =>
    rw [step]
    split
    · exact ⟨rfl, hrefl⟩
    · split_ifs
      · unfold execute
        split
        · split_ifs
          · exact ⟨rfl, [.log], rfl⟩
          · exact ⟨rfl, hrefl⟩
          · exact ⟨rfl, [.log, .cluster], rfl⟩
          · exact ⟨rfl, [.log, .cluster], rfl⟩
        · exact ⟨rfl, [.log], rfl⟩
      · exact ⟨rfl, hrefl⟩
  | finish k r =>
    rw [step]
    split
    · exact ⟨rfl, hrefl⟩
    · unfold complete
      split
      · exact ⟨rfl, [.cluster], rfl⟩
      · exact ⟨rfl, hrefl⟩
  | respond =>
    rw [step]
    split
    · exact ⟨rfl, hrefl⟩
    · unfold respond
      split
      · exact ⟨rfl, [.log], rfl⟩
      · exact ⟨rfl, hrefl⟩
  | close => exact absurd rfl ha

theorem Open.step {a : PoolAction} (h : s.Open) (ha : a ≠ .close) : (step env threads s a).Open := by
  obtain ⟨hclosed, rs, haccesses⟩ := step_accesses env threads s ha
  refine ⟨hclosed.trans h.1, fun r hr => ?_⟩
  rw [haccesses, List.mem_append] at hr
  exact hr.elim (h.2 r) (by simp)

theorem Open.noUse (h : s.Open) : NoUseAfterRelease s.accesses := .of_none h.2

theorem Open.close_idle (h : s.Open) (hworks : s.work.works = []) : s.close.Idle := by
  refine ⟨rfl, hworks, ?_⟩
  have hclose : NoUseAfterRelease [use ClientMemory.log, release .cluster, release .log] := by
    simp [NoUseAfterRelease]
  exact h.noUse.append hclose fun r hr => absurd hr (h.2 r)

theorem close_doomed (hworks : s.work.works ≠ []) : s.close.Doomed := by
  refine ⟨?_, .inl hworks⟩
  show release .log ∈ s.accesses ++ [use .log, release .cluster, release .log]
  simp

/-- A closed client with no commands stays as it is. -/
theorem Idle.step {a : PoolAction} (h : s.Idle) (ha : Allowed s a) : (step env threads s a).Idle := by
  obtain ⟨hclosed, hworks, hno⟩ := h
  have hnil : s.work.done = [] ∧ s.work.running = [] ∧ s.work.queued = [] := by
    simpa [WorkQueue.works, and_assoc] using hworks
  cases a with
  | submit m info => exact absurd (hclosed.symm.trans ha) (by decide)
  | close => exact absurd (hclosed.symm.trans ha) (by decide)
  | take nodeFound =>
    rw [WorkerPool.step, hnil.2.2]
    exact ⟨hclosed, hworks, hno⟩
  | finish k r =>
    rw [WorkerPool.step, hnil.2.1]
    exact ⟨hclosed, hworks, hno⟩
  | respond =>
    rw [WorkerPool.step, hnil.1]
    exact ⟨hclosed, hworks, hno⟩

/-- A command that is on its way when the client is closed uses the log when it is responded to. -/
theorem Doomed.step {a : PoolAction} (h : s.Doomed) (hp : s.Placed) (ha : a ≠ .close) :
    (step env threads s a).Doomed := by
  obtain ⟨-, rs, haccesses⟩ := step_accesses env threads s ha
  obtain ⟨hreleased, hdoom⟩ := h
  have hmem : release .log ∈ (WorkerPool.step env threads s a).accesses := by
    rw [haccesses]
    exact List.mem_append_left _ hreleased
  rcases hdoom with hworks | hused
  · refine ⟨hmem, ?_⟩
    cases a with
    | submit m info =>
      left
      rw [WorkerPool.step]
      split_ifs
      · simp [WorkerPool.submit]
      · exact hworks
    | take nodeFound =>
      left
      rw [WorkerPool.step]
      split
      · exact hworks
      · split_ifs
        · simpa using hworks
        · exact hworks
    | finish k r =>
      left
      rw [WorkerPool.step]
      split
      · exact hworks
      · exact fun hnil => hworks (List.perm_nil.mp (hnil ▸ (WorkQueue.perm_finish k).symm))
    | respond =>
      rw [WorkerPool.step]
      split
      · exact .inl hworks
      · rename_i i ds hd
        right
        have hlt := hp.lt i (by simp [WorkQueue.works, hd])
        show ¬NoUseAfterRelease (s.respond env i).accesses
        rw [WorkerPool.respond, List.getElem?_eq_getElem hlt]
        exact not_noUse_log hreleased
    | close => exact absurd rfl ha
  · exact ⟨hmem, .inr (haccesses ▸ not_noUse_append hused)⟩

/-- From a client that is open. -/
theorem safe_iff_of_open {as : List PoolAction} (hinv : s.Placed ∧ s.Recorded env) (hopen : s.Open)
    (h : Run.AllSteps (step env threads) Allowed s as) (hworks : (Run.after (step env threads) s as).work.works = []) :
    NoUseAfterRelease (Run.after (step env threads) s as).accesses ↔
      Run.AllSteps (step env threads) ClosesIdle s as := by
  induction as generalizing s with
  | nil => exact iff_of_true hopen.noUse trivial
  | cons a as ih =>
    have hnext : (step env threads s a).Placed ∧ (step env threads s a).Recorded env := inv_step hinv h.1
    by_cases ha : a = .close
    · subst ha
      by_cases hidle : s.work.works = []
      · have hrest := h.2.invariant (I := Idle) (fun _ _ hi ha => hi.step ha) (hopen.close_idle hidle)
        refine iff_of_true hrest.2.2 ⟨hidle, ?_⟩
        refine h.2.imp (I := Idle) (fun _ _ hi ha => hi.step ha) (fun t b hi hb => ?_) (hopen.close_idle hidle)
        cases b with
        | close => exact hi.2.1
        | _ => trivial
      · refine iff_of_false (fun hno => ?_) fun hsteps => hidle hsteps.1
        have hrest := h.2.invariant (I := fun t => (t.Placed ∧ t.Recorded env) ∧ t.closed = true ∧ t.Doomed)
          (fun t b hi hb => ?_) ⟨hnext, rfl, close_doomed hidle⟩
        · exact hrest.2.2.2.elim (fun hne => hne hworks) fun hused => hused hno
        · have hb' : b ≠ .close := by
            rintro rfl
            exact absurd (hi.2.1.symm.trans hb) (by decide)
          refine ⟨inv_step hi.1 hb, ?_, hi.2.2.step hi.1.1 hb'⟩
          exact (step_accesses env threads _ hb').1.trans hi.2.1
    · rw [Run.AllSteps]
      have hidle : ClosesIdle s a := by
        cases a with
        | close => exact absurd rfl ha
        | _ => trivial
      rw [Run.after_cons, ih hnext (hopen.step ha) h.2 hworks]
      exact (and_iff_right hidle).symm

/-- When all commands of the ten methods are through, nothing has been used after the closing exactly if the client
was closed, if it was, when no command was on its way. -/
theorem pool_safe_iff (threads : ℕ) {as : List PoolAction}
    (h : Run.AllSteps (step env threads) Allowed (start : WorkerPool P X C) as)
    (hworks : (Run.after (step env threads) (start : WorkerPool P X C) as).work.works = []) :
    NoUseAfterRelease (Run.after (step env threads) (start : WorkerPool P X C) as).accesses ↔
      Run.AllSteps (step env threads) ClosesIdle (start : WorkerPool P X C) as :=
  safe_iff_of_open ⟨placed_start, recorded_start⟩ ⟨rfl, by simp [start]⟩ h hworks

end

/-- Nothing converts, and no file can be opened. -/
def bareEnv : MethodEnv Unit Unit Unit where
  infopolicy _ := none
  compile _ := none
  context _ := none
  file _ := .unopened
  basename _ := none
  err := -1
  err_ne := by decide
  errClient := -1
  errClient_ne := by decide
  func _ _ := []
  path _ _ := []
  line _ _ := 0

/-- A module is to be removed, but the client is closed before a thread comes to it. -/
def overtaken : List PoolAction :=
  [.submit .udfRemove [.str (JsString.lit "m"), .null, .func], .close, .take true,
    .finish 0 ⟨AsyncReply.noError, none, [], ⟨0, 0, 0⟩⟩, .respond]

/-- The user is told that the module was removed. -/
theorem overtaken_told : InTurn bareEnv [.submitted (.ok (.udfRemove none [109])), .closed]
    (.told 0 (some ⟨none, .undefined, .undefined, .undefined⟩)) :=
  have h : Run.AllSteps (step bareEnv 4) Allowed (start : WorkerPool Unit Unit Unit) overtaken := by decide
  (pool_orderly 4 h).1 _ _ [] rfl

theorem overtaken_unsafe :
    ¬NoUseAfterRelease (Run.after (step bareEnv 4) (start : WorkerPool Unit Unit Unit) overtaken).accesses :=
  have h : Run.AllSteps (step bareEnv 4) Allowed (start : WorkerPool Unit Unit Unit) overtaken := by decide
  (pool_safe_iff 4 h rfl).not.mpr fun hidle => List.cons_ne_nil 0 [] hidle.2.1

end WorkerPool

end AerospikeNode
