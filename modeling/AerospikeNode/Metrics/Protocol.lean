import AerospikeNode.Lib.Run
import AerospikeNode.Lib.WorkQueue

/-!
# Metrics listeners and their callbacks

The C client calls the listeners of `src/main/commands/enable_metrics.cc` on its own threads. Each queues a
work that does nothing, and the callback of the user runs when the event loop is handed that work back.
The works of all listeners share one `MetricsCommand`, which the response to `disable_listener` deletes.

`metrics_safe_iff`: the command is not used after that in any order in which the threads do the works exactly if
there is one thread. `metrics_orderly`: what the user is told, in any order. `metrics_inOrder`: with one
thread it is what the listeners were called for, in order, up to the disabling.
-/

namespace AerospikeNode.Metrics

/-- A call of a listener, or of the callback that goes with it. -/
inductive Notice (ν : Type) where
  | enabled
  | snapshot
  | nodeClose (node : ν)
  | disabled
deriving DecidableEq

/-- A `uv_work_t`: that of the command itself, that of a listener's call, which points at the command but does
not carry the node, or that of another command. -/
inductive Work (ν : Type) where
  | command
  | notice (n : Notice ν)
  | other
deriving DecidableEq

inductive MetricsEvent (ν : Type) where
  | called (n : Notice ν)
  /-- The callback of `enableMetrics`. -/
  | settled
  | told (n : Notice ν)
deriving DecidableEq

/-- What the responses read of a `MetricsCommand`. -/
structure Listening (ν : Type) where
  disabled : Bool
  node : Option ν

structure Protocol (ν : Type) where
  /-- `none` once the command is deleted. -/
  cmd : Option (Listening ν)
  clientClosed : Bool
  work : WorkQueue (Work ν)
  /-- Memory has been read that was released or never set; nothing is said of what follows. -/
  fault : Bool
  events : List (MetricsEvent ν)

inductive ProtocolAction (ν : Type) where
  /-- The C client calls a listener. -/
  | call (n : Notice ν)
  /-- Another command queues its work. -/
  | submit
  | take
  | finish (i : ℕ)
  /-- The event loop is handed a work back. -/
  | respond
  /-- The client is closed. -/
  | close
deriving DecidableEq

namespace Notice
variable {ν : Type}

/-- A notice without its node. -/
def kind : Notice ν → Notice Unit
  | enabled => .enabled
  | snapshot => .snapshot
  | nodeClose _ => .nodeClose ()
  | disabled => .disabled

end Notice

namespace Protocol
variable {ν : Type}

/-- `async_invoke` has queued the work of the command. -/
def start : Protocol ν := ⟨some ⟨false, none⟩, false, WorkQueue.empty.submit .command, false, []⟩

def log (s : Protocol ν) (e : MetricsEvent ν) : Protocol ν := { s with events := s.events ++ [e] }

/-- `async_invoke_metrics_callback` -/
def invoke (s : Protocol ν) (n : Notice ν) : Protocol ν := { s with work := s.work.submit (.notice n) }

/-- `enable_listener`, `snapshot_listener`, `node_close_listener` and `disable_listener`. -/
def listener (s : Protocol ν) (n : Notice ν) : Protocol ν :=
  match s.cmd with
  | none => { s with fault := true }
  | some cmd =>
    let s := s.log (.called n)
    match n with
    | .disabled => { s with cmd := some { cmd with disabled := true } }.invoke n
    | .nodeClose node => if cmd.disabled then s else { s with cmd := some { cmd with node := some node } }.invoke n
    | _ => if cmd.disabled then s else s.invoke n

/-- `respond_enable`, `respond_snapshot`, `respond_node_close` and `respond_disable`. -/
def respondNotice (s : Protocol ν) (cmd : Listening ν) (n : Notice ν) : Protocol ν :=
  match n with
  | .disabled =>
    let s := if s.clientClosed then s else s.log (.told .disabled)
    { s with cmd := none }
  | .nodeClose _ =>
    if cmd.disabled || s.clientClosed then s
    else match cmd.node with
      | some node => s.log (.told (.nodeClose node))
      | none => { s with fault := true }
  | n => if cmd.disabled || s.clientClosed then s else s.log (.told n)

/-- The response to a work that is handed back. -/
def respond (s : Protocol ν) : Work ν → Protocol ν
  | .other => s
  | .command =>
    match s.cmd with
    | none => { s with fault := true }
    | some _ => s.log .settled
  | .notice n =>
    match s.cmd with
    | none => { s with fault := true }
    | some cmd => s.respondNotice cmd n

def step (threads : ℕ) (s : Protocol ν) (a : ProtocolAction ν) : Protocol ν :=
  if s.fault then s
  else match a with
    | .call n => s.listener n
    | .submit => { s with work := s.work.submit .other }
    | .take => { s with work := s.work.take threads }
    | .finish i => { s with work := s.work.finish i }
    | .respond =>
      match s.work.done with
      | [] => s
      | w :: _ => { s with work := s.work.handBack }.respond w
    | .close => { s with clientClosed := true }

/-- The calls of the listeners. -/
def calls (events : List (MetricsEvent ν)) : List (Notice ν) :=
  events.filterMap fun e => match e with | .called n => some n | _ => none

/-- What the user is told. -/
def tolds (events : List (MetricsEvent ν)) : List (Notice ν) :=
  events.filterMap fun e => match e with | .told n => some n | _ => none

/-- The notices among works. -/
def notices (works : List (Work ν)) : List (Notice ν) :=
  works.filterMap fun w => match w with | .notice n => some n | _ => none

/-- The C client calls listeners once `aerospike_enable_metrics` is running, and none after `disable_listener`. -/
def Allowed (s : Protocol ν) : ProtocolAction ν → Prop
  | .call _ => .command ∉ s.work.queued ∧ .disabled ∉ calls s.events
  | _ => True

instance [DecidableEq ν] (s : Protocol ν) : (a : ProtocolAction ν) → Decidable (Allowed s a)
  | .call _ => inferInstanceAs (Decidable (_ ∧ _))
  | .submit | .take | .finish _ | .respond | .close => instDecidableTrue

/-- The node of the last call of `node_close_listener`. -/
def lastNode (events : List (MetricsEvent ν)) : Option ν :=
  ((calls events).filterMap fun n => match n with | .nodeClose node => some node | _ => none).getLast?

/-- What holds when the user is told something: nothing but the disabling is told once `disable_listener` is
called, that is told once, and a node is the one of the last call. -/
def InTurn (before : List (MetricsEvent ν)) : MetricsEvent ν → Prop
  | .called _ => .disabled ∉ calls before
  | .settled => .settled ∉ before
  | .told .disabled => .disabled ∈ calls before ∧ .disabled ∉ tolds before
  | .told (.nodeClose node) => .disabled ∉ calls before ∧ lastNode before = some node
  | .told _ => .disabled ∉ calls before

/-- What a call of a listener makes of the command. -/
def called (cmd : Listening ν) : Notice ν → Listening ν
  | .disabled => { cmd with disabled := true }
  | .nodeClose node => { cmd with node := some node }
  | _ => cmd

/-! ### Logs and works -/

section
variable {l : List (MetricsEvent ν)} {ws : List (Work ν)} {n : Notice ν}

@[simp]
theorem calls_called : calls (l ++ [.called n]) = calls l ++ [n] := by simp [calls]

@[simp]
theorem calls_told : calls (l ++ [.told n]) = calls l := by simp [calls]

@[simp]
theorem calls_settled : calls (l ++ [.settled]) = calls l := by simp [calls]

@[simp]
theorem tolds_called : tolds (l ++ [.called n]) = tolds l := by simp [tolds]

@[simp]
theorem tolds_told : tolds (l ++ [.told n]) = tolds l ++ [n] := by simp [tolds]

@[simp]
theorem tolds_settled : tolds (l ++ [.settled]) = tolds l := by simp [tolds]

@[simp]
theorem notices_notice : notices (.notice n :: ws) = n :: notices ws := by simp [notices]

@[simp]
theorem notices_command : notices (.command :: ws) = notices ws := by simp [notices]

@[simp]
theorem notices_other : notices (.other :: ws) = notices ws := by simp [notices]

@[simp]
theorem notices_concat_notice : notices (ws ++ [.notice n]) = notices ws ++ [n] := by simp [notices]

@[simp]
theorem notices_concat_other : notices (ws ++ [.other]) = notices ws := by simp [notices]

theorem mem_notices : n ∈ notices ws ↔ .notice n ∈ ws := by
  unfold notices
  rw [List.mem_filterMap]
  constructor
  · rintro ⟨w, hw, hn⟩
    cases w with
    | notice m => exact Option.some.inj hn ▸ hw
    | command => cases hn
    | other => cases hn
  · exact fun h => ⟨.notice n, h, rfl⟩

@[simp]
theorem lastNode_nodeClose {node : ν} : lastNode (l ++ [.called (.nodeClose node)]) = some node := by
  simp [lastNode]

theorem lastNode_called (h : ∀ node, n ≠ .nodeClose node) : lastNode (l ++ [.called n]) = lastNode l := by
  cases n with
  | nodeClose node => exact absurd rfl (h node)
  | _ => simp [lastNode]

@[simp]
theorem lastNode_told : lastNode (l ++ [.told n]) = lastNode l := by simp [lastNode]

@[simp]
theorem lastNode_settled : lastNode (l ++ [.settled]) = lastNode l := by simp [lastNode]

theorem mem_kinds {ns : List (Notice ν)} : .disabled ∈ ns.map Notice.kind ↔ .disabled ∈ ns := by
  rw [List.mem_map]
  constructor
  · rintro ⟨m, hm, hk⟩
    cases m with
    | disabled => exact hm
    | _ => cases hk
  · exact fun h => ⟨.disabled, h, rfl⟩

end

/-- How often a kind occurs among notices. -/
def count (k : Notice Unit) (ns : List (Notice ν)) : ℕ := (ns.map Notice.kind).count k

@[simp]
theorem count_cons (k : Notice Unit) (n : Notice ν) (ns : List (Notice ν)) :
    count k (n :: ns) = count k ns + if n.kind = k then 1 else 0 := by
  simp [count, List.count_cons]

@[simp]
theorem count_concat (k : Notice Unit) (n : Notice ν) (ns : List (Notice ν)) :
    count k (ns ++ [n]) = count k ns + if n.kind = k then 1 else 0 := by
  simp [count, List.count_append, List.count_singleton]

theorem count_disabled_pos {ns : List (Notice ν)} : 0 < count .disabled ns ↔ .disabled ∈ ns := by
  rw [count, List.count_pos_iff, mem_kinds]

theorem listener_eq {s : Protocol ν} {cmd : Listening ν} (hcmd : s.cmd = some cmd) (hd : cmd.disabled = false)
    (n : Notice ν) :
    s.listener n = { s with
      cmd := some (called cmd n), work := s.work.submit (.notice n), events := s.events ++ [.called n] } := by
  obtain ⟨cmd', closed, work, fault, events⟩ := s
  obtain rfl : cmd' = some cmd := hcmd
  cases n <;> simp [listener, log, invoke, called, hd]

/-! ### Any number of threads -/

variable [DecidableEq ν]

/-- What holds in any order of the works. -/
structure Consistent (s : Protocol ν) : Prop where
  orderly : Run.Orderly InTurn s.events
  disabled : ∀ cmd, s.cmd = some cmd → (cmd.disabled = true ↔ .disabled ∈ calls s.events)
  node : ∀ cmd, s.cmd = some cmd → cmd.disabled = false → cmd.node = lastNode s.events
  nodes : ∀ m, .notice (.nodeClose m) ∈ s.work.works → ∃ node, lastNode s.events = some node
  counts : ∀ k, count k (tolds s.events) + count k (notices s.work.works) ≤ count k (calls s.events)
  once : count .disabled (calls s.events) ≤ 1
  deleted : s.cmd = none → .disabled ∈ calls s.events ∧ .notice .disabled ∉ s.work.works
  settles : s.fault = false → s.events.count .settled + s.work.works.count .command = 1
  deletes : s.fault = false → .disabled ∈ calls s.events → s.cmd = none ∨ .notice .disabled ∈ s.work.works
  tells : s.cmd = none → .disabled ∈ tolds s.events ∨ s.clientClosed = true

namespace Consistent
variable {s : Protocol ν}

theorem start : (start : Protocol ν).Consistent where
  orderly := .nil
  disabled := by rintro _ ⟨⟩; simp [calls, Protocol.start]
  node := by rintro _ ⟨⟩ -; rfl
  nodes := by simp [Protocol.start, WorkQueue.works, WorkQueue.empty, WorkQueue.submit]
  counts := fun k => Nat.le_of_eq rfl
  once := Nat.zero_le 1
  deleted := nofun
  settles := fun _ => rfl
  deletes := fun _ h => absurd h List.not_mem_nil
  tells := nofun

/-- The threads' progress changes nothing. -/
theorem of_perm (h : s.Consistent) {q : WorkQueue (Work ν)} (hq : q.works.Perm s.work.works) :
    ({ s with work := q } : Protocol ν).Consistent where
  orderly := h.orderly
  disabled := h.disabled
  node := h.node
  nodes := fun m hm => h.nodes m (hq.mem_iff.mp hm)
  counts := fun k => by
    rw [show count k (notices q.works) = count k (notices s.work.works) from
      ((hq.filterMap _).map _).count_eq k]
    exact h.counts k
  once := h.once
  deleted := fun hc => ⟨(h.deleted hc).1, fun hm => (h.deleted hc).2 (hq.mem_iff.mp hm)⟩
  settles := fun hf => by
    rw [show q.works.count .command = s.work.works.count .command from hq.count_eq _]
    exact h.settles hf
  deletes := fun hf hd => (h.deletes hf hd).imp_right hq.mem_iff.mpr
  tells := h.tells

theorem submit (h : s.Consistent) : ({ s with work := s.work.submit .other } : Protocol ν).Consistent where
  orderly := h.orderly
  disabled := h.disabled
  node := h.node
  nodes := by simpa using h.nodes
  counts := by simpa using h.counts
  once := h.once
  deleted := by simpa using h.deleted
  settles := by simpa [List.count_append] using h.settles
  deletes := by simpa using h.deletes
  tells := h.tells

theorem close (h : s.Consistent) : ({ s with clientClosed := true } : Protocol ν).Consistent :=
  { h with tells := fun _ => .inr rfl }

theorem listener (h : s.Consistent) (n : Notice ν) (hn : .disabled ∉ calls s.events) : (s.listener n).Consistent := by
  cases hcmd : s.cmd with
  | none => exact absurd (h.deleted hcmd).1 hn
  | some cmd =>
    have hd : cmd.disabled = false := by
      rw [← Bool.not_eq_true, h.disabled cmd hcmd]
      exact hn
    have hcount : count .disabled (calls s.events) = 0 := by
      have := count_disabled_pos.not.mpr hn
      omega
    have hnodes : ∀ m ∈ lastNode s.events, ∃ node, lastNode (s.events ++ [.called n]) = some node := by
      intro m hm
      cases n with
      | nodeClose node => exact ⟨node, lastNode_nodeClose⟩
      | _ => exact ⟨m, (lastNode_called nofun).trans hm⟩
    rw [listener_eq hcmd hd]
    constructor
    · exact Run.orderly_concat.mpr ⟨h.orderly, hn⟩
    · rintro _ ⟨⟩
      cases n <;> simp [called, hd, hn]
    · rintro _ ⟨⟩ hd'
      cases n with
      | nodeClose node => exact lastNode_nodeClose.symm
      | disabled => cases hd'
      | _ => exact (h.node cmd hcmd hd).trans (lastNode_called nofun).symm
    · intro m hm
      rw [WorkQueue.works_submit] at hm
      rcases List.mem_append.mp hm with hm | hm
      · obtain ⟨node, hnode⟩ := h.nodes m hm
        exact hnodes node hnode
      · obtain rfl : Notice.nodeClose m = n := Work.notice.inj (List.mem_singleton.mp hm)
        exact ⟨m, lastNode_nodeClose⟩
    · intro k
      have := h.counts k
      simp only [tolds_called, calls_called, WorkQueue.works_submit, notices_concat_notice, count_concat]
      omega
    · simp only [calls_called, count_concat, hcount]
      split_ifs <;> omega
    · exact nofun
    · intro hf
      simpa [List.count_append] using h.settles hf
    · intro _ hcall
      right
      rw [calls_called, List.mem_append, List.mem_singleton] at hcall
      rw [WorkQueue.works_submit, ← hcall.resolve_left hn]
      simp
    · exact nofun

section
variable {q : WorkQueue (Work ν)} {w : Work ν} {n : Notice ν}

/-- A work is handed back and nothing follows from it, except perhaps a fault. -/
theorem tail (h : s.Consistent) (hq : s.work.works = w :: q.works) (fault : Bool)
    (hf : fault = false → s.fault = false ∧ w ≠ .command ∧ w ≠ .notice .disabled) :
    ({ s with work := q, fault := fault } : Protocol ν).Consistent where
  orderly := h.orderly
  disabled := h.disabled
  node := h.node
  nodes := fun m hm => h.nodes m (hq ▸ List.mem_cons_of_mem w hm)
  counts := fun k => by
    have hk := h.counts k
    rw [hq] at hk
    cases w with
    | notice n => exact Nat.le_trans (by simp) hk
    | _ => exact hk
  once := h.once
  deleted := fun hc => ⟨(h.deleted hc).1, fun hm => (h.deleted hc).2 (hq ▸ List.mem_cons_of_mem w hm)⟩
  settles := fun hfault => by
    obtain ⟨hs, hw, -⟩ := hf hfault
    have := h.settles hs
    rwa [hq, List.count_cons_of_ne hw] at this
  deletes := fun hfault hd => by
    obtain ⟨hs, -, hw⟩ := hf hfault
    have := h.deletes hs hd
    rw [hq] at this
    exact this.imp_right fun hm => List.mem_of_ne_of_mem hw.symm hm
  tells := h.tells

/-- The user is told of a call other than that of `disable_listener`. -/
theorem told (h : s.Consistent) (hf : s.fault = false) (hq : s.work.works = .notice n :: q.works) {m : Notice ν}
    (hk : m.kind = n.kind) (hn : n ≠ .disabled) (hturn : InTurn s.events (.told m)) :
    (log { s with work := q } (.told m)).Consistent := by
  have htail := h.tail hq s.fault fun _ => ⟨hf, nofun, fun hw => hn (Work.notice.inj hw)⟩
  constructor
  · exact Run.orderly_concat.mpr ⟨h.orderly, hturn⟩
  · simpa [log] using htail.disabled
  · simpa [log] using htail.node
  · simpa [log] using htail.nodes
  · intro k
    have hcount := h.counts k
    rw [hq, notices_notice, count_cons, ← hk] at hcount
    simp only [log, tolds_told, calls_told, count_concat]
    omega
  · simpa [log] using htail.once
  · simpa [log] using htail.deleted
  · simpa [log, List.count_append] using htail.settles
  · simpa [log] using htail.deletes
  · intro hc
    exact (htail.tells hc).imp_left fun ht => by simp [log, ht]

theorem settled (h : s.Consistent) (hf : s.fault = false) (hq : s.work.works = .command :: q.works) :
    (log { s with work := q } .settled).Consistent := by
  have hcount := h.settles hf
  rw [hq, List.count_cons_self] at hcount
  have htail := h.tail hq true nofun
  constructor
  · exact Run.orderly_concat.mpr ⟨h.orderly, List.count_eq_zero.mp (by show s.events.count .settled = 0; omega)⟩
  · simpa [log] using htail.disabled
  · simpa [log] using htail.node
  · simpa [log] using htail.nodes
  · simpa [log] using htail.counts
  · simpa [log] using htail.once
  · simpa [log] using htail.deleted
  · intro _
    simp only [log, List.count_append, List.count_singleton_self]
    omega
  · intro _ hd
    have hdel := h.deletes hf (by simpa [log] using hd)
    rw [hq] at hdel
    exact hdel.imp_right fun hm => (List.mem_cons.mp hm).resolve_left (by simp)
  · simpa [log] using htail.tells

/-- The response to `disable_listener`. -/
theorem deleted_of_disabled (h : s.Consistent) (hf : s.fault = false)
    (hq : s.work.works = .notice .disabled :: q.works) :
    ({ (if s.clientClosed then { s with work := q } else log { s with work := q } (.told .disabled)) with
      cmd := none } : Protocol ν).Consistent := by
  have hcount := h.counts .disabled
  rw [hq, notices_notice, count_cons] at hcount
  have honce := h.once
  have hkind : (Notice.disabled : Notice ν).kind = .disabled := rfl
  rw [if_pos hkind] at hcount
  have hcalled : .disabled ∈ calls s.events := count_disabled_pos.mp (by omega)
  have htold : .disabled ∉ tolds s.events := fun hm => by
    have := count_disabled_pos.mpr hm
    omega
  have hgone : .notice .disabled ∉ q.works := fun hm => by
    have := count_disabled_pos.mpr (mem_notices.mpr hm)
    omega
  have htail := h.tail hq true nofun
  have hsettles : s.events.count .settled + q.works.count .command = 1 := by
    have := h.settles hf
    rwa [hq, List.count_cons_of_ne (by simp)] at this
  split_ifs with hc
  · exact ⟨h.orderly, nofun, nofun, htail.nodes, htail.counts, h.once, fun _ => ⟨hcalled, hgone⟩,
      fun _ => hsettles, fun _ _ => .inl rfl, fun _ => .inr hc⟩
  · constructor
    · exact Run.orderly_concat.mpr ⟨h.orderly, hcalled, htold⟩
    · exact nofun
    · exact nofun
    · simpa [log] using htail.nodes
    · intro k
      have hk := h.counts k
      rw [hq, notices_notice, count_cons] at hk
      simp only [log, tolds_told, calls_told, count_concat]
      omega
    · simpa [log] using h.once
    · exact fun _ => ⟨by simpa [log] using hcalled, hgone⟩
    · exact fun _ => by simpa [log, List.count_append] using hsettles
    · exact fun _ _ => .inl rfl
    · exact fun _ => .inl (by simp [log])

theorem respondNotice (h : s.Consistent) (hf : s.fault = false) (hq : s.work.works = .notice n :: q.works)
    {cmd : Listening ν} (hcmd : s.cmd = some cmd) :
    (({ s with work := q } : Protocol ν).respondNotice cmd n).Consistent := by
  have hskip : n ≠ .disabled → ({ s with work := q } : Protocol ν).Consistent := fun hn =>
    h.tail hq s.fault fun _ => ⟨hf, nofun, fun hw => hn (Work.notice.inj hw)⟩
  have hcalls : cmd.disabled = false → .disabled ∉ calls s.events := fun hd hm => by
    rw [(h.disabled cmd hcmd).mpr hm] at hd
    cases hd
  cases n with
  | disabled => exact h.deleted_of_disabled hf hq
  | nodeClose m =>
    unfold Protocol.respondNotice
    dsimp only
    split_ifs with hc
    · exact hskip nofun
    · have hd := (Bool.or_eq_false_iff.mp (Bool.not_eq_true _ ▸ hc)).1
      split
      · rename_i node hnode
        exact h.told hf hq rfl nofun ⟨hcalls hd, (h.node cmd hcmd hd).symm.trans hnode⟩
      · exact h.tail hq true nofun
  | enabled =>
    unfold Protocol.respondNotice
    dsimp only
    split_ifs with hc
    · exact hskip nofun
    · exact h.told hf hq rfl nofun (hcalls (Bool.or_eq_false_iff.mp (Bool.not_eq_true _ ▸ hc)).1)
  | snapshot =>
    unfold Protocol.respondNotice
    dsimp only
    split_ifs with hc
    · exact hskip nofun
    · exact h.told hf hq rfl nofun (hcalls (Bool.or_eq_false_iff.mp (Bool.not_eq_true _ ▸ hc)).1)

theorem respond (h : s.Consistent) (hf : s.fault = false) (hq : s.work.works = w :: q.works) :
    (({ s with work := q } : Protocol ν).respond w).Consistent := by
  cases w with
  | other => exact h.tail hq s.fault fun _ => ⟨hf, nofun, nofun⟩
  | command =>
    unfold Protocol.respond
    dsimp only
    split
    · exact h.tail hq true nofun
    · exact h.settled hf hq
  | notice n =>
    unfold Protocol.respond
    dsimp only
    split
    · exact h.tail hq true nofun
    · rename_i cmd hcmd
      exact h.respondNotice hf hq hcmd

end

theorem step (threads : ℕ) (s : Protocol ν) (a : ProtocolAction ν) (h : s.Consistent) (ha : s.Allowed a) :
    (s.step threads a).Consistent := by
  unfold Protocol.step
  split_ifs with hf
  · exact h
  · rw [Bool.not_eq_true] at hf
    cases a with
    | call n => exact h.listener n ha.2
    | submit => exact h.submit
    | take => exact h.of_perm (.of_eq (WorkQueue.works_take threads))
    | finish i => exact h.of_perm (WorkQueue.perm_finish i)
    | respond =>
      dsimp only
      split
      · exact h
      · rename_i w ds hdone
        exact h.respond hf (WorkQueue.works_of_done hdone)
    | close => exact h.close

end Consistent

/-- What the user is told by the time a run has led to the state. -/
structure Told (s : Protocol ν) : Prop where
  inTurn : Run.Orderly InTurn s.events
  noMore : ∀ k, count k (tolds s.events) ≤ count k (calls s.events)
  settled : s.fault = false → s.work.works = [] → s.events.count .settled = 1
  deleted : s.fault = false → s.work.works = [] → (s.cmd = none ↔ .disabled ∈ calls s.events)
  disabled : s.cmd = none → s.clientClosed = false → .disabled ∈ tolds s.events

/-- In whatever order the works are done, the user is told things in turn, and of no call more than once. When
all works have been handed back the promise of `enableMetrics` is settled, and the command is deleted if
`disable_listener` has been called, the user being told unless the client is closed. -/
theorem metrics_orderly (threads : ℕ) {as : List (ProtocolAction ν)}
    (h : Run.AllSteps (step threads) Allowed (start : Protocol ν) as) : (Run.after (step threads) start as).Told := by
  have hinv := h.invariant (Consistent.step threads) Consistent.start
  generalize Run.after (step threads) start as = s at hinv
  refine ⟨hinv.orderly, fun k => ?_, fun hf hworks => ?_, fun hf hworks => ?_, fun hc hopen => ?_⟩
  · have := hinv.counts k
    omega
  · have := hinv.settles hf
    rwa [hworks] at this
  · refine ⟨fun hc => (hinv.deleted hc).1, fun hd => (hinv.deletes hf hd).resolve_right ?_⟩
    rw [hworks]
    exact List.not_mem_nil
  · exact (hinv.tells hc).resolve_right (by simp [hopen])

/-- Two nodes are closed before the user is told of either. -/
theorem told_twoNodes : (Run.after (step 4) (start : Protocol ℕ)
    [.take, .finish 0, .respond, .call (.nodeClose 1), .call (.nodeClose 2), .take, .take, .finish 1, .respond,
      .finish 0, .respond, .call .disabled, .take, .finish 0, .respond]).Told :=
  metrics_orderly 4 (by decide)

/-! ### One thread -/

/-- What holds in addition if the works are done one after another. -/
structure InOrder (s : Protocol ν) : Prop where
  consistent : s.Consistent
  running : s.work.running.length ≤ 1
  /-- No work for the command is behind that of `disable_listener`. -/
  last : Run.Orderly (fun before w => .notice .disabled ∈ before → w = .other) s.work.works
  gone : s.cmd = none → ∀ w ∈ s.work.works, w = .other
  fault : s.fault = false
  /-- Nothing has been passed over before the disabling or the closing. -/
  live : ∀ cmd, s.cmd = some cmd → cmd.disabled = false → s.clientClosed = false →
    ((tolds s.events ++ notices s.work.works).map Notice.kind) = (calls s.events).map Notice.kind
  order : ((tolds s.events).map Notice.kind).filter (· ≠ .disabled) <+: (calls s.events).map Notice.kind

namespace InOrder
variable {s : Protocol ν}

theorem start : (start : Protocol ν).InOrder where
  consistent := .start
  running := Nat.zero_le 1
  last := by
    rintro before w later h hm
    have hlen := congrArg List.length h
    cases before with
    | nil => exact absurd hm List.not_mem_nil
    | cons v before => simp [Protocol.start, WorkQueue.works, WorkQueue.empty, WorkQueue.submit] at hlen
  gone := nofun
  fault := rfl
  live := fun _ _ _ _ => rfl
  order := List.nil_prefix

theorem not_called (h : s.InOrder) {cmd : Listening ν} (hcmd : s.cmd = some cmd) (hd : cmd.disabled = false) :
    .disabled ∉ calls s.events := fun hm => by
  rw [(h.consistent.disabled cmd hcmd).mpr hm] at hd
  cases hd

/-- The thread's progress changes nothing. -/
theorem progress (h : s.InOrder) {q : WorkQueue (Work ν)} (hq : q.works = s.work.works) (hrun : q.running.length ≤ 1) :
    ({ s with work := q } : Protocol ν).InOrder where
  consistent := h.consistent.of_perm (.of_eq hq)
  running := hrun
  last := hq ▸ h.last
  gone := hq ▸ h.gone
  fault := h.fault
  live := hq ▸ h.live
  order := h.order

theorem submit (h : s.InOrder) : ({ s with work := s.work.submit .other } : Protocol ν).InOrder where
  consistent := h.consistent.submit
  running := h.running
  last := by
    rw [WorkQueue.works_submit]
    exact Run.orderly_concat.mpr ⟨h.last, fun _ => rfl⟩
  gone := fun hc w hw => by
    rw [WorkQueue.works_submit] at hw
    exact (List.mem_append.mp hw).elim (h.gone hc w) List.mem_singleton.mp
  fault := h.fault
  live := by simpa using h.live
  order := h.order

theorem listener (h : s.InOrder) (n : Notice ν) (hn : .disabled ∉ calls s.events) : (s.listener n).InOrder := by
  cases hcmd : s.cmd with
  | none => exact absurd (h.consistent.deleted hcmd).1 hn
  | some cmd =>
    have hd : cmd.disabled = false := by
      rw [← Bool.not_eq_true, h.consistent.disabled cmd hcmd]
      exact hn
    have hpending : .notice .disabled ∉ s.work.works := fun hm => by
      have := count_disabled_pos.mpr (mem_notices.mpr hm)
      have := count_disabled_pos.not.mpr hn
      have := h.consistent.counts .disabled
      omega
    have hcons := h.consistent.listener n hn
    rw [listener_eq hcmd hd] at hcons ⊢
    refine ⟨hcons, h.running, ?_, nofun, h.fault, ?_, ?_⟩
    · rw [WorkQueue.works_submit]
      exact Run.orderly_concat.mpr ⟨h.last, fun hm => absurd hm hpending⟩
    · rintro _ ⟨⟩ hd' hopen
      have hlive := h.live cmd hcmd hd hopen
      simp only [tolds_called, calls_called, WorkQueue.works_submit, notices_concat_notice]
      rw [← List.append_assoc, List.map_append, hlive, List.map_append]
    · simp only [tolds_called, calls_called, List.map_append]
      exact h.order.trans (List.prefix_append _ _)

section
variable {q : WorkQueue (Work ν)} {w : Work ν} {n : Notice ν}

theorem last_tail (h : s.InOrder) (hq : s.work.works = w :: q.works) :
    Run.Orderly (fun before w => .notice .disabled ∈ before → w = .other) q.works := by
  rintro before v later hl hm
  exact h.last (w :: before) v later (by rw [hq, hl]; rfl) (List.mem_cons_of_mem w hm)

/-- What is behind the work of `disable_listener`. -/
theorem other_of_disabled (h : s.InOrder) (hq : s.work.works = .notice .disabled :: q.works) :
    ∀ w ∈ q.works, w = .other := by
  intro w hw
  obtain ⟨before, later, hl⟩ := List.append_of_mem hw
  exact h.last (.notice .disabled :: before) w later (by rw [hq, hl]; rfl) List.mem_cons_self

theorem cmd_of_head (h : s.InOrder) (hq : s.work.works = w :: q.works) (hw : w ≠ .other) :
    ∃ cmd, s.cmd = some cmd := by
  refine Option.ne_none_iff_exists'.mp fun hc => hw (h.gone hc w ?_)
  rw [hq]
  exact List.mem_cons_self

/-- A work is passed over. -/
theorem pass (h : s.InOrder) (hq : s.work.works = w :: q.works) (hrun : q.running.length ≤ 1)
    (hcons : ({ s with work := q } : Protocol ν).Consistent)
    (hw : w = .other ∨ ∀ cmd, s.cmd = some cmd → (cmd.disabled || s.clientClosed) = true) :
    ({ s with work := q } : Protocol ν).InOrder where
  consistent := hcons
  running := hrun
  last := h.last_tail hq
  gone := fun hc v hv => h.gone hc v (hq ▸ List.mem_cons_of_mem w hv)
  fault := h.fault
  live := fun cmd hcmd hd hopen => by
    rcases hw with rfl | hw
    · have := h.live cmd hcmd hd hopen
      rwa [hq, notices_other] at this
    · have hopen : s.clientClosed = false := hopen
      have := hw cmd hcmd
      simp [hd, hopen] at this
  order := h.order

/-- The user is told of the call that is next. -/
theorem told (h : s.InOrder) (hq : s.work.works = .notice n :: q.works) (hrun : q.running.length ≤ 1)
    {m : Notice ν} (hk : m.kind = n.kind) (hcons : (log { s with work := q } (.told m)).Consistent)
    {cmd : Listening ν} (hcmd : s.cmd = some cmd) (hd : cmd.disabled = false) (hopen : s.clientClosed = false) :
    (log { s with work := q } (.told m)).InOrder := by
  have hlive := h.live cmd hcmd hd hopen
  rw [hq, notices_notice, List.map_append, List.map_cons, ← hk] at hlive
  have hlive' : ((tolds s.events ++ [m]) ++ notices q.works).map Notice.kind = (calls s.events).map Notice.kind := by
    rw [← hlive, List.append_assoc, List.map_append]
    rfl
  refine ⟨hcons, hrun, h.last_tail hq, ?_, h.fault, ?_, ?_⟩
  · intro hc
    rw [show s.cmd = none from hc] at hcmd
    cases hcmd
  · intro _ _ _ _
    simpa only [log, tolds_told, calls_told] using hlive'
  · have hmem : .disabled ∉ (tolds s.events ++ [m]).map Notice.kind := fun hm => by
      refine h.not_called hcmd hd (mem_kinds.mp ?_)
      rw [← hlive', List.map_append]
      exact List.mem_append_left _ hm
    have hall : ∀ k ∈ (tolds s.events ++ [m]).map Notice.kind, decide (k ≠ .disabled) = true :=
      fun k hkm => decide_eq_true fun hk' => hmem (hk' ▸ hkm)
    simp only [log, tolds_told, calls_told]
    rw [List.filter_eq_self.mpr hall, ← hlive']
    exact ⟨(notices q.works).map Notice.kind, List.map_append.symm⟩

theorem settled (h : s.InOrder) (hq : s.work.works = .command :: q.works) (hrun : q.running.length ≤ 1) :
    (log { s with work := q } .settled).InOrder := by
  refine ⟨h.consistent.settled h.fault hq, hrun, h.last_tail hq, ?_, h.fault, ?_, ?_⟩
  · exact fun hc v hv => h.gone hc v (hq ▸ List.mem_cons_of_mem _ hv)
  · intro cmd hcmd hd hopen
    have := h.live cmd hcmd hd hopen
    rw [hq, notices_command] at this
    simpa only [log, tolds_settled, calls_settled] using this
  · simpa only [log, tolds_settled, calls_settled] using h.order

theorem deleted_of_disabled (h : s.InOrder) (hq : s.work.works = .notice .disabled :: q.works)
    (hrun : q.running.length ≤ 1) :
    ({ (if s.clientClosed then { s with work := q } else log { s with work := q } (.told .disabled)) with
      cmd := none } : Protocol ν).InOrder := by
  have hcons := h.consistent.deleted_of_disabled h.fault hq
  have hother := h.other_of_disabled hq
  split_ifs at hcons ⊢ with hc
  · exact ⟨hcons, hrun, h.last_tail hq, fun _ => hother, h.fault, nofun, h.order⟩
  · refine ⟨hcons, hrun, h.last_tail hq, fun _ => hother, h.fault, nofun, ?_⟩
    simpa [log, Notice.kind] using h.order

theorem respondNotice (h : s.InOrder) (hq : s.work.works = .notice n :: q.works) (hrun : q.running.length ≤ 1)
    {cmd : Listening ν} (hcmd : s.cmd = some cmd) :
    (({ s with work := q } : Protocol ν).respondNotice cmd n).InOrder := by
  have hcons := h.consistent.respondNotice h.fault hq hcmd
  have hskip : (cmd.disabled || s.clientClosed) = true → ∀ cmd, s.cmd = some cmd →
      (cmd.disabled || s.clientClosed) = true := by
    intro hc cmd' hcmd'
    rw [hcmd] at hcmd'
    exact Option.some.inj hcmd' ▸ hc
  unfold Protocol.respondNotice at hcons ⊢
  cases n with
  | disabled => exact h.deleted_of_disabled hq hrun
  | nodeClose m =>
    dsimp only at hcons ⊢
    split_ifs at hcons ⊢ with hc
    · exact h.pass hq hrun hcons (.inr (hskip hc))
    · obtain ⟨hd, hopen⟩ := Bool.or_eq_false_iff.mp (Bool.not_eq_true _ ▸ hc)
      obtain ⟨node, hnode⟩ := h.consistent.nodes m (hq ▸ List.mem_cons_self)
      rw [← h.consistent.node cmd hcmd hd] at hnode
      rw [hnode] at hcons ⊢
      exact h.told hq hrun rfl hcons hcmd hd hopen
  | enabled =>
    dsimp only at hcons ⊢
    split_ifs at hcons ⊢ with hc
    · exact h.pass hq hrun hcons (.inr (hskip hc))
    · obtain ⟨hd, hopen⟩ := Bool.or_eq_false_iff.mp (Bool.not_eq_true _ ▸ hc)
      exact h.told hq hrun rfl hcons hcmd hd hopen
  | snapshot =>
    dsimp only at hcons ⊢
    split_ifs at hcons ⊢ with hc
    · exact h.pass hq hrun hcons (.inr (hskip hc))
    · obtain ⟨hd, hopen⟩ := Bool.or_eq_false_iff.mp (Bool.not_eq_true _ ▸ hc)
      exact h.told hq hrun rfl hcons hcmd hd hopen

theorem respond (h : s.InOrder) (hq : s.work.works = w :: q.works) (hrun : q.running.length ≤ 1) :
    (({ s with work := q } : Protocol ν).respond w).InOrder := by
  cases w with
  | other => exact h.pass hq hrun (h.consistent.respond h.fault hq) (.inl rfl)
  | command =>
    obtain ⟨cmd, hcmd⟩ := h.cmd_of_head hq (by simp)
    unfold Protocol.respond
    dsimp only
    split
    · simp_all
    · exact h.settled hq hrun
  | notice n =>
    obtain ⟨cmd, hcmd⟩ := h.cmd_of_head hq (by simp)
    unfold Protocol.respond
    dsimp only
    split
    · simp_all
    · rename_i hcmd
      exact h.respondNotice hq hrun hcmd

end

theorem step {threads : ℕ} (ht : threads ≤ 1) (s : Protocol ν) (a : ProtocolAction ν) (h : s.InOrder)
    (ha : s.Allowed a) : (s.step threads a).InOrder := by
  unfold Protocol.step
  rw [if_neg (by simp [h.fault])]
  cases a with
  | call n => exact h.listener n ha.2
  | submit => exact h.submit
  | take => exact h.progress (WorkQueue.works_take threads) (WorkQueue.running_take ht h.running)
  | finish i =>
    exact h.progress (WorkQueue.works_finish h.running i) (Nat.le_trans (WorkQueue.running_finish i) h.running)
  | respond =>
    dsimp only
    split
    · exact h
    · rename_i w ds hdone
      exact h.respond (WorkQueue.works_of_done hdone) h.running
  | close => exact ⟨h.consistent.close, h.running, h.last, h.gone, h.fault, nofun, h.order⟩

end InOrder

/-- With one thread the user is told of the calls in their order, up to the first that is passed over, and then
only of the disabling. -/
theorem metrics_inOrder {threads : ℕ} (ht : threads ≤ 1) {as : List (ProtocolAction ν)}
    (h : Run.AllSteps (step threads) Allowed (start : Protocol ν) as) :
    ((tolds (Run.after (step threads) start as).events).map Notice.kind).filter (· ≠ .disabled) <+:
      (calls (Run.after (step threads) start as).events).map Notice.kind :=
  (h.invariant (InOrder.step ht) InOrder.start).order

theorem inOrder_snapshot :
    ((tolds (Run.after (step 1) (start : Protocol ℕ) [.take, .call .enabled, .finish 0, .respond, .call .snapshot,
      .take, .finish 0, .respond, .take, .call .disabled, .finish 0, .respond]).events).map Notice.kind).filter
        (· ≠ .disabled) <+:
      (calls (Run.after (step 1) (start : Protocol ℕ) [.take, .call .enabled, .finish 0, .respond, .call .snapshot,
        .take, .finish 0, .respond, .take, .call .disabled, .finish 0, .respond]).events).map Notice.kind :=
  metrics_inOrder (by decide) (by decide)

/-- Two threads are done in the other order with the works of `snapshot_listener` and `disable_listener`. -/
def overtaken : List (ProtocolAction ν) :=
  [.take, .finish 0, .respond, .call .snapshot, .call .disabled, .take, .take, .finish 1, .respond, .finish 0, .respond]

omit [DecidableEq ν] in
theorem overtaken_faults {threads : ℕ} (ht : 2 ≤ threads) :
    Run.AllSteps (step threads) Allowed (start : Protocol ν) overtaken ∧
      (Run.after (step threads) (start : Protocol ν) overtaken).fault = true := by
  have hone : 0 < threads := by omega
  have htwo : 1 < threads := by omega
  simp [overtaken, Run.AllSteps, Run.after, step, start, Allowed, WorkQueue.submit, WorkQueue.empty, WorkQueue.take,
    WorkQueue.finish, WorkQueue.handBack, listener, invoke, log, respond, respondNotice, calls, hone, htwo]

/-- The threads may do the works in an order in which the deleted command is used exactly if there is more than
one of them. -/
theorem metrics_safe_iff (threads : ℕ) :
    (∀ as, Run.AllSteps (step threads) Allowed (start : Protocol ν) as →
      (Run.after (step threads) (start : Protocol ν) as).fault = false) ↔ threads ≤ 1 := by
  constructor
  · intro h
    by_contra ht
    obtain ⟨hallowed, hfault⟩ := overtaken_faults (ν := ν) (Nat.lt_of_not_le ht)
    rw [h overtaken hallowed] at hfault
    cases hfault
  · exact fun ht as h => (h.invariant (InOrder.step ht) InOrder.start).fault

end Protocol

end AerospikeNode.Metrics
