import AerospikeNode.Cmd.Stream
import AerospikeNode.Lib.Ledger

/-!
# What the listeners release

`src/main/async.cc`: `async_scan_listener`, `async_scan_pages_listener` and
`async_query_pages_listener`, each called by the C client for one record after the other and then
for the end or an error, until it returns `false`. A listener owns the command object and, for
pages, the scan or query and the user data that points at them.

`released_iff`: a run that the C client is done with has released each of these once, has used none
of them after its release and has called back with one terminal event, in exactly the runs that end
with the end or with a full page. A run that ends with an error, or because the callback returned
`false`, releases nothing.
-/

namespace AerospikeNode

/-- What a listener owns: `cmd`, and for pages `su->scan` or `qu->query`, and `su` or `qu`. -/
inductive HeapObject where
  | cmd
  | query
  | udata
deriving DecidableEq

/-- How the C client calls a listener. -/
inductive ListenerCall where
  | error (err : AsError)
  | record (bins metadata key : JsValue)
  | done

/-- A call of a listener. `returned` is what the user's callback returns, if that is a boolean, and
`saved` what the scan or query is serialized to at that moment. -/
structure ListenerStep where
  call : ListenerCall
  returned : Option Bool
  saved : JsValue

structure ListenerRun where
  count : UInt32
  maxRecords : UInt32
  log : List (Access HeapObject)
  /-- The calls of the user's callback. -/
  callbacks : List NativeEvent
  /-- The C client will call the listener again. -/
  running : Bool
  /-- A call of the user's callback returned `false`. -/
  aborted : Bool

namespace ListenerRun

open Access HeapObject

def start (maxRecords : UInt32) : ListenerRun := ⟨0, maxRecords, [], [], true, false⟩

/-- `async_scan_listener` -/
def asyncScanListener (s : ListenerRun) (a : ListenerStep) : ListenerRun :=
  match a.call with
  | .error err =>
    { s with
      log := s.log ++ [use cmd, use cmd]
      callbacks := s.callbacks ++ [.error err]
      running := false }
  | .record bins metadata key =>
    { s with
      log := s.log ++ [use cmd, use cmd]
      callbacks := s.callbacks ++ [.record bins metadata key]
      running := a.returned.getD true }
  | .done =>
    { s with
      log := s.log ++ [use cmd, use cmd, release cmd]
      callbacks := s.callbacks ++ [.finish .undefined]
      running := false }

/-- `async_scan_pages_listener` and `async_query_pages_listener`. After an error the C client does
not call again, whatever the listener returns. -/
def asyncPagesListener (s : ListenerRun) (a : ListenerStep) : ListenerRun :=
  match a.call with
  | .error err =>
    { s with
      count := s.count + 1
      log := s.log ++ [use udata, use cmd, use cmd, use udata]
      callbacks := s.callbacks ++ [.error err]
      running := false }
  | call =>
    if s.count ≥ s.maxRecords then
      { s with
        log := s.log ++ [use udata, use cmd, use udata, use udata, use query, use cmd, release query,
          release cmd, release udata]
        callbacks := s.callbacks ++ [.finish a.saved]
        running := false }
    else match call with
    | .record bins metadata key =>
      { s with
        count := s.count + 1
        log := s.log ++ [use udata, use cmd, use udata, use cmd, use udata]
        callbacks := s.callbacks ++ [.record bins metadata key]
        running := a.returned.getD true }
    | _ =>
      { s with
        log := s.log ++ [use udata, use cmd, use udata, use udata, use cmd, release query,
          release cmd, release udata]
        callbacks := s.callbacks ++ [.finish .undefined]
        running := false }

inductive Kind where
  | scan
  | pages
deriving DecidableEq

def Kind.listener : Kind → ListenerRun → ListenerStep → ListenerRun
  | scan => asyncScanListener
  | pages => asyncPagesListener

def Kind.owned : Kind → List HeapObject
  | scan => [cmd]
  | pages => [query, cmd, udata]

def step (k : Kind) (s : ListenerRun) (a : ListenerStep) : ListenerRun :=
  { k.listener s a with aborted := s.aborted || a.returned == some false }

/-- The C client calls until the listener returns `false` or the run is over. -/
def Allowed (s : ListenerRun) (_ : ListenerStep) : Prop := s.running = true

/-- The call is not an error, and it is not a record to which the user's callback returns `false`;
when the page is full, what the callback returns is not read. -/
def Harmless (k : Kind) (s : ListenerRun) (a : ListenerStep) : Prop :=
  match a.call with
  | .error _ => False
  | .record .. => (k = .pages ∧ s.count ≥ s.maxRecords) ∨ a.returned ≠ some false
  | .done => True

/-- The user's callback is told that the run is over. -/
def Terminal : NativeEvent → Bool
  | .finish _ | .error _ => true
  | _ => false

/-- Everything owned is released once and not used afterwards, and there was one terminal event
unless the user aborted. -/
structure Settled (k : Kind) (s : ListenerRun) : Prop where
  once : ∀ r ∈ k.owned, releases s.log r = 1
  orderly : NoUseAfterRelease s.log
  terminal : s.aborted = false → (s.callbacks.filter Terminal).length = 1

variable {k : Kind} {s : ListenerRun} {a : ListenerStep}

/-- The effect of a call: uses, then perhaps the releases of everything owned, and one event. -/
structure Adds (s s' : ListenerRun) (uses releases : List (Access HeapObject)) (e : NativeEvent) :
    Prop where
  log : s'.log = s.log ++ (uses ++ releases)
  callbacks : s'.callbacks = s.callbacks ++ [e]
  noRelease : ∀ r, release r ∉ uses

/-- A harmless call goes on, or it releases everything and ends the run. -/
theorem step_harmless (h : Harmless k s a) :
    (∃ uses e, Adds s (step k s a) uses [] e ∧ Terminal e = false ∧ (step k s a).running = true) ∨
    (∃ uses e, Adds s (step k s a) uses (k.owned.map release) e ∧ Terminal e = true ∧
      (step k s a).running = false) := by
  obtain ⟨call, returned, saved⟩ := a
  cases k with
  | scan =>
    cases call with
    | error err => exact h.elim
    | record bins metadata key =>
      have hr : returned ≠ some false := h.resolve_left (by rintro ⟨⟨⟩, -⟩)
      refine .inl ⟨[use cmd, use cmd], .record bins metadata key, ⟨rfl, rfl, by simp⟩, rfl, ?_⟩
      rcases returned with _ | _ | _ <;> first | rfl | exact absurd rfl hr
    | done => exact .inr ⟨[use cmd, use cmd], .finish .undefined, ⟨rfl, rfl, by simp⟩, rfl, rfl⟩
  | pages =>
    by_cases hfull : s.count ≥ s.maxRecords
    · refine .inr ⟨[use udata, use cmd, use udata, use udata, use query, use cmd], .finish saved,
        ⟨?_, ?_, by simp⟩, rfl, ?_⟩ <;>
        cases call <;> first | exact h.elim | simp [step, Kind.listener, asyncPagesListener, hfull,
          Kind.owned]
    · cases call with
      | error err => exact h.elim
      | record bins metadata key =>
        have hr : returned ≠ some false := h.resolve_left (fun h => hfull h.2)
        refine .inl ⟨[use udata, use cmd, use udata, use cmd, use udata],
          .record bins metadata key, ⟨?_, ?_, by simp⟩, rfl, ?_⟩
        · simp [step, Kind.listener, asyncPagesListener, hfull]
        · simp [step, Kind.listener, asyncPagesListener, hfull]
        · rcases returned with _ | _ | _ <;>
            first | exact absurd rfl hr | simp [step, Kind.listener, asyncPagesListener, hfull]
      | done =>
        refine .inr ⟨[use udata, use cmd, use udata, use udata, use cmd], .finish .undefined,
          ⟨?_, ?_, by simp⟩, rfl, ?_⟩ <;>
          simp [step, Kind.listener, asyncPagesListener, hfull, Kind.owned]

/-- Any other call ends the run with nothing released. -/
theorem step_leaks (h : ¬ Harmless k s a) :
    ∃ uses e, Adds s (step k s a) uses [] e ∧ (step k s a).running = false := by
  obtain ⟨call, returned, saved⟩ := a
  cases call with
  | error err =>
    cases k
    · exact ⟨[use cmd, use cmd], .error err, ⟨rfl, rfl, by simp⟩, rfl⟩
    · exact ⟨[use udata, use cmd, use cmd, use udata], .error err, ⟨rfl, rfl, by simp⟩, rfl⟩
  | record bins metadata key =>
    rw [Harmless, not_or, not_and, ne_eq, not_not] at h
    obtain ⟨hfull, rfl⟩ := h
    cases k with
    | scan => exact ⟨[use cmd, use cmd], .record bins metadata key, ⟨rfl, rfl, by simp⟩, rfl⟩
    | pages =>
      have hfull := hfull rfl
      refine ⟨[use udata, use cmd, use udata, use cmd, use udata], .record bins metadata key,
        ⟨?_, ?_, by simp⟩, ?_⟩ <;>
        simp [step, Kind.listener, asyncPagesListener, hfull]
  | done => exact absurd trivial h

/-- As long as the listener will be called again, nothing is released and the user has not been told
of an end. -/
structure Inv (s : ListenerRun) : Prop where
  noRelease : s.running = true → ∀ r, release r ∉ s.log
  noTerminal : s.running = true → s.callbacks.filter Terminal = []

theorem Inv.start (maxRecords : UInt32) : Inv (start maxRecords) :=
  ⟨fun _ _ => List.not_mem_nil, fun _ => rfl⟩

theorem step_inv (hs : Inv s) (ha : Allowed s a) : Inv (step k s a) := by
  by_cases h : Harmless k s a
  · rcases step_harmless h with ⟨uses, e, hadd, he, hr⟩ | ⟨uses, e, hadd, he, hr⟩
    · refine ⟨fun _ r => ?_, fun _ => ?_⟩
      · rw [hadd.log, List.append_nil, List.mem_append, not_or]
        exact ⟨hs.noRelease ha r, hadd.noRelease r⟩
      · simp [hadd.callbacks, hs.noTerminal ha, he]
    · exact ⟨fun h => by simp [hr] at h, fun h => by simp [hr] at h⟩
  · obtain ⟨uses, e, hadd, hr⟩ := step_leaks h
    exact ⟨fun h => by simp [hr] at h, fun h => by simp [hr] at h⟩

theorem owned_nodup (k : Kind) : k.owned.Nodup := by cases k <;> decide

theorem cmd_mem_owned (k : Kind) : cmd ∈ k.owned := by cases k <;> decide

/-- What a call adds is in order after what no call has released. -/
theorem Adds.orderly {s' : ListenerRun} {uses : List (Access HeapObject)} {e : NativeEvent}
    {l : List HeapObject} (h : Adds s s' uses (l.map release) e) (hs : ∀ r, release r ∉ s.log) :
    NoUseAfterRelease s'.log := by
  have hnone : ∀ r, release r ∉ s.log ++ uses := fun r hmem =>
    (List.mem_append.mp hmem).elim (hs r) (h.noRelease r)
  rw [h.log, ← List.append_assoc]
  refine .append (.of_none hnone) ?_ fun r hmem => absurd hmem (hnone r)
  exact noUseAfterRelease_iff.mpr fun r before later heq hmem => by
    have : use r ∈ l.map release := by rw [heq]; simp [hmem]
    simp at this

/-- Nothing is used after its release, in no run. -/
theorem run_orderly (k : Kind) (maxRecords : UInt32) (as : List ListenerStep)
    (h : Run.AllSteps (step k) Allowed (start maxRecords) as) :
    NoUseAfterRelease (Run.after (step k) (start maxRecords) as).log := by
  refine (h.invariant (I := fun s => Inv s ∧ NoUseAfterRelease s.log) (fun s a hs ha => ?_)
    ⟨Inv.start maxRecords, .of_none fun _ => List.not_mem_nil⟩).2
  refine ⟨step_inv hs.1 ha, ?_⟩
  by_cases hh : Harmless k s a
  · rcases step_harmless hh with ⟨uses, e, hadd, -, -⟩ | ⟨uses, e, hadd, -, -⟩
    · exact Adds.orderly (l := []) hadd (hs.1.noRelease ha)
    · exact hadd.orderly (hs.1.noRelease ha)
  · obtain ⟨uses, e, hadd, -⟩ := step_leaks hh
    exact Adds.orderly (l := []) hadd (hs.1.noRelease ha)

/-- A call leaves everything settled, or the listener running, exactly if it is harmless. -/
theorem step_settled_iff (hs : Inv s) (ha : Allowed s a) :
    ((step k s a).running = false → Settled k (step k s a)) ↔ Harmless k s a := by
  constructor
  · intro hset
    by_contra h
    obtain ⟨uses, e, hadd, hr⟩ := step_leaks h
    have honce := (hset hr).once cmd (cmd_mem_owned k)
    have hzero : releases (step k s a).log cmd = 0 := by
      rw [releases_eq_zero, hadd.log, List.append_nil, List.mem_append, not_or]
      exact ⟨hs.noRelease ha cmd, hadd.noRelease cmd⟩
    omega
  · intro h hr
    rcases step_harmless h with ⟨uses, e, hadd, he, hr'⟩ | ⟨uses, e, hadd, he, hr'⟩
    · simp [hr] at hr'
    · have hnone : ∀ r, release r ∉ s.log ++ uses := fun r hmem =>
        (List.mem_append.mp hmem).elim (hs.noRelease ha r) (hadd.noRelease r)
      refine ⟨fun r hmem => ?_, hadd.orderly (hs.noRelease ha), fun _ => ?_⟩
      · rw [hadd.log, ← List.append_assoc, releases_append, releases_eq_zero.mpr (hnone r), releases,
          List.count_map_of_injective _ _ fun _ _ => release.inj,
          List.count_eq_one_of_mem (owned_nodup k) hmem]
      · simp [hadd.callbacks, hs.noTerminal ha, he]

/-- When the C client is done, everything is settled exactly if no call of the run was an error and
the callback did not return `false` for a record. -/
theorem released_iff (k : Kind) (maxRecords : UInt32) (as : List ListenerStep)
    (h : Run.AllSteps (step k) Allowed (start maxRecords) as)
    (hdone : (Run.after (step k) (start maxRecords) as).running = false) :
    Settled k (Run.after (step k) (start maxRecords) as) ↔
      Run.AllSteps (step k) (Harmless k) (start maxRecords) as := by
  have hiff : Run.Always (step k) (fun s => s.running = false → Settled k s) (start maxRecords) as ↔
      Run.AllSteps (step k) (Harmless k) (start maxRecords) as :=
    Run.always_iff_allSteps (fun s a hs ha _ => step_inv hs ha) (fun s a hs ha => step_settled_iff hs ha)
      (Inv.start maxRecords) (fun h => by simp [start] at h) h
  rw [← hiff]
  constructor
  · intro hset
    refine Run.Always.of_last (fun s a ha _ => ?_) h fun _ => hset
    exact fun hr => by simp [Allowed, hr] at ha
  · exact fun halways => halways.last hdone

/-- A page of two records that is full at the third call. -/
theorem full_page_settled :
    Settled .pages (Run.after (step .pages) (start 2)
      [⟨.record (.plain []) .undefined .undefined, some true, .undefined⟩,
        ⟨.record (.plain []) .undefined .undefined, some true, .undefined⟩,
        ⟨.done, some true, .undefined⟩]) :=
  (released_iff .pages 2 [⟨.record (.plain []) .undefined .undefined, some true, .undefined⟩,
    ⟨.record (.plain []) .undefined .undefined, some true, .undefined⟩,
    ⟨.done, some true, .undefined⟩] ⟨rfl, rfl, rfl, trivial⟩ rfl).mpr
    ⟨.inr (by decide), .inr (by decide), trivial, trivial⟩

/-- An error call ends a scan that has released nothing. -/
theorem scan_error_not_settled :
    ¬ ∀ (k : Kind) (maxRecords : UInt32) (as : List ListenerStep),
      Run.AllSteps (step k) Allowed (start maxRecords) as →
      (Run.after (step k) (start maxRecords) as).running = false →
      Settled k (Run.after (step k) (start maxRecords) as) := by
  intro h
  have := (h .scan 0 [⟨.error ⟨-1, [], [], [], 0, false⟩, none, .undefined⟩] ⟨rfl, trivial⟩ rfl).once
    cmd (List.mem_singleton_self _)
  cases this

end ListenerRun

end AerospikeNode
