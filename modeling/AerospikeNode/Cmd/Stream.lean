import AerospikeNode.Cmd.Execute
import AerospikeNode.Lib.Run

/-!
# Aborting a record stream

`lib/record_stream.js` and the callback of `lib/commands/stream_command.js`, over one run of
`foreach`: the native listener is called for each record and then once for the end or an error,
and the user may call `abort` at any time, in the handler of an event or elsewhere. `abort` queues an
`'end'` with `process.nextTick`, and the queued jobs run before the listener is called again.

`emitted_endIsLast_iff`: the stream emits at most one `'end'`, and nothing after it, in exactly those
runs in which the listener is not called once the stream is aborted and `abort` is not called first
in or after the listener's own `'end'`. That excludes an `abort` outside of a data handler that the
listener's next call follows.
-/

namespace AerospikeNode

namespace StreamEvent

def IsEnd : StreamEvent → Bool
  | ended _ => true
  | _ => false

end StreamEvent

/-- At most one `'end'`, and no `'data'` and no `'error'` after it. -/
structure EndIsLast (events : List StreamEvent) : Prop where
  once : (events.filter (·.IsEnd)).length ≤ 1
  noneAfter : ∀ before e later, events = before ++ e :: later → e.IsEnd = true →
    ∀ r ∈ later, r.IsEnd = true

/-- The native listener that calls the stream's callback. The one of a stream UDF, which empties a
queue of results, does not read what the callback returns. -/
inductive Listener where
  | scan
  | scanPages
  | queryPages
  | queryForeach
deriving DecidableEq

def Listener.readsResult : Listener → Bool
  | queryForeach => false
  | _ => true

/-- A call of the listener by the C client: a record, a result of a stream UDF, or, last, the end
(with the state of a page that is full) or an error. -/
inductive NativeEvent where
  | record (bins metadata key : JsValue)
  | value (v : JsValue)
  | finish (state : JsValue)
  | error (err : AsError)

namespace NativeEvent

def call : NativeEvent → NativeCall
  | record bins metadata key => ⟨none, bins, metadata, key⟩
  | value v => ⟨none, v, .undefined, .undefined⟩
  | finish state => ⟨none, .null, state, .null⟩
  | error err => ⟨some err, .undefined, .undefined, .undefined⟩

/-- What a call makes the stream emit. -/
def emitted (n : NativeEvent) : StreamEvent :=
  let (err, result) := Command.stream.convertResponse n.call
  StreamCommand.callback err result

/-- The call brings neither an error nor anything that JavaScript takes for true. -/
def Finishes : NativeEvent → Bool
  | value v => !v.truthy
  | finish _ => true
  | _ => false

/-- The calls a listener can get. The bins of a record are an object. -/
def Of (l : Listener) : NativeEvent → Prop
  | record bins _ _ => l ≠ .queryForeach ∧ bins.isObject = true
  | value _ => l = .queryForeach
  | finish _ => True
  | error err => err.code ≠ Status.ok

end NativeEvent

structure RecordStream where
  aborted : Bool
  /-- What is queued with `process.nextTick`. -/
  jobs : List StreamEvent
  /-- The native listener will be called again. -/
  listening : Bool
  emitted : List StreamEvent
  /-- Whether a call of the listener was one that `Finishes`. -/
  finished : Bool

/-- A step of the run. `aborts` says that a handler of the emitted event calls `abort`. -/
inductive StreamStep where
  /-- The native method calls back with an error before it returns. -/
  | syncError (err : AsError)
  /-- The native listener is called. -/
  | listener (n : NativeEvent) (aborts : Bool)
  /-- The user calls `abort` outside of the handlers of the stream's events. -/
  | abort
  /-- The first of the queued jobs runs. -/
  | tick (aborts : Bool)

namespace RecordStream

def start : RecordStream := ⟨false, [], true, [], false⟩

def abort (s : RecordStream) : RecordStream :=
  if s.aborted then s else { s with aborted := true, jobs := s.jobs ++ [.ended .undefined] }

/-- The handlers of the event run while it is emitted. -/
def emit (s : RecordStream) (e : StreamEvent) (aborts : Bool) : RecordStream :=
  let s := { s with emitted := s.emitted ++ [e] }
  if aborts then s.abort else s

/-- A call of the listener. After a record it goes on unless the callback returned
`!this.stream.aborted` as `false`, and it is over after the end or an error. -/
def listen (l : Listener) (s : RecordStream) (n : NativeEvent) (aborts : Bool) : RecordStream :=
  let s := { s.emit n.emitted aborts with finished := s.finished || n.Finishes }
  match n with
  | .record .. | .value _ => { s with listening := !(l.readsResult && s.aborted) }
  | .finish _ | .error _ => { s with listening := false }

def step (l : Listener) (s : RecordStream) : StreamStep → RecordStream
  | .syncError err =>
    { s with listening := false, jobs := s.jobs ++ [.error (.native err)] }
  | .listener n aborts => s.listen l n aborts
  | .abort => s.abort
  | .tick aborts =>
    match s.jobs with
    | [] => s
    | e :: jobs => { s with jobs := jobs }.emit e aborts

/-- The steps that the event loop and the C client allow. -/
def Allowed (l : Listener) (s : RecordStream) : StreamStep → Prop
  | .syncError err => s = start ∧ err.code ≠ Status.ok
  | .listener n _ => s.listening = true ∧ s.jobs = [] ∧ n.Of l
  | .abort => True
  | .tick _ => s.jobs ≠ []

/-- The listener is not called once the stream is aborted or after a call that finishes, and
`abort` is not called first after such a call or in a handler of its event. -/
def Harmless (s : RecordStream) : StreamStep → Prop
  | .syncError _ => True
  | .listener n aborts =>
    s.aborted = false ∧ s.finished = false ∧ (aborts = true → n.Finishes = false)
  | .abort => s.aborted = true ∨ s.finished = false
  | .tick aborts => aborts = true → s.aborted = true ∨ s.finished = false

end RecordStream

/-! ### The last event -/

namespace EndIsLast
variable {events events' : List StreamEvent} {e : StreamEvent}

theorem nil : EndIsLast [] := ⟨by simp, by simp⟩

theorem append_singleton :
    EndIsLast (events ++ [e]) ↔ ∀ r ∈ events, r.IsEnd = false := by
  constructor
  · intro h r hr
    by_contra hend
    rw [Bool.not_eq_false] at hend
    obtain ⟨before, later, rfl⟩ := List.append_of_mem hr
    have hlast : e.IsEnd = true :=
      h.noneAfter before r (later ++ [e]) (by simp) hend e (by simp)
    have honce := h.once
    simp only [List.filter_append, List.filter_cons, hend, hlast, if_true, List.filter_nil,
      List.length_append, List.length_cons, List.length_nil] at honce
    omega
  · intro h
    have hnone : events.filter (·.IsEnd) = [] := by
      rw [List.filter_eq_nil_iff]
      exact fun r hr => by simp [h r hr]
    refine ⟨?_, ?_⟩
    · rw [List.filter_append, hnone, List.nil_append]
      exact List.length_filter_le _ _
    · intro before r later heq hend
      rcases List.eq_nil_or_concat later with rfl | ⟨later, x, rfl⟩
      · simp
      · have hmem : r ∈ events := by
          rw [List.concat_eq_append, ← List.cons_append, ← List.append_assoc] at heq
          rw [(List.append_inj' heq rfl).1]
          simp
        rw [h r hmem] at hend
        cases hend

theorem of_append (h : EndIsLast (events ++ events')) : EndIsLast events := by
  refine ⟨?_, ?_⟩
  · have := h.once
    rw [List.filter_append, List.length_append] at this
    omega
  · rintro before r later rfl hend x hx
    exact h.noneAfter before r (later ++ events') (by simp) hend x (by simp [hx])

end EndIsLast

/-! ### What a step does to the events -/

namespace NativeEvent
variable {l : Listener} {n : NativeEvent}

theorem isEnd_emitted (h : n.Of l) : n.emitted.IsEnd = n.Finishes := by
  cases n with
  | record bins metadata key =>
    have hb : bins.truthy = true := by
      have hplain := h.2
      cases bins with
      | func | buffer bs | array xs | map es | obj cls ps => rfl
      | _ => cases hplain
    have hemitted : (record bins metadata key).emitted =
        StreamCommand.callback none (StreamCommand.convertResult bins metadata key) := rfl
    rw [hemitted, StreamCommand.convertResult, if_pos hb]
    rfl
  | value v =>
    have hemitted : (value v).emitted =
        StreamCommand.callback none (StreamCommand.convertResult v .undefined .undefined) := rfl
    rw [hemitted, StreamCommand.convertResult, Finishes]
    cases v.truthy with
    | true => rfl
    | false => rfl
  | finish state => rfl
  | error err =>
    have hcode : err.code ≠ Status.ok := h
    have hemitted : (error err).emitted = StreamCommand.callback (AerospikeError.fromASError (some err))
        (StreamCommand.convertResult .undefined .undefined .undefined) := rfl
    rw [hemitted, AerospikeError.fromASError, if_neg hcode]
    rfl

end NativeEvent

namespace RecordStream
variable {l : Listener} {s : RecordStream} {a : StreamStep} {e : StreamEvent} {n : NativeEvent}
  {aborts : Bool}

/-- What was emitted and what is queued to be. -/
def all (s : RecordStream) : List StreamEvent := s.emitted ++ s.jobs

/-- What a call of `abort` queues, if there is one. -/
def queued (s : RecordStream) (aborts : Bool) : List StreamEvent :=
  if aborts && !s.aborted then [.ended .undefined] else []

theorem abort_eq (s : RecordStream) :
    s.abort = { s with aborted := true, jobs := s.jobs ++ s.queued true } := by
  obtain ⟨_ | _, jobs, listening, emitted, finished⟩ := s <;> simp [abort, queued]

theorem emit_eq (s : RecordStream) (e : StreamEvent) (aborts : Bool) :
    s.emit e aborts = { s with
      aborted := s.aborted || aborts
      jobs := s.jobs ++ s.queued aborts
      emitted := s.emitted ++ [e] } := by
  cases aborts with
  | false => simp [emit, queued]
  | true => simp [emit, abort_eq, queued]

theorem listen_all (hj : s.jobs = []) :
    (s.listen l n aborts).all = s.emitted ++ [n.emitted] ++ s.queued aborts := by
  cases n <;> simp [listen, emit_eq, all, hj]

theorem listen_aborted : (s.listen l n aborts).aborted = (s.aborted || aborts) := by
  cases n <;> simp [listen, emit_eq]

theorem listen_finished : (s.listen l n aborts).finished = (s.finished || n.Finishes) := by
  cases n <;> simp [listen]

theorem tick_all (hj : s.jobs ≠ []) : (s.step l (.tick aborts)).all = s.all ++ s.queued aborts := by
  obtain ⟨aborted, _ | ⟨e, jobs⟩, listening, emitted, finished⟩ := s
  · exact absurd rfl hj
  · simp [step, emit_eq, all, queued]

theorem tick_aborted (hj : s.jobs ≠ []) :
    (s.step l (.tick aborts)).aborted = (s.aborted || aborts) := by
  obtain ⟨aborted, _ | ⟨e, jobs⟩, listening, emitted, finished⟩ := s
  · exact absurd rfl hj
  · simp [step, emit_eq]

theorem tick_finished (hj : s.jobs ≠ []) : (s.step l (.tick aborts)).finished = s.finished := by
  obtain ⟨aborted, _ | ⟨e, jobs⟩, listening, emitted, finished⟩ := s
  · exact absurd rfl hj
  · simp [step, emit_eq]

/-! ### The invariant -/

/-- The events are in order, and there is an `'end'` among them exactly if `abort` or the listener
gave one. -/
structure Inv (s : RecordStream) : Prop where
  last : EndIsLast s.all
  hasEnd : (∃ r ∈ s.all, r.IsEnd = true) ↔ s.aborted = true ∨ s.finished = true

theorem Inv.start : Inv start := by
  refine ⟨EndIsLast.nil, ?_⟩
  simp [RecordStream.start, all]

theorem Inv.noEnd_iff (h : Inv s) :
    (∀ r ∈ s.all, r.IsEnd = false) ↔ s.aborted = false ∧ s.finished = false := by
  have := not_congr h.hasEnd
  simpa using this

theorem Inv.queued_last_iff (h : Inv s) :
    EndIsLast (s.all ++ s.queued aborts) ↔
      (aborts = true → s.aborted = true ∨ s.finished = false) := by
  by_cases hq : aborts = true ∧ s.aborted = false
  · obtain ⟨rfl, ha⟩ := hq
    simp [queued, ha, EndIsLast.append_singleton, h.noEnd_iff]
  · have : s.queued aborts = [] := by simpa [queued] using hq
    rw [this, List.append_nil]
    refine iff_of_true h.last (fun ha => .inl ?_)
    simpa [ha] using hq

theorem exists_isEnd_queued :
    (∃ r ∈ s.queued aborts, r.IsEnd = true) ↔ aborts = true ∧ s.aborted = false := by
  by_cases hq : aborts = true ∧ s.aborted = false
  · simp [queued, hq, StreamEvent.IsEnd]
  · have : s.queued aborts = [] := by simpa [queued] using hq
    simp [this, hq]

theorem exists_isEnd_append {xs ys : List StreamEvent} :
    (∃ r ∈ xs ++ ys, r.IsEnd = true) ↔
      (∃ r ∈ xs, r.IsEnd = true) ∨ ∃ r ∈ ys, r.IsEnd = true := by
  simp only [List.mem_append, or_and_right, exists_or]

/-- An allowed step keeps the events in order exactly if it is harmless. -/
theorem step_last_iff (hs : Inv s) (ha : Allowed l s a) :
    EndIsLast (s.step l a).all ↔ Harmless s a := by
  cases a with
  | syncError err =>
    obtain ⟨rfl, -⟩ := ha
    refine iff_of_true ?_ trivial
    have hsingle : EndIsLast ([] ++ [StreamEvent.error (.native err)]) ↔ _ := EndIsLast.append_singleton
    exact hsingle.mpr (by simp)
  | listener n aborts =>
    obtain ⟨-, hj, hof⟩ := ha
    have hall : s.all = s.emitted := by rw [all, hj, List.append_nil]
    have hno := hs.noEnd_iff
    rw [hall] at hno
    show EndIsLast (s.listen l n aborts).all ↔ _
    rw [listen_all hj]
    by_cases hq : aborts = true ∧ s.aborted = false
    · obtain ⟨rfl, hab⟩ := hq
      simp only [queued, hab, Bool.not_false, Bool.and_self, if_true, EndIsLast.append_singleton,
        List.mem_append, List.mem_singleton, or_imp, forall_and, forall_eq, hno, Harmless,
        NativeEvent.isEnd_emitted hof, true_and, forall_const]
    · have hnil : s.queued aborts = [] := by simpa [queued] using hq
      rw [hnil, List.append_nil, EndIsLast.append_singleton, hno]
      constructor
      · rintro ⟨hab, hf⟩
        exact ⟨hab, hf, fun h => absurd ⟨h, hab⟩ hq⟩
      · rintro ⟨hab, hf, -⟩
        exact ⟨hab, hf⟩
  | abort =>
    have : s.step l .abort = s.abort := rfl
    rw [this, abort_eq, all, ← List.append_assoc]
    exact hs.queued_last_iff.trans (by simp [Harmless])
  | tick aborts =>
    rw [tick_all ha]
    exact hs.queued_last_iff

theorem step_inv (hs : Inv s) (ha : Allowed l s a) (hh : Harmless s a) : Inv (s.step l a) := by
  refine ⟨(step_last_iff hs ha).mpr hh, ?_⟩
  cases a with
  | syncError err =>
    obtain ⟨rfl, -⟩ := ha
    simp [step, RecordStream.start, all, StreamEvent.IsEnd]
  | listener n aborts =>
    obtain ⟨-, hj, hof⟩ := ha
    have hall : s.all = s.emitted := by rw [all, hj, List.append_nil]
    have hend := hs.hasEnd
    rw [hall] at hend
    show (∃ r ∈ (s.listen l n aborts).all, _) ↔ (s.listen l n aborts).aborted = true ∨
      (s.listen l n aborts).finished = true
    rw [listen_all hj, listen_aborted, listen_finished, exists_isEnd_append, exists_isEnd_append,
      exists_isEnd_queued, hend]
    simp only [List.mem_singleton, exists_eq_left, NativeEvent.isEnd_emitted hof, hh.1, hh.2.1,
      Bool.false_eq_true, or_self, false_or, and_true, Bool.false_or]
    exact or_comm
  | abort =>
    have : s.step l .abort = s.abort := rfl
    have hend := hs.hasEnd
    rw [all] at hend
    rw [this, abort_eq, all, ← List.append_assoc, exists_isEnd_append, exists_isEnd_queued, hend]
    cases s.aborted <;> simp
  | tick aborts =>
    rw [tick_all ha, tick_aborted ha, tick_finished ha, exists_isEnd_append, exists_isEnd_queued,
      hs.hasEnd]
    cases s.aborted <;> cases aborts <;> simp

theorem all_prefix_step (ha : Allowed l s a) : s.all <+: (s.step l a).all := by
  cases a with
  | syncError err =>
    obtain ⟨rfl, -⟩ := ha
    exact List.nil_prefix
  | listener n aborts =>
    show s.all <+: (s.listen l n aborts).all
    rw [listen_all ha.2.1, List.append_assoc, all, ha.2.1, List.append_nil]
    exact List.prefix_append ..
  | abort =>
    show s.all <+: s.abort.all
    rw [abort_eq, all, all, ← List.append_assoc]
    exact List.prefix_append ..
  | tick aborts =>
    rw [tick_all ha]
    exact List.prefix_append ..

/-- In a run whose queued jobs have all run, the stream emits at most one `'end'` and nothing after
it exactly if every step is harmless. -/
theorem emitted_endIsLast_iff (l : Listener) (as : List StreamStep)
    (h : Run.AllSteps (step l) (Allowed l) start as) (hjobs : (Run.after (step l) start as).jobs = []) :
    EndIsLast (Run.after (step l) start as).emitted ↔ Run.AllSteps (step l) Harmless start as := by
  have hall : (Run.after (step l) start as).all = (Run.after (step l) start as).emitted := by
    rw [all, hjobs, List.append_nil]
  have hiff : Run.Always (step l) (fun s => EndIsLast s.all) start as ↔
      Run.AllSteps (step l) Harmless start as :=
    Run.always_iff_allSteps (fun s a hs ha hh => step_inv hs ha hh)
      (fun s a hs ha => step_last_iff hs ha) Inv.start EndIsLast.nil h
  rw [← hall, ← hiff]
  constructor
  · refine Run.Always.of_last (P := fun s => EndIsLast s.all) (fun s a ha hlast => ?_) h
    obtain ⟨later, hlater⟩ := all_prefix_step ha
    rw [← hlater] at hlast
    exact hlast.of_append
  · exact Run.Always.last

/-- A call of the listener with a record that has no bins. -/
def emptyRecord (aborts : Bool) : StreamStep :=
  .listener (.record (.plain []) .undefined .undefined) aborts

/-- A data handler aborts a scan at its second record: the `'end'` is the last event. -/
theorem abort_in_data_handler :
    EndIsLast (Run.after (step .scan) start
      [emptyRecord false, emptyRecord true, .tick false]).emitted :=
  (emitted_endIsLast_iff .scan [emptyRecord false, emptyRecord true, .tick false]
    ⟨⟨rfl, rfl, nofun, rfl⟩, ⟨rfl, rfl, nofun, rfl⟩, List.cons_ne_nil _ _, trivial⟩ rfl).mpr
      ⟨⟨rfl, rfl, nofun⟩, ⟨rfl, rfl, fun _ => rfl⟩, nofun, trivial⟩

/-- The user aborts a scan between two records: the second one comes after the `'end'`. -/
theorem abort_between_records :
    Run.AllSteps (step .scan) (Allowed .scan) start
        [emptyRecord false, .abort, .tick false, emptyRecord false] ∧
      ¬ EndIsLast (Run.after (step .scan) start
        [emptyRecord false, .abort, .tick false, emptyRecord false]).emitted := by
  refine ⟨⟨⟨rfl, rfl, nofun, rfl⟩, trivial, List.cons_ne_nil _ _, ⟨rfl, rfl, nofun, rfl⟩, trivial⟩,
    fun h => ?_⟩
  have := h.noneAfter [_] (.ended .undefined) [_] rfl rfl _ (List.mem_singleton_self _)
  cases this

end RecordStream

end AerospikeNode
