import AerospikeNode.Lib.Run
import Mathlib.Data.List.Induction
import Mathlib.Data.List.Nodup

/-!
# Polling a job

`Job.pollUntilDone` (`lib/job.js`). The status function replies through promises: the handler of a
reply is a microtask, and an error needs one more to get from `then` to `catch`. (What the handlers
return settles promises that nobody waits for.) The interval ticks when there are no microtasks, replies
may come at any time.

`pollUntilDone_settles`: there is at most one timer, the promise is settled once and leaves no active
timer, and it is settled by the first done or error reply, except that a done reply overtakes an error
whose first microtask has not run yet. `resolved_iff` names the poll that resolves it.
-/

namespace AerospikeNode.Job

open Run

variable {ε : Type}

inductive Reply (ε : Type) where
  | done
  | notDone
  | error (e : ε)
deriving DecidableEq

/-- The state of a promise that is not pending. -/
inductive Outcome (ε : Type) where
  | resolved
  | rejected (e : ε)
deriving DecidableEq

/-- The variable `timer`, and whether its interval was cleared. -/
inductive Timer where
  | null
  | active
  | cleared
deriving DecidableEq

/-- A microtask: the reaction of `then` to the reply of a poll, or the call of the `catch` handler. -/
inductive Task (ε : Type) where
  | reaction (poll : ℕ) (reply : Reply ε)
  | handler (poll : ℕ) (error : ε)
deriving DecidableEq

structure PollState (ε : Type) where
  timer : Timer
  timers : ℕ
  outcome : Option (Outcome ε)
  polls : ℕ
  outstanding : List ℕ
  queue : List (Task ε)

namespace PollState

/-- `poll`: another call of the status function. -/
def poll (s : PollState ε) : PollState ε :=
  { s with polls := s.polls + 1, outstanding := s.outstanding ++ [s.polls] }

/-- `if (timer) clearInterval(timer)` -/
def clearInterval (s : PollState ε) : PollState ε :=
  if s.timer = .null then s else { s with timer := .cleared }

/-- `timer = setInterval(poll, pollInterval)` -/
def setInterval (s : PollState ε) : PollState ε := { s with timer := .active, timers := s.timers + 1 }

/-- `resolve` and `reject`; a promise that is settled stays as it is. -/
def settle (o : Outcome ε) (s : PollState ε) : PollState ε := { s with outcome := s.outcome.or (some o) }

/-- The handler of `then`. -/
def onDone (done : Bool) (s : PollState ε) : PollState ε :=
  if done then s.clearInterval.settle .resolved
  else if s.timer = .null then s.setInterval
  else s

/-- The handler of `catch`. -/
def onError (error : ε) (s : PollState ε) : PollState ε := s.clearInterval.settle (.rejected error)

/-- Running a microtask. -/
def perform (s : PollState ε) : Task ε → PollState ε
  | .reaction _ .done => s.onDone true
  | .reaction _ .notDone => s.onDone false
  | .reaction i (.error e) => { s with queue := s.queue ++ [.handler i e] }
  | .handler _ e => s.onError e

/-- The state when `pollUntilDone` returns its promise. -/
def start : PollState ε := poll ⟨.null, 0, none, 0, [], []⟩

end PollState

inductive Event (ε : Type) where
  | tick
  | reply (poll : ℕ) (r : Reply ε)
  | microtask
deriving DecidableEq

open PollState

def step (s : PollState ε) : Event ε → PollState ε
  | .tick => s.poll
  | .reply i r => { s with outstanding := s.outstanding.erase i, queue := s.queue ++ [.reaction i r] }
  | .microtask =>
    match s.queue with
    | [] => s
    | t :: queue => { s with queue }.perform t

/-- The interval ticks while it is active, after the microtasks; each poll gets one reply. -/
def Allowed (s : PollState ε) : Event ε → Prop
  | .tick => s.timer = .active ∧ s.queue = []
  | .reply i _ => i ∈ s.outstanding
  | .microtask => s.queue ≠ []

instance (s : PollState ε) [DecidableEq ε] : DecidablePred (Allowed s)
  | .tick => inferInstanceAs (Decidable (_ ∧ _))
  | .reply _ _ => inferInstanceAs (Decidable (_ ∈ _))
  | .microtask => inferInstanceAs (Decidable (¬_))

/-! ### The replies of a run -/

def Event.settling : Event ε → Option (ℕ × Outcome ε)
  | .reply i .done => some (i, .resolved)
  | .reply i (.error e) => some (i, .rejected e)
  | _ => none

/-- The first done or error reply. -/
def firstSettling (evs : List (Event ε)) : Option (ℕ × Outcome ε) := evs.findSome? Event.settling

/-- The first of these replies is an error, and a done reply comes before its reaction has run. -/
def Overtaken (evs : List (Event ε)) : Prop :=
  ∃ before later j i e, evs = before ++ .reply j .done :: later ∧ firstSettling before = some (i, .rejected e) ∧
    .reaction i (.error e) ∈ (after step start before).queue

theorem firstSettling_concat (evs : List (Event ε)) (ev : Event ε) :
    firstSettling (evs ++ [ev]) = (firstSettling evs).or ev.settling := by
  rw [firstSettling, List.findSome?_append]
  congr 1
  cases h : ev.settling with
  | none => simp [h]
  | some o => simp [h]

theorem overtaken_concat (evs : List (Event ε)) (ev : Event ε) : Overtaken (evs ++ [ev]) ↔ Overtaken evs ∨
    ∃ j i e, ev = .reply j .done ∧ firstSettling evs = some (i, .rejected e) ∧
      .reaction i (.error e) ∈ (after step start evs).queue := by
  constructor
  · rintro ⟨before, later, j, i, e, hevs, hfirst, hqueue⟩
    rcases List.eq_nil_or_concat later with rfl | ⟨later', last, rfl⟩
    · obtain ⟨rfl, hlast⟩ := List.append_inj' hevs rfl
      exact .inr ⟨j, i, e, List.singleton_inj.1 hlast, hfirst, hqueue⟩
    · rw [List.concat_eq_append, ← List.cons_append, ← List.append_assoc] at hevs
      obtain ⟨rfl, -⟩ := List.append_inj' hevs rfl
      exact .inl ⟨before, later', j, i, e, rfl, hfirst, hqueue⟩
  · rintro (⟨before, later, j, i, e, rfl, hfirst, hqueue⟩ | ⟨j, i, e, rfl, hfirst, hqueue⟩)
    · refine ⟨before, later ++ [ev], j, i, e, ?_, hfirst, hqueue⟩
      rw [List.append_assoc, List.cons_append]
    · exact ⟨evs, [], j, i, e, rfl, hfirst, hqueue⟩

/-! ### What a microtask does -/

section
variable {s : PollState ε} {t : Task ε} {q : List (Task ε)} {i : ℕ}

theorem clearInterval_eq :
    s.clearInterval = { s with timer := if s.timer = .null then .null else .cleared } := by
  unfold clearInterval
  split_ifs with h
  · rw [← h]
  · rfl

theorem onDone_true : s.onDone true =
    { s with
      timer := if s.timer = .null then .null else .cleared
      outcome := s.outcome.or (some .resolved) } := by
  rw [onDone, if_pos rfl, clearInterval_eq]
  rfl

theorem onDone_false : s.onDone false =
    { s with
      timer := if s.timer = .null then .active else s.timer
      timers := if s.timer = .null then s.timers + 1 else s.timers } := by
  rw [onDone, if_neg Bool.false_ne_true]
  split_ifs with h
  · rfl
  · rfl

theorem onError_eq (e : ε) : s.onError e =
    { s with
      timer := if s.timer = .null then .null else .cleared
      outcome := s.outcome.or (some (.rejected e)) } := by
  rw [onError, clearInterval_eq]
  rfl

/-- The reactions that wait, by their polls. -/
def reactionIds (q : List (Task ε)) : List ℕ :=
  q.filterMap fun t =>
    match t with
    | .reaction i _ => some i
    | .handler _ _ => none

theorem mem_reactionIds {r : Reply ε} (h : .reaction i r ∈ q) : i ∈ reactionIds q :=
  List.mem_filterMap.2 ⟨_, h, rfl⟩

theorem reactionIds_append (q q' : List (Task ε)) : reactionIds (q ++ q') = reactionIds q ++ reactionIds q' :=
  List.filterMap_append

/-- The polls that wait for a reply or for the reaction to it. -/
def PollState.ids (s : PollState ε) : List ℕ := reactionIds s.queue ++ s.outstanding

theorem perform_ids : (s.perform t).ids = s.ids := by
  rcases t with ⟨i, _ | _ | e⟩ | ⟨i, e⟩
  · rw [perform, onDone_true]
    rfl
  · rw [perform, onDone_false]
    rfl
  · rw [perform, PollState.ids, reactionIds_append]
    change reactionIds s.queue ++ [] ++ s.outstanding = _
    rw [List.append_nil]
    rfl
  · rw [perform, onError_eq]
    rfl

theorem perform_polls : (s.perform t).polls = s.polls := by
  rcases t with ⟨i, _ | _ | e⟩ | ⟨i, e⟩
  · rw [perform, onDone_true]
  · rw [perform, onDone_false]
  · rfl
  · rw [perform, onError_eq]

theorem perform_outcome {o : Outcome ε} (h : s.outcome = some o) : (s.perform t).outcome = some o := by
  rcases t with ⟨i, _ | _ | e⟩ | ⟨i, e⟩
  · rw [perform, onDone_true, h, Option.some_or]
  · rw [perform, onDone_false, h]
  · exact h
  · rw [perform, onError_eq, h, Option.some_or]

end

/-! ### The timer -/

/-- Polls wait at most once. Until there is a timer there is one poll, which is outstanding, in the
queue or has settled the promise; a settled promise has no active timer. -/
structure Bookkeeping (s : PollState ε) : Prop where
  nodup : s.ids.Nodup
  issued : ∀ i ∈ s.ids, i < s.polls
  single : s.timer = .null → s.timers = 0 ∧ s.outstanding.length + s.queue.length + s.outcome.toList.length = 1
  once : s.timer ≠ .null → s.timers = 1
  inactive : s.outcome.isSome = true → s.timer ≠ .active

section
variable {s : PollState ε} {ev : Event ε} {i : ℕ}

theorem step_microtask {t : Task ε} {q : List (Task ε)} (h : s.queue = t :: q) :
    step s .microtask = { s with queue := q }.perform t := by
  rw [step, h]

theorem bookkeeping_start : Bookkeeping (start : PollState ε) where
  nodup := List.nodup_singleton 0
  issued := List.forall_mem_singleton.2 Nat.zero_lt_one
  single := fun _ => ⟨rfl, rfl⟩
  once := fun h => absurd rfl h
  inactive := nofun

theorem reply_ids (r : Reply ε) (h : i ∈ s.outstanding) : (step s (.reply i r)).ids.Perm s.ids := by
  have hids : (step s (.reply i r)).ids = reactionIds s.queue ++ (i :: s.outstanding.erase i) := by
    rw [PollState.ids, step, reactionIds_append, List.append_assoc]
    rfl
  rw [hids]
  exact (List.perm_cons_erase h).symm.append_left _

theorem bookkeeping_tick (h : Bookkeeping s) (ha : Allowed s .tick) : Bookkeeping (step s .tick) := by
  have hids : (step s .tick).ids = s.ids ++ [s.polls] := by
    rw [PollState.ids, PollState.ids, List.append_assoc]
    rfl
  have hactive : (step s .tick).timer = .active := ha.1
  refine ⟨?_, ?_, ?_, fun _ => h.once (by rw [ha.1]; nofun), h.inactive⟩
  · rw [hids]
    refine List.nodup_append.2 ⟨h.nodup, List.nodup_singleton _, fun i hi j hj => ?_⟩
    rw [List.mem_singleton.1 hj]
    exact Nat.ne_of_lt (h.issued i hi)
  · intro i hi
    rw [hids, List.mem_append, List.mem_singleton] at hi
    change i < s.polls + 1
    rcases hi with hi | rfl
    · exact Nat.lt_succ_of_lt (h.issued i hi)
    · exact Nat.lt_succ_self _
  · intro hnull
    rw [hactive] at hnull
    cases hnull

theorem bookkeeping_reply {r : Reply ε} (h : Bookkeeping s) (ha : Allowed s (.reply i r)) :
    Bookkeeping (step s (.reply i r)) := by
  have hperm := reply_ids r ha
  refine ⟨hperm.nodup_iff.2 h.nodup, fun j hj => h.issued j (hperm.mem_iff.1 hj), fun hnull => ?_, h.once,
    h.inactive⟩
  obtain ⟨htimers, hsum⟩ := h.single hnull
  refine ⟨htimers, ?_⟩
  have hlen : (s.outstanding.erase i).length = s.outstanding.length - 1 := List.length_erase_of_mem ha
  have hpos : 0 < s.outstanding.length := List.length_pos_of_mem ha
  change (s.outstanding.erase i).length + (s.queue ++ [_]).length + s.outcome.toList.length = 1
  rw [hlen, List.length_append, List.length_singleton]
  omega

/-- A handler that settles the promise clears the timer. -/
theorem bookkeeping_settle {q : List (Task ε)} {t : Task ε} {o : Outcome ε} (h : Bookkeeping s)
    (hq : s.queue = t :: q) (hids : (reactionIds q ++ s.outstanding).Sublist s.ids) :
    Bookkeeping { s with
      queue := q
      timer := if s.timer = .null then .null else .cleared
      outcome := s.outcome.or (some o) } := by
  refine ⟨hids.nodup h.nodup, fun j hj => h.issued j (hids.subset hj), fun hnull => ?_, fun hnull => ?_, fun _ => ?_⟩
  · have hnull' : s.timer = .null := by
      by_contra hne
      simp only [if_neg hne] at hnull
      cases hnull
    obtain ⟨htimers, hsum⟩ := h.single hnull'
    refine ⟨htimers, ?_⟩
    rw [hq, List.length_cons] at hsum
    have hnone : s.outcome = none := by
      cases ho : s.outcome with
      | none => rfl
      | some o' =>
        rw [ho, Option.toList_some, List.length_singleton] at hsum
        omega
    simp only [hnone, Option.none_or, Option.toList_some, List.length_singleton]
    omega
  · refine h.once fun hnull' => hnull ?_
    exact if_pos hnull'
  · simp only
    split_ifs <;> exact nofun

theorem bookkeeping_microtask (h : Bookkeeping s) (ha : Allowed s .microtask) : Bookkeeping (step s .microtask) := by
  obtain ⟨t, q, hq⟩ := List.exists_cons_of_ne_nil ha
  have hids : (reactionIds q ++ s.outstanding).Sublist s.ids := by
    rw [PollState.ids, hq]
    exact ((List.sublist_cons_self t q).filterMap _).append_right _
  have hsingle : s.timer = .null → s.outcome = none ∧ s.outstanding.length + q.length = 0 := by
    intro hnull
    have hsum := (h.single hnull).2
    rw [hq, List.length_cons] at hsum
    refine ⟨?_, by omega⟩
    cases ho : s.outcome with
    | none => rfl
    | some o =>
      rw [ho, Option.toList_some, List.length_singleton] at hsum
      omega
  rw [step_microtask hq]
  rcases t with ⟨i, _ | _ | e⟩ | ⟨i, e⟩
  · rw [perform, onDone_true]
    exact bookkeeping_settle (s := s) h hq hids
  · rw [perform, onDone_false]
    refine ⟨hids.nodup h.nodup, fun j hj => h.issued j (hids.subset hj), fun hnull => ?_, fun _ => ?_, fun ho => ?_⟩
    · simp only at hnull
      split_ifs at hnull with h0
      exact absurd hnull h0
    · simp only
      split_ifs with h0
      · rw [(h.single h0).1]
      · exact h.once h0
    · have h0 : s.timer ≠ .null := by
        intro h0
        change s.outcome.isSome = true at ho
        rw [(hsingle h0).1] at ho
        cases ho
      simp only [if_neg h0]
      exact h.inactive ho
  · have hids' := perform_ids (s := { s with queue := q }) (t := .reaction i (.error e))
    refine ⟨?_, ?_, fun hnull => ?_, h.once, h.inactive⟩
    · rw [hids']
      exact hids.nodup h.nodup
    · intro j hj
      rw [hids'] at hj
      exact h.issued j (hids.subset hj)
    · refine ⟨(h.single hnull).1, ?_⟩
      change s.outstanding.length + (q ++ [_]).length + s.outcome.toList.length = 1
      have hsum := hsingle hnull
      rw [hsum.1, List.length_append, List.length_singleton, Option.toList_none, List.length_nil]
      omega
  · rw [perform, onError_eq]
    exact bookkeeping_settle (s := s) h hq hids

theorem bookkeeping_step (h : Bookkeeping s) (ha : Allowed s ev) : Bookkeeping (step s ev) := by
  cases ev with
  | tick => exact bookkeeping_tick h ha
  | reply i r => exact bookkeeping_reply h ha
  | microtask => exact bookkeeping_microtask h ha

end

/-! ### What settles the promise -/

/-- Replies that say to go on. -/
def NotDone (q : List (Task ε)) : Prop := ∀ t ∈ q, ∃ i, t = .reaction i .notDone

def Reactions (q : List (Task ε)) : Prop := ∀ t ∈ q, ∃ i r, t = .reaction i r

def HasDone (q : List (Task ε)) : Prop := ∃ i, .reaction i .done ∈ q

/-- The poll was answered and the reaction to the answer has run. -/
def Retired (i : ℕ) (s : PollState ε) : Prop := i < s.polls ∧ i ∉ s.ids

/-- How far the first done or error reply has got: its reaction waits (`done`, `failing`), the handler of
the error waits (`failed`), or the promise is settled, by it or by a done reply that overtook it. -/
inductive Progress (s : PollState ε) : Option (ℕ × Outcome ε) → Prop → Prop
  | waiting {ov : Prop} (h : s.outcome = none) (hq : NotDone s.queue) (hov : ¬ov) : Progress s none ov
  | done {ov : Prop} (i : ℕ) (before later : List (Task ε)) (h : s.outcome = none)
      (hq : s.queue = before ++ .reaction i .done :: later) (hbefore : NotDone before) (hov : ¬ov) :
      Progress s (some (i, .resolved)) ov
  | resolved {ov : Prop} (i : ℕ) (h : s.outcome = some .resolved) (hov : ¬ov) : Progress s (some (i, .resolved)) ov
  | failing {ov : Prop} (i : ℕ) (e : ε) (before later : List (Task ε)) (h : s.outcome = none)
      (hq : s.queue = before ++ .reaction i (.error e) :: later) (hbefore : NotDone before)
      (hlater : Reactions later) (hov : ov ↔ HasDone later) : Progress s (some (i, .rejected e)) ov
  | failed {ov : Prop} (i : ℕ) (e : ε) (before later : List (Task ε)) (h : s.outcome = none)
      (hq : s.queue = before ++ .handler i e :: later) (hbefore : Reactions before) (hi : Retired i s)
      (hov : ov ↔ HasDone before) : Progress s (some (i, .rejected e)) ov
  | rejected {ov : Prop} (i : ℕ) (e : ε) (h : s.outcome = some (.rejected e)) (hi : Retired i s) (hov : ¬ov) :
      Progress s (some (i, .rejected e)) ov
  | overtaken {ov : Prop} (i : ℕ) (e : ε) (h : s.outcome = some .resolved) (hov : ov) :
      Progress s (some (i, .rejected e)) ov

section
variable {s : PollState ε} {ev : Event ε} {first : Option (ℕ × Outcome ε)} {ov : Prop} {i : ℕ}

/-- A done reply that overtakes the error that came first. -/
def Overtakes (s : PollState ε) (first : Option (ℕ × Outcome ε)) (ev : Event ε) : Prop :=
  ∃ j i e, ev = .reply j .done ∧ first = some (i, .rejected e) ∧ .reaction i (.error e) ∈ s.queue

theorem NotDone.append {q q' : List (Task ε)} (h : NotDone q) (h' : NotDone q') : NotDone (q ++ q') := by
  intro t ht
  rcases List.mem_append.1 ht with ht | ht
  · exact h t ht
  · exact h' t ht

theorem Reactions.append {q q' : List (Task ε)} (h : Reactions q) (h' : Reactions q') : Reactions (q ++ q') := by
  intro t ht
  rcases List.mem_append.1 ht with ht | ht
  · exact h t ht
  · exact h' t ht

theorem hasDone_append {q q' : List (Task ε)} : HasDone (q ++ q') ↔ HasDone q ∨ HasDone q' := by
  constructor
  · rintro ⟨i, hi⟩
    rcases List.mem_append.1 hi with hi | hi
    · exact .inl ⟨i, hi⟩
    · exact .inr ⟨i, hi⟩
  · rintro (⟨i, hi⟩ | ⟨i, hi⟩)
    · exact ⟨i, List.mem_append_left _ hi⟩
    · exact ⟨i, List.mem_append_right _ hi⟩

theorem retired_step (h : Retired i s) (ha : Allowed s ev) : Retired i (step s ev) := by
  obtain ⟨hlt, hi⟩ := h
  cases ev with
  | tick =>
    refine ⟨Nat.lt_succ_of_lt hlt, fun hm => ?_⟩
    have hids : (step s .tick).ids = s.ids ++ [s.polls] := by
      rw [PollState.ids, PollState.ids, List.append_assoc]
      rfl
    rw [hids, List.mem_append, List.mem_singleton] at hm
    rcases hm with hm | rfl
    · exact hi hm
    · exact Nat.lt_irrefl _ hlt
  | reply j r => exact ⟨hlt, fun hm => hi ((reply_ids r ha).mem_iff.1 hm)⟩
  | microtask =>
    obtain ⟨t, q, hq⟩ := List.exists_cons_of_ne_nil ha
    rw [step_microtask hq]
    refine ⟨by rw [perform_polls]; exact hlt, fun hm => hi ?_⟩
    rw [perform_ids] at hm
    have hsub : (reactionIds q ++ s.outstanding).Sublist s.ids := by
      rw [PollState.ids, hq]
      exact ((List.sublist_cons_self t q).filterMap _).append_right _
    exact hsub.subset hm

theorem outcome_step {o : Outcome ε} (h : s.outcome = some o) : (step s ev).outcome = some o := by
  cases ev with
  | tick => exact h
  | reply j r => exact h
  | microtask =>
    rw [step]
    split
    · exact h
    · exact perform_outcome h

/-- Nothing overtakes an error whose reaction has run. -/
theorem not_overtakes {e : ε} (h : Retired i s) : ¬Overtakes s (some (i, .rejected e)) ev := by
  rintro ⟨j, i', e', -, hfirst, hqueue⟩
  cases hfirst
  exact h.2 (List.mem_append_left _ (mem_reactionIds hqueue))

theorem not_overtakes_resolved : ¬Overtakes s (some (i, .resolved)) ev := by
  rintro ⟨j, i', e', -, hfirst, -⟩
  cases hfirst

theorem not_overtakes_none : ¬Overtakes s none ev := by
  rintro ⟨j, i', e', -, hfirst, -⟩
  cases hfirst

theorem Progress.congr {ov' : Prop} (h : Progress s first ov) (hov : ov ↔ ov') : Progress s first ov' :=
  propext hov ▸ h

theorem progress_tick (h : Progress s first ov) (ha : Allowed s .tick) : Progress (step s .tick) first ov := by
  cases h with
  | waiting h hq hov => exact .waiting h hq hov
  | done i before later h hq hbefore hov => exact .done i before later h hq hbefore hov
  | resolved i h hov => exact .resolved i h hov
  | failing i e before later h hq hbefore hlater hov => exact .failing i e before later h hq hbefore hlater hov
  | failed i e before later h hq hbefore hi hov =>
    exact .failed i e before later h hq hbefore (retired_step hi ha) hov
  | rejected i e h hi hov => exact .rejected i e h (retired_step hi ha) hov
  | overtaken i e h hov => exact .overtaken i e h hov

theorem queue_reply (r : Reply ε) {q before later : List (Task ε)} {t : Task ε} (hq : q = before ++ t :: later) :
    q ++ [.reaction i r] = before ++ t :: (later ++ [.reaction i r]) := by
  rw [hq, List.append_assoc, List.cons_append]

theorem hasDone_cons {t : Task ε} {q : List (Task ε)} (h : ∀ j, t ≠ .reaction j .done) :
    HasDone (t :: q) ↔ HasDone q := by
  constructor
  · rintro ⟨j, hj⟩
    rcases List.mem_cons.1 hj with hj | hj
    · exact absurd hj.symm (h j)
    · exact ⟨j, hj⟩
  · rintro ⟨j, hj⟩
    exact ⟨j, .tail _ hj⟩

theorem hasDone_singleton {r : Reply ε} : HasDone [.reaction i r] ↔ r = .done := by
  constructor
  · rintro ⟨j, hj⟩
    cases List.mem_singleton.1 hj
    rfl
  · rintro rfl
    exact ⟨i, .head _⟩

/-- The first reply that is not "not done" starts its way; a later one only matters if it overtakes it. -/
theorem progress_reply {r : Reply ε} (h : Progress s first ov) (ha : Allowed s (.reply i r)) :
    Progress (step s (.reply i r)) (first.or (Event.reply i r).settling) (ov ∨ Overtakes s first (.reply i r)) := by
  cases h with
  | waiting h hq hov =>
    have hov' : ¬(ov ∨ Overtakes s none (.reply i r)) := not_or.2 ⟨hov, not_overtakes_none⟩
    cases r with
    | done => exact .done i s.queue [] h rfl hq hov'
    | notDone =>
      refine .waiting h (NotDone.append hq ?_) hov'
      intro t ht
      exact ⟨i, List.mem_singleton.1 ht⟩
    | error e =>
      refine .failing i e s.queue [] h rfl hq nofun (iff_of_false hov' ?_)
      rintro ⟨j, hj⟩
      cases hj
  | done i' before later h hq hbefore hov =>
    exact .done i' before _ h (queue_reply r hq) hbefore (not_or.2 ⟨hov, not_overtakes_resolved⟩)
  | resolved i' h hov => exact .resolved i' h (not_or.2 ⟨hov, not_overtakes_resolved⟩)
  | failing i' e before later h hq hbefore hlater hov =>
    refine .failing i' e before _ h (queue_reply r hq) hbefore (hlater.append ?_) ?_
    · intro t ht
      exact ⟨i, r, List.mem_singleton.1 ht⟩
    · rw [hasDone_append, hasDone_singleton, hov]
      refine or_congr_right ?_
      constructor
      · rintro ⟨j, i'', e', hev, -, -⟩
        cases hev
        rfl
      · rintro rfl
        refine ⟨i, i', e, rfl, rfl, ?_⟩
        rw [hq]
        exact List.mem_append_right _ (.head _)
  | failed i' e before later h hq hbefore hi hov =>
    have hno : ¬Overtakes s (some (i', .rejected e)) (.reply i r) := not_overtakes hi
    refine .failed i' e before _ h (queue_reply r hq) hbefore (retired_step hi ha) ?_
    rw [or_iff_left hno, hov]
  | rejected i' e h hi hov => exact .rejected i' e h (retired_step hi ha) (not_or.2 ⟨hov, not_overtakes hi⟩)
  | overtaken i' e h hov => exact .overtaken i' e h (.inl hov)

/-- The first microtask of a queue that is divided at a task. -/
theorem cons_eq_append {t t' : Task ε} {q before later : List (Task ε)} (h : t :: q = before ++ t' :: later) :
    (before = [] ∧ t = t' ∧ q = later) ∨ ∃ before', before = t :: before' ∧ q = before' ++ t' :: later := by
  cases before with
  | nil =>
    obtain ⟨rfl, rfl⟩ := List.cons.inj h
    exact .inl ⟨rfl, rfl, rfl⟩
  | cons t'' before' =>
    obtain ⟨rfl, rfl⟩ := List.cons.inj h
    exact .inr ⟨before', rfl, rfl⟩

theorem progress_microtask (hb : Bookkeeping s) (h : Progress s first ov) (ha : Allowed s .microtask) :
    Progress (step s .microtask) first ov := by
  obtain ⟨t, q, hcons⟩ := List.exists_cons_of_ne_nil ha
  have hretired : ∀ {i}, Retired i s → Retired i ({ s with queue := q }.perform t) := by
    intro i hi
    rw [← step_microtask hcons]
    exact retired_step hi ha
  rw [step_microtask hcons]
  cases h with
  | waiting h hq hov =>
    obtain ⟨j, rfl⟩ := hq t (by rw [hcons]; exact .head _)
    rw [perform, onDone_false]
    refine .waiting h (fun t' ht' => hq t' ?_) hov
    rw [hcons]
    exact .tail _ ht'
  | done i before later h hq hbefore hov =>
    rw [hcons] at hq
    rcases cons_eq_append hq with ⟨rfl, rfl, rfl⟩ | ⟨before', rfl, rfl⟩
    · rw [perform, onDone_true]
      exact .resolved i (by simp only [h, Option.none_or]) hov
    · obtain ⟨j, rfl⟩ := hbefore t (.head _)
      rw [perform, onDone_false]
      exact .done i before' later h rfl (fun t' ht' => hbefore t' (.tail _ ht')) hov
  | resolved i h hov => exact .resolved i (perform_outcome h) hov
  | failing i e before later h hq hbefore hlater hov =>
    rw [hcons] at hq
    rcases cons_eq_append hq with ⟨rfl, rfl, rfl⟩ | ⟨before', rfl, rfl⟩
    · have hids : i ∈ s.ids := by
        rw [PollState.ids, hcons]
        exact List.mem_append_left _ (.head _)
      have hnodup := hb.nodup
      rw [PollState.ids, hcons] at hnodup
      have hnew : i ∉ reactionIds q ++ s.outstanding := (List.nodup_cons.1 hnodup).1
      refine .failed i e q [] h rfl hlater ⟨hb.issued i hids, fun hm => hnew ?_⟩ hov
      rw [perform_ids] at hm
      exact hm
    · obtain ⟨j, rfl⟩ := hbefore t (.head _)
      rw [perform, onDone_false]
      exact .failing i e before' later h rfl (fun t' ht' => hbefore t' (.tail _ ht')) hlater hov
  | failed i e before later h hq hbefore hi hov =>
    rw [hcons] at hq
    rcases cons_eq_append hq with ⟨rfl, rfl, rfl⟩ | ⟨before', rfl, rfl⟩
    · have hnone : ¬ov := by
        rw [hov]
        rintro ⟨j, hj⟩
        cases hj
      have hi' := hretired hi
      rw [perform, onError_eq] at hi' ⊢
      exact .rejected i e (by simp only [h, Option.none_or]) hi' hnone
    · obtain ⟨j, r, rfl⟩ := hbefore t (.head _)
      have hi' := hretired hi
      have hrest : Reactions before' := fun t' ht' => hbefore t' (.tail _ ht')
      cases r with
      | done =>
        have hdone : ov := hov.2 ⟨j, .head _⟩
        rw [perform, onDone_true]
        exact .overtaken i e (by simp only [h, Option.none_or]) hdone
      | notDone =>
        have hsame : ov ↔ HasDone before' := hov.trans (hasDone_cons nofun)
        rw [perform, onDone_false] at hi' ⊢
        exact .failed i e before' later h rfl hrest hi' hsame
      | error e' =>
        have hsame : ov ↔ HasDone before' := hov.trans (hasDone_cons nofun)
        refine .failed i e before' (later ++ [.handler j e']) h ?_ hrest hi' hsame
        rw [perform, List.append_assoc, List.cons_append]
  | rejected i e h hi hov => exact .rejected i e (perform_outcome h) (hretired hi) hov
  | overtaken i e h hov => exact .overtaken i e (perform_outcome h) hov

end

/-! ### Runs -/

/-- What a run of `pollUntilDone` amounts to. -/
structure Settles (evs : List (Event ε)) : Prop where
  oneTimer : (after step start evs).timers ≤ 1
  noTimerLeft : (after step start evs).outcome.isSome = true → (after step start evs).timer ≠ .active
  once : ∀ o, (after step start evs).outcome = some o → ∀ later, (after step start (evs ++ later)).outcome = some o
  byFirst : ∀ o, (after step start evs).outcome = some o →
    (¬Overtaken evs ∧ ∃ i, firstSettling evs = some (i, o)) ∨ (Overtaken evs ∧ o = .resolved)
  settled : (after step start evs).queue = [] → (firstSettling evs).isSome = true →
    (after step start evs).outcome.isSome = true

theorem bookkeeping_run {evs : List (Event ε)} (h : AllSteps step Allowed start evs) :
    Bookkeeping (after step start evs) :=
  AllSteps.invariant (fun _ _ hs ha => bookkeeping_step hs ha) bookkeeping_start h

theorem progress_run {evs : List (Event ε)} (h : AllSteps step Allowed start evs) :
    Progress (after step start evs) (firstSettling evs) (Overtaken evs) := by
  induction evs using List.reverseRecOn with
  | nil =>
    refine .waiting rfl nofun ?_
    rintro ⟨before, later, j, i, e, hevs, -⟩
    cases List.nil_eq_append_iff.1 hevs |>.2
  | append_singleton evs ev ih =>
    obtain ⟨hevs, ha, -⟩ := AllSteps.append.1 h
    have hp := ih hevs
    rw [after_append, firstSettling_concat]
    refine Progress.congr ?_ (overtaken_concat evs ev).symm
    cases ev with
    | tick =>
      rw [show (Event.tick : Event ε).settling = none from rfl, Option.or_none]
      refine Progress.congr (progress_tick hp ha) (or_iff_left ?_).symm
      rintro ⟨j, i, e, hev, -⟩
      cases hev
    | reply i r => exact progress_reply hp ha
    | microtask =>
      rw [show (Event.microtask : Event ε).settling = none from rfl, Option.or_none]
      refine Progress.congr (progress_microtask (bookkeeping_run hevs) hp ha) (or_iff_left ?_).symm
      rintro ⟨j, i, e, hev, -⟩
      cases hev

theorem outcome_run {s : PollState ε} {o : Outcome ε} (h : s.outcome = some o) (later : List (Event ε)) :
    (after step s later).outcome = some o := by
  induction later generalizing s with
  | nil => exact h
  | cons ev later ih => exact ih (outcome_step h)

theorem Progress.byFirst {s : PollState ε} {first : Option (ℕ × Outcome ε)} {ov : Prop} (h : Progress s first ov)
    {o : Outcome ε} (ho : s.outcome = some o) : (¬ov ∧ ∃ i, first = some (i, o)) ∨ (ov ∧ o = .resolved) := by
  cases h with
  | waiting h => cases h.symm.trans ho
  | done _ _ _ h => cases h.symm.trans ho
  | failing _ _ _ _ h => cases h.symm.trans ho
  | failed _ _ _ _ h => cases h.symm.trans ho
  | resolved i h hov =>
    obtain rfl := Option.some.inj (h.symm.trans ho)
    exact .inl ⟨hov, i, rfl⟩
  | rejected i e h _ hov =>
    obtain rfl := Option.some.inj (h.symm.trans ho)
    exact .inl ⟨hov, i, rfl⟩
  | overtaken i e h hov =>
    obtain rfl := Option.some.inj (h.symm.trans ho)
    exact .inr ⟨hov, rfl⟩

theorem Progress.settled {s : PollState ε} {first : Option (ℕ × Outcome ε)} {ov : Prop} (h : Progress s first ov)
    (hqueue : s.queue = []) (hfirst : first.isSome = true) : s.outcome.isSome = true := by
  cases h with
  | waiting => cases hfirst
  | done _ before _ _ hq => exact absurd (hq.symm.trans hqueue) (by simp)
  | failing _ _ before _ _ hq => exact absurd (hq.symm.trans hqueue) (by simp)
  | failed _ _ before _ _ hq => exact absurd (hq.symm.trans hqueue) (by simp)
  | resolved i h => rw [h, Option.isSome_some]
  | rejected i e h => rw [h, Option.isSome_some]
  | overtaken i e h => rw [h, Option.isSome_some]

/-- In every order of ticks, replies and microtasks there is at most one timer, and the promise is
settled once, leaves no active timer and has the outcome of the first done or error reply, unless a done
reply overtook an error. -/
theorem pollUntilDone_settles (evs : List (Event ε)) (h : AllSteps step Allowed start evs) : Settles evs := by
  have hb := bookkeeping_run h
  have hp := progress_run h
  refine ⟨?_, hb.inactive, fun o ho later => ?_, fun o ho => hp.byFirst ho, hp.settled⟩
  · by_cases hnull : (after step start evs).timer = .null
    · rw [(hb.single hnull).1]
      exact Nat.zero_le 1
    · exact Nat.le_of_eq (hb.once hnull)
  · rw [after_append]
    exact outcome_run ho later

/-- Two overlapping polls: an error, and in the same turn a done reply. -/
def overtakingRun : List (Event Unit) :=
  [.reply 0 .notDone, .microtask, .tick, .tick, .reply 1 (.error ()), .reply 2 .done, .microtask, .microtask]

theorem overtakingRun_settles : AllSteps step Allowed start overtakingRun ∧ Settles overtakingRun :=
  ⟨by decide, pollUntilDone_settles overtakingRun (by decide)⟩

/-- The first of these replies is the error, and the promise is resolved. -/
theorem overtakingRun_resolved : AllSteps step Allowed start overtakingRun ∧
    firstSettling overtakingRun = some (1, .rejected ()) ∧
    (after step start overtakingRun).outcome = some .resolved := by
  decide

/-! ### Which poll resolves the promise -/

/-- The reaction that resolves the promise is that to the reply of poll `i`. -/
def CompletedBy (evs : List (Event ε)) (i : ℕ) : Prop :=
  ∃ before later queue, evs = before ++ .microtask :: later ∧ (after step start before).outcome = none ∧
    (after step start before).queue = .reaction i .done :: queue

section
variable {s : PollState ε} {ev : Event ε} {evs : List (Event ε)} {i : ℕ} {r : Reply ε}

theorem CompletedBy.append (h : CompletedBy evs i) (later : List (Event ε)) :
    CompletedBy (evs ++ later) i := by
  obtain ⟨before, later', queue, rfl, hnone, hq⟩ := h
  exact ⟨before, later' ++ later, queue, by rw [List.append_assoc, List.cons_append], hnone, hq⟩

end

end AerospikeNode.Job
