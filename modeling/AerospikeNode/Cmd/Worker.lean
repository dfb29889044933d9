import Mathlib.Data.List.Count
import Mathlib.Tactic.Common

/-!
# Filter expressions of worker commands

The commands of `src/main/commands` that a worker thread runs with a policy that may have a filter
expression. `async_invoke` calls `prepare`, has a worker call `execute`, and calls `respond`, which deletes
the command; that of `QueryForeach` closes its `uv_async_t` first. Who destroys the expression differs:
`execute`, the destructor, or both.

`clean_iff`: in which runs every expression is destroyed once, and no handle is closed that was not
initialised.
-/

namespace AerospikeNode

inductive WorkerClass where
  | queryForeach
  | queryApply
  | queryBackground
  | scanBackground
  | batchGet
  | batchExists
  | batchSelect
  | batchApply
  | batchRemove
deriving DecidableEq

/-- The policies of a command that can have a filter expression: `policy`, and `policy_apply` or
`policy_remove`. -/
inductive FilterPolicy where
  | policy
  | records
deriving DecidableEq

inductive WorkerEvent where
  /-- `compile_expression` has set `filter_exp`. -/
  | compiled (p : FilterPolicy)
  /-- `as_exp_destroy` of `filter_exp`. -/
  | destroyed (p : FilterPolicy)
  /-- `uv_async_init` -/
  | handleInit
  /-- `uv_close` -/
  | handleClose
deriving DecidableEq

/-- What converting a policy does: whether it sets `filter_exp`, and whether it returns OK. A property that
is read after the expression can make it fail. -/
structure Conversion where
  filter : Bool
  ok : Bool

/-- What a command is given, and what becomes of it. -/
structure WorkerRun where
  /-- Whether `batch_from_jsarray`, `bins_from_jsarray` and, if there is a UDF, `udfargs_from_jsobject`
  return OK. -/
  keys : Bool
  bins : Bool
  udf : Option Bool
  /-- The policies that are objects. -/
  policies : FilterPolicy → Option Conversion
  /-- Whether the client has a cluster when the worker runs. -/
  connected : Bool
  /-- The error of the C client's command. -/
  result : Option String

structure WorkerCmd where
  /-- The policies that were allocated, and whether their `filter_exp` is set. -/
  policies : FilterPolicy → Option Bool
  err : Option String
  events : List WorkerEvent

namespace WorkerCmd

def start : WorkerCmd := ⟨fun _ => none, none, []⟩

/-- `filter_exp` is not null. -/
def holds (c : WorkerCmd) (p : FilterPolicy) : Bool := (c.policies p).getD false

def log (c : WorkerCmd) (e : WorkerEvent) : WorkerCmd := { c with events := c.events ++ [e] }

/-- `CmdSetError` -/
def setError (c : WorkerCmd) (message : String) : WorkerCmd := { c with err := some message }

/-- A policy is allocated and converted. -/
def store (c : WorkerCmd) (p : FilterPolicy) (filter : Bool) : WorkerCmd :=
  { c with
    policies := fun p' => if p' = p then some filter else c.policies p'
    events := c.events ++ if filter then [.compiled p] else [] }

/-- The expression is destroyed if there is one; the pointer to it is left. -/
def destroyFilter (c : WorkerCmd) (p : FilterPolicy) : WorkerCmd :=
  if c.holds p then c.log (.destroyed p) else c

/-- The policy is freed with its expression, and the pointer to it is cleared. -/
def freePolicy (c : WorkerCmd) (p : FilterPolicy) : WorkerCmd :=
  { c.destroyFilter p with policies := fun p' => if p' = p then none else c.policies p' }

end WorkerCmd

/-! ### The commands -/

/-- A step of `prepare` that can fail. -/
inductive PrepareStep where
  | check (ok : Bool) (message : String)
  | policy (p : FilterPolicy) (conversion : Option Conversion) (message : String)

namespace PrepareStep

def ok : PrepareStep → Bool
  | check ok _ => ok
  | policy _ conversion _ => conversion.all (·.ok)

/-- What the step does to the command if it does not fail. -/
def apply (c : WorkerCmd) : PrepareStep → WorkerCmd
  | check _ _ => c
  | policy p conversion _ => conversion.elim c fun conversion => c.store p conversion.filter

def message : PrepareStep → String
  | check _ message => message
  | policy _ _ message => message

/-- The steps up to the first that fails. -/
def runAll : List PrepareStep → WorkerCmd → WorkerCmd
  | [], c => c
  | s :: steps, c => if s.ok then runAll steps (s.apply c) else (s.apply c).setError s.message

end PrepareStep

namespace WorkerClass

open WorkerCmd

def prepareSteps (r : WorkerRun) : WorkerClass → List PrepareStep
  | queryForeach | queryApply | queryBackground | scanBackground =>
    [.policy .policy (r.policies .policy) "Policy parameter is invalid"]
  | batchGet | batchExists =>
    [.check r.keys "Batch keys parameter invalid",
      .policy .policy (r.policies .policy) "Batch policy parameter invalid"]
  | batchSelect =>
    [.check r.keys "Batch keys parameter invalid", .check r.bins "Batch bins parameter invalid",
      .policy .policy (r.policies .policy) "Batch policy parameter invalid"]
  | batchApply =>
    [.check r.keys "Batch keys parameter invalid", .check (r.udf.all id) "Batch keys parameter invalid",
      .policy .policy (r.policies .policy) "Batch policy parameter invalid",
      .policy .records (r.policies .records) "Batch policy parameter invalid"]
  | batchRemove =>
    [.check r.keys "Batch keys parameter invalid",
      .policy .policy (r.policies .policy) "Batch policy parameter invalid",
      .policy .records (r.policies .records) "Batch remove policy parameter invalid"]

def prepare (r : WorkerRun) (cls : WorkerClass) : WorkerCmd :=
  let c := PrepareStep.runAll (cls.prepareSteps r) .start
  match cls with
  | queryForeach => if c.err.isSome then c else c.log .handleInit
  | _ => c

/-- `CanExecute` -/
def canExecute (r : WorkerRun) (c : WorkerCmd) : Bool := c.err.isNone && r.connected

/-- What `execute` does after the C client's command. -/
def afterExecute (c : WorkerCmd) : WorkerClass → WorkerCmd
  | batchApply | batchRemove => c
  | _ => c.destroyFilter .policy

def execute (r : WorkerRun) (cls : WorkerClass) (c : WorkerCmd) : WorkerCmd :=
  if canExecute r c then cls.afterExecute { c with err := r.result } else c

/-- The destructor. Those of the first two commands call `free_query` with their policy. -/
def destructor (c : WorkerCmd) : WorkerClass → WorkerCmd
  | queryForeach | queryApply => c.destroyFilter .policy
  | queryBackground | scanBackground | batchGet | batchExists | batchSelect => c
  | batchApply | batchRemove => (c.freePolicy .policy).freePolicy .records

/-- `respond`, up to where the command is deleted. -/
def respond (cls : WorkerClass) (c : WorkerCmd) : WorkerCmd :=
  match cls with
  | queryForeach => cls.destructor (c.log .handleClose)
  | _ => cls.destructor c

/-- A command from `prepare` to its destructor. -/
def run (cls : WorkerClass) (r : WorkerRun) : WorkerCmd := cls.respond (cls.execute r (cls.prepare r))

end WorkerClass

/-- Every expression is destroyed once, and only a handle that was initialised is closed. -/
structure CleanEvents (events : List WorkerEvent) : Prop where
  once : ∀ p, .compiled p ∈ events → events.count (.destroyed p) = 1
  closes : ∀ before later, events = before ++ .handleClose :: later → .handleInit ∈ before

/-! ### The runs -/

namespace PrepareStep

/-- The policy that the step converts. -/
def target : PrepareStep → Option FilterPolicy
  | check _ _ => none
  | policy p _ _ => some p

/-- Whether the step sets the expression of this policy. -/
def compiles (p : FilterPolicy) : PrepareStep → Bool
  | check _ _ => false
  | policy p' conversion _ => decide (p' = p) && conversion.any (·.filter)

/-- Whether one of the steps that are reached sets the expression of this policy. -/
def carries (p : FilterPolicy) : List PrepareStep → Bool
  | [] => false
  | s :: steps => s.compiles p || (s.ok && carries p steps)

end PrepareStep

namespace WorkerClass

/-- The command gets a policy with an expression. -/
def carries (cls : WorkerClass) (r : WorkerRun) (p : FilterPolicy) : Bool := PrepareStep.carries p (cls.prepareSteps r)

/-- No step of `prepare` fails. -/
def prepares (cls : WorkerClass) (r : WorkerRun) : Bool := (cls.prepareSteps r).all (·.ok)

/-- The command is prepared, and the client is connected when the worker runs. -/
def executes (cls : WorkerClass) (r : WorkerRun) : Bool := cls.prepares r && r.connected

/-- The runs in which the command cleans up. -/
def CleansUp (cls : WorkerClass) (r : WorkerRun) : Prop :=
  match cls with
  | queryForeach => cls.prepares r = true ∧ (cls.carries r .policy = true → cls.executes r = false)
  | queryApply => cls.carries r .policy = true → cls.executes r = false
  | queryBackground | scanBackground | batchGet | batchExists | batchSelect =>
    cls.carries r .policy = true → cls.executes r = true
  | batchApply | batchRemove => True

end WorkerClass

namespace WorkerCmd

variable {c : WorkerCmd} {p p' : FilterPolicy}

/-- What `destroyFilter` logs. -/
def drop (c : WorkerCmd) (p : FilterPolicy) : List WorkerEvent := if c.holds p then [.destroyed p] else []

theorem events_destroyFilter (c : WorkerCmd) (p : FilterPolicy) :
    (c.destroyFilter p).events = c.events ++ c.drop p := by
  rw [destroyFilter, drop]
  split_ifs
  · rfl
  · exact (List.append_nil _).symm

theorem events_freePolicy (c : WorkerCmd) (p : FilterPolicy) : (c.freePolicy p).events = c.events ++ c.drop p :=
  events_destroyFilter c p

theorem holds_destroyFilter : (c.destroyFilter p).holds p' = c.holds p' := by
  rw [destroyFilter]
  split_ifs <;> rfl

theorem holds_freePolicy (h : p' ≠ p) : (c.freePolicy p).holds p' = c.holds p' :=
  congrArg (fun filter : Option Bool => filter.getD false) (if_neg h)

theorem holds_store {filter : Bool} : (c.store p filter).holds p' = if p' = p then filter else c.holds p' := by
  rw [holds, store]
  dsimp only
  split_ifs <;> rfl

/-- Up to the end of `prepare`: expressions were compiled, and nothing was destroyed or closed. -/
structure Tracks (c : WorkerCmd) : Prop where
  compiled : ∀ p, .compiled p ∈ c.events ↔ c.holds p = true
  destroyed : ∀ p, .destroyed p ∉ c.events
  closed : .handleClose ∉ c.events

theorem tracks_start : Tracks start :=
    ⟨fun _ => iff_of_false List.not_mem_nil Bool.false_ne_true, fun _ => nofun, nofun⟩

theorem Tracks.store (h : Tracks c) (hnew : c.holds p = false) (filter : Bool) : Tracks (c.store p filter) := by
  cases filter with
  | false =>
    refine ⟨fun p' => ?_, fun p' => ?_, ?_⟩
    · rw [holds_store]
      change .compiled p' ∈ c.events ++ [] ↔ _
      rw [List.append_nil, h.compiled]
      split_ifs with hp
      · rw [hp, hnew]
        exact iff_of_false Bool.false_ne_true not_false
      · exact Iff.rfl
    · change .destroyed p' ∉ c.events ++ []
      rw [List.append_nil]
      exact h.destroyed p'
    · change .handleClose ∉ c.events ++ []
      rw [List.append_nil]
      exact h.closed
  | true =>
    refine ⟨fun p' => ?_, fun p' => ?_, ?_⟩
    · rw [holds_store]
      change .compiled p' ∈ c.events ++ [.compiled p] ↔ _
      rw [List.mem_append, List.mem_singleton, h.compiled, WorkerEvent.compiled.injEq]
      split_ifs with hp
      · exact iff_of_true (.inr hp) rfl
      · exact or_iff_left hp
    · change .destroyed p' ∉ c.events ++ [.compiled p]
      rw [List.mem_append, List.mem_singleton, not_or]
      exact ⟨h.destroyed p', nofun⟩
    · change .handleClose ∉ c.events ++ [.compiled p]
      rw [List.mem_append, List.mem_singleton, not_or]
      exact ⟨h.closed, nofun⟩

end WorkerCmd

namespace PrepareStep

open WorkerCmd

variable {c : WorkerCmd}

theorem tracks_apply {s : PrepareStep} (h : Tracks c) (hnew : ∀ p ∈ s.target, c.holds p = false) :
    Tracks (s.apply c) := by
  cases s with
  | check ok message => exact h
  | policy p conversion message =>
    cases conversion with
    | none => exact h
    | some conversion => exact h.store (hnew p rfl) conversion.filter

theorem holds_apply {s : PrepareStep} {p : FilterPolicy} (hnew : ∀ p ∈ s.target, c.holds p = false) :
    (s.apply c).holds p = (c.holds p || s.compiles p) := by
  cases s with
  | check ok message => exact (Bool.or_false _).symm
  | policy p' conversion message =>
    have hp' := hnew p' rfl
    cases conversion with
    | none => exact (by rw [compiles, Option.any_none, Bool.and_false, Bool.or_false]; rfl)
    | some conversion =>
      have hstore : (apply c (policy p' (some conversion) message)).holds p = _ := holds_store
      rw [hstore, compiles, Option.any_some]
      by_cases hp : p = p'
      · rw [if_pos hp, hp, hp', decide_eq_true rfl, Bool.false_or, Bool.true_and]
      · rw [if_neg hp, decide_eq_false (Ne.symm hp), Bool.false_and, Bool.or_false]

theorem target_of_compiles {s : PrepareStep} {p : FilterPolicy} (h : s.compiles p = true) : s.target = some p := by
  cases s with
  | check ok message => cases h
  | policy p' conversion message =>
    rw [compiles, Bool.and_eq_true, decide_eq_true_iff] at h
    exact congrArg some h.1

theorem err_apply (s : PrepareStep) (c : WorkerCmd) : (s.apply c).err = c.err := by
  cases s with
  | check ok message => rfl
  | policy p conversion message => cases conversion <;> rfl

/-- The policies of the first step and of the others are not the same. -/
theorem compiles_eq_false {s : PrepareStep} {steps : List PrepareStep} {p : FilterPolicy}
    (hnodup : ((s :: steps).filterMap target).Nodup) (hp : p ∈ steps.filterMap target) : s.compiles p = false := by
  by_contra hne
  have htarget := target_of_compiles (eq_true_of_ne_false hne)
  rw [List.filterMap_cons_some htarget, List.nodup_cons] at hnodup
  exact hnodup.1 hp

/-- What the steps of `prepare` leave, if no two convert the same policy. -/
theorem runAll_spec {steps : List PrepareStep} {c : WorkerCmd} (h : Tracks c) (herr : c.err = none)
    (hnodup : (steps.filterMap target).Nodup) (hnew : ∀ p ∈ steps.filterMap target, c.holds p = false) :
    Tracks (runAll steps c) ∧ (∀ p, (runAll steps c).holds p = (c.holds p || carries p steps)) ∧
      (runAll steps c).err.isNone = steps.all (·.ok) := by
  induction steps generalizing c with
  | nil =>
    refine ⟨h, fun p => (Bool.or_false _).symm, ?_⟩
    rw [runAll, herr]
    rfl
  | cons s steps ih =>
    have hs : ∀ p ∈ s.target, c.holds p = false := fun p hp =>
      hnew p (List.mem_filterMap.2 ⟨s, .head _, hp⟩)
    have htail : (steps.filterMap target).Nodup := hnodup.sublist ((List.sublist_cons_self s steps).filterMap target)
    have htracks := tracks_apply h hs
    rw [runAll]
    by_cases hok : s.ok = true
    · have hnew' : ∀ p ∈ steps.filterMap target, (s.apply c).holds p = false := fun p hp => by
        obtain ⟨s', hs', hp'⟩ := List.mem_filterMap.1 hp
        rw [holds_apply hs, hnew p (List.mem_filterMap.2 ⟨s', .tail _ hs', hp'⟩), compiles_eq_false hnodup hp]
        rfl
      obtain ⟨ht, hholds, herr'⟩ := ih htracks ((err_apply s c).trans herr) htail hnew'
      rw [if_pos hok]
      refine ⟨ht, fun p => ?_, ?_⟩
      · rw [hholds, holds_apply hs, carries, hok, Bool.true_and, Bool.or_assoc]
      · rw [herr', List.all_cons, hok, Bool.true_and]
    · rw [if_neg hok]
      rw [Bool.not_eq_true] at hok
      refine ⟨⟨htracks.compiled, htracks.destroyed, htracks.closed⟩, fun p => ?_, ?_⟩
      · have hholds : ((s.apply c).setError s.message).holds p = (s.apply c).holds p := rfl
        rw [hholds, holds_apply hs, carries, hok, Bool.false_and, Bool.or_false]
      · rw [List.all_cons, hok, Bool.false_and]
        rfl

end PrepareStep

namespace WorkerClass

open WorkerCmd

variable {cls : WorkerClass} {r : WorkerRun}

/-- The policies that `prepare` converts. -/
def targets : WorkerClass → List FilterPolicy
  | batchApply | batchRemove => [.policy, .records]
  | _ => [.policy]

theorem target_prepareSteps (cls : WorkerClass) (r : WorkerRun) :
    (cls.prepareSteps r).filterMap PrepareStep.target = cls.targets := by
  cases cls <;> rfl

theorem nodup_targets (cls : WorkerClass) : cls.targets.Nodup := by
  cases cls <;> decide

theorem tracks_log {c : WorkerCmd} (h : Tracks c) : Tracks (c.log .handleInit) := by
  refine ⟨fun p => ?_, fun p => ?_, ?_⟩
  · change .compiled p ∈ c.events ++ [.handleInit] ↔ _
    rw [List.mem_append, h.compiled, List.mem_singleton]
    exact or_iff_left nofun
  · change .destroyed p ∉ c.events ++ [.handleInit]
    rw [List.mem_append, List.mem_singleton, not_or]
    exact ⟨h.destroyed p, nofun⟩
  · change .handleClose ∉ c.events ++ [.handleInit]
    rw [List.mem_append, List.mem_singleton, not_or]
    exact ⟨h.closed, nofun⟩

/-- What `prepare` leaves. -/
structure Prepared (cls : WorkerClass) (r : WorkerRun) (c : WorkerCmd) : Prop where
  tracks : Tracks c
  holds : ∀ p, c.holds p = cls.carries r p
  err : c.err.isNone = cls.prepares r
  handleInit : .handleInit ∈ c.events ↔ cls = queryForeach ∧ cls.prepares r = true

theorem handleInit_notMem_runAll {steps : List PrepareStep} {c : WorkerCmd} (h : .handleInit ∉ c.events) :
    .handleInit ∉ (PrepareStep.runAll steps c).events := by
  have happly : ∀ (s : PrepareStep) {c : WorkerCmd}, .handleInit ∉ c.events → .handleInit ∉ (s.apply c).events := by
    intro s c h
    cases s with
    | check ok message => exact h
    | policy p conversion message =>
      cases conversion with
      | none => exact h
      | some conversion =>
        change .handleInit ∉ c.events ++ _
        rw [List.mem_append, not_or]
        refine ⟨h, ?_⟩
        cases conversion.filter <;> simp
  induction steps generalizing c with
  | nil => exact h
  | cons s steps ih =>
    rw [PrepareStep.runAll]
    split_ifs
    · exact ih (happly s h)
    · exact happly s h

theorem prepared (cls : WorkerClass) (r : WorkerRun) : Prepared cls r (cls.prepare r) := by
  have hnodup : ((cls.prepareSteps r).filterMap PrepareStep.target).Nodup := by
    rw [target_prepareSteps]
    exact cls.nodup_targets
  obtain ⟨htracks, hholds, herr⟩ := PrepareStep.runAll_spec tracks_start rfl hnodup fun _ _ => rfl
  have hinit : .handleInit ∉ (PrepareStep.runAll (cls.prepareSteps r) .start).events :=
    handleInit_notMem_runAll nofun
  by_cases hcls : cls = queryForeach
  · subst hcls
    rw [prepare]
    cases he : (PrepareStep.runAll (queryForeach.prepareSteps r) .start).err with
    | none =>
      rw [he] at herr
      refine ⟨tracks_log htracks, hholds, ?_, iff_of_true ?_ ⟨rfl, herr.symm⟩⟩
      · exact (congrArg Option.isNone he).trans herr
      · exact List.mem_append_right _ (.head _)
    | some e =>
      rw [he] at herr
      refine ⟨htracks, hholds, ?_, iff_of_false hinit fun h => ?_⟩
      · exact (congrArg Option.isNone he).trans herr
      · exact Bool.false_ne_true (herr.trans h.2)
  · have hprepare : cls.prepare r = PrepareStep.runAll (cls.prepareSteps r) .start := by
      cases cls <;> first | rfl | exact absurd rfl hcls
    rw [hprepare]
    exact ⟨htracks, hholds, herr, iff_of_false hinit fun h => hcls h.1⟩

/-! ### After `prepare` -/

/-- What `execute` destroys if the C client's command is called. -/
def executeDrops (c : WorkerCmd) : WorkerClass → List WorkerEvent
  | batchApply | batchRemove => []
  | _ => c.drop .policy

/-- What `respond` closes and the destructor destroys. -/
def respondEvents (c : WorkerCmd) : WorkerClass → List WorkerEvent
  | queryForeach => .handleClose :: c.drop .policy
  | queryApply => c.drop .policy
  | queryBackground | scanBackground | batchGet | batchExists | batchSelect => []
  | batchApply | batchRemove => c.drop .policy ++ c.drop .records

theorem execute_spec (cls : WorkerClass) (r : WorkerRun) (c : WorkerCmd) :
    (cls.execute r c).events = c.events ++ (if canExecute r c then cls.executeDrops c else []) ∧
      ∀ p, (cls.execute r c).holds p = c.holds p := by
  rw [execute]
  split_ifs
  · cases cls with
    | batchApply => exact ⟨(List.append_nil _).symm, fun _ => rfl⟩
    | batchRemove => exact ⟨(List.append_nil _).symm, fun _ => rfl⟩
    | _ => exact ⟨events_destroyFilter _ _, fun _ => holds_destroyFilter⟩
  · exact ⟨(List.append_nil _).symm, fun _ => rfl⟩

theorem respond_spec (cls : WorkerClass) (c : WorkerCmd) :
    (cls.respond c).events = c.events ++ cls.respondEvents c := by
  have hboth : ((c.freePolicy .policy).freePolicy .records).events =
      c.events ++ (c.drop .policy ++ c.drop .records) := by
    have hne : FilterPolicy.records ≠ .policy := nofun
    have hrecords : (c.freePolicy .policy).drop .records = c.drop .records := by
      rw [drop, drop, holds_freePolicy hne]
    rw [events_freePolicy, events_freePolicy, hrecords, List.append_assoc]
  cases cls with
  | queryForeach =>
    have hlog : ((c.log .handleClose).destroyFilter .policy).events = (c.events ++ [.handleClose]) ++ c.drop .policy :=
      events_destroyFilter _ _
    rw [List.append_assoc, List.singleton_append] at hlog
    exact hlog
  | queryApply => exact events_destroyFilter _ _
  | batchApply => exact hboth
  | batchRemove => exact hboth
  | _ => exact (List.append_nil _).symm

/-- The events of a run: those of `prepare`, then expressions that are destroyed. -/
theorem run_events (cls : WorkerClass) (r : WorkerRun) : (cls.run r).events = (cls.prepare r).events ++
    ((if cls.executes r then cls.executeDrops (cls.prepare r) else []) ++ cls.respondEvents (cls.prepare r)) := by
  obtain ⟨hevents, hholds⟩ := execute_spec cls r (cls.prepare r)
  have hcan : canExecute r (cls.prepare r) = cls.executes r := by
    rw [canExecute, (prepared cls r).err, executes]
  have hdrop : ∀ p, (cls.execute r (cls.prepare r)).drop p = (cls.prepare r).drop p := by
    intro p
    rw [drop, drop, hholds]
  have hrespond : cls.respondEvents (cls.execute r (cls.prepare r)) = cls.respondEvents (cls.prepare r) := by
    cases cls <;> simp only [respondEvents, hdrop]
  rw [run, respond_spec, hevents, hrespond, hcan, List.append_assoc]

/-! ### How often an expression is destroyed -/

theorem mem_drop {c : WorkerCmd} {p : FilterPolicy} {e : WorkerEvent} (h : e ∈ c.drop p) : e = .destroyed p := by
  rw [drop] at h
  split_ifs at h
  · exact List.mem_singleton.1 h
  · cases h

/-- A tail of a run in which expressions are destroyed. -/
def Destroys (tail : List WorkerEvent) : Prop := ∀ e ∈ tail, ∃ p, e = .destroyed p

theorem destroys_drop (c : WorkerCmd) (p : FilterPolicy) : Destroys (c.drop p) := fun _ he => ⟨p, mem_drop he⟩

theorem Destroys.append {l m : List WorkerEvent} (hl : Destroys l) (hm : Destroys m) : Destroys (l ++ m) :=
  fun e he => (List.mem_append.1 he).elim (hl e) (hm e)

theorem Destroys.notMem {tail : List WorkerEvent} (h : Destroys tail) {e : WorkerEvent} (he : ∀ p, e ≠ .destroyed p) :
    e ∉ tail := fun hmem => by
  obtain ⟨p, rfl⟩ := h e hmem
  exact he p rfl

theorem count_drop_self {c : WorkerCmd} {p : FilterPolicy} (h : c.holds p = true) :
    (c.drop p).count (.destroyed p) = 1 := by
  rw [drop, if_pos h, List.count_singleton_self]

theorem count_drop_of_ne {c : WorkerCmd} {p p' : FilterPolicy} (h : p ≠ p') :
    (c.drop p').count (.destroyed p) = 0 := by
  refine List.count_eq_zero_of_not_mem fun hmem => ?_
  have heq := mem_drop hmem
  exact h (WorkerEvent.destroyed.inj heq)

/-- A run that closes no handle. -/
theorem cleanEvents_append {c : WorkerCmd} {tail : List WorkerEvent} (h : Tracks c) (htail : Destroys tail) :
    CleanEvents (c.events ++ tail) ↔ ∀ p, c.holds p = true → tail.count (.destroyed p) = 1 := by
  have hcompiled : ∀ p, .compiled p ∈ c.events ++ tail ↔ c.holds p = true := fun p => by
    rw [List.mem_append, h.compiled]
    exact or_iff_left (htail.notMem nofun)
  have hcount : ∀ p, (c.events ++ tail).count (.destroyed p) = tail.count (.destroyed p) := fun p => by
    rw [List.count_append, List.count_eq_zero_of_not_mem (h.destroyed p), Nat.zero_add]
  have hclose : .handleClose ∉ c.events ++ tail := by
    rw [List.mem_append, not_or]
    exact ⟨h.closed, htail.notMem nofun⟩
  constructor
  · intro hclean p hp
    rw [← hcount]
    exact hclean.once p ((hcompiled p).2 hp)
  · intro hall
    refine ⟨fun p hp => (hcount p).trans (hall p ((hcompiled p).1 hp)), fun before later heq => ?_⟩
    rw [heq] at hclose
    exact absurd (List.mem_append_right _ (.head _)) hclose

theorem cleanEvents_append_close {c : WorkerCmd} {l m : List WorkerEvent} (h : Tracks c) (hl : Destroys l)
    (hm : Destroys m) : CleanEvents (c.events ++ (l ++ .handleClose :: m)) ↔
      .handleInit ∈ c.events ∧ ∀ p, c.holds p = true → (l ++ m).count (.destroyed p) = 1 := by
  have hcompiled : ∀ p, .compiled p ∈ c.events ++ (l ++ .handleClose :: m) ↔ c.holds p = true := fun p => by
    rw [List.mem_append, h.compiled, List.mem_append, List.mem_cons]
    exact or_iff_left (fun h => h.elim (hl.notMem nofun) fun h => h.elim nofun (hm.notMem nofun))
  have hcount : ∀ p, (c.events ++ (l ++ .handleClose :: m)).count (.destroyed p) = (l ++ m).count (.destroyed p) :=
    fun p => by
      have hne : (WorkerEvent.handleClose == .destroyed p) = false := rfl
      rw [List.count_append, List.count_eq_zero_of_not_mem (h.destroyed p), Nat.zero_add, List.count_append,
        List.count_append, List.count_cons, hne]
      rfl
  have hbefore : .handleClose ∉ c.events ++ l := by
    rw [List.mem_append, not_or]
    exact ⟨h.closed, hl.notMem nofun⟩
  constructor
  · intro hclean
    refine ⟨?_, fun p hp => (hcount p).symm.trans (hclean.once p ((hcompiled p).2 hp))⟩
    have hinit := hclean.closes (c.events ++ l) m (List.append_assoc ..).symm
    exact (List.mem_append.1 hinit).resolve_right (hl.notMem nofun)
  · rintro ⟨hinit, hall⟩
    refine ⟨fun p hp => (hcount p).trans (hall p ((hcompiled p).1 hp)), fun before later heq => ?_⟩
    rw [← List.append_assoc] at heq
    rcases List.append_eq_append_iff.1 heq with ⟨as, rfl, -⟩ | ⟨bs, hbs, hlater⟩
    · exact List.mem_append_left _ (List.mem_append_left _ hinit)
    · cases bs with
      | nil =>
        rw [List.append_nil] at hbs
        rw [← hbs]
        exact List.mem_append_left _ hinit
      | cons e bs =>
        obtain ⟨rfl, -⟩ := List.cons.inj hlater
        rw [hbs] at hbefore
        exact absurd (List.mem_append_right _ (.head _)) hbefore

theorem carries_records (h : .records ∉ cls.targets) : cls.carries r .records = false := by
  have hsteps : ∀ steps : List PrepareStep, .records ∉ steps.filterMap PrepareStep.target →
      PrepareStep.carries .records steps = false := by
    intro steps
    induction steps with
    | nil => exact fun _ => rfl
    | cons s steps ih =>
      intro hs
      have hhead : s.compiles .records = false := by
        by_contra hne
        exact hs (List.mem_filterMap.2 ⟨s, .head _, PrepareStep.target_of_compiles (eq_true_of_ne_false hne)⟩)
      have htail := ih fun hmem => by
        obtain ⟨s', hs', ht⟩ := List.mem_filterMap.1 hmem
        exact hs (List.mem_filterMap.2 ⟨s', .tail _ hs', ht⟩)
      rw [PrepareStep.carries, hhead, htail, Bool.and_false, Bool.or_false]
  refine hsteps _ ?_
  rw [target_prepareSteps]
  exact h

/-- A command that converts one policy, whose expression is destroyed so often. -/
theorem forall_count_iff {n : ℕ} {tail : List WorkerEvent} (htargets : cls.targets = [.policy])
    (hcount : cls.carries r .policy = true → tail.count (.destroyed .policy) = n) :
    (∀ p, (cls.prepare r).holds p = true → tail.count (.destroyed p) = 1) ↔ (cls.carries r .policy = true → n = 1) := by
  constructor
  · intro h hc
    rw [← hcount hc]
    exact h .policy ((prepared cls r).holds .policy ▸ hc)
  · intro h p hp
    rw [(prepared cls r).holds] at hp
    cases p with
    | policy => exact (hcount hp).trans (h hp)
    | records =>
      rw [carries_records (by rw [htargets]; decide)] at hp
      cases hp

theorem destroys_execute (b : Bool) (c : WorkerCmd) (p : FilterPolicy) : Destroys (if b then c.drop p else []) := by
  split_ifs
  · exact destroys_drop c p
  · exact fun _ he => nomatch he

theorem count_execute (b : Bool) {c : WorkerCmd} {p : FilterPolicy} (h : c.holds p = true) :
    (if b then c.drop p else []).count (.destroyed p) = if b then 1 else 0 := by
  split_ifs
  · exact count_drop_self h
  · rfl

theorem clean_iff_of_execute (htargets : cls.targets = [.policy])
    (hexecute : cls.executeDrops (cls.prepare r) = (cls.prepare r).drop .policy)
    (hrespond : cls.respondEvents (cls.prepare r) = []) :
    CleanEvents (cls.run r).events ↔ (cls.carries r .policy = true → cls.executes r = true) := by
  have hp := prepared cls r
  rw [run_events, hexecute, hrespond, List.append_nil,
    cleanEvents_append hp.tracks (destroys_execute _ _ _),
    forall_count_iff (n := if cls.executes r then 1 else 0) htargets]
  · refine forall_congr' fun _ => ?_
    cases cls.executes r <;> simp
  · exact fun hc => count_execute _ ((hp.holds _).trans hc)

theorem count_twice (hc : cls.carries r .policy = true) :
    ((if cls.executes r then (cls.prepare r).drop .policy else []) ++ (cls.prepare r).drop .policy).count
      (.destroyed .policy) = (if cls.executes r then 1 else 0) + 1 := by
  have hh := ((prepared cls r).holds _).trans hc
  rw [List.count_append, count_execute _ hh, count_drop_self hh]

theorem clean_iff_of_both (htargets : cls.targets = [.policy])
    (hexecute : cls.executeDrops (cls.prepare r) = (cls.prepare r).drop .policy)
    (hrespond : cls.respondEvents (cls.prepare r) = (cls.prepare r).drop .policy) :
    CleanEvents (cls.run r).events ↔ (cls.carries r .policy = true → cls.executes r = false) := by
  rw [run_events, hexecute, hrespond, cleanEvents_append (prepared cls r).tracks
    ((destroys_execute _ _ _).append (destroys_drop _ _)), forall_count_iff htargets count_twice]
  refine forall_congr' fun _ => ?_
  cases cls.executes r <;> simp

theorem clean_iff_queryForeach : CleanEvents (queryForeach.run r).events ↔ queryForeach.CleansUp r := by
  have hp := prepared queryForeach r
  have hexecute : executeDrops (queryForeach.prepare r) queryForeach = (queryForeach.prepare r).drop .policy := rfl
  have hrespond : respondEvents (queryForeach.prepare r) queryForeach =
    .handleClose :: (queryForeach.prepare r).drop .policy := rfl
  rw [run_events, hexecute, hrespond, cleanEvents_append_close hp.tracks (destroys_execute _ _ _) (destroys_drop _ _),
    forall_count_iff rfl count_twice, hp.handleInit, CleansUp, eq_self, true_and]
  refine and_congr_right fun _ => forall_congr' fun _ => ?_
  cases queryForeach.executes r <;> simp

theorem clean_of_destructor (hexecute : cls.executeDrops (cls.prepare r) = [])
    (hrespond : cls.respondEvents (cls.prepare r) = (cls.prepare r).drop .policy ++ (cls.prepare r).drop .records) :
    CleanEvents (cls.run r).events := by
  rw [run_events, hexecute, ite_self, List.nil_append, hrespond,
    cleanEvents_append (prepared cls r).tracks ((destroys_drop _ _).append (destroys_drop _ _))]
  intro p hp
  have hne : FilterPolicy.policy ≠ .records := nofun
  rw [List.count_append]
  cases p with
  | policy => rw [count_drop_self hp, count_drop_of_ne hne]
  | records => rw [count_drop_self hp, count_drop_of_ne hne.symm]

/-- A command cleans up in exactly these runs: `batchApply` and `batchRemove` always; `queryApply` where there is
no expression or the command is not executed, `queryForeach` if moreover `prepare` succeeds; the others where there
is no expression or the command is executed. -/
theorem clean_iff (cls : WorkerClass) (r : WorkerRun) : CleanEvents (cls.run r).events ↔ cls.CleansUp r := by
  cases cls with
  | queryForeach => exact clean_iff_queryForeach
  | queryApply => exact clean_iff_of_both rfl rfl rfl
  | batchApply => exact iff_of_true (clean_of_destructor rfl rfl) trivial
  | batchRemove => exact iff_of_true (clean_of_destructor rfl rfl) trivial
  | queryBackground => exact clean_iff_of_execute rfl rfl rfl
  | scanBackground => exact clean_iff_of_execute rfl rfl rfl
  | batchGet => exact clean_iff_of_execute rfl rfl rfl
  | batchExists => exact clean_iff_of_execute rfl rfl rfl
  | batchSelect => exact clean_iff_of_execute rfl rfl rfl

/-- A run whose policy has an expression and whose other steps succeed. -/
def filteredRun (conversion : Conversion) (connected : Bool) : WorkerRun :=
  ⟨true, true, none, fun p => if p = .policy then some conversion else none, connected, none⟩

/-- `queryForeach` destroys the expression twice when it is executed, and closes a handle that was not initialised
when its policy is invalid; `queryBackground` does not destroy it when the client is not connected. -/
theorem not_clean :
    (queryForeach.run (filteredRun ⟨true, true⟩ true)).events =
        [.compiled .policy, .handleInit, .destroyed .policy, .handleClose, .destroyed .policy] ∧
      (queryForeach.run (filteredRun ⟨true, false⟩ true)).events =
        [.compiled .policy, .handleClose, .destroyed .policy] ∧
      (queryBackground.run (filteredRun ⟨true, true⟩ false)).events = [.compiled .policy] ∧
      ¬ CleanEvents (queryForeach.run (filteredRun ⟨true, true⟩ true)).events ∧
      ¬ CleanEvents (queryForeach.run (filteredRun ⟨true, false⟩ true)).events ∧
      ¬ CleanEvents (queryBackground.run (filteredRun ⟨true, true⟩ false)).events := by
  refine ⟨rfl, rfl, rfl, fun h => ?_, fun h => ?_, fun h => ?_⟩
  · exact absurd (h.once .policy (.head _)) (by decide)
  · have hinit := h.closes [.compiled .policy] [.destroyed .policy] rfl
    exact absurd hinit (by decide)
  · exact absurd (h.once .policy (.head _)) (by decide)

end WorkerClass

end AerospikeNode
