import Mathlib.Data.List.ReduceOption
import AerospikeNode.Cmd.QueryForeach

/-!
# What a stream emits for the results of a UDF

The callback of `lib/commands/stream_command.js` is given a value of the UDF where a scan is given the bins
of a record. `convertResult` takes a first argument that JavaScript takes for false for the end of the
stream, so a `nil`, `false`, zero, NaN or empty string ends it: `emits_iff`, over the runs of
`QueryForeachCommand`.
-/

namespace AerospikeNode

open Run

namespace AsVal

/-- The values that JavaScript takes for false. -/
def Falsy : AsVal → Prop
  | nil | inf | wildcard => True
  | boolean b => b = false
  | integer i => i = 0
  | double d => d = .nan ∨ d.val = some 0
  | string s | geojson s => s = []
  | bytes _ | list _ | map _ => False

theorem truthy_num (d : JsNumber) : d.truthy = true ↔ ¬ (d = .nan ∨ d.val = some 0) := by
  cases d with
  | nan => exact iff_of_false Bool.false_ne_true (not_not_intro (.inl rfl))
  | inf neg => exact iff_of_true rfl (by rintro (h | h) <;> cases h)
  | negZero => exact iff_of_false Bool.false_ne_true (not_not_intro (.inr rfl))
  | fin q hq =>
    rw [JsNumber.truthy, decide_eq_true_iff, JsNumber.val, Option.some.injEq, not_or]
    constructor
    · intro h
      refine ⟨fun hnan => ?_, h⟩
      cases hnan
    · rintro ⟨-, h⟩
      exact h

theorem truthy_ofInt64 (i : Int64) : (JsValue.ofInt64 i).truthy = true ↔ i ≠ 0 := by
  have hzero : i.toInt = 0 ↔ i = 0 := by
    rw [← Int64.toInt_zero, Int64.toInt_inj]
  rw [ne_eq, ← hzero, JsValue.ofInt64]
  split_ifs with h
  · rw [JsValue.truthy, JsNumber.ofInt, JsNumber.truthy, decide_eq_true_iff, ne_eq, Int.cast_eq_zero]
  · rw [JsValue.truthy, decide_eq_true_iff]

theorem truthy_ofCString (bs : Bytes) : (JsValue.ofCString bs).truthy = true ↔ bs ≠ [] := by
  rw [JsValue.ofCString, JsValue.truthy, Bool.not_eq_true', List.isEmpty_eq_false_iff, ne_eq, JsString.decode_eq_nil]

theorem truthy_toJsvalue (le : AsVal → AsVal → Bool) (v : AsVal) : (v.toJsvalue le).truthy = true ↔ ¬ v.Falsy := by
  cases v with
  | nil => exact iff_of_false Bool.false_ne_true (not_not_intro trivial)
  | boolean b => exact (Bool.not_eq_false b).symm.to_iff
  | integer i => exact truthy_ofInt64 i
  | double d => exact truthy_num d
  | string s => exact truthy_ofCString s
  | bytes bs => exact iff_of_true rfl not_false
  | list xs => exact iff_of_true rfl not_false
  | map es => exact iff_of_true rfl not_false
  | geojson s => exact truthy_ofCString s
  | inf => exact iff_of_false Bool.false_ne_true (not_not_intro trivial)
  | wildcard => exact iff_of_false Bool.false_ne_true (not_not_intro trivial)

/-- What `asval_clone` returns; a null pointer for a value it does not know. -/
def asvalClone : AsVal → Option AsVal
  | inf | wildcard => none
  | v => some v.clone

theorem asvalClone_of_stored {v : AsVal} (h : v.Stored) : v.asvalClone = some v := by
  have hclone := clone_eq h
  cases v with
  | inf => exact h.elim
  | wildcard => exact h.elim
  | _ => exact congrArg some hclone

end AsVal

namespace QueryForeach

/-- What the stream emits in the calls of its callback. -/
def Cmd.events (c : Cmd) : List StreamEvent := c.calls.map (·.emitted)

/-- The `'data'` event for a value. -/
def dataOf (le : AsVal → AsVal → Bool) (v : AsVal) : StreamEvent :=
  .data (.record (.new .null (v.toJsvalue le) .undefined))

/-- One `'data'` event for each value, in order, then one `'end'`. -/
def Emits (le : AsVal → AsVal → Bool) (vs : List AsVal) (events : List StreamEvent) : Prop :=
  ∃ state, events = vs.map (dataOf le) ++ [.ended state]

/-- The clone of a value that the query calls `query_foreach_callback` with. -/
def Action.clone? : Action → Option (Option AsVal)
  | .value clone => some clone
  | _ => none

/-- In this run the query hands over these values. -/
def Returns (vs : List AsVal) (as : List Action) : Prop := as.filterMap Action.clone? = vs.map (·.asvalClone)

/-- The call that ends the query. -/
def Cmd.ending (c : Cmd) : NativeEvent :=
  match c.err with
  | some e => if e.code ≠ Status.ok then .error e else .finish .undefined
  | none => .finish .undefined

section
variable {le : AsVal → AsVal → Bool} {c : Cmd} {vs : List AsVal} {as : List Action}

theorem emitted_value (le : AsVal → AsVal → Bool) (v : AsVal) :
    (NativeEvent.value (v.toJsvalue le)).emitted = dataOf le v ↔ ¬ v.Falsy := by
  have hemitted : (NativeEvent.value (v.toJsvalue le)).emitted =
      StreamCommand.callback none (StreamCommand.convertResult (v.toJsvalue le) .undefined .undefined) := rfl
  rw [← AsVal.truthy_toJsvalue le, hemitted, StreamCommand.convertResult]
  cases (v.toJsvalue le).truthy with
  | true => exact iff_of_true rfl rfl
  | false =>
    refine iff_of_false (fun h => ?_) Bool.false_ne_true
    cases h

/-- The callback gets the end or the error last, and the end only if there is no error. -/
structure EndsOnce (c : Cmd) : Prop where
  responding : c.loop = .responding → c.isError = false
  closed : c.loop = .closed → ∃ before, c.calls = before ++ [c.ending]

theorem ending_of_not_error (h : c.isError = false) : c.ending = .finish .undefined := by
  rw [Cmd.isError] at h
  rw [Cmd.ending]
  cases herr : c.err with
  | none => rfl
  | some e =>
    rw [herr, Option.any_some, decide_eq_false_iff_not] at h
    exact if_neg h

theorem ending_of_error (h : c.isError = true) : ∃ e, c.err = some e ∧ e.code ≠ Status.ok ∧ c.ending = .error e := by
  rw [Cmd.isError] at h
  rw [Cmd.ending]
  cases herr : c.err with
  | none =>
    rw [herr] at h
    cases h
  | some e =>
    rw [herr, Option.any_some, decide_eq_true_iff] at h
    exact ⟨e, rfl, h, if_pos h⟩

/-- Steps in a state that is neither `responding` nor `closed` and leads to another such state. -/
theorem EndsOnce.of_open {c : Cmd} (hr : c.loop ≠ .responding) (hc : c.loop ≠ .closed) : EndsOnce c :=
  ⟨fun h => absurd h hr, fun h => absurd h hc⟩

theorem loop_populate (c : Cmd) (clone : Option AsVal) : (c.populate clone).loop = c.loop := by
  cases clone with
  | none => rfl
  | some clone =>
    rw [Cmd.populate, Cmd.countSignal]
    split_ifs <;> rfl

theorem endsOnce_start (err : Option AsError) : EndsOnce (start err) := .of_open nofun nofun

theorem EndsOnce.process (h : EndsOnce c) (hl : c.loop = .processing ∨ c.loop = .responding) :
    EndsOnce (c.process le) := by
  rw [Cmd.process]
  cases hr : c.results with
  | nil =>
    rcases hl with hl | hl
    · simp only [Cmd.processed, hl]
      refine .of_open (fun hloop => ?_) fun hloop => ?_
      · cases hloop
      · cases hloop
    · simp only [Cmd.processed, hl]
      refine ⟨fun hloop => absurd hloop Loop.noConfusion, fun _ => ⟨c.calls, ?_⟩⟩
      have hend : (c.call (.finish .undefined)).close.ending = .finish .undefined :=
        ending_of_not_error (h.responding hl)
      rw [hend]
      rfl
  | cons val results =>
    refine ⟨h.responding, fun hclosed => ?_⟩
    have hloop : c.loop = .closed := hclosed
    rcases hl with hl | hl
    · rw [hl] at hloop
      cases hloop
    · rw [hl] at hloop
      cases hloop

theorem endsOnce_respond (c : Cmd) : EndsOnce c.respond := by
  rw [Cmd.respond]
  split_ifs with herr
  · obtain ⟨e, he, -, hending⟩ := ending_of_error herr
    simp only [he]
    refine ⟨fun hloop => absurd hloop Loop.noConfusion, fun _ => ⟨c.calls, ?_⟩⟩
    have hend : (c.call (.error e)).close.ending = .error e := hending
    rw [hend]
    rfl
  · refine ⟨fun _ => Bool.eq_false_iff.2 herr, fun hloop => ?_⟩
    cases hloop

theorem EndsOnce.step {a : Action} (hi : Inv le c) (h : EndsOnce c) (ha : Allowed c a) :
    EndsOnce (QueryForeach.step le c a) := by
  have hopen : c.worker ≠ .returned → c.loop ≠ .responding ∧ c.loop ≠ .closed :=
    fun hw => ⟨fun hl => hw (hi.ended (.inl hl)), fun hl => hw (hi.ended (.inr hl))⟩
  cases a with
  | execute connected =>
    have hw : c.worker = .waiting := ha
    obtain ⟨hr, hc⟩ := hopen (by rw [hw]; nofun)
    exact .of_open hr hc
  | value clone =>
    have hw : c.worker = .querying := ha
    obtain ⟨hr, hc⟩ := hopen (by rw [hw]; nofun)
    refine .of_open ?_ ?_
    · change (c.populate clone).loop ≠ _
      rwa [loop_populate]
    · change (c.populate clone).loop ≠ _
      rwa [loop_populate]
  | queryEnd err =>
    have hw : c.worker = .querying := ha
    obtain ⟨hr, hc⟩ := hopen (by rw [hw]; nofun)
    exact .of_open hr hc
  | wakeup => exact .of_open nofun nofun
  | process => exact h.process ha
  | respond => exact endsOnce_respond c

/-! ### What was pushed -/

theorem pushed_process (c : Cmd) : (c.process le).pushed = c.pushed := by
  rw [Cmd.process]
  cases c.results with
  | nil =>
    simp only [Cmd.processed]
    cases c.loop <;> rfl
  | cons val results => rfl

theorem pushed_respond (c : Cmd) : c.respond.pushed = c.pushed := by
  rw [Cmd.respond]
  split_ifs
  · cases c.err <;> rfl
  · rfl

theorem pushed_populate (c : Cmd) (clone : Option AsVal) : (c.populate clone).pushed = c.pushed ++ clone.toList := by
  cases clone with
  | none => exact (List.append_nil _).symm
  | some clone =>
    rw [Cmd.populate, Cmd.countSignal]
    split_ifs <;> rfl

theorem pushed_step (c : Cmd) (a : Action) : (step le c a).pushed = c.pushed ++ (a.clone?.toList.reduceOption) := by
  cases a with
  | value clone =>
    rw [step, pushed_populate, Action.clone?, Option.toList_some, List.reduceOption_singleton]
  | process =>
    rw [step, pushed_process]
    exact (List.append_nil _).symm
  | respond =>
    rw [step, pushed_respond]
    exact (List.append_nil _).symm
  | execute connected => exact (List.append_nil _).symm
  | queryEnd err => exact (List.append_nil _).symm
  | wakeup => exact (List.append_nil _).symm

theorem pushed_after (as : List Action) (c : Cmd) :
    (after (step le) c as).pushed = c.pushed ++ (as.filterMap Action.clone?).reduceOption := by
  induction as generalizing c with
  | nil => exact (List.append_nil _).symm
  | cons a as ih =>
    have hcons : (a :: as).filterMap Action.clone? = a.clone?.toList ++ as.filterMap Action.clone? := by
      cases h : a.clone? with
      | none => rw [List.filterMap_cons_none h, Option.toList_none, List.nil_append]
      | some clone => rw [List.filterMap_cons_some h, Option.toList_some, List.singleton_append]
    rw [after_cons, ih, pushed_step, hcons, List.reduceOption_append, List.append_assoc]

/-- The values that were handed over are pushed, since a clone is what it was made of. -/
theorem pushed_of_returns (hvs : ∀ v ∈ vs, v.Stored) (hreturns : Returns vs as) (err : Option AsError) :
    (after (step le) (start err) as).pushed = vs := by
  have hclones : vs.map (·.asvalClone) = vs.map some :=
    List.map_congr_left fun v hv => AsVal.asvalClone_of_stored (hvs v hv)
  have hreduce : (vs.map some).reduceOption = vs := (List.filterMap_map ..).trans (List.filterMap_some ..)
  rw [pushed_after, hreturns, hclones, hreduce]
  rfl

/-! ### Complete runs -/

/-- A run is complete when the handle is closed. -/
theorem Inv.over_iff (h : Inv le c) : (∀ a, ¬ Allowed c a) ↔ c.loop = .closed := by
  constructor
  · intro hover
    cases hl : c.loop with
    | closed => rfl
    | processing => exact absurd (.inl hl) (hover .process)
    | responding => exact absurd (.inr hl) (hover .process)
    | idle =>
      cases hw : c.worker with
      | waiting => exact absurd hw (hover (.execute true))
      | querying => exact absurd hw (hover (.queryEnd none))
      | returned => exact absurd ⟨hw, hl⟩ (hover .respond)
  · intro hl a ha
    have hw := h.ended (.inr hl)
    cases a with
    | execute connected => cases hw.symm.trans ha
    | value clone => cases hw.symm.trans ha
    | queryEnd err => cases hw.symm.trans ha
    | wakeup => cases hl.symm.trans ha.2
    | process => exact ha.elim (fun h => nomatch hl.symm.trans h) fun h => nomatch hl.symm.trans h
    | respond => cases hl.symm.trans ha.2

theorem eq_map_values {calls : List NativeEvent} (h : ∀ n ∈ calls, (valueOf n).isSome = true) :
    calls = (values calls).map .value := by
  induction calls with
  | nil => rfl
  | cons n calls ih =>
    obtain ⟨hn, hcalls⟩ := List.forall_mem_cons.1 h
    cases n with
    | value v => exact congrArg (_ :: ·) (ih hcalls)
    | record bins metadata key => cases hn
    | finish state => cases hn
    | error err => cases hn

theorem Inv.events_eq (h : Inv le c) (hends : EndsOnce c) (hl : c.loop = .closed) (herr : c.isError = false) :
    c.events = c.pushed.map (fun v => (NativeEvent.value (v.toJsvalue le)).emitted) ++ [.ended .undefined] := by
  obtain ⟨before, n, hcalls, hbefore, -, hresults⟩ := h.closed hl
  obtain ⟨before', hcalls'⟩ := hends.closed hl
  rw [ending_of_not_error herr, hcalls] at hcalls'
  obtain ⟨-, hn⟩ := List.append_inj' hcalls' rfl
  obtain rfl : n = .finish .undefined := List.singleton_inj.1 hn
  have hqueue := h.queue
  rw [hresults _ rfl, List.map_nil, List.append_nil, hcalls, values_concat] at hqueue
  have hvalues : values before = c.pushed.map fun v => v.toJsvalue le := by
    rw [← hqueue]
    exact (List.append_nil _).symm
  have hmap := eq_map_values hbefore
  rw [hvalues, List.map_map] at hmap
  rw [Cmd.events, hcalls, List.map_append, hmap, List.map_map]
  rfl

theorem not_emits_of_error (hends : EndsOnce c) (hl : c.loop = .closed) (herr : c.isError = true) :
    ¬ Emits le vs c.events := by
  rintro ⟨state, hevents⟩
  obtain ⟨before, hcalls⟩ := hends.closed hl
  obtain ⟨e, -, hcode, hending⟩ := ending_of_error herr
  have hemitted : (NativeEvent.error e).emitted = .error (.native e) := by
    have herror : (NativeEvent.error e).emitted =
      StreamCommand.callback (AerospikeError.fromASError (some e)) (StreamCommand.convertResult .undefined .undefined
        .undefined) := rfl
    rw [herror, AerospikeError.fromASError, if_neg hcode]
    rfl
  rw [Cmd.events, hcalls, hending, List.map_append, List.map_singleton, hemitted] at hevents
  obtain ⟨-, hlast⟩ := List.append_inj' hevents rfl
  cases hlast

theorem Emits.iff_of_closed (h : Inv le c) (hends : EndsOnce c) (hl : c.loop = .closed) (hpushed : c.pushed = vs) :
    Emits le vs c.events ↔ c.isError = false ∧ ∀ v ∈ vs, ¬ v.Falsy := by
  by_cases herr : c.isError = true
  · exact iff_of_false (not_emits_of_error hends hl herr) fun h => by rw [herr] at h; cases h.1
  · have herr := Bool.eq_false_iff.2 herr
    have hdata : vs.map (fun v => (NativeEvent.value (v.toJsvalue le)).emitted) = vs.map (dataOf le) ↔
        ∀ v ∈ vs, ¬ v.Falsy :=
      List.map_inj_left.trans (forall₂_congr fun v _ => emitted_value le v)
    rw [← hdata, Emits, h.events_eq hends hl herr, hpushed]
    constructor
    · rintro ⟨state, hevents⟩
      exact ⟨herr, (List.append_inj' hevents rfl).1⟩
    · rintro ⟨-, hevents⟩
      exact ⟨.undefined, by rw [hevents]⟩

/-- In every complete run in which a UDF returns these values, the stream emits one `'data'` for each of them
in order and then one `'end'` exactly if there was no error and JavaScript takes none of them for false. -/
theorem emits_iff (le : AsVal → AsVal → Bool) (err : Option AsError) (hvs : ∀ v ∈ vs, v.Stored)
    (hrun : AllSteps (step le) Allowed (start err) as) (hreturns : Returns vs as)
    (hover : ∀ a, ¬ Allowed (after (step le) (start err) as) a) :
    Emits le vs (after (step le) (start err) as).events ↔
      (after (step le) (start err) as).isError = false ∧ ∀ v ∈ vs, ¬ v.Falsy := by
  have hinv : Inv le (after (step le) (start err) as) ∧ EndsOnce (after (step le) (start err) as) :=
    AllSteps.invariant (I := fun c => Inv le c ∧ EndsOnce c)
      (fun c a hs ha => ⟨inv_step hs.1 ha, hs.2.step hs.1 ha⟩) ⟨inv_start err, endsOnce_start err⟩ hrun
  have hl := hinv.1.over_iff.1 hover
  exact Emits.iff_of_closed hinv.1 hinv.2 hl (pushed_of_returns hvs hreturns err)

end

/-- A query whose UDF returns these values before the event loop attends to the first signal, up to the end of
`respond`. -/
def valuesAtOnce (vs : List AsVal) : List Action :=
  .execute true :: vs.map (fun v => .value v.asvalClone) ++
    .queryEnd none :: .wakeup :: List.replicate (vs.length + 1) .process ++ [.respond, .process]

def threeValues : List AsVal := [.integer 1, .list [.integer 0], .string [97]]

/-- A UDF that returns `1`, `[0]` and `'a'`, which the event loop is told of once. -/
theorem threeValues_emits : Emits (fun _ _ => true) threeValues
    (after (step fun _ _ => true) (start none) (valuesAtOnce threeValues)).events := by
  have hrun : AllSteps (step fun _ _ => true) Allowed (start none) (valuesAtOnce threeValues) :=
    ⟨rfl, rfl, rfl, rfl, rfl, ⟨rfl, rfl⟩, .inl rfl, .inl rfl, .inl rfl, .inl rfl, ⟨rfl, rfl⟩, .inr rfl, trivial⟩
  have hstored : ∀ v ∈ threeValues, v.Stored := by simp [threeValues, AsVal.Stored, AsVal.StoredList]
  refine (emits_iff (fun _ _ => true) none hstored hrun rfl ?_).2 ⟨rfl, ?_⟩
  · intro a ha
    cases a with
    | execute connected => cases ha
    | value clone => cases ha
    | queryEnd err => cases ha
    | wakeup => cases ha.1
    | process => exact ha.elim nofun nofun
    | respond => cases ha.2
  · simp [threeValues, AsVal.Falsy]

/-- A UDF that returns `0`: the stream emits `'end'` twice. -/
theorem zero_ends :
    AllSteps (step fun _ _ => true) Allowed (start none) (valuesAtOnce [.integer 0]) ∧
      Returns [.integer 0] (valuesAtOnce [.integer 0]) ∧
      (after (step fun _ _ => true) (start none) (valuesAtOnce [.integer 0])).isError = false ∧
      ¬ Emits (fun _ _ => true) [.integer 0]
        (after (step fun _ _ => true) (start none) (valuesAtOnce [.integer 0])).events := by
  refine ⟨⟨rfl, rfl, rfl, ⟨rfl, rfl⟩, .inl rfl, .inl rfl, ⟨rfl, rfl⟩, .inr rfl, trivial⟩, rfl, rfl, ?_⟩
  rintro ⟨state, hevents⟩
  have hends : (after (step fun _ _ => true) (start none) (valuesAtOnce [.integer 0])).events =
    [.ended .undefined, .ended .undefined] := rfl
  rw [hends] at hevents
  cases hevents

end QueryForeach

end AerospikeNode
