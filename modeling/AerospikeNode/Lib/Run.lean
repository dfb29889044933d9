import Mathlib.Data.List.Basic
import Mathlib.Tactic.Common

/-!
# Runs of a machine

A machine is a function `step` from a state and an action to the next state. `after step s as` is
where the actions `as` lead from `s`. `AllSteps step ok s as` says that every step of that run meets
`ok`, a condition on the state the step starts in and on its action; what an environment may do and
what a program must not do are both stated this way. `Always step P s as` says that `P` holds in
every state of the run, the first one included.

The rules: an invariant of one step is one of every run (`invariant`), conditions are exchanged along
a run under an invariant (`AllSteps.imp`), and a safety property whose violation is decided by one
step is equivalent to the condition on that step (`always_iff_allSteps`).

What a machine does that can be seen from outside it appends to a log; `Orderly P log` says of each event
of the log what holds of the events before it.
-/

namespace Run

variable {σ α : Type*} {step : σ → α → σ} {ok ok' : σ → α → Prop} {P I : σ → Prop}

/-- The state the actions lead to. -/
def after (step : σ → α → σ) (s : σ) (as : List α) : σ :=
  as.foldl step s

/-- Every step of the run meets the condition. -/
def AllSteps (step : σ → α → σ) (ok : σ → α → Prop) : σ → List α → Prop
  | _, [] => True
  | s, a :: as => ok s a ∧ AllSteps step ok (step s a) as

/-- The property holds in every state of the run. -/
def Always (step : σ → α → σ) (P : σ → Prop) : σ → List α → Prop
  | s, [] => P s
  | s, a :: as => P s ∧ Always step P (step s a) as

@[simp]
theorem after_nil (s : σ) : after step s [] = s := rfl

@[simp]
theorem after_cons (s : σ) (a : α) (as : List α) :
    after step s (a :: as) = after step (step s a) as := rfl

theorem after_append (s : σ) (as bs : List α) :
    after step s (as ++ bs) = after step (after step s as) bs :=
  List.foldl_append

instance AllSteps.decidable [∀ s a, Decidable (ok s a)] :
    ∀ (s : σ) (as : List α), Decidable (AllSteps step ok s as)
  | _, [] => instDecidableTrue
  | s, a :: as =>
    have := AllSteps.decidable (step s a) as
    inferInstanceAs (Decidable (_ ∧ _))

namespace AllSteps

theorem of_forall (h : ∀ s a, ok s a) : ∀ (as : List α) (s : σ), AllSteps step ok s as
  | [], _ => trivial
  | a :: as, s => ⟨h s a, of_forall h as (step s a)⟩

theorem append {s : σ} : ∀ {l m : List α},
    AllSteps step ok s (l ++ m) ↔ AllSteps step ok s l ∧ AllSteps step ok (after step s l) m
  | [], bs => by simp [AllSteps]
  | a :: as, bs => by
    simp only [List.cons_append, AllSteps, append (l := as), after_cons, and_assoc]

/-- An invariant that one step keeps is kept by the run. -/
theorem invariant (hstep : ∀ s a, I s → ok s a → I (step s a)) {as : List α} {s : σ}
    (hs : I s) (h : AllSteps step ok s as) : I (after step s as) := by
  induction as generalizing s with
  | nil => exact hs
  | cons a as ih => exact ih (hstep s a hs h.1) h.2

/-- A condition is exchanged for another one that an invariant makes follow from it. -/
theorem imp (hstep : ∀ s a, I s → ok s a → I (step s a))
    (himp : ∀ s a, I s → ok s a → ok' s a) {as : List α} {s : σ} (hs : I s)
    (h : AllSteps step ok s as) : AllSteps step ok' s as := by
  induction as generalizing s with
  | nil => trivial
  | cons a as ih => exact ⟨himp s a hs h.1, ih (hstep s a hs h.1) h.2⟩

theorem mono (himp : ∀ s a, ok s a → ok' s a) {as : List α} {s : σ}
    (h : AllSteps step ok s as) : AllSteps step ok' s as :=
  imp (I := fun _ => True) (fun _ _ _ _ => trivial) (fun s a _ => himp s a) trivial h

end AllSteps

namespace Always

theorem start : ∀ {as : List α} {s : σ}, Always step P s as → P s
  | [], _, h => h
  | _ :: _, _, h => h.1

/-- The states of a run are those its initial parts lead to. -/
theorem iff_forall_prefix : ∀ {l : List α} {s : σ},
    Always step P s l ↔ ∀ bs, bs <+: l → P (after step s bs)
  | [], s => by
    constructor
    · rintro h bs hbs
      rw [List.prefix_nil.mp hbs]
      exact h
    · exact fun h => h [] List.nil_prefix
  | a :: as, s => by
    simp only [Always, iff_forall_prefix (l := as)]
    constructor
    · rintro ⟨h, h'⟩ bs hbs
      cases bs with
      | nil => exact h
      | cons b bs =>
        obtain ⟨rfl, htail⟩ := List.cons_prefix_cons.mp hbs
        exact h' bs htail
    · intro h
      exact ⟨h [] List.nil_prefix, fun bs hbs => h (a :: bs) (List.cons_prefix_cons.mpr ⟨rfl, hbs⟩)⟩

theorem last {as : List α} {s : σ} (h : Always step P s as) : P (after step s as) :=
  iff_forall_prefix.mp h as (List.prefix_refl as)

/-- A property that no step of the run can establish again holds throughout if it holds at the end. -/
theorem of_last (hback : ∀ s a, ok s a → P (step s a) → P s) {as : List α} {s : σ}
    (h : AllSteps step ok s as) (hlast : P (after step s as)) : Always step P s as := by
  induction as generalizing s with
  | nil => exact hlast
  | cons a as ih =>
    have htail := ih h.2 hlast
    exact ⟨hback s a h.1 htail.start, htail⟩

/-- What holds in each state of a run that meets a condition. -/
theorem of_allSteps (hstep : ∀ s a, I s → ok s a → I (step s a)) (hP : ∀ s, I s → P s)
    {as : List α} {s : σ} (hs : I s) (h : AllSteps step ok s as) : Always step P s as := by
  induction as generalizing s with
  | nil => exact hP s hs
  | cons a as ih => exact ⟨hP s hs, ih (hstep s a hs h.1) h.2⟩

end Always

/-- In the runs an environment allows, a property that one step keeps exactly if it meets a condition
holds throughout exactly if every step meets the condition. -/
theorem always_iff_allSteps {allowed : σ → α → Prop}
    (hstep : ∀ s a, I s → allowed s a → ok s a → I (step s a))
    (hP : ∀ s a, I s → allowed s a → (P (step s a) ↔ ok s a)) :
    ∀ {as : List α} {s : σ}, I s → P s → AllSteps step allowed s as →
      (Always step P s as ↔ AllSteps step ok s as)
  | [], _, _, hp, _ => ⟨fun _ => trivial, fun _ => hp⟩
  | a :: as, s, hs, hp, h => by
    have ha := hP s a hs h.1
    constructor
    · rintro ⟨-, h'⟩
      have hok := ha.mp h'.start
      exact ⟨hok, (always_iff_allSteps hstep hP (hstep s a hs h.1 hok) h'.start h.2).mp h'⟩
    · rintro ⟨hok, h'⟩
      exact ⟨hp, (always_iff_allSteps hstep hP (hstep s a hs h.1 hok) (ha.mpr hok) h.2).mpr h'⟩

/-! ### Logs -/

section

variable {ε : Type*} {Q : List ε → ε → Prop} {log : List ε} {e : ε}

/-- Each event meets the condition on it and the events before it. -/
def Orderly (Q : List ε → ε → Prop) (log : List ε) : Prop :=
  ∀ before e later, log = before ++ e :: later → Q before e

theorem Orderly.nil : Orderly Q [] := fun _ _ _ h => by simp at h

theorem orderly_concat : Orderly Q (log ++ [e]) ↔ Orderly Q log ∧ Q log e := by
  constructor
  · intro h
    refine ⟨?_, h log e [] rfl⟩
    rintro before f later rfl
    exact h before f (later ++ [e]) (by simp)
  · rintro ⟨hlog, he⟩ before f later h
    rcases List.eq_nil_or_concat later with rfl | ⟨later, g, rfl⟩
    · obtain ⟨rfl, hf⟩ := List.append_inj' h rfl
      rw [← List.singleton_inj.mp hf]
      exact he
    · refine hlog before f later ?_
      rw [List.concat_eq_append, ← List.cons_append, ← List.append_assoc] at h
      exact (List.append_inj' h rfl).1

end

end Run
