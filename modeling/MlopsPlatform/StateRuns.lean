import Mathlib.Data.List.Basic
import Mathlib.Data.List.Induction

/-!
# Runs of a deterministic step function

A run folds a step function over a list of actions. A condition on single
steps, which may look at the state the step is taken in, lifts to whole runs,
and an invariant that each such step keeps holds wherever such a run ends. Of a
step function that may refuse, a whole run is one without a refusal; it follows
a run of a total step function when each step does, and what each step keeps of
the state and the actions so far holds at its end.
-/

namespace MlopsPlatform.StateRuns

variable {σ α : Type*}

/-- The state a run ends in. -/
def run (step : σ→α→σ) (start : σ) (actions : List α) : σ := actions.foldl step start

/-- Every step of the run meets the condition in the state it is taken in. -/
def Along (step : σ→α→σ) (condition : σ→α→Prop) : σ→List α→Prop
  | _,[] => True
  | s,a::actions => condition s a ∧ Along step condition (step s a) actions

variable {step : σ→α→σ} {condition : σ→α→Prop} {invariant : σ→Prop}

@[simp] theorem run_nil (start : σ) : run step start []=start := rfl

@[simp] theorem run_cons (start : σ) (a : α) (actions : List α) :
    run step start (a::actions)=run step (step start a) actions := rfl

theorem run_append (start : σ) (actions more : List α) :
    run step start (actions++more)=run step (run step start actions) more :=
  List.foldl_append

/-- A condition on the actions alone holds along a run as soon as it holds of
each action. -/
theorem along_of_forall {holds : α→Prop} {actions : List α} (h : ∀ a∈actions,holds a)
    (start : σ) : Along step (fun _ a => holds a) start actions := by
  induction actions generalizing start with
  | nil => trivial
  | cons a actions ih =>
    exact ⟨h a List.mem_cons_self,ih (fun b hb => h b (List.mem_cons_of_mem _ hb)) (step start a)⟩

/-- What each admissible step keeps, every admissible run keeps. -/
theorem run_invariant (hstep : ∀ s a,invariant s → condition s a → invariant (step s a))
    {start : σ} (hstart : invariant start) {actions : List α}
    (hall : Along step condition start actions) : invariant (run step start actions) := by
  induction actions generalizing start with
  | nil => exact hstart
  | cons a actions ih => exact ih (hstep start a hstart hall.1) hall.2

/-- So does every run, of what every step keeps. -/
theorem run_keeps (hstep : ∀ s a,invariant s → invariant (step s a)) {start : σ}
    (hstart : invariant start) (actions : List α) : invariant (run step start actions) :=
  run_invariant (fun s a hs _ => hstep s a hs) hstart
    (along_of_forall (fun _ _ => trivial) start)

/-- The state a run ends in when no step of it is refused. -/
def wholeRun (step : σ→α→Option σ) : σ→List α→Option σ
  | s,[] => some s
  | s,a::actions => (step s a).bind (fun next => wholeRun step next actions)

@[simp] theorem wholeRun_nil (step : σ→α→Option σ) (s : σ) : wholeRun step s []=some s := rfl

theorem wholeRun_cons {step : σ→α→Option σ} {s t : σ} {a : α} {actions : List α} :
    wholeRun step s (a::actions)=some t ↔
      ∃ next,step s a=some next ∧ wholeRun step next actions=some t := Option.bind_eq_some_iff

/-- A run goes through the end of each beginning of it. -/
theorem wholeRun_append {step : σ→α→Option σ} {s t : σ} {actions more : List α} :
    wholeRun step s (actions++more)=some t ↔
      ∃ middle,wholeRun step s actions=some middle ∧ wholeRun step middle more=some t := by
  induction actions generalizing s with
  | nil => exact ⟨fun h => ⟨s,rfl,h⟩,fun ⟨_,hs,h⟩ => Option.some.inj hs ▸ h⟩
  | cons a actions ih =>
    simp only [List.cons_append,wholeRun_cons,ih]
    constructor
    · rintro ⟨next,hnext,middle,hmiddle,hmore⟩
      exact ⟨middle,⟨next,hnext,hmiddle⟩,hmore⟩
    · rintro ⟨middle,⟨next,hnext,hmiddle⟩,hmore⟩
      exact ⟨next,hnext,middle,hmiddle,hmore⟩

/-- What follows step by step follows whole runs. -/
theorem wholeRun_follows {τ : Type*} {step : σ→α→Option σ} {other : τ→α→τ} {related : σ→τ→Prop}
    (hstep : ∀ s o a next,related s o → step s a=some next → related next (other o a))
    {s t : σ} {o : τ} (hstart : related s o) {actions : List α}
    (hrun : wholeRun step s actions=some t) : related t (run other o actions) := by
  induction actions generalizing s o with
  | nil =>
    cases hrun
    exact hstart
  | cons a actions ih =>
    obtain ⟨next,hnext,hrest⟩ := wholeRun_cons.mp hrun
    exact ih (hstep s o a next hstart hnext) hrest

/-- What each step keeps of a state and of the actions that led to it holds at the end. -/
theorem wholeRun_traced {step : σ→α→Option σ} {traced : List α→σ→Prop}
    (hstep : ∀ actions s a next,traced actions s → step s a=some next →
      traced (actions++[a]) next)
    {s t : σ} (hstart : traced [] s) {actions : List α} (hrun : wholeRun step s actions=some t) :
    traced actions t := by
  induction actions using List.reverseRecOn generalizing t with
  | nil =>
    cases hrun
    exact hstart
  | append_singleton actions a ih =>
    obtain ⟨middle,hmiddle,hlast⟩ := wholeRun_append.mp hrun
    obtain ⟨next,hnext,hend⟩ := wholeRun_cons.mp hlast
    rw [wholeRun_nil,Option.some.injEq] at hend
    rw [←hend]
    exact hstep actions middle a next (ih hmiddle) hnext

end MlopsPlatform.StateRuns
