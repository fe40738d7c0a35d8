import Mathlib.Data.Int.Notation
import Mathlib.Data.List.Basic
import Mathlib.Tactic.Common

/-!
# Steps taken until one fails

A list of steps is attempted in order, and the first that exits with another
code than zero is the last one taken. What a step exits with may depend on the
steps before it, so the codes are a function of that history. Attempts are
composed with the history they leave.
-/

namespace MlopsPlatform.StepSequences

variable {Step : Type*}

/-- The exit code of a step after the steps before it. -/
abbrev Outcome (Step : Type*) := List Step→Step→ℤ

/-- Take steps in order until one fails: the steps taken, and whether all of
them exited with zero. -/
def attempt (outcome : Outcome Step) : List Step→List Step→List Step×Bool
  | taken,[] => (taken,true)
  | taken,step::rest =>
    if outcome taken step=0 then attempt outcome (taken++[step]) rest else (taken++[step],false)

/-- Every step exits with zero after those before it. -/
def AllZero (outcome : Outcome Step) (steps : List Step) : Prop :=
  ∀ before step later,steps=before++step::later → outcome before step=0

variable {outcome : Outcome Step}

theorem attempt_nil (taken : List Step) : attempt outcome taken []=(taken,true) := rfl

/-- A step that exits with zero is followed by the next. -/
theorem attempt_zero {taken : List Step} {step : Step} (h : outcome taken step=0)
    (rest : List Step) :
    attempt outcome taken (step::rest)=attempt outcome (taken++[step]) rest := if_pos h

/-- A step that fails is the last. -/
theorem attempt_failed {taken : List Step} {step : Step} (h : outcome taken step≠0)
    (rest : List Step) : attempt outcome taken (step::rest)=(taken++[step],false) := if_neg h

/-- More steps are taken only if none before them failed. -/
theorem attempt_append (outcome : Outcome Step) (taken first later : List Step) :
    attempt outcome taken (first++later)=
      if (attempt outcome taken first).2=true then
        attempt outcome (attempt outcome taken first).1 later
      else attempt outcome taken first := by
  induction first generalizing taken with
  | nil => rfl
  | cons step rest ih =>
    rw [List.cons_append]
    by_cases h : outcome taken step=0
    · rw [attempt_zero h,attempt_zero h,ih]
    · rw [attempt_failed h,attempt_failed h]
      rfl

/-- The steps taken are the first ones, and only the last of them may have failed. -/
theorem attempt_shape (outcome : Outcome Step) (taken steps : List Step) :
    ∃ first later,steps=first++later ∧ (attempt outcome taken steps).1=taken++first ∧
      ∀ before step after,first=before++step::after → after≠[] →
        outcome (taken++before) step=0 := by
  induction steps generalizing taken with
  | nil => exact ⟨[],[],rfl,(List.append_nil taken).symm,fun _ _ _ h => by simp at h⟩
  | cons step rest ih =>
    by_cases h : outcome taken step=0
    · obtain ⟨first,later,hrest,htaken,hzero⟩ := ih (taken++[step])
      refine ⟨step::first,later,congrArg _ hrest,?_,fun before other after hfirst hafter => ?_⟩
      · rw [attempt_zero h,htaken,List.append_assoc,List.singleton_append]
      · cases before with
        | nil =>
          rw [List.nil_append,List.cons.injEq] at hfirst
          rw [←hfirst.1,List.append_nil]
          exact h
        | cons head before =>
          rw [List.cons_append,List.cons.injEq] at hfirst
          have hother := hzero before other after hfirst.2 hafter
          rw [←hfirst.1]
          rwa [List.append_assoc,List.singleton_append] at hother
    · refine ⟨[step],rest,rfl,by rw [attempt_failed h],fun before other after hfirst hafter => ?_⟩
      cases before with
      | nil =>
        rw [List.nil_append,List.cons.injEq] at hfirst
        exact absurd hfirst.2.symm hafter
      | cons head before => simp at hfirst

/-- A step that is taken is one of the steps, and those before it exited with zero. -/
theorem attempt_takes {steps before after : List Step} {step : Step}
    (h : (attempt outcome [] steps).1=before++step::after) :
    (∃ later,steps=before++step::later) ∧
      ∀ earlier other between,before=earlier++other::between → outcome earlier other=0 := by
  obtain ⟨first,later,hsteps,htaken,hzero⟩ := attempt_shape outcome [] steps
  rw [h,List.nil_append] at htaken
  refine ⟨⟨after++later,?_⟩,fun earlier other between hbefore => ?_⟩
  · rw [hsteps,←htaken,List.append_assoc,List.cons_append]
  · refine hzero earlier other (between++step::after) ?_ (by simp)
    rw [←htaken,hbefore,List.append_assoc,List.cons_append]

/-- Every step of a kind stands right behind the guard. The flag says whether the
step before was the guard. -/
def guarded [DecidableEq Step] (guard : Step) (kind : Step→Bool) : Bool→List Step→Bool
  | _,[] => true
  | behind,step::rest => (!kind step || behind) && guarded guard kind (decide (step=guard)) rest

/-- Such a step has the guard before it. -/
theorem guarded_before [DecidableEq Step] {guard step : Step} {kind : Step→Bool}
    {steps before later : List Step} (h : guarded guard kind false steps=true)
    (hsteps : steps=before++step::later) (hkind : kind step=true) :
    ∃ earlier,before=earlier++[guard] := by
  have hall : ∀ behind,guarded guard kind behind (before++step::later)=true →
      (before=[] ∧ behind=true) ∨ ∃ earlier,before=earlier++[guard] := by
    clear h hsteps
    induction before with
    | nil =>
      intro behind h
      rw [List.nil_append,guarded,hkind,Bool.and_eq_true] at h
      exact .inl ⟨rfl,h.1⟩
    | cons first before ih =>
      intro behind h
      rw [List.cons_append,guarded,Bool.and_eq_true] at h
      rcases ih _ h.2 with ⟨rfl,hfirst⟩|⟨earlier,rfl⟩
      · exact .inr ⟨[],by rw [of_decide_eq_true hfirst,List.nil_append]⟩
      · exact .inr ⟨first::earlier,rfl⟩
  rw [hsteps] at h
  exact (hall false h).resolve_left (fun hb => Bool.false_ne_true hb.2)

/-- Steps that are all taken succeed exactly when each exits with zero. -/
theorem attempt_succeeds_iff (taken steps : List Step) :
    (attempt outcome taken steps).2=true ↔
      ∀ before step later,steps=before++step::later → outcome (taken++before) step=0 := by
  induction steps generalizing taken with
  | nil =>
    refine iff_of_true rfl (fun before step later h => ?_)
    exact absurd h.symm (List.append_ne_nil_of_right_ne_nil _ (List.cons_ne_nil _ _))
  | cons step rest ih =>
    by_cases h : outcome taken step=0
    · rw [attempt_zero h,ih]
      constructor
      · intro hrest before other later hcut
        cases before with
        | nil =>
          rw [List.nil_append,List.cons.injEq] at hcut
          rw [←hcut.1,List.append_nil]
          exact h
        | cons first before =>
          rw [List.cons_append,List.cons.injEq] at hcut
          have hzero := hrest before other later hcut.2
          rw [←hcut.1]
          rwa [List.append_assoc,List.singleton_append] at hzero
      · intro hall before other later hcut
        have hzero := hall (step::before) other later (congrArg _ hcut)
        rwa [List.append_assoc,List.singleton_append]
    · rw [attempt_failed h]
      refine iff_of_false (fun hf => (by cases hf)) (fun hall => h ?_)
      have hzero := hall [] step rest rfl
      rwa [List.append_nil] at hzero

/-- From the start, that is success of all. -/
theorem attempt_allZero_iff (steps : List Step) :
    (attempt outcome [] steps).2=true ↔ AllZero outcome steps := by
  rw [attempt_succeeds_iff,AllZero]
  simp only [List.nil_append]

/-- When no step can fail, all are taken. -/
theorem attempt_of_zero (hzero : ∀ taken step,outcome taken step=0) (taken steps : List Step) :
    attempt outcome taken steps=(taken++steps,true) := by
  induction steps generalizing taken with
  | nil => rw [attempt_nil,List.append_nil]
  | cons step rest ih =>
    rw [attempt_zero (hzero taken step),ih,List.append_assoc,List.singleton_append]

end MlopsPlatform.StepSequences
