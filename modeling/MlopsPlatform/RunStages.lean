import MlopsPlatform.StateRuns
import Mathlib.Data.List.Induction

/-!
# Stages of an action, and what held since

An action may consist of stages that each say whether they succeeded, and the first
that did not is the last. Of a run, the visits are its actions with the state each was
taken in. A condition that some visits set and others clear holds at the end exactly
if one set it and none behind that cleared it.
-/

namespace MlopsPlatform.RunStages

open StateRuns

variable {σ τ α : Type*}

/-- A stage: the state it leaves, and whether it succeeded. -/
abbrev Stage (σ : Type*) := σ→σ×Bool

/-- Stages one after another, up to the first that fails. -/
def inOrder : List (Stage σ)→Stage σ
  | [],s => (s,true)
  | stage::stages,s => if (stage s).2=true then inOrder stages (stage s).1 else ((stage s).1,false)

/-- A stage that leaves the state as it is. -/
def leaves (ok : Bool) : Stage σ := fun s => (s,ok)

/-- What is observed of the state is not changed by the stage. -/
def Spares (observe : σ→τ) (stage : Stage σ) : Prop := ∀ s,observe (stage s).1=observe s

/-- The actions of a run, each with the state it is taken in. -/
def visits (step : σ→α→σ) : σ→List α→List (σ×α)
  | _,[] => []
  | s,a::actions => (s,a)::visits step (step s a) actions

/-- Some element starts it, and it holds of all behind that one. -/
def Since (starts holds : α→Prop) (l : List α) : Prop :=
  ∃ before a after,l=before++a::after ∧ starts a ∧ ∀ b∈after,holds b

variable {observe : σ→τ} {step : σ→α→σ}

theorem inOrder_cons (stage : Stage σ) (stages : List (Stage σ)) (s : σ) :
    inOrder (stage::stages) s=
      if (stage s).2=true then inOrder stages (stage s).1 else ((stage s).1,false) := rfl

theorem inOrder_append (first later : List (Stage σ)) (s : σ) :
    inOrder (first++later) s=
      if (inOrder first s).2=true then inOrder later (inOrder first s).1 else inOrder first s := by
  induction first generalizing s with
  | nil => rfl
  | cons stage first ih =>
    rw [List.cons_append,inOrder_cons,inOrder_cons]
    by_cases h : (stage s).2=true
    · rw [if_pos h,if_pos h,ih]
    · rw [if_neg h,if_neg h]
      rfl

/-- A stage that succeeds is followed by the next. -/
theorem inOrder_cons_of_ok {stage : Stage σ} {s : σ} (h : (stage s).2=true)
    (stages : List (Stage σ)) : inOrder (stage::stages) s=inOrder stages (stage s).1 := if_pos h

/-- A stage that fails is the last. -/
theorem inOrder_cons_of_failed {stage : Stage σ} {s : σ} (h : ¬(stage s).2=true)
    (stages : List (Stage σ)) : inOrder (stage::stages) s=((stage s).1,false) := if_neg h

/-- Stages succeed exactly when the first does, and the others do behind it. -/
theorem inOrder_cons_ok {stage : Stage σ} {stages : List (Stage σ)} {s : σ} :
    (inOrder (stage::stages) s).2=true ↔
      (stage s).2=true ∧ (inOrder stages (stage s).1).2=true := by
  rw [inOrder_cons]
  split
  · rename_i h
    exact (and_iff_right h).symm
  · rename_i h
    exact iff_of_false Bool.false_ne_true (fun hboth => h hboth.1)

theorem inOrder_leaves_ok {ok : Bool} {stages : List (Stage σ)} {s : σ} :
    (inOrder (leaves ok::stages) s).2=true ↔ ok=true ∧ (inOrder stages s).2=true :=
  inOrder_cons_ok

theorem inOrder_append_ok {first later : List (Stage σ)} {s : σ} :
    (inOrder (first++later) s).2=true ↔
      (inOrder first s).2=true ∧ (inOrder later (inOrder first s).1).2=true := by
  rw [inOrder_append]
  split
  · rename_i h
    exact (and_iff_right h).symm
  · rename_i h
    exact iff_of_false h (fun hboth => h hboth.1)

@[simp] theorem leaves_fst (ok : Bool) (s : σ) : (leaves ok s).1=s := rfl

theorem leaves_spares (observe : σ→τ) (ok : Bool) : Spares observe (leaves ok) := fun _ => rfl

/-- What each stage keeps, they keep together. -/
theorem inOrder_keeps {holds : σ→Prop} {stages : List (Stage σ)}
    (h : ∀ stage∈stages,∀ s,holds s → holds (stage s).1) {s : σ} (hs : holds s) :
    holds (inOrder stages s).1 := by
  induction stages generalizing s with
  | nil => exact hs
  | cons stage stages ih =>
    have hstage := h stage List.mem_cons_self s hs
    rw [inOrder_cons]
    split
    · exact ih (fun later hlater => h later (List.mem_cons_of_mem _ hlater)) hstage
    · exact hstage

/-- What no stage changes, they do not change together. -/
theorem inOrder_spares {stages : List (Stage σ)} (h : ∀ stage∈stages,Spares observe stage) :
    Spares observe (inOrder stages) := by
  intro s
  refine @inOrder_keeps σ (fun t => observe t=observe s) _ (fun stage hstage t ht => ?_) s rfl
  rw [h stage hstage t,ht]

theorem visits_concat (actions : List α) (a : α) (s : σ) :
    visits step s (actions++[a])=visits step s actions++[(run step s actions,a)] := by
  induction actions generalizing s with
  | nil => rfl
  | cons first actions ih =>
    rw [List.cons_append,visits,ih,visits,List.cons_append,run_cons]

/-- A visit is that of an action of the run, and those behind it are the visits of the
actions behind that one. -/
theorem visits_split {actions : List α} {s : σ} {before after : List (σ×α)} {v : σ×α}
    (h : visits step s actions=before++v::after) :
    ∃ first later,actions=first++v.2::later ∧ v.1=run step s first ∧
      after=visits step (run step s (first++[v.2])) later := by
  induction before generalizing s actions with
  | nil =>
    cases actions with
    | nil => cases h
    | cons a actions =>
      rw [visits,List.nil_append,List.cons.injEq] at h
      obtain ⟨rfl,rfl⟩ := h
      exact ⟨[],actions,rfl,rfl,rfl⟩
  | cons head before ih =>
    cases actions with
    | nil => cases h
    | cons a actions =>
      rw [visits,List.cons_append,List.cons.injEq] at h
      obtain ⟨first,later,hactions,hv,hafter⟩ := ih h.2
      exact ⟨a::first,later,congrArg _ hactions,hv,hafter⟩

theorem since_nil {starts holds : α→Prop} : ¬Since starts holds [] := by
  rintro ⟨before,a,after,h,-⟩
  simp at h

/-- One element more starts it, or keeps it holding. -/
theorem since_concat {starts holds : α→Prop} {l : List α} {a : α} :
    Since starts holds (l++[a]) ↔ starts a ∨ holds a ∧ Since starts holds l := by
  constructor
  · rintro ⟨before,b,after,hl,hb,hafter⟩
    rcases List.eq_nil_or_concat after with rfl|⟨init,last,rfl⟩
    · have hsame := List.append_inj' hl rfl
      cases hsame.2
      exact .inl hb
    · rw [List.concat_eq_append,←List.cons_append,←List.append_assoc] at hl
      obtain ⟨hinit,hlast⟩ := List.append_inj' hl rfl
      cases hlast
      rw [List.concat_eq_append] at hafter
      refine .inr ⟨hafter a (List.mem_append_right _ (List.mem_singleton_self a)),before,b,init,
        hinit,hb,fun c hc => hafter c (List.mem_append_left _ hc)⟩
  · rintro (ha|⟨ha,before,b,after,rfl,hb,hafter⟩)
    · exact ⟨l,a,[],rfl,ha,fun _ h => absurd h List.not_mem_nil⟩
    · refine ⟨before,b,after++[a],by rw [List.append_assoc,List.cons_append],hb,fun c hc => ?_⟩
      rcases List.mem_append.mp hc with hc|hc
      · exact hafter c hc
      · exact List.mem_singleton.mp hc ▸ ha

/-- A condition that each step sets, clears or leaves holds at the end of a run that began
without it exactly if some visit set it and none behind that cleared it. -/
theorem run_holds_iff {holds : σ→Prop} {sets clears : σ×α→Prop}
    (hstep : ∀ s a,holds (step s a) ↔ sets (s,a) ∨ ¬clears (s,a) ∧ holds s) {start : σ}
    (hstart : ¬holds start) (actions : List α) :
    holds (run step start actions) ↔
      Since sets (fun v => ¬clears v) (visits step start actions) := by
  induction actions using List.reverseRecOn with
  | nil => exact iff_of_false hstart since_nil
  | append_singleton actions a ih =>
    rw [run_append,run_cons,run_nil,hstep,visits_concat,since_concat,ih]

end MlopsPlatform.RunStages
