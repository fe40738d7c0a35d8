import MlopsPlatform.StepSequences
import Mathlib.Data.List.Nodup

/-!
# Targets with prerequisites

A rule has prerequisites and a recipe. Making a target makes its prerequisites in
order, each with its own first, and then takes the steps of its recipe; what is
made already is not made again, and the first step that fails ends everything.
The steps taken are an attempt at the recipes of the targets in the order of a
plain walk, without those that come a second time.
-/

namespace MlopsPlatform.TargetRules

open StepSequences

variable {Target Step : Type*}

/-- The rules of a makefile without a cycle. -/
structure Rules (Target Step : Type*) where
  /-- What is made first. -/
  prerequisites : Target→List Target
  /-- The steps of its own. -/
  recipe : Target→List Step
  /-- How far a target is from having no prerequisites. -/
  rank : Target→ℕ
  /-- Prerequisites are nearer. -/
  falls : ∀ target,∀ first∈prerequisites target,rank first<rank target

/-- Where making targets has come to. -/
structure Progress (Target Step : Type*) where
  /-- The targets made. -/
  made : List Target
  /-- The steps taken. -/
  taken : List Step
  /-- Whether none of them failed. -/
  succeeds : Bool

section Making

variable [DecidableEq Target]

/-- Make a target, to a depth. -/
def update (rules : Rules Target Step) (outcome : Outcome Step) :
    ℕ→Progress Target Step→Target→Progress Target Step
  | 0,progress,_ => progress
  | depth+1,progress,target =>
    if progress.succeeds=false ∨ target∈progress.made then progress
    else
      let first := (rules.prerequisites target).foldl (update rules outcome depth) progress
      if first.succeeds=false then first
      else
        let own := attempt outcome first.taken (rules.recipe target)
        if own.2=true then ⟨first.made++[target],own.1,true⟩ else ⟨first.made,own.1,false⟩

/-- Make one target: the steps taken, and whether all succeeded. -/
def make (rules : Rules Target Step) (outcome : Outcome Step) (target : Target) :
    List Step×Bool :=
  let progress := update rules outcome (rules.rank target+1) ⟨[],[],true⟩ target
  (progress.taken,progress.succeeds)

/-- The targets that are made, in order, if nothing fails. -/
def order (rules : Rules Target Step) : ℕ→List Target→Target→List Target
  | 0,made,_ => made
  | depth+1,made,target =>
    if target∈made then made
    else (rules.prerequisites target).foldl (order rules depth) made++[target]

/-- Add what is not there. -/
def addNew (made : List Target) (target : Target) : List Target :=
  if target∈made then made else made++[target]

end Making

/-- The targets in order, each as often as it is asked for. -/
def walk (rules : Rules Target Step) : ℕ→Target→List Target
  | 0,_ => []
  | depth+1,target => (rules.prerequisites target).flatMap (walk rules depth)++[target]

/-- The prerequisites of what is made are made. -/
def Closed (rules : Rules Target Step) (made : List Target) : Prop :=
  ∀ target∈made,∀ first∈rules.prerequisites target,first∈made

variable {rules : Rules Target Step} {outcome : Outcome Step}

/-- What the prerequisites have of a target, all of its walk has. -/
theorem walk_keeps {property : Target→Prop}
    (hkeeps : ∀ target,property target → ∀ first∈rules.prerequisites target,property first)
    {depth : ℕ} {target other : Target} (htarget : property target)
    (h : other∈walk rules depth target) : property other := by
  induction depth generalizing target with
  | zero => exact absurd h List.not_mem_nil
  | succ depth ih =>
    rw [walk,List.mem_append,List.mem_flatMap,List.mem_singleton] at h
    rcases h with ⟨first,hfirst,hm⟩|rfl
    · exact ih (hkeeps target htarget first hfirst) hm
    · exact htarget

/-- A walk goes down. -/
theorem rank_of_mem_walk {depth : ℕ} {target other : Target} (h : other∈walk rules depth target) :
    other=target ∨ rules.rank other<rules.rank target := by
  refine @walk_keeps _ _ _ (fun other => other=target ∨ rules.rank other<rules.rank target)
    (fun middle hmiddle first hfirst => .inr ?_) _ _ _ (.inl rfl) h
  have hfalls := rules.falls middle first hfirst
  rcases hmiddle with rfl|hlt
  · exact hfalls
  · exact Nat.lt_trans hfalls hlt

/-- No target is met on the way to itself. -/
theorem not_mem_walk_prerequisites (depth : ℕ) (target : Target) :
    target∉(rules.prerequisites target).flatMap (walk rules depth) := by
  intro hm
  obtain ⟨first,hm,hwalk⟩ := List.mem_flatMap.mp hm
  have hlt := rules.falls target first hm
  rcases rank_of_mem_walk hwalk with rfl|hrank
  · exact Nat.lt_irrefl _ hlt
  · exact Nat.lt_asymm hlt hrank

/-- All of a walk from something made is made. -/
theorem mem_of_mem_walk {made : List Target} (hclosed : Closed rules made) {depth : ℕ}
    {target other : Target} (htarget : target∈made) (h : other∈walk rules depth target) :
    other∈made := walk_keeps hclosed htarget h

/-- Where a run is after some targets more: the steps are an attempt at their
recipes, and with all of them taken they are made. -/
structure After (rules : Rules Target Step) (outcome : Outcome Step) (before added : List Target)
    (history : List Step) (progress : Progress Target Step) : Prop where
  /-- The steps taken. -/
  taken : progress.taken=(attempt outcome history (added.flatMap rules.recipe)).1
  /-- Whether all succeeded. -/
  succeeds : progress.succeeds=(attempt outcome history (added.flatMap rules.recipe)).2
  /-- The targets made. -/
  made : progress.succeeds=true → progress.made=before++added

theorem After.none {before : List Target} {progress : Progress Target Step}
    (hmade : progress.made=before) (hs : progress.succeeds=true) :
    After rules outcome before [] progress.taken progress :=
  ⟨rfl,hs,fun _ => by rw [hmade,List.append_nil]⟩

/-- One run behind another. -/
theorem After.trans {before added more : List Target} {history : List Step}
    {progress next : Progress Target Step}
    (h : After rules outcome before added history progress)
    (hfailed : progress.succeeds=false → next=progress)
    (hnext : progress.succeeds=true →
      After rules outcome (before++added) more progress.taken next) :
    After rules outcome before (added++more) history next := by
  have happend := attempt_append outcome history (added.flatMap rules.recipe)
    (more.flatMap rules.recipe)
  rw [←List.flatMap_append,←h.succeeds,←h.taken] at happend
  cases hs : progress.succeeds with
  | false =>
    rw [hs,if_neg Bool.false_ne_true] at happend
    rw [hfailed hs]
    refine ⟨?_,?_,fun ht => ?_⟩
    · rw [happend,h.taken]
    · rw [happend,h.succeeds]
    · rw [hs] at ht
      cases ht
  | true =>
    rw [hs,if_pos rfl] at happend
    have hn := hnext hs
    refine ⟨?_,?_,fun ht => ?_⟩
    · rw [happend,hn.taken]
    · rw [happend,hn.succeeds]
    · rw [hn.made ht,List.append_assoc]

section Orders

variable [DecidableEq Target]

theorem mem_foldl_addNew {made targets : List Target} {other : Target} :
    other∈targets.foldl addNew made ↔ other∈made ∨ other∈targets := by
  induction targets generalizing made with
  | nil => rw [List.foldl_nil,or_iff_left List.not_mem_nil]
  | cons target targets ih =>
    rw [List.foldl_cons,ih,addNew,List.mem_cons,←or_assoc]
    refine or_congr_left ?_
    split_ifs with hm
    · exact ⟨.inl,fun h => h.elim id (fun he => he ▸ hm)⟩
    · rw [List.mem_append,List.mem_singleton]

/-- Nothing is added that is there. -/
theorem foldl_addNew_of_subset {made targets : List Target} (h : ∀ target∈targets,target∈made) :
    targets.foldl addNew made=made := by
  induction targets with
  | nil => rfl
  | cons target targets ih =>
    rw [List.forall_mem_cons] at h
    rw [List.foldl_cons,addNew,if_pos h.1,ih h.2]

/-- All is added where nothing comes twice. -/
theorem foldl_addNew_of_nodup {made targets : List Target} (h : (made++targets).Nodup) :
    targets.foldl addNew made=made++targets := by
  induction targets generalizing made with
  | nil => rw [List.foldl_nil,List.append_nil]
  | cons target targets ih =>
    have hnew : target∉made := by
      rw [List.nodup_append] at h
      exact fun hm => h.2.2 _ hm _ List.mem_cons_self rfl
    rw [List.foldl_cons,addNew,if_neg hnew,ih (by rwa [List.append_assoc]),List.append_assoc,
      List.singleton_append]

/-- Several targets are made as one is, in turn. -/
theorem foldl_order_eq {depth : ℕ}
    (h : ∀ target,rules.rank target<depth → ∀ made,Closed rules made →
      order rules depth made target=(walk rules depth target).foldl addNew made ∧
        Closed rules (order rules depth made target))
    {targets : List Target} (hbelow : ∀ first∈targets,rules.rank first<depth)
    {made : List Target} (hclosed : Closed rules made) :
    targets.foldl (order rules depth) made=
        (targets.flatMap (walk rules depth)).foldl addNew made ∧
      Closed rules (targets.foldl (order rules depth) made) := by
  induction targets generalizing made with
  | nil => exact ⟨rfl,hclosed⟩
  | cons first targets ih =>
    rw [List.forall_mem_cons] at hbelow
    obtain ⟨hfirst,hclosed'⟩ := h first hbelow.1 made hclosed
    obtain ⟨hrest,hclosed''⟩ := ih hbelow.2 hclosed'
    refine ⟨?_,hclosed''⟩
    rw [List.foldl_cons,hrest,hfirst,List.flatMap_cons,List.foldl_append]

/-- What is made is the walk without what comes a second time; it stays closed. -/
theorem order_eq {depth : ℕ} {target : Target} (hdepth : rules.rank target<depth)
    {made : List Target} (hclosed : Closed rules made) :
    order rules depth made target=(walk rules depth target).foldl addNew made ∧
      Closed rules (order rules depth made target) := by
  induction depth generalizing target made with
  | zero => exact absurd hdepth (Nat.not_lt_zero _)
  | succ depth ih =>
    by_cases hmade : target∈made
    · have hsame : order rules (depth+1) made target=made := by rw [order,if_pos hmade]
      rw [hsame]
      exact ⟨(foldl_addNew_of_subset (fun _ h => mem_of_mem_walk hclosed hmade h)).symm,hclosed⟩
    · have hbelow : ∀ first∈rules.prerequisites target,rules.rank first<depth :=
        fun first hm => Nat.lt_of_lt_of_le (rules.falls target first hm) (Nat.le_of_lt_succ hdepth)
      obtain ⟨hfirst,hclosed'⟩ := foldl_order_eq (fun _ h _ hc => ih h hc) hbelow hclosed
      have hnew : target∉
          ((rules.prerequisites target).flatMap (walk rules depth)).foldl addNew made := by
        rw [mem_foldl_addNew,not_or]
        exact ⟨hmade,not_mem_walk_prerequisites depth target⟩
      have hsame : order rules (depth+1) made target=
          (rules.prerequisites target).foldl (order rules depth) made++[target] := by
        rw [order,if_neg hmade]
      refine ⟨?_,?_⟩
      · rw [hsame,hfirst,walk,List.foldl_append,List.foldl_cons,List.foldl_nil,addNew,if_neg hnew]
      · rw [hsame]
        intro other hm first hp
        rw [List.mem_append,List.mem_singleton] at hm ⊢
        rcases hm with hm|rfl
        · exact .inl (hclosed' other hm first hp)
        · refine .inl ?_
          rw [hfirst,mem_foldl_addNew,List.mem_flatMap]
          obtain ⟨n,rfl⟩ : ∃ n,depth=n+1 := Nat.exists_eq_succ_of_ne_zero (by
            have := hbelow first hp
            omega)
          exact .inr ⟨first,hp,by rw [walk]; exact List.mem_append_right _ (List.mem_singleton_self _)⟩

/-- Targets are only added. -/
theorem foldl_order_append {depth : ℕ}
    (h : ∀ target made,∃ added,order rules depth made target=made++added)
    (targets made : List Target) :
    ∃ added,targets.foldl (order rules depth) made=made++added := by
  induction targets generalizing made with
  | nil => exact ⟨[],(List.append_nil made).symm⟩
  | cons target targets ih =>
    obtain ⟨first,hfirst⟩ := h target made
    obtain ⟨rest,hrest⟩ := ih (made++first)
    refine ⟨first++rest,?_⟩
    rw [List.foldl_cons,hfirst,hrest,List.append_assoc]

theorem order_append (depth : ℕ) (target : Target) (made : List Target) :
    ∃ added,order rules depth made target=made++added := by
  induction depth generalizing target made with
  | zero => exact ⟨[],(List.append_nil made).symm⟩
  | succ depth ih =>
    by_cases hm : target∈made
    · exact ⟨[],by rw [order,if_pos hm,List.append_nil]⟩
    · obtain ⟨added,hadded⟩ := foldl_order_append ih (rules.prerequisites target) made
      exact ⟨added++[target],by rw [order,if_neg hm,hadded,List.append_assoc]⟩

/-- After a failure nothing more is done. -/
theorem update_failed {depth : ℕ} {progress : Progress Target Step}
    (h : progress.succeeds=false) (target : Target) :
    update rules outcome depth progress target=progress := by
  cases depth with
  | zero => rfl
  | succ depth => rw [update,if_pos (.inl h)]

theorem foldl_update_failed {depth : ℕ} {progress : Progress Target Step}
    (h : progress.succeeds=false) (targets : List Target) :
    targets.foldl (update rules outcome depth) progress=progress := by
  induction targets with
  | nil => rfl
  | cons target targets ih => rw [List.foldl_cons,update_failed h,ih]

/-- Making targets one after another. -/
theorem foldl_update_after {depth : ℕ}
    (h : ∀ target progress,progress.succeeds=true → ∃ added,
      order rules depth progress.made target=progress.made++added ∧
        After rules outcome progress.made added progress.taken
          (update rules outcome depth progress target))
    (targets : List Target) {progress : Progress Target Step} (hs : progress.succeeds=true) :
    ∃ added,targets.foldl (order rules depth) progress.made=progress.made++added ∧
      After rules outcome progress.made added progress.taken
        (targets.foldl (update rules outcome depth) progress) := by
  induction targets generalizing progress with
  | nil => exact ⟨[],(List.append_nil _).symm,.none rfl hs⟩
  | cons target targets ih =>
    obtain ⟨added,horder,hafter⟩ := h target progress hs
    cases hfirst : (update rules outcome depth progress target).succeeds with
    | false =>
      obtain ⟨more,hmore⟩ := foldl_order_append (order_append depth) targets (progress.made++added)
      refine ⟨added++more,?_,hafter.trans (fun hf => ?_) (fun ht => ?_)⟩
      · rw [List.foldl_cons,horder,hmore,List.append_assoc]
      · rw [List.foldl_cons,foldl_update_failed hf]
      · rw [hfirst] at ht
        cases ht
    | true =>
      obtain ⟨more,hmore,hrest⟩ := ih hfirst
      rw [hafter.made hfirst] at hmore hrest
      refine ⟨added++more,?_,hafter.trans (fun hf => ?_) (fun _ => hrest)⟩
      · rw [List.foldl_cons,horder,hmore,List.append_assoc]
      · rw [hfirst] at hf
        cases hf

/-- Making one target. -/
theorem update_after (depth : ℕ) (target : Target) {progress : Progress Target Step}
    (hs : progress.succeeds=true) :
    ∃ added,order rules depth progress.made target=progress.made++added ∧
      After rules outcome progress.made added progress.taken
        (update rules outcome depth progress target) := by
  induction depth generalizing target progress with
  | zero => exact ⟨[],(List.append_nil _).symm,.none rfl hs⟩
  | succ depth ih =>
    by_cases hm : target∈progress.made
    · refine ⟨[],by rw [order,if_pos hm,List.append_nil],?_⟩
      rw [update,if_pos (.inr hm)]
      exact .none rfl hs
    · obtain ⟨added,horder,hafter⟩ := foldl_update_after (fun t p hp => ih t hp)
        (rules.prerequisites target) hs
      have hgo : ¬(progress.succeeds=false ∨ target∈progress.made) := by
        rw [hs,not_or]
        exact ⟨by decide,hm⟩
      rw [update,if_neg hgo]
      refine ⟨added++[target],by rw [order,if_neg hm,horder,List.append_assoc],
        hafter.trans (fun hf => if_pos hf) (fun ht => ?_)⟩
      have hgoes : ¬((rules.prerequisites target).foldl (update rules outcome depth)
          progress).succeeds=false := by
        rw [ht]
        decide
      have hown : [target].flatMap rules.recipe=rules.recipe target := List.flatMap_singleton ..
      rw [if_neg hgoes]
      dsimp only
      split_ifs with hall
      · exact ⟨by rw [hown],by rw [hown,hall],fun _ => by rw [hafter.made ht]⟩
      · refine ⟨by rw [hown],?_,fun h => by cases h⟩
        rw [hown]
        exact (eq_false_of_ne_true hall).symm

/-- Making a target is an attempt at the recipes of its walk, each target once. -/
theorem make_eq (rules : Rules Target Step) (outcome : Outcome Step) (target : Target) :
    make rules outcome target=attempt outcome []
      (((walk rules (rules.rank target+1) target).foldl addNew []).flatMap rules.recipe) := by
  obtain ⟨added,horder,hafter⟩ := @update_after _ _ rules outcome _ (rules.rank target+1) target
    ⟨[],[],true⟩ rfl
  have hclosed : Closed rules [] := fun _ h => absurd h List.not_mem_nil
  rw [(order_eq (Nat.lt_succ_self (rules.rank target)) hclosed).1,List.nil_append] at horder
  rw [make,horder]
  exact Prod.ext hafter.taken hafter.succeeds

/-- With no target asked for twice, that is a plain walk. -/
theorem make_of_nodup {target : Target}
    (h : (walk rules (rules.rank target+1) target).Nodup) :
    make rules outcome target=attempt outcome []
      ((walk rules (rules.rank target+1) target).flatMap rules.recipe) := by
  rw [make_eq,foldl_addNew_of_nodup (by rwa [List.nil_append]),List.nil_append]

end Orders

end MlopsPlatform.TargetRules
