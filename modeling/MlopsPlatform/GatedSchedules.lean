import Mathlib.Algebra.BigOperators.Group.Finset.Basic
import Mathlib.Algebra.Order.BigOperators.Group.Finset
import Mathlib.Data.List.Basic
import Mathlib.Logic.Relation
import Mathlib.Tactic.Abel

/-!
# Schedules with completion gates

Some services end and others stay. A service starts once every service that
gates it has ended, in any order and at any time. The sets of services that can
be running together are told without schedules: none of them waits, directly or
not, on another one, and each is behind gates that can all end. So a budget
holds along every schedule exactly when it holds of these sets, and an account
that charges each ending service less than its size is sound exactly when what
it leaves out is covered by what such a set keeps from running.
-/

namespace MlopsPlatform.GatedSchedules

open Relation

variable {ι : Type*}

/-- Where a service is. -/
inductive Phase where
  /-- It has not started. -/
  | waiting
  /-- It is running. -/
  | running
  /-- It has ended. -/
  | exited
deriving DecidableEq

/-- Services and the gates between them. -/
structure Gated (ι : Type*) where
  /-- The services. -/
  services : Finset ι
  /-- The first service has to end before the second one starts. -/
  gate : ι→ι→Prop
  /-- The service ends by itself. -/
  ends : ι→Prop
  /-- What gates another service ends by itself. -/
  gate_ends : ∀ s t,gate s t → ends s

variable {system : Gated ι}

/-- One step of a schedule. -/
inductive Step [DecidableEq ι] (system : Gated ι) : (ι→Phase)→(ι→Phase)→Prop where
  /-- A service starts when every gate before it has ended. -/
  | start {phases : ι→Phase} {t : ι} (member : t∈system.services) (waits : phases t=.waiting)
    (ready : ∀ s,system.gate s t → phases s=.exited) :
    Step system phases (Function.update phases t .running)
  /-- A service that ends by itself does so. -/
  | exit {phases : ι→Phase} {s : ι} (ends : system.ends s) (runs : phases s=.running) :
    Step system phases (Function.update phases s .exited)

/-- A state that some schedule comes to. -/
def Reachable [DecidableEq ι] (system : Gated ι) (phases : ι→Phase) : Prop :=
  ReflTransGen (Step system) (fun _ => .waiting) phases

/-- The services that are running. -/
def resident (system : Gated ι) (phases : ι→Phase) : Finset ι :=
  system.services.filter (fun t => phases t=.running)

/-- The second service waits on the first one, directly or not. -/
def Before (system : Gated ι) : ι→ι→Prop := TransGen system.gate

/-- The service can start: everything it waits on is a service that can start. -/
inductive Startable (system : Gated ι) : ι→Prop where
  /-- What gates it can start. -/
  | intro (t : ι) (member : t∈system.services) (gates : ∀ s,system.gate s t → Startable system s) :
    Startable system t

/-- It is a service. -/
theorem Startable.mem {t : ι} (h : Startable system t) : t∈system.services := by
  cases h with
  | intro _ member _ => exact member

/-- What gates it can start. -/
theorem Startable.gate {s t : ι} (h : Startable system t) (hg : system.gate s t) :
    Startable system s := by
  cases h with
  | intro _ _ gates => exact gates s hg

/-- Services of which none has to end before another one starts. -/
structure Concurrent (system : Gated ι) (together : Finset ι) : Prop where
  /-- Each of them can start. -/
  startable : ∀ t∈together,Startable system t
  /-- None waits on another, or on itself. -/
  apart : ∀ s∈together,∀ t∈together,¬Before system s t

/-- So are some of them. -/
theorem Concurrent.mono {together fewer : Finset ι} (h : Concurrent system together)
    (hsub : fewer⊆together) : Concurrent system fewer :=
  ⟨fun t ht => h.startable t (hsub ht),fun s hs t ht => h.apart s (hsub hs) t (hsub ht)⟩

/-- What holds of a state that a schedule comes to. -/
structure Orderly (system : Gated ι) (phases : ι→Phase) : Prop where
  /-- Only a service that can start does. -/
  startable : ∀ t,phases t≠.waiting → Startable system t
  /-- It starts after its gates have ended. -/
  gates : ∀ t,phases t≠.waiting → ∀ s,system.gate s t → phases s=.exited

/-- No service has started at first. -/
theorem orderly_initial (system : Gated ι) : Orderly system (fun _ => .waiting) :=
  ⟨fun _ h => absurd rfl h,fun _ h => absurd rfl h⟩

/-- Everything a started service waits on has ended. -/
theorem Orderly.before {phases : ι→Phase} (h : Orderly system phases) {s t : ι}
    (hst : Before system s t) (ht : phases t≠.waiting) : phases s=.exited := by
  induction hst with
  | single hg => exact h.gates _ ht _ hg
  | tail _ hg ih =>
    refine ih ?_
    rw [h.gates _ ht _ hg]
    exact fun he => (by cases he)

open Classical in
/-- The state after some services have ended. -/
noncomputable def finish (phases : ι→Phase) (done : ι→Prop) : ι→Phase :=
  fun a => if done a then .exited else phases a

theorem finish_of {phases : ι→Phase} {done : ι→Prop} {a : ι} (h : done a) :
    finish phases done a=.exited := if_pos h

theorem finish_of_not {phases : ι→Phase} {done : ι→Prop} {a : ι} (h : ¬done a) :
    finish phases done a=phases a := if_neg h

theorem finish_congr {phases : ι→Phase} {done done' : ι→Prop} {a : ι} (h : done a ↔ done' a) :
    finish phases done a=finish phases done' a := by
  by_cases hd : done a
  · rw [finish_of hd,finish_of (h.mp hd)]
  · rw [finish_of_not hd,finish_of_not (fun hd' => hd (h.mpr hd'))]

/-- Some services end after others. -/
theorem finish_finish {phases : ι→Phase} {done more : ι→Prop} :
    finish (finish phases done) more=finish phases (fun a => done a ∨ more a) := by
  funext a
  by_cases hm : more a
  · exact (finish_of hm).trans (@finish_of _ _ (fun a => done a ∨ more a) _ (Or.inr hm)).symm
  · refine (finish_of_not hm).trans ?_
    by_cases hd : done a
    · exact (finish_of hd).trans (@finish_of _ _ (fun a => done a ∨ more a) _ (Or.inl hd)).symm
    · exact (finish_of_not hd).trans
        (@finish_of_not _ _ (fun a => done a ∨ more a) _ (not_or.mpr ⟨hd,hm⟩)).symm

/-- Nothing is running that is not running before. -/
theorem finish_ne_running {phases : ι→Phase} {done : ι→Prop} {a : ι}
    (h : ¬done a → phases a≠.running) : finish phases done a≠.running := by
  by_cases hd : done a
  · rw [finish_of hd]
    exact fun he => (by cases he)
  · rw [finish_of_not hd]
    exact h hd

section Schedules

variable [DecidableEq ι] {phases phases' : ι→Phase}

/-- A step keeps the order. -/
theorem Orderly.step (h : Orderly system phases) (hstep : Step system phases phases') :
    Orderly system phases' := by
  cases hstep with
  | @start t member waits ready =>
    have hkept : ∀ s,phases s=.exited → Function.update phases t .running s=.exited := by
      intro s hs
      rw [Function.update_of_ne (by rintro rfl; rw [waits] at hs; cases hs),hs]
    refine ⟨fun u hu => ?_,fun u hu s hg => ?_⟩ <;>
      by_cases hut : u=t
    · rw [hut]
      refine .intro t member (fun s hg => h.startable s ?_)
      rw [ready s hg]
      exact fun he => (by cases he)
    · rw [Function.update_of_ne hut] at hu
      exact h.startable u hu
    · exact hkept s (ready s (hut ▸ hg))
    · rw [Function.update_of_ne hut] at hu
      exact hkept s (h.gates u hu s hg)
  | @exit r ends runs =>
    have hstarted : ∀ u,Function.update phases r .exited u≠.waiting → phases u≠.waiting := by
      intro u hu
      by_cases hur : u=r
      · rw [hur,runs]
        exact fun he => (by cases he)
      · rwa [Function.update_of_ne hur] at hu
    refine ⟨fun u hu => h.startable u (hstarted u hu),fun u hu s hg => ?_⟩
    by_cases hsr : s=r
    · rw [hsr,Function.update_self]
    · rw [Function.update_of_ne hsr]
      exact h.gates u (hstarted u hu) s hg

/-- So does a schedule. -/
theorem orderly_of_reachable (h : Reachable system phases) : Orderly system phases := by
  induction h with
  | refl => exact orderly_initial system
  | tail _ hstep ih => exact ih.step hstep

/-- Services that are running together are concurrent. -/
theorem concurrent_resident (h : Reachable system phases) :
    Concurrent system (resident system phases) := by
  have horderly := orderly_of_reachable h
  have hruns : ∀ t∈resident system phases,phases t=.running :=
    fun t ht => (Finset.mem_filter.mp ht).2
  have hstarted : ∀ t∈resident system phases,phases t≠.waiting := by
    intro t ht
    rw [hruns t ht]
    exact fun he => (by cases he)
  refine ⟨fun t ht => horderly.startable t (hstarted t ht),fun s hs t ht hst => ?_⟩
  have hexited := horderly.before hst (hstarted t ht)
  rw [hruns s hs] at hexited
  cases hexited

/-- Services that can each be brought to their end can be so one after the other. -/
theorem exists_finish_all {l : List ι} (hquiet : ∀ s∈l,∀ a,ReflTransGen system.gate a s →
      phases a≠.running)
    (heach : ∀ s∈l,∀ phases : ι→Phase,
      (∀ a,ReflTransGen system.gate a s → phases a≠.running) →
      ReflTransGen (Step system) phases (finish phases (fun a => ReflTransGen system.gate a s))) :
    ReflTransGen (Step system) phases
      (finish phases (fun a => ∃ s∈l,ReflTransGen system.gate a s)) := by
  induction l generalizing phases with
  | nil =>
    have hsame : finish phases (fun a => ∃ s∈[],ReflTransGen system.gate a s)=phases := by
      funext a
      exact finish_of_not (fun ⟨s,hs,_⟩ => List.not_mem_nil hs)
    rw [hsame]
  | cons s l ih =>
    have hfirst := heach s List.mem_cons_self phases (hquiet s List.mem_cons_self)
    refine hfirst.trans ?_
    have hrest := @ih (finish phases (fun a => ReflTransGen system.gate a s))
      (fun r hr a ha => finish_ne_running
        (fun _ => hquiet r (List.mem_cons_of_mem _ hr) a ha))
      (fun r hr => heach r (List.mem_cons_of_mem _ hr))
    rw [finish_finish] at hrest
    simpa only [List.exists_mem_cons_iff] using hrest

/-- So can a set of them. -/
theorem exists_finish_set {gates : Finset ι} (hquiet : ∀ s∈gates,∀ a,
      ReflTransGen system.gate a s → phases a≠.running)
    (heach : ∀ s∈gates,∀ phases : ι→Phase,
      (∀ a,ReflTransGen system.gate a s → phases a≠.running) →
      ReflTransGen (Step system) phases (finish phases (fun a => ReflTransGen system.gate a s))) :
    ReflTransGen (Step system) phases
      (finish phases (fun a => ∃ s∈gates,ReflTransGen system.gate a s)) := by
  have h := exists_finish_all (fun s hs => hquiet s (Finset.mem_toList.mp hs))
    (fun s hs => heach s (Finset.mem_toList.mp hs))
  simpa only [Finset.mem_toList] using h

/-- A service ends last of all that it waits on. -/
theorem finish_gates {s : ι} {gates : Finset ι} (hgates : ∀ r,r∈gates ↔ system.gate r s) :
    finish phases (fun a => ReflTransGen system.gate a s)=
      Function.update (finish phases (fun a => ∃ r∈gates,ReflTransGen system.gate a r)) s
        .exited := by
  funext a
  by_cases has : a=s
  · rw [has,Function.update_self]
    exact finish_of .refl
  · rw [Function.update_of_ne has]
    refine finish_congr ⟨fun ha => ?_,?_⟩
    · rcases ReflTransGen.cases_tail ha with he|⟨r,hr,hg⟩
      · exact absurd he.symm has
      · exact ⟨r,(hgates r).mpr hg,hr⟩
    · rintro ⟨r,hr,hra⟩
      exact hra.tail ((hgates r).mp hr)

/-- A service whose gates have ended, and that is not running, can be brought to its end. -/
theorem exists_exited {s : ι} (hmember : s∈system.services) (hends : system.ends s)
    (hquiet : phases s≠.running) (hready : ∀ r,system.gate r s → phases r=.exited) :
    ReflTransGen (Step system) phases (Function.update phases s .exited) := by
  cases hs : phases s with
  | waiting =>
    have hexit := @Step.exit ι _ system (Function.update phases s .running) s hends
      (Function.update_self _ _ _)
    rw [Function.update_idem] at hexit
    exact (ReflTransGen.single (.start hmember hs hready)).tail hexit
  | running => exact absurd hs hquiet
  | exited => rw [←hs,Function.update_eq_self]

/-- A service that can start and ends by itself can be brought to its end, with
everything it waits on. -/
theorem exists_finish {s : ι} (hstart : Startable system s)
    (hends : system.ends s) (phases : ι→Phase)
    (hquiet : ∀ a,ReflTransGen system.gate a s → phases a≠.running) :
    ReflTransGen (Step system) phases (finish phases (fun a => ReflTransGen system.gate a s)) := by
  classical
  induction hstart generalizing phases with
  | intro s hmember hbefore ih =>
    have hgates : ∀ r,r∈system.services.filter (fun r => system.gate r s) ↔ system.gate r s := by
      intro r
      rw [Finset.mem_filter]
      exact ⟨fun h => h.2,fun hg => ⟨(hbefore r hg).mem,hg⟩⟩
    have hfirst := exists_finish_set
      (fun r hr a ha => hquiet a (ha.tail ((hgates r).mp hr)))
      (fun r hr phases hq =>
        ih r ((hgates r).mp hr) (system.gate_ends r s ((hgates r).mp hr)) phases hq)
    rw [finish_gates hgates]
    refine hfirst.trans (exists_exited hmember hends ?_ (fun r hg => ?_))
    · exact finish_ne_running (fun _ => hquiet s .refl)
    · exact finish_of ⟨r,(hgates r).mpr hg,.refl⟩

/-- Services whose gates have ended can be started one after the other. -/
theorem exists_running {l : List ι} (hnodup : l.Nodup) (hmember : ∀ t∈l,t∈system.services)
    (hwaits : ∀ t∈l,phases t=.waiting)
    (hready : ∀ t∈l,∀ s,system.gate s t → phases s=.exited) :
    ReflTransGen (Step system) phases (fun a => if a∈l then .running else phases a) := by
  induction l generalizing phases with
  | nil => exact .refl
  | cons t l ih =>
    rw [List.nodup_cons] at hnodup
    have hstart := Step.start (hmember t List.mem_cons_self) (hwaits t List.mem_cons_self)
      (hready t List.mem_cons_self)
    have hkept : ∀ a,a≠t → Function.update phases t .running a=phases a :=
      fun a ha => Function.update_of_ne ha _ _
    have hrest := @ih (Function.update phases t .running) hnodup.2
      (fun u hu => hmember u (List.mem_cons_of_mem _ hu)) (fun u hu => ?_) (fun u hu s hg => ?_)
    · refine (ReflTransGen.single hstart).trans ((congrArg _ ?_).mp hrest)
      funext a
      by_cases hat : a=t
      · simp [hat,hnodup.1]
      · rw [hkept a hat]
        simp only [List.mem_cons,hat,false_or]
    · rw [hkept u (by rintro rfl; exact hnodup.1 hu)]
      exact hwaits u (List.mem_cons_of_mem _ hu)
    · have hs := hready u (List.mem_cons_of_mem _ hu) s hg
      rw [hkept s ?_,hs]
      rintro rfl
      rw [hwaits s List.mem_cons_self] at hs
      cases hs

/-- Concurrent services are what runs at some time of some schedule. -/
theorem exists_resident {together : Finset ι} (h : Concurrent system together) :
    ∃ phases,Reachable system phases ∧ resident system phases=together := by
  classical
  have hgates : ∀ s,s∈system.services.filter (fun s => ∃ t∈together,system.gate s t) ↔
      ∃ t∈together,system.gate s t := by
    intro s
    rw [Finset.mem_filter]
    refine ⟨fun hs => hs.2,?_⟩
    rintro ⟨t,ht,hg⟩
    exact ⟨((h.startable t ht).gate hg).mem,t,ht,hg⟩
  have hfinish := @exists_finish_set ι system _ (fun _ => .waiting)
    (system.services.filter (fun s => ∃ t∈together,system.gate s t))
    (fun _ _ _ _ he => by cases he) (fun s hs phases hq => by
      obtain ⟨t,ht,hg⟩ := (hgates s).mp hs
      exact exists_finish ((h.startable t ht).gate hg) (system.gate_ends s t hg) phases hq)
  generalize hmid : finish (fun _ => Phase.waiting) (fun a => ∃ s∈system.services.filter
    (fun s => ∃ t∈together,system.gate s t),ReflTransGen system.gate a s)=mid at hfinish
  have hrunning := @exists_running ι system _ mid together.toList (Finset.nodup_toList _)
    (fun t ht => (h.startable t (Finset.mem_toList.mp ht)).mem) (fun t ht => ?_)
    (fun t ht s hg => ?_)
  · refine ⟨_,hfinish.trans hrunning,Finset.ext (fun a => ?_)⟩
    rw [resident,Finset.mem_filter]
    simp only [Finset.mem_toList]
    constructor
    · rintro ⟨-,ha⟩
      by_contra hno
      rw [if_neg hno,←hmid] at ha
      exact finish_ne_running (fun _ he => (by cases he)) ha
    · exact fun ha => ⟨(h.startable a ha).mem,if_pos ha⟩
  · rw [←hmid]
    refine finish_of_not ?_
    rintro ⟨s,hs,hts⟩
    obtain ⟨u,hu,hg⟩ := (hgates s).mp hs
    exact h.apart t (Finset.mem_toList.mp ht) u hu (TransGen.tail' hts hg)
  · rw [←hmid]
    exact finish_of ⟨s,(hgates s).mpr ⟨t,Finset.mem_toList.mp ht,hg⟩,.refl⟩

/-- What holds of everything that can run together is what holds of all
concurrent services. -/
theorem forall_resident_iff {holds : Finset ι→Prop} :
    (∀ phases,Reachable system phases → holds (resident system phases)) ↔
      ∀ together,Concurrent system together → holds together := by
  constructor
  · intro h together hc
    obtain ⟨phases,hreach,rfl⟩ := exists_resident hc
    exact h phases hreach
  · exact fun h phases hreach => h _ (concurrent_resident hreach)

end Schedules

section Accounts

open Classical in
/-- The services that end by themselves. -/
noncomputable def oneShots (system : Gated ι) : Finset ι := system.services.filter system.ends

open Classical in
/-- The services that stay. -/
noncomputable def longRunning (system : Gated ι) : Finset ι :=
  system.services.filter (fun t => ¬system.ends t)

open Classical in
/-- The services that stay and cannot be running while some others are: they wait
on one of them, or they never start at all. -/
noncomputable def heldBack (system : Gated ι) (together : Finset ι) : Finset ι :=
  (longRunning system).filter (fun t => ¬Startable system t ∨ ∃ s∈together,Before system s t)

/-- Services that end and all the services that can stay beside them. -/
noncomputable def filled [DecidableEq ι] (system : Gated ι) (together : Finset ι) : Finset ι :=
  together∪longRunning system \ heldBack system together

variable {system : Gated ι} {together : Finset ι}

open Classical in
theorem mem_oneShots {t : ι} : t∈oneShots system ↔ t∈system.services ∧ system.ends t :=
  Finset.mem_filter

open Classical in
theorem mem_longRunning {t : ι} : t∈longRunning system ↔ t∈system.services ∧ ¬system.ends t :=
  Finset.mem_filter

open Classical in
theorem mem_heldBack {t : ι} : t∈heldBack system together ↔
    t∈longRunning system ∧ (¬Startable system t ∨ ∃ s∈together,Before system s t) :=
  Finset.mem_filter

/-- What another service waits on ends by itself. -/
theorem Before.ends {s t : ι} (h : Before system s t) : system.ends s := by
  obtain ⟨u,hg,-⟩ := TransGen.head'_iff.mp h
  exact system.gate_ends s u hg

variable {K : Type*} [AddCommGroup K] [PartialOrder K]

/-- An account of the services: what each takes, what it is charged, and what is
left out of the charge of one that ends. -/
structure Account (system : Gated ι) (K : Type*) [AddCommGroup K] [PartialOrder K] where
  /-- What a service takes while it runs. -/
  size : ι→K
  /-- What it is charged. -/
  charge : ι→K
  /-- What its charge leaves out. -/
  displaced : ι→K
  /-- It takes nothing back. -/
  size_nonneg : ∀ t∈system.services,0 ≤ size t
  /-- The charge is the rest. -/
  charge_add : ∀ s∈oneShots system,charge s+displaced s=size s
  /-- A service that stays is charged in full. -/
  charge_long : ∀ t∈longRunning system,charge t=size t

variable (account : Account system K)

/-- What services take together. -/
def Account.use (together : Finset ι) : K := ∑ t∈together,account.size t

/-- What all services are charged. -/
def Account.budget : K := ∑ t∈system.services,account.charge t

/-- What the charges of running services leave out is made up for by the charges
of the other services that end and by the services that are held back. -/
def Account.Covers [DecidableEq ι] (together : Finset ι) : Prop :=
  ∑ s∈together,account.displaced s ≤
    ∑ s∈oneShots system \ together,account.charge s+account.use (heldBack system together)

variable {account : Account system K}

/-- The budget is the charges of those that end and the sizes of those that stay. -/
theorem Account.budget_eq : account.budget=
    ∑ s∈oneShots system,account.charge s+account.use (longRunning system) := by
  classical
  have hlong : ∑ t∈longRunning system,account.charge t=account.use (longRunning system) :=
    Finset.sum_congr rfl account.charge_long
  rw [budget,←hlong]
  exact (Finset.sum_filter_add_sum_filter_not system.services system.ends account.charge).symm

variable [DecidableEq ι]

/-- Whatever is not held back can run beside them. -/
theorem concurrent_filled (h : Concurrent system together) :
    Concurrent system (filled system together) := by
  have hstay : ∀ t∈longRunning system \ heldBack system together,
      ¬system.ends t ∧ Startable system t ∧ ∀ s∈together,¬Before system s t := by
    intro t ht
    obtain ⟨hlong,hheld⟩ := Finset.mem_sdiff.mp ht
    rw [mem_heldBack,not_and,not_or,not_not] at hheld
    obtain ⟨hstart,hbefore⟩ := hheld hlong
    exact ⟨(mem_longRunning.mp hlong).2,hstart,fun s hs hst => hbefore ⟨s,hs,hst⟩⟩
  refine ⟨fun t ht => ?_,fun s hs t ht hst => ?_⟩
  · rcases Finset.mem_union.mp ht with ht|ht
    · exact h.startable t ht
    · exact (hstay t ht).2.1
  · rcases Finset.mem_union.mp hs with hs|hs
    · rcases Finset.mem_union.mp ht with ht|ht
      · exact h.apart s hs t ht hst
      · exact (hstay t ht).2.2 s hs hst
    · exact (hstay s hs).1 hst.ends

open Classical in
/-- Concurrent services are among what can stay beside those of them that end. -/
theorem subset_filled (h : Concurrent system together) :
    together⊆filled system (together.filter system.ends) := by
  intro t ht
  by_cases he : system.ends t
  · exact Finset.mem_union_left _ (Finset.mem_filter.mpr ⟨ht,he⟩)
  · refine Finset.mem_union_right _ (Finset.mem_sdiff.mpr ⟨mem_longRunning.mpr
      ⟨(h.startable t ht).mem,he⟩,?_⟩)
    rw [mem_heldBack]
    rintro ⟨-,hn|⟨s,hs,hst⟩⟩
    · exact hn (h.startable t ht)
    · exact h.apart s (Finset.mem_of_mem_filter s hs) t ht hst

variable [IsOrderedAddMonoid K]

/-- Services that end and all that can stay beside them fit the budget exactly
when what is left out is covered. -/
theorem Account.use_filled_le_iff (h : together⊆oneShots system) :
    account.use (filled system together) ≤ account.budget ↔ account.Covers together := by
  have hdisjoint : Disjoint together (longRunning system \ heldBack system together) := by
    rw [Finset.disjoint_left]
    intro s hs hl
    exact (mem_longRunning.mp (Finset.mem_sdiff.mp hl).1).2 (mem_oneShots.mp (h hs)).2
  have hheld : heldBack system together⊆longRunning system := fun t ht => (mem_heldBack.mp ht).1
  have huse : account.use (filled system together)=
      account.use together+account.use (longRunning system \ heldBack system together) :=
    Finset.sum_union hdisjoint
  have hlong : account.use (longRunning system \ heldBack system together)+
      account.use (heldBack system together)=account.use (longRunning system) :=
    Finset.sum_sdiff hheld
  have hcharge : ∑ s∈oneShots system \ together,account.charge s+∑ s∈together,account.charge s=
      ∑ s∈oneShots system,account.charge s := Finset.sum_sdiff h
  have hsize : account.use together=
      ∑ s∈together,account.charge s+∑ s∈together,account.displaced s := by
    rw [←Finset.sum_add_distrib]
    exact Finset.sum_congr rfl (fun s hs => (account.charge_add s (h hs)).symm)
  rw [huse,budget_eq,Covers,hsize,←hlong,←hcharge]
  generalize ∑ s∈together,account.charge s=c
  generalize ∑ s∈together,account.displaced s=d
  generalize ∑ s∈oneShots system \ together,account.charge s=e
  generalize account.use (longRunning system \ heldBack system together)=l
  generalize account.use (heldBack system together)=b
  have hleft : c+d+l=c+l+d := add_right_comm c d l
  have hright : e+c+(l+b)=c+l+(e+b) := by abel
  rw [hleft,hright]
  exact add_le_add_iff_left (c+l)

/-- An account bounds every schedule exactly when it covers what it leaves out
of every choice of concurrent services that end. -/
theorem Account.sound_iff :
    (∀ phases,Reachable system phases → account.use (resident system phases) ≤ account.budget) ↔
      ∀ together,Concurrent system together → together⊆oneShots system →
        account.Covers together := by
  classical
  rw [@forall_resident_iff _ system _ (fun together => account.use together ≤ account.budget)]
  constructor
  · intro h together hc hone
    exact (use_filled_le_iff hone).mp (h _ (concurrent_filled hc))
  · intro h together hc
    have hone : together.filter system.ends⊆oneShots system := by
      intro s hs
      obtain ⟨hmem,hends⟩ := Finset.mem_filter.mp hs
      exact mem_oneShots.mpr ⟨(hc.startable s hmem).mem,hends⟩
    have hsub : Concurrent system (together.filter system.ends) :=
      hc.mono (Finset.filter_subset _ _)
    have hfull := (use_filled_le_iff hone).mpr (h _ hsub hone)
    refine le_trans ?_ hfull
    refine Finset.sum_le_sum_of_subset_of_nonneg (subset_filled hc) (fun t ht _ => ?_)
    exact account.size_nonneg t ((concurrent_filled hsub).startable t ht).mem

end Accounts

end MlopsPlatform.GatedSchedules
