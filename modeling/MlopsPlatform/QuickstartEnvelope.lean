import Mathlib.Algebra.Order.Ring.Rat
import Mathlib.Data.Nat.Cast.Order.Ring
import MlopsPlatform.GatedSchedules
import MlopsPlatform.PythonDict
import MlopsPlatform.TextCodec

/-!
# The quickstart envelope

The peak the quickstart is held to is an account: a service that others wait on
to finish is charged only what it takes over and above the cheapest of them.
The stack itself is a set of services with completion gates, started in any
order the gates allow. The account bounds every schedule of the stack exactly
when services that finish displace enough together; two of them in front of one
and the same service do not.
-/

namespace MlopsPlatform.QuickstartEnvelope

open TextCodec PythonDict GatedSchedules

variable {V X : Type*}

/-- The profile of the services the quickstart leaves out. -/
def fullProfile : Str := str "full"

/-- The condition that waits for a service to finish. -/
def completed : Str := str "service_completed_successfully"

/-- One entry of `depends_on`. -/
inductive Dependency where
  /-- It is no mapping. -/
  | bare
  /-- Its `condition`. -/
  | mapping (condition : Option Str)

/-- The entry waits for the service to finish. -/
def Dependency.completes : Dependency→Bool
  | .bare => false
  | .mapping condition => condition=some completed

/-- What the envelope reads of a service. -/
structure Service (V : Type*) where
  /-- `profiles` -/
  profiles : List Str
  /-- `depends_on` -/
  dependsOn : Dict Str Dependency
  /-- `deploy.resources.limits` -/
  limits : Dict Str V

/-- The limits of a service of the quickstart: those of the override replace its own. -/
def quickstartLimits (quickstart : Dict Str (Dict Str V)) (name : Str) (service : Service V) :
    Option (Dict Str V) :=
  if fullProfile∈service.profiles then none
  else some (collect (fun _ value => some value) service.limits
    ((quickstart.lookup name).getD ∅))

/-- `quickstart_services` -/
def quickstartServices (compose : Dict Str (Service V)) (quickstart : Dict Str (Dict Str V)) :
    Dict Str (Dict Str V) :=
  collect (quickstartLimits quickstart) ∅ compose

/-- `waiters.setdefault(dependency, set()).add(name)` -/
def addWaiter (waiters : Dict Str (Finset Str)) (dependency name : Str) : Dict Str (Finset Str) :=
  waiters.insert dependency (insert name ((waiters.lookup dependency).getD ∅))

/-- The inner loop of `completion_waiters`, over the entries of one service. -/
def addWaiters (name : Str) (waiters : Dict Str (Finset Str)) (entries : Items Str Dependency) :
    Dict Str (Finset Str) :=
  entries.foldl (fun waiters entry =>
    if entry.2.completes=true then addWaiter waiters entry.1 name else waiters) waiters

/-- `completion_waiters` -/
def completionWaiters (services : Dict Str (Service V)) : Dict Str (Finset Str) :=
  services.entries.foldl (fun waiters entry =>
    addWaiters entry.1 waiters entry.2.dependsOn.entries) ∅

/-- Why `peak` has no answer. -/
inductive PeakError (X : Type*) where
  /-- KeyError: a service declares no such limit. -/
  | missing (resource : Str)
  /-- The limit is not an amount. -/
  | amount (raised : X)
deriving DecidableEq

/-- `float(amount(spec[resource]))` -/
def sizeOf (resource : Str) (amount : V→Except X ℚ) (_name : Str) (spec : Dict Str V) :
    Except (PeakError X) ℚ :=
  match spec.lookup resource with
  | none => .error (.missing resource)
  | some value =>
    match amount value with
    | .ok size => .ok size
    | .error raised => .error (.amount raised)

/-- `min((sizes[other] for other in gated), default=0.0)` -/
def cheapest (size : Str→ℚ) (gated : Finset Str) : ℚ :=
  if h : gated.Nonempty then gated.inf' h size else 0

/-- The services of the quickstart that wait on another one of it. -/
def quickstartWaiters (compose : Dict Str (Service V)) (sizes : Dict Str ℚ) :
    Dict Str (Finset Str) :=
  collect (fun name gated => if name∈sizes then some (gated∩keySet sizes) else none) ∅
    (completionWaiters compose)

/-- What `peak` charges each service. -/
def chargedFor (compose : Dict Str (Service V)) (sizes : Dict Str ℚ) : Dict Str ℚ :=
  let waiters := quickstartWaiters compose sizes
  let charged := collect (fun name size => if name∈waiters then none else some size) ∅ sizes
  collect (fun name gated => some (max 0 (item sizes name-cheapest (item sizes) gated)))
    charged waiters

/-- `peak` -/
def peak (compose : Dict Str (Service V)) (quickstart : Dict Str (Dict Str V)) (resource : Str)
    (amount : V→Except X ℚ) : Except (PeakError X) (ℚ×Dict Str ℚ) :=
  match collectM (sizeOf resource amount) (quickstartServices compose quickstart) with
  | .error e => .error e
  | .ok sizes => .ok (sumValues (chargedFor compose sizes),chargedFor compose sizes)

section Stack

variable (compose : Dict Str (Service V)) (quickstart : Dict Str (Dict Str V))

/-- The second service starts after the first one has finished. -/
def Awaits (s t : Str) : Prop :=
  ∃ service,compose.lookup t=some service ∧
    ∃ entry,service.dependsOn.lookup s=some entry ∧ entry.completes=true

/-- The services of the quickstart and the gates between them. What another
service waits on finishes by itself; every other service stays. -/
def stack : Gated Str where
  services := keySet (quickstartServices compose quickstart)
  gate := Awaits compose
  ends s := ∃ t,Awaits compose s t
  gate_ends _ t h := ⟨t,h⟩

open Classical in
/-- The services of the quickstart that wait on a service. -/
noncomputable def waiting (s : Str) : Finset Str :=
  (stack compose quickstart).services.filter (Awaits compose s)

variable (resource : Str) (amount : V→Except X ℚ)

/-- The limit a service of the quickstart declares. -/
def limit (name : Str) : ℚ :=
  (((quickstartServices compose quickstart).lookup name).bind
    (fun spec => (sizeOf resource amount name spec).toOption)).getD 0

/-- The least limit of the services that wait on a service. -/
noncomputable def cheapestWaiting (s : Str) : ℚ :=
  cheapest (limit compose quickstart resource amount) (waiting compose quickstart s)

/-- Whenever services that finish can run at once, what they displace together,
each the smaller of its own limit and the cheapest one waiting on it, is at most
the limits of the staying services that cannot be running then and what the
other services that finish take over and above the cheapest waiting on them. -/
def Displaceable : Prop :=
  ∀ together,Concurrent (stack compose quickstart) together →
    together⊆oneShots (stack compose quickstart) →
    ∑ s∈together,min (limit compose quickstart resource amount s)
        (cheapestWaiting compose quickstart resource amount s) ≤
      ∑ s∈oneShots (stack compose quickstart) \ together,
        max 0 (limit compose quickstart resource amount s-
          cheapestWaiting compose quickstart resource amount s)+
      ∑ t∈heldBack (stack compose quickstart) together,limit compose quickstart resource amount t

end Stack

/-- The sets of waiters record who waits on whom, and none of them is empty. -/
def Records (waiters : Dict Str (Finset Str)) (waits : Str→Str→Prop) : Prop :=
  ∀ s,(∀ gated,waiters.lookup s=some gated → gated.Nonempty) ∧
    ∀ t,t∈(waiters.lookup s).getD ∅ ↔ waits s t

theorem Records.congr {waiters : Dict Str (Finset Str)} {waits waits' : Str→Str→Prop}
    (h : Records waiters waits) (hsame : ∀ s t,waits s t ↔ waits' s t) : Records waiters waits' :=
  fun s => ⟨(h s).1,fun t => ((h s).2 t).trans (hsame s t)⟩

/-- Adding a waiter records one more. -/
theorem records_addWaiter {waiters : Dict Str (Finset Str)} {waits : Str→Str→Prop}
    (h : Records waiters waits) (dependency name : Str) :
    Records (addWaiter waiters dependency name)
      (fun s t => waits s t ∨ s=dependency ∧ t=name) := by
  intro s
  by_cases hs : s=dependency
  · subst hs
    rw [addWaiter,AList.lookup_insert]
    refine ⟨fun gated hg => ?_,fun t => ?_⟩
    · cases hg
      exact Finset.insert_nonempty _ _
    · rw [Option.getD_some,Finset.mem_insert,(h s).2 t]
      tauto
  · rw [addWaiter,AList.lookup_insert_ne hs]
    refine ⟨(h s).1,fun t => ((h s).2 t).trans ?_⟩
    tauto

/-- The inner loop records the entries of one service that wait for another to
finish. -/
theorem records_addWaiters {waiters : Dict Str (Finset Str)} {waits : Str→Str→Prop}
    (h : Records waiters waits) (name : Str) (entries : Items Str Dependency) :
    Records (addWaiters name waiters entries)
      (fun s t => waits s t ∨ name=t ∧ ∃ entry∈entries,entry.1=s ∧ entry.2.completes=true) := by
  induction entries generalizing waiters waits with
  | nil => exact h.congr (fun s t => by simp)
  | cons first entries ih =>
    rw [addWaiters,List.foldl_cons]
    by_cases hc : first.2.completes=true
    · rw [if_pos hc]
      refine (ih (records_addWaiter h first.1 name)).congr (fun s t => ?_)
      rw [List.exists_mem_cons_iff]
      simp only [hc,and_true,@eq_comm _ s first.1,@eq_comm _ t name]
      tauto
    · rw [if_neg hc]
      refine (ih h).congr (fun s t => ?_)
      rw [List.exists_mem_cons_iff]
      tauto

/-- The outer loop records them for each service. -/
theorem records_services {waiters : Dict Str (Finset Str)} {waits : Str→Str→Prop}
    (h : Records waiters waits) (services : Items Str (Service V)) :
    Records (services.foldl (fun waiters entry =>
        addWaiters entry.1 waiters entry.2.dependsOn.entries) waiters)
      (fun s t => waits s t ∨ ∃ service∈services,service.1=t ∧
        ∃ entry∈service.2.dependsOn.entries,entry.1=s ∧ entry.2.completes=true) := by
  induction services generalizing waiters waits with
  | nil => exact h.congr (fun s t => by simp)
  | cons first services ih =>
    rw [List.foldl_cons]
    refine (ih (records_addWaiters h first.1 first.2.dependsOn.entries)).congr (fun s t => ?_)
    rw [List.exists_mem_cons_iff,or_assoc]

/-- `completion_waiters` tells exactly who waits on whom to finish. -/
theorem records_completionWaiters (compose : Dict Str (Service V)) :
    Records (completionWaiters compose) (Awaits compose) := by
  have hempty : Records (∅ : Dict Str (Finset Str)) (fun _ _ => False) := by
    refine fun s => ⟨fun gated hg => ?_,fun t => ?_⟩
    · rw [AList.lookup_empty] at hg
      cases hg
    · rw [AList.lookup_empty,Option.getD_none]
      exact iff_of_false (Finset.notMem_empty t) not_false
  refine (records_services hempty compose.entries).congr (fun s t => ?_)
  rw [false_or,Awaits]
  constructor
  · rintro ⟨⟨_,service⟩,hs,rfl,⟨_,entry⟩,he,rfl,hc⟩
    exact ⟨service,AList.mem_lookup_iff.mpr hs,entry,AList.mem_lookup_iff.mpr he,hc⟩
  · rintro ⟨service,hs,entry,he,hc⟩
    exact ⟨⟨t,service⟩,AList.mem_lookup_iff.mp hs,rfl,⟨s,entry⟩,AList.mem_lookup_iff.mp he,rfl,hc⟩

open Classical in
theorem mem_waiting {compose : Dict Str (Service V)} {quickstart : Dict Str (Dict Str V)}
    {s t : Str} : t∈waiting compose quickstart s ↔
      t∈(stack compose quickstart).services ∧ Awaits compose s t :=
  Finset.mem_filter

section Charges

variable {compose : Dict Str (Service V)} {quickstart : Dict Str (Dict Str V)} {resource : Str}
  {amount : V→Except X ℚ} {sizes : Dict Str ℚ}

/-- The sizes `peak` computes are those of the services of the quickstart. -/
theorem keySet_sizes
    (hsizes : collectM (sizeOf resource amount) (quickstartServices compose quickstart)=.ok sizes) :
    keySet sizes=(stack compose quickstart).services :=
  keySet_collectM hsizes

/-- They are the limits these declare. -/
theorem lookup_sizes
    (hsizes : collectM (sizeOf resource amount) (quickstartServices compose quickstart)=.ok sizes)
    {name : Str} {size : ℚ} (h : sizes.lookup name=some size) :
    size=limit compose quickstart resource amount name := by
  obtain ⟨hlookup,hok⟩ := lookup_collectM hsizes name
  rw [limit]
  cases hspec : (quickstartServices compose quickstart).lookup name with
  | none =>
    rw [hlookup,hspec] at h
    cases h
  | some spec =>
    obtain ⟨value,hvalue⟩ := hok spec hspec
    rw [hlookup,hspec,Option.bind_some,hvalue] at h
    rw [Option.bind_some,hvalue]
    cases h
    rfl

theorem item_sizes
    (hsizes : collectM (sizeOf resource amount) (quickstartServices compose quickstart)=.ok sizes)
    {name : Str} (h : name∈(stack compose quickstart).services) :
    item sizes name=limit compose quickstart resource amount name := by
  rw [←keySet_sizes hsizes,mem_keySet] at h
  obtain ⟨size,hsize⟩ := h
  rw [item,hsize,Option.getD_some]
  exact lookup_sizes hsizes hsize

/-- The least size depends on the sizes of the services alone. -/
theorem cheapest_congr {size size' : Str→ℚ} {gated : Finset Str}
    (h : ∀ t∈gated,size t=size' t) : cheapest size gated=cheapest size' gated := by
  unfold cheapest
  by_cases hg : gated.Nonempty
  · rw [dif_pos hg,dif_pos hg]
    exact Finset.inf'_congr hg rfl h
  · rw [dif_neg hg,dif_neg hg]

/-- The waiters `peak` looks at are those of the quickstart. -/
theorem lookup_quickstartWaiters
    (hsizes : collectM (sizeOf resource amount) (quickstartServices compose quickstart)=.ok sizes)
    (name : Str) : (name∈oneShots (stack compose quickstart) →
      (quickstartWaiters compose sizes).lookup name=some (waiting compose quickstart name)) ∧
      (name∉oneShots (stack compose quickstart) →
        (quickstartWaiters compose sizes).lookup name=none) := by
  have hservices : ∀ t,t∈sizes ↔ t∈(stack compose quickstart).services := by
    intro t
    rw [←keySet_sizes hsizes,keySet,List.mem_toFinset]
    exact AList.mem_keys
  obtain ⟨hnonempty,hwaits⟩ := records_completionWaiters compose name
  have hlookup := lookup_collect
    (fun name gated => if name∈sizes then some (gated∩keySet sizes) else none) ∅
    (completionWaiters compose) name
  rw [AList.lookup_empty,Option.or_none] at hlookup
  rw [mem_oneShots,quickstartWaiters,hlookup]
  cases hg : (completionWaiters compose).lookup name with
  | none =>
    rw [hg] at hwaits
    refine ⟨?_,fun _ => rfl⟩
    rintro ⟨-,t,ht⟩
    exact absurd ((hwaits t).mpr ht) (Finset.notMem_empty t)
  | some gated =>
    rw [hg] at hwaits
    obtain ⟨t,ht⟩ := hnonempty gated hg
    have hends : (stack compose quickstart).ends name := ⟨t,(hwaits t).mp ht⟩
    rw [Option.bind_some]
    refine ⟨fun h => ?_,fun h => if_neg (fun hmem => h ⟨(hservices name).mp hmem,hends⟩)⟩
    rw [if_pos ((hservices name).mpr h.1)]
    refine congrArg some (Finset.ext (fun u => ?_))
    rw [Finset.mem_inter,keySet_sizes hsizes,mem_waiting,and_comm,←hwaits u]
    rfl

/-- Nobody waits on a service that stays. -/
theorem cheapestWaiting_long {name : Str} (h : ¬(stack compose quickstart).ends name) :
    cheapestWaiting compose quickstart resource amount name=0 := by
  refine dif_neg ?_
  rintro ⟨t,ht⟩
  exact h ⟨t,(mem_waiting.mp ht).2⟩

/-- A service others wait on is charged what it takes over and above the
cheapest of those of the quickstart. -/
theorem lookup_chargedFor_oneShot
    (hsizes : collectM (sizeOf resource amount) (quickstartServices compose quickstart)=.ok sizes)
    {name : Str} (hmem : name∈oneShots (stack compose quickstart)) :
    (chargedFor compose sizes).lookup name=
      some (max 0 (limit compose quickstart resource amount name-
        cheapestWaiting compose quickstart resource amount name)) := by
  have hleast : cheapest (item sizes) (waiting compose quickstart name)=
      cheapestWaiting compose quickstart resource amount name :=
    cheapest_congr (fun t ht => item_sizes hsizes (mem_waiting.mp ht).1)
  rw [chargedFor,lookup_collect,(lookup_quickstartWaiters hsizes name).1 hmem,Option.bind_some,
    Option.some_or,hleast,item_sizes hsizes (mem_oneShots.mp hmem).1]

/-- Every other service is charged its limit. -/
theorem lookup_chargedFor_other
    (hsizes : collectM (sizeOf resource amount) (quickstartServices compose quickstart)=.ok sizes)
    {name : Str} (hmem : name∉oneShots (stack compose quickstart)) :
    (chargedFor compose sizes).lookup name=sizes.lookup name := by
  have hother := (lookup_quickstartWaiters hsizes name).2 hmem
  have hnot : name∉quickstartWaiters compose sizes := by
    rw [←AList.lookup_eq_none]
    exact hother
  rw [chargedFor,lookup_collect,lookup_collect,AList.lookup_empty,Option.or_none,hother,
    Option.bind_none,Option.none_or]
  cases sizes.lookup name with
  | none => rfl
  | some size => rw [Option.bind_some,if_neg hnot]

variable (hamount : ∀ value size,amount value=.ok size → 0 ≤ size)

include hamount

/-- Sizes are not negative. -/
theorem sizeOf_nonneg {name : Str} {spec : Dict Str V} {size : ℚ}
    (h : sizeOf resource amount name spec=.ok size) : 0 ≤ size := by
  rw [sizeOf] at h
  cases hdeclared : spec.lookup resource with
  | none =>
    rw [hdeclared] at h
    cases h
  | some value =>
    rw [hdeclared] at h
    cases hvalue : amount value with
    | error raised => simp only [hvalue,reduceCtorEq] at h
    | ok size' =>
      simp only [hvalue,Except.ok.injEq] at h
      exact h ▸ hamount value size' hvalue

/-- Nor are limits. -/
theorem limit_nonneg (name : Str) : 0 ≤ limit compose quickstart resource amount name := by
  rw [limit]
  cases (quickstartServices compose quickstart).lookup name with
  | none => exact le_refl (0 : ℚ)
  | some spec =>
    rw [Option.bind_some]
    cases hsize : sizeOf resource amount name spec with
    | error raised => exact le_refl (0 : ℚ)
    | ok size => exact sizeOf_nonneg hamount hsize

/-- Each service of the quickstart is charged what it takes over and above the
cheapest one waiting on it. -/
theorem lookup_chargedFor
    (hsizes : collectM (sizeOf resource amount) (quickstartServices compose quickstart)=.ok sizes)
    (name : Str) : (chargedFor compose sizes).lookup name=(sizes.lookup name).map (fun _ =>
      max 0 (limit compose quickstart resource amount name-
        cheapestWaiting compose quickstart resource amount name)) := by
  by_cases hmem : name∈oneShots (stack compose quickstart)
  · obtain ⟨size,hsize⟩ := mem_keySet.mp ((keySet_sizes hsizes).symm ▸ (mem_oneShots.mp hmem).1)
    rw [lookup_chargedFor_oneShot hsizes hmem,hsize,Option.map_some]
  · rw [lookup_chargedFor_other hsizes hmem]
    cases hsize : sizes.lookup name with
    | none => rfl
    | some size =>
      have hservice : name∈(stack compose quickstart).services := by
        rw [←keySet_sizes hsizes,mem_keySet]
        exact ⟨size,hsize⟩
      rw [Option.map_some,lookup_sizes hsizes hsize,
        cheapestWaiting_long (fun hends => hmem (mem_oneShots.mpr ⟨hservice,hends⟩)),sub_zero,
        max_eq_right (limit_nonneg hamount name)]

/-- The account `peak` keeps: what it leaves out of a charge is the smaller of
the service's own limit and the cheapest one waiting on it. -/
noncomputable def envelope (compose : Dict Str (Service V)) (quickstart : Dict Str (Dict Str V))
    (resource : Str) : Account (stack compose quickstart) ℚ where
  size := limit compose quickstart resource amount
  charge name := max 0 (limit compose quickstart resource amount name-
    cheapestWaiting compose quickstart resource amount name)
  displaced name := min (limit compose quickstart resource amount name)
    (cheapestWaiting compose quickstart resource amount name)
  size_nonneg name _ := limit_nonneg hamount name
  charge_add name _ := by
    rcases le_total (limit compose quickstart resource amount name)
      (cheapestWaiting compose quickstart resource amount name) with h|h
    · rw [max_eq_left (sub_nonpos.mpr h),min_eq_left h,zero_add]
    · rw [max_eq_right (sub_nonneg.mpr h),min_eq_right h,sub_add_cancel]
  charge_long name h := by
    rw [cheapestWaiting_long (mem_longRunning.mp h).2,sub_zero,
      max_eq_right (limit_nonneg hamount name)]

/-- The total is the budget of that account. -/
theorem peak_total {total : ℚ}
    (hpeak : (peak compose quickstart resource amount).map Prod.fst=.ok total) :
    total=(envelope hamount compose quickstart resource).budget := by
  cases hsizes : collectM (sizeOf resource amount) (quickstartServices compose quickstart) with
  | error e =>
    rw [peak,hsizes] at hpeak
    cases hpeak
  | ok sizes =>
    rw [peak,hsizes] at hpeak
    cases hpeak
    have hkeys : keySet (chargedFor compose sizes)=(stack compose quickstart).services := by
      ext name
      rw [←keySet_sizes hsizes,mem_keySet,mem_keySet,lookup_chargedFor hamount hsizes]
      cases sizes.lookup name with
      | none => simp only [Option.map_none,reduceCtorEq,exists_false]
      | some size => simp only [Option.map_some,Option.some.injEq,exists_eq']
    have hsum := @sumValues_eq _ _ _ _ (chargedFor compose sizes)
      (envelope hamount compose quickstart resource).charge (fun name value hvalue => by
        rw [lookup_chargedFor hamount hsizes] at hvalue
        obtain ⟨_,-,hvalue⟩ := Option.map_eq_some_iff.mp hvalue
        exact hvalue.symm)
    rw [hkeys] at hsum
    exact hsum

/-- The cheapest waiter is no dearer than all of them. -/
theorem cheapestWaiting_le (s : Str) :
    cheapestWaiting compose quickstart resource amount s ≤
      ∑ t∈waiting compose quickstart s,limit compose quickstart resource amount t := by
  have hnonneg : ∀ t∈waiting compose quickstart s,
      0 ≤ limit compose quickstart resource amount t := fun t _ => limit_nonneg hamount t
  by_cases hwaiting : (waiting compose quickstart s).Nonempty
  · obtain ⟨t,ht⟩ := hwaiting
    rw [cheapestWaiting,cheapest,dif_pos ⟨t,ht⟩]
    exact (Finset.inf'_le _ ht).trans (Finset.single_le_sum hnonneg ht)
  · rw [cheapestWaiting,cheapest,dif_neg hwaiting]
    exact Finset.sum_nonneg hnonneg

/-- The total bounds a stack whose services each wait for one other at most, as
long as those that wait stay. -/
theorem displaceable_of_apart
    (hapart : ∀ s s' t,Awaits compose s t → Awaits compose s' t → s=s')
    (hlong : ∀ s t,t∈waiting compose quickstart s → t∈longRunning (stack compose quickstart)) :
    Displaceable compose quickstart resource amount := by
  intro together _ _
  have hdisjoint : (together : Set Str).PairwiseDisjoint (waiting compose quickstart) := by
    intro s _ s' _ hne
    refine Finset.disjoint_left.mpr (fun t ht ht' => hne ?_)
    exact hapart s s' t (mem_waiting.mp ht).2 (mem_waiting.mp ht').2
  have hheld : together.biUnion (waiting compose quickstart)⊆
      heldBack (stack compose quickstart) together := by
    intro t ht
    obtain ⟨s,hs,hwaits⟩ := Finset.mem_biUnion.mp ht
    exact mem_heldBack.mpr ⟨hlong s t hwaits,.inr ⟨s,hs,.single (mem_waiting.mp hwaits).2⟩⟩
  calc ∑ s∈together,min (limit compose quickstart resource amount s)
        (cheapestWaiting compose quickstart resource amount s)
      ≤ ∑ s∈together,∑ t∈waiting compose quickstart s,
          limit compose quickstart resource amount t :=
        Finset.sum_le_sum (fun s _ => (min_le_right _ _).trans (cheapestWaiting_le hamount s))
    _ = ∑ t∈together.biUnion (waiting compose quickstart),
          limit compose quickstart resource amount t := (Finset.sum_biUnion hdisjoint).symm
    _ ≤ ∑ t∈heldBack (stack compose quickstart) together,
          limit compose quickstart resource amount t :=
        Finset.sum_le_sum_of_subset_of_nonneg hheld (fun t _ _ => limit_nonneg hamount t)
    _ ≤ _ := le_add_of_nonneg_left (Finset.sum_nonneg (fun s _ => le_max_left _ _))

end Charges

/-- The total of `peak` bounds what runs together, along every schedule of the
stack, exactly when services that finish displace enough together. -/
theorem peak_bounds_iff {compose : Dict Str (Service V)} {quickstart : Dict Str (Dict Str V)}
    {resource : Str} {amount : V→Except X ℚ} {total : ℚ}
    (hpeak : (peak compose quickstart resource amount).map Prod.fst=.ok total)
    (hamount : ∀ value size,amount value=.ok size → 0 ≤ size) :
    (∀ phases,Reachable (stack compose quickstart) phases →
      ∑ t∈resident (stack compose quickstart) phases,limit compose quickstart resource amount t ≤
        total) ↔ Displaceable compose quickstart resource amount := by
  rw [peak_total hamount hpeak]
  exact @Account.sound_iff _ _ ℚ _ _ (envelope hamount compose quickstart resource) _ _

/-- A memory limit in whole units. -/
def wholeAmount (value : ℕ) : Except Empty ℚ := .ok value

theorem wholeAmount_nonneg (value : ℕ) (size : ℚ) (h : wholeAmount value=.ok size) : 0 ≤ size := by
  cases h
  exact Nat.cast_nonneg value

/-- A service with a memory limit that waits for others to finish. -/
def provisioned (memory : ℕ) (after : List Str) : Service ℕ where
  profiles := []
  dependsOn := collectItems (fun _ => some) ∅ (after.map (fun name => ⟨name,.mapping completed⟩))
  limits := AList.singleton (str "memory") memory

/-- A tracking server behind one provisioner. -/
def oneGate : Dict Str (Service ℕ) :=
  (AList.singleton (str "minio-init") (provisioned 5 [])).insert (str "mlflow")
    (provisioned 7 [str "minio-init"])

theorem oneGate_bounds_iff :
    (peak oneGate ∅ (str "memory") wholeAmount).map Prod.fst=.ok 7 ∧
      ((∀ phases,Reachable (stack oneGate ∅) phases →
        ∑ t∈resident (stack oneGate ∅) phases,limit oneGate ∅ (str "memory") wholeAmount t≤7) ↔
      Displaceable oneGate ∅ (str "memory") wholeAmount) :=
  have hpeak : (peak oneGate ∅ (str "memory") wholeAmount).map Prod.fst=.ok 7 := by
    decide +kernel
  ⟨hpeak,peak_bounds_iff hpeak wholeAmount_nonneg⟩

/-- A tracking server behind two provisioners. -/
def twoGates : Dict Str (Service ℕ) :=
  ((AList.singleton (str "minio-init") (provisioned 5 [])).insert (str "db-init")
    (provisioned 5 [])).insert (str "mlflow") (provisioned 5 [str "minio-init",str "db-init"])

/-- Both provisioners are running. -/
def bothRunning : Str→Phase :=
  Function.update (Function.update (fun _ => .waiting) (str "minio-init") .running)
    (str "db-init") .running

/-- Two provisioners in front of one service displace it twice, and run together. -/
theorem twoGates_exceeded :
    (peak twoGates ∅ (str "memory") wholeAmount).map Prod.fst=.ok 5 ∧
      ¬∀ phases,Reachable (stack twoGates ∅) phases →
        ∑ t∈resident (stack twoGates ∅) phases,limit twoGates ∅ (str "memory") wholeAmount t≤5 := by
  have hfree : ∀ t,twoGates.lookup t=some (provisioned 5 []) → ∀ s,¬Awaits twoGates s t := by
    rintro t ht s ⟨service,hs,entry,he,-⟩
    rw [ht,Option.some.injEq] at hs
    subst hs
    cases he
  have hreach : Reachable (stack twoGates ∅) bothRunning := by
    refine .tail (.single (.start (by decide +kernel) rfl ?_)) (.start (by decide +kernel) ?_ ?_)
    · exact fun s hs => absurd hs (hfree _ (by rfl) s)
    · exact Function.update_of_ne (by decide +kernel) _ _
    · exact fun s hs => absurd hs (hfree _ (by rfl) s)
  have huse : ∑ t∈resident (stack twoGates ∅) bothRunning,
      limit twoGates ∅ (str "memory") wholeAmount t=10 := by decide +kernel
  refine ⟨by decide +kernel,fun h => ?_⟩
  have hbound := h bothRunning hreach
  rw [huse] at hbound
  exact absurd hbound (by decide +kernel)

end MlopsPlatform.QuickstartEnvelope
