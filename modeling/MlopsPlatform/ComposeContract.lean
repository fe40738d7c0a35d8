import MlopsPlatform.QuickstartEnvelope
import MlopsPlatform.TextTokens

/-!
# The compose contract

The contract tests read the services of the compose file as data: what a service
waits for, its healthcheck and its restart policy. Together they pass exactly
when the services divide into those that end, which others wait to complete, and
those that stay, which answer a healthcheck and are restarted. The tests look at
the whole file: what a profile selects of it keeps the contract only when it
keeps every one-shot together with something that waits for it.
-/

namespace MlopsPlatform.ComposeContract

open TextCodec TextLines TextTokens PythonDict QuickstartEnvelope GatedSchedules

variable {V X : Type*}

/-- The condition that waits for a service to be healthy. -/
def serviceHealthy : Str := str "service_healthy"

/-- `test` of a healthcheck. -/
inductive Test where
  /-- One string. -/
  | text (command : Str)
  /-- A list of strings. -/
  | words (items : List Str)
  /-- There is none, or neither of the two. -/
  | missing

/-- What the contract reads of a service. -/
structure Declared (V : Type*) extends Service V where
  /-- `image` -/
  image : Option Str
  /-- `healthcheck`, by its `test`. -/
  healthcheck : Option Test
  /-- `restart`, as a string. -/
  restart : Option Str

/-- The services of a compose file, by name. -/
abbrev Services (V : Type*) := Dict Str (Declared V)

/-- `_healthcheck_binary`, which may raise. -/
def healthcheckBinary : Test→Option Str
  | .text command => (tokens command).head?
  | .words [] => none
  | .words (form::rest) =>
    if form=str "CMD" then rest.head?
    else if form=str "CMD-SHELL" then rest.head?.bind (fun command => (tokens command).head?)
    else none
  | .missing => none

/-- `IMAGE_PROVIDES` -/
def imageProvides : List (Str×List Str) :=
  [(str "apache/spark",[str "wget"]),(str "chrislusf/seaweedfs",[str "curl"]),
    (str "postgres",[str "pg_isready"]),(str "mlops-platform/mlflow",[str "python"]),
    (str "apache/airflow",[str "python"])]

/-- The first entry that covers an image. -/
def known (image : Str) : Option (List Str) :=
  (imageProvides.find? (fun entry => entry.1.isPrefixOf image)).map Prod.snd

/-- The services as `completion_waiters` reads them. -/
def plain (services : Services V) : Dict Str (Service V) :=
  collect (fun _ service => some service.toService) ∅ services

/-- `completion_waiters` -/
def waiters (services : Services V) : Dict Str (Finset Str) := completionWaiters (plain services)

/-- `test_every_service_is_either_healthchecked_or_waited_for` -/
def everyServiceIsEitherHealthcheckedOrWaitedFor (services : Services V) : Bool :=
  services.entries.all (fun entry => entry.2.healthcheck.isSome ||
    ((waiters services).lookup entry.1).any (fun gated => gated≠∅))

/-- The policies that keep a service alive. -/
def keepsAlive : List Str := [str "always",str "unless-stopped",str "on-failure"]

/-- `test_a_one_shot_service_does_not_restart` -/
def aOneShotServiceDoesNotRestart (services : Services V) : Bool :=
  (waiters services).keys.all (fun name => (services.lookup name).any (fun service =>
    service.restart.getD (str "no")∉keepsAlive))

/-- `test_a_healthcheck_only_names_a_binary_its_image_provides` -/
def aHealthcheckOnlyNamesABinaryItsImageProvides (services : Services V) : Bool :=
  services.entries.all (fun entry => entry.2.healthcheck.all (fun test =>
    (entry.2.image.bind known).any (fun binaries =>
      (healthcheckBinary test).any (fun binary => binary∈binaries))))

/-- One entry of `test_dependencies_wait_for_health_not_start`. -/
def waitsForHealthNotStart (services : Services V) (dependency : Str) : Dependency→Bool
  | .bare => false
  | .mapping condition =>
    if condition=some completed then
      (services.lookup dependency).any (fun service => service.healthcheck.isNone)
    else condition=some serviceHealthy

/-- `test_dependencies_wait_for_health_not_start` -/
def dependenciesWaitForHealthNotStart (services : Services V) : Bool :=
  services.entries.all (fun entry => entry.2.dependsOn.entries.all (fun dependency =>
    waitsForHealthNotStart services dependency.1 dependency.2))

/-- `test_restart_policy_declared` -/
def restartPolicyDeclared (services : Services V) : Bool :=
  services.entries.all (fun entry =>
    entry.1∈(waiters services).keys || entry.2.restart=some (str "unless-stopped"))

/-- The services pass the contract tests on waiting, checking and restarting. -/
structure Contract (services : Services V) : Prop where
  /-- Each has a healthcheck, or something waits for it to end. -/
  checked : everyServiceIsEitherHealthcheckedOrWaitedFor services=true
  /-- What others wait to end does not restart. -/
  oneShots : aOneShotServiceDoesNotRestart services=true
  /-- A healthcheck runs something its image is known to have. -/
  binaries : aHealthcheckOnlyNamesABinaryItsImageProvides services=true
  /-- Nothing waits for a start alone. -/
  conditions : dependenciesWaitForHealthNotStart services=true
  /-- All else is restarted. -/
  policies : restartPolicyDeclared services=true

section Rules

/-- The second service declares that it waits for the first one to complete. -/
def WaitsToEnd (services : Services V) (s t : Str) : Prop :=
  ∃ service,services.lookup t=some service ∧
    service.dependsOn.lookup s=some (.mapping (some completed))

/-- The program a healthcheck runs, in each form compose accepts. -/
inductive Runs : Test→Str→Prop where
  /-- The first word of a string. -/
  | text {command binary : Str} : First isSpace command binary → Runs (.text command) binary
  /-- What follows `CMD`. -/
  | exec (binary : Str) (arguments : List Str) : Runs (.words (str "CMD"::binary::arguments)) binary
  /-- The first word of what follows `CMD-SHELL`. -/
  | shell {command binary : Str} (arguments : List Str) : First isSpace command binary →
      Runs (.words (str "CMD-SHELL"::command::arguments)) binary

/-- An image whose name starts so is recorded to have this program. -/
def Provides (image binary : Str) : Prop :=
  ∃ entry∈imageProvides,entry.1<+:image ∧ binary∈entry.2

/-- A service that ends: nothing probes it, and nothing starts it again. -/
structure OneShot (service : Declared V) : Prop where
  /-- It has no healthcheck. -/
  unchecked : service.healthcheck=none
  /-- No policy keeps it alive. -/
  ends : ∀ policy,service.restart=some policy → policy∉keepsAlive

/-- A service that stays: it is probed with something it has, and it is started
again. -/
structure Stays (service : Declared V) : Prop where
  /-- Its healthcheck runs a program its image is recorded to have. -/
  checked : ∃ image test binary,service.image=some image ∧ service.healthcheck=some test ∧
    Runs test binary ∧ Provides image binary
  /-- Only an operator stops it. -/
  kept : service.restart=some (str "unless-stopped")

/-- The services divide into those that end and those that stay. -/
structure Divided (services : Services V) : Prop where
  /-- Every entry of `depends_on` waits for health or for an end. -/
  conditions : ∀ t service,services.lookup t=some service →
    ∀ s entry,service.dependsOn.lookup s=some entry →
      entry=.mapping (some serviceHealthy) ∨ entry=.mapping (some completed)
  /-- Whatever another service waits to end is declared, and ends. -/
  oneShots : ∀ s t,WaitsToEnd services s t → ∃ service,services.lookup s=some service ∧
    OneShot service
  /-- Every other service stays. -/
  others : ∀ s service,services.lookup s=some service → (∀ t,¬WaitsToEnd services s t) →
    Stays service

end Rules

/-- The services that are selected, as a file of their own. -/
def selection (keep : Str→Declared V→Bool) (services : Services V) : Services V :=
  collect (fun name service => if keep name service=true then some service else none) ∅ services

/-- What the quickstart starts: everything that is not gated behind its profile. -/
def quickstartKeeps (_name : Str) (service : Declared V) : Bool := fullProfile∉service.profiles

variable {services : Services V}

theorem lookup_plain (name : Str) :
    (plain services).lookup name=(services.lookup name).map Declared.toService := by
  rw [plain,lookup_collect,AList.lookup_empty,Option.or_none]
  cases services.lookup name <;>
    rfl

theorem completes_iff {entry : Dependency} :
    entry.completes=true ↔ entry=.mapping (some completed) := by
  cases entry <;>
    simp [Dependency.completes]

/-- Waiting for an end is what `completion_waiters` records. -/
theorem awaits_iff {s t : Str} : Awaits (plain services) s t ↔ WaitsToEnd services s t := by
  simp only [Awaits,WaitsToEnd,lookup_plain,Option.map_eq_some_iff]
  constructor
  · rintro ⟨_,⟨service,hs,rfl⟩,entry,he,hc⟩
    exact ⟨service,hs,completes_iff.mp hc ▸ he⟩
  · rintro ⟨service,hs,he⟩
    exact ⟨_,⟨service,hs,rfl⟩,_,he,completes_iff.mpr rfl⟩

theorem records_waiters : Records (waiters services) (WaitsToEnd services) :=
  (records_completionWaiters (plain services)).congr (fun _ _ => awaits_iff)

/-- The keys of `completion_waiters` are the services others wait to end. -/
theorem mem_waiters {s : Str} : s∈(waiters services).keys ↔ ∃ t,WaitsToEnd services s t := by
  obtain ⟨hnonempty,hwaits⟩ := (records_waiters : Records (waiters services) _) s
  simp only [←hwaits]
  rw [←AList.mem_keys,←AList.lookup_isSome]
  cases hg : (waiters services).lookup s with
  | none => simp
  | some gated =>
    obtain ⟨t,ht⟩ := hnonempty gated hg
    simpa using ⟨t,ht⟩

/-- What is read off a healthcheck is the program it runs. -/
theorem healthcheckBinary_iff {test : Test} {binary : Str} :
    healthcheckBinary test=some binary ↔ Runs test binary := by
  constructor
  · intro h
    match test with
    | .text command => exact .text (head?_tokensBy.mp h)
    | .words (form::rest) =>
      rw [healthcheckBinary] at h
      split_ifs at h with hexec hshell
      · subst hexec
        obtain ⟨arguments,rfl⟩ := List.head?_eq_some_iff.mp h
        exact .exec binary arguments
      · subst hshell
        obtain ⟨command,hcommand,hfirst⟩ := Option.bind_eq_some_iff.mp h
        obtain ⟨arguments,rfl⟩ := List.head?_eq_some_iff.mp hcommand
        exact .shell arguments (head?_tokensBy.mp hfirst)
  · intro h
    cases h with
    | text hfirst => exact head?_tokensBy.mpr hfirst
    | exec arguments => rfl
    | shell arguments hfirst => exact head?_tokensBy.mpr hfirst

/-- No entry of the record hides another one. -/
theorem imageProvides_apart :
    ∀ entry∈imageProvides,∀ other∈imageProvides,entry.1<+:other.1 → entry=other := by
  decide

/-- What is found covers the image. -/
theorem covers_of_find {image : Str} {entry : Str×List Str}
    (hfind : imageProvides.find? (fun entry => entry.1.isPrefixOf image)=some entry) :
    entry∈imageProvides ∧ entry.1<+:image := by
  have hcovers := List.find?_some hfind
  exact ⟨List.mem_of_find?_eq_some hfind,List.isPrefixOf_iff_prefix.mp hcovers⟩

/-- The first entry that covers an image is the only one. -/
theorem known_of_mem {image : Str} {entry : Str×List Str} (hmem : entry∈imageProvides)
    (hcovers : entry.1<+:image) : known image=some entry.2 := by
  cases hfind : imageProvides.find? (fun entry => entry.1.isPrefixOf image) with
  | none => exact absurd (List.isPrefixOf_iff_prefix.mpr hcovers) (List.find?_eq_none.mp hfind _ hmem)
  | some first =>
    obtain ⟨hfirst,hother⟩ := covers_of_find hfind
    have hsame : first=entry := by
      rcases List.prefix_or_prefix_of_prefix hother hcovers with h|h
      · exact imageProvides_apart _ hfirst _ hmem h
      · exact (imageProvides_apart _ hmem _ hfirst h).symm
    rw [known,hfind,hsame,Option.map_some]

theorem known_iff {image binary : Str} :
    (∃ binaries,known image=some binaries ∧ binary∈binaries) ↔ Provides image binary := by
  constructor
  · rintro ⟨binaries,hknown,hmem⟩
    obtain ⟨entry,hfind,rfl⟩ := Option.map_eq_some_iff.mp hknown
    obtain ⟨hentry,hcovers⟩ := covers_of_find hfind
    exact ⟨entry,hentry,hcovers,hmem⟩
  · rintro ⟨entry,hentry,hcovers,hmem⟩
    exact ⟨entry.2,known_of_mem hentry hcovers,hmem⟩

section Tests

theorem checked_iff : everyServiceIsEitherHealthcheckedOrWaitedFor services=true ↔
    ∀ s service,services.lookup s=some service →
      (∃ test,service.healthcheck=some test) ∨ ∃ t,WaitsToEnd services s t := by
  rw [everyServiceIsEitherHealthcheckedOrWaitedFor,all_entries_iff]
  refine forall₃_congr (fun s service _ => ?_)
  rw [Bool.or_eq_true,Option.isSome_iff_exists]
  refine or_congr_right ?_
  obtain ⟨hnonempty,hwaits⟩ := (records_waiters : Records (waiters services) _) s
  simp only [←hwaits]
  cases hg : (waiters services).lookup s with
  | none => simp
  | some gated => simp [Finset.nonempty_iff_ne_empty.symm,Finset.Nonempty]

theorem oneShots_iff : aOneShotServiceDoesNotRestart services=true ↔
    ∀ s t,WaitsToEnd services s t → ∃ service,services.lookup s=some service ∧
      ∀ policy,service.restart=some policy → policy∉keepsAlive := by
  have hpolicy : ∀ restart : Option Str,restart.getD (str "no")∉keepsAlive ↔
      ∀ policy,restart=some policy → policy∉keepsAlive := by
    intro restart
    cases restart with
    | none => exact iff_of_true (by decide) (fun _ h => by cases h)
    | some policy => simp
  simp only [aOneShotServiceDoesNotRestart,List.all_eq_true,mem_waiters,Option.any_eq_true,
    decide_eq_true_eq,hpolicy,forall_exists_index]

theorem binaries_iff : aHealthcheckOnlyNamesABinaryItsImageProvides services=true ↔
    ∀ s service,services.lookup s=some service → ∀ test,service.healthcheck=some test →
      ∃ image binary,service.image=some image ∧ Runs test binary ∧ Provides image binary := by
  rw [aHealthcheckOnlyNamesABinaryItsImageProvides,all_entries_iff]
  refine forall₃_congr (fun s service _ => ?_)
  rw [Option.all_eq_true]
  refine forall₂_congr (fun test _ => ?_)
  simp only [Option.any_eq_true,Option.bind_eq_some_iff,decide_eq_true_eq,healthcheckBinary_iff]
  constructor
  · rintro ⟨binaries,⟨image,himage,hknown⟩,binary,hruns,hmem⟩
    exact ⟨image,binary,himage,hruns,known_iff.mp ⟨binaries,hknown,hmem⟩⟩
  · rintro ⟨image,binary,himage,hruns,hprovides⟩
    obtain ⟨binaries,hknown,hmem⟩ := known_iff.mpr hprovides
    exact ⟨binaries,⟨image,himage,hknown⟩,binary,hruns,hmem⟩

theorem serviceHealthy_ne_completed : serviceHealthy≠completed := by decide

theorem conditions_iff : dependenciesWaitForHealthNotStart services=true ↔
    ∀ t service,services.lookup t=some service →
      ∀ s entry,service.dependsOn.lookup s=some entry →
        entry=.mapping (some serviceHealthy) ∨ entry=.mapping (some completed) ∧
          ∃ other,services.lookup s=some other ∧ other.healthcheck=none := by
  rw [dependenciesWaitForHealthNotStart,all_entries_iff]
  refine forall₃_congr (fun t service _ => ?_)
  rw [all_entries_iff]
  refine forall₃_congr (fun s entry _ => ?_)
  have hne := serviceHealthy_ne_completed
  cases entry with
  | bare => simp [waitsForHealthNotStart]
  | mapping condition =>
    by_cases hc : condition=some completed
    · simp [waitsForHealthNotStart,hc,hne.symm,Option.any_eq_true]
    · simp [waitsForHealthNotStart,hc]

theorem policies_iff : restartPolicyDeclared services=true ↔
    ∀ s service,services.lookup s=some service →
      (∃ t,WaitsToEnd services s t) ∨ service.restart=some (str "unless-stopped") := by
  rw [restartPolicyDeclared,all_entries_iff]
  refine forall₃_congr (fun s service _ => ?_)
  rw [Bool.or_eq_true,decide_eq_true_eq,decide_eq_true_eq,mem_waiters]

end Tests

/-- What others wait to end is a one-shot. -/
theorem Divided.oneShot (h : Divided services) {s t : Str} {service : Declared V}
    (hs : services.lookup s=some service) (hw : WaitsToEnd services s t) : OneShot service := by
  obtain ⟨other,ho,hone⟩ := h.oneShots s t hw
  rw [hs,Option.some.injEq] at ho
  exact ho ▸ hone

theorem divided_of_contract (h : Contract services) : Divided services := by
  have hconditions := conditions_iff.mp h.conditions
  refine ⟨fun t service ht s entry he => ?_,?_,fun s service hs hnone => ?_⟩
  · exact (hconditions t service ht s entry he).imp_right And.left
  · rintro s t ⟨service,ht,he⟩
    obtain ⟨declared,hs,hends⟩ := oneShots_iff.mp h.oneShots s t ⟨service,ht,he⟩
    rcases hconditions t service ht s _ he with hhealthy|⟨-,other,ho,hunchecked⟩
    · exact absurd (Option.some.inj (Dependency.mapping.inj hhealthy)) serviceHealthy_ne_completed.symm
    · rw [hs,Option.some.injEq] at ho
      subst ho
      exact ⟨declared,hs,hunchecked,hends⟩
  · have hunwaited : ¬∃ t,WaitsToEnd services s t := not_exists.mpr hnone
    obtain ⟨test,htest⟩ := (checked_iff.mp h.checked s service hs).resolve_right hunwaited
    obtain ⟨image,binary,himage,hruns⟩ := binaries_iff.mp h.binaries s service hs test htest
    exact ⟨⟨image,test,binary,himage,htest,hruns⟩,
      (policies_iff.mp h.policies s service hs).resolve_left hunwaited⟩

theorem contract_of_divided (h : Divided services) : Contract services := by
  have hstays : ∀ s service,services.lookup s=some service →
      (∃ t,WaitsToEnd services s t) ∨ Stays service := fun s service hs => by
    by_cases hwaited : ∃ t,WaitsToEnd services s t
    · exact .inl hwaited
    · exact .inr (h.others s service hs (not_exists.mp hwaited))
  refine ⟨checked_iff.mpr ?_,oneShots_iff.mpr ?_,binaries_iff.mpr ?_,conditions_iff.mpr ?_,
    policies_iff.mpr ?_⟩
  · intro s service hs
    refine (hstays s service hs).symm.imp_left (fun hstay => ?_)
    obtain ⟨image,test,binary,himage,htest,hruns⟩ := hstay.checked
    exact ⟨test,htest⟩
  · intro s t hw
    obtain ⟨service,hs,hone⟩ := h.oneShots s t hw
    exact ⟨service,hs,hone.ends⟩
  · intro s service hs test htest
    rcases hstays s service hs with ⟨t,ht⟩|hstay
    · rw [(h.oneShot hs ht).unchecked] at htest
      cases htest
    · obtain ⟨image,other,binary,himage,ho,hruns⟩ := hstay.checked
      rw [htest,Option.some.injEq] at ho
      subst ho
      exact ⟨image,binary,himage,hruns⟩
  · intro t service ht s entry he
    refine (h.conditions t service ht s entry he).imp_right (fun hc => ⟨hc,?_⟩)
    obtain ⟨other,ho,hone⟩ := h.oneShots s t ⟨service,ht,hc ▸ he⟩
    exact ⟨other,ho,hone.unchecked⟩
  · intro s service hs
    exact (hstays s service hs).imp_right Stays.kept

/-- The contract tests pass exactly when the services divide: every condition is
one of the two, what others wait to end has no healthcheck and no policy that
keeps it alive, and everything else answers a healthcheck its image can run and
is restarted unless stopped. -/
theorem contract_iff : Contract services ↔ Divided services :=
  ⟨divided_of_contract,contract_of_divided⟩

/-- Of a divided file, what has no healthcheck is what others wait to end. -/
theorem Divided.waited_iff (h : Divided services) {s : Str} {service : Declared V}
    (hs : services.lookup s=some service) :
    (∃ t,WaitsToEnd services s t) ↔ service.healthcheck=none := by
  constructor
  · rintro ⟨t,ht⟩
    exact (h.oneShot hs ht).unchecked
  · intro hnone
    by_contra hwaited
    obtain ⟨image,test,binary,himage,htest,hruns⟩ :=
      (h.others s service hs (not_exists.mp hwaited)).checked
    rw [hnone] at htest
    cases htest

section Charges

variable {quickstart : Dict Str (Dict Str V)} {resource : Str} {amount : V→Except X ℚ} {total : ℚ}
  {charged : Dict Str ℚ}

/-- The quickstart leaves out what is gated behind the profile, and nothing else. -/
theorem mem_services {name : Str} : name∈(stack (plain services) quickstart).services ↔
    ∃ service,services.lookup name=some service ∧ fullProfile∉service.profiles := by
  refine (mem_keySet (d := quickstartServices (plain services) quickstart)).trans ?_
  rw [quickstartServices,lookup_collect,AList.lookup_empty,Option.or_none,lookup_plain]
  cases services.lookup name with
  | none => simp
  | some service =>
    by_cases hfull : fullProfile∈service.profiles <;>
      simp [quickstartLimits,hfull]

/-- Whenever a file passes the contract, the account of the quickstart tells its
services apart by their healthcheck: one that has one is charged its limit, one
that has none what it takes over and above the cheapest service waiting for it. -/
theorem charged_by_healthcheck (h : Contract services)
    (hpeak : peak (plain services) quickstart resource amount=.ok (total,charged)) :
    (∀ name,name∈charged ↔
      ∃ service,services.lookup name=some service ∧ fullProfile∉service.profiles) ∧
    ∀ name service,services.lookup name=some service → fullProfile∉service.profiles →
      charged.lookup name=some (if service.healthcheck.isSome=true then
        limit (plain services) quickstart resource amount name
      else max 0 (limit (plain services) quickstart resource amount name-
        cheapestWaiting (plain services) quickstart resource amount name)) := by
  cases hsizes : collectM (sizeOf resource amount) (quickstartServices (plain services) quickstart) with
  | error e =>
    rw [peak,hsizes] at hpeak
    cases hpeak
  | ok sizes =>
    rw [peak,hsizes] at hpeak
    cases hpeak
    have hcharged : ∀ name service,services.lookup name=some service → fullProfile∉service.profiles →
        (chargedFor (plain services) sizes).lookup name=some (if service.healthcheck.isSome=true then
          limit (plain services) quickstart resource amount name
        else max 0 (limit (plain services) quickstart resource amount name-
          cheapestWaiting (plain services) quickstart resource amount name)) := by
      intro name service hs hfull
      have hservice : name∈(stack (plain services) quickstart).services :=
        mem_services.mpr ⟨service,hs,hfull⟩
      have hwaited := (divided_of_contract h).waited_iff hs
      have hends : (stack (plain services) quickstart).ends name ↔ service.healthcheck=none :=
        (exists_congr (fun _ => awaits_iff)).trans hwaited
      cases hcheck : service.healthcheck with
      | none =>
        exact lookup_chargedFor_oneShot hsizes (mem_oneShots.mpr ⟨hservice,hends.mpr hcheck⟩)
      | some test =>
        have hstays : name∉oneShots (stack (plain services) quickstart) := by
          rw [mem_oneShots,hends,hcheck]
          simp
        obtain ⟨size,hsize⟩ := mem_keySet.mp ((keySet_sizes hsizes).symm ▸ hservice)
        rw [lookup_chargedFor_other hsizes hstays,hsize,lookup_sizes hsizes hsize]
        rfl
    refine ⟨fun name => ⟨fun hname => ?_,?_⟩,hcharged⟩
    · refine (@mem_services _ services quickstart name).mp ?_
      by_cases hone : name∈oneShots (stack (plain services) quickstart)
      · exact (mem_oneShots.mp hone).1
      · rw [←AList.lookup_isSome,lookup_chargedFor_other hsizes hone,Option.isSome_iff_exists] at hname
        rw [←keySet_sizes hsizes]
        exact mem_keySet.mpr hname
    · rintro ⟨service,hs,hfull⟩
      rw [←AList.lookup_isSome,hcharged name service hs hfull,Option.isSome_some]

end Charges

section Selection

variable {keep : Str→Declared V→Bool}

theorem lookup_selection {name : Str} {service : Declared V} :
    (selection keep services).lookup name=some service ↔
      services.lookup name=some service ∧ keep name service=true := by
  rw [selection,lookup_collect,AList.lookup_empty,Option.or_none,Option.bind_eq_some_iff]
  constructor
  · rintro ⟨other,ho,hkept⟩
    split_ifs at hkept with hkeep
    cases hkept
    exact ⟨ho,hkeep⟩
  · rintro ⟨hs,hkeep⟩
    exact ⟨service,hs,if_pos hkeep⟩

theorem mem_selection {name : Str} : name∈selection keep services ↔
    ∃ service,services.lookup name=some service ∧ keep name service=true := by
  rw [←AList.lookup_isSome,Option.isSome_iff_exists]
  exact exists_congr (fun _ => lookup_selection)

/-- A selected service waits for what it waits for in the whole file. -/
theorem waitsToEnd_selection {s t : Str} : WaitsToEnd (selection keep services) s t ↔
    t∈selection keep services ∧ WaitsToEnd services s t := by
  rw [mem_selection]
  constructor
  · rintro ⟨service,ht,hw⟩
    obtain ⟨hservice,hkeep⟩ := lookup_selection.mp ht
    exact ⟨⟨service,hservice,hkeep⟩,service,hservice,hw⟩
  · rintro ⟨⟨service,hservice,hkeep⟩,other,ho,hw⟩
    rw [hservice,Option.some.injEq] at ho
    subst ho
    exact ⟨service,lookup_selection.mpr ⟨hservice,hkeep⟩,hw⟩

/-- What is selected of a file that passes the contract passes it on its own
exactly when every one-shot that a selected service waits for is selected too,
and every selected one-shot has a selected service that waits for it. -/
theorem selection_contract_iff (h : Contract services) :
    Contract (selection keep services) ↔
      (∀ s t,t∈selection keep services → WaitsToEnd services s t → s∈selection keep services) ∧
      ∀ s service,(selection keep services).lookup s=some service → service.healthcheck=none →
        ∃ t∈selection keep services,WaitsToEnd services s t := by
  have hdivided := divided_of_contract h
  constructor
  · intro hselected
    have hown := divided_of_contract hselected
    refine ⟨fun s t ht hw => ?_,fun s service hs hnone => ?_⟩
    · obtain ⟨service,hs,-⟩ := hown.oneShots s t (waitsToEnd_selection.mpr ⟨ht,hw⟩)
      exact mem_selection.mpr ⟨service,lookup_selection.mp hs⟩
    · obtain ⟨t,ht⟩ := (hown.waited_iff hs).mpr hnone
      exact ⟨t,waitsToEnd_selection.mp ht⟩
  · rintro ⟨hclosed,hwaited⟩
    refine contract_of_divided ⟨fun t service ht => ?_,fun s t hw => ?_,fun s service hs hnone => ?_⟩
    · exact hdivided.conditions t service (lookup_selection.mp ht).1
    · obtain ⟨ht,hw⟩ := waitsToEnd_selection.mp hw
      obtain ⟨service,hs,hkeep⟩ := mem_selection.mp (hclosed s t ht hw)
      exact ⟨service,lookup_selection.mpr ⟨hs,hkeep⟩,hdivided.oneShot hs hw⟩
    · have hs' := (lookup_selection.mp hs).1
      refine hdivided.others s service hs' (not_exists.mp (fun hw => ?_))
      obtain ⟨t,ht,hw⟩ := hwaited s service hs ((hdivided.waited_iff hs').mp hw)
      exact hnone t (waitsToEnd_selection.mpr ⟨ht,hw⟩)

end Selection

/-- A service of the sample. -/
def declared (profiles : List Str) (waits : Items Str Dependency) (memory : ℕ) (image : Str)
    (test : Option (List Str)) : Declared ℕ where
  profiles := profiles
  dependsOn := collectItems (fun _ => some) ∅ waits
  limits := AList.singleton (str "memory") memory
  image := some image
  healthcheck := test.map .words
  restart := test.map (fun _ => str "unless-stopped")

/-- The artifact store, its provisioner, the tracking server behind these
profiles, and the scheduler behind its own. -/
def stackEntries (server : List Str) : Items Str (Declared ℕ) :=
  [⟨str "minio",declared [] [] 1024 (str "chrislusf/seaweedfs:4.47")
      (some [str "CMD",str "curl"])⟩,
    ⟨str "minio-init",declared [] [⟨str "minio",.mapping serviceHealthy⟩] 256
      (str "mlops-platform/mlflow:2.22.4") none⟩,
    ⟨str "mlflow",declared server [⟨str "minio",.mapping serviceHealthy⟩,
        ⟨str "minio-init",.mapping completed⟩] 1024
      (str "mlops-platform/mlflow:2.22.4") (some [str "CMD",str "python"])⟩,
    ⟨str "airflow",declared [fullProfile] [⟨str "mlflow",.mapping serviceHealthy⟩] 3072
      (str "apache/airflow:2.11.2") (some [str "CMD-SHELL",str "python -c"])⟩]

theorem stackEntries_nodupKeys (server : List Str) : (stackEntries server).NodupKeys := by
  have hkeys : ∀ names : List Str,names=(stackEntries []).keys → names.Nodup := by
    rintro _ rfl
    decide +kernel
  exact hkeys _ rfl

/-- The sample as a compose file declares it. -/
def stackServices (server : List Str) : Services ℕ := ⟨stackEntries server,stackEntries_nodupKeys server⟩

/-- It passes the contract tests, wherever the tracking server stands. -/
theorem stack_contract (server : List Str) (h : server=[] ∨ server=[fullProfile]) :
    Contract (stackServices server) := by
  rcases h with rfl|rfl <;>
    exact ⟨by decide +kernel,by decide +kernel,by decide +kernel,by decide +kernel,by decide +kernel⟩

/-- The sample has one wait for an end. -/
theorem stack_waits {server : List Str} (h : server=[] ∨ server=[fullProfile]) {s t : Str}
    (hw : WaitsToEnd (stackServices server) s t) : s=str "minio-init" ∧ t=str "mlflow" := by
  have hall : (stackServices server).entries.all (fun entry => entry.2.dependsOn.entries.all
      (fun dependency => !dependency.2.completes ||
        decide (dependency.1=str "minio-init" ∧ entry.1=str "mlflow")))=true := by
    rcases h with rfl|rfl <;>
      decide +kernel
  obtain ⟨service,hservice,hentry⟩ := hw
  have hone := all_entries_iff.mp (all_entries_iff.mp hall t service hservice) s _ hentry
  rw [completes_iff.mpr rfl] at hone
  exact of_decide_eq_true hone

theorem charged_by_healthcheck_stack : ∃ total charged,
    peak (plain (stackServices [])) ∅ (str "memory") wholeAmount=.ok (total,charged) ∧
      charged.lookup (str "mlflow")=some 1024 ∧ str "airflow"∉charged := by
  have hpeak : ∃ answer,peak (plain (stackServices [])) ∅ (str "memory") wholeAmount=.ok answer := by
    have hok : (peak (plain (stackServices [])) ∅ (str "memory") wholeAmount).toOption.isSome=true := by
      decide +kernel
    cases hanswer : peak (plain (stackServices [])) ∅ (str "memory") wholeAmount with
    | error e =>
      rw [hanswer] at hok
      cases hok
    | ok answer => exact ⟨answer,rfl⟩
  obtain ⟨⟨total,charged⟩,hpeak⟩ := hpeak
  obtain ⟨hkeys,hcharge⟩ := charged_by_healthcheck (stack_contract [] (.inl rfl)) hpeak
  refine ⟨total,charged,hpeak,?_,?_⟩
  · refine (hcharge (str "mlflow") _ rfl (by decide +kernel)).trans ?_
    decide +kernel
  · rw [hkeys]
    rintro ⟨service,hs,hfull⟩
    cases (Option.some.inj hs : _=service)
    exact hfull (by decide +kernel)

/-- The quickstart of the sample passes on its own; with the tracking server
behind the profile it is left with a one-shot nothing waits for. -/
theorem selection_contract_iff_stack :
    Contract (selection quickstartKeeps (stackServices [])) ∧
      Contract (stackServices [fullProfile]) ∧
      ¬Contract (selection quickstartKeeps (stackServices [fullProfile])) := by
  have hserver : WaitsToEnd (stackServices []) (str "minio-init") (str "mlflow") := ⟨_,rfl,rfl⟩
  refine ⟨?_,stack_contract _ (.inr rfl),fun hcontract => ?_⟩
  · refine (selection_contract_iff (stack_contract [] (.inl rfl))).mpr
      ⟨fun s t _ hw => ?_,fun s service hs hnone => ⟨str "mlflow",by decide +kernel,?_⟩⟩
    · obtain ⟨rfl,-⟩ := stack_waits (.inl rfl) hw
      decide +kernel
    · have hchecked : (selection quickstartKeeps (stackServices [])).entries.all (fun entry =>
          entry.2.healthcheck.isSome || entry.1=str "minio-init")=true := by
        decide +kernel
      have hone := all_entries_iff.mp hchecked s service hs
      rw [hnone] at hone
      rw [show s=str "minio-init" from of_decide_eq_true hone]
      exact hserver
  · obtain ⟨-,hwaited⟩ :=
      (selection_contract_iff (stack_contract [fullProfile] (.inr rfl))).mp hcontract
    obtain ⟨t,ht,hw⟩ := hwaited (str "minio-init") _ rfl rfl
    obtain ⟨-,rfl⟩ := stack_waits (.inr rfl) hw
    exact absurd ht (by decide +kernel)

end MlopsPlatform.ComposeContract
