import Mathlib.Data.Finset.Basic
import MlopsPlatform.StateRuns
import MlopsPlatform.TextCodec

/-!
# Publishing from a shared tag

Several services declare one build, and each export of theirs takes the shared
tag. `push` builds them all, builds the one service again to claim the tag back,
reads the label and refuses any other variant, then tags and pushes. Whoever else
builds, or starts the stack, exports too. What is published is the service's own
variant, unless another export falls between the reading and the tagging.
-/

namespace MlopsPlatform.PushPublish

open TextCodec StateRuns

variable {ι : Type*}

/-- The service whose variant is published. -/
def mlflow : Str := str "mlflow"

/-- Where a push stands. -/
inductive Stage where
  /-- `build`, with these services still to export. -/
  | building (left : Finset Str)
  /-- `docker image inspect` of the shared tag. -/
  | inspecting
  /-- `build mlflow` -/
  | rebuilding
  /-- The label of the shared tag is read. -/
  | reading
  /-- `docker tag` -/
  | tagging
  /-- `docker push` -/
  | pushing
  /-- The digest is printed. -/
  | reporting
  /-- It is over, and succeeded or not. -/
  | ended (success : Bool)
deriving DecidableEq

/-- The daemon, the registry and the pushes. A variant is named by the label of
the service it was exported for. -/
structure World (ι : Type*) where
  /-- What the shared tag names. -/
  shared : Option Str
  /-- What the published reference names locally. -/
  remote : Option Str
  /-- What was published last. -/
  registry : Option Str
  /-- Where each push stands. -/
  stage : ι→Stage

/-- What happens. -/
inductive Event (ι : Type*) where
  /-- Some other build, or start, exports a variant. -/
  | foreign (service : Str)
  /-- A push exports one. -/
  | exports (p : ι) (service : Str)
  /-- A push finds the shared tag, or none. -/
  | inspects (p : ι)
  /-- A push reads the label, and goes on or refuses. `make` compares exactly;
  the `-ne` of `make.ps1` ignores letter case, which makes no difference as long
  as no other declared service is called `mlflow` in other letters. -/
  | reads (p : ι)
  /-- A push tags. -/
  | tags (p : ι)
  /-- A push publishes. -/
  | pushes (p : ι)
  /-- A push prints the digest. -/
  | reports (p : ι)
  /-- A command of a push fails. -/
  | fails (p : ι)

/-- The variant an event exports. -/
def Event.variant : Event ι→Option Str
  | .foreign service => some service
  | .exports _ service => some service
  | _ => none

/-- The push it belongs to. -/
def Event.push : Event ι→Option ι
  | .foreign _ => none
  | .exports p _ => some p
  | .inspects p => some p
  | .reads p => some p
  | .tags p => some p
  | .pushes p => some p
  | .reports p => some p
  | .fails p => some p

section Steps

variable [DecidableEq ι] (declaring : Finset Str)

/-- The next stage of one push. -/
def World.go (w : World ι) (p : ι) (stage : Stage) : World ι :=
  ⟨w.shared,w.remote,w.registry,Function.update w.stage p stage⟩

/-- The shared tag is taken. -/
def World.retag (w : World ι) (service : Str) : World ι :=
  ⟨some service,w.remote,w.registry,w.stage⟩

/-- What an event does, if it can happen. -/
def step (w : World ι) : Event ι→Option (World ι)
  | .foreign service => if service∈declaring then some (w.retag service) else none
  | .exports p service =>
    match w.stage p with
    | .building left =>
      if service∈left then
        some ((w.retag service).go p
          (if left.erase service=∅ then .inspecting else .building (left.erase service)))
      else none
    | .rebuilding => if service=mlflow then some ((w.retag service).go p .reading) else none
    | _ => none
  | .inspects p =>
    if w.stage p=.inspecting then
      some (w.go p (if w.shared=none then .ended false else .rebuilding))
    else none
  | .reads p =>
    if w.stage p=.reading then
      some (w.go p (if w.shared=some mlflow then .tagging else .ended false))
    else none
  | .tags p =>
    if w.stage p=.tagging ∧ w.shared≠none then
      some (World.go ⟨w.shared,w.shared,w.registry,w.stage⟩ p .pushing)
    else none
  | .pushes p =>
    if w.stage p=.pushing then
      some (World.go ⟨w.shared,w.remote,w.remote,w.stage⟩ p .reporting)
    else none
  | .reports p => if w.stage p=.reporting then some (w.go p (.ended true)) else none
  | .fails p =>
    match w.stage p with
    | .ended _ => none
    | _ => some (w.go p (.ended false))

/-- Every push is about to build, nothing is published yet. -/
def World.initial (shared : Option Str) : World ι :=
  ⟨shared,none,none,fun _ => .building declaring⟩

end Steps

/-- The last export among some events is of this variant. -/
def LastExport (events : List (Event ι)) (service : Str) : Prop :=
  ∃ before event later,events=before++event::later ∧ event.variant=some service ∧
    ∀ other∈later,other.variant=none

/-- Between the reading of a push and its tagging, the last export is of this
variant. -/
def Window (events : List (Event ι)) (service : Str) : Prop :=
  ∃ p before between later,events=before++.reads p::(between++.tags p::later) ∧
    LastExport between service

theorem LastExport.of_variant {events : List (Event ι)} {event : Event ι} {service : Str}
    (h : event.variant=some service) : LastExport (events++[event]) service :=
  ⟨events,event,[],rfl,h,fun _ ho => absurd ho List.not_mem_nil⟩

/-- What exports nothing leaves the last export. -/
theorem LastExport.snoc {events : List (Event ι)} {service : Str} (h : LastExport events service)
    {event : Event ι} (he : event.variant=none) : LastExport (events++[event]) service := by
  obtain ⟨before,last,later,rfl,hlast,hlater⟩ := h
  refine ⟨before,last,later++[event],?_,hlast,fun other ho => ?_⟩
  · rw [List.append_assoc,List.cons_append]
  · rcases List.mem_append.mp ho with ho|ho
    · exact hlater other ho
    · rw [List.mem_singleton.mp ho]
      exact he

/-- A window stays one. -/
theorem Window.snoc {events : List (Event ι)} {service : Str} (h : Window events service)
    (event : Event ι) : Window (events++[event]) service := by
  obtain ⟨p,before,between,later,rfl,hlast⟩ := h
  refine ⟨p,before,between,later++[event],?_,hlast⟩
  rw [List.append_assoc,List.cons_append,List.append_assoc,List.cons_append]

variable [DecidableEq ι] {declaring : Finset Str} {w next : World ι} {event : Event ι}

/-- What an event can change. -/
structure Effect (w next : World ι) (event : Event ι) : Prop where
  /-- The shared tag names the variant that was exported. -/
  shared : next.shared=event.variant.or w.shared
  /-- The published reference changes when a push tags. -/
  remote : next.remote=w.remote ∨
    ∃ p,event=.tags p ∧ w.stage p=.tagging ∧ next.remote=w.shared
  /-- What is published was tagged. -/
  registry : next.registry=w.registry ∨ next.registry=w.remote
  /-- A push tags after it has read its own label. -/
  tagging : ∀ p,next.stage p=.tagging →
    (w.stage p=.tagging ∧ event.push≠some p) ∨ (event=.reads p ∧ w.shared=some mlflow)

theorem go_stage_self (p : ι) (stage : Stage) : (w.go p stage).stage p=stage :=
  Function.update_self _ _ _

theorem go_stage_of_ne {p q : ι} (h : p≠q) (stage : Stage) :
    (w.go q stage).stage p=w.stage p := Function.update_of_ne h _ _

theorem tagging_of_go {p q : ι} {stage : Stage} (hstage : stage≠.tagging)
    (h : (w.go q stage).stage p=.tagging) : w.stage p=.tagging ∧ p≠q := by
  by_cases hpq : p=q
  · rw [hpq,go_stage_self] at h
    exact absurd h hstage
  · rw [go_stage_of_ne hpq] at h
    exact ⟨h,hpq⟩

/-- A push that goes on to another stage than tagging changes the tags and the registry
as its event says. -/
theorem effect_go {v : World ι} {q : ι} {stage : Stage} (hstage : stage≠.tagging)
    (hpush : event.push=some q) (hstages : v.stage=w.stage)
    (hshared : v.shared=event.variant.or w.shared)
    (hremote : v.remote=w.remote ∨ ∃ p,event=.tags p ∧ w.stage p=.tagging ∧ v.remote=w.shared)
    (hregistry : v.registry=w.registry ∨ v.registry=w.remote) :
    Effect w (v.go q stage) event := by
  refine ⟨hshared,hremote,hregistry,fun p hp => ?_⟩
  obtain ⟨hv,hpq⟩ := tagging_of_go hstage hp
  rw [hstages] at hv
  refine Or.inl ⟨hv,fun he => hpq ?_⟩
  rw [hpush,Option.some.injEq] at he
  exact he.symm

/-- A push that fails is over. -/
theorem step_fails {q : ι} (h : step declaring w (.fails q)=some next) :
    next=w.go q (.ended false) := by
  cases hs : w.stage q <;>
    simp [step,hs] at h
  all_goals exact h.symm

theorem effect_of_step (h : step declaring w event=some next) : Effect w next event := by
  cases event with
  | foreign service =>
    simp only [step,Option.ite_none_right_eq_some,Option.some.injEq] at h
    obtain ⟨-,rfl⟩ := h
    exact ⟨rfl,Or.inl rfl,Or.inl rfl,fun p hp => Or.inl ⟨hp,Option.some_ne_none p ∘ Eq.symm⟩⟩
  | exports q service =>
    cases hs : w.stage q with
    | building left =>
      simp only [step,hs,Option.ite_none_right_eq_some,Option.some.injEq] at h
      obtain ⟨-,rfl⟩ := h
      refine effect_go ?_ rfl rfl rfl (Or.inl rfl) (Or.inl rfl)
      split
      · simp
      · simp
    | rebuilding =>
      simp only [step,hs,Option.ite_none_right_eq_some,Option.some.injEq] at h
      obtain ⟨-,rfl⟩ := h
      exact effect_go (by simp) rfl rfl rfl (Or.inl rfl) (Or.inl rfl)
    | _ => simp [step,hs] at h
  | inspects q =>
    simp only [step,Option.ite_none_right_eq_some,Option.some.injEq] at h
    obtain ⟨-,rfl⟩ := h
    refine effect_go ?_ rfl rfl rfl (Or.inl rfl) (Or.inl rfl)
    split
    · simp
    · simp
  | reads q =>
    simp only [step,Option.ite_none_right_eq_some,Option.some.injEq] at h
    obtain ⟨-,rfl⟩ := h
    by_cases hshared : w.shared=some mlflow
    -- the one way to come to tag
    · refine ⟨rfl,Or.inl rfl,Or.inl rfl,fun p hp => ?_⟩
      by_cases hpq : p=q
      · rw [hpq]
        exact Or.inr ⟨rfl,hshared⟩
      · rw [go_stage_of_ne hpq] at hp
        exact Or.inl ⟨hp,fun he => hpq (Option.some.inj he).symm⟩
    · rw [if_neg hshared]
      exact effect_go (by simp) rfl rfl rfl (Or.inl rfl) (Or.inl rfl)
  | tags q =>
    simp only [step,Option.ite_none_right_eq_some,Option.some.injEq] at h
    obtain ⟨⟨hq,-⟩,rfl⟩ := h
    exact effect_go (by simp) rfl rfl rfl (Or.inr ⟨q,rfl,hq,rfl⟩) (Or.inl rfl)
  | pushes q =>
    simp only [step,Option.ite_none_right_eq_some,Option.some.injEq] at h
    obtain ⟨-,rfl⟩ := h
    exact effect_go (by simp) rfl rfl rfl (Or.inl rfl) (Or.inr rfl)
  | reports q =>
    simp only [step,Option.ite_none_right_eq_some,Option.some.injEq] at h
    obtain ⟨-,rfl⟩ := h
    exact effect_go (by simp) rfl rfl rfl (Or.inl rfl) (Or.inl rfl)
  | fails q =>
    rw [step_fails h]
    exact effect_go (by simp) rfl rfl rfl (Or.inl rfl) (Or.inl rfl)

/-- What a run leaves, told from its events. -/
structure Traced (events : List (Event ι)) (w : World ι) : Prop where
  /-- A push that is about to tag has read its own label, and what the shared tag
  names since is that variant or was exported since. -/
  tagging : ∀ p,w.stage p=.tagging → ∃ before between,events=before++.reads p::between ∧
    ∀ service,w.shared=some service → service=mlflow ∨ LastExport between service
  /-- What is tagged came through a window, or is the service's own. -/
  remote : ∀ service,w.remote=some service → service=mlflow ∨ Window events service
  /-- So is what is published. -/
  registry : ∀ service,w.registry=some service → service=mlflow ∨ Window events service

theorem step_traced {events : List (Event ι)} (h : step declaring w event=some next)
    (hw : Traced events w) : Traced (events++[event]) next := by
  have heffect := effect_of_step h
  have hremote : ∀ service,w.remote=some service →
      service=mlflow ∨ Window (events++[event]) service :=
    fun service hs => (hw.remote service hs).imp_right (fun hwin => hwin.snoc event)
  refine ⟨fun p hp => ?_,fun service hs => ?_,fun service hs => ?_⟩
  · rcases heffect.tagging p hp with ⟨hbefore,-⟩|⟨rfl,hread⟩
    · obtain ⟨before,between,rfl,hshared⟩ := hw.tagging p hbefore
      refine ⟨before,between++[event],?_,fun service hs => ?_⟩
      · rw [List.append_assoc,List.cons_append]
      · rw [heffect.shared] at hs
        cases hv : event.variant with
        | none =>
          rw [hv,Option.none_or] at hs
          exact (hshared service hs).imp_right (fun hlast => hlast.snoc hv)
        | some exported =>
          rw [hv,Option.some_or,Option.some.injEq] at hs
          rw [←hs]
          exact Or.inr (.of_variant hv)
    · refine ⟨events,[],rfl,fun service hs => Or.inl ?_⟩
      have hv : (Event.reads p).variant=none := rfl
      rw [heffect.shared,hv,Option.none_or,hread,Option.some.injEq] at hs
      exact hs.symm
  · rcases heffect.remote with hkept|⟨p,rfl,hp,htagged⟩
    · rw [hkept] at hs
      exact hremote service hs
    · rw [htagged] at hs
      obtain ⟨before,between,rfl,hshared⟩ := hw.tagging p hp
      refine (hshared service hs).imp_right (fun hlast => ⟨p,before,between,[],?_,hlast⟩)
      rw [List.append_assoc,List.cons_append]
  · rcases heffect.registry with hkept|hpushed
    · rw [hkept] at hs
      exact (hw.registry service hs).imp_right (fun hwin => hwin.snoc event)
    · rw [hpushed] at hs
      exact hremote service hs

theorem run_traced {shared : Option Str} {events : List (Event ι)}
    (h : wholeRun (step declaring) (World.initial declaring shared) events=some w) :
    Traced events w := by
  refine wholeRun_traced (fun _ _ _ _ hw hstep => step_traced hstep hw) ?_ h
  refine ⟨fun p hp => ?_,fun service hs => ?_,fun service hs => ?_⟩
  · cases hp
  · cases hs
  · cases hs

/-- The build of one push, in some order. -/
theorem run_builds {p : ι} {order : List Str} (hne : order≠[]) (hnodup : order.Nodup)
    (hs : w.stage p=.building order.toFinset) :
    ∃ service,wholeRun (step declaring) w (order.map (Event.exports p))=
      some ((w.retag service).go p .inspecting) := by
  induction order generalizing w with
  | nil => exact absurd rfl hne
  | cons service order ih =>
    obtain ⟨hfresh,hrest⟩ := List.nodup_cons.mp hnodup
    have hleft : (service::order).toFinset.erase service=order.toFinset := by
      rw [List.toFinset_cons,Finset.erase_insert (by rwa [List.mem_toFinset])]
    have hmem : service∈(service::order).toFinset := List.mem_toFinset.mpr List.mem_cons_self
    by_cases hlast : order=[]
    · subst hlast
      have hstep : step declaring w (.exports p service)=
          some ((w.retag service).go p .inspecting) := by
        simp only [step,hs]
        rw [if_pos hmem,hleft,List.toFinset_nil,if_pos rfl]
      exact ⟨service,wholeRun_cons.mpr ⟨_,hstep,rfl⟩⟩
    · have hstep : step declaring w (.exports p service)=
          some ((w.retag service).go p (.building order.toFinset)) := by
        have hleft' : order.toFinset≠∅ := by
          rwa [ne_eq,List.toFinset_eq_empty_iff]
        simp only [step,hs]
        rw [if_pos hmem,hleft,if_neg hleft']
      obtain ⟨last,hrun⟩ := ih hlast hrest (go_stage_self p _)
      refine ⟨last,wholeRun_cons.mpr ⟨_,hstep,hrun.trans (congrArg some ?_)⟩⟩
      simp only [World.retag,World.go,Function.update_idem]

/-- The tag is claimed back, and the label is the push's own. -/
theorem run_claims {p : ι} (hs : w.stage p=.inspecting) (hshared : w.shared≠none) :
    wholeRun (step declaring) w [.inspects p,.exports p mlflow,.reads p]=
      some ((w.retag mlflow).go p .tagging) := by
  have hfirst : step declaring w (.inspects p)=some (w.go p .rebuilding) := by
    simp only [step,hs,hshared,if_true,if_false]
  have hsecond : step declaring (w.go p .rebuilding) (.exports p mlflow)=
      some ((w.retag mlflow).go p .reading) := by
    simp only [step,go_stage_self,if_true]
    simp only [World.retag,World.go,Function.update_idem]
  have hthird : step declaring ((w.retag mlflow).go p .reading) (.reads p)=
      some ((w.retag mlflow).go p .tagging) := by
    have hread : ((w.retag mlflow).go p .reading).shared=some mlflow := rfl
    simp only [step,go_stage_self,if_true,hread]
    simp only [World.go,Function.update_idem]
  exact wholeRun_cons.mpr ⟨_,hfirst,wholeRun_cons.mpr ⟨_,hsecond,
    wholeRun_cons.mpr ⟨_,hthird,rfl⟩⟩⟩

/-- What the shared tag names is published. -/
theorem run_publishes {p : ι} {service : Str} (hs : w.stage p=.tagging)
    (hshared : w.shared=some service) :
    ∃ last,wholeRun (step declaring) w [.tags p,.pushes p,.reports p]=some last ∧
      last.registry=some service ∧ last.stage p=.ended true := by
  have hfirst : step declaring w (.tags p)=
      some (World.go ⟨w.shared,w.shared,w.registry,w.stage⟩ p .pushing) := by
    simp [step,hs,hshared]
  refine ⟨_,wholeRun_cons.mpr ⟨_,hfirst,wholeRun_cons.mpr ⟨_,if_pos (go_stage_self p _),
    wholeRun_cons.mpr ⟨_,if_pos (go_stage_self p _),rfl⟩⟩⟩,hshared,go_stage_self p _⟩

/-- The events of one push on its own. -/
def pushEvents (p : ι) (order : List Str) : List (Event ι) :=
  order.map (Event.exports p)++[.inspects p,.exports p mlflow,.reads p]

/-- It is about to tag its own variant. -/
theorem run_pushEvents (p : ι) {order : List Str} (hne : order≠[]) (hnodup : order.Nodup)
    (shared : Option Str) :
    ∃ last : World ι,wholeRun (step order.toFinset) (World.initial order.toFinset shared)
        (pushEvents p order)=some last ∧
      last.stage p=.tagging ∧ last.shared=some mlflow := by
  obtain ⟨service,hbuild⟩ := @run_builds ι _ order.toFinset (World.initial order.toFinset shared)
    p order hne hnodup rfl
  have hclaim := @run_claims ι _ order.toFinset
    (((World.initial order.toFinset shared).retag service).go p .inspecting) p
    (go_stage_self p _) (Option.some_ne_none service)
  exact ⟨_,wholeRun_append.mpr ⟨_,hbuild,hclaim⟩,go_stage_self p _,rfl⟩

/-- What may be published, over every interleaving of pushes and other builds: the
service's own variant, or one whose export falls between the reading of some push
and its tagging. The label check does not close that window: every variant that
shares the tag can be published by a push that succeeds. -/
theorem published_variant (declaring : Finset Str) (shared : Option Str) :
    (∀ (events : List (Event ι)) (w : World ι),
      wholeRun (step declaring) (World.initial declaring shared) events=some w →
        ∀ service,w.registry=some service → service=mlflow ∨ Window events service) ∧
      ∀ (p : ι),∀ service∈declaring,∃ (events : List (Event ι)) (w : World ι),
        wholeRun (step declaring) (World.initial declaring shared) events=some w ∧
          w.registry=some service ∧ w.stage p=.ended true := by
  refine ⟨fun events w h => (run_traced h).registry,fun p service hservice => ?_⟩
  have hne : declaring.toList≠[] := by
    rw [ne_eq,Finset.toList_eq_nil]
    exact Finset.ne_empty_of_mem hservice
  obtain ⟨middle,hmiddle,hstage,-⟩ :=
    run_pushEvents p hne declaring.nodup_toList shared
  rw [Finset.toList_toFinset] at hmiddle
  have hforeign : step declaring middle (.foreign service)=some (middle.retag service) :=
    if_pos hservice
  obtain ⟨last,hlast,hregistry,hended⟩ :=
    @run_publishes ι _ declaring (middle.retag service) p service hstage rfl
  exact ⟨_,last,wholeRun_append.mpr ⟨_,hmiddle,wholeRun_cons.mpr ⟨_,hforeign,hlast⟩⟩,
    hregistry,hended⟩

/-- Nothing else exports, so what a push tags is its own. -/
structure Alone (p : ι) (w : World ι) : Prop where
  /-- The shared tag is the push's own when it tags. -/
  tagging : w.stage p=.tagging → w.shared=some mlflow
  /-- So is what it tagged. -/
  remote : ∀ service,w.remote=some service → service=mlflow
  /-- And what it published. -/
  registry : ∀ service,w.registry=some service → service=mlflow

theorem step_alone {p : ι} (h : step declaring w event=some next) (hpush : event.push=some p)
    (hw : Alone p w) : Alone p next := by
  have heffect := effect_of_step h
  refine ⟨fun hp => ?_,fun service hs => ?_,fun service hs => ?_⟩
  · rcases heffect.tagging p hp with ⟨-,hother⟩|⟨rfl,hread⟩
    · exact absurd hpush hother
    · have hv : (Event.reads p).variant=none := rfl
      rw [heffect.shared,hv,Option.none_or]
      exact hread
  · rcases heffect.remote with hkept|⟨q,rfl,hq,htagged⟩
    · rw [hkept] at hs
      exact hw.remote service hs
    · cases hpush
      rw [htagged,hw.tagging hq,Option.some.injEq] at hs
      exact hs.symm
  · rcases heffect.registry with hkept|hpushed
    · rw [hkept] at hs
      exact hw.registry service hs
    · rw [hpushed] at hs
      exact hw.remote service hs

theorem run_alone {p : ι} {shared : Option Str} {events : List (Event ι)}
    (h : wholeRun (step declaring) (World.initial declaring shared) events=some w) :
    (∀ event∈events,event.push=some p) → Alone p w := by
  refine @wholeRun_traced _ _ _ (fun events w => (∀ event∈events,event.push=some p) → Alone p w)
    (fun before middle event next hmiddle hstep hall => ?_) _ _ (fun _ => ?_) _ h
  · exact step_alone hstep (hall event (List.mem_append_right _ (List.mem_singleton_self _)))
      (hmiddle (fun e he => hall e (List.mem_append_left _ he)))
  · refine ⟨fun hp => ?_,fun service hs => ?_,fun service hs => ?_⟩
    · cases hp
    · cases hs
    · cases hs

/-- A push on its own. Whatever the order in which the services that share the tag
are exported, and whichever commands fail, it publishes nothing but its own
variant; and when none fails it publishes that and succeeds. -/
theorem push_alone (p : ι) (declaring : Finset Str) (shared : Option Str) :
    (∀ (events : List (Event ι)) (w : World ι),(∀ event∈events,event.push=some p) →
      wholeRun (step declaring) (World.initial declaring shared) events=some w →
        ∀ service,w.registry=some service → service=mlflow) ∧
      ∀ order : List Str,order.Nodup → order≠[] → order.toFinset=declaring →
        ∃ w : World ι,wholeRun (step declaring) (World.initial declaring shared)
            (pushEvents p order++[.tags p,.pushes p,.reports p])=some w ∧
          w.registry=some mlflow ∧ w.stage p=.ended true := by
  refine ⟨fun events w hall h => (run_alone h hall).registry,fun order hnodup hne horder => ?_⟩
  subst horder
  obtain ⟨middle,hmiddle,hstage,hshared⟩ := run_pushEvents p hne hnodup shared
  obtain ⟨last,hlast,hregistry,hended⟩ :=
    @run_publishes ι _ order.toFinset middle p mlflow hstage hshared
  exact ⟨last,wholeRun_append.mpr ⟨_,hmiddle,hlast⟩,hregistry,hended⟩

end MlopsPlatform.PushPublish
