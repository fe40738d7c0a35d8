import MlopsPlatform.ChartSecret
import MlopsPlatform.ConfigApply

/-!
# What deployments leave in the Secret

`kind-deploy` of the Makefile applies the Secret. That of make.ps1 deletes it and
creates it, since YAML is not to be piped through PowerShell. Of kubectl the
documented behaviour is used: an apply takes away what the last apply had and this
one has not, the whole of the data if this one has none, and what was created without
one is not remembered. So the Secret is the file it was last made from as long as one
entrypoint deploys, and a key that make.ps1 created stays when `.env` drops it and
make deploys.
-/

namespace MlopsPlatform.KindDeploy

open TextCodec ChartSecret ConfigApply StateRuns RunStages

/-- `.env`, as `--from-env-file` reads it. -/
structure EnvFile where
  /-- Its text. -/
  text : Str
  /-- What is read from it. -/
  secret : Secret text

/-- A Secret made from the file has no entry exactly if nothing is read from it. -/
theorem EnvFile.pairs_nil_iff (file : EnvFile) :
    envFilePairs file.text=[] ↔ ∀ key,file.secret.value key=none := by
  constructor
  · intro hnil key
    rw [Option.eq_none_iff_forall_ne_some]
    intro value hvalue
    have hmem := file.secret.assigned key value hvalue
    rw [hnil] at hmem
    exact List.not_mem_nil hmem
  · intro hnone
    rw [List.eq_nil_iff_forall_not_mem]
    rintro ⟨key,value⟩ hmem
    obtain ⟨found,hfound⟩ := file.secret.complete key value hmem
    rw [hnone key] at hfound
    cases hfound

/-- What a Secret made from the file has. -/
def EnvFile.config (file : EnvFile) : Config Str Str where
  value := file.secret.value
  isEmpty := decide (envFilePairs file.text=[])
  isEmpty_iff := by rw [decide_eq_true_iff,file.pairs_nil_iff]

/-- The kind cluster, as far as the Secret goes. -/
inductive Cluster where
  /-- There is none. -/
  | absent
  /-- It has no namespace for the release. -/
  | bare
  /-- It has, and the Secret may be in it. -/
  | namespaced (secret : Option (Managed Str Str))

/-- The Secret. -/
def secretOf : Cluster→Option (Managed Str Str)
  | .namespaced secret => secret
  | _ => none

/-- The commands that may fail by themselves. -/
inductive Call where
  /-- `kind get clusters` -/
  | getClusters
  /-- `kind create cluster` -/
  | createCluster
  /-- `kind delete cluster` -/
  | deleteCluster
  /-- What `kind-up` installs and waits for. -/
  | addOns
  /-- The target `build`. -/
  | build
  /-- `kind load docker-image` -/
  | loadImage
  /-- `kubectl get namespace` -/
  | getNamespace
  /-- `kubectl create namespace` -/
  | createNamespace
  /-- `kubectl create namespace --dry-run=client -o yaml | kubectl apply -f -` -/
  | applyNamespace
  /-- `kubectl delete secret` -/
  | deleteSecret
  /-- `kubectl create secret` -/
  | createSecret
  /-- `kubectl create secret --dry-run=client -o yaml | kubectl apply -f -` -/
  | applySecret
  /-- `helm upgrade --install`, and `kubectl get pods`. -/
  | release

/-- Which of them succeed. -/
abbrev Outcomes := Call→Bool

/-- The cluster is created if it is not listed, and kind refuses to create one that is
there. -/
def ensureCluster (ok : Outcomes) : Stage Cluster
  | .absent => if ok .createCluster=true then (.bare,true) else (.absent,false)
  | cluster => (cluster,ok .getClusters)

/-- `kind delete cluster`, which takes everything in it. -/
def deleteCluster (ok : Outcomes) : Stage Cluster := fun cluster =>
  if ok .deleteCluster=true then (.absent,true) else (cluster,false)

/-- The Makefile applies the namespace. -/
def applyNamespace (ok : Outcomes) : Stage Cluster
  | .absent => (.absent,false)
  | .bare => if ok .applyNamespace=true then (.namespaced none,true) else (.bare,false)
  | .namespaced secret => (.namespaced secret,ok .applyNamespace)

/-- make.ps1 creates it if it was not found. One that is there and was not found, since
the exit code of `get` is not looked at, kubectl refuses to create. -/
def createNamespace (ok : Outcomes) : Stage Cluster
  | .absent => (.absent,false)
  | .bare => if ok .createNamespace=true then (.namespaced none,true) else (.bare,false)
  | .namespaced secret => (.namespaced secret,ok .getNamespace)

/-- A command on the Secret, in the namespace. -/
def onSecret (effect : Effect Str Str) (ok : Bool) : Stage Cluster
  | .namespaced secret =>
    if ok=true then (.namespaced (effect.act secret),true) else (.namespaced secret,false)
  | cluster => (cluster,false)

/-- Where `kind-deploy` is run from. -/
inductive Entrypoint where
  /-- The Makefile. -/
  | make
  /-- make.ps1 -/
  | ps1
deriving DecidableEq

/-- How the namespace comes to be there. -/
def Entrypoint.namespace : Entrypoint→Outcomes→Stage Cluster
  | .make => applyNamespace
  | .ps1 => createNamespace

/-- How the Secret does. -/
def Entrypoint.secret : Entrypoint→Outcomes→EnvFile→List (Stage Cluster)
  | .make,ok,file => [onSecret (.applies file.config) (ok .applySecret)]
  | .ps1,ok,file => [onSecret .removes (ok .deleteSecret),
      onSecret (.recreates file.config) (ok .createSecret)]

/-- `kind-up` -/
def kindUp (ok : Outcomes) : List (Stage Cluster) := [ensureCluster ok,leaves (ok .addOns)]

/-- `kind-down` -/
def kindDown (ok : Outcomes) : List (Stage Cluster) := [deleteCluster ok]

/-- `kind-deploy`, up to the Secret: `kind-up`, `build`, the test for `.env`, the image and
the namespace. -/
def prepare (entrypoint : Entrypoint) (ok : Outcomes) (present : Bool) : List (Stage Cluster) :=
  kindUp ok++[leaves (ok .build),leaves present,leaves (ok .loadImage),entrypoint.namespace ok]

/-- `kind-deploy` -/
def kindDeploy (entrypoint : Entrypoint) (ok : Outcomes) : Option EnvFile→List (Stage Cluster)
  | none => prepare entrypoint ok false
  | some file =>
    prepare entrypoint ok true++(entrypoint.secret ok file++[leaves (ok .release)])

/-- A target. -/
inductive Action where
  /-- `kind-up` -/
  | kindUp
  /-- `kind-down` -/
  | kindDown
  /-- `kind-deploy`, with the `.env` it finds. -/
  | kindDeploy (entrypoint : Entrypoint) (file : Option EnvFile)

/-- A target that is run, and what its commands come to. -/
structure Event where
  /-- The target. -/
  action : Action
  /-- Which commands succeed. -/
  ok : Outcomes

/-- The commands of a target. -/
def Event.stages (event : Event) : List (Stage Cluster) :=
  match event.action with
  | .kindUp => KindDeploy.kindUp event.ok
  | .kindDown => KindDeploy.kindDown event.ok
  | .kindDeploy entrypoint file => KindDeploy.kindDeploy entrypoint event.ok file

/-- The cluster afterwards. -/
def step (cluster : Cluster) (event : Event) : Cluster := (inOrder event.stages cluster).1

/-- Whether the target succeeds. -/
def succeeds (cluster : Cluster) (event : Event) : Bool := (inOrder event.stages cluster).2

/-- What a deployment that came as far as the Secret does to it. -/
def Entrypoint.effect : Entrypoint→Outcomes→EnvFile→Effect Str Str
  | .make,ok,file => if ok .applySecret=true then .applies file.config else .keeps
  | .ps1,ok,file =>
    if ok .deleteSecret=true then
      if ok .createSecret=true then .recreates file.config else .removes
    else .keeps

/-- What a target does to the Secret. -/
def effect (cluster : Cluster) (event : Event) : Effect Str Str :=
  match event.action with
  | .kindUp => .keeps
  | .kindDown => if event.ok .deleteCluster=true then .removes else .keeps
  | .kindDeploy _ none => .keeps
  | .kindDeploy entrypoint (some file) =>
    if (inOrder (prepare entrypoint event.ok true) cluster).2=true then
      entrypoint.effect event.ok file
    else .keeps

/-- What the targets of a run do to it. -/
def trace (cluster : Cluster) (events : List Event) : List (Effect Str Str) :=
  (visits step cluster events).map (fun visit => effect visit.1 visit.2)

variable {cluster : Cluster} {ok : Outcomes} {file : EnvFile} {entrypoint : Entrypoint}

theorem effect_kindDown (cluster : Cluster) (ok : Outcomes) :
    effect cluster ⟨.kindDown,ok⟩=if ok .deleteCluster=true then .removes else .keeps := rfl

theorem effect_kindDeploy (cluster : Cluster) (entrypoint : Entrypoint) (file : EnvFile)
    (ok : Outcomes) : effect cluster ⟨.kindDeploy entrypoint (some file),ok⟩=
      if (inOrder (prepare entrypoint ok true) cluster).2=true then entrypoint.effect ok file
      else .keeps := rfl

theorem ensureCluster_spares (ok : Outcomes) : Spares secretOf (ensureCluster ok) := by
  intro cluster
  cases cluster with
  | absent =>
    rw [ensureCluster]
    split <;> rfl
  | bare => rfl
  | namespaced secret => rfl

theorem namespace_spares (entrypoint : Entrypoint) (ok : Outcomes) :
    Spares secretOf (entrypoint.namespace ok) := by
  intro cluster
  cases cluster with
  | absent => cases entrypoint <;> rfl
  | bare =>
    cases entrypoint
    · change secretOf (applyNamespace ok .bare).1=none
      rw [applyNamespace]
      split <;> rfl
    · change secretOf (createNamespace ok .bare).1=none
      rw [createNamespace]
      split <;> rfl
  | namespaced secret => cases entrypoint <;> rfl

theorem kindUp_spares (ok : Outcomes) : Spares secretOf (inOrder (kindUp ok)) := by
  refine inOrder_spares (fun stage h => ?_)
  simp only [kindUp,List.mem_cons,List.not_mem_nil,or_false] at h
  rcases h with rfl|rfl
  · exact ensureCluster_spares ok
  · exact leaves_spares secretOf _

theorem prepare_spares (entrypoint : Entrypoint) (ok : Outcomes) (present : Bool) :
    Spares secretOf (inOrder (prepare entrypoint ok present)) := by
  refine inOrder_spares (fun stage h => ?_)
  simp only [prepare,kindUp,List.mem_append,List.mem_cons,List.not_mem_nil,or_false] at h
  rcases h with (rfl|rfl)|rfl|rfl|rfl|rfl
  · exact ensureCluster_spares ok
  · exact leaves_spares secretOf _
  · exact leaves_spares secretOf _
  · exact leaves_spares secretOf _
  · exact leaves_spares secretOf _
  · exact namespace_spares entrypoint ok

/-- A namespace that could be made is there. -/
theorem namespace_there (h : (entrypoint.namespace ok cluster).2=true) :
    ∃ secret,(entrypoint.namespace ok cluster).1=.namespaced secret := by
  cases cluster with
  | absent => cases entrypoint <;> cases h
  | bare =>
    cases entrypoint
    · change (applyNamespace ok .bare).2=true at h
      change ∃ secret,(applyNamespace ok .bare).1=.namespaced secret
      rw [applyNamespace] at h ⊢
      split at h
      · rename_i happlied
        rw [if_pos happlied]
        exact ⟨none,rfl⟩
      · cases h
    · change (createNamespace ok .bare).2=true at h
      change ∃ secret,(createNamespace ok .bare).1=.namespaced secret
      rw [createNamespace] at h ⊢
      split at h
      · rename_i hcreated
        rw [if_pos hcreated]
        exact ⟨none,rfl⟩
      · cases h
  | namespaced secret => cases entrypoint <;> exact ⟨secret,rfl⟩

/-- A deployment that comes as far as the Secret has the namespace for it. -/
theorem prepare_there {present : Bool}
    (h : (inOrder (prepare entrypoint ok present) cluster).2=true) :
    (inOrder (prepare entrypoint ok present) cluster).1=.namespaced (secretOf cluster) := by
  have hspares := prepare_spares entrypoint ok present cluster
  have hcut : prepare entrypoint ok present=
      (kindUp ok++[leaves (ok .build),leaves present,leaves (ok .loadImage)])++
        [entrypoint.namespace ok] := rfl
  have hthere : ∃ secret,
      (inOrder (prepare entrypoint ok present) cluster).1=.namespaced secret := by
    rw [hcut,inOrder_append] at h ⊢
    split at h
    · rename_i hbefore
      rw [if_pos hbefore]
      rw [inOrder_cons] at h ⊢
      split at h
      · rename_i hnamespace
        rw [if_pos hnamespace]
        exact namespace_there hnamespace
      · cases h
    · contradiction
  obtain ⟨secret,hsecret⟩ := hthere
  rw [hsecret] at hspares ⊢
  exact congrArg _ hspares

/-- What the commands on the Secret do to it. -/
theorem secret_effect (entrypoint : Entrypoint) (ok : Outcomes) (file : EnvFile)
    (secret : Option (Managed Str Str)) :
    secretOf (inOrder (entrypoint.secret ok file++[leaves (ok .release)]) (.namespaced secret)).1=
      (entrypoint.effect ok file).act secret := by
  cases entrypoint with
  | make =>
    simp only [Entrypoint.secret,Entrypoint.effect,List.cons_append,List.nil_append,inOrder,
      onSecret,leaves]
    by_cases happly : ok .applySecret=true
    · simp only [happly,if_true]
      split <;> rfl
    · simp only [happly]
      rfl
  | ps1 =>
    simp only [Entrypoint.secret,Entrypoint.effect,List.cons_append,List.nil_append,inOrder,
      onSecret,leaves]
    by_cases hdelete : ok .deleteSecret=true
    · by_cases hcreate : ok .createSecret=true
      · simp only [hdelete,hcreate,if_true]
        split <;> rfl
      · simp only [hdelete,hcreate,if_true]
        rfl
    · simp only [hdelete]
      rfl

/-- What a target does to the Secret is what it leaves of it. -/
theorem step_effect (cluster : Cluster) (event : Event) :
    secretOf (step cluster event)=(effect cluster event).act (secretOf cluster) := by
  obtain ⟨action,ok⟩ := event
  cases action with
  | kindUp => exact kindUp_spares ok cluster
  | kindDown =>
    rw [effect_kindDown]
    change secretOf (inOrder [deleteCluster ok] cluster).1=_
    rw [inOrder_cons,deleteCluster]
    by_cases hdelete : ok .deleteCluster=true
    · rw [if_pos hdelete,if_pos hdelete]
      rfl
    · rw [if_neg hdelete,if_neg hdelete]
      rfl
  | kindDeploy entrypoint file =>
    cases file with
    | none => exact prepare_spares entrypoint ok false cluster
    | some file =>
      rw [effect_kindDeploy]
      change secretOf (inOrder (prepare entrypoint ok true++_) cluster).1=_
      rw [inOrder_append]
      by_cases hprepared : (inOrder (prepare entrypoint ok true) cluster).2=true
      · rw [if_pos hprepared,if_pos hprepared,prepare_there hprepared]
        exact secret_effect entrypoint ok file _
      · rw [if_neg hprepared,if_neg hprepared]
        exact prepare_spares entrypoint ok true cluster

/-- Every target but `kind-down` begins with the cluster. -/
theorem stages_begin {event : Event} (h : event.action≠.kindDown) :
    ∃ rest,event.stages=ensureCluster event.ok::rest := by
  obtain ⟨action,ok⟩ := event
  cases action with
  | kindUp => exact ⟨_,rfl⟩
  | kindDown => exact absurd rfl h
  | kindDeploy entrypoint file => cases file <;> exact ⟨_,rfl⟩

/-- It fails when there is none and none can be created. -/
theorem inOrder_absent {event : Event} (h : event.action≠.kindDown)
    (hcreate : event.ok .createCluster=false) :
    inOrder event.stages .absent=(.absent,false) := by
  obtain ⟨rest,hrest⟩ := stages_begin h
  have hensure : ensureCluster event.ok .absent=(.absent,false) := by
    rw [ensureCluster,hcreate,if_neg Bool.false_ne_true]
  rw [hrest,inOrder_cons,hensure,if_neg Bool.false_ne_true]

/-- There is none then afterwards, whatever the target. -/
theorem step_absent {event : Event} (hcreate : event.ok .createCluster=false) :
    step .absent event=.absent := by
  by_cases h : event.action=.kindDown
  · obtain ⟨action,ok⟩ := event
    cases h
    change (inOrder [deleteCluster ok] .absent).1=.absent
    rw [inOrder_cons,deleteCluster]
    split <;> rfl
  · rw [step,inOrder_absent h hcreate]

/-- The Secret after a run is the history of what its targets did to it. -/
theorem run_secret (events : List Event) (cluster : Cluster) :
    secretOf (run step cluster events)=
      (trace cluster events).foldl (fun object effect => effect.act object)
        (secretOf cluster) := by
  induction events generalizing cluster with
  | nil => rfl
  | cons event events ih =>
    have htrace : trace cluster (event::events)=
        effect cluster event::trace (step cluster event) events := rfl
    rw [run_cons,ih,htrace,List.foldl_cons,step_effect]

/-- From no cluster at all. -/
theorem run_history (events : List Event) :
    secretOf (run step .absent events)=history (trace .absent events) := run_secret events .absent

/-- In any run, the Secret has a value under a key exactly if that is what the last command
on it applied, or if make.ps1 created the Secret with it and, since, no `.env` that was
applied has named the key and none without entries followed one that has some. -/
theorem secret_live_iff (events : List Event) (key value : Str) :
    liveAt (secretOf (run step .absent events)) key=some value ↔
      AppliedLast key value (trace .absent events) ∨
        CreatedBefore key value (trace .absent events) := by
  rw [run_history]
  exact liveAt_history_iff

/-- A deployment that succeeds came as far as the Secret and left it with the file. -/
theorem deployed_effect
    (h : succeeds cluster ⟨.kindDeploy entrypoint (some file),ok⟩=true) :
    effect cluster ⟨.kindDeploy entrypoint (some file),ok⟩=
      match entrypoint with
      | .make => .applies file.config
      | .ps1 => .recreates file.config := by
  change (inOrder (prepare entrypoint ok true++_) cluster).2=true at h
  rw [inOrder_append] at h
  split at h
  · rename_i hprepared
    rw [effect_kindDeploy,if_pos hprepared]
    rw [prepare_there hprepared] at h
    cases entrypoint with
    | make =>
      simp only [Entrypoint.secret,List.cons_append,List.nil_append,inOrder,onSecret] at h
      rw [Entrypoint.effect]
      by_cases happly : ok .applySecret=true
      · exact if_pos happly
      · simp [happly] at h
    | ps1 =>
      simp only [Entrypoint.secret,List.cons_append,List.nil_append,inOrder,onSecret] at h
      rw [Entrypoint.effect]
      by_cases hdelete : ok .deleteSecret=true
      · rw [if_pos hdelete]
        by_cases hcreate : ok .createSecret=true
        · exact if_pos hcreate
        · simp [hdelete,hcreate] at h
      · simp [hdelete] at h
  · contradiction

/-- The file names a key exactly if a Secret made from it has one. -/
theorem config_isSome_iff {key : Str} :
    (∃ kept,file.config.value key=some kept) ↔ ∃ found,(key,found)∈envFilePairs file.text := by
  constructor
  · rintro ⟨kept,h⟩
    exact ⟨kept,file.secret.assigned key kept h⟩
  · rintro ⟨found,h⟩
    exact file.secret.complete key found h

theorem trace_concat (events : List Event) (event : Event) (cluster : Cluster) :
    trace cluster (events++[event])=
      trace cluster events++[effect (run step cluster events) event] := by
  rw [trace,visits_concat,List.map_append,List.map_singleton,trace]

/-- An effect in the trace is that of a target of the run, and those behind it are the
effects of the targets behind that one. -/
theorem trace_split {events : List Event} {cluster : Cluster}
    {before after : List (Effect Str Str)} {a : Effect Str Str}
    (h : trace cluster events=before++a::after) :
    ∃ first event later,events=first++event::later ∧
      a=effect (run step cluster first) event ∧
      after=trace (run step cluster (first++[event])) later := by
  rw [trace,List.map_eq_append_iff] at h
  obtain ⟨visited,behind,hvisits,-,hbehind⟩ := h
  rw [List.map_eq_cons_iff] at hbehind
  obtain ⟨visit,rest,rfl,ha,hafter⟩ := hbehind
  obtain ⟨first,later,hevents,hvisit,hrest⟩ := visits_split hvisits
  exact ⟨first,visit.2,later,hevents,by rw [←ha,hvisit],by rw [←hafter,hrest,trace]⟩

/-- A deployment leaves the Secret, takes it away, or writes its own. -/
theorem Entrypoint.effect_cases (entrypoint : Entrypoint) (ok : Outcomes) (file : EnvFile) :
    entrypoint.effect ok file=.keeps ∨ entrypoint.effect ok file=.removes ∨
      (entrypoint=.make ∧ entrypoint.effect ok file=.applies file.config) ∨
      (entrypoint=.ps1 ∧ entrypoint.effect ok file=.recreates file.config) := by
  cases entrypoint with
  | make =>
    rw [Entrypoint.effect]
    split
    · exact .inr (.inr (.inl ⟨rfl,rfl⟩))
    · exact .inl rfl
  | ps1 =>
    rw [Entrypoint.effect]
    split
    · split
      · exact .inr (.inr (.inr ⟨rfl,rfl⟩))
      · exact .inr (.inl rfl)
    · exact .inl rfl

/-- So does every target, and only a deployment writes it. -/
theorem effect_cases (cluster : Cluster) (event : Event) :
    effect cluster event=.keeps ∨ effect cluster event=.removes ∨
      (∃ file,event.action=.kindDeploy .make (some file) ∧
        effect cluster event=.applies file.config) ∨
      ∃ file,event.action=.kindDeploy .ps1 (some file) ∧
        effect cluster event=.recreates file.config := by
  obtain ⟨action,ok⟩ := event
  cases action with
  | kindUp => exact .inl rfl
  | kindDown =>
    rw [effect_kindDown]
    split
    · exact .inr (.inl rfl)
    · exact .inl rfl
  | kindDeploy entrypoint file =>
    cases file with
    | none => exact .inl rfl
    | some file =>
      rw [effect_kindDeploy]
      split
      · rcases entrypoint.effect_cases ok file with h|h|⟨rfl,h⟩|⟨rfl,h⟩
        · exact .inl h
        · exact .inr (.inl h)
        · exact .inr (.inr (.inl ⟨file,rfl,h⟩))
        · exact .inr (.inr (.inr ⟨file,rfl,h⟩))
      · exact .inl rfl

/-- The Makefile's deployment applies the Secret, and that of make.ps1 creates it. -/
theorem effect_writes {event : Event} {config : Config Str Str} :
    (effect cluster event=.applies config →
      ∃ file,event.action=.kindDeploy .make (some file) ∧ config=file.config) ∧
    (effect cluster event=.recreates config →
      ∃ file,event.action=.kindDeploy .ps1 (some file) ∧ config=file.config) := by
  rcases effect_cases cluster event with h|h|⟨file,haction,h⟩|⟨file,haction,h⟩ <;>
    rw [h]
  · exact ⟨fun heq => (by cases heq),fun heq => (by cases heq)⟩
  · exact ⟨fun heq => (by cases heq),fun heq => (by cases heq)⟩
  · refine ⟨fun heq => ?_,fun heq => (by cases heq)⟩
    cases heq
    exact ⟨file,haction,rfl⟩
  · refine ⟨fun heq => (by cases heq),fun heq => ?_⟩
    cases heq
    exact ⟨file,haction,rfl⟩

/-- After a deployment that succeeded, whatever was run before it, the Secret has what the
file assigns. It has nothing else exactly if make.ps1 deployed, or the file has no entry
and what was last applied had one, or the file names every key that make.ps1 created
before and that nothing applied has named or taken away since. -/
theorem deployed_exact_iff (events : List Event) (entrypoint : Entrypoint) (file : EnvFile)
    (ok : Outcomes)
    (h : succeeds (run step .absent events) ⟨.kindDeploy entrypoint (some file),ok⟩=true) :
    (∀ key value,file.config.value key=some value →
      liveAt (secretOf (run step .absent (events++[⟨.kindDeploy entrypoint (some file),ok⟩]))) key=
        some value) ∧
    ((∀ key,liveAt (secretOf (run step .absent
        (events++[⟨.kindDeploy entrypoint (some file),ok⟩]))) key=file.config.value key) ↔
      entrypoint=.ps1 ∨
        (envFilePairs file.text=[] ∧
          ∃ key value,AppliedLast key value (trace .absent events)) ∨
        ∀ key value,CreatedBefore key value (trace .absent events) →
          ∃ found,(key,found)∈envFilePairs file.text) := by
  have hafter : secretOf (run step .absent
      (events++[⟨.kindDeploy entrypoint (some file),ok⟩]))=
        (effect (run step .absent events) ⟨.kindDeploy entrypoint (some file),ok⟩).act
          (history (trace .absent events)) := by
    rw [run_history,trace_concat,history_concat]
  rw [hafter,deployed_effect h]
  cases entrypoint with
  | make =>
    dsimp only
    refine ⟨fun key value hvalue => by rw [liveAt_applies,hvalue]; rfl,?_⟩
    have hempty : file.config.isEmpty=true ↔ envFilePairs file.text=[] := decide_eq_true_iff
    rw [applied_exact_iff,hempty]
    simp only [config_isSome_iff]
    exact ⟨.inr,fun h => h.resolve_left (fun heq => by cases heq)⟩
  | ps1 => exact ⟨fun key value hvalue => hvalue,iff_of_true (fun _ => rfl) (.inl rfl)⟩

/-- The file with this text, read as kubectl may read it. -/
def fileOf (text : String) : EnvFile := ⟨str text,firstSecret (str text)⟩

/-- A deployment of such a file whose commands all succeed. -/
def deployment (entrypoint : Entrypoint) (text : String) : Event :=
  ⟨.kindDeploy entrypoint (some (fileOf text)),fun _ => true⟩

/-- A key that make.ps1 deployed and `.env` no longer has stays when make deploys. -/
theorem deployed_exact_iff_sample :
    ¬∀ key,liveAt (secretOf (run step .absent ([deployment .ps1 "KEPT=1\nDROPPED=2\n"]++
      [deployment .make "KEPT=1\n"]))) key=(fileOf "KEPT=1\n").config.value key := by
  intro hexact
  have hiff := (deployed_exact_iff [deployment .ps1 "KEPT=1\nDROPPED=2\n"] .make
    (fileOf "KEPT=1\n") (fun _ => true) (by decide)).2
  have hpairs : envFilePairs (fileOf "KEPT=1\n").text=[(str "KEPT",str "1")] := by decide
  rcases hiff.mp hexact with hps1|⟨hnil,-⟩|hnamed
  · cases hps1
  · rw [hpairs] at hnil
    cases hnil
  · have hcreated : CreatedBefore (str "DROPPED") (str "2")
        (trace .absent [deployment .ps1 "KEPT=1\nDROPPED=2\n"]) :=
      ⟨[],_,[],rfl,by decide,fun _ h => absurd h List.not_mem_nil,.nil⟩
    obtain ⟨found,hfound⟩ := hnamed _ _ hcreated
    rw [hpairs,List.mem_singleton,Prod.mk.injEq] at hfound
    exact absurd hfound.1 (by decide)

/-- When only one entrypoint deploys, the Secret is exactly the file of the last deployment
that came as far as writing it. -/
theorem one_entrypoint_exact (entrypoint : Entrypoint) (events : List Event)
    (honly : ∀ event∈events,∀ other file,event.action=.kindDeploy other file → other=entrypoint)
    (object : Managed Str Str) (h : secretOf (run step .absent events)=some object) :
    ∃ before event after file,events=before++event::after ∧
      event.action=.kindDeploy entrypoint (some file) ∧ object.live=file.config.value ∧
      ∀ effect∈trace (run step .absent (before++[event])) after,effect=.keeps := by
  have hsource : ∀ a∈trace .absent events,∃ cluster,∃ event∈events,a=effect cluster event := by
    intro a ha
    obtain ⟨before,after,hsplit⟩ := List.append_of_mem ha
    obtain ⟨first,event,later,hevents,heq,-⟩ := trace_split hsplit
    exact ⟨_,event,by rw [hevents]; exact List.mem_append_right _ List.mem_cons_self,heq⟩
  rw [run_history] at h
  cases entrypoint with
  | make =>
    have hnone : ∀ a∈trace .absent events,∀ config,a≠.recreates config := by
      rintro a ha config rfl
      obtain ⟨cluster,event,hevent,heq⟩ := hsource _ ha
      obtain ⟨file,haction,-⟩ := effect_writes.2 heq.symm
      cases honly event hevent _ _ haction
    obtain ⟨hlive,before,a,after,hsplit,happlies,hkeeps⟩ := history_applied hnone h
    obtain ⟨first,event,later,hevents,heq,hafter⟩ := trace_split hsplit
    rw [happlies] at heq
    obtain ⟨file,haction,hconfig⟩ := effect_writes.1 heq.symm
    rw [←hlive,hconfig]
    exact ⟨first,event,later,file,hevents,haction,rfl,hafter ▸ hkeeps⟩
  | ps1 =>
    have hnone : ∀ a∈trace .absent events,∀ config,a≠.applies config := by
      rintro a ha config rfl
      obtain ⟨cluster,event,hevent,heq⟩ := hsource _ ha
      obtain ⟨file,haction,-⟩ := effect_writes.1 heq.symm
      cases honly event hevent _ _ haction
    obtain ⟨before,a,after,hsplit,⟨config,hrecreates,hlive⟩,hkeeps⟩ := history_created hnone h
    obtain ⟨first,event,later,hevents,heq,hafter⟩ := trace_split hsplit
    rw [hrecreates] at heq
    obtain ⟨file,haction,hconfig⟩ := effect_writes.2 heq.symm
    rw [hlive,hconfig]
    exact ⟨first,event,later,file,hevents,haction,rfl,hafter ▸ hkeeps⟩

theorem one_entrypoint_exact_sample :
    ∃ before event after file,
      [deployment .ps1 "KEPT=1\nDROPPED=2\n",deployment .ps1 "KEPT=1\n"]=before++event::after ∧
      event.action=.kindDeploy .ps1 (some file) ∧
      (fileOf "KEPT=1\n").config.value=file.config.value ∧
      ∀ effect∈trace (run step .absent (before++[event])) after,effect=.keeps := by
  refine one_entrypoint_exact .ps1
    [deployment .ps1 "KEPT=1\nDROPPED=2\n",deployment .ps1 "KEPT=1\n"] ?_
    ⟨(fileOf "KEPT=1\n").config.value,.nothing⟩ rfl
  intro event hevent other file haction
  simp only [List.mem_cons,List.not_mem_nil,or_false] at hevent
  rcases hevent with rfl|rfl <;> cases haction <;> rfl

end MlopsPlatform.KindDeploy
