import MlopsPlatform.KindDeploy
import MlopsPlatform.ShellWords

/-!
# The cluster tier's own cluster

The cluster tier installs the chart on a kind cluster of its own, and both that one and
the one `kind-up` makes publish the host's ports 80 and 443, so that kind cannot create
the second while the first is there, nor either while a third cluster made from the
same file is. The tier names a conflict before it comes to that,
takes a cluster it left behind for its own, and empties its namespace. It deletes the
cluster when its tests are through, but a set-up that fails does not come to the
deletion. What follows holds however the operator's targets and the tier's sessions
are interleaved.
-/

namespace MlopsPlatform.ClusterTier

open TextCodec TextLines TextStrip ShellWords ConfigApply KindDeploy StateRuns RunStages

/-- `TEST_CLUSTER` -/
def testCluster : Str := str "mlops-platform-tests"

/-- `KIND_CLUSTER` -/
def kindCluster : Str := str "mlops-platform"

/-- A kind cluster that is neither of the two. -/
structure OtherCluster where
  /-- Its name. -/
  name : Str
  /-- Kind accepts no other characters, -/
  plain : name.all isNameChar=true
  /-- and no empty name. -/
  nonempty : name≠[]
  /-- It is not the tier's. -/
  notTier : name≠testCluster
  /-- Whether it has the host's ports, as one that `kind-up` made under this name has. -/
  holdsPorts : Bool

/-- The kind clusters of a machine. -/
structure Machine where
  /-- The one `kind-up` makes. -/
  operator : Cluster
  /-- The tier's. -/
  tier : Cluster
  /-- The others. -/
  others : List OtherCluster

/-- Whether there is one. -/
def present : Cluster→Bool
  | .absent => false
  | _ => true

/-- Whether one of the others has the host's ports. -/
def heldElsewhere (machine : Machine) : Bool := machine.others.any OtherCluster.holdsPorts

/-- The names of the clusters that are there. -/
def names (machine : Machine) : List Str :=
  (if present machine.operator=true then [kindCluster] else [])++
    (if present machine.tier=true then [testCluster] else [])++
      machine.others.map OtherCluster.name

/-- What `kind get clusters` prints, if it can be run. -/
def listing (ok : Bool) (machine : Machine) : Option Str :=
  if ok=true then some (printed (names machine)) else none

/-- `str.split` -/
def splitWords (text : Str) : List Str := (text.splitOnP isSpace).filter (fun word => word≠[])

/-- `Cluster.exists` -/
def clusterExists (listed : Option Str) : Bool :=
  match listed with
  | none => false
  | some stdout => (splitWords stdout).contains testCluster

/-- `Cluster.clusters` -/
def clusters (listed : Option Str) : List Str :=
  match listed with
  | none => []
  | some stdout => (splitWords stdout).filter (fun name => name≠str "No")

/-- The calls of a session that may fail by themselves. -/
inductive Call where
  /-- `kind get clusters`, for the other clusters. -/
  | listOthers
  /-- `kind get clusters`, for its own. -/
  | listOwn
  /-- `kind create cluster` -/
  | createCluster
  /-- What `create` applies and waits for. -/
  | addOns
  /-- `kind load docker-image` -/
  | loadImage
  /-- `kubectl delete namespace`, which waits until it is gone. -/
  | deleteNamespace
  /-- `kubectl create namespace` -/
  | createNamespace
  /-- `kubectl create secret` -/
  | createSecret
  /-- `helm upgrade --install` -/
  | install
  /-- `kind delete cluster` -/
  | destroy

/-- A session of the tier: the fixture `cluster`. -/
structure Session where
  /-- The `.env` it finds. -/
  file : Option EnvFile
  /-- Whether `KEEP_TEST_CLUSTER` is set. -/
  keep : Bool
  /-- Which calls succeed. -/
  ok : Call→Bool

/-- `Cluster.refuse_a_port_conflict` -/
def refuseAPortConflict (session : Session) : Stage Machine := fun machine =>
  (machine,((clusters (listing (session.ok .listOthers) machine)).filter
    (fun name => name≠testCluster)).isEmpty)

/-- The cluster is created if it is not listed. Kind refuses to create one that is there,
and one whose ports are taken. -/
def createMissing (session : Session) : Stage Machine := fun machine =>
  if clusterExists (listing (session.ok .listOwn) machine)=true then (machine,true)
  else if present machine.tier=false ∧ present machine.operator=false ∧
      heldElsewhere machine=false ∧ session.ok .createCluster=true then
    ({machine with tier := .bare},true)
  else (machine,false)

/-- A command on the tier's cluster. -/
def onTier (stage : Stage Cluster) : Stage Machine := fun machine =>
  ({machine with tier := (stage machine.tier).1},(stage machine.tier).2)

/-- `kubectl delete namespace --ignore-not-found` -/
def deleteNamespace (ok : Bool) : Stage Cluster
  | .absent => (.absent,false)
  | .bare => (.bare,ok)
  | .namespaced secret => if ok=true then (.bare,true) else (.namespaced secret,false)

/-- `kubectl create namespace` -/
def createNamespace (ok : Bool) : Stage Cluster
  | .bare => if ok=true then (.namespaced none,true) else (.bare,false)
  | cluster => (cluster,false)

/-- `kubectl create secret`, from the `.env` that is there. -/
def createSecret (file : Option EnvFile) (ok : Bool) : Stage Cluster
  | .namespaced none =>
    match file with
    | none => (.namespaced none,false)
    | some file =>
      if ok=true then (.namespaced (some ⟨file.config.value,.nothing⟩),true)
      else (.namespaced none,false)
  | cluster => (cluster,false)

/-- `Cluster.create`, behind the guard. -/
def create (session : Session) : List (Stage Machine) :=
  [createMissing session,leaves (session.ok .addOns)]

/-- `Cluster.create_namespace_and_secret` -/
def createNamespaceAndSecret (session : Session) : List (Stage Machine) :=
  [onTier (deleteNamespace (session.ok .deleteNamespace)),
    onTier (createNamespace (session.ok .createNamespace)),
    onTier (createSecret session.file (session.ok .createSecret))]

/-- What the fixture does before the tests, but for the guard. -/
def unguarded (session : Session) : List (Stage Machine) :=
  create session++leaves (session.ok .loadImage)::
    (createNamespaceAndSecret session++[leaves (session.ok .install)])

/-- What the fixture does before the tests. -/
def setUp (session : Session) : List (Stage Machine) :=
  refuseAPortConflict session::unguarded session

/-- The fixture has its tests run, and deletes the cluster behind them. -/
def tearsDown (machine : Machine) (session : Session) : Bool :=
  (inOrder (setUp session) machine).2 && !session.keep && session.ok .destroy

/-- What happens on the machine. -/
inductive Happening where
  /-- The operator runs a target. -/
  | target (event : Event)
  /-- The cluster tier is run. -/
  | session (session : Session)

/-- Kind cannot create the operator's cluster while the tier's or a third one has the ports. -/
def hindered (machine : Machine) (event : Event) : Event where
  action := event.action
  ok call :=
    match call with
    | .createCluster => event.ok .createCluster && !present machine.tier && !heldElsewhere machine
    | call => event.ok call

/-- The machine afterwards. -/
def step (machine : Machine) : Happening→Machine
  | .target event =>
    {machine with operator := KindDeploy.step machine.operator (hindered machine event)}
  | .session session =>
    if tearsDown machine session=true then
      {(inOrder (setUp session) machine).1 with tier := .absent}
    else (inOrder (setUp session) machine).1

/-- A machine without either cluster. -/
def fresh (others : List OtherCluster) : Machine := ⟨.absent,.absent,others⟩

/-- The machine after a run, from one without either cluster. -/
def reached (others : List OtherCluster) (happenings : List Happening) : Machine :=
  run step (fresh others) happenings

/-- A session ends with its cluster there. -/
def LeftBehind (visit : Machine×Happening) : Prop :=
  ∃ session,visit.2=.session session ∧ tearsDown visit.1 session=false ∧
    present (inOrder (setUp session) visit.1).1.tier=true

/-- A session deletes its cluster. -/
def TornDown (visit : Machine×Happening) : Prop :=
  ∃ session,visit.2=.session session ∧ tearsDown visit.1 session=true

/-- The two clusters are not both there, and neither is while a third one has the ports. -/
structure Exclusive (machine : Machine) : Prop where
  /-- Of the two, one is not there. -/
  two : present machine.operator=false ∨ present machine.tier=false
  /-- The tier's is not there with a third one that has the ports. -/
  third : present machine.tier=true → heldElsewhere machine=false

/-- The operator's targets. -/
def targets (happenings : List Happening) : List Event :=
  happenings.filterMap (fun happening =>
    match happening with
    | .target event => some event
    | .session _ => none)

/-- The same target, none of whose calls succeeds that did not. -/
def Weaker (event target : Event) : Prop :=
  event.action=target.action ∧ ∀ call,event.ok call=true → target.ok call=true

variable {machine : Machine} {session : Session}

theorem heldElsewhere_false :
    heldElsewhere machine=false ↔ ∀ other∈machine.others,other.holdsPorts=false := by
  rw [heldElsewhere,List.any_eq_false]
  exact forall₂_congr (fun other _ => Bool.eq_false_iff.symm)

theorem isSpace_of_isNameChar {c : CodePoint} (h : isNameChar c=true) : isSpace c=false := by
  simp only [isNameChar,Bool.or_eq_true,Bool.and_eq_true,decide_eq_true_eq] at h
  simp only [isSpace,Bool.or_eq_false_iff,Bool.and_eq_false_iff,decide_eq_false_iff_not,
    beq_eq_false_iff_ne,ne_eq]
  omega

/-- Words that are printed one a line are read back. -/
theorem splitWords_printed {lines : List Str}
    (h : ∀ line∈lines,line≠[] ∧ ∀ c∈line,isSpace c=false) : splitWords (printed lines)=lines := by
  induction lines with
  | nil => rfl
  | cons line lines ih =>
    obtain ⟨hne,hline⟩ := h line List.mem_cons_self
    have hprinted : printed (line::lines)=line++lf::printed lines := by
      rw [printed,List.flatMap_cons,List.append_assoc,List.singleton_append,printed]
    have hlf : isSpace lf=true := by decide
    rw [splitWords,hprinted,List.splitOnP_append_cons _ _ hlf,List.splitOnP_eq_singleton hline,
      List.filter_append]
    have hrest := ih (fun other hother => h other (List.mem_cons_of_mem _ hother))
    rw [splitWords] at hrest
    rw [hrest]
    simp [hne]

/-- Every name is one word, and none is the word the listing begins with when there is no
cluster. -/
theorem names_plain {name : Str} (h : name∈names machine) :
    name≠[] ∧ (∀ c∈name,isSpace c=false) ∧ name≠str "No" := by
  have hchars : ∀ name : Str,name.all isNameChar=true → name≠[] →
      name≠[] ∧ (∀ c∈name,isSpace c=false) ∧ name≠str "No" := by
    intro name hplain hne
    refine ⟨hne,fun c hc => isSpace_of_isNameChar (List.all_eq_true.mp hplain c hc),?_⟩
    rintro rfl
    exact absurd hplain (by decide)
  rw [names,List.mem_append,List.mem_append] at h
  rcases h with (h|h)|h
  · split at h
    · rw [List.mem_singleton.mp h]
      exact hchars _ (by decide) (by decide)
    · cases h
  · split at h
    · rw [List.mem_singleton.mp h]
      exact hchars _ (by decide) (by decide)
    · cases h
  · obtain ⟨other,-,rfl⟩ := List.mem_map.mp h
    exact hchars _ other.plain other.nonempty

/-- What the tier reads of a listing is the names. -/
theorem splitWords_names (machine : Machine) :
    splitWords (printed (names machine))=names machine :=
  splitWords_printed (fun _ h => ⟨(names_plain h).1,(names_plain h).2.1⟩)

theorem testCluster_mem_names : testCluster∈names machine ↔ present machine.tier=true := by
  have hkind : testCluster≠kindCluster := by decide
  have hothers : testCluster∉machine.others.map OtherCluster.name := by
    intro h
    obtain ⟨other,-,hother⟩ := List.mem_map.mp h
    exact other.notTier hother
  rw [names,List.mem_append,List.mem_append]
  constructor
  · rintro ((h|h)|h)
    · split at h
      · exact absurd (List.mem_singleton.mp h) hkind
      · cases h
    · split at h
      · assumption
      · cases h
    · exact absurd h hothers
  · intro h
    rw [if_pos h]
    exact .inl (.inr List.mem_cons_self)

/-- The tier sees its cluster if it is there and the listing can be had. -/
theorem clusterExists_listing (ok : Bool) :
    clusterExists (listing ok machine)=true ↔ ok=true ∧ present machine.tier=true := by
  cases ok with
  | false => exact iff_of_false (fun h => by cases h) (fun h => by cases h.1)
  | true =>
    have hlisting : listing true machine=some (printed (names machine)) := rfl
    rw [hlisting,clusterExists,splitWords_names,List.contains_iff_mem,testCluster_mem_names]
    exact (and_iff_right rfl).symm

/-- The guard lets the set-up through if there is no other cluster, or it cannot see them. -/
theorem refuseAPortConflict_ok (machine : Machine) (session : Session) :
    (refuseAPortConflict session machine).2=true ↔
      (session.ok .listOthers=true → present machine.operator=false ∧ machine.others=[]) := by
  have hkind : kindCluster≠testCluster := by decide
  rw [refuseAPortConflict]
  cases hlist : session.ok .listOthers with
  | false => exact iff_of_true rfl (fun h => by cases h)
  | true =>
    have hlisting : listing true machine=some (printed (names machine)) := rfl
    rw [hlisting,clusters,splitWords_names]
    simp only [List.isEmpty_iff,List.filter_filter,List.filter_eq_nil_iff]
    constructor
    · intro hnone
      have hall : ∀ name∈names machine,name=testCluster := by
        intro name hname
        have h := hnone name hname
        simpa [(names_plain hname).2.2] using h
      refine fun _ => ⟨?_,?_⟩
      · refine eq_false_of_ne_true (fun hpresent => hkind (hall _ ?_))
        rw [names,if_pos hpresent]
        exact List.mem_append_left _ (List.mem_append_left _ List.mem_cons_self)
      · refine List.eq_nil_iff_forall_not_mem.mpr (fun other hother => other.notTier (hall _ ?_))
        exact List.mem_append_right _ (List.mem_map_of_mem hother)
    · intro h name hname
      obtain ⟨hoperator,hothers⟩ := h trivial
      rw [names,hoperator,hothers] at hname
      have hsame : name=testCluster := by
        cases htier : present machine.tier with
        | false => simp [htier] at hname
        | true =>
          simp [htier] at hname
          exact hname
      simp [hsame]

/-- What the creation comes to, when the two clusters are not both there. -/
theorem createMissing_ok (hone : present machine.operator=false ∨ present machine.tier=false) :
    (createMissing session machine).2=true ↔ present machine.operator=false ∧
      if present machine.tier=true then session.ok .listOwn=true
      else heldElsewhere machine=false ∧ session.ok .createCluster=true := by
  rw [createMissing]
  cases htier : present machine.tier with
  | true =>
    have hoperator := hone.resolve_right (by rw [htier]; exact Bool.noConfusion)
    by_cases hlist : session.ok .listOwn=true
    · rw [if_pos (clusterExists_listing _ |>.mpr ⟨hlist,htier⟩),if_pos rfl]
      exact iff_of_true rfl ⟨hoperator,hlist⟩
    · rw [if_neg (fun h => hlist ((clusterExists_listing _).mp h).1),if_pos rfl,
        if_neg (fun h => by cases h.1)]
      exact iff_of_false (fun h => by cases h) (fun h => hlist h.2)
  | false =>
    have hunseen : ¬clusterExists (listing (session.ok .listOwn) machine)=true := by
      rw [clusterExists_listing,htier]
      exact fun h => Bool.noConfusion h.2
    rw [if_neg hunseen,if_neg Bool.false_ne_true]
    by_cases hcreate : present machine.operator=false ∧ heldElsewhere machine=false ∧
        session.ok .createCluster=true
    · rw [if_pos ⟨rfl,hcreate⟩]
      exact iff_of_true rfl hcreate
    · rw [if_neg (fun h => hcreate h.2)]
      exact iff_of_false (fun h => by cases h) hcreate

/-- A cluster that could be created is there, and nothing else has changed. -/
theorem createMissing_there (h : (createMissing session machine).2=true) :
    ∃ tier,(createMissing session machine).1={machine with tier := tier} ∧
      present tier=true := by
  rw [createMissing] at h ⊢
  split at h
  · rename_i hexists
    rw [if_pos hexists]
    exact ⟨machine.tier,rfl,((clusterExists_listing _).mp hexists).2⟩
  · rename_i hunseen
    rw [if_neg hunseen]
    split at h
    · rename_i hcreate
      rw [if_pos hcreate]
      exact ⟨.bare,rfl,rfl⟩
    · cases h

/-- Behind a cluster that is there come the namespace, emptied, and the Secret. -/
theorem createNamespaceAndSecret_ok (h : present machine.tier=true) :
    (inOrder (createNamespaceAndSecret session) machine).2=true ↔
      session.ok .deleteNamespace=true ∧ session.ok .createNamespace=true ∧
        session.file.isSome=true ∧ session.ok .createSecret=true := by
  obtain ⟨operator,tier,others⟩ := machine
  simp only [createNamespaceAndSecret,inOrder,onTier]
  cases tier with
  | absent => cases h
  | _ =>
    cases hdelete : session.ok .deleteNamespace <;>
      cases hcreate : session.ok .createNamespace <;> cases hfile : session.file <;>
        cases hsecret : session.ok .createSecret <;>
          simp [deleteNamespace,createNamespace,createSecret]

/-- The Secret is what `.env` says then. -/
theorem createNamespaceAndSecret_secret (h : present machine.tier=true) {file : EnvFile}
    (hfile : session.file=some file)
    (hok : (inOrder (createNamespaceAndSecret session) machine).2=true) :
    (inOrder (createNamespaceAndSecret session) machine).1=
      {machine with tier := .namespaced (some ⟨file.config.value,.nothing⟩)} := by
  obtain ⟨hdelete,hcreate,-,hsecret⟩ := (createNamespaceAndSecret_ok h).mp hok
  obtain ⟨operator,tier,others⟩ := machine
  simp only [createNamespaceAndSecret,inOrder,onTier,hdelete,hcreate,hsecret,hfile]
  cases tier with
  | absent => cases h
  | bare => rfl
  | namespaced secret => rfl

/-- The calls behind the creation that all have to succeed. -/
def FollowUp (session : Session) : Prop :=
  session.ok .addOns=true ∧ session.ok .loadImage=true ∧ session.ok .deleteNamespace=true ∧
    session.ok .createNamespace=true ∧ session.file.isSome=true ∧
    session.ok .createSecret=true ∧ session.ok .install=true

/-- What the fixture does behind the creation. -/
theorem unguarded_ok :
    (inOrder (unguarded session) machine).2=true ↔
      (createMissing session machine).2=true ∧ FollowUp session := by
  rw [unguarded,create,List.cons_append,List.cons_append,List.nil_append,inOrder_cons_ok]
  refine and_congr_right (fun hcreated => ?_)
  obtain ⟨tier,hthere,htier⟩ := createMissing_there hcreated
  have hsecret := @createNamespaceAndSecret_ok {machine with tier := tier} session htier
  have hinstall : ∀ s : Machine,(inOrder [leaves (session.ok .install)] s).2=true ↔
      session.ok .install=true := fun s => by
    rw [inOrder_leaves_ok]
    exact and_iff_left rfl
  rw [hthere,inOrder_leaves_ok,inOrder_leaves_ok,inOrder_append_ok,hsecret,hinstall,FollowUp]
  simp only [and_assoc]

/-- When the fixture comes to the tests, the Secret is what `.env` says. -/
theorem unguarded_secret (h : (inOrder (unguarded session) machine).2=true) :
    ∃ file,session.file=some file ∧ (inOrder (unguarded session) machine).1=
      {machine with tier := .namespaced (some ⟨file.config.value,.nothing⟩)} := by
  obtain ⟨hcreated,haddOns,hload,hdelete,hcreate,hfile,hsecret,hinstall⟩ := unguarded_ok.mp h
  obtain ⟨file,hfile⟩ := Option.isSome_iff_exists.mp hfile
  obtain ⟨tier,hthere,htier⟩ := createMissing_there hcreated
  have hdone := (@createNamespaceAndSecret_ok {machine with tier := tier} session htier).mpr
    ⟨hdelete,hcreate,by rw [hfile]; rfl,hsecret⟩
  refine ⟨file,hfile,?_⟩
  rw [unguarded,create,List.cons_append,List.cons_append,List.nil_append,
    inOrder_cons_of_ok hcreated,hthere,inOrder_cons_of_ok haddOns,leaves_fst,
    inOrder_cons_of_ok hload,leaves_fst,inOrder_append,if_pos hdone,inOrder_cons_of_ok hinstall]
  exact @createNamespaceAndSecret_secret {machine with tier := tier} session htier file hfile hdone

/-- The stages of a set-up. -/
theorem mem_setUp {stage : Stage Machine} (h : stage∈setUp session) :
    stage=refuseAPortConflict session ∨ stage=createMissing session ∨
      (∃ ok,stage=leaves ok) ∨ (∃ ok,stage=onTier (deleteNamespace ok)) ∨
      (∃ ok,stage=onTier (createNamespace ok)) ∨
      ∃ file ok,stage=onTier (createSecret file ok) := by
  simp only [setUp,unguarded,create,createNamespaceAndSecret,List.cons_append,List.nil_append,
    List.mem_cons,List.not_mem_nil,or_false] at h
  rcases h with h|h|h|h|h|h|h|h
  · exact .inl h
  · exact .inr (.inl h)
  · exact .inr (.inr (.inl ⟨_,h⟩))
  · exact .inr (.inr (.inl ⟨_,h⟩))
  · exact .inr (.inr (.inr (.inl ⟨_,h⟩)))
  · exact .inr (.inr (.inr (.inr (.inl ⟨_,h⟩))))
  · exact .inr (.inr (.inr (.inr (.inr ⟨_,_,h⟩))))
  · exact .inr (.inr (.inl ⟨_,h⟩))

/-- No stage touches another cluster than the tier's. -/
theorem setUp_spares (session : Session) :
    Spares (fun machine => (machine.operator,machine.others)) (inOrder (setUp session)) := by
  refine inOrder_spares (fun stage hstage machine => ?_)
  rcases mem_setUp hstage with rfl|rfl|⟨ok,rfl⟩|⟨ok,rfl⟩|⟨ok,rfl⟩|⟨file,ok,rfl⟩
  · rfl
  · rw [createMissing]
    split
    · rfl
    · split <;> rfl
  · rfl
  · rfl
  · rfl
  · rfl

/-- No stage takes the tier's cluster away. -/
theorem setUp_keeps (session : Session) (h : present machine.tier=true) :
    present (inOrder (setUp session) machine).1.tier=true := by
  refine @inOrder_keeps Machine (fun machine => present machine.tier=true) _
    (fun stage hstage machine h => ?_) machine h
  rcases mem_setUp hstage with rfl|rfl|⟨ok,rfl⟩|⟨ok,rfl⟩|⟨ok,rfl⟩|⟨file,ok,rfl⟩
  · exact h
  · rw [createMissing]
    split
    · exact h
    · split
      · rfl
      · exact h
  · exact h
  · change present (deleteNamespace ok machine.tier).1=true
    cases htier : machine.tier with
    | absent =>
      rw [htier] at h
      cases h
    | bare => rfl
    | namespaced secret => cases ok <;> rfl
  · change present (createNamespace ok machine.tier).1=true
    cases htier : machine.tier with
    | absent =>
      rw [htier] at h
      cases h
    | bare => cases ok <;> rfl
    | namespaced secret => rfl
  · change present (createSecret file ok machine.tier).1=true
    cases htier : machine.tier with
    | absent =>
      rw [htier] at h
      cases h
    | bare => rfl
    | namespaced secret => cases secret <;> cases file <;> cases ok <;> rfl

/-- While the operator's cluster is there, or a third one has the ports, and the tier's is not
there, a session does nothing, -/
theorem unguarded_hindered
    (htaken : present machine.operator=true ∨ heldElsewhere machine=true)
    (htier : present machine.tier=false) : inOrder (unguarded session) machine=(machine,false) := by
  have hcreate : createMissing session machine=(machine,false) := by
    have hunseen : ¬clusterExists (listing (session.ok .listOwn) machine)=true := by
      rw [clusterExists_listing,htier]
      exact fun h => Bool.noConfusion h.2
    rw [createMissing,if_neg hunseen,if_neg]
    rintro ⟨-,hoperator,hothers,-⟩
    rcases htaken with htaken|htaken
    · rw [hoperator] at htaken
      cases htaken
    · rw [hothers] at htaken
      cases htaken
  have hfailed : ¬(createMissing session machine).2=true := by
    rw [hcreate]
    exact Bool.false_ne_true
  rw [unguarded,create,List.cons_append,inOrder_cons_of_failed hfailed,hcreate]

/-- whether the guard sees it or not. -/
theorem setUp_hindered
    (htaken : present machine.operator=true ∨ heldElsewhere machine=true)
    (htier : present machine.tier=false) : inOrder (setUp session) machine=(machine,false) := by
  rw [setUp]
  by_cases hguard : (refuseAPortConflict session machine).2=true
  · rw [inOrder_cons_of_ok hguard]
    exact unguarded_hindered htaken htier
  · rw [inOrder_cons_of_failed hguard]
    rfl

theorem eq_absent {cluster : Cluster} (h : present cluster=false) : cluster=.absent := by
  cases cluster with
  | absent => rfl
  | bare => cases h
  | namespaced secret => cases h

theorem hindered_weaker (machine : Machine) (event : Event) :
    Weaker (hindered machine event) event := by
  refine ⟨rfl,fun call h => ?_⟩
  cases call with
  | createCluster => exact (Bool.and_eq_true_iff.mp (Bool.and_eq_true_iff.mp h).1).1
  | _ => exact h

theorem hindered_create (h : present machine.tier=true) (event : Event) :
    (hindered machine event).ok .createCluster=false := by
  change (event.ok .createCluster && !present machine.tier && !heldElsewhere machine)=false
  rw [h,Bool.not_true,Bool.and_false,Bool.false_and]

/-- A session changes the tier's cluster only. -/
theorem step_session (machine : Machine) (session : Session) :
    (step machine (.session session)).operator=machine.operator ∧
      (step machine (.session session)).others=machine.others := by
  have h := setUp_spares session machine
  rw [Prod.mk.injEq] at h
  rw [step]
  split
  · exact h
  · exact h

/-- A session that leaves the tier's cluster there found the ports free, or the cluster. -/
theorem session_tier (h : present (step machine (.session session)).tier=true)
    (htier : present machine.tier=false) :
    present machine.operator=false ∧ heldElsewhere machine=false := by
  by_contra hneither
  have htaken : present machine.operator=true ∨ heldElsewhere machine=true := by
    rw [not_and_or] at hneither
    exact hneither.imp eq_true_of_ne_false eq_true_of_ne_false
  have hsetUp := @setUp_hindered machine session htaken htier
  have hdown : ¬tearsDown machine session=true := by
    rw [tearsDown,hsetUp]
    exact Bool.false_ne_true
  rw [step,if_neg hdown,hsetUp,htier] at h
  cases h

/-- No happening makes the second of the two clusters, or one beside a third with the ports. -/
theorem step_exclusive (h : Exclusive machine) (happening : Happening) :
    Exclusive (step machine happening) := by
  cases happening with
  | target event =>
    refine ⟨?_,h.third⟩
    cases htier : present machine.tier with
    | false => exact .inr htier
    | true =>
      have hoperator := h.two.resolve_right (by rw [htier]; exact Bool.noConfusion)
      refine .inl ?_
      change present (KindDeploy.step machine.operator (hindered machine event))=false
      rw [eq_absent hoperator,step_absent (hindered_create htier event)]
      rfl
  | session session =>
    obtain ⟨hoperator,hothers⟩ := step_session machine session
    constructor
    · rw [hoperator,or_iff_not_imp_right]
      intro hleft
      cases htier : present machine.tier with
      | false => exact (session_tier (eq_true_of_ne_false hleft) htier).1
      | true => exact h.two.resolve_right (by rw [htier]; exact Bool.noConfusion)
    · intro hleft
      rw [heldElsewhere,hothers]
      cases htier : present machine.tier with
      | false => exact (session_tier hleft htier).2
      | true => exact h.third htier

/-- In every interleaving, at most one of the two clusters is there at any time. -/
theorem reached_exclusive (others : List OtherCluster) (happenings : List Happening) :
    Exclusive (reached others happenings) :=
  @run_keeps Machine Happening step Exclusive (fun _ happening h => step_exclusive h happening)
    (fresh others) ⟨.inl rfl,fun h => by cases h⟩ happenings

theorem reached_others (others : List OtherCluster) (happenings : List Happening) :
    (reached others happenings).others=others := by
  refine @run_keeps Machine Happening step (fun machine => machine.others=others)
    (fun machine happening h => ?_) (fresh others) rfl happenings
  cases happening with
  | target event => exact h
  | session session => exact (step_session machine session).2.trans h

/-- In every interleaving, a session comes to its tests exactly if the operator's cluster is
not there, no other one is seen, its own is seen or can be created, with no other one at
the ports, and every call behind that succeeds. Its Secret is then what `.env` says, whatever was left behind. -/
theorem tests_run_iff (others : List OtherCluster) (happenings : List Happening)
    (session : Session) :
    ((inOrder (setUp session) (reached others happenings)).2=true ↔
      present (reached others happenings).operator=false ∧
        (session.ok .listOthers=true → others=[]) ∧
        (if present (reached others happenings).tier=true then session.ok .listOwn=true
          else (∀ other∈others,other.holdsPorts=false) ∧ session.ok .createCluster=true) ∧
        FollowUp session) ∧
    ((inOrder (setUp session) (reached others happenings)).2=true →
      ∃ file,session.file=some file ∧
        secretOf (inOrder (setUp session) (reached others happenings)).1.tier=
          some ⟨file.config.value,.nothing⟩) := by
  have hone := reached_exclusive others happenings
  have hothers := reached_others others happenings
  generalize reached others happenings=machine at hone hothers
  subst hothers
  constructor
  · rw [setUp,inOrder_cons_ok,refuseAPortConflict_ok]
    change _ ∧ (inOrder (unguarded session) machine).2=true ↔ _
    rw [unguarded_ok,createMissing_ok hone.two,heldElsewhere_false]
    constructor
    · rintro ⟨hguard,⟨hoperator,hcreate⟩,hfollow⟩
      exact ⟨hoperator,fun h => (hguard h).2,hcreate,hfollow⟩
    · rintro ⟨hoperator,hguard,hcreate,hfollow⟩
      exact ⟨fun h => ⟨hoperator,hguard h⟩,⟨hoperator,hcreate⟩,hfollow⟩
  · intro h
    have hguard : (refuseAPortConflict session machine).2=true := (inOrder_cons_ok.mp h).1
    rw [setUp,inOrder_cons_of_ok hguard] at h ⊢
    obtain ⟨file,hfile,hsecret⟩ := unguarded_secret h
    exact ⟨file,hfile,by rw [hsecret]; rfl⟩

/-- A session leaves its cluster there, deletes it, or never had one. -/
theorem step_tier (machine : Machine) (happening : Happening) :
    present (step machine happening).tier=true ↔
      LeftBehind (machine,happening) ∨
        ¬TornDown (machine,happening) ∧ present machine.tier=true := by
  cases happening with
  | target event =>
    refine ⟨fun h => .inr ⟨?_,h⟩,?_⟩
    · rintro ⟨session,h,-⟩
      cases h
    · rintro (⟨session,h,-⟩|⟨-,h⟩)
      · cases h
      · exact h
  | session session =>
    rw [step]
    split
    · rename_i hdown
      refine iff_of_false (fun h => by cases h) ?_
      rintro (⟨other,h,hkept,-⟩|⟨hkept,-⟩)
      · cases h
        rw [hdown] at hkept
        cases hkept
      · exact hkept ⟨session,rfl,hdown⟩
    · rename_i hdown
      constructor
      · exact fun h => .inl ⟨session,rfl,eq_false_of_ne_true hdown,h⟩
      · rintro (⟨other,h,-,hthere⟩|⟨-,h⟩)
        · cases h
          exact hthere
        · exact setUp_keeps session h

/-- In every interleaving, the tier's cluster is there exactly if some session left it, since
its set-up failed behind the creation, or it was told to keep the cluster, or could not
delete it, and no session behind that one came to its tests and deleted it. The operator's
targets cannot succeed meanwhile, but for `kind-down`, and that leaves it there. -/
theorem left_behind_iff (others : List OtherCluster) (happenings : List Happening) :
    (present (reached others happenings).tier=true ↔
      Since LeftBehind (fun visit => ¬TornDown visit)
        (visits step (fresh others) happenings)) ∧
    (present (reached others happenings).tier=true → ∀ event : Event,
      event.action≠.kindDown → succeeds (reached others happenings).operator
        (hindered (reached others happenings) event)=false) := by
  refine ⟨@run_holds_iff Machine Happening step (fun machine => present machine.tier=true)
    LeftBehind TornDown step_tier (fresh others) Bool.false_ne_true happenings,fun htier event haction => ?_⟩
  have hoperator := (reached_exclusive others happenings).two.resolve_right
    (by rw [htier]; exact Bool.noConfusion)
  have hrefused := @inOrder_absent (hindered (reached others happenings) event) haction
    (hindered_create htier event)
  rw [eq_absent hoperator,KindDeploy.succeeds,hrefused]

/-- The guard changes what a session comes to only where some third cluster is there, none
that has the ports, and the operator's is not. -/
theorem guard_only_names (others : List OtherCluster) (happenings : List Happening) :
    (∀ session,inOrder (setUp session) (reached others happenings)=
        inOrder (unguarded session) (reached others happenings)) ↔
      others=[] ∨ present (reached others happenings).operator=true ∨
        ∃ other∈others,other.holdsPorts=true := by
  have hone := reached_exclusive others happenings
  have hothers := reached_others others happenings
  generalize reached others happenings=machine at hone hothers
  subst hothers
  have hheld : (∃ other∈machine.others,other.holdsPorts=true) ↔ heldElsewhere machine=true :=
    List.any_eq_true.symm
  rw [hheld]
  constructor
  · intro hsame
    by_contra hneither
    rw [not_or,not_or] at hneither
    obtain ⟨hthird,hoperator,hfree⟩ := hneither
    rw [Bool.not_eq_true] at hoperator hfree
    -- A session in which nothing fails is refused by the guard and would succeed without it.
    have h := hsame ⟨some (fileOf ""),false,fun _ => true⟩
    have hguard : ¬(refuseAPortConflict ⟨some (fileOf ""),false,fun _ => true⟩ machine).2=true :=
      fun hok => hthird ((refuseAPortConflict_ok machine _).mp hok rfl).2
    have hdone : (inOrder (unguarded ⟨some (fileOf ""),false,fun _ => true⟩) machine).2=true := by
      refine unguarded_ok.mpr ⟨(createMissing_ok hone.two).mpr ⟨hoperator,?_⟩,?_⟩
      · split
        · rfl
        · exact ⟨hfree,rfl⟩
      · exact ⟨rfl,rfl,rfl,rfl,rfl,rfl,rfl⟩
    rw [setUp,inOrder_cons_of_failed hguard] at h
    rw [←h] at hdone
    cases hdone
  · intro h session
    by_cases hguard : (refuseAPortConflict session machine).2=true
    · exact inOrder_cons_of_ok hguard _
    · have htaken : present machine.operator=true ∨ heldElsewhere machine=true := by
        rcases h with hnone|htaken
        · refine .inl (by_contra (fun hoperator => hguard ?_))
          rw [refuseAPortConflict_ok]
          exact fun _ => ⟨eq_false_of_ne_true hoperator,hnone⟩
        · exact htaken
      have htier : present machine.tier=false := by
        rcases htaken with hoperator|hheld
        · exact hone.two.resolve_left (by rw [hoperator]; exact Bool.noConfusion)
        · refine eq_false_of_ne_true (fun htier => ?_)
          rw [hone.third htier] at hheld
          cases hheld
      rw [setUp_hindered htaken htier,unguarded_hindered htaken htier]

theorem run_operator (happenings : List Happening) (machine : Machine) :
    ∃ events,List.Forall₂ Weaker events (targets happenings) ∧
      (run step machine happenings).operator=
        run KindDeploy.step machine.operator events := by
  induction happenings generalizing machine with
  | nil => exact ⟨[],.nil,rfl⟩
  | cons happening happenings ih =>
    obtain ⟨events,hweaker,hrun⟩ := ih (step machine happening)
    cases happening with
    | target event =>
      refine ⟨hindered machine event::events,?_,?_⟩
      · exact .cons (hindered_weaker machine event) hweaker
      · rw [run_cons,hrun,run_cons]
        rfl
    | session session =>
      refine ⟨events,hweaker,?_⟩
      rw [run_cons,hrun,(step_session machine session).1]

end MlopsPlatform.ClusterTier
