import MlopsPlatform.SmokeDag

/-!
# What a smoke task asks, and what holds of its server

A task asks its requests in a fixed order and each at most once, so what a run
has recorded is what its own task had served. The experiment is found by every
task, whichever of them created it, and a task that returns has finished its
run.
-/

namespace MlopsPlatform.SmokeDagRuns

open TextCodec PythonJson RequestInterleaving SmokeDag
open PreflightCredentials (Pairs)

variable {Tasks : Type} {interp : Interp} {i : Tasks} {server server' : Tracking Tasks}
variable {log : List (Request×Reply)} {base : Str}

/-- The place of a call in a task. -/
def stage : Call→ℕ
  | .createExperiment _ => 0
  | .getByName _ => 1
  | .createRun _ _ _ => 2
  | .logParameter _ _ _ => 3
  | .logMetric _ _ => 4
  | .updateRun _ _ _ => 5

/-- A call was answered so. -/
def Answered (log : List (Request×Reply)) (call : Call) (reply : Reply) : Prop :=
  ∃ base,(⟨base,call⟩,reply)∈log

/-- The answers name the experiment. -/
def Obtained (interp : Interp) (log : List (Request×Reply)) (experiment : Str) : Prop :=
  (∃ created,Answered log (.createExperiment experimentName) (.ok created) ∧
      createdExperiment interp created=.ok experiment) ∨
    ∃ found,Answered log (.getByName experimentName) (.ok found) ∧
      foundExperiment interp found=.ok experiment

/-- The answers name the run. -/
def Created (interp : Interp) (log : List (Request×Reply)) (runId : Str) : Prop :=
  ∃ experiment startTime tags created,
    Answered log (.createRun experiment startTime tags) (.ok created) ∧
      createdRun interp created=.ok runId

/-- The parameter and the metric of the run were written. -/
def Wrote (task : Task) (log : List (Request×Reply)) (runId : Str) : Prop :=
  (∃ reply,Answered log (.logParameter runId paramKey paramValue) (.ok reply)) ∧
    ∃ reply,Answered log (.logMetric runId task.metric) (.ok reply)

/-- What a task has been told before it makes a call. -/
def Earned (interp : Interp) (task : Task) (log : List (Request×Reply)) : Call→Prop
  | .createExperiment name => name=experimentName
  | .getByName name => name=experimentName ∧
    ∃ detail,alreadyExists<:+:detail ∧
      Answered log (.createExperiment experimentName) (.error (.http detail))
  | .createRun experiment _ _ => Obtained interp log experiment
  | .logParameter runId key value => (key=paramKey ∧ value=paramValue) ∧ Created interp log runId
  | .logMetric runId metric => metric=task.metric ∧ Created interp log runId
  | .updateRun runId status _ =>
    status=str "FINISHED" ∧ Created interp log runId ∧ Wrote task log runId

/-- Only calls of earlier places were made, each at most once. -/
def Before (n : ℕ) (log : List (Request×Reply)) : Prop :=
  (∀ entry∈log,stage entry.1.call<n) ∧ log.length≤n

/-- What a task asks, after some answers. -/
def Asked (interp : Interp) (task : Task) (log : List (Request×Reply)) (asked : Request) : Prop :=
  Before (stage asked.call) log ∧ Earned interp task log asked.call

/-- An answer a task does not go on with. -/
def Bad (interp : Interp) : Request×Reply→Prop
  | (⟨_,.createExperiment _⟩,.error (.http detail)) => ¬alreadyExists<:+:detail
  | (_,.error _) => True
  | (⟨_,.createExperiment _⟩,.ok created) => ∃ raised,createdExperiment interp created=.error raised
  | (⟨_,.getByName _⟩,.ok found) => ∃ raised,foundExperiment interp found=.error raised
  | (⟨_,.createRun _ _ _⟩,.ok created) => ∃ raised,createdRun interp created=.error raised
  | (_,.ok _) => False

/-- What a task returns or raises, after some answers. -/
def Returns (interp : Interp) (log : List (Request×Reply)) : Except Raised Str→Prop
  | .ok runId => ∃ endTime reply,Answered log (.updateRun runId (str "FINISHED") endTime) (.ok reply)
  | .error _ => ∃ entry∈log,Bad interp entry

/-- What `experiment_id` returns or raises, after some answers. -/
def Finds (interp : Interp) (log : List (Request×Reply)) : Except Raised Str→Prop
  | .ok experiment => Before 2 log ∧ Obtained interp log experiment
  | .error _ => ∃ entry∈log,Bad interp entry

/-- An answer stays one. -/
theorem Answered.append {call : Call} {reply : Reply} (h : Answered log call reply)
    (more : List (Request×Reply)) : Answered (log++more) call reply := by
  obtain ⟨base,hbase⟩ := h
  exact ⟨base,List.mem_append_left _ hbase⟩

/-- A run that was created stays so. -/
theorem Created.append {runId : Str} (h : Created interp log runId)
    (more : List (Request×Reply)) : Created interp (log++more) runId := by
  obtain ⟨experiment,startTime,tags,created,hanswered,hreads⟩ := h
  exact ⟨experiment,startTime,tags,created,hanswered.append more,hreads⟩

/-- The last answer is one. -/
theorem answered_last (log : List (Request×Reply)) (base : Str) (call : Call) (reply : Reply) :
    Answered (log++[(⟨base,call⟩,reply)]) call reply :=
  ⟨base,List.mem_append_right _ (List.mem_singleton_self _)⟩

/-- After a call of one place come those of the next. -/
theorem Before.snoc {n m : ℕ} (h : Before n log) {call : Call} (hcall : stage call=n) (hm : n < m)
    (base : Str) (reply : Reply) : Before m (log++[(⟨base,call⟩,reply)]) := by
  refine ⟨fun entry hentry => ?_,?_⟩
  · rcases List.mem_append.mp hentry with hentry|hentry
    · exact Nat.lt_trans (h.1 entry hentry) hm
    · rw [List.mem_singleton.mp hentry,hcall]
      exact hm
  · have hlength := h.2
    rw [List.length_append,List.length_singleton]
    omega

/-- A task that goes on with what a request returns asks the request, raises
what it raises, and goes on. -/
theorem meets_request {α : Type} {asks : List (Request×Reply)→Request→Prop}
    {ends : List (Request×Reply)→Except Raised α→Prop} {call : Call} {rest : Json→Asking α}
    (hasks : asks log ⟨base,call⟩)
    (hraised : ∀ raised,ends (log++[(⟨base,call⟩,.error raised)]) (.error raised))
    (hrest : ∀ reply,Meets asks ends (log++[(⟨base,call⟩,.ok reply)]) (rest reply)) :
    Meets asks ends log (andThen (request base call) rest) := by
  refine ⟨hasks,fun reply => ?_⟩
  cases reply with
  | error raised => exact hraised raised
  | ok reply => exact hrest reply

/-- An answer that is an error ends a task, if it is not the one that
`experiment_id` goes on with. -/
theorem returns_error {call : Call} {raised : Raised}
    (hbad : Bad interp (⟨base,call⟩,.error raised)) :
    ∃ entry∈log++[(⟨base,call⟩,.error raised)],Bad interp entry :=
  ⟨_,List.mem_append_right _ (List.mem_singleton_self _),hbad⟩

/-- What `experiment_id` asks and returns. -/
theorem experimentId_meets (interp : Interp) (task : Task) (base : Str) :
    Meets (Asked interp task) (Finds interp) [] (experimentId interp base) := by
  have hnil : Before 0 ([] : List (Request×Reply)) :=
    ⟨fun _ h => absurd h List.not_mem_nil,Nat.le_refl _⟩
  refine ⟨⟨hnil,rfl⟩,fun reply => ?_⟩
  match reply with
  | .ok created =>
    cases hreads : createdExperiment interp created with
    | error raised =>
      have hbad : Bad interp (⟨base,.createExperiment experimentName⟩,.ok created) := ⟨raised,hreads⟩
      simp only [hreads]
      exact ⟨_,List.mem_append_right _ (List.mem_singleton_self _),hbad⟩
    | ok experiment =>
      simp only [hreads]
      refine ⟨hnil.snoc rfl Nat.two_pos base _,Or.inl ⟨created,answered_last _ _ _ _,hreads⟩⟩
  | .error (.http detail) =>
    by_cases hcarries : alreadyExists<:+:detail
    · simp only [hcarries,not_true_eq_false,if_false]
      have hstage : stage (.createExperiment experimentName)=0 := rfl
      have hbefore := hnil.snoc hstage Nat.one_pos base (.error (.http detail))
      refine meets_request ⟨hbefore,rfl,detail,hcarries,answered_last _ _ _ _⟩
        (fun raised => returns_error trivial) (fun found => ?_)
      cases hreads : foundExperiment interp found with
      | error raised =>
        have hbad : Bad interp (⟨base,.getByName experimentName⟩,.ok found) := ⟨raised,hreads⟩
        exact ⟨_,List.mem_append_right _ (List.mem_singleton_self _),hbad⟩
      | ok experiment =>
        exact ⟨hbefore.snoc rfl (Nat.lt_succ_self 1) base _,
          Or.inr ⟨found,answered_last _ _ _ _,hreads⟩⟩
    · simp only [hcarries,not_false_eq_true,if_true]
      exact returns_error hcarries
  | .error (.malformed field) => exact returns_error trivial
  | .error (.runtime message) => exact returns_error trivial
  | .error (.other message) => exact returns_error trivial

/-- With both written, what is left is to finish the run. -/
theorem finish_meets {task : Task} {runId : Str} (hbefore : Before 5 log)
    (hcreated : Created interp log runId) (hwrote : Wrote task log runId) :
    Meets (Asked interp task) (Returns interp) log
      (andThen (request base (.updateRun runId (str "FINISHED") task.finished)) (fun _ =>
        .done (.ok runId))) := by
  refine meets_request ⟨hbefore,rfl,hcreated,hwrote⟩ (fun raised => returns_error trivial)
    (fun reply => ?_)
  exact ⟨task.finished,reply,answered_last _ _ _ _⟩

/-- With the parameter written, the metric is written next. -/
theorem metric_meets {task : Task} {runId : Str} (hbefore : Before 4 log)
    (hcreated : Created interp log runId) {reply : Json}
    (hparameter : Answered log (.logParameter runId paramKey paramValue) (.ok reply)) :
    Meets (Asked interp task) (Returns interp) log
      (andThen (request base (.logMetric runId task.metric)) (fun _ =>
        andThen (request base (.updateRun runId (str "FINISHED") task.finished)) (fun _ =>
        .done (.ok runId)))) := by
  refine meets_request ⟨hbefore,rfl,hcreated⟩ (fun raised => returns_error trivial)
    (fun written => ?_)
  refine finish_meets (hbefore.snoc rfl (Nat.lt_succ_self 4) base _) (hcreated.append _) ⟨?_,?_⟩
  · exact ⟨reply,hparameter.append _⟩
  · exact ⟨written,answered_last _ _ _ _⟩

/-- With the run created, the parameter is written next. -/
theorem parameter_meets {task : Task} {runId : Str} (hbefore : Before 3 log)
    (hcreated : Created interp log runId) :
    Meets (Asked interp task) (Returns interp) log
      (andThen (request base (.logParameter runId paramKey paramValue)) (fun _ =>
        andThen (request base (.logMetric runId task.metric)) (fun _ =>
        andThen (request base (.updateRun runId (str "FINISHED") task.finished)) (fun _ =>
        .done (.ok runId))))) := by
  refine meets_request ⟨hbefore,⟨rfl,rfl⟩,hcreated⟩ (fun raised => returns_error trivial)
    (fun reply => ?_)
  exact metric_meets (hbefore.snoc rfl (Nat.lt_succ_self 3) base _) (hcreated.append _)
    (answered_last _ _ _ _)

/-- What a task asks and returns once it has an address. -/
theorem logAt_meets (interp : Interp) (task : Task) (base : Str) :
    Meets (Asked interp task) (Returns interp) [] (logAt interp task base) := by
  refine (experimentId_meets interp task base).bind (fun log result hfinds => ?_)
  cases result with
  | error raised => exact hfinds
  | ok experiment =>
    obtain ⟨hbefore,hobtained⟩ := hfinds
    refine meets_request ⟨hbefore,hobtained⟩ (fun raised => returns_error trivial)
      (fun created => ?_)
    cases hreads : createdRun interp created with
    | error raised =>
      have hbad : Bad interp (⟨base,.createRun experiment task.started tags⟩,.ok created) :=
        ⟨raised,hreads⟩
      exact ⟨_,List.mem_append_right _ (List.mem_singleton_self _),hbad⟩
    | ok runId =>
      refine parameter_meets (hbefore.snoc rfl (Nat.lt_succ_self 2) base _) ?_
      exact ⟨experiment,task.started,tags,created,answered_last _ _ _ _,hreads⟩

/-- How a task ends: without an address at once, otherwise as its answers say. -/
def Ends (interp : Interp) (task : Task) (log : List (Request×Reply))
    (result : Except Raised Str) : Prop :=
  (∃ raised,trackingBase task.environ=.error raised ∧ result=.error raised) ∨
    Returns interp log result

/-- What a task asks and returns. -/
theorem logOneRun_meets (interp : Interp) (task : Task) :
    Meets (Asked interp task) (Ends interp task) [] (logOneRun interp task) := by
  unfold logOneRun
  cases haddress : trackingBase task.environ with
  | error raised => exact Or.inl ⟨raised,haddress,rfl⟩
  | ok base => exact (logAt_meets interp task base).mono (fun _ _ h => h) (fun _ _ h => Or.inr h)

/-- A request that sets a status sets this one. -/
def Finishes : Call→Prop
  | .updateRun _ status _ => status=str "FINISHED"
  | _ => True

/-- Tasks only ever finish runs. -/
theorem logOneRun_finishes (interp : Interp) (task : Task) :
    Meets (fun _ asked => Finishes asked.call) (fun _ _ => True) [] (logOneRun interp task) := by
  refine (logOneRun_meets interp task).mono (fun log asked hasked => ?_) (fun _ _ _ => trivial)
  obtain ⟨base,call⟩ := asked
  cases call with
  | updateRun runId status endTime => exact hasked.2.1
  | _ => trivial

/-- What the server has of a run after its record is replaced. -/
theorem lookup_set (server : Tracking Tasks) (runId other : Str) (record : Record Tasks) :
    (server.set runId record).runs.lookup other=
      if other=runId then some record else server.runs.lookup other := by
  unfold Tracking.set
  split
  · rename_i h
    rw [h,AList.lookup_insert]
  · rename_i h
    rw [AList.lookup_insert_ne h]

/-- What a service leaves of the experiments and the runs. -/
structure Grows (server server' : Tracking Tasks) : Prop where
  /-- No experiment is deleted. -/
  experiments : server.experiments⊆server'.experiments
  /-- A run stays, with its owner, and finished if it is. -/
  runs : ∀ runId record,server.runs.lookup runId=some record →
    ∃ record',server'.runs.lookup runId=some record' ∧ record'.owner=record.owner ∧
      (record.status=str "FINISHED" → record'.status=str "FINISHED")

/-- No service deletes an experiment. -/
theorem experiments_subset {asked : Request} {reply : Reply}
    (h : Serves interp i server asked server' reply) : server.experiments⊆server'.experiments := by
  cases h with
  | created free reads => exact List.subset_append_left _ _
  | _ => exact List.Subset.refl _

/-- A new record of a run that keeps what it has leaves all runs. -/
theorem grows_set {runId : Str} {record record' : Record Tasks}
    (hknown : server.runs.lookup runId=some record) (howner : record'.owner=record.owner)
    (hstatus : record.status=str "FINISHED" → record'.status=str "FINISHED") :
    Grows server (server.set runId record') := by
  refine ⟨List.Subset.refl _,fun other found hfound => ?_⟩
  rw [lookup_set]
  split
  · rename_i hsame
    rw [hsame,hknown,Option.some.injEq] at hfound
    rw [←hfound]
    exact ⟨record',rfl,howner,hstatus⟩
  · exact ⟨found,hfound,rfl,id⟩

/-- Every service of a request of a task lets the server grow. -/
theorem serves_grows {asked : Request} {reply : Reply} (hfinishes : Finishes asked.call)
    (h : Serves interp i server asked server' reply) : Grows server server' := by
  have hexperiments := experiments_subset h
  cases h with
  | created free reads => exact ⟨hexperiments,fun _ record hrecord => ⟨record,hrecord,rfl,id⟩⟩
  | taken old carries => exact ⟨hexperiments,fun _ record hrecord => ⟨record,hrecord,rfl,id⟩⟩
  | found known reads => exact ⟨hexperiments,fun _ record hrecord => ⟨record,hrecord,rfl,id⟩⟩
  | run known fresh reads =>
    refine ⟨hexperiments,fun other record hrecord => ?_⟩
    rw [lookup_set]
    split
    · rename_i hother
      rw [hother,AList.lookup_eq_none.mpr fresh] at hrecord
      cases hrecord
    · exact ⟨record,hrecord,rfl,id⟩
  | parameter known => exact grows_set known rfl id
  | metric known => exact grows_set known rfl id
  | updated known => exact grows_set known rfl (fun _ => hfinishes)

/-- What an answer to a task says of the server. -/
def Says (i : Tasks) (interp : Interp) : Call→Reply→Tracking Tasks→Prop
  | .createExperiment name,.ok created,server =>
    ∃ id,createdExperiment interp created=.ok id ∧ (name,id)∈server.experiments
  | .createExperiment name,.error _,server => name∈server.experiments.map Prod.fst
  | .getByName name,.ok found,server =>
    ∃ id,foundExperiment interp found=.ok id ∧ (name,id)∈server.experiments
  | .createRun _ _ _,.ok created,server =>
    ∃ runId record,createdRun interp created=.ok runId ∧
      server.runs.lookup runId=some record ∧ record.owner=some i
  | .updateRun runId status _,.ok _,server =>
    status=str "FINISHED" → ∃ record,server.runs.lookup runId=some record ∧
      record.status=str "FINISHED"
  | _,_,_ => True

/-- What an answer of the server is: no other failure, and true. -/
structure Fact (i : Tasks) (interp : Interp) (asked : Request) (reply : Reply)
    (server : Tracking Tasks) : Prop where
  /-- It is no other failure. -/
  expected : ¬OtherFailure reply
  /-- It can be read. -/
  good : ¬Bad interp (asked,reply)
  /-- It is true. -/
  holds : Says i interp asked.call reply server

/-- The server's answers are true. -/
theorem serves_fact {asked : Request} {reply : Reply}
    (h : Serves interp i server asked server' reply) : Fact i interp asked reply server' := by
  cases h with
  | @created base name id created free reads =>
    refine ⟨not_false,?_,id,reads,List.mem_append_right _ (List.mem_singleton_self _)⟩
    rintro ⟨raised,hraised⟩
    rw [reads] at hraised
    cases hraised
  | taken old carries => exact ⟨not_not.mpr carries,not_not.mpr carries,old⟩
  | @found base name id found known reads =>
    refine ⟨not_false,?_,id,reads,known⟩
    rintro ⟨raised,hraised⟩
    rw [reads] at hraised
    cases hraised
  | run known fresh reads =>
    refine ⟨not_false,?_,_,_,reads,(lookup_set ..).trans (if_pos rfl),rfl⟩
    rintro ⟨raised,hraised⟩
    rw [reads] at hraised
    cases hraised
  | parameter known => exact ⟨not_false,not_false,trivial⟩
  | metric known => exact ⟨not_false,not_false,trivial⟩
  | updated known =>
    exact ⟨not_false,not_false,fun hstatus => ⟨_,(lookup_set ..).trans (if_pos rfl),hstatus⟩⟩

/-- A growing server leaves what an answer says. -/
theorem Says.grows {call : Call} {reply : Reply} (h : Says i interp call reply server)
    (hgrows : Grows server server') : Says i interp call reply server' := by
  match call,reply with
  | .createExperiment name,.ok created =>
    obtain ⟨id,hreads,hm⟩ := h
    exact ⟨id,hreads,hgrows.experiments hm⟩
  | .createExperiment name,.error raised =>
    obtain ⟨entry,hentry,hname⟩ := List.mem_map.mp h
    exact List.mem_map.mpr ⟨entry,hgrows.experiments hentry,hname⟩
  | .getByName name,.ok found =>
    obtain ⟨id,hreads,hm⟩ := h
    exact ⟨id,hreads,hgrows.experiments hm⟩
  | .createRun experiment startTime tags,.ok created =>
    obtain ⟨runId,record,hreads,hrecord,howner⟩ := h
    obtain ⟨record',hrecord',howner',-⟩ := hgrows.runs runId record hrecord
    exact ⟨runId,record',hreads,hrecord',howner'.trans howner⟩
  | .updateRun runId status endTime,.ok reply =>
    intro hstatus
    obtain ⟨record,hrecord,hfinished⟩ := h hstatus
    obtain ⟨record',hrecord',-,hfinished'⟩ := hgrows.runs runId record hrecord
    exact ⟨record',hrecord',hfinished' hfinished⟩
  | .getByName name,.error raised => exact trivial
  | .createRun experiment startTime tags,.error raised => exact trivial
  | .updateRun runId status endTime,.error raised => exact trivial
  | .logParameter runId key value,reply => exact trivial
  | .logMetric runId metric,reply => exact trivial

variable {task : Tasks→Task} {first : Tracking Tasks} {s s' : Smoke Tasks}

/-- Every answer to a task is another failure, or true. -/
theorem truthful (h : Reaches (tracker interp Tasks) (initial interp task first) s) (i : Tasks) :
    Truthful (tracker interp Tasks) (Fact i interp) s.server (s.client i) := by
  refine truthful_of_reaches (fun i => Fact i interp) (fun _ asked => Finishes asked.call)
    (fun i => logOneRun_finishes interp (task i)) ?_ ?_ h i
  · intro i asked reply server server' hserves
    exact serves_fact hserves
  · intro i asked reply j other said server server' hfinishes hserves hfact
    exact ⟨hfact.expected,hfact.good,hfact.holds.grows (serves_grows hfinishes hserves)⟩

/-- A task that has a run's name from the server owns the run. -/
theorem owner_of_created (h : Reaches (tracker interp Tasks) (initial interp task first) s)
    {i : Tasks} {before after : List (Request×Reply)} {runId : Str}
    (hsplit : (s.client i).log=before++after) (hcreated : Created interp before runId) :
    ∃ record,s.server.runs.lookup runId=some record ∧ record.owner=some i := by
  obtain ⟨experiment,startTime,tags,created,⟨base,hm⟩,hreads⟩ := hcreated
  have hentry := (truthful h i).told _ (hsplit ▸ List.mem_append_left _ hm)
  obtain ⟨named,record,hnamed,hrecord,howner⟩ := (hentry.resolve_left not_false).holds
  rw [hreads,Except.ok.injEq] at hnamed
  rw [hnamed]
  exact ⟨record,hrecord,howner⟩

/-- The parameter a request records in a run. -/
def paramOf (runId : Str) (asked : Request) : Option (Str×Str) :=
  match asked.call with
  | .logParameter other key value => if other=runId then some (key,value) else none
  | _ => none

/-- The metric a request records in a run. -/
def metricOf (runId : Str) (asked : Request) : Option Metric :=
  match asked.call with
  | .logMetric other metric => if other=runId then some metric else none
  | _ => none

/-- The status a request gives a run. -/
def statusOf (runId : Str) (asked : Request) : Option Str :=
  match asked.call with
  | .updateRun other status _ => if other=runId then some status else none
  | _ => none

/-- The record of a run is what these requests make of a new one. -/
structure Records (runId : Str) (applied : List Request) (record : Record Tasks) : Prop where
  /-- The parameters. -/
  params : record.params=applied.filterMap (paramOf runId)
  /-- The metrics. -/
  metrics : record.metrics=applied.filterMap (metricOf runId)
  /-- The status. -/
  status : record.status=((applied.filterMap (statusOf runId)).getLast?).getD (str "RUNNING")

/-- The run a call is about. -/
def subject : Call→Option Str
  | .logParameter runId _ _ => some runId
  | .logMetric runId _ => some runId
  | .updateRun runId _ _ => some runId
  | _ => none

/-- Every run of a task has what its task had served. -/
def Owned (server : Tracking Tasks) (applied : Tasks→List Request) : Prop :=
  ∀ runId record i,server.runs.lookup runId=some record → record.owner=some i →
    Records runId (applied i) record

/-- A request about no run, or another one, records nothing in a run. -/
theorem recorded_none {runId : Str} {asked : Request} (h : subject asked.call≠some runId) :
    paramOf runId asked=none ∧ metricOf runId asked=none ∧ statusOf runId asked=none := by
  obtain ⟨base,call⟩ := asked
  cases call with
  | logParameter other key value => exact ⟨if_neg (fun he => h (congrArg some he)),rfl,rfl⟩
  | logMetric other metric => exact ⟨rfl,if_neg (fun he => h (congrArg some he)),rfl⟩
  | updateRun other status endTime => exact ⟨rfl,rfl,if_neg (fun he => h (congrArg some he))⟩
  | _ => exact ⟨rfl,rfl,rfl⟩

/-- What one more request records in a list of recorded things. -/
theorem filterMap_snoc {α β : Type} (f : α→Option β) (items : List α) (item : α) :
    (items++[item]).filterMap f=items.filterMap f++(f item).toList := by
  rw [List.filterMap_append]
  cases h : f item with
  | none => rw [List.filterMap_cons_none h,List.filterMap_nil,Option.toList_none]
  | some found => rw [List.filterMap_cons_some h,List.filterMap_nil,Option.toList_some]

/-- A request about another run leaves a record. -/
theorem Records.append {runId : Str} {applied : List Request} {record : Record Tasks}
    (h : Records runId applied record) {asked : Request} (hasked : subject asked.call≠some runId) :
    Records runId (applied++[asked]) record := by
  obtain ⟨hparams,hmetrics,hstatus⟩ := h
  obtain ⟨hparam,hmetric,hnew⟩ := recorded_none hasked
  refine ⟨?_,?_,?_⟩
  · rw [filterMap_snoc,hparam,Option.toList_none,List.append_nil,hparams]
  · rw [filterMap_snoc,hmetric,Option.toList_none,List.append_nil,hmetrics]
  · rw [filterMap_snoc,hnew,Option.toList_none,List.append_nil,hstatus]

/-- A new run has nothing recorded. -/
theorem records_new {runId : Str} {applied : List Request}
    (h : ∀ asked∈applied,subject asked.call≠some runId) (i : Tasks) (experiment : Str) :
    Records runId applied ⟨some i,experiment,str "RUNNING",[],[]⟩ := by
  have hparams : applied.filterMap (paramOf runId)=[] :=
    List.filterMap_eq_nil_iff.mpr (fun asked hasked => (recorded_none (h asked hasked)).1)
  have hmetrics : applied.filterMap (metricOf runId)=[] :=
    List.filterMap_eq_nil_iff.mpr (fun asked hasked => (recorded_none (h asked hasked)).2.1)
  have hstatus : applied.filterMap (statusOf runId)=[] :=
    List.filterMap_eq_nil_iff.mpr (fun asked hasked => (recorded_none (h asked hasked)).2.2)
  exact ⟨hparams.symm,hmetrics.symm,by rw [hstatus]; rfl⟩

/-- A parameter is added to the record of its run. -/
theorem Records.parameter {runId : Str} {applied : List Request} {record : Record Tasks}
    (h : Records runId applied record) (base key value : Str) :
    Records runId (applied++[⟨base,.logParameter runId key value⟩])
      {record with params := record.params++[(key,value)]} := by
  have hparam : paramOf runId ⟨base,.logParameter runId key value⟩=some (key,value) := if_pos rfl
  have hmetric : metricOf runId ⟨base,.logParameter runId key value⟩=none := rfl
  have hstatus : statusOf runId ⟨base,.logParameter runId key value⟩=none := rfl
  refine ⟨?_,?_,?_⟩
  · rw [filterMap_snoc,hparam,Option.toList_some,h.params]
  · rw [filterMap_snoc,hmetric,Option.toList_none,List.append_nil,h.metrics]
  · rw [filterMap_snoc,hstatus,Option.toList_none,List.append_nil,h.status]

/-- A metric is added to the record of its run. -/
theorem Records.metric {runId : Str} {applied : List Request} {record : Record Tasks}
    (h : Records runId applied record) (base : Str) (metric : Metric) :
    Records runId (applied++[⟨base,.logMetric runId metric⟩])
      {record with metrics := record.metrics++[metric]} := by
  have hparam : paramOf runId ⟨base,.logMetric runId metric⟩=none := rfl
  have hmetric : metricOf runId ⟨base,.logMetric runId metric⟩=some metric := if_pos rfl
  have hstatus : statusOf runId ⟨base,.logMetric runId metric⟩=none := rfl
  refine ⟨?_,?_,?_⟩
  · rw [filterMap_snoc,hparam,Option.toList_none,List.append_nil,h.params]
  · rw [filterMap_snoc,hmetric,Option.toList_some,h.metrics]
  · rw [filterMap_snoc,hstatus,Option.toList_none,List.append_nil,h.status]

/-- A status replaces the one in the record of its run. -/
theorem Records.update {runId : Str} {applied : List Request} {record : Record Tasks}
    (h : Records runId applied record) (base status : Str) (endTime : ℕ) :
    Records runId (applied++[⟨base,.updateRun runId status endTime⟩])
      {record with status := status} := by
  have hparam : paramOf runId ⟨base,.updateRun runId status endTime⟩=none := rfl
  have hmetric : metricOf runId ⟨base,.updateRun runId status endTime⟩=none := rfl
  have hstatus : statusOf runId ⟨base,.updateRun runId status endTime⟩=some status := if_pos rfl
  refine ⟨?_,?_,?_⟩
  · rw [filterMap_snoc,hparam,Option.toList_none,List.append_nil,h.params]
  · rw [filterMap_snoc,hmetric,Option.toList_none,List.append_nil,h.metrics]
  · rw [filterMap_snoc,hstatus,Option.toList_some,List.getLast?_concat,Option.getD_some]

/-- A record whose run another request is not about stays what its owner's
requests made it. -/
theorem Owned.stays {applied applied' : Tasks→List Request} {j : Tasks} {asked : Request}
    (howned : Owned server applied) (happlied : applied' j=applied j++[asked])
    (hothers : ∀ i,i≠j → applied' i=applied i) {runId : Str} {record : Record Tasks} {i : Tasks}
    (hrecord : server.runs.lookup runId=some record) (howner : record.owner=some i)
    (hasked : subject asked.call≠some runId) : Records runId (applied' i) record := by
  by_cases hij : i=j
  · rw [hij] at howner
    rw [hij,happlied]
    exact (howned runId record j hrecord howner).append hasked
  · rw [hothers i hij]
    exact howned runId record i hrecord howner

/-- A request that is about no run leaves the records of all. -/
theorem Owned.unasked {applied applied' : Tasks→List Request} {j : Tasks} {asked : Request}
    (howned : Owned server applied) (happlied : applied' j=applied j++[asked])
    (hothers : ∀ i,i≠j → applied' i=applied i) (hnone : subject asked.call=none) :
    Owned server applied' := by
  intro runId record i hrecord hi
  refine howned.stays happlied hothers hrecord hi ?_
  rw [hnone]
  exact Option.some_ne_none runId |>.symm

/-- A request about one run leaves the others, and changes the record of its own. -/
theorem Owned.set {applied applied' : Tasks→List Request} {j : Tasks} {asked : Request}
    (howned : Owned server applied) (happlied : applied' j=applied j++[asked])
    (hothers : ∀ i,i≠j → applied' i=applied i) {runId : Str} {record record' : Record Tasks}
    (hrecord : server.runs.lookup runId=some record) (hsubject : subject asked.call=some runId)
    (hj : record.owner=some j) (howner : record'.owner=record.owner)
    (hchange : Records runId (applied j) record → Records runId (applied j++[asked]) record') :
    Owned (server.set runId record') applied' := by
  intro other found i hfound hi
  rw [lookup_set] at hfound
  split at hfound
  · rename_i hsame
    rw [←Option.some.inj hfound,howner,hj,Option.some.injEq] at hi
    rw [hsame,←Option.some.inj hfound,←hi,happlied]
    exact hchange (howned runId record j hrecord hj)
  · rename_i hother
    refine howned.stays happlied hothers hfound hi (fun he => hother ?_)
    rw [hsubject,Option.some.injEq] at he
    exact he.symm

/-- Serving a request of a task keeps every run what its task had served, if
tasks only ask about runs of their own. -/
theorem owned_serves {applied applied' : Tasks→List Request} {j : Tasks} {asked : Request}
    {reply : Reply} (howned : Owned server applied)
    (hserves : Serves interp j server asked server' reply)
    (happlied : applied' j=applied j++[asked]) (hothers : ∀ i,i≠j → applied' i=applied i)
    (hfresh : ∀ runId,runId∉server.runs → ∀ earlier∈applied j,subject earlier.call≠some runId)
    (hown : ∀ runId record,server.runs.lookup runId=some record →
      subject asked.call=some runId → record.owner=some j) : Owned server' applied' := by
  cases hserves with
  | created free reads => exact howned.unasked happlied hothers rfl
  | taken old carries => exact howned.unasked happlied hothers rfl
  | found known reads => exact howned.unasked happlied hothers rfl
  | @run base experiment runId startTime tags created known fresh reads =>
    intro other found i hfound hi
    rw [lookup_set] at hfound
    split at hfound
    · rename_i hsame
      rw [←Option.some.inj hfound,Option.some.injEq] at hi
      rw [hsame,←Option.some.inj hfound,←hi,happlied]
      refine records_new (fun earlier hearlier => ?_) j experiment
      rcases List.mem_append.mp hearlier with hearlier|hearlier
      · exact hfresh runId fresh earlier hearlier
      · rw [List.mem_singleton.mp hearlier]
        exact Option.some_ne_none runId |>.symm
    · exact howned.unasked happlied hothers rfl other found i hfound hi
  | @parameter base runId key value record reply known =>
    exact howned.set happlied hothers known rfl (hown runId record known rfl) rfl
      (fun hrecords => hrecords.parameter base key value)
  | @metric base runId metric record reply known =>
    exact howned.set happlied hothers known rfl (hown runId record known rfl) rfl
      (fun hrecords => hrecords.metric base metric)
  | @updated base runId status endTime record reply known =>
    exact howned.set happlied hothers known rfl (hown runId record known rfl) rfl
      (fun hrecords => hrecords.update base status endTime)

/-- The run a request of a task is about is one it created. -/
theorem created_of_subject {log : List (Request×Reply)} {task : Task} {asked : Request}
    {runId : Str} (h : Asked interp task log asked) (hsubject : subject asked.call=some runId) :
    Created interp log runId := by
  obtain ⟨-,hearned⟩ := h
  obtain ⟨base,call⟩ := asked
  cases call with
  | logParameter other key value => exact Option.some.inj hsubject ▸ hearned.2
  | logMetric other metric => exact Option.some.inj hsubject ▸ hearned.2
  | updateRun other status endTime => exact Option.some.inj hsubject ▸ hearned.2.1
  | createExperiment name => cases hsubject
  | getByName name => cases hsubject
  | createRun experiment startTime tags => cases hsubject

/-- A task owns the runs its requests are about. -/
theorem owner_of_subject (h : Reaches (tracker interp Tasks) (initial interp task first) s)
    {i : Tasks} {asked : Request} (hasked : asked∈(s.client i).applied ∨ (s.client i).Open asked)
    {runId : Str} (hsubject : subject asked.call=some runId) :
    ∃ record,s.server.runs.lookup runId=some record ∧ record.owner=some i := by
  obtain ⟨before,after,hsplit,hmet⟩ :=
    (kept_of_reaches h i).meets (logOneRun_meets interp (task i)) hasked
  exact owner_of_created h hsplit (created_of_subject hmet hsubject)

/-- What a server has before any of the tasks asks it. -/
structure Prior (first : Tracking Tasks) : Prop where
  /-- Experiments have different names. -/
  names : (first.experiments.map Prod.fst).Nodup
  /-- The runs are not of these tasks. -/
  unowned : ∀ runId record,first.runs.lookup runId=some record → record.owner=none

/-- Every run of a task has what its task had served. -/
theorem owned_of_reaches (hprior : Prior first)
    (h : Reaches (tracker interp Tasks) (initial interp task first) s) :
    Owned s.server (fun i => (s.client i).applied) := by
  induction h with
  | refl =>
    intro runId record i hrecord howner
    rw [hprior.unowned runId record hrecord] at howner
    cases howner
  | @tail s₁ s₂ hreach hnext ih =>
    obtain ⟨j,hmove,hothers⟩ := hnext
    have hothers' : ∀ i,i≠j → (s₂.client i).applied=(s₁.client i).applied :=
      fun i hi => by rw [hothers i hi]
    rcases hmove.server_cases with ⟨hserver,happlied⟩|⟨asked,reply,hopen,hserves,happlied⟩
    · have hsame : ∀ i,(s₂.client i).applied=(s₁.client i).applied := by
        intro i
        by_cases hij : i=j
        · rw [hij]
          exact happlied
        · exact hothers' i hij
      rw [hserver]
      intro runId record i hrecord howner
      dsimp only
      rw [hsame i]
      exact ih runId record i hrecord howner
    · refine owned_serves ih hserves happlied hothers' ?_ ?_
      · intro runId hfresh earlier hearlier hsubject
        obtain ⟨record,hrecord,-⟩ := owner_of_subject hreach (Or.inl hearlier) hsubject
        rw [AList.lookup_eq_none.mpr hfresh] at hrecord
        cases hrecord
      · intro runId record hrecord hsubject
        obtain ⟨record',hrecord',howner⟩ := owner_of_subject hreach (Or.inr hopen) hsubject
        rw [hrecord,Option.some.injEq] at hrecord'
        rw [hrecord']
        exact howner

/-- Experiments always have different names. -/
theorem names_nodup (hprior : Prior first)
    (h : Reaches (tracker interp Tasks) (initial interp task first) s) :
    (s.server.experiments.map Prod.fst).Nodup := by
  refine server_invariant (fun server => (server.experiments.map Prod.fst).Nodup) ?_ h hprior.names
  intro i asked reply server server' hserves hnodup
  cases hserves with
  | created free reads =>
    dsimp only
    rw [List.map_append,List.map_singleton]
    exact hnodup.append (List.nodup_singleton _) (List.disjoint_singleton.mpr free)
  | _ => exact hnodup

/-- An experiment a task was told of is the one with the name. -/
theorem experiment_of_obtained (h : Reaches (tracker interp Tasks) (initial interp task first) s)
    {i : Tasks} {before after : List (Request×Reply)} {experiment : Str}
    (hsplit : (s.client i).log=before++after) (hobtained : Obtained interp before experiment) :
    (experimentName,experiment)∈s.server.experiments := by
  have htold : ∀ call reply,Answered before call (.ok reply) →
      Says i interp call (.ok reply) s.server := by
    intro call reply hanswered
    obtain ⟨base,hm⟩ := hanswered
    have hentry := (truthful h i).told _ (hsplit ▸ List.mem_append_left _ hm)
    exact (hentry.resolve_left not_false).holds
  rcases hobtained with ⟨created,hanswered,hreads⟩|⟨found,hanswered,hreads⟩
  · obtain ⟨id,hid,hm⟩ := htold _ _ hanswered
    rw [hreads,Except.ok.injEq] at hid
    rw [hid]
    exact hm
  · obtain ⟨id,hid,hm⟩ := htold _ _ hanswered
    rw [hreads,Except.ok.injEq] at hid
    rw [hid]
    exact hm

/-- The task has come to the end of `experiment_id` with this experiment. -/
def HasExperiment (interp : Interp) (client : Client Request Reply (Except Raised Str))
    (experiment : Str) : Prop :=
  ∃ base before after,client.log=before++after ∧
    Path (experimentId interp base) before (.done (.ok experiment))

/-- Then it was told of it. -/
theorem experiment_of_has (h : Reaches (tracker interp Tasks) (initial interp task first) s)
    {i : Tasks} {experiment : Str} (hhas : HasExperiment interp (s.client i) experiment) :
    (experimentName,experiment)∈s.server.experiments := by
  obtain ⟨base,before,after,hsplit,hpath⟩ := hhas
  have hfinds := ((experimentId_meets interp (task i) base).path hpath).1
  exact experiment_of_obtained h hsplit hfinds.2

/-- Of requests of which at most one is of a kind, that one is all that is
recorded of the kind. -/
theorem filterMap_unique {α β κ : Type} {f : α→Option β} {key : α→κ} {items : List α} {item : α}
    {found : β} (hnodup : (items.map key).Nodup) (hm : item∈items) (hfound : f item=some found)
    (hkey : ∀ other∈items,f other≠none → key other=key item) : items.filterMap f=[found] := by
  obtain ⟨before,after,rfl⟩ := List.append_of_mem hm
  rw [List.map_append,List.map_cons,List.nodup_append,List.nodup_cons] at hnodup
  obtain ⟨-,⟨hafter,-⟩,hbefore⟩ := hnodup
  have hnone : ∀ other∈before++after,f other=none := by
    intro other hother
    by_contra hsome
    rcases List.mem_append.mp hother with hother|hother
    · have heq := hkey other (List.mem_append_left _ hother) hsome
      exact hbefore (key other) (List.mem_map_of_mem hother) (key item) List.mem_cons_self heq
    · have heq := hkey other (List.mem_append_right _ (List.mem_cons_of_mem _ hother)) hsome
      exact hafter (heq ▸ List.mem_map_of_mem hother)
  have hfirst := List.filterMap_eq_nil_iff.mpr (fun other hother =>
    hnone other (List.mem_append_left after hother))
  have hlast := List.filterMap_eq_nil_iff.mpr (fun other hother =>
    hnone other (List.mem_append_right before hother))
  rw [List.filterMap_append,List.filterMap_cons_some hfound,hfirst,hlast,List.nil_append]

/-- No call of a task is served twice. -/
theorem stages_nodup (h : Reaches (tracker interp Tasks) (initial interp task first) s)
    (i : Tasks) : ((s.client i).applied.map (fun asked => stage asked.call)).Nodup := by
  refine (kept_of_reaches h i).nodup (logOneRun_meets interp (task i)) (fun log asked hasked hm => ?_)
  obtain ⟨entry,hentry,hstage⟩ := List.mem_map.mp hm
  have hearlier := hasked.1.1 entry hentry
  rw [hstage] at hearlier
  exact Nat.lt_irrefl _ hearlier

/-- A call that was answered was served. -/
theorem applied_of_answered (h : Reaches (tracker interp Tasks) (initial interp task first) s)
    {i : Tasks} {before after : List (Request×Reply)} {call : Call} {reply : Json}
    (hsplit : (s.client i).log=before++after) (hanswered : Answered before call (.ok reply)) :
    ∃ base,⟨base,call⟩∈(s.client i).applied := by
  obtain ⟨base,hm⟩ := hanswered
  have hentry := (kept_of_reaches h i).answered _ (hsplit ▸ List.mem_append_left _ hm)
  exact ⟨base,hentry.resolve_left not_false⟩

/-- A run whose task had this served has this one parameter. -/
theorem params_unique (h : Reaches (tracker interp Tasks) (initial interp task first) s)
    {i : Tasks} {base runId : Str}
    (hm : ⟨base,.logParameter runId paramKey paramValue⟩∈(s.client i).applied) :
    (s.client i).applied.filterMap (paramOf runId)=[(paramKey,paramValue)] := by
  refine filterMap_unique (stages_nodup h i) hm (if_pos rfl) (fun other hother hsome => ?_)
  obtain ⟨base,call⟩ := other
  cases call with
  | logParameter other key value => rfl
  | _ => exact absurd rfl hsome

/-- A run whose task had this served has this one metric. -/
theorem metrics_unique (h : Reaches (tracker interp Tasks) (initial interp task first) s)
    {i : Tasks} {base runId : Str} {metric : Metric}
    (hm : ⟨base,.logMetric runId metric⟩∈(s.client i).applied) :
    (s.client i).applied.filterMap (metricOf runId)=[metric] := by
  refine filterMap_unique (stages_nodup h i) hm (if_pos rfl) (fun other hother hsome => ?_)
  obtain ⟨base,call⟩ := other
  cases call with
  | logMetric other metric => rfl
  | _ => exact absurd rfl hsome

/-- A finished run of a task was finished by a request of it. -/
theorem update_of_finished {applied : List Request} {runId : Str} {record : Record Tasks}
    (h : Records runId applied record) (hfinished : record.status=str "FINISHED") :
    ∃ base status endTime,⟨base,.updateRun runId status endTime⟩∈applied := by
  have hstatus := h.status
  rw [hfinished] at hstatus
  cases hlast : (applied.filterMap (statusOf runId)).getLast? with
  | none =>
    rw [hlast,Option.getD_none] at hstatus
    exact absurd hstatus (by decide)
  | some status =>
    obtain ⟨asked,hm,hasked⟩ := List.mem_filterMap.mp (List.mem_of_getLast? hlast)
    obtain ⟨base,call⟩ := asked
    cases call with
    | updateRun other set endTime =>
      by_cases hother : other=runId
      · rw [hother] at hm
        exact ⟨base,set,endTime,hm⟩
      · have hnone : statusOf runId ⟨base,.updateRun other set endTime⟩=none := if_neg hother
        rw [hnone] at hasked
        cases hasked
    | _ => cases hasked

/-- A finished run has exactly the parameter and the metric of its task. -/
theorem finished_recorded (hprior : Prior first)
    (h : Reaches (tracker interp Tasks) (initial interp task first) s) {runId : Str}
    {record : Record Tasks} {i : Tasks} (hrecord : s.server.runs.lookup runId=some record)
    (howner : record.owner=some i) (hfinished : record.status=str "FINISHED") :
    record.params=[(paramKey,paramValue)] ∧ record.metrics=[(task i).metric] := by
  have hrecords := owned_of_reaches hprior h runId record i hrecord howner
  obtain ⟨base,status,endTime,hm⟩ := update_of_finished hrecords hfinished
  obtain ⟨before,after,hsplit,-,-,-,⟨reply,hparameter⟩,reply',hmetric⟩ :=
    (kept_of_reaches h i).meets (logOneRun_meets interp (task i)) (Or.inl hm)
  obtain ⟨base₁,hparam⟩ := applied_of_answered h hsplit hparameter
  obtain ⟨base₂,hmeasured⟩ := applied_of_answered h hsplit hmetric
  rw [hrecords.params,hrecords.metrics]
  exact ⟨params_unique h hparam,metrics_unique h hmeasured⟩

/-- A task that has returned a run finished it. -/
theorem finished_of_returned (h : Reaches (tracker interp Tasks) (initial interp task first) s)
    {i : Tasks} {runId : Str} (hend : (s.client i).Ended (.ok runId)) :
    ∃ record,s.server.runs.lookup runId=some record ∧ record.status=str "FINISHED" := by
  rcases (kept_of_reaches h i).result (logOneRun_meets interp (task i)) hend with
    ⟨raised,-,hraised⟩|⟨endTime,reply,base,hm⟩
  · cases hraised
  · have hentry := (truthful h i).told _ hm
    exact (hentry.resolve_left not_false).holds rfl

/-- A task with an address raises only what a request raised. -/
theorem returned_of_expected (h : Reaches (tracker interp Tasks) (initial interp task first) s)
    {i : Tasks} {result : Except Raised Str} (hend : (s.client i).Ended result) {base : Str}
    (haddress : trackingBase (task i).environ=.ok base)
    (hexpected : ∀ entry∈(s.client i).log,¬OtherFailure entry.2) : ∃ runId,result=.ok runId := by
  cases result with
  | ok runId => exact ⟨runId,rfl⟩
  | error raised =>
    rcases (kept_of_reaches h i).result (logOneRun_meets interp (task i)) hend with
      ⟨raised',hnone,-⟩|⟨entry,hm,hbad⟩
    · rw [haddress] at hnone
      cases hnone
    · have hfact := ((truthful h i).told entry hm).resolve_left (hexpected entry hm)
      exact absurd hbad hfact.good

/-- There is a name for a new run. -/
theorem exists_fresh (server : Tracking Tasks) : ∃ runId,runId∉server.runs := by
  obtain ⟨runId,hfresh⟩ := Infinite.exists_notMem_finset server.runs.keys.toFinset
  rw [List.mem_toFinset] at hfresh
  exact ⟨runId,hfresh⟩

/-- An answer that names a created experiment. -/
def experimentReply (id : Str) : Json := .dict [(str "experiment_id",.str id)]

/-- An answer that names a found experiment. -/
def foundReply (id : Str) : Json := .dict [(str "experiment",experimentReply id)]

/-- An answer that names a created run. -/
def runReply (runId : Str) : Json :=
  .dict [(str "run",.dict [(str "info",.dict [(str "run_id",.str runId)])])]

/-- The server can serve what a task asks. -/
theorem exists_serves (h : Reaches (tracker interp Tasks) (initial interp task first) s)
    {i : Tasks} {asked : Request} (hopen : (s.client i).Open asked) :
    ∃ server' reply,Serves interp i s.server asked server' reply := by
  obtain ⟨before,after,hsplit,hmet⟩ :=
    (kept_of_reaches h i).meets (logOneRun_meets interp (task i)) (Or.inr hopen)
  have hsubject : ∀ runId,subject asked.call=some runId →
      ∃ record,s.server.runs.lookup runId=some record := by
    intro runId hsubject
    obtain ⟨record,hrecord,-⟩ := owner_of_subject h (Or.inr hopen) hsubject
    exact ⟨record,hrecord⟩
  obtain ⟨base,call⟩ := asked
  cases call with
  | createExperiment name =>
    by_cases hfree : name∈s.server.experiments.map Prod.fst
    · exact ⟨_,_,.taken hfree (List.infix_refl alreadyExists)⟩
    · have hreads : createdExperiment interp (experimentReply [])=.ok [] := by
        simp [createdExperiment,experimentReply,member,textOf,Except.map]
      exact ⟨_,_,.created hfree hreads⟩
  | getByName name =>
    obtain ⟨-,hname,detail,hcarries,base',hm⟩ := hmet
    have hentry := (truthful h i).told _ (hsplit ▸ List.mem_append_left _ hm)
    have htaken : experimentName∈s.server.experiments.map Prod.fst :=
      (hentry.resolve_left (not_not.mpr hcarries)).holds
    obtain ⟨experiment,hexperiment,hname'⟩ := List.mem_map.mp htaken
    have hknown : (name,experiment.2)∈s.server.experiments := by
      rw [show name=experimentName from hname,←hname']
      exact hexperiment
    have hreads : foundExperiment interp (foundReply experiment.2)=.ok experiment.2 := by
      simp [foundExperiment,foundReply,experimentReply,member,textOf,Except.map,Except.bind]
    exact ⟨_,_,.found hknown hreads⟩
  | createRun experiment startTime tags =>
    obtain ⟨runId,hfresh⟩ := exists_fresh s.server
    have hknown : experiment∈s.server.experiments.map Prod.snd :=
      List.mem_map_of_mem (experiment_of_obtained h hsplit hmet.2)
    have hreads : createdRun interp (runReply runId)=.ok runId := by
      simp [createdRun,runReply,member,textOf,Except.map,Except.bind]
    exact ⟨_,_,.run hknown hfresh hreads⟩
  | logParameter runId key value =>
    obtain ⟨record,hrecord⟩ := hsubject runId rfl
    have hserves : Serves interp i s.server ⟨base,.logParameter runId key value⟩ _ (.ok .none) :=
      .parameter hrecord
    exact ⟨_,_,hserves⟩
  | logMetric runId metric =>
    obtain ⟨record,hrecord⟩ := hsubject runId rfl
    have hserves : Serves interp i s.server ⟨base,.logMetric runId metric⟩ _ (.ok .none) :=
      .metric hrecord
    exact ⟨_,_,hserves⟩
  | updateRun runId status endTime =>
    obtain ⟨record,hrecord⟩ := hsubject runId rfl
    have hserves : Serves interp i s.server ⟨base,.updateRun runId status endTime⟩ _ (.ok .none) :=
      .updated hrecord
    exact ⟨_,_,hserves⟩

/-- A task that has not ended can go on, and nothing else fails by that. -/
theorem ended_or_next (h : Reaches (tracker interp Tasks) (initial interp task first) s)
    (i : Tasks) :
    (∃ result,(s.client i).Ended result) ∨
      ∃ s',Next (tracker interp Tasks) s s' ∧ (s.client i).progress<(s'.client i).progress ∧
        ∀ entry∈(s'.client i).log,entry∈(s.client i).log ∨ ¬OtherFailure entry.2 := by
  have htotal : ∀ asked∈(s.client i).phase.unserved,∃ server' reply,
      (tracker interp Tasks).serves i s.server asked server' reply :=
    fun asked hasked => exists_serves h (Or.inr hasked)
  exact ended_or_further (truthful h i)
    (fun _ _ hfact => hfact.expected) htotal

/-- A task asks six requests at most. -/
theorem progress_le (h : Reaches (tracker interp Tasks) (initial interp task first) s)
    (i : Tasks) : (s.client i).progress≤18 := by
  have hsix : Meets (fun log (_ : Request) => log.length<6) (fun _ _ => True) []
      (logOneRun interp (task i)) := by
    refine (logOneRun_meets interp (task i)).mono (fun log asked hasked => ?_) (fun _ _ _ => trivial)
    obtain ⟨base,call⟩ := asked
    have hlength := hasked.1.2
    cases call <;> simp only [stage] at hlength <;> omega
  exact (kept_of_reaches h i).progress_le hsix

/-- A task with an address that met no other failure can go on until it has
returned a run. -/
theorem exists_returned (h : Reaches (tracker interp Tasks) (initial interp task first) s)
    (i : Tasks) {base : Str} (haddress : trackingBase (task i).environ=.ok base)
    (hexpected : ∀ entry∈(s.client i).log,¬OtherFailure entry.2) :
    ∃ s' runId,Reaches (tracker interp Tasks) s s' ∧ (s'.client i).Ended (.ok runId) := by
  -- the steps that are left, of the eighteen a task takes at most
  induction hleft : 18-(s.client i).progress using Nat.strong_induction_on generalizing s with
  | _ left ih =>
    rcases ended_or_next h i with ⟨result,hend⟩|⟨next,hnext,hfurther,hentries⟩
    · obtain ⟨runId,rfl⟩ := returned_of_expected h hend haddress hexpected
      exact ⟨s,runId,.refl,hend⟩
    · have hreached := h.tail hnext
      have hbound := progress_le hreached i
      obtain ⟨s',runId,hrest,hend⟩ := ih (18-(next.client i).progress) (by omega) hreached
        (fun entry hentry => (hentries entry hentry).elim (hexpected entry) id) rfl
      exact ⟨s',runId,.head hnext hrest,hend⟩

/-- What holds of the tasks and their server at any time. -/
structure Idempotent (interp : Interp) (task : Tasks→Task) (s : Smoke Tasks) : Prop where
  /-- At most one experiment with the name is ever created: there is never
  more than one, and none is ever deleted. -/
  one : (s.server.experiments.map Prod.fst).count experimentName≤1 ∧
    ∀ s',Reaches (tracker interp Tasks) s s' → s.server.experiments⊆s'.server.experiments
  /-- All tasks that have an experiment have the same. -/
  same : ∀ i j experiment other,HasExperiment interp (s.client i) experiment →
    HasExperiment interp (s.client j) other → experiment=other
  /-- A task takes eighteen steps at most. If it has an address and none of its
  requests failed otherwise, it has returned a run, or it can go on without such
  a failure. -/
  completes : ∀ i base,trackingBase (task i).environ=.ok base → (s.client i).progress≤18 ∧
    (∀ server client,Move (tracker interp Tasks) i s.server (s.client i) server client →
      Counts (s.client i) client) ∧
    ((∀ entry∈(s.client i).log,¬OtherFailure entry.2) →
      (∃ runId,(s.client i).Ended (.ok runId)) ∨
      ∃ s',Next (tracker interp Tasks) s s' ∧ (s.client i).progress<(s'.client i).progress ∧
        ∀ entry∈(s'.client i).log,¬OtherFailure entry.2)
  /-- A finished run has exactly the parameter and the metric of the task that
  created it. -/
  recorded : ∀ runId record i,s.server.runs.lookup runId=some record → record.owner=some i →
    record.status=str "FINISHED" →
    record.params=[(paramKey,paramValue)] ∧ record.metrics=[(task i).metric]
  /-- A task returns a run only if it is finished, and it stays so. -/
  finished : ∀ i runId,(s.client i).Ended (.ok runId) →
    ∀ s',Reaches (tracker interp Tasks) s s' →
      ∃ record,s'.server.runs.lookup runId=some record ∧ record.status=str "FINISHED"

/-- The smoke DAG is idempotent under any interleaving of any number of tasks,
and wherever requests or their answers are lost. -/
theorem smoke_idempotent (hprior : Prior first)
    (h : Reaches (tracker interp Tasks) (initial interp task first) s) :
    Idempotent interp task s := by
  have hnodup := names_nodup hprior h
  refine ⟨⟨List.nodup_iff_count_le_one.mp hnodup _,fun s' hs' => ?_⟩,
    fun i j experiment other hi hj => ?_,fun i base haddress =>
      ⟨progress_le h i,fun server client hmove => hmove.counts,fun hexpected => ?_⟩,
    fun runId record i => finished_recorded hprior h,fun i runId hend s' hs' => ?_⟩
  · refine server_invariant (fun server => s.server.experiments⊆server.experiments) ?_ hs'
      (List.Subset.refl _)
    intro i asked reply server server' hserves hsub
    exact List.Subset.trans hsub (experiments_subset hserves)
  · have hexperiment := experiment_of_has h hi
    have hother := experiment_of_has h hj
    have hpair := List.inj_on_of_nodup_map hnodup hexperiment hother rfl
    exact (Prod.mk.inj hpair).2
  · rcases ended_or_next h i with ⟨result,hend⟩|⟨s',hnext,hfurther,hentries⟩
    · obtain ⟨runId,rfl⟩ := returned_of_expected h hend haddress hexpected
      exact Or.inl ⟨runId,hend⟩
    · refine Or.inr ⟨s',hnext,hfurther,fun entry hentry => ?_⟩
      exact (hentries entry hentry).elim (hexpected entry) id
  · exact finished_of_returned (h.trans hs') (ended_of_reaches hend hs')

/-- The environment compose gives to Airflow. -/
def composeEnviron : Pairs := (∅ : Pairs).insert trackingUriVariable (str "http://mlflow:5000")

/-- A task of the compose file. -/
def composeTask : Task := ⟨composeEnviron,1767225600000,1767225601000⟩

/-- A server without experiments and runs. -/
def emptyServer : Tracking Bool := ⟨[],∅⟩

/-- What a task is told when an answer does not arrive in time. -/
def timedOut : Reply := .error (.other (str "timed out"))

/-- The first request of a task. -/
def firstRequest : Request := ⟨str "http://mlflow:5000",.createExperiment experimentName⟩

/-- The first of two tasks is so far, and the second one has not begun. -/
def firstAlone (interp : Interp) (server : Tracking Bool)
    (client : Client Request Reply (Except Raised Str)) : Smoke Bool :=
  ⟨server,Function.update (initial interp (fun _ => composeTask) emptyServer).client false client⟩

/-- The server created the experiment, and the first task never heard of it. -/
def lostCreation (interp : Interp) : Smoke Bool :=
  firstAlone interp ⟨[(experimentName,str "1")],∅⟩
    ⟨.running (.done (.error (.other (str "timed out")))),[],[firstRequest],[(firstRequest,timedOut)]⟩

/-- A move of the first task leaves the second one where it is. -/
theorem next_firstAlone {server server' : Tracking Bool}
    {client client' : Client Request Reply (Except Raised Str)}
    (h : Move (tracker interp Bool) false server client server' client') :
    Next (tracker interp Bool) (firstAlone interp server client)
      (firstAlone interp server' client') := by
  refine ⟨false,?_,fun j hj => ?_⟩
  · simp only [firstAlone,Function.update_self]
    exact h
  · simp only [firstAlone,Function.update_of_ne hj]

theorem compose_trackingBase : trackingBase composeTask.environ=.ok (str "http://mlflow:5000") := by
  have hbase : withoutSlashes ((composeEnviron.lookup trackingUriVariable).getD [])=
      str "http://mlflow:5000" := by decide +kernel
  rw [composeTask,trackingBase,hbase]
  rfl

theorem lostCreation_reaches (interp : Interp) :
    Reaches (tracker interp Bool) (initial interp (fun _ => composeTask) emptyServer)
      (lostCreation interp) := by
  obtain ⟨next,hprogram,hnext⟩ : ∃ next,logOneRun interp composeTask=.ask firstRequest next ∧
      next timedOut=.done (.error (.other (str "timed out"))) := by
    unfold logOneRun
    rw [compose_trackingBase]
    exact ⟨_,rfl,rfl⟩
  obtain ⟨answer,hanswer⟩ : ∃ answer : Reply,answer=.ok (experimentReply (str "1")) := ⟨_,rfl⟩
  have hserved : (tracker interp Bool).serves false emptyServer firstRequest
      ⟨[(experimentName,str "1")],∅⟩ answer := by
    rw [hanswer]
    refine .created List.not_mem_nil ?_
    simp [createdExperiment,experimentReply,member,textOf,Except.map]
  have hfailed : (tracker interp Bool).fails firstRequest timedOut := trivial
  have hfirst : Next (tracker interp Bool) (initial interp (fun _ => composeTask) emptyServer)
      (firstAlone interp emptyServer ⟨.waiting firstRequest next none,[],[],[]⟩) := by
    have hinitial : initial interp (fun _ => composeTask) emptyServer=
        firstAlone interp emptyServer ⟨.running (.ask firstRequest next),[],[],[]⟩ := by
      rw [firstAlone,←hprogram]
      exact congrArg (State.mk emptyServer) (Function.update_eq_self false _).symm
    rw [hinitial]
    exact next_firstAlone .send
  have hthird : Next (tracker interp Bool) (firstAlone interp ⟨[(experimentName,str "1")],∅⟩
      ⟨.waiting firstRequest next (some answer),[],[firstRequest],[]⟩) (lostCreation interp) := by
    rw [lostCreation,←hnext]
    exact next_firstAlone (.lose hfailed)
  exact .tail (.tail (.tail .refl hfirst) (next_firstAlone (.serve hserved))) hthird

/-- An interpreter that is asked nothing here. -/
def idleInterp : Interp := ⟨fun _ => .error (.decode []),fun _ => []⟩

/-- The second task finds the experiment and finishes its run. -/
theorem smoke_idempotent_lostCreation :
    ∃ s runId,Reaches (tracker idleInterp Bool) (lostCreation idleInterp) s ∧
      (s.client true).Ended (.ok runId) ∧ (experimentName,str "1")∈s.server.experiments ∧
      Idempotent idleInterp (fun _ => composeTask) s := by
  have hprior : Prior emptyServer := ⟨List.nodup_nil,fun runId record hrecord => by cases hrecord⟩
  have hlost := lostCreation_reaches idleInterp
  have hquiet : ((lostCreation idleInterp).client true).log=[] := by
    simp [lostCreation,firstAlone,initial,start]
  obtain ⟨s,runId,hs,hend⟩ := exists_returned hlost true compose_trackingBase
    (fun entry hentry => by rw [hquiet] at hentry; cases hentry)
  have hkept := (smoke_idempotent hprior hlost).one.2 s hs
  exact ⟨s,runId,hs,hend,hkept (List.mem_singleton_self _),smoke_idempotent hprior (hlost.trans hs)⟩

end MlopsPlatform.SmokeDagRuns
