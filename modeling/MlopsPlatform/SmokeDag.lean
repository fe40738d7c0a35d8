import MlopsPlatform.RequestInterleaving
import MlopsPlatform.PythonJson
import MlopsPlatform.PreflightCredentials
import Mathlib.Data.Rat.Defs

/-!
# The smoke DAG against a tracking server

`log_one_run` finds or creates its experiment, creates a run, writes one
parameter and one metric and marks the run finished. The tracking server serves
one request at a time; any number of tasks run against it at once.
-/

namespace MlopsPlatform.SmokeDag

open TextCodec PythonJson RequestInterleaving
open PreflightCredentials (Pairs)

/-- `DAG_ID` -/
def dagId : Str := str "m0_smoke"

/-- `EXPERIMENT_NAME` -/
def experimentName : Str := str "m0-smoke"

/-- `TRACKING_URI_VARIABLE` -/
def trackingUriVariable : Str := str "MLFLOW_TRACKING_URI"

/-- `PARAM_KEY` -/
def paramKey : Str := str "stack"

/-- `PARAM_VALUE` -/
def paramValue : Str := str "compose"

/-- `METRIC_KEY` -/
def metricKey : Str := str "wired"

/-- `METRIC_VALUE` -/
def metricValue : ℚ := 1

/-- `ALREADY_EXISTS` -/
def alreadyExists : Str := str "RESOURCE_ALREADY_EXISTS"

/-- A value of a metric, when it was measured and at which step. -/
structure Metric where
  /-- The name. -/
  key : Str
  /-- The value. -/
  value : ℚ
  /-- When, in milliseconds. -/
  timestamp : ℕ
  /-- The step. -/
  step : ℕ

/-- What is asked of the tracking server. -/
inductive Call where
  /-- POST `experiments/create` -/
  | createExperiment (name : Str)
  /-- GET `experiments/get-by-name` -/
  | getByName (name : Str)
  /-- POST `runs/create` -/
  | createRun (experimentId : Str) (startTime : ℕ) (tags : List (Str×Str))
  /-- POST `runs/log-parameter` -/
  | logParameter (runId key value : Str)
  /-- POST `runs/log-metric` -/
  | logMetric (runId : Str) (metric : Metric)
  /-- POST `runs/update` -/
  | updateRun (runId status : Str) (endTime : ℕ)

/-- A request to the server at an address. -/
structure Request where
  /-- The address. -/
  base : Str
  /-- What is asked. -/
  call : Call

/-- What a task raises. -/
inductive Raised where
  /-- `HTTPError`, by the body of the answer. -/
  | http (detail : Str)
  /-- `KeyError` or `TypeError`: the answer is not of the form that is read. -/
  | malformed (field : Str)
  /-- `RuntimeError` -/
  | runtime (message : Str)
  /-- Anything else: no connection, no answer in time, an answer that is not JSON. -/
  | other (message : Str)

/-- What a request comes back with: the parsed answer. -/
abbrev Reply := Except Raised Json

/-- A program that asks the tracking server. -/
abbrev Asking (α : Type) := Program Request Reply (Except Raised α)

/-- Go on with what a program returns, and raise what it raises. -/
def andThen {α β : Type} (first : Asking α) (rest : α→Asking β) : Asking β :=
  first.bind (fun result =>
    match result with
    | .error raised => .done (.error raised)
    | .ok value => rest value)

/-- `value[name]` -/
def member (value : Json) (name : Str) : Except Raised Json :=
  match value with
  | .dict fields =>
    match fields.lookup name with
    | none => .error (.malformed name)
    | some found => .ok found
  | _ => .error (.malformed name)

/-- `str(value)` -/
def textOf (interp : Interp) : Json→Str
  | .str value => value
  | value => interp.repr value

/-- `base.rstrip("/")` -/
def withoutSlashes (base : Str) : Str := base.rdropWhile (fun c => c=0x2f)

/-- `tracking_base()` -/
def trackingBase (environ : Pairs) : Except Raised Str :=
  let base := withoutSlashes ((environ.lookup trackingUriVariable).getD [])
  if base=[] then
    .error (.runtime (trackingUriVariable++
      str " is unset in this container, so there is no tracking server "++
      str "to write to. The compose file sets it on the airflow service; if this fires, that "++
      str "service is running with an environment the committed file does not describe"))
  else .ok base

/-- `_post(base, path, payload)` and `_get(base, path, query)` -/
def request (base : Str) (call : Call) : Asking Json := .ask ⟨base,call⟩ .done

/-- `str(created["experiment_id"])` -/
def createdExperiment (interp : Interp) (created : Json) : Except Raised Str :=
  (member created (str "experiment_id")).map (textOf interp)

/-- `str(found["experiment"]["experiment_id"])` -/
def foundExperiment (interp : Interp) (found : Json) : Except Raised Str :=
  ((member found (str "experiment")).bind (fun experiment =>
    member experiment (str "experiment_id"))).map (textOf interp)

/-- `str(created["run"]["info"]["run_id"])` -/
def createdRun (interp : Interp) (created : Json) : Except Raised Str :=
  (((member created (str "run")).bind (fun run => member run (str "info"))).bind (fun info =>
    member info (str "run_id"))).map (textOf interp)

/-- `experiment_id(base)` -/
def experimentId (interp : Interp) (base : Str) : Asking Str :=
  .ask ⟨base,.createExperiment experimentName⟩ (fun reply =>
    match reply with
    | .ok created => .done (createdExperiment interp created)
    | .error (.http detail) =>
      if ¬alreadyExists<:+:detail then .done (.error (.http detail))
      else andThen (request base (.getByName experimentName)) (fun found =>
        .done (foundExperiment interp found))
    | .error raised => .done (.error raised))

/-- The tags of a run. -/
def tags : List (Str×Str) :=
  [(str "mlflow.runName",str "m0-smoke"),(str "airflow.dag_id",dagId)]

/-- A task: its environment, what it reads off the clock at its start and
before its last request. -/
structure Task where
  /-- `os.environ` -/
  environ : Pairs
  /-- `int(time.time() * 1000)`, first -/
  started : ℕ
  /-- `int(time.time() * 1000)`, last -/
  finished : ℕ

/-- The metric a task writes. -/
def Task.metric (task : Task) : Metric := ⟨metricKey,metricValue,task.started,0⟩

/-- `log_one_run()` after it has an address. -/
def logAt (interp : Interp) (task : Task) (base : Str) : Asking Str :=
  andThen (experimentId interp base) (fun experiment =>
  andThen (request base (.createRun experiment task.started tags)) (fun created =>
  andThen (.done (createdRun interp created)) (fun runId =>
  andThen (request base (.logParameter runId paramKey paramValue)) (fun _ =>
  andThen (request base (.logMetric runId task.metric)) (fun _ =>
  andThen (request base (.updateRun runId (str "FINISHED") task.finished)) (fun _ =>
  .done (.ok runId)))))))

/-- `log_one_run()` -/
def logOneRun (interp : Interp) (task : Task) : Asking Str :=
  andThen (.done (trackingBase task.environ)) (logAt interp task)

/-- A run, as the server keeps it. -/
structure Record (Tasks : Type) where
  /-- Which task created it. -/
  owner : Option Tasks
  /-- Its experiment. -/
  experiment : Str
  /-- Its status. -/
  status : Str
  /-- Its parameters, in the order they were logged. -/
  params : List (Str×Str)
  /-- Its metrics, in the order they were logged. -/
  metrics : List Metric

/-- The tracking server: its experiments by name and id, and its runs by id. -/
structure Tracking (Tasks : Type) where
  /-- The experiments. -/
  experiments : List (Str×Str)
  /-- The runs. -/
  runs : AList (fun _ : Str => Record Tasks)

variable {Tasks : Type}

/-- The server replaces the record of a run. -/
def Tracking.set (server : Tracking Tasks) (runId : Str) (record : Record Tasks) :
    Tracking Tasks := {server with runs := server.runs.insert runId record}

/-- How the server serves a request of a task. Experiments are created
atomically and never deleted, a run starts out as RUNNING and belongs to the
task that created it. What the server answers about an experiment or a run it
does not have is left open: no task asks for one. -/
inductive Serves (interp : Interp) (i : Tasks) :
    Tracking Tasks→Request→Tracking Tasks→Reply→Prop where
  /-- The name is free. -/
  | created {server : Tracking Tasks} {base name id : Str} {created : Json}
    (free : name∉server.experiments.map Prod.fst)
    (reads : createdExperiment interp created=.ok id) :
    Serves interp i server ⟨base,.createExperiment name⟩
      {server with experiments := server.experiments++[(name,id)]} (.ok created)
  /-- The name is taken. -/
  | taken {server : Tracking Tasks} {base name detail : Str}
    (old : name∈server.experiments.map Prod.fst) (carries : alreadyExists<:+:detail) :
    Serves interp i server ⟨base,.createExperiment name⟩ server (.error (.http detail))
  /-- The experiment with a name. -/
  | found {server : Tracking Tasks} {base name id : Str} {found : Json}
    (known : (name,id)∈server.experiments) (reads : foundExperiment interp found=.ok id) :
    Serves interp i server ⟨base,.getByName name⟩ server (.ok found)
  /-- A new run. -/
  | run {server : Tracking Tasks} {base experiment runId : Str} {startTime : ℕ}
    {tags : List (Str×Str)} {created : Json}
    (known : experiment∈server.experiments.map Prod.snd) (fresh : runId∉server.runs)
    (reads : createdRun interp created=.ok runId) :
    Serves interp i server ⟨base,.createRun experiment startTime tags⟩
      (server.set runId ⟨some i,experiment,str "RUNNING",[],[]⟩) (.ok created)
  /-- A parameter is recorded. -/
  | parameter {server : Tracking Tasks} {base runId key value : Str} {record : Record Tasks}
    {reply : Json} (known : server.runs.lookup runId=some record) :
    Serves interp i server ⟨base,.logParameter runId key value⟩
      (server.set runId {record with params := record.params++[(key,value)]}) (.ok reply)
  /-- A metric is recorded. -/
  | metric {server : Tracking Tasks} {base runId : Str} {metric : Metric}
    {record : Record Tasks} {reply : Json} (known : server.runs.lookup runId=some record) :
    Serves interp i server ⟨base,.logMetric runId metric⟩
      (server.set runId {record with metrics := record.metrics++[metric]}) (.ok reply)
  /-- The status is set. -/
  | updated {server : Tracking Tasks} {base runId status : Str} {endTime : ℕ}
    {record : Record Tasks} {reply : Json} (known : server.runs.lookup runId=some record) :
    Serves interp i server ⟨base,.updateRun runId status endTime⟩
      (server.set runId {record with status := status}) (.ok reply)

/-- An error that does not carry the text. -/
def OtherFailure : Reply→Prop
  | .ok _ => False
  | .error (.http detail) => ¬alreadyExists<:+:detail
  | .error _ => True

/-- The tracking server, as the tasks see it. -/
def tracker (interp : Interp) (Tasks : Type) : Service Tasks (Tracking Tasks) Request Reply :=
  ⟨Serves interp,fun _ => OtherFailure⟩

/-- Tasks against one server. -/
abbrev Smoke (Tasks : Type) := State Tasks (Tracking Tasks) Request Reply (Except Raised Str)

/-- No task has asked anything of a server. -/
def initial (interp : Interp) (task : Tasks→Task) (server : Tracking Tasks) : Smoke Tasks :=
  start server (fun i => logOneRun interp (task i))

end MlopsPlatform.SmokeDag
