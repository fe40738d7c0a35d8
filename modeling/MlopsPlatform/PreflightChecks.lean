import MlopsPlatform.PreflightRuntime

/-!
# The ordered checks of the doctor

Each check returns one result, `run` stops at the first failure and names what
it did not reach, `gather` reads the two files and `main` prints the results.
The probe of the volume is an action on the world it runs in, so that what a
run leaves behind says how often it was called.
-/

namespace MlopsPlatform.PreflightChecks

open TextCodec TextLines TextStrip TextSorted PythonFiles DigestHex
open PreflightCredentials PreflightRuntime

/-- The verdict of a check. -/
inductive Status where
  /-- OK -/
  | ok
  /-- FAIL -/
  | fail
  /-- UNKNOWN -/
  | unknown
deriving DecidableEq

/-- The string of a status. -/
def Status.shown : Status→Str
  | .ok => str "OK"
  | .fail => str "FAIL"
  | .unknown => str "UNKNOWN"

/-- `RUNTIME` -/
def runtime : Str := str "container runtime"

/-- `CREDENTIALS` -/
def credentials : Str := str "credentials"

/-- `POSTGRES_VOLUME` -/
def postgresVolume : Str := str "postgres volume"

/-- `ORDER` -/
def order : List Str := [runtime,credentials,postgresVolume]

/-- One check, its verdict and what to do about it. -/
structure Result where
  /-- The name of the check. -/
  name : Str
  /-- Its verdict. -/
  status : Status
  /-- Enough to act on. -/
  detail : Str

/-- What the checks read; reading the volume acts on the world. -/
structure Inputs (World : Type) where
  /-- The state of the daemon. -/
  dockerState : Str
  /-- The text of the example file. -/
  exampleText : Str
  /-- The text of `.env`, if it exists. -/
  envText : Option Str
  /-- The process environment. -/
  environ : Pairs
  /-- The probe of the volume. -/
  readVolume : World→VolumeState×World

/-- `check_runtime(docker_state)` -/
def checkRuntime (dockerState : Str) : Result :=
  if dockerState=dockerReady then ⟨runtime,.ok,str "the daemon answered"⟩
  else
    ⟨runtime,.fail,(skipReasons.lookup dockerState).getD (str "unusable: "++dockerState)⟩

/-- Where the values come from, as `check_credentials` says it. -/
def sourceOf (exported declared : ℕ) : Str :=
  if 0<exported ∧ exported<declared then
    str ".env, with "++digits exported++str " overridden by the environment"
  else if exported=declared then str "the environment"
  else str ".env"

/-- `check_credentials(example_text, env_text, environ)` -/
def checkCredentials (exampleText : Str) (envText : Option Str) (environ : Pairs) : Result :=
  let missing := missingCredentials exampleText envText environ
  if missing≠∅ then ⟨credentials,.fail,credentialsSkipReason missing⟩
  else
    let declared := (parseEnvPairs exampleText).keys
    let exported := (declared.filter (fun name => strip (valueIn environ name)≠[])).length
    ⟨credentials,.ok,
      digits declared.length++str " variables set from "++sourceOf exported declared.length⟩

/-- What is said about a volume built with other credentials. -/
def mismatchDetail : Str :=
  str "this volume was initialised with a different POSTGRES_USER or POSTGRES_PASSWORD, and "++
    postgresUser.consequence++
    str ". Either restore the values it was created with, or run `make reset` to discard the "++
    str "volume and start over, which also discards the MLflow runs and Airflow history "++
    str "inside it"

/-- `check_postgres_volume(volume, user, password)` -/
def checkPostgresVolume (sha256 : Digest) (volume : VolumeState) (user password : Str) :
    Except Failure Result :=
  match volume.kind with
  | .empty =>
    .ok ⟨postgresVolume,.ok,
      str "no data directory yet, so the next start initialises one with the values in hand"⟩
  | .fingerprinted =>
    match fingerprint sha256 volume.salt user password with
    | .error raised => .error raised
    | .ok digest =>
      if volume.digest=digest then
        .ok ⟨postgresVolume,.ok,str "initialised with the POSTGRES_USER and password in hand"⟩
      else .ok ⟨postgresVolume,.fail,mismatchDetail⟩
  | .unfingerprinted =>
    .ok ⟨postgresVolume,.unknown,
      str "cannot verify: this volume predates the fingerprint, so it holds no record of the "++
        str "credentials it was built with. If the stack starts, it matched; if Postgres or "++
        str "MLflow goes unhealthy, this is the first thing to suspect"⟩
  | .unreadable => .ok ⟨postgresVolume,.unknown,str "cannot verify: "++volume.detail⟩

/-- A result that stands for a check which never ran. -/
def notChecked (stoppedAt : Result) (name : Str) : Result :=
  ⟨name,.unknown,str "not checked: "++stoppedAt.name++str " failed first"⟩

/-- The end of `run`: the names of `ORDER` that no result carries are added. -/
def padded (results : List Result) : List Result :=
  match results.getLast? with
  | none => results
  | some stoppedAt =>
    results++(order.filter (fun name => name∉results.map Result.name)).map (notChecked stoppedAt)

/-- `results[-1].status != FAIL` -/
def Continues (results : List Result) : Prop :=
  results.getLast?.map Result.status≠some .fail

instance (results : List Result) : Decidable (Continues results) :=
  inferInstanceAs (Decidable (_≠_))

variable {World : Type}

/-- The volume step of `run`: probe, then compare with the effective pair. -/
def checkVolume (sha256 : Digest) (inputs : Inputs World) (world : World) :
    Except Failure Result×World :=
  let user := effectiveValue (str "POSTGRES_USER") inputs.envText inputs.environ
  let password := effectiveValue (str "POSTGRES_PASSWORD") inputs.envText inputs.environ
  let probed := inputs.readVolume world
  (checkPostgresVolume sha256 probed.1 user password,probed.2)

/-- `run(inputs)` -/
def run (sha256 : Digest) (inputs : Inputs World) (world : World) :
    Except Failure (List Result)×World :=
  let first := [checkRuntime inputs.dockerState]
  let second :=
    if Continues first then
      first++[checkCredentials inputs.exampleText inputs.envText inputs.environ]
    else first
  if Continues second then
    match checkVolume sha256 inputs world with
    | (.error raised,after) => (.error raised,after)
    | (.ok result,after) => (.ok (padded (second++[result])),after)
  else (.ok (padded second),world)

/-- `first_init_variables()` -/
def firstInitVariables : List Str :=
  sorted ((readTiming.filter (fun entry => entry.2.timing=.firstInit)).map Prod.fst).toFinset

/-- `f"{text:<{width}}"` -/
def padRight (width : ℕ) (text : Str) : Str := text++List.replicate (width-text.length) 0x20

/-- `render(results)` -/
def render (results : List Result) : List Str :=
  results.map (fun result =>
    padRight 18 result.name++str " "++padRight 8 result.status.shown++str " "++result.detail)

/-- What reading a path can meet. -/
inductive FileState where
  /-- There is no such file. -/
  | absent
  /-- The file cannot be read for another reason. -/
  | refused (message : Str)
  /-- The bytes of the file. -/
  | holds (bytes : ByteArray)

/-- `read_text_if_present(path)`: only FileNotFoundError becomes None. -/
def readTextIfPresent : FileState→Except Failure (Option Str)
  | .absent => .ok none
  | .refused message => .error (.os message)
  | .holds bytes =>
    match decode bytes with
    | none => .error .unicodeDecode
    | some text => .ok (some (universalNewlines text))

/-- `gather()`: a missing example file reads as an empty text. -/
def gather (dockerState : Str) (exampleFile envFile : FileState) (environ : Pairs)
    (readVolume : World→VolumeState×World) : Except Failure (Inputs World) :=
  match readTextIfPresent exampleFile with
  | .error raised => .error raised
  | .ok exampleText =>
    match readTextIfPresent envFile with
    | .error raised => .error raised
    | .ok envText => .ok ⟨dockerState,exampleText.getD [],envText,environ,readVolume⟩

/-- The lines `main` prints about results. -/
def report (results : List Result) : List Str :=
  if results.any (fun result => result.status≠.ok) then
    render results++[[],str "pinned by the postgres volume, so editing one after the first start "++
      str "changes nothing inside it: "++join (str ", ") firstInitVariables]
  else render results

/-- The exit code of `main`, from the results. -/
def exitCode (results : List Result) : ℕ :=
  if results.any (fun result => result.status=.fail) then 1 else 0

/-- `main()`, on what `gather` returned: the exit code and what is printed. -/
def main (sha256 : Digest) (gathered : Except Failure (Inputs World)) (world : World) :
    Except Failure (ℕ×List Str)×World :=
  match gathered with
  | .error raised => (.error raised,world)
  | .ok inputs =>
    match run sha256 inputs world with
    | (.error raised,after) => (.error raised,after)
    | (.ok results,after) => (.ok (exitCode results,report results),after)

/-- An empty volume is a pass. -/
theorem checkPostgresVolume_empty {sha256 : Digest} {volume : VolumeState} {user password : Str}
    (hk : volume.kind=.empty) :
    ∃ detail,checkPostgresVolume sha256 volume user password=.ok ⟨postgresVolume,.ok,detail⟩ :=
  ⟨_,by rw [checkPostgresVolume,hk]⟩

/-- A volume without a record cannot be told. -/
theorem checkPostgresVolume_unfingerprinted {sha256 : Digest} {volume : VolumeState}
    {user password : Str} (hk : volume.kind=.unfingerprinted) :
    ∃ detail,checkPostgresVolume sha256 volume user password=
      .ok ⟨postgresVolume,.unknown,detail⟩ :=
  ⟨_,by rw [checkPostgresVolume,hk]⟩

/-- A volume that was not read cannot be told either. -/
theorem checkPostgresVolume_unreadable {sha256 : Digest} {volume : VolumeState}
    {user password : Str} (hk : volume.kind=.unreadable) :
    ∃ detail,checkPostgresVolume sha256 volume user password=
      .ok ⟨postgresVolume,.unknown,detail⟩ :=
  ⟨_,by rw [checkPostgresVolume,hk]⟩

/-- A record of the pair in hand is a pass. -/
theorem checkPostgresVolume_match {sha256 : Digest} {volume : VolumeState} {user password : Str}
    (hk : volume.kind=.fingerprinted)
    (hf : fingerprint sha256 volume.salt user password=.ok volume.digest) :
    ∃ detail,checkPostgresVolume sha256 volume user password=.ok ⟨postgresVolume,.ok,detail⟩ :=
  ⟨_,by simp only [checkPostgresVolume,hk,hf,if_true]; rfl⟩

/-- A record of another pair is a failure. -/
theorem checkPostgresVolume_mismatch {sha256 : Digest} {volume : VolumeState}
    {user password digest : Str} (hk : volume.kind=.fingerprinted)
    (hf : fingerprint sha256 volume.salt user password=.ok digest) (hd : volume.digest≠digest) :
    ∃ detail,checkPostgresVolume sha256 volume user password=
      .ok ⟨postgresVolume,.fail,detail⟩ :=
  ⟨_,by simp only [checkPostgresVolume,hk,hf,if_neg hd]; rfl⟩

end MlopsPlatform.PreflightChecks
