import MlopsPlatform.PreflightCredentials

/-!
# What the container runtime and the kept volume say

`classifyDockerState` names the state of the daemon. The init script records
a salted digest in the data directory, `REPORT_SCRIPT` prints what a directory
holds and `parseVolumeReport` reads that print back. The two shell scripts are
given by what they write and print.
-/

namespace MlopsPlatform.PreflightRuntime

open TextCodec TextLines TextStrip TextSeparators PythonFiles DigestHex PreflightCredentials

/-- `DOCKER_ABSENT` -/
def dockerAbsent : Str := str "absent"

/-- `DOCKER_STOPPED` -/
def dockerStopped : Str := str "stopped"

/-- `DOCKER_READY` -/
def dockerReady : Str := str "ready"

/-- `SKIP_REASONS` -/
def skipReasons : List (Str×Str) :=
  [(dockerAbsent,str "no container runtime on this machine; run on the build machine"),
    (dockerStopped,
      str "docker is installed but no daemon answered with a server version; start Docker Desktop "++
        str "or dockerd and re-run. A Desktop stuck part-way up answers the client and reports no "++
        str "server, which counts as stopped here")]

/-- `classify_docker_state(binary, probe_exit_code, server_version)` -/
def classifyDockerState (binary : Option Str) (probeExitCode : Option ℤ)
    (serverVersion : Option Str) : Str :=
  if binary=none then dockerAbsent
  else if probeExitCode≠some 0 then dockerStopped
  else if strip (serverVersion.getD [])=[] then dockerStopped
  else dockerReady

/-- The kinds of a volume state. -/
inductive Kind where
  /-- VOLUME_EMPTY -/
  | empty
  /-- VOLUME_UNFINGERPRINTED -/
  | unfingerprinted
  /-- VOLUME_FINGERPRINTED -/
  | fingerprinted
  /-- VOLUME_UNREADABLE -/
  | unreadable
deriving DecidableEq

/-- The string of a kind, which is also its marker line. -/
def Kind.marker : Kind→Str
  | .empty => str "empty"
  | .unfingerprinted => str "initialised-without-fingerprint"
  | .fingerprinted => str "fingerprint"
  | .unreadable => str "unreadable"

/-- `VolumeState(kind, salt="", digest="", detail="")` -/
structure VolumeState where
  /-- What the volume was found to be. -/
  kind : Kind
  /-- The salt of the record. -/
  salt : Str := []
  /-- The digest of the record. -/
  digest : Str := []
  /-- Why it could not be read. -/
  detail : Str := []

/-- The files of a data directory the scripts look at. -/
structure DataDirectory where
  /-- Whether `PG_VERSION` exists. -/
  version : Bool
  /-- The content of `.init-credentials`, if it exists. -/
  record : Option Str

/-- `sha256sum` of its standard input: the digest, two spaces and a dash. -/
def sha256sum (sha256 : Digest) (bytes : ByteArray) : Str := sha256.hexdigest bytes++str "  -"

/-- `cut -d' ' -f1` of one line. -/
def firstField (line : Str) : Str := (partition 0x20 line).1

/-- What 00-record-init-credentials.sh writes to `.init-credentials`, given the
salt it drew and the two variables, which are texts. -/
def recordInitCredentials (sha256 : Digest) (salt user password : String) : Option Str :=
  let digest := firstField (sha256sum sha256 (salt++":"++user++":"++password).toUTF8)
  if str salt≠[] ∧ digest≠[] then some (str salt++str ":"++digest) else none

/-- What `REPORT_SCRIPT` prints in a data directory. -/
def reportScript (directory : DataDirectory) : Str :=
  match directory.record with
  | some record => Kind.fingerprinted.marker++[lf]++record
  | none =>
    if directory.version=true then Kind.unfingerprinted.marker++[lf]
    else Kind.empty.marker++[lf]

/-- `a or b` of two strings. -/
def orElse (s t : Str) : Str := if s=[] then t else s

/-- The line after the `fingerprint` marker. -/
def readRecord (line : Str) : VolumeState :=
  let parts := partition 0x3a line
  if parts.1≠[] ∧ parts.2.2≠[] then ⟨.fingerprinted,parts.1,parts.2.2,[]⟩
  else ⟨.unreadable,[],[],str "the recorded fingerprint is not salt:digest"⟩

/-- The loop of `parse_volume_report` over stripped nonblank lines. -/
def scanReport : List Str→VolumeState
  | [] => ⟨.unreadable,[],[],str "the probe container reported nothing readable"⟩
  | line::rest =>
    match (if line=Kind.fingerprinted.marker then rest.head? else none) with
    | some record => readRecord record
    | none =>
      if line=Kind.unfingerprinted.marker then {kind := .unfingerprinted}
      else if line=Kind.empty.marker then {kind := .empty}
      else scanReport rest

/-- `[line.strip() for line in stdout.splitlines() if line.strip()]` -/
def reportLines (stdout : Str) : List Str :=
  ((splitlines stdout).map strip).filter (fun line => line≠[])

/-- `parse_volume_report(returncode, stdout, stderr)` -/
def parseVolumeReport (returncode : ℤ) (stdout stderr : Str) : Except Failure VolumeState :=
  if returncode≠0 then
    match (splitlines (orElse (orElse (strip stderr) (strip stdout)) (str "no output"))).getLast? with
    | none => .error .index
    | some tail =>
      .ok ⟨.unreadable,[],[],str "exit code "++str (toString returncode)++str ": "++tail⟩
  else .ok (scanReport (reportLines stdout))

/-- How running `docker info`, or the probe of the volume, ends. -/
inductive Probe where
  /-- OSError or SubprocessError, by its type. -/
  | raised (typeName : Str)
  /-- The output is not UTF-8, and reading it as text raises. -/
  | undecodable
  /-- The process ran to its end. -/
  | completed (returncode : ℤ) (stdout stderr : Str)

/-- `probe_docker()`, given `shutil.which("docker")` and how `docker info` ends. -/
def probeDocker (binary : Option Str) (info : Probe) : Except Failure Str :=
  if binary=none then .ok (classifyDockerState none none none)
  else
    match info with
    | .raised _ => .ok (classifyDockerState binary none none)
    | .undecodable => .error .unicodeDecode
    | .completed returncode stdout _ =>
      .ok (classifyDockerState binary (some returncode) (some stdout))

/-- `read_postgres_volume()`: UnicodeDecodeError is not one of those it takes for an answer. -/
def readPostgresVolume : Probe→Except Failure VolumeState
  | .raised typeName => .ok ⟨.unreadable,[],[],typeName++str " running the probe"⟩
  | .undecodable => .error .unicodeDecode
  | .completed returncode stdout stderr => parseVolumeReport returncode stdout stderr

theorem orElse_ne_nil (s : Str) {t : Str} (ht : t≠[]) : orElse s t≠[] := by
  unfold orElse
  split
  · exact ht
  · assumption

/-- A failed probe is never read as a state of the volume. -/
theorem parseVolumeReport_failed {returncode : ℤ} (h : returncode≠0) (stdout stderr : Str) :
    ∃ detail,parseVolumeReport returncode stdout stderr=.ok ⟨.unreadable,[],[],detail⟩ := by
  have hne := orElse_ne_nil (orElse (strip stderr) (strip stdout))
    (show str "no output"≠[] by decide)
  rw [parseVolumeReport,if_pos h]
  cases hl : (splitlines (orElse (orElse (strip stderr) (strip stdout)) (str "no output"))).getLast? with
  | none => exact absurd (List.getLast?_eq_none_iff.mp hl) (splitlines_ne_nil hne)
  | some tail => exact ⟨_,rfl⟩

/-- The daemon is ready exactly if the client is there, and `docker info` exits with zero and
prints a version. -/
theorem probeDocker_ready_iff {binary : Option Str} {info : Probe} :
    probeDocker binary info=.ok dockerReady ↔
      binary≠none ∧ ∃ stdout stderr,info=.completed 0 stdout stderr ∧ strip stdout≠[] := by
  have habsent : dockerAbsent≠dockerReady := by decide
  have hstopped : dockerStopped≠dockerReady := by decide
  cases binary with
  | none => exact iff_of_false (fun h => habsent (Except.ok.inj h)) (fun h => h.1 rfl)
  | some path =>
    unfold probeDocker
    rw [if_neg (Option.some_ne_none path),and_iff_right (Option.some_ne_none path)]
    cases info with
    | raised typeName =>
      refine iff_of_false (fun h => hstopped (Except.ok.inj h)) ?_
      rintro ⟨stdout,stderr,h,-⟩
      cases h
    | undecodable =>
      refine iff_of_false (fun h => by cases h) ?_
      rintro ⟨stdout,stderr,h,-⟩
      cases h
    | completed returncode stdout stderr =>
      dsimp only
      rw [classifyDockerState,if_neg (Option.some_ne_none path),Except.ok.injEq,Option.getD_some]
      by_cases hzero : returncode=0
      · rw [if_neg (not_not.mpr (congrArg some hzero))]
        by_cases hblank : strip stdout=[]
        · rw [if_pos hblank]
          refine iff_of_false hstopped ?_
          rintro ⟨out,err,h,hprinted⟩
          cases h
          exact hprinted hblank
        · rw [if_neg hblank,hzero]
          exact iff_of_true rfl ⟨stdout,stderr,rfl,hblank⟩
      · rw [if_pos (fun h => hzero (Option.some.inj h))]
        refine iff_of_false hstopped ?_
        rintro ⟨out,err,h,-⟩
        cases h
        exact hzero rfl

end MlopsPlatform.PreflightRuntime
