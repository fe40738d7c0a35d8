import MlopsPlatform.SupplyEntrypoints
import MlopsPlatform.TargetRules

/-!
# The targets of the Makefile and the arms of make.ps1

Most targets are commands one after another. The Makefile shares them through
prerequisites, which make makes once and in order; make.ps1 calls itself for some
of them and repeats the commands of others. Both run the same commands in the same
order and stop at the same failure, however each command ends, and neither starts the
stack but right after a doctor that was satisfied. Two things differ: make honours
another `KIND_CLUSTER`, and only make.ps1 takes a `.git` that is a file for one. What
make.ps1 throws names the command that failed, or the program that is not there: the
checks behind its own stages never do.
-/

namespace MlopsPlatform.EntrypointTargets

open TextCodec TextSorted ShellWords StepSequences TargetRules SupplyEntrypoints

/-- The targets that are commands one after another. -/
inductive Target where
  | setup
  | test
  | testCluster
  | lint
  | fmt
  | hooks
  | check
  | doctor
  | build
  | kindDown
  | up
  | upQuickstart
  | down
  | clean
  | reset
  | ps
  | logs
  | config
deriving DecidableEq

/-- Where the Makefile runs. -/
inductive Platform where
  /-- `OS` is `Windows_NT`. -/
  | windows
  /-- It is not. -/
  | posix

/-- `PY` -/
def Platform.py : Platform→Str
  | .windows => str ".venv/Scripts/python.exe"
  | .posix => str ".venv/bin/python"

/-- `$(BOOTSTRAP_PY) -m venv .venv` -/
def Platform.bootstrap : Platform → Command
  | .windows => ⟨str "py",[str "-3",str "-m",str "venv",str ".venv"]⟩
  | .posix => ⟨str "python3",[str "-m",str "venv",str ".venv"]⟩

/-- `$(COMPOSE)`, with these words behind it. -/
def compose (arguments : List Str) : Command :=
  ⟨str "docker",[str "compose",str "--project-directory",str ".",str "-f",
    str "compose/docker-compose.yml"]++arguments⟩

/-- `$(COMPOSE_QS)`, with these words behind it. -/
def composeQs (arguments : List Str) : Command :=
  ⟨str "docker",[str "compose",str "--project-directory",str ".",str "-f",
    str "compose/docker-compose.yml",str "-f",str "compose/docker-compose.quickstart.yml"]++
      arguments⟩

/-- `WAIT_TIMEOUT` -/
def waitTimeout : Str := str "300"

/-- The environment make is run in, as far as these targets read it. -/
structure Environ where
  /-- `KIND_CLUSTER`, if it is there. -/
  cluster : Option Str
  /-- It is a name that kind accepts. -/
  plain : ∀ name,cluster=some name → name≠[] ∧ name.all isNameChar=true

/-- `KIND_CLUSTER`, which is taken from the environment if it is there. -/
def kindCluster (environ : Environ) : Str := environ.cluster.getD (str "mlops-platform")

/-- What `.git` is. -/
inductive DotGit where
  /-- Nothing, in an extracted tarball. -/
  | absent
  /-- A file, in a linked worktree and in a submodule. -/
  | file
  /-- A directory. -/
  | directory
deriving DecidableEq

/-- `[ -d .git ]` -/
def DotGit.isDirectory : DotGit→Bool
  | .directory => true
  | _ => false

/-- `Test-Path '.git'` -/
def DotGit.isThere : DotGit→Bool
  | .absent => false
  | _ => true

/-- `$(PY) -m preflight` -/
def doctorCommand (platform : Platform) : Command := ⟨platform.py,[str "-m",str "preflight"]⟩

/-- What stands behind the colon of a target. -/
def prerequisites : Target→List Target
  | .check => [.lint,.hooks,.test]
  | .up => [.doctor]
  | .upQuickstart => [.doctor]
  | .reset => [.clean,.up]
  | _ => []

/-- The recipe of a target. -/
def recipe (platform : Platform) (environ : Environ) (git : DotGit) : Target→List Command
  | .setup => [platform.bootstrap,
      ⟨platform.py,[str "-m",str "pip",str "install",str "--upgrade",str "pip"]⟩,
      ⟨platform.py,[str "-m",str "pip",str "install",str "-e",str ".[dev]"]⟩]++
        if git.isDirectory=true then [⟨platform.py,[str "-m",str "pre_commit",str "install"]⟩] else []
  | .test => [⟨platform.py,[str "-m",str "pytest",str "-m",str "not cluster"]⟩]
  | .testCluster => [⟨platform.py,[str "-m",str "pytest",str "-m",str "cluster"]⟩]
  | .lint => [⟨platform.py,[str "-m",str "ruff",str "format",str "--check",str "."]⟩,
      ⟨platform.py,[str "-m",str "ruff",str "check",str "."]⟩,⟨platform.py,[str "-m",str "mypy"]⟩]
  | .fmt => [⟨platform.py,[str "-m",str "ruff",str "format",str "."]⟩,
      ⟨platform.py,[str "-m",str "ruff",str "check",str "--fix",str "."]⟩]
  | .hooks => [⟨platform.py,[str "-m",str "pre_commit",str "run",str "--all-files"]⟩]
  | .check => []
  | .doctor => [doctorCommand platform]
  | .build => [compose [str "--profile",str "full",str "build"]]
  | .kindDown => [⟨str "kind",[str "delete",str "cluster",str "--name",kindCluster environ]⟩]
  | .up => [compose [str "--profile",str "full",str "up",str "-d",str "--build",str "--wait",
      str "--wait-timeout",waitTimeout]]
  | .upQuickstart => [composeQs [str "up",str "-d",str "--build",str "--wait",
      str "--wait-timeout",waitTimeout]]
  | .down => [compose [str "--profile",str "full",str "down",str "--remove-orphans"]]
  | .clean => [compose [str "--profile",str "full",str "down",str "--remove-orphans",
      str "--volumes"]]
  | .reset => []
  | .ps => [compose [str "--profile",str "full",str "ps"]]
  | .logs => [compose [str "--profile",str "full",str "logs",str "--tail=100"]]
  | .config => [compose [str "--profile",str "full",str "config"]]

/-- How deep the prerequisites of a target go. -/
def depth : Target→ℕ
  | .check => 1
  | .up => 1
  | .upQuickstart => 1
  | .reset => 2
  | _ => 0

/-- The Makefile. -/
def makefile (platform : Platform) (environ : Environ) (git : DotGit) :
    Rules Target Command where
  prerequisites := prerequisites
  recipe := recipe platform environ git
  rank := depth
  falls target first h := by
    cases target <;> simp only [prerequisites,List.mem_cons,List.not_mem_nil,or_false] at h
    · rcases h with rfl|rfl|rfl <;> decide
    · subst h
      decide
    · subst h
      decide
    · rcases h with rfl|rfl <;> decide

/-- A statement of an arm. -/
inductive Statement where
  /-- `Invoke-Checked` -/
  | checked (command : Command)
  /-- `& $PSCommandPath 'name'`, and a check of the exit code behind it. -/
  | stage (target : Target) (name : Str)

/-- `$Py` -/
def ps1Py : Str := str ".venv/Scripts/python.exe"

/-- `$Compose` -/
def ps1Compose : List Str :=
  [str "compose",str "--project-directory",str ".",str "-f",str "compose/docker-compose.yml"]

/-- `$ComposeQs` -/
def ps1ComposeQs : List Str :=
  [str "compose",str "--project-directory",str ".",str "-f",str "compose/docker-compose.yml",
    str "-f",str "compose/docker-compose.quickstart.yml"]

/-- `$KindCluster` -/
def ps1KindCluster : Str := str "mlops-platform"

/-- `$WaitTimeout` -/
def ps1WaitTimeout : Str := str "300"

/-- `Invoke-Checked $Py @(...)` -/
def python (arguments : List Str) : Statement := .checked ⟨ps1Py,arguments⟩

/-- `Invoke-Checked 'docker' ($Compose + @(...))` -/
def docker (arguments : List Str) : Statement := .checked ⟨str "docker",ps1Compose++arguments⟩

/-- The arm of a target. -/
def arm (git : DotGit) : Target→List Statement
  | .setup => [.checked ⟨str "py",[str "-3",str "-m",str "venv",str ".venv"]⟩,
      python [str "-m",str "pip",str "install",str "--upgrade",str "pip"],
      python [str "-m",str "pip",str "install",str "-e",str ".[dev]"]]++
        if git.isThere=true then [python [str "-m",str "pre_commit",str "install"]] else []
  | .test => [python [str "-m",str "pytest",str "-m",str "not cluster"]]
  | .testCluster => [python [str "-m",str "pytest",str "-m",str "cluster"]]
  | .lint => [python [str "-m",str "ruff",str "format",str "--check",str "."],
      python [str "-m",str "ruff",str "check",str "."],python [str "-m",str "mypy"]]
  | .fmt => [python [str "-m",str "ruff",str "format",str "."],
      python [str "-m",str "ruff",str "check",str "--fix",str "."]]
  | .hooks => [python [str "-m",str "pre_commit",str "run",str "--all-files"]]
  | .check => [.stage .lint (str "lint"),.stage .hooks (str "hooks"),.stage .test (str "test")]
  | .doctor => [python [str "-m",str "preflight"]]
  | .build => [docker [str "--profile",str "full",str "build"]]
  | .kindDown =>
    [.checked ⟨str "kind",[str "delete",str "cluster",str "--name",ps1KindCluster]⟩]
  | .up => [python [str "-m",str "preflight"],docker [str "--profile",str "full",str "up",str "-d",
      str "--build",str "--wait",str "--wait-timeout",ps1WaitTimeout]]
  | .upQuickstart => [python [str "-m",str "preflight"],.checked ⟨str "docker",
      ps1ComposeQs++[str "up",str "-d",str "--build",str "--wait",str "--wait-timeout",
        ps1WaitTimeout]⟩]
  | .down => [docker [str "--profile",str "full",str "down",str "--remove-orphans"]]
  | .clean => [docker [str "--profile",str "full",str "down",str "--remove-orphans",
      str "--volumes"]]
  | .reset => [docker [str "--profile",str "full",str "down",str "--remove-orphans",
      str "--volumes"],python [str "-m",str "preflight"],docker [str "--profile",str "full",
        str "up",str "-d",str "--build",str "--wait",str "--wait-timeout",ps1WaitTimeout]]
  | .ps => [docker [str "--profile",str "full",str "ps"]]
  | .logs => [docker [str "--profile",str "full",str "logs",str "--tail=100"]]
  | .config => [docker [str "--profile",str "full",str "config"]]

/-- A PowerShell session. -/
structure Session where
  /-- The commands run. -/
  taken : List Command
  /-- `$LASTEXITCODE`, which is `$null` at first. -/
  lastExitCode : Option ℤ

/-- `$LASTEXITCODE` behind a command: one that is not there leaves it as it was. -/
def Session.exitCode (session : Session) : Ending→Option ℤ
  | .exits code => some code
  | .missing => session.lastExitCode

/-- A session behind one more command. -/
def Session.after (session : Session) (endings : Endings) (command : Command) : Session :=
  ⟨session.taken++[command],session.exitCode (endings session.taken command)⟩

/-- The statements of an arm, where `enter` runs another one: what was thrown, if
anything was. -/
def runStatements (endings : Endings) (enter : Session→Target→Session×Except Thrown Unit) :
    Session→List Statement→Session×Except Thrown Unit
  | session,[] => (session,.ok ())
  | session,.checked command::rest =>
    match (invokeChecked endings session.taken command).2 with
    | .error thrown => (session.after endings command,.error thrown)
    | .ok _ => runStatements endings enter (session.after endings command) rest
  | session,.stage target name::rest =>
    match enter session target with
    | (session,.error thrown) => (session,.error thrown)
    | (session,.ok _) =>
      if session.lastExitCode≠some 0 then (session,.error (.text (name++str " failed")))
      else runStatements endings enter session rest

/-- An arm, with calls to this depth: below it PowerShell refuses the call. -/
def runArm (endings : Endings) (git : DotGit) :
    ℕ→Session→Target→Session×Except Thrown Unit
  | 0,session,_ =>
    (session,.error (.text (str "The script failed due to call depth overflow.")))
  | depth+1,session,target =>
    runStatements endings (runArm endings git depth) session (arm git target)

/-- `./make.ps1 target`: the call depth of PowerShell is far beyond two. -/
def makePs1 (endings : Endings) (git : DotGit) (target : Target) :
    Session×Except Thrown Unit :=
  runArm endings git 2 ⟨[],none⟩ target

/-- The commands of a statement, given those of the arms it calls. -/
def Statement.commands (called : Target→List Command) : Statement→List Command
  | .checked command => [command]
  | .stage target _ => called target

/-- The commands of an arm if nothing fails. -/
def armCommands (git : DotGit) : ℕ→Target→List Command
  | 0,_ => []
  | depth+1,target => (arm git target).flatMap (Statement.commands (armCommands git depth))

/-- What `Invoke-Checked` throws for a command that ended so, if anything. -/
def thrownFor (command : Command) : Ending→Option Thrown
  | .missing => some (.commandNotFound command.exe)
  | .exits code =>
    if code=0 then none
    else some (.text (command.exe++str " "++join (str " ") command.arguments++
      str " failed with exit code "++str (toString code)))

/-- From one session to another: an attempt at some commands. -/
structure Runs (endings : Endings) (commands : List Command) (session next : Session)
    (result : Except Thrown Unit) : Prop where
  /-- The commands run. -/
  taken : next.taken=(attempt (statuses endings) session.taken commands).1
  /-- Nothing is thrown exactly if none fails. -/
  ok : result=.ok () ↔ (attempt (statuses endings) session.taken commands).2=true
  /-- The last command has left its code, which is zero then. -/
  code : result=.ok () → (commands=[] ∧ next=session) ∨ next.lastExitCode=some 0
  /-- What is thrown is thrown for the last command. -/
  thrown : ∀ thrown,result=.error thrown → ∃ before command,next.taken=before++[command] ∧
    thrownFor command (endings before command)=some thrown

variable {endings : Endings}

/-- One attempt that goes through, and another behind it. -/
theorem Runs.trans {commands more : List Command} {session next last : Session}
    {result : Except Thrown Unit} (h : Runs endings commands session next (.ok ()))
    (hmore : Runs endings more next last result) :
    Runs endings (commands++more) session last result := by
  have hall := h.ok.mp rfl
  have happend := attempt_append (statuses endings) session.taken commands more
  rw [if_pos hall,←h.taken] at happend
  refine ⟨?_,?_,fun hok => ?_,hmore.thrown⟩
  · rw [happend,hmore.taken]
  · rw [happend,hmore.ok]
  · rcases hmore.code hok with ⟨rfl,rfl⟩|hcode
    · rw [List.append_nil]
      exact h.code rfl
    · exact .inr hcode

/-- A failure ends the attempt. -/
theorem Runs.append {commands : List Command} {session next : Session} {thrown : Thrown}
    (h : Runs endings commands session next (.error thrown)) (more : List Command) :
    Runs endings (commands++more) session next (.error thrown) := by
  have hfailed : (attempt (statuses endings) session.taken commands).2≠true := fun ht => by
    cases h.ok.mpr ht
  have happend := attempt_append (statuses endings) session.taken commands more
  rw [if_neg hfailed] at happend
  refine ⟨?_,?_,fun hok => (by cases hok),h.thrown⟩
  · rw [happend,h.taken]
  · rw [happend,h.ok]

/-- `Invoke-Checked` throws what there is to throw. -/
theorem invokeChecked_thrown (taken : List Command) (command : Command) :
    (invokeChecked endings taken command).2=
      (thrownFor command (endings taken command)).elim (.ok ()) .error := by
  rw [invokeChecked]
  cases endings taken command with
  | missing => rfl
  | exits code =>
    by_cases hzero : code=0
    · rw [hzero]
      rfl
    · rw [thrownFor,if_neg hzero]
      dsimp only
      rw [if_pos hzero]
      rfl

/-- That is nothing exactly if the command exits with zero. -/
theorem thrownFor_none_iff {command : Command} {ending : Ending} :
    thrownFor command ending=none ↔ ending=.exits 0 := by
  cases ending with
  | missing => exact iff_of_false (fun h => by cases h) (fun h => by cases h)
  | exits code =>
    rw [thrownFor,Ending.exits.injEq]
    by_cases hzero : code=0
    · exact iff_of_true (if_pos hzero) hzero
    · rw [if_neg hzero]
      exact iff_of_false (fun h => by cases h) hzero

/-- A checked command is an attempt at it. -/
theorem invokeChecked_runs (session : Session) (command : Command) :
    Runs endings [command] session (session.after endings command)
      (invokeChecked endings session.taken command).2 := by
  rw [invokeChecked_thrown]
  cases hthrown : thrownFor command (endings session.taken command) with
  | none =>
    have hending := thrownFor_none_iff.mp hthrown
    have hzero : statuses endings session.taken command=0 := status_zero_iff.mpr hending
    refine ⟨?_,?_,fun _ => .inr ?_,fun _ h => (by cases h)⟩
    · rw [attempt_zero hzero,attempt_nil]
      rfl
    · rw [attempt_zero hzero,attempt_nil]
      exact iff_of_true rfl rfl
    · rw [Session.after,hending]
      rfl
  | some thrown =>
    have hfailed : statuses endings session.taken command≠0 := fun hzero => by
      rw [thrownFor_none_iff.mpr (status_zero_iff.mp hzero)] at hthrown
      cases hthrown
    refine ⟨?_,?_,fun h => (by cases h),fun other h => ?_⟩
    · rw [attempt_failed hfailed]
      rfl
    · rw [attempt_failed hfailed]
      exact iff_of_false (fun h => by cases h) Bool.false_ne_true
    · cases h
      exact ⟨session.taken,command,rfl,hthrown⟩

/-- Nothing is run. -/
theorem Runs.none (session : Session) : Runs endings [] session session (.ok ()) :=
  ⟨rfl,iff_of_true rfl rfl,fun _ => .inl ⟨rfl,rfl⟩,fun _ h => by cases h⟩

/-- The statements of an arm are an attempt at their commands. The check behind a
stage passes: a stage that did not throw has left a zero. -/
theorem runStatements_runs {enter : Session→Target→Session×Except Thrown Unit}
    {called : Target→List Command} {statements : List Statement}
    (henter : ∀ target name,.stage target name∈statements → called target≠[] ∧
      ∀ session,Runs endings (called target) session (enter session target).1
        (enter session target).2) (session : Session) :
    Runs endings (statements.flatMap (Statement.commands called)) session
      (runStatements endings enter session statements).1
      (runStatements endings enter session statements).2 := by
  induction statements generalizing session with
  | nil => exact .none session
  | cons statement rest ih =>
    have hrest := ih (fun target name hm => henter target name (List.mem_cons_of_mem _ hm))
    rw [List.flatMap_cons]
    cases statement with
    | checked command =>
      have hone := @invokeChecked_runs endings session command
      unfold runStatements
      cases hresult : (invokeChecked endings session.taken command).2 with
      | error thrown =>
        rw [hresult] at hone
        exact hone.append _
      | ok value =>
        rw [hresult] at hone
        exact hone.trans (hrest _)
    | stage target name =>
      obtain ⟨hne,hruns⟩ := henter target name List.mem_cons_self
      have hone := hruns session
      unfold runStatements
      cases hresult : enter session target with
      | mk next result =>
        rw [hresult] at hone
        cases result with
        | error thrown => exact hone.append _
        | ok value =>
          have hcode := (hone.code rfl).resolve_left (fun h => hne h.1)
          dsimp only
          rw [if_neg (not_not.mpr hcode)]
          exact hone.trans (hrest next)

/-- The arms that others call. -/
def Stage (target : Target) : Prop := target=.lint ∨ target=.hooks ∨ target=.test

theorem stage_of_mem {git : DotGit} {target stage : Target} {name : Str}
    (h : .stage stage name∈arm git target) : Stage stage := by
  cases target with
  | check =>
    simp only [arm,List.mem_cons,Statement.stage.injEq,List.not_mem_nil,or_false] at h
    rcases h with ⟨rfl,-⟩|⟨rfl,-⟩|⟨rfl,-⟩
    · exact .inl rfl
    · exact .inr (.inl rfl)
    · exact .inr (.inr rfl)
  | setup => cases git <;> simp [arm,python] at h
  | _ => simp [arm,python,docker] at h

/-- They call no other, and run something. -/
theorem armCommands_stage {git : DotGit} {stage : Target} (h : Stage stage) (n : ℕ) :
    armCommands git (n+1) stage≠[] ∧
      ∀ target name,.stage target name∉arm git stage := by
  rcases h with rfl|rfl|rfl <;> simp [armCommands,arm,python,Statement.commands]

/-- `make.ps1` is an attempt at the commands of its arm. -/
theorem makePs1_runs (endings : Endings) (git : DotGit) (target : Target) :
    Runs endings (armCommands git 2 target) ⟨[],none⟩ (makePs1 endings git target).1
      (makePs1 endings git target).2 := by
  refine runStatements_runs (fun stage name hm => ?_) ⟨[],none⟩
  obtain ⟨hne,hleaf⟩ := @armCommands_stage git stage (stage_of_mem hm) 0
  refine ⟨hne,fun session => runStatements_runs (fun other name hother => ?_) session⟩
  exact absurd hother (hleaf other name)

/-- No target is asked for twice. -/
theorem walk_nodup (platform : Platform) (environ : Environ) (git : DotGit) (target : Target) :
    (walk (makefile platform environ git) (depth target+1) target).Nodup := by
  cases target <;> exact of_decide_eq_true rfl

/-- On Windows make asks for the commands of the arm. -/
theorem walk_eq {environ : Environ} {git : DotGit} {target : Target}
    (hname : target=.kindDown → kindCluster environ=ps1KindCluster)
    (hgit : target=.setup → git≠.file) :
    (walk (makefile .windows environ git) (depth target+1) target).flatMap
      (recipe .windows environ git)=armCommands git 2 target := by
  cases target with
  | kindDown =>
    change [(⟨str "kind",[str "delete",str "cluster",str "--name",kindCluster environ]⟩ : Command)]=
      [⟨str "kind",[str "delete",str "cluster",str "--name",ps1KindCluster]⟩]
    rw [hname rfl]
  | setup =>
    cases git with
    | absent => rfl
    | file => exact absurd rfl (hgit rfl)
    | directory => rfl
  | _ => rfl

/-- Both entrypoints run the same commands in the same order, with prerequisites,
with stages or with the commands repeated, and one succeeds exactly if the other
does, however every command ends after those before it. There are two exceptions:
`kind-down` with another cluster named in the environment, which make.ps1 does not read,
and `setup` where `.git` is a file, which is no directory and is there. -/
theorem entrypoints_agree_iff (environ : Environ) (git : DotGit) (target : Target) :
    (∀ endings,
      (makePs1 endings git target).1.taken=
          (make (makefile .windows environ git) (statuses endings) target).1 ∧
        ((makePs1 endings git target).2=.ok () ↔
          (make (makefile .windows environ git) (statuses endings) target).2=true)) ↔
      (target=.kindDown → kindCluster environ=ps1KindCluster) ∧
        (target=.setup → git≠.file) := by
  have hmake : ∀ endings,make (makefile .windows environ git) (statuses endings) target=
      attempt (statuses endings) []
        ((walk (makefile .windows environ git) (depth target+1) target).flatMap
          (recipe .windows environ git)) :=
    fun endings => make_of_nodup (walk_nodup .windows environ git target)
  constructor
  · intro h
    -- where no command fails, all of both are taken
    have hsame := (h (fun _ _ => .exits 0)).1
    rw [(makePs1_runs _ git target).taken,hmake,attempt_exits_zero,attempt_exits_zero] at hsame
    constructor
    · rintro rfl
      have harguments := congrArg (List.map Command.arguments) hsame
      have hname := congrArg (List.map List.getLast?) harguments
      exact (Option.some.inj (List.cons.inj hname).1).symm
    · rintro rfl rfl
      have hlength := congrArg List.length hsame
      exact absurd hlength (by simp [armCommands,arm,python,Statement.commands,walk,makefile,
        prerequisites,recipe,DotGit.isDirectory,DotGit.isThere,depth])
  · rintro ⟨hname,hgit⟩ endings
    have hruns := makePs1_runs endings git target
    rw [hmake,walk_eq hname hgit]
    exact ⟨hruns.taken,hruns.ok⟩

/-- It starts containers. -/
def startsStack (command : Command) : Bool :=
  decide (command.exe=str "docker") && decide (str "up"∈command.arguments)

/-- Every start in the commands of a target stands right behind the doctor. -/
theorem guarded_walk (platform : Platform) (environ : Environ) (git : DotGit) (target : Target) :
    guarded (doctorCommand platform) startsStack false
      ((walk (makefile platform environ git) (depth target+1) target).flatMap
        (recipe platform environ git))=true := by
  cases platform <;> cases git <;> cases target <;> rfl

/-- So it does in those of an arm. -/
theorem guarded_armCommands (git : DotGit) (target : Target) :
    guarded (doctorCommand .windows) startsStack false (armCommands git 2 target)=true := by
  cases git <;> cases target <;> rfl

/-- The stack is never started but right after a doctor that was satisfied, by any
target of either entrypoint on either platform, whatever else happens. -/
theorem starts_after_doctor (platform : Platform) (environ : Environ) (git : DotGit)
    (target : Target) (endings : Endings) {before after : List Command}
    {command : Command} (hstarts : startsStack command=true)
    (htaken : (make (makefile platform environ git) (statuses endings) target).1=
        before++command::after ∨
      platform=.windows ∧ (makePs1 endings git target).1.taken=before++command::after) :
    ∃ earlier,before=earlier++[doctorCommand platform] ∧
      endings earlier (doctorCommand platform)=.exits 0 := by
  have hattempt : ∀ steps,guarded (doctorCommand platform) startsStack false steps=true →
      (attempt (statuses endings) [] steps).1=before++command::after →
      ∃ earlier,before=earlier++[doctorCommand platform] ∧
        endings earlier (doctorCommand platform)=.exits 0 := by
    intro steps hguarded hsteps
    obtain ⟨⟨later,hsplit⟩,hzero⟩ := attempt_takes hsteps
    obtain ⟨earlier,hbefore⟩ := guarded_before hguarded hsplit hstarts
    exact ⟨earlier,hbefore,status_zero_iff.mp (hzero earlier _ [] hbefore)⟩
  rcases htaken with h|⟨rfl,h⟩
  · have hmake := @make_of_nodup _ _ (makefile platform environ git) (statuses endings) _ target
      (walk_nodup platform environ git target)
    rw [hmake] at h
    exact hattempt _ (guarded_walk platform environ git target) h
  · rw [(makePs1_runs endings git target).taken] at h
    exact hattempt _ (guarded_armCommands git target) h

theorem starts_after_doctor_sample :
    ∃ earlier,[compose [str "--profile",str "full",str "down",str "--remove-orphans",
        str "--volumes"],doctorCommand .posix]=earlier++[doctorCommand .posix] ∧
      (fun _ _ => .exits 0 : Endings) earlier (doctorCommand .posix)=.exits 0 :=
  @starts_after_doctor .posix ⟨none,fun _ h => by cases h⟩ .directory .reset
    (fun _ _ => .exits 0) _ []
    (compose [str "--profile",str "full",str "up",str "-d",str "--build",str "--wait",
      str "--wait-timeout",waitTimeout]) (by decide +kernel) (.inl rfl)

end MlopsPlatform.EntrypointTargets
