import MlopsPlatform.PreflightCompose

/-!
# Recovering a refused volume

What compose gives the postgres container is its own reading of `.env` and of the
exported variables, a parameter here, and the doctor compares the volume with another
one. A start is refused on a prepared machine for one reason only: the volume carries a
record, and the doctor reads another joined pair than compose initialised it with. Over
whole lifetimes a volume is the work of its last start, nothing but `clean` and `reset`
takes it away, and the two remedies the doctor names work as far as the two readings
agree.
-/

namespace MlopsPlatform.PreflightRecovery

open TextCodec TextStrip PythonFiles DigestHex StateRuns
open PreflightCredentials PreflightRuntime PreflightChecks PreflightPipeline
open PreflightVolumeReport PreflightLifetime PreflightCompose

/-- What compose gives the postgres container under a name, from `.env` and the exported
variables. -/
structure Reading where
  /-- The value. -/
  value : Option String→Environment→Str→Str
  /-- It is a text. -/
  scalar : ∀ text environ name,(value text environ name).all isScalar=true

/-- How the probe of the volume ends. -/
inductive Reply where
  /-- Its output can be decoded. -/
  | answered (answer : Answer)
  /-- It cannot. -/
  | undecodable

/-- One run of the doctor: what it meets besides the machine. -/
structure Round where
  /-- `shutil.which("docker")` -/
  binary : Option Str
  /-- How `docker info` ends. -/
  info : Probe
  /-- The text of the example file. -/
  exampleText : Str
  /-- How the probe of the volume ends. -/
  reply : Reply

/-- What comes of starting the stack, as far as an empty volume goes. -/
inductive Start where
  /-- Compose stops before postgres initialises it. -/
  | stops
  /-- Postgres initialises it, and does not come to the init script. -/
  | unrecorded
  /-- It does, and the script draws a salt. -/
  | initialises (salt : Salt)

/-- What is done to a machine. -/
inductive Move where
  /-- `.env` is written, or removed. -/
  | edit (text : Option String)
  /-- A variable is exported. -/
  | export (name value : String)
  /-- A variable is unset. -/
  | unset (name : String)
  /-- `make up` -/
  | up (round : Round) (start : Start)
  /-- `make down` -/
  | down
  /-- `make clean` -/
  | clean
  /-- `make reset` -/
  | reset (round : Round) (start : Start)

/-- The probe's run in a data directory. -/
def Reply.probe (directory : DataDirectory) : Reply→Probe
  | .answered answer => answer.probe directory
  | .undecodable => .undecodable

/-- `read_postgres_volume()`. The world has what it raises, which ends the doctor: nothing is
printed before. -/
def readVolume (m : Machine) (round : Round) (world : Option Failure) :
    VolumeState×Option Failure :=
  match readPostgresVolume (round.reply.probe (directoryOf m.volume)) with
  | .ok state => (state,world)
  | .error failure => ({kind := .unreadable},some failure)

/-- What the checks read. -/
def inputs (m : Machine) (round : Round) (dockerState : Str) : Inputs (Option Failure) :=
  ⟨dockerState,round.exampleText,m.envText.map str,m.environ.pairs,readVolume m round⟩

/-- `make doctor`: what it exits with and prints, or what it raises. -/
def doctor (sha256 : Digest) (m : Machine) (round : Round) : Except Failure (ℕ×List Str) :=
  match main sha256 ((probeDocker round.binary round.info).map (inputs m round)) none with
  | (_,some failure) => .error failure
  | (result,none) => result

/-- The role compose gives the container. -/
def Reading.user (reading : Reading) (m : Machine) : Str :=
  reading.value m.envText m.environ (str "POSTGRES_USER")

/-- The password it gives. -/
def Reading.password (reading : Reading) (m : Machine) : Str :=
  reading.value m.envText m.environ (str "POSTGRES_PASSWORD")

/-- The database it gives. -/
def Reading.database (reading : Reading) (m : Machine) : Str :=
  reading.value m.envText m.environ (str "POSTGRES_DB")

/-- What a start makes of an empty volume. -/
def Start.volume (reading : Reading) (sha256 : Digest) (m : Machine) : Start→Option Volume
  | .stops => none
  | .unrecorded => some ⟨reading.user m,reading.password m,reading.database m,none⟩
  | .initialises salt => some ⟨reading.user m,reading.password m,reading.database m,
      recordInitCredentials sha256 salt.text (textOf (reading.user m))
        (textOf (reading.password m))⟩

/-- A start: any volume but an empty one is kept. -/
def startSpine (reading : Reading) (sha256 : Digest) (m : Machine) (start : Start) : Machine :=
  match m.volume with
  | some _ => m
  | none => ⟨m.envText,m.environ,start.volume reading sha256 m⟩

/-- `make up`: the doctor, and a start if it exits with zero. -/
def up (reading : Reading) (sha256 : Digest) (m : Machine) (round : Round) (start : Start) :
    Machine :=
  match doctor sha256 m round with
  | .ok (0,_) => startSpine reading sha256 m start
  | _ => m

/-- A machine without its volume. -/
def emptied (m : Machine) : Machine := ⟨m.envText,m.environ,none⟩

/-- One move. -/
def step (reading : Reading) (sha256 : Digest) (m : Machine) : Move→Machine
  | .edit text => ⟨text,m.environ,m.volume⟩
  | .export name value => ⟨m.envText,m.environ.set name value,m.volume⟩
  | .unset name => ⟨m.envText,m.environ.unset name,m.volume⟩
  | .up round start => up reading sha256 m round start
  | .down => m
  | .clean => emptied m
  | .reset round start => up reading sha256 (emptied m) round start

/-- The doctor lets a start go ahead. -/
def Starts (sha256 : Digest) (m : Machine) (round : Round) : Prop :=
  ∃ printed,doctor sha256 m round=.ok (0,printed)

/-- The probe says what the data directory holds. -/
def Answers : Reply→Prop
  | .answered (.reported _ _ _ _ _) => True
  | _ => False

/-- The client is there, the daemon gives its version, every declared variable has a value
and the output of the probe can be decoded. -/
structure Prepared (m : Machine) (round : Round) : Prop where
  /-- `docker` is on the path, -/
  client : round.binary≠none
  /-- and `docker info` prints a version. -/
  daemon : ∃ stdout stderr,round.info=.completed 0 stdout stderr ∧ strip stdout≠[]
  /-- What the example declares has a value. -/
  values : ∀ name,name∈parseEnvPairs round.exampleText → m.value name≠[]
  /-- The probe's output is UTF-8. -/
  decodes : round.reply≠.undecodable

/-- The joined pair the doctor reads is the one the volume was initialised with. -/
def Fits (m : Machine) (volume : Volume) : Prop :=
  m.user++str ":"++m.password=volume.user++str ":"++volume.password

/-- It is the one compose reads. -/
def ReadAlike (reading : Reading) (m : Machine) : Prop :=
  m.user++str ":"++m.password=reading.user m++str ":"++reading.password m

/-- It takes the volume away. -/
def Discards : Move→Prop
  | .clean => True
  | .reset _ _ => True
  | _ => False

/-- It changes no value. -/
def KeepsValues : Move→Prop
  | .up _ _ => True
  | .down => True
  | _ => False

/-- A record that a volume carries is its own. -/
def Kept (sha256 : Digest) (m : Machine) : Prop :=
  ∀ volume,m.volume=some volume → volume.record=none ∨ Recorded sha256 volume

/-- The volume has what compose reads. -/
def Drawn (reading : Reading) (m : Machine) : Prop :=
  ∀ volume,m.volume=some volume → volume.user=reading.user m ∧ volume.password=reading.password m

variable {reading : Reading} {sha256 : Digest}

/-- A probe that is decoded raises nothing. -/
theorem readVolume_answered {round : Round} {answer : Answer} (h : round.reply=.answered answer)
    (m : Machine) (world : Option Failure) :
    readVolume m round world=(answer.state (directoryOf m.volume),world) := by
  have hok : ∃ state,readPostgresVolume (answer.probe (directoryOf m.volume))=.ok state := by
    cases answer with
    | raised typeName => exact ⟨_,rfl⟩
    | failed returncode stdout stderr nonzero =>
      obtain ⟨detail,hd⟩ := parseVolumeReport_failed nonzero stdout stderr
      exact ⟨_,hd⟩
    | reported narration trailer stderr quiet apart =>
      exact ⟨_,by rw [Answer.probe,readPostgresVolume,parseVolumeReport,if_neg (not_not.mpr rfl)]⟩
  obtain ⟨state,hstate⟩ := hok
  rw [readVolume,h,Reply.probe,Answer.state,hstate]

/-- One that is not ends the doctor. -/
theorem readVolume_undecodable {round : Round} (h : round.reply=.undecodable) (m : Machine)
    (world : Option Failure) : (readVolume m round world).2=some .unicodeDecode := by
  rw [readVolume,h]
  rfl

/-- What the doctor comes to, from its results. -/
theorem doctor_of_run {m : Machine} {round : Round} {dockerState : Str} {results : List Result}
    {after : Option Failure} (hd : probeDocker round.binary round.info=.ok dockerState)
    (hrun : PreflightChecks.run sha256 (inputs m round dockerState) none=(.ok results,after)) :
    doctor sha256 m round=
      match after with
      | some failure => .error failure
      | none => .ok (exitCode results,report results) := by
  have hmain : main sha256 (.ok (inputs m round dockerState)) none=
      (.ok (exitCode results,report results),after) := by
    simp only [main,hrun]
  have hmap : (probeDocker round.binary round.info).map (inputs m round)=
      .ok (inputs m round dockerState) := by
    rw [hd]
    rfl
  rw [doctor,hmap,hmain]
  cases after <;> rfl

/-- The exit code follows from the results. -/
theorem starts_iff_of_run {m : Machine} {round : Round} {dockerState : Str}
    {results : List Result} (hd : probeDocker round.binary round.info=.ok dockerState)
    (hrun : PreflightChecks.run sha256 (inputs m round dockerState) none=(.ok results,none)) :
    Starts sha256 m round ↔ ∀ result∈results,result.status≠.fail := by
  rw [Starts,doctor_of_run hd hrun,exitCode_eq]
  constructor
  · rintro ⟨printed,h⟩ result hm hfail
    rw [if_pos ⟨result,hm,hfail⟩] at h
    cases h
  · intro hall
    have hnone : ¬∃ result∈results,result.status=.fail := by
      rintro ⟨result,hm,hfail⟩
      exact hall result hm hfail
    rw [if_neg hnone]
    exact ⟨_,rfl⟩

/-- A probe that does not answer leaves the volume unreadable. -/
theorem state_of_silent {answer : Answer} (h : ¬Answers (.answered answer))
    (directory : DataDirectory) :
    ∃ detail,answer.state directory=⟨.unreadable,[],[],detail⟩ := by
  cases answer with
  | raised typeName => exact ⟨_,rfl⟩
  | failed returncode stdout stderr nonzero =>
    obtain ⟨detail,hd⟩ := parseVolumeReport_failed nonzero stdout stderr
    refine ⟨detail,?_⟩
    simp only [Answer.state,Answer.probe,readPostgresVolume,hd]
  | reported narration trailer stderr quiet apart => exact absurd trivial h

/-- A probe that answers says what the directory holds. -/
theorem state_of_answer {answer : Answer} (h : Answers (.answered answer))
    {directory : DataDirectory} {state : VolumeState} (ht : TrueState directory state) :
    answer.state directory=state := by
  cases answer with
  | raised typeName => exact h.elim
  | failed returncode stdout stderr nonzero => exact h.elim
  | reported narration trailer stderr quiet apart =>
    simp only [Answer.state,Answer.probe,readPostgresVolume,parse_reportScript ht quiet apart]

/-- The volume is refused exactly if the probe answers, it carries a record and the doctor
reads another joined pair. The salt can be encoded in every case. -/
theorem mismatched_iff {m : Machine} (hkept : Kept sha256 m) (answer : Answer) :
    (answer.state (directoryOf m.volume)).salt.all isScalar=true ∧
      (Mismatched sha256 (answer.state (directoryOf m.volume)) m.user m.password ↔
        Answers (.answered answer) ∧
          ∃ volume,m.volume=some volume ∧ volume.record≠none ∧ ¬Fits m volume) := by
  by_cases hanswers : Answers (.answered answer)
  · cases hv : m.volume with
    | none =>
      have hstate : answer.state (directoryOf none)=⟨.empty,[],[],[]⟩ :=
        state_of_answer hanswers .empty
      rw [hstate]
      refine ⟨rfl,iff_of_false ?_ ?_⟩
      · rintro ⟨hk,-⟩
        cases hk
      · rintro ⟨-,volume,hnone,-⟩
        cases hnone
    | some volume =>
      rcases hkept volume hv with hnone|⟨salt,digest,hf,hhex,hrecord⟩
      · have hstate : answer.state (directoryOf (some volume))=⟨.unfingerprinted,[],[],[]⟩ := by
          refine state_of_answer hanswers ?_
          rw [directoryOf,hnone]
          exact .unrecorded
        rw [hstate]
        refine ⟨rfl,iff_of_false ?_ ?_⟩
        · rintro ⟨hk,-⟩
          cases hk
        · rintro ⟨-,other,ho,hsome,-⟩
          rw [←Option.some.inj ho] at hsome
          exact hsome hnone
      · have hstate : answer.state (directoryOf (some volume))=
            ⟨.fingerprinted,str salt.text,digest,[]⟩ := by
          refine state_of_answer hanswers ?_
          rw [directoryOf,hrecord]
          exact .recorded true salt.hex hhex
        rw [hstate]
        refine ⟨str_scalar salt.text,?_⟩
        constructor
        · rintro ⟨-,hdiffers⟩
          refine ⟨hanswers,volume,rfl,?_,fun hfits => ?_⟩
          · rw [hrecord]
            exact Option.some_ne_none _
          · rw [←fingerprint_of_join hfits] at hf
            exact hdiffers digest hf rfl
        · rintro ⟨-,other,ho,-,hfits⟩
          cases ho
          exact ⟨rfl,fun digest' hf' => fingerprint_ne hf hfits hf'⟩
  · obtain ⟨detail,hstate⟩ := state_of_silent hanswers (directoryOf m.volume)
    rw [hstate]
    refine ⟨rfl,iff_of_false ?_ (fun h => hanswers h.1)⟩
    rintro ⟨hk,-⟩
    cases hk

/-- What is probed is decided by the volume. -/
theorem starts_of_probed {m : Machine} (hkept : Kept sha256 m) {round : Round} {answer : Answer}
    (hready : probeDocker round.binary round.info=.ok dockerReady)
    (hset : missingCredentials round.exampleText (m.envText.map str) m.environ.pairs=∅)
    (hreply : round.reply=.answered answer) :
    Starts sha256 m round ↔ (Answers round.reply → ∀ volume,m.volume=some volume →
      volume.record≠none → Fits m volume) := by
  obtain ⟨hsalt,hmismatched⟩ := mismatched_iff hkept answer
  have hread := @readVolume_answered round answer hreply m none
  cases run_steps sha256 (inputs m round dockerReady) none with
  | stoppedAtRuntime notReady ran => exact absurd rfl notReady
  | stoppedAtCredentials ready missing ran => exact absurd hset missing
  | probed reached ran =>
    have hstate : ((inputs m round dockerReady).readVolume none).1=
        answer.state (directoryOf m.volume) := congrArg Prod.fst hread
    have hworld : ((inputs m round dockerReady).readVolume none).2=none :=
      congrArg Prod.snd hread
    rw [hstate,hworld] at ran
    obtain ⟨third,hthird,hname,hfail⟩ := checkPostgresVolume_eq_ok sha256 hsalt
      (value_scalar m (str "POSTGRES_USER")) (value_scalar m (str "POSTGRES_PASSWORD"))
    rw [starts_iff_of_run hready (ran third hthird hname)]
    have hresults : (∀ result∈[checkRuntime dockerReady,
        checkCredentials round.exampleText (m.envText.map str) m.environ.pairs,third],
        result.status≠.fail) ↔ third.status≠.fail := by
      simp [(checkRuntime_ready rfl).2,(checkCredentials_complete hset).2]
    have hnot := hresults.trans (not_congr (hfail.trans hmismatched))
    refine hnot.trans ?_
    rw [hreply]
    simp only [not_and,not_exists,not_not]

/-- What a start needs. -/
theorem starts_iff {m : Machine} (hkept : Kept sha256 m) (round : Round) :
    Starts sha256 m round ↔ Prepared m round ∧ (Answers round.reply → ∀ volume,
      m.volume=some volume → volume.record≠none → Fits m volume) := by
  cases hd : probeDocker round.binary round.info with
  | error failure =>
    refine iff_of_false ?_ (fun h => ?_)
    · rintro ⟨printed,hprinted⟩
      rw [doctor,hd] at hprinted
      cases hprinted
    · rw [probeDocker_ready_iff.mpr ⟨h.1.client,h.1.daemon⟩] at hd
      cases hd
  | ok dockerState =>
    cases run_steps sha256 (inputs m round dockerState) none with
    | stoppedAtRuntime notReady ran =>
      rw [starts_iff_of_run hd ran]
      refine iff_of_false (fun hall => ?_) (fun h => notReady ?_)
      · exact hall _ List.mem_cons_self (checkRuntime_other notReady).2
      · rw [probeDocker_ready_iff.mpr ⟨h.1.client,h.1.daemon⟩] at hd
        exact (Except.ok.inj hd).symm
    | stoppedAtCredentials ready missing ran =>
      rw [starts_iff_of_run hd ran]
      refine iff_of_false (fun hall => ?_) (fun h => missing (missing_eq_empty_iff.mpr h.1.values))
      exact hall _ (List.mem_cons_of_mem _ List.mem_cons_self)
        (checkCredentials_missing missing).2
    | probed reached ran =>
      have hready : dockerState=dockerReady := reached.1
      rw [hready] at hd
      obtain ⟨hclient,hdaemon⟩ := probeDocker_ready_iff.mp hd
      cases hreply : round.reply with
      | undecodable =>
        refine iff_of_false ?_ (fun h => h.1.decodes hreply)
        rintro ⟨printed,hprinted⟩
        obtain ⟨third,hthird,hname,-⟩ := @checkPostgresVolume_eq_ok sha256
          (readVolume m round none).1 m.user m.password (by rw [readVolume,hreply]; rfl)
          (value_scalar m _) (value_scalar m _)
        have hran := ran third hthird hname
        have hworld : ((inputs m round dockerState).readVolume none).2=some .unicodeDecode :=
          readVolume_undecodable hreply m none
        rw [hworld] at hran
        rw [doctor_of_run (hready ▸ hd) hran] at hprinted
        cases hprinted
      | answered answer =>
        have hprepared : Prepared m round :=
          ⟨hclient,hdaemon,missing_eq_empty_iff.mp reached.2,by rw [hreply]; exact fun h => by cases h⟩
        rw [starts_of_probed hkept hd reached.2 hreply,and_iff_right hprepared,hreply]

/-- A start that goes ahead. -/
theorem up_of_starts {m : Machine} {round : Round} (h : Starts sha256 m round) (start : Start) :
    up reading sha256 m round start=startSpine reading sha256 m start := by
  obtain ⟨printed,hdoctor⟩ := h
  simp only [up,hdoctor]

/-- A start that is refused changes nothing. -/
theorem up_of_refused {m : Machine} {round : Round} (h : ¬Starts sha256 m round)
    (start : Start) : up reading sha256 m round start=m := by
  unfold up
  split
  · rename_i hdoctor
    exact absurd ⟨_,hdoctor⟩ h
  · rfl

/-- What a start makes of the machine. -/
theorem up_cases (reading : Reading) (sha256 : Digest) (m : Machine) (round : Round)
    (start : Start) :
    up reading sha256 m round start=m ∨
      (m.volume=none ∧ Starts sha256 m round ∧
        up reading sha256 m round start=⟨m.envText,m.environ,start.volume reading sha256 m⟩) := by
  by_cases hs : Starts sha256 m round
  · rw [up_of_starts hs]
    cases hv : m.volume with
    | none => exact .inr ⟨rfl,hs,by simp only [startSpine,hv]⟩
    | some volume => exact .inl (by simp only [startSpine,hv])
  · exact .inl (up_of_refused hs start)

/-- What compose initialises carries its own record, or none. -/
theorem volume_kept {m : Machine} {start : Start} {volume : Volume}
    (h : start.volume reading sha256 m=some volume) :
    volume.record=none ∨ Recorded sha256 volume := by
  cases start with
  | stops => cases h
  | unrecorded =>
    cases h
    exact .inl rfl
  | initialises salt =>
    cases h
    exact .inr (script_recorded (reading.scalar _ _ _) (reading.scalar _ _ _) _ salt)

/-- It has what compose reads. -/
theorem volume_drawn {m : Machine} {start : Start} {volume : Volume}
    (h : start.volume reading sha256 m=some volume) :
    volume.user=reading.user m ∧ volume.password=reading.password m := by
  cases start with
  | stops => cases h
  | unrecorded =>
    cases h
    exact ⟨rfl,rfl⟩
  | initialises salt =>
    cases h
    exact ⟨rfl,rfl⟩

/-- `make up` keeps every record a volume's own. -/
theorem up_kept {m : Machine} (hm : Kept sha256 m) (round : Round) (start : Start) :
    Kept sha256 (up reading sha256 m round start) := by
  rcases up_cases reading sha256 m round start with he|⟨-,-,he⟩
  · rw [he]
    exact hm
  · rw [he]
    exact fun volume hv => volume_kept hv

/-- So does every move. -/
theorem step_kept (m : Machine) (move : Move) (hm : Kept sha256 m) :
    Kept sha256 (step reading sha256 m move) := by
  cases move with
  | edit text => exact hm
  | «export» name value => exact hm
  | unset name => exact hm
  | up round start => exact up_kept hm round start
  | down => exact hm
  | clean =>
    intro volume hv
    cases hv
  | reset round start =>
    refine up_kept (fun volume hv => ?_) round start
    cases hv

/-- Every volume of a whole lifetime carries its own record, or none. -/
theorem run_kept {start : Machine} (hempty : start.volume=none) (moves : List Move) :
    Kept sha256 (run (step reading sha256) start moves) := by
  refine run_keeps (fun m a hm => step_kept m a hm) (fun volume hv => ?_) moves
  rw [hempty] at hv
  cases hv

/-- When a start goes ahead, over whole lifetimes: after every run from an empty volume,
whatever was edited or exported meanwhile and whatever came of the starts, a start goes
ahead if and only if the machine is prepared for it and, should the probe answer and the
volume carry a record, the doctor reads the joined pair compose initialised it with. -/
theorem start_accepted_iff (reading : Reading) (sha256 : Digest) (start : Machine)
    (hempty : start.volume=none) (moves : List Move) (round : Round) :
    Starts sha256 (run (step reading sha256) start moves) round ↔
      Prepared (run (step reading sha256) start moves) round ∧
        (Answers round.reply → ∀ volume,
          (run (step reading sha256) start moves).volume=some volume → volume.record≠none →
            Fits (run (step reading sha256) start moves) volume) :=
  starts_iff (run_kept hempty moves) round

/-- What a move that discards nothing leaves of a volume. -/
theorem step_volume {m : Machine} {volume : Volume} (hv : m.volume=some volume) {move : Move}
    (h : ¬Discards move) : (step reading sha256 m move).volume=some volume := by
  cases move with
  | edit text => exact hv
  | «export» name value => exact hv
  | unset name => exact hv
  | up round start =>
    rcases up_cases reading sha256 m round start with he|⟨hnone,-⟩
    · rw [step,he]
      exact hv
    · rw [hnone] at hv
      cases hv
  | down => exact hv
  | clean => exact absurd trivial h
  | reset round start => exact absurd trivial h

/-- A volume outlives every run without `clean` and `reset`. -/
theorem run_volume {m : Machine} {volume : Volume} (hv : m.volume=some volume)
    {moves : List Move} (h : ∀ move∈moves,¬Discards move) :
    (run (step reading sha256) m moves).volume=some volume :=
  @run_invariant _ _ _ _ (fun m => m.volume=some volume)
    (fun _ _ hm ha => step_volume hm ha) _ hv _ (along_of_forall h m)

/-- It makes the volume on an empty one: a start where there is none, or a reset. -/
def Initialises (reading : Reading) (sha256 : Digest) (m : Machine) (move : Move)
    (volume : Volume) : Prop :=
  ∃ round start,Starts sha256 (emptied m) round ∧
    ((move=.up round start ∧ m.volume=none) ∨ move=.reset round start) ∧
    start.volume reading sha256 m=some volume

theorem emptied_of_none {m : Machine} (h : m.volume=none) : emptied m=m := by
  rw [emptied,←h]

/-- It leaves that volume. -/
theorem step_initialises {m : Machine} {move : Move} {volume : Volume}
    (h : Initialises reading sha256 m move volume) :
    (step reading sha256 m move).volume=some volume := by
  obtain ⟨round,start,hstarts,hmove,hvolume⟩ := h
  have hup : (up reading sha256 (emptied m) round start).volume=some volume := by
    rw [up_of_starts hstarts]
    exact hvolume
  rcases hmove with ⟨rfl,hnone⟩|rfl
  · rw [emptied_of_none hnone] at hup
    exact hup
  · exact hup

/-- A volume that is there after a move was there before, or the move made it. -/
theorem volume_of_step {m : Machine} {move : Move} {volume : Volume}
    (hv : (step reading sha256 m move).volume=some volume) :
    (m.volume=some volume ∧ ¬Discards move) ∨ Initialises reading sha256 m move volume := by
  cases move with
  | edit text => exact .inl ⟨hv,id⟩
  | «export» name value => exact .inl ⟨hv,id⟩
  | unset name => exact .inl ⟨hv,id⟩
  | up round start =>
    rw [step] at hv
    rcases up_cases reading sha256 m round start with he|⟨hnone,hs,he⟩
    · rw [he] at hv
      exact .inl ⟨hv,id⟩
    · rw [he] at hv
      exact .inr ⟨round,start,by rwa [emptied_of_none hnone],.inl ⟨rfl,hnone⟩,hv⟩
  | down => exact .inl ⟨hv,id⟩
  | clean => cases hv
  | reset round start =>
    change (up reading sha256 (emptied m) round start).volume=some volume at hv
    rcases up_cases reading sha256 (emptied m) round start with he|⟨-,hs,he⟩
    · rw [he] at hv
      cases hv
    · rw [he] at hv
      exact .inr ⟨round,start,hs,.inr rfl,hv⟩

/-- Where a volume comes from: it is there at the end of a run from an empty one if and
only if some start of the run made it, with what compose read at that moment, and nothing
since discarded it. -/
theorem volume_is_last_start (reading : Reading) (sha256 : Digest) (start : Machine)
    (hempty : start.volume=none) (moves : List Move) (volume : Volume) :
    (run (step reading sha256) start moves).volume=some volume ↔
      ∃ before move later,moves=before++move::later ∧
        Initialises reading sha256 (run (step reading sha256) start before) move volume ∧
        ∀ other∈later,¬Discards other := by
  constructor
  · induction moves using List.reverseRecOn with
    | nil =>
      intro hv
      rw [run_nil,hempty] at hv
      cases hv
    | append_singleton moves move ih =>
      intro hv
      rw [run_append,run_cons,run_nil] at hv
      rcases volume_of_step hv with ⟨hbefore,hkept⟩|hmade
      · obtain ⟨before,first,later,rfl,hmade,hlater⟩ := ih hbefore
        refine ⟨before,first,later++[move],?_,hmade,fun other ho => ?_⟩
        · rw [List.append_assoc,List.cons_append]
        · rcases List.mem_append.mp ho with ho|ho
          · exact hlater other ho
          · rw [List.mem_singleton.mp ho]
            exact hkept
      · exact ⟨moves,move,[],rfl,hmade,fun other ho => absurd ho List.not_mem_nil⟩
  · rintro ⟨before,move,later,rfl,hmade,hlater⟩
    rw [run_append,run_cons]
    exact run_volume (step_initialises hmade) hlater

/-- What a start leaves of a volume that has what compose reads. -/
theorem up_drawn {m : Machine} (hm : Drawn reading m) (round : Round) (start : Start) :
    Drawn reading (up reading sha256 m round start) ∧
      (up reading sha256 m round start).envText=m.envText ∧
      (up reading sha256 m round start).environ=m.environ := by
  rcases up_cases reading sha256 m round start with he|⟨-,-,he⟩
  · rw [he]
    exact ⟨hm,rfl,rfl⟩
  · rw [he]
    exact ⟨fun volume hv => volume_drawn hv,rfl,rfl⟩

/-- Until a value is changed, a volume made since a reset has what compose reads. -/
theorem run_drawn {m : Machine} (hm : Drawn reading m) {moves : List Move}
    (h : ∀ move∈moves,KeepsValues move) : Drawn reading (run (step reading sha256) m moves) := by
  refine @run_invariant _ _ _ _ (Drawn reading) (fun other move ho hmove => ?_) _ hm _
    (along_of_forall h m)
  cases move with
  | edit text => exact hmove.elim
  | «export» name value => exact hmove.elim
  | unset name => exact hmove.elim
  | up round start => exact (up_drawn ho round start).1
  | down => exact ho
  | clean => exact hmove.elim
  | reset round start => exact hmove.elim

/-- The two remedies the doctor names for a refused volume. On a prepared machine a refusal
means that the volume carries a record and the doctor reads another joined pair than it was
initialised with. Until something discards the volume, a prepared start whose probe answers
goes ahead exactly if the doctor reads that pair, whatever else is done. After a reset,
whatever comes of its start and of later ones, such a start goes ahead exactly if there is
no record yet or the doctor reads the joined pair that compose reads, until a value is
changed. -/
theorem refused_start_recovers (reading : Reading) (sha256 : Digest) (start : Machine)
    (hempty : start.volume=none) (before : List Move) (round : Round) (volume : Volume)
    (hvolume : (run (step reading sha256) start before).volume=some volume)
    (hprepared : Prepared (run (step reading sha256) start before) round)
    (hrefused : ¬Starts sha256 (run (step reading sha256) start before) round) :
    (volume.record≠none ∧ ¬Fits (run (step reading sha256) start before) volume) ∧
      (∀ later,(∀ move∈later,¬Discards move) → ∀ again,
        Prepared (run (step reading sha256) start (before++later)) again →
          Answers again.reply →
            (Starts sha256 (run (step reading sha256) start (before++later)) again ↔
              Fits (run (step reading sha256) start (before++later)) volume)) ∧
      ∀ anew began later,(∀ move∈later,KeepsValues move) → ∀ again,
        Prepared (run (step reading sha256) start (before++.reset anew began::later)) again →
          Answers again.reply →
            (Starts sha256 (run (step reading sha256) start (before++.reset anew began::later))
                again ↔
              ((∃ made,(run (step reading sha256) start
                  (before++.reset anew began::later)).volume=some made ∧ made.record≠none) →
                ReadAlike reading
                  (run (step reading sha256) start (before++.reset anew began::later)))) := by
  have hfirst : volume.record≠none ∧ ¬Fits (run (step reading sha256) start before) volume := by
    rw [starts_iff (run_kept hempty before),and_iff_right hprepared] at hrefused
    constructor
    · exact fun hnone => hrefused (fun _ other ho hrecord => by
        rw [hvolume] at ho
        exact absurd hnone (Option.some.inj ho ▸ hrecord))
    · exact fun hfits => hrefused (fun _ other ho _ => by
        rw [hvolume] at ho
        exact Option.some.inj ho ▸ hfits)
  refine ⟨hfirst,fun later hlater again hagain hanswers => ?_,
    fun anew began later hlater again hagain hanswers => ?_⟩
  · have hthere : (run (step reading sha256) start (before++later)).volume=some volume := by
      rw [run_append]
      exact run_volume hvolume hlater
    rw [starts_iff (run_kept hempty _),and_iff_right hagain]
    constructor
    · exact fun h => h hanswers volume hthere hfirst.1
    · intro hfits _ other ho _
      rw [hthere] at ho
      rwa [←Option.some.inj ho]
  · have hdrawn : Drawn reading
        (run (step reading sha256) start (before++.reset anew began::later)) := by
      rw [run_append,run_cons]
      refine run_drawn (up_drawn (fun made hv => ?_) anew began).1 hlater
      cases hv
    rw [starts_iff (run_kept hempty _),and_iff_right hagain]
    constructor
    · rintro h ⟨made,hmade,hrecord⟩
      have hfits := h hanswers made hmade hrecord
      rwa [Fits,(hdrawn made hmade).1,(hdrawn made hmade).2] at hfits
    · intro h _ made hmade hrecord
      rw [Fits,(hdrawn made hmade).1,(hdrawn made hmade).2]
      exact h ⟨made,hmade,hrecord⟩

/-- Compose's documented reading. -/
def dotenvReading : Reading where
  value text environ name := composeValue name (str (text.getD "")) environ.pairs
  scalar text environ name := composeValue_scalar (text.getD "") environ name

/-- A round that finds the daemon ready, an example that declares nothing and a probe that
answers without a word more. -/
def quietRound : Round :=
  ⟨some (str "/usr/bin/docker"),.completed 0 (str "29.0.0\n") [],[],.answered quietVisit.answer⟩

/-- Every machine is prepared for it. -/
theorem quiet_prepared (m : Machine) : Prepared m quietRound := by
  refine ⟨Option.some_ne_none _,⟨_,_,rfl,by decide⟩,fun name hname => ?_,fun h => by cases h⟩
  cases hname

/-- On an empty volume it goes ahead. -/
theorem up_quiet (reading : Reading) (sha256 : Digest) {m : Machine} (h : m.volume=none)
    (start : Start) :
    up reading sha256 m quietRound start=⟨m.envText,m.environ,start.volume reading sha256 m⟩ := by
  have hs : Starts sha256 m quietRound := by
    rw [starts_iff (fun volume hv => by rw [h] at hv; cases hv)]
    refine ⟨quiet_prepared m,fun _ volume hv => ?_⟩
    rw [h] at hv
    cases hv
  rw [up_of_starts hs,startSpine,h]

/-- What the init script comes to leaves a record. -/
theorem initialises_record {m : Machine} {salt : Salt} {volume : Volume}
    (h : (Start.initialises salt).volume reading sha256 m=some volume) : volume.record≠none := by
  cases h
  obtain ⟨drawn,digest,-,-,hrecord⟩ := @script_recorded sha256 _ _
    (reading.scalar m.envText m.environ (str "POSTGRES_USER"))
    (reading.scalar m.envText m.environ (str "POSTGRES_PASSWORD")) (reading.database m) salt
  exact hrecord ▸ Option.some_ne_none _

/-- A machine with this `.env`, before its first start. -/
def freshMachine (text : String) : Machine := ⟨some text,noExports,none⟩

/-- A first start, which comes to the init script. -/
def firstStart : Move := .up quietRound (.initialises suiteSalt)

/-- What is left by it. -/
theorem firstStart_run (text : String) :
    run (step dotenvReading sampleDigest) (freshMachine text) [firstStart]=
      ⟨some text,noExports,
        (Start.initialises suiteSalt).volume dotenvReading sampleDigest (freshMachine text)⟩ := by
  rw [run_cons,run_nil,firstStart,step]
  exact up_quiet dotenvReading sampleDigest rfl _

/-- After an edit of the password the next start is refused. -/
theorem start_accepted_iff_sample : ¬Starts sampleDigest
    (run (step dotenvReading sampleDigest)
      (freshMachine "POSTGRES_USER=platform\nPOSTGRES_PASSWORD=1f4c\n")
      ([firstStart]++[.edit (some "POSTGRES_USER=platform\nPOSTGRES_PASSWORD=edited\n")]))
    quietRound := by
  rw [start_accepted_iff dotenvReading sampleDigest _ rfl,run_append,firstStart_run,run_cons,
    run_nil,step]
  rintro ⟨-,hfits⟩
  have hfit := hfits trivial _ rfl (initialises_record rfl)
  revert hfit
  unfold Fits
  decide +kernel

/-- The volume of a run of one start is the one that start made. -/
theorem volume_is_last_start_sample :
    ∃ before move later,[firstStart]=before++move::later ∧
      Initialises dotenvReading sampleDigest
        (run (step dotenvReading sampleDigest) (freshMachine commentedText) before) move
        ⟨dotenvReading.user (freshMachine commentedText),
          dotenvReading.password (freshMachine commentedText),
          dotenvReading.database (freshMachine commentedText),
          recordInitCredentials sampleDigest suiteSalt.text
            (textOf (dotenvReading.user (freshMachine commentedText)))
            (textOf (dotenvReading.password (freshMachine commentedText)))⟩ ∧
      ∀ other∈later,¬Discards other :=
  (volume_is_last_start dotenvReading sampleDigest _ rfl [firstStart] _).mp
    (by rw [firstStart_run]; rfl)

/-- With a comment behind the role the second start is refused, and so is the one behind a
reset. -/
theorem refused_start_recovers_sample : ¬Starts sampleDigest
    (run (step dotenvReading sampleDigest) (freshMachine commentedText)
      ([firstStart]++.reset quietRound (.initialises suiteSalt)::[.down])) quietRound := by
  have hrun := firstStart_run commentedText
  have hunlike : ¬ReadAlike dotenvReading (freshMachine commentedText) := by
    unfold ReadAlike
    decide +kernel
  have hrefused : ¬Starts sampleDigest (run (step dotenvReading sampleDigest)
      (freshMachine commentedText) [firstStart]) quietRound := by
    rw [starts_iff (run_kept rfl _),hrun]
    rintro ⟨-,hfits⟩
    exact hunlike (hfits trivial _ rfl (initialises_record rfl))
  have hagain := (refused_start_recovers dotenvReading sampleDigest _ rfl [firstStart] quietRound _
    (by rw [hrun]; rfl) (quiet_prepared _) hrefused).2.2 quietRound (.initialises suiteSalt) [.down]
    (fun move hm => by rw [List.mem_singleton.mp hm]; trivial) quietRound (quiet_prepared _) trivial
  have hreset : run (step dotenvReading sampleDigest) (freshMachine commentedText)
      ([firstStart]++.reset quietRound (.initialises suiteSalt)::[.down])=
        ⟨some commentedText,noExports,(Start.initialises suiteSalt).volume dotenvReading
          sampleDigest (freshMachine commentedText)⟩ := by
    rw [run_append,hrun,run_cons,run_cons,run_nil]
    exact @up_quiet dotenvReading sampleDigest (freshMachine commentedText) rfl _
  rw [hagain,hreset]
  exact fun h => hunlike (h ⟨_,rfl,initialises_record rfl⟩)

end MlopsPlatform.PreflightRecovery
