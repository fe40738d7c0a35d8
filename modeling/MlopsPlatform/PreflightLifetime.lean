import MlopsPlatform.PreflightPipeline
import MlopsPlatform.PreflightVolumeReport
import MlopsPlatform.StateRuns

/-!
# Whole lifetimes of the Postgres volume

A machine is its `.env`, its exported variables and its volume. Edits and
exports change what is in force, a start on an empty volume pins it, and the
init script records the joined pair but not the database. The invariant ties
the record to the values the volume was initialised with: a passing check then
fixes the joined text `user:password` and nothing else.
-/

namespace MlopsPlatform.PreflightLifetime

open TextCodec TextLines PythonFiles DigestHex StateRuns
open PreflightCredentials PreflightRuntime PreflightChecks PreflightPipeline
open PreflightVolumeReport

/-- Exported variables, which are texts. -/
structure Environment where
  /-- The variables. -/
  pairs : Pairs
  /-- Every value has a UTF-8 form. -/
  scalar : ∀ name value,pairs.lookup name=some value → value.all isScalar=true

/-- A salt the init script may draw. -/
structure Salt where
  /-- Its digits. -/
  text : String
  /-- They are hexadecimal, and at least one. -/
  hex : HexText (str text)

/-- An initialised volume. -/
structure Volume where
  /-- The role it was initialised with. -/
  user : Str
  /-- The password of that role. -/
  password : Str
  /-- The database that was created. -/
  database : Str
  /-- What the init script left in it. -/
  record : Option Str

/-- What the commands act on. -/
structure Machine where
  /-- The text of `.env`, if it exists. -/
  envText : Option String
  /-- The exported variables. -/
  environ : Environment
  /-- The Postgres volume, once it is initialised. -/
  volume : Option Volume

/-- How compose and the probe container answer the doctor. -/
inductive Answer where
  /-- The probe could not be run. -/
  | raised (typeName : Str)
  /-- The probe ended with an error. -/
  | failed (returncode : ℤ) (stdout stderr : Str) (nonzero : returncode≠0)
  /-- The probe reported, with compose narrating before and after it. -/
  | reported (narration trailer stderr : Str) (quiet : Narration narration)
    (apart : Trailer trailer)

/-- One run of the doctor: what it finds besides the machine. -/
structure Visit where
  /-- The state of the daemon. -/
  dockerState : Str
  /-- The text of the example file. -/
  exampleText : Str
  /-- The answer of the probe. -/
  answer : Answer

/-- What is done to a machine. -/
inductive Action where
  /-- `.env` is written, or removed. -/
  | edit (text : Option String)
  /-- A variable is exported. -/
  | export (name value : String)
  /-- A variable is unset. -/
  | unset (name : String)
  /-- `make up`, with the salt an initialisation would draw. -/
  | up (visit : Visit) (salt : Salt)
  /-- `make down` -/
  | down
  /-- `make clean` -/
  | clean
  /-- `make reset` -/
  | reset (visit : Visit) (salt : Salt)

/-- Set one variable. -/
def Environment.set (environ : Environment) (name value : String) : Environment where
  pairs := environ.pairs.insert (str name) (str value)
  scalar := by
    intro n v h
    by_cases hn : n=str name
    · rw [hn,AList.lookup_insert,Option.some.injEq] at h
      rw [←h]
      exact str_scalar value
    · rw [AList.lookup_insert_ne hn] at h
      exact environ.scalar n v h

/-- Unset one variable. -/
def Environment.unset (environ : Environment) (name : String) : Environment where
  pairs := environ.pairs.erase (str name)
  scalar := by
    intro n v h
    by_cases hn : n=str name
    · rw [hn,AList.lookup_erase] at h
      cases h
    · rw [AList.lookup_erase_ne hn] at h
      exact environ.scalar n v h

/-- The value in force for a name. -/
def Machine.value (m : Machine) (name : Str) : Str :=
  effectiveValue name (m.envText.map str) m.environ.pairs

/-- The role in force. -/
def Machine.user (m : Machine) : Str := m.value (str "POSTGRES_USER")

/-- The password in force. -/
def Machine.password (m : Machine) : Str := m.value (str "POSTGRES_PASSWORD")

/-- The database in force. -/
def Machine.database (m : Machine) : Str := m.value (str "POSTGRES_DB")

/-- The data directory of a volume. -/
def directoryOf : Option Volume→DataDirectory
  | none => ⟨false,none⟩
  | some volume => ⟨true,volume.record⟩

/-- The probe's run in a data directory. -/
def Answer.probe (directory : DataDirectory) : Answer→Probe
  | .raised typeName => .raised typeName
  | .failed returncode stdout stderr _ => .completed returncode stdout stderr
  | .reported narration trailer stderr _ _ =>
    .completed 0 (narration++reportScript directory++trailer) stderr

/-- What `read_postgres_volume` returns, which raises on none of these answers. -/
def Answer.state (answer : Answer) (directory : DataDirectory) : VolumeState :=
  match readPostgresVolume (answer.probe directory) with
  | .ok state => state
  | .error _ => {kind := .unreadable}

/-- What the doctor is given on a machine. -/
def Machine.inputs (m : Machine) (visit : Visit) : Inputs Unit :=
  ⟨visit.dockerState,visit.exampleText,m.envText.map str,m.environ.pairs,
    fun world => (visit.answer.state (directoryOf m.volume),world)⟩

/-- The text of a string that has a UTF-8 form. -/
def textOf (s : Str) : String := String.ofList (s.map toChar)

/-- The volume an initialisation creates, taken to be given the values in force. -/
def initialise (sha256 : Digest) (m : Machine) (salt : Salt) : Volume :=
  ⟨m.user,m.password,m.database,
    recordInitCredentials sha256 salt.text (textOf m.user) (textOf m.password)⟩

/-- A start: an empty volume is initialised, any other is kept. -/
def startSpine (sha256 : Digest) (m : Machine) (salt : Salt) : Machine :=
  match m.volume with
  | some _ => m
  | none => ⟨m.envText,m.environ,some (initialise sha256 m salt)⟩

/-- `make up`: the doctor, and a start if it exits with zero. -/
def up (sha256 : Digest) (m : Machine) (visit : Visit) (salt : Salt) : Machine :=
  match main sha256 (.ok (m.inputs visit)) () with
  | (.ok (0,_),_) => startSpine sha256 m salt
  | _ => m

/-- One action. -/
def step (sha256 : Digest) (m : Machine) : Action→Machine
  | .edit text => ⟨text,m.environ,m.volume⟩
  | .export name value => ⟨m.envText,m.environ.set name value,m.volume⟩
  | .unset name => ⟨m.envText,m.environ.unset name,m.volume⟩
  | .up visit salt => up sha256 m visit salt
  | .down => m
  | .clean => ⟨m.envText,m.environ,none⟩
  | .reset visit salt => up sha256 ⟨m.envText,m.environ,none⟩ visit salt

/-- The doctor reports a verdict on the postgres volume. -/
def Reports (sha256 : Digest) (status : Status) (m : Machine) (visit : Visit) : Prop :=
  ∃ results after,run sha256 (m.inputs visit) ()=(.ok results,after) ∧
    ∃ result∈results,result.name=postgresVolume ∧ result.status=status

/-- The doctor reports the postgres volume OK. -/
def ReportsOk (sha256 : Digest) (m : Machine) (visit : Visit) : Prop :=
  Reports sha256 .ok m visit

/-- With the joined pair of the volume in force, the colon is in its place and
so is the database. -/
def Keeps (m : Machine) : Prop :=
  ∀ volume,m.volume=some volume →
    m.user++str ":"++m.password=volume.user++str ":"++volume.password →
    m.user.length=volume.user.length ∧ m.database=volume.database

/-- An edit or an export that does not, on an initialised volume, bring its
joined pair into force with another database or with the colon moved. -/
def Careful (m : Machine) : Action→Prop
  | .edit text => Keeps ⟨text,m.environ,m.volume⟩
  | .export name value => Keeps ⟨m.envText,m.environ.set name value,m.volume⟩
  | .unset name => Keeps ⟨m.envText,m.environ.unset name,m.volume⟩
  | _ => True

/-- The record is the init script's for the values the volume pins. -/
def Recorded (sha256 : Digest) (volume : Volume) : Prop :=
  ∃ (salt : Salt) (digest : Str),
    fingerprint sha256 (str salt.text) volume.user volume.password=.ok digest ∧
      HexText digest ∧ volume.record=some (recordText (str salt.text) digest)

/-- What every reachable machine satisfies. -/
structure Sound (sha256 : Digest) (m : Machine) : Prop where
  /-- A volume holds its own record. -/
  recorded : ∀ volume,m.volume=some volume → Recorded sha256 volume
  /-- Its joined pair comes with its database and its colon. -/
  keeps : Keeps m

variable {sha256 : Digest}

/-- The values in force are texts. -/
theorem value_scalar (m : Machine) (name : Str) : (m.value name).all isScalar=true := by
  refine effectiveValue_scalar (fun text h => ?_) m.environ.scalar name
  obtain ⟨t,-,rfl⟩ := Option.map_eq_some_iff.mp h
  exact str_scalar t

theorem str_textOf {s : Str} (hs : s.all isScalar=true) : str (textOf s)=s := str_ofList hs

/-- The init script records the pair it is given. -/
theorem script_recorded {user password : Str} (hu : user.all isScalar=true)
    (hp : password.all isScalar=true) (database : Str) (salt : Salt) :
    Recorded sha256 ⟨user,password,database,
      recordInitCredentials sha256 salt.text (textOf user) (textOf password)⟩ := by
  obtain ⟨bytes,-,hf⟩ := fingerprint_eq_ok sha256 (str_scalar salt.text) hu hp
  have hf' : fingerprint sha256 (str salt.text) (str (textOf user)) (str (textOf password))=
      .ok (sha256.hexdigest bytes) := by
    rw [str_textOf hu,str_textOf hp]
    exact hf
  obtain ⟨hrecord,hhex⟩ := recordInitCredentials_eq sha256 salt.hex.1 hf'
  exact ⟨salt,_,hf,hhex,hrecord⟩

/-- An initialisation records the values it pins. -/
theorem initialise_recorded (m : Machine) (salt : Salt) :
    Recorded sha256 (initialise sha256 m salt) :=
  script_recorded (value_scalar m _) (value_scalar m _) m.database salt

/-- A start keeps the invariant. -/
theorem startSpine_sound {m : Machine} (hm : Sound sha256 m) (salt : Salt) :
    Sound sha256 (startSpine sha256 m salt) := by
  unfold startSpine
  split
  · exact hm
  · refine ⟨fun volume h => ?_,fun volume h _ => ?_⟩
    · rw [←Option.some.inj h]
      exact initialise_recorded m salt
    · rw [←Option.some.inj h]
      exact ⟨rfl,rfl⟩

/-- So does `make up`, whatever the doctor says. -/
theorem up_sound {m : Machine} (hm : Sound sha256 m) (visit : Visit) (salt : Salt) :
    Sound sha256 (up sha256 m visit salt) := by
  unfold up
  split
  · exact startSpine_sound hm salt
  · exact hm

/-- A machine without a volume satisfies the invariant. -/
theorem sound_of_empty {m : Machine} (h : m.volume=none) : Sound sha256 m := by
  refine ⟨fun volume hv => ?_,fun volume hv => ?_⟩
  · rw [h] at hv
    cases hv
  · rw [h] at hv
    cases hv

/-- One careful action keeps the invariant. -/
theorem step_sound (m : Machine) (action : Action) (hm : Sound sha256 m)
    (hcareful : Careful m action) : Sound sha256 (step sha256 m action) := by
  cases action with
  | edit text => exact ⟨hm.recorded,hcareful⟩
  | «export» name value => exact ⟨hm.recorded,hcareful⟩
  | unset name => exact ⟨hm.recorded,hcareful⟩
  | up visit salt => exact up_sound hm visit salt
  | down => exact hm
  | clean => exact sound_of_empty rfl
  | reset visit salt => exact up_sound (sound_of_empty rfl) visit salt

/-- The probe reads the state of the directory or nothing at all. -/
theorem state_of_directory (answer : Answer) {directory : DataDirectory} {state : VolumeState}
    (ht : TrueState directory state) :
    answer.state directory=state ∨
      ∃ detail,answer.state directory=⟨.unreadable,[],[],detail⟩ := by
  cases answer with
  | raised typeName => exact Or.inr ⟨_,rfl⟩
  | failed returncode stdout stderr nonzero =>
    obtain ⟨detail,hd⟩ := parseVolumeReport_failed nonzero stdout stderr
    refine Or.inr ⟨detail,?_⟩
    simp only [Answer.state,Answer.probe,readPostgresVolume,hd]
  | reported narration trailer stderr quiet apart =>
    refine Or.inl ?_
    simp only [Answer.state,Answer.probe,readPostgresVolume,parse_reportScript ht quiet apart]

/-- A volume check that passes found no data or the pair's own record. -/
theorem kind_of_ok {volume : VolumeState} {user password : Str} {result : Result}
    (hc : checkPostgresVolume sha256 volume user password=.ok result) (hok : result.status=.ok) :
    volume.kind=.empty ∨ (volume.kind=.fingerprinted ∧
      fingerprint sha256 volume.salt user password=.ok volume.digest) := by
  cases hk : volume.kind with
  | empty => exact Or.inl rfl
  | fingerprinted =>
    refine Or.inr ⟨rfl,?_⟩
    simp only [checkPostgresVolume,hk] at hc
    split at hc
    · cases hc
    · rename_i digest hf
      split at hc
      · rename_i hd
        rw [hf,hd]
      · cases hc
        cases hok
  | unfingerprinted =>
    simp only [checkPostgresVolume,hk] at hc
    cases hc
    cases hok
  | unreadable =>
    simp only [checkPostgresVolume,hk] at hc
    cases hc
    cases hok

/-- What the doctor is given on a machine is encodable, if its salt is. -/
theorem inputs_encodable {m : Machine} {visit : Visit}
    (hs : (visit.answer.state (directoryOf m.volume)).salt.all isScalar=true) :
    Encodable (m.inputs visit) () := by
  refine ⟨fun text h => ?_,m.environ.scalar,hs⟩
  obtain ⟨t,-,rfl⟩ := Option.map_eq_some_iff.mp h
  exact str_scalar t

/-- A verdict that is reported on a volume with its own record is the verdict of
the volume check on that record. -/
theorem verdict_on_record {m : Machine} {volume : Volume} {visit : Visit} {status : Status}
    (hv : m.volume=some volume) (hrec : Recorded sha256 volume) (hknown : status≠.unknown)
    (h : Reports sha256 status m visit) :
    ∃ salt digest result,
      fingerprint sha256 salt volume.user volume.password=.ok digest ∧
      checkPostgresVolume sha256 ⟨.fingerprinted,salt,digest,[]⟩ m.user m.password=.ok result ∧
      result.status=status := by
  obtain ⟨salt,digest,hf,hhex,hrecord⟩ := hrec
  obtain ⟨results,after,hrun,result,hm,hname,hstatus⟩ := h
  have ht : TrueState (directoryOf m.volume) ⟨.fingerprinted,str salt.text,digest,[]⟩ := by
    rw [hv,directoryOf,hrecord]
    exact .recorded true salt.hex hhex
  have hverdict : (visit.answer.state (directoryOf m.volume)).salt.all isScalar=true →
      checkPostgresVolume sha256 (visit.answer.state (directoryOf m.volume)) m.user
        m.password=.ok result := by
    intro hs
    rcases volume_result (inputs_encodable hs) hrun hm hname with hunknown|⟨-,hc⟩
    · exact absurd (hstatus.symm.trans hunknown) hknown
    · exact hc
  rcases state_of_directory visit.answer ht with hs|⟨detail,hs⟩
  · rw [hs] at hverdict
    exact ⟨_,digest,result,hf,hverdict (str_scalar salt.text),hstatus⟩
  · rw [hs] at hverdict
    have hunknown : result.status=.unknown := by
      rw [←Except.ok.inj (hverdict rfl)]
    exact absurd (hstatus.symm.trans hunknown) hknown

/-- On an initialised volume with its own record, a reported OK means that the
joined pair in force is the one recorded. -/
theorem join_of_reportsOk {m : Machine} {volume : Volume} (hv : m.volume=some volume)
    (hrec : Recorded sha256 volume) {visit : Visit} (h : ReportsOk sha256 m visit) :
    m.user++str ":"++m.password=volume.user++str ":"++volume.password := by
  obtain ⟨salt,digest,result,hf,hc,hok⟩ := verdict_on_record hv hrec (by decide) h
  rcases kind_of_ok hc hok with hk|⟨-,hf'⟩
  · cases hk
  · have hjoin := fingerprint_join hf' hf
    rw [credentialJoin_split,credentialJoin_split] at hjoin
    exact List.append_cancel_left hjoin

/-- Nothing at all is a narration. -/
theorem narration_nil : Narration [] := by
  refine ⟨fun c h => ?_,fun line h => ?_⟩
  · cases h
  · cases h

/-- A visit that finds the daemon ready, an example that declares nothing and
a probe that answers without a word more. -/
def quietVisit : Visit :=
  ⟨dockerReady,[],.reported [] [] [] narration_nil (Or.inl rfl)⟩

/-- On a quiet visit the state of the directory is read. -/
theorem quiet_state {directory : DataDirectory} {state : VolumeState}
    (ht : TrueState directory state) : quietVisit.answer.state directory=state := by
  have hparse := parse_reportScript ht narration_nil (Or.inl rfl : Trailer []) []
  simp only [quietVisit,Answer.state,Answer.probe,readPostgresVolume,hparse]

/-- Nothing is missing on a quiet visit. -/
theorem quiet_missing (m : Machine) :
    missingCredentials (m.inputs quietVisit).exampleText (m.inputs quietVisit).envText
      (m.inputs quietVisit).environ=∅ := by
  rw [missing_eq_empty_iff]
  intro name hname
  cases hname

/-- On a quiet visit the verdict on the record is reported. -/
theorem quiet_verdict {m : Machine} {volume : Volume} (hv : m.volume=some volume)
    (hrec : Recorded sha256 volume) :
    ∃ salt digest,fingerprint sha256 salt volume.user volume.password=.ok digest ∧
      salt.all isScalar=true ∧ ∀ result,result.name=postgresVolume →
        checkPostgresVolume sha256 ⟨.fingerprinted,salt,digest,[]⟩ m.user m.password=.ok result →
        Reports sha256 result.status m quietVisit := by
  obtain ⟨salt,digest,hf,hhex,hrecord⟩ := hrec
  have ht : TrueState (directoryOf m.volume) ⟨.fingerprinted,str salt.text,digest,[]⟩ := by
    rw [hv,directoryOf,hrecord]
    exact .recorded true salt.hex hhex
  have hstate : quietVisit.answer.state (directoryOf m.volume)=
      ⟨.fingerprinted,str salt.text,digest,[]⟩ := quiet_state ht
  refine ⟨_,_,hf,str_scalar salt.text,fun result hname hc => ?_⟩
  rw [←hstate] at hc
  obtain ⟨results,after,hrun,hm⟩ := @exists_volume_result Unit sha256 (m.inputs quietVisit) () _
    ⟨rfl,quiet_missing m⟩ hc hname
  exact ⟨results,after,hrun,result,hm,hname,rfl⟩

/-- Whether a pair's fingerprint is the recorded one depends on the joined text. -/
theorem fingerprint_of_join {salt user password user' password' : Str}
    (hjoin : user++str ":"++password=user'++str ":"++password') :
    fingerprint sha256 salt user password=fingerprint sha256 salt user' password' := by
  simp only [fingerprint,credentialJoin_split,hjoin]

/-- The converse, for a quiet visit: the recorded joined pair is reported OK,
whatever the database is and wherever the colon stands. -/
theorem reportsOk_of_join {m : Machine} {volume : Volume} (hv : m.volume=some volume)
    (hrec : Recorded sha256 volume)
    (hjoin : m.user++str ":"++m.password=volume.user++str ":"++volume.password) :
    ReportsOk sha256 m quietVisit := by
  obtain ⟨salt,digest,hf,-,hreports⟩ := quiet_verdict hv hrec
  rw [←fingerprint_of_join hjoin] at hf
  obtain ⟨detail,hc⟩ := @checkPostgresVolume_match sha256
    ⟨.fingerprinted,salt,digest,[]⟩ m.user m.password rfl hf
  exact hreports _ rfl hc

/-- `make up` initialises an empty volume on a quiet visit. -/
theorem up_initialises {m : Machine} (hm : m.volume=none) (salt : Salt) :
    up sha256 m quietVisit salt=⟨m.envText,m.environ,some (initialise sha256 m salt)⟩ := by
  have hstate : quietVisit.answer.state (directoryOf m.volume)=⟨.empty,[],[],[]⟩ := by
    rw [hm]
    exact quiet_state .empty
  have henc : Encodable (m.inputs quietVisit) () := by
    refine inputs_encodable ?_
    rw [hstate]
    rfl
  have hno : ¬Refused sha256 (m.inputs quietVisit) () := by
    rintro (h|⟨name,hname,-⟩|⟨hk,-⟩)
    · exact h rfl
    · cases hname
    · change (quietVisit.answer.state (directoryOf m.volume)).kind=_ at hk
      rw [hstate] at hk
      cases hk
  obtain ⟨printed,after,hmain⟩ := (doctor_lawful sha256 _ () henc).accepted hno
  simp only [up,hmain,startSpine,hm]

/-- The doctor over whole lifetimes. Along every run of careful actions from a
machine with an empty volume, whenever the volume is initialised and the
doctor reports it OK, the user, the password and the database in force are the
ones the volume was initialised with. -/
theorem doctor_sound_along (sha256 : Digest) (start : Machine) (hempty : start.volume=none)
    (actions : List Action) (hcareful : Along (step sha256) Careful start actions)
    (visit : Visit) (volume : Volume)
    (hvolume : (run (step sha256) start actions).volume=some volume)
    (hok : ReportsOk sha256 (run (step sha256) start actions) visit) :
    (run (step sha256) start actions).user=volume.user ∧
      (run (step sha256) start actions).password=volume.password ∧
      (run (step sha256) start actions).database=volume.database := by
  have hsound : Sound sha256 (run (step sha256) start actions) :=
    run_invariant step_sound (sound_of_empty hempty) hcareful
  have hjoin := join_of_reportsOk hvolume (hsound.recorded volume hvolume) hok
  obtain ⟨hlength,hdatabase⟩ := hsound.keeps volume hvolume hjoin
  rw [List.append_assoc,List.append_assoc] at hjoin
  obtain ⟨huser,hrest⟩ := List.append_inj hjoin hlength
  exact ⟨huser,List.append_cancel_left hrest,hdatabase⟩

/-- A `.env` with the three Postgres values. -/
def sampleEnv (user password database : String) : Option String :=
  some ("POSTGRES_USER="++user++"\nPOSTGRES_PASSWORD="++password++"\nPOSTGRES_DB="++database++"\n")

/-- No variable is exported. -/
def noExports : Environment := ⟨∅,fun _ _ h => (by cases h)⟩

/-- A machine with that `.env`, no exports and an empty volume. -/
def sampleMachine (user password database : String) : Machine :=
  ⟨sampleEnv user password database,noExports,none⟩

/-- The salt of the suite's checks. -/
def suiteSalt : Salt := ⟨sampleSalt,by decide,by decide +kernel⟩

/-- The volume `make up` initialises on the sample machine. -/
def sampleVolume (user password database : String) : Volume :=
  initialise sampleDigest (sampleMachine user password database) suiteSalt

/-- `make up` on the sample machine. -/
theorem sample_up (user password database : String) :
    step sampleDigest (sampleMachine user password database) (.up quietVisit suiteSalt)=
      ⟨sampleEnv user password database,(sampleMachine user password database).environ,
        some (sampleVolume user password database)⟩ := by
  rw [step,up_initialises rfl,sampleVolume,sampleMachine]

/-- The sample machine after `make up` and an edit of `.env`. -/
theorem sample_run (user password database : String) (text : Option String) :
    run (step sampleDigest) (sampleMachine user password database)
      [.up quietVisit suiteSalt,.edit text]=
    ⟨text,(sampleMachine user password database).environ,
      some (sampleVolume user password database)⟩ := by
  rw [run_cons,sample_up,run_cons,run_nil,step]

/-- The same three values, written another way, and one more. -/
def rewrittenEnv : Option String :=
  some ("POSTGRES_DB=one\nPOSTGRES_USER=platform\nPOSTGRES_PASSWORD='1f4c9b2e7a'\n"++
    "MINIO_ROOT_USER=minio\n")

theorem doctor_sound_along_sample :
    (run (step sampleDigest) (sampleMachine "platform" "1f4c9b2e7a" "one")
        [.up quietVisit suiteSalt,.edit rewrittenEnv]).user=
      (sampleVolume "platform" "1f4c9b2e7a" "one").user ∧
    (run (step sampleDigest) (sampleMachine "platform" "1f4c9b2e7a" "one")
        [.up quietVisit suiteSalt,.edit rewrittenEnv]).password=
      (sampleVolume "platform" "1f4c9b2e7a" "one").password ∧
    (run (step sampleDigest) (sampleMachine "platform" "1f4c9b2e7a" "one")
        [.up quietVisit suiteSalt,.edit rewrittenEnv]).database=
      (sampleVolume "platform" "1f4c9b2e7a" "one").database := by
  have hcareful : Along (step sampleDigest) Careful (sampleMachine "platform" "1f4c9b2e7a" "one")
      [.up quietVisit suiteSalt,.edit rewrittenEnv] := by
    refine ⟨trivial,?_,trivial⟩
    rw [sample_up]
    intro volume hv _
    rw [←Option.some.inj hv]
    decide +kernel
  have hjoin : (⟨rewrittenEnv,noExports,
      some (sampleVolume "platform" "1f4c9b2e7a" "one")⟩ : Machine).user++str ":"++
        (⟨rewrittenEnv,noExports,
          some (sampleVolume "platform" "1f4c9b2e7a" "one")⟩ : Machine).password=
      (sampleVolume "platform" "1f4c9b2e7a" "one").user++str ":"++
        (sampleVolume "platform" "1f4c9b2e7a" "one").password := by
    decide +kernel
  refine doctor_sound_along sampleDigest (sampleMachine "platform" "1f4c9b2e7a" "one") rfl
    [.up quietVisit suiteSalt,.edit rewrittenEnv] hcareful quietVisit _ ?_ ?_
  · rw [sample_run]
  · rw [sample_run]
    exact reportsOk_of_join rfl (initialise_recorded _ _) hjoin

/-- Two edits of an initialised volume's `.env` that the doctor reports OK:
another database, and the colon of the joined pair moved. -/
theorem doctor_sound_along_fails :
    (ReportsOk sampleDigest (run (step sampleDigest) (sampleMachine "a" "b" "one")
        [.up quietVisit suiteSalt,.edit (sampleEnv "a" "b" "two")]) quietVisit ∧
      ∃ volume,(run (step sampleDigest) (sampleMachine "a" "b" "one")
          [.up quietVisit suiteSalt,.edit (sampleEnv "a" "b" "two")]).volume=some volume ∧
        (run (step sampleDigest) (sampleMachine "a" "b" "one")
          [.up quietVisit suiteSalt,.edit (sampleEnv "a" "b" "two")]).database≠volume.database) ∧
    ReportsOk sampleDigest (run (step sampleDigest) (sampleMachine "a:b" "c" "one")
        [.up quietVisit suiteSalt,.edit (sampleEnv "a" "b:c" "one")]) quietVisit ∧
      ∃ volume,(run (step sampleDigest) (sampleMachine "a:b" "c" "one")
          [.up quietVisit suiteSalt,.edit (sampleEnv "a" "b:c" "one")]).volume=some volume ∧
        (run (step sampleDigest) (sampleMachine "a:b" "c" "one")
          [.up quietVisit suiteSalt,.edit (sampleEnv "a" "b:c" "one")]).user≠volume.user := by
  rw [sample_run,sample_run]
  refine ⟨⟨reportsOk_of_join rfl (initialise_recorded _ _) ?_,_,rfl,?_⟩,
    reportsOk_of_join rfl (initialise_recorded _ _) ?_,_,rfl,?_⟩
  · decide +kernel
  · decide +kernel
  · decide +kernel
  · decide +kernel

end MlopsPlatform.PreflightLifetime
