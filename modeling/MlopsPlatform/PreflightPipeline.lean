import MlopsPlatform.PreflightChecks

/-!
# The law of the doctor's pipeline

Whatever the daemon, the two files, the environment and the volume are, `run`
returns the three names in order, stops at its first failure and says of the
rest that it was not checked. The volume is probed once or not at all, and the
exit code is one exactly when the machine is refused.
-/

namespace MlopsPlatform.PreflightPipeline

open TextCodec TextLines PythonFiles DigestHex
open PreflightCredentials PreflightRuntime PreflightChecks

variable {World : Type}

/-- A list of results that stops at its first failure. -/
structure FailStop (results : List Result) : Prop where
  /-- The names of `ORDER`, each once and in that order. -/
  names : results.map Result.name=order
  /-- At most one failure. -/
  single : (results.filter (fun result => result.status=.fail)).length≤1
  /-- Before a failure all is well, after it nothing was checked. -/
  around : ∀ before stopped later,results=before++stopped::later → stopped.status=.fail →
    (∀ result∈before,result.status=.ok) ∧
      ∀ result∈later,result.status=.unknown ∧
        result.detail=str "not checked: "++stopped.name++str " failed first"
  /-- Without a failure the first two checks are well. -/
  passed : (∀ result∈results,result.status≠.fail) →
    ∀ result∈results.take 2,result.status=.ok

/-- What the checks may hold without `fingerprint` raising: `gather` decodes
the file, the probe's output is decoded too, and the environment has a UTF-8
form. -/
structure Encodable (inputs : Inputs World) (world : World) : Prop where
  /-- The text of `.env` was decoded. -/
  file : ∀ text,inputs.envText=some text → text.all isScalar=true
  /-- The environment has a UTF-8 form. -/
  environ : ∀ name value,inputs.environ.lookup name=some value → value.all isScalar=true
  /-- The salt was decoded. -/
  salt : (inputs.readVolume world).1.salt.all isScalar=true

/-- The user and the password the volume is compared with. -/
def effectiveUser (inputs : Inputs World) : Str :=
  effectiveValue (str "POSTGRES_USER") inputs.envText inputs.environ

/-- The password the volume is compared with. -/
def effectivePassword (inputs : Inputs World) : Str :=
  effectiveValue (str "POSTGRES_PASSWORD") inputs.envText inputs.environ

/-- The daemon is ready and no declared variable is missing. -/
def Probes (inputs : Inputs World) : Prop :=
  inputs.dockerState=dockerReady ∧
    missingCredentials inputs.exampleText inputs.envText inputs.environ=∅

/-- The volume holds a record of another credential pair. -/
def Mismatched (sha256 : Digest) (volume : VolumeState) (user password : Str) : Prop :=
  volume.kind=.fingerprinted ∧
    ∀ digest,fingerprint sha256 volume.salt user password=.ok digest → volume.digest≠digest

/-- What the doctor refuses. -/
def Refused (sha256 : Digest) (inputs : Inputs World) (world : World) : Prop :=
  inputs.dockerState≠dockerReady ∨
    (∃ name,name∈parseEnvPairs inputs.exampleText ∧
      effectiveValue name inputs.envText inputs.environ=[]) ∨
    Mismatched sha256 (inputs.readVolume world).1 (effectiveUser inputs) (effectivePassword inputs)

theorem runtime_ne_credentials : runtime≠credentials := by decide

theorem runtime_ne_volume : runtime≠postgresVolume := by decide

theorem credentials_ne_volume : credentials≠postgresVolume := by decide

/-- The runtime check is about its own name and never unknown. -/
theorem checkRuntime_ready {state : Str} (h : state=dockerReady) :
    (checkRuntime state).name=runtime ∧ (checkRuntime state).status=.ok := by
  rw [checkRuntime,if_pos h]
  exact ⟨rfl,rfl⟩

theorem checkRuntime_other {state : Str} (h : state≠dockerReady) :
    (checkRuntime state).name=runtime ∧ (checkRuntime state).status=.fail := by
  rw [checkRuntime,if_neg h]
  exact ⟨rfl,rfl⟩

/-- The credential check is about its own name and fails on a missing name. -/
theorem checkCredentials_complete {exampleText : Str} {envText : Option Str} {environ : Pairs}
    (h : missingCredentials exampleText envText environ=∅) :
    (checkCredentials exampleText envText environ).name=credentials ∧
      (checkCredentials exampleText envText environ).status=.ok := by
  simp only [checkCredentials,h,ne_eq,not_true_eq_false,if_false,and_self]

theorem checkCredentials_missing {exampleText : Str} {envText : Option Str} {environ : Pairs}
    (h : missingCredentials exampleText envText environ≠∅) :
    (checkCredentials exampleText envText environ).name=credentials ∧
      (checkCredentials exampleText envText environ).status=.fail := by
  simp only [checkCredentials,if_pos h,and_self]

/-- The volume check answers whenever the fingerprint can be computed, and
fails exactly on a record of another pair. -/
theorem checkPostgresVolume_eq_ok (sha256 : Digest) {volume : VolumeState} {user password : Str}
    (hs : volume.salt.all isScalar=true) (hu : user.all isScalar=true)
    (hp : password.all isScalar=true) :
    ∃ result,checkPostgresVolume sha256 volume user password=.ok result ∧
      result.name=postgresVolume ∧
      (result.status=.fail ↔ Mismatched sha256 volume user password) := by
  obtain ⟨bytes,-,hf⟩ := fingerprint_eq_ok sha256 hs hu hp
  have other : volume.kind≠.fingerprinted → ∀ status detail,status≠.fail →
      checkPostgresVolume sha256 volume user password=.ok ⟨postgresVolume,status,detail⟩ →
      ∃ result,checkPostgresVolume sha256 volume user password=.ok result ∧
        result.name=postgresVolume ∧
        (result.status=.fail ↔ Mismatched sha256 volume user password) :=
    fun hk status detail hstatus hc => ⟨_,hc,rfl,iff_of_false hstatus (fun h => hk h.1)⟩
  cases hk : volume.kind with
  | fingerprinted =>
    by_cases hd : volume.digest=sha256.hexdigest bytes
    · rw [←hd] at hf
      obtain ⟨detail,hc⟩ := checkPostgresVolume_match hk hf
      exact ⟨_,hc,rfl,iff_of_false (fun h => by cases h) (fun h => h.2 _ hf rfl)⟩
    · obtain ⟨detail,hc⟩ := checkPostgresVolume_mismatch hk hf hd
      refine ⟨_,hc,rfl,iff_of_true rfl ⟨hk,fun digest h => ?_⟩⟩
      rw [hf,Except.ok.injEq] at h
      rwa [←h]
  | empty =>
    obtain ⟨detail,hc⟩ := checkPostgresVolume_empty hk
    exact other (by rw [hk]; decide) _ detail (by decide) hc
  | unfingerprinted =>
    obtain ⟨detail,hc⟩ := checkPostgresVolume_unfingerprinted hk
    exact other (by rw [hk]; decide) _ detail (by decide) hc
  | unreadable =>
    obtain ⟨detail,hc⟩ := checkPostgresVolume_unreadable hk
    exact other (by rw [hk]; decide) _ detail (by decide) hc

/-- The three ways to cut a list of three. -/
theorem three_eq_append {α : Type} {x y z s : α} {before later : List α}
    (h : [x,y,z]=before++s::later) :
    (before=[] ∧ s=x ∧ later=[y,z]) ∨ (before=[x] ∧ s=y ∧ later=[z]) ∨
      (before=[x,y] ∧ s=z ∧ later=[]) := by
  rcases before with _|⟨a,_|⟨b,_|⟨c,rest⟩⟩⟩
  · simp only [List.nil_append,List.cons.injEq] at h
    exact Or.inl ⟨rfl,h.1.symm,h.2.symm⟩
  · simp only [List.cons_append,List.nil_append,List.cons.injEq] at h
    exact Or.inr (Or.inl ⟨by rw [h.1],h.2.1.symm,h.2.2.symm⟩)
  · simp only [List.cons_append,List.nil_append,List.cons.injEq] at h
    exact Or.inr (Or.inr ⟨by rw [h.1,h.2.1],h.2.2.1.symm,h.2.2.2.symm⟩)
  · simp at h

/-- Three results of which a failure stops the rest. -/
theorem failStop_three {x y z : Result} (hx : x.name=runtime) (hy : y.name=credentials)
    (hz : z.name=postgresVolume)
    (h : (x.status=.fail ∧ y=notChecked x credentials ∧ z=notChecked x postgresVolume) ∨
      (x.status=.ok ∧ y.status=.fail ∧ z=notChecked y postgresVolume) ∨
      (x.status=.ok ∧ y.status=.ok)) : FailStop [x,y,z] := by
  refine ⟨by simp only [List.map_cons,List.map_nil,hx,hy,hz,order],?_,?_,?_⟩
  · rcases h with ⟨hxs,rfl,rfl⟩|⟨hxs,hys,rfl⟩|⟨hxs,hys⟩
    · simp [hxs,notChecked]
    · simp [hxs,hys,notChecked]
    · have hlast : [x,y,z].filter (fun result => result.status=.fail)=
          [z].filter (fun result => result.status=.fail) := by
        simp [List.filter_cons,hxs,hys]
      rw [hlast]
      exact List.length_filter_le _ [z]
  · intro before stopped later hcut hfail
    rcases three_eq_append hcut with ⟨rfl,rfl,rfl⟩|⟨rfl,rfl,rfl⟩|⟨rfl,rfl,rfl⟩
    · rcases h with ⟨hxs,rfl,rfl⟩|⟨hxs,hys,rfl⟩|⟨hxs,hys⟩
      · simp [notChecked]
      · rw [hxs] at hfail
        cases hfail
      · rw [hxs] at hfail
        cases hfail
    · rcases h with ⟨hxs,rfl,rfl⟩|⟨hxs,hys,rfl⟩|⟨hxs,hys⟩
      · cases hfail
      · simp [hxs,notChecked]
      · rw [hys] at hfail
        cases hfail
    · rcases h with ⟨hxs,rfl,rfl⟩|⟨hxs,hys,rfl⟩|⟨hxs,hys⟩
      · cases hfail
      · cases hfail
      · simp [hxs,hys]
  · intro hno
    simp only [List.forall_mem_cons] at hno
    rcases h with ⟨hxs,-⟩|⟨hxs,hys,-⟩|⟨hxs,hys⟩
    · exact absurd hxs hno.1
    · exact absurd hys hno.2.1
    · simp [hxs,hys]

/-- The steps a run may take. -/
inductive Steps (sha256 : Digest) (inputs : Inputs World) (world : World) : Prop where
  /-- The daemon is not ready. -/
  | stoppedAtRuntime (notReady : inputs.dockerState≠dockerReady)
    (ran : run sha256 inputs world=
      (.ok [checkRuntime inputs.dockerState,
        notChecked (checkRuntime inputs.dockerState) credentials,
        notChecked (checkRuntime inputs.dockerState) postgresVolume],world))
  /-- A declared variable is missing. -/
  | stoppedAtCredentials (ready : inputs.dockerState=dockerReady)
    (missing : missingCredentials inputs.exampleText inputs.envText inputs.environ≠∅)
    (ran : run sha256 inputs world=
      (.ok [checkRuntime inputs.dockerState,
        checkCredentials inputs.exampleText inputs.envText inputs.environ,
        notChecked (checkCredentials inputs.exampleText inputs.envText inputs.environ)
          postgresVolume],world))
  /-- The volume is probed. -/
  | probed (reached : Probes inputs)
    (ran : ∀ result,checkPostgresVolume sha256 (inputs.readVolume world).1 (effectiveUser inputs)
        (effectivePassword inputs)=.ok result → result.name=postgresVolume →
      run sha256 inputs world=
        (.ok [checkRuntime inputs.dockerState,
          checkCredentials inputs.exampleText inputs.envText inputs.environ,result],
          (inputs.readVolume world).2))

/-- Every run takes one of them. -/
theorem run_steps (sha256 : Digest) (inputs : Inputs World) (world : World) :
    Steps sha256 inputs world := by
  by_cases hd : inputs.dockerState=dockerReady
  · have hfirst := checkRuntime_ready hd
    have hgo : Continues [checkRuntime inputs.dockerState] := by
      simp [Continues,hfirst.2]
    by_cases hm : missingCredentials inputs.exampleText inputs.envText inputs.environ=∅
    · have hsecond := checkCredentials_complete hm
      have hgo' : Continues [checkRuntime inputs.dockerState,
          checkCredentials inputs.exampleText inputs.envText inputs.environ] := by
        simp [Continues,hsecond.2]
      refine .probed ⟨hd,hm⟩ (fun result hr hn => ?_)
      have hvolume : checkVolume sha256 inputs world=(.ok result,(inputs.readVolume world).2) :=
        Prod.ext hr rfl
      simp only [run,if_pos hgo,List.singleton_append,if_pos hgo',hvolume]
      simp [padded,order,hfirst.1,hsecond.1,hn]
    · have hsecond := checkCredentials_missing hm
      have hstop : ¬Continues [checkRuntime inputs.dockerState,
          checkCredentials inputs.exampleText inputs.envText inputs.environ] := by
        simp [Continues,hsecond.2]
      refine .stoppedAtCredentials hd hm ?_
      simp only [run,if_pos hgo,List.singleton_append,if_neg hstop]
      simp [padded,order,hfirst.1,hsecond.1,runtime_ne_volume.symm,credentials_ne_volume.symm]
  · have hfirst := checkRuntime_other hd
    have hstop : ¬Continues [checkRuntime inputs.dockerState] := by
      simp [Continues,hfirst.2]
    refine .stoppedAtRuntime hd ?_
    simp only [run,if_neg hstop]
    simp [padded,order,hfirst.1,runtime_ne_volume.symm,runtime_ne_credentials.symm]

/-- A volume result says that the volume was not checked, or it is the verdict
of the volume check. -/
theorem volume_result {sha256 : Digest} {inputs : Inputs World} {world after : World}
    {results : List Result} {result : Result} (henc : Encodable inputs world)
    (hrun : run sha256 inputs world=(.ok results,after)) (hm : result∈results)
    (hname : result.name=postgresVolume) :
    result.status=.unknown ∨ (Probes inputs ∧
      checkPostgresVolume sha256 (inputs.readVolume world).1 (effectiveUser inputs)
        (effectivePassword inputs)=.ok result) := by
  cases run_steps sha256 inputs world with
  | stoppedAtRuntime notReady ran =>
    have hfirst := checkRuntime_other notReady
    rw [ran,Prod.mk.injEq,Except.ok.injEq] at hrun
    rw [←hrun.1,List.mem_cons,List.mem_cons,List.mem_singleton] at hm
    rcases hm with rfl|rfl|rfl
    · exact absurd (hfirst.1.symm.trans hname) runtime_ne_volume
    · exact Or.inl rfl
    · exact Or.inl rfl
  | stoppedAtCredentials ready missing ran =>
    have hfirst := checkRuntime_ready ready
    have hsecond := checkCredentials_missing missing
    rw [ran,Prod.mk.injEq,Except.ok.injEq] at hrun
    rw [←hrun.1,List.mem_cons,List.mem_cons,List.mem_singleton] at hm
    rcases hm with rfl|rfl|rfl
    · exact absurd (hfirst.1.symm.trans hname) runtime_ne_volume
    · exact absurd (hsecond.1.symm.trans hname) credentials_ne_volume
    · exact Or.inl rfl
  | probed reached ran =>
    have hfirst := checkRuntime_ready reached.1
    have hsecond := checkCredentials_complete reached.2
    obtain ⟨third,hthird,hthirdName,-⟩ := checkPostgresVolume_eq_ok sha256 henc.salt
      (effectiveValue_scalar henc.file henc.environ (str "POSTGRES_USER"))
      (effectiveValue_scalar henc.file henc.environ (str "POSTGRES_PASSWORD"))
    rw [ran third hthird hthirdName,Prod.mk.injEq,Except.ok.injEq] at hrun
    rw [←hrun.1,List.mem_cons,List.mem_cons,List.mem_singleton] at hm
    rcases hm with rfl|rfl|rfl
    · exact absurd (hfirst.1.symm.trans hname) runtime_ne_volume
    · exact absurd (hsecond.1.symm.trans hname) credentials_ne_volume
    · exact Or.inr ⟨reached,hthird⟩

/-- When the volume is probed, the verdict of the volume check is a result. -/
theorem exists_volume_result {sha256 : Digest} {inputs : Inputs World} {world : World}
    {result : Result} (hprobes : Probes inputs)
    (hc : checkPostgresVolume sha256 (inputs.readVolume world).1 (effectiveUser inputs)
      (effectivePassword inputs)=.ok result) (hname : result.name=postgresVolume) :
    ∃ results after,run sha256 inputs world=(.ok results,after) ∧ result∈results := by
  cases run_steps sha256 inputs world with
  | stoppedAtRuntime notReady ran => exact absurd hprobes.1 notReady
  | stoppedAtCredentials ready missing ran => exact absurd hprobes.2 missing
  | probed reached ran =>
    have hlast : ∀ x y : Result,result∈[x,y,result] := fun x y => by simp
    exact ⟨_,_,ran result hc hname,hlast _ _⟩

/-- Nothing is missing exactly when every declared name has a value. -/
theorem missing_eq_empty_iff {exampleText : Str} {envText : Option Str} {environ : Pairs} :
    missingCredentials exampleText envText environ=∅ ↔
      ∀ name,name∈parseEnvPairs exampleText → effectiveValue name envText environ≠[] := by
  rw [Finset.eq_empty_iff_forall_notMem]
  simp only [mem_missingCredentials,not_and]

/-- The check is passed exactly when nothing is missing. -/
theorem status_ok_iff {exampleText : Str} {envText : Option Str} {environ : Pairs} :
    (checkCredentials exampleText envText environ).status=.ok ↔
      missingCredentials exampleText envText environ=∅ := by
  constructor
  · intro hok
    by_contra hmissing
    rw [(checkCredentials_missing hmissing).2] at hok
    cases hok
  · exact fun h => (checkCredentials_complete h).2

/-- With the credentials in order every declared name has a value. -/
theorem value_of_ok {exampleText : Str} {envText : Option Str} {environ : Pairs}
    (hok : (checkCredentials exampleText envText environ).status=.ok) {name : Str}
    (hname : name∈parseEnvPairs exampleText) : effectiveValue name envText environ≠[] :=
  missing_eq_empty_iff.mp (status_ok_iff.mp hok) name hname

/-- The exit code is one exactly when some result is a failure. -/
theorem exitCode_eq (results : List Result) :
    exitCode results=if ∃ result∈results,result.status=.fail then 1 else 0 := by
  simp only [exitCode,List.any_eq_true,decide_eq_true_eq]

/-- What a run returns, what it leaves and what the doctor then exits with. -/
structure Lawful (sha256 : Digest) (inputs : Inputs World) (world : World) : Prop where
  /-- The results stop at the first failure. -/
  results : ∃ results after,run sha256 inputs world=(.ok results,after) ∧ FailStop results
  /-- The probe is called once if it is reached. -/
  probed : Probes inputs → (run sha256 inputs world).2=(inputs.readVolume world).2
  /-- The probe is not called otherwise. -/
  unprobed : ¬Probes inputs → (run sha256 inputs world).2=world
  /-- The exit code is one for what is refused. -/
  refused : Refused sha256 inputs world →
    ∃ printed after,main sha256 (.ok inputs) world=(.ok (1,printed),after)
  /-- The exit code is zero for everything else. -/
  accepted : ¬Refused sha256 inputs world →
    ∃ printed after,main sha256 (.ok inputs) world=(.ok (0,printed),after)

/-- The law of a run from its results, its world and the failure among them. -/
theorem lawful_of_run {sha256 : Digest} {inputs : Inputs World} {world after : World}
    {results : List Result} (hrun : run sha256 inputs world=(.ok results,after))
    (hstop : FailStop results)
    (hafter : (Probes inputs ∧ after=(inputs.readVolume world).2) ∨
      (¬Probes inputs ∧ after=world))
    (hfail : Refused sha256 inputs world ↔ ∃ result∈results,result.status=.fail) :
    Lawful sha256 inputs world := by
  have hmain : main sha256 (.ok inputs) world=(.ok (exitCode results,report results),after) := by
    simp only [main,hrun]
  have hworld : (run sha256 inputs world).2=after := congrArg Prod.snd hrun
  rw [exitCode_eq] at hmain
  refine ⟨⟨results,after,hrun,hstop⟩,fun h => ?_,fun h => ?_,fun h => ?_,fun h => ?_⟩
  · rcases hafter with ⟨-,ha⟩|⟨hn,-⟩
    · rw [hworld,ha]
    · exact absurd h hn
  · rcases hafter with ⟨hp,-⟩|⟨-,ha⟩
    · exact absurd hp h
    · rw [hworld,ha]
  · rw [if_pos (hfail.mp h)] at hmain
    exact ⟨_,_,hmain⟩
  · rw [if_neg (fun he => h (hfail.mpr he))] at hmain
    exact ⟨_,_,hmain⟩

/-- The pipeline law. For every state of the daemon, example and `.env` text,
environment and volume, `run` returns the names of `ORDER` in order and stops
at its first failure, the volume is probed once if the daemon is ready and no
declared variable is missing and never otherwise, and `main` exits with one
exactly for a daemon that is not ready, a declared variable without a value or
a record of another credential pair. -/
theorem doctor_lawful (sha256 : Digest) (inputs : Inputs World) (world : World)
    (henc : Encodable inputs world) : Lawful sha256 inputs world := by
  cases run_steps sha256 inputs world with
  | stoppedAtRuntime notReady ran =>
    have hfirst := checkRuntime_other notReady
    have hstop := @failStop_three (checkRuntime inputs.dockerState) _ _ hfirst.1 rfl rfl
      (Or.inl ⟨hfirst.2,rfl,rfl⟩)
    refine lawful_of_run ran hstop (Or.inr ⟨fun h => notReady h.1,rfl⟩) ?_
    exact iff_of_true (Or.inl notReady) ⟨_,List.mem_cons_self,hfirst.2⟩
  | stoppedAtCredentials ready missing ran =>
    have hfirst := checkRuntime_ready ready
    have hsecond := checkCredentials_missing missing
    have hstop := failStop_three hfirst.1 hsecond.1 rfl
      (Or.inr (Or.inl ⟨hfirst.2,hsecond.2,rfl⟩))
    have hunset : ∃ name,name∈parseEnvPairs inputs.exampleText ∧
        effectiveValue name inputs.envText inputs.environ=[] := by
      by_contra hno
      exact missing (missing_eq_empty_iff.mpr (fun name hn he => hno ⟨name,hn,he⟩))
    refine lawful_of_run ran hstop (Or.inr ⟨fun h => missing h.2,rfl⟩) ?_
    exact iff_of_true (Or.inr (Or.inl hunset))
      ⟨_,List.mem_cons_of_mem _ List.mem_cons_self,hsecond.2⟩
  | probed reached ran =>
    have hfirst := checkRuntime_ready reached.1
    have hsecond := checkCredentials_complete reached.2
    obtain ⟨third,hthird,hname,hfail⟩ := checkPostgresVolume_eq_ok sha256 henc.salt
      (effectiveValue_scalar henc.file henc.environ (str "POSTGRES_USER"))
      (effectiveValue_scalar henc.file henc.environ (str "POSTGRES_PASSWORD"))
    have hstop := failStop_three hfirst.1 hsecond.1 hname (Or.inr (Or.inr ⟨hfirst.2,hsecond.2⟩))
    refine lawful_of_run (ran third hthird hname) hstop (Or.inl ⟨reached,rfl⟩) ?_
    have hset := missing_eq_empty_iff.mp reached.2
    have honly : (∃ result∈[checkRuntime inputs.dockerState,
        checkCredentials inputs.exampleText inputs.envText inputs.environ,third],
        result.status=.fail) ↔ third.status=.fail := by
      simp [hfirst.2,hsecond.2]
    rw [honly,hfail]
    constructor
    · rintro (h|⟨name,hn,he⟩|h)
      · exact absurd reached.1 h
      · exact absurd he (hset name hn)
      · exact h
    · exact fun h => Or.inr (Or.inr h)

/-- A machine with the sample pair in `.env` and a volume that records it,
where the world counts the calls of the probe. -/
def sampleInputs : Inputs ℕ :=
  ⟨dockerReady,str "POSTGRES_USER=\nPOSTGRES_PASSWORD=\n",
    some (str "POSTGRES_USER=platform\nPOSTGRES_PASSWORD=1f4c9b2e7a\n"),∅,
    fun calls => (⟨.fingerprinted,str sampleSalt,sampleHex,[]⟩,calls+1)⟩

theorem doctor_lawful_sample : (run sampleDigest sampleInputs 0).2=1 := by
  have henc : Encodable sampleInputs 0 := by
    refine ⟨fun text h => ?_,fun name value h => ?_,str_scalar _⟩
    · rw [←Option.some.inj h]
      exact str_scalar _
    · cases h
  have hset : missingCredentials sampleInputs.exampleText sampleInputs.envText
      sampleInputs.environ=∅ := by decide +kernel
  exact (doctor_lawful sampleDigest sampleInputs 0 henc).probed ⟨rfl,hset⟩

end MlopsPlatform.PreflightPipeline
