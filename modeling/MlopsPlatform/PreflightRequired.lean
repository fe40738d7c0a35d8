import MlopsPlatform.PreflightPipeline

/-!
# What a pass of the doctor says about the values

The required names are read out of the example file. A run without a failure
has a value for each of them, so the seven names the read-timing table
classifies are covered exactly by an example that declares all seven. An
example that cannot be read ends the run before any check.
-/

namespace MlopsPlatform.PreflightRequired

open TextCodec TextLines TextStrip PythonFiles DigestHex
open PreflightCredentials PreflightRuntime PreflightChecks PreflightPipeline

variable {World : Type}

/-- The names the read-timing table classifies. -/
def classified : List Str := readTiming.map Prod.fst

/-- The file is there, can be read and declares the name. -/
def Declares (exampleFile : FileState) (name : Str) : Prop :=
  ∃ text : String,exampleFile=.holds text.toUTF8 ∧ name∈parseEnvPairs (str text)

/-- The file is there and cannot be read as a text. -/
def Unreadable (exampleFile : FileState) : Prop :=
  (∃ message,exampleFile=.refused message) ∨
    ∃ bytes,exampleFile=.holds bytes ∧ decode bytes=none

/-- A run on what `gather` built from these files ends without a failure. -/
def Passes (sha256 : Digest) (dockerState : Str) (exampleFile envFile : FileState)
    (environ : Pairs) (readVolume : World→VolumeState×World) (world : World)
    (inputs : Inputs World) : Prop :=
  gather dockerState exampleFile envFile environ readVolume=.ok inputs ∧
    ∃ results after,run sha256 inputs world=(.ok results,after) ∧
      ∀ result∈results,result.status≠.fail

/-- Newline translation changes no assignment. -/
theorem parseEnvPairs_universalNewlines (text : Str) :
    parseEnvPairs (universalNewlines text)=parseEnvPairs text := by
  rw [parseEnvPairs,splitlines_universalNewlines,parseEnvPairs]

/-- What `gather` makes of an example that is a text. -/
theorem gather_example {dockerState : Str} {text : String} {envFile : FileState} {environ : Pairs}
    {readVolume : World→VolumeState×World} {inputs : Inputs World}
    (h : gather dockerState (.holds text.toUTF8) envFile environ readVolume=.ok inputs) :
    parseEnvPairs inputs.exampleText=parseEnvPairs (str text) := by
  simp only [gather,readTextIfPresent,decode_toUTF8] at h
  split at h
  · cases h
  · cases h
    exact parseEnvPairs_universalNewlines (str text)

/-- A run without a failure found nothing missing. -/
theorem missing_of_pass {sha256 : Digest} {inputs : Inputs World} {world after : World}
    {results : List Result} (hrun : run sha256 inputs world=(.ok results,after))
    (hno : ∀ result∈results,result.status≠.fail) :
    missingCredentials inputs.exampleText inputs.envText inputs.environ=∅ := by
  cases run_steps sha256 inputs world with
  | stoppedAtRuntime notReady ran =>
    rw [ran,Prod.mk.injEq,Except.ok.injEq] at hrun
    rw [←hrun.1] at hno
    exact absurd (checkRuntime_other notReady).2 (hno _ List.mem_cons_self)
  | stoppedAtCredentials ready missing ran =>
    rw [ran,Prod.mk.injEq,Except.ok.injEq] at hrun
    rw [←hrun.1] at hno
    exact absurd (checkCredentials_missing missing).2
      (hno _ (List.mem_cons_of_mem _ List.mem_cons_self))
  | probed reached ran => exact reached.2

/-- A pass means a value for every declared name. -/
theorem value_of_pass {sha256 : Digest} {dockerState : Str} {exampleFile envFile : FileState}
    {environ : Pairs} {readVolume : World→VolumeState×World} {world : World}
    {inputs : Inputs World}
    (hpass : Passes sha256 dockerState exampleFile envFile environ readVolume world inputs)
    {name : Str} (hd : Declares exampleFile name) :
    effectiveValue name inputs.envText inputs.environ≠[] := by
  obtain ⟨text,rfl,hname⟩ := hd
  obtain ⟨hg,results,after,hrun,hno⟩ := hpass
  have hset := missing_eq_empty_iff.mp (missing_of_pass hrun hno)
  refine hset name ?_
  rw [gather_example hg]
  exact hname

/-- An environment that sets some names to one character, and no other. -/
def exporting (names : List Str) : Pairs :=
  (names.map (fun name => (⟨name,str "x"⟩ : Sigma (fun _ : Str => Str)))).toAList

theorem valueIn_exporting (names : List Str) (name : Str) :
    valueIn (exporting names) name=if name∈names then str "x" else [] := by
  rw [valueIn,exporting,AList.lookup_to_alist]
  induction names with
  | nil => rfl
  | cons first names ih =>
    rw [List.map_cons]
    by_cases h : name=first
    · rw [h,List.dlookup_cons_eq,if_pos List.mem_cons_self,Option.getD_some]
    · rw [List.dlookup_cons_ne _ _ h,ih]
      simp only [List.mem_cons,h,false_or]

/-- With the declared names exported, no `.env` and an empty volume the doctor
passes, and no other name has a value. -/
theorem passes_exporting (sha256 : Digest) (text : String) :
    ∃ inputs : Inputs Unit,
      Passes sha256 dockerReady (.holds text.toUTF8) .absent
        (exporting (parseEnvPairs (str text)).keys) (fun world => ({kind := .empty},world)) ()
        inputs ∧
      ∀ name,name∉parseEnvPairs (str text) →
        effectiveValue name inputs.envText inputs.environ=[] := by
  obtain ⟨inputs,hinputs⟩ : ∃ inputs : Inputs Unit,inputs=
      ⟨dockerReady,universalNewlines (str text),none,
        exporting (parseEnvPairs (str text)).keys,fun world => ({kind := .empty},world)⟩ := ⟨_,rfl⟩
  have hg : gather dockerReady (.holds text.toUTF8) .absent
      (exporting (parseEnvPairs (str text)).keys) (fun world => ({kind := .empty},world))=
      .ok inputs := by
    rw [hinputs]
    simp only [gather,readTextIfPresent,decode_toUTF8,Option.getD_some]
  have hmissing : missingCredentials inputs.exampleText inputs.envText inputs.environ=∅ := by
    rw [missing_eq_empty_iff,gather_example hg]
    intro name hname
    have hx : valueIn inputs.environ name=str "x" := by
      rw [hinputs,valueIn_exporting]
      exact if_pos hname
    rw [effectiveValue_exported (by rw [hx]; decide),hx]
    decide
  refine ⟨inputs,⟨hg,?_⟩,fun name hname => ?_⟩
  · cases run_steps sha256 inputs () with
    | stoppedAtRuntime notReady ran => exact absurd (by rw [hinputs]) notReady
    | stoppedAtCredentials ready missing ran => exact absurd hmissing missing
    | probed reached ran =>
      obtain ⟨detail,hc⟩ := @checkPostgresVolume_empty sha256 (inputs.readVolume ()).1
        (effectiveUser inputs) (effectivePassword inputs) (by rw [hinputs])
      refine ⟨_,_,ran _ hc rfl,?_⟩
      have hfirst := (checkRuntime_ready reached.1).2
      have hsecond := (checkCredentials_complete reached.2).2
      simp [hfirst,hsecond]
  · have hx : valueIn inputs.environ name=[] := by
      rw [hinputs,valueIn_exporting]
      exact if_neg hname
    rw [effectiveValue_file (by rw [hx]; rfl),hinputs]
    rfl

/-- An example that cannot be read ends the run before any check. -/
theorem gather_unreadable {dockerState : Str} {exampleFile envFile : FileState} {environ : Pairs}
    {readVolume : World→VolumeState×World} (h : Unreadable exampleFile) :
    ∃ raised,gather dockerState exampleFile envFile environ readVolume=.error raised := by
  rcases h with ⟨message,rfl⟩|⟨bytes,rfl,hd⟩
  · exact ⟨.os message,rfl⟩
  · exact ⟨.unicodeDecode,by simp only [gather,readTextIfPresent,hd]⟩

/-- What the doctor's pass says about the values. A pass, on whatever files,
environment and volume, has a value for every name a readable example
declares; it has one for all of the classified names exactly if that example
declares them all; and an example that cannot be read is no pass. -/
theorem pass_covers_declared (sha256 : Digest) :
    (∀ (World : Type) (dockerState : Str) (exampleFile envFile : FileState) (environ : Pairs)
        (readVolume : World→VolumeState×World) (world : World) (inputs : Inputs World),
      Passes sha256 dockerState exampleFile envFile environ readVolume world inputs →
      (∀ name,Declares exampleFile name →
        effectiveValue name inputs.envText inputs.environ≠[]) ∧ ¬Unreadable exampleFile) ∧
    ∀ text : String,
      (∀ (World : Type) (dockerState : Str) (envFile : FileState) (environ : Pairs)
          (readVolume : World→VolumeState×World) (world : World) (inputs : Inputs World),
        Passes sha256 dockerState (.holds text.toUTF8) envFile environ readVolume world inputs →
        ∀ name∈classified,effectiveValue name inputs.envText inputs.environ≠[]) ↔
      ∀ name∈classified,Declares (.holds text.toUTF8) name := by
  refine ⟨fun World d ex env environ rv world inputs hpass => ⟨fun name => value_of_pass hpass,?_⟩,
    fun text => ⟨fun h name hname => ?_,fun h World d env environ rv world inputs hpass name hname =>
      value_of_pass hpass (h name hname)⟩⟩
  · intro hun
    obtain ⟨raised,hg⟩ := @gather_unreadable World d ex env environ rv hun
    rw [hpass.1] at hg
    cases hg
  · by_contra hno
    obtain ⟨inputs,hpass,hunset⟩ := passes_exporting sha256 text
    refine h _ _ _ _ _ _ inputs hpass name hname (hunset name (fun hm => hno ⟨text,rfl,hm⟩))

theorem pass_covers_declared_sample :
    ∃ inputs : Inputs Unit,
      (gather dockerReady (.holds "POSTGRES_DB=platform\n".toUTF8) .absent
        (exporting (parseEnvPairs (str "POSTGRES_DB=platform\n")).keys)
        (fun world => ({kind := .empty},world))=.ok inputs) ∧
      effectiveValue (str "POSTGRES_DB") inputs.envText inputs.environ≠[] := by
  obtain ⟨inputs,hpass,-⟩ := passes_exporting sampleDigest "POSTGRES_DB=platform\n"
  refine ⟨inputs,hpass.1,((pass_covers_declared sampleDigest).1 _ _ _ _ _ _ _ inputs hpass).1 _
    ⟨_,rfl,AList.mem_keys.mp ?_⟩⟩
  decide +kernel

/-- A classified name without a value passes: with an example that declares
nothing, and with none at all. -/
theorem pass_without_values :
    str "POSTGRES_USER"∈classified ∧
      ∀ exampleFile∈[FileState.holds "".toUTF8,FileState.absent],∃ inputs : Inputs Unit,
        Passes sampleDigest dockerReady exampleFile .absent ∅
          (fun world => ({kind := .empty},world)) () inputs ∧
        effectiveValue (str "POSTGRES_USER") inputs.envText inputs.environ=[] := by
  obtain ⟨inputs,hpass,hunset⟩ := passes_exporting sampleDigest ""
  have hvalue := hunset (str "POSTGRES_USER") (fun h => by cases h)
  refine ⟨by decide,?_⟩
  rw [List.forall_mem_cons]
  refine ⟨⟨inputs,hpass,hvalue⟩,fun exampleFile h => ?_⟩
  rw [List.mem_singleton.mp h]
  refine ⟨inputs,⟨?_,hpass.2⟩,hvalue⟩
  rw [←hpass.1]
  rfl

end MlopsPlatform.PreflightRequired
