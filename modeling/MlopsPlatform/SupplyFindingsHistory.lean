import MlopsPlatform.SupplyFindingsAccept

/-!
# Whole histories of one baseline file

Before each run the scanner leaves some bytes in the report file; the run then
compares or accepts. The invariant ties the bytes of the baseline file to the
report of the last successful accept: they are the header and that report's
gated identifiers, whatever the file held before and whatever ran in between.
-/

namespace MlopsPlatform.SupplyFindingsHistory

open TextCodec TextLines TextSorted PythonJson PythonFiles SupplyAdvisory
open SupplyFindings SupplyFindingsGate SupplyFindingsAccept StateRuns

/-- One run: with or without `--accept`, on the report the scanner left. -/
structure Run where
  /-- Whether the run accepts. -/
  accept : Bool
  /-- The bytes of the report file, well-formed or not. -/
  report : ByteArray

/-- What a history has led to. -/
structure History where
  /-- The file system, with the baseline file in it. -/
  files : Files
  /-- The report of the most recent accept that answered zero. -/
  last : Option ByteArray

/-- The bytes are a text that parses to an accepted report with these matches. -/
def Holds (py : Interp) (bytes : ByteArray) (entries : List Json) : Prop :=
  ∃ (text : String) (document : Json),bytes=text.toUTF8 ∧
    py.loads (universalNewlines (str text))=.ok document ∧ Accepts document entries

/-- Whether a run ended with exit code zero. -/
def zero (out : Finished FindingsError) : Bool :=
  match out.result with
  | .ok 0 => true
  | _ => false

variable (py : Interp) (known report : Str)

/-- `main` on the report a run finds. -/
def execute (files : Files) (r : Run) : Finished FindingsError :=
  main py (files.put report r.report)
    (if r.accept=true then [acceptFlag,known,report] else [known,report])

/-- One run of a history. -/
def step (h : History) (r : Run) : History :=
  let out := execute py known report h.files r
  ⟨out.files,if r.accept=true ∧ zero out=true then some r.report else h.last⟩

/-- Every accepted report given to an accepting run gates only identifiers of
the baseline grammar. -/
def Shaped (r : Run) : Prop :=
  r.accept=true → ∀ entries,Holds py r.report entries →
    ∀ identifier,GatedIn entries identifier → AdvisoryShape identifier

/-- The baseline file is the text of the last accepted report. -/
def Recorded (h : History) : Prop :=
  ∀ bytes,h.last=some bytes → ∃ entries,Holds py bytes entries ∧
    (∀ identifier,GatedIn entries identifier → AdvisoryShape identifier) ∧
    ∃ (found : Finset Str) (text : String),
      (∀ identifier,identifier∈found ↔ GatedIn entries identifier) ∧
      str text=baselineText (sorted found) ∧ h.files.content known=.ok text.toUTF8

variable {py known report}

theorem zero_iff (out : Finished FindingsError) : zero out=true ↔ out.result=.ok 0 := by
  unfold zero
  split
  · rename_i h
    simp only [h]
  · rename_i h
    simp only [Bool.false_eq_true,false_iff]
    exact h

/-- The report file of a run holds what the scanner left there. -/
theorem reportHolds_iff (files : Files) (bytes : ByteArray) (entries : List Json) :
    ReportHolds py (files.put report bytes) report entries ↔ Holds py bytes entries := by
  simp only [ReportHolds,Holds,put_same,Except.ok.injEq]

/-- One report is read in one way. -/
theorem Holds.unique {bytes : ByteArray} {entries others : List Json}
    (h : Holds py bytes entries) (g : Holds py bytes others) : entries=others := by
  have h' := (@reportHolds_iff py [] ⟨fun _ => .error (.os []),fun _ => none⟩ bytes entries).mpr h
  exact h'.unique ((reportHolds_iff _ bytes others).mpr g)

/-- A plain run leaves the baseline file as it was. -/
theorem execute_plain_content (hk : known≠acceptFlag) (hr : report≠acceptFlag)
    (hne : report≠known) (files : Files) {r : Run} (hp : r.accept=false) :
    (execute py known report files r).files.content known=files.content known := by
  rw [execute,hp]
  simp only [Bool.false_eq_true,if_false]
  rw [main_plain_files py _ hk hr,put_other files r.report hne.symm]

/-- An accept of a report that is not accepted leaves the baseline file as it was. -/
theorem execute_malformed_content (hk : known≠acceptFlag) (hr : report≠acceptFlag)
    (hne : report≠known) (files : Files) {r : Run} (hm : ∀ entries,¬Holds py r.report entries) :
    (execute py known report files r).files.content known=files.content known := by
  cases hacc : r.accept with
  | false => exact execute_plain_content hk hr hne files hacc
  | true =>
    rw [execute,hacc]
    simp only [if_true]
    cases accepted_cases py (files.put report r.report) hk hr with
    | refused unheld code same => rw [same,put_other files r.report hne.symm]
    | written entries holds found members text textOf code after =>
      exact absurd ((reportHolds_iff files r.report entries).mp holds) (hm entries)
    | failed entries holds cause code =>
      exact absurd ((reportHolds_iff files r.report entries).mp holds) (hm entries)

/-- A shaped accept that does not answer zero leaves the baseline file as it was. -/
theorem execute_unsuccessful_content (hk : known≠acceptFlag) (hr : report≠acceptFlag)
    (hne : report≠known) (files : Files) {r : Run} (hs : Shaped py r) (hacc : r.accept=true)
    (hz : (execute py known report files r).result≠.ok 0) :
    (execute py known report files r).files.content known=files.content known := by
  rw [execute,hacc] at hz ⊢
  simp only [if_true] at hz ⊢
  cases accepted_cases py (files.put report r.report) hk hr with
  | refused unheld code same => rw [same,put_other files r.report hne.symm]
  | written entries holds found members text textOf code after => exact absurd code hz
  | failed entries holds cause code =>
    rcases cause with ⟨-,same⟩|⟨i,hi,hscalar⟩
    · rw [same,put_other files r.report hne.symm]
    · have hh := (reportHolds_iff files r.report entries).mp holds
      exact absurd (hs hacc entries hh i hi).scalar hscalar

/-- A successful accept replaces the baseline file by its own report's text. -/
theorem execute_written (hk : known≠acceptFlag) (hr : report≠acceptFlag) (files : Files)
    {r : Run} (hacc : r.accept=true) (hz : (execute py known report files r).result=.ok 0) :
    ∃ entries,Holds py r.report entries ∧ ∃ (found : Finset Str) (text : String),
      (∀ identifier,identifier∈found ↔ GatedIn entries identifier) ∧
      str text=baselineText (sorted found) ∧
      (execute py known report files r).files.content known=.ok text.toUTF8 := by
  rw [execute,hacc] at hz ⊢
  simp only [if_true] at hz ⊢
  cases accepted_cases py (files.put report r.report) hk hr with
  | refused unheld code same => exact absurd hz code
  | failed entries holds cause code => exact absurd hz code
  | written entries holds found members text textOf code after =>
    refine ⟨entries,(reportHolds_iff files r.report entries).mp holds,found,text,members,textOf,?_⟩
    rw [after,put_same]

theorem step_files (h : History) (r : Run) :
    (step py known report h r).files=(execute py known report h.files r).files := rfl

/-- A successful accept is remembered. -/
theorem step_last_accept {h : History} {r : Run} (hacc : r.accept=true)
    (hz : (execute py known report h.files r).result=.ok 0) :
    (step py known report h r).last=some r.report := by
  simp only [step,if_pos (And.intro hacc ((zero_iff _).mpr hz))]

/-- One run keeps the record. -/
theorem step_recorded (hk : known≠acceptFlag) (hr : report≠acceptFlag) (hne : report≠known)
    (h : History) (r : Run) (hrec : Recorded py known h) (hs : Shaped py r) :
    Recorded py known (step py known report h r) := by
  have kept : (execute py known report h.files r).files.content known=h.files.content known →
      ¬(r.accept=true ∧ zero (execute py known report h.files r)=true) →
      Recorded py known (step py known report h r) := by
    intro hsame hno bytes hlast
    simp only [step,if_neg hno] at hlast
    obtain ⟨entries,hh,hshape,found,text,hm,ht,hfile⟩ := hrec bytes hlast
    exact ⟨entries,hh,hshape,found,text,hm,ht,hsame.trans hfile⟩
  by_cases hacc : r.accept=true
  · by_cases hz : (execute py known report h.files r).result=.ok 0
    · intro bytes hlast
      rw [step_last_accept hacc hz] at hlast
      cases hlast
      obtain ⟨entries,hh,found,text,hm,ht,hfile⟩ := execute_written hk hr h.files hacc hz
      exact ⟨entries,hh,hs hacc entries hh,found,text,hm,ht,hfile⟩
    · exact kept (execute_unsuccessful_content hk hr hne h.files hs hacc hz)
        (fun hb => hz ((zero_iff _).mp hb.2))
  · exact kept (execute_plain_content hk hr hne h.files (Bool.eq_false_of_not_eq_true hacc))
      (fun hb => hacc hb.1)

/-- The record holds after every history of shaped runs, from any file. -/
theorem history_recorded (hk : known≠acceptFlag) (hr : report≠acceptFlag) (hne : report≠known)
    (start : Files) {runs : List Run} (hs : ∀ r∈runs,Shaped py r) :
    Recorded py known (run (step py known report) ⟨start,none⟩ runs) := by
  refine run_invariant (step_recorded hk hr hne) ?_ (along_of_forall hs _)
  intro bytes hlast
  cases hlast

/-- What a recorded baseline reads as. -/
theorem baseline_of_recorded {h : History} (hrec : Recorded py known h) {bytes : ByteArray}
    (hlast : h.last=some bytes) :
    ∃ entries listed,Holds py bytes entries ∧ baseline h.files known=.ok listed ∧
      ∀ identifier,identifier∈listed ↔ GatedIn entries identifier := by
  obtain ⟨entries,hh,hshape,found,text,hm,ht,hfile⟩ := hrec bytes hlast
  obtain ⟨listed,hb,hl⟩ := baseline_baselineText hfile ht
    (fun i hi => hshape i ((hm i).mp (mem_sorted.mp hi)))
  exact ⟨entries,listed,hh,hb,fun i => (hl i).trans (mem_sorted.trans (hm i))⟩

/-- The bytes of the baseline decide what it reads as. -/
theorem baseline_put (hne : report≠known) (files : Files) (bytes : ByteArray) :
    baseline (files.put report bytes) known=baseline files known := by
  have hread : readText (ε:=FindingsError) (files.put report bytes) known=readText files known := by
    simp only [readText,put_other files bytes hne.symm]
  simp only [baseline,hread]

/-- After a successful accept of a shaped report, a plain run on the same report
answers zero. -/
theorem plain_after_accept (hk : known≠acceptFlag) (hr : report≠acceptFlag) (hne : report≠known)
    {files : Files} {bytes : ByteArray} (hs : Shaped py ⟨true,bytes⟩)
    (hz : (execute py known report files ⟨true,bytes⟩).result=.ok 0) :
    (execute py known report (execute py known report files ⟨true,bytes⟩).files
      ⟨false,bytes⟩).result=.ok 0 := by
  have hrec : Recorded py known (step py known report ⟨files,none⟩ ⟨true,bytes⟩) :=
    step_recorded hk hr hne ⟨files,none⟩ ⟨true,bytes⟩ (fun _ h => by cases h) hs
  obtain ⟨entries,listed,hh,hb,hl⟩ := baseline_of_recorded hrec (step_last_accept rfl hz)
  have hplain := main_zero_iff py
    ((execute py known report files ⟨true,bytes⟩).files.put report bytes) hk hr
  refine hplain.mpr ⟨entries,(reportHolds_iff _ _ _).mpr hh,listed,?_,fun i hi => (hl i).mpr hi⟩
  rw [baseline_put hne]
  exact hb

/-- The baseline is exactly the last accepted scan. After any history of plain
and accepting runs, from any file, a plain run answers zero exactly when its
report is accepted and gates only what the last successful accept gated; plain
runs and accepts of a malformed report change nothing; and after a successful
accept the entries are its own report's, so no earlier one survives. -/
theorem baseline_is_last_accept (hk : known≠acceptFlag) (hr : report≠acceptFlag)
    (hne : report≠known) (start : Files) (runs : List Run) (hs : ∀ r∈runs,Shaped py r) :
    (∀ bytes,(run (step py known report) ⟨start,none⟩ runs).last=some bytes →
      ∃ accepted,Holds py bytes accepted ∧ ∀ r : Run,r.accept=false →
        ((execute py known report (run (step py known report) ⟨start,none⟩ runs).files r).result=
            .ok 0 ↔
          ∃ entries,Holds py r.report entries ∧
            ∀ identifier,GatedIn entries identifier → GatedIn accepted identifier)) ∧
    (∀ r : Run,(r.accept=false ∨ ∀ entries,¬Holds py r.report entries) →
      (execute py known report
          (run (step py known report) ⟨start,none⟩ runs).files r).files.content known=
        (run (step py known report) ⟨start,none⟩ runs).files.content known) ∧
    ∀ r : Run,r.accept=true → Shaped py r →
      (execute py known report (run (step py known report) ⟨start,none⟩ runs).files r).result=
          .ok 0 →
      ∃ entries listed,Holds py r.report entries ∧
        baseline (execute py known report
          (run (step py known report) ⟨start,none⟩ runs).files r).files known=.ok listed ∧
        ∀ identifier,identifier∈listed ↔ GatedIn entries identifier := by
  have hrec := history_recorded hk hr hne start hs
  refine ⟨?_,?_,?_⟩
  · intro bytes hlast
    obtain ⟨accepted,listed,hh,hb,hl⟩ := baseline_of_recorded hrec hlast
    refine ⟨accepted,hh,fun r hp => ?_⟩
    rw [execute,hp]
    simp only [Bool.false_eq_true,if_false]
    rw [main_zero_iff py _ hk hr]
    constructor
    · rintro ⟨entries,he,listed',hb',hall⟩
      rw [baseline_put hne,hb] at hb'
      cases hb'
      exact ⟨entries,(reportHolds_iff _ _ _).mp he,fun i hi => (hl i).mp (hall i hi)⟩
    · rintro ⟨entries,he,hall⟩
      refine ⟨entries,(reportHolds_iff _ _ _).mpr he,listed,?_,fun i hi => (hl i).mpr (hall i hi)⟩
      rw [baseline_put hne,hb]
  · rintro r (hp|hm)
    · exact execute_plain_content hk hr hne _ hp
    · exact execute_malformed_content hk hr hne _ hm
  · intro r hacc hshape hz
    obtain ⟨entries,hh,found,text,hm,ht,hfile⟩ := execute_written hk hr _ hacc hz
    obtain ⟨listed,hb,hl⟩ := baseline_baselineText hfile ht
      (fun i hi => hshape hacc entries hh i ((hm i).mp (mem_sorted.mp hi)))
    exact ⟨entries,listed,hh,hb,fun i => (hl i).trans (mem_sorted.trans (hm i))⟩

/-- The parser reads the sample report of an identifier. -/
def Knows (py : Interp) (identifier : String) : Prop :=
  py.loads (universalNewlines (str (sampleReport identifier)))=.ok (sampleDocument identifier)

/-- The sample report holds its one match. -/
theorem sample_report_holds {identifier : String} (hshape : AdvisoryShape (str identifier))
    (hknows : Knows py identifier) :
    Holds py (sampleReport identifier).toUTF8 [sampleMatch identifier] :=
  ⟨_,_,rfl,hknows,sample_accepts hshape.ne_nil⟩

/-- An accept of the sample report gates only what a baseline can hold. -/
theorem sample_shaped {identifier : String} (hshape : AdvisoryShape (str identifier))
    (hknows : Knows py identifier) : Shaped py ⟨true,(sampleReport identifier).toUTF8⟩ := by
  intro hacc entries hh i hi
  rw [hh.unique (sample_report_holds hshape hknows),sample_gatedIn hshape.ne_nil] at hi
  rw [hi]
  exact hshape

/-- It answers zero wherever the baseline can be written. -/
theorem sample_accepted {identifier : String} (hshape : AdvisoryShape (str identifier))
    (hknows : Knows py identifier) (hk : known≠acceptFlag) (hr : report≠acceptFlag) {files : Files}
    (hopen : files.refused known=none) :
    (execute py known report files ⟨true,(sampleReport identifier).toUTF8⟩).result=.ok 0 := by
  have hholds := (@reportHolds_iff _ report files _ _).mpr (sample_report_holds hshape hknows)
  refine accept_zero hk hr hopen hholds (fun i hi => ?_)
  rw [(sample_gatedIn hshape.ne_nil i).mp hi]
  exact str_scalar _

/-- An interpreter whose parser knows two sample reports. -/
def eitherInterp (first second : String) : Interp :=
  ⟨fun s => if s=str (sampleReport first) then .ok (sampleDocument first)
    else (sampleInterp second).loads s,fun _ => []⟩

theorem knows_first {first second : String}
    (hn : universalNewlines (str (sampleReport first))=str (sampleReport first)) :
    Knows (eitherInterp first second) first := by
  rw [Knows,hn]
  exact if_pos rfl

theorem knows_second {first second : String}
    (hn : universalNewlines (str (sampleReport second))=str (sampleReport second))
    (hother : str (sampleReport second)≠str (sampleReport first)) :
    Knows (eitherInterp first second) second := by
  rw [Knows,hn]
  exact (if_neg hother).trans (if_pos rfl)

/-- A text that is neither report holds nothing. -/
theorem either_unheld {first second text : String}
    (hfirst : universalNewlines (str text)≠str (sampleReport first))
    (hsecond : universalNewlines (str text)≠str (sampleReport second)) (entries : List Json) :
    ¬Holds (eitherInterp first second) text.toUTF8 entries := by
  rintro ⟨other,document,hbytes,hloads,-⟩
  have htext : str text=str other := by
    have hdecoded := congrArg decode hbytes
    rwa [decode_toUTF8,decode_toUTF8,Option.some.injEq] at hdecoded
  rw [←htext] at hloads
  have herror : (eitherInterp first second).loads (universalNewlines (str text))=
      .error (.decode (str "Expecting value")) := (if_neg hfirst).trans (if_neg hsecond)
  rw [herror] at hloads
  cases hloads

/-- No run makes the baseline harder to open. -/
theorem execute_refused (hk : known≠acceptFlag) (hr : report≠acceptFlag) (files : Files) (r : Run)
    (h : r.accept=true → (execute py known report files r).result=.ok 0 ∨
      ∀ entries,¬Holds py r.report entries) :
    (execute py known report files r).files.refused known=files.refused known := by
  cases hacc : r.accept with
  | false =>
    rw [execute,hacc]
    simp only [Bool.false_eq_true,if_false]
    rw [main_plain_files py _ hk hr]
    rfl
  | true =>
    have hcase := h hacc
    rw [execute,hacc] at hcase ⊢
    simp only [if_true] at hcase ⊢
    cases accepted_cases py (files.put report r.report) hk hr with
    | refused unheld code same => rw [same]; rfl
    | written entries holds found members text textOf code after => rw [after]; rfl
    | failed entries holds cause code =>
      rcases hcase with hzero|hnone
      · exact absurd hzero code
      · exact absurd ((reportHolds_iff files r.report entries).mp holds) (hnone entries)

/-- An accept of one report, one of a torn report, and an accept of another one. -/
def sampleRuns (first second : String) : List Run :=
  [⟨true,(sampleReport first).toUTF8⟩,⟨true,"\x7b".toUTF8⟩,⟨true,(sampleReport second).toUTF8⟩]

/-- The second accept is the last successful one. -/
theorem last_sampleRuns {first second : String} (hshape : AdvisoryShape (str first))
    (hshape' : AdvisoryShape (str second)) (hknows : Knows py first) (hknows' : Knows py second)
    (htorn : ∀ entries,¬Holds py "\x7b".toUTF8 entries) (hk : known≠acceptFlag)
    (hr : report≠acceptFlag) {files : Files} (hopen : files.refused known=none) :
    (run (step py known report) ⟨files,none⟩ (sampleRuns first second)).last=
      some (sampleReport second).toUTF8 := by
  have haccepted := sample_accepted hshape hknows hk hr hopen
  rw [sampleRuns,run_cons,run_cons,run_cons,run_nil]
  refine step_last_accept rfl (sample_accepted hshape' hknows' hk hr ?_)
  rw [step_files,execute_refused hk hr _ ⟨true,"\x7b".toUTF8⟩ (fun _ => .inr htorn),step_files,
    execute_refused hk hr _ _ (fun _ => .inl haccepted)]
  exact hopen

/-- What was accepted last passes, and what was accepted before it no longer does. -/
theorem plain_after_sampleRuns {first second : String} (hshape : AdvisoryShape (str first))
    (hshape' : AdvisoryShape (str second)) (hknows : Knows py first) (hknows' : Knows py second)
    (hother : str first≠str second) {files : Files}
    (hjudged : ∃ accepted,Holds py (sampleReport second).toUTF8 accepted ∧ ∀ r : Run,
      r.accept=false → ((execute py known report files r).result=.ok 0 ↔ ∃ entries,
        Holds py r.report entries ∧
          ∀ identifier,GatedIn entries identifier → GatedIn accepted identifier)) :
    (execute py known report files ⟨false,(sampleReport second).toUTF8⟩).result=.ok 0 ∧
      (execute py known report files ⟨false,(sampleReport first).toUTF8⟩).result≠.ok 0 := by
  have hholds := sample_report_holds hshape hknows
  have hholds' := sample_report_holds hshape' hknows'
  obtain ⟨accepted,hh,hiff⟩ := hjudged
  rw [hh.unique hholds'] at hiff
  refine ⟨(hiff ⟨false,_⟩ rfl).mpr ⟨_,hholds',fun _ hi => hi⟩,fun hzero => ?_⟩
  obtain ⟨entries,hentries,hall⟩ := (hiff ⟨false,_⟩ rfl).mp hzero
  rw [hentries.unique hholds] at hall
  have hgated := hall (str first) ((sample_gatedIn hshape.ne_nil _).mpr rfl)
  exact hother ((sample_gatedIn hshape'.ne_nil _).mp hgated)

/-- The interpreter of the sample history. -/
def sampleReader : Interp := eitherInterp "CVE-2024-6387" "GHSA-jfh8-c2jp-5v3q"

/-- What the sample history leads to. -/
def sampleHistory : History :=
  run (step sampleReader (str "k") (str "r")) ⟨sampleFiles "not a baseline" "CVE-2024-6387",none⟩
    (sampleRuns "CVE-2024-6387" "GHSA-jfh8-c2jp-5v3q")

/-- The second accept counts: its report passes, and the first one no longer does. -/
theorem baseline_is_last_accept_sample :
    (execute sampleReader (str "k") (str "r") sampleHistory.files
        ⟨false,(sampleReport "GHSA-jfh8-c2jp-5v3q").toUTF8⟩).result=.ok 0 ∧
      (execute sampleReader (str "k") (str "r") sampleHistory.files
        ⟨false,(sampleReport "CVE-2024-6387").toUTF8⟩).result≠.ok 0 := by
  have hshape' : AdvisoryShape (str "GHSA-jfh8-c2jp-5v3q") :=
    (advisoryGrammar_iff _).mp (by decide +kernel)
  have hknows : Knows sampleReader "CVE-2024-6387" :=
    knows_first sample_newlines
  have hknows' : Knows sampleReader "GHSA-jfh8-c2jp-5v3q" :=
    knows_second (universalNewlines_of_notMem (by decide +kernel)) (by decide +kernel)
  have htorn : ∀ entries,¬Holds sampleReader "\x7b".toUTF8 entries :=
    either_unheld (by decide +kernel) (by decide +kernel)
  have hs : ∀ r∈sampleRuns "CVE-2024-6387" "GHSA-jfh8-c2jp-5v3q",Shaped sampleReader r := by
    rw [sampleRuns,List.forall_mem_cons,List.forall_mem_cons,List.forall_mem_singleton]
    exact ⟨sample_shaped sample_shape hknows,fun _ entries hh => absurd hh (htorn entries),
      sample_shaped hshape' hknows'⟩
  have hk : str "k"≠acceptFlag := by decide
  have hr : str "r"≠acceptFlag := by decide
  have hlast := @last_sampleRuns sampleReader (str "k") (str "r") _ _ sample_shape hshape' hknows hknows'
    htorn hk hr (sampleFiles "not a baseline" "CVE-2024-6387") rfl
  exact plain_after_sampleRuns sample_shape hshape' hknows hknows' (by decide +kernel)
    ((baseline_is_last_accept hk hr (by decide) _ _ hs).1 _ hlast)

end MlopsPlatform.SupplyFindingsHistory
