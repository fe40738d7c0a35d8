import MlopsPlatform.SupplyCoverage

/-!
# What a scan holds a tree against

`scan-accept` rewrites one baseline for each document, `scan` compares each
report with the baseline of its own document. The two loops share a directory
with the reports, so nothing but the file names keeps the documents apart. After
an accept, whatever edits, catalogues and scans follow, a later scan holds every
document against exactly the findings that were accepted for it.
-/

namespace MlopsPlatform.SupplyScanHistory

open TextCodec TextLines TextSorted PythonFiles PythonJson StateRuns SupplyAdvisory SupplyEntrypoints
open SupplyImages SupplyFindings SupplyFindingsGate SupplyFindingsAccept
open SupplyFindingsHistory hiding step
open SupplyImagesComplete SupplyTargets SupplyCoverage

/-- The baseline of a document is the text of the findings of a report. -/
def Baselines (py : Interp) (files : Files) (name : Str) (report : ByteArray) : Prop :=
  ∃ entries,Holds py report entries ∧ ∃ (found : Finset Str) (text : String),
    (∀ identifier,identifier∈found ↔ GatedIn entries identifier) ∧
      str text=baselineText (sorted found) ∧
      files.content (knownPath name)=.ok text.toUTF8

/-- Every finding of a report has the form a baseline can hold. -/
def AllShaped (py : Interp) (report : ByteArray) : Prop :=
  ∀ entries,Holds py report entries →
    ∀ identifier,GatedIn entries identifier → AdvisoryShape identifier

/-- It accepts findings. -/
def Accepts : Action→Prop
  | .scanAccept _ _ => True
  | _ => False

variable {py : Interp} {reader : Reader Refusal} {e e' : Entrypoint}
  {reports reports' : Str→ByteArray} {tree accepted final : Tree} {scanned : Scanned}

/-- The path of a baseline tells its document. -/
theorem knownPath_injective {name other : Str} (h : knownPath name=knownPath other) :
    name=other := List.append_cancel_right (List.append_cancel_left h)

/-- No baseline is a report. -/
theorem knownPath_ne_reportPath (name other : Str) : knownPath name≠reportPath other := by
  intro h
  have hlast := congrArg List.getLast? h
  have hknown : knownPath name=(str "sbom/"++name++str ".known.tx")++[0x74] := by
    rw [knownPath,inDirectory,List.append_assoc,List.append_assoc]
    rfl
  have hreport : reportPath other=(str "sbom/"++other++str ".findings.jso")++[0x6e] := by
    rw [reportPath,inDirectory,List.append_assoc,List.append_assoc]
    rfl
  rw [hknown,hreport,List.getLast?_concat,List.getLast?_concat] at hlast
  exact absurd hlast (by decide)

/-- One accept writes the baseline of its report, and nothing else. -/
theorem accept_written {files : Files} {name : Str}
    (hz : zero (SupplyFindings.main py files [acceptFlag,knownPath name,reportPath name])=true)
    {report : ByteArray} (hreport : files.content (reportPath name)=.ok report) :
    Baselines py (SupplyFindings.main py files
        [acceptFlag,knownPath name,reportPath name]).files name report ∧
      ∀ path,path≠knownPath name →
        (SupplyFindings.main py files
          [acceptFlag,knownPath name,reportPath name]).files.content path=files.content path := by
  have hzero := (zero_iff _).mp hz
  cases accepted_cases py files (inDirectory_ne_acceptFlag (name++str ".known.txt"))
      (inDirectory_ne_acceptFlag (name++str ".findings.json")) with
  | refused unheld code same => exact absurd hzero code
  | failed entries holds cause code => exact absurd hzero code
  | written entries holds found members text textOf code after =>
    have hfiles : (SupplyFindings.main py files
        [acceptFlag,knownPath name,reportPath name]).files=
          files.put (knownPath name) text.toUTF8 := after
    obtain ⟨source,document,hcontent,hloads,haccepts⟩ := holds
    have hcontent' : files.content (reportPath name)=.ok source.toUTF8 := hcontent
    rw [hreport,Except.ok.injEq] at hcontent'
    rw [hfiles]
    refine ⟨⟨entries,⟨source,document,hcontent',hloads,haccepts⟩,found,text,members,textOf,?_⟩,
      fun path hne => put_other files _ hne⟩
    exact put_same files _ _

/-- The accepting loop leaves every other file, and the baseline of each report
it went over. -/
theorem acceptLoop_written {files after : Files} {names : List Str}
    (h : acceptLoop py files names=some after)
    (hreports : ∀ name∈names,files.content (reportPath name)=.ok (reports name)) :
    (∀ path,(∀ name∈names,path≠knownPath name) → after.content path=files.content path) ∧
      ∀ name,name∈names ∨ Baselines py files name (reports name) →
        Baselines py after name (reports name) := by
  induction names generalizing files with
  | nil =>
    cases h
    exact ⟨fun _ _ => rfl,fun name hname => hname.resolve_left List.not_mem_nil⟩
  | cons first names ih =>
    rw [acceptLoop] at h
    split at h
    · rename_i hz
      obtain ⟨hwritten,hframe⟩ := accept_written hz (hreports first List.mem_cons_self)
      have hkept : ∀ name∈names,(SupplyFindings.main py files
          [acceptFlag,knownPath first,reportPath first]).files.content (reportPath name)=
            .ok (reports name) := by
        intro name hname
        rw [hframe _ (knownPath_ne_reportPath first name).symm]
        exact hreports name (List.mem_cons_of_mem _ hname)
      obtain ⟨hrest,hbaselines⟩ := ih h hkept
      refine ⟨fun path hpath => ?_,fun name hname => hbaselines name ?_⟩
      · rw [hrest path (fun name hname => hpath name (List.mem_cons_of_mem _ hname)),
          hframe path (hpath first List.mem_cons_self)]
      · by_cases hfirst : name=first
        · rw [hfirst]
          exact Or.inr hwritten
        · refine hname.imp (fun hm => (List.mem_cons.mp hm).resolve_left hfirst) ?_
          rintro ⟨entries,hholds,found,text,hmembers,htext,hcontent⟩
          refine ⟨entries,hholds,found,text,hmembers,htext,?_⟩
          rw [hframe _ (fun hpath => hfirst (knownPath_injective hpath))]
          exact hcontent
    · cases h

/-- What a `scan-accept` leaves. -/
theorem scanAccept_written (h : scanAccept py reader e reports tree=some accepted) :
    ∃ names,e.names accepted.documents=some names ∧
      ∀ name∈names,Baselines py accepted.files name (reports name) := by
  unfold scanAccept at h
  split at h
  · cases h
  · rename_i catalogued hsbom
    split at h
    · cases h
    · rename_i names files hreport
      split at h
      · cases h
      · rename_i after hloop
        cases h
        obtain ⟨hnames,hscan⟩ := scanReport_eq_some hreport
        have hreports : ∀ name∈names,files.content (reportPath name)=.ok (reports name) :=
          fun name hname => content_of_scanLoop hscan (Or.inl hname)
        exact ⟨names,hnames,fun name hname =>
          (acceptLoop_written hloop hreports).2 name (Or.inl hname)⟩

/-- The scanner writes no baseline. -/
theorem scanLoop_known {documents : Documents} {files after : Files} {names : List Str}
    (h : scanLoop reports documents files names=some after) (name : Str) :
    after.content (knownPath name)=files.content (knownPath name) := by
  induction names generalizing files with
  | nil =>
    cases h
    rfl
  | cons first names ih =>
    rw [scanLoop] at h
    split at h
    · rw [ih h,put_other _ _ (knownPath_ne_reportPath name first)]
    · cases h

/-- Nothing but an accept changes a baseline. -/
theorem step_known {action : Action} {next : Tree} (h : step py reader tree action=some next)
    (hkeeps : ¬Accepts action) (name : Str) :
    next.files.content (knownPath name)=tree.files.content (knownPath name) := by
  cases action with
  | edit spine =>
    cases h
    rfl
  | sbom e =>
    simp only [step,sbom] at h
    split at h
    · cases h
    · cases h
      rfl
  | scanAccept e reports => exact absurd trivial hkeeps
  | scan e reports =>
    obtain ⟨scanned,hscan,rfl⟩ := Option.map_eq_some_iff.mp h
    exact scanLoop_known (scan_eq_some hscan).2.1 name

/-- So no run without one does. -/
theorem run_known {actions : List Action} (h : wholeRun (step py reader) tree actions=some final)
    (hkeeps : ∀ a∈actions,¬Accepts a) (name : Str) :
    final.files.content (knownPath name)=tree.files.content (knownPath name) := by
  induction actions generalizing tree with
  | nil =>
    cases h
    rfl
  | cons action actions ih =>
    obtain ⟨next,hnext,hrest⟩ := wholeRun_cons.mp h
    rw [ih hrest (fun a ha => hkeeps a (List.mem_cons_of_mem _ ha)),
      step_known hnext (hkeeps action List.mem_cons_self)]

/-- Which documents the comparing loop names. -/
theorem mem_failed_iff {files : Files} {names : List Str} {name : Str} :
    name∈(gateLoop py files names).2 ↔ name∈names ∧
      (SupplyFindings.main py files [knownPath name,reportPath name]).result≠.ok 0 := by
  induction names with
  | nil => exact iff_of_false List.not_mem_nil (fun h => List.not_mem_nil h.1)
  | cons first names ih =>
    have hfiles : (SupplyFindings.main py files [knownPath first,reportPath first]).files=files :=
      main_plain_files py files (inDirectory_ne_acceptFlag _) (inDirectory_ne_acceptFlag _)
    rw [gateLoop,hfiles]
    split
    · rename_i hz
      have hzero := (zero_iff _).mp hz
      rw [ih,List.mem_cons]
      refine ⟨fun h => ⟨Or.inr h.1,h.2⟩,?_⟩
      rintro ⟨rfl|hm,hne⟩
      · exact absurd hzero hne
      · exact ⟨hm,hne⟩
    · rename_i hz
      have hnonzero := mt (zero_iff _).mpr hz
      rw [List.mem_cons,List.mem_cons,ih]
      constructor
      · rintro (rfl|⟨hm,hne⟩)
        · exact ⟨Or.inl rfl,hnonzero⟩
        · exact ⟨Or.inr hm,hne⟩
      · rintro ⟨rfl|hm,hne⟩
        · exact Or.inl rfl
        · exact Or.inr ⟨hm,hne⟩

/-- What is in a report file decides what it holds. -/
theorem reportHolds_content {files : Files} {path : Str} {bytes : ByteArray}
    (h : files.content path=.ok bytes) (entries : List Json) :
    ReportHolds py files path entries ↔ Holds py bytes entries := by
  simp only [ReportHolds,Holds,h,Except.ok.injEq]

/-- A report passes a baseline of well-formed findings exactly if it gates
nothing else. -/
theorem passes_iff {files : Files} {name : Str} {report bytes : ByteArray}
    (hbaselines : Baselines py files name report) (hshaped : AllShaped py report)
    (hbytes : files.content (reportPath name)=.ok bytes) :
    ∃ entries,Holds py report entries ∧
      ((SupplyFindings.main py files [knownPath name,reportPath name]).result=.ok 0 ↔
        ∃ current,Holds py bytes current ∧
          ∀ identifier,GatedIn current identifier → GatedIn entries identifier) := by
  obtain ⟨entries,hholds,found,text,hmembers,htext,hcontent⟩ := hbaselines
  obtain ⟨listed,hlisted,hin⟩ := baseline_baselineText hcontent htext
    (fun i hi => hshaped entries hholds i ((hmembers i).mp (mem_sorted.mp hi)))
  have hgated : ∀ i,i∈listed ↔ GatedIn entries i :=
    fun i => (hin i).trans (mem_sorted.trans (hmembers i))
  refine ⟨entries,hholds,?_⟩
  rw [@main_zero_iff py files (knownPath name) (reportPath name) (inDirectory_ne_acceptFlag _)
    (inDirectory_ne_acceptFlag _)]
  constructor
  · rintro ⟨current,hcurrent,other,hother,hall⟩
    rw [hlisted,Except.ok.injEq] at hother
    rw [←hother] at hall
    exact ⟨current,(reportHolds_content hbytes current).mp hcurrent,
      fun i hi => (hgated i).mp (hall i hi)⟩
  · rintro ⟨current,hcurrent,hall⟩
    exact ⟨current,(reportHolds_content hbytes current).mpr hcurrent,listed,hlisted,
      fun i hi => (hgated i).mpr (hall i hi)⟩

/-- The report it was written from passes a baseline exactly if all its findings
are well formed. -/
theorem passes_own_iff {files : Files} {name : Str} {report : ByteArray}
    (hbaselines : Baselines py files name report)
    (hbytes : files.content (reportPath name)=.ok report) :
    (SupplyFindings.main py files [knownPath name,reportPath name]).result=.ok 0 ↔
      AllShaped py report := by
  constructor
  · intro hpass entries hholds
    exact shape_of_pass (inDirectory_ne_acceptFlag _) (inDirectory_ne_acceptFlag _)
      ((reportHolds_content hbytes entries).mpr hholds) hpass
  · intro hshaped
    obtain ⟨entries,hholds,hiff⟩ := passes_iff hbaselines hshaped hbytes
    exact hiff.mpr ⟨entries,hholds,fun _ hi => hi⟩

/-- A scan some time after an accept finds the accepted baselines, and the
reports the scanner has left. -/
theorem scan_finds (haccept : scanAccept py reader e reports tree=some accepted)
    {later : List Action} (hrun : wholeRun (step py reader) accepted later=some final)
    (hkeeps : ∀ a∈later,¬Accepts a) (hscan : scan py e' reports' final=some scanned)
    {names : List Str} (hnames : e.names accepted.documents=some names) {name : Str}
    (hname : name∈names) (hread : name∈scanned.read) :
    Baselines py scanned.files name (reports name) ∧
      scanned.files.content (reportPath name)=.ok (reports' name) ∧
      (name∉scanned.failed ↔
        (SupplyFindings.main py scanned.files [knownPath name,reportPath name]).result=.ok 0) := by
  obtain ⟨others,hothers,hbaselines⟩ := scanAccept_written haccept
  rw [hnames,Option.some.injEq] at hothers
  obtain ⟨hreads,hloop,hfailed⟩ := scan_eq_some hscan
  obtain ⟨entries,hholds,found,text,hmembers,htext,hcontent⟩ :=
    hbaselines name (hothers ▸ hname)
  refine ⟨⟨entries,hholds,found,text,hmembers,htext,?_⟩,
    content_of_scanLoop hloop (Or.inl hread),?_⟩
  · rw [scanLoop_known hloop,run_known hrun hkeeps]
    exact hcontent
  · rw [hfailed,mem_failed_iff,not_and,not_not]
    exact ⟨fun h => h hread,fun h _ => h⟩

/-- A later scan holds each document against its last accept. Between a
`scan-accept` and a `scan`, by either entrypoint and with whatever edits,
catalogues and scans in between, the comparison of an accepted document fails
exactly if its report is malformed now or gates a finding that was not accepted
for that very document. -/
theorem scan_judges_last_accept (haccept : scanAccept py reader e reports tree=some accepted)
    {later : List Action} (hrun : wholeRun (step py reader) accepted later=some final)
    (hkeeps : ∀ a∈later,¬Accepts a) (hscan : scan py e' reports' final=some scanned)
    {names : List Str} (hnames : e.names accepted.documents=some names) {name : Str}
    (hname : name∈names) (hread : name∈scanned.read) (hshaped : AllShaped py (reports name)) :
    ∃ entries,Holds py (reports name) entries ∧
      (name∉scanned.failed ↔ ∃ current,Holds py (reports' name) current ∧
        ∀ identifier,GatedIn current identifier → GatedIn entries identifier) := by
  obtain ⟨hbaselines,hbytes,hfailed⟩ :=
    scan_finds haccept hrun hkeeps hscan hnames hname hread
  obtain ⟨entries,hholds,hiff⟩ := passes_iff hbaselines hshaped hbytes
  exact ⟨entries,hholds,hfailed.trans hiff⟩

/-- Accepting makes a scan pass. After a `scan-accept`, a `scan` in which the
scanner reports the same exits with zero exactly if every finding of every
document it reads has the form a baseline can hold. -/
theorem scan_after_accept_iff (haccept : scanAccept py reader e reports tree=some accepted)
    {later : List Action} (hrun : wholeRun (step py reader) accepted later=some final)
    (hkeeps : ∀ a∈later,¬Accepts a) (hscan : scan py e' reports final=some scanned)
    {names : List Str} (hnames : e.names accepted.documents=some names)
    (hread : ∀ name∈scanned.read,name∈names) :
    scanned.failed=[] ↔ ∀ name∈scanned.read,AllShaped py (reports name) := by
  have hfinds : ∀ name∈scanned.read,name∉scanned.failed ↔ AllShaped py (reports name) := by
    intro name hm
    obtain ⟨hbaselines,hbytes,hfailed⟩ :=
      scan_finds haccept hrun hkeeps hscan hnames (hread name hm) hm
    exact hfailed.trans (passes_own_iff hbaselines hbytes)
  have hsubset : ∀ name∈scanned.failed,name∈scanned.read := by
    intro name hm
    rw [(scan_eq_some hscan).2.2,mem_failed_iff] at hm
    exact hm.1
  constructor
  · intro hnil name hm
    refine (hfinds name hm).mp ?_
    rw [hnil]
    exact List.not_mem_nil
  · intro hall
    refine List.eq_nil_iff_forall_not_mem.mpr (fun name hm => ?_)
    exact (hfinds name (hsubset name hm)).mpr (hall name (hsubset name hm)) hm

/-- The image of the sample, and its document. -/
def bumped : Str := stem (str "postgres:16")

/-- The accept, the bump and a scan. -/
theorem bump_accepted : ∃ accepted final scanned,
    scanAccept (sampleInterp "CVE-2024-6387") bumpReader bumpMake bumpReports
        ⟨spine beforeBump "",∅,emptyDirectory⟩=some accepted ∧
      wholeRun (step (sampleInterp "CVE-2024-6387") bumpReader) accepted
        [.edit (spine afterBump "")]=some final ∧
      scan (sampleInterp "CVE-2024-6387") bumpMake bumpReports final=some scanned ∧
      bumpMake.names accepted.documents=some [bumped] ∧ scanned.read=[bumped] := by
  obtain ⟨files,scanned,hrun,hscan,-⟩ := bump_runs
  obtain ⟨accepted,haccept,hedit⟩ := wholeRun_cons.mp hrun
  have hdocuments : accepted.documents=(∅ : Documents).insert bumped (str "postgres:16") := by
    rw [wholeRun_cons] at hedit
    obtain ⟨next,hnext,hend⟩ := hedit
    cases hnext
    rw [wholeRun_nil,Option.some.injEq,Tree.mk.injEq] at hend
    exact hend.2.1
  have hnames : bumpMake.names ((∅ : Documents).insert bumped (str "postgres:16"))=
      some [bumped] := names_single plain_bumped.shows
  have hread : bumpMake.names ((∅ : Documents).insert bumped (str "postgres:16"))=
      some scanned.read := (scan_eq_some hscan).1
  rw [hnames,Option.some.injEq] at hread
  refine ⟨accepted,_,scanned,haccept,hedit,hscan,?_,hread.symm⟩
  rw [hdocuments]
  exact hnames

/-- The sample's one finding is well formed. -/
theorem bump_shaped : AllShaped (sampleInterp "CVE-2024-6387") (bumpReports bumped) :=
  sample_shaped sample_shape (sample_loads sample_newlines) rfl

theorem scan_judges_last_accept_bump : ∃ scanned : Scanned,∃ entries,
    Holds (sampleInterp "CVE-2024-6387") (bumpReports bumped) entries ∧
      (bumped∉scanned.failed ↔ ∃ current,
        Holds (sampleInterp "CVE-2024-6387") (bumpReports bumped) current ∧
          ∀ identifier,GatedIn current identifier → GatedIn entries identifier) := by
  obtain ⟨accepted,final,scanned,haccept,hrun,hscan,hnames,hread⟩ := bump_accepted
  refine ⟨scanned,scan_judges_last_accept haccept hrun (fun a ha => ?_) hscan hnames
    List.mem_cons_self ?_ bump_shaped⟩
  · rw [List.mem_singleton.mp ha]
    exact id
  · rw [hread]
    exact List.mem_cons_self

theorem scan_after_accept_iff_bump : ∃ scanned : Scanned,
    scanned.read=[bumped] ∧ scanned.failed=[] := by
  obtain ⟨accepted,final,scanned,haccept,hrun,hscan,hnames,hread⟩ := bump_accepted
  refine ⟨scanned,hread,(scan_after_accept_iff haccept hrun (fun a ha => ?_) hscan hnames ?_).mpr
    ?_⟩
  · rw [List.mem_singleton.mp ha]
    exact id
  · rw [hread]
    exact fun name hm => hm
  · rw [hread]
    exact List.forall_mem_singleton.mpr bump_shaped

end MlopsPlatform.SupplyScanHistory
