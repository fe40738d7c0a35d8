import MlopsPlatform.SupplyFindings

/-!
# What the gate answers

A report is accepted when each of its matches can be read, and a baseline when
each of its lines is blank, a comment or an identifier. The comparison answers
zero exactly when both are accepted and every gated identifier of the report
is an entry of the baseline, and one otherwise. Both loops are described by
the set of what they read, so neither order nor repetition is observable.
-/

namespace MlopsPlatform.SupplyFindingsGate

open TextCodec TextLines TextStrip TextSorted PythonJson PythonFiles SupplyAdvisory SupplyFindings

/-- The entry is an object with a vulnerability object whose id and severity
are the finding's. -/
def Reads (entry : Json) (finding : Finding) : Prop :=
  ∃ fields vulnerability,entry=.dict fields ∧
    get fields (str "vulnerability")=.dict vulnerability ∧
    get vulnerability (str "id")=.str finding.identifier ∧
    get vulnerability (str "severity")=.str finding.severity

/-- A match the gate can read. -/
def WellFormed (entry : Json) : Prop := ∃ finding,Reads entry finding

/-- The identifier has at least one match of severity Critical or High. -/
def GatedIn (entries : List Json) (identifier : Str) : Prop :=
  ∃ entry∈entries,∃ finding,Reads entry finding ∧ finding.severity∈gated ∧
    finding.identifier=identifier

/-- The document is a report whose `matches` are these entries, all readable. -/
def Accepts (document : Json) (entries : List Json) : Prop :=
  ∃ fields,document=.dict fields ∧ get fields (str "matches")=.list entries ∧
    ∀ entry∈entries,WellFormed entry

/-- A baseline line the reader takes: blank, a comment, or an identifier. -/
def GoodLine (line : Str) : Prop :=
  strip line=[] ∨ (strip line).head?=some 0x23 ∨ AdvisoryShape (strip line)

/-- The stripped line is an entry: neither blank nor a comment. -/
def EntryOf (lines : List Str) (entry : Str) : Prop :=
  ∃ line∈lines,strip line=entry ∧ entry≠[] ∧ entry.head?≠some 0x23

/-- The checks on one match succeed exactly on what the finding describes. -/
theorem readMatch_eq_ok (index : ℕ) (entry : Json) (finding : Finding) :
    readMatch index entry=.ok finding ↔ Reads entry finding := by
  constructor
  · intro h
    unfold readMatch at h
    split at h
    · rename_i fields
      split at h
      · rename_i vulnerability hv
        split at h
        · rename_i identifier hid
          split at h
          · split at h
            · rename_i severity hsev
              cases h
              exact ⟨fields,vulnerability,rfl,hv,hid,hsev⟩
            · cases h
          · cases h
        · cases h
      · cases h
    · cases h
  · rintro ⟨fields,vulnerability,rfl,hv,hid,hsev⟩
    simp only [readMatch,hv,hid,hsev,dif_pos finding.named]

/-- An entry is read as at most one finding. -/
theorem Reads.unique {entry : Json} {f g : Finding} (hf : Reads entry f) (hg : Reads entry g) :
    f=g :=
  Except.ok.inj (((readMatch_eq_ok 0 entry f).mpr hf).symm.trans ((readMatch_eq_ok 0 entry g).mpr hg))

theorem gatedIn_nil (identifier : Str) : ¬GatedIn [] identifier := by
  rintro ⟨entry,h,-⟩
  cases h

/-- One more match adds its own identifier, if it is gated. -/
theorem gatedIn_cons {entry : Json} {finding : Finding} (hf : Reads entry finding)
    (entries : List Json) (identifier : Str) :
    GatedIn (entry::entries) identifier ↔
      (finding.severity∈gated ∧ finding.identifier=identifier) ∨ GatedIn entries identifier := by
  constructor
  · rintro ⟨e,he,g,hg,hsev,hid⟩
    rcases List.mem_cons.mp he with rfl|he
    · rw [hf.unique hg]
      exact Or.inl ⟨hsev,hid⟩
    · exact Or.inr ⟨e,he,g,hg,hsev,hid⟩
  · rintro (⟨hsev,hid⟩|⟨e,he,h⟩)
    · exact ⟨entry,List.mem_cons_self,finding,hf,hsev,hid⟩
    · exact ⟨e,List.mem_cons_of_mem _ he,h⟩

/-- The loop over readable matches adds exactly the gated identifiers. -/
theorem collect_of_wellFormed (index : ℕ) (found : Finset Str) {entries : List Json}
    (h : ∀ entry∈entries,WellFormed entry) :
    ∃ result,collect gated index found entries=.ok result ∧
      ∀ identifier,identifier∈result ↔ identifier∈found ∨ GatedIn entries identifier := by
  induction entries generalizing index found with
  | nil => exact ⟨found,rfl,fun i => (or_iff_left (gatedIn_nil i)).symm⟩
  | cons entry entries ih =>
    obtain ⟨finding,hf⟩ := h entry List.mem_cons_self
    have ht : ∀ e∈entries,WellFormed e := fun e he => h e (List.mem_cons_of_mem _ he)
    have hread := (readMatch_eq_ok index entry finding).mpr hf
    by_cases hsev : finding.severity∈gated
    · obtain ⟨result,hr,hm⟩ := ih (index+1) (insert finding.identifier found) ht
      refine ⟨result,by simp only [collect,hread,if_pos hsev,hr],fun i => ?_⟩
      rw [hm,gatedIn_cons hf,Finset.mem_insert]
      constructor
      · rintro ((rfl|hi)|hi)
        · exact Or.inr (Or.inl ⟨hsev,rfl⟩)
        · exact Or.inl hi
        · exact Or.inr (Or.inr hi)
      · rintro (hi|⟨-,rfl⟩|hi)
        · exact Or.inl (Or.inr hi)
        · exact Or.inl (Or.inl rfl)
        · exact Or.inr hi
    · obtain ⟨result,hr,hm⟩ := ih (index+1) found ht
      refine ⟨result,by simp only [collect,hread,if_neg hsev,hr],fun i => ?_⟩
      rw [hm,gatedIn_cons hf]
      simp only [hsev,false_and,false_or]

/-- The loop ends well only when every match was readable. -/
theorem wellFormed_of_collect {index : ℕ} {found result : Finset Str} {entries : List Json}
    (h : collect gated index found entries=.ok result) : ∀ entry∈entries,WellFormed entry := by
  induction entries generalizing index found with
  | nil => exact fun _ he => absurd he List.not_mem_nil
  | cons entry entries ih =>
    cases hread : readMatch index entry with
    | error error =>
      simp only [collect,hread] at h
      cases h
    | ok finding =>
      have hw : WellFormed entry := ⟨finding,(readMatch_eq_ok index entry finding).mp hread⟩
      have ht : ∀ e∈entries,WellFormed e := by
        simp only [collect,hread] at h
        split at h
        · exact ih h
        · exact ih h
      intro e he
      rcases List.mem_cons.mp he with rfl|he
      · exact hw
      · exact ht e he

/-- An accepted report is listed as its gated identifiers, in order. -/
theorem advisories_of_accepts {document : Json} {entries : List Json}
    (h : Accepts document entries) :
    ∃ found : Finset Str,advisories document gated=.ok (sorted found) ∧
      ∀ identifier,identifier∈found ↔ GatedIn entries identifier := by
  obtain ⟨fields,rfl,hm,hw⟩ := h
  obtain ⟨found,hc,hf⟩ := collect_of_wellFormed 0 ∅ hw
  refine ⟨found,by simp only [advisories,hm,hc],fun i => ?_⟩
  rw [hf]
  simp only [Finset.notMem_empty,false_or]

/-- Only an accepted report is listed. -/
theorem accepts_of_advisories {document : Json} {current : List Str}
    (h : advisories document gated=.ok current) : ∃ entries,Accepts document entries := by
  unfold advisories at h
  split at h
  · rename_i fields
    split at h
    · cases h
    · rename_i entries hm
      cases hc : collect gated 0 ∅ entries with
      | error error =>
        rw [hc] at h
        cases h
      | ok found => exact ⟨entries,fields,rfl,hm,wellFormed_of_collect hc⟩
    · cases h
  · cases h

/-- A document has one list of matches. -/
theorem Accepts.unique {document : Json} {entries others : List Json}
    (h : Accepts document entries) (g : Accepts document others) : entries=others := by
  obtain ⟨fields,rfl,hm,-⟩ := h
  obtain ⟨fields',hf,hm',-⟩ := g
  cases hf
  rw [hm] at hm'
  cases hm'
  rfl

/-- The entries a line contributes. -/
theorem entryOf_cons (line : Str) (lines : List Str) (entry : Str) :
    EntryOf (line::lines) entry ↔
      (strip line=entry ∧ entry≠[] ∧ entry.head?≠some 0x23) ∨ EntryOf lines entry := by
  simp only [EntryOf,List.mem_cons,exists_eq_or_imp]

/-- The line loop over good lines collects exactly their entries. -/
theorem readEntries_of_good (path : Str) (number : ℕ) (found : Finset Str) {lines : List Str}
    (h : ∀ line∈lines,GoodLine line) :
    ∃ result,readEntries path number found lines=.ok result ∧
      ∀ entry,entry∈result ↔ entry∈found ∨ EntryOf lines entry := by
  induction lines generalizing number found with
  | nil =>
    refine ⟨found,rfl,fun e => (or_iff_left ?_).symm⟩
    rintro ⟨line,hl,-⟩
    cases hl
  | cons line lines ih =>
    have ht : ∀ l∈lines,GoodLine l := fun l hl => h l (List.mem_cons_of_mem _ hl)
    have hg := h line List.mem_cons_self
    by_cases hskip : strip line=[] ∨ (strip line).head?=some 0x23
    · obtain ⟨result,hr,hm⟩ := ih (number+1) found ht
      refine ⟨result,by simp only [readEntries,if_pos hskip,hr],fun e => ?_⟩
      rw [hm,entryOf_cons]
      have hno : ¬(strip line=e ∧ e≠[] ∧ e.head?≠some 0x23) := by
        rintro ⟨rfl,hne,hhash⟩
        exact hskip.elim hne hhash
      rw [or_iff_right hno]
    · have hshape : AdvisoryShape (strip line) := by
        rcases hg with hg|hg|hg
        · exact absurd (Or.inl hg) hskip
        · exact absurd (Or.inr hg) hskip
        · exact hg
      have hmatch := (advisoryMatch_of_trimmed (strip_trimmed line)).mpr hshape
      obtain ⟨result,hr,hm⟩ := ih (number+1) (insert (strip line) found) ht
      refine ⟨result,by simp only [readEntries,if_neg hskip,if_pos hmatch,hr],fun e => ?_⟩
      rw [hm,entryOf_cons,Finset.mem_insert]
      constructor
      · rintro ((rfl|he)|he)
        · exact Or.inr (Or.inl ⟨rfl,hshape.ne_nil,hshape.head_ne⟩)
        · exact Or.inl he
        · exact Or.inr (Or.inr he)
      · rintro (he|⟨rfl,-⟩|he)
        · exact Or.inl (Or.inr he)
        · exact Or.inl (Or.inl rfl)
        · exact Or.inr he

/-- The line loop ends well only over good lines. -/
theorem good_of_readEntries {path : Str} {number : ℕ} {found result : Finset Str}
    {lines : List Str} (h : readEntries path number found lines=.ok result) :
    ∀ line∈lines,GoodLine line := by
  induction lines generalizing number found with
  | nil => exact fun _ hl => absurd hl List.not_mem_nil
  | cons line lines ih =>
    intro l hl
    by_cases hskip : strip line=[] ∨ (strip line).head?=some 0x23
    · simp only [readEntries,if_pos hskip] at h
      rcases List.mem_cons.mp hl with rfl|hl
      · exact hskip.elim Or.inl (fun hh => Or.inr (Or.inl hh))
      · exact ih h l hl
    · by_cases hmatch : advisoryMatch (strip line)=true
      · simp only [readEntries,if_neg hskip,if_pos hmatch] at h
        rcases List.mem_cons.mp hl with rfl|hl
        · exact Or.inr (Or.inr ((advisoryMatch_of_trimmed (strip_trimmed l)).mp hmatch))
        · exact ih h l hl
      · simp only [readEntries,if_neg hskip,if_neg hmatch] at h
        cases h

/-- A file of good lines is read as its entries. -/
theorem baseline_of_good {files : Files} {path : Str} {text : String}
    (hfile : files.content path=.ok text.toUTF8)
    (hgood : ∀ line∈splitlines (str text),GoodLine line) :
    ∃ entries,baseline files path=.ok entries ∧
      ∀ entry,entry∈entries ↔ EntryOf (splitlines (str text)) entry := by
  obtain ⟨entries,hr,hm⟩ := readEntries_of_good path 1 ∅ hgood
  refine ⟨entries,?_,fun e => ?_⟩
  · simp only [baseline,readText_text hfile,splitlines_universalNewlines,hr]
  · rw [hm]
    simp only [Finset.notMem_empty,false_or]

/-- Only a file of good lines is read. -/
theorem good_of_baseline {files : Files} {path : Str} {entries : Finset Str}
    (h : baseline files path=.ok entries) :
    ∃ text : String,files.content path=.ok text.toUTF8 ∧
      ∀ line∈splitlines (str text),GoodLine line := by
  unfold baseline at h
  split at h
  · cases h
  · cases h
  · rename_i t ht
    obtain ⟨text,hfile,rfl⟩ := readText_eq_ok ht
    rw [splitlines_universalNewlines] at h
    split at h
    · cases h
    · rename_i found hr
      exact ⟨text,hfile,good_of_readEntries hr⟩

/-- Every entry of a baseline that can be read has the identifier shape. -/
theorem shape_of_baseline {files : Files} {path : Str} {entries : Finset Str}
    (h : baseline files path=.ok entries) : ∀ entry∈entries,AdvisoryShape entry := by
  obtain ⟨text,hfile,hgood⟩ := good_of_baseline h
  obtain ⟨entries',hb,hm⟩ := baseline_of_good hfile hgood
  rw [h] at hb
  cases hb
  intro e he
  obtain ⟨line,hl,rfl,hne,hhash⟩ := (hm e).mp he
  rcases hgood line hl with hg|hg|hg
  · exact absurd hg hne
  · exact absurd hg hhash
  · exact hg

/-- The comparison answers zero exactly when the baseline covers the report. -/
theorem comparing_zero_iff (py : Interp) (files : Files) (known : Str) (current : List Str) :
    (comparing py files known current).result=.ok 0 ↔
      ∃ entries,baseline files known=.ok entries ∧ ∀ identifier∈current,identifier∈entries := by
  unfold comparing
  split
  · rename_i error hb
    simp only [hb,reduceCtorEq,false_and,exists_false,Except.ok.injEq,one_ne_zero]
  · rename_i raised hne hb
    simp only [hb,reduceCtorEq,false_and,exists_false]
  · rename_i entries hb
    have hempty : sorted (current.toFinset\entries)=[] ↔
        ∀ identifier∈current,identifier∈entries := by
      rw [←sorted_empty,sorted_injective.eq_iff,Finset.sdiff_eq_empty_iff_subset]
      simp only [Finset.subset_iff,List.mem_toFinset]
    constructor
    · intro h
      refine ⟨entries,hb,hempty.mp ?_⟩
      by_contra hne
      simp only [if_neg hne] at h
      cases h
    · rintro ⟨entries',hb',hall⟩
      rw [hb] at hb'
      cases hb'
      simp only [if_pos (hempty.mpr hall)]

/-- The comparison touches no file. -/
theorem comparing_files (py : Interp) (files : Files) (known : Str) (current : List Str) :
    (comparing py files known current).files=files := by
  unfold comparing
  split
  · rfl
  · rfl
  · dsimp only
    split <;> rfl

/-- The run on two positional arguments, wherever the flag stands. -/
theorem main_eq {py : Interp} {files : Files} {argv : List Str} {known report : Str}
    (h : argv.filter (fun item => item≠acceptFlag)=[known,report]) :
    main py files argv=
      match readReport py files report with
      | .error raised =>
        match caught py raised with
        | some message => ⟨.ok 1,files,[],[report++str ": "++message]⟩
        | none => ⟨.error raised,files,[],[]⟩
      | .ok current =>
        if acceptFlag∈argv then accepting files known current
        else comparing py files known current := by
  unfold main
  generalize argv.filter (fun item => item≠acceptFlag)=positional at h
  subst h
  rfl

/-- The positional arguments of a plain run. -/
theorem main_plain (py : Interp) (files : Files) {known report : Str} (hk : known≠acceptFlag)
    (hr : report≠acceptFlag) :
    main py files [known,report]=
      match readReport py files report with
      | .error raised =>
        match caught py raised with
        | some message => ⟨.ok 1,files,[],[report++str ": "++message]⟩
        | none => ⟨.error raised,files,[],[]⟩
      | .ok current => comparing py files known current := by
  have hf : [known,report].filter (fun item => item≠acceptFlag)=[known,report] := by
    simp only [ne_eq,List.filter_cons,hk,hr,not_false_eq_true,decide_true,if_true,List.filter_nil]
  have hn : acceptFlag∉[known,report] := by
    simp only [List.mem_cons,List.not_mem_nil,or_false,not_or]
    exact ⟨fun h => hk h.symm,fun h => hr h.symm⟩
  rw [main_eq hf]
  cases readReport py files report with
  | error raised => rfl
  | ok current => exact if_neg hn

/-- The report file is a text that parses to a document with these matches. -/
def ReportHolds (py : Interp) (files : Files) (report : Str) (entries : List Json) : Prop :=
  ∃ (text : String) (document : Json),files.content report=.ok text.toUTF8 ∧
    py.loads (universalNewlines (str text))=.ok document ∧ Accepts document entries

/-- A report that holds is read as its gated identifiers. -/
theorem readReport_of_holds {py : Interp} {files : Files} {report : Str} {entries : List Json}
    (h : ReportHolds py files report entries) :
    ∃ found : Finset Str,readReport py files report=.ok (sorted found) ∧
      ∀ identifier,identifier∈found ↔ GatedIn entries identifier := by
  obtain ⟨text,document,hfile,hload,hacc⟩ := h
  obtain ⟨found,ha,hm⟩ := advisories_of_accepts hacc
  exact ⟨found,by simp only [readReport,readText_text hfile,hload,ha],hm⟩

/-- Only a report that holds is read. -/
theorem holds_of_readReport {py : Interp} {files : Files} {report : Str} {current : List Str}
    (h : readReport py files report=.ok current) : ∃ entries,ReportHolds py files report entries := by
  unfold readReport at h
  split at h
  · cases h
  · rename_i t ht
    obtain ⟨text,hfile,rfl⟩ := readText_eq_ok ht
    split at h
    · cases h
    · rename_i document hload
      split at h
      · cases h
      · rename_i current' ha
        obtain ⟨entries,hacc⟩ := accepts_of_advisories ha
        exact ⟨entries,text,document,hfile,hload,hacc⟩

/-- A report file holds one list of matches. -/
theorem ReportHolds.unique {py : Interp} {files : Files} {report : Str}
    {entries others : List Json} (h : ReportHolds py files report entries)
    (g : ReportHolds py files report others) : entries=others := by
  obtain ⟨text,document,hfile,hload,hacc⟩ := h
  obtain ⟨text',document',hfile',hload',hacc'⟩ := g
  have hbytes : text.toUTF8=text'.toUTF8 := Except.ok.inj (hfile.symm.trans hfile')
  have htext : text=text' := String.toByteArray_inj.mp hbytes
  subst htext
  have hdoc : document=document' := Except.ok.inj (hload.symm.trans hload')
  subst hdoc
  exact hacc.unique hacc'

/-- The gate, whatever the files hold: zero exactly when the report holds and
a readable baseline covers its gated identifiers. -/
theorem main_zero_iff (py : Interp) (files : Files) {known report : Str} (hk : known≠acceptFlag)
    (hr : report≠acceptFlag) :
    (main py files [known,report]).result=.ok 0 ↔
      ∃ entries,ReportHolds py files report entries ∧
        ∃ listed,baseline files known=.ok listed ∧
          ∀ identifier,GatedIn entries identifier → identifier∈listed := by
  rw [main_plain py files hk hr]
  cases hread : readReport py files report with
  | error raised =>
    constructor
    · intro h
      dsimp only at h
      split at h <;> cases h
    · rintro ⟨entries,hh,-⟩
      obtain ⟨found,hf,-⟩ := readReport_of_holds hh
      rw [hread] at hf
      cases hf
  | ok current =>
    obtain ⟨entries,hh⟩ := holds_of_readReport hread
    obtain ⟨found,hf,hm⟩ := readReport_of_holds hh
    rw [hread] at hf
    cases hf
    rw [comparing_zero_iff]
    constructor
    · rintro ⟨listed,hb,hall⟩
      exact ⟨entries,hh,listed,hb,fun i hi => hall i (mem_sorted.mpr ((hm i).mpr hi))⟩
    · rintro ⟨entries',hh',listed,hb,hall⟩
      rw [hh'.unique hh] at hall
      exact ⟨listed,hb,fun i hi => hall i ((hm i).mp (mem_sorted.mp hi))⟩

/-- A plain run touches no file. -/
theorem main_plain_files (py : Interp) (files : Files) {known report : Str}
    (hk : known≠acceptFlag) (hr : report≠acceptFlag) :
    (main py files [known,report]).files=files := by
  rw [main_plain py files hk hr]
  split
  · split <;> rfl
  · exact comparing_files py files known _

/-- A parser that answers every text with a value or a decode error. -/
def ParserTotal (py : Interp) : Prop :=
  ∀ text,(∃ document,py.loads text=.ok document) ∨ ∃ message,py.loads text=.error (.decode message)

/-- A file that is absent or holds a text, as opposed to invalid bytes. -/
def TextOrAbsent (files : Files) (path : Str) : Prop :=
  (∃ message,files.content path=.error (.os message)) ∨
    ∃ text : String,files.content path=.ok text.toUTF8

/-- Between files that hold texts, a plain run answers zero or one. -/
theorem main_plain_code {py : Interp} (htotal : ParserTotal py) {files : Files}
    {known report : Str} (hk : known≠acceptFlag) (hr : report≠acceptFlag) (hreport : TextOrAbsent files report)
    (hknown : TextOrAbsent files known) :
    (main py files [known,report]).result=.ok 0 ∨ (main py files [known,report]).result=.ok 1 := by
  rw [main_plain py files hk hr]
  cases hread : readReport py files report with
  | error raised =>
    right
    have hcaught : ∃ message,caught py raised=some message := by
      rcases hreport with ⟨message,h⟩|⟨text,h⟩
      · simp only [readReport,readText_absent h] at hread
        cases hread
        exact ⟨message,rfl⟩
      · simp only [readReport,readText_text h] at hread
        rcases htotal (universalNewlines (str text)) with ⟨document,hload⟩|⟨message,hload⟩
        · rw [hload] at hread
          dsimp only at hread
          split at hread
          · cases hread
            exact ⟨_,rfl⟩
          · cases hread
        · rw [hload] at hread
          cases hread
          exact ⟨_,rfl⟩
    obtain ⟨message,hm⟩ := hcaught
    simp only [hm]
  | ok current =>
    dsimp only
    unfold comparing
    split
    · exact Or.inr rfl
    · rename_i raised hne hb
      exfalso
      rcases hknown with ⟨message,h⟩|⟨text,h⟩
      · simp only [baseline,readText_absent h] at hb
        exact hne _ (Except.error.inj hb).symm
      · simp only [baseline,readText_text h] at hb
        split at hb
        · exact hne _ (Except.error.inj hb).symm
        · cases hb
    · dsimp only
      split
      · exact Or.inl rfl
      · exact Or.inr rfl

/-- Two lists of matches that the gate cannot tell apart: they have the same
entries, up to order, repetition and well-formed matches of other severities. -/
def SameMatches (entries others : List Json) : Prop :=
  ∀ entry,(entry∈entries ↔ entry∈others) ∨ ∃ finding,Reads entry finding ∧ finding.severity∉gated

/-- Two baseline files that differ at most in entries the report does not gate. -/
def SameBaseline (files others : Files) (known : Str) (entries : List Json) : Prop :=
  files.content known=others.content known ∨
    ∃ text text' : String,files.content known=.ok text.toUTF8 ∧
      others.content known=.ok text'.toUTF8 ∧
      (∀ line∈splitlines (str text),GoodLine line) ∧
      (∀ line∈splitlines (str text'),GoodLine line) ∧
      ∀ identifier,GatedIn entries identifier →
        (EntryOf (splitlines (str text)) identifier ↔ EntryOf (splitlines (str text')) identifier)

/-- Indistinguishable matches gate the same identifiers. -/
theorem gatedIn_congr {entries others : List Json} (h : SameMatches entries others)
    (identifier : Str) : GatedIn entries identifier ↔ GatedIn others identifier := by
  have hone : ∀ {a b : List Json},SameMatches a b → GatedIn a identifier → GatedIn b identifier := by
    rintro a b hab ⟨entry,he,finding,hf,hsev,hid⟩
    refine ⟨entry,?_,finding,hf,hsev,hid⟩
    rcases hab entry with hmem|⟨other,ho,hout⟩
    · exact hmem.mp he
    · rw [hf.unique ho] at hsev
      exact absurd hsev hout
  constructor
  · exact hone h
  · exact hone (fun e => (h e).imp Iff.symm id)

/-- Indistinguishable matches are readable together. -/
theorem wellFormed_congr {entries others : List Json} (h : SameMatches entries others)
    (hw : ∀ entry∈entries,WellFormed entry) : ∀ entry∈others,WellFormed entry := by
  intro entry he
  rcases h entry with hmem|⟨finding,hf,-⟩
  · exact hw entry (hmem.mpr he)
  · exact ⟨finding,hf⟩

/-- A file of good lines is read alike wherever the report looks. -/
theorem covered_congr {files others : Files} {known : Str} {entries : List Json}
    (h : SameBaseline files others known entries)
    (hc : ∃ listed,baseline files known=.ok listed ∧
      ∀ identifier,GatedIn entries identifier → identifier∈listed) :
    ∃ listed,baseline others known=.ok listed ∧
      ∀ identifier,GatedIn entries identifier → identifier∈listed := by
  obtain ⟨listed,hb,hall⟩ := hc
  rcases h with h|⟨text,text',hfile,hfile',-,hgood',hsame⟩
  · have hread : readText (ε:=FindingsError) files known=readText others known := by
      simp only [readText,h]
    refine ⟨listed,?_,hall⟩
    rw [←hb]
    simp only [baseline,hread]
  · obtain ⟨good,hfile2⟩ := good_of_baseline hb
    obtain ⟨listed',hb',hm'⟩ := baseline_of_good hfile' hgood'
    have htext : good=text :=
      String.toByteArray_inj.mp (Except.ok.inj (hfile2.1.symm.trans hfile))
    obtain ⟨entries2,hb2,hm2⟩ := baseline_of_good hfile2.1 hfile2.2
    rw [hb] at hb2
    cases hb2
    refine ⟨listed',hb',fun i hi => (hm' i).mpr ((hsame i hi).mp ?_)⟩
    rw [←htext]
    exact (hm2 i).mp (hall i hi)

/-- The relation between baselines does not depend on which side it is read from. -/
theorem SameBaseline.symm {files others : Files} {known : Str} {entries entries' : List Json}
    (h : SameBaseline files others known entries) (hm : SameMatches entries entries') :
    SameBaseline others files known entries' := by
  rcases h with h|⟨text,text',hfile,hfile',hgood,hgood',hsame⟩
  · exact Or.inl h.symm
  · refine Or.inr ⟨text',text,hfile',hfile,hgood',hgood,fun i hi => ?_⟩
    exact (hsame i ((gatedIn_congr hm i).mpr hi)).symm

/-- The report file is a text that parses to an object whose `matches` is this
list, readable or not. -/
def MatchesOf (py : Interp) (files : Files) (report : Str) (entries : List Json) : Prop :=
  ∃ (text : String) (fields : List (Str×Json)),files.content report=.ok text.toUTF8 ∧
    py.loads (universalNewlines (str text))=.ok (.dict fields) ∧
    get fields (str "matches")=.list entries

/-- A report holds when the entries its file lists are readable. -/
theorem MatchesOf.holds_iff {py : Interp} {files : Files} {report : Str} {entries : List Json}
    (h : MatchesOf py files report entries) {others : List Json} :
    ReportHolds py files report others ↔ others=entries ∧ ∀ entry∈entries,WellFormed entry := by
  obtain ⟨text,fields,hfile,hload,hm⟩ := h
  constructor
  · rintro ⟨text',document,hfile',hload',fields',rfl,hm',hw⟩
    have htext : text=text' := String.toByteArray_inj.mp (Except.ok.inj (hfile.symm.trans hfile'))
    subst htext
    rw [hload] at hload'
    cases hload'
    rw [hm] at hm'
    cases hm'
    exact ⟨rfl,hw⟩
  · rintro ⟨rfl,hw⟩
    exact ⟨text,.dict fields,hfile,hload,fields,rfl,hm,hw⟩

/-- A zero answer is kept by every change the gate must not see. -/
theorem zero_of_same {py : Interp} {files others : Files} {known report : Str}
    (hk : known≠acceptFlag) (hr : report≠acceptFlag) {entries entries' : List Json}
    (hm : MatchesOf py files report entries) (hm' : MatchesOf py others report entries')
    (hsame : SameMatches entries entries') (hbase : SameBaseline files others known entries)
    (h : (main py files [known,report]).result=.ok 0) :
    (main py others [known,report]).result=.ok 0 := by
  obtain ⟨held,hh,hc⟩ := (main_zero_iff py files hk hr).mp h
  obtain ⟨rfl,hw⟩ := hm.holds_iff.mp hh
  obtain ⟨listed,hb,hall⟩ := covered_congr hbase hc
  refine (main_zero_iff py others hk hr).mpr
    ⟨entries',hm'.holds_iff.mpr ⟨rfl,wellFormed_congr hsame hw⟩,listed,hb,fun i hi => ?_⟩
  exact hall i ((gatedIn_congr hsame i).mpr hi)

/-- Gate exactness. Without `--accept` the answer is zero exactly when the
report is accepted, the baseline is good line by line and lists every gated
identifier; it is one otherwise; no file changes; and no reordering,
repetition, ungated match or unneeded baseline entry changes the answer. -/
theorem gate_exact {py : Interp} (htotal : ParserTotal py) (files : Files) {known report : Str}
    (hk : known≠acceptFlag) (hr : report≠acceptFlag) {reportText : String}
    (hreport : files.content report=.ok reportText.toUTF8) (hknown : TextOrAbsent files known) :
    ((main py files [known,report]).result=.ok 0 ↔
      (∃ document entries,py.loads (universalNewlines (str reportText))=.ok document ∧
        Accepts document entries ∧
        ∃ text : String,files.content known=.ok text.toUTF8 ∧
          (∀ line∈splitlines (str text),GoodLine line) ∧
          ∀ identifier,GatedIn entries identifier →
            EntryOf (splitlines (str text)) identifier)) ∧
    ((main py files [known,report]).result≠.ok 0 → (main py files [known,report]).result=.ok 1) ∧
    (main py files [known,report]).files=files ∧
    ∀ (others : Files) (entries entries' : List Json),MatchesOf py files report entries →
      MatchesOf py others report entries' → SameMatches entries entries' →
      SameBaseline files others known entries →
      (main py others [known,report]).result=(main py files [known,report]).result := by
  have hcode := main_plain_code htotal hk hr (Or.inr ⟨reportText,hreport⟩) hknown
  refine ⟨?_,fun hne => hcode.resolve_left hne,main_plain_files py files hk hr,?_⟩
  · rw [main_zero_iff py files hk hr]
    constructor
    · rintro ⟨entries,⟨text,document,hfile,hload,hacc⟩,listed,hb,hall⟩
      have htext : text=reportText :=
        String.toByteArray_inj.mp (Except.ok.inj (hfile.symm.trans hreport))
      subst htext
      obtain ⟨base,hbase,hgood⟩ := good_of_baseline hb
      obtain ⟨listed',hb',hm⟩ := baseline_of_good hbase hgood
      rw [hb] at hb'
      cases hb'
      exact ⟨document,entries,hload,hacc,base,hbase,hgood,fun i hi => (hm i).mp (hall i hi)⟩
    · rintro ⟨document,entries,hload,hacc,base,hbase,hgood,hall⟩
      obtain ⟨listed,hb,hm⟩ := baseline_of_good hbase hgood
      exact ⟨entries,⟨reportText,document,hreport,hload,hacc⟩,listed,hb,
        fun i hi => (hm i).mpr (hall i hi)⟩
  · intro others entries entries' hm hm' hsame hbase
    have hknown' : TextOrAbsent others known := by
      rcases hbase with h|⟨-,text',-,h,-⟩
      · simpa only [TextOrAbsent,h] using hknown
      · exact Or.inr ⟨text',h⟩
    obtain ⟨text',fields',hreport',-⟩ := id hm'
    have hcode' := main_plain_code htotal hk hr (Or.inr ⟨text',hreport'⟩) hknown'
    have hsame' : SameMatches entries' entries := fun e => (hsame e).imp Iff.symm id
    have hiff : (main py files [known,report]).result=.ok 0 ↔
        (main py others [known,report]).result=.ok 0 :=
      ⟨zero_of_same hk hr hm hm' hsame hbase,
        zero_of_same hk hr hm' hm hsame' (hbase.symm hsame)⟩
    rcases hcode with h|h
    · rw [h,hiff.mp h]
    · rcases hcode' with h'|h'
      · rw [hiff.mpr h'] at h
        cases h
      · rw [h,h']

/-- The text of a scanner report with one High match. -/
def sampleReport (identifier : String) : String :=
  "\x7b\"matches\":[\x7b\"vulnerability\":\x7b\"id\":\""++identifier++
    "\",\"severity\":\"High\"\x7d\x7d]\x7d"

/-- That report's only match. -/
def sampleMatch (identifier : String) : Json :=
  .dict [(str "vulnerability",
    .dict [(str "id",.str (str identifier)),(str "severity",.str (str "High"))])]

/-- The value that text parses to. -/
def sampleDocument (identifier : String) : Json :=
  .dict [(str "matches",.list [sampleMatch identifier])]

/-- An interpreter whose parser knows one text and refuses every other. -/
def sampleInterp (identifier : String) : Interp :=
  ⟨fun s => if s=str (sampleReport identifier) then .ok (sampleDocument identifier)
    else .error (.decode (str "Expecting value")),fun _ => []⟩

/-- A baseline `k` and a report `r`, and nothing else. -/
def sampleFiles (known identifier : String) : Files :=
  ⟨fun path => if path=str "k" then .ok known.toUTF8
    else if path=str "r" then .ok (sampleReport identifier).toUTF8
    else .error (.os (str "No such file or directory")),fun _ => none⟩

/-- The sample's match is read as its identifier at severity High. -/
theorem sampleMatch_reads {identifier : String} (h : str identifier≠[]) :
    Reads (sampleMatch identifier) ⟨str identifier,str "High",h⟩ := ⟨_,_,rfl,rfl,rfl,rfl⟩

/-- The sample gates its own identifier and no other. -/
theorem sample_gatedIn {identifier : String} (h : str identifier≠[]) (other : Str) :
    GatedIn [sampleMatch identifier] other ↔ other=str identifier := by
  rw [gatedIn_cons (sampleMatch_reads h)]
  constructor
  · rintro (⟨-,rfl⟩|hn)
    · rfl
    · exact absurd hn (gatedIn_nil other)
  · rintro rfl
    exact Or.inl ⟨List.mem_cons_of_mem _ List.mem_cons_self,rfl⟩

/-- The sample report is accepted. -/
theorem sample_accepts {identifier : String} (h : str identifier≠[]) :
    Accepts (sampleDocument identifier) [sampleMatch identifier] := by
  refine ⟨_,rfl,rfl,fun entry he => ?_⟩
  rw [List.mem_singleton.mp he]
  exact ⟨_,sampleMatch_reads h⟩

/-- The sample parser reads the sample report. -/
theorem sample_loads {identifier : String}
    (h : universalNewlines (str (sampleReport identifier))=str (sampleReport identifier)) :
    (sampleInterp identifier).loads (universalNewlines (str (sampleReport identifier)))=
      .ok (sampleDocument identifier) := by
  rw [h]
  exact if_pos rfl

/-- The sample parser answers every text. -/
theorem sample_total (identifier : String) : ParserTotal (sampleInterp identifier) := by
  intro text
  by_cases h : text=str (sampleReport identifier)
  · exact Or.inl ⟨_,if_pos h⟩
  · exact Or.inr ⟨_,if_neg h⟩

/-- The identifier of the samples has the shape of the baseline grammar. -/
theorem sample_shape : AdvisoryShape (str "CVE-2024-6387") :=
  (advisoryGrammar_iff _).mp (by decide +kernel)

/-- Their report has no carriage return. -/
theorem sample_newlines : universalNewlines (str (sampleReport "CVE-2024-6387"))=
    str (sampleReport "CVE-2024-6387") := universalNewlines_of_notMem (by decide +kernel)

theorem gate_exact_sample :
    (main (sampleInterp "CVE-2024-6387") (sampleFiles "# a header\nCVE-2024-6387\n" "CVE-2024-6387")
      [str "k",str "r"]).result=.ok 0 := by
  have hlines : splitlines (str "# a header\nCVE-2024-6387\n")=
      [str "# a header",str "CVE-2024-6387"] := by decide
  have h := (@gate_exact (sampleInterp "CVE-2024-6387") (sample_total _)
    (sampleFiles "# a header\nCVE-2024-6387\n" "CVE-2024-6387") (str "k") (str "r")
    (by decide) (by decide) (sampleReport "CVE-2024-6387") rfl (Or.inr ⟨_,rfl⟩)).1
  refine h.mpr ⟨_,_,sample_loads sample_newlines,
    sample_accepts sample_shape.ne_nil,_,rfl,?_,?_⟩
  · rw [hlines]
    intro line hl
    rcases List.mem_cons.mp hl with rfl|hl
    · exact Or.inr (Or.inl (by decide))
    · rw [List.mem_singleton.mp hl,GoodLine,sample_shape.strip_eq]
      exact Or.inr (Or.inr sample_shape)
  · intro identifier hi
    rw [hlines,(sample_gatedIn sample_shape.ne_nil identifier).mp hi]
    exact ⟨_,List.mem_cons_of_mem _ List.mem_cons_self,sample_shape.strip_eq,sample_shape.ne_nil,sample_shape.head_ne⟩

end MlopsPlatform.SupplyFindingsGate
