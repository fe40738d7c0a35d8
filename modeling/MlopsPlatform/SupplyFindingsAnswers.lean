import MlopsPlatform.SupplyFindingsAccept

/-!
# When the gate answers at all

`main` catches what its own reader raises, a decode error of the parser and an
OSError of reading. It does not catch the other exceptions: of a string that is
no path, of a report or a baseline that is not UTF-8, of a text the parser gives
up on, of writing an accepted baseline, and of printing a path that has no UTF-8
form. The runs that answer are those that meet none of them.
-/

namespace MlopsPlatform.SupplyFindingsAnswers

open TextCodec TextLines TextSorted PythonJson PythonFiles SupplyFindings SupplyFindingsGate
  SupplyFindingsAccept

/-- The positional arguments: what is left without the flag. -/
def positional (argv : List Str) : List Str := argv.filter (fun item => item≠acceptFlag)

/-- The file is there and its bytes are not UTF-8. -/
def Undecodable (files : Files) (path : Str) : Prop :=
  ∃ bytes,files.content path=.ok bytes ∧ decode bytes=none

/-- The string is no path. -/
def Pathless (files : Files) (path : Str) : Prop :=
  ∃ message,files.content path=.error (.value message)

/-- The file holds a text that the parser gives up on without a decode error. -/
def Unparsable (py : Interp) (files : Files) (path : Str) : Prop :=
  ∃ (text : String) (fault : Unparsed),files.content path=.ok text.toUTF8 ∧
    py.loads (universalNewlines (str text))=.error fault ∧ ∀ message,fault≠.decode message

/-- How the run ends once its lines are printed. Standard output is strict
UTF-8; standard error escapes what it cannot encode. -/
def printed (run : Finished FindingsError) : Except (Raised FindingsError) ℕ :=
  if run.stdout.all encodes then run.result else .error .unicodeEncode

/-- The run ends with one of the three codes of the gate. -/
def Coded (run : Finished FindingsError) : Prop :=
  ∃ code,printed run=.ok code ∧ (code=0 ∨ code=1 ∨ code=2)

/-- A run that reports a file it could not use. -/
def Reported (run : Finished FindingsError) : Prop :=
  printed run=.ok 1 ∧ ∃ message,run.stderr=[message]

/-- The gate answers on this argument vector. -/
structure Answers (py : Interp) (files : Files) (argv : List Str) : Prop where
  /-- It returns 0, 1 or 2, so no exception escapes. -/
  code : Coded (main py files argv)
  /-- A report that is not UTF-8 is reported. -/
  report : ∀ known report,positional argv=[known,report] → Undecodable files report →
    Reported (main py files argv)
  /-- So is a baseline that is compared against. -/
  baseline : ∀ known report,positional argv=[known,report] → acceptFlag∉argv →
    (∃ entries,ReportHolds py files report entries) → Undecodable files known →
    Reported (main py files argv)

/-- A usable baseline that differs from the scan in such a way that nothing is
said of it on standard output: it misses a gated identifier and lists no other. -/
def Unmentioned (files : Files) (known : Str) (entries : List Json) : Prop :=
  ∀ text : String,files.content known=.ok text.toUTF8 →
    (∀ line∈splitlines (str text),GoodLine line) →
    (∃ identifier,GatedIn entries identifier ∧ ¬EntryOf (splitlines (str text)) identifier) ∧
    ∀ identifier,EntryOf (splitlines (str text)) identifier → GatedIn entries identifier

/-- Nothing a run on these files does is left uncaught. -/
structure Manageable (py : Interp) (files : Files) (accepts : Prop) (known report : Str) : Prop where
  /-- The report is a path, and absent or UTF-8. -/
  readable : ¬Pathless files report ∧ ¬Undecodable files report
  /-- A report that is read is parsed or refused with a decode error. -/
  parsed : ¬Unparsable py files report
  /-- So is the baseline a usable report is compared against, and it can be named
  where something is said of it. -/
  comparable : ¬accepts → ∀ entries,ReportHolds py files report entries →
    ¬Pathless files known ∧ ¬Undecodable files known ∧
      (encodes known=true ∨ Unmentioned files known entries)
  /-- The baseline can be written and named, where a usable report is accepted. -/
  accepted : accepts → ∀ entries,ReportHolds py files report entries →
    files.refused known=none ∧ encodes known=true ∧
      ∀ identifier,GatedIn entries identifier → encodes identifier=true

variable {py : Interp} {files : Files} {argv : List Str} {known report : Str}

/-- A file that cannot be decoded raises UnicodeDecodeError. -/
theorem readText_undecodable (h : Undecodable files report) :
    readText (ε:=FindingsError) files report=.error .unicodeDecode := by
  obtain ⟨bytes,hbytes,hnone⟩ := h
  simp only [readText,hbytes,hnone]

/-- Any other path is read or raises OSError. -/
theorem readText_decodable (hpath : ¬Pathless files report) (h : ¬Undecodable files report) :
    (∃ text : String,files.content report=.ok text.toUTF8 ∧
      readText (ε:=FindingsError) files report=.ok (universalNewlines (str text))) ∨
      ∃ message,readText (ε:=FindingsError) files report=.error (.os message) := by
  cases hcontent : files.content report with
  | error fault =>
    cases fault with
    | os message => exact Or.inr ⟨message,readText_absent hcontent⟩
    | value message => exact absurd ⟨message,hcontent⟩ hpath
  | ok bytes =>
    cases hdecode : decode bytes with
    | none => exact absurd ⟨bytes,hcontent,hdecode⟩ h
    | some s =>
      obtain ⟨text,rfl,rfl⟩ := decode_eq_some hdecode
      exact Or.inl ⟨text,rfl,readText_text hcontent⟩

/-- What such a path raises is not caught. -/
theorem readText_uncaught (h : Pathless files report ∨ Undecodable files report) :
    ∃ raised,readText files report=.error raised ∧ caught py raised=none := by
  rcases h with ⟨message,hmessage⟩|hundecodable
  · exact ⟨_,readText_pathless hmessage,rfl⟩
  · exact ⟨_,readText_undecodable hundecodable,rfl⟩

/-- What reading the report raises is caught exactly when it is a path to no
file or to a text that is parsed or refused. -/
theorem readReport_caught_iff {raised : Raised FindingsError}
    (hread : readReport py files report=.error raised) :
    (∃ message,caught py raised=some message) ↔
      (¬Pathless files report ∧ ¬Undecodable files report) ∧ ¬Unparsable py files report := by
  by_cases hfault : Pathless files report ∨ Undecodable files report
  · obtain ⟨other,hother,hnone⟩ := @readText_uncaught py _ _ hfault
    simp only [readReport,hother,Except.error.injEq] at hread
    subst hread
    refine iff_of_false ?_ (fun h => hfault.elim h.1.1 h.1.2)
    rintro ⟨message,hmessage⟩
    rw [hnone] at hmessage
    cases hmessage
  · obtain ⟨hpath,hdecodable⟩ := not_or.mp hfault
    simp only [hpath,hdecodable,not_false_eq_true,and_self,true_and]
    rcases readText_decodable hpath hdecodable with ⟨text,hcontent,htext⟩|⟨message,hos⟩
    · have hof : ∀ fault,py.loads (universalNewlines (str text))=.error fault →
          (Unparsable py files report ↔ ∀ message,fault≠.decode message) := by
        intro fault hload
        refine ⟨?_,fun h => ⟨text,fault,hcontent,hload,h⟩⟩
        rintro ⟨text',fault',hcontent',hload',h⟩
        have htext' : text=text' :=
          String.toByteArray_inj.mp (Except.ok.inj (hcontent.symm.trans hcontent'))
        subst htext'
        cases hload.symm.trans hload'
        exact h
      cases hload : py.loads (universalNewlines (str text)) with
      | error fault =>
        simp only [readReport,htext,hload,Except.error.injEq] at hread
        subst hread
        rw [hof fault hload]
        cases fault <;> simp [unparsed,caught]
      | ok document =>
        simp only [readReport,htext,hload] at hread
        split at hread
        · cases hread
          refine iff_of_true ⟨_,rfl⟩ ?_
          rintro ⟨text',fault,hcontent',hload',-⟩
          have htext' : text=text' :=
            String.toByteArray_inj.mp (Except.ok.inj (hcontent.symm.trans hcontent'))
          subst htext'
          cases hload.symm.trans hload'
        · cases hread
    · simp only [readReport,hos,Except.error.injEq] at hread
      subst hread
      refine iff_of_true ⟨_,rfl⟩ ?_
      rintro ⟨text,fault,hcontent,-,-⟩
      rw [readText_text hcontent] at hos
      cases hos

/-- A report that is read is a path to a text that is parsed. -/
theorem readReport_readable {current : List Str} (hread : readReport py files report=.ok current) :
    (¬Pathless files report ∧ ¬Undecodable files report) ∧ ¬Unparsable py files report := by
  obtain ⟨entries,text,document,hcontent,hload,-⟩ := holds_of_readReport hread
  refine ⟨⟨?_,?_⟩,?_⟩
  · rintro ⟨message,hmessage⟩
    cases hcontent.symm.trans hmessage
  · rintro ⟨bytes,hbytes,hnone⟩
    cases hcontent.symm.trans hbytes
    rw [decode_toUTF8] at hnone
    cases hnone
  · rintro ⟨text',fault,hcontent',hload',-⟩
    have htext : text=text' :=
      String.toByteArray_inj.mp (Except.ok.inj (hcontent.symm.trans hcontent'))
    subst htext
    cases hload.symm.trans hload'

/-- A baseline that is a path to no file, or to a text, is read or refused. -/
theorem baseline_decodable (hpath : ¬Pathless files known) (h : ¬Undecodable files known) :
    (∃ (text : String) (listed : Finset Str),files.content known=.ok text.toUTF8 ∧
      (∀ line∈splitlines (str text),GoodLine line) ∧
      SupplyFindings.baseline files known=.ok listed ∧
      ∀ identifier,identifier∈listed ↔ EntryOf (splitlines (str text)) identifier) ∨
      (∃ error,SupplyFindings.baseline files known=.error (.own error)) ∧
        ∀ text : String,files.content known=.ok text.toUTF8 →
          ¬∀ line∈splitlines (str text),GoodLine line := by
  cases hbaseline : SupplyFindings.baseline files known with
  | ok listed =>
    obtain ⟨text,hcontent,hgood⟩ := good_of_baseline hbaseline
    obtain ⟨listed',hlisted',hmem⟩ := baseline_of_good hcontent hgood
    rw [hbaseline,Except.ok.injEq] at hlisted'
    subst hlisted'
    exact Or.inl ⟨text,listed,hcontent,hgood,rfl,hmem⟩
  | error raised =>
    refine Or.inr ⟨?_,fun text hcontent hgood => ?_⟩
    · unfold SupplyFindings.baseline at hbaseline
      rcases readText_decodable hpath h with ⟨text,hcontent,htext⟩|⟨message,hos⟩
      · rw [htext] at hbaseline
        dsimp only at hbaseline
        split at hbaseline
        · cases hbaseline
          exact ⟨_,rfl⟩
        · cases hbaseline
      · rw [hos] at hbaseline
        cases hbaseline
        exact ⟨_,rfl⟩
    · obtain ⟨listed,hlisted,-⟩ := baseline_of_good hcontent hgood
      rw [hbaseline] at hlisted
      cases hlisted

/-- Every entry of a readable baseline has a UTF-8 form. -/
theorem encodes_entry {lines : List Str} (hgood : ∀ line∈lines,GoodLine line) {identifier : Str}
    (h : EntryOf lines identifier) : encodes identifier=true := by
  obtain ⟨line,hline,rfl,hne,hhash⟩ := h
  rcases hgood line hline with hempty|hcomment|hshape
  · exact absurd hempty hne
  · exact absurd hcomment hhash
  · exact hshape.scalar

/-- What is joined of parts that have a UTF-8 form has one. -/
theorem encodes_separated {separator : Str} {parts : List Str} (hs : encodes separator=true)
    (h : ∀ part∈parts,encodes part=true) : encodes (join separator parts)=true := by
  induction parts with
  | nil => rfl
  | cons part parts ih =>
    cases parts with
    | nil => simpa [join,List.intercalate] using h part List.mem_cons_self
    | cons next parts =>
      have hrest := ih (fun other ho => h other (List.mem_cons_of_mem _ ho))
      have hjoin : join separator (part::next::parts)=
          part++(separator++join separator (next::parts)) := by
        simp [join,List.intercalate]
      rw [hjoin]
      exact encodes_append.mpr ⟨h part List.mem_cons_self,encodes_append.mpr ⟨hs,hrest⟩⟩

/-- So has a line about the baseline exactly when its path has one. -/
theorem encodes_named {rest : Str} (h : encodes rest=true) :
    encodes (known++rest)=true ↔ encodes known=true := by
  rw [encodes_append]
  exact and_iff_left h

/-- What is said of the entries that are no longer found can be printed exactly
when there are none or the path can be named. -/
theorem goneLines_encode_iff {gone : List Str} (h : ∀ identifier∈gone,encodes identifier=true) :
    (goneLines known gone).all encodes=true ↔ gone=[] ∨ encodes known=true := by
  unfold goneLines
  split
  · rename_i hnone
    exact iff_of_true rfl (Or.inl hnone)
  · rename_i hsome
    have hshown : encodes (join (str ", ") (gone.take 8))=true :=
      encodes_separated (encodes_str _) (fun identifier hi => h identifier (List.mem_of_mem_take hi))
    have hdots : encodes (if 8<gone.length then str " ..." else [])=true := by
      split
      · exact encodes_str _
      · rfl
    simp only [List.append_assoc,List.all_cons,List.all_nil,Bool.and_true,hsome,false_or]
    exact encodes_named (encodes_append.mpr ⟨encodes_str _,encodes_append.mpr
      ⟨encodes_str _,encodes_append.mpr ⟨encodes_str _,encodes_append.mpr ⟨hshown,hdots⟩⟩⟩⟩)

/-- A run that failed does not answer. -/
theorem not_coded_of_error {run : Finished FindingsError} {raised : Raised FindingsError}
    (h : run.result=.error raised) : ¬Coded run := by
  rintro ⟨code,hcode,-⟩
  rw [printed,h] at hcode
  split at hcode <;> cases hcode

/-- A run that ends with a code answers exactly when its lines can be printed. -/
theorem coded_iff {run : Finished FindingsError} {code : ℕ} (h : run.result=.ok code)
    (hcode : code=0 ∨ code=1 ∨ code=2) : Coded run ↔ run.stdout.all encodes=true := by
  unfold Coded printed
  rw [h]
  constructor
  · rintro ⟨other,hother,-⟩
    by_contra hno
    rw [if_neg hno] at hother
    cases hother
  · exact fun hall => ⟨code,if_pos hall,hcode⟩

/-- A comparison against a usable baseline answers exactly when the path can be
named or nothing is said of it. -/
theorem compared_iff {current : List Str} {listed : Finset Str}
    (hlisted : SupplyFindings.baseline files known=.ok listed)
    (hencodes : ∀ identifier∈listed,encodes identifier=true) :
    Coded (comparing py files known current) ↔ encodes known=true ∨
      (∃ identifier∈current,identifier∉listed) ∧ ∀ identifier∈listed,identifier∈current := by
  have hgone : ∀ identifier∈sorted (listed\current.toFinset),encodes identifier=true :=
    fun identifier hi => hencodes identifier (Finset.mem_sdiff.mp (mem_sorted.mp hi)).1
  have hempty : ∀ found : Finset Str,sorted found=[] ↔ found=∅ := by
    intro found
    rw [←sorted_empty,sorted_injective.eq_iff]
  have hrest : (sorted (listed\current.toFinset)=[]) ↔ ∀ identifier∈listed,identifier∈current := by
    rw [hempty,Finset.sdiff_eq_empty_iff_subset]
    simp only [Finset.subset_iff,List.mem_toFinset]
  have hmissing : sorted (current.toFinset\listed)=[] ↔ ¬∃ identifier∈current,identifier∉listed := by
    rw [hempty,Finset.sdiff_eq_empty_iff_subset]
    simp only [Finset.subset_iff,List.mem_toFinset,not_exists,not_and,not_not]
  by_cases hunknown : sorted (current.toFinset\listed)=[]
  · have hrun : comparing py files known current=⟨.ok 0,files,
        goneLines known (sorted (listed\current.toFinset))++
        [known++str ": "++digits current.length++str " advisories, all baselined"],[]⟩ := by
      simp only [comparing,hlisted,if_pos hunknown]
    have hlast : encodes (known++str ": "++digits current.length++
        str " advisories, all baselined")=true ↔ encodes known=true := by
      simp only [List.append_assoc]
      exact encodes_named (encodes_append.mpr ⟨encodes_str _,
        encodes_append.mpr ⟨encodes_str _,encodes_str _⟩⟩)
    rw [hrun,coded_iff rfl (Or.inl rfl),List.all_append,Bool.and_eq_true,
      goneLines_encode_iff hgone,List.all_cons,List.all_nil,Bool.and_true,hlast]
    have hnone := hmissing.mp hunknown
    constructor
    · exact fun h => Or.inl h.2
    · rintro (h|h)
      · exact ⟨Or.inr h,h⟩
      · exact absurd h.1 hnone
  · have hcode : (comparing py files known current).result=.ok 1 := by
      simp only [comparing,hlisted,if_neg hunknown]
    have hstdout : (comparing py files known current).stdout=
        goneLines known (sorted (listed\current.toFinset)) := by
      simp only [comparing,hlisted,if_neg hunknown]
    have hsome := not_not.mp (mt hmissing.mpr hunknown)
    rw [coded_iff hcode (Or.inr (Or.inl rfl)),hstdout,goneLines_encode_iff hgone,hrest]
    constructor
    · rintro (h|h)
      · exact Or.inr ⟨hsome,h⟩
      · exact Or.inl h
    · exact fun h => h.symm.imp And.right id

/-- What reading the baseline raises escapes, unless it is an OSError. -/
theorem comparing_uncaught {current : List Str}
    (h : Pathless files known ∨ Undecodable files known) :
    ∃ raised,(comparing py files known current).result=.error raised := by
  rcases h with ⟨message,hmessage⟩|hundecodable
  · have hbaseline : SupplyFindings.baseline files known=.error (.value message) := by
      simp only [SupplyFindings.baseline,readText_pathless hmessage]
    exact ⟨_,by simp only [comparing,hbaseline]; rfl⟩
  · have hbaseline : SupplyFindings.baseline files known=.error .unicodeDecode := by
      simp only [SupplyFindings.baseline,readText_undecodable hundecodable]
    exact ⟨_,by simp only [comparing,hbaseline]; rfl⟩

/-- The comparison answers exactly when the baseline is a path, to no file or to
a text, that can be named where something is said of it. -/
theorem comparing_coded_iff {current : List Str} {entries : List Json}
    (hcurrent : ∀ identifier,identifier∈current ↔ GatedIn entries identifier) :
    Coded (comparing py files known current) ↔ ¬Pathless files known ∧ ¬Undecodable files known ∧
      (encodes known=true ∨ Unmentioned files known entries) := by
  by_cases hfault : Pathless files known ∨ Undecodable files known
  · obtain ⟨raised,hcomparing⟩ := @comparing_uncaught py _ _ current hfault
    exact iff_of_false (not_coded_of_error hcomparing) (fun h => hfault.elim h.1 h.2.1)
  · obtain ⟨hpath,hdecodable⟩ := not_or.mp hfault
    simp only [hpath,hdecodable,not_false_eq_true,true_and]
    rcases baseline_decodable hpath hdecodable with
      ⟨text,listed,hcontent,hgood,hlisted,hmem⟩|⟨⟨error,herror⟩,hbad⟩
    · have hencodes : ∀ identifier∈listed,encodes identifier=true :=
        fun identifier hi => encodes_entry hgood ((hmem identifier).mp hi)
      rw [compared_iff hlisted hencodes]
      refine or_congr Iff.rfl ?_
      simp only [hcurrent,hmem]
      constructor
      · intro h text' hcontent' _
        have htext : text=text' :=
          String.toByteArray_inj.mp (Except.ok.inj (hcontent.symm.trans hcontent'))
        subst htext
        exact h
      · exact fun h => h text hcontent hgood
    · have hrun : comparing py files known current=⟨.ok 1,files,[],[error.message py]⟩ := by
        simp only [comparing,herror]
      rw [hrun,coded_iff rfl (Or.inr (Or.inl rfl))]
      exact iff_of_true rfl (Or.inr (fun text hcontent hgood => absurd hgood (hbad text hcontent)))

/-- The acceptance answers exactly when the baseline can be written and named. -/
theorem accepting_coded_iff {current : List Str} :
    Coded (accepting files known current) ↔ files.refused known=none ∧ encodes known=true ∧
      ∀ identifier∈current,encodes identifier=true := by
  have hfail : ∀ {raised : Raised FindingsError} {after : Files},
      writeText files known (baselineText current)=(.error raised,after) →
      ¬Coded (accepting files known current) := by
    intro raised after hw
    refine @not_coded_of_error _ raised ?_
    simp only [accepting,write,hw]
  rcases writeText_cases (ε:=FindingsError) files known (baselineText current) with
    ⟨hrefused,message,hw⟩|⟨hopen,hbad,hw⟩|⟨hgood,bytes,hw⟩
  · exact iff_of_false (hfail hw) (fun h => hrefused h.1)
  · exact iff_of_false (hfail hw) (fun h => hbad (encodes_baselineText.mpr h.2.2))
  · have hopen : files.refused known=none := by
      cases hr : files.refused known with
      | none => rfl
      | some message =>
        simp only [writeText,hr] at hw
        cases hw
    have hrun : accepting files known current=⟨.ok 0,files.put known bytes,
        [known++str ": "++digits current.length++str " advisories written as the baseline"],[]⟩ := by
      simp only [accepting,write,hw]
    have hline : encodes (known++str ": "++digits current.length++
        str " advisories written as the baseline")=true ↔ encodes known=true := by
      simp only [List.append_assoc]
      exact encodes_named (encodes_append.mpr ⟨encodes_str _,
        encodes_append.mpr ⟨encodes_str _,encodes_str _⟩⟩)
    rw [hrun,coded_iff rfl (Or.inl rfl),List.all_cons,List.all_nil,Bool.and_true,hline]
    exact ⟨fun h => ⟨hopen,h,encodes_baselineText.mp hgood⟩,fun h => h.2.1⟩

/-- A run on two paths answers with a code exactly when nothing is left uncaught. -/
theorem coded_main_iff (h : positional argv=[known,report]) :
    Coded (main py files argv) ↔ Manageable py files (acceptFlag∈argv) known report := by
  rw [main_eq h]
  cases hread : readReport py files report with
  | error raised =>
    have hcaught := readReport_caught_iff hread
    have hnone : ∀ entries,¬ReportHolds py files report entries := by
      intro entries hholds
      obtain ⟨found,hfound,-⟩ := readReport_of_holds hholds
      rw [hread] at hfound
      cases hfound
    dsimp only
    cases hmessage : caught py raised with
    | none =>
      rw [hmessage] at hcaught
      refine iff_of_false (@not_coded_of_error _ raised rfl) (fun hm => ?_)
      obtain ⟨message,hsome⟩ := hcaught.mpr ⟨hm.readable,hm.parsed⟩
      cases hsome
    | some message =>
      obtain ⟨hreadable,hparsed⟩ := hcaught.mp ⟨message,hmessage⟩
      exact iff_of_true ((coded_iff rfl (Or.inr (Or.inl rfl))).mpr rfl) ⟨hreadable,hparsed,
        fun _ entries hholds => absurd hholds (hnone entries),
        fun _ entries hholds => absurd hholds (hnone entries)⟩
  | ok current =>
    obtain ⟨hreadable,hparsed⟩ := readReport_readable hread
    obtain ⟨entries,hholds⟩ := holds_of_readReport hread
    obtain ⟨found,hfound,hgated⟩ := readReport_of_holds hholds
    rw [hread,Except.ok.injEq] at hfound
    have hcurrent : ∀ identifier,identifier∈current ↔ GatedIn entries identifier := by
      intro identifier
      rw [hfound,mem_sorted,hgated]
    dsimp only
    by_cases haccept : acceptFlag∈argv
    · rw [if_pos haccept,accepting_coded_iff]
      constructor
      · rintro ⟨hopen,hnamed,hall⟩
        refine ⟨hreadable,hparsed,fun hno => absurd haccept hno,fun _ others hothers => ?_⟩
        rw [hothers.unique hholds]
        exact ⟨hopen,hnamed,fun i hi => hall i ((hcurrent i).mpr hi)⟩
      · intro hm
        obtain ⟨hopen,hnamed,hall⟩ := hm.accepted haccept entries hholds
        exact ⟨hopen,hnamed,fun i hi => hall i ((hcurrent i).mp hi)⟩
    · rw [if_neg haccept,comparing_coded_iff hcurrent]
      constructor
      · intro hknown
        refine ⟨hreadable,hparsed,fun _ others hothers => ?_,fun hyes => absurd hyes haccept⟩
        rw [hothers.unique hholds]
        exact hknown
      · exact fun hm => hm.comparable haccept entries hholds

/-- A report of one byte that starts no UTF-8 sequence, and no baseline. -/
def brokenFiles : Files :=
  ⟨fun path => if path=str "r" then .ok ⟨#[0xff]⟩ else .error (.os (str "No such file or directory")),
    fun _ => none⟩

/-- An interpreter whose parser refuses every text. -/
def refusingInterp : Interp := ⟨fun _ => .error (.decode (str "Expecting value")),fun _ => []⟩

end MlopsPlatform.SupplyFindingsAnswers
