import MlopsPlatform.SupplyFindingsGate
import MlopsPlatform.StateRuns

/-!
# Accepting a scan and the histories of one baseline file

An accept writes the header and the report's gated identifiers. The line
reader inverts that text exactly when every identifier has the shape it asks
for; `advisories` asks for less. Over a history of plain and accepting runs
the file is, from the first successful accept on, the text of the last one.
-/

namespace MlopsPlatform.SupplyFindingsAccept

open TextCodec TextLines TextStrip TextSorted PythonJson PythonFiles SupplyAdvisory
open SupplyFindings SupplyFindingsGate StateRuns

/-- A text that opens with a number sign is a comment, whatever follows. -/
theorem comment_append (rest : List Char) (more : Str) :
    (strip (str (String.ofList ('#'::rest))++more)).head?=some 0x23 := by
  rw [str,String.toList_ofList,List.map_cons,List.cons_append]
  exact strip_head (by decide) _

/-- A literal that opens with a number sign is a comment. -/
theorem comment_literal (rest : List Char) :
    (strip (str (String.ofList ('#'::rest)))).head?=some 0x23 := by
  have h := comment_append rest []
  rwa [List.append_nil] at h

/-- Every header line is a comment, whatever severities it names. -/
theorem headerLines_comment (severities : Str) :
    ∀ line∈headerLines severities,(strip line).head?=some 0x23 := by
  simp only [headerLines,List.forall_mem_cons,List.append_assoc]
  exact ⟨comment_literal _,comment_literal _,comment_literal _,comment_literal _,
    comment_literal _,comment_literal _,comment_append _ _,fun _ h => absurd h List.not_mem_nil⟩

/-- Every header line is one line. -/
theorem headerLines_lineFree :
    ∀ line∈headerLines (join (str ", ") gated),LineFree line := by
  simp only [headerLines,List.forall_mem_cons]
  refine ⟨lineFree_literal _ rfl,lineFree_literal _ rfl,lineFree_literal _ rfl,
    lineFree_literal _ rfl,lineFree_literal _ rfl,lineFree_literal _ rfl,?_,
    fun _ h => absurd h List.not_mem_nil⟩
  have hgated : LineFree (join (str ", ") gated) := by
    have htext : join (str ", ") gated=str "Critical, High" := by decide
    rw [htext]
    exact lineFree_literal _ rfl
  exact lineFree_append.mpr ⟨lineFree_append.mpr ⟨lineFree_literal _ rfl,hgated⟩,
    lineFree_literal _ rfl⟩

/-- The lines of a written baseline whose identifiers fit on one line each. -/
theorem splitlines_baselineText {identifiers : List Str}
    (hl : ∀ identifier∈identifiers,LineFree identifier) :
    splitlines (baselineText identifiers)=headerLines (join (str ", ") gated)++
      if identifiers=[] then [[]] else identifiers := by
  rw [baselineText,header,splitlines_flatMap headerLines_lineFree,splitlines_join hl]

/-- A written list of well-shaped identifiers is a baseline of good lines. -/
theorem good_baselineText {identifiers : List Str}
    (hs : ∀ identifier∈identifiers,AdvisoryShape identifier) :
    ∀ line∈splitlines (baselineText identifiers),GoodLine line := by
  intro line hl
  rw [splitlines_baselineText (fun i hi => (hs i hi).lineFree),List.mem_append] at hl
  rcases hl with hl|hl
  · exact Or.inr (Or.inl (headerLines_comment _ line hl))
  · split at hl
    · rw [List.mem_singleton.mp hl]
      exact Or.inl rfl
    · rw [GoodLine,(hs line hl).strip_eq]
      exact Or.inr (Or.inr (hs line hl))

/-- Its entries are exactly the identifiers written. -/
theorem entryOf_baselineText {identifiers : List Str}
    (hs : ∀ identifier∈identifiers,AdvisoryShape identifier) (entry : Str) :
    EntryOf (splitlines (baselineText identifiers)) entry ↔ entry∈identifiers := by
  rw [splitlines_baselineText (fun i hi => (hs i hi).lineFree)]
  constructor
  · rintro ⟨line,hl,rfl,hne,hhash⟩
    rcases List.mem_append.mp hl with hl|hl
    · exact absurd (headerLines_comment _ line hl) hhash
    · split at hl
      · rw [List.mem_singleton.mp hl] at hne
        exact absurd rfl hne
      · rw [(hs line hl).strip_eq]
        exact hl
  · intro he
    have hne : identifiers≠[] := List.ne_nil_of_mem he
    refine ⟨entry,List.mem_append_right _ ?_,(hs entry he).strip_eq,(hs entry he).ne_nil,
      (hs entry he).head_ne⟩
    rw [if_neg hne]
    exact he

/-- A file that holds a written list of well-shaped identifiers reads as them. -/
theorem baseline_baselineText {files : Files} {path : Str} {identifiers : List Str}
    {text : String} (hfile : files.content path=.ok text.toUTF8)
    (htext : str text=baselineText identifiers)
    (hs : ∀ identifier∈identifiers,AdvisoryShape identifier) :
    ∃ listed,baseline files path=.ok listed ∧ ∀ entry,entry∈listed ↔ entry∈identifiers := by
  have hgood : ∀ line∈splitlines (str text),GoodLine line := by
    rw [htext]
    exact good_baselineText hs
  obtain ⟨listed,hb,hm⟩ := baseline_of_good hfile hgood
  refine ⟨listed,hb,fun e => ?_⟩
  rw [hm,htext,entryOf_baselineText hs]

/-- Every header line has a UTF-8 form. -/
theorem headerLines_scalar :
    ∀ line∈headerLines (join (str ", ") gated),line.all isScalar=true := by
  have htext : join (str ", ") gated=str "Critical, High" := by decide
  simp only [headerLines,List.forall_mem_cons,htext,←str_append]
  exact ⟨str_scalar _,str_scalar _,str_scalar _,str_scalar _,str_scalar _,str_scalar _,
    str_scalar _,fun _ h => absurd h List.not_mem_nil⟩

/-- So has the header. -/
theorem header_encodes : encodes header=true := by
  have hlf : encodes [lf]=true := by decide
  rw [header,encodes,List.all_flatMap,List.all_eq_true]
  exact fun line hl => encodes_append.mpr ⟨headerLines_scalar line hl,hlf⟩

/-- The text of a baseline has a UTF-8 form when its identifiers have one. -/
theorem encodes_baselineText {identifiers : List Str} :
    encodes (baselineText identifiers)=true ↔ ∀ i∈identifiers,encodes i=true := by
  rw [baselineText,encodes_append,encodes_join]
  exact and_iff_right header_encodes

/-- An accepting run, wherever the flag stands. -/
theorem accept_eq {py : Interp} {files : Files} {argv : List Str} {known report : Str}
    (hflag : acceptFlag∈argv) (hargv : argv.filter (fun item => item≠acceptFlag)=[known,report]) :
    main py files argv=
      match readReport py files report with
      | .error raised =>
        match caught py raised with
        | some message => ⟨.ok 1,files,[],[report++str ": "++message]⟩
        | none => ⟨.error raised,files,[],[]⟩
      | .ok current => accepting files known current := by
  rw [main_eq hargv]
  cases readReport py files report with
  | error raised => rfl
  | ok current => exact if_pos hflag

/-- The positional arguments of an accepting run. -/
theorem positional_accept {known report : Str} (hk : known≠acceptFlag) (hr : report≠acceptFlag) :
    [acceptFlag,known,report].filter (fun item => item≠acceptFlag)=[known,report] := by
  simp only [ne_eq,List.filter_cons,hk,hr,not_true_eq_false,not_false_eq_true,decide_true,
    decide_false,Bool.false_eq_true,if_true,if_false,List.filter_nil]

/-- What an accepting run can do: refuse and change nothing, write the gated
identifiers and answer zero, or fail while writing. -/
inductive Accepted (py : Interp) (files : Files) (known report : Str) : Prop where
  /-- The report does not hold; no file changes. -/
  | refused (unheld : ∀ entries,¬ReportHolds py files report entries)
      (code : (main py files [acceptFlag,known,report]).result≠.ok 0)
      (same : (main py files [acceptFlag,known,report]).files=files)
  /-- The baseline is the text of the report's gated identifiers. -/
  | written (entries : List Json) (holds : ReportHolds py files report entries)
      (found : Finset Str) (members : ∀ identifier,identifier∈found ↔ GatedIn entries identifier)
      (text : String) (textOf : str text=baselineText (sorted found))
      (code : (main py files [acceptFlag,known,report]).result=.ok 0)
      (after : (main py files [acceptFlag,known,report]).files=files.put known text.toUTF8)
  /-- The write fails: the path is refused, or an identifier has no UTF-8 form. -/
  | failed (entries : List Json) (holds : ReportHolds py files report entries)
      (cause : (files.refused known≠none ∧
          (main py files [acceptFlag,known,report]).files=files) ∨
        ∃ identifier,GatedIn entries identifier ∧ identifier.all isScalar≠true)
      (code : (main py files [acceptFlag,known,report]).result≠.ok 0)

/-- A baseline that is not written cannot be opened, or one of its identifiers
has no UTF-8 form. -/
theorem unwritten_cause {files after : Files} {path : Str} {identifiers : List Str}
    {raised : Raised FindingsError}
    (h : writeText files path (baselineText identifiers)=(.error raised,after)) :
    (files.refused path≠none ∧ after=files) ∨ ∃ i∈identifiers,¬i.all isScalar=true := by
  rcases writeText_cases (ε:=FindingsError) files path (baselineText identifiers) with
    ⟨hrefused,message,hw⟩|⟨-,hencodes,-⟩|⟨-,bytes,hw⟩
  · rw [hw] at h
    cases h
    exact Or.inl ⟨hrefused,rfl⟩
  · right
    by_contra hall
    refine hencodes (encodes_baselineText.mpr (fun i hi => ?_))
    by_contra hne
    exact hall ⟨i,hi,hne⟩
  · rw [hw] at h
    cases h

/-- Every accepting run does one of the three. -/
theorem accepted_cases (py : Interp) (files : Files) {known report : Str} (hk : known≠acceptFlag)
    (hr : report≠acceptFlag) : Accepted py files known report := by
  have hmain := @accept_eq py files _ _ _ List.mem_cons_self (positional_accept hk hr)
  cases hread : readReport py files report with
  | error raised =>
    rw [hread] at hmain
    have hnone : ∀ entries,¬ReportHolds py files report entries := by
      intro entries hh
      obtain ⟨found,hf,-⟩ := readReport_of_holds hh
      rw [hread] at hf
      cases hf
    cases hc : caught py raised with
    | some message =>
      simp only [hc] at hmain
      exact .refused hnone (by rw [hmain]; exact fun h => by cases h) (by rw [hmain])
    | none =>
      simp only [hc] at hmain
      exact .refused hnone (by rw [hmain]; exact fun h => by cases h) (by rw [hmain])
  | ok current =>
    obtain ⟨entries,hh⟩ := holds_of_readReport hread
    obtain ⟨found,hf,hm⟩ := readReport_of_holds hh
    rw [hread] at hf
    cases hf
    rw [hread] at hmain
    dsimp only [accepting,write] at hmain
    cases hw : writeText (ε:=FindingsError) files known (baselineText (sorted found)) with
    | mk outcome after =>
      cases outcome with
      | ok written =>
        obtain ⟨text,htext,rfl⟩ := writeText_eq_ok hw
        rw [hw] at hmain
        exact .written entries hh found hm text htext.symm (by rw [hmain]) (by rw [hmain])
      | error raised =>
        rw [hw] at hmain
        have hcode : (main py files [acceptFlag,known,report]).result≠.ok 0 := by
          rw [hmain]
          exact fun h => by cases h
        refine .failed entries hh ?_ hcode
        refine (unwritten_cause hw).imp ?_ ?_
        · rintro ⟨hrefused,rfl⟩
          exact ⟨hrefused,by rw [hmain]⟩
        · rintro ⟨i,hi,hne⟩
          exact ⟨i,(hm i).mp (mem_sorted.mp hi),hne⟩

/-- After a successful accept, a plain run on the same report answers zero
only if every gated identifier has the shape the reader asks for. -/
theorem shape_of_pass {py : Interp} {after : Files} {known report : Str} (hk : known≠acceptFlag)
    (hr : report≠acceptFlag) {entries : List Json} (hh : ReportHolds py after report entries)
    (hpass : (main py after [known,report]).result=.ok 0) :
    ∀ identifier,GatedIn entries identifier → AdvisoryShape identifier := by
  obtain ⟨held,hh',listed,hb,hall⟩ := (main_zero_iff py after hk hr).mp hpass
  rw [hh'.unique hh] at hall
  exact fun i hi => shape_of_baseline hb i (hall i hi)

/-- A file that holds another path's report still holds it after a write. -/
theorem reportHolds_put {py : Interp} {files : Files} {known report : Str} (hne : report≠known)
    (bytes : ByteArray) (entries : List Json) :
    ReportHolds py (files.put known bytes) report entries ↔
      ReportHolds py files report entries := by
  simp only [ReportHolds,put_other files bytes hne]

/-- Accepting makes the gate pass exactly for reports whose gated identifiers
all have the shape of the baseline grammar: then, and only then, the written
file reads back as the report's gated identifiers and the same report passes. -/
theorem accept_passes_iff (py : Interp) (files : Files) {known report : Str}
    (hk : known≠acceptFlag) (hr : report≠acceptFlag) (hne : report≠known)
    (hzero : (main py files [acceptFlag,known,report]).result=.ok 0) :
    ∃ entries,ReportHolds py files report entries ∧
      (((∃ listed,baseline (main py files [acceptFlag,known,report]).files known=.ok listed ∧
          ∀ identifier,identifier∈listed ↔ GatedIn entries identifier) ∧
        (main py (main py files [acceptFlag,known,report]).files [known,report]).result=.ok 0) ↔
      ∀ identifier,GatedIn entries identifier → AdvisoryShape identifier) := by
  cases accepted_cases py files hk hr with
  | refused unheld code same => exact absurd hzero code
  | failed entries holds cause code => exact absurd hzero code
  | written entries holds found members text textOf code after =>
    rw [after]
    refine ⟨entries,holds,?_⟩
    have hh := (@reportHolds_put py _ _ _ hne text.toUTF8 entries).mpr holds
    constructor
    · rintro ⟨-,hpass⟩
      exact shape_of_pass hk hr hh hpass
    · intro hshape
      have hs : ∀ i∈sorted found,AdvisoryShape i :=
        fun i hi => hshape i ((members i).mp (mem_sorted.mp hi))
      obtain ⟨listed,hb,hm⟩ := baseline_baselineText (put_same files known _) textOf hs
      have hm' : ∀ i,i∈listed ↔ GatedIn entries i :=
        fun i => (hm i).trans (mem_sorted.trans (members i))
      refine ⟨⟨listed,hb,hm'⟩,(main_zero_iff py _ hk hr).mpr ⟨entries,hh,listed,hb,?_⟩⟩
      exact fun i hi => (hm' i).mpr hi

/-- An accept of a report whose gated identifiers have a UTF-8 form answers
zero, whatever their shape. -/
theorem accept_zero {py : Interp} {files : Files} {known report : Str} (hk : known≠acceptFlag)
    (hr : report≠acceptFlag) (hopen : files.refused known=none) {entries : List Json}
    (hh : ReportHolds py files report entries)
    (hscalar : ∀ identifier,GatedIn entries identifier → identifier.all isScalar=true) :
    (main py files [acceptFlag,known,report]).result=.ok 0 := by
  cases accepted_cases py files hk hr with
  | refused unheld code same => exact absurd hh (unheld entries)
  | written others holds found members text textOf code after => exact code
  | failed others holds cause code =>
    rcases cause with ⟨h,-⟩|⟨i,hi,hne⟩
    · exact absurd hopen h
    · rw [holds.unique hh] at hi
      exact absurd (hscalar i hi) hne

/-- The sample report file holds its one match. -/
theorem sample_holds {known identifier : String} (h : str identifier≠[])
    (hn : universalNewlines (str (sampleReport identifier))=str (sampleReport identifier)) :
    ReportHolds (sampleInterp identifier) (sampleFiles known identifier) (str "r")
      [sampleMatch identifier] :=
  ⟨_,_,rfl,sample_loads hn,sample_accepts h⟩

/-- Accepting a sample report always answers zero. -/
theorem sample_accept_zero {known identifier : String} (h : str identifier≠[])
    (hn : universalNewlines (str (sampleReport identifier))=str (sampleReport identifier)) :
    (main (sampleInterp identifier) (sampleFiles known identifier)
      [acceptFlag,str "k",str "r"]).result=.ok 0 := by
  refine accept_zero (by decide) (by decide) rfl (sample_holds h hn) (fun i hi => ?_)
  rw [(sample_gatedIn h i).mp hi]
  exact str_scalar identifier

theorem accept_passes_iff_sample :
    ∃ entries,ReportHolds (sampleInterp "CVE-2024-6387") (sampleFiles "" "CVE-2024-6387")
        (str "r") entries ∧
      (main (sampleInterp "CVE-2024-6387")
        (main (sampleInterp "CVE-2024-6387") (sampleFiles "" "CVE-2024-6387")
          [acceptFlag,str "k",str "r"]).files [str "k",str "r"]).result=.ok 0 := by
  obtain ⟨entries,hh,hiff⟩ := accept_passes_iff (sampleInterp "CVE-2024-6387")
    (sampleFiles "" "CVE-2024-6387") (by decide) (by decide) (by decide)
    (sample_accept_zero sample_shape.ne_nil sample_newlines)
  refine ⟨entries,hh,(hiff.mpr (fun i hi => ?_)).2⟩
  rw [hh.unique (sample_holds sample_shape.ne_nil sample_newlines),sample_gatedIn sample_shape.ne_nil] at hi
  rw [hi]
  exact sample_shape

/-- A baseline of identifiers one of which is no line of a baseline cannot be read. -/
theorem baseline_unread {files : Files} {path : Str} {text : String} {identifiers : List Str}
    (hfile : files.content path=.ok text.toUTF8) (htext : str text=baselineText identifiers)
    (hfree : ∀ i∈identifiers,LineFree i) {identifier : Str} (hm : identifier∈identifiers)
    (hbad : ¬GoodLine identifier) : ∀ listed,baseline files path≠.ok listed := by
  intro listed hb
  obtain ⟨text',hfile',hgood⟩ := good_of_baseline hb
  rw [hfile] at hfile'
  rw [←String.toByteArray_inj.mp (Except.ok.inj hfile')] at hgood
  refine hbad (hgood identifier ?_)
  rw [htext,splitlines_baselineText hfree,if_neg (List.ne_nil_of_mem hm)]
  exact List.mem_append_right _ hm

/-- An accepted kernel advisory of one distribution: the accept answers zero
and writes an identifier with a dot, the file it wrote cannot be read as a
baseline, and the unchanged report fails the gate. -/
theorem accept_passes_fails :
    (main (sampleInterp "ALASKERNEL-5.4-2022-007") (sampleFiles "" "ALASKERNEL-5.4-2022-007")
      [acceptFlag,str "k",str "r"]).result=.ok 0 ∧
    (∀ listed,baseline (main (sampleInterp "ALASKERNEL-5.4-2022-007")
      (sampleFiles "" "ALASKERNEL-5.4-2022-007")
      [acceptFlag,str "k",str "r"]).files (str "k")≠.ok listed) ∧
    (main (sampleInterp "ALASKERNEL-5.4-2022-007")
      (main (sampleInterp "ALASKERNEL-5.4-2022-007") (sampleFiles "" "ALASKERNEL-5.4-2022-007")
        [acceptFlag,str "k",str "r"]).files [str "k",str "r"]).result=.ok 1 := by
  have hne : str "ALASKERNEL-5.4-2022-007"≠[] := by decide
  have hn : universalNewlines (str (sampleReport "ALASKERNEL-5.4-2022-007"))=
      str (sampleReport "ALASKERNEL-5.4-2022-007") :=
    universalNewlines_of_notMem (by decide +kernel)
  have hbad : ¬AdvisoryShape (str "ALASKERNEL-5.4-2022-007") := by
    rw [←advisoryGrammar_iff]
    decide +kernel
  have hzero := @sample_accept_zero "" _ hne hn
  refine ⟨hzero,?_⟩
  cases @accepted_cases (sampleInterp "ALASKERNEL-5.4-2022-007")
      (sampleFiles "" "ALASKERNEL-5.4-2022-007") (str "k") (str "r") (by decide) (by decide) with
  | refused unheld code same => exact absurd hzero code
  | failed entries holds cause code => exact absurd hzero code
  | written entries holds found members text textOf code after =>
    rw [after]
    have hentries := holds.unique (sample_holds hne hn)
    have hfound : ∀ i,i∈sorted found ↔ i=str "ALASKERNEL-5.4-2022-007" := by
      intro i
      rw [mem_sorted,members,hentries,sample_gatedIn hne]
    have hfree : ∀ i∈sorted found,LineFree i := by
      intro i hi
      rw [(hfound i).mp hi]
      exact lineFree_literal _ rfl
    have hbadLine : ¬GoodLine (str "ALASKERNEL-5.4-2022-007") := by
      have hstrip : strip (str "ALASKERNEL-5.4-2022-007")=str "ALASKERNEL-5.4-2022-007" := by
        decide
      rw [GoodLine,hstrip]
      exact not_or.mpr ⟨hne,not_or.mpr ⟨by decide,hbad⟩⟩
    have hunread := baseline_unread (put_same (sampleFiles "" "ALASKERNEL-5.4-2022-007")
      (str "k") _) textOf hfree ((hfound _).mpr rfl) hbadLine
    have hcode := @main_plain_code (sampleInterp "ALASKERNEL-5.4-2022-007") (sample_total _)
      ((sampleFiles "" "ALASKERNEL-5.4-2022-007").put (str "k") text.toUTF8) (str "k") (str "r")
      (by decide) (by decide) (Or.inr ⟨_,rfl⟩) (Or.inr ⟨_,put_same _ _ _⟩)
    refine ⟨hunread,hcode.resolve_left (fun hpass => ?_)⟩
    obtain ⟨held,hh,listed,hb,-⟩ := (main_zero_iff _ _ (by decide) (by decide)).mp hpass
    exact hunread listed hb

end MlopsPlatform.SupplyFindingsAccept
