import MlopsPlatform.SupplyFindingsAccept
import MlopsPlatform.SupplyInventoryAcceptable

/-!
# When a failed run leaves a committed file as it was

Both writers open the destination only after everything they read was checked,
so a failure before that leaves it alone. What is left to fail afterwards is
the encoding of what is written, and opening has emptied the file by then.
-/

namespace MlopsPlatform.SupplyCommitted

open TextCodec TextLines TextSorted PythonJson PythonFiles

/-- A run that does not answer zero leaves the file as it was. -/
def Whole {ε : Type} (files : Files) (path : Str) (run : Finished ε) : Prop :=
  run.result≠.ok 0 → run.files.content path=files.content path

/-- The file can be opened, and opening it changes it. -/
def Exposed (files : Files) (path : Str) : Prop :=
  files.refused path=none ∧ files.content path≠.ok ByteArray.empty

/-- An inventory is written and one of its lines has no UTF-8 form. -/
def UnencodableInventory (py : Interp) (files : Files) (source : Str) : Prop :=
  ∃ document packages,SupplyInventory.readDocument py files source=.ok document ∧
    SupplyInventoryAcceptable.Acceptable document packages ∧
    ∃ pair,SupplyInventoryDecode.Catalogued document pair ∧
      ¬encodes (SupplyInventoryDecode.pairLine pair)=true

/-- A report is accepted and one of its gated identifiers has no UTF-8 form. -/
def UnencodableReport (py : Interp) (files : Files) (report : Str) : Prop :=
  ∃ entries,SupplyFindingsGate.ReportHolds py files report entries ∧
    ∃ identifier,SupplyFindingsGate.GatedIn entries identifier ∧ ¬encodes identifier=true

variable {py : Interp} {files : Files}

/-- A run that fails with the file emptied does not leave it as it was, unless
it was empty. -/
theorem not_whole_iff {ε : Type} {path : Str} {run : Finished ε} (hresult : run.result≠.ok 0)
    (hfiles : run.files=files.put path ByteArray.empty) :
    ¬Whole files path run ↔ files.content path≠.ok ByteArray.empty := by
  rw [Whole,hfiles,put_same]
  exact ⟨fun h he => h (fun _ => he.symm),fun h he => h (he hresult).symm⟩

theorem whole_of_zero {ε : Type} {path : Str} {run : Finished ε} (h : run.result=.ok 0) :
    Whole files path run := fun hn => absurd h hn

theorem whole_of_files {ε : Type} {path : Str} {run : Finished ε} (h : run.files=files) :
    Whole files path run := fun _ => by rw [h]

section Inventory

open SupplyInventory SupplyInventoryDecode SupplyInventoryAcceptable

/-- A run of `supply.inventory` whose document has no inventory changes nothing. -/
theorem inventory_unread {source destination : Str}
    (h : ∀ document lines,readDocument py files source=.ok document → inventory document≠.ok lines) :
    (main py files [source,destination]).files=files := by
  have hcaught : ∀ raised,write py files source destination=(.error raised,files) →
      (main py files [source,destination]).files=files := by
    intro raised hw
    unfold main
    dsimp only
    rw [hw]
    dsimp only
    cases caught py raised with
    | none => rfl
    | some message => rfl
  cases hread : readDocument py files source with
  | error raised => exact hcaught raised (by rw [write,hread])
  | ok document =>
    cases hi : inventory document with
    | error raised => exact hcaught raised (by simp only [write,hread,hi])
    | ok lines => exact absurd hi (h document lines hread)

/-- The text of an inventory has a UTF-8 form when each of its lines has one. -/
theorem encodes_inventoryText {source : Str} {document : Json} {lines : List Str}
    (hread : readDocument py files source=.ok document)
    (hlines : inventory document=.ok lines) :
    encodes (inventoryText lines)=true ↔ ¬UnencodableInventory py files source := by
  obtain ⟨packages,hacceptable⟩ := acceptable_of_inventory hlines
  have hmem := (inventory_lines hlines).2.2.1
  rw [inventoryText,encodes_join]
  constructor
  · rintro hall ⟨document',packages',hread',-,pair,hpair,hbad⟩
    rw [hread,Except.ok.injEq] at hread'
    rw [←hread'] at hpair
    exact hbad (hall _ ((hmem _).mpr ⟨pair,hpair,rfl⟩))
  · intro hno line hline
    obtain ⟨pair,hpair,rfl⟩ := (hmem line).mp hline
    by_contra hbad
    exact hno ⟨document,packages,hread,hacceptable,pair,hpair,hbad⟩

/-- A run that meets a line without a UTF-8 form has emptied the destination. -/
theorem inventory_unencodable {source destination : Str} {document : Json} {lines : List Str}
    (hread : readDocument py files source=.ok document) (hlines : inventory document=.ok lines)
    (hopen : files.refused destination=none) (hbad : ¬encodes (inventoryText lines)=true) :
    main py files [source,destination]=
      ⟨.error .unicodeEncode,files.put destination ByteArray.empty,[],[]⟩ := by
  have hw := @writeText_unencodable InventoryError files destination _ hopen hbad
  simp only [main,write,hread,hlines,hw,caught]

/-- A run of `supply.inventory` on two files leaves the destination as it was
unless it fails, having opened it, on a line without a UTF-8 form. -/
theorem inventory_whole_iff {source destination : Str} (hne : source≠destination) :
    Whole files destination (main py files [source,destination]) ↔
      ¬(Exposed files destination ∧ UnencodableInventory py files source) := by
  by_cases hacceptable : ∃ document packages,readDocument py files source=.ok document ∧
      Acceptable document packages
  · obtain ⟨document,packages,hread,hacceptable⟩ := hacceptable
    obtain ⟨lines,hlines⟩ := inventory_of_acceptable hacceptable
    have hencodes := encodes_inventoryText hread hlines
    rcases @writeText_cases InventoryError files destination (inventoryText lines) with
      ⟨hrefused,message,hw⟩|⟨hopen,hbad,hw⟩|⟨hgood,bytes,hw⟩
    · have hfiles : (main py files [source,destination]).files=files := by
        simp only [main,write,hread,hlines,hw,caught]
      exact iff_of_true (whole_of_files hfiles) (fun h => hrefused h.1.1)
    · have hrun := inventory_unencodable hread hlines hopen hbad
      have hresult : (main py files [source,destination]).result≠.ok 0 := by
        rw [hrun]
        exact fun h => (by cases h)
      rw [hencodes,not_not] at hbad
      rw [←not_iff_not,not_whole_iff hresult (by rw [hrun]),not_not]
      exact ⟨fun h => ⟨⟨hopen,h⟩,hbad⟩,fun h => h.1.2⟩
    · obtain ⟨count,hcount⟩ := subjectsIn_of_acceptable hacceptable
      have hagain : readDocument py (files.put destination bytes) source=.ok document := by
        rw [←hread]
        simp only [readDocument,readText,put_other files bytes hne]
      have hresult : (main py files [source,destination]).result=.ok 0 := by
        simp only [main,write,hread,hlines,hw,subjectCount,hagain,hcount]
      exact iff_of_true (whole_of_zero hresult) (fun h => hencodes.mp hgood h.2)
  · refine iff_of_true (whole_of_files (inventory_unread ?_)) ?_
    · intro document lines hread hlines
      obtain ⟨packages,ha⟩ := acceptable_of_inventory hlines
      exact hacceptable ⟨document,packages,hread,ha⟩
    · rintro ⟨-,document,packages,hread,ha,-⟩
      exact hacceptable ⟨document,packages,hread,ha⟩

end Inventory

section Findings

open SupplyFindings SupplyFindingsGate SupplyFindingsAccept

/-- So has the text of a baseline when each gated identifier has one. -/
theorem encodes_report {report : Str} {current : List Str}
    (hread : readReport py files report=.ok current) :
    encodes (baselineText current)=true ↔ ¬UnencodableReport py files report := by
  obtain ⟨entries,hholds⟩ := holds_of_readReport hread
  obtain ⟨found,hf,hmem⟩ := readReport_of_holds hholds
  rw [hread,Except.ok.injEq] at hf
  rw [encodes_baselineText,hf]
  constructor
  · rintro hall ⟨entries',hholds',identifier,hgated,hbad⟩
    rw [hholds'.unique hholds] at hgated
    exact hbad (hall identifier (mem_sorted.mpr ((hmem identifier).mpr hgated)))
  · intro hno identifier hi
    by_contra hbad
    exact hno ⟨entries,hholds,identifier,(hmem identifier).mp (mem_sorted.mp hi),hbad⟩

/-- A run that accepts an identifier without a UTF-8 form has emptied the baseline. -/
theorem accept_unencodable {argv : List Str} {known report : Str} {current : List Str}
    (hflag : acceptFlag∈argv) (hargv : argv.filter (fun item => item≠acceptFlag)=[known,report])
    (hread : readReport py files report=.ok current) (hopen : files.refused known=none)
    (hbad : ¬encodes (baselineText current)=true) : main py files argv=
      ⟨.error .unicodeEncode,files.put known ByteArray.empty,[],[]⟩ := by
  have hw := @writeText_unencodable FindingsError files known _ hopen hbad
  rw [accept_eq hflag hargv,hread]
  simp only [accepting,write,hw]

/-- An accepting run leaves the baseline as it was unless it fails, having
opened it, on an identifier without a UTF-8 form. -/
theorem accept_whole_iff {argv : List Str} {known report : Str} (hflag : acceptFlag∈argv)
    (hargv : argv.filter (fun item => item≠acceptFlag)=[known,report]) :
    Whole files known (main py files argv) ↔
      ¬(Exposed files known ∧ UnencodableReport py files report) := by
  rw [accept_eq hflag hargv]
  cases hread : readReport py files report with
  | error raised =>
    refine iff_of_true (whole_of_files ?_) ?_
    · dsimp only
      cases caught py raised with
      | none => rfl
      | some message => rfl
    · rintro ⟨-,entries,hholds,-⟩
      obtain ⟨found,hf,-⟩ := readReport_of_holds hholds
      rw [hread] at hf
      cases hf
  | ok current =>
    have hencodes := encodes_report hread
    dsimp only [accepting,write]
    rcases @writeText_cases FindingsError files known (baselineText current) with
      ⟨hrefused,message,hw⟩|⟨hopen,hbad,hw⟩|⟨hgood,bytes,hw⟩
    · rw [hw]
      exact iff_of_true (whole_of_files rfl) (fun h => hrefused h.1.1)
    · rw [hw]
      rw [hencodes,not_not] at hbad
      rw [←not_iff_not,not_whole_iff (fun h => (by cases h)) rfl,not_not]
      exact ⟨fun h => ⟨⟨hopen,h⟩,hbad⟩,fun h => h.1.2⟩
    · rw [hw]
      exact iff_of_true (whole_of_zero rfl) (fun h => hencodes.mp hgood h.2)

end Findings

/-- A run of either writer that fails leaves its file as it was, unless what it
read was accepted, the file could be opened and was not empty, and something to
be written has no UTF-8 form. -/
theorem committed_whole_iff (py : Interp) (files : Files) {source destination : Str}
    (hne : source≠destination) {argv : List Str} {known report : Str}
    (hflag : SupplyFindings.acceptFlag∈argv)
    (hargv : argv.filter (fun item => item≠SupplyFindings.acceptFlag)=[known,report]) :
    (Whole files destination (SupplyInventory.main py files [source,destination]) ↔
      ¬(Exposed files destination ∧ UnencodableInventory py files source)) ∧
    (Whole files known (SupplyFindings.main py files argv) ↔
      ¬(Exposed files known ∧ UnencodableReport py files report)) :=
  ⟨inventory_whole_iff hne,accept_whole_iff hflag hargv⟩

/-- An SPDX document with one package, whose name is spelled as given. -/
def documentText (spelled : String) : String :=
  "\x7b\"packages\":[\x7b\"name\":\""++spelled++"\"\x7d]\x7d"

/-- The value it parses to, when the spelling is of this name. -/
def documentOf (name : Str) : Json :=
  .dict [(str "packages",.list [.dict [(str "name",.str name)]])]

/-- The value a report with one High match parses to, when its identifier is
spelled as this one. -/
def reportOf (name : Str) : Json :=
  .dict [(str "matches",.list [.dict [(str "vulnerability",
    .dict [(str "id",.str name),(str "severity",.str (str "High"))])]])]

/-- An interpreter whose parser knows these two texts and refuses every other. -/
def spelledInterp (spelled : String) (name : Str) : Interp where
  loads text :=
    if text=str (documentText spelled) then .ok (documentOf name)
    else if text=str (SupplyFindingsGate.sampleReport spelled) then .ok (reportOf name)
    else .error (.decode (str "Expecting value"))
  repr _ := []

/-- The document at `d`, the report at `r`, and one line in every other file. -/
def spelledFiles (spelled : String) : Files where
  content path :=
    if path=str "d" then .ok (documentText spelled).toUTF8
    else if path=str "r" then .ok (SupplyFindingsGate.sampleReport spelled).toUTF8
    else .ok "zlib==1.3.1\n".toUTF8
  refused _ := none

theorem spelled_document {spelled : String} (name : Str)
    (h : universalNewlines (str (documentText spelled))=str (documentText spelled)) :
    SupplyInventory.readDocument (spelledInterp spelled name) (spelledFiles spelled) (str "d")=
      .ok (documentOf name) := by
  have hfile : (spelledFiles spelled).content (str "d")=.ok (documentText spelled).toUTF8 := by
    simp only [spelledFiles,if_true]
  simp only [SupplyInventory.readDocument,readText_text hfile,h,spelledInterp,if_true]

/-- The document has one line. -/
theorem documentOf_inventory {name : Str} (hname : name≠[])
    (hplain : ¬SupplyInventory.separator<:+:name) :
    SupplyInventory.inventory (documentOf name)=
      .ok [name++SupplyInventory.separator++SupplyInventory.noVersion] := by
  have hversion : ¬SupplyInventory.separator<:+:SupplyInventory.noVersion := by decide
  have hread : SupplyInventory.readPackage (SupplyInventory.subjects (documentOf name)) 0
      (.dict [(str "name",.str name)])=
        .ok (some ⟨name,SupplyInventory.noVersion,hname,hplain,hversion⟩) := by
    have hmember : SupplyInventory.memberOf (SupplyInventory.subjects (documentOf name))
        (get [(str "name",.str name)] (str "SPDXID"))=.ok false := rfl
    have hfields : SupplyInventory.readFields 0 [(str "name",.str name)]=
        .ok ⟨name,SupplyInventory.noVersion,hname,hplain,hversion⟩ :=
      (SupplyInventoryDecode.readFields_eq_ok 0 _ _).mpr ⟨rfl,rfl⟩
    simp only [SupplyInventory.readPackage,hmember,hfields]
  have hcollect : SupplyInventory.collect (SupplyInventory.subjects (documentOf name)) 0 ∅
      [.dict [(str "name",.str name)]]=
        .ok {name++SupplyInventory.separator++SupplyInventory.noVersion} := by
    simp only [SupplyInventory.collect,hread]
    rfl
  have hentries : SupplyInventory.entries (documentOf name)=
      .ok [.dict [(str "name",.str name)]] := rfl
  simp only [SupplyInventory.inventory,hentries,hcollect,
    if_neg (Finset.singleton_ne_empty _),sorted,Finset.sort_singleton]

/-- The report has one gated identifier. -/
theorem reportOf_advisories {name : Str} (hname : name≠[]) :
    SupplyFindings.advisories (reportOf name) SupplyFindings.gated=.ok [name] := by
  have hread : SupplyFindings.readMatch 0 (.dict [(str "vulnerability",
      .dict [(str "id",.str name),(str "severity",.str (str "High"))])])=
        .ok ⟨name,str "High",hname⟩ :=
    (SupplyFindingsGate.readMatch_eq_ok 0 _ _).mpr ⟨_,_,rfl,rfl,rfl,rfl⟩
  have hgated : str "High"∈SupplyFindings.gated := by decide
  have hcollect : SupplyFindings.collect SupplyFindings.gated 0 ∅ [.dict [(str "vulnerability",
      .dict [(str "id",.str name),(str "severity",.str (str "High"))])]]=.ok {name} := by
    simp only [SupplyFindings.collect,hread,if_pos hgated]
    rfl
  have hmatches : get [(str "matches",.list [.dict [(str "vulnerability",
      .dict [(str "id",.str name),(str "severity",.str (str "High"))])]])] (str "matches")=
        .list [.dict [(str "vulnerability",
          .dict [(str "id",.str name),(str "severity",.str (str "High"))])]] := rfl
  simp only [reportOf,SupplyFindings.advisories,hmatches,hcollect,sorted,Finset.sort_singleton]

theorem spelled_report {spelled : String} {name : Str} (hname : name≠[])
    (h : universalNewlines (str (SupplyFindingsGate.sampleReport spelled))=
      str (SupplyFindingsGate.sampleReport spelled))
    (hother : str (SupplyFindingsGate.sampleReport spelled)≠str (documentText spelled)) :
    SupplyFindings.readReport (spelledInterp spelled name) (spelledFiles spelled) (str "r")=
      .ok [name] := by
  have hfile : (spelledFiles spelled).content (str "r")=
      .ok (SupplyFindingsGate.sampleReport spelled).toUTF8 := by
    have hpath : str "r"≠str "d" := by decide
    simp only [spelledFiles,if_neg hpath,if_true]
  simp only [SupplyFindings.readReport,readText_text hfile,h,spelledInterp,if_neg hother,if_true,
    reportOf_advisories hname]

/-- Both files are left as they were by runs over texts. -/
theorem committed_whole_zlib :
    Whole (spelledFiles "zlib") (str "p")
      (SupplyInventory.main (spelledInterp "zlib" (str "zlib")) (spelledFiles "zlib")
        [str "d",str "p"]) ∧
    Whole (spelledFiles "zlib") (str "k")
      (SupplyFindings.main (spelledInterp "zlib" (str "zlib")) (spelledFiles "zlib")
        [SupplyFindings.acceptFlag,str "k",str "r"]) := by
  have hdocument := @spelled_document "zlib" (str "zlib")
    (universalNewlines_of_notMem (by decide +kernel))
  have hlines := @documentOf_inventory (str "zlib") (by decide) (by decide)
  have hreport := @spelled_report "zlib" (str "zlib") (by decide) (by decide +kernel)
    (by decide +kernel)
  have hiff := @committed_whole_iff (spelledInterp "zlib" (str "zlib")) (spelledFiles "zlib")
    (str "d") (str "p") (by decide) [SupplyFindings.acceptFlag,str "k",str "r"] (str "k") (str "r")
    (by decide) (by decide)
  refine ⟨hiff.1.mpr (fun h => ?_),hiff.2.mpr (fun h => ?_)⟩
  · refine (encodes_inventoryText hdocument hlines).mp ?_ h.2
    decide
  · refine (encodes_report hreport).mp ?_ h.2
    exact SupplyFindingsAccept.encodes_baselineText.mpr (List.forall_mem_singleton.mpr (by decide))

/-- A name and an identifier spelled with the escape of a lone surrogate: both
runs fail, and both files are emptied. -/
theorem committed_whole_fails :
    let py := spelledInterp "\\ud800" [0xd800]
    let files := spelledFiles "\\ud800"
    let reduced := SupplyInventory.main py files [str "d",str "p"]
    let accepted := SupplyFindings.main py files [SupplyFindings.acceptFlag,str "k",str "r"]
    files.content (str "p")=.ok "zlib==1.3.1\n".toUTF8 ∧
      reduced.result=.error .unicodeEncode ∧
      reduced.files.content (str "p")=.ok ByteArray.empty ∧
      ¬Whole files (str "p") reduced ∧
    files.content (str "k")=.ok "zlib==1.3.1\n".toUTF8 ∧
      accepted.result=.error .unicodeEncode ∧
      accepted.files.content (str "k")=.ok ByteArray.empty ∧
      ¬Whole files (str "k") accepted := by
  intro py files reduced accepted
  have hdocument := @spelled_document "\\ud800" [0xd800]
    (universalNewlines_of_notMem (by decide +kernel))
  have hlines := @documentOf_inventory [0xd800] (by decide) (by decide)
  have hreport := @spelled_report "\\ud800" [0xd800] (by decide) (by decide +kernel)
    (by decide +kernel)
  have hother : ∀ {path : Str},path≠str "d" → path≠str "r" →
      files.content path=.ok "zlib==1.3.1\n".toUTF8 := by
    intro path hd hr
    simp only [files,spelledFiles,if_neg hd,if_neg hr]
  have hfilled : (.ok "zlib==1.3.1\n".toUTF8 : Except Unread ByteArray)≠.ok ByteArray.empty := by
    intro h
    have hsize := congrArg ByteArray.size (Except.ok.inj h)
    exact absurd hsize (by decide)
  have hreduced : reduced=⟨.error .unicodeEncode,files.put (str "p") ByteArray.empty,[],[]⟩ :=
    inventory_unencodable hdocument hlines rfl (by decide)
  have haccepted : accepted=⟨.error .unicodeEncode,files.put (str "k") ByteArray.empty,[],[]⟩ := by
    have hbad : ¬encodes (SupplyFindings.baselineText [[0xd800]])=true := by
      rw [SupplyFindingsAccept.encodes_baselineText,List.forall_mem_singleton]
      decide
    exact accept_unencodable (by decide) (by decide) hreport rfl hbad
  have hp := @hother (str "p") (by decide) (by decide)
  have hk := @hother (str "k") (by decide) (by decide)
  refine ⟨hp,by rw [hreduced],by rw [hreduced]; exact put_same _ _ _,?_,
    hk,by rw [haccepted],by rw [haccepted]; exact put_same _ _ _,?_⟩
  · refine (not_whole_iff ?_ (by rw [hreduced])).mpr (by rw [hp]; exact hfilled)
    rw [hreduced]
    exact fun h => (by cases h)
  · refine (not_whole_iff ?_ (by rw [haccepted])).mpr (by rw [hk]; exact hfilled)
    rw [haccepted]
    exact fun h => (by cases h)

end MlopsPlatform.SupplyCommitted
