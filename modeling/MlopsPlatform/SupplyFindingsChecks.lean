import MlopsPlatform.SupplyFindingsAnswers
import Mathlib.Data.List.Sort

/-!
# What the writer writes and the suite checks

The suite asks of a committed baseline that it can be read and names an
advisory, that it carries the two phrases of the header, and that its entries
are sorted and not repeated. The text of an accept has all of these but one:
a report without gated advisories leaves a baseline that names none.
-/

namespace MlopsPlatform.SupplyFindingsChecks

open TextCodec TextLines TextStrip TextSorted PythonJson PythonFiles SupplyAdvisory SupplyFindings
  SupplyFindingsGate SupplyFindingsAccept SupplyFindingsAnswers

/-- `test_a_baseline_is_readable_and_says_what_it_is_not` passes. -/
def readableAndSaysWhatItIsNot (files : Files) (path : Str) : Bool :=
  match baseline files path with
  | .error _ => false
  | .ok identifiers =>
    match readText (ε:=FindingsError) files path with
    | .error _ => false
    | .ok header =>
      decide (identifiers≠∅) && decide (str "NOT accepted risks"<:+:header) &&
        decide (str "security/exceptions.toml"<:+:header)

/-- The stripped lines of a baseline that are neither blank nor a comment. -/
def entriesOf (text : Str) : List Str :=
  ((splitlines text).filter
    (fun line => decide (strip line≠[]) && decide ((strip line).head?≠some 0x23))).map strip

/-- `test_a_baseline_is_sorted_and_free_of_duplicates` passes. -/
def sortedAndFreeOfDuplicates (files : Files) (path : Str) : Bool :=
  match readText (ε:=FindingsError) files path with
  | .error _ => false
  | .ok text =>
    decide (entriesOf text=(entriesOf text).mergeSort (fun s t => decide (s≤t))) &&
      decide ((entriesOf text).length=(entriesOf text).toFinset.card)

/-- The checks the suite runs over a committed baseline pass. -/
def SuiteAccepts (files : Files) (path : Str) : Prop :=
  readableAndSaysWhatItIsNot files path=true ∧ sortedAndFreeOfDuplicates files path=true

variable {py : Interp} {files : Files} {known report path : Str} {argv : List Str}
  {identifiers : List Str}

/-- A phrase of a header line is in the text. -/
theorem header_phrase {phrase line : Str} (hline : line∈headerLines (join (str ", ") gated))
    (hphrase : phrase<:+:line) : phrase<:+:baselineText identifiers := by
  have hheader : line++[lf]<:+:header := by
    obtain ⟨before,after,hsplit⟩ := List.append_of_mem hline
    rw [header,hsplit,List.flatMap_append,List.flatMap_cons,←List.append_assoc]
    exact List.infix_append _ _ _
  have hwhole : header<:+:baselineText identifiers := List.infix_append' [] header _
  exact (hphrase.trans (List.infix_append' [] line _)).trans (hheader.trans hwhole)

/-- The header says what the file is not. -/
theorem baselineText_phrases :
    str "NOT accepted risks"<:+:baselineText identifiers ∧
      str "security/exceptions.toml"<:+:baselineText identifiers := by
  have hrisks : str "# NOT accepted risks. An entry here claims only that the advisory was already there. It carries"∈
      headerLines (join (str ", ") gated) := List.mem_of_getElem? (i:=2) rfl
  have hfile : str "# security/exceptions.toml, need a reason and an expiry, and are reviewed. See record 022."∈
      headerLines (join (str ", ") gated) := List.mem_of_getElem? (i:=4) rfl
  exact ⟨header_phrase hrisks (by decide +kernel),header_phrase hfile (by decide +kernel)⟩

/-- A written list of one-line identifiers has no carriage return. -/
theorem baselineText_plain (hl : ∀ identifier∈identifiers,LineFree identifier) :
    universalNewlines (baselineText identifiers)=baselineText identifiers := by
  refine universalNewlines_of_notMem ?_
  have hline : ∀ line : Str,LineFree line → cr∉line++[lf] := by
    intro line hfree hm
    rcases List.mem_append.mp hm with hm|hm
    · have hno := hfree cr hm
      rw [isLineBoundary_cr] at hno
      cases hno
    · exact absurd (List.mem_singleton.mp hm) (by decide)
  rw [baselineText,header,List.mem_append,not_or]
  constructor
  · rw [List.mem_flatMap]
    rintro ⟨line,hmem,hm⟩
    exact hline line (headerLines_lineFree line hmem) hm
  · by_cases hne : identifiers=[]
    · rw [hne]
      decide
    · rw [join_lf hne,List.mem_flatMap]
      rintro ⟨identifier,hmem,hm⟩
      exact hline identifier (hl identifier hmem) hm

/-- The entries of a written list of well-shaped identifiers are that list. -/
theorem entriesOf_baselineText (hs : ∀ identifier∈identifiers,AdvisoryShape identifier) :
    entriesOf (baselineText identifiers)=identifiers := by
  have hheader : (headerLines (join (str ", ") gated)).filter
      (fun line => decide (strip line≠[]) && decide ((strip line).head?≠some 0x23))=[] := by
    rw [List.filter_eq_nil_iff]
    intro line hline
    rw [headerLines_comment _ line hline]
    simp
  rw [entriesOf,splitlines_baselineText (fun i hi => (hs i hi).lineFree),List.filter_append,hheader,
    List.nil_append]
  by_cases hne : identifiers=[]
  · rw [if_pos hne,hne]
    decide
  · have hkeep : identifiers.filter
        (fun line => decide (strip line≠[]) && decide ((strip line).head?≠some 0x23))=
          identifiers := by
      rw [List.filter_eq_self]
      intro i hi
      rw [(hs i hi).strip_eq,decide_eq_true (hs i hi).ne_nil,decide_eq_true (hs i hi).head_ne]
      rfl
    rw [if_neg hne,hkeep]
    exact (List.map_congr_left (fun i hi => (hs i hi).strip_eq)).trans (List.map_id identifiers)

/-- A file that holds a written list of well-shaped identifiers, in order,
passes the checks exactly when the list is not empty. -/
theorem suiteAccepts_written {text : String} {found : Finset Str}
    (hfile : files.content path=.ok text.toUTF8) (htext : str text=baselineText (sorted found))
    (hs : ∀ identifier∈found,AdvisoryShape identifier) : SuiteAccepts files path ↔ found≠∅ := by
  have hsorted : ∀ identifier∈sorted found,AdvisoryShape identifier :=
    fun i hi => hs i (mem_sorted.mp hi)
  have hread : readText (ε:=FindingsError) files path=.ok (baselineText (sorted found)) := by
    rw [readText_text hfile,htext,baselineText_plain (fun i hi => (hsorted i hi).lineFree)]
  obtain ⟨listed,hbaseline,hlisted⟩ := baseline_baselineText hfile htext hsorted
  have hsame : listed=found := Finset.ext (fun i => (hlisted i).trans mem_sorted)
  have hincreasing := sorted_increasing found
  have horder : sorted found=(sorted found).mergeSort (fun s t => decide (s≤t)) :=
    (List.mergeSort_eq_self (fun s t => s≤t) (hincreasing.imp le_of_lt)).symm
  have hdistinct : (sorted found).length=(sorted found).toFinset.card :=
    (List.toFinset_card_of_nodup (hincreasing.imp (fun hlt => ne_of_lt hlt))).symm
  have hsecond : sortedAndFreeOfDuplicates files path=true := by
    simp only [sortedAndFreeOfDuplicates,hread,entriesOf_baselineText hsorted]
    rw [decide_eq_true horder,decide_eq_true hdistinct]
    rfl
  have hfirst : readableAndSaysWhatItIsNot files path=true ↔ found≠∅ := by
    obtain ⟨hrisks,hfile⟩ := @baselineText_phrases (sorted found)
    simp only [readableAndSaysWhatItIsNot,hbaseline,hread,hsame]
    rw [decide_eq_true hrisks,decide_eq_true hfile,Bool.and_true,Bool.and_true,decide_eq_true_iff]
  exact ⟨fun h => hfirst.mp h.1,fun h => ⟨hfirst.mpr h,hsecond⟩⟩

/-- An accept that answers zero leaves the text of its gated identifiers. -/
theorem accepted_text (hflag : acceptFlag∈argv) (hp : positional argv=[known,report])
    (hzero : (main py files argv).result=.ok 0) :
    ∃ entries,ReportHolds py files report entries ∧ ∃ (found : Finset Str) (text : String),
      (∀ identifier,identifier∈found ↔ GatedIn entries identifier) ∧
      str text=baselineText (sorted found) ∧
      (main py files argv).files.content known=.ok text.toUTF8 := by
  rw [main_eq hp] at hzero ⊢
  cases hread : readReport py files report with
  | error raised =>
    rw [hread] at hzero
    dsimp only at hzero
    split at hzero
    · cases hzero
    · cases hzero
  | ok current =>
    obtain ⟨entries,hholds⟩ := holds_of_readReport hread
    obtain ⟨found,hfound,hgated⟩ := readReport_of_holds hholds
    rw [hread] at hfound hzero
    cases hfound
    dsimp only at hzero ⊢
    rw [if_pos hflag] at hzero ⊢
    cases hw : writeText (ε:=FindingsError) files known (baselineText (sorted found)) with
    | mk outcome after =>
      cases outcome with
      | error raised =>
        simp only [accepting,write,hw] at hzero
        cases hzero
      | ok written =>
        obtain ⟨text,htext,hafter⟩ := writeText_eq_ok hw
        refine ⟨entries,hholds,found,text,hgated,htext.symm,?_⟩
        simp only [accepting,write,hw,hafter,put_same]

/-- The suite accepts what an accept wrote exactly when the report gates an
advisory at all. -/
theorem accepted_checks_iff {entries : List Json} (hflag : acceptFlag∈argv)
    (hp : positional argv=[known,report]) (hzero : (main py files argv).result=.ok 0)
    (hh : ReportHolds py files report entries)
    (hshape : ∀ identifier,GatedIn entries identifier → AdvisoryShape identifier) :
    SuiteAccepts (main py files argv).files known ↔ ∃ identifier,GatedIn entries identifier := by
  obtain ⟨entries',hh',found,text,hgated,htext,hfile⟩ := accepted_text hflag hp hzero
  rw [hh'.unique hh] at hgated
  rw [suiteAccepts_written hfile htext (fun i hi => hshape i ((hgated i).mp hi)),
    ←Finset.nonempty_iff_ne_empty]
  exact exists_congr hgated

theorem accepted_checks_iff_sample :
    SuiteAccepts (main (sampleInterp "CVE-2024-6387") (sampleFiles "" "CVE-2024-6387")
      [acceptFlag,str "k",str "r"]).files (str "k") := by
  have hgated := sample_gatedIn sample_shape.ne_nil
  refine (accepted_checks_iff List.mem_cons_self (by decide) (sample_accept_zero sample_shape.ne_nil sample_newlines)
    (sample_holds sample_shape.ne_nil sample_newlines) (fun i hi => ?_)).mpr ⟨_,(hgated _).mpr rfl⟩
  rw [(hgated i).mp hi]
  exact sample_shape

/-- The report of an image in which nothing is left to find. -/
def cleanReport : String := "\x7b\"matches\":[]\x7d"

/-- The document of that text. -/
def cleanDocument : Json := .dict [(str "matches",.list [])]

/-- An interpreter whose parser knows that text. -/
def cleanInterp : Interp :=
  ⟨fun s => if s=str cleanReport then .ok cleanDocument else .error (.decode (str "Expecting value")),
    fun _ => []⟩

/-- The report at `r`, and no baseline yet. -/
def cleanFiles : Files :=
  ⟨fun path => if path=str "r" then .ok cleanReport.toUTF8
    else .error (.os (str "No such file or directory")),fun _ => none⟩

/-- Accepting it answers zero and leaves a baseline that the suite refuses. -/
theorem accepted_checks_fail :
    (main cleanInterp cleanFiles [acceptFlag,str "k",str "r"]).result=.ok 0 ∧
      (∃ entries,ReportHolds cleanInterp cleanFiles (str "r") entries ∧
        ∀ identifier,GatedIn entries identifier → AdvisoryShape identifier) ∧
      ¬SuiteAccepts (main cleanInterp cleanFiles [acceptFlag,str "k",str "r"]).files (str "k") := by
  have hn : universalNewlines (str cleanReport)=str cleanReport :=
    universalNewlines_of_notMem (by decide +kernel)
  have hloads : cleanInterp.loads (universalNewlines (str cleanReport))=.ok cleanDocument := by
    rw [hn]
    simp only [cleanInterp,if_true]
  have hholds : ReportHolds cleanInterp cleanFiles (str "r") [] :=
    ⟨cleanReport,cleanDocument,rfl,hloads,_,rfl,rfl,fun _ h => absurd h List.not_mem_nil⟩
  have hnone : ∀ identifier,¬GatedIn [] identifier := gatedIn_nil
  have hzero : (main cleanInterp cleanFiles [acceptFlag,str "k",str "r"]).result=.ok 0 :=
    accept_zero (by decide) (by decide) rfl hholds (fun i hi => absurd hi (hnone i))
  refine ⟨hzero,⟨[],hholds,fun i hi => absurd hi (hnone i)⟩,?_⟩
  have hp : positional [acceptFlag,str "k",str "r"]=[str "k",str "r"] := by decide
  obtain ⟨entries,hh,found,text,hgated,htext,hfile⟩ := accepted_text List.mem_cons_self hp hzero
  rw [hh.unique hholds] at hgated
  have hshape : ∀ identifier∈found,AdvisoryShape identifier :=
    fun i hi => absurd ((hgated i).mp hi) (hnone i)
  rw [suiteAccepts_written hfile htext hshape,not_not]
  exact Finset.eq_empty_of_forall_notMem (fun i hi => hnone i ((hgated i).mp hi))

end MlopsPlatform.SupplyFindingsChecks
