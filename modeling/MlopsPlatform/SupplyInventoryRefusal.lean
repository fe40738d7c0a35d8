import MlopsPlatform.SupplyCommitted
import MlopsPlatform.SupplyInventoryComplete

/-!
# Which documents are refused and which crash

A value that is not an inventory's document is refused with InventoryError, and
`main` turns that into one line and exit code 1. Three things are not caught:
the TypeError of looking up an identifier that is a list or an object, the
UnicodeEncodeError of a line without a UTF-8 form, and whatever the second
reading of the source raises after the inventory was written over it.
-/

namespace MlopsPlatform.SupplyInventoryRefusal

open TextCodec TextLines TextSorted PythonJson PythonFiles SupplyInventory SupplyInventoryDecode
  SupplyInventoryAcceptable SupplyInventoryComplete SupplyCommitted

/-- A run that returns 0, or 1 with one line that gives the reason. -/
inductive Answers (source : Str) (run : Finished InventoryError) : Prop where
  /-- The inventory was written. -/
  | written (hresult : run.result=.ok 0)
  /-- It was not, and one line on standard error says why. -/
  | refused {reason : Str} (hresult : run.result=.ok 1)
      (hstderr : run.stderr=[source++str ": "++reason]) (hline : LineFree reason)

/-- A document is reduced, counted and reported on, or refused. -/
structure NeverCrashes (py : Interp) (files : Files) (source destination : Str)
    (document : Json) : Prop where
  /-- `inventory` returns lines or raises InventoryError. -/
  inventory : (∃ lines,inventory document=.ok lines) ∨
    ∃ error,SupplyInventory.inventory document=.error (.own error)
  /-- `subject_count` returns a number. -/
  count : ∃ count,subjectCount py files source=.ok count
  /-- `main` answers. -/
  main : Answers source (main py files [source,destination])

/-- What the interpreter and the system print of a value or a path is one line:
`repr` escapes the characters that end one. -/
structure OneLine (py : Interp) (files : Files) (destination : Str) : Prop where
  /-- `repr` -/
  repr : ∀ value,LineFree (py.repr value)
  /-- The text of the OSError of opening the destination. -/
  os : ∀ message,files.refused destination=some message → LineFree message

/-- Every identifier of the document's packages can be looked up. -/
def AllHashable (document : Json) : Prop :=
  ∀ packages,Packages document packages → ¬Unhashable packages

/-- A text that is parsed and counted without an exception. -/
def Countable (py : Interp) (text : Str) : Prop :=
  ∃ document,py.loads (universalNewlines text)=.ok document ∧ AllHashable document

/-- What a document and the run on it need in order not to crash. -/
structure Safe (py : Interp) (files : Files) (source destination : Str)
    (document : Json) : Prop where
  /-- Every identifier can be looked up. -/
  hashable : AllHashable document
  /-- What is going to be written has a UTF-8 form. -/
  encodable : files.refused destination=none → ¬UnencodableInventory py files source
  /-- Written over the source, the inventory is itself read back. -/
  apart : source=destination → files.refused destination=none →
    (∃ packages,Acceptable document packages) → ∀ found : Finset Str,
    (∀ line,line∈found ↔ ∃ pair,Catalogued document pair ∧ pairLine pair=line) →
    Countable py (inventoryText (sorted found))

/-- An error that names no type but that of a value. -/
def OfValue : InventoryError→Prop
  | .notAnObject name => ∃ value,name=typeName value
  | .packageNotAnObject _ name => ∃ value,name=typeName value
  | _ => True

variable {py : Interp} {files : Files} {source destination : Str} {document : Json}
  {found : Finset Str} {packages : List Json} {lines : List Str}

theorem lineFree_typeName (value : Json) : LineFree (typeName value) := by
  cases value <;> exact lineFree_literal _ rfl

/-- The text of an InventoryError is one line. -/
theorem lineFree_message (hrepr : ∀ value,LineFree (py.repr value)) {error : InventoryError}
    (h : OfValue error) : LineFree (error.message py) := by
  cases error with
  | notAnObject name =>
    obtain ⟨value,rfl⟩ := h
    simp only [InventoryError.message,lineFree_append]
    exact ⟨⟨⟨lineFree_literal _ rfl,lineFree_typeName value⟩,lineFree_literal _ rfl⟩,
      lineFree_literal _ rfl⟩
  | noPackages =>
    simp only [InventoryError.message,lineFree_append]
    exact ⟨lineFree_literal _ rfl,lineFree_literal _ rfl⟩
  | listsNoPackages =>
    simp only [InventoryError.message,lineFree_append]
    exact ⟨lineFree_literal _ rfl,lineFree_literal _ rfl⟩
  | packageNotAnObject index name =>
    obtain ⟨value,rfl⟩ := h
    simp only [InventoryError.message,lineFree_append]
    exact ⟨⟨⟨⟨lineFree_literal _ rfl,lineFree_digits index⟩,lineFree_literal _ rfl⟩,
      lineFree_typeName value⟩,lineFree_literal _ rfl⟩
  | noUsableName index name =>
    simp only [InventoryError.message,lineFree_append]
    exact ⟨⟨⟨lineFree_literal _ rfl,lineFree_digits index⟩,lineFree_literal _ rfl⟩,hrepr _⟩
  | carriesSeparator index name version =>
    simp only [InventoryError.message,lineFree_append]
    exact ⟨⟨⟨⟨⟨⟨⟨lineFree_literal _ rfl,lineFree_digits index⟩,lineFree_literal _ rfl⟩,hrepr _⟩,
      lineFree_literal _ rfl⟩,hrepr _⟩,lineFree_literal _ rfl⟩,hrepr _⟩
  | everySubject =>
    simp only [InventoryError.message,lineFree_append]
    exact ⟨lineFree_literal _ rfl,lineFree_literal _ rfl⟩

theorem entries_ofValue {error : InventoryError} (h : entries document=.error error) :
    OfValue error := by
  unfold entries at h
  split at h
  · split at h
    · cases h
      trivial
    · split at h
      · cases h
        trivial
      · cases h
    · cases h
      trivial
  · cases h
    exact ⟨_,rfl⟩

theorem readFields_ofValue {index : ℕ} {entry : List (Str×Json)} {error : InventoryError}
    (h : readFields index entry=.error error) : OfValue error := by
  unfold readFields at h
  split at h
  · split at h
    · split at h
      · cases h
      · cases h
        trivial
    · cases h
      trivial
  · cases h
    trivial

theorem readPackage_ofValue {index : ℕ} {entry : Json} {error : InventoryError}
    (h : readPackage found index entry=.error (.own error)) : OfValue error := by
  cases entry with
  | dict object =>
    unfold readPackage at h
    dsimp only at h
    cases hmember : memberOf found (get object (str "SPDXID")) with
    | error raised =>
      rw [hmember] at h
      cases h
      cases hid : get object (str "SPDXID") <;> rw [hid] at hmember <;> cases hmember
    | ok member =>
      rw [hmember] at h
      cases member with
      | true => cases h
      | false =>
        cases hfields : readFields index object with
        | error error' =>
          rw [hfields] at h
          cases h
          exact readFields_ofValue hfields
        | ok package =>
          rw [hfields] at h
          cases h
  | _ =>
    cases h
    exact ⟨_,rfl⟩

theorem collect_ofValue {index : ℕ} {before : Finset Str} {error : InventoryError}
    (h : collect found index before packages=.error (.own error)) : OfValue error := by
  induction packages generalizing index before with
  | nil => cases h
  | cons entry packages ih =>
    cases hread : readPackage found index entry with
    | error raised =>
      simp only [collect,hread] at h
      cases h
      exact readPackage_ofValue hread
    | ok read =>
      cases read with
      | none =>
        simp only [collect,hread] at h
        exact ih h
      | some package =>
        simp only [collect,hread] at h
        exact ih h

/-- The types an inventory's error names are those of values. -/
theorem inventory_ofValue {error : InventoryError}
    (h : inventory document=.error (.own error)) : OfValue error := by
  unfold inventory at h
  split at h
  · rename_i error' hentries
    cases h
    exact entries_ofValue hentries
  · split at h
    · rename_i raised hcollect
      cases h
      exact collect_ofValue hcollect
    · split at h
      · cases h
        trivial
      · cases h

/-- Entries can be counted exactly when every identifier can be looked up. -/
theorem countSubjects_ok_iff :
    (∃ count,countSubjects found packages=.ok count) ↔ ¬Unhashable packages := by
  induction packages with
  | nil =>
    refine iff_of_true ⟨0,rfl⟩ ?_
    rintro ⟨entry,hmem,-⟩
    exact List.not_mem_nil hmem
  | cons value packages ih =>
    rw [unhashable_cons]
    cases value with
    | dict object =>
      by_cases hhash : Hashable (get object (str "SPDXID"))
      · obtain ⟨member,hmember⟩ := @memberOf_of_hashable found _ hhash
        have hstep : (∃ count,countSubjects found (.dict object::packages)=.ok count) ↔
            ∃ count,countSubjects found packages=.ok count := by
          simp only [countSubjects,hmember]
          cases countSubjects found packages <;> simp
        rw [hstep,ih]
        refine not_congr (or_iff_right ?_).symm
        rintro ⟨entry,he,hbad⟩
        cases he
        exact hbad hhash
      · refine iff_of_false ?_ (fun h => h (Or.inl ⟨object,rfl,hhash⟩))
        rintro ⟨count,hcount⟩
        simp only [countSubjects,memberOf_of_not_hashable hhash] at hcount
        cases hcount
    | _ =>
      simp only [countSubjects]
      rw [ih]
      refine not_congr (or_iff_right ?_).symm
      rintro ⟨entry,he,-⟩
      cases he

/-- So can those of any document. -/
theorem subjectsIn_ok_iff (document : Json) :
    (∃ count,subjectsIn document=.ok count) ↔ AllHashable document := by
  cases document with
  | dict fields =>
    cases hlist : get fields (str "packages") with
    | list packages =>
      have hone : AllHashable (.dict fields) ↔ ¬Unhashable packages :=
        ⟨fun h => h packages ⟨fields,rfl,hlist⟩,
          fun h packages' hp => Packages.unique ⟨fields,rfl,hlist⟩ hp ▸ h⟩
      rw [hone,←@countSubjects_ok_iff (described fields) packages]
      simp only [subjectsIn,hlist]
    | _ =>
      refine iff_of_true ⟨0,by simp only [subjectsIn,hlist]⟩ ?_
      rintro packages ⟨fields',he,hlist'⟩
      cases he
      rw [hlist] at hlist'
      cases hlist'
  | _ =>
    refine iff_of_true ⟨0,rfl⟩ ?_
    rintro packages ⟨fields,he,-⟩
    cases he

/-- A refused document is reported in one line. -/
theorem main_refused (hone : OneLine py files destination)
    (hd : readDocument py files source=.ok document) {error : InventoryError}
    (h : inventory document=.error (.own error)) :
    Answers source (main py files [source,destination]) := by
  have hrun : main py files [source,destination]=
      ⟨.ok 1,files,[],[source++str ": "++error.message py]⟩ := by
    simp only [main,write,hd,h,caught]
  rw [hrun]
  exact .refused rfl rfl (lineFree_message hone.repr (inventory_ofValue h))

/-- The lines of an inventory are those of its set of lines. -/
theorem inventory_sorted (h : inventory document=.ok lines) :
    ∃ found : Finset Str,lines=sorted found ∧
      ∀ line,line∈found ↔ ∃ pair,Catalogued document pair ∧ pairLine pair=line := by
  obtain ⟨-,hincreasing,hlines,-⟩ := inventory_lines h
  refine ⟨lines.toFinset,?_,fun line => List.mem_toFinset.trans (hlines line)⟩
  have hnodup : lines.Nodup := hincreasing.imp (fun hlt => ne_of_lt hlt)
  exact ((List.toFinset_sort (fun s t => s≤t) hnodup).mpr (hincreasing.imp le_of_lt)).symm

/-- A run whose second reading raises does not answer. -/
theorem not_answers_of_error {run : Finished InventoryError} {raised : Raised InventoryError}
    (h : run.result=.error raised) : ¬Answers source run := by
  intro ha
  cases ha with
  | written hresult =>
    rw [h] at hresult
    cases hresult
  | refused hresult =>
    rw [h] at hresult
    cases hresult

/-- The second reading, of a source that was not written over. -/
theorem subjectCount_put {bytes : ByteArray} (hne : source≠destination)
    (hd : readDocument py files source=.ok document) :
    subjectCount py (files.put destination bytes) source=subjectsIn document := by
  have hagain : readDocument py (files.put destination bytes) source=.ok document := by
    rw [←hd]
    simp only [readDocument,readText,put_other files bytes hne]
  simp only [subjectCount,hagain]

/-- The second reading, of the inventory that was written over the source. -/
theorem subjectCount_over {text : String} :
    (∃ count,subjectCount py (files.put source text.toUTF8) source=.ok count) ↔
      Countable py (str text) := by
  have hread := readText_text (ε:=InventoryError) (put_same files source text.toUTF8)
  unfold Countable
  simp only [subjectCount,readDocument,hread]
  cases hloads : py.loads (universalNewlines (str text)) with
  | error fault => simp
  | ok again =>
    simp only [Except.ok.injEq,exists_eq_left']
    exact subjectsIn_ok_iff again

/-- A written inventory is reported on exactly when the second reading counts. -/
theorem answers_written_iff {after : Files} {count : ℕ}
    (hw : write py files source destination=(.ok count,after)) :
    Answers source (main py files [source,destination]) ↔
      ∃ dropped,subjectCount py after source=.ok dropped := by
  cases hcount : subjectCount py after source with
  | error raised =>
    refine iff_of_false (@not_answers_of_error source _ raised ?_) (fun h => ?_)
    · simp only [main,hw,hcount]
    · obtain ⟨dropped,hdropped⟩ := h
      cases hdropped
  | ok dropped =>
    refine iff_of_true (.written ?_) ⟨dropped,rfl⟩
    simp only [main,hw,hcount]

/-- An acceptable document is reported on exactly when its lines can be written
and the source is counted again. -/
theorem main_accepted_iff (hone : OneLine py files destination)
    (hd : readDocument py files source=.ok document) (hall : AllHashable document)
    (h : inventory document=.ok lines) :
    Answers source (main py files [source,destination]) ↔
      (files.refused destination=none → encodes (inventoryText lines)=true) ∧
      (source=destination → files.refused destination=none →
        encodes (inventoryText lines)=true → Countable py (inventoryText lines)) := by
  rcases @writeText_cases InventoryError files destination (inventoryText lines) with
    ⟨hrefused,message,hw⟩|⟨hopen,hbad,hw⟩|⟨hgood,bytes,hw⟩
  · refine iff_of_true ?_ ⟨fun he => absurd he hrefused,fun _ he => absurd he hrefused⟩
    have hrun : main py files [source,destination]=
        ⟨.ok 1,files,[],[source++str ": "++message]⟩ := by
      simp only [main,write,hd,h,hw,caught]
    rw [hrun]
    refine .refused rfl rfl ?_
    cases hr : files.refused destination with
    | none => exact absurd hr hrefused
    | some message' =>
      simp only [writeText,hr,Prod.mk.injEq,Except.error.injEq,Raised.os.injEq,and_true] at hw
      rw [←hw]
      exact hone.os message' hr
  · refine iff_of_false (@not_answers_of_error source _ .unicodeEncode ?_)
      (fun hcond => hbad (hcond.1 hopen))
    simp only [main,write,hd,h,hw,caught]
  · obtain ⟨text,htext,hafter⟩ := writeText_eq_ok hw
    have hwrite : write py files source destination=
        (.ok lines.length,files.put destination text.toUTF8) := by
      simp only [write,hd,h,hw,hafter]
    have hopen : files.refused destination=none := by
      cases hr : files.refused destination with
      | none => rfl
      | some message =>
        simp only [writeText,hr] at hw
        cases hw
    rw [answers_written_iff hwrite]
    by_cases hne : source=destination
    · rw [←hne,subjectCount_over,←htext]
      refine ⟨fun hc => ⟨fun _ => hgood,fun _ _ _ => hc⟩,fun hcond => ?_⟩
      exact hcond.2 rfl (hne ▸ hopen) hgood
    · rw [subjectCount_put hne hd]
      refine iff_of_true ((subjectsIn_ok_iff document).mpr hall) ⟨fun _ => hgood,?_⟩
      exact fun he => absurd he hne

/-- A document is reduced, counted and reported on, or refused, exactly when
its identifiers can be looked up, its lines have a UTF-8 form and the source is
not written over. -/
theorem never_crashes_iff (hone : OneLine py files destination)
    (hd : readDocument py files source=.ok document) :
    NeverCrashes py files source destination document ↔
      Safe py files source destination document := by
  have hcount : (∃ count,subjectCount py files source=.ok count) ↔ AllHashable document := by
    simp only [subjectCount,hd]
    exact subjectsIn_ok_iff document
  rcases inventory_cases document with ⟨lines,packages,hlines,haccept⟩|⟨raised,herror,hno,hkind⟩
  · obtain ⟨found,hsorted,hfound⟩ := inventory_sorted hlines
    have hencodes := encodes_inventoryText hd hlines
    constructor
    · intro hn
      have hall := hcount.mp hn.count
      obtain ⟨hwritten,hover⟩ := (main_accepted_iff hone hd hall hlines).mp hn.main
      refine ⟨hall,fun hopen => hencodes.mp (hwritten hopen),?_⟩
      intro hsame hopen _ found' hfound'
      have heq : found'=found := Finset.ext (fun line => (hfound' line).trans (hfound line).symm)
      rw [heq,←hsorted]
      exact hover hsame hopen (hwritten hopen)
    · intro hs
      refine ⟨Or.inl ⟨lines,hlines⟩,hcount.mpr hs.hashable,?_⟩
      refine (main_accepted_iff hone hd hs.hashable hlines).mpr
        ⟨fun hopen => hencodes.mpr (hs.encodable hopen),fun hsame hopen _ => ?_⟩
      rw [hsorted]
      exact hs.apart hsame hopen ⟨packages,haccept⟩ found hfound
  · constructor
    · intro hn
      refine ⟨hcount.mp hn.count,fun _ => ?_,?_⟩
      · rintro ⟨document',packages,hd',haccept,-⟩
        rw [hd,Except.ok.injEq] at hd'
        exact hno packages (hd' ▸ haccept)
      · rintro - - ⟨packages,haccept⟩
        exact absurd haccept (hno packages)
    · intro hs
      rcases hkind with ⟨error,rfl⟩|⟨packages,hpackages,hbad⟩
      · exact ⟨Or.inr ⟨error,herror⟩,hcount.mpr hs.hashable,main_refused hone hd herror⟩
      · exact absurd hbad (hs.hashable packages hpackages)

/-- A document with an image, a package and lines that are all ASCII does not crash. -/
theorem never_crashes_iff_shared :
    NeverCrashes (knownInterp sharedText sharedDocument) (knownFiles sharedText) (str "d")
      (str "k") sharedDocument := by
  have hd := shared_read
  have hone : OneLine (knownInterp sharedText sharedDocument) (knownFiles sharedText) (str "k") :=
    ⟨fun _ => lineFree_nil,fun _ h => (by cases h)⟩
  have hscalar : encodes (inventoryText [str "thing==1.0"])=true :=
    encodes_join.mpr (List.forall_mem_singleton.mpr (encodes_str _))
  refine (never_crashes_iff hone hd).mpr ⟨?_,fun _ => ?_,fun h => absurd h (by decide)⟩
  · exact (subjectsIn_ok_iff sharedDocument).mp ⟨_,rfl⟩
  · exact (encodes_inventoryText hd shared_inventory).mp hscalar

/-- A document whose one package has a list for an identifier. -/
def unhashableText : String := "\x7b\"packages\":[\x7b\"SPDXID\":[]\x7d]\x7d"

/-- The document of that text. -/
def unhashableDocument : Json :=
  .dict [(str "packages",.list [.dict [(str "SPDXID",.list [])]])]

/-- It raises TypeError, in the inventory, in the count and out of `main`. -/
theorem never_crashes_fails :
    inventory unhashableDocument=.error .type ∧ subjectsIn unhashableDocument=.error .type ∧
      (main (knownInterp unhashableText unhashableDocument) (knownFiles unhashableText)
        [str "d",str "k"]).result=.error .type ∧
      ¬NeverCrashes (knownInterp unhashableText unhashableDocument) (knownFiles unhashableText)
        (str "d") (str "k") unhashableDocument := by
  have hd := @known_read unhashableText unhashableDocument (by decide +kernel)
  have hinventory : inventory unhashableDocument=.error .type := rfl
  refine ⟨hinventory,rfl,by simp only [main,write,hd,hinventory,caught],fun hn => ?_⟩
  rcases hn.inventory with ⟨lines,hlines⟩|⟨error,herror⟩
  · rw [hinventory] at hlines
    cases hlines
  · rw [hinventory] at herror
    cases herror

end MlopsPlatform.SupplyInventoryRefusal
