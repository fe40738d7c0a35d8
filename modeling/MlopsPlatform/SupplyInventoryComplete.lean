import MlopsPlatform.SupplyInventoryReproducible

/-!
# No package is lost between the inventory and its count

`inventory` adds a line for an entry of `packages` or `subject_count` adds one
for it. Both ask whether the identifier of the entry is described, so what one
leaves out is what the other counts. The lines and the described identifiers
are told here from the fields alone, and the loops are shown to agree.
-/

namespace MlopsPlatform.SupplyInventoryComplete

open TextCodec TextLines PythonJson PythonFiles SupplyInventory SupplyInventoryDecode
  SupplyInventoryAcceptable SupplyInventoryReproducible

/-- The version a line carries. -/
inductive VersionOf (entry : List (Str×Json)) : Str→Prop where
  /-- It is stated when `versionInfo` is a nonempty string. -/
  | stated {version : Str} (hget : get entry (str "versionInfo")=.str version)
      (hne : version≠[]) : VersionOf entry version
  /-- It is unknown otherwise. -/
  | unknown (hget : ∀ version,get entry (str "versionInfo")=.str version → version=[]) :
      VersionOf entry (str "NOASSERTION")

/-- The line of an entry, from its name and its version. -/
inductive LineOf : Json→Str→Prop where
  /-- Only an object with a name has one. -/
  | object {entry : List (Str×Json)} {name version : Str}
      (hname : get entry (str "name")=.str name) (hversion : VersionOf entry version) :
      LineOf (.dict entry) (name++str "=="++version)

/-- A field of an entry, absent when the entry is not an object. -/
def fieldOf (key : Str) : Json→Json
  | .dict entry => get entry key
  | _ => .none

/-- The identifier of the entry is one the document describes. -/
def Described (fields : List (Str×Json)) (entry : Json) : Prop :=
  ∃ identifier,fieldOf (str "SPDXID") entry=.str identifier ∧ Describes fields identifier

/-- `isinstance(entry, dict) and entry.get("SPDXID") in described`: what
`subject_count` adds one for. -/
def counted (found : Finset Str) : Json→Bool
  | .dict entry =>
    match memberOf found (get entry (str "SPDXID")) with
    | .ok subject => subject
    | .error _ => false
  | _ => false

/-- The loop of `inventory` adds this line for the entry at this index. -/
def Adds (found : Finset Str) (index : ℕ) (entry : Json) (line : Str) : Prop :=
  ∃ package,readPackage found index entry=.ok (some package) ∧ package.line=line

/-- What an inventory and the count beside it say of a list of packages. -/
structure Complete (py : Interp) (files : Files) (source : Str) (fields : List (Str×Json))
    (packages : List Json) (lines : List Str) : Prop where
  /-- The inventory is not empty. -/
  nonempty : lines≠[]
  /-- It is sorted, and no line is repeated. -/
  increasing : lines.Pairwise (fun s t => s<t)
  /-- Its lines are those of the entries that are not described. -/
  exact : ∀ line,line∈lines ↔ ∃ entry∈packages,¬Described fields entry ∧ LineOf entry line
  /-- The count is the number of entries that are counted. -/
  count : subjectCount py files source=.ok (packages.countP (counted (described fields)))
  /-- Every entry is counted and adds no line, or has its line and is not counted. -/
  accounted : ∀ index entry,packages[index]?=some entry →
    (counted (described fields) entry=true ∧ ∀ line,¬Adds (described fields) index entry line) ∨
    (counted (described fields) entry=false ∧
      ∃ line∈lines,Adds (described fields) index entry line ∧ LineOf entry line)
  /-- Of the entries of one identifier none is counted while another adds a line. -/
  apart : ∀ index entry other line,entry∈packages → packages[index]?=some other →
    fieldOf (str "SPDXID") entry=fieldOf (str "SPDXID") other →
    counted (described fields) entry=true → ¬Adds (described fields) index other line
  /-- An entry with the name of a counted one keeps its line under an identifier of its own. -/
  shared : ∀ entry∈packages,∀ other∈packages,counted (described fields) entry=true →
    fieldOf (str "name") entry=fieldOf (str "name") other →
    (∀ identifier,Describes fields identifier → fieldOf (str "SPDXID") other≠.str identifier) →
    ∃ line∈lines,LineOf other line

variable {found : Finset Str} {fields : List (Str×Json)} {packages : List Json} {entry : Json}
  {document : Json} {lines : List Str}

/-- The loops take an entry for the subject when its identifier is described. -/
theorem subject_iff_described : Subject (described fields) entry ↔ Described fields entry := by
  constructor
  · rintro ⟨object,identifier,rfl,hid,hfound⟩
    exact ⟨identifier,hid,mem_described.mp hfound⟩
  · rintro ⟨identifier,hid,hdescribes⟩
    cases entry with
    | dict object => exact ⟨object,identifier,rfl,hid,mem_described.mpr hdescribes⟩
    | _ => cases hid

/-- An entry has one version. -/
theorem VersionOf.unique {object : List (Str×Json)} {version other : Str}
    (h : VersionOf object version) (h' : VersionOf object other) : version=other := by
  cases h with
  | stated hget hne =>
    cases h' with
    | stated hget' hne' => exact Json.str.inj (hget.symm.trans hget')
    | unknown hnone => exact absurd (hnone _ hget) hne
  | unknown hnone =>
    cases h' with
    | stated hget hne => exact absurd (hnone _ hget) hne
    | unknown hnone' => rfl

/-- The source reads that version. -/
theorem versionOf_spec (object : List (Str×Json)) : VersionOf object (versionOf object) := by
  unfold versionOf
  split
  · rename_i stated hget
    split
    · rename_i hempty
      exact .unknown (fun other hother => (Json.str.inj (hother.symm.trans hget)).trans hempty)
    · rename_i hne
      exact .stated hget hne
  · rename_i hother
    exact .unknown (fun stated hget => absurd hget (hother stated))

theorem versionOf_iff {object : List (Str×Json)} {version : Str} :
    versionOf object=version ↔ VersionOf object version := by
  constructor
  · rintro rfl
    exact versionOf_spec object
  · exact fun h => (versionOf_spec object).unique h

/-- The line of an entry is that of its pair. -/
theorem lineOf_iff {line : Str} : LineOf entry line ↔ ∃ pair,Named entry pair ∧ pairLine pair=line := by
  constructor
  · intro h
    cases h with
    | object hname hversion =>
      exact ⟨(_,_),⟨_,rfl,hname,versionOf_iff.mpr hversion⟩,rfl⟩
  · rintro ⟨⟨name,version⟩,⟨object,rfl,hname,hversion⟩,rfl⟩
    exact .object hname (versionOf_iff.mp hversion)

/-- What is counted is the subject. -/
theorem counted_iff : counted found entry=true ↔ Subject found entry := by
  cases entry with
  | dict object =>
    have hmember : counted found (.dict object)=true ↔
        memberOf found (get object (str "SPDXID"))=.ok true := by
      cases hm : memberOf found (get object (str "SPDXID")) <;> simp [counted,hm]
    rw [hmember,memberOf_true_iff]
    constructor
    · rintro ⟨identifier,hid,hfound⟩
      exact ⟨object,identifier,rfl,hid,hfound⟩
    · rintro ⟨object',identifier,he,hid,hfound⟩
      cases he
      exact ⟨identifier,hid,hfound⟩
  | _ =>
    refine iff_of_false Bool.false_ne_true ?_
    rintro ⟨object,identifier,he,-⟩
    cases he

/-- The sum of `subject_count` is the number of entries it counts. -/
theorem countSubjects_eq {count : ℕ} (h : countSubjects found packages=.ok count) :
    count=packages.countP (counted found) := by
  induction packages generalizing count with
  | nil =>
    cases h
    rfl
  | cons entry packages ih =>
    cases entry with
    | dict object =>
      cases hmember : memberOf found (get object (str "SPDXID")) with
      | error raised =>
        simp only [countSubjects,hmember] at h
        cases h
      | ok subject =>
        cases hrest : countSubjects found packages with
        | error raised =>
          simp only [countSubjects,hmember,hrest] at h
          cases h
        | ok rest =>
          simp only [countSubjects,hmember,hrest,Except.ok.injEq] at h
          have hcounted : counted found (.dict object)=subject := by
            simp only [counted,hmember]
          rw [List.countP_cons,hcounted,←ih hrest,←h]
          cases subject <;> rfl
    | _ =>
      rw [List.countP_cons_of_neg (by simp [counted])]
      exact ih h

/-- The loop that ends well reads every entry at its own index. -/
theorem collect_reads {index : ℕ} {before result : Finset Str}
    (h : collect found index before packages=.ok result) {place : ℕ}
    (hplace : packages[place]?=some entry) :
    ∃ read,readPackage found (index+place) entry=.ok read := by
  induction packages generalizing index before place with
  | nil => cases hplace
  | cons first packages ih =>
    cases hread : readPackage found index first with
    | error raised =>
      simp only [collect,hread] at h
      cases h
    | ok read =>
      cases place with
      | zero =>
        cases hplace
        exact ⟨read,hread⟩
      | succ place =>
        have hnext : index+(place+1)=index+1+place := by omega
        rw [hnext]
        cases read with
        | none =>
          simp only [collect,hread] at h
          exact ih h hplace
        | some package =>
          simp only [collect,hread] at h
          exact ih h hplace

/-- An accepted document is an object whose list of packages was read through. -/
theorem inventory_reads (h : inventory document=.ok lines) :
    ∃ fields packages,document=.dict fields ∧ get fields (str "packages")=.list packages ∧
      (∀ pair,Catalogued document pair ↔ Listed (described fields) packages pair) ∧
      ∀ place entry,packages[place]?=some entry →
        ∃ read,readPackage (described fields) place entry=.ok read := by
  obtain ⟨packages,⟨fields,rfl,hlist⟩,hcatalogued⟩ := catalogued_of_inventory h
  refine ⟨fields,packages,rfl,hlist,hcatalogued,fun place entry hplace => ?_⟩
  have hentries : entries (.dict fields)=.ok packages := by
    have hne : packages≠[] := List.ne_nil_of_mem (List.mem_of_getElem? hplace)
    simp only [entries,hlist,if_neg hne]
  simp only [inventory,hentries] at h
  cases hcollect : collect (subjects (.dict fields)) 0 ∅ packages with
  | error raised =>
    simp only [hcollect] at h
    cases h
  | ok result =>
    have hread := collect_reads hcollect hplace
    rwa [Nat.zero_add] at hread

/-- What adds a line is not described and has that line. -/
theorem adds_spec {index : ℕ} {line : Str} (h : Adds (described fields) index entry line) :
    ¬Described fields entry ∧ LineOf entry line := by
  obtain ⟨package,hread,rfl⟩ := h
  obtain ⟨hsubject,hnamed⟩ := readPackage_eq_some hread
  exact ⟨fun hd => hsubject (subject_iff_described.mpr hd),lineOf_iff.mpr ⟨_,hnamed,rfl⟩⟩

/-- Described entries are the counted ones. -/
theorem counted_iff_described :
    counted (described fields) entry=true ↔ Described fields entry :=
  counted_iff.trans subject_iff_described

/-- Being described is a matter of the identifier. -/
theorem described_congr {other : Json}
    (h : fieldOf (str "SPDXID") entry=fieldOf (str "SPDXID") other) :
    Described fields entry ↔ Described fields other := by
  unfold Described
  rw [h]

/-- The lines of an accepted document are those of its entries that are not
described. -/
theorem mem_inventory_iff (h : inventory document=.ok lines) {fields : List (Str×Json)}
    (hd : document=.dict fields) (hlist : get fields (str "packages")=.list packages) (line : Str) :
    line∈lines ↔ ∃ entry∈packages,¬Described fields entry ∧ LineOf entry line := by
  obtain ⟨fields',packages',hd',hlist',hcatalogued,-⟩ := inventory_reads h
  rw [hd] at hd'
  cases hd'
  rw [hlist] at hlist'
  cases hlist'
  rw [(inventory_lines h).2.2.1]
  constructor
  · rintro ⟨pair,hpair,hline⟩
    obtain ⟨entry,hmem,hsubject,hnamed⟩ := (hcatalogued pair).mp hpair
    refine ⟨entry,hmem,fun hdesc => hsubject (subject_iff_described.mpr hdesc),?_⟩
    exact lineOf_iff.mpr ⟨pair,hnamed,hline⟩
  · rintro ⟨entry,hmem,hdesc,hline⟩
    obtain ⟨pair,hnamed,hpair⟩ := lineOf_iff.mp hline
    refine ⟨pair,(hcatalogued pair).mpr ⟨entry,hmem,?_,hnamed⟩,hpair⟩
    exact fun hsubject => hdesc (subject_iff_described.mp hsubject)

/-- Every entry of an accepted document is described and adds no line, or is
not and has its line in the inventory. -/
theorem entry_accounted (h : inventory document=.ok lines) (hd : document=.dict fields)
    (hlist : get fields (str "packages")=.list packages) {index : ℕ}
    (hplace : packages[index]?=some entry) :
    (Described fields entry ∧ ∀ line,¬Adds (described fields) index entry line) ∨
    (¬Described fields entry ∧
      ∃ line∈lines,Adds (described fields) index entry line ∧ LineOf entry line) := by
  obtain ⟨fields',packages',hd',hlist',-,hreads⟩ := inventory_reads h
  rw [hd] at hd'
  cases hd'
  rw [hlist] at hlist'
  cases hlist'
  obtain ⟨read,hread⟩ := hreads index entry hplace
  cases read with
  | none =>
    have hdescribed := subject_iff_described.mp (readPackage_eq_none.mp hread)
    exact Or.inl ⟨hdescribed,fun line hadds => (adds_spec hadds).1 hdescribed⟩
  | some package =>
    have hadds : Adds (described fields) index entry package.line := ⟨package,hread,rfl⟩
    obtain ⟨hdescribed,hline⟩ := adds_spec hadds
    refine Or.inr ⟨hdescribed,package.line,?_,hadds,hline⟩
    exact (mem_inventory_iff h hd hlist _).mpr
      ⟨entry,List.mem_of_getElem? hplace,hdescribed,hline⟩

/-- The entries of an accepted document can be counted. -/
theorem subjectsIn_eq (h : inventory document=.ok lines) (hd : document=.dict fields)
    (hlist : get fields (str "packages")=.list packages) :
    subjectsIn document=.ok (packages.countP (counted (described fields))) := by
  obtain ⟨packages',haccept⟩ := acceptable_of_inventory h
  obtain ⟨count,hcount⟩ := subjectsIn_of_acceptable haccept
  have hsum : countSubjects (described fields) packages=.ok count := by
    rw [hd] at hcount
    simpa only [subjectsIn,hlist] using hcount
  rw [hcount,countSubjects_eq hsum]

/-- Nothing is omitted from an inventory: its lines are those of the entries
that are not described, and `subject_count` counts the others. -/
theorem inventory_complete {py : Interp} {files : Files} {source : Str} {document : Json}
    {lines : List Str} (hd : readDocument py files source=.ok document)
    (h : inventory document=.ok lines) :
    ∃ fields packages,document=.dict fields ∧ get fields (str "packages")=.list packages ∧
      Complete py files source fields packages lines := by
  obtain ⟨hne,hincreasing,-,-⟩ := inventory_lines h
  obtain ⟨fields,packages,hobject,hlist,-,-⟩ := inventory_reads h
  refine ⟨fields,packages,hobject,hlist,hne,hincreasing,mem_inventory_iff h hobject hlist,?_,?_,?_,?_⟩
  · simp only [subjectCount,hd]
    exact subjectsIn_eq h hobject hlist
  · intro index entry hplace
    rcases entry_accounted h hobject hlist hplace with ⟨hdescribed,hnone⟩|⟨hdescribed,hline⟩
    · exact Or.inl ⟨counted_iff_described.mpr hdescribed,hnone⟩
    · refine Or.inr ⟨Bool.eq_false_iff.mpr (fun hc => ?_),hline⟩
      exact hdescribed (counted_iff_described.mp hc)
  · intro index entry other line hmem hplace hsame hcounted hadds
    have hdescribed := (described_congr hsame).mp (counted_iff_described.mp hcounted)
    exact (adds_spec hadds).1 hdescribed
  · intro entry hmem other hother hcounted hname hfresh
    obtain ⟨index,hplace⟩ := List.mem_iff_getElem?.mp hother
    rcases entry_accounted h hobject hlist hplace with ⟨⟨identifier,hid,hdescribes⟩,-⟩|⟨-,line,hline,-,hlineOf⟩
    · exact absurd hid (hfresh identifier hdescribes)
    · exact ⟨line,hline,hlineOf⟩

/-- An interpreter whose parser knows one text. -/
def knownInterp (text : String) (document : Json) : Interp :=
  ⟨fun s => if s=str text then .ok document else .error (.decode (str "Expecting value")),fun _ => []⟩

/-- That text at `d`, and no other file. -/
def knownFiles (text : String) : Files :=
  ⟨fun path => if path=str "d" then .ok text.toUTF8 else .error (.os (str "No such file or directory")),
    fun _ => none⟩

/-- The known text is read as its document. -/
theorem known_read {text : String} (document : Json) (h : cr∉str text) :
    readDocument (knownInterp text document) (knownFiles text) (str "d")=.ok document := by
  have hfile : (knownFiles text).content (str "d")=.ok text.toUTF8 := rfl
  have hloads : (knownInterp text document).loads (str text)=.ok document := if_pos rfl
  simp only [readDocument,readText_text hfile,universalNewlines_of_notMem h,hloads]

/-- An image and a package of its name and version. -/
def sharedText : String :=
  "\x7b\"documentDescribes\":[\"SPDXRef-image\"],\"packages\":["++
    "\x7b\"SPDXID\":\"SPDXRef-image\",\"name\":\"thing\",\"versionInfo\":\"1.0\"\x7d,"++
    "\x7b\"SPDXID\":\"SPDXRef-real\",\"name\":\"thing\",\"versionInfo\":\"1.0\"\x7d]\x7d"

/-- A package of that name and version, by its identifier. -/
def thing (identifier : String) : List (Str×Json) :=
  [(str "SPDXID",.str (str identifier)),(str "name",.str (str "thing")),
    (str "versionInfo",.str (str "1.0"))]

/-- The document of that text. -/
def sharedDocument : Json :=
  .dict [(str "documentDescribes",.list [.str (str "SPDXRef-image")]),
    (str "packages",.list [.dict (thing "SPDXRef-image"),.dict (thing "SPDXRef-real")])]

/-- The package keeps the line it shares with the image. -/
theorem shared_inventory : inventory sharedDocument=.ok [str "thing==1.0"] := by
  have hentries : entries sharedDocument=
      .ok [.dict (thing "SPDXRef-image"),.dict (thing "SPDXRef-real")] := rfl
  have himage : readPackage (subjects sharedDocument) 0 (.dict (thing "SPDXRef-image"))=
      .ok none := readPackage_eq_none.mpr ⟨_,_,rfl,rfl,by decide⟩
  have hmember : memberOf (subjects sharedDocument) (get (thing "SPDXRef-real") (str "SPDXID"))=
      .ok false := rfl
  have hfields := (readFields_eq_ok 1 (thing "SPDXRef-real")
    ⟨str "thing",str "1.0",by decide,by decide,by decide⟩).mpr ⟨rfl,rfl⟩
  have hreal : readPackage (subjects sharedDocument) 1 (.dict (thing "SPDXRef-real"))=
      .ok (some ⟨str "thing",str "1.0",by decide,by decide,by decide⟩) := by
    simp only [readPackage,hmember,hfields]
  simp only [inventory,hentries,collect,himage,hreal,insert_empty_eq,Finset.singleton_ne_empty,
    if_false,TextSorted.sorted,Finset.sort_singleton]
  rfl

theorem shared_read : readDocument (knownInterp sharedText sharedDocument) (knownFiles sharedText)
    (str "d")=.ok sharedDocument :=
  known_read sharedDocument (by decide +kernel)

theorem inventory_complete_shared :
    ∃ fields packages,sharedDocument=.dict fields ∧ get fields (str "packages")=.list packages ∧
      Complete (knownInterp sharedText sharedDocument) (knownFiles sharedText) (str "d") fields
        packages [str "thing==1.0"] :=
  inventory_complete shared_read shared_inventory

end MlopsPlatform.SupplyInventoryComplete
