import MlopsPlatform.SupplyInventoryAcceptable

/-!
# Inventories are reproducible

What `inventory` reads of an entry are three fields, and of the document what
it describes. Two documents that agree on the set of these, whatever else they
hold and however often and in whatever order, are both refused or have one
inventory. Everything the source asks of an entry is transported along equal
fields, and every question about all entries along equal sets of them.
-/

namespace MlopsPlatform.SupplyInventoryReproducible

open TextCodec PythonJson PythonFiles SupplyInventory SupplyInventoryDecode
  SupplyInventoryAcceptable

/-- What is read of an entry: its identifier, its name and its version. -/
def facts (entry : List (Str×Json)) : Json×Json×Json :=
  (get entry (str "SPDXID"),get entry (str "name"),get entry (str "versionInfo"))

/-- A document describes an identifier, in either spelling. -/
inductive Describes (fields : List (Str×Json)) : Str→Prop where
  /-- It is among `documentDescribes`. -/
  | listed {items : List Json} {identifier : Str}
      (hitems : get fields (str "documentDescribes")=.list items)
      (hmem : .str identifier∈items) : Describes fields identifier
  /-- It is the target of a DESCRIBES relationship. -/
  | related {items : List Json} {relationship : List (Str×Json)} {identifier : Str}
      (hitems : get fields (str "relationships")=.list items)
      (hmem : .dict relationship∈items)
      (hkind : get relationship (str "relationshipType")=.str (str "DESCRIBES"))
      (htarget : get relationship (str "relatedSpdxElement")=.str identifier) :
      Describes fields identifier

/-- A document with object packages whose identifiers are strings or absent. -/
structure Spdx (document : Json) (fields : List (Str×Json))
    (packages : List (List (Str×Json))) : Prop where
  /-- It is an object. -/
  object : document=.dict fields
  /-- Its packages are objects. -/
  listed : get fields (str "packages")=.list (packages.map .dict)
  /-- Their identifiers are strings or absent. -/
  identified : ∀ entry∈packages,get entry (str "SPDXID")=.none ∨
    ∃ identifier,get entry (str "SPDXID")=.str identifier

/-- Two documents agree on what an inventory is made from. -/
structure Agree (fields fields' : List (Str×Json))
    (packages packages' : List (List (Str×Json))) : Prop where
  /-- They have the same set of entries. -/
  entries : ∀ fact,fact∈packages.map facts ↔ fact∈packages'.map facts
  /-- They describe the same identifiers. -/
  describes : ∀ identifier,Describes fields identifier ↔ Describes fields' identifier

variable {fields fields' entry other : List (Str×Json)} {packages packages' : List (List (Str×Json))}
  {document document' : Json} {found : Finset Str}

/-- What is found in a value is what is read from the items of a list. -/
theorem mem_foundIn {read : Json→Option Str} {value : Json} {identifier : Str} :
    identifier∈foundIn read value ↔
      ∃ items,value=.list items ∧ ∃ item∈items,read item=some identifier := by
  cases value with
  | list items =>
    rw [foundIn,List.mem_toFinset,List.mem_filterMap]
    constructor
    · exact fun h => ⟨items,rfl,h⟩
    · rintro ⟨items',he,h⟩
      cases he
      exact h
  | _ => exact iff_of_false (Finset.notMem_empty _) (fun ⟨_,he,_⟩ => (by cases he))

/-- Only a string is read as one. -/
theorem stringOf_eq_some {item : Json} {identifier : Str} :
    stringOf item=some identifier ↔ item=.str identifier := by
  cases item <;> simp [stringOf]

/-- `_described` finds what the document describes. -/
theorem mem_described {identifier : Str} :
    identifier∈described fields ↔ Describes fields identifier := by
  rw [described,Finset.mem_union,mem_foundIn,mem_foundIn]
  constructor
  · rintro (⟨items,hitems,item,hmem,hread⟩|⟨items,hitems,item,hmem,hread⟩)
    · rw [stringOf_eq_some] at hread
      exact .listed hitems (hread ▸ hmem)
    · unfold relatedElement at hread
      split at hread
      · rename_i relationship
        split at hread
        · rename_i kind hkind
          split at hread
          · rename_i hd
            rw [stringOf_eq_some] at hread
            rw [hd] at hkind
            exact .related hitems hmem hkind hread
          · cases hread
        · cases hread
      · cases hread
  · intro h
    cases h with
    | listed hitems hmem => exact Or.inl ⟨_,hitems,_,hmem,rfl⟩
    | related hitems hmem hkind htarget =>
      refine Or.inr ⟨_,hitems,_,hmem,?_⟩
      have hd : str "DESCRIBES"=describes := rfl
      simp only [relatedElement,hkind,hd,if_true,htarget,stringOf]

/-- The subject is told by the identifier alone. -/
theorem subject_congr (h : facts entry=facts other) :
    Subject found (.dict entry) ↔ Subject found (.dict other) := by
  have hid : get entry (str "SPDXID")=get other (str "SPDXID") := congrArg Prod.fst h
  unfold Subject
  simp only [Json.dict.injEq,exists_and_left,exists_eq_left',hid]

/-- The version is told by the field of that name. -/
theorem versionOf_congr (h : facts entry=facts other) : versionOf entry=versionOf other := by
  have hversion : get entry (str "versionInfo")=get other (str "versionInfo") :=
    congrArg (fun fact => fact.2.2) h
  unfold versionOf
  rw [hversion]

/-- Whether an entry passes the checks is told by its name and version. -/
theorem usable_congr (h : facts entry=facts other) : Usable entry ↔ Usable other := by
  have hname : get entry (str "name")=get other (str "name") := congrArg (fun fact => fact.2.1) h
  unfold Usable
  rw [hname,versionOf_congr h]

/-- So is what it is listed as. -/
theorem named_congr (h : facts entry=facts other) (pair : Str×Str) :
    Named (.dict entry) pair ↔ Named (.dict other) pair := by
  have hname : get entry (str "name")=get other (str "name") := congrArg (fun fact => fact.2.1) h
  unfold Named
  simp only [Json.dict.injEq,exists_eq_left',hname,versionOf_congr h]

/-- A question about the facts of an entry has one answer over equal sets of
entries. -/
theorem exists_congr_of_facts {P : List (Str×Json)→Prop}
    (hP : ∀ {e o},facts e=facts o → (P e ↔ P o))
    (h : ∀ fact,fact∈packages.map facts ↔ fact∈packages'.map facts) :
    (∃ e∈packages,P e) ↔ ∃ e∈packages',P e := by
  have hhalf : ∀ {source target : List (List (Str×Json))},
      (∀ fact,fact∈source.map facts → fact∈target.map facts) →
        (∃ e∈source,P e) → ∃ e∈target,P e := by
    rintro source target hsub ⟨e,he,hp⟩
    obtain ⟨o,ho,hsame⟩ := List.mem_map.mp (hsub (facts e) (List.mem_map_of_mem he))
    exact ⟨o,ho,(hP hsame).mpr hp⟩
  exact ⟨hhalf (fun fact => (h fact).mp),hhalf (fun fact => (h fact).mpr)⟩

/-- So has what is asked of all of them. -/
theorem forall_congr_of_facts {P : List (Str×Json)→Prop}
    (hP : ∀ {e o},facts e=facts o → (P e ↔ P o))
    (h : ∀ fact,fact∈packages.map facts ↔ fact∈packages'.map facts) :
    (∀ e∈packages,P e) ↔ ∀ e∈packages',P e := by
  have hex := exists_congr_of_facts (P:=fun e => ¬P e) (fun hf => not_congr (hP hf)) h
  have hnot := not_congr hex
  push Not at hnot
  exact hnot

theorem packages_eq (h : Spdx document fields packages) :
    Packages document (packages.map .dict) := ⟨fields,h.object,h.listed⟩

theorem subjects_eq (h : Spdx document fields packages) : subjects document=described fields := by
  rw [h.object,subjects]

/-- The identifiers of such a document can all be hashed. -/
theorem hashable_of_mem (h : Spdx document fields packages) (hmem : entry∈packages) :
    Hashable (get entry (str "SPDXID")) := by
  rcases h.identified entry hmem with hnone|⟨identifier,hid⟩
  · rw [hnone]
    exact ⟨fun _ he => (by cases he),fun _ he => (by cases he)⟩
  · rw [hid]
    exact ⟨fun _ he => (by cases he),fun _ he => (by cases he)⟩

/-- It is acceptable when every entry is the subject or passes the checks, and
one is not the subject. -/
theorem acceptable_iff_entries (h : Spdx document fields packages) :
    Acceptable document (packages.map .dict) ↔
      (∀ entry∈packages,Subject (described fields) (.dict entry) ∨ Usable entry) ∧
        ∃ entry∈packages,¬Subject (described fields) (.dict entry) := by
  rw [←subjects_eq h]
  constructor
  · rintro ⟨-,hgood,value,hvalue,hother⟩
    refine ⟨fun entry hmem => ?_,?_⟩
    · obtain ⟨entry',he,-,hcase⟩ := hgood (.dict entry) (List.mem_map_of_mem hmem)
      cases he
      exact hcase
    · obtain ⟨entry,hmem,rfl⟩ := List.mem_map.mp hvalue
      exact ⟨entry,hmem,hother⟩
  · rintro ⟨hall,entry,hmem,hother⟩
    refine ⟨packages_eq h,fun value hvalue => ?_,.dict entry,List.mem_map_of_mem hmem,hother⟩
    obtain ⟨entry,hmem,rfl⟩ := List.mem_map.mp hvalue
    exact ⟨entry,rfl,hashable_of_mem h hmem,hall entry hmem⟩

/-- Such a document is inventoried when it is acceptable, and otherwise refused. -/
theorem inventory_refused (h : Spdx document fields packages)
    (hbad : ¬Acceptable document (packages.map .dict)) :
    ∃ error,inventory document=.error (.own error) := by
  rcases inventory_cases document with ⟨lines,values,-,ha⟩|⟨raised,hraised,-,hkind⟩
  · rw [ha.listed.unique (packages_eq h)] at ha
    exact absurd ha hbad
  · rcases hkind with ⟨error,rfl⟩|⟨values,hvalues,entry,hmem,hhash⟩
    · exact ⟨error,hraised⟩
    · rw [hvalues.unique (packages_eq h)] at hmem
      obtain ⟨entry',hmem',he⟩ := List.mem_map.mp hmem
      cases he
      exact absurd (hashable_of_mem h hmem') hhash

/-- Documents that agree describe the same set. -/
theorem described_eq (h : Agree fields fields' packages packages') :
    described fields=described fields' := by
  ext identifier
  rw [mem_described,mem_described,h.describes]

/-- Documents that agree are acceptable alike. -/
theorem acceptable_congr (h : Spdx document fields packages)
    (h' : Spdx document' fields' packages') (hagree : Agree fields fields' packages packages') :
    Acceptable document (packages.map .dict) ↔ Acceptable document' (packages'.map .dict) := by
  rw [acceptable_iff_entries h,acceptable_iff_entries h',←described_eq hagree]
  exact and_congr
    (forall_congr_of_facts (fun hf => or_congr (subject_congr hf) (usable_congr hf)) hagree.entries)
    (exists_congr_of_facts (fun hf => not_congr (subject_congr hf)) hagree.entries)

/-- What an acceptable document catalogues is asked of its packages. -/
theorem catalogued_iff (h : Spdx document fields packages) {lines : List Str}
    (hlines : inventory document=.ok lines) {pair : Str×Str} :
    Catalogued document pair ↔
      ∃ entry∈packages,¬Subject (described fields) (.dict entry) ∧ Named (.dict entry) pair := by
  obtain ⟨values,hvalues,hcatalogued⟩ := catalogued_of_inventory hlines
  rw [hvalues.unique (packages_eq h)] at hcatalogued
  rw [hcatalogued,Listed,subjects_eq h]
  constructor
  · rintro ⟨value,hvalue,hsubject,hnamed⟩
    obtain ⟨entry,hmem,rfl⟩ := List.mem_map.mp hvalue
    exact ⟨entry,hmem,hsubject,hnamed⟩
  · rintro ⟨entry,hmem,hsubject,hnamed⟩
    exact ⟨.dict entry,List.mem_map_of_mem hmem,hsubject,hnamed⟩

/-- Documents that agree catalogue the same pairs. -/
theorem catalogued_congr (h : Spdx document fields packages)
    (h' : Spdx document' fields' packages') (hagree : Agree fields fields' packages packages')
    {lines lines' : List Str} (hlines : inventory document=.ok lines)
    (hlines' : inventory document'=.ok lines') (pair : Str×Str) :
    Catalogued document pair ↔ Catalogued document' pair := by
  rw [catalogued_iff h hlines,catalogued_iff h' hlines',←described_eq hagree]
  exact exists_congr_of_facts
    (fun hf => and_congr (not_congr (subject_congr hf)) (named_congr hf pair)) hagree.entries

/-- One inventory is written as one file, wherever the document came from. -/
theorem write_congr {py py' : Interp} {files files' : Files}
    {source source' destination destination' : Str} {lines : List Str}
    (hread : readDocument py files source=.ok document)
    (hread' : readDocument py' files' source'=.ok document')
    (hlines : inventory document=.ok lines) (hlines' : inventory document'=.ok lines)
    (hopen : files.refused destination=none) (hopen' : files'.refused destination'=none) :
    (write py files source destination).1=(write py' files' source' destination').1 ∧
      ∃ bytes,(write py files source destination).2.content destination=.ok bytes ∧
        (write py' files' source' destination').2.content destination'=.ok bytes := by
  simp only [write,hread,hread',hlines,hlines',writeText,hopen,hopen']
  cases encode (inventoryText lines) with
  | none => exact ⟨rfl,_,put_same _ _ _,put_same _ _ _⟩
  | some bytes => exact ⟨rfl,_,put_same _ _ _,put_same _ _ _⟩

/-- Two documents with the same set of entries that describe the same
identifiers, whatever else they hold, are both refused or have one inventory,
and it is written byte for byte the same. -/
theorem inventory_reproducible (h : Spdx document fields packages)
    (h' : Spdx document' fields' packages') (hagree : Agree fields fields' packages packages') :
    ((∃ error,inventory document=.error (.own error)) ∧
      ∃ error,inventory document'=.error (.own error)) ∨
    ∃ lines,inventory document=.ok lines ∧ inventory document'=.ok lines ∧
      ∀ (py py' : Interp) (files files' : Files) (source source' destination destination' : Str),
        readDocument py files source=.ok document →
        readDocument py' files' source'=.ok document' →
        files.refused destination=none → files'.refused destination'=none →
        (write py files source destination).1=(write py' files' source' destination').1 ∧
          ∃ bytes,(write py files source destination).2.content destination=.ok bytes ∧
            (write py' files' source' destination').2.content destination'=.ok bytes := by
  have hcongr := acceptable_congr h h' hagree
  by_cases hrefused : Acceptable document (packages.map .dict)
  · right
    obtain ⟨lines,hlines⟩ := inventory_of_acceptable hrefused
    obtain ⟨lines',hlines'⟩ := inventory_of_acceptable (hcongr.mp hrefused)
    have hsame : lines=lines' := by
      obtain ⟨-,hsorted,hmem,-⟩ := inventory_lines hlines
      obtain ⟨-,hsorted',hmem',-⟩ := inventory_lines hlines'
      refine hsorted.eq_of_mem_iff hsorted' (fun line => ?_)
      rw [hmem,hmem']
      simp only [catalogued_congr h h' hagree hlines hlines']
    rw [←hsame] at hlines'
    refine ⟨lines,hlines,hlines',?_⟩
    intro py py' files files' source source' destination destination' hread hread' hopen hopen'
    exact write_congr hread hread' hlines hlines' hopen hopen'
  · exact Or.inl ⟨inventory_refused h hrefused,inventory_refused h' (fun ha => hrefused (hcongr.mpr ha))⟩

/-- A document that describes its subject by name. -/
def byField : List (Str×Json) :=
  [(str "documentDescribes",.list [.str (str "SPDXRef-image")]),
    (str "packages",.list [
      .dict [(str "SPDXID",.str (str "SPDXRef-image")),(str "name",.str (str "image"))],
      .dict [(str "name",.str (str "zlib")),(str "versionInfo",.str (str "1.3.1"))]])]

/-- Another one of the same image: a relationship describes the subject, the
package is found twice and first, and there is a namespace. -/
def byRelationship : List (Str×Json) :=
  [(str "documentNamespace",.str (str "https://anchore.com/syft/image")),
    (str "packages",.list [
      .dict [(str "name",.str (str "zlib")),(str "versionInfo",.str (str "1.3.1"))],
      .dict [(str "SPDXID",.str (str "SPDXRef-image")),(str "name",.str (str "image"))],
      .dict [(str "name",.str (str "zlib")),(str "versionInfo",.str (str "1.3.1")),
        (str "supplier",.none)]]),
    (str "relationships",.list [.dict [
      (str "relationshipType",.str (str "DESCRIBES")),
      (str "relatedSpdxElement",.str (str "SPDXRef-image"))]])]

/-- These two have one inventory. -/
theorem inventory_reproducible_spellings :
    ∃ lines,inventory (.dict byField)=.ok lines ∧ inventory (.dict byRelationship)=.ok lines := by
  have hfirst : Spdx (.dict byField) byField
      [[(str "SPDXID",.str (str "SPDXRef-image")),(str "name",.str (str "image"))],
        [(str "name",.str (str "zlib")),(str "versionInfo",.str (str "1.3.1"))]] := by
    refine ⟨rfl,rfl,?_⟩
    simp only [List.forall_mem_cons]
    exact ⟨Or.inr ⟨_,rfl⟩,Or.inl rfl,fun _ h => absurd h List.not_mem_nil⟩
  have hsecond : Spdx (.dict byRelationship) byRelationship
      [[(str "name",.str (str "zlib")),(str "versionInfo",.str (str "1.3.1"))],
        [(str "SPDXID",.str (str "SPDXRef-image")),(str "name",.str (str "image"))],
        [(str "name",.str (str "zlib")),(str "versionInfo",.str (str "1.3.1")),
          (str "supplier",.none)]] := by
    refine ⟨rfl,rfl,?_⟩
    simp only [List.forall_mem_cons]
    exact ⟨Or.inl rfl,Or.inr ⟨_,rfl⟩,Or.inl rfl,fun _ h => absurd h List.not_mem_nil⟩
  have hdescribed : described byField=described byRelationship := by decide
  refine (inventory_reproducible hfirst hsecond ⟨?_,?_⟩).elim (fun h => ?_)
    (fun ⟨lines,h,h',_⟩ => ⟨lines,h,h'⟩)
  · intro fact
    have himage : facts [(str "SPDXID",.str (str "SPDXRef-image")),(str "name",.str (str "image"))]=
        (.str (str "SPDXRef-image"),.str (str "image"),.none) := rfl
    have hpackage : facts [(str "name",.str (str "zlib")),(str "versionInfo",.str (str "1.3.1"))]=
        (.none,.str (str "zlib"),.str (str "1.3.1")) := rfl
    have hsupplied : facts [(str "name",.str (str "zlib")),(str "versionInfo",.str (str "1.3.1")),
        (str "supplier",.none)]=(.none,.str (str "zlib"),.str (str "1.3.1")) := rfl
    simp only [List.map_cons,List.map_nil,himage,hpackage,hsupplied,List.mem_cons,List.not_mem_nil,
      or_false]
    constructor
    · rintro (h|h)
      · exact Or.inr (Or.inl h)
      · exact Or.inl h
    · rintro (h|h|h)
      · exact Or.inr h
      · exact Or.inl h
      · exact Or.inr h
  · intro identifier
    rw [←mem_described,←mem_described,hdescribed]
  · have hlines : ∃ lines,inventory (.dict byField)=.ok lines := ⟨_,rfl⟩
    obtain ⟨⟨error,herror⟩,-⟩ := h
    obtain ⟨lines,hok⟩ := hlines
    rw [hok] at herror
    cases herror

end MlopsPlatform.SupplyInventoryReproducible
