import MlopsPlatform.SupplyInventoryComplete

/-!
# Whose DESCRIBES relationships remove a package

A document's own subject is what it lists in `documentDescribes` or what it,
under the identifier SPDXRef-DOCUMENT, describes by a relationship. The source
reads the target of every DESCRIBES relationship and never its source, so a
package that is described by another package is taken for the subject.
-/

namespace MlopsPlatform.SupplyInventorySubject

open TextCodec TextSorted PythonJson PythonFiles SupplyInventory SupplyInventoryDecode
  SupplyInventoryReproducible SupplyInventoryComplete

/-- A DESCRIBES relationship of the document, by its source and its target. -/
def Edge (fields : List (Str×Json)) (source : Json) (target : Str) : Prop :=
  ∃ items relationship,get fields (str "relationships")=.list items ∧ .dict relationship∈items ∧
    get relationship (str "relationshipType")=.str (str "DESCRIBES") ∧
    get relationship (str "spdxElementId")=source ∧
    get relationship (str "relatedSpdxElement")=.str target

/-- What the document itself is about. -/
inductive OwnSubject (fields : List (Str×Json)) : Str→Prop where
  /-- It is among `documentDescribes`. -/
  | listed {items : List Json} {identifier : Str}
      (hitems : get fields (str "documentDescribes")=.list items)
      (hmem : .str identifier∈items) : OwnSubject fields identifier
  /-- The document describes it. -/
  | related {identifier : Str} (hedge : Edge fields (.str (str "SPDXRef-DOCUMENT")) identifier) :
      OwnSubject fields identifier

/-- Only the subject is dropped from the lines of a list of packages. -/
structure SubjectOnly (fields : List (Str×Json)) (packages : List Json) (lines : List Str) :
    Prop where
  /-- An entry for which no line is added is what the document is about. -/
  only : ∀ index entry,packages[index]?=some entry →
    (∀ line,¬Adds (described fields) index entry line) →
    ∃ identifier,fieldOf (str "SPDXID") entry=.str identifier ∧ OwnSubject fields identifier
  /-- What only a package describes keeps its line. -/
  kept : ∀ owner∈packages,∀ identifier,Edge fields (fieldOf (str "SPDXID") owner) identifier →
    ¬OwnSubject fields identifier → ∀ index entry,packages[index]?=some entry →
    fieldOf (str "SPDXID") entry=.str identifier →
    ∃ line∈lines,Adds (described fields) index entry line

/-- Every entry that is the target of a DESCRIBES relationship is what the
document is about. -/
def Sourced (fields : List (Str×Json)) (packages : List Json) : Prop :=
  ∀ source identifier,Edge fields source identifier →
    (∃ entry∈packages,fieldOf (str "SPDXID") entry=.str identifier) → OwnSubject fields identifier

variable {fields : List (Str×Json)} {packages : List Json} {document : Json} {lines : List Str}
  {identifier : Str}

/-- An edge describes its target, whatever its source. -/
theorem describes_of_edge {source : Json} (h : Edge fields source identifier) :
    Describes fields identifier := by
  obtain ⟨items,relationship,hitems,hmem,hkind,-,htarget⟩ := h
  exact .related hitems hmem hkind htarget

/-- What is described is listed or the target of an edge. -/
theorem own_or_edge (h : Describes fields identifier) :
    OwnSubject fields identifier ∨ ∃ source,Edge fields source identifier := by
  cases h with
  | listed hitems hmem => exact Or.inl (.listed hitems hmem)
  | related hitems hmem hkind htarget =>
    exact Or.inr ⟨_,_,_,hitems,hmem,hkind,rfl,htarget⟩

/-- Where every described entry is what the document is about, only that is
described. -/
theorem own_of_described (h : Sourced fields packages) {entry : Json} (hmem : entry∈packages)
    (hd : Described fields entry) :
    ∃ identifier,fieldOf (str "SPDXID") entry=.str identifier ∧ OwnSubject fields identifier := by
  obtain ⟨identifier,hid,hdescribes⟩ := hd
  refine ⟨identifier,hid,?_⟩
  rcases own_or_edge hdescribes with hown|⟨source,hedge⟩
  · exact hown
  · exact h source identifier hedge ⟨entry,hmem,hid⟩

/-- Only the subject of an accepted document is dropped exactly when every
entry that a DESCRIBES relationship targets is what the document is about. -/
theorem subject_only_iff (hobject : document=.dict fields)
    (hlist : get fields (str "packages")=.list packages) (h : inventory document=.ok lines) :
    SubjectOnly fields packages lines ↔ Sourced fields packages := by
  constructor
  · rintro hs source identifier hedge ⟨entry,hmem,hid⟩
    obtain ⟨index,hplace⟩ := List.mem_iff_getElem?.mp hmem
    have hdescribed : Described fields entry := ⟨identifier,hid,describes_of_edge hedge⟩
    rcases entry_accounted h hobject hlist hplace with ⟨-,hnone⟩|⟨hother,-⟩
    · obtain ⟨identifier',hid',hown⟩ := hs.only index entry hplace hnone
      have hsame := Json.str.inj (hid.symm.trans hid')
      rwa [hsame]
    · exact absurd hdescribed hother
  · intro hs
    constructor
    · intro index entry hplace hnone
      rcases entry_accounted h hobject hlist hplace with ⟨hdescribed,-⟩|⟨-,line,-,hadds,-⟩
      · exact own_of_described hs (List.mem_of_getElem? hplace) hdescribed
      · exact absurd hadds (hnone line)
    · intro owner howner identifier hedge hown index entry hplace hid
      have hmem := List.mem_of_getElem? hplace
      exact absurd (hs _ identifier hedge ⟨entry,hmem,hid⟩) hown

/-- What an image contains: two packages. -/
def apt : List (Str×Json) :=
  [(str "SPDXID",.str (str "SPDXRef-apt")),(str "name",.str (str "apt")),
    (str "versionInfo",.str (str "2.6.1"))]

/-- The other one. -/
def zlib : List (Str×Json) :=
  [(str "SPDXID",.str (str "SPDXRef-zlib")),(str "name",.str (str "zlib")),
    (str "versionInfo",.str (str "1.3.1"))]

/-- A DESCRIBES relationship from one identifier to another. -/
def edgeOf (source target : String) : Json :=
  .dict [(str "spdxElementId",.str (str source)),
    (str "relationshipType",.str (str "DESCRIBES")),(str "relatedSpdxElement",.str (str target))]

/-- A document of the two packages with one relationship. -/
def describing (source target : String) : List (Str×Json) :=
  [(str "packages",.list [.dict apt,.dict zlib]),
    (str "relationships",.list [edgeOf source target])]

/-- The one relationship is the one edge. -/
theorem edge_describing {source target : String} {origin : Json}
    (h : Edge (describing source target) origin identifier) :
    origin=.str (str source) ∧ identifier=str target := by
  obtain ⟨items,relationship,hitems,hmem,-,hsource,htarget⟩ := h
  cases hitems
  rw [List.mem_singleton] at hmem
  cases hmem
  cases hsource
  cases htarget
  exact ⟨rfl,rfl⟩

/-- Such a document loses the package its relationship describes. -/
theorem describing_inventory {source : String} :
    inventory (.dict (describing source "SPDXRef-zlib"))=.ok [str "apt==2.6.1"] := by
  have hentries : entries (.dict (describing source "SPDXRef-zlib"))=
      .ok [.dict apt,.dict zlib] := rfl
  have hfound : subjects (.dict (describing source "SPDXRef-zlib"))={str "SPDXRef-zlib"} := rfl
  have hmember : memberOf {str "SPDXRef-zlib"} (get apt (str "SPDXID"))=.ok false := rfl
  have hfields := (readFields_eq_ok 0 apt
    ⟨str "apt",str "2.6.1",by decide,by decide,by decide⟩).mpr ⟨rfl,rfl⟩
  have hfirst : readPackage {str "SPDXRef-zlib"} 0 (.dict apt)=
      .ok (some ⟨str "apt",str "2.6.1",by decide,by decide,by decide⟩) := by
    simp only [readPackage,hmember,hfields]
  have hsecond : readPackage {str "SPDXRef-zlib"} 1 (.dict zlib)=.ok none :=
    readPackage_eq_none.mpr ⟨_,_,rfl,rfl,by decide⟩
  simp only [inventory,hentries,hfound,collect,hfirst,hsecond,insert_empty_eq,
    Finset.singleton_ne_empty,if_false,sorted,Finset.sort_singleton]
  rfl

/-- Described by the document itself, the package is rightly left out. -/
theorem subject_only_iff_document :
    SubjectOnly (describing "SPDXRef-DOCUMENT" "SPDXRef-zlib") [.dict apt,.dict zlib]
      [str "apt==2.6.1"] := by
  refine (subject_only_iff rfl rfl describing_inventory).mpr ?_
  rintro source identifier hedge -
  obtain ⟨rfl,rfl⟩ := edge_describing hedge
  exact .related hedge

/-- Described by the other package, it is left out all the same. -/
theorem subject_only_fails :
    inventory (.dict (describing "SPDXRef-apt" "SPDXRef-zlib"))=.ok [str "apt==2.6.1"] ∧
      ¬SubjectOnly (describing "SPDXRef-apt" "SPDXRef-zlib") [.dict apt,.dict zlib]
        [str "apt==2.6.1"] := by
  refine ⟨describing_inventory,fun hs => ?_⟩
  have hsubject : Subject (described (describing "SPDXRef-apt" "SPDXRef-zlib")) (.dict zlib) :=
    ⟨_,_,rfl,rfl,by decide⟩
  have hskipped : readPackage (described (describing "SPDXRef-apt" "SPDXRef-zlib")) 1 (.dict zlib)=
      .ok none := readPackage_eq_none.mpr hsubject
  obtain ⟨identifier,hid,hown⟩ := hs.only 1 (.dict zlib) rfl (fun line hadds => by
    obtain ⟨package,hread,-⟩ := hadds
    rw [hskipped] at hread
    cases hread)
  cases hown with
  | listed hitems hmem => cases hitems
  | related hedge =>
    have hsource := (edge_describing hedge).1
    exact absurd (Json.str.inj hsource) (by decide)

end MlopsPlatform.SupplyInventorySubject
