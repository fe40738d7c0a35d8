import MlopsPlatform.SupplyInventoryDecode

/-!
# Which documents have an inventory

`inventory` succeeds when `packages` is a list of objects whose identifiers can
be looked up, each of them the subject of the document or with a name and a
version that pass the checks, and one of them not the subject. For any other
document it raises InventoryError, unless an identifier cannot be hashed.
-/

namespace MlopsPlatform.SupplyInventoryAcceptable

open TextCodec TextSorted PythonJson PythonFiles SupplyInventory SupplyInventoryDecode

/-- A value that can be looked up in a set. -/
def Hashable (value : Json) : Prop := (∀ items,value≠.list items) ∧ ∀ fields,value≠.dict fields

/-- An object whose name and version pass the checks. -/
def Usable (entry : List (Str×Json)) : Prop :=
  ∃ package : Package,get entry (str "name")=.str package.name ∧ versionOf entry=package.version

/-- An entry of `packages` that raises nothing. -/
def Good (found : Finset Str) (value : Json) : Prop :=
  ∃ entry,value=.dict entry ∧ Hashable (get entry (str "SPDXID")) ∧
    (Subject found value ∨ Usable entry)

/-- The `packages` of a document. -/
def Packages (document : Json) (packages : List Json) : Prop :=
  ∃ fields,document=.dict fields ∧ get fields (str "packages")=.list packages

/-- What a document needs to have an inventory. -/
structure Acceptable (document : Json) (packages : List Json) : Prop where
  /-- It is an object with a list of packages. -/
  listed : Packages document packages
  /-- None of them raises. -/
  good : ∀ value∈packages,Good (subjects document) value
  /-- One of them is not the subject. -/
  other : ∃ value∈packages,¬Subject (subjects document) value

/-- A document with an identifier that cannot be hashed. -/
def Unhashable (packages : List Json) : Prop :=
  ∃ entry,.dict entry∈packages ∧ ¬Hashable (get entry (str "SPDXID"))

variable {found : Finset Str} {document : Json} {packages : List Json}

/-- The identifier is that of the first entry or of a later one. -/
theorem unhashable_cons {value : Json} :
    Unhashable (value::packages) ↔
      (∃ entry,value=.dict entry ∧ ¬Hashable (get entry (str "SPDXID"))) ∨ Unhashable packages := by
  constructor
  · rintro ⟨entry,hm,hh⟩
    rcases List.mem_cons.mp hm with he|hm
    · exact Or.inl ⟨entry,he.symm,hh⟩
    · exact Or.inr ⟨entry,hm,hh⟩
  · rintro (⟨entry,rfl,hh⟩|⟨entry,hm,hh⟩)
    · exact ⟨entry,List.mem_cons_self,hh⟩
    · exact ⟨entry,List.mem_cons_of_mem _ hm,hh⟩

/-- Looking up a value that can be hashed answers whether it was found. -/
theorem memberOf_of_hashable {value : Json} (h : Hashable value) :
    ∃ member,memberOf found value=.ok member := by
  cases value with
  | list items => exact absurd rfl (h.1 items)
  | dict fields => exact absurd rfl (h.2 fields)
  | _ => exact ⟨_,rfl⟩

/-- Looking up any other raises TypeError. -/
theorem memberOf_of_not_hashable {value : Json} (h : ¬Hashable value) :
    memberOf found value=.error .type := by
  cases value with
  | list items => rfl
  | dict fields => rfl
  | _ => exact absurd ⟨fun _ he => (by cases he),fun _ he => (by cases he)⟩ h

/-- One entry raises nothing exactly when it is good; what it raises is
InventoryError, unless its identifier cannot be hashed. -/
theorem readPackage_cases (index : ℕ) (value : Json) :
    (∃ package,readPackage found index value=.ok package ∧ Good found value) ∨
    (∃ raised,readPackage found index value=.error raised ∧ ¬Good found value ∧
      ((∃ error,raised=.own error) ∨
        ∃ entry,value=.dict entry ∧ ¬Hashable (get entry (str "SPDXID")))) := by
  cases value with
  | dict entry =>
    by_cases hhash : Hashable (get entry (str "SPDXID"))
    · obtain ⟨member,hmember⟩ := @memberOf_of_hashable found _ hhash
      cases member with
      | true =>
        have hread : readPackage found index (.dict entry)=.ok none := by
          simp only [readPackage,hmember]
        exact Or.inl ⟨_,hread,entry,rfl,hhash,Or.inl (readPackage_eq_none.mp hread)⟩
      | false =>
        cases hfields : readFields index entry with
        | ok package =>
          refine Or.inl ⟨some package,by simp only [readPackage,hmember,hfields],entry,rfl,hhash,?_⟩
          exact Or.inr ⟨package,(readFields_eq_ok index entry package).mp hfields⟩
        | error error =>
          have hread : readPackage found index (.dict entry)=.error (.own error) := by
            simp only [readPackage,hmember,hfields]
          refine Or.inr ⟨_,hread,?_,Or.inl ⟨error,rfl⟩⟩
          rintro ⟨entry',he,-,hs|⟨package,hpackage⟩⟩
          · rw [readPackage_eq_none.mpr hs] at hread
            cases hread
          · cases he
            rw [(readFields_eq_ok index entry package).mpr hpackage] at hfields
            cases hfields
    · refine Or.inr ⟨.type,by simp only [readPackage,memberOf_of_not_hashable hhash],?_,
        Or.inr ⟨entry,rfl,hhash⟩⟩
      rintro ⟨entry',he,hh,-⟩
      cases he
      exact hhash hh
  | _ =>
    refine Or.inr ⟨_,rfl,?_,Or.inl ⟨_,rfl⟩⟩
    rintro ⟨entry,he,-⟩
    cases he

/-- The loop raises nothing exactly when every entry is good. -/
theorem collect_cases (index : ℕ) (lines : Finset Str) :
    (∃ result,collect found index lines packages=.ok result ∧ ∀ value∈packages,Good found value) ∨
    (∃ raised,collect found index lines packages=.error raised ∧
      (∃ value∈packages,¬Good found value) ∧
      ((∃ error,raised=.own error) ∨ Unhashable packages)) := by
  induction packages generalizing index lines with
  | nil => exact Or.inl ⟨lines,rfl,fun _ h => absurd h List.not_mem_nil⟩
  | cons value packages ih =>
    rcases @readPackage_cases found index value with ⟨package,hread,hgood⟩|⟨raised,hread,hbad,hkind⟩
    · have hstep : ∃ lines',collect found index lines (value::packages)=
          collect found (index+1) lines' packages := by
        cases package with
        | none => exact ⟨lines,by simp only [collect,hread]⟩
        | some package => exact ⟨insert package.line lines,by simp only [collect,hread]⟩
      obtain ⟨lines',hstep⟩ := hstep
      rw [hstep]
      rcases ih (index+1) lines' with ⟨result,hresult,hrest⟩|⟨raised,herror,⟨bad,hm,hbad⟩,hkind⟩
      · exact Or.inl ⟨result,hresult,List.forall_mem_cons.mpr ⟨hgood,hrest⟩⟩
      · exact Or.inr ⟨raised,herror,⟨bad,List.mem_cons_of_mem _ hm,hbad⟩,
          hkind.imp_right (fun h => unhashable_cons.mpr (Or.inr h))⟩
    · exact Or.inr ⟨raised,by simp only [collect,hread],⟨value,List.mem_cons_self,hbad⟩,
        hkind.imp_right (fun h => unhashable_cons.mpr (Or.inl h))⟩

/-- The packages of a document are one list. -/
theorem Packages.unique {packages' : List Json} (h : Packages document packages)
    (h' : Packages document packages') : packages=packages' := by
  obtain ⟨fields,rfl,hlist⟩ := h
  obtain ⟨fields',he,hlist'⟩ := h'
  cases he
  exact Json.list.inj (hlist.symm.trans hlist')

/-- A nonempty list of packages is what `_entries` returns, and nothing else is. -/
theorem entries_cases (document : Json) :
    (∃ packages,entries document=.ok packages ∧ Packages document packages) ∨
    ((∃ error,entries document=.error error) ∧
      ∀ packages,Packages document packages → packages=[]) := by
  cases document with
  | dict fields =>
    have hunlisted : ∀ value,get fields (str "packages")=value → (∀ packages,value≠.list packages) →
        ∀ packages,Packages (.dict fields) packages → packages=[] := by
      rintro value hv hn packages ⟨fields',he,hlist⟩
      cases he
      exact absurd (hv.symm.trans hlist) (hn packages)
    cases hget : get fields (str "packages") with
    | list packages =>
      by_cases hne : packages=[]
      · refine Or.inr ⟨⟨.listsNoPackages,by simp only [entries,hget,if_pos hne]⟩,?_⟩
        exact fun packages' h => (h.unique ⟨fields,rfl,hget⟩).trans hne
      · exact Or.inl ⟨packages,by simp only [entries,hget,if_neg hne],fields,rfl,hget⟩
    | none =>
      exact Or.inr ⟨⟨.noPackages,by simp only [entries,hget]⟩,
        hunlisted _ hget (fun _ he => (by cases he))⟩
    | _ =>
      exact Or.inr ⟨⟨.listsNoPackages,by simp only [entries,hget]⟩,
        hunlisted _ hget (fun _ he => (by cases he))⟩
  | _ =>
    refine Or.inr ⟨⟨_,rfl⟩,?_⟩
    rintro packages ⟨fields,he,-⟩
    cases he

/-- A document has an inventory exactly when it is acceptable; otherwise it is
refused, unless an identifier cannot be hashed. -/
theorem inventory_cases (document : Json) :
    (∃ lines packages,inventory document=.ok lines ∧ Acceptable document packages) ∨
    (∃ raised,inventory document=.error raised ∧ (∀ packages,¬Acceptable document packages) ∧
      ((∃ error,raised=.own error) ∨
        ∃ packages,Packages document packages ∧ Unhashable packages)) := by
  rcases entries_cases document with ⟨packages,hentries,hpackages⟩|⟨⟨error,herror⟩,hempty⟩
  · rcases @collect_cases (subjects document) packages 0 ∅ with
      ⟨result,hresult,hgood⟩|⟨raised,herror,⟨bad,hm,hbad⟩,hkind⟩
    · have hlines := (collect_lines hresult).1
      -- a line is there exactly when an entry is not the subject
      have hempty : result=∅ ↔ ¬∃ value∈packages,¬Subject (subjects document) value := by
        constructor
        · rintro he ⟨value,hmem,hsubject⟩
          obtain ⟨entry,rfl,-,hcase⟩ := hgood value hmem
          obtain ⟨package,hname,hversion⟩ := hcase.resolve_left hsubject
          have hline := (hlines (pairLine (package.name,package.version))).mpr
            (Or.inr ⟨_,⟨.dict entry,hmem,hsubject,entry,rfl,hname,hversion⟩,rfl⟩)
          rw [he] at hline
          exact Finset.notMem_empty _ hline
        · intro hno
          refine Finset.eq_empty_of_forall_notMem (fun line hline => ?_)
          rcases (hlines line).mp hline with hm|⟨pair,⟨value,hvalue,hsubject,-⟩,-⟩
          · exact Finset.notMem_empty _ hm
          · exact hno ⟨value,hvalue,hsubject⟩
      by_cases he : result=∅
      · refine Or.inr ⟨.own .everySubject,?_,?_,Or.inl ⟨_,rfl⟩⟩
        · simp only [inventory,hentries,hresult,if_pos he]
        · intro packages' ha
          have hother := ha.other
          rw [ha.listed.unique hpackages] at hother
          exact hempty.mp he hother
      · refine Or.inl ⟨sorted result,packages,?_,hpackages,hgood,?_⟩
        · simp only [inventory,hentries,hresult,if_neg he]
        · exact not_not.mp (fun hno => he (hempty.mpr hno))
    · refine Or.inr ⟨raised,by simp only [inventory,hentries,herror],?_,
        hkind.imp_right (fun h => ⟨packages,hpackages,h⟩)⟩
      intro packages' ha
      rw [ha.listed.unique hpackages] at ha
      exact hbad (ha.good bad hm)
  · refine Or.inr ⟨.own error,by simp only [inventory,herror],?_,Or.inl ⟨error,rfl⟩⟩
    intro packages ha
    obtain ⟨value,hmem,-⟩ := ha.other
    rw [hempty packages ha.listed] at hmem
    exact List.not_mem_nil hmem

theorem inventory_of_acceptable (h : Acceptable document packages) :
    ∃ lines,inventory document=.ok lines := by
  rcases inventory_cases document with ⟨lines,-,hlines,-⟩|⟨-,-,hbad,-⟩
  · exact ⟨lines,hlines⟩
  · exact absurd h (hbad packages)

theorem acceptable_of_inventory {lines : List Str} (h : inventory document=.ok lines) :
    ∃ packages,Acceptable document packages := by
  rcases inventory_cases document with ⟨-,packages,-,ha⟩|⟨raised,herror,-⟩
  · exact ⟨packages,ha⟩
  · rw [h] at herror
    cases herror

/-- What such a document catalogues are the pairs of its packages. -/
theorem catalogued_of_inventory {lines : List Str} (h : inventory document=.ok lines) :
    ∃ packages,Packages document packages ∧
      ∀ pair,Catalogued document pair ↔ Listed (subjects document) packages pair := by
  rcases entries_cases document with ⟨packages,hentries,hpackages⟩|⟨⟨error,herror⟩,-⟩
  · refine ⟨packages,hpackages,fun pair => ⟨?_,fun hl => ⟨packages,hentries,hl⟩⟩⟩
    rintro ⟨packages',hentries',hl⟩
    rw [hentries,Except.ok.injEq] at hentries'
    rw [hentries']
    exact hl
  · simp only [inventory,herror] at h
    cases h

/-- The dropped entries of a document that has an inventory can be counted. -/
theorem subjectsIn_of_acceptable (h : Acceptable document packages) :
    ∃ count,subjectsIn document=.ok count := by
  obtain ⟨fields,rfl,hlist⟩ := h.listed
  have hcount : ∀ values : List Json,
      (∀ value∈values,Good (subjects (.dict fields)) value) →
      ∃ count,countSubjects (described fields) values=.ok count := by
    intro values
    induction values with
    | nil => exact fun _ => ⟨0,rfl⟩
    | cons value values ih =>
      intro hgood
      rw [List.forall_mem_cons] at hgood
      obtain ⟨⟨entry,rfl,hhash,-⟩,hrest⟩ := hgood
      obtain ⟨member,hmember⟩ := @memberOf_of_hashable (described fields) _ hhash
      obtain ⟨count,hc⟩ := ih hrest
      refine ⟨if member=true then count+1 else count,?_⟩
      simp only [countSubjects,hmember,hc]
  obtain ⟨count,hc⟩ := hcount packages h.good
  exact ⟨count,by simp only [subjectsIn,hlist,hc]⟩

end MlopsPlatform.SupplyInventoryAcceptable
