import MlopsPlatform.SupplyInventory

/-!
# Reading a committed inventory back

A committed inventory is cut into lines and each line at the separator. The
source refuses a package whose name or version carries the separator, which
leaves three ways for a line to be misread: a name that ends in the
separator's own character, a field that ends a line, and a field that has no
UTF-8 form. Without them the file gives back the catalogued pairs.
-/

namespace MlopsPlatform.SupplyInventoryDecode

open TextCodec TextLines TextSorted TextSeparators PythonJson PythonFiles SupplyInventory

/-- The entry is what the document is about. -/
def Subject (found : Finset Str) (entry : Json) : Prop :=
  ∃ fields identifier,entry=.dict fields ∧ get fields (str "SPDXID")=.str identifier ∧
    identifier∈found

/-- The name of an entry, with its version or what stands for it. -/
def Named (entry : Json) (pair : Str×Str) : Prop :=
  ∃ fields,entry=.dict fields ∧ get fields (str "name")=.str pair.1 ∧ versionOf fields=pair.2

/-- The pairs of the entries that are not the subject. -/
def Listed (found : Finset Str) (packages : List Json) (pair : Str×Str) : Prop :=
  ∃ entry∈packages,¬Subject found entry ∧ Named entry pair

/-- The pairs a document catalogues. -/
def Catalogued (document : Json) (pair : Str×Str) : Prop :=
  ∃ packages,entries document=.ok packages ∧ Listed (subjects document) packages pair

/-- The line of a pair. -/
def pairLine (pair : Str×Str) : Str := pair.1++separator++pair.2

/-- A text gives back a set of pairs when it is cut into lines and each line
at the separator. -/
structure Decodes (text : Str) (pairs : Str×Str→Prop) : Prop where
  /-- Every line carries the separator exactly once. -/
  once : ∀ line∈splitlines text,count separator line=1
  /-- The pairs are what the lines are cut into. -/
  same : ∀ pair,pairs pair ↔ ∃ line∈splitlines text,split separator line=[pair.1,pair.2]
  /-- Different pairs have different lines. -/
  distinct : ∀ p q,pairs p → pairs q → pairLine p=pairLine q → p=q
  /-- The line of a pair is one line. -/
  single : ∀ pair,pairs pair → splitlines (pairLine pair)=[pairLine pair]

/-- `write` ends well and the file it leaves gives back what was catalogued. -/
def Recovered (py : Interp) (files : Files) (source destination : Str) (document : Json) : Prop :=
  ∃ count after text,write py files source destination=(.ok count,after) ∧
    after.content destination=.ok (String.toUTF8 text) ∧ Decodes (str text) (Catalogued document)

/-- The character the separator is made of. -/
def equals : CodePoint := 0x3d

/-- A pair whose line is not misread. -/
structure Clean (pair : Str×Str) : Prop where
  /-- The name does not run into the separator. -/
  apart : pair.1.getLast?≠some equals
  /-- The line ends nowhere inside. -/
  lineFree : LineFree (pairLine pair)
  /-- The line has a UTF-8 form. -/
  scalar : (pairLine pair).all isScalar=true

theorem separator_eq : separator=[equals,equals] := rfl

theorem separator_ne_nil : separator≠[] := List.cons_ne_nil _ _

/-- A name without the separator can only meet it with its last character. -/
theorem separable_iff {name : Str} (hp : ¬separator<:+:name) :
    Separable separator name ↔ name.getLast?≠some equals := by
  have hiff : separator<:+:name++separator.dropLast ↔ name.getLast?=some equals := by
    rw [separator_eq] at hp ⊢
    change [equals,equals]<:+:name++[equals] ↔ _
    constructor
    · rintro ⟨u,v,h⟩
      rcases List.eq_nil_or_concat v with rfl|⟨v,x,rfl⟩
      · rw [List.append_nil,List.append_cons u equals [equals]] at h
        have hn : u++[equals]=name := (List.append_inj' h rfl).1
        rw [←hn,List.getLast?_concat]
      · rw [List.concat_eq_append,←List.append_assoc] at h
        exact absurd ⟨u,v,(List.append_inj' h rfl).1⟩ hp
    · intro h
      obtain ⟨m,rfl⟩ := List.getLast?_eq_some_iff.mp h
      exact ⟨m,[],by simp⟩
  rw [Separable,hiff]

/-- Membership answers yes for the described identifiers only. -/
theorem memberOf_true_iff {found : Finset Str} {value : Json} :
    memberOf found value=.ok true ↔ ∃ identifier,value=.str identifier ∧ identifier∈found := by
  cases value <;> simp [memberOf]

/-- What the field checks let through. -/
theorem readFields_eq_ok (index : ℕ) (fields : List (Str×Json)) (package : Package) :
    readFields index fields=.ok package ↔
      get fields (str "name")=.str package.name ∧ versionOf fields=package.version := by
  constructor
  · intro h
    unfold readFields at h
    split at h
    · rename_i name hname
      split at h
      · split at h
        · cases h
          exact ⟨hname,rfl⟩
        · cases h
      · cases h
    · cases h
  · rintro ⟨hname,hversion⟩
    have hplain : ¬separator<:+:package.name ∧ ¬separator<:+:package.version :=
      ⟨package.plainName,package.plainVersion⟩
    simp only [readFields,hname,dif_pos package.named,hversion,dif_pos hplain]

/-- An entry is skipped exactly when it is the subject. -/
theorem readPackage_eq_none {found : Finset Str} {index : ℕ} {entry : Json} :
    readPackage found index entry=.ok none ↔ Subject found entry := by
  constructor
  · intro h
    unfold readPackage at h
    split at h
    · rename_i fields
      split at h
      · cases h
      · rename_i hm
        obtain ⟨identifier,hi,hf⟩ := memberOf_true_iff.mp hm
        exact ⟨fields,identifier,rfl,hi,hf⟩
      · split at h <;> cases h
    · cases h
  · rintro ⟨fields,identifier,rfl,hi,hf⟩
    have hm : memberOf found (get fields (str "SPDXID"))=.ok true :=
      memberOf_true_iff.mpr ⟨identifier,hi,hf⟩
    simp only [readPackage,hm]

/-- An entry that yields a package is not the subject and names it. -/
theorem readPackage_eq_some {found : Finset Str} {index : ℕ} {entry : Json} {package : Package}
    (h : readPackage found index entry=.ok (some package)) :
    ¬Subject found entry ∧ Named entry (package.name,package.version) := by
  refine ⟨fun hs => ?_,?_⟩
  · rw [readPackage_eq_none.mpr hs] at h
    cases h
  · unfold readPackage at h
    split at h
    · rename_i fields
      split at h
      · cases h
      · cases h
      · split at h
        · cases h
        · rename_i p hp
          cases h
          have hf := (readFields_eq_ok index fields package).mp hp
          exact ⟨fields,rfl,hf.1,hf.2⟩
    · cases h

/-- An entry has one pair. -/
theorem Named.unique {entry : Json} {p q : Str×Str} (hp : Named entry p) (hq : Named entry q) :
    p=q := by
  obtain ⟨fields,rfl,hname,hversion⟩ := hp
  obtain ⟨fields',hf,hname',hversion'⟩ := hq
  cases hf
  rw [hname] at hname'
  exact Prod.ext (Json.str.inj hname') (hversion.symm.trans hversion')

/-- The pairs of one more entry. -/
theorem listed_cons {found : Finset Str} {entry : Json} {packages : List Json} {pair : Str×Str} :
    Listed found (entry::packages) pair ↔
      (¬Subject found entry ∧ Named entry pair) ∨ Listed found packages pair := by
  simp only [Listed,List.mem_cons,exists_eq_or_imp]

/-- The loop adds exactly the lines of the listed pairs, none of which carries
the separator in a field. -/
theorem collect_lines {found : Finset Str} {index : ℕ} {lines result : Finset Str}
    {packages : List Json} (h : collect found index lines packages=.ok result) :
    (∀ line,line∈result ↔ line∈lines ∨ ∃ pair,Listed found packages pair ∧ pairLine pair=line) ∧
      ∀ pair,Listed found packages pair → ¬separator<:+:pair.1 ∧ ¬separator<:+:pair.2 := by
  induction packages generalizing index lines with
  | nil =>
    simp only [collect,Except.ok.injEq] at h
    have hnone : ∀ pair,¬Listed found [] pair := by
      rintro pair ⟨entry,he,-⟩
      cases he
    subst h
    exact ⟨fun line => (or_iff_left (fun hl => hnone _ hl.choose_spec.1)).symm,
      fun pair hp => absurd hp (hnone pair)⟩
  | cons entry packages ih =>
    cases hread : readPackage found index entry with
    | error raised =>
      simp only [collect,hread] at h
      cases h
    | ok read =>
      cases read with
      | none =>
        simp only [collect,hread] at h
        have hsubject := readPackage_eq_none.mp hread
        have hlisted : ∀ pair,Listed found (entry::packages) pair ↔ Listed found packages pair :=
          fun pair => listed_cons.trans (or_iff_right (fun hl => hl.1 hsubject))
        simp only [hlisted]
        exact ih h
      | some package =>
        simp only [collect,hread] at h
        obtain ⟨hsubject,hnamed⟩ := readPackage_eq_some hread
        obtain ⟨hlines,hplain⟩ := ih h
        refine ⟨fun line => ?_,fun pair hp => ?_⟩
        · rw [hlines,Finset.mem_insert]
          constructor
          · rintro ((rfl|hl)|⟨pair,hp,rfl⟩)
            · exact Or.inr ⟨_,listed_cons.mpr (Or.inl ⟨hsubject,hnamed⟩),rfl⟩
            · exact Or.inl hl
            · exact Or.inr ⟨pair,listed_cons.mpr (Or.inr hp),rfl⟩
          · rintro (hl|⟨pair,hp,rfl⟩)
            · exact Or.inl (Or.inr hl)
            · rcases listed_cons.mp hp with ⟨-,hp⟩|hp
              · rw [hp.unique hnamed]
                exact Or.inl (Or.inl rfl)
              · exact Or.inr ⟨pair,hp,rfl⟩
        · rcases listed_cons.mp hp with ⟨-,hp⟩|hp
          · rw [hp.unique hnamed]
            exact ⟨package.plainName,package.plainVersion⟩
          · exact hplain pair hp

/-- An accepted document yields the sorted lines of its catalogued pairs, at
least one, and no pair carries the separator in a field. -/
theorem inventory_lines {document : Json} {lines : List Str}
    (h : inventory document=.ok lines) :
    lines≠[] ∧ lines.Pairwise (fun s t => s<t) ∧
      (∀ line,line∈lines ↔ ∃ pair,Catalogued document pair ∧ pairLine pair=line) ∧
      ∀ pair,Catalogued document pair → ¬separator<:+:pair.1 ∧ ¬separator<:+:pair.2 := by
  unfold inventory at h
  cases he : entries document with
  | error error =>
    rw [he] at h
    cases h
  | ok packages =>
    have hcat : ∀ pair,Catalogued document pair ↔ Listed (subjects document) packages pair := by
      intro pair
      simp only [Catalogued,he,Except.ok.injEq,exists_eq_left']
    cases hc : collect (subjects document) 0 ∅ packages with
    | error raised =>
      simp only [he,hc] at h
      cases h
    | ok found =>
      simp only [he,hc] at h
      split at h
      · cases h
      · rename_i hne
        cases h
        obtain ⟨hlines,hplain⟩ := collect_lines hc
        refine ⟨fun hs => hne ?_,sorted_increasing found,fun line => ?_,fun pair hp => ?_⟩
        · exact sorted_injective (hs.trans sorted_empty.symm)
        · rw [mem_sorted,hlines]
          simp only [Finset.notMem_empty,false_or,hcat]
        · exact hplain pair ((hcat pair).mp hp)

/-- The text of boundary-free lines, read back. -/
theorem splitlines_inventoryText {lines : List Str} (hne : lines≠[])
    (hfree : ∀ line∈lines,LineFree line) : splitlines (inventoryText lines)=lines := by
  rw [inventoryText,splitlines_join hfree,if_neg hne]

/-- The text of lines that have a UTF-8 form has one. -/
theorem inventoryText_scalar {lines : List Str} (hne : lines≠[])
    (hs : ∀ line∈lines,line.all isScalar=true) : (inventoryText lines).all isScalar=true := by
  rw [inventoryText,join_lf hne,List.all_flatMap,List.all_eq_true]
  intro line hl
  rw [List.all_append,hs line hl]
  rfl

/-- The lines of clean pairs give back those pairs. -/
theorem decodes_of_clean {lines : List Str} {pairs : Str×Str→Prop} (hne : lines≠[])
    (hlines : ∀ line,line∈lines ↔ ∃ pair,pairs pair ∧ pairLine pair=line)
    (hplain : ∀ pair,pairs pair → ¬separator<:+:pair.1 ∧ ¬separator<:+:pair.2)
    (hclean : ∀ pair,pairs pair → Clean pair) : Decodes (inventoryText lines) pairs := by
  have hsplit : ∀ pair,pairs pair → split separator (pairLine pair)=[pair.1,pair.2] := by
    intro pair hp
    have hapart := (separable_iff (hplain pair hp).1).mpr (hclean pair hp).apart
    exact (split_eq_pair separator_ne_nil).mpr ⟨rfl,hapart,(hplain pair hp).2⟩
  have hread : splitlines (inventoryText lines)=lines := by
    refine splitlines_inventoryText hne (fun line hl => ?_)
    obtain ⟨pair,hp,rfl⟩ := (hlines line).mp hl
    exact (hclean pair hp).lineFree
  refine ⟨?_,fun pair => ⟨fun hp => ?_,?_⟩,fun p q hp hq h => ?_,fun pair hp => ?_⟩
  · rw [hread]
    intro line hl
    obtain ⟨pair,hp,rfl⟩ := (hlines line).mp hl
    exact count_eq_one_iff.mpr ⟨pair.1,pair.2,hsplit pair hp⟩
  · rw [hread]
    exact ⟨pairLine pair,(hlines _).mpr ⟨pair,hp,rfl⟩,hsplit pair hp⟩
  · rintro ⟨line,hl,hs⟩
    rw [hread] at hl
    obtain ⟨other,hp,rfl⟩ := (hlines line).mp hl
    rw [hsplit other hp,List.cons.injEq,List.cons.injEq] at hs
    have hother : other=pair := Prod.ext hs.1 hs.2.1
    rwa [hother] at hp
  · have hs := hsplit p hp
    rw [h,hsplit q hq,List.cons.injEq,List.cons.injEq] at hs
    exact Prod.ext hs.1.symm hs.2.1.symm
  · refine splitlines_last (hclean pair hp).lineFree ?_
    rw [pairLine,separator_eq]
    simp

/-- A text that gives back a set of pairs has only clean pairs. -/
theorem clean_of_decodes {text : String} {pairs : Str×Str→Prop}
    (hd : Decodes (str text) pairs) : ∀ pair,pairs pair → Clean pair := by
  intro pair hp
  obtain ⟨line,hl,hs⟩ := (hd.same pair).mp hp
  obtain ⟨hline,hapart,-⟩ := (split_eq_pair separator_ne_nil).mp hs
  have hpair : line=pairLine pair := hline
  obtain ⟨hfree,hmem⟩ := mem_splitlines hl
  rw [hpair] at hfree hmem
  have hscalar : (pairLine pair).all isScalar=true :=
    List.all_eq_true.mpr (fun c hc => List.all_eq_true.mp (str_scalar text) c (hmem c hc))
  have hplain : ¬separator<:+:pair.1 :=
    fun h => hapart (h.trans (List.infix_append' [] pair.1 _))
  exact ⟨(separable_iff hplain).mp hapart,hfree,hscalar⟩

/-- The committed inventory gives back what was catalogued exactly when every
catalogued pair is clean: the name does not end in the separator's character,
and neither field ends a line or lacks a UTF-8 form. -/
theorem inventory_decodes_iff (py : Interp) (files : Files) (source destination : Str)
    {document : Json} {lines : List Str} (hd : readDocument py files source=.ok document)
    (hi : inventory document=.ok lines) (hopen : files.refused destination=none) :
    Recovered py files source destination document ↔
      ∀ pair,Catalogued document pair → Clean pair := by
  obtain ⟨hne,-,hlines,hplain⟩ := inventory_lines hi
  constructor
  · rintro ⟨count,after,text,-,-,hdecodes⟩
    exact clean_of_decodes hdecodes
  · intro hclean
    have hscalar : (inventoryText lines).all isScalar=true := by
      refine inventoryText_scalar hne (fun line hl => ?_)
      obtain ⟨pair,hp,rfl⟩ := (hlines line).mp hl
      exact (hclean pair hp).scalar
    obtain ⟨text,htext⟩ : ∃ text : String,str text=inventoryText lines :=
      ⟨_,str_ofList hscalar⟩
    refine ⟨lines.length,files.put destination text.toUTF8,text,?_,put_same _ _ _,?_⟩
    · simp only [write,hd,hi]
      rw [←htext,writeText_str hopen]
    · rw [htext]
      exact decodes_of_clean hne hlines hplain hclean

/-- A document with one package, as the cataloguer's text for it. -/
def sampleText (name version : String) : String :=
  "\x7b\"packages\":[\x7b\"name\":\""++name++"\",\"versionInfo\":\""++version++"\"\x7d]\x7d"

/-- The value that text parses to. -/
def sampleDocument (name version : String) : Json :=
  .dict [(str "packages",.list [.dict [(str "name",.str (str name)),
    (str "versionInfo",.str (str version))]])]

/-- An interpreter whose parser knows one text and refuses every other. -/
def sampleInterp (name version : String) : Interp :=
  ⟨fun s => if s=str (sampleText name version) then .ok (sampleDocument name version)
    else .error (.decode (str "Expecting value")),fun _ => []⟩

/-- The document at `d`, and no inventory yet. -/
def sampleFiles (name version : String) : Files :=
  ⟨fun path => if path=str "d" then .ok (sampleText name version).toUTF8
    else .error (.os (str "No such file or directory")),fun _ => none⟩

/-- The sample document is read. -/
theorem sample_read {name version : String}
    (h : universalNewlines (str (sampleText name version))=str (sampleText name version)) :
    readDocument (sampleInterp name version) (sampleFiles name version) (str "d")=
      .ok (sampleDocument name version) := by
  have hfile : (sampleFiles name version).content (str "d")=
      .ok (sampleText name version).toUTF8 := rfl
  have hloads : (sampleInterp name version).loads (str (sampleText name version))=
      .ok (sampleDocument name version) := if_pos rfl
  simp only [readDocument,readText_text hfile,h,hloads]

/-- The sample catalogues its one package. -/
theorem sample_catalogued {name version : String} (hv : str version≠[]) (pair : Str×Str) :
    Catalogued (sampleDocument name version) pair ↔ pair=(str name,str version) := by
  have hversion : versionOf [(str "name",.str (str name)),(str "versionInfo",.str (str version))]=
      str version := if_neg hv
  have hnamed : Named (.dict [(str "name",.str (str name)),
      (str "versionInfo",.str (str version))]) (str name,str version) := ⟨_,rfl,rfl,hversion⟩
  constructor
  · rintro ⟨packages,he,entry,hm,-,hn⟩
    cases he
    rw [List.mem_singleton.mp hm] at hn
    exact hn.unique hnamed
  · rintro rfl
    refine ⟨_,rfl,_,List.mem_cons_self,?_,hnamed⟩
    rintro ⟨fields,identifier,hf,hi,-⟩
    cases hf
    cases hi

/-- A package that is not refused yields its one line. -/
theorem sample_inventory {name version : String} (hn : str name≠[]) (hv : str version≠[])
    (hplain : ¬separator<:+:str name ∧ ¬separator<:+:str version) :
    inventory (sampleDocument name version)=.ok [pairLine (str name,str version)] := by
  have hversion : versionOf [(str "name",.str (str name)),(str "versionInfo",.str (str version))]=
      str version := if_neg hv
  have hread : readPackage (subjects (sampleDocument name version)) 0
      (.dict [(str "name",.str (str name)),(str "versionInfo",.str (str version))])=
      .ok (some ⟨str name,str version,hn,hplain.1,hplain.2⟩) := by
    have hfields := (readFields_eq_ok 0 [(str "name",.str (str name)),
      (str "versionInfo",.str (str version))] ⟨str name,str version,hn,hplain.1,hplain.2⟩).mpr
      ⟨rfl,hversion⟩
    have hmember : memberOf (subjects (sampleDocument name version))
        (get [(str "name",.str (str name)),(str "versionInfo",.str (str version))]
          (str "SPDXID"))=.ok false := rfl
    simp only [readPackage,hmember,hfields]
  have hentries : entries (sampleDocument name version)=.ok [.dict [(str "name",.str (str name)),
      (str "versionInfo",.str (str version))]] := rfl
  simp only [inventory,hentries,collect,hread,insert_empty_eq,Finset.singleton_ne_empty,if_false,
    sorted,Finset.sort_singleton]
  rfl

theorem inventory_decodes_iff_sample :
    Recovered (sampleInterp "zlib" "1.3.1") (sampleFiles "zlib" "1.3.1") (str "d") (str "k")
      (sampleDocument "zlib" "1.3.1") := by
  have hi := @sample_inventory "zlib" "1.3.1" (by decide) (by decide) (by decide)
  refine (inventory_decodes_iff (sampleInterp "zlib" "1.3.1") (sampleFiles "zlib" "1.3.1")
    (str "d") (str "k") (sample_read (universalNewlines_of_notMem (by decide +kernel))) hi rfl).mpr (fun pair hp => ?_)
  have hline : pairLine (str "zlib",str "1.3.1")=str "zlib==1.3.1" := by decide
  rw [(sample_catalogued (by decide) pair).mp hp]
  refine ⟨by decide,?_,?_⟩
  · rw [hline]
    exact lineFree_literal _ rfl
  · rw [hline]
    exact str_scalar _

/-- A name that ends in the separator's character moves the cut: the inventory
of `a=` at version `1` is written and gives back `a` at version `=1`. -/
theorem inventory_decodes_fails :
    inventory (sampleDocument "a=" "1")=.ok [str "a="++separator++str "1"] ∧
      split separator (str "a="++separator++str "1")=[str "a",str "=1"] ∧
      ¬Recovered (sampleInterp "a=" "1") (sampleFiles "a=" "1") (str "d") (str "k")
        (sampleDocument "a=" "1") := by
  refine ⟨sample_inventory (by decide) (by decide) (by decide),by decide,?_⟩
  rintro ⟨count,after,text,-,-,hd⟩
  have hc := clean_of_decodes hd _ ((sample_catalogued (by decide) _).mpr rfl)
  exact hc.apart (by decide)

end MlopsPlatform.SupplyInventoryDecode
