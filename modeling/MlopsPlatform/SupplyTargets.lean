import MlopsPlatform.SupplyEntrypoints
import MlopsPlatform.SupplyFindingsHistory
import MlopsPlatform.SupplyImages
import Mathlib.Data.Finmap

/-!
# The targets of the sbom directory

`sbom`, `scan-report`, `scan` and `scan-accept`, in the Makefile and in
make.ps1. They see each other only through the files of one directory: the
cataloguing loop goes over what `supply.images` lists, the others over the
documents that are there. A target that one of its steps fails has no state
after it. Beside each document stands the image it is the catalogue of, which
no target looks at.
-/

namespace MlopsPlatform.SupplyTargets

open TextCodec TextLines TextSorted TextSeparators ShellWords PythonJson PythonFiles StateRuns
  SupplyEntrypoints SupplyImages SupplyFindings SupplyFindingsGate SupplyFindingsHistory

/-- The documents of the directory: of which image the file `<name>.spdx.json`
is the catalogue. -/
abbrev Documents := Finmap (fun _ : Str => Str)

/-- The working tree. -/
structure Tree where
  /-- The compose file and the Dockerfiles. -/
  spine : Files
  /-- The SPDX documents of the sbom directory, by their names. -/
  documents : Documents
  /-- The baselines and the reports of the sbom directory. -/
  files : Files

/-- The two ways to run a target. -/
inductive Entrypoint where
  /-- The Makefile, and the pathnames a pattern matches. -/
  | makefile (matching : Str→List Str)
  /-- make.ps1, and whether a leading dot hides a file from a listing. -/
  | ps1 (dotsHidden : Bool)

/-- The ending of a document. -/
def documentEnding : Str := str ".spdx.json"

/-- A file of `SBOM_DIR`, which is `sbom` as committed. -/
def inDirectory (file : Str) : Str := str "sbom/"++file

/-- `$(SBOM_DIR)/$$name.known.txt` -/
def knownPath (name : Str) : Str := inDirectory (name++str ".known.txt")

/-- `$(SBOM_DIR)/$$name.findings.json` -/
def reportPath (name : Str) : Str := inDirectory (name++str ".findings.json")

/-- `$Py -m supply.images`: the lines it printed, if it exits with zero. -/
def listing (reader : Reader Refusal) (spine : Files) : Option (List Str) :=
  let ran := SupplyImages.main reader spine []
  match ran.result with
  | .ok 0 => some ran.stdout
  | _ => none

/-- The lines PowerShell reads from the output of a command. -/
def outputLines (output : Str) : List Str := (split [lf] (universalNewlines output)).dropLast

/-- What the cataloguing loop goes over when these lines were printed. -/
def Entrypoint.items : Entrypoint→List Str→List Str
  | .makefile matching,listed => words matching (printed listed)
  | .ps1 _,listed => (assigned (outputLines (printed listed))).items

/-- The name of the document of an image. -/
def Entrypoint.nameOf : Entrypoint→Str→Str
  | .makefile _ => sedName
  | .ps1 _ => psName

/-- The cataloguing loop, over the images that are left: a document is written
over the one of its name. -/
def catalogue (e : Entrypoint) : Documents→List Str→Documents
  | documents,[] => documents
  | documents,image::images => catalogue e (documents.insert (e.nameOf image) image) images

/-- `sbom` -/
def sbom (reader : Reader Refusal) (e : Entrypoint) (tree : Tree) : Option Tree :=
  match listing reader tree.spine with
  | none => none
  | some listed => some {tree with documents := catalogue e tree.documents (e.items listed)}

/-- The character that separates the components of a path. -/
def slash : CodePoint := 0x2f

/-- The character that starts an extension. -/
def dot : CodePoint := 0x2e

/-- `basename path ending`: the last component, without the ending unless that
is all of it. -/
def basename (path ending : Str) : Str :=
  let file := path.rtakeWhile (fun c => c≠slash)
  if ending<:+file ∧ file≠ending then file.take (file.length-ending.length) else file

/-- `name=$$(basename $$document .spdx.json)`: the path is not quoted, and
`basename` takes a single one. -/
def shellName (matching : Str→List Str) (name : Str) : Option Str :=
  match (fields (inDirectory (name++documentEnding))).flatMap (expand matching) with
  | [path] => some (substituted (basename path documentEnding++[lf]))
  | _ => none

/-- `$_.BaseName`: the name of a file up to its last dot. -/
def baseName (file : Str) : Str := (file.rdropWhile (fun c => c≠dot)).dropLast

/-- `$_.BaseName -replace '\.spdx$', ''` -/
def psDocumentName (name : Str) : Str :=
  let base := baseName (name++documentEnding)
  if str ".spdx"<:+base then base.take (base.length-(str ".spdx").length) else base

/-- Whether the name of a document starts with a dot. -/
def dotted (name : Str) : Bool := (name++documentEnding).head?=some dot

/-- The names a loop over the documents goes over: `$(SBOM_DIR)/*.spdx.json`
of a shell, which leaves out what a dot hides, or `Get-SbomNames`. -/
def Entrypoint.names : Entrypoint→Documents→Option (List Str)
  | .makefile matching,documents =>
    ((sorted documents.keys).filter (fun name => !dotted name)).mapM (shellName matching)
  | .ps1 dotsHidden,documents =>
    some (((sorted documents.keys).filter (fun name => !(dotsHidden && dotted name))).map
      psDocumentName)

/-- The scanner's loop, over the names that are left: it reads the document and
writes the report. -/
def scanLoop (reports : Str→ByteArray) (documents : Documents) : Files→List Str→Option Files
  | files,[] => some files
  | files,name::names =>
    if name∈documents then
      scanLoop reports documents (files.put (reportPath name) (reports name)) names
    else none

/-- `scan-report` and `Invoke-Scan`, with what the scanner reports on each
document: the documents read, and the files after them. Without a document the
target fails. -/
def scanReport (e : Entrypoint) (reports : Str→ByteArray) (tree : Tree) :
    Option (List Str×Files) :=
  match e.names tree.documents with
  | none => none
  | some [] => none
  | some names =>
    match scanLoop reports tree.documents tree.files names with
    | none => none
    | some files => some (names,files)

/-- The comparing loop of `scan`, over the names that are left: the files, and
the names whose comparison failed. -/
def gateLoop (py : Interp) : Files→List Str→Files×List Str
  | files,[] => (files,[])
  | files,name::names =>
    let compared := SupplyFindings.main py files [knownPath name,reportPath name]
    let rest := gateLoop py compared.files names
    if zero compared=true then rest else (rest.1,name::rest.2)

/-- What a `scan` did. -/
structure Scanned where
  /-- The documents it read. -/
  read : List Str
  /-- The files it left. -/
  files : Files
  /-- The documents whose comparison failed. -/
  failed : List Str

/-- `scan`; it exits with zero when no comparison failed. -/
def scan (py : Interp) (e : Entrypoint) (reports : Str→ByteArray) (tree : Tree) : Option Scanned :=
  match scanReport e reports tree with
  | none => none
  | some (names,files) =>
    let gated := gateLoop py files names
    some ⟨names,gated.1,gated.2⟩

/-- The accepting loop of `scan-accept`, over the names that are left. -/
def acceptLoop (py : Interp) : Files→List Str→Option Files
  | files,[] => some files
  | files,name::names =>
    let accepted := SupplyFindings.main py files [acceptFlag,knownPath name,reportPath name]
    if zero accepted=true then acceptLoop py accepted.files names else none

/-- `scan-accept` -/
def scanAccept (py : Interp) (reader : Reader Refusal) (e : Entrypoint) (reports : Str→ByteArray)
    (tree : Tree) : Option Tree :=
  match sbom reader e tree with
  | none => none
  | some catalogued =>
    match scanReport e reports catalogued with
    | none => none
    | some (names,files) =>
      match acceptLoop py files names with
      | none => none
      | some accepted => some {catalogued with files := accepted}

/-- What happens to a working tree. -/
inductive Action where
  /-- The compose file and the Dockerfiles are edited. -/
  | edit (spine : Files)
  /-- `sbom` is run. -/
  | sbom (e : Entrypoint)
  /-- `scan-accept` is run, and the scanner reports this. -/
  | scanAccept (e : Entrypoint) (reports : Str→ByteArray)
  /-- `scan` is run, and the scanner reports this. -/
  | scan (e : Entrypoint) (reports : Str→ByteArray)

/-- The tree after an action, if no step inside its target fails. -/
def step (py : Interp) (reader : Reader Refusal) (tree : Tree) : Action→Option Tree
  | .edit spine => some {tree with spine := spine}
  | .sbom e => sbom reader e tree
  | .scanAccept e reports => scanAccept py reader e reports tree
  | .scan e reports =>
    (scan py e reports tree).map (fun scanned => {tree with files := scanned.files})

/-- A loop over the documents of this entrypoint goes over the document of this
name, under this name. -/
def Shows : Entrypoint→Str→Prop
  | .makefile matching,name => dotted name=false ∧ shellName matching name=some name
  | .ps1 dotsHidden,name => ¬(dotsHidden=true ∧ dotted name=true)

/-- A reference on one line that a shell leaves as one word, with a name that
every listing shows. -/
structure Plain (reference : Str) : Prop where
  /-- Its characters do not split it and are no pattern. -/
  word : ∀ c∈reference,isSeparator c=false ∧ isSpecial c=false ∧ c≠cr
  /-- Its document is not hidden. -/
  shown : dotted (stem reference)=false

variable {py : Interp} {e : Entrypoint} {reports : Str→ByteArray} {documents : Documents}
  {tree : Tree} {scanned : Scanned}

/-- An edit alone leaves the directory as it is. -/
theorem wholeRun_edit (reader : Reader Refusal) (spine edited files : Files)
    (documents : Documents) :
    wholeRun (step py reader) ⟨spine,documents,files⟩ [.edit edited]=
      some ⟨edited,documents,files⟩ := rfl

/-- The scanner reads only documents that are there. -/
theorem mem_of_scanLoop {files after : Files} {names : List Str}
    (h : scanLoop reports documents files names=some after) : ∀ name∈names,name∈documents := by
  induction names generalizing files with
  | nil => exact fun _ hn => absurd hn List.not_mem_nil
  | cons name names ih =>
    rw [scanLoop] at h
    split at h
    · rename_i hm
      exact List.forall_mem_cons.mpr ⟨hm,ih h⟩
    · cases h

/-- The path of a report tells its document. -/
theorem reportPath_injective {name other : Str} (h : reportPath name=reportPath other) :
    name=other := List.append_cancel_right (List.append_cancel_left h)

/-- The scanner leaves the report of each document it read. -/
theorem content_of_scanLoop {files after : Files} {names : List Str}
    (h : scanLoop reports documents files names=some after) {name : Str}
    (hname : name∈names ∨ files.content (reportPath name)=.ok (reports name)) :
    after.content (reportPath name)=.ok (reports name) := by
  induction names generalizing files with
  | nil =>
    cases h
    exact hname.resolve_left List.not_mem_nil
  | cons next names ih =>
    rw [scanLoop] at h
    split at h
    · refine ih h ?_
      by_cases he : reportPath name=reportPath next
      · rw [he,put_same,reportPath_injective he]
        exact Or.inr rfl
      · rw [put_other _ _ he]
        refine hname.imp_left (fun hm => (List.mem_cons.mp hm).resolve_left (fun hn => ?_))
        exact he (congrArg reportPath hn)
    · cases h

/-- A file of the directory is no option. -/
theorem inDirectory_ne_acceptFlag (file : Str) : inDirectory file≠acceptFlag := by
  intro h
  have hhead := congrArg List.head? h
  rw [inDirectory,List.head?_append_of_ne_nil _ (by decide)] at hhead
  exact absurd hhead (by decide)

/-- The comparing loop changes no file, and no comparison fails exactly when
each of them exits with zero. -/
theorem gateLoop_eq (files : Files) (names : List Str) :
    (gateLoop py files names).1=files ∧ ((gateLoop py files names).2=[] ↔
      ∀ name∈names,
        (SupplyFindings.main py files [knownPath name,reportPath name]).result=.ok 0) := by
  induction names with
  | nil => exact ⟨rfl,iff_of_true rfl (fun _ hn => absurd hn List.not_mem_nil)⟩
  | cons name names ih =>
    have hfiles : (SupplyFindings.main py files [knownPath name,reportPath name]).files=files :=
      main_plain_files py files (inDirectory_ne_acceptFlag _) (inDirectory_ne_acceptFlag _)
    rw [gateLoop,hfiles,List.forall_mem_cons,←zero_iff]
    split
    · rename_i hzero
      exact ⟨ih.1,ih.2.trans (and_iff_right hzero).symm⟩
    · rename_i hzero
      exact ⟨ih.1,iff_of_false (List.cons_ne_nil _ _) (fun hn => hzero hn.1)⟩

/-- The results of a loop that produces each of them. -/
theorem mem_of_mapM {α β : Type} {f : α→Option β} {names : List α} {results : List β}
    (h : names.mapM f=some results) {name : α} {result : β} (hname : name∈names)
    (hf : f name=some result) : result∈results := by
  induction names generalizing results with
  | nil => exact absurd hname List.not_mem_nil
  | cons next names ih =>
    rw [List.mapM_cons] at h
    obtain ⟨first,hfirst,hrest⟩ := Option.bind_eq_some_iff.mp h
    obtain ⟨rest,hmap,hcons⟩ := Option.bind_eq_some_iff.mp hrest
    cases hcons
    rcases List.mem_cons.mp hname with rfl|hm
    · rw [hf] at hfirst
      cases hfirst
      exact List.mem_cons_self
    · exact List.mem_cons_of_mem _ (ih hmap hm)

/-- What follows the last of a character, when there is one. -/
theorem rtakeWhile_last {c : CodePoint} (text : Str) {rest : Str} (h : c∉rest) :
    (text++c::rest).rtakeWhile (fun d => d≠c)=rest := by
  induction rest using List.reverseRecOn with
  | nil => exact List.rtakeWhile_concat_neg _ _ _ (by simp)
  | append_singleton rest d ih =>
    rw [List.mem_append,List.mem_singleton,not_or] at h
    have hd : decide (d≠c)=true := decide_eq_true (fun he => h.2 he.symm)
    have hlast := List.rtakeWhile_concat_pos (fun d => decide (d≠c)) (text++c::rest) d hd
    rw [←List.cons_append,←List.append_assoc,hlast,ih h.1]

/-- What precedes the last of a character, when there is one. -/
theorem rdropWhile_last {c : CodePoint} (text : Str) {rest : Str} (h : c∉rest) :
    (text++c::rest).rdropWhile (fun d => d≠c)=text++[c] := by
  have hparts : (text++c::rest).rdropWhile (fun d => d≠c)++
      (text++c::rest).rtakeWhile (fun d => d≠c)=text++c::rest := List.rdropWhile_append_rtakeWhile
  rw [rtakeWhile_last text h] at hparts
  refine List.append_cancel_right (hparts.trans ?_)
  rw [List.append_assoc,List.singleton_append]

/-- An ending is taken off by its length. -/
theorem take_ending (text ending : Str) :
    (text++ending).take ((text++ending).length-ending.length)=text := by
  rw [List.length_append,Nat.add_sub_cancel,List.take_left]

/-- make.ps1 takes the name of a document from its file. -/
theorem psDocumentName_eq (name : Str) : psDocumentName name=name := by
  have hending : documentEnding=str ".spdx"++dot::str "json" := by decide
  have hbase : baseName (name++documentEnding)=name++str ".spdx" := by
    rw [baseName,hending,←List.append_assoc,rdropWhile_last _ (by decide),List.dropLast_concat]
  unfold psDocumentName
  dsimp only
  rw [hbase,if_pos (List.suffix_append _ _),take_ending]

/-- A loop over the documents goes over those it shows. -/
theorem mem_names {names : List Str} (hnames : e.names documents=some names) {name : Str}
    (hm : name∈documents) (hshows : Shows e name) : name∈names := by
  have hsorted : name∈sorted documents.keys := mem_sorted.mpr (Finmap.mem_keys.mpr hm)
  cases e with
  | makefile matching =>
    have hfilter : name∈(sorted documents.keys).filter (fun name => !dotted name) :=
      List.mem_filter.mpr ⟨hsorted,by rw [hshows.1]; rfl⟩
    exact mem_of_mapM hnames hfilter hshows.2
  | ps1 dotsHidden =>
    cases hnames
    refine List.mem_map.mpr ⟨name,List.mem_filter.mpr ⟨hsorted,?_⟩,psDocumentName_eq name⟩
    cases hand : (dotsHidden && dotted name) with
    | false => rfl
    | true => exact absurd ((Bool.and_eq_true _ _).mp hand) hshows

/-- What a `scan-report` did. -/
theorem scanReport_eq_some {names : List Str} {files : Files}
    (h : scanReport e reports tree=some (names,files)) :
    e.names tree.documents=some names ∧
      scanLoop reports tree.documents tree.files names=some files := by
  unfold scanReport at h
  split at h
  · cases h
  · cases h
  · rename_i listed hlisted
    split at h
    · cases h
    · rename_i after hafter
      cases h
      exact ⟨hlisted,hafter⟩

/-- What a `scan` did. -/
theorem scan_eq_some (h : scan py e reports tree=some scanned) :
    e.names tree.documents=some scanned.read ∧
      scanLoop reports tree.documents tree.files scanned.read=some scanned.files ∧
      scanned.failed=(gateLoop py scanned.files scanned.read).2 := by
  unfold scan at h
  split at h
  · cases h
  · rename_i names files hreport
    cases h
    obtain ⟨hnames,hloop⟩ := scanReport_eq_some hreport
    dsimp only
    rw [(gateLoop_eq files names).1]
    exact ⟨hnames,hloop,rfl⟩

/-- Only an empty stem leaves nothing before the ending. -/
theorem Plain.stem_ne_nil {reference : Str} (h : Plain reference) : stem reference≠[] := by
  intro hnil
  have hs := h.shown
  rw [hnil] at hs
  exact absurd hs (by decide)

/-- It is not empty. -/
theorem Plain.ne_nil {reference : Str} (h : Plain reference) : reference≠[] := by
  rintro rfl
  exact h.stem_ne_nil rfl

/-- It has no line feed. -/
theorem Plain.lf_notMem {reference : Str} (h : Plain reference) : lf∉reference := by
  intro hm
  exact absurd ((h.word lf hm).1.symm.trans isSeparator_lf) Bool.false_ne_true

/-- Every entrypoint names its document after its stem. -/
theorem Plain.nameOf_eq {reference : Str} (h : Plain reference) :
    e.nameOf reference=stem reference := by
  cases e with
  | makefile matching => exact sedName_eq h.lf_notMem
  | ps1 dotsHidden => exact psName_eq reference

/-- The characters of a stem are neither separators nor patterns nor slashes. -/
theorem Plain.stem_word {reference : Str} (h : Plain reference) :
    ∀ c∈stem reference,isSeparator c=false ∧ isSpecial c=false ∧ c≠slash := by
  intro c hc
  obtain ⟨d,hd,rfl⟩ := mem_stem hc
  obtain ⟨hseparator,hspecial,-⟩ := h.word d hd
  unfold underscore
  split
  · decide
  · rename_i hjoins
    exact ⟨hseparator,hspecial,fun hs => hjoins (Or.inl hs)⟩

/-- The name of a document is the last component of its path, without the ending. -/
theorem basename_eq {name : Str} (hne : name≠[]) (h : slash∉name) :
    basename (inDirectory (name++documentEnding)) documentEnding=name := by
  have hsbom : inDirectory (name++documentEnding)=str "sbom"++slash::(name++documentEnding) := by
    have hdirectory : str "sbom/"=str "sbom"++[slash] := by decide
    rw [inDirectory,hdirectory,List.append_assoc,List.singleton_append]
  have hfile : slash∉name++documentEnding := by
    rw [List.mem_append]
    exact not_or.mpr ⟨h,by decide⟩
  have hmore : name++documentEnding≠documentEnding :=
    fun he => hne (List.self_eq_append_left.mp he.symm)
  unfold basename
  dsimp only
  rw [hsbom,rtakeWhile_last _ hfile,if_pos ⟨List.suffix_append _ _,hmore⟩,take_ending]

/-- The name of a document without separators, patterns and slashes is what the
shell takes from its path. -/
theorem shellName_eq (matching : Str→List Str) {name : Str} (hne : name≠[])
    (h : ∀ c∈name,isSeparator c=false ∧ isSpecial c=false ∧ c≠slash) :
    shellName matching name=some name := by
  have hpath : ∀ c∈inDirectory (name++documentEnding),isSeparator c=false ∧ isSpecial c=false := by
    have hfixed : (str "sbom/"++documentEnding).all
        (fun c => decide (isSeparator c=false ∧ isSpecial c=false))=true := by decide
    rw [List.all_append,Bool.and_eq_true,List.all_eq_true,List.all_eq_true] at hfixed
    intro c hc
    rcases List.mem_append.mp hc with hc|hc
    · exact of_decide_eq_true (hfixed.1 c hc)
    · rcases List.mem_append.mp hc with hc|hc
      · exact ⟨(h c hc).1,(h c hc).2.1⟩
      · exact of_decide_eq_true (hfixed.2 c hc)
  have hkept : Kept matching [inDirectory (name++documentEnding)] :=
    kept_of_plain matching (List.forall_mem_singleton.mpr
      ⟨List.append_ne_nil_of_left_ne_nil (by decide) _,hpath⟩)
  have hslash : slash∉name := fun hm => (h slash hm).2.2 rfl
  have hlf : lf∉name := fun hm =>
    absurd ((h lf hm).1.symm.trans isSeparator_lf) Bool.false_ne_true
  unfold Kept at hkept
  rw [List.flatMap_singleton] at hkept
  unfold shellName
  rw [hkept]
  dsimp only
  rw [basename_eq hne hslash,substituted_line hlf]

/-- Every listing shows its document. -/
theorem Plain.shows {reference : Str} (h : Plain reference) : Shows e (stem reference) := by
  cases e with
  | makefile matching => exact ⟨h.shown,shellName_eq matching h.stem_ne_nil h.stem_word⟩
  | ps1 dotsHidden => exact fun hs => absurd (h.shown.symm.trans hs.2) Bool.false_ne_true

/-- PowerShell reads printed lines back. -/
theorem outputLines_printed {lines : List Str} (h : ∀ line∈lines,lf∉line ∧ cr∉line) :
    outputLines (printed lines)=lines := by
  have hcr : cr∉printed lines := by
    intro hm
    obtain ⟨line,hline,hc⟩ := List.mem_flatMap.mp hm
    rcases List.mem_append.mp hc with hc|hc
    · exact (h line hline).2 hc
    · exact absurd (List.mem_singleton.mp hc) (by decide)
  have hsplit : split [lf] (printed lines)=lines++[[]] := by
    clear hcr
    induction lines with
    | nil => rfl
    | cons line lines ih =>
      rw [List.forall_mem_cons] at h
      rw [printed,List.flatMap_cons,List.append_assoc,List.singleton_append,
        split_single_first h.1.1,←printed,ih h.2,List.cons_append]
  rw [outputLines,universalNewlines_of_notMem hcr,hsplit,List.dropLast_concat]

/-- Every cataloguing loop goes over plain references as they are. -/
theorem items_of_plain {listed : List Str} (h : ∀ reference∈listed,Plain reference) :
    e.items listed=listed := by
  cases e with
  | makefile matching =>
    refine words_eq_iff.mpr (kept_of_plain matching (fun reference hm => ?_))
    have hp := h reference hm
    exact ⟨hp.ne_nil,fun c hc => ⟨(hp.word c hc).1,(hp.word c hc).2.1⟩⟩
  | ps1 dotsHidden =>
    have hlines : outputLines (printed listed)=listed :=
      outputLines_printed (fun reference hm => ⟨(h reference hm).lf_notMem,
        fun hc => ((h reference hm).word cr hc).2.2 rfl⟩)
    rw [Entrypoint.items,hlines,items_assigned]

/-- Of one document that is shown, a loop over the documents goes over it. -/
theorem names_single {name image : Str} (h : Shows e name) :
    e.names ((∅ : Documents).insert name image)=some [name] := by
  have hkeys : ((∅ : Documents).insert name image).keys={name} := by
    ext other
    rw [Finmap.mem_keys,Finmap.mem_insert,Finset.mem_singleton]
    exact or_iff_left Finmap.notMem_empty
  have hsorted : sorted ((∅ : Documents).insert name image).keys=[name] := by
    rw [hkeys,sorted,Finset.sort_singleton]
  cases e with
  | makefile matching =>
    have hkeep : [name].filter (fun name => !dotted name)=[name] :=
      List.filter_eq_self.mpr (List.forall_mem_singleton.mpr (by rw [h.1]; rfl))
    rw [Entrypoint.names,hsorted,hkeep,List.mapM_cons,h.2]
    rfl
  | ps1 dotsHidden =>
    have hkeep : [name].filter (fun name => !(dotsHidden && dotted name))=[name] := by
      refine List.filter_eq_self.mpr (List.forall_mem_singleton.mpr ?_)
      cases hand : (dotsHidden && dotted name) with
      | false => rfl
      | true => exact absurd ((Bool.and_eq_true _ _).mp hand) h
    rw [Entrypoint.names,hsorted,hkeep,List.map_singleton,psDocumentName_eq]

/-- Of one document that is shown, the scanner reports on it. -/
theorem scanReport_single {spine files : Files} {name image : Str} (h : Shows e name) :
    scanReport e reports ⟨spine,(∅ : Documents).insert name image,files⟩=
      some ([name],files.put (reportPath name) (reports name)) := by
  have hm : name∈(∅ : Documents).insert name image := Finmap.mem_insert.mpr (Or.inl rfl)
  unfold scanReport
  dsimp only
  rw [names_single h]
  dsimp only
  rw [scanLoop,if_pos hm,scanLoop]

/-- Of one document that is shown, `scan-accept` accepts its report. -/
theorem scanAccept_single {reader : Reader Refusal} {spine files : Files} {image : Str}
    (hlisting : listing reader spine=some [image]) (hplain : Plain image)
    (hz : (execute py (knownPath (stem image)) (reportPath (stem image)) files
      ⟨true,reports (stem image)⟩).result=.ok 0) :
    scanAccept py reader e reports ⟨spine,∅,files⟩=
      some ⟨spine,(∅ : Documents).insert (stem image) image,
        (execute py (knownPath (stem image)) (reportPath (stem image)) files
          ⟨true,reports (stem image)⟩).files⟩ := by
  have hsbom : sbom reader e ⟨spine,∅,files⟩=
      some ⟨spine,(∅ : Documents).insert (stem image) image,files⟩ := by
    have hitems : e.items [image]=[image] :=
      items_of_plain (List.forall_mem_singleton.mpr hplain)
    unfold sbom
    dsimp only
    rw [hlisting]
    dsimp only
    rw [hitems,catalogue,catalogue,hplain.nameOf_eq]
  unfold scanAccept
  rw [hsbom]
  dsimp only
  rw [scanReport_single hplain.shows]
  dsimp only
  rw [acceptLoop,if_pos]
  · rw [acceptLoop]
    rfl
  · exact (zero_iff _).mpr hz

/-- Of one document that is shown, `scan` compares its report. -/
theorem scan_single {spine files : Files} {name image : Str} (h : Shows e name)
    (hz : (execute py (knownPath name) (reportPath name) files
      ⟨false,reports name⟩).result=.ok 0) :
    ∃ after,scan py e reports ⟨spine,(∅ : Documents).insert name image,files⟩=
      some ⟨[name],after,[]⟩ := by
  unfold scan
  rw [scanReport_single h]
  dsimp only
  rw [gateLoop,if_pos]
  · exact ⟨_,rfl⟩
  · exact (zero_iff _).mpr hz

end MlopsPlatform.SupplyTargets
