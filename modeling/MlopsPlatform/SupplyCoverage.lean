import MlopsPlatform.SupplyStems
import MlopsPlatform.SupplyTargets

/-!
# What a passing scan covers

The documents of the directory are what was catalogued so far, the latest under
each name: every run of the targets follows a record of what the cataloguing
loops went over. A scan that exits with zero has read every document its listing
shows and found all gated advisories of its report in its baseline. So it covers
what was catalogued, which is the list of the moment only while nothing is
edited.
-/

namespace MlopsPlatform.SupplyCoverage

open TextCodec TextLines TextStrip TextSorted TextSeparators ShellWords PythonJson PythonFiles StateRuns
open SupplyAdvisory SupplyFindings SupplyFindingsAccept SupplyFindingsGate SupplyFindingsHistory
open SupplyImages SupplyImagesComplete
open SupplyEntrypoints SupplyStems SupplyTargets

/-- What has been catalogued. -/
structure Inventoried where
  /-- What the images are listed from. -/
  spine : Files
  /-- The names and images the cataloguing loops went over, in order. -/
  entries : List (Str×Str)

/-- The document a cataloguing loop writes for an image. -/
def entryOf (e : Entrypoint) (image : Str) : Str×Str := (e.nameOf image,image)

/-- What a cataloguing loop goes over, if `supply.images` lists the spine. -/
def itemsOf (reader : Reader Refusal) (e : Entrypoint) (spine : Files) : List Str :=
  match listing reader spine with
  | none => []
  | some listed => e.items listed

/-- What an action adds. -/
def note (reader : Reader Refusal) (h : Inventoried) : Action→Inventoried
  | .edit spine => {h with spine := spine}
  | .sbom e => {h with entries := h.entries++(itemsOf reader e h.spine).map (entryOf e)}
  | .scanAccept e _ => {h with entries := h.entries++(itemsOf reader e h.spine).map (entryOf e)}
  | .scan _ _ => h

/-- The image last catalogued under a name. -/
def lastNamed (entries : List (Str×Str)) (name : Str) : Option Str :=
  (entries.reverse.find? (fun entry => entry.1=name)).map Prod.snd

/-- The tree is what has been catalogued. -/
structure Records (tree : Tree) (h : Inventoried) : Prop where
  /-- The spines agree. -/
  spine : tree.spine=h.spine
  /-- The document of a name is of the image last catalogued under it. -/
  documents : ∀ name,tree.documents.lookup name=lastNamed h.entries name

/-- The report holds and a baseline that can be read has its gated advisories. -/
def Baselined (py : Interp) (files : Files) (report : ByteArray) (name : Str) : Prop :=
  ∃ entries,Holds py report entries ∧ ∃ known,baseline files (knownPath name)=.ok known ∧
    ∀ identifier,GatedIn entries identifier → identifier∈known

/-- A scan covers a reference. -/
structure Covered (py : Interp) (reports : Str→ByteArray) (documents : Documents)
    (scanned : Scanned) (reference : Str) : Prop where
  /-- The reference has a document, which is its own. -/
  document : documents.lookup (stem reference)=some reference
  /-- The scan read it. -/
  read : stem reference∈scanned.read
  /-- The report of the reference is what the scanner made of it. -/
  report : scanned.files.content (reportPath (stem reference))=.ok (reports (stem reference))
  /-- Its gated advisories are in the baseline of the reference. -/
  baselined : Baselined py scanned.files (reports (stem reference)) (stem reference)

variable {py : Interp} {reader : Reader Refusal} {e : Entrypoint} {reports : Str→ByteArray}
  {documents : Documents} {tree : Tree} {scanned : Scanned}

/-- The last entry of its name decides. -/
theorem lastNamed_concat (entries : List (Str×Str)) (entry : Str×Str) (name : Str) :
    lastNamed (entries++[entry]) name=
      if entry.1=name then some entry.2 else lastNamed entries name := by
  unfold lastNamed
  rw [List.reverse_append,List.reverse_singleton,List.singleton_append,List.find?_cons]
  by_cases h : entry.1=name
  · rw [if_pos h,decide_eq_true h]
    rfl
  · rw [if_neg h,decide_eq_false h]

/-- What was last catalogued was catalogued. -/
theorem mem_of_lastNamed {entries : List (Str×Str)} {name image : Str}
    (h : lastNamed entries name=some image) : (name,image)∈entries := by
  obtain ⟨entry,hfind,rfl⟩ := Option.map_eq_some_iff.mp h
  have hname : decide (entry.1=name)=true :=
    List.find?_some (p:=fun entry : Str×Str => decide (entry.1=name)) hfind
  have hm := List.mem_reverse.mp (List.mem_of_find?_eq_some hfind)
  rw [←of_decide_eq_true hname]
  exact hm

/-- The documents after a cataloguing loop are what it added to what was
catalogued. -/
theorem catalogue_lookup {entries : List (Str×Str)}
    (h : ∀ name,documents.lookup name=lastNamed entries name) (images : List Str) (name : Str) :
    (catalogue e documents images).lookup name=
      lastNamed (entries++images.map (entryOf e)) name := by
  induction images generalizing documents entries with
  | nil => rw [List.map_nil,List.append_nil,catalogue,h]
  | cons image images ih =>
    have hinsert : ∀ name,(documents.insert (e.nameOf image) image).lookup name=
        lastNamed (entries++[entryOf e image]) name := by
      intro name
      rw [lastNamed_concat,entryOf]
      by_cases hname : e.nameOf image=name
      · rw [if_pos hname,←hname,Finmap.lookup_insert]
      · rw [if_neg hname,Finmap.lookup_insert_of_ne _ (fun hn => hname hn.symm),h]
    rw [catalogue,ih hinsert,List.map_cons,List.append_assoc,List.singleton_append]

/-- `sbom` adds what its loop goes over. -/
theorem sbom_records {next : Tree} {h : Inventoried} (hr : Records tree h)
    (hs : sbom reader e tree=some next) :
    Records next {h with entries := h.entries++(itemsOf reader e h.spine).map (entryOf e)} := by
  unfold sbom at hs
  cases hlisting : listing reader tree.spine with
  | none =>
    rw [hlisting] at hs
    cases hs
  | some listed =>
    rw [hlisting] at hs
    cases hs
    refine ⟨hr.spine,fun name => ?_⟩
    have hitems : itemsOf reader e h.spine=e.items listed := by rw [itemsOf,←hr.spine,hlisting]
    dsimp only
    rw [hitems]
    exact catalogue_lookup hr.documents _ name

/-- An accept adds what `sbom` adds. -/
theorem scanAccept_records {next : Tree} {h : Inventoried} (hr : Records tree h)
    (hs : scanAccept py reader e reports tree=some next) :
    Records next {h with entries := h.entries++(itemsOf reader e h.spine).map (entryOf e)} := by
  unfold scanAccept at hs
  split at hs
  · cases hs
  · rename_i catalogued hsbom
    split at hs
    · cases hs
    · split at hs
      · cases hs
      · cases hs
        have hc := sbom_records hr hsbom
        exact ⟨hc.spine,hc.documents⟩

/-- Every action follows the record. -/
theorem step_records {h : Inventoried} {a : Action} {next : Tree} (hr : Records tree h)
    (hs : step py reader tree a=some next) : Records next (note reader h a) := by
  cases a with
  | edit spine =>
    cases hs
    exact ⟨rfl,hr.documents⟩
  | sbom e => exact sbom_records hr hs
  | scanAccept e reports => exact scanAccept_records hr hs
  | scan e reports =>
    obtain ⟨scanned,-,rfl⟩ := Option.map_eq_some_iff.mp hs
    exact ⟨hr.spine,hr.documents⟩

/-- Every run from a directory without documents follows the record. -/
theorem run_records {spine files : Files} {actions : List Action}
    (hrun : wholeRun (step py reader) ⟨spine,∅,files⟩ actions=some tree) :
    Records tree (run (note reader) ⟨spine,[]⟩ actions) := by
  refine wholeRun_follows (fun s o a next => step_records) ⟨rfl,fun name => ?_⟩ hrun
  rw [Finmap.lookup_empty]
  rfl

/-- A scan that exits with zero found the gated advisories of every document it
read in its baseline. -/
theorem baselined_of_scan (h : scan py e reports tree=some scanned) (hzero : scanned.failed=[])
    {name : Str} (hname : name∈scanned.read) :
    name∈tree.documents ∧ scanned.files.content (reportPath name)=.ok (reports name) ∧
      Baselined py scanned.files (reports name) name := by
  obtain ⟨-,hloop,hfailed⟩ := scan_eq_some h
  have hcontent := content_of_scanLoop hloop (Or.inl hname)
  rw [hfailed] at hzero
  have hpassed := (gateLoop_eq scanned.files scanned.read).2.mp hzero name hname
  have hk : knownPath name≠acceptFlag := inDirectory_ne_acceptFlag _
  have hr : reportPath name≠acceptFlag := inDirectory_ne_acceptFlag _
  obtain ⟨entries,hholds,known,hknown,hall⟩ := (main_zero_iff py scanned.files hk hr).mp hpassed
  refine ⟨mem_of_scanLoop hloop name hname,hcontent,entries,?_,known,hknown,hall⟩
  obtain ⟨text,document,hfile,hload,haccepts⟩ := hholds
  rw [hcontent] at hfile
  exact ⟨text,document,Except.ok.inj hfile,hload,haccepts⟩

/-- A scan that exits with zero covers, of the references whose document it
shows, those that have a document. -/
theorem covered_iff (h : scan py e reports tree=some scanned) (hzero : scanned.failed=[])
    {reference : Str} (hshows : Shows e (stem reference)) :
    Covered py reports tree.documents scanned reference ↔
      tree.documents.lookup (stem reference)=some reference := by
  refine ⟨Covered.document,fun hlookup => ?_⟩
  have hm := Finmap.mem_of_lookup_eq_some hlookup
  have hread := mem_names (scan_eq_some h).1 hm hshows
  obtain ⟨-,hcontent,hbaselined⟩ := baselined_of_scan h hzero hread
  exact ⟨hlookup,hread,hcontent,hbaselined⟩

/-- An action that runs the cataloguing loop. -/
def Catalogues : Action→Prop
  | .sbom _ => True
  | .scanAccept _ _ => True
  | _ => False

/-- An action that edits what the images are listed from. -/
def Edits : Action→Prop
  | .edit _ => True
  | _ => False

/-- No action does both. -/
theorem Catalogues.not_edits {a : Action} (h : Catalogues a) : ¬Edits a := by
  cases a with
  | edit spine => exact h.elim
  | sbom e => exact id
  | scanAccept e reports => exact id
  | scan e reports => exact h.elim

/-- What is listed has been catalogued since anything else was. -/
structure Fresh (reader : Reader Refusal) (listed : List Str) (h : Inventoried) : Prop where
  /-- It is what `supply.images` prints. -/
  printed : listing reader h.spine=some listed
  /-- The latest entries are its own, and all of them. -/
  latest : ∃ earlier entries,h.entries=earlier++entries ∧
    (∀ reference∈listed,(stem reference,reference)∈entries) ∧
    ∀ entry∈entries,∃ reference∈listed,entry=(stem reference,reference)

/-- What is printed with success is the list. -/
theorem listing_eq {spine : Files} {listed out : List Str}
    (h : references reader spine=.ok listed) (hout : listing reader spine=some out) :
    out=listed := by
  obtain ⟨hstdout,hzero⟩ := main_listed h
  unfold listing at hout
  dsimp only at hout
  split at hout
  · rename_i hresult
    cases hout
    rw [hstdout,List.takeWhile_eq_self_iff]
    exact hzero.mp hresult
  · cases hout

/-- A list whose references encode is printed. -/
theorem listing_of_encodes {spine : Files} {listed : List Str}
    (h : references reader spine=.ok listed) (hall : ∀ reference∈listed,encodes reference=true) :
    listing reader spine=some listed := by
  obtain ⟨hstdout,hzero⟩ := main_listed h
  unfold listing
  dsimp only
  rw [hzero.mpr hall,hstdout,List.takeWhile_eq_self_iff.mpr hall]
  rfl

/-- The entries of a cataloguing loop over plain references. -/
theorem mem_entries_of_plain {spine : Files} {listed : List Str}
    (hprinted : listing reader spine=some listed) (hplain : ∀ reference∈listed,Plain reference)
    (entry : Str×Str) : entry∈(itemsOf reader e spine).map (entryOf e) ↔
      ∃ reference∈listed,entry=(stem reference,reference) := by
  have hitems : itemsOf reader e spine=listed := by
    rw [itemsOf,hprinted]
    exact items_of_plain hplain
  rw [hitems,List.mem_map]
  constructor
  · rintro ⟨reference,hm,rfl⟩
    exact ⟨reference,hm,by rw [entryOf,(hplain reference hm).nameOf_eq]⟩
  · rintro ⟨reference,hm,rfl⟩
    exact ⟨reference,hm,by rw [entryOf,(hplain reference hm).nameOf_eq]⟩

/-- Cataloguing makes what is listed fresh. -/
theorem catalogues_fresh {h : Inventoried} {listed : List Str}
    (hprinted : listing reader h.spine=some listed) (hplain : ∀ reference∈listed,Plain reference)
    {a : Action} (ha : Catalogues a) : Fresh reader listed (note reader h a) := by
  have hentries : ∀ e : Entrypoint,Fresh reader listed
      {h with entries := h.entries++(itemsOf reader e h.spine).map (entryOf e)} := by
    intro e
    refine ⟨hprinted,h.entries,_,rfl,fun reference hm => ?_,fun entry => ?_⟩
    · exact (mem_entries_of_plain hprinted hplain _).mpr ⟨reference,hm,rfl⟩
    · exact (mem_entries_of_plain hprinted hplain entry).mp
  cases a with
  | edit spine => exact ha.elim
  | sbom e => exact hentries e
  | scanAccept e reports => exact hentries e
  | scan e reports => exact ha.elim

/-- It stays fresh while nothing is edited. -/
theorem note_fresh {listed : List Str} (hplain : ∀ reference∈listed,Plain reference)
    (h : Inventoried) (a : Action) (hf : Fresh reader listed h) (ha : ¬Edits a) :
    Fresh reader listed (note reader h a) := by
  obtain ⟨hprinted,earlier,entries,hentries,hall,hown⟩ := hf
  have hmore : ∀ e : Entrypoint,Fresh reader listed
      {h with entries := h.entries++(itemsOf reader e h.spine).map (entryOf e)} := by
    intro e
    refine ⟨hprinted,earlier,entries++(itemsOf reader e h.spine).map (entryOf e),?_,?_,?_⟩
    · rw [hentries,List.append_assoc]
    · exact fun reference hm => List.mem_append_left _ (hall reference hm)
    · intro entry hm
      rcases List.mem_append.mp hm with hm|hm
      · exact hown entry hm
      · exact (mem_entries_of_plain hprinted hplain entry).mp hm
  cases a with
  | edit spine => exact absurd trivial ha
  | sbom e => exact hmore e
  | scanAccept e reports => exact hmore e
  | scan e reports => exact ⟨hprinted,earlier,entries,hentries,hall,hown⟩

/-- Of a name whose latest entries are all of one image, that image is the last. -/
theorem lastNamed_of_latest {earlier entries : List (Str×Str)} {name image : Str}
    (hm : (name,image)∈entries) (hall : ∀ entry∈entries,entry.1=name → entry.2=image) :
    lastNamed (earlier++entries) name=some image := by
  induction entries using List.reverseRecOn with
  | nil => exact absurd hm List.not_mem_nil
  | append_singleton entries entry ih =>
    rw [List.forall_mem_append,List.forall_mem_singleton] at hall
    rw [←List.append_assoc,lastNamed_concat]
    by_cases hname : entry.1=name
    · rw [if_pos hname,hall.2 hname]
    · rw [if_neg hname]
      refine ih ((List.mem_append.mp hm).resolve_right (fun hs => ?_)) hall.1
      exact hname (congrArg Prod.fst (List.mem_singleton.mp hs)).symm

/-- Each reference of a fresh list with stems that tell them apart is the last
under its stem. -/
theorem lastNamed_of_fresh {h : Inventoried} {listed : List Str} (hf : Fresh reader listed h)
    (hapart : StemsApart listed) {reference : Str} (hm : reference∈listed) :
    lastNamed h.entries (stem reference)=some reference := by
  obtain ⟨-,earlier,entries,hentries,hall,hown⟩ := hf
  rw [hentries]
  refine lastNamed_of_latest (hall reference hm) (fun entry hentry hname => ?_)
  obtain ⟨other,hother,rfl⟩ := hown entry hentry
  by_contra hne
  exact (hapart other hother reference hm hne).1 hname

/-- Only an edit changes what the images are listed from. -/
theorem note_spine (h : Inventoried) (a : Action) (ha : ¬Edits a) :
    (note reader h a).spine=h.spine := by
  cases a with
  | edit spine => exact absurd trivial ha
  | sbom e => rfl
  | scanAccept e reports => rfl
  | scan e reports => rfl

/-- A step that catalogues starts from a list that could be printed. -/
theorem listing_of_catalogues {a : Action} {next : Tree} (ha : Catalogues a)
    (hs : step py reader tree a=some next) : ∃ out,listing reader tree.spine=some out := by
  have hsbom : ∀ {e : Entrypoint} {catalogued : Tree},sbom reader e tree=some catalogued →
      ∃ out,listing reader tree.spine=some out := by
    intro e catalogued h
    unfold sbom at h
    split at h
    · cases h
    · rename_i out hout
      exact ⟨out,hout⟩
  cases a with
  | edit spine => exact ha.elim
  | scan e reports => exact ha.elim
  | sbom e => exact hsbom hs
  | scanAccept e reports =>
    have haccept : scanAccept py reader e reports tree=some next := hs
    unfold scanAccept at haccept
    split at haccept
    · cases haccept
    · rename_i catalogued h
      exact hsbom h

/-- A passing scan covers the whole spine when nothing was edited since the last
cataloguing: of a list of plain references that their stems tell apart, each has
its own document, which the scan read, and a baseline with its advisories. -/
theorem passing_scan_covers_spine {spine files : Files} {earlier later : List Action} {a : Action}
    (ha : Catalogues a) (hlater : ∀ b∈later,¬Edits b)
    (hrun : wholeRun (step py reader) ⟨spine,∅,files⟩ (earlier++a::later)=some tree)
    (hscan : scan py e reports tree=some scanned) (hzero : scanned.failed=[])
    {listed : List Str} (hlisted : references reader tree.spine=.ok listed)
    (hplain : ∀ reference∈listed,Plain reference) (hapart : StemsApart listed) :
    ∀ reference∈listed,Covered py reports tree.documents scanned reference := by
  obtain ⟨before,hbefore,hrest⟩ := wholeRun_append.mp hrun
  obtain ⟨next,hnext,-⟩ := wholeRun_cons.mp hrest
  have hrecord := run_records hbefore
  obtain ⟨out,hout⟩ := listing_of_catalogues ha hnext
  rw [hrecord.spine] at hout
  -- the list catalogued then is the list of now, because no edit came between
  let h := run (note reader) ⟨spine,[]⟩ earlier
  have hspine : (run (note reader) (note reader h a) later).spine=h.spine := by
    refine @run_invariant _ _ (note reader) (fun _ b => ¬Edits b) (fun g => g.spine=h.spine)
      (fun g b hg hb => (note_spine g b hb).trans hg) _ ?_ _ (along_of_forall hlater _)
    exact note_spine h a ha.not_edits
  have hfinal : run (note reader) ⟨spine,[]⟩ (earlier++a::later)=
      run (note reader) (note reader h a) later := List.foldl_append
  have hsame : tree.spine=h.spine := by
    rw [(run_records hrun).spine,hfinal,hspine]
  rw [hsame] at hlisted
  rw [listing_eq hlisted hout] at hout
  have hfresh : Fresh reader listed (run (note reader) (note reader h a) later) :=
    run_invariant (note_fresh hplain) (catalogues_fresh hout hplain ha) (along_of_forall hlater _)
  intro reference hm
  refine (covered_iff hscan hzero (hplain reference hm).shows).mpr ?_
  rw [(run_records hrun).documents,hfinal]
  exact lastNamed_of_fresh hfresh hapart hm

/-- A passing scan covers what was catalogued. Whatever was edited and run
before, from a directory without documents: of the references listed at that
moment whose document the scan shows, it covers each that was the last to be
catalogued under its stem, and none that never was. -/
theorem passing_scan_covers_catalogued {spine files : Files} {actions : List Action}
    (hrun : wholeRun (step py reader) ⟨spine,∅,files⟩ actions=some tree)
    (hscan : scan py e reports tree=some scanned) (hzero : scanned.failed=[]) :
    let catalogued := (run (note reader) ⟨spine,[]⟩ actions).entries
    ∀ listed,references reader tree.spine=.ok listed →
      ∀ reference∈listed,Shows e (stem reference) →
        (lastNamed catalogued (stem reference)=some reference →
          Covered py reports tree.documents scanned reference) ∧
        ((∀ entry∈catalogued,entry.2≠reference) →
          ¬Covered py reports tree.documents scanned reference) := by
  intro catalogued listed _ reference _ hshows
  have hlookup : tree.documents.lookup (stem reference)=lastNamed catalogued (stem reference) :=
    (run_records hrun).documents (stem reference)
  constructor
  · intro hlast
    exact (covered_iff hscan hzero hshows).mpr (hlookup.trans hlast)
  · intro hnever hcovered
    have hlast := hlookup.symm.trans hcovered.document
    exact hnever _ (mem_of_lastNamed hlast) rfl

/-- The compose file of two services with one image. -/
def beforeBump : String := "services:\n  a:\n    image: postgres:16\n  b:\n    image: postgres:16\n"

/-- The compose file with the image of one of them bumped. -/
def afterBump : String := "services:\n  a:\n    image: postgres:16\n  b:\n    image: postgres:17\n"

/-- A reader of the two. -/
def bumpReader : Reader Refusal where
  composeFile := str "docker-compose.yml"
  dockerfile context := context++str "/Dockerfile"
  safeLoad text :=
    if text=str afterBump then .ok (pairCompose (str "postgres:16") (str "postgres:17"))
    else .ok (pairCompose (str "postgres:16") (str "postgres:16"))
  repr _ := []

/-- A directory without files, in which every file can be written. -/
def emptyDirectory : Files :=
  ⟨fun _ => .error (.os (str "[Errno 2] No such file or directory")),fun _ => none⟩

/-- The Makefile in a directory where no pattern matches. -/
def bumpMake : Entrypoint := .makefile (fun _ => [])

/-- A scanner that reports the sample finding on every document. -/
def bumpReports (_ : Str) : ByteArray := (sampleReport "CVE-2024-6387").toUTF8

/-- The baselines are accepted, and then an image is bumped. -/
def bumpActions : List Action := [.scanAccept bumpMake bumpReports,.edit (spine afterBump "")]

/-- The reader parses the text of the compose file. -/
theorem loaded_bump {text : String} (h : cr∉str text) :
    loaded bumpReader (spine text "")=bumpReader.safeLoad (str text) := by
  have hcontent : (spine text "").content bumpReader.composeFile=.ok text.toUTF8 := by
    simp only [spine,bumpReader,if_true]
  rw [loaded,readText_text hcontent,universalNewlines_of_notMem h]

/-- One image is listed before the bump. -/
theorem references_beforeBump :
    references bumpReader (spine beforeBump "")=.ok [str "postgres:16"] := by
  have hne : str beforeBump≠str afterBump := by decide +kernel
  have hloaded : loaded bumpReader (spine beforeBump "")=
      .ok (pairCompose (str "postgres:16") (str "postgres:16")) := by
    rw [loaded_bump (by decide +kernel)]
    simp only [bumpReader,if_neg hne]
  have hsorted : sorted {strip (str "postgres:16"),strip (str "postgres:16")}=
      [str "postgres:16"] := by
    rw [Finset.pair_eq_singleton,sorted,Finset.sort_singleton]
    exact congrArg (fun r => [r]) (by decide)
  rw [references_of_pair (by decide) (by decide) hloaded,hsorted]

/-- Two are listed after it. -/
theorem references_afterBump :
    references bumpReader (spine afterBump "")=.ok [str "postgres:16",str "postgres:17"] := by
  have hloaded : loaded bumpReader (spine afterBump "")=
      .ok (pairCompose (str "postgres:16") (str "postgres:17")) := by
    rw [loaded_bump (by decide +kernel)]
    simp only [bumpReader,if_true]
  have hsorted : sorted {strip (str "postgres:16"),strip (str "postgres:17")}=
      [str "postgres:16",str "postgres:17"] := sorted_pair (by decide)
  rw [references_of_pair (by decide) (by decide) hloaded,hsorted]

/-- The first is a plain reference. -/
theorem plain_bumped : Plain (str "postgres:16") := by
  have hword : (str "postgres:16").all
      (fun c => decide (isSeparator c=false ∧ isSpecial c=false ∧ c≠cr))=true := by decide
  exact ⟨fun c hc => of_decide_eq_true (List.all_eq_true.mp hword c hc),by decide⟩

/-- The accept and the edit go through, and a scan after them exits with zero. -/
theorem bump_runs : ∃ files scanned,
    wholeRun (step (sampleInterp "CVE-2024-6387") bumpReader)
        ⟨spine beforeBump "",∅,emptyDirectory⟩ bumpActions=
      some ⟨spine afterBump "",
        (∅ : Documents).insert (stem (str "postgres:16")) (str "postgres:16"),files⟩ ∧
    scan (sampleInterp "CVE-2024-6387") bumpMake bumpReports ⟨spine afterBump "",
        (∅ : Documents).insert (stem (str "postgres:16")) (str "postgres:16"),files⟩=
      some scanned ∧ scanned.failed=[] := by
  have hk : knownPath (stem (str "postgres:16"))≠acceptFlag := inDirectory_ne_acceptFlag _
  have hr : reportPath (stem (str "postgres:16"))≠acceptFlag := inDirectory_ne_acceptFlag _
  have hne : reportPath (stem (str "postgres:16"))≠knownPath (stem (str "postgres:16")) := by
    decide
  have hz : (execute (sampleInterp "CVE-2024-6387") (knownPath (stem (str "postgres:16")))
      (reportPath (stem (str "postgres:16"))) emptyDirectory
      ⟨true,bumpReports (stem (str "postgres:16"))⟩).result=.ok 0 :=
    sample_accepted sample_shape (sample_loads sample_newlines) hk hr rfl
  have hlisting : listing bumpReader (spine beforeBump "")=some [str "postgres:16"] :=
    listing_of_encodes references_beforeBump (List.forall_mem_singleton.mpr (by decide))
  have haccept := @scanAccept_single (sampleInterp "CVE-2024-6387") bumpMake bumpReports
    bumpReader (spine beforeBump "") emptyDirectory _ hlisting plain_bumped hz
  obtain ⟨after,hscan⟩ := @scan_single (sampleInterp "CVE-2024-6387") bumpMake bumpReports
    (spine afterBump "") _ _ (str "postgres:16") plain_bumped.shows
    (plain_after_accept hk hr hne (sample_shaped sample_shape (sample_loads sample_newlines)) hz)
  refine ⟨_,_,?_,hscan,rfl⟩
  exact wholeRun_cons.mpr ⟨_,haccept,wholeRun_edit _ _ _ _ _⟩

/-- The image that was catalogued before the bump is covered after it. -/
theorem passing_scan_covers_catalogued_bump : ∃ tree scanned,
    wholeRun (step (sampleInterp "CVE-2024-6387") bumpReader)
        ⟨spine beforeBump "",∅,emptyDirectory⟩ bumpActions=some tree ∧
      scan (sampleInterp "CVE-2024-6387") bumpMake bumpReports tree=some scanned ∧
      scanned.failed=[] ∧
      Covered (sampleInterp "CVE-2024-6387") bumpReports tree.documents scanned
        (str "postgres:16") := by
  obtain ⟨files,scanned,hrun,hscan,hzero⟩ := bump_runs
  refine ⟨_,scanned,hrun,hscan,hzero,?_⟩
  have h := passing_scan_covers_catalogued hrun hscan hzero _ references_afterBump
    (str "postgres:16") (by decide) plain_bumped.shows
  refine h.1 ?_
  rw [←(run_records hrun).documents]
  exact Finmap.lookup_insert _

/-- The bumped image is listed and has no document, and the scan exits with
zero. -/
theorem passing_scan_covers_fails : ∃ tree scanned,
    wholeRun (step (sampleInterp "CVE-2024-6387") bumpReader)
        ⟨spine beforeBump "",∅,emptyDirectory⟩ bumpActions=some tree ∧
      scan (sampleInterp "CVE-2024-6387") bumpMake bumpReports tree=some scanned ∧
      scanned.failed=[] ∧
      references bumpReader tree.spine=.ok [str "postgres:16",str "postgres:17"] ∧
      stem (str "postgres:17")∉tree.documents ∧
      ¬Covered (sampleInterp "CVE-2024-6387") bumpReports tree.documents scanned
        (str "postgres:17") := by
  obtain ⟨files,scanned,hrun,hscan,hzero⟩ := bump_runs
  have hmissing : stem (str "postgres:17")∉
      (∅ : Documents).insert (stem (str "postgres:16")) (str "postgres:16") := by
    rw [Finmap.mem_insert]
    exact not_or.mpr ⟨by decide,Finmap.notMem_empty⟩
  refine ⟨_,scanned,hrun,hscan,hzero,references_afterBump,hmissing,fun h => ?_⟩
  exact hmissing (Finmap.mem_of_lookup_eq_some h.document)

end MlopsPlatform.SupplyCoverage
