import MlopsPlatform.DockerfileSyntax
import MlopsPlatform.SupplyImagesComplete

/-!
# The bases of a Dockerfile by its own grammar

`_bases` takes the second word of every line that starts with FROM and a space.
That is the image of an instruction that stands at the start of its line, is
spelled in capitals and has no option. Any other spelling is passed over, an
option is taken for an image, and so is the name of an earlier stage.
-/

namespace MlopsPlatform.SupplyImagesGrammar

open TextCodec TextLines TextTokens PythonFiles SupplyImages SupplyImagesComplete
  DockerfileSyntax

/-- The instruction is written so that its line is recognised. -/
structure Recognised (instruction : FromInstruction) : Prop where
  /-- It is not indented. -/
  unindented : instruction.indent=[]
  /-- It is spelled in capitals. -/
  capitals : instruction.keyword=str "FROM"
  /-- A space comes next. -/
  spaced : instruction.first.gap.head?=some 0x20

/-- A line that is no FROM instruction and is taken for one. -/
def Stray (lines : List Line) (base : Str) : Prop :=
  ∃ line∈lines,(∀ instruction,line≠.base instruction) ∧
    ∃ piece∈splitlines line.text,BaseLine piece base

/-- What a Dockerfile needs for its external images to be read. -/
structure Readable (lines : List Line) : Prop where
  /-- A recognised instruction has no option. -/
  flagless : ∀ instruction,.base instruction∈lines → Recognised instruction →
    instruction.flags=[]
  /-- It names an external image. -/
  outside : ∀ instruction,.base instruction∈lines → Recognised instruction →
    External lines instruction.image.word
  /-- Every external image is named by a recognised instruction, or by a stray line. -/
  listed : ∀ image,External lines image →
    (∃ instruction,.base instruction∈lines ∧ Recognised instruction ∧
      instruction.image.word=image) ∨ Stray lines image
  /-- A stray line names an external image as well. -/
  stray : ∀ base,Stray lines base → External lines base

variable {reader : Reader Refusal} {files : Files} {context base : Str} {lines : List Line}
  {instruction : FromInstruction} {text : String}

theorem fromKeyword_eq : fromKeyword=str "FROM"++[(0x20 : CodePoint)] := rfl

/-- The line of an instruction is read as its first operand, if it is recognised. -/
theorem baseLine_text_iff :
    BaseLine instruction.text base ↔ Recognised instruction ∧ base=instruction.first.word := by
  obtain ⟨rest,htext,hends⟩ := text_first instruction
  have hlength := keyword_length instruction
  constructor
  · rintro ⟨after,hline,hfirst⟩
    rw [htext,fromKeyword_eq] at hline
    have hindent : instruction.indent=[] := by
      cases hi : instruction.indent with
      | nil => rfl
      | cons c indent =>
        have hspace := (instruction.indented c (by rw [hi]; exact List.mem_cons_self)).1
        rw [hi] at hline
        have hc : c=(0x46 : CodePoint) := (List.cons.inj hline).1
        rw [hc] at hspace
        cases hspace
    rw [hindent,List.nil_append,List.append_assoc] at hline
    obtain ⟨hkeyword,hrest⟩ := List.append_inj hline (by rw [hlength]; rfl)
    rw [Operand.text] at hrest
    cases hgap : instruction.first.gap with
    | nil => exact absurd hgap instruction.first.spaced
    | cons c gap =>
      rw [hgap,List.cons_append,List.cons_append,List.singleton_append] at hrest
      obtain ⟨hc,hafter⟩ := List.cons.inj hrest
      refine ⟨⟨hindent,hkeyword,by rw [hgap,hc]; rfl⟩,?_⟩
      refine hfirst.unique ⟨gap,rest,hafter.symm,fun x hx => ?_,instruction.first.token,hends⟩
      exact (instruction.first.blank x (by rw [hgap]; exact List.mem_cons_of_mem _ hx)).1
  · rintro ⟨⟨hindent,hkeyword,hspaced⟩,rfl⟩
    cases hgap : instruction.first.gap with
    | nil => exact absurd hgap instruction.first.spaced
    | cons c gap =>
      rw [hgap] at hspaced
      cases hspaced
      refine ⟨gap++instruction.first.word++rest,?_,gap,rest,rfl,fun x hx => ?_,
        instruction.first.token,hends⟩
      · rw [htext,hindent,hkeyword,fromKeyword_eq,Operand.text,hgap]
        simp only [List.nil_append,List.append_assoc,List.cons_append]
      · exact (instruction.first.blank x (by rw [hgap]; exact List.mem_cons_of_mem _ hx)).1

/-- A line that names a base is not empty. -/
theorem baseLine_ne_nil {line : Str} (h : BaseLine line base) : line≠[] := by
  obtain ⟨rest,rfl,-⟩ := h
  rw [fromKeyword_eq]
  exact fun he => (by cases he)

/-- What a Dockerfile names is named on one of its lines. -/
theorem namesBase_lines (hfile : files.content (reader.dockerfile context)=.ok text.toUTF8)
    (hlines : (universalNewlines (str text)).splitOn lf=lines.map Line.text) :
    NamesBase reader files context base ↔
      ∃ line∈lines,∃ piece∈splitlines line.text,BaseLine piece base := by
  constructor
  · rintro ⟨other,hother,piece,hpiece,hbase⟩
    rw [hfile,Except.ok.injEq] at hother
    have he : other=text := String.toByteArray_inj.mp hother.symm
    rw [he,←splitlines_universalNewlines,
      mem_splitlines_splitOn (cr_notMem_universalNewlines _) (baseLine_ne_nil hbase),
      hlines] at hpiece
    obtain ⟨part,hpart,hpiece⟩ := hpiece
    obtain ⟨line,hline,rfl⟩ := List.mem_map.mp hpart
    exact ⟨line,hline,piece,hpiece,hbase⟩
  · rintro ⟨line,hline,piece,hpiece,hbase⟩
    refine ⟨text,hfile,piece,?_,hbase⟩
    rw [←splitlines_universalNewlines,
      mem_splitlines_splitOn (cr_notMem_universalNewlines _) (baseLine_ne_nil hbase),hlines]
    exact ⟨line.text,List.mem_map_of_mem hline,hpiece⟩

/-- What a Dockerfile is read as, line by line. -/
theorem namesBase_iff (hfile : files.content (reader.dockerfile context)=.ok text.toUTF8)
    (hlines : (universalNewlines (str text)).splitOn lf=lines.map Line.text) :
    NamesBase reader files context base ↔
      (∃ instruction,.base instruction∈lines ∧ Recognised instruction ∧
        base=instruction.first.word) ∨ Stray lines base := by
  rw [namesBase_lines hfile hlines]
  constructor
  · rintro ⟨line,hline,piece,hpiece,hbase⟩
    cases line with
    | base instruction =>
      rw [Line.text,splitlines_last (text_lineFree instruction) (text_ne_nil instruction),
        List.mem_singleton] at hpiece
      rw [hpiece,baseLine_text_iff] at hbase
      exact Or.inl ⟨instruction,hline,hbase⟩
    | other text h => exact Or.inr ⟨_,hline,fun _ he => (by cases he),piece,hpiece,hbase⟩
    | body text => exact Or.inr ⟨_,hline,fun _ he => (by cases he),piece,hpiece,hbase⟩
  · rintro (⟨instruction,hline,hbase⟩|⟨line,hline,-,piece,hpiece,hbase⟩)
    · refine ⟨_,hline,instruction.text,?_,baseLine_text_iff.mpr hbase⟩
      rw [Line.text,splitlines_last (text_lineFree instruction) (text_ne_nil instruction)]
      exact List.mem_cons_self
    · exact ⟨line,hline,piece,hpiece,hbase⟩

theorem first_of_flagless (h : instruction.flags=[]) : instruction.first=instruction.image := by
  rw [FromInstruction.first,h]

/-- An option is no external image. -/
theorem flagless_of_external (h : External lines instruction.first.word) :
    instruction.flags=[] := by
  cases hflags : instruction.flags with
  | nil => rfl
  | cons flag flags =>
    obtain ⟨name,value,hword⟩ := instruction.optional flag (by rw [hflags]; exact List.mem_cons_self)
    have hfirst : instruction.first=flag := by rw [FromInstruction.first,hflags]
    rw [hfirst,hword,List.append_assoc,List.append_assoc] at h
    exact absurd (List.prefix_append _ _) (external_isImage h)

/-- The words that recognised instructions and stray lines name are the external
images exactly when the Dockerfile is readable. -/
theorem named_external_iff :
    (∀ base,(∃ instruction,.base instruction∈lines ∧ Recognised instruction ∧
        base=instruction.first.word) ∨ Stray lines base ↔ External lines base) ↔
      Readable lines := by
  constructor
  · intro hread
    have hfirst : ∀ instruction,.base instruction∈lines → Recognised instruction →
        External lines instruction.first.word := fun instruction hline hrecognised =>
      (hread _).mp (Or.inl ⟨instruction,hline,hrecognised,rfl⟩)
    refine ⟨fun instruction hline hr => flagless_of_external (hfirst instruction hline hr),
      fun instruction hline hr => ?_,fun image himage => ?_,fun base hstray => ?_⟩
    · have hexternal := hfirst instruction hline hr
      rwa [first_of_flagless (flagless_of_external hexternal)] at hexternal
    · refine ((hread image).mpr himage).imp_left ?_
      rintro ⟨instruction,hline,hr,rfl⟩
      refine ⟨instruction,hline,hr,?_⟩
      rw [first_of_flagless (flagless_of_external himage)]
    · exact (hread base).mp (Or.inr hstray)
  · intro hreadable base
    constructor
    · rintro (⟨instruction,hline,hr,rfl⟩|hstray)
      · rw [first_of_flagless (hreadable.flagless instruction hline hr)]
        exact hreadable.outside instruction hline hr
      · exact hreadable.stray base hstray
    · intro hexternal
      refine (hreadable.listed base hexternal).imp_left ?_
      rintro ⟨instruction,hline,hr,rfl⟩
      refine ⟨instruction,hline,hr,?_⟩
      rw [first_of_flagless (hreadable.flagless instruction hline hr)]

/-- `_bases` returns the external images of a Dockerfile exactly when each is
named by a recognised instruction and nothing else is recognised. -/
theorem bases_external_iff (dockerfile : Dockerfile)
    (hfile : files.content (reader.dockerfile context)=.ok text.toUTF8)
    (hlines : (universalNewlines (str text)).splitOn lf=dockerfile.lines.map Line.text) :
    (∃ found,bases reader files context=.ok found ∧
      ∀ image,image∈found ↔ External dockerfile.lines image) ↔ Readable dockerfile.lines := by
  have hnamed : (∀ base,NamesBase reader files context base ↔ External dockerfile.lines base) ↔
      Readable dockerfile.lines := by
    rw [←named_external_iff]
    exact forall_congr' (fun base => iff_congr (namesBase_iff hfile hlines) Iff.rfl)
  rw [←hnamed]
  rcases bases_of_text hfile with ⟨found,hfound,-,hmem⟩|⟨hnone,error,herror⟩
  · constructor
    · rintro ⟨found',hfound',hexternal⟩ base
      rw [hfound,Except.ok.injEq] at hfound'
      rw [←hmem,hfound',hexternal]
    · exact fun hread => ⟨found,hfound,fun image => (hmem image).trans (hread image)⟩
  · refine iff_of_false ?_ (fun hread => ?_)
    · rintro ⟨found,hfound,-⟩
      rw [hfound] at herror
      cases herror
    · obtain ⟨image,himage⟩ := exists_external dockerfile.begins
      exact absurd ((hread image).mpr himage) (hnone image)

/-- A word after one space. -/
def spacedWord (word : Str) (h : Token isSpace word) : Operand :=
  ⟨[0x20],word,List.cons_ne_nil _ _,List.forall_mem_singleton.mpr ⟨rfl,rfl⟩,h⟩

theorem token_platform : Token isSpace (str "--platform=linux/amd64") :=
  ⟨by decide,notSpace_literal _ rfl⟩

theorem token_alpine : Token isSpace (str "alpine") := ⟨by decide,notSpace_literal _ rfl⟩

theorem token_postgres : Token isSpace (str "postgres") := ⟨by decide,notSpace_literal _ rfl⟩

theorem token_as : Token isSpace (str "AS") := ⟨by decide,notSpace_literal _ rfl⟩

theorem token_build : Token isSpace (str "build") := ⟨by decide,notSpace_literal _ rfl⟩

/-- An instruction at the start of its line, in capitals, with single spaces. -/
def fromLine (flags : List Operand) (image : Operand) (stage : Option Stage)
    (hflags : ∀ flag∈flags,∃ name value,flag.word=str "--"++name++str "="++value)
    (himage : ¬str "--"<+:image.word) : FromInstruction where
  indent := []
  keyword := str "FROM"
  flags := flags
  image := image
  stage := stage
  trailing := []
  indented := fun _ h => absurd h List.not_mem_nil
  isFrom := by decide
  optional := hflags
  isImage := himage
  trailed := fun _ h => absurd h List.not_mem_nil

/-- `AS build` -/
def buildStage : Stage :=
  ⟨spacedWord (str "AS") token_as,spacedWord (str "build") token_build,by decide⟩

/-- `FROM alpine AS build` -/
def buildLine : FromInstruction :=
  fromLine [] (spacedWord (str "alpine") token_alpine) (some buildStage)
    (fun _ h => absurd h List.not_mem_nil) (by decide)

/-- `FROM postgres` -/
def serverLine : FromInstruction :=
  fromLine [] (spacedWord (str "postgres") token_postgres) none
    (fun _ h => absurd h List.not_mem_nil) (by decide)

/-- A Dockerfile of two stages, each on an image of its own. -/
def apartFile : Dockerfile :=
  ⟨[.base buildLine,.base serverLine,.body []],buildLine,List.mem_cons_self⟩

/-- A reader whose Dockerfiles stand in their contexts. -/
def plainReader : Reader Refusal where
  composeFile := str "docker-compose.yml"
  dockerfile := fun context => context++str "/Dockerfile"
  safeLoad := fun _ => .error (.own (.yaml []))
  repr := fun _ => []

/-- The one Dockerfile, in the context `mlflow`. -/
def dockerfileFiles (text : String) : Files :=
  ⟨fun path => if path=str "mlflow/Dockerfile" then .ok text.toUTF8
    else .error (.os (str "No such file or directory")),fun _ => none⟩

theorem dockerfileFiles_content (text : String) :
    (dockerfileFiles text).content (plainReader.dockerfile (str "mlflow"))=.ok text.toUTF8 := rfl

theorem bases_external_iff_apart :
    ∃ found,bases plainReader (dockerfileFiles "FROM alpine AS build\nFROM postgres\n")
        (str "mlflow")=.ok found ∧ ∀ image,image∈found ↔ External apartFile.lines image := by
  have hbuild : External apartFile.lines (str "alpine") := by
    refine ⟨[],buildLine,[.base serverLine,.body []],rfl,rfl,?_⟩
    rintro ⟨other,stage,hother,-⟩
    cases hother
  have hserver : External apartFile.lines (str "postgres") := by
    refine ⟨[.base buildLine],serverLine,[.body []],rfl,rfl,?_⟩
    rintro ⟨other,stage,hother,hstage,hname⟩
    cases List.mem_singleton.mp hother
    cases (Option.some.inj hstage : _=stage)
    exact absurd hname (by decide)
  have hlines : ∀ instruction,.base instruction∈apartFile.lines →
      instruction=buildLine ∨ instruction=serverLine := by
    intro instruction hm
    rcases List.mem_cons.mp hm with he|hm
    · exact .inl (Line.base.inj he)
    · rcases List.mem_cons.mp hm with he|hm
      · exact .inr (Line.base.inj he)
      · cases List.mem_singleton.mp hm
  have hrecognised : ∀ instruction,.base instruction∈apartFile.lines → Recognised instruction ∧
      instruction.flags=[] ∧ External apartFile.lines instruction.image.word := by
    intro instruction hm
    rcases hlines instruction hm with rfl|rfl
    · exact ⟨⟨rfl,rfl,rfl⟩,rfl,hbuild⟩
    · exact ⟨⟨rfl,rfl,rfl⟩,rfl,hserver⟩
  have hstray : ∀ base,¬Stray apartFile.lines base := by
    rintro base ⟨line,hm,hno,piece,hpiece,-⟩
    rcases List.mem_cons.mp hm with he|hm
    · exact hno buildLine he
    · rcases List.mem_cons.mp hm with he|hm
      · exact hno serverLine he
      · rw [List.mem_singleton.mp hm] at hpiece
        cases hpiece
  refine (bases_external_iff apartFile (dockerfileFiles_content _) (by decide +kernel)).mpr
    ⟨fun instruction hm _ => (hrecognised instruction hm).2.1,
      fun instruction hm _ => (hrecognised instruction hm).2.2,fun image himage => ?_,
      fun base hs => absurd hs (hstray base)⟩
  obtain ⟨before,instruction,after,hsplit,himage,-⟩ := himage
  have hm : .base instruction∈apartFile.lines := by
    rw [hsplit]
    exact List.mem_append_right _ List.mem_cons_self
  exact Or.inl ⟨instruction,hm,(hrecognised instruction hm).1,himage⟩

/-- `FROM --platform=linux/amd64 alpine AS build` -/
def platformLine : FromInstruction :=
  fromLine [spacedWord (str "--platform=linux/amd64") token_platform]
    (spacedWord (str "alpine") token_alpine)
    (some buildStage) (List.forall_mem_singleton.mpr ⟨str "platform",str "linux/amd64",by decide⟩)
    (by decide)

/-- `FROM build` -/
def stageLine : FromInstruction :=
  fromLine [] (spacedWord (str "build") token_build) none
    (fun _ h => absurd h List.not_mem_nil) (by decide)

/-- A Dockerfile of two stages, the second built on the first. -/
def stagedFile : Dockerfile :=
  ⟨[.base platformLine,.base stageLine],platformLine,List.mem_cons_self⟩

/-- The option and the stage name are returned, and the image is not. -/
theorem bases_external_fails :
    bases plainReader
        (dockerfileFiles "FROM --platform=linux/amd64 alpine AS build\nFROM build")
        (str "mlflow")=.ok {str "--platform=linux/amd64",str "build"} ∧
      External stagedFile.lines (str "alpine") ∧
      ¬∃ found,bases plainReader
          (dockerfileFiles "FROM --platform=linux/amd64 alpine AS build\nFROM build")
          (str "mlflow")=.ok found ∧ ∀ image,image∈found ↔ External stagedFile.lines image := by
  have hread := readText_text (ε:=Refusal) (dockerfileFiles_content
    "FROM --platform=linux/amd64 alpine AS build\nFROM build")
  have hfound : ((splitlines (universalNewlines
      (str "FROM --platform=linux/amd64 alpine AS build\nFROM build"))).filterMap
        baseOf).toFinset={str "--platform=linux/amd64",str "build"} := by decide +kernel
  have hbases : bases plainReader
      (dockerfileFiles "FROM --platform=linux/amd64 alpine AS build\nFROM build")
      (str "mlflow")=.ok {str "--platform=linux/amd64",str "build"} := by
    simp only [bases,hread,hfound]
    exact if_neg (Finset.insert_ne_empty _ _)
  have halpine : External stagedFile.lines (str "alpine") := by
    refine ⟨[],platformLine,[.base stageLine],rfl,rfl,?_⟩
    rintro ⟨other,stage,hother,-⟩
    cases hother
  refine ⟨hbases,halpine,?_⟩
  rintro ⟨found,hfound',hexternal⟩
  rw [hbases,Except.ok.injEq] at hfound'
  have hm := (hexternal (str "alpine")).mpr halpine
  rw [←hfound'] at hm
  exact absurd hm (by decide)

end MlopsPlatform.SupplyImagesGrammar
