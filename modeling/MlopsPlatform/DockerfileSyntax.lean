import MlopsPlatform.TextTokens

/-!
# The FROM instructions of a Dockerfile

A Dockerfile as its lines: FROM instructions, each taken apart into options,
image and stage name, and whatever else stands between them. An image is
external unless an earlier stage of the same file has its name. Keywords and
stage names are read in any letter case.
-/

namespace MlopsPlatform.DockerfileSyntax

open TextCodec TextLines TextTokens

/-- Whitespace that ends no line, for Python either: a form feed or a vertical
tab, at which `splitlines` cuts, is left out. -/
def Gap (s : Str) : Prop := ∀ c∈s,isSpace c=true ∧ isLineBoundary c=false

/-- An ASCII letter in lower case, and any other character as it is. -/
def lower (c : CodePoint) : CodePoint := if 0x41≤c.val ∧ c.val≤0x5a then c+0x20 else c

/-- A word and the whitespace in front of it. -/
structure Operand where
  /-- The whitespace. -/
  gap : Str
  /-- The word. -/
  word : Str
  /-- There is whitespace in front. -/
  spaced : gap≠[]
  /-- It is nothing else. -/
  blank : Gap gap
  /-- The word has no whitespace. -/
  token : Token isSpace word

/-- An operand as it is written. -/
def Operand.text (operand : Operand) : Str := operand.gap++operand.word

/-- The name of a stage, after its keyword. -/
structure Stage where
  /-- AS, in any letter case. -/
  keyword : Operand
  /-- The name. -/
  name : Operand
  /-- The keyword is AS. -/
  isAs : keyword.word.map lower=str "as"

/-- `FROM [--flag=value]* image [AS stage]`, on a line of its own. -/
structure FromInstruction where
  /-- What the line is indented by. -/
  indent : Str
  /-- FROM, in any letter case. -/
  keyword : Str
  /-- The options. -/
  flags : List Operand
  /-- The image. -/
  image : Operand
  /-- The stage name, if the stage has one. -/
  stage : Option Stage
  /-- What follows the last operand. -/
  trailing : Str
  /-- Only whitespace is in front of the keyword. -/
  indented : Gap indent
  /-- The keyword is FROM. -/
  isFrom : keyword.map lower=str "from"
  /-- An option starts with two dashes and has a value. -/
  optional : ∀ flag∈flags,∃ name value,flag.word=str "--"++name++str "="++value
  /-- An image is no option. -/
  isImage : ¬str "--"<+:image.word
  /-- Only whitespace ends the line. -/
  trailed : Gap trailing

/-- The stage name as it is written. -/
def stageText : Option Stage→Str
  | none => []
  | some stage => stage.keyword.text++stage.name.text

/-- An instruction as it is written. -/
def FromInstruction.text (instruction : FromInstruction) : Str :=
  instruction.indent++instruction.keyword++(instruction.flags.flatMap Operand.text++
    (instruction.image.text++(stageText instruction.stage++instruction.trailing)))

/-- The first operand: an option, if there is one, and the image otherwise. -/
def FromInstruction.first (instruction : FromInstruction) : Operand :=
  match instruction.flags with
  | [] => instruction.image
  | flag::_ => flag

/-- A line of a Dockerfile. -/
inductive Line where
  /-- A FROM instruction. -/
  | base (instruction : FromInstruction)
  /-- A blank line, a comment or the first line of another instruction. -/
  | other (text : Str) (h : ∀ token,First isSpace text token → token.map lower≠str "from")
  /-- A further line of the instruction before it, continued or a here-document. -/
  | body (text : Str)

/-- A line as it is written. -/
def Line.text : Line→Str
  | .base instruction => instruction.text
  | .other text _ => text
  | .body text => text

/-- A Dockerfile has at least one FROM instruction. -/
structure Dockerfile where
  /-- Its lines. -/
  lines : List Line
  /-- One of them is a FROM instruction. -/
  begins : ∃ instruction,.base instruction∈lines

/-- One of the lines names a stage that is referred to like this. -/
def Names (lines : List Line) (name : Str) : Prop :=
  ∃ instruction stage,.base instruction∈lines ∧ instruction.stage=some stage ∧
    stage.name.word.map lower=name.map lower

/-- An image that comes from outside: a FROM instruction names it and no
earlier stage has its name. -/
def External (lines : List Line) (image : Str) : Prop :=
  ∃ before instruction after,lines=before++.base instruction::after ∧
    instruction.image.word=image ∧ ¬Names before image

variable {lines : List Line} {instruction : FromInstruction} {image : Str}

theorem gap_ends {s : Str} (h : Gap s) : Ends isSpace s :=
  fun c hc => (h c (List.mem_of_mem_head? hc)).1

/-- A word ends where the next operand begins. -/
theorem ends_operand (operand : Operand) (s : Str) : Ends isSpace (operand.text++s) := by
  intro c hc
  cases hgap : operand.gap with
  | nil => exact absurd hgap operand.spaced
  | cons d gap =>
    rw [Operand.text,hgap,List.cons_append,List.cons_append,List.head?_cons] at hc
    cases hc
    exact (operand.blank c (by rw [hgap]; exact List.mem_cons_self)).1

theorem ends_stage {stage : Option Stage} {s : Str} (hs : Ends isSpace s) :
    Ends isSpace (stageText stage++s) := by
  cases stage with
  | none => exact hs
  | some stage =>
    rw [stageText,List.append_assoc]
    exact ends_operand _ _

/-- An instruction is its keyword, its first operand and a rest. -/
theorem text_first (instruction : FromInstruction) :
    ∃ rest,instruction.text=instruction.indent++instruction.keyword++
      (instruction.first.text++rest) ∧ Ends isSpace rest := by
  have htail := @ends_stage instruction.stage _ (gap_ends instruction.trailed)
  cases hflags : instruction.flags with
  | nil =>
    refine ⟨stageText instruction.stage++instruction.trailing,?_,htail⟩
    simp only [FromInstruction.text,FromInstruction.first,hflags,List.flatMap_nil,List.nil_append]
  | cons flag flags =>
    refine ⟨flags.flatMap Operand.text++(instruction.image.text++
      (stageText instruction.stage++instruction.trailing)),?_,?_⟩
    · simp only [FromInstruction.text,FromInstruction.first,hflags,List.flatMap_cons,
        List.append_assoc]
    · cases flags with
      | nil => exact ends_operand _ _
      | cons next flags =>
        rw [List.flatMap_cons,List.append_assoc]
        exact ends_operand _ _

/-- A keyword has no whitespace, whatever its letter case. -/
theorem isSpace_of_lower {c : CodePoint} (h : lower c∈str "from") : isSpace c=false := by
  have hval : (str "from").all (fun d => decide (0x61≤d.val ∧ d.val≤0x7a))=true := by decide
  have hbounds := of_decide_eq_true (List.all_eq_true.mp hval _ h)
  unfold lower at hbounds
  split at hbounds
  · rename_i hupper
    simp only [isSpace,Bool.or_eq_false_iff,Bool.and_eq_false_iff,decide_eq_false_iff_not,
      beq_eq_false_iff_ne]
    omega
  · simp only [isSpace,Bool.or_eq_false_iff,Bool.and_eq_false_iff,decide_eq_false_iff_not,
      beq_eq_false_iff_ne]
    omega

theorem gap_lineFree {s : Str} (h : Gap s) : LineFree s := fun c hc => (h c hc).2

theorem operand_lineFree (operand : Operand) : LineFree operand.text :=
  lineFree_append.mpr ⟨gap_lineFree operand.blank,lineFree_of_not_space operand.token.whole⟩

/-- An instruction is one line. -/
theorem text_lineFree (instruction : FromInstruction) : LineFree instruction.text := by
  have hkeyword : LineFree instruction.keyword := by
    refine lineFree_of_not_space (fun c hc => isSpace_of_lower ?_)
    rw [←instruction.isFrom]
    exact List.mem_map_of_mem hc
  have hflags : LineFree (instruction.flags.flatMap Operand.text) := by
    intro c hc
    obtain ⟨flag,-,hm⟩ := List.mem_flatMap.mp hc
    exact operand_lineFree flag c hm
  have hstage : LineFree (stageText instruction.stage) := by
    cases instruction.stage with
    | none => exact lineFree_nil
    | some stage => exact lineFree_append.mpr ⟨operand_lineFree _,operand_lineFree _⟩
  simp only [FromInstruction.text,lineFree_append]
  exact ⟨⟨gap_lineFree instruction.indented,hkeyword⟩,hflags,operand_lineFree _,hstage,
    gap_lineFree instruction.trailed⟩

theorem keyword_length (instruction : FromInstruction) : instruction.keyword.length=4 := by
  have h := congrArg List.length instruction.isFrom
  rwa [List.length_map] at h

theorem text_ne_nil (instruction : FromInstruction) : instruction.text≠[] := by
  have h := keyword_length instruction
  intro he
  simp only [FromInstruction.text,List.append_eq_nil_iff] at he
  rw [he.1.2] at h
  cases h

/-- An external image is no option. -/
theorem external_isImage (h : External lines image) : ¬str "--"<+:image := by
  obtain ⟨before,instruction,after,-,rfl,-⟩ := h
  exact instruction.isImage

/-- The image of the first FROM instruction is external. -/
theorem exists_external (h : ∃ instruction,.base instruction∈lines) :
    ∃ image,External lines image := by
  induction lines with
  | nil =>
    obtain ⟨instruction,hm⟩ := h
    cases hm
  | cons line lines ih =>
    -- only a line without a stage is put in front
    have hskip : (∀ instruction,line≠.base instruction) → ∃ image,External (line::lines) image := by
      intro hline
      obtain ⟨instruction,hm⟩ := h
      rcases List.mem_cons.mp hm with he|hm
      · exact absurd he.symm (hline instruction)
      · obtain ⟨image,before,instruction,after,rfl,himage,hnames⟩ := ih ⟨instruction,hm⟩
        refine ⟨image,line::before,instruction,after,rfl,himage,?_⟩
        rintro ⟨other,stage,hother,hstage⟩
        rcases List.mem_cons.mp hother with he|hother
        · exact absurd he.symm (hline other)
        · exact hnames ⟨other,stage,hother,hstage⟩
    cases line with
    | base instruction =>
      refine ⟨instruction.image.word,[],instruction,lines,rfl,rfl,?_⟩
      rintro ⟨other,stage,hother,-⟩
      cases hother
    | other text h => exact hskip (fun _ he => (by cases he))
    | body text => exact hskip (fun _ he => (by cases he))

end MlopsPlatform.DockerfileSyntax
