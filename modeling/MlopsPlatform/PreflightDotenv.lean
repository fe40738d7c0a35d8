import MlopsPlatform.PreflightCredentials

/-!
# Dotenv files and what is read from them

A file is a list of lines: assignments, comments and blank ones. An assignment
spells its value bare or between quotes, with whitespace around the name and
around the spelled value. What is read is what was assigned: stripping takes
off the whitespace and nothing of a value, and unquoting takes off the quotes
that the spelling put there.
-/

namespace MlopsPlatform.PreflightDotenv

open TextCodec TextLines TextStrip TextSeparators PreflightCredentials

/-- Whitespace that ends no line. -/
structure Padding where
  /-- The characters. -/
  text : Str
  /-- They are whitespace. -/
  blank : Blank text
  /-- None of them ends a line. -/
  lineFree : LineFree text

/-- A name that can stand left of the equals sign. -/
structure Name where
  /-- The characters. -/
  text : Str
  /-- There is one. -/
  nonempty : text≠[]
  /-- No whitespace at either end. -/
  trimmed : Trimmed text
  /-- No equals sign. -/
  noEquals : equals∉text
  /-- No line boundary. -/
  lineFree : LineFree text
  /-- It does not open a comment. -/
  noComment : text.head?≠some hash

/-- How a value is spelled. -/
inductive Spelling where
  /-- As it is. -/
  | bare
  /-- Between double quotes. -/
  | double
  /-- Between single quotes. -/
  | single

/-- The spelled value. -/
def Spelling.write (value : Str) : Spelling→Str
  | .bare => value
  | .double => doubleQuote::(value++[doubleQuote])
  | .single => singleQuote::(value++[singleQuote])

/-- A bare value has no whitespace at its ends, which would be stripped, and is
not itself between quotes, which would be taken off. -/
def Spelling.Allows (value : Str) : Spelling→Prop
  | .bare => Trimmed value ∧ ¬Wrapped doubleQuote value ∧ ¬Wrapped singleQuote value
  | .double => True
  | .single => True

/-- A line that assigns a value to a name. -/
structure Assignment where
  /-- The name. -/
  name : Name
  /-- The value. -/
  value : Str
  /-- It fits on the line. -/
  lineFree : LineFree value
  /-- How it is spelled. -/
  spelling : Spelling
  /-- The value can be spelled so. -/
  allowed : spelling.Allows value
  /-- What stands before the name. -/
  beforeName : Padding
  /-- What stands between the name and the equals sign. -/
  afterName : Padding
  /-- What stands between the equals sign and the spelled value. -/
  beforeValue : Padding
  /-- What stands behind the spelled value. -/
  afterValue : Padding

/-- A line of a dotenv file. -/
inductive Line where
  /-- An assignment. -/
  | assignment (a : Assignment)
  /-- A comment, behind some whitespace. -/
  | comment (before : Padding) (said : Str) (lineFree : LineFree said)
  /-- A blank line, or an empty one. -/
  | blank (padding : Padding)

/-- What ends a line. -/
inductive Ending where
  /-- A carriage return and a line feed. -/
  | crlf
  /-- One of the line boundaries. -/
  | boundary (c : CodePoint) (ends : isLineBoundary c=true)

/-- A dotenv file: lines with their endings, and a last line that has none and
may be empty. -/
structure File where
  /-- The lines that are ended. -/
  ended : List (Line×Ending)
  /-- The line behind the last ending. -/
  last : Line

/-- The text of an assignment. -/
def Assignment.text (a : Assignment) : Str :=
  a.beforeName.text++a.name.text++a.afterName.text++
    equals::(a.beforeValue.text++a.spelling.write a.value++a.afterValue.text)

/-- The text of a line. -/
def Line.text : Line→Str
  | .assignment a => a.text
  | .comment before said _ => before.text++hash::said
  | .blank padding => padding.text

/-- The name and the value a line assigns. -/
def Line.assigned : Line→Option (Str×Str)
  | .assignment a => some (a.name.text,a.value)
  | .comment _ _ _ => none
  | .blank _ => none

/-- The characters that end the line. -/
def Ending.text : Ending→Str
  | .crlf => [cr,lf]
  | .boundary c _ => [c]

/-- The rendered text. -/
def File.text (file : File) : Str :=
  file.ended.flatMap (fun line => line.1.text++line.2.text)++file.last.text

/-- The assignments of the file in order. -/
def File.assigned (file : File) : List (Str×Str) :=
  (file.ended.map Prod.fst++[file.last]).filterMap Line.assigned

/-- The value of the last assignment to the name. -/
def LastValue (assigned : List (Str×Str)) (name value : Str) : Prop :=
  ∃ before after,assigned=before++(name,value)::after ∧ ∀ later∈after,later.1≠name

/-- What `parse_env_pairs` makes of a rendered file. -/
structure RoundTrip (file : File) : Prop where
  /-- A name is mapped to the last value assigned to it, and no other is mapped. -/
  exact : ∀ name value,(parseEnvPairs file.text).lookup name=some value ↔
    LastValue file.assigned name value
  /-- Another way to write the same assignments makes no difference. -/
  spelling : ∀ other : File,other.assigned=file.assigned →
    parseEnvPairs other.text=parseEnvPairs file.text

theorem isSpace_hash : isSpace hash=false := by decide

/-- A quoted value has no whitespace at its ends. -/
theorem trimmed_quoted {quote : CodePoint} (hq : isSpace quote=false) (value : Str) :
    Trimmed (quote::(value++[quote])) := by
  refine ⟨fun c hc => ?_,fun c hc => ?_⟩
  · rwa [←Option.some.inj hc]
  · rw [←List.cons_append,List.getLast?_concat] at hc
    rwa [←Option.some.inj hc]

/-- Unquoting undoes the spelling, and stripping leaves it alone. -/
theorem unquote_write {value : Str} {spelling : Spelling} (h : spelling.Allows value) :
    Trimmed (spelling.write value) ∧ unquote (spelling.write value)=value := by
  cases spelling with
  | bare => exact ⟨h.1,by rw [Spelling.write,unquote,if_neg h.2.1,if_neg h.2.2]⟩
  | double => exact ⟨trimmed_quoted (by decide) value,unquote_quoted (Or.inl rfl) value⟩
  | single => exact ⟨trimmed_quoted (by decide) value,unquote_quoted (Or.inr rfl) value⟩

/-- An assignment is read as the name and the value it assigns. -/
theorem parseLine_assignment (a : Assignment) :
    parseLine a.text=some (a.name.text,a.value) := by
  have hvalue := unquote_write a.allowed
  rw [Assignment.text,parseLine_name a.beforeName.blank a.afterName.blank a.name.trimmed
    a.name.nonempty a.name.noEquals a.name.noComment,
    strip_append a.beforeValue.blank a.afterValue.blank,strip_of_trimmed hvalue.1,hvalue.2]

/-- A comment assigns nothing. -/
theorem parseLine_comment {before said : Str} (hb : Blank before) :
    parseLine (before++hash::said)=none := by
  have hs : strip (before++hash::said)=strip (hash::said) := by
    have hall := strip_append (m := hash::said) hb blank_nil
    rwa [List.append_nil] at hall
  have hskip : strip (before++hash::said)=[] ∨ (strip (before++hash::said)).head?=some hash ∨
      equals∉strip (before++hash::said) := by
    rw [hs]
    exact Or.inr (Or.inl (strip_head isSpace_hash said))
  simp only [parseLine,if_pos hskip]

/-- A blank line assigns nothing. -/
theorem parseLine_blank {s : Str} (h : Blank s) : parseLine s=none := by
  simp only [parseLine,if_pos (Or.inl (strip_eq_nil_iff.mpr h))]

/-- Every line is read as what it assigns. -/
theorem parseLine_text (line : Line) : parseLine line.text=line.assigned := by
  cases line with
  | assignment a => exact parseLine_assignment a
  | comment before said lineFree => exact parseLine_comment before.blank
  | blank padding => exact parseLine_blank padding.blank

/-- A character that is not whitespace ends no line. -/
theorem lineFree_cons {c : CodePoint} (hc : isSpace c=false) {s : Str} :
    LineFree (c::s) ↔ LineFree s := by
  have hone : LineFree [c] := lineFree_of_not_space (fun x hx => List.mem_singleton.mp hx ▸ hc)
  rw [←List.singleton_append,lineFree_append]
  exact and_iff_right hone

/-- A spelled value fits on the line when the value does. -/
theorem lineFree_write {value : Str} (h : LineFree value) (spelling : Spelling) :
    LineFree (spelling.write value) := by
  have hquoted : ∀ quote : CodePoint,isSpace quote=false → LineFree (quote::(value++[quote])) :=
    fun quote hq => (lineFree_cons hq).mpr
      (lineFree_append.mpr ⟨h,(lineFree_cons hq).mpr lineFree_nil⟩)
  cases spelling with
  | bare => exact h
  | double => exact hquoted doubleQuote (by decide)
  | single => exact hquoted singleQuote (by decide)

/-- No line of a file holds a boundary. -/
theorem lineFree_text (line : Line) : LineFree line.text := by
  cases line with
  | assignment a =>
    refine lineFree_append.mpr ⟨?_,(lineFree_cons isSpace_equals).mpr ?_⟩
    · exact lineFree_append.mpr
        ⟨lineFree_append.mpr ⟨a.beforeName.lineFree,a.name.lineFree⟩,a.afterName.lineFree⟩
    · exact lineFree_append.mpr
        ⟨lineFree_append.mpr ⟨a.beforeValue.lineFree,lineFree_write a.lineFree a.spelling⟩,
          a.afterValue.lineFree⟩
  | comment before said lineFree =>
    exact lineFree_append.mpr ⟨before.lineFree,(lineFree_cons isSpace_hash).mpr lineFree⟩
  | blank padding => exact padding.lineFree

/-- What the first element gives comes first. -/
theorem filterMap_cons_toList {α β : Type} (f : α→Option β) (a : α) (l : List α) :
    (a::l).filterMap f=(f a).toList++l.filterMap f := by
  rw [List.filterMap_eq_flatMap_toList,List.flatMap_cons,List.filterMap_eq_flatMap_toList]

/-- The empty line assigns nothing. -/
theorem filterMap_parseLine_nil (lines : List Str) :
    ([]::lines).filterMap parseLine=lines.filterMap parseLine :=
  List.filterMap_cons_none (parseLine_blank blank_nil)

/-- A line and its ending are read before what follows. An ending may run into
a line feed behind it, which then ends no empty line. -/
theorem filterMap_splitlines_ended {line : Str} (hl : LineFree line) (ending : Ending)
    (rest : Str) :
    (splitlines (line++(ending.text++rest))).filterMap parseLine=
      (parseLine line).toList++(splitlines rest).filterMap parseLine := by
  cases ending with
  | crlf =>
    rw [Ending.text,List.cons_append,List.singleton_append,
      splitlines_append_of hl (splitlines_crlf rest),filterMap_cons_toList]
  | boundary c ends =>
    by_cases h : c=cr ∧ rest.head?=some lf
    · obtain ⟨rfl,hhead⟩ := h
      obtain ⟨tail,rfl⟩ := List.head?_eq_some_iff.mp hhead
      rw [Ending.text,List.singleton_append,splitlines_append_of hl (splitlines_crlf tail),
        filterMap_cons_toList,splitlines_lf,filterMap_parseLine_nil]
    · rw [Ending.text,List.singleton_append,splitlines_append_of hl (splitlines_boundary ends h),
        filterMap_cons_toList]

/-- The last line is read like any other. -/
theorem filterMap_splitlines_last {line : Str} (hl : LineFree line) :
    (splitlines line).filterMap parseLine=(parseLine line).toList := by
  by_cases hne : line=[]
  · rw [hne,splitlines_nil,parseLine_blank blank_nil]
    rfl
  · rw [splitlines_last hl hne,filterMap_cons_toList,List.filterMap_nil,List.append_nil]

/-- The lines of the text assign what the lines of the file assign. -/
theorem filterMap_splitlines_text (file : File) :
    (splitlines file.text).filterMap parseLine=file.assigned := by
  obtain ⟨ended,last⟩ := file
  unfold File.text File.assigned
  dsimp only
  induction ended with
  | nil =>
    rw [List.flatMap_nil,List.nil_append,filterMap_splitlines_last (lineFree_text last),
      parseLine_text,List.map_nil,List.nil_append,filterMap_cons_toList,List.filterMap_nil,
      List.append_nil]
  | cons line ended ih =>
    rw [List.flatMap_cons,List.append_assoc,List.append_assoc,
      filterMap_splitlines_ended (lineFree_text line.1),ih,parseLine_text,List.map_cons,
      List.cons_append,filterMap_cons_toList]

/-- What is read of a text depends only on what its lines assign. -/
theorem parseEnvPairs_eq (text : Str) :
    parseEnvPairs text=((splitlines text).filterMap parseLine).foldl
      (fun pairs pair => pairs.insert pair.1 pair.2) ∅ := by
  rw [parseEnvPairs,List.foldl_filterMap]
  refine congrArg (fun f => (splitlines text).foldl f ∅) ?_
  funext pairs line
  unfold assign
  cases parseLine line <;> rfl

/-- The dotenv round trip. For every sequence of assignments, spelled bare or
in either quotes, with whitespace around name and value and with comments and
blank lines between them, what `parse_env_pairs` reads in the rendered text is
the map from each name to its last assigned value, however the assignments are
written. -/
theorem dotenv_round_trip (file : File) : RoundTrip file := by
  refine ⟨fun name value => ?_,fun other hsame => ?_⟩
  · rw [lookup_parseEnvPairs,lastAssigned,filterMap_splitlines_text]
    exact lookup_reverse_eq_some_iff
  · rw [parseEnvPairs_eq,parseEnvPairs_eq,filterMap_splitlines_text,filterMap_splitlines_text,
      hsame]

/-- A comment, whitespace, quotes and a carriage return, all of them taken off. -/
example : (parseEnvPairs (str "# A=1\r\n A = \"b=c\" \n")).lookup (str "A")=some (str "b=c") := by
  decide +kernel

end MlopsPlatform.PreflightDotenv
