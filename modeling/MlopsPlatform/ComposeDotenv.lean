import MlopsPlatform.TextStrip
import MlopsPlatform.TextSeparators

/-!
# Docker Compose's documented `.env` syntax

The reader compose documents, as an abstract counterpart of the doctor's own.
A line is blank, a comment or an assignment. In an unquoted value a number
sign after whitespace starts a comment; a quoted value ends at its closing
quote, which only whitespace and a comment may follow. Texts with escapes,
interpolation or values over several lines are outside this reader, and so are
lines of another form.
-/

namespace MlopsPlatform.ComposeDotenv

open TextCodec TextLines TextStrip TextSeparators

/-- What one line assigns. -/
structure Assignment where
  /-- The variable. -/
  name : Str
  /-- Its value, without quotes and comment. -/
  value : Str
  /-- Whether a comment follows the value. -/
  commented : Bool
deriving DecidableEq

/-- The line without the carriage return of a CRLF. -/
def chomp (line : Str) : Str := if line.getLast?=some cr then line.dropLast else line

/-- The lines of a text: each ends at a line feed, or at a CRLF. -/
def composeLines (text : Str) : List Str := (split [lf] text).map chomp

/-- Cut an unquoted value at the first number sign after whitespace. The flag
says whether whitespace came last, the result whether there was a comment. -/
def cutComment : Bool→Str→Str×Bool
  | _,[] => ([],false)
  | blank,c::rest =>
    if c=0x23 ∧ blank=true then ([],true)
    else (c::(cutComment (isSpace c) rest).1,(cutComment (isSpace c) rest).2)

/-- An unquoted value and whether a comment follows; `$` would interpolate. -/
def readUnquoted (raw : Str) : Option (Str×Bool) :=
  let value := strip (cutComment false raw).1
  if 0x24∈value then none else some (value,(cutComment false raw).2)

/-- A value after its opening quote: without a closing quote it goes over
several lines, a backslash escapes, and `$` interpolates in double quotes. -/
def readQuoted (quote : CodePoint) (rest : Str) : Option (Str×Bool) :=
  let parts := partition quote rest
  if parts.2.1=[] ∨ 0x5c∈parts.1 ∨ (quote=0x22 ∧ 0x24∈parts.1) then none
  else
    match parts.2.2.dropWhile isSpace with
    | [] => some (parts.1,false)
    | c::_ => if c=0x23 then some (parts.1,true) else none

/-- The value after the equals sign. -/
def readValue (raw : Str) : Option (Str×Bool) :=
  match raw.dropWhile isSpace with
  | [] => readUnquoted raw
  | c::rest => if c=0x22 ∨ c=0x27 then readQuoted c rest else readUnquoted raw

/-- A variable name: not empty, without whitespace and without a colon. -/
def ValidName (name : Str) : Prop := name≠[] ∧ ∀ c∈name,isSpace c=false ∧ c≠0x3a

instance (name : Str) : Decidable (ValidName name) :=
  have : Decidable (∀ c∈name,isSpace c=false ∧ c≠0x3a) := List.decidableBAll _ name
  inferInstanceAs (Decidable (_∧_))

/-- One line: outside the syntax, or nothing assigned, or an assignment. -/
def composeLine (line : Str) : Option (Option Assignment) :=
  let stripped := strip line
  if stripped=[] ∨ stripped.head?=some 0x23 then some none
  else
    let parts := partition 0x3d stripped
    if parts.2.1=[] ∨ ¬ValidName (strip parts.1) then none
    else
      (readValue parts.2.2).map (fun read => some ⟨strip parts.1,read.1,read.2⟩)

/-- Every line of the text is in the syntax. -/
def InSyntax (text : Str) : Prop := ∀ line∈composeLines text,composeLine line≠none

/-- No line of the text holds another character that Python ends lines at. -/
def LinesAgree (text : Str) : Prop := ∀ line∈composeLines text,LineFree line

instance (line : Str) : Decidable (LineFree line) := List.decidableBAll _ line

instance (text : Str) : Decidable (InSyntax text) := List.decidableBAll _ (composeLines text)

instance (text : Str) : Decidable (LinesAgree text) := List.decidableBAll _ (composeLines text)

/-- The assignment of a line, if it has one. -/
def assignmentOf (line : Str) : Option Assignment := (composeLine line).join

/-- The last assignment of a name among lines. -/
def lastOf (name : Str) (lines : List Str) : Option Assignment :=
  (lines.filterMap assignmentOf).reverse.find? (fun a => a.name=name)

/-- The assignment of a name that decides its value. -/
def deciding (name text : Str) : Option Assignment := lastOf name (composeLines text)

/-- The value the file gives a name, empty if it gives none. -/
def fileValue (name text : Str) : Str := ((deciding name text).map Assignment.value).getD []

/-- Later lines decide before earlier ones. -/
theorem lastOf_cons (name line : Str) (lines : List Str) :
    lastOf name (line::lines)=
      (lastOf name lines).or ((assignmentOf line).toList.find? (fun a => a.name=name)) := by
  unfold lastOf
  cases h : assignmentOf line with
  | none => rw [List.filterMap_cons_none h,Option.toList_none,List.find?_nil,Option.or_none]
  | some a =>
    rw [List.filterMap_cons_some h,List.reverse_cons,List.find?_append,Option.toList_some]

/-- A line of the text holds characters of the text only. -/
theorem mem_of_mem_composeLines {text line : Str} (h : line∈composeLines text) {c : CodePoint}
    (hc : c∈line) : c∈text := by
  obtain ⟨whole,hwhole,rfl⟩ := List.mem_map.mp h
  have hmem : c∈whole := by
    unfold chomp at hc
    split at hc
    · exact List.mem_of_mem_dropLast hc
    · exact hc
  induction hn : text.length using Nat.strong_induction_on generalizing text with
  | _ n ih =>
    rcases exists_partition lf text with hu|⟨u,rest,rfl,hu⟩
    · rw [split_single_absent hu,List.mem_singleton] at hwhole
      exact hwhole ▸ hmem
    · rw [split_single_first hu,List.mem_cons] at hwhole
      rcases hwhole with rfl|hrest
      · exact List.mem_append_left _ hmem
      · have hlength : rest.length<n := by
          rw [←hn,List.length_append,List.length_cons]
          omega
        have hlater := ih rest.length hlength hrest (List.mem_map_of_mem hrest) rfl
        exact List.mem_append_right _ (List.mem_cons_of_mem _ hlater)

/-- What is kept before a comment stood there. -/
theorem mem_of_mem_cutComment {blank : Bool} {raw : Str} {c : CodePoint}
    (h : c∈(cutComment blank raw).1) : c∈raw := by
  induction raw generalizing blank with
  | nil => cases h
  | cons d rest ih =>
    unfold cutComment at h
    split at h
    · cases h
    · rcases List.mem_cons.mp h with rfl|hrest
      · exact List.mem_cons_self
      · exact List.mem_cons_of_mem _ (ih hrest)

/-- A value holds characters of what stands behind the equals sign only. -/
theorem mem_of_readValue {raw : Str} {read : Str×Bool} (h : readValue raw=some read)
    {c : CodePoint} (hc : c∈read.1) : c∈raw := by
  have hunquoted : readUnquoted raw=some read → c∈raw := by
    intro hread
    unfold readUnquoted at hread
    dsimp only at hread
    split at hread
    · cases hread
    · cases hread
      exact mem_of_mem_cutComment (mem_of_mem_strip hc)
  unfold readValue at h
  split at h
  · exact hunquoted h
  · rename_i quote rest hrest
    split at h
    · have hmem : ∀ d∈rest,d∈raw := by
        intro d hd
        refine (List.dropWhile_suffix isSpace).subset ?_
        rw [hrest]
        exact List.mem_cons_of_mem _ hd
      have hpart : ∀ d∈(partition quote rest).1,d∈rest := by
        intro d hd
        rcases exists_partition quote rest with habsent|⟨u,v,rfl,hu⟩
        · rwa [partition_absent habsent] at hd
        · rw [partition_first hu] at hd
          exact List.mem_append_left _ hd
      unfold readQuoted at h
      dsimp only at h
      split at h
      · cases h
      · split at h
        · cases h
          exact hmem c (hpart c hc)
        · split at h
          · cases h
            exact hmem c (hpart c hc)
          · cases h
    · exact hunquoted h

/-- A value holds characters of its line only. -/
theorem mem_of_assignmentOf {line : Str} {a : Assignment} (h : assignmentOf line=some a)
    {c : CodePoint} (hc : c∈a.value) : c∈line := by
  unfold assignmentOf composeLine at h
  dsimp only at h
  split at h
  · cases h
  · split at h
    · cases h
    · rename_i hkeep
      rw [not_or] at hkeep
      rcases exists_partition 0x3d (strip line) with habsent|⟨u,v,hline,hu⟩
      · exact absurd (congrArg (fun parts => parts.2.1) (partition_absent habsent)) hkeep.1
      · have hparts : partition 0x3d (strip line)=(u,[0x3d],v) := by
          rw [hline]
          exact partition_first hu v
        rw [hparts] at h
        cases hread : readValue v with
        | none =>
          rw [hread] at h
          cases h
        | some read =>
          rw [hread] at h
          cases h
          refine mem_of_mem_strip ?_
          rw [hline]
          exact List.mem_append_right _ (List.mem_cons_of_mem _ (mem_of_readValue hread hc))

/-- The value the file gives a name holds characters of the file only. -/
theorem mem_of_mem_fileValue {name text : Str} {c : CodePoint} (hc : c∈fileValue name text) :
    c∈text := by
  unfold fileValue at hc
  cases hdeciding : deciding name text with
  | none =>
    rw [hdeciding] at hc
    cases hc
  | some a =>
    rw [hdeciding] at hc
    have hmem := List.mem_reverse.mp (List.mem_of_find?_eq_some hdeciding)
    obtain ⟨line,hline,ha⟩ := List.mem_filterMap.mp hmem
    exact mem_of_mem_composeLines hline (mem_of_assignmentOf ha hc)

/-- Without a comment nothing is cut. -/
theorem cutComment_false {blank : Bool} {raw : Str} (h : (cutComment blank raw).2=false) :
    (cutComment blank raw).1=raw := by
  induction raw generalizing blank with
  | nil => rfl
  | cons c rest ih =>
    unfold cutComment at h ⊢
    split at h
    · cases h
    · rename_i hc
      rw [if_neg hc]
      exact congrArg _ (ih h)

/-- A comment starts at a number sign behind what is kept. -/
theorem cutComment_true {blank : Bool} {raw : Str} (h : (cutComment blank raw).2=true) :
    ∃ rest,raw=(cutComment blank raw).1++0x23::rest := by
  induction raw generalizing blank with
  | nil => cases h
  | cons c rest ih =>
    unfold cutComment at h ⊢
    split
    · rename_i hc
      exact ⟨rest,by rw [hc.1,List.nil_append]⟩
    · rename_i hc
      rw [if_neg hc] at h
      obtain ⟨tail,ht⟩ := ih h
      refine ⟨tail,?_⟩
      rw [List.cons_append]
      exact congrArg _ ht

/-- A text without a line feed is one line. -/
theorem composeLines_last {u : Str} (hu : lf∉u) : composeLines u=[chomp u] := by
  rw [composeLines,split_single_absent hu,List.map_singleton]

/-- A line feed ends a line. -/
theorem composeLines_line {u : Str} (hu : lf∉u) (rest : Str) :
    composeLines (u++lf::rest)=chomp u::composeLines rest := by
  rw [composeLines,split_single_first hu,List.map_cons,composeLines]

/-- The last line, as Python reads it. -/
theorem splitlines_chomp_last {u : Str} (hu : lf∉u) (hfree : LineFree (chomp u)) :
    splitlines u=[chomp u] ∨ splitlines u++[[]]=[chomp u] := by
  unfold chomp at hfree ⊢
  split
  · rename_i hcr
    rw [if_pos hcr] at hfree
    obtain ⟨q,rfl⟩ := List.getLast?_eq_some_iff.mp hcr
    rw [List.dropLast_concat] at hfree ⊢
    exact Or.inl (splitlines_append_of hfree rfl)
  · rename_i hcr
    rw [if_neg hcr] at hfree
    by_cases hne : u=[]
    · rw [hne]
      exact Or.inr rfl
    · exact Or.inl (splitlines_last hfree hne)

/-- A line that ends at a line feed or a CRLF, as Python reads it. -/
theorem splitlines_chomp_line {u : Str} (hfree : LineFree (chomp u)) (rest : Str) :
    splitlines (u++lf::rest)=chomp u::splitlines rest := by
  unfold chomp at hfree ⊢
  split
  · rename_i hcr
    rw [if_pos hcr] at hfree
    obtain ⟨q,rfl⟩ := List.getLast?_eq_some_iff.mp hcr
    rw [List.dropLast_concat] at hfree ⊢
    rw [List.append_assoc,List.singleton_append]
    exact splitlines_append_of hfree (splitlines_crlf rest)
  · rename_i hcr
    rw [if_neg hcr] at hfree
    exact splitlines_line hfree rest

/-- Compose and Python see the same lines, but for an empty one at the end. -/
theorem composeLines_eq {text : Str} (h : LinesAgree text) :
    splitlines text=composeLines text ∨ splitlines text++[[]]=composeLines text := by
  unfold LinesAgree at h
  induction hn : text.length using Nat.strong_induction_on generalizing text with
  | _ n ih =>
    rcases exists_partition lf text with hu|⟨u,rest,rfl,hu⟩
    · rw [composeLines_last hu] at h ⊢
      exact splitlines_chomp_last hu (h _ (List.mem_singleton_self _))
    · rw [composeLines_line hu] at h ⊢
      have hlength : rest.length<n := by
        rw [←hn,List.length_append,List.length_cons]
        omega
      rw [splitlines_chomp_line (h _ List.mem_cons_self)]
      rcases ih rest.length hlength (fun l hl => h l (List.mem_cons_of_mem _ hl)) rfl with hr|hr
      · exact Or.inl (congrArg _ hr)
      · exact Or.inr (congrArg _ hr)

end MlopsPlatform.ComposeDotenv
