import MlopsPlatform.TextLines
import Mathlib.Data.List.DropRight

/-!
# Words of an unquoted command substitution

A POSIX shell removes the newlines at the end of a command's output, splits
the rest at blanks, tabs and newlines, and replaces each field that is a
pattern by the pathnames it matches, if there are any. What a directory matches
is a parameter. Of printed lines, the words are those of each line in turn.
-/

namespace MlopsPlatform.ShellWords

open TextCodec TextLines

/-- The characters of the default `IFS`. -/
def isSeparator (c : CodePoint) : Bool := c=0x20 || c=0x09 || c=lf

/-- Field splitting: no field is empty. -/
def fields (text : Str) : List Str := (text.splitOnP isSeparator).filter (fun field => field≠[])

/-- The characters that make a field a pattern. -/
def isSpecial (c : CodePoint) : Bool := c=0x2a || c=0x3f || c=0x5b

/-- Pathname expansion: a pattern that matches nothing is left as it is. -/
def expand (matching : Str→List Str) (field : Str) : List Str :=
  if field.any isSpecial=true ∧ matching field≠[] then matching field else [field]

/-- Whether a character is a newline. -/
def isNewline (c : CodePoint) : Bool := c=lf

/-- What a command substitution yields: the output without its last newlines. -/
def substituted (output : Str) : Str := output.rdropWhile isNewline

/-- The words of `for word in $(command)`. -/
def words (matching : Str→List Str) (output : Str) : List Str :=
  (fields (substituted output)).flatMap (expand matching)

/-- A lower-case letter, a digit, a dash or a dot: kind's names have no others, and neither
a shell nor make looks at them. -/
def isNameChar (c : CodePoint) : Bool :=
  (0x61 ≤ c.val && c.val≤0x7a) || (0x30 ≤ c.val && c.val≤0x39) || c.val=0x2d || c.val=0x2e

/-- Lines, each printed with a newline. -/
def printed (lines : List Str) : Str := lines.flatMap (fun line => line++[lf])

/-- Splitting and expanding each line gives the lines back. -/
def Kept (matching : Str→List Str) (lines : List Str) : Prop :=
  lines.flatMap (fun line => (fields line).flatMap (expand matching))=lines

theorem isSeparator_lf : isSeparator lf=true := by decide

theorem fields_nil : fields []=[] := rfl

/-- A separator ends a field. -/
theorem fields_append {c : CodePoint} (hc : isSeparator c=true) (u v : Str) :
    fields (u++c::v)=fields u++fields v := by
  rw [fields,List.splitOnP_append_cons u v hc,List.filter_append,fields,fields]

/-- A text without separators is one field, unless it is empty. -/
theorem fields_single {text : Str} (hne : text≠[]) (h : ∀ c∈text,isSeparator c=false) :
    fields text=[text] := by
  rw [fields,List.splitOnP_eq_singleton h]
  simp [hne]

/-- A command substitution keeps a line that another command prints. -/
theorem substituted_line {line : Str} (h : lf∉line) : substituted (line++[lf])=line := by
  have hnewline : isNewline lf=true := by decide
  rw [substituted,List.rdropWhile_concat_pos _ _ _ hnewline,List.rdropWhile_eq_self_iff]
  intro hne hlast
  have hm := List.getLast_mem hne
  rw [of_decide_eq_true hlast] at hm
  exact h hm

/-- The newlines at the end hold no field. -/
theorem fields_substituted (output : Str) : fields (substituted output)=fields output := by
  unfold substituted
  induction output using List.reverseRecOn with
  | nil => rfl
  | append_singleton output c ih =>
    by_cases hc : c=lf
    · have hd : isNewline c=true := decide_eq_true hc
      rw [List.rdropWhile_concat_pos _ _ _ hd,ih,hc,fields_append isSeparator_lf,fields_nil,
        List.append_nil]
    · have hd : ¬isNewline c=true := fun h => hc (of_decide_eq_true h)
      rw [List.rdropWhile_concat_neg _ _ _ hd]

/-- The fields of printed lines are those of each line. -/
theorem fields_printed (lines : List Str) : fields (printed lines)=lines.flatMap fields := by
  induction lines with
  | nil => rfl
  | cons line lines ih =>
    have hprinted : printed (line::lines)=line++lf::printed lines := by
      rw [printed,List.flatMap_cons,List.append_assoc,List.singleton_append,printed]
    rw [hprinted,fields_append isSeparator_lf,ih,List.flatMap_cons]

/-- The words of printed lines are those of each line. -/
theorem words_printed (matching : Str→List Str) (lines : List Str) :
    words matching (printed lines)=
      lines.flatMap (fun line => (fields line).flatMap (expand matching)) := by
  rw [words,fields_substituted,fields_printed,List.flatMap_assoc]

/-- Lines that are kept are the words of their print. -/
theorem words_eq_iff {matching : Str→List Str} {lines : List Str} :
    words matching (printed lines)=lines ↔ Kept matching lines := by
  rw [words_printed,Kept]

/-- Lines without separators and patterns are kept in every directory. -/
theorem kept_of_plain (matching : Str→List Str) {lines : List Str}
    (h : ∀ line∈lines,line≠[] ∧ ∀ c∈line,isSeparator c=false ∧ isSpecial c=false) :
    Kept matching lines := by
  unfold Kept
  induction lines with
  | nil => rfl
  | cons line lines ih =>
    rw [List.forall_mem_cons] at h
    obtain ⟨⟨hne,hline⟩,hrest⟩ := h
    have hfields : fields line=[line] := fields_single hne (fun c hc => (hline c hc).1)
    have hspecial : line.any isSpecial=false := by
      rw [List.any_eq_false]
      intro c hc
      rw [(hline c hc).2]
      exact Bool.false_ne_true
    have hexpand : expand matching line=[line] := by
      rw [expand,hspecial,if_neg (fun hs => Bool.false_ne_true hs.1)]
    rw [List.flatMap_cons,hfields,List.flatMap_singleton,hexpand,ih hrest,List.singleton_append]

end MlopsPlatform.ShellWords
