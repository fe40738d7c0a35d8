import MlopsPlatform.ComposeDotenv
import MlopsPlatform.PreflightLifetime

/-!
# The doctor's values against compose's

The doctor's value is what the last line that assigns the name bears, bare or in
one pair of quotes, in Python's division of the file into lines. Where no line
holds another character that Python ends lines at, both readers go over the same
lines and take the same names from them. They then differ in one thing: compose
ends a value at a comment, the doctor reads the comment as part of it. A value
the doctor reads past its comment is strictly longer, so the joined pair a
volume was initialised with is never the one the doctor then compares with it.
-/

namespace MlopsPlatform.PreflightCompose

open TextCodec TextLines TextStrip TextSeparators PythonFiles DigestHex
open PreflightCredentials PreflightRuntime PreflightChecks PreflightPipeline
open PreflightVolumeReport PreflightLifetime ComposeDotenv

/-- The value compose interpolates: a nonblank export overrides the file. -/
def composeValue (name text : Str) (environ : Pairs) : Str :=
  let exported := valueIn environ name
  if strip exported≠[] then exported else fileValue name text

/-- The file decides the value, and a comment follows it there. -/
def Commented (name text : Str) (environ : Pairs) : Prop :=
  strip (valueIn environ name)=[] ∧ (deciding name text).any Assignment.commented=true

instance (name text : Str) (environ : Pairs) : Decidable (Commented name text environ) :=
  inferInstanceAs (Decidable (_∧_))

/-- The volume compose initialises from a file and an environment. -/
def composeVolume (sha256 : Digest) (text : Str) (environ : Pairs) (salt : Salt) : Volume :=
  ⟨composeValue (str "POSTGRES_USER") text environ,
    composeValue (str "POSTGRES_PASSWORD") text environ,
    composeValue (str "POSTGRES_DB") text environ,
    recordInitCredentials sha256 salt.text
      (textOf (composeValue (str "POSTGRES_USER") text environ))
      (textOf (composeValue (str "POSTGRES_PASSWORD") text environ))⟩

/-- The machine with that file, that environment and that volume. -/
def composeMachine (sha256 : Digest) (text : String) (environ : Environment) (salt : Salt) :
    Machine :=
  ⟨some text,environ,some (composeVolume sha256 (str text) environ.pairs salt)⟩

/-- The doctor reports the postgres volume FAIL. -/
def ReportsMismatch (sha256 : Digest) (m : Machine) (visit : Visit) : Prop :=
  Reports sha256 .fail m visit

/-- How a value stands behind the equals sign: between blanks, bare or in one
pair of quotes. -/
inductive Written (value : Str) : Str→Prop where
  /-- Without quotes of its own. -/
  | bare {before after : Str} (hb : Blank before) (ha : Blank after) (ht : Trimmed value)
      (hd : ¬Wrapped doubleQuote value) (hs : ¬Wrapped singleQuote value) :
      Written value (before++value++after)
  /-- In a pair of either kind. -/
  | quoted {quote : CodePoint} {before after : Str} (hq : quote=doubleQuote ∨ quote=singleQuote)
      (hb : Blank before) (ha : Blank after) :
      Written value (before++quote::(value++quote::after))

/-- The line gives the name this value, and holds nothing else. -/
def Bears (name value line : Str) : Prop :=
  ∃ before after raw,line=before++name++after++equals::raw ∧ Blank before ∧ Blank after ∧
    Trimmed name ∧ equals∉name ∧ name.head?≠some hash ∧ Written value raw

/-- Of the lines Python reads, the last that bears a value for the name bears
this one, or none does and the value is empty. -/
def LastBears (name value text : Str) : Prop :=
  (∃ before line after,splitlines text=before++line::after ∧ Bears name value line ∧
    ∀ later∈after,∀ other,¬Bears name other later) ∨
  value=[] ∧ ∀ line∈splitlines text,∀ other,¬Bears name other line

/-- The value is a nonblank export, or borne by the file. -/
def Borne (name text : Str) (environ : Pairs) (value : Str) : Prop :=
  if strip (valueIn environ name)=[] then LastBears name value text
  else valueIn environ name=value

/-- The role and the password that are borne join to the pair compose reads. -/
def PairBorne (text : Str) (environ : Pairs) : Prop :=
  ∃ user password,Borne (str "POSTGRES_USER") text environ user ∧
    Borne (str "POSTGRES_PASSWORD") text environ password ∧
    user++str ":"++password=composeValue (str "POSTGRES_USER") text environ++str ":"++
      composeValue (str "POSTGRES_PASSWORD") text environ

/-- What the doctor reads where compose reads an assignment: the same value,
or with a comment behind it a longer one. -/
structure Reads (a : Assignment) (value : Str) : Prop where
  /-- Without a comment the value is read. -/
  plain : a.commented=false → value=a.value
  /-- With a comment more is read. -/
  longer : a.commented=true → a.value.length<value.length

variable {sha256 : Digest}

/-- A value without quotes is kept as it is. -/
theorem unquote_bare {value : Str} (hd : value.head?≠some doubleQuote)
    (hs : value.head?≠some singleQuote) : unquote value=value := by
  rw [unquote,if_neg (fun h => hd h.2.1),if_neg (fun h => hs h.2.1)]

/-- What is unquoted is the value, or the value without its two ends. -/
theorem unquote_cases (value : Str) :
    unquote value=value ∨ unquote value=value.tail.dropLast := by
  unfold unquote
  split
  · exact Or.inr rfl
  · split
    · exact Or.inr rfl
    · exact Or.inl rfl

/-- More than a quote behind a quoted value stays in what is unquoted. -/
theorem unquote_longer (quote : CodePoint) (inner : Str) {more : Str} (hmore : more≠[]) :
    inner.length<(unquote (quote::(inner++quote::more))).length := by
  have hpos := List.length_pos_of_ne_nil hmore
  rcases unquote_cases (quote::(inner++quote::more)) with h|h
  · rw [h,List.length_cons,List.length_append,List.length_cons]
    omega
  · rw [h,List.tail_cons,List.dropLast_append_of_ne_nil (List.cons_ne_nil _ _),List.length_append,
      List.length_dropLast,List.length_cons]
    omega

/-- An unquoted value, as the doctor reads it. -/
theorem reads_unquoted {raw name : Str} {read : Str×Bool} (h : readUnquoted raw=some read)
    (hd : (strip raw).head?≠some doubleQuote) (hs : (strip raw).head?≠some singleQuote) :
    Reads ⟨name,read.1,read.2⟩ (unquote (strip raw)) := by
  rw [unquote_bare hd hs]
  unfold readUnquoted at h
  dsimp only at h
  split at h
  · cases h
  · rw [Option.some.injEq] at h
    rw [←h]
    cases hc : (cutComment false raw).2 with
    | false =>
      rw [cutComment_false hc]
      exact ⟨fun _ => rfl,fun ht => (by cases ht)⟩
    | true =>
      obtain ⟨rest,hraw⟩ := cutComment_true hc
      have hsplit : strip raw=(cutComment false raw).1.dropWhile isSpace++
          0x23::rest.rdropWhile isSpace := by
        rw [←strip_middle (by decide),←hraw]
      have hkept : strip (cutComment false raw).1<+:(cutComment false raw).1.dropWhile isSpace :=
        List.rdropWhile_prefix _ _
      refine ⟨fun ht => (by cases ht),fun _ => ?_⟩
      have hlength := hkept.length_le
      rw [hsplit,List.length_append,List.length_cons]
      dsimp only
      omega

/-- What surrounds a quoted value, as the doctor strips it. -/
theorem strip_quoted {quote : CodePoint} (hq : isSpace quote=false) {blank : Str}
    (hblank : Blank blank) (inner : Str) {rest : Str} (hrest : Blank rest) :
    strip (blank++quote::(inner++quote::rest))=quote::(inner++[quote]) := by
  have hdrop : blank.dropWhile isSpace=[] := List.dropWhile_eq_nil_iff.mpr hblank
  have hrdrop : rest.rdropWhile isSpace=[] := List.rdropWhile_eq_nil_iff.mpr hrest
  have hshape : blank++quote::(inner++quote::rest)=(blank++quote::inner)++quote::rest := by
    rw [List.append_assoc,List.cons_append]
  have hfirst : (blank++quote::inner).dropWhile isSpace=quote::inner := by
    rw [List.dropWhile_append,hdrop,List.isEmpty_nil,if_pos rfl,List.dropWhile_cons,hq]
    rfl
  rw [hshape,strip_middle hq,hrdrop,hfirst,List.cons_append]

/-- A quoted value with a comment behind it, as the doctor strips it. -/
theorem strip_quoted_comment {quote : CodePoint} (hq : isSpace quote=false) {blank : Str}
    (hblank : Blank blank) (inner middle comment : Str) :
    ∃ more,more≠[] ∧ strip (blank++quote::(inner++quote::(middle++0x23::comment)))=
      quote::(inner++quote::more) := by
  have hdrop : blank.dropWhile isSpace=[] := List.dropWhile_eq_nil_iff.mpr hblank
  have hshape : blank++quote::(inner++quote::(middle++0x23::comment))=
      (blank++quote::(inner++quote::middle))++0x23::comment := by
    simp only [List.append_assoc,List.cons_append]
  have hfirst : (blank++quote::(inner++quote::middle)).dropWhile isSpace=
      quote::(inner++quote::middle) := by
    rw [List.dropWhile_append,hdrop,List.isEmpty_nil,if_pos rfl,List.dropWhile_cons,hq]
    rfl
  refine ⟨middle++0x23::comment.rdropWhile isSpace,?_,?_⟩
  · exact fun h => List.cons_ne_nil _ _ (List.append_eq_nil_iff.mp h).2
  · rw [hshape,strip_middle (by decide),hfirst]
    simp only [List.append_assoc,List.cons_append]

/-- A quoted value, as the doctor reads it. -/
theorem reads_quoted {quote : CodePoint} (hq : quote=doubleQuote ∨ quote=singleQuote)
    {blank rest name : Str} (hblank : Blank blank) {read : Str×Bool}
    (h : readQuoted quote rest=some read) :
    Reads ⟨name,read.1,read.2⟩ (unquote (strip (blank++quote::rest))) := by
  have hspace : isSpace quote=false := by
    rcases hq with rfl|rfl
    · decide
    · decide
  unfold readQuoted at h
  dsimp only at h
  split at h
  · cases h
  · rename_i hclosed
    rw [not_or] at hclosed
    rcases exists_partition quote rest with habsent|⟨inner,tail,rfl,hinner⟩
    · rw [partition_absent habsent] at hclosed
      exact absurd rfl hclosed.1
    · rw [partition_first hinner] at h
      dsimp only at h
      split at h
      · rename_i htail
        have hread : read=(inner,false) := (Option.some.inj h).symm
        rw [hread,strip_quoted hspace hblank inner (List.dropWhile_eq_nil_iff.mp htail),
          unquote_quoted hq]
        exact ⟨fun _ => rfl,fun ht => (by cases ht)⟩
      · rename_i c after htail
        split at h
        · rename_i hhash
          have hread : read=(inner,true) := (Option.some.inj h).symm
          have hsplit : tail=tail.takeWhile isSpace++0x23::after := by
            rw [←hhash,←htail,List.takeWhile_append_dropWhile]
          obtain ⟨more,hmore,hstrip⟩ :=
            strip_quoted_comment hspace hblank inner (tail.takeWhile isSpace) after
          rw [←hsplit] at hstrip
          have hlonger := unquote_longer quote inner hmore
          rw [hread,hstrip]
          exact ⟨fun ht => (by cases ht),fun _ => hlonger⟩
        · cases h

/-- Every value, as the doctor reads it. -/
theorem reads_value {raw name : Str} {read : Str×Bool} (h : readValue raw=some read) :
    Reads ⟨name,read.1,read.2⟩ (unquote (strip raw)) := by
  have hhead := head?_strip raw
  unfold readValue at h
  split at h
  · rename_i hnil
    rw [hnil] at hhead
    refine reads_unquoted h ?_ ?_
    · rw [hhead]
      exact fun hn => (by cases hn)
    · rw [hhead]
      exact fun hn => (by cases hn)
  · rename_i c rest hcons
    rw [hcons,List.head?_cons] at hhead
    split at h
    · rename_i hq
      have hsplit : raw=raw.takeWhile isSpace++c::rest := by
        rw [←hcons,List.takeWhile_append_dropWhile]
      have hblank : Blank (raw.takeWhile isSpace) := fun x hx => List.mem_takeWhile_imp hx
      rw [hsplit]
      exact reads_quoted hq hblank h
    · rename_i hq
      rw [not_or] at hq
      refine reads_unquoted h ?_ ?_
      · rw [hhead]
        exact fun hn => hq.1 (Option.some.inj hn)
      · rw [hhead]
        exact fun hn => hq.2 (Option.some.inj hn)

/-- A line in the syntax assigns the same name in both readers, or nothing. -/
theorem reads_line {line : Str} (h : composeLine line≠none) :
    Option.Rel (fun a pair => pair.1=a.name ∧ Reads a pair.2) (assignmentOf line)
      (parseLine line) := by
  unfold assignmentOf composeLine at *
  unfold parseLine
  dsimp only at h ⊢
  split
  · rename_i hskip
    have hnone : strip line=[] ∨ (strip line).head?=some hash ∨ equals∉strip line := by
      rcases hskip with hb|hb
      · exact Or.inl hb
      · exact Or.inr (Or.inl hb)
    rw [if_pos hnone]
    exact .none
  · rename_i hkeep
    rw [if_neg hkeep] at h
    rw [not_or] at hkeep
    split at h
    · exact absurd rfl h
    · rename_i hname
      rw [if_neg hname]
      rw [not_or] at hname
      rcases exists_partition equals (strip line) with habsent|⟨left,raw,hline,hleft⟩
      · exact absurd (congrArg (fun parts => parts.2.1) (partition_absent habsent)) hname.1
      · have hparts : partition 0x3d (strip line)=(left,[equals],raw) := by
          rw [hline]
          exact partition_first hleft raw
        have hnot : ¬(strip line=[] ∨ (strip line).head?=some hash ∨ equals∉strip line) := by
          rw [not_or,not_or,not_not]
          refine ⟨hkeep.1,hkeep.2,?_⟩
          rw [hline]
          exact List.mem_append_right _ List.mem_cons_self
        have hparts' : partition equals (strip line)=(left,[equals],raw) := hparts
        rw [if_neg hnot,hparts,hparts']
        rw [hparts] at h
        cases hread : readValue raw with
        | none =>
          rw [hread] at h
          exact absurd rfl h
        | some read => exact .some ⟨rfl,reads_value hread⟩

/-- What one line gives a name. -/
theorem reads_name (name : Str) {line : Str} (h : composeLine line≠none) :
    Option.Rel Reads ((assignmentOf line).toList.find? (fun a => a.name=name))
      ((parseLine line).toList.lookup name) := by
  have hline := reads_line h
  generalize assignmentOf line=assignment at hline ⊢
  generalize parseLine line=parsed at hline ⊢
  cases hline with
  | none => exact .none
  | @some a pair hr =>
    obtain ⟨assigned,value⟩ := pair
    obtain ⟨hname,hreads⟩ := hr
    have hname' : assigned=a.name := hname
    rw [Option.toList_some,Option.toList_some,List.find?_singleton,List.lookup_singleton]
    by_cases hn : a.name=name
    · have hb : (name==assigned)=true := by
        rw [hname',hn]
        exact beq_self_eq_true name
      rw [if_pos (decide_eq_true hn),if_pos hb]
      exact .some hreads
    · have hb : ¬(name==assigned)=true := by
        rw [beq_iff_eq,hname']
        exact Ne.symm hn
      have hd : ¬decide (a.name=name)=true := by
        rwa [decide_eq_true_iff]
      rw [if_neg hd,if_neg hb]
      exact .none

/-- Related values with related defaults. -/
theorem rel_or {α β : Type} {r : α→β→Prop} {a a' : Option α} {b b' : Option β}
    (h : Option.Rel r a b) (h' : Option.Rel r a' b') : Option.Rel r (a.or a') (b.or b') := by
  cases h with
  | some hr => exact .some hr
  | none => exact h'

/-- Among lines in the syntax, the last assignment of a name decides in both. -/
theorem reads_lines (name : Str) {lines : List Str} (h : ∀ line∈lines,composeLine line≠none) :
    Option.Rel Reads (lastOf name lines) (lastAssigned name lines) := by
  induction lines with
  | nil => exact .none
  | cons line lines ih =>
    rw [List.forall_mem_cons] at h
    rw [lastOf_cons,lastAssigned_cons]
    exact rel_or (ih h.2) (reads_name name h.1)

/-- The doctor's dictionary against the assignment that decides. -/
theorem reads_text (name : Str) {text : Str} (h : InSyntax text) (hl : LinesAgree text) :
    Option.Rel Reads (deciding name text) ((parseEnvPairs text).lookup name) := by
  have hlines := reads_lines name h
  rw [lookup_parseEnvPairs,deciding]
  rcases composeLines_eq hl with heq|heq
  · rwa [heq]
  · have hempty : lastAssigned name (splitlines text++[[]])=lastAssigned name (splitlines text) := by
      have hparse : [[]].filterMap parseLine=[] := rfl
      rw [lastAssigned,List.filterMap_append,hparse,List.append_nil,lastAssigned]
    rw [←heq] at hlines ⊢
    rwa [hempty] at hlines

/-- An exported value is read by both. -/
theorem effectiveValue_export {name text : Str} {environ : Pairs}
    (h : strip (valueIn environ name)≠[]) :
    effectiveValue name (some text) environ=composeValue name text environ := by
  rw [effectiveValue_exported h,composeValue,if_pos h]

/-- What the file gives a name, in both readers. -/
theorem effectiveValue_reads {name text : Str} {environ : Pairs} (h : InSyntax text)
    (hl : LinesAgree text) (hblank : strip (valueIn environ name)=[]) :
    (deciding name text=none ∧ effectiveValue name (some text) environ=[] ∧
        composeValue name text environ=[]) ∨
      ∃ a,deciding name text=some a ∧ composeValue name text environ=a.value ∧
        Reads a (effectiveValue name (some text) environ) := by
  have hreads := reads_text name h hl
  rw [effectiveValue_file hblank,Option.getD_some,valueIn,composeValue,
    if_neg (not_not.mpr hblank),fileValue]
  generalize (parseEnvPairs text).lookup name=value at hreads ⊢
  generalize deciding name text=decides at hreads ⊢
  cases hreads with
  | none => exact Or.inl ⟨rfl,rfl,rfl⟩
  | @some a value hr => exact Or.inr ⟨a,rfl,rfl,hr⟩

/-- Without a comment the doctor's value is compose's. -/
theorem effectiveValue_plain {name text : Str} {environ : Pairs} (h : InSyntax text)
    (hl : LinesAgree text) (hplain : ¬Commented name text environ) :
    effectiveValue name (some text) environ=composeValue name text environ := by
  by_cases hblank : strip (valueIn environ name)=[]
  · rcases effectiveValue_reads h hl hblank with ⟨-,he,hc⟩|⟨a,hd,hc,hr⟩
    · rw [he,hc]
    · have hcomment : a.commented=false :=
        Bool.eq_false_of_not_eq_true (fun ht => hplain ⟨hblank,by rw [hd]; exact ht⟩)
      rw [hc,hr.plain hcomment]
  · exact effectiveValue_export hblank

/-- With a comment it is longer. -/
theorem effectiveValue_commented {name text : Str} {environ : Pairs} (h : InSyntax text)
    (hl : LinesAgree text) (hcomment : Commented name text environ) :
    (composeValue name text environ).length<(effectiveValue name (some text) environ).length := by
  obtain ⟨hblank,ht⟩ := hcomment
  rcases effectiveValue_reads h hl hblank with ⟨hnone,-,-⟩|⟨a,hd,hc,hr⟩
  · rw [hnone] at ht
    cases ht
  · rw [hd] at ht
    rw [hc]
    exact hr.longer ht

/-- It is never shorter. -/
theorem length_composeValue_le {text : Str} (h : InSyntax text) (hl : LinesAgree text) (name : Str)
    (environ : Pairs) :
    (composeValue name text environ).length≤(effectiveValue name (some text) environ).length := by
  by_cases hcomment : Commented name text environ
  · exact Nat.le_of_lt (effectiveValue_commented h hl hcomment)
  · rw [effectiveValue_plain h hl hcomment]

/-- Where no line holds another line end, the two readers agree on a value
exactly when no comment follows it. -/
theorem effectiveValue_eq_iff {name text : Str} {environ : Pairs} (h : InSyntax text)
    (hl : LinesAgree text) :
    effectiveValue name (some text) environ=composeValue name text environ ↔
      ¬Commented name text environ := by
  constructor
  · intro heq hcomment
    have hlonger := effectiveValue_commented h hl hcomment
    rw [heq] at hlonger
    omega
  · exact effectiveValue_plain h hl

/-- What is unquoted and stripped was written so. -/
theorem written_unquote (raw : Str) : Written (unquote (strip raw)) raw := by
  obtain ⟨before,after,hraw,hb,ha⟩ := strip_parts raw
  have hquoted : ∀ {quote : CodePoint},quote=doubleQuote ∨ quote=singleQuote →
      Wrapped quote (strip raw) → Written (strip raw).tail.dropLast raw := by
    intro quote hq hw
    obtain ⟨hlength,hhead,hlast⟩ := hw
    obtain ⟨init,hinit⟩ := List.getLast?_eq_some_iff.mp hlast
    cases init with
    | nil =>
      rw [hinit,List.nil_append,List.length_singleton] at hlength
      omega
    | cons c inner =>
      rw [hinit,List.cons_append,List.head?_cons,Option.some.injEq] at hhead
      rw [hhead,List.cons_append] at hinit
      have hwritten : raw=before++quote::(inner++quote::after) := by
        rw [hinit] at hraw
        rw [hraw]
        simp only [List.append_assoc,List.cons_append,List.nil_append]
      rw [hinit,List.tail_cons,List.dropLast_concat]
      exact hwritten ▸ .quoted hq hb ha
  unfold unquote
  split
  · rename_i hw
    exact hquoted (Or.inl rfl) hw
  · rename_i hd
    split
    · rename_i hw
      exact hquoted (Or.inr rfl) hw
    · rename_i hs
      have hbare := @Written.bare (strip raw) before after hb ha (strip_trimmed raw) hd hs
      rwa [←hraw] at hbare

/-- What is written is read back. -/
theorem unquote_written {value raw : Str} (h : Written value raw) :
    unquote (strip raw)=value := by
  cases h with
  | bare hb ha ht hd hs =>
    rw [strip_append hb ha,strip_of_trimmed ht,unquote,if_neg hd,if_neg hs]
  | @quoted quote before after hq hb ha =>
    have hspace : isSpace quote=false := by
      rcases hq with rfl|rfl <;> decide
    rw [strip_quoted hspace hb value ha,unquote_quoted hq]

/-- A line that starts with its equals sign assigns the empty name. -/
theorem parseLine_nameless {blank : Str} (hb : Blank blank) (raw : Str) :
    parseLine (blank++equals::raw)=some ([],unquote (strip raw)) := by
  have hdrop : blank.dropWhile isSpace=[] := List.dropWhile_eq_nil_iff.mpr hb
  have hstrip : strip (blank++equals::raw)=equals::raw.rdropWhile isSpace := by
    rw [strip_middle isSpace_equals,hdrop,List.nil_append]
  have hread : ¬(equals::raw.rdropWhile isSpace=[] ∨
      (equals::raw.rdropWhile isSpace).head?=some hash ∨
      equals∉equals::raw.rdropWhile isSpace) := by
    refine not_or.mpr ⟨List.cons_ne_nil _ _,not_or.mpr ⟨?_,?_⟩⟩
    · exact fun h => (by cases h)
    · exact not_not.mpr List.mem_cons_self
  have hparts := partition_first (c:=equals) (s:=[]) List.not_mem_nil (raw.rdropWhile isSpace)
  rw [List.nil_append] at hparts
  rw [parseLine,hstrip,if_neg hread]
  simp only [hparts,strip_rdropWhile]
  rfl

/-- A line assigns a value exactly when it bears it. -/
theorem parseLine_eq_some_iff {line name value : Str} :
    parseLine line=some (name,value) ↔ Bears name value line := by
  constructor
  · intro h
    obtain ⟨hhead,left,raw,hline,hleft,rfl,rfl⟩ := parseLine_cases h
    obtain ⟨before,after,hwhole,hb,ha⟩ := strip_parts line
    obtain ⟨inside,behind,hname,hi,hbehind⟩ := strip_parts left
    have hraw : strip (raw++after)=strip raw := by
      have hs := strip_append (m:=raw) blank_nil ha
      rwa [List.nil_append] at hs
    have hfirst : (strip left).head?≠some hash := by
      have htrimmed := strip_trimmed line
      cases left with
      | nil => exact fun hn => (by cases hn)
      | cons c rest =>
        rw [hline,List.cons_append] at htrimmed hhead
        have hc : isSpace c=false := htrimmed.1 c rfl
        rw [head?_strip,List.dropWhile_cons,hc]
        exact hhead
    refine ⟨before++inside,behind,raw++after,?_,?_,hbehind,strip_trimmed left,?_,hfirst,?_⟩
    · calc line=before++(left++equals::raw)++after := by rw [←hline]; exact hwhole
        _ = before++((inside++strip left++behind)++equals::raw)++after := by rw [←hname]
        _ = before++inside++strip left++behind++equals::(raw++after) := by
          simp only [List.append_assoc,List.cons_append]
    · exact List.forall_mem_append.mpr ⟨hb,hi⟩
    · exact fun hm => hleft (mem_of_mem_strip hm)
    · have hwritten := written_unquote (raw++after)
      rwa [hraw] at hwritten
  · rintro ⟨before,after,raw,rfl,hb,ha,ht,he,hh,hwritten⟩
    rw [←unquote_written hwritten]
    by_cases hne : name=[]
    · rw [hne,List.append_nil]
      exact parseLine_nameless (List.forall_mem_append.mpr ⟨hb,ha⟩) raw
    · exact parseLine_name hb ha ht hne he hh raw

/-- No value is assigned last when no line assigns one. -/
theorem lastAssigned_eq_none_iff {name : Str} {lines : List Str} :
    lastAssigned name lines=none ↔ ∀ line∈lines,∀ other,parseLine line≠some (name,other) := by
  constructor
  · intro hnone line hline other hparse
    obtain ⟨before,after,rfl⟩ := List.append_of_mem hline
    unfold lastAssigned at hnone
    rw [List.filterMap_append,List.filterMap_cons_some hparse,List.lookup_eq_none_iff] at hnone
    have hne := hnone (name,other) (by simp)
    exact bne_iff_ne.mp hne rfl
  · intro hno
    cases hlast : lastAssigned name lines with
    | none => rfl
    | some value =>
      obtain ⟨line,hline,hparse⟩ := exists_line_of_lastAssigned hlast
      exact absurd hparse (hno line hline value)

/-- The last value assigned to a name is the last one borne. -/
theorem lastBears_iff {name value text : Str} :
    (lastAssigned name (splitlines text)).getD []=value ↔ LastBears name value text := by
  have hsome := @lastAssigned_eq_some_iff name value (splitlines text)
  have hnone := @lastAssigned_eq_none_iff name (splitlines text)
  simp only [parseLine_eq_some_iff,ne_eq] at hsome hnone
  rw [LastBears,←hsome,←hnone]
  cases lastAssigned name (splitlines text) with
  | none => simp [eq_comm]
  | some last => simp

/-- The doctor's value is the one that is borne. -/
theorem effectiveValue_eq_iff_borne {name text value : Str} {environ : Pairs} :
    effectiveValue name (some text) environ=value ↔ Borne name text environ value := by
  unfold Borne
  split
  · rename_i hblank
    rw [effectiveValue_file hblank,Option.getD_some,valueIn,lookup_parseEnvPairs]
    exact lastBears_iff
  · rename_i hexport
    rw [effectiveValue_exported hexport]

/-- A value that holds another line end than compose's is never read from a file. -/
theorem lineFree_of_borne {name text value : Str} {environ : Pairs}
    (hblank : strip (valueIn environ name)=[]) (h : Borne name text environ value) :
    LineFree value := by
  rw [Borne,if_pos hblank] at h
  rcases h with ⟨before,line,after,hlines,hbears,-⟩|⟨rfl,-⟩
  · have hline : line∈splitlines text := by
      rw [hlines]
      exact List.mem_append_right _ List.mem_cons_self
    exact fun c hc =>
      (mem_splitlines hline).1 c (mem_of_parseLine (parseLine_eq_some_iff.mpr hbears) hc)
  · exact lineFree_nil

/-- Compose's values are texts, as the doctor's are. -/
theorem composeValue_scalar (text : String) (environ : Environment) (name : Str) :
    (composeValue name (str text) environ.pairs).all isScalar=true := by
  unfold composeValue
  dsimp only
  split
  · rename_i hexport
    have hall := value_scalar ⟨some text,environ,none⟩ name
    have heff : (effectiveValue name (some (str text)) environ.pairs).all isScalar=true := hall
    rwa [effectiveValue_exported hexport] at heff
  · exact List.all_eq_true.mpr
      (fun c hc => List.all_eq_true.mp (str_scalar text) c (mem_of_mem_fileValue hc))

/-- The record of the volume compose initialises is of compose's pair. -/
theorem composeVolume_recorded (sha256 : Digest) (text : String) (environ : Environment)
    (salt : Salt) : Recorded sha256 (composeVolume sha256 (str text) environ.pairs salt) :=
  script_recorded (composeValue_scalar text environ _) (composeValue_scalar text environ _) _ salt

/-- On a volume with its own record, a reported mismatch means that another
joined pair is in force. -/
theorem join_of_mismatch {m : Machine} {volume : Volume} (hv : m.volume=some volume)
    (hrec : Recorded sha256 volume) {visit : Visit} (h : ReportsMismatch sha256 m visit) :
    m.user++str ":"++m.password≠volume.user++str ":"++volume.password := by
  intro hjoin
  obtain ⟨salt,digest,result,hf,hc,hfail⟩ := verdict_on_record hv hrec (by decide) h
  rw [←fingerprint_of_join hjoin] at hf
  obtain ⟨detail,hmatch⟩ := @checkPostgresVolume_match sha256
    ⟨.fingerprinted,salt,digest,[]⟩ m.user m.password rfl hf
  rw [hmatch,Except.ok.injEq] at hc
  rw [←hc] at hfail
  cases hfail

/-- The converse, for a quiet visit. -/
theorem mismatch_of_join {m : Machine} {volume : Volume} (hv : m.volume=some volume)
    (hrec : Recorded sha256 volume)
    (hjoin : m.user++str ":"++m.password≠volume.user++str ":"++volume.password) :
    ReportsMismatch sha256 m quietVisit := by
  obtain ⟨salt,digest,hf,hs,hreports⟩ := quiet_verdict hv hrec
  obtain ⟨bytes,-,hf'⟩ := fingerprint_eq_ok sha256 hs (value_scalar m (str "POSTGRES_USER"))
    (value_scalar m (str "POSTGRES_PASSWORD"))
  have hne := fingerprint_ne hf hjoin hf'
  obtain ⟨detail,hc⟩ := @checkPostgresVolume_mismatch sha256
    ⟨.fingerprinted,salt,digest,[]⟩ m.user m.password _ rfl hf' hne
  exact hreports _ rfl hc

/-- The pair that is borne joins to compose's exactly when the doctor's does. -/
theorem pairBorne_iff_join (text : String) (environ : Environment) (salt : Salt) :
    PairBorne (str text) environ.pairs ↔
      (composeMachine sha256 text environ salt).user++str ":"++
          (composeMachine sha256 text environ salt).password=
        (composeVolume sha256 (str text) environ.pairs salt).user++str ":"++
          (composeVolume sha256 (str text) environ.pairs salt).password := by
  unfold PairBorne
  simp only [←effectiveValue_eq_iff_borne,exists_and_left,exists_eq_left']
  exact Iff.rfl

/-- A pair that does not join to compose's is reported on a quiet visit. -/
theorem mismatch_of_unpaired {text : String} {environ : Environment} {salt : Salt}
    (h : ¬PairBorne (str text) environ.pairs) :
    ReportsMismatch sha256 (composeMachine sha256 text environ salt) quietVisit :=
  mismatch_of_join rfl (composeVolume_recorded sha256 text environ salt)
    (mt (pairBorne_iff_join text environ salt).mpr h)

/-- The doctor never reports a mismatch on the volume compose initialised exactly
when the pair it reads joins to compose's. -/
theorem never_mismatch_iff (text : String) (environ : Environment) :
    (∀ (sha256 : Digest) (salt : Salt) (visit : Visit),
      ¬ReportsMismatch sha256 (composeMachine sha256 text environ salt) visit) ↔
      PairBorne (str text) environ.pairs := by
  constructor
  · intro hnever
    by_contra hpair
    exact hnever sampleDigest suiteSalt quietVisit (mismatch_of_unpaired hpair)
  · intro hpair sha256 salt visit hmismatch
    exact join_of_mismatch rfl (composeVolume_recorded sha256 text environ salt) hmismatch
      ((pairBorne_iff_join text environ salt).mp hpair)

/-- Where no line holds another line end, the doctor's pair joins to compose's
exactly when neither value is followed by a comment. -/
theorem pairBorne_iff {text : Str} (h : InSyntax text) (hl : LinesAgree text) (environ : Pairs) :
    PairBorne text environ ↔ ¬Commented (str "POSTGRES_USER") text environ ∧
      ¬Commented (str "POSTGRES_PASSWORD") text environ := by
  have huser := length_composeValue_le h hl (str "POSTGRES_USER") environ
  have hpassword := length_composeValue_le h hl (str "POSTGRES_PASSWORD") environ
  unfold PairBorne
  simp only [←effectiveValue_eq_iff_borne,exists_and_left,exists_eq_left']
  constructor
  · intro hjoin
    have hlength := congrArg List.length hjoin
    simp only [List.length_append] at hlength
    constructor
    · intro hc
      have hlonger := effectiveValue_commented h hl hc
      omega
    · intro hc
      have hlonger := effectiveValue_commented h hl hc
      omega
  · rintro ⟨hu,hp⟩
    rw [effectiveValue_plain h hl hu,effectiveValue_plain h hl hp]

/-- A file whose values have comments only where a doctor drops the line. -/
def plainText : String := "# the role\nPOSTGRES_USER='platform'\nPOSTGRES_PASSWORD=1f#4c\n"

/-- A file with a comment after its role. -/
def commentedText : String := "POSTGRES_USER=platform # the role\nPOSTGRES_PASSWORD=1f4c9b2e7a\n"

end MlopsPlatform.PreflightCompose
