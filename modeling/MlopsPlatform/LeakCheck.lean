import MlopsPlatform.ChartSecret
import MlopsPlatform.JsonMarkers
import MlopsPlatform.TextAlone

/-!
# Looking for the values of `.env` in what was rendered

Two tests take the values of `.env` and look for each of them in the rendered
manifest, as a whole token and from eight characters on. They read the file in
their own way: every assignment of it, without the quotes and blanks at the ends.
So they find the value of every assignment the doctor or `kubectl` reads, in
whichever spelling it was rendered. In the rendered JSON, what stands in a string
behind a printable character is found too; behind an escape it need not be.
-/

namespace MlopsPlatform.LeakCheck

open TextCodec TextLines TextStrip TextSorted TextSeparators TextAlone
open JsonStrings JsonText JsonRoundTrip JsonMarkers PythonJson
open ComposeDotenv PreflightCredentials ChartSecret

/-- `[A-Za-z0-9_-]` -/
def isName (c : CodePoint) : Bool :=
  (0x30 ≤ c.val && c.val≤0x39) || (0x41 ≤ c.val && c.val≤0x5a) || c=0x5f ||
    (0x61 ≤ c.val && c.val≤0x7a) || c=0x2d

/-- The characters of `.strip("'\"")`. -/
def isQuote (c : CodePoint) : Bool := c=doubleQuote || c=singleQuote

/-- `"=" in line and not line.lstrip().startswith("#")` -/
def assigns (line : Str) : Bool :=
  decide (equals∈line) && decide ((line.dropWhile isSpace).head?≠some hash)

/-- `line.partition("=")[2].strip().strip("'\"")` -/
def searched (line : Str) : Str := stripBy isQuote (strip (partition equals line).2.2)

/-- The values the tests take from the text of `.env`. -/
def envValues (text : Str) : Finset Str :=
  (((splitlines text).filter assigns).map searched).toFinset

/-- `values_appearing_alone(values, text, minimum)` -/
def valuesAppearingAlone (values : Finset Str) (text : Str) (minimum : ℕ) : List Str :=
  sorted (values.filter (fun value => minimum≤value.length ∧ alone isName value text=true))

/-- The values of `.env` that appear in what was rendered. -/
def leaked (text rendered : Str) : List Str := valuesAppearingAlone (envValues text) rendered 8

/-- Nothing that can be stripped is inside a token. -/
theorem isName_of_isSpace {c : CodePoint} (h : isSpace c=true) : isName c=false := by
  cases hn : isName c with
  | false => rfl
  | true =>
    simp only [isSpace,isName,Bool.or_eq_true,Bool.and_eq_true,decide_eq_true_eq,beq_iff_eq] at h hn
    simp only [Fin.ext_iff] at hn
    omega

theorem isName_of_isQuote {c : CodePoint} (h : isQuote c=true) : isName c=false := by
  simp only [isQuote,Bool.or_eq_true,decide_eq_true_eq] at h
  rcases h with rfl|rfl
  · decide
  · decide

/-- Unquoting takes off quotes that are stripped anyway. -/
theorem stripBy_unquote (value : Str) : stripBy isQuote (unquote value)=stripBy isQuote value := by
  have hpair : ∀ quote,isQuote quote=true → Wrapped quote value →
      stripBy isQuote value.tail.dropLast=stripBy isQuote value := by
    rintro quote hq ⟨hlength,hhead,hlast⟩
    obtain ⟨rest,rfl⟩ := List.head?_eq_some_iff.mp hhead
    have hne : rest≠[] := by
      rintro rfl
      simp at hlength
    rw [List.getLast?_cons_of_ne_nil hne] at hlast
    obtain ⟨inner,rfl⟩ := List.getLast?_eq_some_iff.mp hlast
    rw [List.tail_cons,List.dropLast_concat,stripBy_cons hq,stripBy_concat hq]
  unfold unquote
  split
  · rename_i hw
    exact hpair doubleQuote (by decide) hw
  · split
    · rename_i hw
      exact hpair singleQuote (by decide) hw
    · rfl

/-- What the doctor reads a line as that the tests take for an assignment. -/
theorem parseLine_of_assigns {line : Str} (h : assigns line=true) :
    ∃ name value,parseLine line=some (name,value) ∧ searched line=stripBy isQuote value := by
  rw [assigns,Bool.and_eq_true,decide_eq_true_eq,decide_eq_true_eq,←head?_strip] at h
  obtain ⟨u,v,rfl,hu⟩ := (exists_partition equals line).resolve_left (not_not.mpr h.1)
  have hstrip := strip_middle isSpace_equals u v
  have hread : ¬(strip (u++equals::v)=[] ∨ (strip (u++equals::v)).head?=some hash ∨
      equals∉strip (u++equals::v)) := by
    rw [not_or,not_or,not_not,hstrip]
    refine ⟨by simp,?_,List.mem_append_right _ List.mem_cons_self⟩
    rw [←hstrip]
    exact h.2
  have hfirst : equals∉u.dropWhile isSpace := fun hm => hu (List.dropWhile_subset _ hm)
  refine ⟨strip (u.dropWhile isSpace),unquote (strip v),?_,?_⟩
  · rw [parseLine,if_neg hread,hstrip]
    simp only [partition_first hfirst,strip_rdropWhile]
  · rw [searched,partition_first hu,stripBy_unquote]

/-- The tests take every line for an assignment that the doctor reads one from. -/
theorem assigns_of_parseLine {line name value : Str} (h : parseLine line=some (name,value)) :
    assigns line=true := by
  obtain ⟨hhead,left,raw,hs,-,-,-⟩ := parseLine_cases h
  have hequals : equals∈strip line := by
    rw [hs]
    exact List.mem_append_right _ List.mem_cons_self
  rw [assigns,Bool.and_eq_true,decide_eq_true_eq,decide_eq_true_eq,←head?_strip]
  exact ⟨mem_of_mem_strip hequals,hhead⟩

/-- The tests look for what the doctor reads, assignment by assignment, without
quotes at the ends. -/
theorem mem_envValues {text value : Str} :
    value∈envValues text ↔ ∃ line∈splitlines text,∃ name read,
      parseLine line=some (name,read) ∧ value=stripBy isQuote read := by
  rw [envValues,List.mem_toFinset,List.mem_map]
  constructor
  · rintro ⟨line,hm,rfl⟩
    obtain ⟨hline,hassigns⟩ := List.mem_filter.mp hm
    obtain ⟨name,read,hread,hsearched⟩ := parseLine_of_assigns hassigns
    exact ⟨line,hline,name,read,hread,hsearched⟩
  · rintro ⟨line,hline,name,read,hread,rfl⟩
    have hassigns := assigns_of_parseLine hread
    obtain ⟨name',read',hread',hsearched⟩ := parseLine_of_assigns hassigns
    rw [hread,Option.some.injEq,Prod.mk.injEq] at hread'
    rw [←hread'.2] at hsearched
    exact ⟨line,List.mem_filter.mpr ⟨hline,hassigns⟩,hsearched⟩

/-- What is reported. -/
theorem mem_leaked {text rendered value : Str} :
    value∈leaked text rendered ↔ 8≤value.length ∧ Alone isName value rendered ∧
      value∈envValues text := by
  rw [leaked,valuesAppearingAlone,mem_sorted,Finset.mem_filter,alone_iff]
  exact ⟨fun h => ⟨h.2.1,h.2.2,h.1⟩,fun h => ⟨h.2.2,h.1,h.2.1⟩⟩

/-- What is reported, exactly: the values of at least eight characters, without
quotes at their ends, that some line of the file assigns for the doctor, whether
or not a later line assigns the name again, and that stand alone in what was
rendered. -/
theorem leaked_iff (text rendered value : Str) :
    value∈leaked text rendered ↔ 8≤value.length ∧ Alone isName value rendered ∧
      ∃ line∈splitlines text,∃ name read,
        parseLine line=some (name,read) ∧ value=stripBy isQuote read := by
  rw [mem_leaked,mem_envValues]

/-- A value that is rendered in quotes or blanks of its own is rendered alone. -/
theorem alone_core {value rendered : Str} (h : Alone isName value rendered) :
    Alone isName (stripBy isQuote (strip value)) rendered := by
  obtain ⟨l,r,hparts,hl,hr⟩ := strip_parts value
  rw [hparts] at h
  have hstripped := h.core (fun c hc => isName_of_isSpace (hl c hc))
    (fun c hc => isName_of_isSpace (hr c hc))
  obtain ⟨l',r',hparts',hl',hr'⟩ := stripBy_parts isQuote (strip value)
  rw [hparts'] at hstripped
  exact hstripped.core (fun c hc => isName_of_isQuote (hl' c hc))
    (fun c hc => isName_of_isQuote (hr' c hc))

/-- The same of a value the doctor reads, which is stripped already. -/
theorem alone_unquoted {value rendered : Str} (h : Alone isName value rendered) :
    Alone isName (stripBy isQuote value) rendered := by
  obtain ⟨l,r,hparts,hl,hr⟩ := stripBy_parts isQuote value
  rw [hparts] at h
  exact h.core (fun c hc => isName_of_isQuote (hl c hc)) (fun c hc => isName_of_isQuote (hr c hc))

/-- A value the doctor reads from a line is found. -/
theorem leaked_of_parseLine {text rendered line name value : Str} (hline : line∈splitlines text)
    (hread : parseLine line=some (name,value)) (hlength : 8≤(stripBy isQuote value).length)
    (halone : Alone isName value rendered) : stripBy isQuote value∈leaked text rendered :=
  (leaked_iff text rendered _).mpr
    ⟨hlength,alone_unquoted halone,line,hline,name,value,hread,rfl⟩

/-- If the tests find nothing, then no value of the file stands alone in what was
rendered and has eight characters without quotes at its ends: neither as the
doctor reads it, nor as a Secret made from the file has it. -/
theorem clean_render {text : String} {rendered : Str} (hclean : leaked (envText text) rendered=[]) :
    (∀ name,8≤(stripBy isQuote (valueIn (parseEnvPairs (envText text)) name)).length →
      ¬Alone isName (valueIn (parseEnvPairs (envText text)) name) rendered) ∧
    ((∀ line∈composeLines (str text),LineFree line) → ∀ secret : Secret (str text),
      ∀ key value,PlainKey key → secret.value key=some value →
        8≤(stripBy isQuote (strip value)).length → ¬Alone isName value rendered) := by
  have hnone : ∀ value,value∉leaked (envText text) rendered := by
    intro value hm
    rw [hclean] at hm
    cases hm
  constructor
  · intro name hlength halone
    cases hlast : lastAssigned name (splitlines (envText text)) with
    | none =>
      rw [valueIn,lookup_parseEnvPairs,hlast] at hlength
      exact absurd hlength (by decide)
    | some value =>
      have hvalue : valueIn (parseEnvPairs (envText text)) name=value := by
        rw [valueIn,lookup_parseEnvPairs,hlast,Option.getD_some]
      rw [hvalue] at hlength halone
      obtain ⟨line,hline,hread⟩ := exists_line_of_lastAssigned hlast
      exact hnone _ (leaked_of_parseLine hline hread hlength halone)
  · intro hfree secret key value hk hvalue hlength halone
    have hwritten := (mem_envFilePairs hk).mp (secret.assigned key value hvalue)
    have hline : key++equals::value∈splitlines (envText text) := by
      rw [envText,splitlines_universalNewlines]
      rcases composeLines_eq hfree with heq|heq
      · rwa [heq]
      · rw [←heq,List.mem_append,List.mem_singleton] at hwritten
        exact hwritten.resolve_right (by simp)
    refine hnone _ ((leaked_iff _ _ _).mpr
      ⟨hlength,alone_core halone,_,hline,key,_,parseLine_written hk value,?_⟩)
    exact (stripBy_unquote (strip value)).symm

theorem clean_render_sample :
    ¬Alone isName (str "1f4c9b2e7a") (str "args: [\"$(PASSWORD)\"]") ∧
      ∀ secret : Secret (str "PASSWORD='1f4c9b2e7a'\n"),
        secret.value (str "PASSWORD")=some (str "'1f4c9b2e7a'") →
          ¬Alone isName (str "'1f4c9b2e7a'") (str "args: [\"$(PASSWORD)\"]") := by
  have h := @clean_render "PASSWORD='1f4c9b2e7a'\n" (str "args: [\"$(PASSWORD)\"]")
    (by decide +kernel)
  refine ⟨h.1 (str "PASSWORD") (by decide +kernel),fun secret hvalue => ?_⟩
  exact h.2 (by decide +kernel) secret _ _ ⟨by decide,by decide,by decide,by decide⟩ hvalue
    (by decide +kernel)

theorem escape_ne_nil (c : CodePoint) : escape c≠[] := by
  rcases escape_shape c with hc|⟨tail,hc,-⟩
  · rw [hc]
    exact List.cons_ne_nil c []
  · rw [hc]
    exact List.cons_ne_nil backslash tail

/-- An escape does not start with a character of a name. -/
theorem outside_escape_head {c : CodePoint} (h : isName c=false) :
    Outside isName (escape c).head? := by
  intro d hd
  rcases escape_shape c with hc|⟨tail,hc,-⟩
  · rw [hc] at hd
    cases hd
    exact h
  · rw [hc] at hd
    cases hd
    decide

/-- A printable character is written with a printable one at the end: as it is,
or behind a backslash. -/
theorem outside_escape_last {c : CodePoint} (h : isName c=false) (hlow : 0x20 ≤ c.val)
    (hhigh : c.val≤0x7e) : Outside isName (escape c).getLast? := by
  intro d hd
  unfold escape at hd
  cases hletter : escapeLetter c with
  | some e =>
    rw [hletter] at hd
    cases hd
    unfold escapeLetter at hletter
    split_ifs at hletter <;> cases hletter <;> first
      | decide
      | (subst c; exact absurd hlow (by decide))
  | none =>
    rw [hletter] at hd
    dsimp only at hd
    rw [if_pos ⟨hlow,hhigh⟩] at hd
    cases hd
    exact h

/-- A value that needs no escape is found in the rendered JSON when it stands alone
in a string of it, behind a printable character. -/
theorem alone_dumps {floatOf : Str→Str} {document : Json} (hvalid : Valid floatOf document)
    {before value after : Str} (hstring : before++value++after∈strings document)
    (hvalue : ∀ c∈value,escape c=[c]) (hafter : Outside isName after.head?)
    (hbefore : ∀ c,before.getLast?=some c → isName c=false ∧ 0x20 ≤ c.val ∧ c.val≤0x7e) :
    alone isName value (dumps document)=true := by
  have hself : escaped value=value := by
    rw [escaped,List.flatMap_congr hvalue,List.flatMap_singleton']
  obtain ⟨front,back,hdumps⟩ := stringText_infix_dumps hvalid hstring
  rw [alone_iff]
  refine ⟨front++quote::escaped before,escaped after++quote::back,?_,?_,?_⟩
  · rw [←hdumps,stringText,escaped,List.flatMap_append,List.flatMap_append]
    rw [escaped] at hself
    simp only [hself,escaped,List.append_assoc,List.cons_append,List.nil_append]
  · rcases List.eq_nil_or_concat before with rfl|⟨init,c,rfl⟩
    · rw [List.getLast?_append_of_ne_nil _ (List.cons_ne_nil _ _)]
      decide
    · obtain ⟨hname,hlow,hhigh⟩ := hbefore c (by simp)
      rw [escaped,List.concat_eq_append,List.flatMap_append,List.flatMap_singleton,
        ←List.cons_append,←List.append_assoc,List.getLast?_append_of_ne_nil _ (escape_ne_nil c)]
      exact outside_escape_last hname hlow hhigh
  · cases after with
    | nil => exact fun d hd => Option.some.inj hd ▸ isName_of_isQuote rfl
    | cons c after =>
      rw [escaped,List.flatMap_cons,List.append_assoc,List.head?_append_of_ne_nil _ (escape_ne_nil c)]
      exact outside_escape_head (hafter c rfl)

theorem alone_dumps_sample :
    alone isName (str "s3cretpass") (dumps (.str (str "user:s3cretpass@db")))=true :=
  @alone_dumps id (.str (str "user:s3cretpass@db")) (.str _) (str "user:") (str "s3cretpass")
    (str "@db") (List.mem_singleton_self _)
    (fun c hc => escape_plain (List.all_eq_true.mp (by decide) c hc)) (by decide)
    (fun c hc => Option.some.inj hc ▸ by decide +kernel)

/-- Behind a line feed it is written with a letter before it, and missed. -/
example : alone isName (str "s3cretpass") (dumps (.str (str "\ns3cretpass")))=false := by
  decide +kernel

end MlopsPlatform.LeakCheck
