import MlopsPlatform.TextDelimited
import MlopsPlatform.TextSorted
import MlopsPlatform.TextStrip

/-!
# The pseudo-render of the chart's templates

Helm templates are no YAML, so the contract tests reduce them to something that
is: control lines and injected blocks are dropped, every other action becomes a
placeholder. A template is printed from its lines, its injected blocks and its
branches, each with the form it has in Helm's own language, and it is rendered by
taking branches. The patterns of the tests tell these forms apart, so that the
pseudo-render of what is printed shows a line exactly if some rendering does, in
the order of the source.
-/

namespace MlopsPlatform.ChartTemplates

open TextCodec TextLines TextStrip TextSorted TextSeparators TextDelimited

/-- The opening braces of an action. -/
def opens : Str := str "\x7b\x7b"

/-- The closing braces of an action. -/
def closes : Str := str "\x7d\x7d"

/-- What stands in for a scalar. -/
def placeholder : Str := str "PLACEHOLDER"

/-- The hyphen that trims. -/
def hyphen : CodePoint := 0x2d

/-- The colon between a key and its value. -/
def colon : CodePoint := 0x3a

/-- The words of `CONTROL`. -/
def controlWords : List Str :=
  [str "if",str "else",str "end",str "range",str "with",str "define"]

/-- The words of `INJECTED`. -/
def injectedWords : List Str := [str "include",str "toYaml"]

/-- What follows `\{\{-?\s*` at the start of a text. -/
def afterAction (s : Str) : Option Str :=
  if opens<+:s then
    let inner := s.drop opens.length
    some ((if inner.head?=some hyphen then inner.drop 1 else inner).dropWhile isSpace)
  else none

/-- One of the words, up to a boundary, with this behind it. -/
def wordThen (isWord : CodePoint→Bool) (words : List Str) (behind : Str→Bool) (s : Str) : Bool :=
  words.any (fun word => word.isPrefixOf s && !(s.drop word.length).head?.any isWord &&
    behind (s.drop word.length))

/-- `CONTROL.match(line)` -/
def isControl (isWord : CodePoint→Bool) (line : Str) : Bool :=
  (afterAction (line.dropWhile isSpace)).any
    (wordThen isWord controlWords (fun rest => closes.isSuffixOf (rest.rdropWhile isSpace)))

/-- `re.search(r":\s*\{\{", line)` -/
def isValue (line : Str) : Bool :=
  line.tails.any (fun tail =>
    tail.head?=some colon && opens.isPrefixOf ((tail.drop 1).dropWhile isSpace))

/-- `INJECTED.search(line)` -/
def isInjected (isWord : CodePoint→Bool) (line : Str) : Bool :=
  line.tails.any (fun tail => (afterAction tail).any
    (wordThen isWord injectedWords (fun rest => str "nindent"<:+:rest)))

/-- `INLINE.sub("PLACEHOLDER", line)` -/
def inlined (line : Str) : Str := replaceDelimited opens closes placeholder line

/-- What a line contributes. -/
def keep (isWord : CodePoint→Bool) (line : Str) : Option Str :=
  if isControl isWord line=true ∧ isValue line=false then none
  else if isInjected isWord line=true then none
  else some (inlined line)

/-- `pseudo_render` -/
def pseudoRender (isWord : CodePoint→Bool) (text : Str) : Str :=
  join [lf] ((splitlines text).filterMap (keep isWord))

/-- A text, and actions each with the text behind it. -/
def written (first : Str) (rest : List (Str×Str)) : Str :=
  first++rest.flatMap (fun action => opens++action.1++closes++action.2)

/-- Python's word characters, as far as they matter here. -/
structure WordChars where
  /-- What `\w` matches. -/
  isWord : CodePoint→Bool
  /-- The small letters are some, -/
  letters : ∀ c,0x61 ≤ c.val → c.val≤0x7a → isWord c=true
  /-- and a closing brace is none. -/
  brace : isWord 0x7d=false

/-- The keywords that open a condition. -/
def conditions : List Str := [str "if",str "with"]

/-- The keyword that opens a range. -/
def ranges : List Str := [str "range"]

/-- The keyword of an alternative. -/
def alternatives : List Str := [str "else"]

/-- The keyword that closes. -/
def endings : List Str := [str "end"]

/-- The functions that yield a block. -/
def blockFunctions : List Str := [str "include",str "toYaml"]

/-- The keywords of Helm's template language. -/
def keywords : List Str :=
  conditions++ranges++alternatives++endings++
    [str "define",str "block",str "template",str "break",str "continue"]

/-- The first word of an action. -/
def firstWord (isWord : CodePoint→Bool) (inner : Str) : Str :=
  (inner.dropWhile isSpace).takeWhile isWord

/-- The start of a line that is one action: blanks, the braces, a hyphen that trims, blanks. -/
structure Opening where
  /-- The blanks before the braces. -/
  indent : Str
  /-- Whether it trims what is before it. -/
  trims : Bool
  /-- The blanks behind. -/
  gap : Str
  /-- They are blanks, -/
  blank : Blank indent ∧ Blank gap
  /-- of one line, -/
  lineFree : LineFree indent ∧ LineFree gap
  /-- and there are some behind a hyphen. -/
  spaced : trims=true → gap≠[]

/-- Its text. -/
def Opening.source (opening : Opening) : Str :=
  opening.indent++(opens++((if opening.trims=true then [hyphen] else [])++opening.gap))

/-- The end of such a line: the braces and blanks. -/
structure Closing where
  /-- The blanks. -/
  blanks : Str
  /-- They are blanks, -/
  blank : Blank blanks
  /-- of one line. -/
  lineFree : LineFree blanks

/-- Its text. -/
def Closing.source (closing : Closing) : Str := closes++closing.blanks

section Templates

variable (words : WordChars)

/-- What stands behind a word in an action. -/
structure Argument where
  /-- The text. -/
  text : Str
  /-- It does not go on with the word. -/
  apart : text.head?.any words.isWord=false
  /-- It has no braces. -/
  unbraced : 0x7b∉text ∧ 0x7d∉text
  /-- It is on one line. -/
  lineFree : LineFree text
  /-- It trims nothing behind the action. -/
  untrimmed : text.getLast?≠some hyphen

/-- A line of control flow with one of these keywords. -/
structure Control (allowed : List Str) where
  /-- Its start. -/
  opening : Opening
  /-- The keyword. -/
  keyword : Str
  /-- It is one of these. -/
  known : keyword∈allowed
  /-- What stands behind it. -/
  argument : Argument words
  /-- Its end. -/
  closing : Closing

/-- One that has nothing behind its keyword. -/
structure Bare (allowed : List Str) extends Control words allowed where
  /-- Nothing but blanks. -/
  bare : Blank argument.text

/-- A line that is nothing but an injected block. -/
structure Injected where
  /-- Its start. -/
  opening : Opening
  /-- What yields the block. -/
  function : Str
  /-- It is a template or a value. -/
  known : function∈blockFunctions
  /-- What stands behind it, up to the indentation. -/
  argument : Argument words
  /-- That is something. -/
  separated : argument.text≠[]
  /-- How far the block is indented. -/
  depth : Argument words
  /-- Its end. -/
  closing : Closing

/-- A line of a template with the scalar actions it holds: its text up to the
first action, then each action with the text behind it. -/
structure Line where
  /-- The text before the first action. -/
  first : Str
  /-- Each action, and the text behind it. -/
  rest : List (Str×Str)
  /-- No action begins in the text. -/
  separable : Separable opens first ∧ ∀ action∈rest,Separable opens action.2
  /-- An action ends with its first closing braces. -/
  closed : ∀ action∈rest,Separable closes action.1
  /-- An action trims nothing around it. -/
  untrimmed : ∀ action∈rest,action.1.head?≠some hyphen ∧ action.1.getLast?≠some hyphen
  /-- It is one line. -/
  lineFree : LineFree first ∧ ∀ action∈rest,LineFree action.1 ∧ LineFree action.2
  /-- No action is control flow. -/
  scalar : ∀ action∈rest,firstWord words.isWord action.1∉keywords
  /-- Nothing is indented as a block. -/
  inline : ¬str "nindent"<:+:written first rest

/-- A template. -/
inductive Template where
  /-- The end. -/
  | done
  /-- A line. -/
  | line (shown : Line words) (rest : Template)
  /-- An injected block. -/
  | injected (block : Injected words) (rest : Template)
  /-- `if` or `with`, to `end`. -/
  | guarded (opener : Control words conditions) (closer : Bare words endings)
    (body rest : Template)
  /-- `if` or `with`, `else`, to `end`. -/
  | choice (opener : Control words conditions) (middle : Bare words alternatives)
    (closer : Bare words endings) (body alternative rest : Template)
  /-- `range`, to `end`. -/
  | repeated (opener : Control words ranges) (closer : Bare words endings)
    (body rest : Template)

end Templates

variable {words : WordChars}

/-- The line in the source. -/
def Control.source {allowed : List Str} (line : Control words allowed) : Str :=
  line.opening.source++(line.keyword++(line.argument.text++line.closing.source))

/-- The line in the source. -/
def Injected.source (line : Injected words) : Str :=
  line.opening.source++(line.function++(line.argument.text++str "nindent"++line.depth.text++
    line.closing.source))

/-- The line in the source. -/
def Line.source (line : Line words) : Str := written line.first line.rest

/-- The line with a value for each action. -/
def Line.shown (value : Str→Str) (line : Line words) : Str :=
  line.first++line.rest.flatMap (fun action => value action.1++action.2)

/-- The lines of a template in the source. -/
def Template.source : Template words→List Str
  | .done => []
  | .line shown rest => shown.source::rest.source
  | .injected block rest => block.source::rest.source
  | .guarded opener closer body rest =>
    opener.source::body.source++closer.source::rest.source
  | .choice opener middle closer body alternative rest =>
    opener.source::body.source++middle.source::alternative.source++closer.source::rest.source
  | .repeated opener closer body rest =>
    opener.source::body.source++closer.source::rest.source

/-- The text of a template. -/
def Template.text (template : Template words) : Str :=
  template.source.flatMap (fun line => line++[lf])

/-- The lines of a template that are neither control flow nor injected. -/
def Template.lines : Template words→List (Line words)
  | .done => []
  | .line shown rest => shown::rest.lines
  | .injected _ rest => rest.lines
  | .guarded _ _ body rest => body.lines++rest.lines
  | .choice _ _ _ body alternative rest => body.lines++alternative.lines++rest.lines
  | .repeated _ _ body rest => body.lines++rest.lines

/-- The lines of its own that a template is rendered to, under some values. -/
inductive Renders : Template words→List (Line words)→Prop where
  /-- Nothing is left. -/
  | done : Renders .done []
  /-- A line is shown. -/
  | line {shown : Line words} {rest : Template words} {out : List (Line words)}
    (hrest : Renders rest out) : Renders (.line shown rest) (shown::out)
  /-- What is injected is no line of the template. -/
  | injected {block : Injected words} {rest : Template words} {out : List (Line words)}
    (hrest : Renders rest out) : Renders (.injected block rest) out
  /-- The condition holds. -/
  | taken {opener : Control words conditions} {closer : Bare words endings}
    {body rest : Template words} {inner out : List (Line words)} (hbody : Renders body inner)
    (hrest : Renders rest out) :
    Renders (.guarded opener closer body rest) (inner++out)
  /-- The condition does not hold. -/
  | skipped {opener : Control words conditions} {closer : Bare words endings}
    {body rest : Template words} {out : List (Line words)} (hrest : Renders rest out) :
    Renders (.guarded opener closer body rest) out
  /-- The condition holds, and there is an alternative. -/
  | chosen {opener : Control words conditions} {middle : Bare words alternatives}
    {closer : Bare words endings} {body alternative rest : Template words}
    {inner out : List (Line words)} (hbody : Renders body inner) (hrest : Renders rest out) :
    Renders (.choice opener middle closer body alternative rest) (inner++out)
  /-- The condition does not hold, and there is an alternative. -/
  | otherwise {opener : Control words conditions} {middle : Bare words alternatives}
    {closer : Bare words endings} {body alternative rest : Template words}
    {inner out : List (Line words)} (hbody : Renders alternative inner)
    (hrest : Renders rest out) :
    Renders (.choice opener middle closer body alternative rest) (inner++out)
  /-- The range is over. -/
  | last {opener : Control words ranges} {closer : Bare words endings}
    {body rest : Template words} {out : List (Line words)} (hrest : Renders rest out) :
    Renders (.repeated opener closer body rest) out
  /-- One round of the range. -/
  | round {opener : Control words ranges} {closer : Bare words endings}
    {body rest : Template words} {inner out : List (Line words)} (hbody : Renders body inner)
    (hrest : Renders (.repeated opener closer body rest) out) :
    Renders (.repeated opener closer body rest) (inner++out)

theorem opens_ne_nil : opens≠[] := by decide

theorem closes_ne_nil : closes≠[] := by decide

theorem written_cons (first : Str) (action : Str×Str) (rest : List (Str×Str)) :
    written first (action::rest)=first++(opens++(action.1++(closes++written action.2 rest))) := by
  rw [written,written,List.flatMap_cons]
  simp only [List.append_assoc]

/-- Every action of a line becomes a placeholder. -/
theorem inlined_parts (first : Str) (rest : List (Str×Str)) (hfirst : Separable opens first)
    (htexts : ∀ action∈rest,Separable opens action.2)
    (hclosed : ∀ action∈rest,Separable closes action.1) :
    inlined (written first rest)=first++rest.flatMap (fun action => placeholder++action.2) := by
  unfold written
  induction rest generalizing first with
  | nil =>
    rw [List.flatMap_nil,List.flatMap_nil,List.append_nil]
    exact replace_absent (fun h => hfirst (h.trans (List.prefix_append _ _).isInfix))
  | cons action rest ih =>
    have hrest := ih action.2 (htexts action List.mem_cons_self)
      (fun other h => htexts other (List.mem_cons_of_mem _ h))
      (fun other h => hclosed other (List.mem_cons_of_mem _ h))
    let behind := rest.flatMap (fun action => opens++action.1++closes++action.2)
    have htext : inlined (first++opens++(action.1++closes++(action.2++behind)))=
        first++inlined (opens++(action.1++closes++(action.2++behind))) :=
      replace_text hfirst _
    have haction : inlined (opens++action.1++closes++(action.2++behind))=
        placeholder++inlined (action.2++behind) :=
      replace_stretch opens_ne_nil closes_ne_nil (hclosed action List.mem_cons_self) _
    have hshape : first++(action::rest).flatMap (fun action =>
        opens++action.1++closes++action.2)=
          first++opens++(action.1++closes++(action.2++behind)) := by
      change first++(opens++action.1++closes++action.2++behind)=_
      simp only [List.append_assoc]
    calc inlined (first++(action::rest).flatMap (fun action =>
          opens++action.1++closes++action.2))
        =first++inlined (opens++(action.1++closes++(action.2++behind))) :=
          (congrArg inlined hshape).trans htext
      _ =first++(placeholder++inlined (action.2++behind)) := by
          rw [←haction,List.append_assoc opens,List.append_assoc opens,List.append_assoc action.1]
      _ =first++(action::rest).flatMap (fun action => placeholder++action.2) := by
          rw [hrest,List.flatMap_cons,List.append_assoc]

/-- Every keyword begins with a letter, and has nothing but letters. -/
theorem word_letters {word : Str} (h : word∈controlWords ∨ word∈blockFunctions) :
    ∃ c rest,word=c::rest ∧ isSpace c=false ∧ c≠hyphen := by
  have hhead : ∀ word∈controlWords++blockFunctions,
      word.head?.any (fun c => !isSpace c && decide (c≠hyphen))=true := by decide
  have hword := hhead word (List.mem_append.mpr h)
  cases word with
  | nil => cases hword
  | cons c rest =>
    simp only [List.head?_cons,Option.any_some,Bool.and_eq_true,Bool.not_eq_true',
      decide_eq_true_eq] at hword
    exact ⟨c,rest,rfl,hword⟩

theorem controlWords_isWord {word : Str} (h : word∈controlWords) {c : CodePoint} (hc : c∈word) :
    words.isWord c=true := by
  have hall : controlWords.all (fun word => word.all (fun c =>
      decide (0x61 ≤ c.val) && decide (c.val≤0x7a)))=true := by decide
  have hletter := List.all_eq_true.mp (List.all_eq_true.mp hall word h) c hc
  rw [Bool.and_eq_true,decide_eq_true_eq,decide_eq_true_eq] at hletter
  exact words.letters c hletter.1 hletter.2

theorem controlWords_keywords {word : Str} (h : word∈controlWords) : word∈keywords := by
  have hall : ∀ word∈controlWords,word∈keywords := by decide
  exact hall word h

/-- Blanks at the start are dropped, up to what is none. -/
theorem dropWhile_blank {blanks : Str} (hb : Blank blanks) {c : CodePoint}
    (hc : isSpace c=false) (rest : Str) : (blanks++c::rest).dropWhile isSpace=c::rest := by
  have hdrop : blanks.dropWhile isSpace=[] := List.dropWhile_eq_nil_iff.mpr hb
  rw [List.dropWhile_append,hdrop,List.isEmpty_nil,if_pos rfl,List.dropWhile_cons_of_neg]
  rw [hc]
  exact Bool.false_ne_true

/-- Behind the start of a one-action line stands the rest. -/
theorem afterAction_opening (opening : Opening) {c : CodePoint} (hc : isSpace c=false)
    (hne : c≠hyphen) (rest : Str) :
    afterAction (opens++((if opening.trims=true then [hyphen] else [])++opening.gap)++c::rest)=
      some (c::rest) := by
  have hdrop : ((opening.gap++c::rest)).dropWhile isSpace=c::rest :=
    dropWhile_blank opening.blank.2 hc rest
  have hbegins : opens<+:opens++((if opening.trims=true then [hyphen] else [])++opening.gap)++
      c::rest := by
    rw [List.append_assoc]
    exact List.prefix_append _ _
  rw [afterAction,if_pos hbegins,List.append_assoc,List.drop_left]
  cases opening.trims with
  | true => exact congrArg some hdrop
  | false =>
    have hhead : (opening.gap++c::rest).head?≠some hyphen := by
      cases hgap : opening.gap with
      | nil => exact fun h => hne (Option.some.inj h)
      | cons x gap =>
        intro h
        have hx := opening.blank.2 x (by rw [hgap]; exact List.mem_cons_self)
        rw [Option.some.inj h] at hx
        cases hx
    rw [if_neg Bool.false_ne_true,List.nil_append]
    dsimp only
    rw [if_neg hhead,hdrop]

/-- So it does behind its indentation. -/
theorem dropWhile_opening (opening : Opening) (rest : Str) :
    (opening.source++rest).dropWhile isSpace=
      opens++((if opening.trims=true then [hyphen] else [])++opening.gap)++rest := by
  have hopens : opens=0x7b::[0x7b] := rfl
  have hbrace : isSpace 0x7b=false := by decide
  rw [Opening.source,List.append_assoc,hopens,List.cons_append,List.cons_append]
  exact dropWhile_blank opening.blank.1 hbrace _

/-- A word that stands there, with a boundary and this behind it, is found. -/
theorem wordThen_word {isWord : CodePoint→Bool} {allowed : List Str} {behind : Str→Bool}
    {word rest : Str} (hword : word∈allowed) (hapart : rest.head?.any isWord=false)
    (hbehind : behind rest=true) : wordThen isWord allowed behind (word++rest)=true := by
  rw [wordThen,List.any_eq_true]
  refine ⟨word,hword,?_⟩
  have hbegins : word.isPrefixOf (word++rest)=true :=
    List.isPrefixOf_iff_prefix.mpr (List.prefix_append _ _)
  rw [hbegins,List.drop_left,hapart,hbehind]
  rfl

/-- What stands behind a word does not go on with it. -/
theorem Argument.behind (argument : Argument words) (closing : Closing) :
    (argument.text++closing.source).head?.any words.isWord=false := by
  cases hargument : argument.text with
  | nil => exact words.brace
  | cons c rest =>
    have h := argument.apart
    rw [hargument] at h
    exact h

/-- Blanks at the end are dropped. -/
theorem rdropWhile_blank {blanks : Str} (hb : Blank blanks) (s : Str) :
    (s++blanks).rdropWhile isSpace=s.rdropWhile isSpace := by
  induction blanks using List.reverseRecOn with
  | nil => rw [List.append_nil]
  | append_singleton blanks c ih =>
    rw [←List.append_assoc,List.rdropWhile_concat_pos _ _ _
      (hb c (List.mem_append_right _ List.mem_cons_self))]
    exact ih (fun x hx => hb x (List.mem_append_left _ hx))

/-- A line of control flow is taken for one. -/
theorem isControl_control {allowed : List Str} (line : Control words allowed)
    (hallowed : ∀ word∈allowed,word∈controlWords) : isControl words.isWord line.source=true := by
  have hword := hallowed line.keyword line.known
  obtain ⟨c,rest,hkeyword,hc,hne⟩ := word_letters (.inl hword)
  have hafter : afterAction (line.source.dropWhile isSpace)=
      some (line.keyword++(line.argument.text++line.closing.source)) := by
    rw [Control.source,dropWhile_opening,hkeyword,List.cons_append]
    exact afterAction_opening line.opening hc hne _
  rw [isControl,hafter,Option.any_some]
  refine wordThen_word hword (line.argument.behind line.closing) ?_
  have hlast : (line.argument.text++line.closing.source).rdropWhile isSpace=
      line.argument.text++closes := by
    have hcloses : closes=[0x7d]++[0x7d] := rfl
    have hbrace : ¬isSpace 0x7d=true := by decide
    rw [Closing.source,←List.append_assoc,rdropWhile_blank line.closing.blank,hcloses,
      ←List.append_assoc,List.rdropWhile_concat_neg _ _ _ hbrace]
  rw [hlast,List.isSuffixOf_iff_suffix]
  exact List.suffix_append _ _

/-- No value begins where no colon is followed by an opening brace. -/
theorem isValue_parts {before behind : Str} (hcolon : colon∉before) (hbrace : 0x7b∉behind) :
    isValue (before++behind)=false := by
  rw [isValue,List.any_eq_false]
  intro tail htail hvalue
  rw [Bool.and_eq_true,decide_eq_true_eq,List.isPrefixOf_iff_prefix] at hvalue
  obtain ⟨hhead,hopens⟩ := hvalue
  obtain ⟨rest,rfl⟩ : ∃ rest,tail=colon::rest := by
    cases tail with
    | nil => cases hhead
    | cons c rest => exact ⟨rest,by rw [Option.some.inj hhead]⟩
  have hmem : 0x7b∈rest := by
    have hfirst : (0x7b : CodePoint)∈opens := by decide
    exact (List.dropWhile_suffix _).subset (hopens.subset hfirst)
  obtain ⟨skipped,hsplit⟩ := (List.mem_tails _ _).mp htail
  rw [eq_comm,List.append_eq_append_iff] at hsplit
  rcases hsplit with ⟨middle,-,hbehind⟩|⟨middle,hbefore,hbehind⟩
  · rw [hbehind] at hbrace
    exact hbrace (List.mem_append_right _ (List.mem_cons_of_mem _ hmem))
  · cases middle with
    | nil =>
      rw [List.nil_append] at hbehind
      rw [←hbehind] at hbrace
      exact hbrace (List.mem_cons_of_mem _ hmem)
    | cons c middle =>
      rw [List.cons_append,List.cons.injEq] at hbehind
      rw [hbefore,hbehind.1] at hcolon
      exact hcolon (List.mem_append_right _ List.mem_cons_self)

theorem not_mem_blank {blanks : Str} (hb : Blank blanks) {c : CodePoint} (hc : isSpace c=false) :
    c∉blanks := by
  intro hmem
  rw [hb c hmem] at hc
  cases hc

/-- A line of control flow is not taken for a value. -/
theorem isValue_control {allowed : List Str} (line : Control words allowed)
    (hallowed : ∀ word∈allowed,word∈controlWords) : isValue line.source=false := by
  have hbrace : isSpace 0x7b=false := by decide
  have hcut : line.source=(line.opening.indent++opens)++
      (((if line.opening.trims=true then [hyphen] else [])++line.opening.gap)++
        (line.keyword++(line.argument.text++line.closing.source))) := by
    rw [Control.source,Opening.source]
    simp only [List.append_assoc]
  have hkeyword : ∀ word∈controlWords,(0x7b : CodePoint)∉word := by decide
  rw [hcut]
  refine isValue_parts ?_ ?_
  · rw [List.mem_append,not_or]
    exact ⟨not_mem_blank line.opening.blank.1 (by decide),by decide⟩
  · simp only [List.mem_append,not_or,Closing.source]
    refine ⟨⟨?_,not_mem_blank line.opening.blank.2 hbrace⟩,hkeyword _ (hallowed _ line.known),
      line.argument.unbraced.1,by decide,not_mem_blank line.closing.blank hbrace⟩
    split <;> decide

/-- It is dropped. -/
theorem keep_control {allowed : List Str} (line : Control words allowed)
    (hallowed : ∀ word∈allowed,word∈controlWords) : keep words.isWord line.source=none :=
  if_pos ⟨isControl_control line hallowed,isValue_control line hallowed⟩

theorem keep_condition (line : Control words conditions) :
    keep words.isWord line.source=none := keep_control line (by decide)

theorem keep_range (line : Control words ranges) : keep words.isWord line.source=none :=
  keep_control line (by decide)

theorem keep_alternative (line : Bare words alternatives) :
    keep words.isWord line.source=none := keep_control line.toControl (by decide)

theorem keep_ending (line : Bare words endings) : keep words.isWord line.source=none :=
  keep_control line.toControl (by decide)

/-- An injected block is taken for one. -/
theorem isInjected_injected (line : Injected words) :
    isInjected words.isWord line.source=true := by
  obtain ⟨c,rest,hfunction,hc,hne⟩ := word_letters (.inr line.known)
  rw [isInjected,List.any_eq_true]
  let tail := opens++((if line.opening.trims=true then [hyphen] else [])++line.opening.gap)++
    (line.function++(line.argument.text++str "nindent"++line.depth.text++line.closing.source))
  have htail : tail<:+line.source := by
    rw [Injected.source,Opening.source,List.append_assoc]
    exact List.suffix_append _ _
  refine ⟨tail,(List.mem_tails _ _).mpr htail,?_⟩
  have hafter : afterAction tail=some (line.function++
      (line.argument.text++str "nindent"++line.depth.text++line.closing.source)) := by
    change afterAction (_++(line.function++_))=_
    rw [hfunction,List.cons_append]
    exact afterAction_opening line.opening hc hne _
  rw [hafter,Option.any_some]
  refine wordThen_word line.known ?_ (decide_eq_true ?_)
  · cases hargument : line.argument.text with
    | nil => exact absurd hargument line.separated
    | cons x text =>
      have h := line.argument.apart
      rw [hargument] at h
      exact h
  · rw [List.append_assoc]
    exact (List.infix_append _ _ _)

/-- So it is dropped. -/
theorem keep_injected (line : Injected words) : keep words.isWord line.source=none := by
  rw [keep,if_pos (isInjected_injected line)]
  exact ite_self _

/-- The first word of an action is found behind its opening braces. -/
theorem takeWhile_firstWord (inner rest : Str) :
    ((inner++(closes++rest)).dropWhile isSpace).takeWhile words.isWord=
      firstWord words.isWord inner := by
  have hbrace : isSpace 0x7d=false := by decide
  have hcloses : closes++rest=0x7d::0x7d::rest := rfl
  have hstop : (closes++rest).takeWhile words.isWord=[] := by
    rw [hcloses,List.takeWhile_cons_of_neg (by rw [words.brace]; exact Bool.false_ne_true)]
  rw [firstWord,List.dropWhile_append]
  split
  · rename_i hblank
    rw [List.isEmpty_iff.mp hblank,List.takeWhile_nil,hcloses,
      List.dropWhile_cons_of_neg (by rw [hbrace]; exact Bool.false_ne_true),←hcloses,hstop]
  · rw [List.takeWhile_append,hstop]
    split
    · rename_i hall
      rw [List.append_nil]
      exact ((List.takeWhile_prefix _).eq_of_length hall).symm
    · rfl

/-- A word that is found is the first one. -/
theorem takeWhile_of_wordThen {behind : Str→Bool} {s : Str}
    (h : wordThen words.isWord controlWords behind s=true) :
    s.takeWhile words.isWord∈controlWords := by
  rw [wordThen,List.any_eq_true] at h
  obtain ⟨word,hword,hfound⟩ := h
  rw [Bool.and_eq_true,Bool.and_eq_true,List.isPrefixOf_iff_prefix,Bool.not_eq_true'] at hfound
  obtain ⟨⟨⟨rest,rfl⟩,hapart⟩,-⟩ := hfound
  rw [List.drop_left] at hapart
  have hall : word.takeWhile words.isWord=word :=
    List.takeWhile_eq_self_iff.mpr (fun c hc => controlWords_isWord hword hc)
  have hstop : rest.takeWhile words.isWord=[] := by
    cases rest with
    | nil => rfl
    | cons c rest =>
      rw [List.takeWhile_cons_of_neg]
      exact Bool.eq_false_iff.mp hapart
  rwa [List.takeWhile_append,hall,if_pos rfl,hstop,List.append_nil]

/-- Text in which no action begins does not begin with one. -/
theorem afterAction_text {text : Str} (hseparable : Separable opens text) {c : CodePoint}
    {kept : Str} (hkept : text.dropWhile isSpace=c::kept) (rest : List (Str×Str)) :
    afterAction ((written text rest).dropWhile isSpace)=none := by
  have hwritten : (written text rest).dropWhile isSpace=
      c::(kept++rest.flatMap (fun action => opens++action.1++closes++action.2)) := by
    rw [written,List.dropWhile_append,hkept]
    rfl
  have hwithin : ∀ behind,c::(kept++behind)<:+:text++behind := by
    intro behind
    have hsuffix : c::kept<:+text := hkept ▸ List.dropWhile_suffix _
    obtain ⟨blanks,hblanks⟩ := hsuffix
    rw [←hblanks,List.append_assoc]
    exact (List.suffix_append _ _).isInfix
  have hnone : ¬opens<+:c::(kept++rest.flatMap
      (fun action => opens++action.1++closes++action.2)) := by
    cases rest with
    | nil =>
      intro hbegins
      refine hseparable (hbegins.isInfix.trans ((hwithin []).trans ?_))
      rw [List.append_nil]
      exact (List.prefix_append _ _).isInfix
    | cons action rest =>
      have hwithin : ¬opens<+:c::(kept++opens.dropLast) :=
        fun hbegins => hseparable (hbegins.isInfix.trans (hwithin _))
      rw [List.flatMap_cons]
      simp only [List.append_assoc]
      rw [←List.append_assoc kept]
      exact begins_within hwithin _
  rw [hwritten,afterAction,if_neg hnone]

/-- A line of scalar actions is not taken for control flow. -/
theorem isControl_line (line : Line words) : isControl words.isWord line.source=false := by
  rw [isControl,Line.source]
  cases hfirst : line.first.dropWhile isSpace with
  | cons c kept =>
    rw [afterAction_text line.separable.1 hfirst]
    rfl
  | nil =>
    cases hrest : line.rest with
    | nil =>
      have hnone : (written line.first []).dropWhile isSpace=[] := by
        rw [written,List.flatMap_nil,List.append_nil,hfirst]
      rw [hnone]
      rfl
    | cons action rest =>
      have haction : action∈line.rest := by
        rw [hrest]
        exact List.mem_cons_self
      have hblank : Blank line.first := List.dropWhile_eq_nil_iff.mp hfirst
      have hwritten : (written line.first (action::rest)).dropWhile isSpace=
          opens++(action.1++(closes++written action.2 rest)) := by
        rw [written_cons]
        exact dropWhile_blank hblank (by decide) _
      have hhead : (action.1++(closes++written action.2 rest)).head?≠some hyphen := by
        cases hinner : action.1 with
        | nil =>
          change some 0x7d≠some hyphen
          decide
        | cons c inner =>
          have h := (line.untrimmed action haction).1
          rw [hinner] at h
          exact h
      have hafter : afterAction (opens++(action.1++(closes++written action.2 rest)))=
          some ((action.1++(closes++written action.2 rest)).dropWhile isSpace) := by
        rw [afterAction,if_pos (List.prefix_append _ _),List.drop_left]
        dsimp only
        rw [if_neg hhead]
      rw [hwritten,hafter,Option.any_some]
      refine eq_false_of_ne_true (fun hfound => ?_)
      have hword := takeWhile_of_wordThen hfound
      rw [takeWhile_firstWord] at hword
      exact line.scalar action haction (controlWords_keywords hword)

/-- Where nothing is indented as a block, nothing is taken for one. -/
theorem isInjected_line (line : Line words) : isInjected words.isWord line.source=false := by
  rw [isInjected,List.any_eq_false]
  intro tail htail hfound
  cases hafter : afterAction tail with
  | none =>
    rw [hafter] at hfound
    cases hfound
  | some inner =>
    rw [hafter,Option.any_some,wordThen,List.any_eq_true] at hfound
    obtain ⟨word,-,hfound⟩ := hfound
    rw [Bool.and_eq_true,decide_eq_true_eq] at hfound
    have hinner : inner<:+tail := by
      rw [afterAction] at hafter
      split at hafter
      · dsimp only at hafter
        rw [←Option.some.inj hafter]
        have hdrop := List.drop_suffix opens.length tail
        refine (List.dropWhile_suffix _).trans ?_
        split
        · exact (List.drop_suffix 1 _).trans hdrop
        · exact hdrop
      · cases hafter
    have hsource : tail<:+line.source := (List.mem_tails _ _).mp htail
    exact line.inline (hfound.2.trans
      (((List.drop_suffix _ _).trans hinner).trans hsource).isInfix)

/-- A line is kept with its placeholders. -/
theorem keep_line (line : Line words) :
    keep words.isWord line.source=some (line.shown (fun _ => placeholder)) := by
  have hcontrol : ¬(isControl words.isWord line.source=true ∧ isValue line.source=false) := by
    rw [isControl_line]
    exact fun h => Bool.false_ne_true h.1
  rw [keep,if_neg hcontrol,isInjected_line,if_neg Bool.false_ne_true]
  exact congrArg some (inlined_parts line.first line.rest line.separable.1 line.separable.2
    line.closed)

/-- What is kept of a template are its lines, in their order. -/
theorem filterMap_source (template : Template words) :
    template.source.filterMap (keep words.isWord)=
      template.lines.map (Line.shown (fun _ => placeholder)) := by
  induction template with
  | done => rfl
  | line shown rest ih =>
    simp [Template.source,Template.lines,keep_line,ih]
  | injected block rest ih =>
    simp [Template.source,Template.lines,keep_injected,ih]
  | guarded opener closer body rest ihb ih =>
    simp [Template.source,Template.lines,keep_condition,keep_ending,ihb,ih]
  | choice opener middle closer body alternative rest ihb iha ih =>
    simp [Template.source,Template.lines,keep_condition,keep_alternative,keep_ending,ihb,iha,ih]
  | repeated opener closer body rest ihb ih =>
    simp [Template.source,Template.lines,keep_range,keep_ending,ihb,ih]

theorem lineFree_opens : LineFree opens :=
  lineFree_literal ['\x7b','\x7b'] (by decide)

theorem lineFree_closes : LineFree closes :=
  lineFree_literal ['\x7d','\x7d'] (by decide)

/-- A line of its own is one line in the source. -/
theorem Line.lineFree_source (line : Line words) : LineFree line.source := by
  have hactions : ∀ rest : List (Str×Str),
      (∀ action∈rest,LineFree action.1 ∧ LineFree action.2) →
        LineFree (rest.flatMap (fun action => opens++action.1++closes++action.2)) := by
    intro rest hr
    induction rest with
    | nil => exact lineFree_nil
    | cons action rest ih =>
      obtain ⟨hinner,htext⟩ := hr action List.mem_cons_self
      rw [List.flatMap_cons,lineFree_append,lineFree_append,lineFree_append,lineFree_append]
      exact ⟨⟨⟨⟨lineFree_opens,hinner⟩,lineFree_closes⟩,htext⟩,
        ih (fun other h => hr other (List.mem_cons_of_mem _ h))⟩
  exact lineFree_append.mpr ⟨line.lineFree.1,hactions _ line.lineFree.2⟩

theorem lineFree_word {word : Str} (h : word∈controlWords ∨ word∈blockFunctions) :
    LineFree word := by
  have hall : (controlWords++blockFunctions).all (fun word => word.all (fun c => !isSpace c))=
      true := by decide
  refine lineFree_of_not_space (fun c hc => ?_)
  have hword := List.all_eq_true.mp hall word (List.mem_append.mpr h)
  exact Bool.not_eq_true' _ ▸ List.all_eq_true.mp hword c hc

theorem Opening.lineFree_source (opening : Opening) : LineFree opening.source := by
  have htrims : LineFree (if opening.trims=true then [hyphen] else []) := by
    split
    · exact lineFree_literal ['-'] (by decide)
    · exact lineFree_nil
  rw [Opening.source]
  simp only [lineFree_append]
  exact ⟨opening.lineFree.1,lineFree_opens,htrims,opening.lineFree.2⟩

theorem Closing.lineFree_source (closing : Closing) : LineFree closing.source :=
  lineFree_append.mpr ⟨lineFree_closes,closing.lineFree⟩

/-- So is one of control flow, -/
theorem Control.lineFree_source {allowed : List Str} (line : Control words allowed)
    (hallowed : ∀ word∈allowed,word∈controlWords) : LineFree line.source := by
  rw [Control.source]
  simp only [lineFree_append]
  exact ⟨line.opening.lineFree_source,lineFree_word (.inl (hallowed _ line.known)),
    line.argument.lineFree,line.closing.lineFree_source⟩

/-- and an injected block. -/
theorem Injected.lineFree_source (line : Injected words) : LineFree line.source := by
  rw [Injected.source]
  simp only [lineFree_append]
  exact ⟨line.opening.lineFree_source,lineFree_word (.inr line.known),
    ⟨⟨line.argument.lineFree,lineFree_literal ['n','i','n','d','e','n','t'] (by decide)⟩,
      line.depth.lineFree⟩,line.closing.lineFree_source⟩

theorem lineFree_of_mem_cons {first : Str} {rest : List Str} (hfirst : LineFree first)
    (hrest : ∀ line∈rest,LineFree line) {line : Str} (hl : line∈first::rest) : LineFree line := by
  rcases List.mem_cons.mp hl with rfl | hl
  · exact hfirst
  · exact hrest line hl

/-- So is every line of a template. -/
theorem Template.lineFree_source (template : Template words) :
    ∀ line∈template.source,LineFree line := by
  induction template with
  | done => intro line hl; cases hl
  | line shown rest ih =>
    intro line hl
    exact lineFree_of_mem_cons shown.lineFree_source ih hl
  | injected block rest ih =>
    intro line hl
    exact lineFree_of_mem_cons block.lineFree_source ih hl
  | guarded opener closer body rest ihb ih =>
    intro line hl
    rcases List.mem_append.mp hl with hl | hl
    · exact lineFree_of_mem_cons (opener.lineFree_source (by decide)) ihb hl
    · exact lineFree_of_mem_cons (closer.lineFree_source (by decide)) ih hl
  | choice opener middle closer body alternative rest ihb iha ih =>
    intro line hl
    rcases List.mem_append.mp hl with hl | hl
    · rcases List.mem_append.mp hl with hl | hl
      · exact lineFree_of_mem_cons (opener.lineFree_source (by decide)) ihb hl
      · exact lineFree_of_mem_cons (middle.lineFree_source (by decide)) iha hl
    · exact lineFree_of_mem_cons (closer.lineFree_source (by decide)) ih hl
  | repeated opener closer body rest ihb ih =>
    intro line hl
    rcases List.mem_append.mp hl with hl | hl
    · exact lineFree_of_mem_cons (opener.lineFree_source (by decide)) ihb hl
    · exact lineFree_of_mem_cons (closer.lineFree_source (by decide)) ih hl

/-- Every template has a rendering. -/
theorem exists_renders (template : Template words) : ∃ out,Renders template out := by
  induction template with
  | done => exact ⟨[],.done⟩
  | line shown rest ih => exact ih.imp' _ (fun _ h => .line h)
  | injected block rest ih => exact ih.imp (fun _ h => .injected h)
  | guarded opener closer body rest ihb ih => exact ih.imp (fun _ h => .skipped h)
  | choice opener middle closer body alternative rest ihb iha ih =>
    obtain ⟨inner,hi⟩ := ihb
    exact ih.imp' _ (fun _ h => .chosen hi h)
  | repeated opener closer body rest ihb ih => exact ih.imp (fun _ h => .last h)

/-- What a rendering shows is a line of the template. -/
theorem Renders.mem_lines {template : Template words} {out : List (Line words)}
    (h : Renders template out) {line : Line words} (hl : line∈out) : line∈template.lines := by
  induction h with
  | done => exact hl
  | line hrest ih =>
    rcases List.mem_cons.mp hl with rfl | hl
    · exact List.mem_cons_self
    · exact List.mem_cons_of_mem _ (ih hl)
  | injected hrest ih => exact ih hl
  | taken hbody hrest ihb ih =>
    exact List.mem_append.mpr ((List.mem_append.mp hl).imp ihb ih)
  | skipped hrest ih => exact List.mem_append_right _ (ih hl)
  | chosen hbody hrest ihb ih =>
    exact List.mem_append.mpr ((List.mem_append.mp hl).imp
      (fun h => List.mem_append_left _ (ihb h)) ih)
  | otherwise hbody hrest ihb ih =>
    exact List.mem_append.mpr ((List.mem_append.mp hl).imp
      (fun h => List.mem_append_right _ (ihb h)) ih)
  | last hrest ih => exact List.mem_append_right _ (ih hl)
  | round hbody hrest ihb ih =>
    rcases List.mem_append.mp hl with hl | hl
    · exact List.mem_append_left _ (ihb hl)
    · exact ih hl

/-- Every line of a template is shown by some rendering. -/
theorem exists_renders_of_mem {template : Template words} {line : Line words}
    (h : line∈template.lines) : ∃ out,Renders template out ∧ line∈out := by
  induction template with
  | done => cases h
  | line shown rest ih =>
    rcases List.mem_cons.mp h with rfl | h
    · obtain ⟨out,ho⟩ := exists_renders rest
      exact ⟨_,.line ho,List.mem_cons_self⟩
    · obtain ⟨out,ho,hm⟩ := ih h
      exact ⟨_,.line ho,List.mem_cons_of_mem _ hm⟩
  | injected block rest ih =>
    obtain ⟨out,ho,hm⟩ := ih h
    exact ⟨out,.injected ho,hm⟩
  | guarded opener closer body rest ihb ih =>
    rcases List.mem_append.mp h with h | h
    · obtain ⟨inner,hi,hm⟩ := ihb h
      obtain ⟨out,ho⟩ := exists_renders rest
      exact ⟨_,.taken hi ho,List.mem_append_left _ hm⟩
    · obtain ⟨out,ho,hm⟩ := ih h
      exact ⟨out,.skipped ho,hm⟩
  | choice opener middle closer body alternative rest ihb iha ih =>
    rcases List.mem_append.mp h with h | h
    · obtain ⟨out,ho⟩ := exists_renders rest
      rcases List.mem_append.mp h with h | h
      · obtain ⟨inner,hi,hm⟩ := ihb h
        exact ⟨_,.chosen hi ho,List.mem_append_left _ hm⟩
      · obtain ⟨inner,hi,hm⟩ := iha h
        exact ⟨_,.otherwise hi ho,List.mem_append_left _ hm⟩
    · obtain ⟨inner,hi⟩ := exists_renders body
      obtain ⟨out,ho,hm⟩ := ih h
      exact ⟨_,.chosen hi ho,List.mem_append_right _ hm⟩
  | repeated opener closer body rest ihb ih =>
    rcases List.mem_append.mp h with h | h
    · obtain ⟨inner,hi,hm⟩ := ihb h
      obtain ⟨out,ho⟩ := exists_renders rest
      exact ⟨_,.round hi (.last ho),List.mem_append_left _ hm⟩
    · obtain ⟨out,ho,hm⟩ := ih h
      exact ⟨out,.last ho,hm⟩

/-- No `range` is in it, as in the chart. -/
def Template.rangeFree : Template words→Bool
  | .done => true
  | .line _ rest => rest.rangeFree
  | .injected _ rest => rest.rangeFree
  | .guarded _ _ body rest => body.rangeFree && rest.rangeFree
  | .choice _ _ _ body alternative rest =>
    body.rangeFree && alternative.rangeFree && rest.rangeFree
  | .repeated _ _ _ _ => false

/-- Without a range, a rendering keeps the order of the source and shows a line
no more often than it stands there. -/
theorem Renders.sublist {template : Template words} {out : List (Line words)}
    (h : Renders template out) (hfree : template.rangeFree=true) : out.Sublist template.lines := by
  induction h with
  | done => exact List.Sublist.refl _
  | line hrest ih => exact (ih hfree).cons_cons _
  | injected hrest ih => exact ih hfree
  | taken hbody hrest ihb ih =>
    rw [Template.rangeFree,Bool.and_eq_true] at hfree
    exact (ihb hfree.1).append (ih hfree.2)
  | skipped hrest ih =>
    rw [Template.rangeFree,Bool.and_eq_true] at hfree
    exact (ih hfree.2).trans (List.sublist_append_right _ _)
  | chosen hbody hrest ihb ih =>
    rw [Template.rangeFree,Bool.and_eq_true,Bool.and_eq_true] at hfree
    exact ((ihb hfree.1.1).trans (List.sublist_append_left _ _)).append (ih hfree.2)
  | otherwise hbody hrest ihb ih =>
    rw [Template.rangeFree,Bool.and_eq_true,Bool.and_eq_true] at hfree
    exact ((ihb hfree.1.2).trans (List.sublist_append_right _ _)).append (ih hfree.2)
  | last hrest ih => cases hfree
  | round hbody hrest ihb ih => cases hfree

/-- The word characters of ASCII. -/
def asciiWord (c : CodePoint) : Bool :=
  (0x30 ≤ c.val && c.val≤0x39) || (0x41 ≤ c.val && c.val≤0x5a) || c.val==0x5f ||
    (0x61 ≤ c.val && c.val≤0x7a)

example : pseudoRender asciiWord (str "kind: Service\nspec:\n  \x7b\x7b- if .Values.on \x7d\x7d\n"++
    str "  port: \x7b\x7b .Values.port \x7d\x7d\n  \x7b\x7b- end \x7d\x7d\n  labels:\n"++
    str "    \x7b\x7b- include \"labels\" . | nindent 4 \x7d\x7d\n  none: \x7b\x7d\n")=
    str "kind: Service\nspec:\n  port: PLACEHOLDER\n  labels:\n  none: \x7b\x7d" := by
  decide +kernel

end MlopsPlatform.ChartTemplates
