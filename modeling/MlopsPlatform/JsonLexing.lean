import MlopsPlatform.JsonRoundTrip

/-!
# What the scanner of JSON consumes

Whatever the scanner accepts is, character by character, text outside of strings
and literals that are closed again; its bound on steps never decides. So two
readings of one text that start in opposite places, one inside of a literal and
one outside, stay opposite, and neither of them gets past a backslash.
-/

namespace MlopsPlatform.JsonLexing

open TextCodec PythonJson JsonStrings JsonText JsonRoundTrip

/-- The characters of a document outside of its strings. -/
def isOuter (c : CodePoint) : Bool :=
  isBlank c || isDigit c || (0x41 ≤ c.val && c.val≤0x5b) || c=0x5d ||
    (0x61 ≤ c.val && c.val≤0x7b) || c=0x7d || (0x2b ≤ c.val && c.val≤0x2e) || c=0x3a

/-- Where in a document a reader is. -/
inductive Place where
  /-- Outside of every string. -/
  | outside
  /-- In a literal. -/
  | inside
  /-- In a literal, behind the backslash of an escape. -/
  | escape
deriving DecidableEq

/-- Reading one character. -/
def lexStep : Place → CodePoint→Option Place
  | .outside,c => if c=quote then some .inside else if isOuter c=true then some .outside else none
  | .inside,c =>
    if c=quote then some .outside
    else if c=backslash then some .escape
    else if c.val<0x20 then none
    else some .inside
  | .escape,c => if c=letterU ∨ (unescapeLetter c).isSome=true then some .inside else none

/-- Reading a text. -/
def lex (place : Place) (s : Str) : Option Place := s.foldlM lexStep place

theorem lexStep_outside (c : CodePoint) : lexStep .outside c=
    if c=quote then some .inside else if isOuter c=true then some .outside else none := rfl

theorem lexStep_inside (c : CodePoint) : lexStep .inside c=
    if c=quote then some .outside
    else if c=backslash then some .escape
    else if c.val<0x20 then none
    else some .inside := rfl

theorem lex_cons (place : Place) (c : CodePoint) (s : Str) :
    lex place (c::s)=(lexStep place c).bind (fun next => lex next s) := rfl

theorem lex_append (place : Place) (s t : Str) :
    lex place (s++t)=(lex place s).bind (fun next => lex next t) := List.foldlM_append

/-- A text that can be read to its end can be read up to any place in it. -/
theorem lex_append_some {place last : Place} {s t : Str} (h : lex place (s++t)=some last) :
    ∃ next,lex place s=some next ∧ lex next t=some last := by
  rw [lex_append] at h
  exact Option.bind_eq_some_iff.mp h

theorem quote_not_outer : isOuter quote=false := by decide

theorem backslash_not_outer : isOuter backslash=false := by decide

/-- Text outside of strings is read outside. -/
theorem lex_outer {s : Str} (h : ∀ c∈s,isOuter c=true) : lex .outside s=some .outside := by
  induction s with
  | nil => rfl
  | cons c s ih =>
    have hc := h c List.mem_cons_self
    have hquote : c≠quote := by
      rintro rfl
      rw [quote_not_outer] at hc
      cases hc
    rw [lex_cons,lexStep_outside,if_neg hquote,if_pos hc,Option.bind_some]
    exact ih (fun d hd => h d (List.mem_cons_of_mem c hd))

/-- Readings from opposite places stay opposite and meet no backslash. -/
theorem lex_opposite {s : Str} {left right : Place} (hleft : lex .outside s=some left)
    (hright : lex .inside s=some right) :
    backslash∉s ∧ (left=.outside ∧ right=.inside ∨ left=.inside ∧ right=.outside) := by
  induction s generalizing left right with
  | nil =>
    cases hleft
    cases hright
    exact ⟨List.not_mem_nil,.inl ⟨rfl,rfl⟩⟩
  | cons c s ih =>
    rw [lex_cons,lexStep_outside] at hleft
    rw [lex_cons,lexStep_inside] at hright
    by_cases hquote : c=quote
    · subst hquote
      rw [if_pos rfl,Option.bind_some] at hleft hright
      obtain ⟨hnot,hplaces⟩ := ih hright hleft
      refine ⟨fun hm => ?_,?_⟩
      · rcases List.mem_cons.mp hm with he|hm
        · exact absurd he (by decide)
        · exact hnot hm
      · rcases hplaces with ⟨hr,hl⟩|⟨hr,hl⟩
        · exact .inr ⟨hl,hr⟩
        · exact .inl ⟨hl,hr⟩
    · rw [if_neg hquote] at hleft hright
      by_cases houter : isOuter c=true
      · have hslash : c≠backslash := by
          rintro rfl
          rw [backslash_not_outer] at houter
          cases houter
        rw [if_pos houter,Option.bind_some] at hleft
        rw [if_neg hslash] at hright
        by_cases hcontrol : c.val<0x20
        · rw [if_pos hcontrol] at hright
          cases hright
        · rw [if_neg hcontrol,Option.bind_some] at hright
          obtain ⟨hnot,hplaces⟩ := ih hleft hright
          refine ⟨fun hm => ?_,hplaces⟩
          rcases List.mem_cons.mp hm with he|hm
          · exact hslash he.symm
          · exact hnot hm
      · rw [if_neg houter] at hleft
        cases hleft

/-- The reader went from one text to the rest of it, over a whole part of a
document; strings it found stand there as they are if nothing is escaped. -/
def Consumed (s rest : Str) (found : List Str) : Prop :=
  ∃ text,s=text++rest ∧ lex .outside text=some .outside ∧
    (backslash∉text → ∀ t∈found,t<:+:text)

theorem Consumed.trans {s rest rest' : Str} {found found' : List Str}
    (h : Consumed s rest found) (h' : Consumed rest rest' found') :
    Consumed s rest' (found++found') := by
  obtain ⟨text,rfl,hlex,hfound⟩ := h
  obtain ⟨text',rfl,hlex',hfound'⟩ := h'
  refine ⟨text++text',(List.append_assoc text text' rest').symm,?_,fun hslash t ht => ?_⟩
  · rw [lex_append,hlex]
    exact hlex'
  · rw [List.mem_append,not_or] at hslash
    rcases List.mem_append.mp ht with ht|ht
    · exact (hfound hslash.1 t ht).trans (List.prefix_append text text').isInfix
    · exact (hfound' hslash.2 t ht).trans (List.suffix_append text text').isInfix

theorem consumed_outer {text : Str} (h : ∀ c∈text,isOuter c=true) (rest : Str) :
    Consumed (text++rest) rest [] :=
  ⟨text,rfl,lex_outer h,fun _ _ ht => absurd ht List.not_mem_nil⟩

theorem consumed_cons {c : CodePoint} (h : isOuter c=true) (rest : Str) :
    Consumed (c::rest) rest [] :=
  @consumed_outer [c] (fun d hd => by rwa [List.mem_singleton.mp hd]) rest

theorem consumed_skipBlanks (s : Str) : Consumed s (skipBlanks s) [] := by
  have hblank : ∀ c∈s.takeWhile isBlank,isOuter c=true := by
    intro c hc
    have hc := List.mem_takeWhile_imp hc
    simp only [isOuter,hc,Bool.true_or]
  have h := consumed_outer hblank (skipBlanks s)
  rwa [skipBlanks,List.takeWhile_append_dropWhile] at h

/-- A delimiter behind whitespace. -/
theorem consumed_delimiter {s rest : Str} {c : CodePoint} (h : skipBlanks s=c::rest)
    (hc : isOuter c=true) : Consumed s rest [] := by
  have hblanks := consumed_skipBlanks s
  rw [h] at hblanks
  exact hblanks.trans (consumed_cons hc rest)

/-- Where the reader of a literal is between two characters of it. -/
def placeOf : Mode→Place
  | .plain => .inside
  | .escape => .escape
  | .hex _ _ => .inside

theorem hexValue_inside {c : CodePoint} {d : ℕ} (h : hexValue c=some d) :
    lexStep .inside c=some .inside := by
  have hbounds : 0x30 ≤ c.val ∧ c.val≤0x39 ∨ 0x61 ≤ c.val ∧ c.val≤0x66 ∨ 0x41 ≤ c.val ∧ c.val≤0x46 := by
    unfold hexValue at h
    split_ifs at h with h1 h2 h3
    · exact .inl h1
    · exact .inr (.inl h2)
    · exact .inr (.inr h3)
  have hquote : c≠quote := by
    rintro rfl
    exact absurd hbounds (by decide)
  have hslash : c≠backslash := by
    rintro rfl
    exact absurd hbounds (by decide)
  rw [lexStep_inside,if_neg hquote,if_neg hslash,if_neg (by omega)]

/-- What the reader of a literal does with one character: it stops, or goes on from
the next place; outside of escapes it keeps the character. -/
theorem scanUnits_cases {mode : Mode} {c : CodePoint} {s rest : Str} {found : List Unit16}
    (h : scanUnits mode (c::s)=some (found,rest)) :
    mode=.plain ∧ c=quote ∧ found=[] ∧ rest=s ∨
      ∃ mode' found',scanUnits mode' s=some (found',rest) ∧
        lexStep (placeOf mode) c=some (placeOf mode') ∧
        (mode=.plain → c≠backslash → mode'=.plain ∧ found=(false,c)::found') := by
  rw [scanUnits.eq_def] at h
  cases mode with
  | plain =>
    dsimp only at h
    split_ifs at h with hquote hslash hcontrol
    · cases h
      exact .inl ⟨rfl,hquote,rfl,rfl⟩
    · have hplace : lexStep .inside c=some .escape := by
        rw [lexStep_inside,if_neg hquote,if_pos hslash]
      exact .inr ⟨_,_,h,hplace,fun _ hne => absurd hslash hne⟩
    · have hplace : lexStep .inside c=some .inside := by
        rw [lexStep_inside,if_neg hquote,if_neg hslash,if_neg hcontrol]
      obtain ⟨⟨found',rest'⟩,hscan,heq⟩ := Option.map_eq_some_iff.mp h
      cases heq
      exact .inr ⟨_,_,hscan,hplace,fun _ _ => ⟨rfl,rfl⟩⟩
  | escape =>
    dsimp only at h
    split_ifs at h with hu
    · exact .inr ⟨_,_,h,if_pos (.inl hu),fun hmode => by cases hmode⟩
    · cases hletter : unescapeLetter c with
      | none => simp only [hletter,reduceCtorEq] at h
      | some d =>
        have hplace : lexStep .escape c=some .inside := if_pos (.inr (by rw [hletter]; rfl))
        simp only [hletter] at h
        obtain ⟨⟨found',rest'⟩,hscan,heq⟩ := Option.map_eq_some_iff.mp h
        cases heq
        exact .inr ⟨_,_,hscan,hplace,fun hmode => by cases hmode⟩
  | hex left value =>
    dsimp only at h
    cases hdigit : hexValue c with
    | none => simp only [hdigit,reduceCtorEq] at h
    | some d =>
      have hplace := hexValue_inside hdigit
      simp only [hdigit] at h
      split_ifs at h with hleft
      · obtain ⟨⟨found',rest'⟩,hscan,heq⟩ := Option.map_eq_some_iff.mp h
        cases heq
        exact .inr ⟨_,_,hscan,hplace,fun hmode => by cases hmode⟩
      · exact .inr ⟨_,_,h,hplace,fun hmode => by cases hmode⟩

/-- The reader of a literal stops behind its closing quote; without escapes it
finds the characters that stand there. -/
theorem lex_of_scanUnits {mode : Mode} {s rest : Str} {found : List Unit16}
    (h : scanUnits mode s=some (found,rest)) :
    ∃ body,s=body++quote::rest ∧ lex (placeOf mode) (body++[quote])=some .outside ∧
      (mode=.plain → backslash∉body → found=body.map (fun c => (false,c))) := by
  induction s generalizing mode found with
  | nil => cases mode <;> cases h
  | cons c s ih =>
    rcases scanUnits_cases h with ⟨rfl,rfl,rfl,rfl⟩|⟨mode',found',hscan,hplace,hplain⟩
    · exact ⟨[],rfl,rfl,fun _ _ => rfl⟩
    · obtain ⟨body,hs,hlex,hfound⟩ := ih hscan
      refine ⟨c::body,by rw [hs]; rfl,?_,fun hmode hnot => ?_⟩
      · rw [List.cons_append,lex_cons,hplace]
        exact hlex
      · rw [List.mem_cons,not_or] at hnot
        obtain ⟨hnext,hhead⟩ := hplain hmode (fun h => hnot.1 h.symm)
        rw [hhead,List.map_cons,←hfound hnext hnot.2]

/-- Characters that are not escaped are not joined. -/
theorem joinUnits_unescaped (body : Str) : joinUnits (body.map (fun c => (false,c)))=body := by
  induction body with
  | nil => rfl
  | cons c body ih =>
    cases body with
    | nil => rfl
    | cons d body =>
      rw [List.map_cons,List.map_cons,joinUnits,if_neg (fun h => Bool.false_ne_true h.1)]
      exact congrArg (List.cons c) ih

/-- The reader consumes a whole literal. -/
theorem consumed_string {s rest t : Str} (h : scanString s=some (t,rest)) :
    Consumed (quote::s) rest [t] := by
  obtain ⟨⟨found,rest'⟩,hscan,heq⟩ := Option.map_eq_some_iff.mp h
  cases heq
  obtain ⟨body,hs,hlex,hfound⟩ := lex_of_scanUnits hscan
  refine ⟨quote::(body++[quote]),?_,?_,fun hnot t ht => ?_⟩
  · rw [hs,List.cons_append,List.append_assoc]
    rfl
  · exact hlex
  · rw [List.mem_cons,List.mem_append,not_or,not_or] at hnot
    rw [List.mem_singleton.mp ht,hfound rfl hnot.2.1,joinUnits_unescaped]
    exact ⟨[quote],[quote],rfl⟩

theorem length_scanString {s rest t : Str} (h : scanString s=some (t,rest)) :
    rest.length < s.length := by
  obtain ⟨⟨found,rest'⟩,hscan,heq⟩ := Option.map_eq_some_iff.mp h
  cases heq
  obtain ⟨body,hs,-⟩ := lex_of_scanUnits hscan
  rw [hs,List.length_append,List.length_cons]
  dsimp only
  omega

theorem length_skipBlanks (s : Str) : (skipBlanks s).length ≤ s.length :=
  List.length_dropWhile_le _ _

theorem length_delimiter {s rest : Str} {c : CodePoint} (h : skipBlanks s=c::rest) :
    rest.length < s.length := by
  have hle := length_skipBlanks s
  rw [h,List.length_cons] at hle
  omega

/-- The key of a member and its colon. -/
theorem consumed_key {s rest key : Str} (h : scanKey s=some (key,rest)) :
    Consumed s rest [key] ∧ rest.length < s.length := by
  cases s with
  | nil => cases h
  | cons c s =>
    rw [scanKey] at h
    split_ifs at h with hquote
    obtain ⟨⟨t,r⟩,hscan,hnext⟩ := Option.bind_eq_some_iff.mp h
    dsimp only at hnext
    cases hr : skipBlanks r with
    | nil => simp only [hr,reduceCtorEq] at hnext
    | cons d r' =>
      simp only [hr] at hnext
      split_ifs at hnext with hcolon
      cases hnext
      have hd : isOuter d=true := by
        rw [hcolon]
        decide
      rw [hquote]
      refine ⟨(consumed_string hscan).trans
        ((consumed_delimiter hr hd).trans (consumed_skipBlanks r')),?_⟩
      have hstring := length_scanString hscan
      have hcolon := length_delimiter hr
      have hblanks := length_skipBlanks r'
      rw [List.length_cons]
      omega

theorem isOuter_digit {c : CodePoint} (hc : isDigit c=true) : isOuter c=true := by
  simp only [isOuter,hc,Bool.true_or,Bool.or_true]

theorem outer_digits (s : Str) : ∀ c∈s.takeWhile isDigit,isOuter c=true :=
  fun _ hc => isOuter_digit (List.mem_takeWhile_imp hc)

/-- A part of a text in front, all of it characters outside of strings. -/
def Splits (s : Str) (parts : Str×Str) : Prop :=
  s=parts.1++parts.2 ∧ ∀ c∈parts.1,isOuter c=true

theorem splits_nil (s : Str) : Splits s ([],s) := ⟨rfl,fun _ h => absurd h List.not_mem_nil⟩

theorem splits_cons {c : CodePoint} {s : Str} {parts : Str×Str} (hc : isOuter c=true)
    (h : Splits s parts) : Splits (c::s) (c::parts.1,parts.2) := by
  refine ⟨congrArg (List.cons c) h.1,fun d hd => ?_⟩
  rcases List.mem_cons.mp hd with rfl|hd
  · exact hc
  · exact h.2 d hd

theorem splits_digits (s : Str) : Splits s (s.takeWhile isDigit,s.dropWhile isDigit) :=
  ⟨(List.takeWhile_append_dropWhile).symm,outer_digits s⟩

theorem splits_append {s t : Str} {first second : Str×Str} (h : Splits s first)
    (ht : first.2=t) (h' : Splits t second) : Splits s (first.1++second.1,second.2) := by
  subst ht
  refine ⟨?_,fun c hc => ?_⟩
  · rw [List.append_assoc,←h'.1]
    exact h.1
  · rcases List.mem_append.mp hc with hc|hc
    · exact h.2 c hc
    · exact h'.2 c hc

theorem splits_signPart (s : Str) : Splits s (signPart s) := by
  cases s with
  | nil => exact splits_nil []
  | cons c s =>
    rw [signPart]
    split_ifs with hc
    · exact splits_cons (by rw [hc]; decide) (splits_nil s)
    · exact splits_nil (c::s)

theorem splits_integerPart {s : Str} {parts : Str×Str} (h : integerPart s=some parts) :
    Splits s parts ∧ parts.1≠[] := by
  cases s with
  | nil => cases h
  | cons c s =>
    rw [integerPart] at h
    split_ifs at h with hzero hdigit
    · cases h
      exact ⟨splits_cons (by rw [hzero]; decide) (splits_nil s),List.cons_ne_nil _ _⟩
    · cases h
      exact ⟨splits_cons (isOuter_digit hdigit) (splits_digits s),List.cons_ne_nil _ _⟩

theorem splits_fractionPart (s : Str) : Splits s (fractionPart s) := by
  match s with
  | [] => exact splits_nil []
  | [c] => exact splits_nil [c]
  | c::d::s =>
    rw [fractionPart]
    split_ifs with h
    · exact splits_cons (by rw [h.1]; decide)
        (splits_cons (isOuter_digit h.2) (splits_digits s))
    · exact splits_nil _

theorem splits_exponentPart (s : Str) : Splits s (exponentPart s) := by
  cases s with
  | nil => exact splits_nil []
  | cons c s =>
    have hsign : Splits s (exponentSign s) := by
      cases s with
      | nil => exact splits_nil []
      | cons d s =>
        rw [exponentSign]
        split_ifs with hd
        · exact splits_cons (by rcases hd with rfl|rfl <;> decide) (splits_nil s)
        · exact splits_nil _
    rw [exponentPart]
    split_ifs with h
    · exact splits_cons (by rcases h.1 with rfl|rfl <;> decide)
        (splits_append hsign rfl (splits_digits (exponentSign s).2))
    · exact splits_nil _

/-- A numeral stands in front of what follows it. -/
theorem splits_scanNumber {s : Str} {found : Numeral} (h : scanNumber s=some found) :
    Splits s (found.text,found.rest) ∧ found.text≠[] := by
  rw [scanNumber] at h
  obtain ⟨whole,hwhole,rfl⟩ := Option.map_eq_some_iff.mp h
  obtain ⟨hsplits,hne⟩ := splits_integerPart hwhole
  have hfirst := splits_append (splits_signPart s) rfl hsplits
  have hsecond := splits_append hfirst rfl (splits_fractionPart whole.2)
  refine ⟨splits_append hsecond rfl (splits_exponentPart (fractionPart whole.2).2),?_⟩
  dsimp only
  simp only [ne_eq,List.append_eq_nil_iff,not_and]
  intro hnone
  exact absurd hnone.1.2 hne

/-- Words are text outside of strings. -/
theorem words_outer {word : Str×Json} (h : word∈words) :
    (∀ c∈word.1,isOuter c=true) ∧ word.1≠[] ∧ strings word.2=[] := by
  simp only [words,List.mem_cons,List.not_mem_nil,or_false] at h
  rcases h with rfl|rfl|rfl|rfl|rfl|rfl <;> exact ⟨List.all_eq_true.mp (by decide),by decide,rfl⟩

section Scanner

variable {floatOf : Str→Str}

/-- Words and numerals carry no strings. -/
theorem consumed_atom {s rest : Str} {v : Json} (h : scanAtom floatOf s=some (v,rest)) :
    Consumed s rest (strings v) ∧ rest.length < s.length := by
  rw [scanAtom] at h
  cases hword : scanWord s with
  | some found =>
    rw [hword,Option.some_or] at h
    cases h
    obtain ⟨⟨word,value⟩,hmem,hfound⟩ := List.exists_of_findSome?_eq_some hword
    obtain ⟨left,hfront,heq⟩ := Option.map_eq_some_iff.mp hfound
    cases heq
    obtain ⟨houter,hne,hstrings⟩ := words_outer hmem
    dsimp only at houter hne hstrings
    rw [eq_of_isPrefixOf? hfront,hstrings]
    refine ⟨consumed_outer houter rest,?_⟩
    have hpos := List.length_pos_iff.mpr hne
    rw [List.length_append]
    dsimp only
    omega
  | none =>
    rw [hword,Option.none_or] at h
    obtain ⟨found,hnumber,heq⟩ := Option.map_eq_some_iff.mp h
    cases heq
    obtain ⟨⟨hs,houter⟩,hne⟩ := splits_scanNumber hnumber
    have hstrings : strings (numberValue floatOf found)=[] := by
      rw [numberValue]
      split_ifs <;> rfl
    rw [hstrings]
    constructor
    · have hconsumed := consumed_outer houter found.rest
      rwa [←hs] at hconsumed
    · have hlength := congrArg List.length hs
      have hpos := List.length_pos_iff.mpr hne
      rw [List.length_append] at hlength
      dsimp only at hlength
      omega

/-- What `scan_once` has seen when it returns a value. -/
theorem scanOnce_cases {n : ℕ} {s rest : Str} {v : Json}
    (h : scanOnce floatOf n s=some (v,rest)) : ∃ m c s',n=m+1 ∧ s=c::s' ∧
      (c=quote ∧ (∃ t,scanString s'=some (t,rest) ∧ v=.str t) ∨
        c=0x7b ∧ (∃ d r,skipBlanks s'=d::r ∧ (d=0x7d ∧ rest=r ∧ v=.dict [] ∨
          d≠0x7d ∧ ∃ members,scanMembers floatOf m (d::r)=some (members,rest) ∧
            v=.dict (buildDict members))) ∨
        c=0x5b ∧ (∃ d r,skipBlanks s'=d::r ∧ (d=0x5d ∧ rest=r ∧ v=.list [] ∨
          d≠0x5d ∧ ∃ items,scanItems floatOf m (d::r)=some (items,rest) ∧ v=.list items)) ∨
        (c≠quote ∧ c≠0x7b ∧ c≠0x5b) ∧ scanAtom floatOf (c::s')=some (v,rest)) := by
  cases n with
  | zero => cases h
  | succ m =>
    cases s with
    | nil => cases h
    | cons c s =>
      refine ⟨m,c,s,rfl,rfl,?_⟩
      rw [scanOnce] at h
      split_ifs at h with hquote hbrace hbracket
      · obtain ⟨⟨t,r⟩,hscan,heq⟩ := Option.map_eq_some_iff.mp h
        cases heq
        exact .inl ⟨hquote,t,hscan,rfl⟩
      · refine .inr (.inl ⟨hbrace,?_⟩)
        cases hr : skipBlanks s with
        | nil => simp only [hr,reduceCtorEq] at h
        | cons d r =>
          simp only [hr] at h
          refine ⟨d,r,rfl,?_⟩
          split_ifs at h with hd
          · cases h
            exact .inl ⟨hd,rfl,rfl⟩
          · obtain ⟨⟨members,r'⟩,hscan,heq⟩ := Option.map_eq_some_iff.mp h
            cases heq
            exact .inr ⟨hd,members,hscan,rfl⟩
      · refine .inr (.inr (.inl ⟨hbracket,?_⟩))
        cases hr : skipBlanks s with
        | nil => simp only [hr,reduceCtorEq] at h
        | cons d r =>
          simp only [hr] at h
          refine ⟨d,r,rfl,?_⟩
          split_ifs at h with hd
          · cases h
            exact .inl ⟨hd,rfl,rfl⟩
          · obtain ⟨⟨items,r'⟩,hscan,heq⟩ := Option.map_eq_some_iff.mp h
            cases heq
            exact .inr ⟨hd,items,hscan,rfl⟩
      · exact .inr (.inr (.inr ⟨⟨hquote,hbrace,hbracket⟩,h⟩))

/-- What the items of a list are. -/
theorem scanItems_cases {n : ℕ} {s rest : Str} {items : List Json}
    (h : scanItems floatOf n s=some (items,rest)) : ∃ m v r c r',n=m+1 ∧
      scanOnce floatOf m s=some (v,r) ∧ skipBlanks r=c::r' ∧
      (c=0x5d ∧ items=[v] ∧ rest=r' ∨ c=0x2c ∧ ∃ more,
        scanItems floatOf m (skipBlanks r')=some (more,rest) ∧ items=v::more) := by
  cases n with
  | zero => cases h
  | succ m =>
    rw [scanItems] at h
    cases hv : scanOnce floatOf m s with
    | none => simp only [hv,reduceCtorEq] at h
    | some found =>
      obtain ⟨v,r⟩ := found
      simp only [hv] at h
      cases hr : skipBlanks r with
      | nil => simp only [hr,reduceCtorEq] at h
      | cons c r' =>
        simp only [hr] at h
        refine ⟨m,v,r,c,r',rfl,hv,hr,?_⟩
        split_ifs at h with hbracket hcomma
        · cases h
          exact .inl ⟨hbracket,rfl,rfl⟩
        · obtain ⟨⟨more,r''⟩,hscan,heq⟩ := Option.map_eq_some_iff.mp h
          cases heq
          exact .inr ⟨hcomma,more,hscan,rfl⟩

/-- What the members of an object are. -/
theorem scanMembers_cases {n : ℕ} {s rest : Str} {members : List (Str×Json)}
    (h : scanMembers floatOf n s=some (members,rest)) : ∃ m key k v r c r',n=m+1 ∧
      scanKey s=some (key,k) ∧ scanOnce floatOf m k=some (v,r) ∧ skipBlanks r=c::r' ∧
      (c=0x7d ∧ members=[(key,v)] ∧ rest=r' ∨ c=0x2c ∧ ∃ more,
        scanMembers floatOf m (skipBlanks r')=some (more,rest) ∧ members=(key,v)::more) := by
  cases n with
  | zero => cases h
  | succ m =>
    rw [scanMembers] at h
    cases hkey : scanKey s with
    | none => simp only [hkey,reduceCtorEq] at h
    | some found =>
      obtain ⟨key,k⟩ := found
      simp only [hkey] at h
      cases hv : scanOnce floatOf m k with
      | none => simp only [hv,reduceCtorEq] at h
      | some found =>
        obtain ⟨v,r⟩ := found
        simp only [hv] at h
        cases hr : skipBlanks r with
        | nil => simp only [hr,reduceCtorEq] at h
        | cons c r' =>
          simp only [hr] at h
          refine ⟨m,key,k,v,r,c,r',rfl,rfl,hv,hr,?_⟩
          split_ifs at h with hbrace hcomma
          · cases h
            exact .inl ⟨hbrace,rfl,rfl⟩
          · obtain ⟨⟨more,r''⟩,hscan,heq⟩ := Option.map_eq_some_iff.mp h
            cases heq
            exact .inr ⟨hcomma,more,hscan,rfl⟩

end Scanner

/-- The strings of a stored member are among the old ones and its own. -/
theorem strings_setField {fields : List (Str×Json)} {key : Str} {value : Json} {t : Str}
    (h : t∈fieldsStrings (setField fields key value)) :
    t∈fieldsStrings fields ∨ t∈key::strings value := by
  induction fields with
  | nil =>
    rw [setField,fieldsStrings,fieldsStrings,List.append_nil] at h
    exact .inr h
  | cons field fields ih =>
    obtain ⟨k,v⟩ := field
    rw [setField] at h
    split_ifs at h with hkey
    · rw [fieldsStrings,List.mem_append] at h
      rcases h with h|h
      · exact .inr h
      · exact .inl (by rw [fieldsStrings]; exact List.mem_append_right _ h)
    · rw [fieldsStrings,List.mem_append] at h
      rcases h with h|h
      · exact .inl (by rw [fieldsStrings]; exact List.mem_append_left _ h)
      · rcases ih h with h|h
        · exact .inl (by rw [fieldsStrings]; exact List.mem_append_right _ h)
        · exact .inr h

/-- A dictionary has no strings its members do not have. -/
theorem strings_buildDict {members : List (Str×Json)} {t : Str}
    (h : t∈strings (.dict (buildDict members))) : t∈fieldsStrings members := by
  have hfold : ∀ start : List (Str×Json),
      t∈fieldsStrings (members.foldl (fun fields member => setField fields member.1 member.2)
        start) → t∈fieldsStrings start ∨ t∈fieldsStrings members := by
    clear h
    induction members with
    | nil => exact fun start h => .inl h
    | cons member members ih =>
      obtain ⟨key,value⟩ := member
      intro start h
      rw [fieldsStrings,List.mem_append]
      rcases ih _ h with h|h
      · rcases strings_setField h with h|h
        · exact .inl h
        · exact .inr (.inl h)
      · exact .inr (.inr h)
  exact (hfold [] h).resolve_left List.not_mem_nil

section Scanner

variable {floatOf : Str→Str}

/-- What the scanner has gone over, and that it has gone on. -/
def Advances (s rest : Str) (found : List Str) : Prop :=
  Consumed s rest found ∧ rest.length < s.length

theorem Consumed.mono {s rest : Str} {found found' : List Str} (h : Consumed s rest found)
    (hsub : ∀ t∈found',t∈found) : Consumed s rest found' := by
  obtain ⟨text,hs,hlex,hfound⟩ := h
  exact ⟨text,hs,hlex,fun hslash t ht => hfound hslash t (hsub t ht)⟩

theorem Advances.trans {s mid rest : Str} {found found' : List Str} (h : Advances s mid found)
    (h' : Advances mid rest found') : Advances s rest (found++found') :=
  ⟨h.1.trans h'.1,lt_trans h'.2 h.2⟩

theorem Advances.mono {s rest : Str} {found found' : List Str} (h : Advances s rest found)
    (hsub : ∀ t∈found',t∈found) : Advances s rest found' :=
  ⟨h.1.mono hsub,h.2⟩

theorem advances_cons {c : CodePoint} (hc : isOuter c=true) (s : Str) : Advances (c::s) s [] :=
  ⟨consumed_cons hc s,Nat.lt_succ_self _⟩

theorem advances_delimiter {s rest : Str} {c : CodePoint} (h : skipBlanks s=c::rest)
    (hc : isOuter c=true) : Advances s rest [] :=
  ⟨consumed_delimiter h hc,length_delimiter h⟩

/-- A delimiter with the whitespace behind it. -/
theorem advances_separator {s rest : Str} {c : CodePoint} (h : skipBlanks s=c::rest)
    (hc : isOuter c=true) : Advances s (skipBlanks rest) [] :=
  ⟨(consumed_delimiter h hc).trans (consumed_skipBlanks rest),
    lt_of_le_of_lt (length_skipBlanks rest) (length_delimiter h)⟩

/-- What is consumed behind an opening delimiter and whitespace. -/
theorem Advances.opened {s body rest : Str} {c : CodePoint} {found : List Str}
    (hc : isOuter c=true) (hbody : skipBlanks s=body) (h : Advances body rest found) :
    Advances (c::s) rest found := by
  subst hbody
  refine ⟨((consumed_cons hc s).trans (consumed_skipBlanks s)).trans h.1,?_⟩
  exact lt_of_lt_of_le h.2 ((length_skipBlanks s).trans (Nat.le_succ _))

/-- Every value the scanner finds within `n` steps is consumed. -/
def ValuesAdvance (floatOf : Str→Str) (n : ℕ) : Prop :=
  ∀ s v rest,scanOnce floatOf n s=some (v,rest) → Advances s rest (strings v)

/-- So are all items. -/
def ItemsAdvance (floatOf : Str→Str) (n : ℕ) : Prop :=
  ∀ s items rest,scanItems floatOf n s=some (items,rest) → Advances s rest (itemsStrings items)

/-- So are all members. -/
def MembersAdvance (floatOf : Str→Str) (n : ℕ) : Prop :=
  ∀ s members rest,scanMembers floatOf n s=some (members,rest) →
    Advances s rest (fieldsStrings members)

theorem values_advance {n : ℕ} (hitems : ItemsAdvance floatOf n)
    (hmembers : MembersAdvance floatOf n) : ValuesAdvance floatOf (n+1) := by
  intro s v rest h
  obtain ⟨m,c,s',hm,rfl,hcases⟩ := scanOnce_cases h
  cases hm
  rcases hcases with ⟨rfl,t,hscan,rfl⟩|⟨rfl,d,r,hr,hbody⟩|⟨rfl,d,r,hr,hbody⟩|⟨-,hatom⟩
  · exact ⟨consumed_string hscan,lt_trans (length_scanString hscan) (Nat.lt_succ_self _)⟩
  · have hbrace : isOuter 0x7b=true := by decide
    rcases hbody with ⟨rfl,rfl,rfl⟩|⟨-,members,hscan,rfl⟩
    · exact (advances_cons hbrace s').trans (advances_delimiter hr (by decide))
    · exact ((hmembers _ _ _ hscan).opened hbrace hr).mono (fun t ht => strings_buildDict ht)
  · have hbracket : isOuter 0x5b=true := by decide
    rcases hbody with ⟨rfl,rfl,rfl⟩|⟨-,items,hscan,rfl⟩
    · exact (advances_cons hbracket s').trans (advances_delimiter hr (by decide))
    · exact (hitems _ _ _ hscan).opened hbracket hr
  · exact consumed_atom hatom

theorem items_advance {n : ℕ} (hvalues : ValuesAdvance floatOf n)
    (hitems : ItemsAdvance floatOf n) : ItemsAdvance floatOf (n+1) := by
  intro s items rest h
  obtain ⟨m,v,r,c,r',hm,hv,hr,hcases⟩ := scanItems_cases h
  cases hm
  have hvalue := hvalues _ _ _ hv
  rcases hcases with ⟨rfl,rfl,rfl⟩|⟨rfl,more,hscan,rfl⟩
  · exact hvalue.trans (advances_delimiter hr (by decide))
  · exact hvalue.trans ((advances_separator hr (by decide)).trans (hitems _ _ _ hscan))

theorem members_advance {n : ℕ} (hvalues : ValuesAdvance floatOf n)
    (hmembers : MembersAdvance floatOf n) : MembersAdvance floatOf (n+1) := by
  intro s members rest h
  obtain ⟨m,key,k,v,r,c,r',hm,hkey,hv,hr,hcases⟩ := scanMembers_cases h
  cases hm
  have hfield : Advances s r ([key]++strings v) :=
    Advances.trans (consumed_key hkey) (hvalues _ _ _ hv)
  rcases hcases with ⟨rfl,rfl,rfl⟩|⟨rfl,more,hscan,rfl⟩
  · exact hfield.trans (advances_delimiter hr (by decide))
  · exact hfield.trans ((advances_separator hr (by decide)).trans (hmembers _ _ _ hscan))

/-- The scanner consumes what it reads. -/
theorem advances_scan (n : ℕ) :
    ValuesAdvance floatOf n ∧ ItemsAdvance floatOf n ∧ MembersAdvance floatOf n := by
  induction n with
  | zero =>
    exact ⟨fun s v rest h => (by cases h),fun s items rest h => (by cases h),
      fun s members rest h => (by cases h)⟩
  | succ n ih =>
    obtain ⟨hvalues,hitems,hmembers⟩ := ih
    exact ⟨values_advance hitems hmembers,items_advance hvalues hitems,
      members_advance hvalues hmembers⟩

/-- A value found within `n` steps is found within two for each character. -/
def ValuesSoon (floatOf : Str→Str) (n : ℕ) : Prop :=
  ∀ s v rest,scanOnce floatOf n s=some (v,rest) → ScansTo floatOf s v rest

/-- So are items, with a step to spare. -/
def ItemsSoon (floatOf : Str→Str) (n : ℕ) : Prop :=
  ∀ s items rest,scanItems floatOf n s=some (items,rest) →
    ∀ m,2*s.length < m → scanItems floatOf m s=some (items,rest)

/-- So are members. -/
def MembersSoon (floatOf : Str→Str) (n : ℕ) : Prop :=
  ∀ s members rest,scanMembers floatOf n s=some (members,rest) →
    ∀ m,2*s.length < m → scanMembers floatOf m s=some (members,rest)

theorem values_soon {n : ℕ} (hitems : ItemsSoon floatOf n) (hmembers : MembersSoon floatOf n) :
    ValuesSoon floatOf (n+1) := by
  intro s v rest h
  obtain ⟨n',c,s',hn,rfl,hcases⟩ := scanOnce_cases h
  cases hn
  refine scansTo_cons (fun m hm => ?_)
  have hle := length_skipBlanks s'
  rcases hcases with ⟨rfl,t,hscan,rfl⟩|⟨rfl,d,r,hr,hbody⟩|⟨rfl,d,r,hr,hbody⟩|⟨hnot,hatom⟩
  · rw [scanOnce,if_pos rfl,hscan]
    rfl
  · have hquote : (0x7b : CodePoint)≠quote := by decide
    rw [hr] at hle
    rw [scanOnce,if_neg hquote,if_pos rfl,hr]
    dsimp only
    rcases hbody with ⟨rfl,rfl,rfl⟩|⟨hd,members,hscan,rfl⟩
    · rw [if_pos rfl]
    · rw [if_neg hd,hmembers _ _ _ hscan m (by omega)]
      rfl
  · have hquote : (0x5b : CodePoint)≠quote := by decide
    have hbrace : (0x5b : CodePoint)≠0x7b := by decide
    rw [hr] at hle
    rw [scanOnce,if_neg hquote,if_neg hbrace,if_pos rfl,hr]
    dsimp only
    rcases hbody with ⟨rfl,rfl,rfl⟩|⟨hd,items,hscan,rfl⟩
    · rw [if_pos rfl]
    · rw [if_neg hd,hitems _ _ _ hscan m (by omega)]
      rfl
  · rw [scanOnce,if_neg hnot.1,if_neg hnot.2.1,if_neg hnot.2.2,hatom]

theorem items_soon {n : ℕ} (hvalues : ValuesSoon floatOf n) (hitems : ItemsSoon floatOf n) :
    ItemsSoon floatOf (n+1) := by
  intro s items rest h m hm
  obtain ⟨n',v,r,c,r',hn,hv,hr,hcases⟩ := scanItems_cases h
  cases hn
  obtain ⟨m,rfl⟩ : ∃ m',m=m'+1 := ⟨m-1,by omega⟩
  have hless := ((advances_scan _).1 _ _ _ hv).2
  have hlength := length_delimiter hr
  have hskip := length_skipBlanks r'
  rw [scanItems,hvalues _ _ _ hv m (by omega)]
  dsimp only
  rw [hr]
  dsimp only
  rcases hcases with ⟨rfl,rfl,rfl⟩|⟨rfl,more,hscan,rfl⟩
  · rw [if_pos rfl]
  · have hbracket : (0x2c : CodePoint)≠0x5d := by decide
    rw [if_neg hbracket,if_pos rfl,hitems _ _ _ hscan m (by omega)]
    rfl

theorem members_soon {n : ℕ} (hvalues : ValuesSoon floatOf n)
    (hmembers : MembersSoon floatOf n) : MembersSoon floatOf (n+1) := by
  intro s members rest h m hm
  obtain ⟨n',key,k,v,r,c,r',hn,hkey,hv,hr,hcases⟩ := scanMembers_cases h
  cases hn
  obtain ⟨m,rfl⟩ : ∃ m',m=m'+1 := ⟨m-1,by omega⟩
  have hlesskey := (consumed_key hkey).2
  have hless := ((advances_scan _).1 _ _ _ hv).2
  have hlength := length_delimiter hr
  have hskip := length_skipBlanks r'
  rw [scanMembers,hkey]
  dsimp only
  rw [hvalues _ _ _ hv m (by omega)]
  dsimp only
  rw [hr]
  dsimp only
  rcases hcases with ⟨rfl,rfl,rfl⟩|⟨rfl,more,hscan,rfl⟩
  · rw [if_pos rfl]
  · have hbrace : (0x2c : CodePoint)≠0x7d := by decide
    rw [if_neg hbrace,if_pos rfl,hmembers _ _ _ hscan m (by omega)]
    rfl

/-- Two steps for each character are enough for all that can be read at all. -/
theorem scan_enough (n : ℕ) :
    ValuesSoon floatOf n ∧ ItemsSoon floatOf n ∧ MembersSoon floatOf n := by
  induction n with
  | zero =>
    exact ⟨fun s v rest h => (by cases h),fun s items rest h => (by cases h),
      fun s members rest h => (by cases h)⟩
  | succ n ih =>
    obtain ⟨hvalues,hitems,hmembers⟩ := ih
    exact ⟨values_soon hitems hmembers,items_soon hvalues hitems,members_soon hvalues hmembers⟩

/-- The bound on its steps never decides what `raw_decode` returns. -/
theorem rawDecode_eq_some_iff {s rest : Str} {v : Json} :
    rawDecode floatOf s=some (v,rest) ↔ ∃ n,scanOnce floatOf n s=some (v,rest) :=
  ⟨fun h => ⟨_,h⟩,fun h => h.elim (fun n hn => (scan_enough n).1 s v rest hn _ (le_refl _))⟩

/-- What `raw_decode` consumes. -/
theorem consumed_rawDecode {s rest : Str} {v : Json} (h : rawDecode floatOf s=some (v,rest)) :
    Consumed s rest (strings v) :=
  ((advances_scan _).1 s v rest h).1

end Scanner

end MlopsPlatform.JsonLexing
