import MlopsPlatform.JsonLexing

/-!
# Texts that occur in JSON documents only inside of strings

A marker starts with a character that no document has outside of its strings,
and is never escaped. It occurs in a written document exactly when it occurs in
one of the strings written. A reader that starts behind an occurrence, within a
string, takes strings for gaps and gaps for strings: it may well find a value,
but none with the marker in it unless the marker comes once more.
-/

namespace MlopsPlatform.JsonMarkers

open TextCodec TextLines DigestHex PythonJson JsonStrings JsonText JsonRoundTrip JsonLexing

/-- A character that is written as it is and delimits nothing. -/
def isPlain (c : CodePoint) : Bool :=
  0x20 ≤ c.val && c.val≤0x7e && !(c=quote) && !(c=backslash) && !(c=0x2c) && !(c=0x3a) &&
    !(c=0x5b) && !(c=0x5d) && !(c=0x7b) && !(c=0x7d)

/-- A text whose start tells strings from what is around them. -/
structure Marker (m : Str) : Prop where
  /-- Its first character stands in strings only, and in no escape. -/
  head : ∃ c rest,m=c::rest ∧ isOuter c=false ∧ c≠0x2f
  /-- All its characters are written as they are. -/
  plain : ∀ c∈m,isPlain c=true

variable {m : Str}

theorem isPlain_bounds {c : CodePoint} (h : isPlain c=true) :
    0x20 ≤ c.val ∧ c.val≤0x7e ∧ c≠quote ∧ c≠backslash := by
  simp only [isPlain,Bool.and_eq_true,decide_eq_true_eq,Bool.not_eq_true',
    decide_eq_false_iff_not] at h
  exact ⟨h.1.1.1.1.1.1.1.1.1,h.1.1.1.1.1.1.1.1.2,h.1.1.1.1.1.1.1.2,h.1.1.1.1.1.1.2⟩

theorem escape_plain {c : CodePoint} (h : isPlain c=true) : escape c=[c] := by
  obtain ⟨hlow,hhigh,hquote,hslash⟩ := isPlain_bounds h
  have hletter : escapeLetter c=none := by
    unfold escapeLetter
    split_ifs <;> first | rfl | (subst c; exact absurd h (by decide))
  rw [escape,hletter]
  exact if_pos ⟨hlow,hhigh⟩

/-- A marker is not empty. -/
theorem Marker.ne_nil (hm : Marker m) : m≠[] := by
  obtain ⟨c,rest,rfl,-⟩ := hm.head
  exact List.cons_ne_nil c rest

/-- It does not stand outside of strings. -/
theorem Marker.not_outer (hm : Marker m) {s : Str} (hs : ∀ c∈s,isOuter c=true) : ¬m<:+:s := by
  obtain ⟨c,rest,rfl,houter,-⟩ := hm.head
  intro h
  rw [hs c (h.subset List.mem_cons_self)] at houter
  cases houter

/-- Nor does it start there. -/
theorem Marker.infix_cons (hm : Marker m) {c : CodePoint} (hc : isOuter c=true) {s : Str}
    (h : m<:+:c::s) : m<:+:s := by
  obtain ⟨d,rest,rfl,houter,-⟩ := hm.head
  rcases List.infix_cons_iff.mp h with h|h
  · obtain ⟨tail,htail⟩ := h
    rw [List.cons_append,List.cons.injEq] at htail
    rw [htail.1,hc] at houter
    cases houter
  · exact h

/-- A text that a character is not in stands on one side of it. -/
theorem infix_of_separated {s t : Str} {c : CodePoint} (hc : c∉m) (h : m<:+:s++c::t) :
    m<:+:s ∨ m<:+:t := by
  rcases List.infix_append_iff.mp h with h|h|⟨left,right,rfl,hleft,hright⟩
  · exact .inl h
  · rcases List.infix_cons_iff.mp h with h|h
    · cases m with
      | nil => exact .inl (List.nil_infix)
      | cons d m =>
        obtain ⟨tail,htail⟩ := h
        rw [List.cons_append,List.cons.injEq] at htail
        exact absurd (htail.1 ▸ List.mem_cons_self) hc
    · exact .inr h
  · cases right with
    | nil =>
      rw [List.append_nil]
      exact .inl hleft.isInfix
    | cons d right =>
      obtain ⟨tail,htail⟩ := hright
      rw [List.cons_append,List.cons.injEq] at htail
      refine absurd (List.mem_append_right left ?_) hc
      rw [←htail.1]
      exact List.mem_cons_self

theorem Marker.notMem (hm : Marker m) {c : CodePoint} (hc : isPlain c=false) : c∉m := by
  intro h
  rw [hm.plain c h] at hc
  cases hc

/-- A character of an escape: none that a marker starts with. -/
def InEscape (e : CodePoint) : Prop := isOuter e=true ∨ e=backslash ∨ e=quote

theorem hex4_inEscape (n : ℕ) : ∀ e∈letterU::hex4 n,InEscape e := by
  have hdigit : ∀ d : Fin 16,isOuter (hexDigit d)=true := by decide
  intro e he
  simp only [hex4,List.mem_cons,List.not_mem_nil,or_false] at he
  rcases he with rfl|rfl|rfl|rfl|rfl
  · exact .inl (by decide)
  all_goals exact .inl (hdigit _)

/-- A character is written as it is or behind a backslash. -/
theorem escape_shape (c : CodePoint) :
    escape c=[c] ∨ ∃ tail,escape c=backslash::tail ∧ ∀ e∈tail,InEscape e := by
  unfold escape
  cases hletter : escapeLetter c with
  | some e =>
    have he : InEscape e := by
      unfold escapeLetter at hletter
      split_ifs at hletter <;> cases hletter <;> first
        | exact .inl (by decide)
        | exact .inr (.inl rfl)
        | exact .inr (.inr rfl)
    refine .inr ⟨[e],rfl,fun d hd => ?_⟩
    rwa [List.mem_singleton.mp hd]
  | none =>
    dsimp only
    split_ifs with hprint hbasic
    · exact .inl rfl
    · exact .inr ⟨_,rfl,hex4_inEscape c.val⟩
    · refine .inr ⟨_,rfl,fun e he => ?_⟩
      rcases List.mem_append.mp he with he|he
      · exact hex4_inEscape _ e he
      · rcases List.mem_cons.mp he with rfl|he
        · exact .inr (.inl rfl)
        · exact hex4_inEscape _ e he

/-- A plain text in front of what is escaped is in front of the string. -/
theorem prefix_of_escaped {s : Str} (hplain : ∀ c∈m,isPlain c=true) (h : m<+:escaped s) :
    m<+:s := by
  induction m generalizing s with
  | nil => exact List.nil_prefix
  | cons c m ih =>
    cases s with
    | nil => exact h
    | cons d s =>
      rw [escaped,List.flatMap_cons] at h
      rcases escape_shape d with hd|⟨tail,hd,-⟩
      · rw [hd,List.singleton_append,List.cons_prefix_cons] at h
        rw [h.1,List.cons_prefix_cons]
        exact ⟨rfl,ih (fun e he => hplain e (List.mem_cons_of_mem c he)) h.2⟩
      · rw [hd,List.cons_append,List.cons_prefix_cons] at h
        have hc := hplain c List.mem_cons_self
        rw [h.1] at hc
        exact absurd hc (by decide)

/-- A marker does not start in an escape. -/
theorem Marker.infix_append (hm : Marker m) {tail s : Str} (htail : ∀ e∈tail,InEscape e)
    (h : m<:+:tail++s) : m<:+:s := by
  induction tail with
  | nil => exact h
  | cons e tail ih =>
    rw [List.cons_append,List.infix_cons_iff] at h
    rcases h with h|h
    · obtain ⟨c,rest,rfl,houter,-⟩ := hm.head
      have hplain := isPlain_bounds (hm.plain c List.mem_cons_self)
      rw [List.cons_prefix_cons] at h
      rcases htail e List.mem_cons_self with he|he|he
      · rw [h.1,he] at houter
        cases houter
      · exact absurd (h.1.trans he) hplain.2.2.2
      · exact absurd (h.1.trans he) hplain.2.2.1
    · exact ih (fun d hd => htail d (List.mem_cons_of_mem e hd)) h

/-- A marker stands in a literal exactly where it stands in the string. -/
theorem Marker.infix_escaped (hm : Marker m) (s : Str) : m<:+:escaped s ↔ m<:+:s := by
  constructor
  · intro h
    induction s with
    | nil => exact h
    | cons d s ih =>
      have hwhole := h
      rw [escaped,List.flatMap_cons] at h
      rcases escape_shape d with hd|⟨tail,hd,htail⟩
      · rw [hd,List.singleton_append] at h
        rcases List.infix_cons_iff.mp h with hfront|hin
        · refine (prefix_of_escaped hm.plain ?_).isInfix
          rw [escaped,List.flatMap_cons,hd,List.singleton_append]
          exact hfront
        · exact (ih hin).trans (List.suffix_cons d s).isInfix
      · rw [hd] at h
        have hin := hm.infix_append (fun e he => by
          rcases List.mem_cons.mp he with rfl|he
          · exact .inr (.inl rfl)
          · exact htail e he) h
        exact (ih hin).trans (List.suffix_cons d s).isInfix
  · rintro ⟨before,after,rfl⟩
    have hself : escaped m=m := by
      have hall := hm.plain
      clear hm
      induction m with
      | nil => rfl
      | cons c m ih =>
        rw [escaped,List.flatMap_cons,escape_plain (hall c List.mem_cons_self)]
        exact congrArg (List.cons c) (ih (fun d hd => hall d (List.mem_cons_of_mem c hd)))
    rw [escaped,List.flatMap_append,List.flatMap_append]
    refine ⟨before.flatMap escape,after.flatMap escape,?_⟩
    exact congrArg (fun t => before.flatMap escape++t++after.flatMap escape) hself.symm

/-- A literal has a marker where its string has it. -/
theorem Marker.infix_stringText (hm : Marker m) {s : Str} (h : m<:+:stringText s) : m<:+:s := by
  have hquote : quote∉m := hm.notMem (by decide)
  rw [stringText,List.cons_append] at h
  have hinside := (@infix_of_separated m [] (escaped s++[quote]) quote hquote h).resolve_left
    (fun hnil => hm.ne_nil (List.infix_nil.mp hnil))
  have hbody := (infix_of_separated hquote hinside).resolve_right
    (fun hnil => hm.ne_nil (List.infix_nil.mp hnil))
  exact (hm.infix_escaped s).mp hbody

section Documents

variable {floatOf : Str→Str}

/-- Texts with a comma before each, and the delimiter that ends them. -/
def listed (close : CodePoint) (texts : List Str) : Str :=
  texts.flatMap (fun t => 0x2c::0x20::t)++[close]

theorem dumpsItems_eq (items : List Json) : dumpsItems items=listed 0x5d (items.map dumps) := by
  induction items with
  | nil => rfl
  | cons v items ih =>
    rw [dumpsItems,ih,listed,listed,List.map_cons,List.flatMap_cons,List.append_assoc]

theorem dumpsFields_eq (fields : List (Str×Json)) :
    dumpsFields fields=listed 0x7d (fields.map dumpsField) := by
  induction fields with
  | nil => rfl
  | cons field fields ih =>
    rw [dumpsFields,ih,listed,listed,List.map_cons,List.flatMap_cons,List.append_assoc]

/-- Listed texts have a marker where one of them has it. -/
theorem Marker.infix_listed (hm : Marker m) {close : CodePoint} (hclose : isPlain close=false)
    {s : Str} {texts : List Str} (h : m<:+:s++listed close texts) :
    m<:+:s ∨ ∃ t∈texts,m<:+:t := by
  induction texts generalizing s with
  | nil =>
    refine .inl ((infix_of_separated (hm.notMem hclose) h).resolve_right ?_)
    exact fun hnil => hm.ne_nil (List.infix_nil.mp hnil)
  | cons t texts ih =>
    rw [listed,List.flatMap_cons,List.append_assoc] at h
    rcases infix_of_separated (hm.notMem (by decide)) h with h|h
    · exact .inl h
    · rcases ih h with h|⟨u,hu,h⟩
      · exact .inr ⟨t,List.mem_cons_self,hm.infix_cons (by decide) h⟩
      · exact .inr ⟨u,List.mem_cons_of_mem t hu,h⟩

/-- A document of several texts has a marker where one of them has it. -/
theorem Marker.infix_body (hm : Marker m) {start close : CodePoint} (hstart : isOuter start=true)
    (hclose : isPlain close=false) {t : Str} {texts : List Str}
    (h : m<:+:start::t++listed close texts) : ∃ u∈t::texts,m<:+:u := by
  rcases hm.infix_listed hclose h with h|⟨u,hu,h⟩
  · exact ⟨t,List.mem_cons_self,hm.infix_cons hstart h⟩
  · exact ⟨u,List.mem_cons_of_mem t hu,h⟩

theorem infix_listed {close : CodePoint} {t : Str} {texts : List Str} (h : t∈texts) :
    t<:+:listed close texts := by
  obtain ⟨front,back,rfl⟩ := List.append_of_mem h
  refine ⟨front.flatMap (fun t => 0x2c::0x20::t)++[0x2c,0x20],listed close back,?_⟩
  rw [listed,listed,List.flatMap_append,List.flatMap_cons]
  simp only [List.append_assoc,List.cons_append,List.nil_append]

theorem infix_body {start close : CodePoint} {t u : Str} {texts : List Str} (h : u∈t::texts) :
    u<:+:start::t++listed close texts := by
  rcases List.mem_cons.mp h with rfl|h
  · exact ⟨[start],listed close texts,rfl⟩
  · exact (infix_listed h).trans (List.suffix_append (start::t) (listed close texts)).isInfix

/-- A member has a marker where its key or its value has it. -/
theorem Marker.infix_field (hm : Marker m) {field : Str×Json} (h : m<:+:dumpsField field) :
    m<:+:field.1 ∨ m<:+:dumps field.2 := by
  obtain ⟨key,value⟩ := field
  rw [dumpsField] at h
  rcases infix_of_separated (hm.notMem (by decide)) h with h|h
  · exact .inl (hm.infix_stringText h)
  · exact .inr (hm.infix_cons (by decide) h)

theorem mem_itemsStrings {items : List Json} {s : Str} :
    s∈itemsStrings items ↔ ∃ v∈items,s∈strings v := by
  induction items with
  | nil =>
    refine iff_of_false List.not_mem_nil ?_
    rintro ⟨_,hv,_⟩
    exact absurd hv List.not_mem_nil
  | cons w items ih => rw [itemsStrings,List.mem_append,ih,List.exists_mem_cons_iff]

theorem mem_fieldsStrings {fields : List (Str×Json)} {s : Str} :
    s∈fieldsStrings fields ↔ ∃ field∈fields,s=field.1 ∨ s∈strings field.2 := by
  induction fields with
  | nil =>
    refine iff_of_false List.not_mem_nil ?_
    rintro ⟨_,hf,_⟩
    exact absurd hf List.not_mem_nil
  | cons field fields ih =>
    obtain ⟨key,value⟩ := field
    rw [fieldsStrings,List.mem_append,List.mem_cons,ih,List.exists_mem_cons_iff]

/-- A written document has a marker only where one of its strings has it. -/
theorem Marker.infix_dumps (hm : Marker m) {v : Json} (hv : Valid floatOf v)
    (h : m<:+:dumps v) : ∃ s∈strings v,m<:+:s := by
  induction hv with
  | none => exact absurd h (hm.not_outer (List.all_eq_true.mp (by decide)))
  | bool b => cases b <;> exact absurd h (hm.not_outer (List.all_eq_true.mp (by decide)))
  | int i => exact absurd h (hm.not_outer (splits_scanNumber (scanNumber_intText i)).1.2)
  | @float shown hshown =>
    refine absurd h (hm.not_outer ?_)
    rw [dumps,floatText]
    split_ifs with hnan hinf hneg
    · exact List.all_eq_true.mp (by decide)
    · exact List.all_eq_true.mp (by decide)
    · exact List.all_eq_true.mp (by decide)
    · have hnumber := ((hshown.resolve_left hnan).resolve_left hinf).resolve_left hneg
      exact (splits_scanNumber hnumber.1).1.2
  | str s => exact ⟨s,List.mem_singleton_self s,hm.infix_stringText h⟩
  | @list items _ ih =>
    cases items with
    | nil => exact absurd h (hm.not_outer (List.all_eq_true.mp (by decide)))
    | cons v items =>
      rw [dumps,dumpsItems_eq] at h
      obtain ⟨text,htext,hin⟩ := hm.infix_body (by decide) (by decide) h
      rw [←List.map_cons] at htext
      obtain ⟨w,hw,rfl⟩ := List.mem_map.mp htext
      obtain ⟨s,hs,hin⟩ := ih w hw hin
      exact ⟨s,mem_itemsStrings.mpr ⟨w,hw,hs⟩,hin⟩
  | @dict fields _ _ ih =>
    cases fields with
    | nil => exact absurd h (hm.not_outer (List.all_eq_true.mp (by decide)))
    | cons field fields =>
      rw [dumps,dumpsFields_eq] at h
      obtain ⟨text,htext,hin⟩ := hm.infix_body (by decide) (by decide) h
      rw [←List.map_cons] at htext
      obtain ⟨f,hf,rfl⟩ := List.mem_map.mp htext
      rcases hm.infix_field hin with hin|hin
      · exact ⟨f.1,mem_fieldsStrings.mpr ⟨f,hf,.inl rfl⟩,hin⟩
      · obtain ⟨s,hs,hin⟩ := ih f hf hin
        exact ⟨s,mem_fieldsStrings.mpr ⟨f,hf,.inr hs⟩,hin⟩

/-- Every string of a value stands in the document, as a literal. -/
theorem stringText_infix_dumps {v : Json} (hv : Valid floatOf v) {s : Str} (hs : s∈strings v) :
    stringText s<:+:dumps v := by
  induction hv with
  | none => exact absurd hs List.not_mem_nil
  | bool b => exact absurd hs List.not_mem_nil
  | int i => exact absurd hs List.not_mem_nil
  | float h => exact absurd hs List.not_mem_nil
  | str t =>
    rw [List.mem_singleton.mp hs]
    exact List.infix_rfl
  | @list items _ ih =>
    obtain ⟨w,hw,hs⟩ := mem_itemsStrings.mp hs
    refine (ih w hw hs).trans ?_
    cases items with
    | nil => exact absurd hw List.not_mem_nil
    | cons v items =>
      rw [dumps,dumpsItems_eq]
      exact infix_body (List.mem_map_of_mem hw)
  | @dict fields _ _ ih =>
    obtain ⟨f,hf,hs⟩ := mem_fieldsStrings.mp hs
    have hfield : stringText s<:+:dumpsField f := by
      have hshape : dumpsField f=stringText f.1++0x3a::0x20::dumps f.2 := by
        cases f
        rfl
      rw [hshape]
      rcases hs with rfl|hs
      · exact (List.prefix_append _ _).isInfix
      · refine (ih f hf hs).trans ?_
        exact ⟨stringText f.1++[0x3a,0x20],[],by simp⟩
    refine hfield.trans ?_
    cases fields with
    | nil => exact absurd hf List.not_mem_nil
    | cons field fields =>
      rw [dumps,dumpsFields_eq]
      exact infix_body (List.mem_map_of_mem hf)

theorem escaped_infix_stringText (s : Str) : escaped s<:+:stringText s := ⟨[quote],[quote],rfl⟩

/-- Every string of a value stands in the document, in its escaped form. -/
theorem escaped_infix_dumps {v : Json} (hv : Valid floatOf v) {s : Str} (hs : s∈strings v) :
    escaped s<:+:dumps v :=
  (escaped_infix_stringText s).trans (stringText_infix_dumps hv hs)

/-- A marker stands in a written document exactly when it stands in a string. -/
theorem Marker.infix_dumps_iff (hm : Marker m) {v : Json} (hv : Valid floatOf v) :
    m<:+:dumps v ↔ ∃ s∈strings v,m<:+:s := by
  refine ⟨hm.infix_dumps hv,?_⟩
  rintro ⟨s,hs,hin⟩
  exact ((hm.infix_escaped s).mpr hin).trans (escaped_infix_dumps hv hs)

/-- A written document is read from outside of strings to outside of them. -/
theorem lex_dumps {v : Json} (hv : Valid floatOf v) : lex .outside (dumps v)=some .outside := by
  obtain ⟨text,hs,hlex,-⟩ := consumed_rawDecode (rawDecode_dumps hv stops_nil)
  rw [List.append_nil,List.append_nil] at hs
  rw [hs]
  exact hlex

/-- Only a quote or an escape changes the place in a literal. -/
theorem lex_stays_inside {s : Str} (h : ∀ c∈s,c≠quote ∧ c≠backslash) {place : Place}
    (hlex : lex .inside s=some place) : place=.inside := by
  induction s with
  | nil =>
    cases hlex
    rfl
  | cons c s ih =>
    obtain ⟨hquote,hslash⟩ := h c List.mem_cons_self
    rw [lex_cons,lexStep_inside,if_neg hquote,if_neg hslash] at hlex
    split_ifs at hlex with hcontrol
    · cases hlex
    · exact ih (fun d hd => h d (List.mem_cons_of_mem c hd)) hlex

/-- A marker is read inside of a literal. -/
theorem Marker.lex_inside (hm : Marker m) {place next : Place} (h : lex place m=some next) :
    place=.inside ∧ next=.inside := by
  have hplain : ∀ c∈m,c≠quote ∧ c≠backslash := fun c hc =>
    (isPlain_bounds (hm.plain c hc)).2.2
  have hplace : place=.inside := by
    obtain ⟨c,rest,rfl,houter,hslash⟩ := hm.head
    obtain ⟨hquote,hback⟩ := hplain c List.mem_cons_self
    rw [lex_cons] at h
    obtain ⟨next',hstep,-⟩ := Option.bind_eq_some_iff.mp h
    cases place with
    | outside =>
      rw [lexStep_outside,if_neg hquote,houter] at hstep
      cases hstep
    | inside => rfl
    | escape =>
      have hnone : ¬(c=letterU ∨ (unescapeLetter c).isSome=true) := by
        rintro (rfl|hletter)
        · exact absurd houter (by decide)
        · unfold unescapeLetter at hletter
          rw [if_neg hquote,if_neg hback,if_neg hslash] at hletter
          split_ifs at hletter <;> first
            | (subst c; exact absurd houter (by decide))
            | cases hletter
      have hstop : lexStep .escape c=none := if_neg hnone
      rw [hstop] at hstep
      cases hstep
  subst hplace
  exact ⟨rfl,lex_stays_inside hplain h⟩

/-- Behind a marker the rest of a document is read from within a literal. -/
theorem Marker.lex_behind (hm : Marker m) {v : Json} (hv : Valid floatOf v) {before behind : Str}
    (hsplit : dumps v=before++m++behind) : lex .inside behind=some .outside := by
  have hlex := lex_dumps hv
  rw [hsplit,List.append_assoc] at hlex
  obtain ⟨place,-,hlex⟩ := lex_append_some hlex
  obtain ⟨next,hmarker,hlex⟩ := lex_append_some hlex
  obtain ⟨rfl,rfl⟩ := hm.lex_inside hmarker
  exact hlex

/-- Whitespace does not end a literal. -/
theorem lex_dropWhile_inside {s : Str} {place : Place} (h : lex .inside s=some place) :
    lex .inside (s.dropWhile isSpace)=some place := by
  have hspaces : ∀ c∈s.takeWhile isSpace,c≠quote ∧ c≠backslash := by
    intro c hc
    have hspace := List.mem_takeWhile_imp hc
    constructor
    · rintro rfl
      exact absurd hspace (by decide)
    · rintro rfl
      exact absurd hspace (by decide)
  rw [←@List.takeWhile_append_dropWhile _ isSpace s] at h
  obtain ⟨next,hskipped,hlex⟩ := lex_append_some h
  rwa [lex_stays_inside hspaces hskipped] at hlex

/-- A reader from outside does not get out of the rest of a literal whose document
ends there, nor past a backslash in it. -/
theorem taken_within {text rest s after : Str} (htaken : lex .outside text=some .outside)
    (hs : lex .inside s=some .outside) (hafter : after=[] ∨ ∃ tail,after=lf::tail)
    (htext : s++after=text++rest) : text<+:s ∧ backslash∉text := by
  rcases List.append_eq_append_iff.mp htext with ⟨more,rfl,hmore⟩|⟨more,hmore,-⟩
  · -- It would leave the document within a literal and meet a line feed.
    exfalso
    obtain ⟨place,hend,hmid⟩ := lex_append_some htaken
    have hplace : place=.inside := by
      rcases (lex_opposite hend hs).2 with ⟨-,h⟩|⟨h,-⟩
      · cases h
      · exact h
    rw [hplace] at hmid
    cases more with
    | nil => cases hmid
    | cons c more =>
      rcases hafter with rfl|⟨tail,rfl⟩
      · cases hmore
      · rw [List.cons_append,List.cons.injEq] at hmore
        rw [←hmore.1] at hmid
        cases hmid
  · rw [hmore] at hs
    obtain ⟨place,hs,-⟩ := lex_append_some hs
    exact ⟨⟨more,hmore.symm⟩,(lex_opposite htaken hs).1⟩

/-- What a reader finds that starts inside of a string, behind a marker, has no
string with the marker unless it comes once more. -/
theorem Marker.hidden (hm : Marker m) {v w : Json} (hv : Valid floatOf v)
    {before behind after rest : Str} (hsplit : dumps v=before++m++behind)
    (hlast : ¬m<:+:behind) (hafter : after=[] ∨ ∃ tail,after=lf::tail)
    (hread : rawDecode floatOf ((behind++after).dropWhile isSpace)=some (w,rest)) :
    ∀ s∈strings w,¬m<:+:s := by
  have hlex := lex_dropWhile_inside (hm.lex_behind hv hsplit)
  have hne : behind.dropWhile isSpace≠[] := by
    intro hnil
    rw [hnil] at hlex
    cases hlex
  have hdrop : (behind++after).dropWhile isSpace=behind.dropWhile isSpace++after := by
    rw [List.dropWhile_append,if_neg]
    rwa [List.isEmpty_iff]
  rw [hdrop] at hread
  obtain ⟨text,htext,htaken,hfound⟩ := consumed_rawDecode hread
  obtain ⟨hfront,hslash⟩ := taken_within htaken hlex hafter htext
  intro s hs hin
  exact hlast ((hin.trans (hfound hslash s hs)).trans
    (hfront.isInfix.trans (List.dropWhile_suffix isSpace).isInfix))

end Documents

end MlopsPlatform.JsonMarkers
