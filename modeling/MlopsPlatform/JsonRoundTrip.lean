import Mathlib.Data.List.TakeWhile
import MlopsPlatform.JsonText

/-!
# What Python writes as JSON it reads back

The scanner stops at the end of a document that `dumps` wrote, whatever comes
next unless that would go on with a numeral, and finds the value written: its
strings with surrogate pairs joined, and its dictionaries built anew from the
keys so joined. It is the same value exactly when no string of it has such a
pair.
-/

namespace MlopsPlatform.JsonRoundTrip

open TextCodec TextSorted PythonJson JsonStrings JsonText

/-- A character that may go on with a numeral. -/
def continues (c : CodePoint) : Bool :=
  isDigit c || c=0x2e || c=0x65 || c=0x45 || c=0x2b || c=0x2d

/-- A text that does not go on with a numeral before it. -/
def Stops (rest : Str) : Prop := ∀ c,rest.head?=some c → continues c=false

instance (rest : Str) : Decidable (Stops rest) :=
  decidable_of_iff (∀ c∈rest.head?,continues c=false) Iff.rfl

theorem stops_nil : Stops [] := fun _ h => by cases h

theorem stops_cons {c : CodePoint} (hc : continues c=false) (rest : Str) : Stops (c::rest) := by
  rintro _ h
  cases h
  exact hc

theorem continues_digit {c : CodePoint} (hc : continues c=false) : isDigit c=false := by
  simp only [continues,Bool.or_eq_false_iff] at hc
  exact hc.1.1.1.1.1

/-- Digits end where they end without the rest. -/
theorem digits_append {rest : Str} (hrest : Stops rest) (x : Str) :
    (x++rest).takeWhile isDigit=x.takeWhile isDigit ∧
      (x++rest).dropWhile isDigit=x.dropWhile isDigit++rest := by
  induction x with
  | nil =>
    cases rest with
    | nil => exact ⟨rfl,rfl⟩
    | cons c rest =>
      have hc := continues_digit (hrest c rfl)
      refine ⟨?_,?_⟩
      · rw [List.nil_append,List.takeWhile_cons_of_neg (by rw [hc]; exact Bool.false_ne_true)]
        rfl
      · rw [List.nil_append,List.dropWhile_cons_of_neg (by rw [hc]; exact Bool.false_ne_true)]
        rfl
  | cons c x ih =>
    rw [List.cons_append,List.takeWhile_cons,List.takeWhile_cons,List.dropWhile_cons,
      List.dropWhile_cons]
    by_cases hc : isDigit c=true
    · rw [if_pos hc,if_pos hc,if_pos hc,if_pos hc,ih.1,ih.2]
      exact ⟨rfl,rfl⟩
    · rw [if_neg hc,if_neg hc,if_neg hc,if_neg hc]
      exact ⟨rfl,rfl⟩

theorem signPart_append {rest : Str} (hrest : Stops rest) (s : Str) :
    signPart (s++rest)=((signPart s).1,(signPart s).2++rest) := by
  cases s with
  | nil =>
    cases rest with
    | nil => rfl
    | cons c rest =>
      have hc : c≠0x2d := by
        rintro rfl
        exact absurd (hrest _ rfl) (by decide)
      exact if_neg hc
  | cons c s =>
    rw [List.cons_append,signPart,signPart]
    split_ifs <;> rfl

theorem integerPart_append {rest : Str} (hrest : Stops rest) (s : Str) :
    integerPart (s++rest)=(integerPart s).map (fun whole => (whole.1,whole.2++rest)) := by
  cases s with
  | nil =>
    cases rest with
    | nil => rfl
    | cons c rest =>
      have hc := continues_digit (hrest c rfl)
      have hzero : c≠0x30 := by
        rintro rfl
        cases hc
      exact (if_neg hzero).trans (if_neg (by rw [hc]; exact Bool.false_ne_true))
  | cons c s =>
    rw [List.cons_append,integerPart,integerPart,(digits_append hrest s).1,
      (digits_append hrest s).2]
    split_ifs <;> rfl

theorem fractionPart_append {rest : Str} (hrest : Stops rest) (s : Str) :
    fractionPart (s++rest)=((fractionPart s).1,(fractionPart s).2++rest) := by
  match s with
  | [] =>
    match rest with
    | [] => rfl
    | [c] => rfl
    | c::d::rest =>
      have hc : c≠0x2e := by
        rintro rfl
        exact absurd (hrest _ rfl) (by decide)
      rw [List.nil_append,fractionPart,if_neg (fun h => hc h.1)]
      rfl
  | [c] =>
    match rest with
    | [] => rfl
    | d::rest =>
      have hd := continues_digit (hrest d rfl)
      rw [List.singleton_append,fractionPart,if_neg (fun h => by rw [hd] at h; cases h.2)]
      rfl
  | c::d::s =>
    rw [List.cons_append,List.cons_append,fractionPart,fractionPart,(digits_append hrest s).1,
      (digits_append hrest s).2]
    split_ifs <;> rfl

theorem exponentSign_append {rest : Str} (hrest : Stops rest) (s : Str) :
    exponentSign (s++rest)=((exponentSign s).1,(exponentSign s).2++rest) := by
  cases s with
  | nil =>
    cases rest with
    | nil => rfl
    | cons c rest =>
      have hc : ¬(c=0x2b ∨ c=0x2d) := by
        rintro (rfl|rfl) <;> exact absurd (hrest _ rfl) (by decide)
      exact if_neg hc
  | cons c s =>
    rw [List.cons_append,exponentSign,exponentSign]
    split_ifs <;> rfl

theorem exponentPart_append {rest : Str} (hrest : Stops rest) (s : Str) :
    exponentPart (s++rest)=((exponentPart s).1,(exponentPart s).2++rest) := by
  cases s with
  | nil =>
    cases rest with
    | nil => rfl
    | cons c rest =>
      have hc : ¬(c=0x65 ∨ c=0x45) := by
        rintro (rfl|rfl) <;> exact absurd (hrest _ rfl) (by decide)
      exact if_neg (fun h => hc h.1)
  | cons c s =>
    rw [List.cons_append,exponentPart,exponentPart,exponentSign_append hrest]
    dsimp only
    rw [(digits_append hrest _).1,(digits_append hrest _).2]
    split_ifs <;> rfl

/-- A numeral ends where it ends without the rest. -/
theorem scanNumber_append {rest : Str} (hrest : Stops rest) (s : Str) :
    scanNumber (s++rest)=
      (scanNumber s).map (fun found => ⟨found.isFloat,found.text,found.rest++rest⟩) := by
  rw [scanNumber,signPart_append hrest,integerPart_append hrest,scanNumber,Option.map_map,
    Option.map_map]
  refine Option.map_congr (fun whole _ => ?_)
  simp only [Function.comp_apply,fractionPart_append hrest,exponentPart_append hrest]

theorem digits_eq (n : ℕ) : digits n=(Nat.toDigits 10 n).map ofChar := by
  rw [digits,str,Nat.toString_eq_ofList_toDigits,String.toList_ofList]

/-- Digits read as the number they show. -/
theorem ofDigits_digits (n : ℕ) : ofDigits (digits n)=n := by
  have hfold : ∀ (chars : List Char) (start : ℕ),
      (chars.map ofChar).foldl (fun n c => 10*n+(c.val-0x30)) start=
        Nat.ofDigitChars 10 chars start := by
    intro chars
    induction chars with
    | nil => exact fun start => Nat.ofDigitChars_nil.symm
    | cons c chars ih =>
      intro start
      rw [List.map_cons,List.foldl_cons,Nat.ofDigitChars_cons,ih]
      rfl
  rw [ofDigits,digits_eq,hfold,Nat.ofDigitChars_ten_toDigits]

theorem isDigit_of_mem_digits {n : ℕ} {c : CodePoint} (h : c∈digits n) : isDigit c=true := by
  obtain ⟨hlow,hhigh⟩ := digits_bounds h
  simp only [isDigit,Bool.and_eq_true,decide_eq_true_eq]
  exact ⟨hlow,hhigh⟩

theorem digits_ne_minus {n : ℕ} {c : CodePoint} {rest : Str} (h : digits n=c::rest) :
    c≠0x2d := by
  have hc : isDigit c=true := isDigit_of_mem_digits (h ▸ List.mem_cons_self)
  rintro rfl
  exact absurd hc (by decide)

/-- No zero stands in front. -/
theorem digits_head {n : ℕ} (hn : n≠0) : ∃ c rest,digits n=c::rest ∧ c≠0x30 := by
  induction n using Nat.strong_induction_on with
  | h n ih =>
    rw [digits_eq]
    by_cases hten : n<10
    · rw [Nat.toDigits_of_lt_base hten]
      have hdigit : ∀ m : Fin 10,m.val≠0 → ofChar m.val.digitChar≠0x30 := by decide
      exact ⟨_,[],rfl,hdigit ⟨n,hten⟩ hn⟩
    · have hten := Nat.le_of_not_lt hten
      obtain ⟨c,rest,hc,hzero⟩ := ih (n/10) (by omega) (by omega)
      rw [digits_eq] at hc
      rw [Nat.toDigits_of_base_le (by decide) hten,List.map_append,hc]
      exact ⟨c,_,rfl,hzero⟩

/-- All digits of a number are its integer part. -/
theorem integerPart_digits (n : ℕ) : integerPart (digits n)=some (digits n,[]) := by
  by_cases hn : n=0
  · subst hn
    decide
  · obtain ⟨c,rest,hc,hzero⟩ := digits_head hn
    have hall : ∀ d∈rest,isDigit d=true := fun d hd =>
      isDigit_of_mem_digits (hc ▸ List.mem_cons_of_mem c hd)
    have hdigit : isDigit c=true := isDigit_of_mem_digits (hc ▸ List.mem_cons_self)
    rw [hc,integerPart,if_neg hzero,if_pos hdigit,List.takeWhile_eq_self_iff.mpr hall,
      List.dropWhile_eq_nil_iff.mpr hall]

/-- A printed integer is a numeral. -/
theorem scanNumber_intText (i : ℤ) : scanNumber (intText i)=some ⟨false,intText i,[]⟩ := by
  have hsign : signPart (intText i)=(if i<0 then [0x2d] else [],digits i.natAbs) := by
    rw [intText]
    by_cases hi : i<0
    · rw [if_pos hi,if_pos hi]
      rfl
    · rw [if_neg hi,if_neg hi]
      cases hd : digits i.natAbs with
      | nil => rfl
      | cons c rest => exact if_neg (digits_ne_minus hd)
  have htext : (if i<0 then [0x2d] else [])++digits i.natAbs=intText i := by
    rw [intText]
    split_ifs <;> rfl
  rw [scanNumber,hsign]
  dsimp only
  rw [integerPart_digits,Option.map_some]
  simp only [fractionPart,exponentPart,List.append_nil,htext,ne_eq,not_true_eq_false,or_self,
    decide_false]

theorem ofNumeral_intText (i : ℤ) : ofNumeral (intText i)=i := by
  rw [intText]
  by_cases hi : i<0
  · rw [if_pos hi,ofNumeral,if_pos rfl,ofDigits_digits]
    omega
  · rw [if_neg hi]
    have hplain : ofNumeral (digits i.natAbs)=ofDigits (digits i.natAbs) := by
      cases hd : digits i.natAbs with
      | nil => rfl
      | cons c rest => exact if_neg (digits_ne_minus hd)
    rw [hplain,ofDigits_digits]
    omega

theorem eq_of_isPrefixOf? {word s rest : Str} (h : word.isPrefixOf? s=some rest) :
    s=word++rest := by
  induction word generalizing s with
  | nil =>
    cases h
    rfl
  | cons c word ih =>
    cases s with
    | nil => cases h
    | cons d s =>
      rw [List.isPrefixOf?] at h
      split_ifs at h with hcd
      rw [ih h,beq_iff_eq.mp hcd]
      rfl

/-- A numeral is none of the words. -/
theorem scanWord_of_number {s : Str} {found : Numeral} (h : scanNumber s=some found) :
    scanWord s=none := by
  rw [scanWord,List.findSome?_eq_none_iff]
  intro word hword
  cases hrest : word.1.isPrefixOf? s with
  | none => rfl
  | some rest =>
    rw [eq_of_isPrefixOf? hrest] at h
    simp only [words,List.mem_cons,List.not_mem_nil,or_false] at hword
    rcases hword with rfl|rfl|rfl|rfl|rfl|rfl <;> cases h

/-- The characters a document starts with. -/
def opens (c : CodePoint) : Bool :=
  isDigit c || c=0x2d || c=quote || c=0x5b || c=0x7b || c=0x74 || c=0x66 || c=0x6e || c=0x4e ||
    c=0x49

theorem opens_of_number {c : CodePoint} {s : Str} {found : Numeral}
    (h : scanNumber (c::s)=some found) : isDigit c=true ∨ c=0x2d := by
  by_cases hc : c=0x2d
  · exact .inr hc
  · left
    rw [scanNumber,signPart,if_neg hc] at h
    dsimp only at h
    rw [integerPart] at h
    by_cases hzero : c=0x30
    · rw [hzero]
      decide
    · rw [if_neg hzero] at h
      split_ifs at h with hd
      · exact hd
      · cases h

section RoundTrip

variable (floatOf : Str→Str)

/-- A text that `float.__repr__` prints and that reads as the same float. -/
def FloatShown (shown : Str) : Prop :=
  shown=str "nan" ∨ shown=str "inf" ∨ shown=str "-inf" ∨
    scanNumber shown=some ⟨true,shown,[]⟩ ∧ floatOf shown=shown

/-- A value a program can hold: its floats are printed floats, and no dictionary
has a key twice. -/
inductive Valid : Json→Prop where
  /-- None -/
  | none : Valid .none
  /-- bool -/
  | bool (b : Bool) : Valid (.bool b)
  /-- int -/
  | int (i : ℤ) : Valid (.int i)
  /-- float -/
  | float {shown : Str} (h : FloatShown floatOf shown) : Valid (.float shown)
  /-- str -/
  | str (s : Str) : Valid (.str s)
  /-- list -/
  | list {items : List Json} (h : ∀ v∈items,Valid v) : Valid (.list items)
  /-- dict -/
  | dict {fields : List (Str×Json)} (keys : (fields.map Prod.fst).Nodup)
    (h : ∀ field∈fields,Valid field.2) : Valid (.dict fields)

mutual

/-- The value a written value reads as. -/
def readBack : Json→Json
  | .none => .none
  | .bool b => .bool b
  | .int i => .int i
  | .float shown => .float shown
  | .str s => .str (joinPairs s)
  | .list items => .list (readItems items)
  | .dict fields => .dict (buildDict (readFields fields))

/-- The items a written list reads as. -/
def readItems : List Json→List Json
  | [] => []
  | v::items => readBack v::readItems items

/-- The members a written dictionary reads as. -/
def readFields : List (Str×Json)→List (Str×Json)
  | [] => []
  | (key,value)::fields => (joinPairs key,readBack value)::readFields fields

end

/-- However many steps the scanner is allowed beyond what the text can take, it
finds this value and this rest. -/
def ScansTo (s : Str) (v : Json) (rest : Str) : Prop :=
  ∀ n,2*s.length ≤ n → scanOnce floatOf n s=some (v,rest)

variable {floatOf}

/-- Every scan takes a first step. -/
theorem scansTo_cons {s rest : Str} {v : Json} {c : CodePoint}
    (h : ∀ n,2*s.length < n → scanOnce floatOf (n+1) (c::s)=some (v,rest)) :
    ScansTo floatOf (c::s) v rest := by
  intro n hn
  rw [List.length_cons] at hn
  obtain ⟨m,rfl⟩ : ∃ m,n=m+1 := ⟨n-1,by omega⟩
  exact h m (by omega)

theorem scansTo_atom {s rest : Str} {v : Json} {c : CodePoint} (hquote : c≠quote)
    (hbrace : c≠0x7b) (hbracket : c≠0x5b) (h : scanAtom floatOf (c::s)=some (v,rest)) :
    ScansTo floatOf (c::s) v rest := by
  refine scansTo_cons (fun n _ => ?_)
  rw [scanOnce,if_neg hquote,if_neg hbrace,if_neg hbracket,h]

/-- A numeral in front of a text that does not go on with it. -/
theorem scansTo_number {text rest : Str} {isFloat : Bool}
    (h : scanNumber text=some ⟨isFloat,text,[]⟩) (hrest : Stops rest) :
    ScansTo floatOf (text++rest) (numberValue floatOf ⟨isFloat,text,rest⟩) rest := by
  have happend := scanNumber_append hrest text
  rw [h,Option.map_some,List.nil_append] at happend
  cases text with
  | nil => cases h
  | cons c text =>
    have hopens := opens_of_number h
    rw [List.cons_append] at happend ⊢
    refine scansTo_atom ?_ ?_ ?_ ?_
    · rintro rfl
      exact absurd hopens (by decide)
    · rintro rfl
      exact absurd hopens (by decide)
    · rintro rfl
      exact absurd hopens (by decide)
    · rw [scanAtom,scanWord_of_number happend,happend]
      rfl

theorem opens_bounds {c : CodePoint} (hc : opens c=true) :
    isBlank c=false ∧ TextLines.isSpace c=false ∧ c≠0x5d ∧ c≠0x7d := by
  simp only [opens,Bool.or_eq_true,decide_eq_true_eq] at hc
  rcases hc with ((((((((hc|rfl)|rfl)|rfl)|rfl)|rfl)|rfl)|rfl)|rfl)|rfl
  · have hother : ∀ d : CodePoint,isDigit d=false → c≠d := by
      rintro d hd rfl
      rw [hc] at hd
      cases hd
    have hspace : TextLines.isSpace c=false := by
      simp only [isDigit,Bool.and_eq_true,decide_eq_true_eq] at hc
      simp only [TextLines.isSpace,Bool.or_eq_false_iff,Bool.and_eq_false_iff,
        decide_eq_false_iff_not,beq_eq_false_iff_ne]
      omega
    refine ⟨?_,hspace,hother _ (by decide),hother _ (by decide)⟩
    simp only [isBlank,Bool.or_eq_false_iff,decide_eq_false_iff_not]
    exact ⟨⟨⟨hother _ (by decide),hother _ (by decide)⟩,hother _ (by decide)⟩,
      hother _ (by decide)⟩
  all_goals decide

/-- A document starts with one of these characters. -/
theorem dumps_head {v : Json} (hv : Valid floatOf v) : ∃ c s,dumps v=c::s ∧ opens c=true := by
  cases hv with
  | none => exact ⟨_,_,rfl,by decide⟩
  | bool b => cases b <;> exact ⟨_,_,rfl,by decide⟩
  | int i =>
    have h := scanNumber_intText i
    rw [dumps]
    cases htext : intText i with
    | nil =>
      rw [htext] at h
      cases h
    | cons c s =>
      rw [htext] at h
      refine ⟨c,s,rfl,?_⟩
      rcases opens_of_number h with hc|rfl
      · simp only [opens,hc,Bool.true_or]
      · decide
  | @float shown h =>
    rw [dumps,floatText]
    split_ifs with hnan hinf hneg
    · exact ⟨_,_,rfl,by decide⟩
    · exact ⟨_,_,rfl,by decide⟩
    · exact ⟨_,_,rfl,by decide⟩
    · obtain ⟨hnumber,-⟩ := ((h.resolve_left hnan).resolve_left hinf).resolve_left hneg
      cases shown with
      | nil => cases hnumber
      | cons c s =>
        refine ⟨c,s,rfl,?_⟩
        rcases opens_of_number hnumber with hc|rfl
        · simp only [opens,hc,Bool.true_or]
        · decide
  | str s => exact ⟨_,_,rfl,by decide⟩
  | @list items h => cases items <;> exact ⟨_,_,rfl,by decide⟩
  | @dict fields keys h => cases fields <;> exact ⟨_,_,rfl,by decide⟩

/-- Nothing is skipped before a document. -/
theorem skipBlanks_dumps {v : Json} (hv : Valid floatOf v) (rest : Str) :
    skipBlanks (dumps v++rest)=dumps v++rest := by
  obtain ⟨c,s,hs,hc⟩ := dumps_head hv
  rw [hs,List.cons_append,skipBlanks,List.dropWhile_cons_of_neg]
  rw [(opens_bounds hc).1]
  exact Bool.false_ne_true

/-- What `v` is written as is scanned to what it reads back as. -/
def Recovers (floatOf : Str→Str) (v : Json) : Prop :=
  ∀ rest,Stops rest → ScansTo floatOf (dumps v++rest) (readBack v) rest

theorem stops_dumpsItems (items : List Json) (rest : Str) : Stops (dumpsItems items++rest) := by
  cases items <;> exact stops_cons (by decide) _

theorem stops_dumpsFields (fields : List (Str×Json)) (rest : Str) :
    Stops (dumpsFields fields++rest) := by
  cases fields <;> exact stops_cons (by decide) _

/-- The items of a list are scanned one after the other. -/
theorem scanItems_dumps {v : Json} {items : List Json}
    (hvalid : ∀ w∈v::items,Valid floatOf w) (h : ∀ w∈v::items,Recovers floatOf w) (rest : Str)
    (n : ℕ) (hn : 2*(dumps v++(dumpsItems items++rest)).length < n) :
    scanItems floatOf n (dumps v++(dumpsItems items++rest))=some (readItems (v::items),rest) := by
  induction items generalizing v n with
  | nil =>
    obtain ⟨m,rfl⟩ : ∃ m,n=m+1 := ⟨n-1,by omega⟩
    have hfirst := h v List.mem_cons_self (dumpsItems []++rest) (stops_dumpsItems [] rest) m
      (by omega)
    rw [scanItems,hfirst]
    rfl
  | cons w items ih =>
    obtain ⟨m,rfl⟩ : ∃ m,n=m+1 := ⟨n-1,by omega⟩
    have hfirst := h v List.mem_cons_self (dumpsItems (w::items)++rest)
      (stops_dumpsItems (w::items) rest) m (by omega)
    have hblanks : skipBlanks (0x20::(dumps w++(dumpsItems items++rest)))=
        dumps w++(dumpsItems items++rest) :=
      skipBlanks_dumps (hvalid w (List.mem_cons_of_mem v List.mem_cons_self)) _
    have hrest := ih (fun u hu => hvalid u (List.mem_cons_of_mem v hu))
      (fun u hu => h u (List.mem_cons_of_mem v hu)) m (by
        simp only [dumpsItems,List.length_append,List.length_cons] at hn ⊢
        omega)
    have hcomma : skipBlanks (dumpsItems (w::items)++rest)=
        0x2c::0x20::(dumps w++(dumpsItems items++rest)) := by
      rw [dumpsItems,List.cons_append,List.cons_append,List.append_assoc]
      rfl
    have hbracket : (0x2c : CodePoint)≠0x5d := by decide
    rw [scanItems,hfirst]
    dsimp only
    rw [hcomma]
    dsimp only
    rw [if_neg hbracket,if_pos rfl,hblanks,hrest]
    rfl

/-- A key with its colon is scanned to the key with its pairs joined. -/
theorem scanKey_dumps {value : Json} (hvalue : Valid floatOf value) (key rest : Str) :
    scanKey (dumpsField (key,value)++rest)=some (joinPairs key,dumps value++rest) := by
  have htext : dumpsField (key,value)++rest=
      quote::(escaped key++quote::(0x3a::0x20::(dumps value++rest))) := by
    rw [dumpsField,stringText]
    simp only [List.cons_append,List.append_assoc,List.nil_append]
  have hblanks : skipBlanks (0x20::(dumps value++rest))=dumps value++rest :=
    skipBlanks_dumps hvalue rest
  rw [htext,scanKey,if_pos rfl,scanString_escaped,Option.bind_some]
  dsimp only
  have hcolon : skipBlanks (0x3a::0x20::(dumps value++rest))=0x3a::0x20::(dumps value++rest) := rfl
  rw [hcolon]
  dsimp only
  rw [if_pos rfl,hblanks]

/-- The members of an object are scanned one after the other. -/
theorem scanMembers_dumps {field : Str×Json} {fields : List (Str×Json)}
    (hvalid : ∀ f∈field::fields,Valid floatOf f.2) (h : ∀ f∈field::fields,Recovers floatOf f.2)
    (rest : Str) (n : ℕ) (hn : 2*(dumpsField field++(dumpsFields fields++rest)).length < n) :
    scanMembers floatOf n (dumpsField field++(dumpsFields fields++rest))=
      some (readFields (field::fields),rest) := by
  induction fields generalizing field n with
  | nil =>
    obtain ⟨m,rfl⟩ : ∃ m,n=m+1 := ⟨n-1,by omega⟩
    obtain ⟨key,value⟩ := field
    have hkey := scanKey_dumps (hvalid _ List.mem_cons_self) key (dumpsFields []++rest)
    have hfirst := h _ List.mem_cons_self (dumpsFields []++rest) (stops_dumpsFields [] rest) m (by
      simp only [dumpsField,List.length_append,List.length_cons] at hn ⊢
      omega)
    rw [scanMembers,hkey]
    dsimp only
    rw [hfirst]
    rfl
  | cons next fields ih =>
    obtain ⟨m,rfl⟩ : ∃ m,n=m+1 := ⟨n-1,by omega⟩
    obtain ⟨key,value⟩ := field
    have hkey := scanKey_dumps (hvalid _ List.mem_cons_self) key (dumpsFields (next::fields)++rest)
    have hfirst := h _ List.mem_cons_self (dumpsFields (next::fields)++rest)
      (stops_dumpsFields (next::fields) rest) m (by
        simp only [dumpsField,List.length_append,List.length_cons] at hn ⊢
        omega)
    have hblanks : skipBlanks (0x20::(dumpsField next++(dumpsFields fields++rest)))=
        dumpsField next++(dumpsFields fields++rest) := by
      cases next
      rfl
    have hrest := ih (fun f hf => hvalid f (List.mem_cons_of_mem _ hf))
      (fun f hf => h f (List.mem_cons_of_mem _ hf)) m (by
        simp only [dumpsField,dumpsFields,List.length_append,List.length_cons] at hn ⊢
        omega)
    have hcomma : skipBlanks (dumpsFields (next::fields)++rest)=
        0x2c::0x20::(dumpsField next++(dumpsFields fields++rest)) := by
      rw [dumpsFields,List.cons_append,List.cons_append,List.append_assoc]
      rfl
    have hbrace : (0x2c : CodePoint)≠0x7d := by decide
    rw [scanMembers,hkey]
    dsimp only
    rw [hfirst]
    dsimp only
    rw [hcomma]
    dsimp only
    rw [if_neg hbrace,if_pos rfl,hblanks,hrest]
    rfl

theorem recovers_float {shown : Str} (h : FloatShown floatOf shown) :
    Recovers floatOf (.float shown) := by
  intro rest hrest
  rw [dumps,floatText,readBack]
  split_ifs with hnan hinf hneg
  · rw [hnan]
    exact scansTo_atom (by decide) (by decide) (by decide) rfl
  · rw [hinf]
    exact scansTo_atom (by decide) (by decide) (by decide) rfl
  · rw [hneg]
    exact scansTo_atom (by decide) (by decide) (by decide) rfl
  · obtain ⟨hnumber,hfloat⟩ := ((h.resolve_left hnan).resolve_left hinf).resolve_left hneg
    have hscans := @scansTo_number floatOf _ _ _ hnumber hrest
    rwa [numberValue,if_pos rfl,hfloat] at hscans

theorem recovers_str (s : Str) : Recovers floatOf (.str s) := by
  intro rest _
  have htext : dumps (.str s)++rest=quote::(escaped s++quote::rest) := by
    simp only [dumps,stringText,List.cons_append,List.append_assoc,List.nil_append]
  rw [htext]
  refine scansTo_cons (fun n _ => ?_)
  rw [scanOnce,if_pos rfl,scanString_escaped,readBack]
  rfl

theorem recovers_list {items : List Json} (hvalid : ∀ v∈items,Valid floatOf v)
    (h : ∀ v∈items,Recovers floatOf v) : Recovers floatOf (.list items) := by
  intro rest _
  cases items with
  | nil => exact scansTo_cons (fun n _ => rfl)
  | cons v items =>
    have htext : dumps (.list (v::items))++rest=0x5b::(dumps v++(dumpsItems items++rest)) := by
      simp only [dumps,List.cons_append,List.append_assoc]
    have hquote : (0x5b : CodePoint)≠quote := by decide
    have hbrace : (0x5b : CodePoint)≠0x7b := by decide
    obtain ⟨c,s,hs,hc⟩ := dumps_head (hvalid v List.mem_cons_self)
    rw [htext]
    refine scansTo_cons (fun n hn => ?_)
    have hitems := scanItems_dumps hvalid h rest n hn
    rw [scanOnce,if_neg hquote,if_neg hbrace,if_pos rfl,
      skipBlanks_dumps (hvalid v List.mem_cons_self)]
    rw [hs,List.cons_append] at hitems ⊢
    dsimp only
    rw [if_neg (opens_bounds hc).2.2.1,hitems,readBack]
    rfl

theorem recovers_dict {fields : List (Str×Json)} (hvalid : ∀ f∈fields,Valid floatOf f.2)
    (h : ∀ f∈fields,Recovers floatOf f.2) : Recovers floatOf (.dict fields) := by
  intro rest _
  cases fields with
  | nil => exact scansTo_cons (fun n _ => rfl)
  | cons field fields =>
    have htext : dumps (.dict (field::fields))++rest=
        0x7b::(dumpsField field++(dumpsFields fields++rest)) := by
      simp only [dumps,List.cons_append,List.append_assoc]
    have hquote : (0x7b : CodePoint)≠quote := by decide
    obtain ⟨s,hs⟩ : ∃ s,dumpsField field++(dumpsFields fields++rest)=quote::s := by
      cases field
      exact ⟨_,rfl⟩
    have hblanks : skipBlanks (quote::s)=quote::s := rfl
    have hend : quote≠0x7d := by decide
    rw [htext]
    refine scansTo_cons (fun n hn => ?_)
    have hmembers := scanMembers_dumps hvalid h rest n hn
    rw [hs] at hmembers ⊢
    rw [scanOnce,if_neg hquote,if_pos rfl,hblanks]
    dsimp only
    rw [if_neg hend,hmembers,readBack]
    rfl

/-- A written document is scanned to its end, and to what it reads back as. -/
theorem recovers_dumps {v : Json} (hv : Valid floatOf v) : Recovers floatOf v := by
  induction hv with
  | none => exact fun rest _ => scansTo_atom (by decide) (by decide) (by decide) rfl
  | bool b =>
    intro rest _
    cases b <;> exact scansTo_atom (by decide) (by decide) (by decide) rfl
  | int i =>
    intro rest hrest
    have h := @scansTo_number floatOf _ _ _ (scanNumber_intText i) hrest
    rwa [numberValue,if_neg Bool.false_ne_true,ofNumeral_intText] at h
  | float h => exact recovers_float h
  | str s => exact recovers_str s
  | list hvalid ih => exact recovers_list hvalid ih
  | dict _ hvalid ih => exact recovers_dict hvalid ih

/-- `raw_decode` of a written document. -/
theorem rawDecode_dumps {v : Json} (hv : Valid floatOf v) {rest : Str} (hrest : Stops rest) :
    rawDecode floatOf (dumps v++rest)=some (readBack v,rest) :=
  recovers_dumps hv rest hrest _ (le_refl _)

/-- `json.loads` of a written document. -/
theorem loads_dumps {v : Json} (hv : Valid floatOf v) :
    loads floatOf (dumps v)=some (readBack v) := by
  have hskip := skipBlanks_dumps hv []
  have hread := rawDecode_dumps hv stops_nil
  rw [List.append_nil] at hskip hread
  rw [loads,hskip,hread]
  rfl

end RoundTrip

mutual

/-- The strings of a value, keys included. -/
def strings : Json→List Str
  | .none => []
  | .bool _ => []
  | .int _ => []
  | .float _ => []
  | .str s => [s]
  | .list items => itemsStrings items
  | .dict fields => fieldsStrings fields

/-- The strings of some values. -/
def itemsStrings : List Json→List Str
  | [] => []
  | v::items => strings v++itemsStrings items

/-- The strings of some members. -/
def fieldsStrings : List (Str×Json)→List Str
  | [] => []
  | (key,value)::fields => key::strings value++fieldsStrings fields

end

/-- Storing a value under a new key puts it at the end. -/
theorem setField_length (fields : List (Str×Json)) (key : Str) (value : Json) :
    (setField fields key value).length ≤ fields.length+1 ∧
      ((setField fields key value).length=fields.length+1 →
        setField fields key value=fields++[(key,value)]) := by
  induction fields with
  | nil => exact ⟨le_refl _,fun _ => rfl⟩
  | cons field fields ih =>
    rw [setField]
    by_cases hkey : field.1=key
    · rw [if_pos hkey,List.length_cons,List.length_cons]
      exact ⟨by omega,fun h => by omega⟩
    · rw [if_neg hkey,List.length_cons,List.length_cons]
      refine ⟨by omega,fun h => ?_⟩
      rw [ih.2 (by omega)]
      rfl

/-- Of members with distinct keys nothing is lost, and only of them. -/
theorem foldl_setField (members start : List (Str×Json)) :
    (members.foldl (fun fields member => setField fields member.1 member.2) start).length ≤
        start.length+members.length ∧
      ((members.foldl (fun fields member => setField fields member.1 member.2) start).length=
          start.length+members.length →
        members.foldl (fun fields member => setField fields member.1 member.2) start=
          start++members) := by
  induction members generalizing start with
  | nil => exact ⟨le_refl _,fun _ => (List.append_nil start).symm⟩
  | cons member members ih =>
    obtain ⟨hle,heq⟩ := ih (setField start member.1 member.2)
    obtain ⟨hset,hsame⟩ := setField_length start member.1 member.2
    rw [List.foldl_cons,List.length_cons]
    refine ⟨by omega,fun h => ?_⟩
    rw [heq (by omega),hsame (by omega),List.append_assoc]
    rfl

theorem setField_new {fields : List (Str×Json)} {key : Str} (h : key∉fields.map Prod.fst)
    (value : Json) : setField fields key value=fields++[(key,value)] := by
  induction fields with
  | nil => rfl
  | cons field fields ih =>
    rw [List.map_cons,List.mem_cons,not_or] at h
    rw [setField,if_neg (fun he => h.1 he.symm),ih h.2]
    rfl

theorem buildDict_nodup {members : List (Str×Json)} (h : (members.map Prod.fst).Nodup) :
    buildDict members=members := by
  have hstart : ∀ start : List (Str×Json),((start++members).map Prod.fst).Nodup →
      members.foldl (fun fields member => setField fields member.1 member.2) start=
        start++members := by
    clear h
    induction members with
    | nil => exact fun start _ => (List.append_nil start).symm
    | cons member members ih =>
      intro start hnodup
      have hnew : member.1∉start.map Prod.fst := by
        rw [List.map_append,List.map_cons,List.nodup_append] at hnodup
        exact fun hm => hnodup.2.2 _ hm _ List.mem_cons_self rfl
      rw [List.foldl_cons,setField_new hnew,ih]
      · rw [List.append_assoc]
        rfl
      · rwa [List.append_assoc]
  exact hstart [] h

theorem length_readFields (fields : List (Str×Json)) :
    (readFields fields).length=fields.length := by
  induction fields with
  | nil => rfl
  | cons field fields ih =>
    obtain ⟨key,value⟩ := field
    rw [readFields,List.length_cons,List.length_cons,ih]

theorem readItems_eq_self_iff {items : List Json}
    (h : ∀ v∈items,(readBack v=v ↔ ∀ s∈strings v,¬HasPair s)) :
    readItems items=items ↔ ∀ s∈itemsStrings items,¬HasPair s := by
  induction items with
  | nil => exact iff_of_true rfl (fun s hs => absurd hs List.not_mem_nil)
  | cons v items ih =>
    rw [readItems,List.cons.injEq,itemsStrings,List.forall_mem_append,
      h v List.mem_cons_self,ih (fun w hw => h w (List.mem_cons_of_mem v hw))]

theorem readFields_eq_self_iff {fields : List (Str×Json)}
    (h : ∀ f∈fields,(readBack f.2=f.2 ↔ ∀ s∈strings f.2,¬HasPair s)) :
    readFields fields=fields ↔ ∀ s∈fieldsStrings fields,¬HasPair s := by
  induction fields with
  | nil => exact iff_of_true rfl (fun s hs => absurd hs List.not_mem_nil)
  | cons field fields ih =>
    obtain ⟨key,value⟩ := field
    rw [readFields,List.cons.injEq,Prod.mk.injEq,fieldsStrings,List.cons_append,
      List.forall_mem_cons,List.forall_mem_append,joinPairs_eq_self_iff,
      h _ List.mem_cons_self,ih (fun f hf => h f (List.mem_cons_of_mem _ hf)),and_assoc]

/-- Keys that collide once they are read cost a member. -/
theorem buildDict_readFields_iff {fields : List (Str×Json)} (keys : (fields.map Prod.fst).Nodup) :
    buildDict (readFields fields)=fields ↔ readFields fields=fields := by
  constructor
  · intro h
    have hlength := congrArg List.length h
    have hsame := (foldl_setField (readFields fields) []).2 (by
      rw [List.length_nil,Nat.zero_add,length_readFields]
      exact hlength)
    rw [List.nil_append] at hsame
    exact hsame.symm.trans h
  · intro h
    rw [h]
    exact buildDict_nodup keys

/-- A written value reads back as itself exactly when no surrogates pair up in
its strings. -/
theorem readBack_eq_self_iff {floatOf : Str→Str} {v : Json} (hv : Valid floatOf v) :
    readBack v=v ↔ ∀ s∈strings v,¬HasPair s := by
  induction hv with
  | none => exact iff_of_true rfl (fun s hs => absurd hs List.not_mem_nil)
  | bool b => exact iff_of_true rfl (fun s hs => absurd hs List.not_mem_nil)
  | int i => exact iff_of_true rfl (fun s hs => absurd hs List.not_mem_nil)
  | float h => exact iff_of_true rfl (fun s hs => absurd hs List.not_mem_nil)
  | str s =>
    rw [readBack,Json.str.injEq,joinPairs_eq_self_iff,strings]
    simp only [List.mem_singleton,forall_eq]
  | list hvalid ih =>
    rw [readBack,Json.list.injEq,strings]
    exact readItems_eq_self_iff ih
  | dict keys hvalid ih =>
    rw [readBack,Json.dict.injEq,strings,buildDict_readFields_iff keys]
    exact readFields_eq_self_iff ih

end MlopsPlatform.JsonRoundTrip
