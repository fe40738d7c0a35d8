import MlopsPlatform.DigestHex

/-!
# JSON string literals as Python writes and reads them

`json.dumps` keeps printable ASCII as it is and escapes everything else, beyond
the basic plane as a pair of surrogates. The reader takes two escapes in a row
that form such a pair for one character. So a literal reads back as its string
with adjacent surrogates joined, and as the string itself exactly when it has no
high surrogate right before a low one.
-/

namespace MlopsPlatform.JsonStrings

open TextCodec DigestHex

/-- The character a string literal starts and ends with. -/
def quote : CodePoint := 0x22

/-- The character an escape starts with. -/
def backslash : CodePoint := 0x5c

/-- The letter of an escape by code point. -/
def letterU : CodePoint := 0x75

/-- The letter a character is escaped by, if there is one. -/
def escapeLetter (c : CodePoint) : Option CodePoint :=
  if c=quote then some quote
  else if c=backslash then some backslash
  else if c=0x0a then some 0x6e
  else if c=0x0d then some 0x72
  else if c=0x09 then some 0x74
  else if c=0x0c then some 0x66
  else if c=0x08 then some 0x62
  else none

/-- The character a letter stands for in an escape. -/
def unescapeLetter (e : CodePoint) : Option CodePoint :=
  if e=quote then some quote
  else if e=backslash then some backslash
  else if e=0x2f then some 0x2f
  else if e=0x62 then some 0x08
  else if e=0x66 then some 0x0c
  else if e=0x6e then some 0x0a
  else if e=0x72 then some 0x0d
  else if e=0x74 then some 0x09
  else none

/-- `'{0:04x}'.format(n)` of a number of 16 bits. -/
def hex4 (n : ℕ) : Str :=
  [hexDigit ⟨n/4096%16,by omega⟩,hexDigit ⟨n/256%16,by omega⟩,hexDigit ⟨n/16%16,by omega⟩,
    hexDigit ⟨n%16,by omega⟩]

/-- `'\\u{0:04x}'.format(n)` -/
def escapeUnit (n : ℕ) : Str := backslash::letterU::hex4 n

/-- The first half of a character beyond the basic plane. -/
def highHalf (c : CodePoint) : ℕ := 0xd800+(c.val-0x10000)/0x400

/-- The second half of a character beyond the basic plane. -/
def lowHalf (c : CodePoint) : ℕ := 0xdc00+(c.val-0x10000)%0x400

/-- One character of a literal, with `ensure_ascii`. -/
def escape (c : CodePoint) : Str :=
  match escapeLetter c with
  | some e => [backslash,e]
  | none =>
    if 0x20 ≤ c.val ∧ c.val≤0x7e then [c]
    else if c.val<0x10000 then escapeUnit c.val
    else escapeUnit (highHalf c)++escapeUnit (lowHalf c)

/-- The inside of the literal of a string. -/
def escaped (s : Str) : Str := s.flatMap escape

/-- A character read from a literal, and whether it was escaped by code point. -/
abbrev Unit16 := Bool×CodePoint

/-- Where the reader is in a literal. -/
inductive Mode where
  /-- Between two characters. -/
  | plain
  /-- Behind the backslash of an escape. -/
  | escape
  /-- Before so many digits of an escape by code point. -/
  | hex (left value : ℕ)

/-- The value of a hexadecimal digit, in either case. -/
def hexValue (c : CodePoint) : Option ℕ :=
  if 0x30 ≤ c.val ∧ c.val≤0x39 then some (c.val-0x30)
  else if 0x61 ≤ c.val ∧ c.val≤0x66 then some (c.val-0x57)
  else if 0x41 ≤ c.val ∧ c.val≤0x46 then some (c.val-0x37)
  else none

/-- Puts a character before what is read behind it. -/
def prepend (unit : Unit16) (found : List Unit16×Str) : List Unit16×Str :=
  (unit::found.1,found.2)

/-- The characters of a literal up to its closing quote and what follows it. A
control character, an unknown escape or the end of the text is an error. -/
def scanUnits : Mode→Str→Option (List Unit16×Str)
  | _,[] => none
  | .plain,c::rest =>
    if c=quote then some ([],rest)
    else if c=backslash then scanUnits .escape rest
    else if c.val<0x20 then none
    else (scanUnits .plain rest).map (prepend (false,c))
  | .escape,c::rest =>
    if c=letterU then scanUnits (.hex 4 0) rest
    else
      match unescapeLetter c with
      | some d => (scanUnits .plain rest).map (prepend (false,d))
      | none => none
  | .hex left value,c::rest =>
    match hexValue c with
    | none => none
    | some d =>
      if left=1 then
        (scanUnits .plain rest).map (prepend (true,Fin.ofNat 0x110000 (16*value+d)))
      else scanUnits (.hex (left-1) (16*value+d)) rest

/-- The first code units of surrogate pairs. -/
def isHigh (c : CodePoint) : Bool := 0xd800 ≤ c.val && c.val≤0xdbff

/-- The second code units of surrogate pairs. -/
def isLow (c : CodePoint) : Bool := 0xdc00 ≤ c.val && c.val≤0xdfff

/-- The character of a surrogate pair. -/
def joined (high low : CodePoint) : CodePoint :=
  Fin.ofNat 0x110000 (0x10000+(high.val-0xd800)*0x400+(low.val-0xdc00))

/-- Two escapes in a row that form a pair are one character. -/
def joinUnits : List Unit16→Str
  | [] => []
  | [u] => [u.2]
  | u::w::rest =>
    if u.1=true ∧ w.1=true ∧ isHigh u.2=true ∧ isLow w.2=true then
      joined u.2 w.2::joinUnits rest
    else u.2::joinUnits (w::rest)

/-- The rest of a string literal behind its opening quote: the string and what
follows the literal. -/
def scanString (s : Str) : Option (Str×Str) :=
  (scanUnits .plain s).map (fun found => (joinUnits found.1,found.2))

/-- The code units a character is read back as. -/
def units (c : CodePoint) : List Unit16 :=
  if (escapeLetter c).isSome=true ∨ 0x20 ≤ c.val ∧ c.val≤0x7e then [(false,c)]
  else if c.val<0x10000 then [(true,c)]
  else [(true,Fin.ofNat 0x110000 (highHalf c)),(true,Fin.ofNat 0x110000 (lowHalf c))]

/-- A string with its surrogate pairs joined. -/
def joinPairs : Str→Str
  | [] => []
  | [c] => [c]
  | c::d::rest =>
    if isHigh c=true ∧ isLow d=true then joined c d::joinPairs rest
    else c::joinPairs (d::rest)

/-- A high surrogate stands right before a low one. -/
def HasPair (s : Str) : Prop := ∃ high low,isHigh high=true ∧ isLow low=true ∧ [high,low]<:+:s

theorem hexValue_hexDigit (n : Fin 16) : hexValue (hexDigit n)=some n.val := by
  revert n
  decide

/-- Every short escape is read back, and none is the one by code point. -/
theorem unescape_escape {c e : CodePoint} (h : escapeLetter c=some e) :
    unescapeLetter e=some c ∧ e≠letterU := by
  unfold escapeLetter at h
  split_ifs at h with h1 h2 h3 h4 h5 h6 h7 <;> cases h <;> subst c <;> decide

/-- An escape by code point is one unit. -/
theorem scanUnits_escapeUnit {n : ℕ} (hn : n<0x10000) (rest : Str) :
    scanUnits .plain (escapeUnit n++rest)=
      (scanUnits .plain rest).map (prepend (true,Fin.ofNat 0x110000 n)) := by
  have hvalue : 16*(16*(16*(16*0+n/4096%16)+n/256%16)+n/16%16)+n%16=n := by omega
  have hbackslash : backslash≠quote := by decide
  simp only [escapeUnit,hex4,List.cons_append,List.nil_append,scanUnits,if_neg hbackslash,if_true,
    hexValue_hexDigit,Nat.reduceEqDiff,if_false,Nat.reduceSub,hvalue]

/-- Each character of a literal is read back as its code units. -/
theorem scanUnits_escape (c : CodePoint) (rest : Str) :
    scanUnits .plain (escape c++rest)=
      (scanUnits .plain rest).map (fun found => (units c++found.1,found.2)) := by
  have hbackslash : backslash≠quote := by decide
  cases hletter : escapeLetter c with
  | some e =>
    obtain ⟨hread,hnot⟩ := unescape_escape hletter
    simp only [escape,hletter,List.cons_append,List.nil_append,scanUnits,if_neg hbackslash,if_true,
      if_neg hnot,hread,units,Option.isSome_some,true_or]
    rfl
  | none =>
    have hc := hletter
    unfold escapeLetter at hc
    split_ifs at hc with hquote hslash
    by_cases hprint : 0x20 ≤ c.val ∧ c.val≤0x7e
    · simp only [escape,hletter,if_pos hprint,List.cons_append,List.nil_append,scanUnits,
        if_neg hquote,if_neg hslash,if_neg (Nat.not_lt.mpr hprint.1),units,Option.isSome_none,
        Bool.false_eq_true,false_or]
      rfl
    · have hlong : ¬((escapeLetter c).isSome=true ∨ 0x20 ≤ c.val ∧ c.val≤0x7e) := by
        rw [hletter]
        simp only [Option.isSome_none,Bool.false_eq_true,false_or,hprint,not_false_eq_true]
      by_cases hbasic : c.val<0x10000
      · have hunits : units c=[(true,c)] := by rw [units,if_neg hlong,if_pos hbasic]
        simp only [escape,hletter,if_neg hprint,if_pos hbasic,scanUnits_escapeUnit hbasic,hunits,
          Fin.ofNat_val_eq_self]
        rfl
      · have hc := c.isLt
        have hhigh : highHalf c<0x10000 := by
          rw [highHalf]
          omega
        have hlow : lowHalf c<0x10000 := by
          rw [lowHalf]
          omega
        have hunits : units c=[(true,Fin.ofNat 0x110000 (highHalf c)),
            (true,Fin.ofNat 0x110000 (lowHalf c))] := by
          rw [units,if_neg hlong,if_neg hbasic]
        simp only [escape,hletter,if_neg hprint,if_neg hbasic,List.append_assoc,
          scanUnits_escapeUnit hhigh,scanUnits_escapeUnit hlow,hunits,Option.map_map]
        rfl

/-- The inside of a literal is read back up to the closing quote. -/
theorem scanUnits_escaped (s rest : Str) :
    scanUnits .plain (escaped s++quote::rest)=some (s.flatMap units,rest) := by
  induction s with
  | nil => rfl
  | cons c s ih =>
    rw [escaped,List.flatMap_cons,List.append_assoc,scanUnits_escape]
    change (scanUnits .plain (escaped s++quote::rest)).map _=_
    rw [ih]
    rfl

/-- A character beyond the basic plane is the pair of its halves. -/
theorem joined_halves {c : CodePoint} (hc : ¬c.val<0x10000) :
    isHigh (Fin.ofNat 0x110000 (highHalf c))=true ∧ isLow (Fin.ofNat 0x110000 (lowHalf c))=true ∧
      joined (Fin.ofNat 0x110000 (highHalf c)) (Fin.ofNat 0x110000 (lowHalf c))=c := by
  have hlt := c.isLt
  have hhigh : (Fin.ofNat 0x110000 (highHalf c)).val=0xd800+(c.val-0x10000)/0x400 := by
    rw [Fin.val_ofNat,highHalf]
    omega
  have hlow : (Fin.ofNat 0x110000 (lowHalf c)).val=0xdc00+(c.val-0x10000)%0x400 := by
    rw [Fin.val_ofNat,lowHalf]
    omega
  simp only [isHigh,isLow,Bool.and_eq_true,decide_eq_true_eq,hhigh,hlow]
  refine ⟨by omega,by omega,Fin.ext ?_⟩
  rw [joined,Fin.val_ofNat,hhigh,hlow]
  omega

theorem isHigh_bounds {c : CodePoint} (h : isHigh c=true) : 0xd800 ≤ c.val ∧ c.val≤0xdbff := by
  simpa only [isHigh,Bool.and_eq_true,decide_eq_true_eq] using h

theorem isLow_bounds {c : CodePoint} (h : isLow c=true) : 0xdc00 ≤ c.val ∧ c.val≤0xdfff := by
  simpa only [isLow,Bool.and_eq_true,decide_eq_true_eq] using h

/-- A surrogate is escaped by code point. -/
theorem units_surrogate {c : CodePoint} (h : 0xd800 ≤ c.val ∧ c.val≤0xdfff) : units c=[(true,c)] := by
  have hletter : escapeLetter c=none := by
    unfold escapeLetter
    split_ifs with h1 h2 h3 h4 h5 h6 h7 <;> first | rfl | (subst c; exact absurd h (by decide))
  have hlong : ¬((escapeLetter c).isSome=true ∨ 0x20 ≤ c.val ∧ c.val≤0x7e) := by
    rw [hletter,Option.isSome_none]
    rintro (hf|hprint)
    · cases hf
    · omega
  rw [units,if_neg hlong,if_pos (by omega)]

/-- A character that is not a high surrogate is joined with nothing behind it. -/
theorem joinUnits_units {c : CodePoint} (hc : isHigh c=false) (rest : List Unit16) :
    joinUnits (units c++rest)=c::joinUnits rest := by
  have hsingle : ∀ escapedUnit,joinUnits ((escapedUnit,c)::rest)=c::joinUnits rest := by
    intro escapedUnit
    cases rest with
    | nil => rfl
    | cons w rest =>
      rw [joinUnits,if_neg]
      simp only [hc,Bool.false_eq_true,false_and,and_false,not_false_eq_true]
  unfold units
  split_ifs with hshort hbasic
  · exact hsingle false
  · exact hsingle true
  · obtain ⟨hhigh,hlow,hjoined⟩ := joined_halves hbasic
    rw [List.cons_append,List.cons_append,List.nil_append,joinUnits,if_pos ⟨rfl,rfl,hhigh,hlow⟩,
      hjoined]

/-- Nor is a high surrogate before a character that is no low one. -/
theorem joinUnits_high {c d : CodePoint} (hc : isHigh c=true) (hd : isLow d=false)
    (rest : List Unit16) :
    joinUnits (units c++(units d++rest))=c::joinUnits (units d++rest) := by
  have hbounds := isHigh_bounds hc
  have hnext : ∃ w tail,units d=w::tail ∧ ¬(w.1=true ∧ isLow w.2=true) := by
    unfold units
    split_ifs with hshort hbasic
    · exact ⟨_,_,rfl,fun h => (by cases h.1)⟩
    · exact ⟨_,_,rfl,fun h => (by rw [hd] at h; cases h.2)⟩
    · refine ⟨_,_,rfl,fun h => ?_⟩
      have hhigh := isHigh_bounds (joined_halves hbasic).1
      have hlow := isLow_bounds h.2
      dsimp only at hlow
      omega
  obtain ⟨w,tail,hw,hnot⟩ := hnext
  rw [units_surrogate ⟨hbounds.1,by omega⟩,hw,List.cons_append,List.cons_append,List.nil_append,
    joinUnits,if_neg]
  rintro ⟨-,hflag,-,hlow⟩
  exact hnot ⟨hflag,hlow⟩

/-- A literal reads back as its string with surrogate pairs joined. -/
theorem joinUnits_flatMap (s : Str) : joinUnits (s.flatMap units)=joinPairs s := by
  fun_induction joinPairs s with
  | case1 => rfl
  | case2 c =>
    by_cases hc : isHigh c=true
    · have hbounds := isHigh_bounds hc
      rw [List.flatMap_singleton,units_surrogate ⟨hbounds.1,by omega⟩]
      rfl
    · have hjoin := joinUnits_units (Bool.eq_false_of_not_eq_true hc) []
      rwa [List.append_nil,←List.flatMap_singleton units c] at hjoin
  | case3 c d rest h ih =>
    have hhigh := isHigh_bounds h.1
    have hlow := isLow_bounds h.2
    rw [List.flatMap_cons,List.flatMap_cons,units_surrogate ⟨hhigh.1,by omega⟩,
      units_surrogate ⟨by omega,hlow.2⟩,List.cons_append,List.cons_append,List.nil_append,
      List.nil_append,joinUnits,if_pos ⟨rfl,rfl,h.1,h.2⟩,ih]
  | case4 c d rest h ih =>
    rw [List.flatMap_cons]
    by_cases hc : isHigh c=true
    · have hd : isLow d=false := Bool.eq_false_of_not_eq_true (fun hd => h ⟨hc,hd⟩)
      rw [←ih,List.flatMap_cons]
      exact joinUnits_high hc hd (rest.flatMap units)
    · rw [joinUnits_units (Bool.eq_false_of_not_eq_true hc),ih]

/-- The literal of a string, read back. -/
theorem scanString_escaped (s rest : Str) :
    scanString (escaped s++quote::rest)=some (joinPairs s,rest) := by
  rw [scanString,scanUnits_escaped,Option.map_some,joinUnits_flatMap]

theorem length_joinPairs_le (s : Str) : (joinPairs s).length ≤ s.length := by
  fun_induction joinPairs s with
  | case1 => exact le_refl _
  | case2 c => exact le_refl _
  | case3 c d rest h ih =>
    rw [List.length_cons,List.length_cons,List.length_cons]
    omega
  | case4 c d rest h ih =>
    rw [List.length_cons]
    exact Nat.succ_le_succ ih

/-- It is the string itself exactly when no surrogates pair up in it. -/
theorem joinPairs_eq_self_iff (s : Str) : joinPairs s=s ↔ ¬HasPair s := by
  fun_induction joinPairs s with
  | case1 =>
    refine iff_of_true rfl ?_
    rintro ⟨high,low,-,-,h⟩
    exact absurd h.length_le (by simp)
  | case2 c =>
    refine iff_of_true rfl ?_
    rintro ⟨high,low,-,-,h⟩
    exact absurd h.length_le (by simp)
  | case3 c d rest h ih =>
    refine iff_of_false ?_ (not_not.mpr ⟨c,d,h.1,h.2,(List.prefix_append [c,d] rest).isInfix⟩)
    intro heq
    have hlength := congrArg List.length heq
    have hle := length_joinPairs_le rest
    rw [List.length_cons,List.length_cons,List.length_cons] at hlength
    omega
  | case4 c d rest h ih =>
    rw [List.cons.injEq,and_iff_right rfl,ih]
    refine not_congr ⟨?_,?_⟩
    · rintro ⟨high,low,hhigh,hlow,hin⟩
      exact ⟨high,low,hhigh,hlow,hin.trans (List.suffix_cons c _).isInfix⟩
    · rintro ⟨high,low,hhigh,hlow,hin⟩
      refine ⟨high,low,hhigh,hlow,?_⟩
      rcases List.infix_cons_iff.mp hin with hfront|hin
      · obtain ⟨tail,htail⟩ := hfront
        rw [List.cons_append,List.cons_append,List.nil_append,List.cons.injEq,List.cons.injEq]
          at htail
        exact absurd ⟨htail.1 ▸ hhigh,htail.2.1 ▸ hlow⟩ h
      · exact hin

end MlopsPlatform.JsonStrings
