import MlopsPlatform.JsonStrings
import MlopsPlatform.PythonJson
import MlopsPlatform.TextSorted

/-!
# JSON documents as Python writes and reads them

`json.dumps` with its defaults, and the scanner behind `json.loads` and
`raw_decode`: one value, then whatever follows it. Values are the ones Python
holds; a float is known by its printed form, and what `float` makes of a numeral
is left to the interpreter. The scanner counts down a bound on its steps that
the length of the text always covers. Limits of the interpreter on the depth of
a document and on the digits of an integer are left out of account.
-/

namespace MlopsPlatform.JsonText

open TextCodec TextSorted PythonJson JsonStrings

/-- The whitespace of JSON. -/
def isBlank (c : CodePoint) : Bool := c=0x20 || c=0x09 || c=0x0a || c=0x0d

/-- What is left after leading whitespace. -/
def skipBlanks (s : Str) : Str := s.dropWhile isBlank

/-- An ASCII digit. -/
def isDigit (c : CodePoint) : Bool := 0x30 ≤ c.val && c.val≤0x39

/-- The sign of a numeral and the rest. -/
def signPart : Str→Str×Str
  | [] => ([],[])
  | c::rest => if c=0x2d then ([c],rest) else ([],c::rest)

/-- The integer digits of a numeral and the rest: no zero in front. -/
def integerPart : Str→Option (Str×Str)
  | [] => none
  | c::rest =>
    if c=0x30 then some ([c],rest)
    else if isDigit c=true then some (c::rest.takeWhile isDigit,rest.dropWhile isDigit)
    else none

/-- The fraction of a numeral, if there is one, and the rest. -/
def fractionPart : Str→Str×Str
  | c::d::rest =>
    if c=0x2e ∧ isDigit d=true then
      (c::d::rest.takeWhile isDigit,rest.dropWhile isDigit)
    else ([],c::d::rest)
  | s => ([],s)

/-- The sign of an exponent and the rest. -/
def exponentSign : Str→Str×Str
  | [] => ([],[])
  | c::rest => if c=0x2b ∨ c=0x2d then ([c],rest) else ([],c::rest)

/-- The exponent of a numeral, if there is one, and the rest. -/
def exponentPart : Str→Str×Str
  | [] => ([],[])
  | c::rest =>
    if (c=0x65 ∨ c=0x45) ∧ (exponentSign rest).2.takeWhile isDigit≠[] then
      (c::(exponentSign rest).1++(exponentSign rest).2.takeWhile isDigit,
        (exponentSign rest).2.dropWhile isDigit)
    else ([],c::rest)

/-- A numeral as the scanner finds it. -/
structure Numeral where
  /-- It has a fraction or an exponent. -/
  isFloat : Bool
  /-- Its text. -/
  text : Str
  /-- What follows it. -/
  rest : Str
deriving DecidableEq

/-- `_match_number` -/
def scanNumber (s : Str) : Option Numeral :=
  (integerPart (signPart s).2).map (fun whole =>
    ⟨(fractionPart whole.2).1≠[] ∨ (exponentPart (fractionPart whole.2).2).1≠[],
      (signPart s).1++whole.1++(fractionPart whole.2).1++
        (exponentPart (fractionPart whole.2).2).1,
      (exponentPart (fractionPart whole.2).2).2⟩)

/-- The value of some digits. -/
def ofDigits (ds : Str) : ℕ := ds.foldl (fun n c => 10*n+(c.val-0x30)) 0

/-- `int(text)` of an integer numeral. -/
def ofNumeral : Str→ℤ
  | [] => 0
  | c::rest => if c=0x2d then -(ofDigits rest : ℤ) else ofDigits (c::rest)

/-- The words of JSON, with those Python adds. -/
def words : List (Str×Json) :=
  [(str "null",.none),(str "true",.bool true),(str "false",.bool false),
    (str "NaN",.float (str "nan")),(str "Infinity",.float (str "inf")),
    (str "-Infinity",.float (str "-inf"))]

/-- One of the words and the rest. -/
def scanWord (s : Str) : Option (Json×Str) :=
  words.findSome? (fun word => (word.1.isPrefixOf? s).map (fun rest => (word.2,rest)))

/-- A key of an object with its colon, and the rest behind whitespace. -/
def scanKey : Str→Option (Str×Str)
  | [] => none
  | c::s =>
    if c=quote then
      (scanString s).bind (fun found =>
        match skipBlanks found.2 with
        | [] => none
        | d::rest => if d=0x3a then some (found.1,skipBlanks rest) else none)
    else none

/-- `fields[key] = value` -/
def setField (fields : List (Str×Json)) (key : Str) (value : Json) : List (Str×Json) :=
  match fields with
  | [] => [(key,value)]
  | field::fields =>
    if field.1=key then (key,value)::fields else field::setField fields key value

/-- The dictionary of the members of an object: the last value of a key counts. -/
def buildDict (members : List (Str×Json)) : List (Str×Json) :=
  members.foldl (fun fields member => setField fields member.1 member.2) []

section Scanner

variable (floatOf : Str→Str)

/-- The value of a numeral. -/
def numberValue (numeral : Numeral) : Json :=
  if numeral.isFloat=true then .float (floatOf numeral.text) else .int (ofNumeral numeral.text)

/-- A value that is neither a string nor a list nor an object, and the rest. -/
def scanAtom (s : Str) : Option (Json×Str) :=
  (scanWord s).or ((scanNumber s).map (fun numeral => (numberValue floatOf numeral,numeral.rest)))

mutual

/-- `scan_once`: one value and the rest. -/
def scanOnce : ℕ→Str→Option (Json×Str)
  | 0,_ => none
  | _+1,[] => none
  | n+1,c::s =>
    if c=quote then (scanString s).map (fun found => (.str found.1,found.2))
    else if c=0x7b then
      match skipBlanks s with
      | [] => none
      | d::rest =>
        if d=0x7d then some (.dict [],rest)
        else (scanMembers n (d::rest)).map (fun found => (.dict (buildDict found.1),found.2))
    else if c=0x5b then
      match skipBlanks s with
      | [] => none
      | d::rest =>
        if d=0x5d then some (.list [],rest)
        else (scanItems n (d::rest)).map (fun found => (.list found.1,found.2))
    else scanAtom floatOf (c::s)

/-- The items of a list up to its closing bracket, and the rest. -/
def scanItems : ℕ→Str→Option (List Json×Str)
  | 0,_ => none
  | n+1,s =>
    match scanOnce n s with
    | none => none
    | some found =>
      match skipBlanks found.2 with
      | [] => none
      | c::rest =>
        if c=0x5d then some ([found.1],rest)
        else if c=0x2c then
          (scanItems n (skipBlanks rest)).map (fun more => (found.1::more.1,more.2))
        else none

/-- The members of an object up to its closing brace, and the rest. -/
def scanMembers : ℕ→Str→Option (List (Str×Json)×Str)
  | 0,_ => none
  | n+1,s =>
    match scanKey s with
    | none => none
    | some key =>
      match scanOnce n key.2 with
      | none => none
      | some found =>
        match skipBlanks found.2 with
        | [] => none
        | c::rest =>
          if c=0x7d then some ([(key.1,found.1)],rest)
          else if c=0x2c then
            (scanMembers n (skipBlanks rest)).map
              (fun more => ((key.1,found.1)::more.1,more.2))
          else none

end

/-- `JSONDecoder().raw_decode(s)`: the value at the start of a text and the text
behind it. -/
def rawDecode (s : Str) : Option (Json×Str) := scanOnce floatOf (2*s.length) s

/-- `json.loads(s)`: one value with nothing but whitespace around it. -/
def loads (s : Str) : Option Json :=
  match rawDecode floatOf (skipBlanks s) with
  | none => none
  | some found => if skipBlanks found.2=[] then some found.1 else none

end Scanner

/-- `int.__repr__` -/
def intText (i : ℤ) : Str := if i<0 then 0x2d::digits i.natAbs else digits i.natAbs

/-- A float as `dumps` writes it, from its printed form. -/
def floatText (shown : Str) : Str :=
  if shown=str "nan" then str "NaN"
  else if shown=str "inf" then str "Infinity"
  else if shown=str "-inf" then str "-Infinity"
  else shown

/-- The literal of a string. -/
def stringText (s : Str) : Str := quote::escaped s++[quote]

mutual

/-- `json.dumps(value)` -/
def dumps : Json→Str
  | .none => str "null"
  | .bool true => str "true"
  | .bool false => str "false"
  | .int i => intText i
  | .float shown => floatText shown
  | .str s => stringText s
  | .list [] => str "[]"
  | .list (v::items) => 0x5b::dumps v++dumpsItems items
  | .dict [] => str "\x7b\x7d"
  | .dict (field::fields) => 0x7b::dumpsField field++dumpsFields fields

/-- The further items of a list and its end. -/
def dumpsItems : List Json→Str
  | [] => [0x5d]
  | v::items => 0x2c::0x20::dumps v++dumpsItems items

/-- One member of an object. -/
def dumpsField : Str×Json→Str
  | (key,value) => stringText key++0x3a::0x20::dumps value

/-- The further members of an object and its end. -/
def dumpsFields : List (Str×Json)→Str
  | [] => [0x7d]
  | field::fields => 0x2c::0x20::dumpsField field++dumpsFields fields

end

end MlopsPlatform.JsonText
