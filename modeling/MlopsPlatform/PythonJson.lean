import MlopsPlatform.TextCodec

/-!
# JSON values as Python holds them

The value `json.loads` returns, by Python type. A float is carried as the text
`repr` prints for it. A dictionary is its list of entries; the first entry of
a key is the one looked up, and a key that is absent reads as None.
-/

namespace MlopsPlatform.PythonJson

open TextCodec

/-- A parsed JSON document. -/
inductive Json where
  /-- None -/
  | none
  /-- bool -/
  | bool (value : Bool)
  /-- int, of any size -/
  | int (value : ℤ)
  /-- float, by its printed form -/
  | float (shown : Str)
  /-- str -/
  | str (value : Str)
  /-- list -/
  | list (items : List Json)
  /-- dict -/
  | dict (fields : List (Str×Json))

/-- `type(value).__name__` -/
def typeName : Json→Str
  | .none => str "NoneType"
  | .bool _ => str "bool"
  | .int _ => str "int"
  | .float _ => str "float"
  | .str _ => str "str"
  | .list _ => str "list"
  | .dict _ => str "dict"

/-- `fields.get(key)` -/
def get (fields : List (Str×Json)) (key : Str) : Json := (fields.lookup key).getD .none

/-- Why a text is not parsed. -/
inductive Unparsed where
  /-- JSONDecodeError. -/
  | decode (message : Str)
  /-- A ValueError that is no JSONDecodeError: an integer of more digits than are read. -/
  | value (message : Str)
  /-- RecursionError: it nests too deep. -/
  | recursion

/-- What the programs use of the interpreter and leave to it: the JSON parser and
`repr`. -/
structure Interp where
  /-- `json.loads`: the value, or what it raises. -/
  loads : Str→Except Unparsed Json
  /-- `repr` -/
  repr : Json→Str

end MlopsPlatform.PythonJson
