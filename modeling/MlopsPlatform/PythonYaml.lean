import MlopsPlatform.TextCodec

/-!
# YAML values as Python holds them

The value `yaml.safe_load` returns, as far as a program tells its types apart:
None, strings, lists, dictionaries and all others. A dictionary is its list of
entries; the first entry of a key is the one looked up, and a key that is
absent reads as None.
-/

namespace MlopsPlatform.PythonYaml

open TextCodec

/-- A parsed YAML document. -/
inductive Yaml where
  /-- None -/
  | null
  /-- str -/
  | str (value : Str)
  /-- list -/
  | list (items : List Yaml)
  /-- dict -/
  | mapping (fields : List (Yaml×Yaml))
  /-- A value of any other type, by its printed form. -/
  | other (shown : Str)

/-- `fields.get(key)` -/
def get : List (Yaml×Yaml)→Str→Yaml
  | [],_ => .null
  | (.str name,value)::fields,key => if name=key then value else get fields key
  | _::fields,key => get fields key

end MlopsPlatform.PythonYaml
