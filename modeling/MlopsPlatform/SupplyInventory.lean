import MlopsPlatform.PythonJson
import MlopsPlatform.PythonFiles
import MlopsPlatform.TextSorted
import MlopsPlatform.TextSeparators

/-!
# The committed inventory of `supply.inventory`

`described` reads what a document is about, `inventory` reduces its packages to
sorted lines, `write` commits them and `subjectCount` says how many entries
were dropped. Membership in the set of described identifiers hashes the value,
so a list or a dictionary there is a TypeError and not an InventoryError.
-/

namespace MlopsPlatform.SupplyInventory

open TextCodec TextLines TextSorted TextSeparators PythonJson PythonFiles

/-- What SPDX writes for a version that could not be established. -/
def noVersion : Str := str "NOASSERTION"

/-- Separates name from version. -/
def separator : Str := str "=="

/-- The relationship that names what a document is about. -/
def describes : Str := str "DESCRIBES"

/-- InventoryError, by the place that raises it. -/
inductive InventoryError where
  /-- The document is not an object. -/
  | notAnObject (typeName : Str)
  /-- The `packages` key is absent or null. -/
  | noPackages
  /-- `packages` is empty or not a list. -/
  | listsNoPackages
  /-- A package is not an object. -/
  | packageNotAnObject (index : ℕ) (typeName : Str)
  /-- A package whose name is not a nonempty string. -/
  | noUsableName (index : ℕ) (name : Json)
  /-- A package that carries the separator in a field. -/
  | carriesSeparator (index : ℕ) (name version : Str)
  /-- Every package is the subject of the document. -/
  | everySubject

/-- The text of an InventoryError. -/
def InventoryError.message (py : Interp) : InventoryError→Str
  | .notAnObject name =>
    str "expected an SPDX document object, read a "++name++str "; the cataloguer "++
      str "probably wrote an error to this path instead of a document"
  | .noPackages =>
    str "the document has no `packages` key, so it is not an SPDX package list; check the "++
      str "cataloguer was asked for spdx-json and that it exited zero"
  | .listsNoPackages =>
    str "the document lists no packages; an image with nothing in it is not a result worth "++
      str "committing, so this fails rather than writing an empty inventory"
  | .packageNotAnObject index name =>
    str "package "++digits index++str " is a "++name++str ", not an object"
  | .noUsableName index name =>
    str "package "++digits index++str " has no usable `name`: "++py.repr name
  | .carriesSeparator index name version =>
    str "package "++digits index++str " carries "++py.repr (.str separator)++
      str " in a field, so its line could not be split back apart: name="++
      py.repr (.str name)++str " version="++py.repr (.str version)
  | .everySubject =>
    str "every package in the document is the document's own subject, which cannot be right: "++
      str "an image containing nothing is not a result worth committing"

/-- The strings of a list, as `documentDescribes` is read. -/
def stringOf : Json→Option Str
  | .str value => some value
  | _ => none

/-- The target of a DESCRIBES relationship. -/
def relatedElement : Json→Option Str
  | .dict relationship =>
    match get relationship (str "relationshipType") with
    | .str kind =>
      if kind=describes then stringOf (get relationship (str "relatedSpdxElement")) else none
    | _ => none
  | _ => none

/-- The elements a field yields when it is a list, and none otherwise. -/
def foundIn (read : Json→Option Str) : Json→Finset Str
  | .list items => (items.filterMap read).toFinset
  | _ => ∅

/-- `_described(document)` -/
def described (fields : List (Str×Json)) : Finset Str :=
  foundIn stringOf (get fields (str "documentDescribes")) ∪
    foundIn relatedElement (get fields (str "relationships"))

/-- `_described(document) if isinstance(document, dict) else set()` -/
def subjects : Json→Finset Str
  | .dict fields => described fields
  | _ => ∅

/-- `_entries(document)` -/
def entries : Json→Except InventoryError (List Json)
  | .dict fields =>
    match get fields (str "packages") with
    | .none => .error .noPackages
    | .list packages => if packages=[] then .error .listsNoPackages else .ok packages
    | _ => .error .listsNoPackages
  | other => .error (.notAnObject (typeName other))

/-- `value in found`: hashing a list or a dictionary raises TypeError. -/
def memberOf (found : Finset Str) : Json→Except (Raised InventoryError) Bool
  | .str value => .ok (decide (value∈found))
  | .list _ => .error .type
  | .dict _ => .error .type
  | _ => .ok false

/-- A package as its line is made from it. -/
structure Package where
  /-- The name, which the source requires. -/
  name : Str
  /-- The version, or what stands for an unknown one. -/
  version : Str
  /-- A package without a name is refused. -/
  named : name≠[]
  /-- A name that carries the separator is refused. -/
  plainName : ¬separator<:+:name
  /-- A version that carries the separator is refused. -/
  plainVersion : ¬separator<:+:version

/-- The line of a package. -/
def Package.line (package : Package) : Str := package.name++separator++package.version

/-- `entry.get("versionInfo")`, or NOASSERTION for anything but a nonempty string. -/
def versionOf (entry : List (Str×Json)) : Str :=
  match get entry (str "versionInfo") with
  | .str version => if version=[] then noVersion else version
  | _ => noVersion

/-- The checks `inventory` makes on the name and the version of an object. -/
def readFields (index : ℕ) (entry : List (Str×Json)) : Except InventoryError Package :=
  match get entry (str "name") with
  | .str name =>
    if named : name≠[] then
      if plain : ¬separator<:+:name ∧ ¬separator<:+:versionOf entry then
        .ok ⟨name,versionOf entry,named,plain.1,plain.2⟩
      else .error (.carriesSeparator index name (versionOf entry))
    else .error (.noUsableName index (.str name))
  | other => .error (.noUsableName index other)

/-- One entry of `packages`: the document's subject yields no package. -/
def readPackage (found : Finset Str) (index : ℕ) :
    Json→Except (Raised InventoryError) (Option Package)
  | .dict entry =>
    match memberOf found (get entry (str "SPDXID")) with
    | .error raised => .error raised
    | .ok true => .ok none
    | .ok false =>
      match readFields index entry with
      | .error error => .error (.own error)
      | .ok package => .ok (some package)
  | other => .error (.own (.packageNotAnObject index (typeName other)))

/-- The loop of `inventory` over the entries of `packages`. -/
def collect (found : Finset Str) :
    ℕ→Finset Str→List Json→Except (Raised InventoryError) (Finset Str)
  | _,lines,[] => .ok lines
  | index,lines,entry::rest =>
    match readPackage found index entry with
    | .error raised => .error raised
    | .ok none => collect found (index+1) lines rest
    | .ok (some package) => collect found (index+1) (insert package.line lines) rest

/-- `inventory(document)` -/
def inventory (document : Json) : Except (Raised InventoryError) (List Str) :=
  match entries document with
  | .error error => .error (.own error)
  | .ok packages =>
    match collect (subjects document) 0 ∅ packages with
    | .error raised => .error raised
    | .ok lines => if lines=∅ then .error (.own .everySubject) else .ok (sorted lines)

/-- `json.loads(source.read_text(encoding="utf-8"))` -/
def readDocument (py : Interp) (files : Files) (source : Str) :
    Except (Raised InventoryError) Json :=
  match readText files source with
  | .error raised => .error raised
  | .ok text =>
    match py.loads text with
    | .error fault => .error (unparsed fault)
    | .ok document => .ok document

/-- The text `write` writes. -/
def inventoryText (lines : List Str) : Str := join [lf] lines++[lf]

/-- `write(source, destination)` -/
def write (py : Interp) (files : Files) (source destination : Str) :
    Except (Raised InventoryError) ℕ×Files :=
  match readDocument py files source with
  | .error raised => (.error raised,files)
  | .ok document =>
    match inventory document with
    | .error raised => (.error raised,files)
    | .ok lines =>
      match writeText files destination (inventoryText lines) with
      | (.error raised,after) => (.error raised,after)
      | (.ok (),after) => (.ok lines.length,after)

/-- How many objects among the entries carry a described identifier. -/
def countSubjects (found : Finset Str) : List Json→Except (Raised InventoryError) ℕ
  | [] => .ok 0
  | .dict entry::rest =>
    match memberOf found (get entry (str "SPDXID")) with
    | .error raised => .error raised
    | .ok subject =>
      match countSubjects found rest with
      | .error raised => .error raised
      | .ok count => .ok (if subject=true then count+1 else count)
  | _::rest => countSubjects found rest

/-- What `subject_count` makes of a document. -/
def subjectsIn : Json→Except (Raised InventoryError) ℕ
  | .dict fields =>
    match get fields (str "packages") with
    | .list packages => countSubjects (described fields) packages
    | _ => .ok 0
  | _ => .ok 0

/-- `subject_count(source)` -/
def subjectCount (py : Interp) (files : Files) (source : Str) :
    Except (Raised InventoryError) ℕ :=
  match readDocument py files source with
  | .error raised => .error raised
  | .ok document => subjectsIn document

/-- What `except (InventoryError, json.JSONDecodeError, OSError)` catches. -/
def caught (py : Interp) : Raised InventoryError→Option Str
  | .own error => some (error.message py)
  | .jsonDecode message => some message
  | .os message => some message
  | _ => none

/-- What is said about dropped entries. -/
def droppedSuffix (dropped : ℕ) : Str :=
  if dropped=0 then []
  else
    str ", "++digits dropped++str " document subject entr"++
      (if dropped=1 then str "y" else str "ies")++str " dropped"

/-- `main(argv)` -/
def main (py : Interp) (files : Files) : List Str→Finished InventoryError
  | [source,destination] =>
    match write py files source destination with
    | (.error raised,after) =>
      match caught py raised with
      | some message => ⟨.ok 1,after,[],[source++str ": "++message]⟩
      | none => ⟨.error raised,after,[],[]⟩
    | (.ok count,after) =>
      match subjectCount py after source with
      | .error raised => ⟨.error raised,after,[],[]⟩
      | .ok dropped =>
        ⟨.ok 0,after,
          [destination++str ": "++digits count++str " packages"++droppedSuffix dropped],[]⟩
  | _ =>
    ⟨.ok 2,files,[],
      [str "usage: -m supply.inventory <document.spdx.json> <inventory.packages.txt>"]⟩

end MlopsPlatform.SupplyInventory
