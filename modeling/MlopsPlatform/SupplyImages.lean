import MlopsPlatform.PythonFiles
import MlopsPlatform.PythonYaml
import MlopsPlatform.TextSorted
import MlopsPlatform.TextTokens

/-!
# The list of images of `supply.images`

`servicesOf`, `contextOf` and `bases` read the compose file and the Dockerfiles
of what it builds, `collect` is the loop over the services, and `references` is
the sorted list. `main` prints it one reference at a time.
-/

namespace MlopsPlatform.SupplyImages

open TextCodec TextLines TextStrip TextTokens TextSorted PythonYaml PythonFiles

/-- ComposeError, by the place that raises it. -/
inductive ComposeError where
  /-- The compose file is not a mapping. -/
  | notAMapping
  /-- It has no mapping of services, or an empty one. -/
  | noServices
  /-- A service is not a mapping. -/
  | serviceNotAMapping (name : Yaml)
  /-- A service without an image. -/
  | namesNoImage (name : Yaml)
  /-- An image that is not a string, or blank. -/
  | badImage (name image : Yaml)
  /-- A build section without a context. -/
  | noContext (build : Yaml)
  /-- A Dockerfile that raises OSError. -/
  | unreadable (context message : Str)
  /-- A Dockerfile without a base. -/
  | noFrom (context : Str)

/-- What the module leaves to the interpreter: the two paths, the YAML loader
and `repr`. -/
structure Reader (ε : Type) where
  /-- The path of the compose file. -/
  composeFile : Str
  /-- `root / context / "Dockerfile"` -/
  dockerfile : Str→Str
  /-- `yaml.safe_load`: the value, or the exception it raises. -/
  safeLoad : Str→Except (Raised ε) Yaml
  /-- `repr` -/
  repr : Yaml→Str

/-- The exceptions `main` names besides OSError. -/
inductive Refusal where
  /-- ComposeError. -/
  | compose (error : ComposeError)
  /-- yaml.YAMLError. -/
  | yaml (message : Str)

/-- The text of a ComposeError. -/
def ComposeError.message (reader : Reader Refusal) : ComposeError→Str
  | .notAMapping => reader.composeFile++str " does not parse to a mapping"
  | .noServices => reader.composeFile++str " declares no services"
  | .serviceNotAMapping name => str "service "++reader.repr name++str " is not a mapping"
  | .namesNoImage name =>
    str "service "++reader.repr name++
      str " names no image, so there is nothing to catalogue for it"
  | .badImage name image =>
    str "service "++reader.repr name++str " has a non-string image: "++reader.repr image
  | .noContext build => str "a build section names no usable context: "++reader.repr build
  | .unreadable context message =>
    reader.dockerfile context++str " could not be read: "++message
  | .noFrom context =>
    reader.dockerfile context++str " declares no FROM, so its base cannot be catalogued"

/-- The text of what `except (ComposeError, OSError, yaml.YAMLError)` catches. -/
def caught (reader : Reader Refusal) : Raised Refusal→Option Str
  | .own (.compose error) => some (error.message reader)
  | .own (.yaml message) => some message
  | .os message => some message
  | _ => none

/-- `_services(compose_file)`, of the parsed value. -/
def servicesOf : Yaml→Except ComposeError (List (Yaml×Yaml))
  | .mapping fields =>
    match get fields (str "services") with
    | .mapping services => if services=[] then .error .noServices else .ok services
    | _ => .error .noServices
  | _ => .error .notAMapping

/-- `_context(service)`, of the value of `build`. -/
def contextOf : Yaml→Except ComposeError (Option Str)
  | .null => .ok none
  | .str context => .ok (some context)
  | .mapping build =>
    match get build (str "context") with
    | .str context => .ok (some context)
    | _ => .error (.noContext (.mapping build))
  | build => .error (.noContext build)

/-- What a line of a Dockerfile that names a base starts with. -/
def fromKeyword : Str := str "FROM "

/-- The base a line names: its second token, if it is a FROM line with one. -/
def baseOf (line : Str) : Option Str :=
  if fromKeyword<+:line then (tokens line)[1]? else none

/-- `_bases(root, context)` -/
def bases (reader : Reader Refusal) (files : Files) (context : Str) :
    Except (Raised Refusal) (Finset Str) :=
  match readText (ε:=Refusal) files (reader.dockerfile context) with
  | .error (.os message) => .error (.own (.compose (.unreadable context message)))
  | .error raised => .error raised
  | .ok text =>
    let found := ((splitlines text).filterMap baseOf).toFinset
    if found=∅ then .error (.own (.compose (.noFrom context))) else .ok found

/-- The body of the loop of `references`: what one service adds. -/
def readService (reader : Reader Refusal) (files : Files) (name : Yaml) :
    Yaml→Except (Raised Refusal) (Finset Str)
  | .mapping service =>
    match get service (str "image") with
    | .null => .error (.own (.compose (.namesNoImage name)))
    | .str image =>
      if strip image=[] then .error (.own (.compose (.badImage name (.str image))))
      else
        match contextOf (get service (str "build")) with
        | .error error => .error (.own (.compose error))
        | .ok none => .ok {strip image}
        | .ok (some context) =>
          match bases reader files context with
          | .error raised => .error raised
          | .ok found => .ok (insert (strip image) found)
    | image => .error (.own (.compose (.badImage name image)))
  | _ => .error (.own (.compose (.serviceNotAMapping name)))

/-- The loop of `references` over the services. -/
def collect (reader : Reader Refusal) (files : Files) :
    Finset Str→List (Yaml×Yaml)→Except (Raised Refusal) (Finset Str)
  | found,[] => .ok found
  | found,(name,service)::services =>
    match readService reader files name service with
    | .error raised => .error raised
    | .ok added => collect reader files (found ∪ added) services

/-- `yaml.safe_load(compose_file.read_text(encoding="utf-8"))` -/
def loaded (reader : Reader Refusal) (files : Files) : Except (Raised Refusal) Yaml :=
  match readText files reader.composeFile with
  | .error raised => .error raised
  | .ok text => reader.safeLoad text

/-- What `references` makes of the parsed compose file. -/
def referencesIn (reader : Reader Refusal) (files : Files) (compose : Yaml) :
    Except (Raised Refusal) (List Str) :=
  match servicesOf compose with
  | .error error => .error (.own (.compose error))
  | .ok services =>
    match collect reader files ∅ services with
    | .error raised => .error raised
    | .ok found => .ok (sorted found)

/-- `references(compose_file)` -/
def references (reader : Reader Refusal) (files : Files) : Except (Raised Refusal) (List Str) :=
  match loaded reader files with
  | .error raised => .error raised
  | .ok compose => referencesIn reader files compose

/-- The loop of `print`: what was printed, and what was raised. Standard output
is UTF-8, so a string with a lone surrogate is a UnicodeEncodeError. -/
def printAll : List Str→List Str→List Str×Except (Raised Refusal) Unit
  | printed,[] => (printed,.ok ())
  | printed,reference::references =>
    match encode reference with
    | none => (printed,.error .unicodeEncode)
    | some _ => printAll (printed++[reference]) references

/-- The end of a run whose body raised, after it printed some lines. -/
def ended (reader : Reader Refusal) (files : Files) (printed : List Str)
    (raised : Raised Refusal) : Finished Refusal :=
  match caught reader raised with
  | some message => ⟨.ok 1,files,printed,[reader.composeFile++str ": "++message]⟩
  | none => ⟨.error raised,files,printed,[]⟩

/-- `main(argv)` -/
def main (reader : Reader Refusal) (files : Files) : List Str→Finished Refusal
  | [] =>
    match references reader files with
    | .error raised => ended reader files [] raised
    | .ok listed =>
      match printAll [] listed with
      | (printed,.error raised) => ended reader files printed raised
      | (printed,.ok _) => ⟨.ok 0,files,printed,[]⟩
  | _ => ⟨.ok 2,files,[],[str "usage: -m supply.images"]⟩

end MlopsPlatform.SupplyImages
