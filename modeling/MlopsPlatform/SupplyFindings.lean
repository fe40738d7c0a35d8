import MlopsPlatform.PythonJson
import MlopsPlatform.PythonFiles
import MlopsPlatform.SupplyAdvisory
import MlopsPlatform.TextSorted

/-!
# The advisory gate of `supply.findings`

`advisories` reads a scanner report, `baseline` reads the committed list,
`write` replaces it, and `main` compares or accepts. The reader of one match
and the reader of one baseline line are functions of their own, and each loop
is described by what its body accepts.
-/

namespace MlopsPlatform.SupplyFindings

open TextCodec TextLines TextStrip TextSorted PythonJson PythonFiles SupplyAdvisory

/-- The severities the gate covers. -/
def gated : List Str := [str "Critical",str "High"]

/-- FindingsError, by the place that raises it. -/
inductive FindingsError where
  /-- The document is not an object. -/
  | notAnObject (typeName : Str)
  /-- The `matches` key is absent or null. -/
  | noMatches
  /-- `matches` is something else than a list. -/
  | matchesNotAList (typeName : Str)
  /-- An entry of `matches` is not an object. -/
  | matchNotAnObject (index : ℕ) (typeName : Str)
  /-- A match without a vulnerability object. -/
  | noVulnerability (index : ℕ)
  /-- A vulnerability whose id is not a nonempty string. -/
  | noUsableId (index : ℕ) (identifier : Json)
  /-- A severity that is not a string. -/
  | severityNotAString (identifier : Str) (severity : Json)
  /-- A baseline that cannot be read. -/
  | couldNotBeRead (path error : Str)
  /-- A baseline line outside the identifier grammar. -/
  | notAnIdentifier (path : Str) (number : ℕ) (entry : Str)

/-- The text of a FindingsError. -/
def FindingsError.message (py : Interp) : FindingsError→Str
  | .notAnObject name =>
    str "expected a grype report object, read a "++name++
      str "; the scanner probably wrote an error to this path instead of a report"
  | .noMatches =>
    str "the report has no `matches` key, so it is not a grype JSON report; check the "++
      str "scanner was asked for `-o json` and exited without error"
  | .matchesNotAList name => str "`matches` is a "++name++str ", not a list"
  | .matchNotAnObject index name =>
    str "match "++digits index++str " is a "++name++str ", not an object"
  | .noVulnerability index => str "match "++digits index++str " carries no vulnerability object"
  | .noUsableId index identifier =>
    str "match "++digits index++str " has no usable vulnerability id: "++py.repr identifier
  | .severityNotAString identifier severity =>
    identifier++str ": severity is "++py.repr severity++str ", not a string"
  | .couldNotBeRead path error =>
    path++str " could not be read: "++error++str ". If this image has never been scanned, "++
      str "`make scan-accept` writes the first baseline, which is a deliberate act and lands "++
      str "as a reviewable diff."
  | .notAnIdentifier path number entry =>
    path++str ":"++digits number++str ": "++py.repr (.str entry)++
      str " is not an advisory identifier. An entry that "++
      str "matches no finding makes this baseline more permissive than it looks."

/-- What the gate reads in one well-formed match. -/
structure Finding where
  /-- The advisory identifier. -/
  identifier : Str
  /-- The severity, gated or not. -/
  severity : Str
  /-- A finding without an identifier is refused. -/
  named : identifier≠[]

/-- The checks `advisories` makes on one entry of `matches`. -/
def readMatch (index : ℕ) : Json→Except FindingsError Finding
  | .dict fields =>
    match get fields (str "vulnerability") with
    | .dict vulnerability =>
      match get vulnerability (str "id") with
      | .str identifier =>
        if named : identifier≠[] then
          match get vulnerability (str "severity") with
          | .str severity => .ok ⟨identifier,severity,named⟩
          | other => .error (.severityNotAString identifier other)
        else .error (.noUsableId index (.str identifier))
      | other => .error (.noUsableId index other)
    | _ => .error (.noVulnerability index)
  | other => .error (.matchNotAnObject index (typeName other))

/-- The loop of `advisories` over the entries of `matches`. -/
def collect (severities : List Str) : ℕ→Finset Str→List Json→Except FindingsError (Finset Str)
  | _,found,[] => .ok found
  | index,found,entry::entries =>
    match readMatch index entry with
    | .error error => .error error
    | .ok finding =>
      if finding.severity∈severities then
        collect severities (index+1) (insert finding.identifier found) entries
      else collect severities (index+1) found entries

/-- `advisories(document, severities)` -/
def advisories (document : Json) (severities : List Str) : Except FindingsError (List Str) :=
  match document with
  | .dict fields =>
    match get fields (str "matches") with
    | .none => .error .noMatches
    | .list entries =>
      match collect severities 0 ∅ entries with
      | .error error => .error error
      | .ok found => .ok (sorted found)
    | other => .error (.matchesNotAList (typeName other))
  | other => .error (.notAnObject (typeName other))

/-- The loop of `baseline` over the numbered lines of the file. -/
def readEntries (path : Str) : ℕ→Finset Str→List Str→Except FindingsError (Finset Str)
  | _,found,[] => .ok found
  | number,found,line::lines =>
    let entry := strip line
    if entry=[] ∨ entry.head?=some 0x23 then readEntries path (number+1) found lines
    else if advisoryMatch entry=true then
      readEntries path (number+1) (insert entry found) lines
    else .error (.notAnIdentifier path number entry)

/-- `baseline(path)`: only the OSError of the read becomes a FindingsError. -/
def baseline (files : Files) (path : Str) : Except (Raised FindingsError) (Finset Str) :=
  match readText files path with
  | .error (.os error) => .error (.own (.couldNotBeRead path error))
  | .error raised => .error raised
  | .ok text =>
    match readEntries path 1 ∅ (splitlines text) with
    | .error error => .error (.own error)
    | .ok found => .ok found

/-- The lines of `HEADER`, with the severities filled in. -/
def headerLines (severities : Str) : List Str :=
  [str "# Advisories already present against this image when the baseline was taken.",
    str "#",
    str "# NOT accepted risks. An entry here claims only that the advisory was already there. It carries",
    str "# no judgement, needs no reason, and grants no exception. Accepted findings live in",
    str "# security/exceptions.toml, need a reason and an expiry, and are reviewed. See record 022.",
    str "#",
    str "# Generated by `make scan-accept`. Gated severities: "++severities++str "."]

/-- `HEADER.format(severities=", ".join(GATED))` -/
def header : Str := (headerLines (join (str ", ") gated)).flatMap (fun line => line++[lf])

/-- The text `write` writes: header, identifiers, one line feed at the end. -/
def baselineText (identifiers : List Str) : Str := header++(join [lf] identifiers++[lf])

/-- `write(path, identifiers)` -/
def write (files : Files) (path : Str) (identifiers : List Str) :
    Except (Raised FindingsError) ℕ×Files :=
  match writeText files path (baselineText identifiers) with
  | (.error raised,after) => (.error raised,after)
  | (.ok (),after) => (.ok identifiers.length,after)

/-- The `try` block of `main`: read, parse and check the report. -/
def readReport (py : Interp) (files : Files) (report : Str) :
    Except (Raised FindingsError) (List Str) :=
  match readText files report with
  | .error raised => .error raised
  | .ok text =>
    match py.loads text with
    | .error fault => .error (unparsed fault)
    | .ok document =>
      match advisories document gated with
      | .error error => .error (.own error)
      | .ok current => .ok current

/-- What `except (FindingsError, json.JSONDecodeError, OSError)` catches. -/
def caught (py : Interp) : Raised FindingsError→Option Str
  | .own error => some (error.message py)
  | .jsonDecode message => some message
  | .os message => some message
  | _ => none

/-- The flag that turns the comparison into an acceptance. -/
def acceptFlag : Str := str "--accept"

/-- The branch of `main` that writes the baseline. -/
def accepting (files : Files) (known : Str) (current : List Str) : Finished FindingsError :=
  match write files known current with
  | (.error raised,after) => ⟨.error raised,after,[],[]⟩
  | (.ok count,after) =>
    ⟨.ok 0,after,[known++str ": "++digits count++str " advisories written as the baseline"],[]⟩

/-- What is said about advisories that are no longer found. -/
def goneLines (known : Str) (gone : List Str) : List Str :=
  if gone=[] then []
  else
    [known++str ": "++digits gone.length++str " baselined, no longer found: "++
      join (str ", ") (gone.take 8)++(if 8<gone.length then str " ..." else [])]

/-- The branch of `main` that compares against the baseline. -/
def comparing (py : Interp) (files : Files) (known : Str) (current : List Str) :
    Finished FindingsError :=
  match baseline files known with
  | .error (.own error) => ⟨.ok 1,files,[],[error.message py]⟩
  | .error raised => ⟨.error raised,files,[],[]⟩
  | .ok entries =>
    let unknown := sorted (current.toFinset\entries)
    let gone := sorted (entries\current.toFinset)
    if unknown=[] then
      ⟨.ok 0,files,goneLines known gone++
        [known++str ": "++digits current.length++str " advisories, all baselined"],[]⟩
    else
      ⟨.ok 1,files,goneLines known gone,
        [known++str ": "++digits unknown.length++
          str " advisories above the gate are not baselined:"]++
        unknown.map (fun identifier => str "  "++identifier)++
        [str "  The scan table above names the package and the fixed version for each. Fix them, "++
          str "or accept them deliberately with `make scan-accept` and let the diff be reviewed."]⟩

/-- `main(argv)` -/
def main (py : Interp) (files : Files) (argv : List Str) : Finished FindingsError :=
  match argv.filter (fun item => item≠acceptFlag) with
  | [known,report] =>
    match readReport py files report with
    | .error raised =>
      match caught py raised with
      | some message => ⟨.ok 1,files,[],[report++str ": "++message]⟩
      | none => ⟨.error raised,files,[],[]⟩
    | .ok current =>
      if acceptFlag∈argv then accepting files known current else comparing py files known current
  | _ =>
    ⟨.ok 2,files,[],
      [str "usage: -m supply.findings [--accept] <baseline.known.txt> <report.findings.json>"]⟩

end MlopsPlatform.SupplyFindings
