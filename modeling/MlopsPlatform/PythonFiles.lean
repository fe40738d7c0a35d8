import MlopsPlatform.PythonJson
import MlopsPlatform.TextLines

/-!
# Text files and the exceptions of reading and writing them

The file system a run sees: what each path holds, and which paths refuse to be
opened for writing. `read_text` is strict UTF-8 followed by newline
translation. `write_text` truncates the file on opening, before the text is
encoded, so a string that does not encode leaves an empty file behind.
-/

namespace MlopsPlatform.PythonFiles

open TextCodec TextLines

/-- Why a path is not read. -/
inductive Unread where
  /-- OSError: nothing is there, or it is refused. -/
  | os (message : Str)
  /-- ValueError: the string is no path, for a null or a character without a byte form. -/
  | value (message : Str)

/-- The file system as the programs use it. -/
structure Files where
  /-- The bytes of a path, or what reading it raises. -/
  content : Str→Except Unread ByteArray
  /-- The text of the OSError that opening a path for writing raises, if any. -/
  refused : Str→Option Str

/-- An exception, with `ε` the one the module itself defines. -/
inductive Raised (ε : Type) where
  /-- The module's own exception. -/
  | own (error : ε)
  /-- json.JSONDecodeError, a ValueError. -/
  | jsonDecode (message : Str)
  /-- OSError. -/
  | os (message : Str)
  /-- Another ValueError: a string that is no path, a number of too many digits. -/
  | value (message : Str)
  /-- RecursionError. -/
  | recursion
  /-- UnicodeDecodeError, a ValueError and not an OSError. -/
  | unicodeDecode
  /-- UnicodeEncodeError, a ValueError and not an OSError. -/
  | unicodeEncode
  /-- TypeError. -/
  | type
  /-- IndexError. -/
  | index

variable {ε : Type}

/-- How a run of an entrypoint ends. -/
structure Finished (ε : Type) where
  /-- The exit code, or the exception that escapes. -/
  result : Except (Raised ε) ℕ
  /-- The file system afterwards. -/
  files : Files
  /-- Lines printed on standard output. -/
  stdout : List Str
  /-- Lines printed on standard error. -/
  stderr : List Str

/-- `Path(path).read_text(encoding="utf-8")` -/
def readText (files : Files) (path : Str) : Except (Raised ε) Str :=
  match files.content path with
  | .error (.os message) => .error (.os message)
  | .error (.value message) => .error (.value message)
  | .ok bytes =>
    match decode bytes with
    | none => .error .unicodeDecode
    | some text => .ok (universalNewlines text)

/-- What an unparsed text raises. -/
def unparsed : PythonJson.Unparsed→Raised ε
  | .decode message => .jsonDecode message
  | .value message => .value message
  | .recursion => .recursion

/-- Replace the content of one path. -/
def Files.put (files : Files) (path : Str) (bytes : ByteArray) : Files :=
  {files with content := fun p => if p=path then .ok bytes else files.content p}

/-- `Path(path).write_text(text, encoding="utf-8", newline="\n")` -/
def writeText (files : Files) (path text : Str) : Except (Raised ε) Unit×Files :=
  match files.refused path with
  | some message => (.error (.os message),files)
  | none =>
    match encode text with
    | some bytes => (.ok (),files.put path bytes)
    | none => (.error .unicodeEncode,files.put path ByteArray.empty)

@[simp] theorem put_same (files : Files) (path : Str) (bytes : ByteArray) :
    (files.put path bytes).content path=.ok bytes := by
  simp only [Files.put,if_true]

@[simp] theorem put_other (files : Files) {path other : Str} (bytes : ByteArray)
    (h : other≠path) : (files.put path bytes).content other=files.content other := by
  simp only [Files.put,if_neg h]

/-- A file that holds a text is read as that text, newlines translated. -/
theorem readText_text {files : Files} {path : Str} {text : String}
    (h : files.content path=.ok text.toUTF8) :
    readText (ε:=ε) files path=.ok (universalNewlines (str text)) := by
  simp only [readText,h,decode_toUTF8]

/-- A path that cannot be read raises OSError. -/
theorem readText_absent {files : Files} {path message : Str}
    (h : files.content path=.error (.os message)) :
    readText (ε:=ε) files path=.error (.os message) := by
  simp only [readText,h]

/-- A string that is no path raises ValueError. -/
theorem readText_pathless {files : Files} {path message : Str}
    (h : files.content path=.error (.value message)) :
    readText (ε:=ε) files path=.error (.value message) := by
  simp only [readText,h]

/-- Only a file that holds a text is read. -/
theorem readText_eq_ok {files : Files} {path s : Str}
    (h : readText (ε:=ε) files path=.ok s) :
    ∃ text : String,files.content path=.ok text.toUTF8 ∧ s=universalNewlines (str text) := by
  unfold readText at h
  cases hc : files.content path with
  | error fault =>
    rw [hc] at h
    cases fault <;> cases h
  | ok bytes =>
    rw [hc] at h
    cases hd : decode bytes with
    | none =>
      simp only [hd] at h
      cases h
    | some t =>
      simp only [hd,Except.ok.injEq] at h
      obtain ⟨text,rfl,rfl⟩ := decode_eq_some hd
      exact ⟨text,rfl,h.symm⟩

/-- A write that succeeds leaves exactly the text's bytes behind. -/
theorem writeText_eq_ok {files after : Files} {path text : Str}
    (h : writeText (ε:=ε) files path text=(.ok (),after)) :
    ∃ t : String,text=str t ∧ after=files.put path t.toUTF8 := by
  unfold writeText at h
  split at h
  · cases h
  · split at h
    · rename_i bytes hb
      obtain ⟨t,ht,rfl⟩ := encode_eq_some hb
      cases h
      exact ⟨t,ht,rfl⟩
    · cases h

/-- A text is written whenever the path may be opened. -/
theorem writeText_str {files : Files} {path : Str} (hopen : files.refused path=none)
    (text : String) :
    writeText (ε:=ε) files path (str text)=(.ok (),files.put path text.toUTF8) := by
  simp only [writeText,hopen,encode_str]

/-- A string that does not encode leaves an empty file behind. -/
theorem writeText_unencodable {files : Files} {path text : Str} (hopen : files.refused path=none)
    (h : ¬encodes text=true) :
    writeText (ε:=ε) files path text=(.error .unicodeEncode,files.put path ByteArray.empty) := by
  simp only [writeText,hopen,encode_eq_none_iff.mpr h]

/-- What a write can do: the path is not opened and nothing changes, the text
does not encode and an empty file is left, or the text is written. -/
theorem writeText_cases (files : Files) (path text : Str) :
    (files.refused path≠none ∧
      ∃ message,writeText (ε:=ε) files path text=(.error (.os message),files)) ∨
    (files.refused path=none ∧ ¬encodes text=true ∧
      writeText (ε:=ε) files path text=(.error .unicodeEncode,files.put path ByteArray.empty)) ∨
    (encodes text=true ∧
      ∃ bytes,writeText (ε:=ε) files path text=(.ok (),files.put path bytes)) := by
  cases hopen : files.refused path with
  | some message =>
    exact Or.inl ⟨fun h => (by cases h),message,by simp only [writeText,hopen]⟩
  | none =>
    right
    by_cases h : encodes text=true
    · refine Or.inr ⟨h,?_⟩
      cases hencode : encode text with
      | none => exact absurd h (encode_eq_none_iff.mp hencode)
      | some bytes => exact ⟨bytes,by simp only [writeText,hopen,hencode]⟩
    · exact Or.inl ⟨rfl,h,writeText_unencodable hopen h⟩

end MlopsPlatform.PythonFiles
