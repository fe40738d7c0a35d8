import MlopsPlatform.TextStrip
import MlopsPlatform.TextSorted
import MlopsPlatform.TextSeparators
import MlopsPlatform.PythonFiles
import MlopsPlatform.DigestHex
import Mathlib.Data.List.AList

/-!
# What the spine needs before it starts

`parseEnvPairs` reads dotenv-shaped text, `effectiveValue` resolves one name
against the environment and that text, `missingCredentials` names what has no
value, and `fingerprint` is the digest of a credential pair. The two readers of
a value agree on what it means for one to be set.
-/

namespace MlopsPlatform.PreflightCredentials

open TextCodec TextLines TextStrip TextSorted TextSeparators PythonFiles DigestHex

/-- When a value is read. -/
inductive Timing where
  /-- Only while an empty data directory is initialised. -/
  | firstInit
  /-- On every start. -/
  | everyStart
deriving DecidableEq

/-- When a value takes effect, and what a different one then costs. -/
structure Credential where
  /-- When it is read. -/
  timing : Timing
  /-- What handing the stack a different one costs. -/
  consequence : Str

/-- `READ_TIMING["POSTGRES_USER"]` -/
def postgresUser : Credential :=
  ⟨.firstInit,
    str "the superuser role is created once, while the data directory is initialised; a kept "++
      str "volume keeps the first run's role and answers a new one with FATAL: role \"x\" does not "++
      str "exist"⟩

/-- `READ_TIMING` -/
def readTiming : List (Str×Credential) :=
  [(str "MINIO_ROOT_USER",⟨.everyStart,
      str "MinIO reads its root credentials at every start, so rotating the pair is safe; MLflow "++
        str "is handed the same two values and picks up the change with it"⟩),
    (str "MINIO_ROOT_PASSWORD",⟨.everyStart,
      str "rotatable with MINIO_ROOT_USER, and rotated in the same edit or neither works"⟩),
    (str "POSTGRES_USER",postgresUser),
    (str "POSTGRES_PASSWORD",⟨.firstInit,
      str "set on that same role at that same moment; a kept volume answers the new password "++
        str "with a password authentication failure, which compose reports only as an unhealthy "++
        str "container"⟩),
    (str "POSTGRES_DB",⟨.firstInit,
      str "the database is created during the first initialisation only; renaming it later "++
        str "leaves the old database in place and points MLflow's backend URI at a name that "++
        str "does not exist"⟩),
    (str "AIRFLOW_FERNET_KEY",⟨.everyStart,
      str "read at every start, so the key can be replaced, but connections and variables "++
        str "already encrypted with the old one become unreadable, which is a data loss rather "++
        str "than an error"⟩),
    (str "AIRFLOW_ADMIN_PASSWORD",⟨.firstInit,
      str "the entrypoint creates the admin account and tolerates its own failure, so against a "++
        str "database that already holds an admin the create is a silent no-op and the first "++
        str "run's password stays in force"⟩)]

/-- The equals sign. -/
def equals : CodePoint := 0x3d

/-- The number sign, which opens a comment. -/
def hash : CodePoint := 0x23

/-- The double quote. -/
def doubleQuote : CodePoint := 0x22

/-- The single quote. -/
def singleQuote : CodePoint := 0x27

/-- A dictionary of strings: also what `os.environ` maps. -/
abbrev Pairs := AList (fun _ : Str => Str)

/-- `pairs.get(name, "")` -/
def valueIn (pairs : Pairs) (name : Str) : Str := (pairs.lookup name).getD []

/-- The value starts and ends with the quote, and these are two characters. -/
def Wrapped (quote : CodePoint) (value : Str) : Prop :=
  2≤value.length ∧ value.head?=some quote ∧ value.getLast?=some quote

instance (quote : CodePoint) (value : Str) : Decidable (Wrapped quote value) :=
  inferInstanceAs (Decidable (_∧_))

/-- `_unquote(value)` -/
def unquote (value : Str) : Str :=
  if Wrapped doubleQuote value then value.tail.dropLast
  else if Wrapped singleQuote value then value.tail.dropLast
  else value

/-- What one line assigns: nothing for a blank line, a comment or one without
an equals sign. -/
def parseLine (line : Str) : Option (Str×Str) :=
  let stripped := strip line
  if stripped=[] ∨ stripped.head?=some hash ∨ equals∉stripped then none
  else
    let parts := partition equals stripped
    some (strip parts.1,unquote (strip parts.2.2))

/-- The body of the loop of `parse_env_pairs`. -/
def assign (pairs : Pairs) (line : Str) : Pairs :=
  match parseLine line with
  | none => pairs
  | some (name,value) => pairs.insert name value

/-- `parse_env_pairs(text)` -/
def parseEnvPairs (text : Str) : Pairs := (splitlines text).foldl assign ∅

/-- `effective_value(name, env_text, environ)` -/
def effectiveValue (name : Str) (envText : Option Str) (environ : Pairs) : Str :=
  let exported := valueIn environ name
  if strip exported≠[] then exported else valueIn (parseEnvPairs (envText.getD [])) name

/-- `{name for name, value in pairs.items() if test(value)}` -/
def namesWith (test : Str→Bool) (pairs : Pairs) : Finset Str :=
  ((pairs.entries.filter (fun entry => test entry.2)).map Sigma.fst).toFinset

/-- `missing_credentials(example_text, env_text, environ)` -/
def missingCredentials (exampleText : Str) (envText : Option Str) (environ : Pairs) :
    Finset Str :=
  let required := (parseEnvPairs exampleText).keys.toFinset
  let satisfied := namesWith (fun value => value≠[]) (parseEnvPairs (envText.getD [])) ∪
    namesWith (fun value => strip value≠[]) environ
  required\satisfied

/-- `credentials_skip_reason(missing)` -/
def credentialsSkipReason (missing : Finset Str) : Str :=
  str "the compose spine has no credentials to start with: "++join (str ", ") (sorted missing)++
    str " unset in both .env and the environment. Copy .env.example to .env and fill it in."

/-- `f"{salt}:{user}:{password}"` -/
def credentialJoin (salt user password : Str) : Str := salt++str ":"++user++str ":"++password

/-- What the preflight raises: it defines no exception of its own. -/
abbrev Failure := Raised Empty

/-- `fingerprint(salt, user, password)`: `encode` refuses a lone surrogate. -/
def fingerprint (sha256 : Digest) (salt user password : Str) : Except Failure Str :=
  match encode (credentialJoin salt user password) with
  | none => .error .unicodeEncode
  | some bytes => .ok (sha256.hexdigest bytes)

/-- The last value that lines assign to a name. -/
def lastAssigned (name : Str) (lines : List Str) : Option Str :=
  (lines.filterMap parseLine).reverse.lookup name

theorem lastAssigned_cons (name line : Str) (lines : List Str) :
    lastAssigned name (line::lines)=
      (lastAssigned name lines).or ((parseLine line).toList.lookup name) := by
  unfold lastAssigned
  cases h : parseLine line with
  | none => rw [List.filterMap_cons_none h,Option.toList_none,List.lookup_nil,Option.or_none]
  | some pair => rw [List.filterMap_cons_some h,List.reverse_cons,List.lookup_append,Option.toList_some]

/-- One line changes the value of the name it assigns, and no other. -/
theorem lookup_assign (pairs : Pairs) (line name : Str) :
    (assign pairs line).lookup name=
      ((parseLine line).toList.lookup name).or (pairs.lookup name) := by
  unfold assign
  cases parseLine line with
  | none => rfl
  | some pair =>
    obtain ⟨assigned,value⟩ := pair
    rw [Option.toList_some,List.lookup_singleton]
    by_cases h : name=assigned
    · rw [h,AList.lookup_insert,if_pos (beq_self_eq_true _),Option.some_or]
    · rw [AList.lookup_insert_ne h,if_neg (by simpa using h),Option.none_or]

/-- Later lines win over earlier ones. -/
theorem lookup_foldl_assign (pairs : Pairs) (lines : List Str) (name : Str) :
    (lines.foldl assign pairs).lookup name=(lastAssigned name lines).or (pairs.lookup name) := by
  induction lines generalizing pairs with
  | nil => rfl
  | cons line lines ih =>
    rw [List.foldl_cons,ih,lookup_assign,lastAssigned_cons,Option.or_assoc]

/-- A text maps each name to the last value it assigns to it. -/
theorem lookup_parseEnvPairs (text name : Str) :
    (parseEnvPairs text).lookup name=lastAssigned name (splitlines text) := by
  rw [parseEnvPairs,lookup_foldl_assign,AList.lookup_empty,Option.or_none]

/-- The last pair with a name is the first one from behind. -/
theorem lookup_reverse_eq_some_iff {pairs : List (Str×Str)} {name value : Str} :
    pairs.reverse.lookup name=some value ↔
      ∃ before after,pairs=before++(name,value)::after ∧ ∀ later∈after,later.1≠name := by
  rw [List.lookup_eq_some_iff]
  constructor
  · rintro ⟨after,before,hs,hafter⟩
    refine ⟨before.reverse,after.reverse,?_,fun later hl => ?_⟩
    · rw [←List.reverse_reverse pairs,hs,List.reverse_append,List.reverse_cons,List.append_assoc,
        List.singleton_append]
    · have hne := hafter later (List.mem_reverse.mp hl)
      exact fun he => bne_iff_ne.mp hne he.symm
  · rintro ⟨before,after,hs,hafter⟩
    refine ⟨after.reverse,before.reverse,?_,fun later hl => ?_⟩
    · rw [hs,List.reverse_append,List.reverse_cons,List.append_assoc,List.singleton_append]
    · exact bne_iff_ne.mpr (hafter later (List.mem_reverse.mp hl)).symm

/-- What the last line that assigns a name gives it. -/
theorem lastAssigned_eq_some_iff {name value : Str} {lines : List Str} :
    lastAssigned name lines=some value ↔ ∃ before line after,lines=before++line::after ∧
      parseLine line=some (name,value) ∧
      ∀ later∈after,∀ other,parseLine later≠some (name,other) := by
  rw [lastAssigned,lookup_reverse_eq_some_iff]
  constructor
  · rintro ⟨ahead,behind,hmap,hnone⟩
    obtain ⟨first,rest,rfl,-,hrest⟩ := List.filterMap_eq_append_iff.mp hmap
    obtain ⟨skipped,line,after,rfl,-,hline,hafter⟩ := List.filterMap_eq_cons_iff.mp hrest
    refine ⟨first++skipped,line,after,(List.append_assoc ..).symm,hline,?_⟩
    intro later hm other hlater
    refine hnone (name,other) ?_ rfl
    rw [←hafter]
    exact List.mem_filterMap.mpr ⟨later,hm,hlater⟩
  · rintro ⟨before,line,after,rfl,hline,hafter⟩
    refine ⟨before.filterMap parseLine,after.filterMap parseLine,?_,?_⟩
    · rw [List.filterMap_append,List.filterMap_cons_some hline]
    · intro pair hpair hname
      obtain ⟨later,hm,hlater⟩ := List.mem_filterMap.mp hpair
      refine hafter later hm pair.2 ?_
      rw [hlater,←hname]

/-- A value comes from a line that assigns it. -/
theorem exists_line_of_lastAssigned {name value : Str} {lines : List Str}
    (h : lastAssigned name lines=some value) :
    ∃ line∈lines,parseLine line=some (name,value) := by
  obtain ⟨before,line,after,rfl,hline,-⟩ := lastAssigned_eq_some_iff.mp h
  exact ⟨line,List.mem_append_right _ List.mem_cons_self,hline⟩

/-- A pair of quotes is removed. -/
theorem unquote_quoted {quote : CodePoint} (hq : quote=doubleQuote ∨ quote=singleQuote)
    (inner : Str) : unquote (quote::(inner++[quote]))=inner := by
  have hw : Wrapped quote (quote::(inner++[quote])) := by
    refine ⟨?_,rfl,?_⟩
    · rw [List.length_cons,List.length_append,List.length_singleton]
      omega
    · rw [←List.cons_append,List.getLast?_concat]
  have hinner : (quote::(inner++[quote])).tail.dropLast=inner := by
    rw [List.tail_cons,List.dropLast_concat]
  rcases hq with rfl|rfl
  · rw [unquote,if_pos hw,hinner]
  · rw [unquote,if_neg (fun h => by cases h.2.1),if_pos hw,hinner]

theorem isSpace_equals : isSpace equals=false := by decide

/-- Whitespace is no equals sign. -/
theorem equals_notMem_blank {s : Str} (h : Blank s) : equals∉s := by
  intro hm
  have hs := h equals hm
  rw [isSpace_equals] at hs
  cases hs

/-- A line with a name and an equals sign assigns what stands behind the sign,
stripped and unquoted. -/
theorem parseLine_name {l name r : Str} (hl : Blank l) (hr : Blank r) (ht : Trimmed name)
    (hne : name≠[]) (he : equals∉name) (hh : name.head?≠some hash) (value : Str) :
    parseLine (l++name++r++equals::value)=some (name,unquote (strip value)) := by
  have hstrip : strip (l++name++r++equals::value)=name++r++equals::value.rdropWhile isSpace := by
    rw [strip_middle isSpace_equals,dropWhile_padded hl ht hne]
  have hhead : (name++r++equals::value.rdropWhile isSpace).head?=name.head? := by
    rw [List.append_assoc,List.head?_append_of_ne_nil _ hne]
  have hread : ¬(name++r++equals::value.rdropWhile isSpace=[] ∨
      (name++r++equals::value.rdropWhile isSpace).head?=some hash ∨
      equals∉name++r++equals::value.rdropWhile isSpace) := by
    refine not_or.mpr ⟨by simp,not_or.mpr ⟨?_,?_⟩⟩
    · rw [hhead]
      exact hh
    · exact not_not.mpr (List.mem_append_right _ List.mem_cons_self)
  have hfirst : equals∉name++r := by
    rw [List.mem_append,not_or]
    exact ⟨he,equals_notMem_blank hr⟩
  have hname : strip (name++r)=name := by
    have hs := strip_append (m := name) blank_nil hr
    rwa [List.nil_append,strip_of_trimmed ht] at hs
  rw [parseLine,hstrip,if_neg hread]
  simp only [partition_first hfirst,hname,strip_rdropWhile]

/-- Removing quotes adds no character. -/
theorem mem_of_mem_unquote {value : Str} {c : CodePoint} (h : c∈unquote value) : c∈value := by
  unfold unquote at h
  split at h
  · exact List.mem_of_mem_tail (List.mem_of_mem_dropLast h)
  · split at h
    · exact List.mem_of_mem_tail (List.mem_of_mem_dropLast h)
    · exact h

/-- A line that assigns is, without the blanks around it, no comment, and is cut
at its first equals sign. -/
theorem parseLine_cases {line name value : Str} (h : parseLine line=some (name,value)) :
    (strip line).head?≠some hash ∧ ∃ left raw,strip line=left++equals::raw ∧ equals∉left ∧
      name=strip left ∧ value=unquote (strip raw) := by
  unfold parseLine at h
  dsimp only at h
  split at h
  · cases h
  · rename_i hkeep
    rw [not_or,not_or,not_not] at hkeep
    obtain ⟨left,raw,hs,hleft⟩ :=
      (exists_partition equals (strip line)).resolve_left (not_not.mpr hkeep.2.2)
    rw [hs,partition_first hleft,Option.some.injEq,Prod.mk.injEq] at h
    exact ⟨hkeep.2.1,left,raw,hs,hleft,h.1.symm,h.2.symm⟩

/-- The characters of a value are characters of its line. -/
theorem mem_of_parseLine {line name value : Str} (h : parseLine line=some (name,value))
    {c : CodePoint} (hc : c∈value) : c∈line := by
  obtain ⟨-,left,raw,hs,-,-,rfl⟩ := parseLine_cases h
  have hraw : c∈raw := mem_of_mem_strip (mem_of_mem_unquote hc)
  refine mem_of_mem_strip ?_
  rw [hs]
  exact List.mem_append_right _ (List.mem_cons_of_mem _ hraw)

/-- The characters of a value are characters of the text. -/
theorem mem_of_mem_valueIn {text name : Str} {c : CodePoint}
    (hc : c∈valueIn (parseEnvPairs text) name) : c∈text := by
  rw [valueIn,lookup_parseEnvPairs] at hc
  cases h : lastAssigned name (splitlines text) with
  | none =>
    rw [h] at hc
    cases hc
  | some value =>
    rw [h] at hc
    obtain ⟨line,hl,hp⟩ := exists_line_of_lastAssigned h
    exact (mem_splitlines hl).2 c (mem_of_parseLine hp hc)

/-- A name is listed exactly when its value passes the test. -/
theorem mem_namesWith {test : Str→Bool} {pairs : Pairs} {name : Str} :
    name∈namesWith test pairs ↔ ∃ value,pairs.lookup name=some value ∧ test value=true := by
  simp only [namesWith,List.mem_toFinset,List.mem_map,List.mem_filter]
  constructor
  · rintro ⟨⟨n,value⟩,⟨hm,ht⟩,rfl⟩
    exact ⟨value,AList.mem_lookup_iff.mpr hm,ht⟩
  · rintro ⟨value,hl,ht⟩
    exact ⟨⟨name,value⟩,⟨AList.mem_lookup_iff.mp hl,ht⟩,rfl⟩

/-- With a test the empty string fails, that is a test of the value or the default. -/
theorem mem_namesWith_valueIn {test : Str→Bool} (hempty : test []=false) {pairs : Pairs}
    {name : Str} : name∈namesWith test pairs ↔ test (valueIn pairs name)=true := by
  rw [mem_namesWith,valueIn]
  cases pairs.lookup name with
  | none => simp [hempty]
  | some value => simp

/-- A nonblank export decides the value. -/
theorem effectiveValue_exported {name : Str} {envText : Option Str} {environ : Pairs}
    (h : strip (valueIn environ name)≠[]) :
    effectiveValue name envText environ=valueIn environ name := if_pos h

/-- Without a nonblank export the file decides it. -/
theorem effectiveValue_file {name : Str} {envText : Option Str} {environ : Pairs}
    (h : strip (valueIn environ name)=[]) :
    effectiveValue name envText environ=valueIn (parseEnvPairs (envText.getD [])) name :=
  if_neg (not_not.mpr h)

/-- A value has a UTF-8 form when the file and the environment have one. -/
theorem effectiveValue_scalar {envText : Option Str} {environ : Pairs}
    (hfile : ∀ text,envText=some text → text.all isScalar=true)
    (henviron : ∀ name value,environ.lookup name=some value → value.all isScalar=true)
    (name : Str) : (effectiveValue name envText environ).all isScalar=true := by
  by_cases h : strip (valueIn environ name)=[]
  · rw [effectiveValue_file h,List.all_eq_true]
    intro c hc
    have hmem := mem_of_mem_valueIn hc
    cases htext : envText with
    | none =>
      rw [htext] at hmem
      cases hmem
    | some text =>
      rw [htext] at hmem
      exact List.all_eq_true.mp (hfile text htext) c hmem
  · rw [effectiveValue_exported h,valueIn]
    cases hl : environ.lookup name with
    | none => rfl
    | some value => exact henviron name value hl

/-- The value is empty exactly when neither source sets it. -/
theorem effectiveValue_eq_nil_iff {name : Str} {envText : Option Str} {environ : Pairs} :
    effectiveValue name envText environ=[] ↔
      valueIn (parseEnvPairs (envText.getD [])) name=[] ∧ strip (valueIn environ name)=[] := by
  by_cases h : strip (valueIn environ name)=[]
  · rw [effectiveValue_file h]
    exact (and_iff_left h).symm
  · have hne : valueIn environ name≠[] := by
      intro he
      rw [he] at h
      exact h rfl
    rw [effectiveValue_exported h]
    exact iff_of_false hne (fun hb => h hb.2)

/-- What is missing is what the example declares and no source sets. -/
theorem mem_missingCredentials {exampleText : Str} {envText : Option Str} {environ : Pairs}
    {name : Str} :
    name∈missingCredentials exampleText envText environ ↔
      name∈parseEnvPairs exampleText ∧ effectiveValue name envText environ=[] := by
  have hfile : name∈namesWith (fun value => value≠[]) (parseEnvPairs (envText.getD [])) ↔
      valueIn (parseEnvPairs (envText.getD [])) name≠[] :=
    (mem_namesWith_valueIn (by decide)).trans decide_eq_true_iff
  have hexport : name∈namesWith (fun value => strip value≠[]) environ ↔
      strip (valueIn environ name)≠[] :=
    (mem_namesWith_valueIn (by decide)).trans decide_eq_true_iff
  rw [missingCredentials,Finset.mem_sdiff,Finset.mem_union,List.mem_toFinset,AList.mem_keys,
    hfile,hexport,effectiveValue_eq_nil_iff,not_or,not_not,not_not]

/-- A text that can be encoded has a fingerprint. -/
theorem fingerprint_eq_ok (sha256 : Digest) {salt user password : Str}
    (hs : salt.all isScalar=true) (hu : user.all isScalar=true)
    (hp : password.all isScalar=true) :
    ∃ bytes,encode (credentialJoin salt user password)=some bytes ∧
      fingerprint sha256 salt user password=.ok (sha256.hexdigest bytes) := by
  have hall : (credentialJoin salt user password).all isScalar=true := by
    simp only [credentialJoin,List.all_append,hs,hu,hp,str_scalar,Bool.and_true]
  refine ⟨_,if_pos hall,?_⟩
  simp only [fingerprint,encode,if_pos hall]

/-- Equal fingerprints are fingerprints of one joined text. -/
theorem fingerprint_join {sha256 : Digest} {salt salt' user user' password password' digest : Str}
    (h : fingerprint sha256 salt user password=.ok digest)
    (h' : fingerprint sha256 salt' user' password'=.ok digest) :
    credentialJoin salt user password=credentialJoin salt' user' password' := by
  unfold fingerprint at h h'
  split at h
  · cases h
  · rename_i bytes hb
    split at h'
    · cases h'
    · rename_i bytes' hb'
      cases h
      rw [Except.ok.injEq] at h'
      have hbytes : bytes'=bytes := sha256.injective h'
      rw [hbytes] at hb'
      exact encode_injective hb hb'

/-- The salt the suite's checks use. -/
def sampleSalt : String := "0123456789abcdef0123456789abcdef"

/-- What SHA-256 makes of that salt and the suite's credential pair. -/
def sampleHex : Str := str "96efd221ad6403ed587e9e9fd94b747d88d854ec579dcc1ebf3150b205c0d588"

/-- A digest that agrees with SHA-256 there. -/
def sampleDigest : Digest :=
  knownDigest (sampleSalt++":platform:1f4c9b2e7a").toUTF8 sampleHex (by decide) (by decide)

example : sampleDigest.hexdigest (sampleSalt++":platform:1f4c9b2e7a").toUTF8=sampleHex :=
  knownDigest_same

end MlopsPlatform.PreflightCredentials
