import MlopsPlatform.PreflightRequired
import MlopsPlatform.PreflightCompose

/-!
# The Secret the chart's workloads read

`kind-deploy` hands `.env` to `kubectl create secret --from-env-file`, whose
documented reader takes what follows the first equals sign of a line as it is.
The doctor and compose strip blanks and quotes, take the last assignment and
prefer the environment. The two give one value exactly when the file spells it
bare and only once.
-/

namespace MlopsPlatform.ChartSecret

open TextCodec TextLines TextStrip TextSeparators ComposeDotenv PreflightCredentials
open PreflightChecks PreflightPipeline PreflightRequired PreflightCompose

/-- `.Values.credentials.keys` -/
def chartKeys : List Str :=
  [str "POSTGRES_USER",str "POSTGRES_PASSWORD",str "POSTGRES_DB",str "MINIO_ROOT_USER",
    str "MINIO_ROOT_PASSWORD"]

/-- What kubectl reads a line of the file as: nothing for a blank line or a
comment, otherwise what stands before and after the first equals sign. -/
def envFileEntry (line : Str) : Option (Str×Str) :=
  if strip line=[] ∨ line.head?=some hash then none
  else
    let parts := partition equals line
    if parts.2.1=[] then none else some (parts.1,parts.2.2)

/-- What kubectl reads a file as. -/
def envFilePairs (text : Str) : List (Str×Str) := (composeLines text).filterMap envFileEntry

/-- A Secret created from a file. The reader's documentation does not say which
assignment of a repeated key is kept, so a Secret may have any of them. -/
structure Secret (text : Str) where
  /-- The value under a key. -/
  value : Str→Option Str
  /-- Every value was read from the file. -/
  assigned : ∀ key found,value key=some found → (key,found)∈envFilePairs text
  /-- Every key of the file is there. -/
  complete : ∀ key found,(key,found)∈envFilePairs text → ∃ kept,value key=some kept

/-- What the doctor reads `.env` as. -/
def envText (text : String) : Str := universalNewlines (str text)

/-- A name that is read as it stands. -/
structure PlainKey (key : Str) : Prop where
  /-- It is not empty. -/
  nonempty : key≠[]
  /-- It opens no comment. -/
  noHash : key.head?≠some hash
  /-- It has no equals sign. -/
  noEquals : equals∉key
  /-- It has no blank. -/
  noBlank : key.all (fun c => !isSpace c)=true

/-- A value that stripping and unquoting leave as it is. -/
structure Bare (value : Str) : Prop where
  /-- It has no blank at its ends. -/
  trimmed : strip value=value
  /-- It is not in double quotes. -/
  noDouble : ¬Wrapped doubleQuote value
  /-- It is not in single quotes. -/
  noSingle : ¬Wrapped singleQuote value

/-- The file assigns the value to the key in so many words, and no other. -/
structure Written (text key value : Str) : Prop where
  /-- A line does. -/
  present : key++equals::value∈composeLines text
  /-- No line does so with another value. -/
  unique : ∀ other,key++equals::other∈composeLines text → other=value

/-- A line of the file with no line behind it that assigns the key. -/
def Last (text key line : Str) : Prop :=
  ∃ before after,splitlines text=before++line::after ∧
    ∀ later∈after,∀ value,parseLine later≠some (key,value)

/-- How the stack comes to be handed a value. -/
inductive Handed (environ : Pairs) (text key value : Str) : Prop where
  /-- It is exported. -/
  | exported (set : strip (valueIn environ key)≠[]) (same : valueIn environ key=value)
  /-- The last line that assigns the key has the value as it is. -/
  | bare (unset : strip (valueIn environ key)=[]) (last : Last text key (key++equals::value))
    (plain : Bare value)
  /-- The last line that assigns the key spells the value in another way. -/
  | respelled {line : Str} (unset : strip (valueIn environ key)=[]) (last : Last text key line)
    (other : line≠key++equals::value) (reads : parseLine line=some (key,value))

variable {text key value line : Str} {environ : Pairs}

/-- The lines kubectl reads a plain key from. -/
theorem envFileEntry_eq_some_iff (hk : PlainKey key) :
    envFileEntry line=some (key,value) ↔ line=key++equals::value := by
  unfold envFileEntry
  constructor
  · intro h
    split at h
    · cases h
    · dsimp only at h
      rcases exists_partition equals line with habsent|⟨u,v,rfl,hu⟩
      · rw [partition_absent habsent] at h
        simp only [if_true] at h
        cases h
      · rw [partition_first hu] at h
        simp only [List.cons_ne_nil,if_false,Option.some.injEq,Prod.mk.injEq] at h
        rw [h.1,h.2]
  · rintro rfl
    cases key with
    | nil => exact absurd rfl hk.nonempty
    | cons c key =>
      have hblank : ¬Blank (c::key++equals::value) := by
        intro hb
        have hc := List.all_eq_true.mp hk.noBlank c List.mem_cons_self
        rw [hb c List.mem_cons_self] at hc
        cases hc
      have hread : ¬(strip (c::key++equals::value)=[] ∨
          (c::key++equals::value).head?=some hash) := by
        rw [strip_eq_nil_iff]
        exact not_or.mpr ⟨hblank,hk.noHash⟩
      rw [if_neg hread]
      simp only [partition_first hk.noEquals,List.cons_ne_nil,if_false]

/-- What kubectl reads under a plain key. -/
theorem mem_envFilePairs (hk : PlainKey key) :
    (key,value)∈envFilePairs text ↔ key++equals::value∈composeLines text := by
  rw [envFilePairs,List.mem_filterMap]
  constructor
  · rintro ⟨line,hm,hline⟩
    rw [(envFileEntry_eq_some_iff hk).mp hline] at hm
    exact hm
  · intro hm
    exact ⟨_,hm,(envFileEntry_eq_some_iff hk).mpr rfl⟩

/-- What the doctor reads a line as that assigns a plain key in so many words. -/
theorem parseLine_written (hk : PlainKey key) (value : Str) :
    parseLine (key++equals::value)=some (key,unquote (strip value)) := by
  have hspace : ∀ c∈key,isSpace c=false := by
    intro c hc
    simpa using List.all_eq_true.mp hk.noBlank c hc
  have hread := parseLine_name blank_nil blank_nil (trimmed_of_not_space hspace) hk.nonempty
    hk.noEquals hk.noHash value
  rwa [List.nil_append,List.append_nil] at hread

/-- Quotes that are removed are two characters less. -/
theorem length_unquote_lt {quote : CodePoint} (hq : quote=doubleQuote ∨ quote=singleQuote)
    (hw : Wrapped quote value) : (unquote value).length<value.length := by
  have hlength : value.tail.dropLast.length<value.length := by
    have hpos := hw.1
    rw [List.length_dropLast,List.length_tail]
    omega
  unfold unquote
  split
  · exact hlength
  · rename_i hd
    split
    · exact hlength
    · rename_i hs
      rcases hq with rfl|rfl
      · exact absurd hw hd
      · exact absurd hw hs

/-- A bare value is what the doctor reads it as, and no other is. -/
theorem unquote_strip_eq_iff : unquote (strip value)=value ↔ Bare value := by
  constructor
  · intro h
    have hunquote : (unquote (strip value)).length≤(strip value).length := by
      rcases unquote_cases (strip value) with hu|hu
      · rw [hu]
      · rw [hu,List.length_dropLast,List.length_tail]
        omega
    obtain ⟨l,r,hparts,-,-⟩ := strip_parts value
    have hlength := congrArg List.length hparts
    rw [List.length_append,List.length_append] at hlength
    rw [h] at hunquote
    have hl : l=[] := List.length_eq_zero_iff.mp (by omega)
    have hr : r=[] := List.length_eq_zero_iff.mp (by omega)
    have htrimmed : strip value=value := by
      rw [hl,hr,List.nil_append,List.append_nil] at hparts
      exact hparts.symm
    rw [htrimmed] at h
    refine ⟨htrimmed,fun hw => ?_,fun hw => ?_⟩
    · have hlt := length_unquote_lt (Or.inl rfl) hw
      rw [h] at hlt
      exact Nat.lt_irrefl _ hlt
    · have hlt := length_unquote_lt (Or.inr rfl) hw
      rw [h] at hlt
      exact Nat.lt_irrefl _ hlt
  · intro h
    rw [h.trimmed,unquote,if_neg h.noDouble,if_neg h.noSingle]

/-- What the doctor takes from the file. -/
theorem effectiveValue_unset {text : String} (hunset : strip (valueIn environ key)=[]) :
    effectiveValue key (some (envText text)) environ=
      (lastAssigned key (splitlines (str text))).getD [] := by
  rw [effectiveValue_file hunset,Option.getD_some,envText,parseEnvPairs_universalNewlines,valueIn,
    lookup_parseEnvPairs]

/-- What the stack is handed is what the doctor calls the value. -/
theorem effectiveValue_of_handed (hk : PlainKey key) {text : String}
    (h : Handed environ (str text) key value) :
    effectiveValue key (some (envText text)) environ=value := by
  cases h with
  | exported set same => rw [effectiveValue_exported set,same]
  | bare unset last plain =>
    obtain ⟨before,after,hlines,hafter⟩ := last
    have hread := parseLine_written hk value
    rw [unquote_strip_eq_iff.mpr plain] at hread
    have hlast := lastAssigned_eq_some_iff.mpr ⟨before,_,after,hlines,hread,hafter⟩
    rw [effectiveValue_unset unset,hlast,Option.getD_some]
  | respelled unset last other reads =>
    obtain ⟨before,after,hlines,hafter⟩ := last
    have hlast := lastAssigned_eq_some_iff.mpr ⟨before,_,after,hlines,reads,hafter⟩
    rw [effectiveValue_unset unset,hlast,Option.getD_some]

/-- What the doctor calls the value is handed to the stack. -/
theorem handed_effectiveValue (hk : PlainKey key) {text : String}
    (hv : effectiveValue key (some (envText text)) environ≠[]) :
    Handed environ (str text) key (effectiveValue key (some (envText text)) environ) := by
  by_cases hset : strip (valueIn environ key)=[]
  · rw [effectiveValue_unset hset] at hv ⊢
    cases hlast : lastAssigned key (splitlines (str text)) with
    | none =>
      rw [hlast] at hv
      exact absurd rfl hv
    | some value =>
      obtain ⟨before,line,after,hlines,hline,hafter⟩ := lastAssigned_eq_some_iff.mp hlast
      have hdecides : Last (str text) key line := ⟨before,after,hlines,hafter⟩
      rw [Option.getD_some]
      by_cases hwritten : line=key++equals::value
      · rw [hwritten] at hdecides hline
        rw [parseLine_written hk,Option.some.injEq,Prod.mk.injEq,unquote_strip_eq_iff] at hline
        exact .bare hset hdecides hline.2
      · exact .respelled hset hdecides hwritten hline
  · rw [effectiveValue_exported hset]
    exact .exported hset rfl

/-- The first assignment of each key of a file makes a Secret. -/
def firstSecret (text : Str) : Secret text where
  value key := (envFilePairs text).lookup key
  assigned key found h := by
    obtain ⟨before,after,hsplit,-⟩ := List.lookup_eq_some_iff.mp h
    rw [hsplit]
    exact List.mem_append_right _ List.mem_cons_self
  complete key found h := by
    refine Option.isSome_iff_exists.mp (List.lookup_isSome_iff.mpr ?_)
    exact ⟨(key,found),h,beq_self_eq_true key⟩

/-- A Secret with another of the values that are assigned to a key. -/
def Secret.with (secret : Secret text) (h : (key,value)∈envFilePairs text) : Secret text where
  value name := if name=key then some value else secret.value name
  assigned name found hfound := by
    split at hfound
    · rename_i hname
      rw [hname,←Option.some.inj hfound]
      exact h
    · exact secret.assigned name found hfound
  complete name found hfound := by
    split
    · exact ⟨value,rfl⟩
    · exact secret.complete name found hfound

/-- The example declares the names the chart reads. -/
def DeclaresChart (exampleText : Str) : Prop := ∀ key∈chartKeys,key∈parseEnvPairs exampleText

instance (exampleText : Str) : Decidable (DeclaresChart exampleText) := List.decidableBAll _ _

/-- Every Secret created from the file has what the stack is handed. -/
def SecretAgrees (text : String) (environ : Pairs) : Prop :=
  ∀ secret : Secret (str text),∀ key∈chartKeys,
    secret.value key=some (effectiveValue key (some (envText text)) environ)

/-- The names the chart reads are plain. -/
theorem plainKey_of_chartKeys (h : key∈chartKeys) : PlainKey key := by
  have hall : chartKeys.all (fun key => decide (key≠[]) && decide (key.head?≠some hash) &&
      decide (equals∉key) && key.all (fun c => !isSpace c))=true := by
    decide +kernel
  have hkey := List.all_eq_true.mp hall key h
  simp only [Bool.and_eq_true,decide_eq_true_eq] at hkey
  exact ⟨hkey.1.1.1,hkey.1.1.2,hkey.1.2,hkey.2⟩

/-- All Secrets have one value under a key exactly when the file writes it. -/
theorem written_iff (hk : PlainKey key) :
    Written text key value ↔ ∀ secret : Secret text,secret.value key=some value := by
  constructor
  · intro h secret
    obtain ⟨kept,hkept⟩ := secret.complete key value ((mem_envFilePairs hk).mpr h.present)
    have hwritten := (mem_envFilePairs hk).mp (secret.assigned key kept hkept)
    rw [hkept,h.unique kept hwritten]
  · intro h
    have hfirst := (firstSecret text).assigned key value (h _)
    refine ⟨(mem_envFilePairs hk).mp hfirst,fun other hother => ?_⟩
    have hvalue := h ((firstSecret text).with ((mem_envFilePairs hk).mpr hother))
    have hother' : ((firstSecret text).with ((mem_envFilePairs hk).mpr hother)).value key=
        some other := if_pos rfl
    rw [hother'] at hvalue
    exact Option.some.inj hvalue

/-- With credentials the doctor is satisfied with, the Secret has for every key
what the stack is handed exactly when the file writes one value for it in so
many words, and that value is exported, or assigned last. -/
theorem secret_agrees_iff {exampleText : Str} {text : String} {environ : Pairs}
    (hdeclares : DeclaresChart exampleText)
    (hok : (checkCredentials exampleText (some (envText text)) environ).status=.ok) :
    SecretAgrees text environ ↔
      ∀ key∈chartKeys,∃ value,Written (str text) key value ∧
        Handed environ (str text) key value := by
  constructor
  · intro h key hkey
    have hk := plainKey_of_chartKeys hkey
    have hvalue := value_of_ok hok (hdeclares key hkey)
    exact ⟨_,(written_iff hk).mpr (fun secret => h secret key hkey),handed_effectiveValue hk hvalue⟩
  · intro h secret key hkey
    have hk := plainKey_of_chartKeys hkey
    obtain ⟨value,hwritten,hhanded⟩ := h key hkey
    rw [effectiveValue_of_handed hk hhanded]
    exact (written_iff hk).mp hwritten secret

/-- An example that declares the names the chart reads. -/
def chartExample : Str :=
  str "POSTGRES_USER=\nPOSTGRES_PASSWORD=\nPOSTGRES_DB=platform\nMINIO_ROOT_USER=\n"++
    str "MINIO_ROOT_PASSWORD=\n"

theorem declaresChart_example : DeclaresChart chartExample := by decide +kernel

/-- A file with the five credentials, one of them spelled this way. -/
def envWith (password : String) : String :=
  "POSTGRES_USER=platform\nPOSTGRES_PASSWORD="++password++"\nPOSTGRES_DB=platform\n"++
    "MINIO_ROOT_USER=store\nMINIO_ROOT_PASSWORD=9d0e5a77c1\n"

theorem secret_agrees_iff_sample :
    SecretAgrees (envWith "1f4c9b2e7a") ∅ ↔
      ∀ key∈chartKeys,∃ value,Written (str (envWith "1f4c9b2e7a")) key value ∧
        Handed ∅ (str (envWith "1f4c9b2e7a")) key value :=
  @secret_agrees_iff chartExample (envWith "1f4c9b2e7a") ∅ declaresChart_example
    (by decide +kernel)

/-- The doctor is satisfied with a password in quotes, and the Secret has the
quotes. -/
theorem secret_keeps_quotes :
    ¬∀ (exampleText : Str) (text : String) (environ : Pairs),DeclaresChart exampleText →
      (checkCredentials exampleText (some (envText text)) environ).status=.ok →
      SecretAgrees text environ := by
  intro h
  have hagrees := h chartExample (envWith "\"1f4c9b2e7a\"") ∅ declaresChart_example
    (by decide +kernel)
  have hsecret := hagrees (firstSecret _) (str "POSTGRES_PASSWORD") (by decide)
  have hquoted : (firstSecret (str (envWith "\"1f4c9b2e7a\""))).value (str "POSTGRES_PASSWORD")=
      some (str "\"1f4c9b2e7a\"") := by
    decide +kernel
  have hplain : effectiveValue (str "POSTGRES_PASSWORD")
      (some (envText (envWith "\"1f4c9b2e7a\""))) ∅=str "1f4c9b2e7a" := by
    decide +kernel
  rw [hquoted,hplain] at hsecret
  exact absurd hsecret (by decide)

end MlopsPlatform.ChartSecret
