import MlopsPlatform.PreflightPipeline

/-!
# One notion of a variable that is set

The guard collects the names that some source satisfies, and the value of a
name falls back from the environment to the file. Both go over the same three
sources by different routes, so a name the guard passes has to be one that has
a value, on repeated names, on blank exports and on quoted empties too.
-/

namespace MlopsPlatform.PreflightSatisfied

open TextCodec TextLines TextStrip
open PreflightCredentials PreflightRuntime PreflightChecks PreflightPipeline

/-- The declared names that have no value. -/
def unset (exampleText : Str) (envText : Option Str) (environ : Pairs) : Finset Str :=
  (parseEnvPairs exampleText).keys.toFinset.filter
    (fun name => effectiveValue name envText environ=[])

/-- An assignment of the empty string, and none of the same name after it. -/
def Unsets (name text : Str) : Prop :=
  ∃ before line after,splitlines text=before++line::after ∧ parseLine line=some (name,[]) ∧
    ∀ later∈after,∀ value,parseLine later≠some (name,value)

/-- The guard and the value say the same about every name. -/
structure OneNotion (exampleText : Str) (envText : Option Str) (environ : Pairs) : Prop where
  /-- What the guard misses has no value. -/
  missing : missingCredentials exampleText envText environ=unset exampleText envText environ
  /-- The check is passed when nothing is without a value. -/
  answers : (checkCredentials exampleText envText environ).status=.ok ↔
    unset exampleText envText environ=∅
  /-- A blank export hides no value of the file, from neither function. -/
  blankExport : ∀ name,Blank (valueIn environ name) →
    effectiveValue name envText environ=valueIn (parseEnvPairs (envText.getD [])) name ∧
      (valueIn (parseEnvPairs (envText.getD [])) name≠[] →
        name∉missingCredentials exampleText envText environ)
  /-- A later blank assignment takes an earlier value back, in both functions. -/
  laterBlank : ∀ name,Blank (valueIn environ name) → Unsets name (envText.getD []) →
    effectiveValue name envText environ=[] ∧
      (name∈parseEnvPairs exampleText → name∈missingCredentials exampleText envText environ)

/-- A blank assignment at the end leaves the empty string. -/
theorem valueIn_of_unsets {name text : Str} (h : Unsets name text) :
    valueIn (parseEnvPairs text) name=[] := by
  rw [valueIn,lookup_parseEnvPairs,lastAssigned_eq_some_iff.mpr h,Option.getD_some]

/-- The union of satisfied names leaves exactly the names that fall back to nothing. -/
theorem missing_eq_unset (exampleText : Str) (envText : Option Str) (environ : Pairs) :
    missingCredentials exampleText envText environ=unset exampleText envText environ := by
  ext name
  rw [mem_missingCredentials,unset,Finset.mem_filter,List.mem_toFinset,AList.mem_keys]

/-- One notion of "set". For every example text, `.env` text or none and
environment, what `missing_credentials` returns is the set of declared names
whose `effective_value` is empty, and `check_credentials` passes exactly when
that set is empty; so a blank export hides no value of the file, and a later
blank assignment unsets an earlier one, in both functions. -/
theorem one_notion (exampleText : Str) (envText : Option Str) (environ : Pairs) :
    OneNotion exampleText envText environ := by
  refine ⟨missing_eq_unset _ _ _,?_,fun name hblank => ?_,fun name hblank hunsets => ?_⟩
  · rw [status_ok_iff,missing_eq_unset]
  · have hvalue := @effectiveValue_file name envText environ (strip_eq_nil_iff.mpr hblank)
    refine ⟨hvalue,fun hne hm => ?_⟩
    have hempty := (mem_missingCredentials.mp hm).2
    rw [hvalue] at hempty
    exact hne hempty
  · have hempty : effectiveValue name envText environ=[] := by
      rw [effectiveValue_file (strip_eq_nil_iff.mpr hblank),valueIn_of_unsets hunsets]
    exact ⟨hempty,fun hd => mem_missingCredentials.mpr ⟨hd,hempty⟩⟩

/-- A quoted empty after a value, and a whitespace export over one. -/
example : missingCredentials (str "A=\nB=\n") (some (str "A=1\nB=2\nA=\"\"\n"))
    (AList.singleton (str "B") (str " \t"))={str "A"} := by decide +kernel

end MlopsPlatform.PreflightSatisfied
