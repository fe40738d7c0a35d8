import MlopsPlatform.ConnectionUris

/-!
# The names of the chart's services

The helper cuts the full name to the length the cluster takes and each template
then appends its component, so a service can have a name that is too long. It
has none exactly when the name before the cut leaves room for the longest of
the three suffixes.
-/

namespace MlopsPlatform.ChartNames

open TextCodec ConnectionUris

/-- A release name as Helm accepts it: a DNS label of at most 53 characters. -/
structure ReleaseName where
  /-- The characters. -/
  text : Str
  /-- There is one. -/
  nonempty : text≠[]
  /-- They are those of a label. -/
  isLabel : text.all labelChar=true
  /-- No hyphen comes first. -/
  first : ¬str "-"<+:text
  /-- No hyphen comes last. -/
  last : ¬str "-"<:+text
  /-- Helm's own limit. -/
  short : text.length≤53

/-- What the helpers read: the release and the two overrides. -/
structure Context where
  /-- `.Release.Name` -/
  releaseName : ReleaseName
  /-- `.Values.nameOverride` -/
  nameOverride : Str
  /-- `.Values.fullnameOverride` -/
  fullnameOverride : Str
  /-- The name is written in the characters of a label. -/
  nameIsLabel : nameOverride.all labelChar=true
  /-- So is the full name. -/
  fullnameIsLabel : fullnameOverride.all labelChar=true

/-- `.Chart.Name` -/
def chartName : Str := str "mlops-platform"

/-- `default fallback given`, where the empty string counts as not given. -/
def defaultTo (fallback given : Str) : Str := if given=[] then fallback else given

/-- `trunc limit`: bytes of the text, which are the characters of a label. -/
def trunc (limit : ℕ) (s : Str) : Str := s.take limit

/-- `trimSuffix suffix`: once, however often the text ends in it. -/
def trimSuffix (suffix s : Str) : Str :=
  if suffix<:+s then s.take (s.length-suffix.length) else s

/-- `trunc 63 | trimSuffix "-"` -/
def shortened (s : Str) : Str := trimSuffix (str "-") (trunc 63 s)

/-- `$name` in the full name. -/
def Context.name (context : Context) : Str := defaultTo chartName context.nameOverride

/-- `printf "%s-%s" .Release.Name $name` -/
def Context.joined (context : Context) : Str :=
  context.releaseName.text++str "-"++context.name

/-- `mlops-platform.fullname` -/
def Context.fullname (context : Context) : Str :=
  if context.fullnameOverride≠[] then shortened context.fullnameOverride
  else if context.name<:+:context.releaseName.text then shortened context.releaseName.text
  else shortened context.joined

/-- A shortened text is a beginning of the text. -/
theorem shortened_initial (s : Str) : shortened s<+:s := by
  unfold shortened trimSuffix trunc
  split
  · exact (List.take_prefix _ _).trans (List.take_prefix _ _)
  · exact List.take_prefix _ _

/-- A text in the characters of a label stays one. -/
theorem shortened_isLabel {s : Str} (h : s.all labelChar=true) :
    (shortened s).all labelChar=true := by
  rw [List.all_eq_true] at h ⊢
  exact fun c hc => h c ((shortened_initial s).subset hc)

/-- The name of the chart or the one that overrides it. -/
theorem name_isLabel (context : Context) : context.name.all labelChar=true := by
  unfold Context.name defaultTo
  split
  · decide
  · exact context.nameIsLabel

/-- Every full name is written in the characters of a label. -/
theorem fullname_isLabel (context : Context) : context.fullname.all labelChar=true := by
  have hrelease := context.releaseName.isLabel
  unfold Context.fullname
  split
  · exact shortened_isLabel context.fullnameIsLabel
  · split
    · exact shortened_isLabel hrelease
    · have hhyphen : (str "-").all labelChar=true := by decide
      refine shortened_isLabel ?_
      rw [Context.joined,List.all_append,List.all_append,hrelease,hhyphen,name_isLabel]
      rfl

/-- The release the chart's connection identifiers are written for. -/
def Context.release (context : Context) : Release := ⟨context.fullname,fullname_isLabel context⟩

/-- The names of the three services, the database's as MLflow is told it. -/
def Context.services (context : Context) : List Str :=
  [context.fullname++str "-mlflow",context.release.postgres,context.fullname++str "-minio"]

/-- What Kubernetes takes as the name of a service is no longer. -/
def serviceLimit : ℕ := 63

/-- The text leaves room for the longest suffix, or does so without a hyphen at
its end, which is trimmed. -/
def Roomy (s : Str) : Prop := s.length≤54 ∨ (s.length=55 ∧ str "-"<:+s)

/-- The overrides and the release leave room for every service. -/
def Context.Fits (context : Context) : Prop :=
  if context.fullnameOverride≠[] then Roomy context.fullnameOverride
  else context.name<:+:context.releaseName.text ∨ Roomy context.joined

/-- How much is trimmed. -/
theorem length_trimSuffix (suffix s : Str) :
    (trimSuffix suffix s).length=if suffix<:+s then s.length-suffix.length else s.length := by
  unfold trimSuffix
  split
  · rw [List.length_take,Nat.min_eq_left (Nat.sub_le _ _)]
  · rfl

/-- A shortened text leaves room exactly when the text does: a longer one is
cut to sixty-three characters, of which at most one is trimmed. -/
theorem length_shortened_le_iff (s : Str) : (shortened s).length≤54 ↔ Roomy s := by
  have hhyphen : (str "-").length=1 := by decide
  unfold Roomy
  rw [shortened,length_trimSuffix,hhyphen]
  by_cases hs : s.length≤63
  · have htrunc : trunc 63 s=s := List.take_of_length_le hs
    rw [htrunc]
    by_cases hend : str "-"<:+s
    · simp only [hend,if_true,and_true]
      omega
    · simp only [hend,if_false,and_false,or_false]
  · have hlength : (trunc 63 s).length=63 := by
      rw [trunc,List.length_take]
      omega
    rw [hlength]
    refine iff_of_false ?_ (by omega)
    split <;> omega

/-- The full name leaves room for every suffix exactly when the inputs do. -/
theorem length_fullname_le_iff (context : Context) :
    context.fullname.length≤54 ↔ context.Fits := by
  unfold Context.fullname Context.Fits
  by_cases hfull : context.fullnameOverride≠[]
  · rw [if_pos hfull,if_pos hfull]
    exact length_shortened_le_iff _
  · rw [if_neg hfull,if_neg hfull]
    by_cases hname : context.name<:+:context.releaseName.text
    · rw [if_pos hname,length_shortened_le_iff]
      have hshort := context.releaseName.short
      exact iff_of_true (Or.inl (by omega)) (Or.inl hname)
    · rw [if_neg hname,length_shortened_le_iff]
      exact (or_iff_right hname).symm

/-- The names of the three services are within the limit exactly when the full
name leaves nine characters for the longest suffix: when the full name that is
given has at most 54 characters, or else the release is named after the chart,
or the two names joined have at most 54; and one more where that is a hyphen,
which is trimmed. -/
theorem service_names_fit_iff (context : Context) :
    (∀ name∈context.services,name.length ≤ serviceLimit) ↔ context.Fits := by
  have hmlflow : (str "-mlflow").length=7 := by decide
  have hpostgres : (str "-postgres").length=9 := by decide
  have hminio : (str "-minio").length=6 := by decide
  rw [←length_fullname_le_iff]
  simp only [Context.services,Context.release,Release.postgres,serviceLimit,List.forall_mem_cons,
    List.length_append,hmlflow,hpostgres,hminio]
  constructor
  · rintro ⟨-,h,-⟩
    omega
  · intro h
    exact ⟨by omega,by omega,by omega,fun name hm => absurd hm List.not_mem_nil⟩

/-- A release of forty characters, with the chart's own values. -/
def longRelease : Context :=
  ⟨⟨str "production-experiment-tracking-eu-west-1",by decide,by decide,by decide,by decide,
    by decide⟩,[],[],rfl,rfl⟩

/-- The service of its database has a name of sixty-four characters. -/
theorem service_names_fit_fails :
    longRelease.release.postgres=
        str "production-experiment-tracking-eu-west-1-mlops-platform-postgres" ∧
      ¬∀ name∈longRelease.services,name.length ≤ serviceLimit := by
  have hname : longRelease.release.postgres=
      str "production-experiment-tracking-eu-west-1-mlops-platform-postgres" := by decide +kernel
  refine ⟨hname,fun h => ?_⟩
  have hlong := h longRelease.release.postgres (List.mem_cons_of_mem _ List.mem_cons_self)
  rw [hname] at hlong
  exact absurd hlong (by decide +kernel)

end MlopsPlatform.ChartNames
