import MlopsPlatform.UriSyntax
import MlopsPlatform.PreflightPipeline

/-!
# The connection identifiers the stack is given

Compose and the chart write the Postgres credentials into an identifier between
its delimiters, as they are. The one in Airflow's environment names a database
of its own. Reading one of them by the usual rules gives the credentials back
exactly when nothing in these is read as syntax, which the doctor does not ask.
-/

namespace MlopsPlatform.ConnectionUris

open TextCodec TextSorted UriSyntax PreflightCredentials PreflightChecks PreflightPipeline

/-- What Kubernetes takes as a name: lowercase letters, digits and hyphens. -/
def labelChar (c : CodePoint) : Bool :=
  (0x61≤c.val && c.val≤0x7a) || (0x30≤c.val && c.val≤0x39) || c.val=0x2d

/-- The full name of a release of the chart, which a service is named after. -/
structure Release where
  /-- `mlops-platform.fullname` -/
  fullname : Str
  /-- The cluster takes it as a name. -/
  isLabel : fullname.all labelChar=true

/-- `${POSTGRES_DB:-platform}` -/
def databaseOrDefault (database : Str) : Str :=
  if database=[] then str "platform" else database

/-- The store compose hands to MLflow. -/
def composeStore (user password database : Str) : Str :=
  interpolate (str "postgresql") user password (str "postgres") (str "5432")
    (databaseOrDefault database)

/-- The connection compose hands to Airflow. -/
def airflowConnection (user password : Str) : Str :=
  interpolate (str "postgresql+psycopg2") user password (str "postgres") (str "5432")
    (str "airflow")

/-- The service of the database in a release. -/
def Release.postgres (release : Release) : Str := release.fullname++str "-postgres"

/-- The store the chart hands to MLflow. -/
def chartStore (release : Release) (port : ℕ) (user password database : Str) : Str :=
  interpolate (str "postgresql") user password release.postgres (digits port) database

/-- The identifier is read as these parts. -/
def Carries (uri scheme user password host port database : Str) : Prop :=
  parse uri=some ⟨scheme,some (octets user),some (octets password),octets host,port,octets database⟩

/-- The example declares the three names the identifiers are built from. -/
def DeclaresPostgres (exampleText : Str) : Prop :=
  ∀ name∈[str "POSTGRES_USER",str "POSTGRES_PASSWORD",str "POSTGRES_DB"],
    name∈parseEnvPairs exampleText

instance (exampleText : Str) : Decidable (DeclaresPostgres exampleText) :=
  List.decidableBAll _ _

/-- Nothing in a name is read as syntax. -/
theorem plain_of_labelChar {part : Str} (h : part.all labelChar=true) : Plain part := by
  rw [List.all_eq_true] at h
  have hne : ∀ c∈part,∀ d,labelChar d=false → c≠d := by
    intro c hc d hd he
    rw [←he,h c hc] at hd
    cases hd
  refine ⟨fun c hc => ?_,fun hm => hne colon hm colon (by decide) rfl,
    fun hm => hne atSign hm atSign (by decide) rfl,?_⟩
  · have hslash := hne c hc slash (by decide)
    have hquestion := hne c hc 0x3f (by decide)
    have hnumber := hne c hc 0x23 (by decide)
    simp only [endsAuthority,endsPath,hslash,hquestion,hnumber,decide_false,Bool.or_self]
  · rintro ⟨before,high,low,after,rfl,-⟩
    have hm : percent∈before++percent::high::low::after :=
      List.mem_append_right _ List.mem_cons_self
    exact hne percent hm percent (by decide) rfl

/-- The digits of a port are plain. -/
theorem plain_digits (port : ℕ) : Plain (digits port) := by
  refine plain_of_labelChar (List.all_eq_true.mpr (fun c hc => ?_))
  obtain ⟨hlow,hhigh⟩ := digits_bounds hc
  simp only [labelChar,hlow,hhigh,decide_true,Bool.and_self,Bool.or_true,Bool.true_or]

/-- The name of the database's service is plain. -/
theorem plain_postgres (release : Release) : Plain release.postgres := by
  have hsuffix : (str "-postgres").all labelChar=true := by decide
  refine plain_of_labelChar ?_
  rw [Release.postgres,List.all_append,release.isLabel,hsuffix,Bool.and_self]

/-- What compose hands to MLflow, given a database. -/
theorem composeStore_carries_iff {user password database : Str} (hd : database≠[]) :
    Carries (composeStore user password database) (str "postgresql") user password
      (str "postgres") (str "5432") database ↔ Readable user password database := by
  have hhost : Plain (str "postgres") := plain_of_labelChar (by decide)
  have hport : Plain (str "5432") := plain_of_labelChar (by decide)
  rw [Carries,composeStore,databaseOrDefault,if_neg hd]
  exact parse_interpolate_iff (by decide) hhost hport

/-- What compose hands to Airflow. -/
theorem airflowConnection_carries_iff {user password : Str} :
    Carries (airflowConnection user password) (str "postgresql+psycopg2") user password
      (str "postgres") (str "5432") (str "airflow") ↔ Readable user password (str "airflow") := by
  have hhost : Plain (str "postgres") := plain_of_labelChar (by decide)
  have hport : Plain (str "5432") := plain_of_labelChar (by decide)
  exact parse_interpolate_iff (by decide) hhost hport

/-- What the chart hands to MLflow. -/
theorem chartStore_carries_iff (release : Release) (port : ℕ) {user password database : Str} :
    Carries (chartStore release port user password database) (str "postgresql") user password
      release.postgres (digits port) database ↔ Readable user password database :=
  parse_interpolate_iff (by decide) (plain_postgres release) (plain_digits port)

/-- The three identifiers carry the credentials they are built from. -/
def CarryCredentials (release : Release) (port : ℕ) (user password database : Str) : Prop :=
  Carries (composeStore user password database) (str "postgresql") user password
      (str "postgres") (str "5432") database ∧
    Carries (chartStore release port user password database) (str "postgresql") user password
      release.postgres (digits port) database ∧
    Carries (airflowConnection user password) (str "postgresql+psycopg2") user password
      (str "postgres") (str "5432") (str "airflow")

/-- The credentials the doctor is satisfied with are read back from all of the
identifiers exactly when no user, password or database is read as syntax. -/
theorem carryCredentials_iff {exampleText : Str} {envText : Option Str} {environ : Pairs}
    (hdeclares : DeclaresPostgres exampleText)
    (hok : (checkCredentials exampleText envText environ).status=.ok) (release : Release)
    (port : ℕ) :
    CarryCredentials release port (effectiveValue (str "POSTGRES_USER") envText environ)
      (effectiveValue (str "POSTGRES_PASSWORD") envText environ)
      (effectiveValue (str "POSTGRES_DB") envText environ) ↔
    Readable (effectiveValue (str "POSTGRES_USER") envText environ)
      (effectiveValue (str "POSTGRES_PASSWORD") envText environ)
      (effectiveValue (str "POSTGRES_DB") envText environ) := by
  have hdeclared := hdeclares (str "POSTGRES_DB") (by decide)
  have hdatabase := value_of_ok hok hdeclared
  rw [CarryCredentials,composeStore_carries_iff hdatabase,chartStore_carries_iff,
    airflowConnection_carries_iff]
  constructor
  · intro h
    exact h.1
  · intro h
    have hends : (str "airflow").all (fun c => !endsPath c)=true := by decide
    have hplain : Plain (str "airflow") := plain_of_labelChar (by decide)
    refine ⟨h,h,{h with databaseInside := fun c hc => ?_,databaseLiteral := hplain.literal}⟩
    simpa using List.all_eq_true.mp hends c hc

/-- The three names the identifiers are built from, given these values. -/
def postgresExports (user password database : Str) : Pairs :=
  ((((∅ : Pairs).insert (str "POSTGRES_USER") user).insert (str "POSTGRES_PASSWORD")
    password).insert (str "POSTGRES_DB") database)

/-- An example that declares the three names. -/
def postgresExample : Str := str "POSTGRES_USER=\nPOSTGRES_PASSWORD=\nPOSTGRES_DB=platform\n"

theorem declaresPostgres_example : DeclaresPostgres postgresExample := by
  decide +kernel

/-- A release named after the platform. -/
def sampleRelease : Release := ⟨str "mlops-platform",by decide⟩

theorem carryCredentials_sample :
    CarryCredentials sampleRelease 5432 (str "platform") (str "1f4c9b2e7a") (str "platform") ↔
      Readable (str "platform") (str "1f4c9b2e7a") (str "platform") :=
  @carryCredentials_iff postgresExample none
    (postgresExports (str "platform") (str "1f4c9b2e7a") (str "platform"))
    declaresPostgres_example (by decide +kernel) sampleRelease 5432

/-- A password with a slash passes the doctor and is not read back. -/
theorem slash_in_password :
    ¬∀ (exampleText : Str) (envText : Option Str) (environ : Pairs),
      DeclaresPostgres exampleText →
      (checkCredentials exampleText envText environ).status=.ok →
      Carries (composeStore (effectiveValue (str "POSTGRES_USER") envText environ)
          (effectiveValue (str "POSTGRES_PASSWORD") envText environ)
          (effectiveValue (str "POSTGRES_DB") envText environ)) (str "postgresql")
        (effectiveValue (str "POSTGRES_USER") envText environ)
        (effectiveValue (str "POSTGRES_PASSWORD") envText environ) (str "postgres") (str "5432")
        (effectiveValue (str "POSTGRES_DB") envText environ) := by
  intro h
  have hcarries := h postgresExample none
    (postgresExports (str "platform") (str "1f4c/9b2e7a") (str "platform"))
    declaresPostgres_example (by decide +kernel)
  have hpassword : effectiveValue (str "POSTGRES_PASSWORD") none
      (postgresExports (str "platform") (str "1f4c/9b2e7a") (str "platform"))=
      str "1f4c/9b2e7a" := by
    decide +kernel
  have hdatabase : effectiveValue (str "POSTGRES_DB") none
      (postgresExports (str "platform") (str "1f4c/9b2e7a") (str "platform"))≠[] := by
    decide +kernel
  have hreadable := (composeStore_carries_iff hdatabase).mp hcarries
  rw [hpassword] at hreadable
  exact absurd (hreadable.passwordInside slash (by decide)) (by decide)

end MlopsPlatform.ConnectionUris
