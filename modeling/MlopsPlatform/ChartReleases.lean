import MlopsPlatform.ChartNames
import Mathlib.Tactic.IntervalCases

/-!
# Releases of the chart side by side

A selector is made of the chart's short name, the release and the component, and of
nothing that changes with a version, since the selector of a Deployment is immutable and
a service has to find the pods of the render before. So a service finds the pods of its
own Deployment, of whatever version, and those of no other release or component. The
names of the objects are made of the full name and the component; with the chart's own
values a release has those of one that is called like it with the chart's name behind.
-/

namespace MlopsPlatform.ChartReleases

open TextCodec TextSorted ConnectionUris ChartNames

/-- The workloads of the chart. -/
inductive Component where
  | mlflow
  | postgres
  | minio
deriving DecidableEq

/-- What a component is called. -/
def Component.text : Component→Str
  | .mlflow => str "mlflow"
  | .postgres => str "postgres"
  | .minio => str "minio"

/-- `Chart.yaml` -/
structure Chart where
  /-- `.Chart.Version` -/
  version : Str
  /-- `.Chart.AppVersion` -/
  appVersion : Str

/-- Labels. -/
abbrev Labels := List (Str×Str)

/-- `mlops-platform.name` -/
def shortName (context : Context) : Str := shortened context.name

/-- `replace "+" "_"` -/
def replacePlus (s : Str) : Str := s.map (fun c => if c=0x2b then 0x5f else c)

/-- `mlops-platform.labels` -/
def labels (chart : Chart) (context : Context) : Labels :=
  [(str "helm.sh/chart",shortened (replacePlus (chartName++str "-"++chart.version))),
    (str "app.kubernetes.io/name",shortName context),
    (str "app.kubernetes.io/instance",context.releaseName.text),
    (str "app.kubernetes.io/version",chart.appVersion),
    (str "app.kubernetes.io/managed-by",str "Helm"),
    (str "app.kubernetes.io/part-of",str "mlops-platform")]

/-- `mlops-platform.selectorLabels` -/
def selectorLabels (context : Context) (component : Component) : Labels :=
  [(str "app.kubernetes.io/name",shortName context),
    (str "app.kubernetes.io/instance",context.releaseName.text),
    (str "app.kubernetes.io/component",component.text)]

/-- The labels in the template of a Deployment. -/
def podLabels (chart : Chart) (context : Context) (component : Component) : Labels :=
  labels chart context++[(str "app.kubernetes.io/component",component.text)]

/-- The name of the service and of the Deployment. -/
def workloadName (context : Context) (component : Component) : Str :=
  context.fullname++str "-"++component.text

/-- A selector selects a pod: every label is one of the pod's. -/
def selects (selector pod : Labels) : Bool := selector.all (fun label => pod.contains label)

/-- A render of the chart. -/
structure Render where
  /-- The chart. -/
  chart : Chart
  /-- The release and the overrides. -/
  context : Context

variable {a b : Context} {c d : Component}

theorem text_injective (h : c.text=d.text) : c=d := by
  cases c <;> cases d <;> first | rfl | exact absurd h (by decide)

/-- No component is called like the end of another. -/
theorem workloadName_eq_iff :
    workloadName a c=workloadName b d ↔ a.fullname=b.fullname ∧ c=d := by
  constructor
  · intro h
    have hcd : c=d := by
      have hlast := congrArg List.getLast? h
      rw [workloadName,workloadName] at hlast
      cases c <;> cases d <;> first | rfl | skip
      all_goals
        rw [List.getLast?_append_of_ne_nil _ (by decide),
          List.getLast?_append_of_ne_nil _ (by decide)] at hlast
        exact absurd hlast (by decide)
    subst hcd
    exact ⟨List.append_cancel_right (List.append_cancel_right h),rfl⟩
  · rintro ⟨h,rfl⟩
    rw [workloadName,workloadName,h]

/-- A pod has one value for a label. -/
theorem mem_podLabels_iff {chart : Chart} {key value found : Str}
    (h : (key,found)∈podLabels chart b d) : (key,value)∈podLabels chart b d ↔ value=found := by
  have hkeys : ((podLabels chart b d).map Prod.fst).Nodup := by
    change [str "helm.sh/chart",str "app.kubernetes.io/name",str "app.kubernetes.io/instance",
      str "app.kubernetes.io/version",str "app.kubernetes.io/managed-by",
      str "app.kubernetes.io/part-of",str "app.kubernetes.io/component"].Nodup
    decide
  constructor
  · intro hvalue
    exact (Prod.mk.inj (List.inj_on_of_nodup_map hkeys hvalue h rfl)).2
  · rintro rfl
    exact h

/-- A selector selects the pods of renders with its short name, its release and its
component. -/
theorem selects_iff {chart : Chart} :
    selects (selectorLabels a c) (podLabels chart b d)=true ↔
      shortName a=shortName b ∧ a.releaseName.text=b.releaseName.text ∧ c=d := by
  have hname : (str "app.kubernetes.io/name",shortName b)∈podLabels chart b d :=
    List.mem_append_left _ (List.mem_cons_of_mem _ List.mem_cons_self)
  have hinstance : (str "app.kubernetes.io/instance",b.releaseName.text)∈podLabels chart b d :=
    List.mem_append_left _ (List.mem_cons_of_mem _ (List.mem_cons_of_mem _ List.mem_cons_self))
  have hcomponent : (str "app.kubernetes.io/component",d.text)∈podLabels chart b d :=
    List.mem_append_right _ List.mem_cons_self
  simp only [selects,selectorLabels,List.all_cons,List.all_nil,Bool.and_true,Bool.and_eq_true,
    List.contains_iff_mem,mem_podLabels_iff hname,mem_podLabels_iff hinstance,
    mem_podLabels_iff hcomponent]
  refine and_congr_right (fun _ => and_congr_right (fun _ => ⟨text_injective,?_⟩))
  rintro rfl
  rfl

/-- The database has the longest name. -/
theorem tooLong_iff : (∃ c,serviceLimit < (workloadName a c).length) ↔ 54<a.fullname.length := by
  have hhyphen : (str "-").length=1 := by decide
  have htext : ∀ c : Component,c.text.length≤8 := by
    intro c
    cases c <;> decide
  have hpostgres : Component.postgres.text.length=8 := by decide
  simp only [serviceLimit,workloadName,List.length_append,hhyphen]
  constructor
  · rintro ⟨c,h⟩
    have hc := htext c
    omega
  · exact fun h => ⟨.postgres,by omega⟩

/-- Two selectors are the same exactly if they ask for the same three values. -/
theorem selectorLabels_eq_iff :
    selectorLabels a c=selectorLabels b d ↔
      shortName a=shortName b ∧ a.releaseName.text=b.releaseName.text ∧ c=d := by
  constructor
  · intro h
    simp only [selectorLabels,List.cons.injEq,Prod.mk.injEq,true_and,and_true] at h
    exact ⟨h.1,h.2.1,text_injective h.2.2⟩
  · rintro ⟨hshort,hrelease,rfl⟩
    rw [selectorLabels,selectorLabels,hshort,hrelease]

theorem all_labelChar_nil : ([] : Str).all labelChar=true := rfl

/-- A release with the chart's own values. -/
def plain (releaseName : ReleaseName) : Context :=
  ⟨releaseName,[],[],all_labelChar_nil,all_labelChar_nil⟩

/-- What is appended to a release that is not named after the chart. -/
def suffix : Str := str "-mlops-platform"

/-- The second is called like the first with the chart's name behind, and the first is not
named after the chart. -/
def Clash (first second : Str) : Prop := ¬chartName<:+:first ∧ second=first++suffix

theorem trimSuffix_hyphen {s : Str} (h : ¬str "-"<:+s) : trimSuffix (str "-") s=s := if_neg h

/-- The cut leaves no hyphen at the end of a short text with the chart's name behind. -/
theorem shortened_suffix {s : Str} (h : s.length≤53) :
    shortened (s++suffix)=(s++suffix).take 63 := by
  refine trimSuffix_hyphen (fun hend => ?_)
  have hsuffix : suffix.length=15 := by decide
  obtain ⟨k,hk,hk',htake⟩ : ∃ k,10 ≤ k ∧ k≤15 ∧ suffix.take (63-s.length)=suffix.take k := by
    by_cases hs : s.length≤48
    · refine ⟨15,by omega,le_rfl,?_⟩
      rw [List.take_of_length_le (by omega),List.take_of_length_le (by omega)]
    · exact ⟨63-s.length,by omega,by omega,rfl⟩
  rw [trunc,List.take_append,htake] at hend
  obtain ⟨before,hbefore⟩ := hend
  have hlast := congrArg List.getLast? hbefore
  interval_cases k <;>
    rw [List.getLast?_append_of_ne_nil _ (by decide),
      List.getLast?_append_of_ne_nil _ (by decide)] at hlast <;>
    exact absurd hlast (by decide)

/-- The full name with the chart's own values. -/
theorem fullname_plain (releaseName : ReleaseName) :
    (plain releaseName).fullname=
      if chartName<:+:releaseName.text then releaseName.text
      else (releaseName.text++suffix).take 63 := by
  have hshort := releaseName.short
  change (if chartName<:+:releaseName.text then shortened releaseName.text
    else shortened (releaseName.text++str "-"++chartName))=_
  have hjoined : releaseName.text++str "-"++chartName=releaseName.text++suffix :=
    List.append_assoc _ _ _
  rw [hjoined,shortened_suffix hshort,shortened,trunc,List.take_of_length_le (by omega),
    trimSuffix_hyphen releaseName.last]

/-- The cut tells two short texts apart. -/
theorem cut_injective {s t : Str} (hs : s.length≤53) (ht : t.length≤53)
    (h : (s++suffix).take 63=(t++suffix).take 63) : s=t := by
  have hle : ∀ s t : Str,s.length≤53 → t.length≤53 → s.length ≤ t.length →
      (s++suffix).take 63=(t++suffix).take 63 → s=t := by
    intro s t hs ht hlength h
    have hsuffix : suffix.length=15 := by decide
    by_cases heq : s.length=t.length
    · have hprefix := congrArg (List.take s.length) h
      rw [List.take_take,List.take_take,Nat.min_eq_left (by omega),List.take_left,heq,
        List.take_left] at hprefix
      exact hprefix
    · have hcut := congrArg List.length h
      rw [List.length_take,List.length_take,List.length_append,List.length_append,hsuffix] at hcut
      have hat : ((s++suffix).take 63)[t.length]?=((t++suffix).take 63)[t.length]? := by rw [h]
      rw [List.getElem?_take_of_lt (by omega),List.getElem?_take_of_lt (by omega),
        List.getElem?_append_right (by omega),List.getElem?_append_right le_rfl,Nat.sub_self] at hat
      obtain ⟨d,hd,hd',hdiff⟩ : ∃ d,1 ≤ d ∧ d≤5 ∧ t.length-s.length=d :=
        ⟨t.length-s.length,by omega,by omega,rfl⟩
      rw [hdiff] at hat
      interval_cases d <;> exact absurd hat (by decide)
  rcases Nat.le_total s.length t.length with hlength|hlength
  · exact hle s t hs ht hlength h
  · exact (hle t s ht hs hlength h.symm).symm

/-- A text with the chart's name behind is a release's name only if it is not cut. -/
theorem cut_eq_iff {s t : Str} (ht : t.length≤53) :
    (s++suffix).take 63=t ↔ t=s++suffix := by
  have hsuffix : suffix.length=15 := by decide
  constructor
  · rintro rfl
    rw [List.length_take,List.length_append,hsuffix] at ht
    exact List.take_of_length_le (by rw [List.length_append,hsuffix]; omega)
  · rintro rfl
    rw [List.length_append,hsuffix] at ht
    exact List.take_of_length_le (by rw [List.length_append,hsuffix]; omega)

theorem clash_contains {first second : Str} (h : Clash first second) : chartName<:+:second := by
  rw [h.2]
  exact ⟨first++str "-",[],by rw [List.append_nil,List.append_assoc]; rfl⟩

/-- With the chart's own values, two releases have one full name exactly if they are one, or
one is called like the other with the chart's name behind. -/
theorem fullname_plain_eq_iff (r s : ReleaseName) :
    (plain r).fullname=(plain s).fullname ↔
      r.text=s.text ∨ Clash r.text s.text ∨ Clash s.text r.text := by
  rw [fullname_plain,fullname_plain]
  by_cases hr : chartName<:+:r.text
  · by_cases hs : chartName<:+:s.text
    · rw [if_pos hr,if_pos hs]
      exact (or_iff_left (fun h => h.elim (fun h => h.1 hr) (fun h => h.1 hs))).symm
    · rw [if_pos hr,if_neg hs,eq_comm,cut_eq_iff r.short]
      refine ⟨fun h => .inr (.inr ⟨hs,h⟩),?_⟩
      rintro (h|h|h)
      · exact absurd (h ▸ hr) hs
      · exact absurd hr h.1
      · exact h.2
  · by_cases hs : chartName<:+:s.text
    · rw [if_neg hr,if_pos hs,cut_eq_iff s.short]
      refine ⟨fun h => .inr (.inl ⟨hr,h⟩),?_⟩
      rintro (h|h|h)
      · exact absurd (h.symm ▸ hs) hr
      · exact h.2
      · exact absurd hs h.1
    · rw [if_neg hr,if_neg hs]
      constructor
      · exact fun h => .inl (cut_injective r.short s.short h)
      · rintro (h|h|h)
        · rw [h]
        · exact absurd (clash_contains h) hs
        · exact absurd (clash_contains h) hr

/-- With the chart's own values a name leaves no room exactly if it has more than thirty-nine
characters and not the chart's name among them. -/
theorem plain_tooLong_iff (releaseName : ReleaseName) :
    54<(plain releaseName).fullname.length ↔
      ¬chartName<:+:releaseName.text ∧ 39<releaseName.text.length := by
  have hshort := releaseName.short
  have hsuffix : suffix.length=15 := by decide
  rw [fullname_plain]
  split
  · rename_i hcontains
    exact iff_of_false (by omega) (fun h => h.1 hcontains)
  · rename_i hcontains
    rw [and_iff_right hcontains,List.length_take,List.length_append,hsuffix]
    omega

/-- With the chart's own values, an object of one release is called like an object of another
exactly if both are of one component, and the releases are one or one of them is called like
the other with the chart's name behind; and a service has too long a name exactly if the
release has more than thirty-nine characters and is not named after the chart. -/
theorem plain_names_iff (r s : ReleaseName) :
    (∀ c d,workloadName (plain r) c=workloadName (plain s) d ↔
      (r.text=s.text ∨ Clash r.text s.text ∨ Clash s.text r.text) ∧ c=d) ∧
    ((∃ c,serviceLimit < (workloadName (plain r) c).length) ↔
      ¬chartName<:+:r.text ∧ 39<r.text.length) := by
  constructor
  · intro c d
    rw [workloadName_eq_iff,fullname_plain_eq_iff]
  · rw [tooLong_iff,plain_tooLong_iff]

end MlopsPlatform.ChartReleases
