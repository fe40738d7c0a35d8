import MlopsPlatform.PythonDict
import MlopsPlatform.StackShapes
import MlopsPlatform.TextSeparators

/-!
# What a failed command reports

A failed command of the integration tier raises one report: the command, its exit
code, both streams and what could be gathered afterwards. Every service that
exited badly has a section of its own there, whatever the others printed. A section
shows the last lines of a text and says so when there were more. Gathering masks
the failure in one case only, when some output is not UTF-8. The cluster's
sections are cut before the report sees them, and do not say so.
-/

namespace MlopsPlatform.FailureReports

open TextCodec TextLines TextStrip TextSorted TextSeparators PythonDict StackShapes
open JsonStrings JsonText JsonRoundTrip

/-- `MAX_REPORT_LINES` -/
def maxReportLines : ℕ := 40

/-- `lines[-n:]`, of a positive `n`. -/
def lastLines (n : ℕ) (lines : List Str) : List Str := lines.drop (lines.length-n)

/-- `_report_section(name, body)` -/
def reportSection (name body : Str) : Str :=
  let lines := splitlines (strip body)
  if lines=[] then name++str ": empty"
  else
    let kept := lastLines maxReportLines lines
    let header := if kept.length=lines.length then name
      else name++str " (last "++digits kept.length++str " of "++digits lines.length++str ")"
    join [lf] ((header++str ":")::kept)

/-- `describe_process(label, argv, returncode, stdout, stderr, extra)` -/
def describeProcess (label : Str) (argv : List Str) (returncode : ℤ) (stdout stderr : Str)
    (extra : List (Str×Str)) : Str :=
  let named := merge [(str "stderr",stderr),(str "stdout",stdout)] extra
  join [lf,lf] ([label++str " failed with exit code "++str (toString returncode),
    str "command: "++join (str " ") argv]++
      named.map (fun entry => reportSection entry.1 entry.2))

/-- What starting a command comes to. -/
inductive Attempt where
  /-- OSError or SubprocessError: no such program, a timeout. `shown` is its `repr`. -/
  | refused (shown : Str)
  /-- It ended, and had written this. -/
  | ended (returncode : ℤ) (stdout stderr : ByteArray)

/-- What a call raises. -/
inductive Fault where
  /-- OSError or SubprocessError. -/
  | refused (shown : Str)
  /-- UnicodeDecodeError -/
  | unicodeDecode

/-- What a check raises. -/
inductive Failure where
  /-- What a call raised. -/
  | raised (fault : Fault)
  /-- AssertionError -/
  | assertion (report : Str)

/-- CompletedProcess -/
structure Completed extends Printed where
  /-- `stderr` -/
  stderr : Str

/-- `run(argv)`: the streams are read as UTF-8 text. -/
def run : Attempt→Except Fault Completed
  | .refused shown => .error (.refused shown)
  | .ended returncode stdout stderr =>
    match decode stdout,decode stderr with
    | some out,some err => .ok ⟨⟨returncode,universalNewlines out⟩,universalNewlines err⟩
    | _,_ => .error .unicodeDecode

/-- `probe.stdout or probe.stderr or fallback` -/
def Completed.said (probe : Completed) (fallback : Str) : Str :=
  if probe.stdout≠[] then probe.stdout else if probe.stderr≠[] then probe.stderr else fallback

/-- Something to gather: the key of its section, the command, and what stands for
no output. -/
structure Source where
  /-- The key. -/
  key : Str
  /-- The command. -/
  argv : List Str
  /-- Its text if nothing was printed. -/
  fallback : Str

/-- The text of one section. -/
def gather (attempt : Attempt) (fallback : Str) : Except Fault Str :=
  match run attempt with
  | .ok probe => .ok (probe.said fallback)
  | .error (.refused shown) => .ok (str "could not be gathered: "++shown)
  | .error fault => .error fault

/-- A loop that gathers sections into a dictionary. -/
def gatherAll (answer : List Str→Attempt) :
    List (Str×Str)→List Source→Except Fault (List (Str×Str))
  | gathered,[] => .ok gathered
  | gathered,source::sources =>
    match gather (answer source.argv) source.fallback with
    | .ok text => gatherAll answer (put gathered source.key text) sources
    | .error fault => .error fault

/-- `Stack` -/
structure Stack where
  /-- The compose invocation. -/
  argv : List Str

/-- The state of the containers, and the log they share. -/
def Stack.shared (stack : Stack) : List Source :=
  [⟨str "compose ps",stack.argv++[str "ps",str "--all"],[]⟩,
    ⟨str "service logs",stack.argv++[str "logs",str "--tail",str "30",str "--no-color"],[]⟩]

/-- The log of one service. -/
def Stack.serviceLog (stack : Stack) (service : Str) : Source :=
  ⟨service++str " log (exited non-zero)",
    stack.argv++[str "logs",str "--no-color",str "--tail",str "80",service],
    str "(the container produced no output)"⟩

/-- The command that lists the containers. -/
def Stack.listing (stack : Stack) : List Str :=
  stack.argv++[str "ps",str "--all",str "--format",str "json"]

section Reports

variable (floatOf : Str→Str)

/-- `exited_badly`, with the call it makes. -/
def Stack.exitedBadly (stack : Stack) (answer : List Str→Attempt) : Except Fault (List Str) :=
  match run (answer stack.listing) with
  | .ok probe => .ok (StackShapes.exitedBadly floatOf (some probe.toPrinted))
  | .error (.refused _) => .ok (StackShapes.exitedBadly floatOf none)
  | .error fault => .error fault

/-- `diagnostics`. `answer` is what the calls come to: no two of them are the same. -/
def Stack.diagnostics (stack : Stack) (answer : List Str→Attempt) :
    Except Fault (List (Str×Str)) :=
  match gatherAll answer [] stack.shared with
  | .error fault => .error fault
  | .ok gathered =>
    match stack.exitedBadly floatOf answer with
    | .error fault => .error fault
    | .ok services => gatherAll answer gathered (services.map stack.serviceLog)

/-- `check`, of a command that comes to `first`. -/
def Stack.check (stack : Stack) (label : Str) (args : List Str) (first : Attempt)
    (answer : List Str→Attempt) : Except Failure Completed :=
  match run first with
  | .error fault => .error (.raised fault)
  | .ok result =>
    if result.returncode≠0 then
      match stack.diagnostics floatOf answer with
      | .error fault => .error (.raised fault)
      | .ok extra => .error (.assertion (describeProcess label (stack.argv++args)
          result.returncode result.stdout result.stderr extra))
    else .ok result

/-- The services that exited badly, as far as the list of containers is known. -/
def Stack.failed (stack : Stack) (answer : List Str→Attempt) : List Str :=
  match run (answer stack.listing) with
  | .ok probe => StackShapes.exitedBadly floatOf (some probe.toPrinted)
  | .error _ => []

/-- Everything that is gathered: the shared sections, and one for every service
that exited badly. -/
def Stack.sources (stack : Stack) (answer : List Str→Attempt) : List Source :=
  stack.shared++(stack.failed floatOf answer).map stack.serviceLog

/-- The commands run for it. -/
def Stack.asked (stack : Stack) (answer : List Str→Attempt) : List (List Str) :=
  stack.listing::(stack.sources floatOf answer).map Source.argv

end Reports

/-- What was written can be read. -/
def Readable : Attempt→Prop
  | .refused _ => True
  | .ended _ stdout stderr => (∃ out,decode stdout=some out) ∧ ∃ err,decode stderr=some err

/-- The text a source gives. -/
def textOf (answer : List Str→Attempt) (source : Source) : Str :=
  match run (answer source.argv) with
  | .ok probe => probe.said source.fallback
  | .error (.refused shown) => str "could not be gathered: "++shown
  | .error _ => []

/-- Its section of the report. -/
def sectionOf (answer : List Str→Attempt) (source : Source) : Str×Str :=
  (source.key,textOf answer source)

variable {answer : List Str→Attempt}

theorem run_readable {attempt : Attempt} (h : Readable attempt) :
    (∃ shown,run attempt=.error (.refused shown)) ∨ ∃ probe,run attempt=.ok probe := by
  cases attempt with
  | refused shown => exact .inl ⟨shown,rfl⟩
  | ended returncode stdout stderr =>
    obtain ⟨⟨out,hout⟩,err,herr⟩ := h
    refine .inr ⟨⟨⟨returncode,universalNewlines out⟩,universalNewlines err⟩,?_⟩
    simp only [run,hout,herr]

theorem run_unreadable {attempt : Attempt} (h : ¬Readable attempt) :
    run attempt=.error .unicodeDecode := by
  cases attempt with
  | refused shown => exact absurd trivial h
  | ended returncode stdout stderr =>
    rw [Readable,not_and_or] at h
    cases hout : decode stdout with
    | none => simp only [run,hout]
    | some out =>
      cases herr : decode stderr with
      | none => simp only [run,hout,herr]
      | some err => exact (h.resolve_left (not_not.mpr ⟨out,hout⟩) ⟨err,herr⟩).elim

theorem gather_readable {source : Source} (h : Readable (answer source.argv)) :
    gather (answer source.argv) source.fallback=.ok (textOf answer source) := by
  rcases run_readable h with ⟨shown,hrun⟩|⟨probe,hrun⟩
  · simp only [gather,textOf,hrun]
  · simp only [gather,textOf,hrun]

/-- Readable sources are all gathered. -/
theorem gatherAll_readable {sources : List Source} (h : ∀ source∈sources,Readable (answer source.argv))
    (gathered : List (Str×Str)) :
    gatherAll answer gathered sources=.ok (merge gathered (sources.map (sectionOf answer))) := by
  induction sources generalizing gathered with
  | nil => rfl
  | cons source sources ih =>
    rw [List.forall_mem_cons] at h
    simp only [gatherAll,gather_readable h.1]
    exact ih h.2 _

/-- One that is not ends the gathering. -/
theorem gatherAll_unreadable {sources : List Source}
    (h : ∃ source∈sources,¬Readable (answer source.argv)) (gathered : List (Str×Str)) :
    gatherAll answer gathered sources=.error .unicodeDecode := by
  induction sources generalizing gathered with
  | nil =>
    obtain ⟨source,hm,-⟩ := h
    exact absurd hm List.not_mem_nil
  | cons source sources ih =>
    by_cases hread : Readable (answer source.argv)
    · simp only [gatherAll,gather_readable hread]
      rw [List.exists_mem_cons_iff] at h
      exact ih (h.resolve_left (not_not.mpr hread)) _
    · simp only [gatherAll,gather,run_unreadable hread]

section Checks

variable {floatOf : Str→Str} {stack : Stack}

theorem exitedBadly_readable (h : Readable (answer stack.listing)) :
    stack.exitedBadly floatOf answer=.ok (stack.failed floatOf answer) := by
  rcases run_readable h with ⟨shown,hrun⟩|⟨probe,hrun⟩
  · simp only [Stack.exitedBadly,Stack.failed,hrun]
    rfl
  · simp only [Stack.exitedBadly,Stack.failed,hrun]

/-- A service is reported once. -/
theorem failed_nodup (floatOf : Str→Str) (stack : Stack) (answer : List Str→Attempt) :
    (stack.failed floatOf answer).Nodup := by
  unfold Stack.failed
  split
  · unfold StackShapes.exitedBadly
    dsimp only
    split_ifs
    · exact List.nodup_nil
    · split
      · exact List.nodup_nil
      · exact Finset.sort_nodup _ _
  · exact List.nodup_nil

/-- No section takes the place of another: a service's key is longer than those
of the streams and the shared sections, and ends in the same way as the others'. -/
theorem sections_nodup (floatOf : Str→Str) (stack : Stack) (answer : List Str→Attempt)
    (stdout stderr : Str) :
    (([(str "stderr",stderr),(str "stdout",stdout)]++
      (stack.sources floatOf answer).map (sectionOf answer)).map Prod.fst).Nodup := by
  have hkeys : ((stack.sources floatOf answer).map (sectionOf answer)).map Prod.fst=
      [str "compose ps",str "service logs"]++(stack.failed floatOf answer).map
        (fun service => service++str " log (exited non-zero)") := by
    simp only [Stack.sources,List.map_append,List.map_map]
    rfl
  have hstreams : [(str "stderr",stderr),(str "stdout",stdout)].map Prod.fst=
      [str "stderr",str "stdout"] := rfl
  rw [List.map_append,hkeys,hstreams,←List.append_assoc,List.nodup_append]
  refine ⟨by decide,(failed_nodup floatOf stack answer).map ?_,?_⟩
  · exact fun service other h => List.append_cancel_right h
  · rintro key hkey other hother rfl
    obtain ⟨service,-,hservice⟩ := List.mem_map.mp hother
    have hlength := congrArg List.length hservice
    rw [List.length_append] at hlength
    have hlong : (str " log (exited non-zero)").length=22 := by decide
    have hshort : ∀ key∈[str "stderr",str "stdout"]++[str "compose ps",str "service logs"],
        key.length≤12 := by decide
    have := hshort key hkey
    omega

/-- Everything is gathered if everything can be read. -/
theorem diagnostics_readable (h : ∀ argv∈stack.asked floatOf answer,Readable (answer argv)) :
    stack.diagnostics floatOf answer=
      .ok ((stack.sources floatOf answer).map (sectionOf answer)) := by
  rw [Stack.asked,List.forall_mem_cons,List.forall_mem_map,Stack.sources,
    List.forall_mem_append] at h
  obtain ⟨hlisting,hshared,hservices⟩ := h
  simp only [Stack.diagnostics,gatherAll_readable hshared,exitedBadly_readable hlisting,
    gatherAll_readable hservices]
  have hnodup := sections_nodup floatOf stack answer [] []
  rw [List.map_append] at hnodup
  have hall := hnodup.of_append_right
  have hsplit : (stack.sources floatOf answer).map (sectionOf answer)=
      stack.shared.map (sectionOf answer)++
        ((stack.failed floatOf answer).map stack.serviceLog).map (sectionOf answer) := by
    rw [Stack.sources,List.map_append]
  rw [hsplit] at hall ⊢
  have hshared' : ((stack.shared.map (sectionOf answer)).map Prod.fst).Nodup := by
    rw [List.map_append] at hall
    exact hall.of_append_left
  have hfirst := @merge_fresh _ _ _ [] (stack.shared.map (sectionOf answer)) hshared'
  rw [hfirst,List.nil_append,merge_fresh hall]

/-- Anything that cannot be read takes its place. -/
theorem diagnostics_unreadable (h : ∃ argv∈stack.asked floatOf answer,¬Readable (answer argv)) :
    stack.diagnostics floatOf answer=.error .unicodeDecode := by
  by_cases hshared : ∀ source∈stack.shared,Readable (answer source.argv)
  · by_cases hlisting : Readable (answer stack.listing)
    · obtain ⟨argv,hm,hread⟩ := h
      have hservice : ∃ source∈(stack.failed floatOf answer).map stack.serviceLog,
          ¬Readable (answer source.argv) := by
        rcases List.mem_cons.mp hm with rfl|hm
        · exact absurd hlisting hread
        · obtain ⟨source,hsource,rfl⟩ := List.mem_map.mp hm
          rcases List.mem_append.mp hsource with hsource|hsource
          · exact absurd (hshared source hsource) hread
          · exact ⟨source,hsource,hread⟩
      simp only [Stack.diagnostics,gatherAll_readable hshared,exitedBadly_readable hlisting,
        gatherAll_unreadable hservice]
    · simp only [Stack.diagnostics,gatherAll_readable hshared,Stack.exitedBadly,
        run_unreadable hlisting]
  · have hunread : ∃ source∈stack.shared,¬Readable (answer source.argv) := by
      simpa only [not_forall,exists_prop] using hshared
    simp only [Stack.diagnostics,gatherAll_unreadable hunread]

/-- A container that exited with code 1. -/
def failedRecord : PythonJson.Json :=
  .dict [(str "Service",.str (str "db")),(str "ExitCode",.int 1)]

/-- It is listed as the one service that exited badly. -/
theorem failedRecord_listed : StackShapes.exitedBadly id
    (some ⟨0,str "[\x7b\"Service\": \"db\", \"ExitCode\": 1\x7d]"⟩)=[str "db"] := by
  have htext : str "[\x7b\"Service\": \"db\", \"ExitCode\": 1\x7d]"=dumps (.list [failedRecord]) := by
    decide +kernel
  have hvalid : Valid id (.list [failedRecord]) := by
    refine .list (fun record hm => ?_)
    rw [List.mem_singleton.mp hm]
    refine .dict (by decide) (fun field hfield => ?_)
    simp only [List.mem_cons,List.not_mem_nil,or_false] at hfield
    rcases hfield with rfl|rfl
    · exact .str _
    · exact .int 1
  have hjoined : ∀ s∈strings (.list [failedRecord]),joinPairs s=s := by decide +kernel
  have hplain : ∀ s∈strings (.list [failedRecord]),¬HasPair s :=
    fun s hs => (joinPairs_eq_self_iff s).mp (hjoined s hs)
  have hloads : loads id (dumps (.list [failedRecord]))=some (.list [failedRecord]) := by
    rw [loads_dumps hvalid,(readBack_eq_self_iff hvalid).mpr hplain]
  have htrimmed : Trimmed (dumps (.list [failedRecord])) := by
    rw [←htext]
    exact ⟨fun c hc => Option.some.inj hc ▸ by decide,fun c hc => Option.some.inj hc ▸ by decide⟩
  rw [htext,exitedBadly_array hloads htrimmed]
  exact Finset.sort_singleton _ _

/-- One container exited badly, and every log has a line. -/
def loggedAnswer (argv : List Str) : Attempt :=
  if str "json"∈argv then
    .ended 0 "[\x7b\"Service\": \"db\", \"ExitCode\": 1\x7d]".toUTF8 "".toUTF8
  else .ended 0 "no space left\n".toUTF8 "".toUTF8

/-- The compose invocation. -/
def sampleStack : Stack := ⟨[str "docker",str "compose"]⟩

end Checks

/-- What a section shows of lines, behind its name. -/
def shown (lines : List Str) : Str :=
  if lines=[] then str ": empty"
  else if lines.length ≤ maxReportLines then str ":"++lf::join [lf] lines
  else str " (last 40 of "++digits lines.length++str "):"++lf::
    join [lf] (lastLines maxReportLines lines)

theorem lastLines_length (n : ℕ) (lines : List Str) :
    (lastLines n lines).length=min n lines.length := by
  rw [lastLines,List.length_drop]
  omega

theorem lastLines_of_le {n : ℕ} {lines : List Str} (h : lines.length≤n) :
    lastLines n lines=lines := by
  rw [lastLines,Nat.sub_eq_zero_of_le h,List.drop_zero]

/-- Of lines that are there, some are kept. -/
theorem lastLines_ne_nil {lines : List Str} (hne : lines≠[]) :
    lastLines maxReportLines lines≠[] := by
  intro hnil
  have hlength := lastLines_length maxReportLines lines
  have hpos := List.length_pos_of_ne_nil hne
  rw [hnil,List.length_nil,maxReportLines] at hlength
  omega

theorem ne_nil_of_long {lines : List Str} (hlong : maxReportLines<lines.length) : lines≠[] := by
  rintro rfl
  exact absurd hlong (Nat.not_lt_zero _)

theorem join_cons {part : Str} {parts : List Str} (h : parts≠[]) :
    join [lf] (part::parts)=part++lf::join [lf] parts := by
  rw [join,List.intercalate_cons_of_ne_nil h,List.append_assoc]
  rfl

/-- A section is its name and what is shown. -/
theorem reportSection_eq (name body : Str) :
    reportSection name body=name++shown (splitlines (strip body)) := by
  unfold reportSection shown
  generalize splitlines (strip body)=lines
  by_cases hempty : lines=[]
  · rw [if_pos hempty,if_pos hempty]
  · rw [if_neg hempty,if_neg hempty]
    dsimp only
    rw [join_cons (lastLines_ne_nil hempty),lastLines_length]
    by_cases hshort : lines.length ≤ maxReportLines
    · rw [if_pos (Nat.min_eq_right hshort),if_pos hshort,lastLines_of_le hshort,List.append_assoc]
    · have hmin : min maxReportLines lines.length=40 := Nat.min_eq_left (Nat.le_of_not_le hshort)
      have hlong : ¬40=lines.length := by
        rw [maxReportLines] at hshort
        omega
      rw [hmin,if_neg hlong,if_neg hshort]
      simp only [List.append_assoc]
      rfl

theorem digits_injective : Function.Injective digits := by
  intro m n h
  rw [←ofDigits_digits m,h,ofDigits_digits]

/-- Lines without boundaries are known from their text. -/
theorem join_injective {lines other : List Str} (hl : ∀ line∈lines,LineFree line)
    (ho : ∀ line∈other,LineFree line) (hne : lines≠[]) (hne' : other≠[])
    (h : join [lf] lines=join [lf] other) : lines=other := by
  have hlines := splitlines_join hl
  rw [h,splitlines_join ho,if_neg hne,if_neg hne'] at hlines
  exact hlines.symm

theorem shown_short {lines : List Str} (hne : lines≠[]) (h : lines.length ≤ maxReportLines) :
    shown lines=str ":"++lf::join [lf] lines := by
  rw [shown,if_neg hne,if_pos h]

theorem shown_long {lines : List Str} (h : maxReportLines<lines.length) :
    shown lines=str " (last 40 of "++digits lines.length++str "):"++lf::
      join [lf] (lastLines maxReportLines lines) := by
  rw [shown,if_neg (ne_nil_of_long h),if_neg (Nat.not_le_of_lt h)]

/-- The three kinds of sections start differently. -/
theorem shown_cases (lines : List Str) :
    (lines=[] ∧ (shown lines).take 2=str ": ") ∨
      (lines≠[] ∧ lines.length ≤ maxReportLines ∧ (shown lines).take 2=str ":"++[lf]) ∨
      (maxReportLines<lines.length ∧ (shown lines).take 2=str " (") := by
  by_cases hempty : lines=[]
  · subst hempty
    exact .inl ⟨rfl,rfl⟩
  · by_cases hshort : lines.length ≤ maxReportLines
    · rw [shown_short hempty hshort]
      exact .inr (.inl ⟨hempty,hshort,rfl⟩)
    · rw [shown_long (Nat.lt_of_not_le hshort)]
      exact .inr (.inr ⟨Nat.lt_of_not_le hshort,rfl⟩)

/-- Nothing but digits stands before the bracket. -/
theorem digits_bracket {m n : ℕ} {s t : Str}
    (h : digits m++0x29::s=digits n++0x29::t) : m=n ∧ s=t := by
  have hdigit : ∀ k,(0x29 : CodePoint)∉digits k := by
    intro k hk
    exact absurd (digits_bounds hk).1 (by decide)
  rcases append_cons_eq_iff.mp h with ⟨hdigits,hrest⟩|⟨w,⟨hw,-⟩|⟨hw,-⟩⟩
  · exact ⟨digits_injective hdigits,hrest⟩
  · exact absurd (hw ▸ List.mem_append_right _ List.mem_cons_self) (hdigit n)
  · exact absurd (hw ▸ List.mem_append_right _ List.mem_cons_self) (hdigit m)

/-- What is shown of two texts is the same exactly if they have as many lines and
end in the same forty. -/
theorem shown_eq_iff {lines other : List Str} (hl : ∀ line∈lines,LineFree line)
    (ho : ∀ line∈other,LineFree line) :
    shown lines=shown other ↔ lines.length=other.length ∧
      lastLines maxReportLines lines=lastLines maxReportLines other := by
  constructor
  · intro h
    rcases shown_cases lines with ⟨rfl,hkind⟩|⟨hne,hshort,hkind⟩|⟨hlong,hkind⟩
    · rcases shown_cases other with ⟨rfl,-⟩|⟨-,-,hother⟩|⟨-,hother⟩
      · exact ⟨rfl,rfl⟩
      · rw [h,hother] at hkind
        exact absurd hkind (by decide)
      · rw [h,hother] at hkind
        exact absurd hkind (by decide)
    · rcases shown_cases other with ⟨rfl,hother⟩|⟨hne',hshort',-⟩|⟨-,hother⟩
      · rw [h,hother] at hkind
        exact absurd hkind (by decide)
      · rw [shown_short hne hshort,shown_short hne' hshort'] at h
        have hsame := join_injective hl ho hne hne' (List.cons.inj (List.append_cancel_left h)).2
        rw [hsame]
        exact ⟨rfl,rfl⟩
      · rw [h,hother] at hkind
        exact absurd hkind (by decide)
    · rcases shown_cases other with ⟨rfl,hother⟩|⟨-,-,hother⟩|⟨hlong',-⟩
      · rw [h,hother] at hkind
        exact absurd hkind (by decide)
      · rw [h,hother] at hkind
        exact absurd hkind (by decide)
      · rw [shown_long hlong,shown_long hlong'] at h
        simp only [List.append_assoc] at h
        obtain ⟨hlength,hrest⟩ := digits_bracket (List.append_cancel_left h)
        refine ⟨hlength,join_injective (fun line hm => hl line (List.mem_of_mem_drop hm))
          (fun line hm => ho line (List.mem_of_mem_drop hm)) (lastLines_ne_nil (ne_nil_of_long hlong))
          (lastLines_ne_nil (ne_nil_of_long hlong')) ?_⟩
        exact (List.cons.inj (List.cons.inj hrest).2).2
  · rintro ⟨hlength,hlast⟩
    by_cases hshort : lines.length ≤ maxReportLines
    · rw [lastLines_of_le hshort,lastLines_of_le (hlength ▸ hshort)] at hlast
      rw [hlast]
    · have hlong := Nat.lt_of_not_le hshort
      rw [shown_long hlong,shown_long (hlength ▸ hlong),hlength,hlast]

/-- A section tells two texts apart exactly if, without the blanks around them,
they differ in their last forty lines or in how many lines they have. -/
theorem reportSection_eq_iff (name body other : Str) :
    reportSection name body=reportSection name other ↔
      (splitlines (strip body)).length=(splitlines (strip other)).length ∧
        lastLines maxReportLines (splitlines (strip body))=
          lastLines maxReportLines (splitlines (strip other)) := by
  rw [reportSection_eq,reportSection_eq,List.append_cancel_left_eq]
  exact shown_eq_iff (fun line hm => (mem_splitlines hm).1) (fun line hm => (mem_splitlines hm).1)

/-- `LOG_TAIL_LINES` of the cluster tier. -/
def clusterTailLines : ℕ := 40

/-- What the cluster tier gathers of one call: nothing where it is refused or
silent, else the last lines. -/
def clusterText (attempt : Attempt) : Except Fault (Option Str) :=
  match run attempt with
  | .error (.refused _) => .ok none
  | .error fault => .error fault
  | .ok result =>
    let text := strip (result.said [])
    if text=[] then .ok none
    else .ok (some (join [lf] (lastLines clusterTailLines (splitlines text))))

/-- The loop of the cluster tier's `diagnostics`. -/
def gatherCluster (answer : List Str→Attempt) :
    List (Str×Str)→List (Str×List Str)→Except Fault (List (Str×Str))
  | gathered,[] => .ok gathered
  | gathered,(label,argv)::probes =>
    match clusterText (answer argv) with
    | .ok (some text) => gatherCluster answer (put gathered label text) probes
    | .ok none => gatherCluster answer gathered probes
    | .error fault => .error fault

/-- `Cluster` -/
structure Cluster where
  /-- `name` -/
  name : Str
  /-- `namespace` -/
  inside : Str

/-- `kubectl(*args)` -/
def Cluster.kubectl (cluster : Cluster) (args : List Str) : List Str :=
  [str "kubectl",str "--context",str "kind-"++cluster.name,str "-n",cluster.inside]++args

/-- What `diagnostics` goes over: a label and the command for it. -/
def Cluster.probes (cluster : Cluster) : List (Str×List Str) :=
  [(str "pods",cluster.kubectl [str "get",str "pods",str "-o",str "wide"]),
    (str "events",cluster.kubectl [str "get",str "events",str "--sort-by=.lastTimestamp"]),
    (str "deployments",cluster.kubectl [str "get",str "deploy"]),
    (str "hpa",cluster.kubectl [str "get",str "hpa"])]

/-- `diagnostics` -/
def Cluster.diagnostics (cluster : Cluster) (answer : List Str→Attempt) :
    Except Fault (List (Str×Str)) := gatherCluster answer [] cluster.probes

/-- `check`, of a command that comes to `first`. -/
def Cluster.check (cluster : Cluster) (label : Str) (argv : List Str) (first : Attempt)
    (answer : List Str→Attempt) : Except Failure Completed :=
  match run first with
  | .error fault => .error (.raised fault)
  | .ok result =>
    if result.returncode≠0 then
      match cluster.diagnostics answer with
      | .error fault => .error (.raised fault)
      | .ok extra => .error (.assertion (describeProcess label argv result.returncode
          result.stdout result.stderr extra))
    else .ok result

/-- What one call adds to the dictionary: nothing where it is refused or silent. -/
def clusterEntry (answer : List Str→Attempt) (probe : Str×List Str) : Option (Str×Str) :=
  match clusterText (answer probe.2) with
  | .ok text => text.map (fun text => (probe.1,text))
  | .error _ => none

/-- The section of a text under its bare label, with all of its lines. -/
def wholeSection (entry : Str×Str) : Str :=
  entry.1++str ":"++lf::join [lf] (splitlines (strip entry.2))

theorem length_consLine (c : CodePoint) (lines : List Str) :
    (consLine c lines).length=max 1 lines.length := by
  cases lines with
  | nil => rfl
  | cons line lines =>
    rw [consLine,List.length_cons,List.length_cons]
    omega

/-- A text has no fewer lines than its end. -/
theorem length_splitlines_append_right (s t : Str) :
    (splitlines t).length≤(splitlines (s++t)).length := by
  induction s with
  | nil => exact le_rfl
  | cons c s ih =>
    refine ih.trans ?_
    rw [List.cons_append]
    by_cases hc : isLineBoundary c=true
    · by_cases hcrlf : c=cr ∧ (s++t).head?=some lf
      · rw [hcrlf.1,splitlines_cr_lf hcrlf.2]
      · rw [splitlines_boundary hc hcrlf]
        exact Nat.le_succ _
    · rw [splitlines_cons (Bool.eq_false_of_not_eq_true hc),length_consLine]
      exact le_max_right _ _

/-- And no fewer than its start. -/
theorem length_splitlines_append_left (s t : Str) :
    (splitlines s).length≤(splitlines (s++t)).length := by
  induction s using splitlines.induct with
  | case1 => exact Nat.zero_le _
  | case2 c hc =>
    rw [splitlines,if_pos hc]
    exact List.length_pos_of_ne_nil (splitlines_ne_nil (List.cons_ne_nil _ _))
  | case3 c hc =>
    rw [splitlines,if_neg hc]
    exact List.length_pos_of_ne_nil (splitlines_ne_nil (List.cons_ne_nil _ _))
  | case4 c d rest hcd ih =>
    obtain ⟨rfl,rfl⟩ := hcd
    simp only [List.cons_append,splitlines_crlf,List.length_cons]
    omega
  | case5 c d rest hcd hc ih =>
    have h : ∀ u,¬(c=cr ∧ (d::u).head?=some lf) := fun u => by
      simpa only [List.head?_cons,Option.some.injEq] using hcd
    simp only [List.cons_append] at ih ⊢
    rw [splitlines_boundary hc (h _),splitlines_boundary hc (h _),List.length_cons,List.length_cons]
    omega
  | case6 c d rest hcd hc ih =>
    have hfree : isLineBoundary c=false := Bool.eq_false_of_not_eq_true hc
    simp only [List.cons_append] at ih ⊢
    rw [splitlines_cons hfree,splitlines_cons hfree,length_consLine,length_consLine]
    omega

/-- Stripping adds no line. -/
theorem length_splitlines_strip (s : Str) :
    (splitlines (strip s)).length≤(splitlines s).length := by
  obtain ⟨l,r,hparts,-,-⟩ := strip_parts s
  calc (splitlines (strip s)).length≤(splitlines (l++strip s)).length :=
        length_splitlines_append_right l (strip s)
    _≤(splitlines (l++strip s++r)).length := length_splitlines_append_left (l++strip s) r
    _=(splitlines s).length := by rw [←hparts]

/-- Joined lines have no more lines. -/
theorem length_splitlines_join {lines : List Str} (hl : ∀ line∈lines,LineFree line) :
    (splitlines (join [lf] lines)).length≤lines.length := by
  by_cases hne : lines=[]
  · rw [hne]
    exact le_rfl
  · have hle := length_splitlines_append_left (join [lf] lines) [lf]
    rwa [splitlines_join hl,if_neg hne] at hle

/-- A character that ends no line stands at the end of the last one. -/
theorem splitlines_concat {c : CodePoint} (hc : isLineBoundary c=false) (s : Str) :
    ∃ init line,splitlines (s++[c])=init++[line++[c]] := by
  induction s with
  | nil => exact ⟨[],[],by rw [List.nil_append,splitlines_cons hc]; rfl⟩
  | cons d s ih =>
    obtain ⟨init,line,hlines⟩ := ih
    rw [List.cons_append]
    by_cases hd : isLineBoundary d=true
    · by_cases hcrlf : d=cr ∧ (s++[c]).head?=some lf
      · exact ⟨init,line,by rw [hcrlf.1,splitlines_cr_lf hcrlf.2,hlines]⟩
      · exact ⟨[]::init,line,by rw [splitlines_boundary hd hcrlf,hlines,List.cons_append]⟩
    · rw [splitlines_cons (Bool.eq_false_of_not_eq_true hd),hlines]
      cases init with
      | nil => exact ⟨[],d::line,rfl⟩
      | cons first init => exact ⟨(d::first)::init,line,rfl⟩

/-- The last lines of a text that does not end in a blank are not blank. -/
theorem strip_lastLines {c : CodePoint} (hc : isSpace c=false) (s : Str) {n : ℕ} (hn : 0<n) :
    strip (join [lf] (lastLines n (splitlines (s++[c]))))≠[] := by
  have hend : isLineBoundary c=false :=
    Bool.eq_false_of_not_eq_true (fun h => by rw [isSpace_of_isLineBoundary h] at hc; cases hc)
  obtain ⟨init,line,hlines⟩ := splitlines_concat hend s
  have hfree : ∀ l∈lastLines n (splitlines (s++[c])),LineFree l :=
    fun l hm => (mem_splitlines (List.mem_of_mem_drop hm)).1
  have hlast : line++[c]∈lastLines n (splitlines (s++[c])) := by
    rw [hlines,lastLines,List.length_append,List.length_singleton,List.drop_append_of_le_length
      (by omega)]
    exact List.mem_append_right _ List.mem_cons_self
  intro hblank
  have hback := splitlines_join hfree
  rw [if_neg (List.ne_nil_of_mem hlast)] at hback
  have hmem := (mem_splitlines (hback ▸ hlast)).2 c (List.mem_append_right _ List.mem_cons_self)
  rcases List.mem_append.mp hmem with hm|hm
  · rw [strip_eq_nil_iff.mp hblank c hm] at hc
    cases hc
  · rw [List.mem_singleton.mp hm,isLineBoundary_lf] at hend
    cases hend

/-- What is gathered has at least one line and at most forty, however much was printed. -/
theorem lines_of_clusterText {attempt : Attempt} {text : Str}
    (h : clusterText attempt=.ok (some text)) :
    splitlines (strip text)≠[] ∧ (splitlines (strip text)).length ≤ maxReportLines := by
  unfold clusterText at h
  split at h
  · cases h
  · cases h
  · rename_i result hrun
    dsimp only at h
    split_ifs at h with hempty
    · cases h
    · rw [Except.ok.injEq,Option.some.injEq] at h
      constructor
      · have htrimmed := strip_trimmed (result.said [])
        obtain ⟨init,c,hsaid⟩ := (List.eq_nil_or_concat (strip (result.said []))).resolve_left hempty
        rw [hsaid,List.concat_eq_append] at htrimmed h
        have hc : isSpace c=false := htrimmed.2 c List.getLast?_concat
        rw [←h]
        exact splitlines_ne_nil (strip_lastLines hc init (by decide))
      · rw [←h]
        refine (length_splitlines_strip _).trans ((length_splitlines_join ?_).trans ?_)
        · exact fun line hm => (mem_splitlines (List.mem_of_mem_drop hm)).1
        · rw [lastLines_length]
          exact Nat.min_le_left _ _

theorem clusterEntry_eq_some {probe : Str×List Str} {entry : Str×Str}
    (h : clusterEntry answer probe=some entry) :
    entry.1=probe.1 ∧ clusterText (answer probe.2)=.ok (some entry.2) := by
  unfold clusterEntry at h
  split at h
  · rename_i text htext
    obtain ⟨text,rfl,rfl⟩ := Option.map_eq_some_iff.mp h
    exact ⟨rfl,htext⟩
  · cases h

/-- So its section has its label as it is, and all of its lines. -/
theorem reportSection_clusterEntry {probe : Str×List Str} {entry : Str×Str}
    (h : clusterEntry answer probe=some entry) :
    reportSection entry.1 entry.2=wholeSection entry := by
  obtain ⟨hne,hfits⟩ := lines_of_clusterText (clusterEntry_eq_some h).2
  rw [wholeSection,reportSection_eq,shown_short hne hfits,List.append_assoc]

/-- The labels of what is gathered are labels of the calls. -/
theorem labels_clusterEntry (probes : List (Str×List Str)) :
    ((probes.filterMap (clusterEntry answer)).map Prod.fst).Sublist (probes.map Prod.fst) := by
  induction probes with
  | nil => exact .slnil
  | cons probe probes ih =>
    cases h : clusterEntry answer probe with
    | none =>
      rw [List.filterMap_cons_none h]
      exact ih.cons _
    | some entry =>
      rw [List.filterMap_cons_some h,List.map_cons,List.map_cons,(clusterEntry_eq_some h).1]
      exact ih.cons_cons _

/-- Under labels of their own, what is gathered is what each call gives. -/
theorem gatherCluster_eq_ok {probes : List (Str×List Str)} {gathered extra : List (Str×Str)}
    (hfresh : (gathered.map Prod.fst++probes.map Prod.fst).Nodup)
    (h : gatherCluster answer gathered probes=.ok extra) :
    extra=gathered++probes.filterMap (clusterEntry answer) ∧
      ∀ probe∈probes,∃ text,clusterText (answer probe.2)=.ok text := by
  induction probes generalizing gathered with
  | nil =>
    cases h
    exact ⟨(List.append_nil _).symm,fun _ hm => absurd hm List.not_mem_nil⟩
  | cons probe probes ih =>
    have hnew : probe.1∉gathered.map Prod.fst := by
      intro hm
      exact (List.nodup_append.mp hfresh).2.2 _ hm _ List.mem_cons_self rfl
    rw [List.map_cons] at hfresh
    unfold gatherCluster at h
    split at h
    · rename_i text htext
      rw [put_fresh hnew] at h
      have hentry : clusterEntry answer probe=some (probe.1,text) := by
        simp only [clusterEntry,htext,Option.map_some]
      obtain ⟨hextra,hrest⟩ := ih (by simpa using hfresh) h
      rw [hextra,List.filterMap_cons_some hentry,List.append_assoc,List.singleton_append]
      exact ⟨rfl,List.forall_mem_cons.mpr ⟨⟨_,htext⟩,hrest⟩⟩
    · rename_i htext
      have hentry : clusterEntry answer probe=none := by
        simp only [clusterEntry,htext,Option.map_none]
      have hfresh' := hfresh.sublist (List.Sublist.append_left (List.sublist_cons_self _ _) _)
      obtain ⟨hextra,hrest⟩ := ih hfresh' h
      rw [hextra,List.filterMap_cons_none hentry]
      exact ⟨rfl,List.forall_mem_cons.mpr ⟨⟨_,htext⟩,hrest⟩⟩
    · cases h

/-- The pods can be listed, and every other call is refused. -/
def podsAnswer (argv : List Str) : Attempt :=
  if str "pods"∈argv then .ended 0 "NAME READY\nscorer 0/1\n".toUTF8 "".toUTF8
  else .refused (str "TimeoutExpired")

/-- The cluster of the tier. -/
def testCluster : Cluster := ⟨str "mlops-platform-tests",str "mlops-tests"⟩

/-- What is gathered of it: the pods. -/
theorem podsAnswer_diagnostics : testCluster.diagnostics podsAnswer=
    .ok [(str "pods",str "NAME READY\nscorer 0/1")] := by
  have hsaid : strip (Completed.said ⟨⟨0,universalNewlines (str "NAME READY\nscorer 0/1\n")⟩,
      universalNewlines (str "")⟩ [])=str "NAME READY\nscorer 0/1" := by decide +kernel
  have hlines : join [lf] (lastLines clusterTailLines
      (splitlines (str "NAME READY\nscorer 0/1")))=str "NAME READY\nscorer 0/1" := by
    decide +kernel
  have hlisted : ∀ {argv},str "pods"∈argv → clusterText (podsAnswer argv)=
      .ok (some (str "NAME READY\nscorer 0/1")) := by
    intro argv hm
    simp only [podsAnswer,if_pos hm,clusterText,run,decode_toUTF8,hsaid,hlines]
    rw [if_neg (by decide)]
  have hrefused : ∀ {argv},str "pods"∉argv → clusterText (podsAnswer argv)=.ok none := by
    intro argv hm
    rw [podsAnswer,if_neg hm]
    rfl
  rw [Cluster.diagnostics,Cluster.probes,gatherCluster,hlisted (by decide)]
  dsimp only
  rw [gatherCluster,hrefused (by decide)]
  dsimp only
  rw [gatherCluster,hrefused (by decide)]
  dsimp only
  rw [gatherCluster,hrefused (by decide)]
  rfl

end MlopsPlatform.FailureReports
