import MlopsPlatform.ShellWords
import MlopsPlatform.StepSequences
import MlopsPlatform.TextSeparators
import MlopsPlatform.TextSorted

/-!
# Cataloguing from the Makefile and from make.ps1

Both entrypoints run `supply.images`, and for every reference the cataloguer
and then `supply.inventory`. The Makefile loops over the words of a command
substitution, whose exit status a shell does not look at; make.ps1 assigns the
printed lines, checks the exit code and throws. Both loops are the same attempt
at a list of steps; what differs is the list, and what a failure to produce it
does.
-/

namespace MlopsPlatform.SupplyEntrypoints

open TextCodec TextLines TextSorted TextSeparators ShellWords StepSequences

/-- A command a target runs. -/
structure Command where
  /-- The program. -/
  exe : Str
  /-- Its arguments. -/
  arguments : List Str
deriving DecidableEq

/-- How an attempt to run a program ends. -/
inductive Ending where
  /-- The program exits with a code. -/
  | exits (code : ℤ)
  /-- There is no such program. -/
  | missing
deriving DecidableEq

/-- What a shell has in `$?` then. -/
def Ending.status : Ending→ℤ
  | .exits code => code
  | .missing => 127

/-- How commands end, each after those before it. -/
abbrev Endings := List Command → Command → Ending

/-- What they leave in `$?`. -/
def statuses (endings : Endings) : Outcome Command :=
  fun taken command => (endings taken command).status

/-- What PowerShell throws. -/
inductive Thrown where
  /-- `throw`, of a text. -/
  | text (message : Str)
  /-- A `CommandNotFoundException`, which has the name of the command. -/
  | commandNotFound (name : Str)

/-- What both entrypoints are configured with. -/
structure Settings where
  /-- The interpreter, `PY` and `$Py`. -/
  py : Str
  /-- The image of the cataloguer. -/
  syft : Str
  /-- The directory of the documents, `SBOM_DIR` and `$SbomDir`. -/
  directory : Str
  /-- That directory under the working directory, with forward slashes. -/
  mount : Str

/-- The cataloguer's command for an image and the name of its document. -/
def cataloguer (settings : Settings) (image name : Str) : Command :=
  ⟨str "docker",[str "run",str "--rm",str "-v",
    str "/var/run/docker.sock:/var/run/docker.sock",str "-v",settings.mount++str ":/out",
    settings.syft,image,str "-o",str "spdx-json=/out/"++name++str ".spdx.json"]⟩

/-- The inventory's command for the name of a document. -/
def inventoryOf (settings : Settings) (name : Str) : Command :=
  ⟨settings.py,[str "-m",str "supply.inventory",
    settings.directory++str "/"++name++str ".spdx.json",
    settings.directory++str "/"++name++str ".packages.txt"]⟩

/-- How `supply.images` ended, and the lines it printed. -/
structure Listing where
  /-- How it ended. -/
  ending : Ending
  /-- The lines. -/
  lines : List Str
  /-- They are whole lines, for a shell and for PowerShell. -/
  whole : ∀ line∈lines,lf∉line ∧ cr∉line
  /-- There are none where there is no such program. -/
  silent : ending=.missing → lines=[]

/-- Its exit code. -/
def Listing.exitCode (listing : Listing) : ℤ := listing.ending.status

/-- The at sign, which starts a digest. -/
def atSign : CodePoint := 0x40

/-- `[/:]` becomes `_`. -/
def underscore (c : CodePoint) : CodePoint := if c=0x2f ∨ c=0x3a then 0x5f else c

/-- What a document is named after: the reference without its digest. -/
def stem (image : Str) : Str := (partition atSign image).1.map underscore

/-- `echo`, of an operand without a backslash that is not `-n`: shells differ on the others,
and no reference is one of them. -/
def echo (operand : Str) : Str := operand++[lf]

/-- `sed 's/@.*//; s#[/:]#_#g'`, line by line. -/
def sed (input : Str) : Str :=
  join [lf] ((split [lf] input).map (fun line => (partition atSign line).1.map underscore))

/-- `$(echo "$image" | sed 's/@.*//; s#[/:]#_#g')` -/
def sedName (image : Str) : Str := substituted (sed (echo image))

/-- `($image -split '@')[0] -replace '[/:]', '_'` -/
def psName (image : Str) : Str := ((split [atSign] image).headD []).map underscore

/-- The body of the Makefile's loop, over the words that are left: the commands
run, and the status of the loop. -/
def shLoop (outcome : Outcome Command) (settings : Settings) :
    List Command→List Str→List Command×ℤ
  | taken,[] => (taken,0)
  | taken,image::images =>
    let name := sedName image
    if outcome taken (cataloguer settings image name)≠0 then
      (taken++[cataloguer settings image name],1)
    else
      let catalogued := taken++[cataloguer settings image name]
      if outcome catalogued (inventoryOf settings name)≠0 then
        (catalogued++[inventoryOf settings name],1)
      else shLoop outcome settings (catalogued++[inventoryOf settings name]) images

/-- The `sbom` target of the Makefile, once its directory is there: the commands
run, and whether the recipe succeeded. The status of the command substitution
is not looked at. -/
def makeSbom (endings : Endings) (settings : Settings) (matching : Str→List Str)
    (listing : Listing) : List Command×Bool :=
  let ran := shLoop (statuses endings) settings [] (words matching (printed listing.lines))
  (ran.1,ran.2=0)

/-- `Invoke-Checked`: where there is no such program, PowerShell throws in its place. -/
def invokeChecked (endings : Endings) (taken : List Command) (command : Command) :
    List Command×Except Thrown Unit :=
  match endings taken command with
  | .missing => (taken++[command],.error (.commandNotFound command.exe))
  | .exits code =>
    if code≠0 then
      (taken++[command],.error (.text (command.exe++str " "++join (str " ") command.arguments++
        str " failed with exit code "++str (toString code))))
    else (taken++[command],.ok ())

/-- What PowerShell assigns from the lines of a command. -/
inductive Assigned where
  /-- `$null`, without a line. -/
  | null
  /-- A string, of one line. -/
  | one (line : Str)
  /-- An array, of several. -/
  | array (lines : List Str)

/-- `$images = & $Py @('-m', 'supply.images')` -/
def assigned : List Str→Assigned
  | [] => .null
  | [line] => .one line
  | lines => .array lines

/-- What `foreach` goes over. -/
def Assigned.items : Assigned→List Str
  | .null => []
  | .one line => [line]
  | .array lines => lines

/-- The loop of make.ps1, over the items that are left: the commands run, and
what was thrown. -/
def foreachLoop (endings : Endings) (settings : Settings) :
    List Command→List Str→List Command×Except Thrown Unit
  | taken,[] => (taken,.ok ())
  | taken,image::images =>
    let name := psName image
    match invokeChecked endings taken (cataloguer settings image name) with
    | (catalogued,.error thrown) => (catalogued,.error thrown)
    | (catalogued,.ok _) =>
      match invokeChecked endings catalogued (inventoryOf settings name) with
      | (listed,.error thrown) => (listed,.error thrown)
      | (listed,.ok _) => foreachLoop endings settings listed images

/-- The `sbom` arm of make.ps1, once its directory is there. -/
def ps1Sbom (endings : Endings) (settings : Settings) (listing : Listing) :
    List Command×Except Thrown Unit :=
  match listing.ending with
  | .missing => ([],.error (.commandNotFound settings.py))
  | .exits code =>
    if code≠0 then
      ([],.error (.text (str "supply.images could not list the spine images")))
    else foreachLoop endings settings [] (assigned listing.lines).items

/-- The two steps of every reference, under a way to name documents. -/
def stepsOf (name : Str→Str) (settings : Settings) (images : List Str) : List Command :=
  images.flatMap (fun image =>
    [cataloguer settings image (name image),inventoryOf settings (name image)])

/-- Cataloguing fails closed and identically in both entrypoints, however each
step ends. -/
structure FailsClosedAlike (settings : Settings) (matching : Str→List Str)
    (listing : Listing) : Prop where
  /-- The Makefile succeeds when the list was produced and every step was. -/
  makeSucceeds : ∀ endings,(makeSbom endings settings matching listing).2=true ↔
    listing.exitCode=0 ∧ AllZero (statuses endings) (stepsOf stem settings listing.lines)
  /-- So does make.ps1. -/
  ps1Succeeds : ∀ endings,(ps1Sbom endings settings listing).2=.ok () ↔
    listing.exitCode=0 ∧ AllZero (statuses endings) (stepsOf stem settings listing.lines)
  /-- They run the same commands in the same order. -/
  sameOrder : ∀ endings,
    (makeSbom endings settings matching listing).1=(ps1Sbom endings settings listing).1
  /-- These are the steps of the references up to the first that fails. -/
  stops : ∀ endings,listing.exitCode=0 → (makeSbom endings settings matching listing).1=
    (attempt (statuses endings) [] (stepsOf stem settings listing.lines)).1

variable {outcome : Outcome Command} {endings : Endings} {settings : Settings}
  {matching : Str→List Str}

/-- The status is zero only of a program that was there and exited with it. -/
theorem status_zero_iff {ending : Ending} : ending.status=0 ↔ ending=.exits 0 := by
  cases ending with
  | exits code => exact ⟨congrArg Ending.exits,Ending.exits.inj⟩
  | missing => exact iff_of_false (by decide) (fun h => by cases h)

/-- Where every command exits with zero, all are run. -/
theorem attempt_exits_zero (taken steps : List Command) :
    attempt (statuses (fun _ _ => .exits 0)) taken steps=(taken++steps,true) :=
  attempt_of_zero (fun _ _ => rfl) taken steps

theorem stepsOf_cons (name : Str→Str) (image : Str) (images : List Str) :
    stepsOf name settings (image::images)=
      cataloguer settings image (name image)::inventoryOf settings (name image)::
        stepsOf name settings images := by
  rw [stepsOf,List.flatMap_cons,stepsOf]
  rfl

/-- The steps say which references they are of. -/
theorem stepsOf_injective {name name' : Str→Str} {images images' : List Str}
    (h : stepsOf name settings images=stepsOf name' settings images') : images=images' := by
  induction images generalizing images' with
  | nil =>
    cases images' with
    | nil => rfl
    | cons image' images' =>
      rw [stepsOf_cons] at h
      cases h
  | cons image images ih =>
    cases images' with
    | nil =>
      rw [stepsOf_cons] at h
      cases h
    | cons image' images' =>
      rw [stepsOf_cons,stepsOf_cons,List.cons.injEq,List.cons.injEq] at h
      obtain ⟨hcatalogue,-,hrest⟩ := h
      have himage : image=image' := by
        simp only [cataloguer,Command.mk.injEq,List.cons.injEq] at hcatalogue
        exact hcatalogue.2.2.2.2.2.2.2.2.1
      rw [himage,ih hrest]

/-- The Makefile's loop is an attempt at the steps of its words. -/
theorem shLoop_eq (taken : List Command) (images : List Str) :
    shLoop outcome settings taken images=
      ((attempt outcome taken (stepsOf sedName settings images)).1,
        if (attempt outcome taken (stepsOf sedName settings images)).2=true then 0 else 1) := by
  induction images generalizing taken with
  | nil => rfl
  | cons image images ih =>
    rw [stepsOf_cons,shLoop]
    by_cases hcatalogue : outcome taken (cataloguer settings image (sedName image))=0
    · rw [if_neg (not_not.mpr hcatalogue),attempt_zero hcatalogue]
      by_cases hinventory : outcome (taken++[cataloguer settings image (sedName image)])
          (inventoryOf settings (sedName image))=0
      · rw [if_neg (not_not.mpr hinventory),attempt_zero hinventory,ih]
      · rw [if_pos hinventory,attempt_failed hinventory]
        rfl
    · rw [if_pos hcatalogue,attempt_failed hcatalogue]
      rfl

theorem invokeChecked_zero {taken : List Command} {command : Command}
    (h : statuses endings taken command=0) :
    invokeChecked endings taken command=(taken++[command],.ok ()) := by
  rw [invokeChecked,status_zero_iff.mp h]
  rfl

theorem invokeChecked_failed {taken : List Command} {command : Command}
    (h : statuses endings taken command≠0) :
    ∃ thrown,invokeChecked endings taken command=(taken++[command],.error thrown) := by
  rw [statuses] at h
  rw [invokeChecked]
  cases hending : endings taken command with
  | missing => exact ⟨_,rfl⟩
  | exits code =>
    rw [hending] at h
    exact ⟨_,if_pos h⟩

/-- The loop of make.ps1 is an attempt at the steps of its items. -/
theorem foreachLoop_eq (taken : List Command) (images : List Str) :
    (foreachLoop endings settings taken images).1=
        (attempt (statuses endings) taken (stepsOf psName settings images)).1 ∧
      ((foreachLoop endings settings taken images).2=.ok () ↔
        (attempt (statuses endings) taken (stepsOf psName settings images)).2=true) := by
  induction images generalizing taken with
  | nil => exact ⟨rfl,iff_of_true rfl rfl⟩
  | cons image images ih =>
    rw [stepsOf_cons,foreachLoop]
    by_cases hcatalogue : statuses endings taken (cataloguer settings image (psName image))=0
    · rw [attempt_zero hcatalogue]
      simp only [invokeChecked_zero hcatalogue]
      by_cases hinventory : statuses endings (taken++[cataloguer settings image (psName image)])
          (inventoryOf settings (psName image))=0
      · rw [attempt_zero hinventory]
        simp only [invokeChecked_zero hinventory]
        exact ih _
      · obtain ⟨thrown,hthrown⟩ := invokeChecked_failed hinventory
        rw [attempt_failed hinventory]
        simp only [hthrown]
        exact ⟨trivial,iff_of_false (fun h => (by cases h)) (fun h => (by cases h))⟩
    · obtain ⟨thrown,hthrown⟩ := invokeChecked_failed hcatalogue
      rw [attempt_failed hcatalogue]
      simp only [hthrown]
      exact ⟨trivial,iff_of_false (fun h => (by cases h)) (fun h => (by cases h))⟩

/-- What is assigned is gone over line by line. -/
theorem items_assigned (lines : List Str) : (assigned lines).items=lines := by
  cases lines with
  | nil => rfl
  | cons line lines =>
    cases lines with
    | nil => rfl
    | cons next lines => rfl

/-- PowerShell's name of a document is the stem. -/
theorem psName_eq (image : Str) : psName image=stem image := by
  unfold psName stem
  rcases exists_partition atSign image with habsent|⟨left,right,rfl,hleft⟩
  · rw [split_single_absent habsent,partition_absent habsent]
    rfl
  · rw [split_single_first hleft,partition_first hleft]
    rfl

/-- The characters of a stem are those of the image, but for what an underscore
stands for. -/
theorem mem_stem {image : Str} {c : CodePoint} (h : c∈stem image) :
    ∃ d∈image,underscore d=c := by
  obtain ⟨d,hd,he⟩ := List.mem_map.mp h
  refine ⟨d,?_,he⟩
  rcases exists_partition atSign image with habsent|⟨left,right,rfl,hleft⟩
  · rwa [partition_absent habsent] at hd
  · rw [partition_first hleft] at hd
    exact List.mem_append_left _ hd

/-- A stem of a line has no line feed. -/
theorem lf_not_mem_stem {image : Str} (h : lf∉image) : lf∉stem image := by
  intro hm
  obtain ⟨c,hc,he⟩ := mem_stem hm
  unfold underscore at he
  split at he
  · cases he
  · rw [he] at hc
    exact h hc

/-- The shell's name of a document is the stem too, for a reference on one line. -/
theorem sedName_eq {image : Str} (h : lf∉image) : sedName image=stem image := by
  have hsplit : split [lf] (echo image)=[image,[]] := by
    rw [echo,split_single_first h,split_single_absent List.not_mem_nil]
  have hsed : sed (echo image)=stem image++[lf] := by
    rw [sed,hsplit]
    simp [join,stem,partition,List.intercalate]
  rw [sedName,hsed,substituted_line (lf_not_mem_stem h)]

/-- Both ways to name documents give the steps under their stems. -/
theorem stepsOf_congr {name name' : Str→Str} {images : List Str}
    (h : ∀ image∈images,name image=name' image) :
    stepsOf name settings images=stepsOf name' settings images := by
  induction images with
  | nil => rfl
  | cons image images ih =>
    rw [List.forall_mem_cons] at h
    rw [stepsOf_cons,stepsOf_cons,h.1,ih h.2]

/-- The Makefile attempts the steps of its words and reports only their failure. -/
theorem makeSbom_eq (listing : Listing) :
    makeSbom endings settings matching listing=
      attempt (statuses endings) []
        (stepsOf sedName settings (words matching (printed listing.lines))) := by
  rw [makeSbom,shLoop_eq]
  cases h : (attempt (statuses endings) []
      (stepsOf sedName settings (words matching (printed listing.lines)))).2 with
  | true => exact Prod.ext rfl h.symm
  | false => exact Prod.ext rfl h.symm

/-- make.ps1 attempts the steps of the lines once the list was produced. -/
theorem ps1Sbom_eq {listing : Listing} (h : listing.exitCode=0) :
    (ps1Sbom endings settings listing).1=
        (attempt (statuses endings) [] (stepsOf stem settings listing.lines)).1 ∧
      ((ps1Sbom endings settings listing).2=.ok () ↔
        (attempt (statuses endings) [] (stepsOf stem settings listing.lines)).2=true) := by
  have hnames : stepsOf psName settings listing.lines=stepsOf stem settings listing.lines :=
    stepsOf_congr (fun image _ => psName_eq image)
  have hloop : ps1Sbom endings settings listing=
      foreachLoop endings settings [] (assigned listing.lines).items := by
    rw [ps1Sbom,status_zero_iff.mp h]
    rfl
  rw [hloop,items_assigned,←hnames]
  exact foreachLoop_eq [] listing.lines

/-- Without the list make.ps1 throws before any step. -/
theorem ps1Sbom_refused {listing : Listing} (h : listing.exitCode≠0) :
    (ps1Sbom endings settings listing).2≠.ok () := by
  rw [Listing.exitCode] at h
  rw [ps1Sbom]
  cases hending : listing.ending with
  | missing => exact fun hn => (by cases hn)
  | exits code =>
    rw [hending] at h
    have hcode : code≠0 := h
    dsimp only
    rw [if_pos hcode]
    exact fun hn => (by cases hn)

/-- On kept lines the Makefile attempts the steps of the lines. -/
theorem makeSbom_of_kept {listing : Listing} (h : Kept matching listing.lines) :
    makeSbom endings settings matching listing=
      attempt (statuses endings) [] (stepsOf stem settings listing.lines) := by
  have hnames : stepsOf sedName settings listing.lines=stepsOf stem settings listing.lines :=
    stepsOf_congr (fun image hi => sedName_eq (listing.whole image hi).1)
  rw [makeSbom_eq,words_eq_iff.mpr h,hnames]

/-- A produced list of lines that are kept is catalogued alike. -/
theorem alike_of_kept {listing : Listing} (hzero : listing.exitCode=0)
    (hkept : Kept matching listing.lines) : FailsClosedAlike settings matching listing := by
  refine ⟨fun endings => ?_,fun endings => ?_,fun endings => ?_,fun endings _ => ?_⟩
  · rw [makeSbom_of_kept hkept,attempt_allZero_iff]
    exact (and_iff_right hzero).symm
  · rw [(ps1Sbom_eq hzero).2,attempt_allZero_iff]
    exact (and_iff_right hzero).symm
  · rw [makeSbom_of_kept hkept,(ps1Sbom_eq hzero).1]
  · rw [makeSbom_of_kept hkept]

/-- So is one of references without blanks and patterns, in every directory. -/
theorem alike_of_plain {listing : Listing} (hzero : listing.exitCode=0)
    (hplain : ∀ line∈listing.lines,
      line≠[] ∧ ∀ c∈line,isSeparator c=false ∧ isSpecial c=false) :
    FailsClosedAlike settings matching listing :=
  alike_of_kept hzero (kept_of_plain matching hplain)

/-- Cataloguing fails closed and identically in the Makefile and in make.ps1
exactly when `supply.images` exited with zero and splitting and expanding the
lines it printed gives those lines back. -/
theorem sbom_fails_closed_iff (settings : Settings) (matching : Str→List Str)
    (listing : Listing) :
    FailsClosedAlike settings matching listing ↔
      listing.exitCode=0 ∧ Kept matching listing.lines := by
  constructor
  · intro h
    -- with steps that cannot fail, only the list decides
    have hmake := @makeSbom_eq (fun _ _ => .exits 0) settings matching listing
    rw [attempt_exits_zero,List.nil_append] at hmake
    have hzero : listing.exitCode=0 :=
      ((h.makeSucceeds (fun _ _ => .exits 0)).mp (by rw [hmake])).1
    have hsteps := h.stops (fun _ _ => .exits 0) hzero
    rw [hmake,attempt_exits_zero,List.nil_append] at hsteps
    exact ⟨hzero,words_eq_iff.mp (stepsOf_injective hsteps)⟩
  · rintro ⟨hzero,hkept⟩
    exact alike_of_kept hzero hkept

/-- A configuration, and a directory in which no pattern matches. -/
def committed : Settings :=
  ⟨str ".venv/bin/python",str "anchore/syft:v1.51.1",str "sbom",str "/work/sbom"⟩

/-- What `supply.images` leaves when it cannot read the compose file. -/
def unlisted : Listing := ⟨.exits 1,[],fun _ h => absurd h List.not_mem_nil,fun _ => rfl⟩

/-- Without a list the Makefile reports success where make.ps1 throws. -/
theorem sbom_fails_closed_fails :
    (makeSbom (fun _ _ => .exits 0) committed (fun _ => []) unlisted).2=true ∧
      (ps1Sbom (fun _ _ => .exits 0) committed unlisted).2≠.ok () ∧
      ¬FailsClosedAlike committed (fun _ => []) unlisted := by
  have hkept : Kept (fun _ => []) unlisted.lines := rfl
  have hmake : (makeSbom (fun _ _ => .exits 0) committed (fun _ => []) unlisted).2=true := by
    rw [makeSbom_of_kept hkept]
    rfl
  refine ⟨hmake,ps1Sbom_refused (by decide),fun h => ?_⟩
  exact absurd ((h.makeSucceeds _).mp hmake).1 (by decide)

end MlopsPlatform.SupplyEntrypoints
