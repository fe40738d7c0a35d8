import MlopsPlatform.RequestInterleaving
import MlopsPlatform.TextCodec
import Mathlib.Data.Finset.Insert

/-!
# Provisioning the buckets

`ensure` creates one bucket and takes the two codes of a bucket that is already
there for success, `main` does so for every bucket it is given. The compose
one-shot and the init container of every MLflow pod run it against one store,
at any time and with calls that may fail, before or after they take effect.
-/

namespace MlopsPlatform.EnsureBuckets

open TextCodec RequestInterleaving

/-- What a `ClientError` says: `response`, as far as `ensure` reads it. -/
structure ClientError where
  /-- `Error`, if present, and its `Code`, if present. -/
  error : Option (Option Str)

/-- `str(error.response.get("Error", {}).get("Code", ""))` -/
def ClientError.code (error : ClientError) : Str := (error.error.getD none).getD []

/-- What a call raises. -/
inductive Raised where
  /-- The store answered with an error. -/
  | client (error : ClientError)
  /-- Anything else: a refused connection, a lost reply. -/
  | other (message : Str)

/-- `ALREADY_PRESENT` -/
def alreadyPresent : List Str := [str "BucketAlreadyOwnedByYou",str "BucketAlreadyExists"]

/-- What a call to the store comes back with. -/
abbrev Reply := Except Raised Unit

/-- A program whose requests are calls of `create_bucket`. -/
abbrev Calls := Program Str Reply

/-- `ensure(client, bucket)` -/
def ensure (bucket : Str) : Calls (Except Raised Str) :=
  .ask bucket (fun reply =>
    match reply with
    | .error (.client error) =>
      if error.code∉alreadyPresent then .done (.error (.client error))
      else .done (.ok (str "already present"))
    | .error (.other message) => .done (.error (.other message))
    | .ok () => .done (.ok (str "created")))

/-- How a run ends. -/
structure Finish where
  /-- The lines on standard output. -/
  printed : List Str
  /-- The lines on standard error. -/
  complained : List Str
  /-- What `main` returns or raises. -/
  outcome : Except Raised ℕ

/-- `f"ensure_buckets: {bucket}: {ensure(client, bucket)} at {endpoint}"` -/
def line (bucket said endpoint : Str) : Str :=
  str "ensure_buckets: "++bucket++str ": "++said++str " at "++endpoint

/-- The loop of `main`, after it has printed some lines. -/
def provision (endpoint : Str) : List Str→List Str→Calls Finish
  | [],printed => .done ⟨printed,[],.ok 0⟩
  | bucket::buckets,printed =>
    (ensure bucket).bind (fun said =>
      match said with
      | .error raised => .done ⟨printed,[],.error raised⟩
      | .ok said => provision endpoint buckets (printed++[line bucket said endpoint]))

/-- `main(argv)`, with `MLFLOW_S3_ENDPOINT_URL` from the environment. -/
def main (argv : List Str) (endpoint : Option Str) : Calls Finish :=
  let buckets := argv.tail
  if buckets=[] then
    .done ⟨[],[str "ensure_buckets: no bucket named, so nothing was checked"],.ok 2⟩
  else if endpoint.getD []=[] then
    .done ⟨[],[str "ensure_buckets: MLFLOW_S3_ENDPOINT_URL is unset, so there is no object "++
      str "store to provision. Refusing rather than defaulting to AWS."],.ok 2⟩
  else provision (endpoint.getD []) buckets []

/-- A run with buckets and an endpoint. -/
structure Invocation where
  /-- What it is called by. -/
  script : Str
  /-- The buckets it names. -/
  buckets : List Str
  /-- It names one. -/
  named : buckets≠[]
  /-- The endpoint. -/
  endpoint : Str
  /-- It is set. -/
  set : endpoint≠[]

/-- What the run does. -/
def Invocation.program (invocation : Invocation) : Calls Finish :=
  main (invocation.script::invocation.buckets) (some invocation.endpoint)

/-- `create_bucket` on a store with a single owner. -/
inductive Creates : Finset Str→Str→Finset Str→Reply→Prop where
  /-- An absent bucket is created. -/
  | absent {store : Finset Str} {bucket : Str} (new : bucket∉store) :
    Creates store bucket (insert bucket store) (.ok ())
  /-- A present one is reported by one of the two codes. -/
  | present {store : Finset Str} {bucket : Str} {error : ClientError} (old : bucket∈store)
    (coded : error.code∈alreadyPresent) : Creates store bucket store (.error (.client error))

/-- Something else than the two codes was raised. -/
def OtherFailure : Reply→Prop
  | .ok () => False
  | .error (.client error) => error.code∉alreadyPresent
  | .error (.other _) => True

/-- The store, as the runs see it. -/
def objectStore (Run : Type) : Service Run (Finset Str) Str Reply :=
  ⟨fun _ => Creates,fun _ => OtherFailure⟩

variable {Run : Type} {endpoint : Str} {finish : Finish} {store store' : Finset Str}

/-- Runs against one store. -/
abbrev Runs (Run : Type) := State Run (Finset Str) Str Reply Finish

/-- What the loop does with a bucket: it raises what is not one of the two
codes, and otherwise goes on with the others. -/
theorem provision_cons (endpoint bucket : Str) (buckets printed : List Str) :
    ∃ next : Reply→Calls Finish,provision endpoint (bucket::buckets) printed=.ask bucket next ∧
      ∀ reply,
        (OtherFailure reply ∧ ∃ raised,next reply=.done ⟨printed,[],.error raised⟩) ∨
        (¬OtherFailure reply ∧ ∃ said,next reply=
          provision endpoint buckets (printed++[line bucket said endpoint])) := by
  refine ⟨_,rfl,fun reply => ?_⟩
  match reply with
  | .ok () => exact Or.inr ⟨not_false,_,rfl⟩
  | .error (.other message) => exact Or.inl ⟨trivial,_,rfl⟩
  | .error (.client error) =>
    by_cases hcode : error.code∈alreadyPresent
    · refine Or.inr ⟨not_not.mpr hcode,str "already present",?_⟩
      simp only [hcode,not_true_eq_false,if_false,Program.bind]
    · refine Or.inl ⟨hcode,.client error,?_⟩
      simp only [hcode,not_false_eq_true,if_true,Program.bind]

/-- How a run for these buckets may end: with 0 after a call for every bucket,
none of which raised anything else, or by an exception that one of them raised. -/
def EndsAs (buckets : List Str) (log : List (Str×Reply)) (finish : Finish) : Prop :=
  (finish.outcome=.ok 0 ∧ (∀ entry∈log,¬OtherFailure entry.2) ∧ log.map Prod.fst=buckets) ∨
    ((∃ raised,finish.outcome=.error raised) ∧ ∃ entry∈log,OtherFailure entry.2)

/-- After its calls for the first buckets the loop makes one call for each of
the others, as long as nothing else is raised. -/
theorem provision_meets {all buckets printed : List Str} {log : List (Str×Reply)}
    (hnone : ∀ entry∈log,¬OtherFailure entry.2) (hall : log.map Prod.fst++buckets=all) :
    Meets (fun log bucket => bucket∈all ∧ log.length<all.length) (EndsAs all) log
      (provision endpoint buckets printed) := by
  induction buckets generalizing printed log with
  | nil =>
    rw [List.append_nil] at hall
    exact Or.inl ⟨rfl,hnone,hall⟩
  | cons bucket buckets ih =>
    obtain ⟨next,hask,hnext⟩ := provision_cons endpoint bucket buckets printed
    have hlength := congrArg List.length hall
    rw [List.length_append,List.length_map,List.length_cons] at hlength
    rw [hask]
    refine ⟨⟨hall ▸ List.mem_append_right _ List.mem_cons_self,by omega⟩,fun reply => ?_⟩
    rcases hnext reply with ⟨hfailed,raised,hreply⟩|⟨hfine,said,hreply⟩
    · rw [hreply]
      exact Or.inr ⟨⟨raised,rfl⟩,_,List.mem_append_right _ (List.mem_singleton_self _),hfailed⟩
    · rw [hreply]
      refine ih (fun entry hentry => ?_) ?_
      · rcases List.mem_append.mp hentry with hentry|hentry
        · exact hnone entry hentry
        · rw [List.mem_singleton.mp hentry]
          exact hfine
      · rw [List.map_append,List.append_assoc]
        exact hall

/-- A run with buckets and an endpoint comes to the loop. -/
theorem Invocation.program_eq (invocation : Invocation) :
    invocation.program=provision invocation.endpoint invocation.buckets [] := by
  simp only [Invocation.program,main,List.tail_cons,invocation.named,invocation.set,if_false,
    Option.getD_some]

/-- A call takes no bucket away and leaves the one it is for. -/
theorem Creates.kept {bucket : Str} {reply : Reply} (h : Creates store bucket store' reply) :
    store⊆store' ∧ bucket∈store' ∧ ∀ b∈store',b∈store ∨ b=bucket := by
  cases h with
  | absent new =>
    refine ⟨Finset.subset_insert _ _,Finset.mem_insert_self _ _,fun b hb => ?_⟩
    exact (Finset.mem_insert.mp hb).symm
  | present old coded => exact ⟨Finset.Subset.refl _,old,fun b hb => Or.inl hb⟩

/-- A call for a bucket that is there changes nothing. -/
theorem Creates.unchanged {bucket : Str} {reply : Reply} (h : Creates store bucket store' reply)
    (hold : bucket∈store) : store'=store := by
  cases h with
  | absent new => exact absurd hold new
  | present old coded => rfl

/-- The store answers every call. -/
theorem exists_creates (store : Finset Str) (bucket : Str) :
    ∃ store' reply,Creates store bucket store' reply := by
  by_cases h : bucket∈store
  · have hcoded : (ClientError.mk (some (some (str "BucketAlreadyExists")))).code∈
        alreadyPresent := List.mem_cons_of_mem _ List.mem_cons_self
    exact ⟨_,_,.present h hcoded⟩
  · exact ⟨_,_,.absent h⟩

/-- A call comes back with nothing else than the two codes. -/
theorem Creates.expected {bucket : Str} {reply : Reply}
    (h : Creates store bucket store' reply) : ¬OtherFailure reply := by
  cases h with
  | absent new => exact not_false
  | present old coded => exact not_not.mpr coded

/-- All runs on a store that held these buckets before. -/
def initial (invocation : Run→Invocation) (store : Finset Str) : Runs Run :=
  start store (fun run => (invocation run).program)

/-- What holds of the runs and the store at any time. -/
structure Converges (invocation : Run→Invocation) (store : Finset Str) (s : Runs Run) : Prop where
  /-- No bucket is ever removed. -/
  kept : ∀ s',Reaches (objectStore Run) s s' → s.server⊆s'.server
  /-- A new bucket is one that a run named, and called for. -/
  named : ∀ bucket∈s.server,bucket∈store ∨
    ∃ run,bucket∈(invocation run).buckets ∧ bucket∈(s.client run).applied
  /-- A run has returned 0 exactly if none of its calls raised anything else. -/
  zero_iff : ∀ run finish,(s.client run).Ended finish →
    (finish.outcome=.ok 0 ↔ ∀ entry∈(s.client run).log,¬OtherFailure entry.2)
  /-- Then all of its buckets exist from now on. -/
  exist : ∀ run finish,(s.client run).Ended finish → finish.outcome=.ok 0 →
    ∀ s',Reaches (objectStore Run) s s' → (invocation run).buckets.toFinset⊆s'.server
  /-- Where its buckets exist a run changes nothing any more. -/
  again : ∀ run,(invocation run).buckets.toFinset⊆s.server →
    ∀ s',Reaches (objectStore Run) s s' → ∀ server client,
      Move (objectStore Run) run s'.server (s'.client run) server client → server=s'.server
  /-- A run takes three steps a bucket at most, and until it has ended it can
  take one that raises nothing else. -/
  ends : ∀ run,(s.client run).progress≤3*(invocation run).buckets.length ∧
    (∀ server client,Move (objectStore Run) run s.server (s.client run) server client →
      Counts (s.client run) client) ∧
    ((∃ finish,(s.client run).Ended finish) ∨
      ∃ s',Next (objectStore Run) s s' ∧ (s.client run).progress<(s'.client run).progress ∧
        ∀ entry∈(s'.client run).log,entry∈(s.client run).log ∨ ¬OtherFailure entry.2)

variable {invocation : Run→Invocation} {s s' : Runs Run}

/-- The store only grows. -/
theorem server_subset (h : Reaches (objectStore Run) s s') : s.server⊆s'.server := by
  refine server_invariant (fun server => s.server⊆server) ?_ h (Finset.Subset.refl _)
  intro run bucket reply server server' hserves hsub
  exact hsub.trans hserves.kept.1

/-- A bucket that was not there before was called for. -/
theorem mem_server (h : Reaches (objectStore Run) (initial invocation store) s) :
    ∀ bucket∈s.server,bucket∈store ∨ ∃ run,bucket∈(s.client run).applied := by
  induction h with
  | refl => exact fun bucket hbucket => Or.inl hbucket
  | @tail s₁ s₂ hreach hnext ih =>
    obtain ⟨run,hmove,hothers⟩ := hnext
    have hearlier : ∀ bucket∈s₁.server,bucket∈store ∨ ∃ run,bucket∈(s₂.client run).applied := by
      intro bucket hbucket
      refine (ih bucket hbucket).imp_right (fun hcalled => ?_)
      obtain ⟨other,hother⟩ := hcalled
      by_cases hsame : other=run
      · rw [hsame] at hother
        refine ⟨run,?_⟩
        rcases hmove.server_cases with ⟨-,happlied⟩|⟨_,_,-,-,happlied⟩
        · rw [happlied]
          exact hother
        · rw [happlied]
          exact List.mem_append_left _ hother
      · rw [←hothers other hsame] at hother
        exact ⟨other,hother⟩
    intro bucket hbucket
    rcases hmove.server_cases with ⟨hserver,-⟩|⟨called,reply,-,hserves,happlied⟩
    · rw [hserver] at hbucket
      exact hearlier bucket hbucket
    · rcases hserves.kept.2.2 bucket hbucket with hold|rfl
      · exact hearlier bucket hold
      · refine Or.inr ⟨run,?_⟩
        rw [happlied]
        exact List.mem_append_right _ (List.mem_singleton_self _)

/-- What a run asks for, and how it may end. -/
theorem program_meets (invocation : Invocation) :
    Meets (fun log bucket => bucket∈invocation.buckets ∧ log.length < invocation.buckets.length)
      (EndsAs invocation.buckets) [] invocation.program := by
  rw [invocation.program_eq]
  refine provision_meets (fun entry hentry => ?_) rfl
  cases hentry

/-- A run calls for the buckets it names. -/
theorem named_of_called (h : Reaches (objectStore Run) (initial invocation store) s) {run : Run}
    {bucket : Str} (hcalled : bucket∈(s.client run).applied ∨ (s.client run).Open bucket) :
    bucket∈(invocation run).buckets := by
  obtain ⟨-,-,-,hnamed,-⟩ := (kept_of_reaches h run).meets (program_meets (invocation run)) hcalled
  exact hnamed

/-- How a run has ended. -/
theorem ended_cases (h : Reaches (objectStore Run) (initial invocation store) s) {run : Run}
    (hend : (s.client run).Ended finish) :
    EndsAs (invocation run).buckets (s.client run).log finish :=
  (kept_of_reaches h run).result (program_meets (invocation run)) hend

/-- An answer that is no other failure says that its bucket exists. -/
theorem truthful (h : Reaches (objectStore Run) (initial invocation store) s) (run : Run) :
    Truthful (objectStore Run) (fun bucket reply server => ¬OtherFailure reply ∧ bucket∈server)
      s.server (s.client run) := by
  refine truthful_of_reaches
    (fun _ bucket reply server => ¬OtherFailure reply ∧ bucket∈server) (fun _ _ => True)
    (fun run => (program_meets (invocation run)).mono ?_ ?_) ?_ ?_ h run
  · exact fun _ _ _ => trivial
  · exact fun _ _ _ => trivial
  · intro run bucket reply server server' hserves
    exact ⟨hserves.expected,hserves.kept.2.1⟩
  · intro run bucket reply other called said server server' _ hserves hfact
    exact ⟨hfact.1,hserves.kept.1 hfact.2⟩

/-- All buckets of a run that has returned 0 exist. -/
theorem exist_of_zero (h : Reaches (objectStore Run) (initial invocation store) s) {run : Run}
    (hend : (s.client run).Ended finish) (hzero : finish.outcome=.ok 0) :
    (invocation run).buckets.toFinset⊆s.server := by
  rcases ended_cases h hend with ⟨-,hnone,hall⟩|⟨⟨raised,hraised⟩,-⟩
  · intro bucket hbucket
    rw [List.mem_toFinset,←hall] at hbucket
    obtain ⟨entry,hentry,rfl⟩ := List.mem_map.mp hbucket
    exact (((truthful h run).told entry hentry).resolve_left (hnone entry hentry)).2
  · rw [hraised] at hzero
    cases hzero

/-- A run whose buckets exist leaves the store as it is. -/
theorem server_unchanged (h : Reaches (objectStore Run) (initial invocation store) s) {run : Run}
    (hexist : (invocation run).buckets.toFinset⊆s.server) {server : Finset Str}
    {client : Client Str Reply Finish}
    (hmove : Move (objectStore Run) run s.server (s.client run) server client) :
    server=s.server := by
  rcases hmove.server_cases with ⟨hsame,-⟩|⟨bucket,reply,hopen,hserves,-⟩
  · exact hsame
  · have hbucket := named_of_called h (Or.inr hopen)
    exact Creates.unchanged hserves (hexist (List.mem_toFinset.mpr hbucket))

/-- A run that has not ended can go on, and nothing else is raised by that. -/
theorem ended_or_next (h : Reaches (objectStore Run) (initial invocation store) s) (run : Run) :
    (∃ finish,(s.client run).Ended finish) ∨
      ∃ s',Next (objectStore Run) s s' ∧ (s.client run).progress<(s'.client run).progress ∧
        ∀ entry∈(s'.client run).log,entry∈(s.client run).log ∨ ¬OtherFailure entry.2 := by
  have htotal : ∀ bucket∈(s.client run).phase.unserved,∃ server' reply,
      (objectStore Run).serves run s.server bucket server' reply :=
    fun bucket _ => exists_creates s.server bucket
  exact ended_or_further (truthful h run)
    (fun _ _ hfact => hfact.1) htotal

/-- Provisioning converges, whatever the runs and however their calls and the
failures of these fall. -/
theorem provisioning_converges (h : Reaches (objectStore Run) (initial invocation store) s) :
    Converges invocation store s := by
  refine ⟨fun s' hs' => server_subset hs',fun bucket hbucket => ?_,fun run finish hend => ?_,
    fun run finish hend hzero s' hs' => ?_,fun run hexist s' hs' server client hmove => ?_,
    fun run => ⟨?_,fun server client hmove => hmove.counts,ended_or_next h run⟩⟩
  · refine (mem_server h bucket hbucket).imp_right (fun hcalled => ?_)
    obtain ⟨run,hrun⟩ := hcalled
    exact ⟨run,named_of_called h (Or.inl hrun),hrun⟩
  · rcases ended_cases h hend with ⟨hzero,hnone,-⟩|⟨⟨raised,hraised⟩,entry,hm,ho⟩
    · exact iff_of_true hzero hnone
    · refine iff_of_false ?_ (fun hnone => hnone entry hm ho)
      rw [hraised]
      exact fun heq => by cases heq
  · exact (exist_of_zero h hend hzero).trans (server_subset hs')
  · exact server_unchanged (h.trans hs') (hexist.trans (server_subset hs')) hmove
  · refine (kept_of_reaches h run).progress_le ((program_meets (invocation run)).mono ?_ ?_)
    · exact fun log bucket hasked => hasked.2
    · exact fun _ _ _ => trivial

/-- The one-shot of the compose file. -/
def oneShot : Invocation :=
  ⟨str "/opt/ensure_buckets.py",[str "mlflow"],List.cons_ne_nil _ _,str "http://minio:9000",
    by decide⟩

/-- How the one-shot ends when it is told this of its bucket. -/
def oneShotFinish (said : Str) : Finish :=
  ⟨[line (str "mlflow") said (str "http://minio:9000")],[],.ok 0⟩

/-- The one-shot after an answer that is taken for success. -/
def oneShotTold (said : Str) (reply : Reply) : Client Str Reply Finish :=
  ⟨.running (.done (oneShotFinish said)),[],[str "mlflow"],[(str "mlflow",reply)]⟩

/-- What the store says of a bucket that is there. -/
def ownedByYou : Reply := .error (.client ⟨some (some (str "BucketAlreadyOwnedByYou"))⟩)

/-- Two runs against one store. -/
def both (store : Finset Str) (first second : Client Str Reply Finish) : Runs Bool :=
  ⟨store,fun run => cond run second first⟩

/-- The one-shot twice: the first run created the bucket, the second one met it. -/
def oneShotsDone : Runs Bool :=
  both {str "mlflow"} (oneShotTold (str "created") (.ok ()))
    (oneShotTold (str "already present") ownedByYou)

section Both

variable {first first' second second' : Client Str Reply Finish}

/-- The first run moves. -/
theorem next_first (h : Move (objectStore Bool) false store first store' first') :
    Next (objectStore Bool) (both store first second) (both store' first' second) :=
  ⟨false,h,fun run hrun => by rw [Bool.eq_true_of_not_eq_false hrun]; rfl⟩

/-- The second run moves. -/
theorem next_second (h : Move (objectStore Bool) true store second store' second') :
    Next (objectStore Bool) (both store first second) (both store' first second') :=
  ⟨true,h,fun run hrun => by rw [Bool.eq_false_of_not_eq_true hrun]; rfl⟩

end Both

/-- Both calls are on the way before the first one is served. -/
theorem oneShots_reach :
    Reaches (objectStore Bool) (initial (fun _ => oneShot) ∅) oneShotsDone := by
  obtain ⟨next,hprogram,hcreated,hpresent⟩ : ∃ next,oneShot.program=.ask (str "mlflow") next ∧
      next (.ok ())=.done (oneShotFinish (str "created")) ∧
      next ownedByYou=.done (oneShotFinish (str "already present")) :=
    ⟨_,rfl,rfl,rfl⟩
  have hinitial : initial (fun _ => oneShot) ∅=both ∅
      ⟨.running (.ask (str "mlflow") next),[],[],[]⟩
      ⟨.running (.ask (str "mlflow") next),[],[],[]⟩ := by
    rw [←hprogram,both]
    exact congrArg (State.mk ∅) (funext (fun run => by cases run <;> rfl))
  have hnew : Move (objectStore Bool) false ∅ ⟨.waiting (str "mlflow") next none,[],[],[]⟩
      {str "mlflow"} ⟨.waiting (str "mlflow") next (some (.ok ())),[],[str "mlflow"],[]⟩ :=
    .serve (.absent (Finset.notMem_empty _))
  have hold : Move (objectStore Bool) true {str "mlflow"}
      ⟨.waiting (str "mlflow") next none,[],[],[]⟩ {str "mlflow"}
      ⟨.waiting (str "mlflow") next (some ownedByYou),[],[str "mlflow"],[]⟩ :=
    .serve (.present (Finset.mem_singleton_self _) (by decide))
  have hmade : Move (objectStore Bool) false {str "mlflow"}
      ⟨.waiting (str "mlflow") next (some (.ok ())),[],[str "mlflow"],[]⟩ {str "mlflow"}
      (oneShotTold (str "created") (.ok ())) := by
    rw [oneShotTold,←hcreated]
    exact .receive
  have hmet : Move (objectStore Bool) true {str "mlflow"}
      ⟨.waiting (str "mlflow") next (some ownedByYou),[],[str "mlflow"],[]⟩ {str "mlflow"}
      (oneShotTold (str "already present") ownedByYou) := by
    rw [oneShotTold,←hpresent]
    exact .receive
  rw [hinitial]
  refine .tail (.tail ?_ (next_first hmade)) (next_second hmet)
  refine .tail (.tail ?_ (next_first hnew)) (next_second hold)
  exact .tail (.single (next_first .send)) (next_second .send)

theorem provisioning_converges_oneShots : Converges (fun _ => oneShot) ∅ oneShotsDone :=
  provisioning_converges oneShots_reach

end MlopsPlatform.EnsureBuckets
