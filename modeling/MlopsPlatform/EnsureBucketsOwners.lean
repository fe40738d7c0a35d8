import MlopsPlatform.EnsureBuckets

/-!
# Provisioning on a store with several owners

S3 tells a bucket of the caller from one of another account by the two codes
that `ensure` takes for one. A run that returns 0 leaves every absent bucket to
the caller and every other one as it was, so a bucket of another account goes
unnoticed.
-/

namespace MlopsPlatform.EnsureBucketsOwners

open TextCodec RequestInterleaving EnsureBuckets

variable {Owner : Type}

/-- The owner of each bucket, if it exists. -/
abbrev Owners (Owner : Type) := Str→Option Owner

/-- A bucket is created for the caller. -/
def grant (caller : Owner) (store : Owners Owner) (bucket : Str) : Owners Owner :=
  fun b => if b=bucket then some caller else store b

/-- `create_bucket` on a store with several owners, as S3 documents it. -/
inductive CreatesFor (caller : Owner) : Owners Owner→Str→Owners Owner→Reply→Prop where
  /-- An absent bucket is created. -/
  | absent {store : Owners Owner} {bucket : Str} (new : store bucket=none) :
    CreatesFor caller store bucket (grant caller store bucket) (.ok ())
  /-- The caller has it already. -/
  | owned {store : Owners Owner} {bucket : Str} {error : ClientError}
    (mine : store bucket=some caller) (coded : error.code=str "BucketAlreadyOwnedByYou") :
    CreatesFor caller store bucket store (.error (.client error))
  /-- Another account has it. -/
  | taken {store : Owners Owner} {bucket : Str} {owner : Owner} {error : ClientError}
    (theirs : store bucket=some owner) (other : owner≠caller)
    (coded : error.code=str "BucketAlreadyExists") :
    CreatesFor caller store bucket store (.error (.client error))
  /-- Anything else went wrong, before or after an absent bucket was created. -/
  | failed {store store' : Owners Owner} {bucket : Str} {reply : Reply}
    (wrong : OtherFailure reply)
    (effect : store'=store ∨ store bucket=none ∧ store'=grant caller store bucket) :
    CreatesFor caller store bucket store' reply

/-- Calls and replies, one after the other, from one store to another. -/
inductive Session (caller : Owner) : Owners Owner→List (Str×Reply)→Owners Owner→Prop where
  /-- No call is made. -/
  | nil (store : Owners Owner) : Session caller store [] store
  /-- A call, and then the others. -/
  | cons {first second last : Owners Owner} {bucket : Str} {reply : Reply}
    {log : List (Str×Reply)} (call : CreatesFor caller first bucket second reply)
    (rest : Session caller second log last) : Session caller first ((bucket,reply)::log) last

/-- The program ends like this, and leaves the store so. -/
def Executes (caller : Owner) (program : Calls Finish) (store : Owners Owner) (finish : Finish)
    (after : Owners Owner) : Prop :=
  ∃ log,Path program log (.done finish) ∧ Session caller store log after

/-- A run returns 0 only if afterwards the caller owns every bucket it named. -/
def Provisions (caller : Owner) (store : Owners Owner) (script : Str) (buckets : List Str)
    (endpoint : Option Str) : Prop :=
  ∀ finish after,Executes caller (main (script::buckets) endpoint) store finish after →
    finish.outcome=.ok 0 → ∀ bucket∈buckets,after bucket=some caller

/-- No bucket of another account is among these. -/
def Unclaimed (caller : Owner) (store : Owners Owner) (buckets : List Str) : Prop :=
  ∀ bucket∈buckets,∀ owner,store bucket=some owner → owner=caller

variable {caller : Owner} {store store' after : Owners Owner} {log : List (Str×Reply)}
  {buckets printed : List Str} {endpoint : Str} {finish : Finish}

/-- A call that raises nothing else leaves an absent bucket to the caller and
every other one as it was. -/
theorem CreatesFor.owner {bucket : Str} {reply : Reply}
    (h : CreatesFor caller store bucket store' reply) (hfine : ¬OtherFailure reply) (b : Str) :
    store' b=if b=bucket ∧ store b=none then some caller else store b := by
  cases h with
  | absent new =>
    unfold grant
    by_cases hb : b=bucket
    · rw [if_pos hb,if_pos ⟨hb,hb ▸ new⟩]
    · rw [if_neg hb,if_neg (fun h => hb h.1)]
  | owned mine coded =>
    refine (if_neg ?_).symm
    rintro ⟨rfl,hnone⟩
    rw [mine] at hnone
    cases hnone
  | taken theirs other coded =>
    refine (if_neg ?_).symm
    rintro ⟨rfl,hnone⟩
    rw [theirs] at hnone
    cases hnone
  | failed wrong effect => exact absurd wrong hfine

/-- So does a whole session of such calls. -/
theorem Session.owner (h : Session caller store log after)
    (hfine : ∀ entry∈log,¬OtherFailure entry.2) (b : Str) :
    after b=if b∈log.map Prod.fst ∧ store b=none then some caller else store b := by
  induction h with
  | nil store =>
    refine (if_neg ?_).symm
    rintro ⟨hm,-⟩
    cases hm
  | @cons first second last bucket reply log call rest ih =>
    rw [List.forall_mem_cons] at hfine
    rw [ih hfine.2,call.owner hfine.1 b]
    simp only [List.map_cons,List.mem_cons]
    by_cases hb : b=bucket ∧ first b=none
    · rw [if_pos hb,ite_self,if_pos ⟨Or.inl hb.1,hb.2⟩]
    · rw [if_neg hb]
      by_cases hm : b∈log.map Prod.fst ∧ first b=none
      · rw [if_pos hm,if_pos ⟨Or.inr hm.1,hm.2⟩]
      · rw [if_neg hm,if_neg]
        rintro ⟨hin,hnone⟩
        exact hin.elim (fun he => hb ⟨he,hnone⟩) (fun hin => hm ⟨hin,hnone⟩)

/-- The store answers every call without anything else going wrong. -/
theorem exists_createsFor (caller : Owner) (store : Owners Owner) (bucket : Str) :
    ∃ store' reply,CreatesFor caller store bucket store' reply ∧ ¬OtherFailure reply := by
  have hcoded : ∀ code∈alreadyPresent,
      ¬OtherFailure (.error (.client (ClientError.mk (some (some code))))) :=
    fun code hcode => not_not.mpr hcode
  cases hb : store bucket with
  | none => exact ⟨_,_,.absent hb,not_false⟩
  | some owner =>
    by_cases howner : owner=caller
    · exact ⟨_,_,.owned (howner ▸ hb) rfl,hcoded _ List.mem_cons_self⟩
    · exact ⟨_,_,.taken hb howner rfl,hcoded _ (List.mem_cons_of_mem _ List.mem_cons_self)⟩

/-- The loop can be run to its end without anything else going wrong. -/
theorem exists_execution (caller : Owner) (store : Owners Owner) (buckets printed : List Str) :
    ∃ finish after,Executes caller (provision endpoint buckets printed) store finish after ∧
      finish.outcome=.ok 0 := by
  induction buckets generalizing store printed with
  | nil => exact ⟨⟨printed,[],.ok 0⟩,store,⟨[],.here _,.nil store⟩,rfl⟩
  | cons bucket buckets ih =>
    obtain ⟨store',reply,hcall,hfine⟩ := exists_createsFor caller store bucket
    obtain ⟨next,hask,hnext⟩ := provision_cons endpoint bucket buckets printed
    rcases hnext reply with ⟨hfailed,-⟩|⟨-,said,hreply⟩
    · exact absurd hfailed hfine
    · obtain ⟨finish,after,⟨log,hpath,hsession⟩,hzero⟩ :=
        ih store' (printed++[line bucket said endpoint])
      refine ⟨finish,after,⟨(bucket,reply)::log,?_,.cons hcall hsession⟩,hzero⟩
      rw [hask]
      refine .answered ?_
      rw [hreply]
      exact hpath

/-- A loop that returns 0 leaves each of its buckets to its owner, or to the
caller. -/
theorem execution_owner (h : Executes caller (provision endpoint buckets []) store finish after)
    (hzero : finish.outcome=.ok 0) (bucket : Str) (hm : bucket∈buckets) :
    after bucket=some ((store bucket).getD caller) := by
  obtain ⟨log,hpath,hsession⟩ := h
  have hmeets := @provision_meets endpoint buckets buckets [] [] (fun _ h => (by cases h)) rfl
  have hends := (hmeets.path hpath).1
  rw [List.nil_append] at hends
  rcases hends with ⟨-,hfine,hlog⟩|⟨⟨raised,hraised⟩,-⟩
  · rw [hsession.owner hfine bucket,hlog]
    cases hb : store bucket with
    | none => exact if_pos ⟨hm,rfl⟩
    | some owner => exact if_neg (fun h => by cases h.2)
  · rw [hzero] at hraised
    cases hraised

/-- A run returns 0 only with every bucket the caller's exactly when it has no
endpoint to go to or no bucket it names is another account's. -/
theorem provisions_iff (caller : Owner) (store : Owners Owner) (script : Str)
    (buckets : List Str) (endpoint : Option Str) :
    Provisions caller store script buckets endpoint ↔
      endpoint.getD []=[] ∨ Unclaimed caller store buckets := by
  have hstays : ∀ {lines code},code≠0 → ∀ finish after,
      Executes caller (.done ⟨[],lines,.ok code⟩) store finish after → finish.outcome≠.ok 0 := by
    rintro lines code hcode finish after ⟨log,hpath,-⟩ hzero
    cases hpath
    exact hcode (Except.ok.inj hzero)
  by_cases hbuckets : buckets=[]
  · refine iff_of_true (fun finish after h hzero bucket hm => ?_) (Or.inr fun bucket hm => ?_)
    · rw [hbuckets] at hm
      cases hm
    · rw [hbuckets] at hm
      cases hm
  · by_cases hendpoint : endpoint.getD []=[]
    · refine iff_of_true (fun finish after h hzero => ?_) (Or.inl hendpoint)
      simp only [main,List.tail_cons,hbuckets,hendpoint,if_false,if_true] at h
      exact absurd hzero (hstays (by decide) finish after h)
    · have hmain : main (script::buckets) endpoint=
          provision (endpoint.getD []) buckets [] := by
        simp only [main,List.tail_cons,hbuckets,hendpoint,if_false]
      rw [or_iff_right hendpoint,Provisions,hmain]
      constructor
      · intro h bucket hm owner howner
        obtain ⟨finish,after,hexecutes,hzero⟩ :=
          @exists_execution _ (endpoint.getD []) caller store buckets []
        have hmine := h finish after hexecutes hzero bucket hm
        rw [execution_owner hexecutes hzero bucket hm,howner] at hmine
        exact Option.some.inj hmine
      · intro h finish after hexecutes hzero bucket hm
        rw [execution_owner hexecutes hzero bucket hm]
        cases hb : store bucket with
        | none => rfl
        | some owner => exact congrArg some (h bucket hm owner hb)

/-- A store in which another account has the bucket `mlflow`. -/
def claimed : Owners Str := grant (str "them") (fun _ => none) (str "mlflow")

/-- A run for it returns 0 and leaves it with the other account. -/
theorem provisions_fails :
    claimed (str "mlflow")=some (str "them") ∧
      Executes (str "us")
        (main [str "ensure_buckets.py",str "mlflow"] (some (str "http://minio:9000"))) claimed
        ⟨[line (str "mlflow") (str "already present") (str "http://minio:9000")],[],.ok 0⟩
        claimed ∧
      ¬Provisions (str "us") claimed (str "ensure_buckets.py") [str "mlflow"]
        (some (str "http://minio:9000")) := by
  have htheirs : claimed (str "mlflow")=some (str "them") := by
    simp only [claimed,grant,if_true]
  have hrun : Executes (str "us")
      (main [str "ensure_buckets.py",str "mlflow"] (some (str "http://minio:9000"))) claimed
      ⟨[line (str "mlflow") (str "already present") (str "http://minio:9000")],[],.ok 0⟩
      claimed :=
    ⟨[(str "mlflow",.error (.client ⟨some (some (str "BucketAlreadyExists"))⟩))],
      .answered (.here _),.cons (.taken htheirs (by decide) rfl) (.nil _)⟩
  refine ⟨htheirs,hrun,fun h => ?_⟩
  have hmine := h _ _ hrun rfl _ (List.mem_singleton_self _)
  rw [htheirs] at hmine
  exact absurd (Option.some.inj hmine) (by decide)

end MlopsPlatform.EnsureBucketsOwners
