import Mathlib.Logic.Relation
import Mathlib.Data.List.Induction
import Mathlib.Data.List.Nodup
import Mathlib.Data.List.Perm.Basic

/-!
# Programs that ask one server

A program asks a request, goes on with the answer and ends with a result. Any
number of clients run programs against one server, in any order: a request is
sent, served in one atomic step, and its answer is received. A client may also
be given a failure instead, after the service, so that an answer is lost, or
before it; then the request stays on the way and may still be served, once, at
any later time, or never. What a client does is told by the answers it got, no
request is served more often than it was asked, and what an answer says stays
true if no service undoes it.
-/

namespace MlopsPlatform.RequestInterleaving

variable {ι σ Q A ρ τ : Type*}

/-- A program over requests and answers. -/
inductive Program (Q A ρ : Type*) where
  /-- It has ended. -/
  | done (result : ρ)
  /-- It goes on with the answer to a request. -/
  | ask (request : Q) (next : A→Program Q A ρ)

/-- Go on with the result of a program. -/
def Program.bind : Program Q A ρ→(ρ→Program Q A τ)→Program Q A τ
  | .done result,rest => rest result
  | .ask request next,rest => .ask request (fun answer => (next answer).bind rest)

/-- The program comes to another by these requests and answers. -/
inductive Path : Program Q A ρ→List (Q×A)→Program Q A ρ→Prop where
  /-- Without a request it stays what it is. -/
  | here (program : Program Q A ρ) : Path program [] program
  /-- It goes on with the answer to its first request. -/
  | answered {request : Q} {next : A→Program Q A ρ} {answer : A} {log : List (Q×A)}
    {program : Program Q A ρ} (rest : Path (next answer) log program) :
    Path (.ask request next) ((request,answer)::log) program

/-- After the requests and answers so far, every request the program asks is
as asked for, and so is its result, whatever the answers. -/
def Meets (asks : List (Q×A)→Q→Prop) (ends : List (Q×A)→ρ→Prop) : List (Q×A)→Program Q A ρ→Prop
  | log,.done result => ends log result
  | log,.ask request next =>
    asks log request ∧ ∀ answer,Meets asks ends (log++[(request,answer)]) (next answer)

/-- Where a client is in its program. -/
inductive Phase (Q A ρ : Type*) where
  /-- It has no request on the way. -/
  | running (program : Program Q A ρ)
  /-- It has sent a request, which may have been served. -/
  | waiting (request : Q) (next : A→Program Q A ρ) (answer : Option A)

/-- What is left of the program. -/
def Phase.program : Phase Q A ρ→Program Q A ρ
  | .running program => program
  | .waiting request next _ => .ask request next

/-- The request the client waits for. -/
def Phase.requests : Phase Q A ρ→List Q
  | .running _ => []
  | .waiting request _ _ => [request]

/-- The request the client waits for, if it has not been served. -/
def Phase.unserved : Phase Q A ρ→List Q
  | .running _ => []
  | .waiting request _ none => [request]
  | .waiting _ _ (some _) => []

/-- How far the client is with its request. -/
def Phase.progress : Phase Q A ρ→ℕ
  | .running _ => 0
  | .waiting _ _ none => 1
  | .waiting _ _ (some _) => 2

/-- A client. -/
structure Client (Q A ρ : Type*) where
  /-- Where it is in its program. -/
  phase : Phase Q A ρ
  /-- The requests it was given a failure for before they were served. -/
  strays : List Q
  /-- Its requests that were served, in order. -/
  applied : List Q
  /-- The answers it got, in order. -/
  log : List (Q×A)

/-- How far a client is: each request takes three steps. -/
def Client.progress (client : Client Q A ρ) : ℕ := 3*client.log.length+client.phase.progress

/-- A request of the client may be served. -/
def Client.Open (client : Client Q A ρ) (request : Q) : Prop :=
  request∈client.strays ∨ request∈client.phase.unserved

/-- A server, and what clients may be told instead of an answer. -/
structure Service (ι σ Q A : Type*) where
  /-- The server serves a request of a client. -/
  serves : ι→σ→Q→σ→A→Prop
  /-- A client may be told so whether the request is served or not. -/
  fails : Q→A→Prop

/-- A step of one client or of the server for it. -/
inductive Move (service : Service ι σ Q A) (i : ι) : σ→Client Q A ρ→σ→Client Q A ρ→Prop where
  /-- The next request is sent. -/
  | send {server : σ} {request : Q} {next : A→Program Q A ρ} {strays applied : List Q}
    {log : List (Q×A)} :
    Move service i server ⟨.running (.ask request next),strays,applied,log⟩
      server ⟨.waiting request next none,strays,applied,log⟩
  /-- The request is served. -/
  | serve {server server' : σ} {request : Q} {next : A→Program Q A ρ} {answer : A}
    {strays applied : List Q} {log : List (Q×A)}
    (served : service.serves i server request server' answer) :
    Move service i server ⟨.waiting request next none,strays,applied,log⟩
      server' ⟨.waiting request next (some answer),strays,applied++[request],log⟩
  /-- The answer arrives. -/
  | receive {server : σ} {request : Q} {next : A→Program Q A ρ} {answer : A}
    {strays applied : List Q} {log : List (Q×A)} :
    Move service i server ⟨.waiting request next (some answer),strays,applied,log⟩
      server ⟨.running (next answer),strays,applied,log++[(request,answer)]⟩
  /-- The answer is lost. -/
  | lose {server : σ} {request : Q} {next : A→Program Q A ρ} {answer failure : A}
    {strays applied : List Q} {log : List (Q×A)} (failed : service.fails request failure) :
    Move service i server ⟨.waiting request next (some answer),strays,applied,log⟩
      server ⟨.running (next failure),strays,applied,log++[(request,failure)]⟩
  /-- The client is told of a failure before the service. -/
  | giveUp {server : σ} {request : Q} {next : A→Program Q A ρ} {failure : A}
    {strays applied : List Q} {log : List (Q×A)} (failed : service.fails request failure) :
    Move service i server ⟨.waiting request next none,strays,applied,log⟩
      server ⟨.running (next failure),strays++[request],applied,log++[(request,failure)]⟩
  /-- A request is served that the client no longer waits for. -/
  | late {server server' : σ} {phase : Phase Q A ρ} {request : Q} {answer : A}
    {before after applied : List Q} {log : List (Q×A)}
    (served : service.serves i server request server' answer) :
    Move service i server ⟨phase,before++request::after,applied,log⟩
      server' ⟨phase,before++after,applied++[request],log⟩

/-- The server and all clients. -/
structure State (ι σ Q A ρ : Type*) where
  /-- The server. -/
  server : σ
  /-- The clients. -/
  client : ι→Client Q A ρ

/-- One client moves. -/
def Next (service : Service ι σ Q A) (s s' : State ι σ Q A ρ) : Prop :=
  ∃ i,Move service i s.server (s.client i) s'.server (s'.client i) ∧
    ∀ j,j≠i → s'.client j=s.client j

/-- Any number of moves. -/
def Reaches (service : Service ι σ Q A) : State ι σ Q A ρ→State ι σ Q A ρ→Prop :=
  Relation.ReflTransGen (Next service)

/-- No client has sent anything. -/
def start (server : σ) (program : ι→Program Q A ρ) : State ι σ Q A ρ :=
  ⟨server,fun i => ⟨.running (program i),[],[],[]⟩⟩

/-- The client's program has ended. -/
def Client.Ended (client : Client Q A ρ) (result : ρ) : Prop := client.phase=.running (.done result)

/-- How a client stands to the program it runs. -/
structure Kept (service : Service ι σ Q A) (program : Program Q A ρ) (client : Client Q A ρ) :
    Prop where
  /-- What is left of the program is what its answers lead to. -/
  path : Path program client.log client.phase.program
  /-- Every request that was asked was served, can still be, or neither yet, once. -/
  once : (client.applied++(client.strays++client.phase.unserved)).Perm
    (client.log.map Prod.fst++client.phase.requests)
  /-- An answer on the way is to a request that was served. -/
  served : ∀ request next answer,client.phase=.waiting request next (some answer) →
    request∈client.applied
  /-- An answer is a failure, or its request was served. -/
  answered : ∀ entry∈client.log,service.fails entry.1 entry.2 ∨ entry.1∈client.applied

variable {service : Service ι σ Q A} {program : Program Q A ρ} {server server' : σ}
variable {client client' : Client Q A ρ} {i : ι} {s s₀ s' : State ι σ Q A ρ}

/-- A path goes on with one more answer. -/
theorem Path.snoc {log : List (Q×A)} {request : Q} {next : A→Program Q A ρ}
    (h : Path program log (.ask request next)) (answer : A) :
    Path program (log++[(request,answer)]) (next answer) := by
  generalize hlast : Program.ask request next=last at h
  induction h with
  | here program =>
    rw [←hlast]
    exact .answered (.here _)
  | answered rest ih => exact .answered (ih hlast)

/-- A step keeps a client to its program. -/
theorem Kept.move (h : Kept service program client)
    (hmove : Move service i server client server' client') : Kept service program client' := by
  obtain ⟨hpath,honce,hserved,hanswered⟩ := h
  cases hmove with
  | send =>
    refine ⟨hpath,?_,fun request next answer hphase => ?_,hanswered⟩
    · simpa [Phase.unserved,Phase.requests] using honce.append_right _
    · cases hphase
  | serve served =>
    refine ⟨hpath,List.Perm.trans ?_ honce,fun request next answer hphase => ?_,
      fun entry hentry => ?_⟩
    · simp only [Phase.unserved,List.append_nil,List.append_assoc]
      exact List.perm_append_comm.append_left _
    · cases hphase
      exact List.mem_append_right _ (List.mem_singleton_self _)
    · exact (hanswered entry hentry).imp_right (List.mem_append_left _)
  | receive =>
    refine ⟨hpath.snoc _,?_,fun request next answer hphase => ?_,?_⟩
    · simpa [Phase.unserved,Phase.requests] using honce
    · cases hphase
    · exact List.forall_mem_append.mpr
        ⟨hanswered,List.forall_mem_singleton.mpr (Or.inr (hserved _ _ _ rfl))⟩
  | lose failed =>
    refine ⟨hpath.snoc _,?_,fun request next answer hphase => ?_,?_⟩
    · simpa [Phase.unserved,Phase.requests] using honce
    · cases hphase
    · exact List.forall_mem_append.mpr ⟨hanswered,List.forall_mem_singleton.mpr (Or.inl failed)⟩
  | giveUp failed =>
    refine ⟨hpath.snoc _,?_,fun request next answer hphase => ?_,?_⟩
    · simpa [Phase.unserved,Phase.requests] using honce
    · cases hphase
    · exact List.forall_mem_append.mpr ⟨hanswered,List.forall_mem_singleton.mpr (Or.inl failed)⟩
  | late served =>
    refine ⟨hpath,List.Perm.trans ?_ honce,fun request next answer hphase => ?_,
      fun entry hentry => ?_⟩
    · simp only [List.append_assoc,List.cons_append,List.nil_append]
      exact List.perm_middle.symm.append_left _
    · exact List.mem_append_left _ (hserved request next answer hphase)
    · exact (hanswered entry hentry).imp_right (List.mem_append_left _)

/-- Every client keeps to its program. -/
theorem kept_of_reaches {program : ι→Program Q A ρ} (h : Reaches service (start server program) s)
    (i : ι) : Kept service (program i) (s.client i) := by
  induction h with
  | refl =>
    refine ⟨.here _,List.Perm.refl _,fun request next answer hphase => ?_,fun entry hentry => ?_⟩
    · cases hphase
    · cases hentry
  | tail hreach hnext ih =>
    obtain ⟨j,hmove,hothers⟩ := hnext
    by_cases hij : i=j
    · rw [←hij] at hmove
      exact ih.move hmove
    · rw [hothers i hij]
      exact ih

/-- What the server does in a step is serve a request that may be served. -/
theorem Move.server_cases (h : Move service i server client server' client') :
    (server'=server ∧ client'.applied=client.applied) ∨
      ∃ request answer,client.Open request ∧
        service.serves i server request server' answer ∧
        client'.applied=client.applied++[request] := by
  cases h with
  | send => exact Or.inl ⟨rfl,rfl⟩
  | serve served => exact Or.inr ⟨_,_,Or.inr (List.mem_singleton_self _),served,rfl⟩
  | receive => exact Or.inl ⟨rfl,rfl⟩
  | lose failed => exact Or.inl ⟨rfl,rfl⟩
  | giveUp failed => exact Or.inl ⟨rfl,rfl⟩
  | late served =>
    exact Or.inr ⟨_,_,Or.inl (List.mem_append_right _ List.mem_cons_self),served,rfl⟩

variable {asks : List (Q×A)→Q→Prop} {ends : List (Q×A)→ρ→Prop}

/-- What a program meets may be weakened. -/
theorem Meets.mono {asks' : List (Q×A)→Q→Prop} {ends' : List (Q×A)→ρ→Prop}
    (h : Meets asks ends [] program) (hasks : ∀ log request,asks log request → asks' log request)
    (hends : ∀ log result,ends log result → ends' log result) : Meets asks' ends' [] program := by
  generalize ([] : List (Q×A))=log at h ⊢
  induction program generalizing log with
  | done result => exact hends log result h
  | ask request next ih => exact ⟨hasks log request h.1,fun answer => ih answer _ (h.2 answer)⟩

/-- A program that goes on with the result of another meets what that one's
result makes it meet. -/
theorem Meets.bind {between : List (Q×A)→τ→Prop} {first : Program Q A τ}
    {rest : τ→Program Q A ρ} {log : List (Q×A)} (h : Meets asks between log first)
    (hrest : ∀ log result,between log result → Meets asks ends log (rest result)) :
    Meets asks ends log (first.bind rest) := by
  induction first generalizing log with
  | done result => exact hrest log result h
  | ask request next ih => exact ⟨h.1,fun answer => ih answer (h.2 answer)⟩

/-- What a program meets, it meets on its way, and so did the requests on the way. -/
theorem Meets.path {last : Program Q A ρ} {log earlier : List (Q×A)}
    (h : Meets asks ends earlier program) (hpath : Path program log last) :
    Meets asks ends (earlier++log) last ∧
      ∀ before entry after,log=before++entry::after → asks (earlier++before) entry.1 := by
  induction hpath generalizing earlier with
  | here program =>
    rw [List.append_nil]
    refine ⟨h,fun before entry after hsplit => ?_⟩
    exact absurd hsplit.symm (by simp)
  | @answered request next answer log program rest ih =>
    obtain ⟨hlast,hlog⟩ := ih (h.2 answer)
    rw [List.append_assoc] at hlast
    refine ⟨hlast,fun before entry after hsplit => ?_⟩
    cases before with
    | nil =>
      obtain ⟨hentry,-⟩ := List.cons.inj hsplit
      rw [List.append_nil,←hentry]
      exact h.1
    | cons first before =>
      obtain ⟨hfirst,hrest⟩ := List.cons.inj hsplit
      have hasked := hlog before entry after hrest
      rw [List.append_assoc,List.singleton_append] at hasked
      rw [←hfirst]
      exact hasked

/-- A request that was served, or may be, was asked. -/
theorem Kept.asked (h : Kept service program client) {request : Q}
    (hrequest : request∈client.applied ∨ client.Open request) :
    request∈client.log.map Prod.fst++client.phase.requests := by
  refine h.once.subset (List.mem_append.mpr ?_)
  exact hrequest.imp_right List.mem_append.mpr

/-- What is left of the program of a client that waits for this request. -/
theorem Phase.program_of_mem {phase : Phase Q A ρ} {request : Q} (h : request∈phase.requests) :
    ∃ next,phase.program=.ask request next := by
  cases phase with
  | running program => cases h
  | waiting first next answer =>
    rw [List.mem_singleton.mp h]
    exact ⟨next,rfl⟩

/-- A request that was served, or may be, is what the program meets by asking
it, after the answers the client had then. -/
theorem Kept.meets (h : Kept service program client) (hmeets : Meets asks ends [] program)
    {request : Q} (hrequest : request∈client.applied ∨ client.Open request) :
    ∃ before after,client.log=before++after ∧ asks before request := by
  obtain ⟨hlast,hlog⟩ := hmeets.path h.path
  rcases List.mem_append.mp (h.asked hrequest) with hasked|hasked
  · obtain ⟨entry,hentry,rfl⟩ := List.mem_map.mp hasked
    obtain ⟨before,after,hsplit⟩ := List.append_of_mem hentry
    exact ⟨before,_,hsplit,hlog before entry after hsplit⟩
  · obtain ⟨next,hprogram⟩ := Phase.program_of_mem hasked
    rw [hprogram] at hlast
    exact ⟨client.log,[],(List.append_nil _).symm,hlast.1⟩

/-- What a program that has ended meets by its result. -/
theorem Kept.result (h : Kept service program client) (hmeets : Meets asks ends [] program)
    {result : ρ} (hend : client.Ended result) : ends client.log result := by
  have hlast := (hmeets.path h.path).1
  rw [hend] at hlast
  exact hlast

/-- Requests that are never asked twice are never served twice. -/
theorem Kept.nodup (h : Kept service program client) (hmeets : Meets asks ends [] program)
    {κ : Type*} {key : Q→κ} (hfresh : ∀ log request,asks log request →
      key request∉log.map (fun entry => key entry.1)) : (client.applied.map key).Nodup := by
  obtain ⟨hlast,hlog⟩ := hmeets.path h.path
  have hdistinct : (client.log.map (fun entry => key entry.1)).Nodup := by
    generalize client.log=log at hlog
    induction log using List.reverseRecOn with
    | nil => exact List.nodup_nil
    | append_singleton log entry ih =>
      rw [List.map_append,List.map_singleton]
      refine List.Nodup.append (ih ?_) (List.nodup_singleton _) ?_
      · intro before first after hsplit
        refine hlog before first (after++[entry]) ?_
        rw [hsplit,List.append_assoc,List.cons_append]
      · rw [List.disjoint_singleton]
        exact hfresh log entry.1 (hlog log entry [] rfl)
  have hasked : ((client.log.map Prod.fst++client.phase.requests).map key).Nodup := by
    rw [List.map_append,List.map_map]
    cases hphase : client.phase with
    | running program =>
      rw [Phase.requests,List.map_nil,List.append_nil]
      exact hdistinct
    | waiting request next answer =>
      rw [hphase] at hlast
      refine List.Nodup.append hdistinct (List.nodup_singleton _) (List.disjoint_singleton.mpr ?_)
      exact hfresh client.log request hlast.1
  have hall := (h.once.map key).nodup_iff.mpr hasked
  rw [List.map_append] at hall
  exact hall.of_append_left

/-- What each service keeps, the server keeps. -/
theorem server_invariant (holds : σ→Prop)
    (hserve : ∀ i request answer server server',
      service.serves i server request server' answer → holds server → holds server')
    (h : Reaches service s s') (hstart : holds s.server) : holds s'.server := by
  induction h with
  | refl => exact hstart
  | tail hreach hnext ih =>
    obtain ⟨j,hmove,-⟩ := hnext
    rcases hmove.server_cases with hsame|⟨request,answer,-,hserves,-⟩
    · rw [hsame.1]
      exact ih
    · exact hserve _ _ _ _ _ hserves ih

/-- What the answers of a client mean for the server is true of it. -/
structure Truthful (service : Service ι σ Q A) (fact : Q→A→σ→Prop) (server : σ)
    (client : Client Q A ρ) : Prop where
  /-- An answer the client got is a failure, or true. -/
  told : ∀ entry∈client.log,service.fails entry.1 entry.2 ∨ fact entry.1 entry.2 server
  /-- An answer on the way is true. -/
  coming : ∀ request next answer,client.phase=.waiting request next (some answer) →
    fact request answer server

/-- A step keeps the answers of its client true, if no service makes them false. -/
theorem Truthful.move {fact : Q→A→σ→Prop} (h : Truthful service fact server client)
    (hmade : ∀ request answer,service.serves i server request server' answer →
      fact request answer server')
    (hkept : ∀ request answer,fact request answer server → fact request answer server')
    (hmove : Move service i server client server' client') :
    Truthful service fact server' client' := by
  obtain ⟨htold,hcoming⟩ := h
  cases hmove with
  | send =>
    refine ⟨htold,fun request next answer hphase => ?_⟩
    cases hphase
  | serve served =>
    refine ⟨fun entry hentry => (htold entry hentry).imp_right (hkept _ _),
      fun request next answer hphase => ?_⟩
    cases hphase
    exact hmade _ _ served
  | receive =>
    refine ⟨List.forall_mem_append.mpr ⟨htold,?_⟩,fun request next answer hphase => ?_⟩
    · exact List.forall_mem_singleton.mpr (Or.inr (hcoming _ _ _ rfl))
    · cases hphase
  | lose failed =>
    refine ⟨List.forall_mem_append.mpr ⟨htold,?_⟩,fun request next answer hphase => ?_⟩
    · exact List.forall_mem_singleton.mpr (Or.inl failed)
    · cases hphase
  | giveUp failed =>
    refine ⟨List.forall_mem_append.mpr ⟨htold,?_⟩,fun request next answer hphase => ?_⟩
    · exact List.forall_mem_singleton.mpr (Or.inl failed)
    · cases hphase
  | late served =>
    exact ⟨fun entry hentry => (htold entry hentry).imp_right (hkept _ _),
      fun request next answer hphase => hkept _ _ (hcoming request next answer hphase)⟩

/-- Answers that say what their service made true, and no other request of a
program undoes, are true in every state. -/
theorem truthful_of_reaches {program : ι→Program Q A ρ} (fact : ι→Q→A→σ→Prop) (kind : ι→Q→Prop)
    (hkind : ∀ i,Meets (fun _ request => kind i request) (fun _ _ => True) [] (program i))
    (hmade : ∀ i request answer server server',
      service.serves i server request server' answer → fact i request answer server')
    (hkept : ∀ i request answer j other reply server server',kind j other →
      service.serves j server other server' reply → fact i request answer server →
      fact i request answer server')
    (h : Reaches service (start server program) s) (i : ι) :
    Truthful service (fact i) s.server (s.client i) := by
  induction h with
  | refl =>
    refine ⟨fun entry hentry => ?_,fun request next answer hphase => ?_⟩
    · cases hentry
    · cases hphase
  | @tail s₁ s₂ hreach hnext ih =>
    obtain ⟨j,hmove,hothers⟩ := hnext
    have hlater : ∀ request answer,fact i request answer s₁.server →
        fact i request answer s₂.server := by
      intro request answer hfact
      rcases hmove.server_cases with hsame|⟨other,reply,hopen,hserves,-⟩
      · rw [hsame.1]
        exact hfact
      · obtain ⟨-,-,-,hother⟩ := (kept_of_reaches hreach j).meets (hkind j) (Or.inr hopen)
        exact hkept _ _ _ _ _ _ _ _ hother hserves hfact
    by_cases hij : i=j
    · rw [←hij] at hmove
      exact ih.move (fun request answer hserves => hmade _ _ _ _ _ hserves) hlater hmove
    · rw [hothers i hij]
      exact ⟨fun entry hentry => (ih.told entry hentry).imp_right (hlater _ _),
        fun request next answer hphase => hlater _ _ (ih.coming request next answer hphase)⟩

/-- A client is never further than its program goes, which asks a request only
after fewer than this many. -/
theorem Kept.progress_le (h : Kept service program client) {n : ℕ}
    (hn : Meets (fun log _ => log.length<n) (fun _ _ => True) [] program) :
    client.progress≤3*n := by
  obtain ⟨hlast,hlog⟩ := hn.path h.path
  have hlength : client.log.length≤n := by
    rcases List.eq_nil_or_concat' client.log with hnil|⟨before,entry,hsplit⟩
    · rw [hnil]
      exact Nat.zero_le n
    · have hbefore := hlog before entry [] hsplit
      rw [hsplit,List.length_append,List.length_singleton]
      exact hbefore
  unfold Client.progress
  cases hphase : client.phase with
  | running program =>
    simp only [Phase.progress]
    omega
  | waiting request next answer =>
    rw [hphase] at hlast
    have hless : client.log.length<n := hlast.1
    cases answer <;> simp only [Phase.progress] <;> omega

/-- How a step counts: it takes its client further, or serves a request that
the client has given up. -/
def Counts (client client' : Client Q A ρ) : Prop :=
  client.progress<client'.progress ∨ (client'.phase=client.phase ∧ client'.log=client.log ∧
    client'.strays.length<client.strays.length)

/-- Every step counts. -/
theorem Move.counts (h : Move service i server client server' client') :
    Counts client client' := by
  cases h with
  | send => exact Or.inl (by simp only [Client.progress,Phase.progress]; omega)
  | serve served => exact Or.inl (by simp only [Client.progress,Phase.progress]; omega)
  | receive =>
    refine Or.inl ?_
    simp only [Client.progress,Phase.progress,List.length_append,List.length_singleton]
    omega
  | lose failed =>
    refine Or.inl ?_
    simp only [Client.progress,Phase.progress,List.length_append,List.length_singleton]
    omega
  | giveUp failed =>
    refine Or.inl ?_
    simp only [Client.progress,Phase.progress,List.length_append,List.length_singleton]
    omega
  | late served =>
    refine Or.inr ⟨rfl,rfl,?_⟩
    simp only [List.length_append,List.length_cons]
    omega

/-- A client whose program has ended does not go on. -/
theorem Move.ended (h : Move service i server client server' client') {result : ρ}
    (hend : client.Ended result) : client'.Ended result := by
  cases h with
  | send => cases hend
  | serve served => cases hend
  | receive => cases hend
  | lose failed => cases hend
  | giveUp failed => cases hend
  | late served => exact hend

/-- A client whose program has ended stays so. -/
theorem ended_of_reaches {result : ρ} (hend : (s.client i).Ended result)
    (h : Reaches service s s') : (s'.client i).Ended result := by
  induction h with
  | refl => exact hend
  | tail hreach hnext ih =>
    obtain ⟨j,hmove,hothers⟩ := hnext
    by_cases hij : i=j
    · rw [←hij] at hmove
      exact hmove.ended ih
    · rw [hothers i hij]
      exact ih

/-- How a client goes on without a failure. -/
structure GoesOn (client client' : Client Q A ρ) : Prop where
  /-- It gets further. -/
  further : client.progress<client'.progress
  /-- Only an answer that was on the way is new. -/
  told : client'.log=client.log ∨ ∃ request next answer,
    client.phase=.waiting request next (some answer) ∧ client'.log=client.log++[(request,answer)]

/-- A client whose program has not ended can go on without a failure, if the
request it waits for can be served. -/
theorem exists_goesOn (server : σ) (client : Client Q A ρ)
    (htotal : ∀ request∈client.phase.unserved,∃ server' answer,
      service.serves i server request server' answer) :
    (∃ result,client.Ended result) ∨
      ∃ server' client',Move service i server client server' client' ∧ GoesOn client client' := by
  obtain ⟨phase,strays,applied,log⟩ := client
  cases phase with
  | running program =>
    cases program with
    | done result => exact Or.inl ⟨result,rfl⟩
    | ask request next => exact Or.inr ⟨_,_,.send,Nat.lt_succ_self _,Or.inl rfl⟩
  | waiting request next answer =>
    cases answer with
    | none =>
      obtain ⟨server',answer,hserves⟩ := htotal request (List.mem_singleton_self _)
      exact Or.inr ⟨_,_,.serve hserves,Nat.lt_succ_self _,Or.inl rfl⟩
    | some answer =>
      refine Or.inr ⟨_,_,.receive,?_,Or.inr ⟨request,next,answer,rfl,rfl⟩⟩
      simp only [Client.progress,Phase.progress,List.length_append,List.length_singleton]
      omega

/-- A client that moves takes the whole state further. -/
theorem exists_next {i : ι} {server' : σ} {client' : Client Q A ρ}
    (h : Move service i s.server (s.client i) server' client') :
    ∃ s',Next service s s' ∧ s'.server=server' ∧ s'.client i=client' := by
  classical
  have hself : Function.update s.client i client' i=client' := Function.update_self ..
  refine ⟨⟨server',Function.update s.client i client'⟩,⟨i,?_,fun j hj => ?_⟩,rfl,hself⟩
  · dsimp only
    rw [hself]
    exact h
  · exact Function.update_of_ne hj _ _

/-- A client whose program has not ended can get further without another answer
than one that says something true of the server. -/
theorem ended_or_further {fact : Q→A→σ→Prop} {good : A→Prop}
    (htruthful : Truthful service fact s.server (s.client i))
    (hgood : ∀ request answer,fact request answer s.server → good answer)
    (htotal : ∀ request∈(s.client i).phase.unserved,∃ server' answer,
      service.serves i s.server request server' answer) :
    (∃ result,(s.client i).Ended result) ∨
      ∃ s',Next service s s' ∧ (s.client i).progress<(s'.client i).progress ∧
        ∀ entry∈(s'.client i).log,entry∈(s.client i).log ∨ good entry.2 := by
  rcases exists_goesOn s.server (s.client i) htotal with hend|⟨server,client,hmove,hgoes⟩
  · exact Or.inl hend
  · obtain ⟨s',hnext,-,hclient⟩ := exists_next hmove
    refine Or.inr ⟨s',hnext,?_,?_⟩
    · rw [hclient]
      exact hgoes.further
    · rw [hclient]
      intro entry hentry
      rcases hgoes.told with hsame|⟨request,next,answer,hphase,hlog⟩
      · rw [hsame] at hentry
        exact Or.inl hentry
      · rw [hlog] at hentry
        refine (List.mem_append.mp hentry).imp_right (fun hlast => ?_)
        rw [List.mem_singleton.mp hlast]
        exact hgood _ _ (htruthful.coming request next answer hphase)

end MlopsPlatform.RequestInterleaving
