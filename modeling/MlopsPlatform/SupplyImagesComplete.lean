import MlopsPlatform.SupplyImages

/-!
# The image list is complete or refused

What a compose file names and what makes it unusable are stated for the whole
file at once. `references` refuses exactly the unusable files and lists exactly
what the others name, but for a build context that is no path, whose exception
is another one. What `main` prints is complete as well, but for a reference that
UTF-8 has no form for: those before it are printed first.
-/

namespace MlopsPlatform.SupplyImagesComplete

open TextCodec TextLines TextStrip TextTokens TextSorted PythonYaml PythonFiles SupplyImages

/-- Every Dockerfile is a text or is missing: no bytes that are not UTF-8. -/
def Assigned (reader : Reader Refusal) (files : Files) : Prop :=
  ∀ context,(∃ text : String,files.content (reader.dockerfile context)=.ok text.toUTF8) ∨
    ∃ fault,files.content (reader.dockerfile context)=.error fault

/-- The Dockerfile of a context is no path: a null or a lone surrogate stands in it. -/
def Pathless (reader : Reader Refusal) (files : Files) (context : Str) : Prop :=
  ∃ message,files.content (reader.dockerfile context)=.error (.value message)

/-- The nonempty mapping of services of a compose file. -/
def Services (compose : Yaml) (services : List (Yaml×Yaml)) : Prop :=
  ∃ fields,compose=.mapping fields ∧ get fields (str "services")=.mapping services ∧ services≠[]

/-- A build section and its context. -/
inductive Context : Yaml→Str→Prop where
  /-- The section is the context. -/
  | plain (context : Str) : Context (.str context) context
  /-- The section has a context. -/
  | keyed {build : List (Yaml×Yaml)} {context : Str}
      (h : get build (str "context")=.str context) : Context (.mapping build) context

/-- A line `FROM ` followed by at least one token, the first of which is the base. -/
def BaseLine (line base : Str) : Prop :=
  ∃ rest,line=fromKeyword++rest ∧ First isSpace rest base

/-- A base of the Dockerfile of a context. -/
def NamesBase (reader : Reader Refusal) (files : Files) (context base : Str) : Prop :=
  ∃ text : String,files.content (reader.dockerfile context)=.ok text.toUTF8 ∧
    ∃ line∈splitlines (str text),BaseLine line base

/-- What one service names. -/
inductive NamedBy (reader : Reader Refusal) (files : Files) : Yaml→Str→Prop where
  /-- Its image, stripped. -/
  | image {service : List (Yaml×Yaml)} {image : Str}
      (h : get service (str "image")=.str image) :
      NamedBy reader files (.mapping service) (strip image)
  /-- A base of what it builds. -/
  | base {service : List (Yaml×Yaml)} {context base : Str}
      (hc : Context (get service (str "build")) context)
      (hb : NamesBase reader files context base) :
      NamedBy reader files (.mapping service) base

/-- Why a service cannot be read. -/
inductive Unusable (reader : Reader Refusal) (files : Files) : Yaml→Prop where
  /-- It is not a mapping. -/
  | shape {service : Yaml} (h : ∀ fields,service≠.mapping fields) :
      Unusable reader files service
  /-- It has no image that is a string and not blank. -/
  | image {service : List (Yaml×Yaml)}
      (h : ∀ image,get service (str "image")=.str image → Blank image) :
      Unusable reader files (.mapping service)
  /-- It has a build section without a context. -/
  | build {service : List (Yaml×Yaml)} (hb : get service (str "build")≠.null)
      (hc : ∀ context,¬Context (get service (str "build")) context) :
      Unusable reader files (.mapping service)
  /-- The Dockerfile it builds is missing or names no base. -/
  | dockerfile {service : List (Yaml×Yaml)} {context : Str}
      (hc : Context (get service (str "build")) context)
      (hb : ∀ base,¬NamesBase reader files context base) :
      Unusable reader files (.mapping service)

/-- The service is usable up to its build context, which is no path. -/
inductive Lost (reader : Reader Refusal) (files : Files) : Yaml→Prop where
  /-- It has an image and builds what no path leads to. -/
  | context {service : List (Yaml×Yaml)} {image context : Str}
      (hi : get service (str "image")=.str image) (hb : ¬Blank image)
      (hc : Context (get service (str "build")) context) (hp : Pathless reader files context) :
      Lost reader files (.mapping service)

/-- A lost service comes before every other that is unusable. -/
def LostFirst (reader : Reader Refusal) (files : Files) (services : List (Yaml×Yaml)) : Prop :=
  ∃ before entry after,services=before++entry::after ∧
    (∀ earlier∈before,¬Unusable reader files earlier.2) ∧ Lost reader files entry.2

/-- Reading the compose file ends at a build context that is no path. -/
def Stuck (reader : Reader Refusal) (files : Files) (compose : Yaml) : Prop :=
  ∃ services,Services compose services ∧ LostFirst reader files services

/-- What the compose file names. -/
def Named (reader : Reader Refusal) (files : Files) (compose : Yaml) (reference : Str) : Prop :=
  ∃ services,Services compose services ∧
    ∃ entry∈services,NamedBy reader files entry.2 reference

/-- Why the compose file cannot be read. -/
def Refused (reader : Reader Refusal) (files : Files) (compose : Yaml) : Prop :=
  (¬∃ services,Services compose services) ∨
    ∃ services,Services compose services ∧ ∃ entry∈services,Unusable reader files entry.2

/-- The list is complete or refused, and never short. -/
structure CompleteOrRefused (reader : Reader Refusal) (files : Files) (compose : Yaml) :
    Prop where
  /-- `references` raises ComposeError for the unusable compose files and for no others. -/
  refused : (∃ error,references reader files=.error (.own (.compose error))) ↔
    Refused reader files compose
  /-- Otherwise the list is sorted, without repetition, and what the file names. -/
  listed : ¬Refused reader files compose → ∃ listed,references reader files=.ok listed ∧
    listed.Pairwise (fun s t => s<t) ∧
    ∀ reference,reference∈listed ↔ Named reader files compose reference
  /-- `main` prints nothing when it fails. -/
  silent : ∀ arguments,(main reader files arguments).result≠.ok 0 →
    (main reader files arguments).stdout=[]

variable {reader : Reader Refusal} {files : Files} {compose : Yaml}

/-- The services of a compose file are what `_services` returns. -/
theorem servicesOf_eq_ok {services : List (Yaml×Yaml)} :
    servicesOf compose=.ok services ↔ Services compose services := by
  constructor
  · intro h
    unfold servicesOf at h
    split at h
    · rename_i fields
      split at h
      · rename_i found hfound
        by_cases he : found=[]
        · rw [if_pos he] at h
          cases h
        · rw [if_neg he] at h
          cases h
          exact ⟨fields,rfl,hfound,he⟩
      · cases h
    · cases h
  · rintro ⟨fields,rfl,hget,hne⟩
    simp only [servicesOf,hget,if_neg hne]

/-- A build section is absent, has a context, or is refused. -/
theorem contextOf_cases (build : Yaml) :
    (build=.null ∧ contextOf build=.ok none) ∨
    (∃ context,Context build context ∧ contextOf build=.ok (some context)) ∨
    (build≠.null ∧ (∀ context,¬Context build context) ∧
      ∃ error,contextOf build=.error error) := by
  cases build with
  | null => exact Or.inl ⟨rfl,rfl⟩
  | str context => exact Or.inr (Or.inl ⟨context,.plain context,rfl⟩)
  | list items =>
    exact Or.inr (Or.inr ⟨fun h => (by cases h),fun context h => (by cases h),_,rfl⟩)
  | other shown =>
    exact Or.inr (Or.inr ⟨fun h => (by cases h),fun context h => (by cases h),_,rfl⟩)
  | mapping fields =>
    right
    by_cases h : ∃ context,get fields (str "context")=.str context
    · obtain ⟨context,hcontext⟩ := h
      exact Or.inl ⟨context,.keyed hcontext,by simp only [contextOf,hcontext]⟩
    · refine Or.inr ⟨fun hn => (by cases hn),fun context hn => ?_,.noContext (.mapping fields),?_⟩
      · cases hn with
        | keyed hc => exact h ⟨context,hc⟩
      · unfold contextOf
        dsimp only
        split
        · rename_i context hc
          exact absurd ⟨context,hc⟩ h
        · rfl

/-- A build section has one context. -/
theorem context_unique {build : Yaml} {context other : Str} (h : Context build context)
    (ho : Context build other) : context=other := by
  cases h with
  | plain => cases ho; rfl
  | keyed hc =>
    cases ho with
    | keyed hd => exact Yaml.str.inj (hc.symm.trans hd)

/-- The tokens of a FROM line are its keyword and those of the rest. -/
theorem tokens_from (rest : Str) :
    tokens (fromKeyword++rest)=str "FROM"::tokens rest := by
  have hkeyword : fromKeyword=str "FROM"++[(0x20 : CodePoint)] := rfl
  have hspace : isSpace (0x20 : CodePoint)=true := by decide
  have htoken : Token isSpace (str "FROM") :=
    ⟨by decide,notSpace_literal ['F','R','O','M'] (by decide)⟩
  rw [hkeyword,List.append_assoc,tokens,List.singleton_append,tokensBy_append hspace,
    tokensBy_token htoken,List.singleton_append,tokens]

/-- The base of a line is the second token of a FROM line. -/
theorem baseOf_eq_some {line base : Str} : baseOf line=some base ↔ BaseLine line base := by
  constructor
  · intro h
    unfold baseOf at h
    split at h
    · rename_i hfrom
      obtain ⟨rest,rfl⟩ := hfrom
      rw [tokens_from,List.getElem?_cons_succ,←List.head?_eq_getElem?] at h
      exact ⟨rest,rfl,head?_tokensBy.mp h⟩
    · cases h
  · rintro ⟨rest,rfl,hfirst⟩
    rw [baseOf,if_pos (List.prefix_append _ _),tokens_from,List.getElem?_cons_succ,
      ←List.head?_eq_getElem?]
    exact head?_tokensBy.mpr hfirst

/-- A Dockerfile that is a text yields its bases, or is refused without any. -/
theorem bases_of_text {context : Str} {text : String}
    (htext : files.content (reader.dockerfile context)=.ok text.toUTF8) :
    (∃ found,bases reader files context=.ok found ∧ found.Nonempty ∧
      ∀ base,base∈found ↔ NamesBase reader files context base) ∨
    ((∀ base,¬NamesBase reader files context base) ∧
      ∃ error,bases reader files context=.error (.own (.compose error))) := by
  have hmem : ∀ base,
      base∈((splitlines (universalNewlines (str text))).filterMap baseOf).toFinset ↔
        NamesBase reader files context base := by
    intro base
    rw [splitlines_universalNewlines,List.mem_toFinset,List.mem_filterMap]
    constructor
    · rintro ⟨line,hline,hbase⟩
      exact ⟨text,htext,line,hline,baseOf_eq_some.mp hbase⟩
    · rintro ⟨other,hother,line,hline,hbase⟩
      rw [htext,Except.ok.injEq] at hother
      have he : other=text := String.toByteArray_inj.mp hother.symm
      rw [he] at hline
      exact ⟨line,hline,baseOf_eq_some.mpr hbase⟩
  have hread := readText_text (ε:=Refusal) htext
  by_cases hfound :
      ((splitlines (universalNewlines (str text))).filterMap baseOf).toFinset=∅
  · right
    refine ⟨fun base hb => ?_,.noFrom context,?_⟩
    · have hm := (hmem base).mpr hb
      rw [hfound] at hm
      exact absurd hm (Finset.notMem_empty base)
    · simp only [bases,hread,if_pos hfound]
  · left
    refine ⟨_,?_,Finset.nonempty_iff_ne_empty.mpr hfound,hmem⟩
    simp only [bases,hread,if_neg hfound]

/-- What is no path holds no base. -/
theorem Pathless.namesNone {context : Str} (h : Pathless reader files context) (base : Str) :
    ¬NamesBase reader files context base := by
  rintro ⟨text,htext,-⟩
  obtain ⟨message,hmessage⟩ := h
  rw [hmessage] at htext
  cases htext

/-- So does any Dockerfile, unless it is no path. -/
theorem bases_cases (hassigned : Assigned reader files) (context : Str) :
    (∃ found,bases reader files context=.ok found ∧ found.Nonempty ∧
      ∀ base,base∈found ↔ NamesBase reader files context base) ∨
    ((∀ base,¬NamesBase reader files context base) ∧
      ((¬Pathless reader files context ∧
          ∃ error,bases reader files context=.error (.own (.compose error))) ∨
        Pathless reader files context ∧
          ∃ message,bases reader files context=.error (.value message))) := by
  rcases hassigned context with ⟨text,htext⟩|⟨fault,hmissing⟩
  · refine (bases_of_text htext).imp id (And.imp id (fun h => Or.inl ⟨?_,h⟩))
    rintro ⟨message,hmessage⟩
    rw [htext] at hmessage
    cases hmessage
  · right
    cases fault with
    | os message =>
      have hread := readText_absent (ε:=Refusal) hmissing
      refine ⟨?_,Or.inl ⟨?_,.unreadable context message,by simp only [bases,hread]⟩⟩
      · rintro base ⟨text,htext,-⟩
        rw [hmissing] at htext
        cases htext
      · rintro ⟨other,hother⟩
        rw [hmissing] at hother
        cases hother
    | value message =>
      have hread := readText_pathless (ε:=Refusal) hmissing
      exact ⟨Pathless.namesNone ⟨message,hmissing⟩,
        Or.inr ⟨⟨message,hmissing⟩,message,by simp only [bases,hread]⟩⟩

/-- A service with an image names it, stripped, and the bases of what it builds. -/
theorem namedBy_iff {service : List (Yaml×Yaml)} {image reference : Str}
    (himage : get service (str "image")=.str image) :
    NamedBy reader files (.mapping service) reference ↔ reference=strip image ∨
      ∃ context,Context (get service (str "build")) context ∧
        NamesBase reader files context reference := by
  constructor
  · intro h
    cases h with
    | image h => exact Or.inl (congrArg strip (Yaml.str.inj (h.symm.trans himage)))
    | base hc hb => exact Or.inr ⟨_,hc,hb⟩
  · rintro (rfl|⟨context,hc,hb⟩)
    · exact .image himage
    · exact .base hc hb

/-- A service with an image is unusable for its build section only. -/
theorem unusable_iff {service : List (Yaml×Yaml)} {image : Str}
    (himage : get service (str "image")=.str image) (hblank : strip image≠[]) :
    Unusable reader files (.mapping service) ↔
      (get service (str "build")≠.null ∧
        ∀ context,¬Context (get service (str "build")) context) ∨
      ∃ context,Context (get service (str "build")) context ∧
        ∀ base,¬NamesBase reader files context base := by
  constructor
  · intro h
    cases h with
    | shape h => exact absurd rfl (h service)
    | image h => exact absurd (strip_eq_nil_iff.mpr (h image himage)) hblank
    | build hb hc => exact Or.inl ⟨hb,hc⟩
    | dockerfile hc hb => exact Or.inr ⟨_,hc,hb⟩
  · rintro (⟨hb,hc⟩|⟨context,hc,hb⟩)
    · exact .build hb hc
    · exact .dockerfile hc hb

/-- A lost service is unusable. -/
theorem Lost.unusable {service : Yaml} (h : Lost reader files service) :
    Unusable reader files service := by
  obtain ⟨-,-,hc,hp⟩ := h
  exact .dockerfile hc hp.namesNone

/-- What it builds is no path. -/
theorem Lost.pathless {service : Yaml} (h : Lost reader files service) :
    ∃ context,Pathless reader files context := by
  obtain ⟨-,-,-,hp⟩ := h
  exact ⟨_,hp⟩

/-- A service with an image is lost when its context is. -/
theorem lost_iff {service : List (Yaml×Yaml)} {image context : Str}
    (himage : get service (str "image")=.str image) (hblank : strip image≠[])
    (hc : Context (get service (str "build")) context) :
    Lost reader files (.mapping service) ↔ Pathless reader files context := by
  constructor
  · intro h
    cases h with
    | context hi hb hd hp => exact context_unique hd hc ▸ hp
  · exact fun hp => .context himage (fun hb => hblank (strip_eq_nil_iff.mpr hb)) hc hp

/-- What reading a service does: it adds what the service names, raises
ComposeError, or is lost with it. -/
def Outcome (reader : Reader Refusal) (files : Files) (service : Yaml)
    (read : Except (Raised Refusal) (Finset Str)) : Prop :=
  (∃ added,read=.ok added ∧ ¬Unusable reader files service ∧
    ∀ reference,reference∈added ↔ NamedBy reader files service reference) ∨
  (Unusable reader files service ∧
    ((¬Lost reader files service ∧ ∃ error,read=.error (.own (.compose error))) ∨
      Lost reader files service ∧ ∃ message,read=.error (.value message)))

/-- A service that has no usable image is refused for it. -/
theorem outcome_imageless {service : Yaml} {read : Except (Raised Refusal) (Finset Str)}
    {error : ComposeError} (hread : read=.error (.own (.compose error)))
    (hno : ∀ fields image,service=.mapping fields → get fields (str "image")=.str image →
      Blank image) : Outcome reader files service read := by
  refine Or.inr ⟨?_,Or.inl ⟨fun hlost => ?_,error,hread⟩⟩
  · by_cases hshape : ∃ fields,service=.mapping fields
    · obtain ⟨fields,rfl⟩ := hshape
      exact .image (fun image hi => hno fields image rfl hi)
    · exact .shape (fun fields hf => hshape ⟨fields,hf⟩)
  · cases hlost with
    | context hi hb hc hp => exact hb (hno _ _ rfl hi)

/-- A service with an image is refused for its build section only. -/
theorem readService_image (hassigned : Assigned reader files) (name : Yaml)
    {service : List (Yaml×Yaml)} {image : Str}
    (himage : get service (str "image")=.str image) (hblank : strip image≠[]) :
    Outcome reader files (.mapping service) (readService reader files name (.mapping service)) := by
  rcases contextOf_cases (get service (str "build")) with
    ⟨hnull,hcontext⟩|⟨context,hc,hcontext⟩|⟨hbuild,hc,error,hcontext⟩
  · left
    have hnone : ∀ context,¬Context (get service (str "build")) context := by
      intro context hn
      rw [hnull] at hn
      cases hn
    refine ⟨{strip image},by simp only [readService,himage,if_neg hblank,hcontext],?_,?_⟩
    · rw [unusable_iff himage hblank]
      rintro (⟨hb,-⟩|⟨context,hc,-⟩)
      · exact hb hnull
      · exact hnone context hc
    · intro reference
      rw [Finset.mem_singleton,namedBy_iff himage]
      refine (or_iff_left ?_).symm
      rintro ⟨context,hc,-⟩
      exact hnone context hc
  · rcases bases_cases hassigned context with ⟨found,hfound,hsome,hmem⟩|⟨hnone,hfault⟩
    · left
      refine ⟨insert (strip image) found,?_,?_,?_⟩
      · simp only [readService,himage,if_neg hblank,hcontext,hfound]
      · rw [unusable_iff himage hblank]
        rintro (⟨-,hn⟩|⟨other,hd,hn⟩)
        · exact hn context hc
        · obtain ⟨base,hbase⟩ := hsome
          rw [context_unique hd hc] at hn
          exact hn base ((hmem base).mp hbase)
      · intro reference
        rw [Finset.mem_insert,namedBy_iff himage,hmem]
        refine or_congr_right ⟨fun hb => ⟨context,hc,hb⟩,?_⟩
        rintro ⟨other,hd,hb⟩
        rwa [context_unique hd hc] at hb
    · refine Or.inr ⟨.dockerfile hc hnone,?_⟩
      rw [lost_iff himage hblank hc]
      rcases hfault with ⟨hpath,error,herror⟩|⟨hpath,message,herror⟩
      · refine Or.inl ⟨hpath,error,?_⟩
        simp only [readService,himage,if_neg hblank,hcontext,herror]
      · refine Or.inr ⟨hpath,message,?_⟩
        simp only [readService,himage,if_neg hblank,hcontext,herror]
  · refine Or.inr ⟨.build hbuild hc,Or.inl ⟨fun hlost => ?_,error,?_⟩⟩
    · cases hlost with
      | context hi hb hd hp => exact hc _ hd
    · simp only [readService,himage,if_neg hblank,hcontext]

/-- A service is refused or lost when it is unusable, and otherwise adds what it names. -/
theorem readService_cases (hassigned : Assigned reader files) (name service : Yaml) :
    Outcome reader files service (readService reader files name service) := by
  cases service with
  | null => exact outcome_imageless rfl (fun _ _ h => (by cases h))
  | str value => exact outcome_imageless rfl (fun _ _ h => (by cases h))
  | list items => exact outcome_imageless rfl (fun _ _ h => (by cases h))
  | other shown => exact outcome_imageless rfl (fun _ _ h => (by cases h))
  | mapping service =>
    -- without an image to strip the service is refused before its build is read
    have hno : ∀ value,get service (str "image")=value → (∀ image,value≠.str image) →
        ∀ fields image,Yaml.mapping service=.mapping fields →
          get fields (str "image")=.str image → Blank image := by
      rintro value hv hn fields image hf hi
      cases hf
      exact absurd (hv.symm.trans hi) (hn image)
    cases himage : get service (str "image") with
    | null =>
      refine @outcome_imageless _ _ _ _ (.namesNoImage name) ?_
        (hno _ himage (fun _ h => (by cases h)))
      simp only [readService,himage]
    | list items =>
      refine @outcome_imageless _ _ _ _ (.badImage name (.list items)) ?_
        (hno _ himage (fun _ h => (by cases h)))
      simp only [readService,himage]
    | mapping fields =>
      refine @outcome_imageless _ _ _ _ (.badImage name (.mapping fields)) ?_
        (hno _ himage (fun _ h => (by cases h)))
      simp only [readService,himage]
    | other shown =>
      refine @outcome_imageless _ _ _ _ (.badImage name (.other shown)) ?_
        (hno _ himage (fun _ h => (by cases h)))
      simp only [readService,himage]
    | str image =>
      by_cases hblank : strip image=[]
      · refine @outcome_imageless _ _ _ _ (.badImage name (.str image)) ?_ ?_
        · simp only [readService,himage,if_pos hblank]
        · rintro fields other hf ho
          cases hf
          cases himage.symm.trans ho
          exact strip_eq_nil_iff.mp hblank
      · exact readService_image hassigned name himage hblank

/-- Whether a lost service comes first is decided by the first service that is unusable. -/
theorem lostFirst_cons {entry : Yaml×Yaml} {services : List (Yaml×Yaml)} :
    LostFirst reader files (entry::services) ↔ Lost reader files entry.2 ∨
      ¬Unusable reader files entry.2 ∧ LostFirst reader files services := by
  constructor
  · rintro ⟨before,lost,after,heq,husable,hlost⟩
    cases before with
    | nil =>
      obtain ⟨rfl,rfl⟩ := List.cons.inj heq
      exact Or.inl hlost
    | cons first before =>
      obtain ⟨rfl,rfl⟩ := List.cons.inj heq
      exact Or.inr ⟨husable _ List.mem_cons_self,before,lost,after,rfl,
        fun earlier he => husable earlier (List.mem_cons_of_mem _ he),hlost⟩
  · rintro (hlost|⟨husable,before,lost,after,rfl,hrest,hlost⟩)
    · exact ⟨[],entry,services,rfl,fun _ h => absurd h List.not_mem_nil,hlost⟩
    · exact ⟨entry::before,lost,after,rfl,List.forall_mem_cons.mpr ⟨husable,hrest⟩,hlost⟩

/-- The loop is refused at an unusable service, wherever it stands, unless a lost
one comes first, and otherwise adds what the services name. -/
theorem collect_cases (hassigned : Assigned reader files) (found : Finset Str)
    (services : List (Yaml×Yaml)) :
    (∃ all,collect reader files found services=.ok all ∧
      (∀ entry∈services,¬Unusable reader files entry.2) ∧
      ∀ reference,reference∈all ↔
        reference∈found ∨ ∃ entry∈services,NamedBy reader files entry.2 reference) ∨
    ((∃ entry∈services,Unusable reader files entry.2) ∧
      ((¬LostFirst reader files services ∧
          ∃ error,collect reader files found services=.error (.own (.compose error))) ∨
        LostFirst reader files services ∧
          ∃ message,collect reader files found services=.error (.value message))) := by
  induction services generalizing found with
  | nil =>
    refine Or.inl ⟨found,rfl,fun _ h => absurd h List.not_mem_nil,fun reference => ?_⟩
    exact ⟨Or.inl,fun h => h.resolve_right (fun ⟨_,hm,_⟩ => absurd hm List.not_mem_nil)⟩
  | cons entry services ih =>
    obtain ⟨name,service⟩ := entry
    rw [lostFirst_cons]
    rcases readService_cases hassigned name service with
      ⟨added,hadded,husable,hmem⟩|⟨hunusable,hfault⟩
    · have hstep : collect reader files found ((name,service)::services)=
          collect reader files (found ∪ added) services := by
        rw [collect,hadded]
      have hkept : ¬Lost reader files service := fun hlost => husable hlost.unusable
      rw [hstep]
      simp only [hkept,husable,not_false_eq_true,true_and,false_or]
      rcases ih (found ∪ added) with ⟨all,hall,husableRest,hmemRest⟩|⟨⟨entry,hm,hu⟩,hfault⟩
      · refine Or.inl ⟨all,hall,?_,fun reference => ?_⟩
        · exact List.forall_mem_cons.mpr ⟨husable,husableRest⟩
        · rw [hmemRest,Finset.mem_union,hmem,List.exists_mem_cons_iff,or_assoc]
      · exact Or.inr ⟨⟨entry,List.mem_cons_of_mem _ hm,hu⟩,hfault⟩
    · refine Or.inr ⟨⟨(name,service),List.mem_cons_self,hunusable⟩,?_⟩
      simp only [hunusable,not_true_eq_false,false_and,or_false]
      rcases hfault with ⟨hkept,error,herror⟩|⟨hlost,message,herror⟩
      · exact Or.inl ⟨hkept,error,by rw [collect,herror]⟩
      · exact Or.inr ⟨hlost,message,by rw [collect,herror]⟩

/-- A compose file is refused or listed, unless reading it is stuck. -/
theorem referencesIn_cases (hassigned : Assigned reader files) (compose : Yaml) :
    (∃ listed,referencesIn reader files compose=.ok listed ∧ ¬Refused reader files compose ∧
      listed.Pairwise (fun s t => s<t) ∧
      ∀ reference,reference∈listed ↔ Named reader files compose reference) ∨
    (Refused reader files compose ∧
      ((¬Stuck reader files compose ∧
          ∃ error,referencesIn reader files compose=.error (.own (.compose error))) ∨
        Stuck reader files compose ∧
          ∃ message,referencesIn reader files compose=.error (.value message))) := by
  cases hservices : servicesOf compose with
  | error error =>
    have hnone : ¬∃ services,Services compose services := by
      rintro ⟨services,h⟩
      rw [servicesOf_eq_ok.mpr h] at hservices
      cases hservices
    refine Or.inr ⟨Or.inl hnone,Or.inl ⟨?_,error,by rw [referencesIn,hservices]⟩⟩
    rintro ⟨services,h,-⟩
    exact hnone ⟨services,h⟩
  | ok services =>
    have hs := servicesOf_eq_ok.mp hservices
    -- the services of a compose file are one list
    have hunique : ∀ {other},Services compose other → other=services := by
      intro other ho
      rw [servicesOf_eq_ok.mpr ho] at hservices
      exact Except.ok.inj hservices
    have hstuck : Stuck reader files compose ↔ LostFirst reader files services := by
      constructor
      · rintro ⟨other,ho,hlost⟩
        exact hunique ho ▸ hlost
      · exact fun hlost => ⟨services,hs,hlost⟩
    rcases collect_cases hassigned ∅ services with ⟨all,hall,husable,hmem⟩|⟨hunusable,hfault⟩
    · left
      refine ⟨sorted all,by rw [referencesIn,hservices]; dsimp only; rw [hall],?_,
        sorted_increasing all,fun reference => ?_⟩
      · rintro (hno|⟨other,ho,entry,hentry,hu⟩)
        · exact hno ⟨services,hs⟩
        · rw [hunique ho] at hentry
          exact husable entry hentry hu
      · rw [mem_sorted,hmem]
        constructor
        · rintro (hn|hn)
          · exact absurd hn (Finset.notMem_empty reference)
          · exact ⟨services,hs,hn⟩
        · rintro ⟨other,ho,hn⟩
          rw [hunique ho] at hn
          exact Or.inr hn
    · refine Or.inr ⟨Or.inr ⟨services,hs,hunusable⟩,?_⟩
      rw [hstuck,referencesIn,hservices]
      dsimp only
      rcases hfault with ⟨hkept,error,herror⟩|⟨hlost,message,herror⟩
      · exact Or.inl ⟨hkept,error,by rw [herror]⟩
      · exact Or.inr ⟨hlost,message,by rw [herror]⟩

/-- A list of references is strictly increasing. -/
theorem references_increasing {listed : List Str} (h : references reader files=.ok listed) :
    listed.Pairwise (fun s t => s<t) := by
  unfold references at h
  cases hloaded : loaded reader files with
  | error raised =>
    rw [hloaded] at h
    cases h
  | ok compose =>
    rw [hloaded] at h
    dsimp only [referencesIn] at h
    cases hservices : servicesOf compose with
    | error error =>
      rw [hservices] at h
      cases h
    | ok services =>
      rw [hservices] at h
      dsimp only at h
      cases hcollect : collect reader files ∅ services with
      | error raised =>
        rw [hcollect] at h
        cases h
      | ok found =>
        rw [hcollect] at h
        cases h
        exact sorted_increasing found

/-- The references that encode are printed up to the first that does not. -/
theorem printAll_eq (printed listed : List Str) :
    printAll printed listed=(printed++listed.takeWhile encodes,
      if ∀ r∈listed,encodes r=true then .ok () else .error .unicodeEncode) := by
  induction listed generalizing printed with
  | nil => simp [printAll]
  | cons reference listed ih =>
    by_cases h : encodes reference=true
    · cases he : encode reference with
      | none => exact absurd h (encode_eq_none_iff.mp he)
      | some bytes =>
        rw [printAll,he]
        dsimp only
        rw [ih,List.takeWhile_cons_of_pos (p:=encodes) h,List.append_assoc,List.singleton_append]
        simp only [List.forall_mem_cons,h,true_and]
    · have hall : ¬∀ r∈reference::listed,encodes r=true :=
        fun hn => h (hn reference List.mem_cons_self)
      rw [printAll,encode_eq_none_iff.mpr h]
      dsimp only
      rw [List.takeWhile_cons_of_neg (p:=encodes) h,List.append_nil,
        if_neg hall]

/-- A compose file that is refused prints nothing. -/
theorem main_refused {raised : Raised Refusal} (h : references reader files=.error raised)
    (arguments : List Str) : (main reader files arguments).stdout=[] := by
  cases arguments with
  | cons argument arguments => rfl
  | nil =>
    unfold main
    rw [h]
    dsimp only [ended]
    cases caught reader raised with
    | none => rfl
    | some message => rfl

/-- A listed compose file prints the references up to the first that does not
encode, and is a success when there is no such reference. -/
theorem main_listed {listed : List Str} (h : references reader files=.ok listed) :
    (main reader files []).stdout=listed.takeWhile encodes ∧
      ((main reader files []).result=.ok 0 ↔ ∀ r∈listed,encodes r=true) := by
  unfold main
  rw [h]
  dsimp only
  rw [printAll_eq,List.nil_append]
  by_cases hall : ∀ r∈listed,encodes r=true
  · rw [if_pos hall]
    exact ⟨rfl,iff_of_true rfl hall⟩
  · rw [if_neg hall]
    exact ⟨rfl,iff_of_false (fun hn => (by cases hn)) hall⟩

/-- A sorted list is printed whole or not at all when every reference encodes
or the least does not. -/
theorem silent_iff {listed : List Str} (h : references reader files=.ok listed)
    (hsorted : listed.Pairwise (fun s t => s<t)) :
    (∀ arguments,(main reader files arguments).result≠.ok 0 →
        (main reader files arguments).stdout=[]) ↔
      (∀ r∈listed,encodes r=true) ∨
        ∃ r∈listed,¬encodes r=true ∧ ∀ s∈listed,r ≤ s := by
  obtain ⟨hstdout,hzero⟩ := main_listed h
  constructor
  · intro hsilent
    by_cases hall : ∀ r∈listed,encodes r=true
    · exact Or.inl hall
    · right
      have hnone := hsilent [] (fun hn => hall (hzero.mp hn))
      rw [hstdout] at hnone
      cases listed with
      | nil => exact absurd (fun r hr => absurd hr List.not_mem_nil) hall
      | cons least rest =>
        have hleast : ¬encodes least=true := by
          intro hn
          rw [List.takeWhile_cons_of_pos (p:=encodes) hn] at hnone
          cases hnone
        have hrest := (List.pairwise_cons.mp hsorted).1
        exact ⟨least,List.mem_cons_self,hleast,
          List.forall_mem_cons.mpr ⟨le_refl least,fun s hs => le_of_lt (hrest s hs)⟩⟩
  · intro hcondition arguments hfailed
    cases arguments with
    | cons argument arguments => rfl
    | nil =>
      rcases hcondition with hall|⟨least,hm,hleast,hle⟩
      · exact absurd (hzero.mpr hall) hfailed
      · rw [hstdout]
        cases listed with
        | nil => exact absurd hm List.not_mem_nil
        | cons first rest =>
          have hfirst : least=first := by
            rcases List.mem_cons.mp hm with he|hr
            · exact he
            · have hlt := (List.pairwise_cons.mp hsorted).1 least hr
              exact absurd (hle first List.mem_cons_self) (not_le_of_gt hlt)
          rw [hfirst] at hleast
          exact List.takeWhile_cons_of_neg (p:=encodes) hleast

/-- The list of a parsed compose file is complete or refused, and the output of
`main` with it, exactly when no lost service comes before every other unusable
one, and the file is refused, everything it names has a UTF-8 form, or the least
thing it names has none. -/
theorem complete_or_refused_iff (hloaded : loaded reader files=.ok compose)
    (hassigned : Assigned reader files) :
    CompleteOrRefused reader files compose ↔ ¬Stuck reader files compose ∧
      (Refused reader files compose ∨
      (∀ r,Named reader files compose r → encodes r=true) ∨
      ∃ r,Named reader files compose r ∧ ¬encodes r=true ∧
        ∀ s,Named reader files compose s → r ≤ s) := by
  have hreferences : references reader files=referencesIn reader files compose := by
    rw [references,hloaded]
  rcases referencesIn_cases hassigned compose with
    ⟨listed,hlisted,husable,hsorted,hmem⟩|
    ⟨hrefused,⟨hkept,error,herror⟩|⟨hstuck,message,herror⟩⟩
  · rw [←hreferences] at hlisted
    have hsilent := silent_iff hlisted hsorted
    simp only [hmem] at hsilent
    have hkept : ¬Stuck reader files compose := by
      rintro ⟨services,hs,before,entry,after,rfl,-,hlost⟩
      exact husable (Or.inr ⟨_,hs,entry,List.mem_append_right _ List.mem_cons_self,hlost.unusable⟩)
    constructor
    · intro h
      exact ⟨hkept,Or.inr (hsilent.mp h.silent)⟩
    · rintro ⟨-,h⟩
      refine ⟨?_,fun _ => ⟨listed,hlisted,hsorted,hmem⟩,hsilent.mpr (h.resolve_left husable)⟩
      rw [hlisted]
      exact iff_of_false (fun ⟨_,hn⟩ => (by cases hn)) husable
  · rw [←hreferences] at herror
    refine iff_of_true ⟨?_,fun husable => absurd hrefused husable,?_⟩ ⟨hkept,Or.inl hrefused⟩
    · exact iff_of_true ⟨error,herror⟩ hrefused
    · exact fun arguments _ => main_refused herror arguments
  · -- the exception of a string that is no path is not a ComposeError
    rw [←hreferences] at herror
    refine iff_of_false (fun h => ?_) (fun h => h.1 hstuck)
    obtain ⟨error,hcompose⟩ := h.refused.mpr hrefused
    rw [herror] at hcompose
    cases hcompose

/-- A base always has a UTF-8 form: it was read from a text. -/
theorem base_encodes {context base : Str} (h : NamesBase reader files context base) :
    encodes base=true := by
  obtain ⟨text,-,line,hline,rest,rfl,before,after,rfl,-⟩ := h
  have hscalar : ∀ c∈str text,isScalar c=true := List.all_eq_true.mp (str_scalar text)
  refine List.all_eq_true.mpr (fun c hc => hscalar c ((mem_splitlines hline).2 c ?_))
  exact List.mem_append_right _ (List.mem_append_left _ (List.mem_append_right _ hc))

/-- A spine of a compose file and one Dockerfile. -/
def spine (compose dockerfile : String) : Files where
  content path :=
    if path=str "docker-compose.yml" then .ok compose.toUTF8
    else if path=str "./Dockerfile" then .ok dockerfile.toUTF8
    else .error (.os (str "[Errno 2] No such file or directory"))
  refused _ := none

/-- A reader of a spine whose compose file parses to the given value. -/
def spineReader (compose : Yaml) : Reader Refusal where
  composeFile := str "docker-compose.yml"
  dockerfile context := context++str "/Dockerfile"
  safeLoad _ := .ok compose
  repr _ := []

theorem loaded_spine (text dockerfile : String) (compose : Yaml) :
    loaded (spineReader compose) (spine text dockerfile)=.ok compose := by
  have hcontent : (spine text dockerfile).content (spineReader compose).composeFile=
      .ok text.toUTF8 := by
    simp only [spine,spineReader,if_true]
  rw [loaded,readText_text hcontent]
  rfl

theorem assigned_spine (text dockerfile : String) (compose : Yaml) :
    Assigned (spineReader compose) (spine text dockerfile) := by
  intro context
  unfold spine
  dsimp only
  split
  · exact Or.inl ⟨text,rfl⟩
  · split
    · exact Or.inl ⟨dockerfile,rfl⟩
    · exact Or.inr ⟨_,rfl⟩

/-- Every context of a spine is a path. -/
theorem spine_path (text dockerfile : String) (path : Str) {message : Str} :
    (spine text dockerfile).content path≠.error (.value message) := by
  unfold spine
  dsimp only
  split
  · exact fun h => (by cases h)
  · split <;> exact fun h => (by cases h)

/-- A compose file with one service that builds its image. -/
def builtCompose : Yaml :=
  .mapping [(.str (str "services"),.mapping [(.str (str "mlflow"),.mapping
    [(.str (str "image"),.str (str "mlops-platform/mlflow:3.1 ")),
      (.str (str "build"),.str (str "."))])])]

/-- Its list is complete or refused, whatever the Dockerfile holds. -/
theorem complete_or_refused_built :
    CompleteOrRefused (spineReader builtCompose)
      (spine "services:\n  mlflow:\n    image: 'mlops-platform/mlflow:3.1 '\n    build: .\n"
        "FROM python:3.12\n") builtCompose := by
  refine (complete_or_refused_iff (loaded_spine _ _ _) (assigned_spine _ _ _)).mpr
    ⟨?_,Or.inr (Or.inl ?_)⟩
  · rintro ⟨services,hservices,before,entry,after,rfl,-,hlost⟩
    obtain ⟨context,message,hmessage⟩ := hlost.pathless
    exact spine_path _ _ _ hmessage
  · rintro reference ⟨services,hservices,entry,hentry,hnamed⟩
    have hs := servicesOf_eq_ok.mpr hservices
    cases hs
    rw [List.mem_singleton] at hentry
    rw [hentry] at hnamed
    generalize hvalue : Yaml.mapping _=value at hnamed
    cases hnamed with
    | image h =>
      cases hvalue
      cases h
      decide
    | base _ hb => exact base_encodes hb

/-- A compose file with the images of two services. -/
def pairCompose (first second : Str) : Yaml :=
  .mapping [(.str (str "services"),.mapping
    [(.str (str "a"),.mapping [(.str (str "image"),.str first)]),
      (.str (str "b"),.mapping [(.str (str "image"),.str second)])])]

/-- Its list holds both, stripped, however it is read. -/
theorem references_of_pair {first second : Str} (hfirst : strip first≠[])
    (hsecond : strip second≠[]) (hloaded : loaded reader files=.ok (pairCompose first second)) :
    references reader files=.ok (sorted {strip first,strip second}) := by
  have hread : ∀ {image : Str} {name : Yaml},strip image≠[] →
      readService reader files name (.mapping [(.str (str "image"),.str image)])=
        .ok {strip image} := by
    intro image name hne
    have himage : get [(Yaml.str (str "image"),Yaml.str image)] (str "image")=.str image := if_pos rfl
    have hbuild : get [(Yaml.str (str "image"),Yaml.str image)] (str "build")=.null :=
      if_neg (by decide)
    simp only [readService,himage,if_neg hne,hbuild,contextOf]
  have hservices : servicesOf (pairCompose first second)=.ok
      [(.str (str "a"),.mapping [(.str (str "image"),.str first)]),
        (.str (str "b"),.mapping [(.str (str "image"),.str second)])] :=
    servicesOf_eq_ok.mpr ⟨_,rfl,if_pos rfl,List.cons_ne_nil _ _⟩
  have hset : ∅ ∪ {strip first} ∪ {strip second}=({strip first,strip second} : Finset Str) := by
    rw [Finset.empty_union]
    rfl
  simp only [references,hloaded,referencesIn,hservices,collect,hread hfirst,hread hsecond,hset]

/-- So does the list of its own reader. -/
theorem references_pair {first second : Str} (hfirst : strip first≠[]) (hsecond : strip second≠[])
    (text dockerfile : String) :
    references (spineReader (pairCompose first second)) (spine text dockerfile)=
      .ok (sorted {strip first,strip second}) :=
  references_of_pair hfirst hsecond (loaded_spine text dockerfile _)

/-- The second image is listed although it is a lone surrogate, and `main`
prints the first before it fails on it. -/
theorem complete_or_refused_fails :
    let reader := spineReader (pairCompose (str "a") [0xd800])
    let files := spine
      "services:\n  a:\n    image: a\n  b:\n    image: \"\\ud800\"\n" "FROM python:3.12\n"
    loaded reader files=.ok (pairCompose (str "a") [0xd800]) ∧ Assigned reader files ∧
      references reader files=.ok [str "a",[0xd800]] ∧
      (main reader files []).result=.error .unicodeEncode ∧
      (main reader files []).stdout=[str "a"] ∧
      ¬CompleteOrRefused reader files (pairCompose (str "a") [0xd800]) := by
  intro reader files
  have hreferences : references reader files=.ok [str "a",[0xd800]] := by
    have hpair := @references_pair (str "a") [0xd800] (by decide) (by decide)
      "services:\n  a:\n    image: a\n  b:\n    image: \"\\ud800\"\n" "FROM python:3.12\n"
    rw [sorted_pair (by decide)] at hpair
    exact hpair
  have hresult : (main reader files []).result=.error .unicodeEncode := by
    rw [main,hreferences]
    rfl
  have hstdout : (main reader files []).stdout=[str "a"] := by
    rw [main,hreferences]
    rfl
  refine ⟨loaded_spine _ _ _,assigned_spine _ _ _,hreferences,hresult,hstdout,fun h => ?_⟩
  have hnone := h.silent [] (by rw [hresult]; exact fun hn => (by cases hn))
  rw [hstdout] at hnone
  cases hnone

end MlopsPlatform.SupplyImagesComplete
