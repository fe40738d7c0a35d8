import MlopsPlatform.RunStages
import Mathlib.Data.Option.Basic
import Mathlib.Tactic.Common

/-!
# Objects that are applied and created

An object remembers the configuration that was last applied to it. Applying another
one sets what that has, takes away what only the remembered one had, and leaves what
neither has; but an empty one in place of one with entries takes everything away. An
object that is created anew remembers nothing. So what was applied stays as long as
nothing else is, and what was created stays until it is named, or everything goes.
-/

namespace MlopsPlatform.ConfigApply

open RunStages

variable {K V : Type*}

/-- A configuration, and whether it has any entry. -/
structure Config (K V : Type*) where
  /-- What it sets. -/
  value : K→Option V
  /-- It sets nothing. -/
  isEmpty : Bool
  /-- It says so truly. -/
  isEmpty_iff : isEmpty=true ↔ ∀ key,value key=none

/-- The configuration of an object that none was applied to. -/
def Config.nothing : Config K V := ⟨fun _ => none,true,iff_of_true rfl (fun _ => rfl)⟩

/-- An object. -/
structure Managed (K V : Type*) where
  /-- What it has. -/
  live : K→Option V
  /-- The configuration last applied. -/
  lastApplied : Config K V

/-- The entries are taken away as a whole: there were some and now there are none. -/
def Config.wipes (config last : Config K V) : Bool := config.isEmpty && !last.isEmpty

/-- Apply a configuration to an object. -/
def Managed.apply (object : Managed K V) (config : Config K V) : Managed K V where
  live key := (config.value key).or
    (if (object.lastApplied.value key).isSome || config.wipes object.lastApplied then none
      else object.live key)
  lastApplied := config

/-- What happens to an object, or to the lack of one. -/
inductive Effect (K V : Type*) where
  /-- Nothing. -/
  | keeps
  /-- It is taken away. -/
  | removes
  /-- It is created anew. -/
  | recreates (config : Config K V)
  /-- A configuration is applied. -/
  | applies (config : Config K V)

/-- The object afterwards. -/
def Effect.act : Effect K V→Option (Managed K V)→Option (Managed K V)
  | .keeps,object => object
  | .removes,_ => none
  | .recreates config,_ => some ⟨config.value,.nothing⟩
  | .applies config,none => some ⟨config.value,config⟩
  | .applies config,some object => some (object.apply config)

/-- The object after one effect upon another, from the lack of one. -/
def history (effects : List (Effect K V)) : Option (Managed K V) :=
  effects.foldl (fun object effect => effect.act object) none

/-- What an object, or the lack of one, has under a key. -/
def liveAt (object : Option (Managed K V)) (key : K) : Option V :=
  object.bind (fun object => object.live key)

/-- What is remembered. -/
def lastApplied (object : Option (Managed K V)) : Config K V :=
  object.elim .nothing Managed.lastApplied

/-- A configuration with entries is applied. -/
def Fills (effect : Effect K V) : Prop := ∃ config,effect=.applies config ∧ config.isEmpty=false

/-- A configuration without any is. -/
def Empties (effect : Effect K V) : Prop := ∃ config,effect=.applies config ∧ config.isEmpty=true

/-- The last write was an application that has the value. -/
def AppliedLast (key : K) (value : V) : List (Effect K V)→Prop :=
  Since (fun effect => ∃ config,effect=.applies config ∧ config.value key=some value)
    (fun effect => effect=.keeps)

/-- It was created with the value, nothing after that names the key, and none without entries
is applied behind one that has some. -/
def CreatedBefore (key : K) (value : V) (effects : List (Effect K V)) : Prop :=
  ∃ before config after,effects=before++.recreates config::after ∧ config.value key=some value ∧
    (∀ effect∈after,effect=.keeps ∨ ∃ config,effect=.applies config ∧ config.value key=none) ∧
    after.Pairwise (fun earlier later => ¬(Fills earlier ∧ Empties later))

theorem history_concat (effects : List (Effect K V)) (effect : Effect K V) :
    history (effects++[effect])=effect.act (history effects) := by
  rw [history,List.foldl_append,List.foldl_cons,List.foldl_nil,history]

theorem Config.isEmpty_false_iff {config : Config K V} :
    config.isEmpty=false ↔ ∃ key value,config.value key=some value := by
  rw [←Bool.not_eq_true,config.isEmpty_iff,not_forall]
  exact exists_congr (fun key => Option.ne_none_iff_exists'.trans Iff.rfl)

@[simp] theorem wipes_nothing (config : Config K V) : config.wipes .nothing=false :=
  Bool.and_false _

theorem liveAt_applies (config : Config K V) (object : Option (Managed K V)) (key : K) :
    liveAt ((Effect.applies config).act object) key=
      (config.value key).or
        (if ((lastApplied object).value key).isSome || config.wipes (lastApplied object) then none
          else liveAt object key) := by
  cases object with
  | none =>
    rw [lastApplied,Option.elim_none,wipes_nothing]
    exact (Option.or_none (o:=config.value key)).symm
  | some object => rfl

@[simp] theorem lastApplied_applies (config : Config K V) (object : Option (Managed K V)) :
    lastApplied ((Effect.applies config).act object)=config := by
  cases object with
  | none => rfl
  | some object => rfl

section Concat

variable {effects : List (Effect K V)} {config : Config K V} {key : K} {value : V}

theorem appliedLast_keeps :
    AppliedLast key value (effects++[.keeps]) ↔ AppliedLast key value effects := by
  simp [AppliedLast,since_concat]

theorem not_appliedLast_removes : ¬AppliedLast key value (effects++[.removes]) := by
  simp [AppliedLast,since_concat]

theorem not_appliedLast_recreates : ¬AppliedLast key value (effects++[.recreates config]) := by
  simp [AppliedLast,since_concat]

theorem appliedLast_applies :
    AppliedLast key value (effects++[.applies config]) ↔ config.value key=some value := by
  simp [AppliedLast,since_concat]

theorem not_fills_keeps : ¬Fills (Effect.keeps : Effect K V) := by
  rintro ⟨config,h,-⟩
  cases h

theorem fills_applies : Fills (Effect.applies config) ↔ config.isEmpty=false := by
  constructor
  · rintro ⟨other,h,hfills⟩
    cases h
    exact hfills
  · exact fun h => ⟨config,rfl,h⟩

theorem empties_applies : Empties (Effect.applies config) ↔ config.isEmpty=true := by
  constructor
  · rintro ⟨other,h,hempties⟩
    cases h
    exact hempties
  · exact fun h => ⟨config,rfl,h⟩

theorem createdBefore_nil : ¬CreatedBefore key value ([] : List (Effect K V)) := by
  rintro ⟨before,created,after,h,-⟩
  simp at h

/-- One effect more leaves what was created, when it does not name the key and does not
empty what was filled behind the creation. -/
theorem createdBefore_concat {effect : Effect K V} :
    CreatedBefore key value (effects++[effect]) ↔
      (∃ created,effect=.recreates created ∧ created.value key=some value) ∨
      (effect=.keeps ∨ ∃ applied,effect=.applies applied ∧ applied.value key=none) ∧
        ∃ before created after,effects=before++.recreates created::after ∧
          created.value key=some value ∧
          (∀ e∈after,e=.keeps ∨ ∃ applied,e=.applies applied ∧ applied.value key=none) ∧
          after.Pairwise (fun earlier later => ¬(Fills earlier ∧ Empties later)) ∧
          ∀ earlier∈after,¬(Fills earlier ∧ Empties effect) := by
  constructor
  · rintro ⟨before,created,after,hsplit,hvalue,hafter,hpairs⟩
    rcases List.eq_nil_or_concat after with rfl|⟨init,last,rfl⟩
    · cases (List.append_inj' hsplit rfl).2
      exact .inl ⟨created,rfl,hvalue⟩
    · rw [List.concat_eq_append] at hsplit hafter hpairs
      rw [←List.cons_append,←List.append_assoc] at hsplit
      obtain ⟨hinit,hlast⟩ := List.append_inj' hsplit rfl
      cases hlast
      rw [List.pairwise_append] at hpairs
      refine .inr ⟨hafter _ (List.mem_append_right _ List.mem_cons_self),before,created,init,hinit,
        hvalue,fun e he => hafter e (List.mem_append_left _ he),hpairs.1,fun earlier he => ?_⟩
      exact hpairs.2.2 earlier he _ List.mem_cons_self
  · rintro (⟨created,rfl,hvalue⟩|⟨heffect,before,created,after,rfl,hvalue,hafter,hpairs,hlast⟩)
    · exact ⟨effects,created,[],rfl,hvalue,fun _ h => absurd h List.not_mem_nil,.nil⟩
    · refine ⟨before,created,after++[effect],by rw [List.append_assoc,List.cons_append],hvalue,
        List.forall_mem_append.mpr ⟨hafter,List.forall_mem_singleton.mpr heffect⟩,?_⟩
      refine List.pairwise_append.mpr ⟨hpairs,List.pairwise_singleton _ _,fun earlier he later hl => ?_⟩
      rw [List.mem_singleton.mp hl]
      exact hlast earlier he

/-- What is remembered behind a creation is empty exactly if nothing was filled since. -/
theorem lastApplied_created {before after : List (Effect K V)} {created : Config K V}
    (hafter : ∀ e∈after,e=.keeps ∨ ∃ applied,e=.applies applied ∧ applied.value key=none)
    (hpairs : after.Pairwise (fun earlier later => ¬(Fills earlier ∧ Empties later))) :
    (lastApplied (history (before++.recreates created::after))).isEmpty=true ↔
      ∀ earlier∈after,¬Fills earlier := by
  induction after using List.reverseRecOn with
  | nil =>
    rw [history_concat]
    exact iff_of_true rfl (fun _ h => absurd h List.not_mem_nil)
  | append_singleton after effect ih =>
    rw [List.forall_mem_append,List.forall_mem_singleton] at hafter
    rw [List.pairwise_append] at hpairs
    rw [←List.cons_append,←List.append_assoc,history_concat,List.forall_mem_append,
      List.forall_mem_singleton]
    rcases hafter.2 with rfl|⟨applied,rfl,-⟩
    · rw [and_iff_left not_fills_keeps]
      exact ih hafter.1 hpairs.1
    · rw [lastApplied_applies,fills_applies,Bool.not_eq_false]
      refine ⟨fun hempty => ⟨fun earlier he hfills => ?_,hempty⟩,And.right⟩
      exact hpairs.2.2 earlier he _ List.mem_cons_self ⟨hfills,empties_applies.mpr hempty⟩

theorem createdBefore_keeps :
    CreatedBefore key value (effects++[.keeps]) ↔ CreatedBefore key value effects := by
  rw [createdBefore_concat]
  constructor
  · rintro (⟨created,h,-⟩|⟨-,before,created,after,hsplit,hvalue,hafter,hpairs,-⟩)
    · cases h
    · exact ⟨before,created,after,hsplit,hvalue,hafter,hpairs⟩
  · rintro ⟨before,created,after,hsplit,hvalue,hafter,hpairs⟩
    refine .inr ⟨.inl rfl,before,created,after,hsplit,hvalue,hafter,hpairs,?_⟩
    rintro earlier - ⟨-,applied,h,-⟩
    cases h

theorem not_createdBefore_removes : ¬CreatedBefore key value (effects++[.removes]) := by
  rw [createdBefore_concat]
  rintro (⟨created,h,-⟩|⟨h|⟨applied,h,-⟩,-⟩) <;> cases h

theorem createdBefore_recreates :
    CreatedBefore key value (effects++[.recreates config]) ↔ config.value key=some value := by
  rw [createdBefore_concat]
  constructor
  · rintro (⟨created,h,hvalue⟩|⟨h|⟨applied,h,-⟩,-⟩)
    · cases h
      exact hvalue
    · cases h
    · cases h
  · exact fun h => .inl ⟨config,rfl,h⟩

theorem createdBefore_applies :
    CreatedBefore key value (effects++[.applies config]) ↔ config.value key=none ∧
      config.wipes (lastApplied (history effects))=false ∧ CreatedBefore key value effects := by
  rw [createdBefore_concat]
  constructor
  · rintro (⟨created,h,-⟩|⟨heffect,before,created,after,rfl,hvalue,hafter,hpairs,hlast⟩)
    · cases h
    · have hnone : config.value key=none := by
        rcases heffect with h|⟨applied,h,hnone⟩
        · cases h
        · cases h
          exact hnone
      refine ⟨hnone,?_,before,created,after,rfl,hvalue,hafter,hpairs⟩
      cases hempty : config.isEmpty with
      | false => rw [Config.wipes,hempty,Bool.false_and]
      | true =>
        have hnever : ∀ earlier∈after,¬Fills earlier :=
          fun earlier he hfills => hlast earlier he ⟨hfills,empties_applies.mpr hempty⟩
        rw [Config.wipes,(lastApplied_created hafter hpairs).mpr hnever,Bool.not_true,Bool.and_false]
  · rintro ⟨hnone,hwipes,before,created,after,rfl,hvalue,hafter,hpairs⟩
    refine .inr ⟨.inr ⟨config,rfl,hnone⟩,before,created,after,rfl,hvalue,hafter,hpairs,?_⟩
    rintro earlier he ⟨hfills,hempties⟩
    rw [Config.wipes,empties_applies.mp hempties,Bool.true_and,Bool.not_eq_false',
      lastApplied_created hafter hpairs] at hwipes
    exact hwipes earlier he hfills

end Concat

/-- What is remembered is what the last write applied. -/
theorem lastApplied_history_iff {effects : List (Effect K V)} {key : K} {value : V} :
    (lastApplied (history effects)).value key=some value ↔ AppliedLast key value effects := by
  induction effects using List.reverseRecOn with
  | nil => exact iff_of_false (fun h => by cases h) since_nil
  | append_singleton effects effect ih =>
    rw [history_concat]
    cases effect with
    | keeps =>
      rw [appliedLast_keeps]
      exact ih
    | removes => exact iff_of_false (fun h => by cases h) not_appliedLast_removes
    | recreates config => exact iff_of_false (fun h => by cases h) not_appliedLast_recreates
    | applies config => rw [lastApplied_applies,appliedLast_applies]

/-- An empty configuration takes everything away exactly if the last write applied something. -/
theorem wipes_history_iff {effects : List (Effect K V)} {config : Config K V} :
    config.wipes (lastApplied (history effects))=true ↔
      config.isEmpty=true ∧ ∃ key value,AppliedLast key value effects := by
  rw [Config.wipes,Bool.and_eq_true,Bool.not_eq_true',Config.isEmpty_false_iff]
  simp only [lastApplied_history_iff]

/-- What was applied last is not what was created before. -/
theorem AppliedLast.not_created {effects : List (Effect K V)} {key : K} {value other : V}
    (h : AppliedLast key value effects) : ¬CreatedBefore key other effects := by
  induction effects using List.reverseRecOn with
  | nil => exact absurd h since_nil
  | append_singleton effects effect ih =>
    cases effect with
    | keeps =>
      rw [appliedLast_keeps] at h
      rw [createdBefore_keeps]
      exact ih h
    | removes => exact absurd h not_appliedLast_removes
    | recreates config => exact absurd h not_appliedLast_recreates
    | applies config =>
      rw [appliedLast_applies] at h
      rw [createdBefore_applies,h]
      rintro ⟨hnone,-⟩
      cases hnone

/-- What is there was applied last, or was created, not named since and not taken away with
everything else. -/
theorem liveAt_history_iff {effects : List (Effect K V)} {key : K} {value : V} :
    liveAt (history effects) key=some value ↔
      AppliedLast key value effects ∨ CreatedBefore key value effects := by
  induction effects using List.reverseRecOn with
  | nil => exact iff_of_false (fun h => by cases h) (not_or.mpr ⟨since_nil,createdBefore_nil⟩)
  | append_singleton effects effect ih =>
    rw [history_concat]
    cases effect with
    | keeps =>
      rw [appliedLast_keeps,createdBefore_keeps]
      exact ih
    | removes =>
      exact iff_of_false (fun h => by cases h)
        (not_or.mpr ⟨not_appliedLast_removes,not_createdBefore_removes⟩)
    | recreates config =>
      rw [createdBefore_recreates,or_iff_right not_appliedLast_recreates]
      exact Iff.rfl
    | applies config =>
      rw [liveAt_applies,appliedLast_applies,createdBefore_applies]
      cases hconfig : config.value key with
      | some found => simp
      | none =>
        rw [Option.none_or,or_iff_right (Option.some_ne_none value).symm,and_iff_right rfl]
        cases hlast : (lastApplied (history effects)).value key with
        | some found =>
          have happlied := lastApplied_history_iff.mp hlast
          exact iff_of_false (fun h => by cases h) (fun h => happlied.not_created h.2)
        | none =>
          have hnever : ¬AppliedLast key value effects := by
            rw [←lastApplied_history_iff,hlast]
            exact fun h => by cases h
          cases hwipes : config.wipes (lastApplied (history effects)) with
          | true => exact iff_of_false (fun h => by cases h) (fun h => by cases h.1)
          | false =>
            rw [and_iff_right rfl]
            exact ih.trans (or_iff_right hnever)

/-- Applying a configuration leaves nothing else exactly if it has no entry and takes away
what the last one had, or it names all that was created and not named since. -/
theorem applied_exact_iff {effects : List (Effect K V)} {config : Config K V} :
    (∀ key,liveAt ((Effect.applies config).act (history effects)) key=config.value key) ↔
      (config.isEmpty=true ∧ ∃ key value,AppliedLast key value effects) ∨
        ∀ key value,CreatedBefore key value effects → ∃ kept,config.value key=some kept := by
  rw [←wipes_history_iff]
  constructor
  · intro hexact
    rw [or_iff_not_imp_left]
    intro hwipes key value hcreated
    have hkey := hexact key
    cases hconfig : config.value key with
    | some kept => exact ⟨kept,rfl⟩
    | none =>
      have hlast : (lastApplied (history effects)).value key=none := by
        rw [Option.eq_none_iff_forall_ne_some]
        exact fun other h => (lastApplied_history_iff.mp h).not_created hcreated
      rw [liveAt_applies,hconfig,hlast,Bool.eq_false_iff.mpr hwipes,
        liveAt_history_iff.mpr (.inr hcreated)] at hkey
      cases hkey
  · intro hnamed key
    rw [liveAt_applies]
    cases hconfig : config.value key with
    | some kept => rfl
    | none =>
      rw [Option.none_or]
      split
      · rfl
      · rename_i hlast
        rw [Bool.or_eq_true,not_or] at hlast
        rw [Option.eq_none_iff_forall_ne_some]
        intro value hlive
        rcases liveAt_history_iff.mp hlive with happlied|hcreated
        · rw [lastApplied_history_iff.mpr happlied] at hlast
          exact hlast.1 rfl
        · obtain ⟨kept,hkept⟩ := hnamed.resolve_left hlast.2 key value hcreated
          rw [hconfig] at hkept
          cases hkept

/-- An object that was never created anew is the configuration last applied. -/
theorem history_applied {effects : List (Effect K V)}
    (hnone : ∀ effect∈effects,∀ config,effect≠.recreates config) {object : Managed K V}
    (h : history effects=some object) :
    object.lastApplied.value=object.live ∧
      Since (fun effect => effect=.applies object.lastApplied) (fun effect => effect=.keeps)
        effects := by
  induction effects using List.reverseRecOn generalizing object with
  | nil => cases h
  | append_singleton effects effect ih =>
    have hbefore : ∀ effect∈effects,∀ config,effect≠.recreates config :=
      fun other hother => hnone other (List.mem_append_left _ hother)
    rw [history_concat] at h
    rw [since_concat]
    cases effect with
    | keeps =>
      obtain ⟨hlast,hsince⟩ := ih hbefore h
      exact ⟨hlast,.inr ⟨rfl,hsince⟩⟩
    | removes => cases h
    | recreates config => exact absurd rfl (hnone _ (List.mem_append_right _ (by simp)) config)
    | applies config =>
      suffices hobject : object=⟨config.value,config⟩ by
        rw [hobject]
        exact ⟨rfl,.inl rfl⟩
      cases hhistory : history effects with
      | none =>
        rw [hhistory] at h
        exact (Option.some.inj h).symm
      | some found =>
        rw [hhistory] at h
        rw [←Option.some.inj h]
        obtain ⟨hlast,-⟩ := ih hbefore hhistory
        simp only [Managed.apply,Managed.mk.injEq,and_true]
        funext key
        rw [hlast]
        cases found.live key <;> simp

/-- One that none was applied to is the configuration it was last created with. -/
theorem history_created {effects : List (Effect K V)}
    (hnone : ∀ effect∈effects,∀ config,effect≠.applies config) {object : Managed K V}
    (h : history effects=some object) :
    Since (fun effect => ∃ config,effect=.recreates config ∧ object.live=config.value)
      (fun effect => effect=.keeps) effects := by
  induction effects using List.reverseRecOn with
  | nil => cases h
  | append_singleton effects effect ih =>
    rw [history_concat] at h
    rw [since_concat]
    cases effect with
    | keeps =>
      exact .inr ⟨rfl,ih (fun other hother => hnone other (List.mem_append_left _ hother)) h⟩
    | removes => cases h
    | recreates config =>
      rw [←Option.some.inj h]
      exact .inl ⟨config,rfl,rfl⟩
    | applies config => exact absurd rfl (hnone _ (List.mem_append_right _ (by simp)) config)

end MlopsPlatform.ConfigApply
