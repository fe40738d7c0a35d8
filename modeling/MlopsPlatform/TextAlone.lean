import Mathlib.Data.List.DropRight
import Mathlib.Data.List.Infix
import Mathlib.Tactic.Common

/-!
# Standing alone in a text

A list stands alone in another one if the elements next to it, where there are
any, cannot be inside a token. The search keeps the element before the place it
looks at. What stands alone still does without elements at its ends that cannot
be inside a token, and what is stripped at both ends may be stripped again.
-/

namespace MlopsPlatform.TextAlone

variable {α : Type*}

/-- Nothing that is inside a token, or nothing at all. -/
def Outside (inside : α→Bool) (next : Option α) : Prop := ∀ c,next=some c → inside c=false

instance (inside : α→Bool) (next : Option α) : Decidable (Outside inside next) :=
  match next with
  | none => isTrue (fun _ h => by cases h)
  | some c => decidable_of_iff (inside c=false) ⟨fun h d hd => Option.some.inj hd ▸ h,
      fun h => h c rfl⟩

/-- It stands in the text with nothing inside a token next to it. -/
def Alone (inside : α→Bool) (value text : List α) : Prop :=
  ∃ before after,text=before++value++after ∧ Outside inside before.getLast? ∧
    Outside inside after.head?

/-- The search from some place on, with the element before it. -/
def aloneFrom [DecidableEq α] (inside : α→Bool) (value : List α) : Option α→List α→Bool
  | prev,[] => decide (Outside inside prev) && value.isEmpty
  | prev,c::s =>
    (decide (Outside inside prev) && value.isPrefixOf (c::s) &&
      decide (Outside inside ((c::s).drop value.length).head?)) ||
        aloneFrom inside value (some c) s

/-- The search. -/
def alone [DecidableEq α] (inside : α→Bool) (value text : List α) : Bool :=
  aloneFrom inside value none text

/-- Stripping at both ends. -/
def stripBy (p : α→Bool) (s : List α) : List α := (s.dropWhile p).rdropWhile p

variable {inside p : α→Bool} {value text : List α}

theorem outside_none : Outside inside none := fun _ h => by cases h

/-- What the search finds from some place on. -/
theorem aloneFrom_iff [DecidableEq α] (value : List α) (prev : Option α) (text : List α) :
    aloneFrom inside value prev text=true ↔ ∃ before after,text=before++value++after ∧
      Outside inside (before.getLast?.or prev) ∧ Outside inside after.head? := by
  induction text generalizing prev with
  | nil =>
    simp only [aloneFrom,Bool.and_eq_true,decide_eq_true_eq,List.isEmpty_iff]
    constructor
    · rintro ⟨hprev,rfl⟩
      exact ⟨[],[],rfl,hprev,outside_none⟩
    · rintro ⟨before,after,hparts,hbefore,-⟩
      have hnil : before=[] ∧ value=[] ∧ after=[] := by
        simpa [and_assoc] using hparts.symm
      rw [hnil.1] at hbefore
      exact ⟨hbefore,hnil.2.1⟩
  | cons c s ih =>
    simp only [aloneFrom,Bool.or_eq_true,Bool.and_eq_true,decide_eq_true_eq,
      List.isPrefixOf_iff_prefix,ih]
    constructor
    · rintro (⟨⟨hprev,after,ha⟩,hafter⟩|⟨before,after,rfl,hbefore,hafter⟩)
      · refine ⟨[],after,ha.symm,hprev,?_⟩
        rwa [←ha,List.drop_left] at hafter
      · refine ⟨c::before,after,rfl,?_,hafter⟩
        cases before with
        | nil => exact hbefore
        | cons d before => exact hbefore
    · rintro ⟨before,after,hparts,hbefore,hafter⟩
      cases before with
      | nil =>
        refine Or.inl ⟨⟨hbefore,after,hparts.symm⟩,?_⟩
        rw [hparts,List.nil_append,List.drop_left]
        exact hafter
      | cons d before =>
        rw [List.cons_append,List.cons_append,List.cons.injEq] at hparts
        obtain ⟨rfl,rfl⟩ := hparts
        refine Or.inr ⟨before,after,rfl,?_,hafter⟩
        cases before with
        | nil => exact hbefore
        | cons d before => exact hbefore

/-- The search finds what stands alone. -/
theorem alone_iff [DecidableEq α] : alone inside value text=true ↔ Alone inside value text := by
  rw [alone,aloneFrom_iff,Alone]
  simp only [Option.or_none]

/-- Elements that cannot be inside a token may be taken off the ends. -/
theorem Alone.core {l core r : List α} (h : Alone inside (l++core++r) text)
    (hl : ∀ c∈l,inside c=false) (hr : ∀ c∈r,inside c=false) : Alone inside core text := by
  obtain ⟨before,after,rfl,hbefore,hafter⟩ := h
  refine ⟨before++l,r++after,by simp only [List.append_assoc],fun c hc => ?_,fun c hc => ?_⟩
  · rw [List.getLast?_append,Option.or_eq_some_iff] at hc
    rcases hc with hc|⟨-,hc⟩
    · exact hl c (List.mem_of_getLast? hc)
    · exact hbefore c hc
  · rw [List.head?_append,Option.or_eq_some_iff] at hc
    rcases hc with hc|⟨-,hc⟩
    · exact hr c (List.mem_of_mem_head? hc)
    · exact hafter c hc

/-- What is stripped, and what is left. -/
theorem stripBy_parts (p : α→Bool) (s : List α) :
    ∃ l r,s=l++stripBy p s++r ∧ (∀ c∈l,p c=true) ∧ ∀ c∈r,p c=true := by
  refine ⟨s.takeWhile p,(s.dropWhile p).rtakeWhile p,?_,?_,?_⟩
  · rw [stripBy,List.append_assoc,List.rdropWhile_append_rtakeWhile,List.takeWhile_append_dropWhile]
  · exact fun c hc => List.mem_takeWhile_imp hc
  · exact fun c hc => List.mem_rtakeWhile_imp hc

theorem stripBy_cons {c : α} (hc : p c=true) (s : List α) : stripBy p (c::s)=stripBy p s := by
  rw [stripBy,List.dropWhile_cons,if_pos hc,stripBy]

theorem stripBy_concat {c : α} (hc : p c=true) (s : List α) :
    stripBy p (s++[c])=stripBy p s := by
  unfold stripBy
  rw [List.dropWhile_append]
  by_cases hall : (s.dropWhile p).isEmpty=true
  · rw [if_pos hall,List.dropWhile_cons,if_pos hc,List.dropWhile_nil,List.isEmpty_iff.mp hall]
  · rw [if_neg hall,List.rdropWhile_concat_pos _ _ _ hc]

end MlopsPlatform.TextAlone
