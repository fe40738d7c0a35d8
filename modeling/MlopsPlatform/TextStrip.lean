import MlopsPlatform.TextLines
import Mathlib.Data.List.DropRight

/-!
# Stripping surrounding whitespace

`strip` is characterised by its parts: a string is some whitespace, its
stripped core, and more whitespace, and the core neither starts nor ends with
whitespace. Everything else follows from that decomposition being unique.
-/

namespace MlopsPlatform.TextStrip

open TextCodec TextLines

/-- `str.strip` without an argument. -/
def strip (s : Str) : Str := (s.dropWhile isSpace).rdropWhile isSpace

/-- A string of whitespace only, the empty one included. -/
def Blank (s : Str) : Prop := ∀ c∈s,isSpace c=true

/-- A string that neither starts nor ends with whitespace. -/
structure Trimmed (s : Str) : Prop where
  /-- The first character, if any. -/
  head : ∀ c,s.head?=some c → isSpace c=false
  /-- The last character, if any. -/
  last : ∀ c,s.getLast?=some c → isSpace c=false

instance (s : Str) : Decidable (Blank s) := inferInstanceAs (Decidable (∀ c∈s,isSpace c=true))

theorem blank_nil : Blank [] := fun _ h => absurd h List.not_mem_nil

/-- A string without whitespace has none at its ends. -/
theorem trimmed_of_not_space {s : Str} (hs : ∀ c∈s,isSpace c=false) : Trimmed s :=
  ⟨fun c h => hs c (List.mem_of_mem_head? h),fun c h => hs c (List.mem_of_getLast? h)⟩

/-- Nothing is stripped from a trimmed string. -/
theorem strip_of_trimmed {s : Str} (hs : Trimmed s) : strip s=s := by
  have hd : s.dropWhile isSpace=s := by
    cases s with
    | nil => rfl
    | cons c s =>
      have hc := hs.head c rfl
      simp only [List.dropWhile_cons,hc,Bool.false_eq_true,if_false]
  rw [strip,hd,List.rdropWhile_eq_self_iff]
  intro hne
  rw [hs.last _ (List.getLast?_eq_some_getLast hne)]
  exact Bool.false_ne_true

/-- Stripping ignores whitespace added at either end. -/
theorem strip_append {l m r : Str} (hl : Blank l) (hr : Blank r) :
    strip (l++m++r)=strip m := by
  have hdrop : ∀ t : Str,(l++t).dropWhile isSpace=t.dropWhile isSpace := by
    intro t
    induction l with
    | nil => rfl
    | cons c l ih =>
      rw [List.cons_append,List.dropWhile_cons,if_pos (hl c List.mem_cons_self)]
      exact ih (fun x hx => hl x (List.mem_cons_of_mem _ hx))
  have hrdrop : ∀ t : Str,(t++r).rdropWhile isSpace=t.rdropWhile isSpace := by
    intro t
    induction r using List.reverseRecOn with
    | nil => rw [List.append_nil]
    | append_singleton r c ih =>
      have hc := hr c (List.mem_append_right _ (List.mem_singleton_self c))
      rw [←List.append_assoc,List.rdropWhile_concat_pos _ _ _ hc]
      exact ih (fun x hx => hr x (List.mem_append_left _ hx))
  rw [List.append_assoc,strip,hdrop,strip]
  by_cases hm : Blank m
  · have hall : Blank (m++r) := by
      intro c hc
      rcases List.mem_append.mp hc with h|h
      · exact hm c h
      · exact hr c h
    rw [List.dropWhile_eq_nil_iff.mpr hall,List.dropWhile_eq_nil_iff.mpr hm]
  · have hsplit : (m++r).dropWhile isSpace=m.dropWhile isSpace++r := by
      rw [List.dropWhile_append,if_neg]
      rw [List.isEmpty_iff,List.dropWhile_eq_nil_iff]
      exact hm
    rw [hsplit,hrdrop]

/-- A string is whitespace, its stripped core, and whitespace. -/
theorem strip_parts (s : Str) : ∃ l r,s=l++strip s++r ∧ Blank l ∧ Blank r := by
  refine ⟨s.takeWhile isSpace,(s.dropWhile isSpace).rtakeWhile isSpace,?_,?_,?_⟩
  · rw [strip,List.append_assoc,List.rdropWhile_append_rtakeWhile,List.takeWhile_append_dropWhile]
  · exact fun c hc => List.mem_takeWhile_imp hc
  · exact fun c hc => List.mem_rtakeWhile_imp hc

/-- What is stripped to nothing is whitespace only. -/
theorem strip_eq_nil_iff {s : Str} : strip s=[] ↔ Blank s := by
  constructor
  · intro h
    obtain ⟨l,r,hs,hl,hr⟩ := strip_parts s
    rw [h,List.append_nil] at hs
    intro c hc
    rw [hs] at hc
    exact (List.mem_append.mp hc).elim (hl c) (hr c)
  · intro h
    rw [strip,List.dropWhile_eq_nil_iff.mpr h,List.rdropWhile_nil]

/-- Stripping introduces no character. -/
theorem mem_of_mem_strip {s : Str} {c : CodePoint} (h : c∈strip s) : c∈s := by
  obtain ⟨l,r,hs,-,-⟩ := strip_parts s
  rw [hs]
  exact List.mem_append_left _ (List.mem_append_right _ h)

/-- What remains after stripping has no whitespace at its ends. -/
theorem strip_trimmed (s : Str) : Trimmed (strip s) := by
  constructor
  · intro c hc
    have hne : strip s≠[] := by
      rintro h
      rw [h] at hc
      cases hc
    have hp : strip s <+: s.dropWhile isSpace := List.rdropWhile_prefix _ _
    obtain ⟨t,ht⟩ := hp
    have hh : (s.dropWhile isSpace).head?=some c := by
      rw [←ht,List.head?_append,hc]
      rfl
    have hn := List.head?_dropWhile_not isSpace s
    rw [hh] at hn
    simpa using hn
  · intro c hc
    by_contra h
    have hne : strip s≠[] := by
      rintro hz
      rw [hz] at hc
      cases hc
    have hl := List.rdropWhile_last_not isSpace (s.dropWhile isSpace) hne
    rw [List.getLast?_eq_some_getLast hne,Option.some.injEq] at hc
    have hc' : (List.rdropWhile isSpace (s.dropWhile isSpace)).getLast hne=c := hc
    rw [hc'] at hl
    exact h (Bool.eq_false_of_not_eq_true hl)

/-- A first character that is not whitespace stays first. -/
theorem strip_head {c : CodePoint} (hc : isSpace c=false) (s : Str) :
    (strip (c::s)).head?=some c := by
  obtain ⟨l,r,hs,hl,hr⟩ := strip_parts (c::s)
  cases l with
  | cons x l =>
    have hx := hl x List.mem_cons_self
    have hcx : some c=some x := congrArg List.head? hs
    rw [←Option.some.inj hcx,hc] at hx
    cases hx
  | nil =>
    rw [List.nil_append] at hs
    cases hst : strip (c::s) with
    | nil =>
      rw [hst,List.nil_append] at hs
      have hx := hr c (hs ▸ List.mem_cons_self)
      rw [hc] at hx
      cases hx
    | cons x t =>
      rw [hst] at hs
      exact (congrArg List.head? hs).symm

/-- Around a character that is not whitespace, only the two ends are stripped. -/
theorem strip_middle {c : CodePoint} (hc : isSpace c=false) (u v : Str) :
    strip (u++c::v)=u.dropWhile isSpace++c::v.rdropWhile isSpace := by
  have hlast : ∀ w : Str,(w++c::v).rdropWhile isSpace=w++c::v.rdropWhile isSpace := by
    intro w
    induction v using List.reverseRecOn with
    | nil =>
      rw [List.rdropWhile_nil,List.rdropWhile_concat_neg _ _ _ (by rw [hc]; exact Bool.false_ne_true)]
    | append_singleton v x ih =>
      rw [←List.cons_append,←List.append_assoc]
      by_cases hx : isSpace x=true
      · rw [List.rdropWhile_concat_pos _ _ _ hx,List.rdropWhile_concat_pos _ _ _ hx]
        exact ih
      · rw [List.rdropWhile_concat_neg _ _ _ hx,List.rdropWhile_concat_neg _ _ _ hx,
          List.append_assoc,List.cons_append]
  have hfirst : (u++c::v).dropWhile isSpace=u.dropWhile isSpace++c::v := by
    rw [List.dropWhile_append]
    split
    · rename_i hu
      rw [List.isEmpty_iff.mp hu,List.dropWhile_cons,hc]
      rfl
    · rfl
  rw [strip,hfirst,hlast]

/-- Whitespace at the end of a string is stripped anyway. -/
theorem strip_rdropWhile (s : Str) : strip (s.rdropWhile isSpace)=strip s := by
  have hr : Blank (s.rtakeWhile isSpace) := fun c hc => List.mem_rtakeWhile_imp hc
  have hs := strip_append (m := s.rdropWhile isSpace) blank_nil hr
  rw [List.nil_append,List.rdropWhile_append_rtakeWhile] at hs
  exact hs.symm

/-- Nothing but the whitespace before a trimmed string is dropped. -/
theorem dropWhile_padded {l m r : Str} (hl : Blank l) (hm : Trimmed m) (hne : m≠[]) :
    (l++m++r).dropWhile isSpace=m++r := by
  obtain ⟨c,rest,rfl⟩ := List.exists_cons_of_ne_nil hne
  have hdrop : l.dropWhile isSpace=[] := List.dropWhile_eq_nil_iff.mpr hl
  rw [List.append_assoc,List.dropWhile_append,hdrop,List.isEmpty_nil,if_pos rfl,List.cons_append,
    List.dropWhile_cons_of_neg (by rw [hm.head c rfl]; exact Bool.false_ne_true)]

/-- What is stripped starts where the whitespace before it ends. -/
theorem head?_strip (s : Str) : (strip s).head?=(s.dropWhile isSpace).head? := by
  cases h : s.dropWhile isSpace with
  | nil =>
    rw [strip,h]
    rfl
  | cons c rest =>
    have hc : isSpace c=false := by
      have hn := List.head?_dropWhile_not isSpace s
      rw [h] at hn
      simpa using hn
    have hs : s=s.takeWhile isSpace++(c::rest)++[] := by
      rw [←h,List.append_nil,List.takeWhile_append_dropWhile]
    have hl : Blank (s.takeWhile isSpace) := fun x hx => List.mem_takeWhile_imp hx
    rw [hs,strip_append hl blank_nil]
    exact strip_head hc rest

end MlopsPlatform.TextStrip
