import Mathlib.Data.List.Infix
import Mathlib.Tactic.Common

/-!
# Cutting lists at separators

A list is cut at the first occurrence of one element, or at every occurrence
of a separator of several elements, from the left and without overlap. A
separator may overlap itself, so a part is given back only if no occurrence
begins in it: the part followed by all of the separator but its last element
must not contain the separator.
-/

namespace MlopsPlatform.TextSeparators

variable {α : Type*} [DecidableEq α]

/-- `s.partition(c)`: what precedes the first `c`, that `c`, what follows. -/
def partition (c : α) : List α→List α×List α×List α
  | [] => ([],[],[])
  | x::s =>
    if x=c then ([],[c],s)
    else (x::(partition c s).1,(partition c s).2.1,(partition c s).2.2)

/-- Without the separator everything precedes it. -/
theorem partition_absent {c : α} {s : List α} (h : c∉s) : partition c s=(s,[],[]) := by
  induction s with
  | nil => rfl
  | cons x s ih =>
    rw [List.mem_cons,not_or] at h
    simp only [partition,if_neg (Ne.symm h.1),ih h.2]

/-- The first occurrence is the one with none before it. -/
theorem partition_first {c : α} {s : List α} (h : c∉s) (t : List α) :
    partition c (s++c::t)=(s,[c],t) := by
  induction s with
  | nil => simp only [List.nil_append,partition,if_true]
  | cons x s ih =>
    rw [List.mem_cons,not_or] at h
    simp only [List.cons_append,partition,if_neg (Ne.symm h.1),ih h.2]

/-- A list has no separator or a first one. -/
theorem exists_partition (c : α) (s : List α) : c∉s ∨ ∃ u v,s=u++c::v ∧ c∉u := by
  by_cases h : c∈s
  · obtain ⟨u,v,hs,hu⟩ := List.eq_append_cons_of_mem h
    exact Or.inr ⟨u,v,hs,hu⟩
  · exact Or.inl h

omit [DecidableEq α] in
/-- Two parts with a separator between them are known from the whole, unless
the whole holds another separator: then the one between may stand elsewhere. -/
theorem append_cons_eq_iff {c : α} {s t s' t' : List α} :
    s++c::t=s'++c::t' ↔ (s=s' ∧ t=t') ∨
      ∃ w,(s'=s++c::w ∧ t=w++c::t') ∨ (s=s'++c::w ∧ t'=w++c::t) := by
  have hhalf : ∀ {s t s' t' w : List α},s'=s++w → c::t=w++c::t' →
      (s=s' ∧ t=t') ∨ ∃ w,s'=s++c::w ∧ t=w++c::t' := by
    intro s t s' t' w hs ht
    cases w with
    | nil =>
      rw [List.append_nil] at hs
      exact Or.inl ⟨hs.symm,(List.cons.inj ht).2⟩
    | cons d w =>
      obtain ⟨hd,htail⟩ := List.cons.inj ht
      rw [←hd] at hs
      exact Or.inr ⟨w,hs,htail⟩
  constructor
  · intro h
    rcases List.append_eq_append_iff.mp h with ⟨w,hs,ht⟩|⟨w,hs,ht⟩
    · exact (hhalf hs ht).imp_right (fun ⟨w,hw⟩ => ⟨w,Or.inl hw⟩)
    · rcases hhalf hs ht with ⟨hs,ht⟩|⟨w,hw⟩
      · exact Or.inl ⟨hs.symm,ht.symm⟩
      · exact Or.inr ⟨w,Or.inr hw⟩
  · rintro (⟨rfl,rfl⟩|⟨w,⟨rfl,rfl⟩|⟨rfl,rfl⟩⟩)
    · rfl
    · rw [List.append_assoc,List.cons_append]
    · rw [List.append_assoc,List.cons_append]

/-- No occurrence of the separator begins inside the part. -/
def Separable (separator part : List α) : Prop := ¬separator<:+:part++separator.dropLast

instance (separator part : List α) : Decidable (Separable separator part) :=
  inferInstanceAs (Decidable (¬_))

/-- Prepend an element to the first part. -/
def consPart (x : α) : List (List α)→List (List α)
  | [] => [[x]]
  | part::parts => (x::part)::parts

/-- `s.split(separator)`, with the number of elements of a matched separator
that are still to be passed over. -/
def splitFrom (separator : List α) : ℕ→List α→List (List α)
  | _,[] => [[]]
  | 0,x::s =>
    if separator<+:x::s then []::splitFrom separator (separator.length-1) s
    else consPart x (splitFrom separator 0 s)
  | n+1,_::s => splitFrom separator n s

/-- `s.split(separator)` -/
def split (separator s : List α) : List (List α) := splitFrom separator 0 s

/-- `s.count(separator)`, passing over matched separators like `split`. -/
def countFrom (separator : List α) : ℕ→List α→ℕ
  | _,[] => 0
  | 0,x::s =>
    if separator<+:x::s then countFrom separator (separator.length-1) s+1
    else countFrom separator 0 s
  | n+1,_::s => countFrom separator n s

/-- `s.count(separator)` -/
def count (separator s : List α) : ℕ := countFrom separator 0 s

variable {separator : List α}

theorem splitFrom_ne_nil (n : ℕ) (s : List α) : splitFrom separator n s≠[] := by
  induction n,s using splitFrom.induct separator with
  | case1 => exact List.cons_ne_nil _ _
  | case2 x s h ih =>
    simp only [splitFrom,if_pos h]
    exact List.cons_ne_nil _ _
  | case3 x s h ih =>
    simp only [splitFrom,if_neg h]
    cases splitFrom separator 0 s <;> exact List.cons_ne_nil _ _
  | case4 n x s ih => exact ih

/-- There is one part more than there are separators. -/
theorem length_splitFrom (n : ℕ) (s : List α) :
    (splitFrom separator n s).length=countFrom separator n s+1 := by
  induction n,s using splitFrom.induct separator with
  | case1 => simp only [splitFrom,countFrom,List.length_singleton]
  | case2 x s h ih => simp only [splitFrom,countFrom,if_pos h,List.length_cons,ih]
  | case3 x s h ih =>
    simp only [splitFrom,countFrom,if_neg h]
    rw [←ih]
    cases hs : splitFrom separator 0 s with
    | nil => exact absurd hs (splitFrom_ne_nil 0 s)
    | cons part parts => rfl
  | case4 n x s ih => exact ih

theorem length_split (s : List α) : (split separator s).length=count separator s+1 :=
  length_splitFrom 0 s

/-- The rest of a matched separator is passed over. -/
theorem splitFrom_append (u s : List α) :
    splitFrom separator u.length (u++s)=splitFrom separator 0 s := by
  induction u with
  | nil => rfl
  | cons x u ih =>
    rw [List.length_cons,List.cons_append,splitFrom]
    exact ih

/-- A list without the separator is one part. -/
theorem split_absent {s : List α} (h : ¬separator<:+:s) : split separator s=[s] := by
  unfold split
  induction s with
  | nil => rfl
  | cons x s ih =>
    rw [List.infix_cons_iff,not_or] at h
    rw [splitFrom,if_neg h.1,ih h.2]
    rfl

/-- A part in which no separator begins is split off whole. -/
theorem split_first (hne : separator≠[]) {part : List α} (hp : Separable separator part)
    (s : List α) : split separator (part++separator++s)=part::split separator s := by
  unfold split
  induction part with
  | nil =>
    cases separator with
    | nil => exact absurd rfl hne
    | cons x rest =>
      have hprefix : x::rest<+:x::(rest++s) := ⟨s,rfl⟩
      rw [List.nil_append,List.cons_append,splitFrom,if_pos hprefix]
      exact congrArg _ (splitFrom_append rest s)
  | cons x part ih =>
    rw [Separable,List.cons_append,List.infix_cons_iff,not_or] at hp
    have hprefix : ¬separator<+:x::(part++separator++s) := by
      intro h
      have hlong : separator.length≤(x::(part++separator.dropLast)).length := by
        rw [List.length_cons,List.length_append,List.length_dropLast]
        omega
      have hwhole : x::(part++separator.dropLast)<+:x::(part++separator++s) := by
        refine (List.prefix_cons_inj x).mpr ?_
        rw [List.append_assoc,List.prefix_append_right_inj]
        exact (List.dropLast_prefix _).trans (List.prefix_append _ _)
      exact hp.1 (List.prefix_of_prefix_length_le h hwhole hlong)
    rw [List.cons_append,List.cons_append,splitFrom,if_neg hprefix,ih hp.2]
    rfl

/-- A list without the one element that separates is one part. -/
theorem split_single_absent {c : α} {s : List α} (h : c∉s) : split [c] s=[s] :=
  split_absent (fun hi => h (hi.subset (List.mem_singleton_self c)))

/-- At its first occurrence one element splits off a part. -/
theorem split_single_first {c : α} {part : List α} (h : c∉part) (s : List α) :
    split [c] (part++c::s)=part::split [c] s := by
  have hseparable : Separable [c] part := by
    intro hi
    rw [List.dropLast_singleton,List.append_nil] at hi
    exact h (hi.subset (List.mem_singleton_self c))
  have hsplit := split_first (List.cons_ne_nil c []) hseparable s
  rwa [List.append_assoc,List.singleton_append] at hsplit

/-- A list that contains the separator contains a first one. -/
theorem exists_first (hne : separator≠[]) {s : List α} (h : separator<:+:s) :
    ∃ part rest,s=part++separator++rest ∧ Separable separator part := by
  induction s with
  | nil => exact absurd (List.infix_nil.mp h) hne
  | cons x s ih =>
    by_cases hp : separator<+:x::s
    · obtain ⟨rest,hr⟩ := hp
      refine ⟨[],rest,hr.symm,fun hi => ?_⟩
      have hl := hi.length_le
      rw [List.nil_append,List.length_dropLast] at hl
      have hpos := List.length_pos_iff.mpr hne
      omega
    · obtain ⟨part,rest,rfl,hpart⟩ := ih ((List.infix_cons_iff.mp h).resolve_left hp)
      refine ⟨x::part,rest,rfl,fun hi => ?_⟩
      rw [List.cons_append] at hi
      rcases List.infix_cons_iff.mp hi with hi|hi
      · refine hp (hi.trans ((List.prefix_cons_inj x).mpr ?_))
        rw [List.append_assoc,List.prefix_append_right_inj]
        exact (List.dropLast_prefix _).trans (List.prefix_append _ _)
      · exact hpart hi

/-- Two parts come from exactly one list, cut where its separator begins. -/
theorem split_eq_pair (hne : separator≠[]) {s part rest : List α} :
    split separator s=[part,rest] ↔
      s=part++separator++rest ∧ Separable separator part ∧ ¬separator<:+:rest := by
  constructor
  · intro h
    by_cases hs : separator<:+:s
    · obtain ⟨first,more,rfl,hfirst⟩ := exists_first hne hs
      rw [split_first hne hfirst,List.cons.injEq] at h
      obtain ⟨rfl,h⟩ := h
      by_cases hm : separator<:+:more
      · obtain ⟨second,others,rfl,hsecond⟩ := exists_first hne hm
        rw [split_first hne hsecond,List.cons.injEq] at h
        exact absurd h.2 (splitFrom_ne_nil 0 others)
      · rw [split_absent hm,List.cons.injEq] at h
        obtain ⟨rfl,-⟩ := h
        exact ⟨rfl,hfirst,hm⟩
    · rw [split_absent hs] at h
      cases h
  · rintro ⟨rfl,hpart,hrest⟩
    rw [split_first hne hpart,split_absent hrest]

/-- One separator is what two parts have between them. -/
theorem count_eq_one_iff {s : List α} :
    count separator s=1 ↔ ∃ part rest,split separator s=[part,rest] := by
  have hl : (split separator s).length=count separator s+1 := length_split s
  constructor
  · intro h
    rw [h] at hl
    exact List.length_eq_two.mp hl
  · rintro ⟨part,rest,h⟩
    rw [h] at hl
    simpa using hl.symm

end MlopsPlatform.TextSeparators
