import MlopsPlatform.TextSeparators

/-!
# Replacing what stands between two marks

A stretch starts at an opening mark and ends with the first closing mark behind
it. Every stretch is replaced, from left to right, as a search with a lazy
pattern finds them. Text in which no opening mark begins is kept.
-/

namespace MlopsPlatform.TextDelimited

open TextSeparators

variable {α : Type*} [DecidableEq α]

/-- Where a list begins in another one for the first time. -/
def find (mark : List α) : List α→Option ℕ
  | [] => if mark=[] then some 0 else none
  | x::s => if mark<+:x::s then some 0 else (find mark s).map (· +1)

/-- Every stretch is replaced. What a stretch covers is passed over, element by
element, as the first argument counts. -/
def replaceFrom (opening closing new : List α) : ℕ→List α→List α
  | _,[] => []
  | n+1,_::s => replaceFrom opening closing new n s
  | 0,x::s =>
    if opening<+:x::s then
      match find closing (s.drop (opening.length-1)) with
      | some inner => new++replaceFrom opening closing new (opening.length-1+inner+closing.length) s
      | none => x::replaceFrom opening closing new 0 s
    else x::replaceFrom opening closing new 0 s

/-- Every stretch is replaced. -/
def replaceDelimited (opening closing new s : List α) : List α :=
  replaceFrom opening closing new 0 s

variable {opening closing new mark : List α}

omit [DecidableEq α] in
/-- A mark that does not begin where a part does, does not do so before what follows it. -/
theorem begins_within {x : α} {part : List α} (h : ¬mark<+:x::(part++mark.dropLast)) (s : List α) :
    ¬mark<+:x::(part++mark++s) := by
  intro hm
  have hlong : mark.length≤(x::(part++mark.dropLast)).length := by
    rw [List.length_cons,List.length_append,List.length_dropLast]
    omega
  have hwhole : x::(part++mark.dropLast)<+:x::(part++mark++s) := by
    refine (List.prefix_cons_inj x).mpr ?_
    rw [List.append_assoc,List.prefix_append_right_inj]
    exact (List.dropLast_prefix _).trans (List.prefix_append _ _)
  exact h (List.prefix_of_prefix_length_le hm hwhole hlong)

/-- A list is found where it begins for the first time. -/
theorem find_first (hne : mark≠[]) {part : List α} (hp : Separable mark part) (s : List α) :
    find mark (part++mark++s)=some part.length := by
  induction part with
  | nil =>
    obtain ⟨x,rest,rfl⟩ := List.exists_cons_of_ne_nil hne
    have hprefix : x::rest<+:x::(rest++s) := ⟨s,rfl⟩
    rw [List.nil_append,List.cons_append,find,if_pos hprefix]
    rfl
  | cons x part ih =>
    rw [Separable,List.cons_append,List.infix_cons_iff,not_or] at hp
    rw [List.cons_append,List.cons_append,find,if_neg (begins_within hp.1 s),ih hp.2]
    rfl

/-- What is passed over does not matter. -/
theorem replaceFrom_append (u s : List α) :
    replaceFrom opening closing new u.length (u++s)=replaceFrom opening closing new 0 s := by
  induction u with
  | nil => rfl
  | cons x u ih =>
    rw [List.length_cons,List.cons_append,replaceFrom]
    exact ih

/-- Nothing is replaced where no opening mark is. -/
theorem replace_absent {s : List α} (h : ¬opening<:+:s) :
    replaceDelimited opening closing new s=s := by
  unfold replaceDelimited
  induction s with
  | nil => rfl
  | cons x s ih =>
    rw [List.infix_cons_iff,not_or] at h
    rw [replaceFrom,if_neg h.1,ih h.2]

/-- A stretch at the start is replaced. -/
theorem replace_stretch (ho : opening≠[]) (hc : closing≠[]) {inner : List α}
    (hi : Separable closing inner) (s : List α) :
    replaceDelimited opening closing new (opening++inner++closing++s)=
      new++replaceDelimited opening closing new s := by
  unfold replaceDelimited
  obtain ⟨x,rest,rfl⟩ := List.exists_cons_of_ne_nil ho
  have hprefix : x::rest<+:x::(rest++inner++closing++s) := ⟨inner++closing++s,by simp⟩
  have hdrop : (rest++inner++closing++s).drop ((x::rest).length-1)=inner++closing++s := by
    simp
  rw [List.cons_append,List.cons_append,List.cons_append,replaceFrom,if_pos hprefix,hdrop,
    find_first hc hi]
  have hlength : (x::rest).length-1+inner.length+closing.length=(rest++inner++closing).length := by
    simp [Nat.add_assoc]
  simp only [hlength,replaceFrom_append]

/-- Text in which no opening mark begins is kept. -/
theorem replace_text {text : List α} (ht : Separable opening text) (s : List α) :
    replaceDelimited opening closing new (text++opening++s)=
      text++replaceDelimited opening closing new (opening++s) := by
  unfold replaceDelimited
  induction text with
  | nil => rfl
  | cons x text ih =>
    rw [Separable,List.cons_append,List.infix_cons_iff,not_or] at ht
    rw [List.cons_append,List.cons_append,replaceFrom,if_neg (begins_within ht.1 s),ih ht.2]
    rfl

end MlopsPlatform.TextDelimited
