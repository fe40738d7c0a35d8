import Mathlib.Computability.RegularExpressions

/-!
# Character classes and repetition over regular expressions

The two constructions a pattern is usually written with and the bare algebra
lacks: a bracketed class of letters and the one-or-more repetition. Each comes
with the words it matches, so that a pattern's language can be read off.
-/

namespace MlopsPlatform.TextPattern

open RegularExpression

variable {α : Type*}

/-- A bracketed class: any one of the listed letters. -/
def oneOf : List α→RegularExpression α
  | [] => 0
  | a::letters => char a+oneOf letters

/-- One or more repetitions. -/
def plus (P : RegularExpression α) : RegularExpression α := P*star P

/-- A class matches exactly its own letters. -/
theorem mem_oneOf {letters : List α} {word : List α} :
    word∈(oneOf letters).matches' ↔ ∃ a∈letters,word=[a] := by
  induction letters with
  | nil =>
    simp only [oneOf,matches'_zero,List.not_mem_nil,false_and,exists_false,iff_false]
    exact id
  | cons a letters ih =>
    rw [oneOf,matches'_add,Language.mem_add,ih,matches'_char]
    simp only [List.mem_cons,exists_eq_or_imp]
    exact Iff.rfl

/-- A starred class matches the words over its letters. -/
theorem mem_star_oneOf {letters : List α} {word : List α} :
    word∈(star (oneOf letters)).matches' ↔ ∀ a∈word,a∈letters := by
  rw [matches'_star,Language.mem_kstar]
  constructor
  · rintro ⟨pieces,rfl,hp⟩ a ha
    obtain ⟨piece,hm,ha⟩ := List.mem_flatten.mp ha
    obtain ⟨b,hb,rfl⟩ := mem_oneOf.mp (hp piece hm)
    rw [List.mem_singleton.mp ha]
    exact hb
  · intro h
    refine ⟨word.map (fun a => [a]),?_,?_⟩
    · induction word with
      | nil => rfl
      | cons a word ih =>
        rw [List.map_cons,List.flatten_cons,←ih (fun b hb => h b (List.mem_cons_of_mem _ hb))]
        rfl
    · intro piece hp
      obtain ⟨a,ha,rfl⟩ := List.mem_map.mp hp
      exact mem_oneOf.mpr ⟨a,h a ha,rfl⟩

/-- A repeated class matches the nonempty words over its letters. -/
theorem mem_plus_oneOf {letters : List α} {word : List α} :
    word∈(plus (oneOf letters)).matches' ↔ word≠[] ∧ ∀ a∈word,a∈letters := by
  rw [plus,matches'_mul,Language.mem_mul]
  constructor
  · rintro ⟨first,hf,rest,hr,rfl⟩
    obtain ⟨a,ha,rfl⟩ := mem_oneOf.mp hf
    refine ⟨List.cons_ne_nil _ _,fun b hb => ?_⟩
    rcases List.mem_cons.mp hb with rfl|hb
    · exact ha
    · exact mem_star_oneOf.mp hr b hb
  · rintro ⟨hne,h⟩
    obtain ⟨a,rest,rfl⟩ := List.exists_cons_of_ne_nil hne
    exact ⟨[a],mem_oneOf.mpr ⟨a,h a List.mem_cons_self,rfl⟩,rest,
      mem_star_oneOf.mpr (fun b hb => h b (List.mem_cons_of_mem _ hb)),rfl⟩

/-- One or more repetitions of a pattern that matches no empty word: a nonempty
list of its words, joined. -/
theorem mem_plus {P : RegularExpression α} {word : List α} :
    word∈(plus P).matches' ↔
      ∃ pieces : List (List α),pieces≠[] ∧ (∀ piece∈pieces,piece∈P.matches') ∧
        word=pieces.flatten := by
  rw [plus,matches'_mul,matches'_star,Language.mem_mul]
  constructor
  · rintro ⟨first,hf,rest,hr,rfl⟩
    obtain ⟨pieces,rfl,hp⟩ := Language.mem_kstar.mp hr
    refine ⟨first::pieces,List.cons_ne_nil _ _,fun piece hm => ?_,rfl⟩
    rcases List.mem_cons.mp hm with rfl|hm
    · exact hf
    · exact hp piece hm
  · rintro ⟨pieces,hne,hp,rfl⟩
    obtain ⟨first,rest,rfl⟩ := List.exists_cons_of_ne_nil hne
    exact ⟨first,hp first List.mem_cons_self,rest.flatten,
      Language.mem_kstar.mpr ⟨rest,rfl,fun y hy => hp y (List.mem_cons_of_mem _ hy)⟩,rfl⟩

end MlopsPlatform.TextPattern
