import MlopsPlatform.TextStrip

/-!
# Tokens of a string

Splitting at every character of a class and dropping what is empty. Python's
`str.split` without an argument does it at whitespace. The first token is what
stands between the separators a string starts with and the next one.
-/

namespace MlopsPlatform.TextTokens

open TextCodec TextLines TextStrip

/-- The nonempty parts between the characters of a class. -/
def tokensBy (separates : CodePoint→Bool) (s : Str) : List Str :=
  (s.splitOnP separates).filter (fun token => token≠[])

/-- `str.split` without an argument. -/
def tokens (s : Str) : List Str := tokensBy isSpace s

variable {separates : CodePoint→Bool}

/-- Nothing separates inside a token, and it is not empty. -/
structure Token (separates : CodePoint→Bool) (token : Str) : Prop where
  /-- It is not empty. -/
  nonempty : token≠[]
  /-- It has no separator. -/
  whole : ∀ c∈token,separates c=false

/-- A rest a token may stop at: none, or one that starts with a separator. -/
def Ends (separates : CodePoint→Bool) (rest : Str) : Prop :=
  ∀ c,rest.head?=some c → separates c=true

/-- The first token of a string, by where it stands. -/
def First (separates : CodePoint→Bool) (s token : Str) : Prop :=
  ∃ before rest,s=before++token++rest ∧ (∀ c∈before,separates c=true) ∧
    Token separates token ∧ Ends separates rest

theorem tokensBy_nil : tokensBy separates []=[] := rfl

/-- A separator ends a token. -/
theorem tokensBy_append {c : CodePoint} (hc : separates c=true) (u v : Str) :
    tokensBy separates (u++c::v)=tokensBy separates u++tokensBy separates v := by
  rw [tokensBy,List.splitOnP_append_cons u v hc,List.filter_append,tokensBy,tokensBy]

/-- A token is its own only token. -/
theorem tokensBy_token {token : Str} (h : Token separates token) :
    tokensBy separates token=[token] := by
  have hne := h.nonempty
  rw [tokensBy,List.splitOnP_eq_singleton h.whole]
  simp [hne]

/-- Separators in front do not matter. -/
theorem tokensBy_skip {before : Str} (h : ∀ c∈before,separates c=true) (s : Str) :
    tokensBy separates (before++s)=tokensBy separates s := by
  induction before with
  | nil => rfl
  | cons c before ih =>
    rw [List.forall_mem_cons] at h
    have hc := tokensBy_append h.1 [] (before++s)
    rw [List.nil_append] at hc
    rw [List.cons_append,hc,tokensBy_nil,List.nil_append]
    exact ih h.2

/-- The tokens of a string with a known first one. -/
theorem tokensBy_first {before token rest : Str} (hbefore : ∀ c∈before,separates c=true)
    (htoken : Token separates token) (hrest : Ends separates rest) :
    tokensBy separates (before++token++rest)=token::tokensBy separates rest := by
  rw [List.append_assoc,tokensBy_skip hbefore]
  cases rest with
  | nil => rw [List.append_nil,tokensBy_token htoken,tokensBy_nil]
  | cons c rest =>
    have hc : separates c=true := hrest c rfl
    have hskip := tokensBy_append hc [] rest
    rw [List.nil_append] at hskip
    rw [tokensBy_append hc,tokensBy_token htoken,hskip,tokensBy_nil,List.nil_append,
      List.singleton_append]

/-- A string holds only separators or has a first token. -/
theorem exists_first (s : Str) :
    (∀ c∈s,separates c=true) ∨ ∃ token,First separates s token := by
  by_cases h : s.dropWhile separates=[]
  · exact Or.inl (List.dropWhile_eq_nil_iff.mp h)
  · right
    have hhead := List.head?_dropWhile_not separates s
    cases hd : s.dropWhile separates with
    | nil => exact absurd hd h
    | cons c core =>
      rw [hd] at hhead
      have hc : separates c=false := by simpa using hhead
      have htake := @List.takeWhile_append_dropWhile _ (fun x => !separates x) core
      refine ⟨c::core.takeWhile (fun x => !separates x),s.takeWhile separates,
        core.dropWhile (fun x => !separates x),?_,?_,⟨List.cons_ne_nil _ _,?_⟩,?_⟩
      · rw [List.append_assoc,List.cons_append,htake,←hd,List.takeWhile_append_dropWhile]
      · exact fun x hx => List.mem_takeWhile_imp hx
      · intro x hx
        rcases List.mem_cons.mp hx with rfl|hm
        · exact hc
        · simpa using List.mem_takeWhile_imp hm
      · intro x hx
        have hn := List.head?_dropWhile_not (fun x => !separates x) core
        rw [hx] at hn
        simpa using hn

/-- The first of the tokens is the first token. -/
theorem head?_tokensBy {s token : Str} :
    (tokensBy separates s).head?=some token ↔ First separates s token := by
  constructor
  · intro h
    rcases @exists_first separates s with hblank|⟨first,before,rest,rfl,hbefore,hfirst,hrest⟩
    · have hskip := tokensBy_skip hblank []
      rw [List.append_nil,tokensBy_nil] at hskip
      rw [hskip] at h
      cases h
    · rw [tokensBy_first hbefore hfirst hrest,List.head?_cons,Option.some.injEq] at h
      exact ⟨before,rest,by rw [h],hbefore,h ▸ hfirst,hrest⟩
  · rintro ⟨before,rest,rfl,hbefore,htoken,hrest⟩
    rw [tokensBy_first hbefore htoken hrest,List.head?_cons]

/-- A string has one first token. -/
theorem First.unique {s token other : Str} (h : First separates s token)
    (ho : First separates s other) : token=other :=
  Option.some.inj ((head?_tokensBy.mpr h).symm.trans (head?_tokensBy.mpr ho))

end MlopsPlatform.TextTokens
