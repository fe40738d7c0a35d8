import MlopsPlatform.TextStrip
import MlopsPlatform.TextPattern

/-!
# The identifier grammar of an advisory baseline

The pattern of `supply.findings.ADVISORY`, over the letter classes it names.
What it accepts is stated as a shape: an upper-case word followed by one or
more dash-separated alphanumeric segments. Such an identifier carries no
whitespace, no line boundary and no comment sign, which is why a baseline line
that holds one reads back as written.
-/

namespace MlopsPlatform.SupplyAdvisory

open TextCodec TextLines TextStrip TextPattern

/-- The letter classes the pattern distinguishes. -/
inductive Kind where
  /-- A-Z -/
  | upper
  /-- a-z -/
  | lower
  /-- 0-9 -/
  | digit
  /-- The segment separator. -/
  | dash
  /-- Everything the pattern has no room for. -/
  | other
  deriving DecidableEq

/-- The class of a code point. -/
def kind (c : CodePoint) : Kind :=
  if 0x41≤c.val ∧ c.val≤0x5a then .upper
  else if 0x61≤c.val ∧ c.val≤0x7a then .lower
  else if 0x30≤c.val ∧ c.val≤0x39 then .digit
  else if c.val=0x2d then .dash
  else .other

/-- The text of `ADVISORY` between its two anchors:
`[A-Z][A-Z0-9]*(-[A-Za-z0-9]+)+`. -/
def advisory : RegularExpression Kind :=
  oneOf [.upper]*(.star (oneOf [.upper,.digit])*
    plus (oneOf [.dash]*plus (oneOf [.upper,.lower,.digit])))

/-- The pattern on a whole string. -/
def advisoryGrammar (s : Str) : Bool := advisory.rmatch (s.map kind)

/-- `ADVISORY.match`: the closing `$` also matches before a final line feed. -/
def advisoryMatch (s : Str) : Bool :=
  advisoryGrammar s || (s.getLast?==some lf && advisoryGrammar s.dropLast)

/-- The shape an identifier has: a head and one or more segments. -/
def AdvisoryShape (s : Str) : Prop :=
  ∃ (head : List Kind) (segments : List (List Kind)),
    (∀ k∈head,k=.upper ∨ k=.digit) ∧ segments≠[] ∧
    (∀ segment∈segments,segment≠[] ∧ ∀ k∈segment,k=.upper ∨ k=.lower ∨ k=.digit) ∧
    s.map kind=.upper::(head++segments.flatMap (fun segment => .dash::segment))

/-- The executable pattern accepts exactly the strings of that shape. -/
theorem advisoryGrammar_iff (s : Str) : advisoryGrammar s=true ↔ AdvisoryShape s := by
  rw [advisoryGrammar,RegularExpression.rmatch_iff_matches']
  simp only [advisory,RegularExpression.matches'_mul,Language.mem_mul]
  constructor
  · rintro ⟨first,hfirst,_,⟨head,hhead,rest,hrest,rfl⟩,hs⟩
    obtain ⟨k,hk,rfl⟩ := mem_oneOf.mp hfirst
    rw [List.mem_singleton] at hk
    subst hk
    obtain ⟨pieces,hne,hpieces,rfl⟩ := mem_plus.mp hrest
    have hsplit : ∀ piece∈pieces,piece=.dash::piece.tail ∧ piece.tail≠[] ∧
        ∀ k∈piece.tail,k=.upper ∨ k=.lower ∨ k=.digit := by
      intro piece hp
      obtain ⟨dash,hdash,segment,hsegment,rfl⟩ := Language.mem_mul.mp (hpieces piece hp)
      obtain ⟨k,hk,rfl⟩ := mem_oneOf.mp hdash
      rw [List.mem_singleton] at hk
      subst hk
      obtain ⟨hn,hall⟩ := mem_plus_oneOf.mp hsegment
      refine ⟨rfl,hn,fun k hk => ?_⟩
      simpa only [List.mem_cons,List.not_mem_nil,or_false] using hall k hk
    refine ⟨head,pieces.map List.tail,fun k hk => ?_,?_,?_,?_⟩
    · simpa only [List.mem_cons,List.not_mem_nil,or_false] using mem_star_oneOf.mp hhead k hk
    · simpa only [ne_eq,List.map_eq_nil_iff] using hne
    · intro segment hm
      obtain ⟨piece,hp,rfl⟩ := List.mem_map.mp hm
      exact (hsplit piece hp).2
    · have hflat : (pieces.map List.tail).flatMap (fun segment => Kind.dash::segment)=
          pieces.flatten := by
        rw [List.flatMap_map,List.flatMap_def]
        congr 1
        conv_rhs => rw [←List.map_id pieces]
        exact List.map_congr_left (fun piece hp => (hsplit piece hp).1.symm)
      rw [hflat,←hs]
      rfl
  · rintro ⟨head,segments,hhead,hne,hsegments,hs⟩
    refine ⟨[.upper],mem_oneOf.mpr ⟨_,List.mem_singleton_self _,rfl⟩,_,
      ⟨head,mem_star_oneOf.mpr (fun k hk => ?_),_,mem_plus.mpr
        ⟨segments.map (fun segment => .dash::segment),?_,fun piece hp => ?_,rfl⟩,rfl⟩,?_⟩
    · simpa only [List.mem_cons,List.not_mem_nil,or_false] using hhead k hk
    · simpa only [ne_eq,List.map_eq_nil_iff] using hne
    · obtain ⟨segment,hm,rfl⟩ := List.mem_map.mp hp
      obtain ⟨hn,hall⟩ := hsegments segment hm
      refine Language.mem_mul.mpr ⟨[.dash],mem_oneOf.mpr ⟨_,List.mem_singleton_self _,rfl⟩,
        segment,mem_plus_oneOf.mpr ⟨hn,fun k hk => ?_⟩,rfl⟩
      simpa only [List.mem_cons,List.not_mem_nil,or_false] using hall k hk
    · rw [hs,List.flatMap_def]
      rfl

/-- Every character of an identifier is a letter, a digit or a dash. -/
theorem AdvisoryShape.kind_ne_other {s : Str} (hs : AdvisoryShape s) :
    ∀ c∈s,kind c≠.other := by
  obtain ⟨head,segments,hhead,-,hsegments,hs⟩ := hs
  intro c hc hother
  have hm : Kind.other∈s.map kind := hother ▸ List.mem_map_of_mem hc
  rw [hs,List.mem_cons,List.mem_append] at hm
  rcases hm with h|h|h
  · cases h
  · rcases hhead _ h with h|h <;> cases h
  · obtain ⟨segment,hseg,hk⟩ := List.mem_flatMap.mp h
    rcases List.mem_cons.mp hk with h|h
    · cases h
    · rcases (hsegments segment hseg).2 _ h with h|h|h <;> cases h

/-- A character the pattern has room for is printable ASCII. -/
theorem ascii_of_kind {c : CodePoint} (h : kind c≠.other) :
    0x2d≤c.val ∧ c.val≤0x7a := by
  unfold kind at h
  split_ifs at h with h1 h2 h3 h4
  · omega
  · omega
  · omega
  · omega
  · exact absurd rfl h

/-- An identifier contains no whitespace. -/
theorem AdvisoryShape.not_space {s : Str} (hs : AdvisoryShape s) : ∀ c∈s,isSpace c=false := by
  intro c hc
  have ha := ascii_of_kind (hs.kind_ne_other c hc)
  simp only [isSpace,Bool.or_eq_false_iff,Bool.and_eq_false_iff,decide_eq_false_iff_not,
    beq_eq_false_iff_ne]
  omega

/-- An identifier fits on one line. -/
theorem AdvisoryShape.lineFree {s : Str} (hs : AdvisoryShape s) : LineFree s :=
  lineFree_of_not_space hs.not_space

/-- Stripping an identifier's line leaves it as it is. -/
theorem AdvisoryShape.strip_eq {s : Str} (hs : AdvisoryShape s) : strip s=s :=
  strip_of_trimmed (trimmed_of_not_space hs.not_space)

/-- An identifier is not empty. -/
theorem AdvisoryShape.ne_nil {s : Str} (hs : AdvisoryShape s) : s≠[] := by
  obtain ⟨head,segments,-,-,-,hs⟩ := hs
  rintro rfl
  cases hs

/-- An identifier is not a comment. -/
theorem AdvisoryShape.head_ne {s : Str} (hs : AdvisoryShape s) : s.head?≠some 0x23 := by
  intro h
  have ha := ascii_of_kind (hs.kind_ne_other _ (List.mem_of_mem_head? h))
  omega

/-- An identifier has a UTF-8 form. -/
theorem AdvisoryShape.scalar {s : Str} (hs : AdvisoryShape s) : s.all isScalar=true := by
  rw [List.all_eq_true]
  intro c hc
  have ha := ascii_of_kind (hs.kind_ne_other c hc)
  rw [isScalar_iff]
  omega

/-- On a stripped line the pattern's tolerance of a final line feed is void. -/
theorem advisoryMatch_of_trimmed {s : Str} (hs : Trimmed s) :
    advisoryMatch s=true ↔ AdvisoryShape s := by
  rw [advisoryMatch,Bool.or_eq_true,advisoryGrammar_iff]
  constructor
  · rintro (h|h)
    · exact h
    · rw [Bool.and_eq_true,beq_iff_eq] at h
      have hn := hs.last lf h.1
      cases hn
  · exact Or.inl

end MlopsPlatform.SupplyAdvisory
