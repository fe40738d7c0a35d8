import MlopsPlatform.TextCodec

/-!
# Lines, whitespace and newline translation of Python strings

`splitlines` knows ten line boundaries and treats a carriage return before a
line feed as one of them. `strip` removes Unicode whitespace, which includes
every line boundary. Reading a file in text mode turns the two carriage return
spellings of a newline into a line feed first, which no line notices.
-/

namespace MlopsPlatform.TextLines

open TextCodec

/-- Line feed. -/
def lf : CodePoint := 0x0a

/-- Carriage return. -/
def cr : CodePoint := 0x0d

/-- Whitespace as `str.strip` removes it. -/
def isSpace (c : CodePoint) : Bool :=
  (0x09≤c.val && c.val≤0x0d) || (0x1c≤c.val && c.val≤0x20) || c.val==0x85 || c.val==0xa0 ||
    c.val==0x1680 || (0x2000≤c.val && c.val≤0x200a) || c.val==0x2028 || c.val==0x2029 ||
    c.val==0x202f || c.val==0x205f || c.val==0x3000

/-- Line boundaries as `str.splitlines` knows them. -/
def isLineBoundary (c : CodePoint) : Bool :=
  (0x0a≤c.val && c.val≤0x0d) || (0x1c≤c.val && c.val≤0x1e) || c.val==0x85 ||
    c.val==0x2028 || c.val==0x2029

/-- Every line boundary is whitespace: the relation between the two tables. -/
theorem isSpace_of_isLineBoundary {c : CodePoint} (hc : isLineBoundary c=true) :
    isSpace c=true := by
  simp only [isLineBoundary,isSpace,Bool.or_eq_true,Bool.and_eq_true,decide_eq_true_eq,
    beq_iff_eq] at hc ⊢
  omega

theorem isLineBoundary_lf : isLineBoundary lf=true := by decide

theorem isLineBoundary_cr : isLineBoundary cr=true := by decide

/-- A string none of whose characters ends a line. -/
def LineFree (s : Str) : Prop := ∀ c∈s,isLineBoundary c=false

theorem lineFree_nil : LineFree [] := fun _ h => absurd h (List.not_mem_nil)

theorem lineFree_append {s t : Str} : LineFree (s++t) ↔ LineFree s ∧ LineFree t := by
  simp only [LineFree,List.mem_append,or_imp,forall_and]

/-- A character that is not whitespace does not end a line. -/
theorem lineFree_of_not_space {s : Str} (hs : ∀ c∈s,isSpace c=false) : LineFree s := by
  intro c hc
  by_contra h
  have hb := isSpace_of_isLineBoundary (Bool.eq_true_of_not_eq_false h)
  rw [hs c hc] at hb
  cases hb

/-- What is asked of the characters of a literal holds of its code points. -/
theorem literal_bounds {low : ℕ} {chars : List Char}
    (h : chars.all (fun c => low ≤ c.toNat && c.toNat≤0x7e)=true) :
    ∀ c∈str (String.ofList chars),low ≤ c.val ∧ c.val≤0x7e := by
  rw [str,String.toList_ofList]
  intro c hc
  obtain ⟨x,hx,rfl⟩ := List.mem_map.mp hc
  have hb := List.all_eq_true.mp h x hx
  rw [Bool.and_eq_true,decide_eq_true_eq,decide_eq_true_eq] at hb
  exact hb

/-- A literal of printable ASCII fits on one line. -/
theorem lineFree_literal (chars : List Char)
    (h : chars.all (fun c => 0x20≤c.toNat && c.toNat≤0x7e)=true) :
    LineFree (str (String.ofList chars)) := by
  intro c hc
  have hb := literal_bounds h c hc
  simp only [isLineBoundary,Bool.or_eq_false_iff,Bool.and_eq_false_iff,
    decide_eq_false_iff_not,beq_eq_false_iff_ne]
  omega

/-- A literal of visible ASCII holds no whitespace. -/
theorem notSpace_literal (chars : List Char)
    (h : chars.all (fun c => 0x21≤c.toNat && c.toNat≤0x7e)=true) :
    ∀ c∈str (String.ofList chars),isSpace c=false := by
  intro c hc
  have hb := literal_bounds h c hc
  simp only [isSpace,Bool.or_eq_false_iff,Bool.and_eq_false_iff,
    decide_eq_false_iff_not,beq_eq_false_iff_ne]
  omega

/-- Prepend a character to the first line. -/
def consLine (c : CodePoint) : List Str→List Str
  | [] => [[c]]
  | line::lines => (c::line)::lines

/-- `str.splitlines`: the lines without their boundaries. A text that ends in
a boundary has no empty line after it. -/
def splitlines : Str→List Str
  | [] => []
  | [c] => if isLineBoundary c=true then [[]] else [[c]]
  | c::d::rest =>
    if c=cr ∧ d=lf then []::splitlines rest
    else if isLineBoundary c=true then []::splitlines (d::rest)
    else consLine c (splitlines (d::rest))

/-- Text-mode reading: both carriage return spellings become a line feed. -/
def universalNewlines : Str→Str
  | [] => []
  | [c] => if c=cr then [lf] else [c]
  | c::d::rest =>
    if c=cr then
      if d=lf then lf::universalNewlines rest else lf::universalNewlines (d::rest)
    else c::universalNewlines (d::rest)

@[simp] theorem splitlines_nil : splitlines []=[] := rfl

/-- An ordinary character belongs to the line that follows. -/
theorem splitlines_cons {c : CodePoint} (hc : isLineBoundary c=false) (rest : Str) :
    splitlines (c::rest)=consLine c (splitlines rest) := by
  have hcr : c≠cr := by
    rintro rfl
    rw [isLineBoundary_cr] at hc
    cases hc
  cases rest with
  | nil => simp only [splitlines,hc,Bool.false_eq_true,if_false,consLine]
  | cons d rest => simp only [splitlines,hcr,false_and,if_false,hc,Bool.false_eq_true]

/-- A boundary ends an empty line, unless it is the first half of a CRLF. -/
theorem splitlines_boundary {c : CodePoint} (hc : isLineBoundary c=true) {rest : Str}
    (h : ¬(c=cr ∧ rest.head?=some lf)) : splitlines (c::rest)=[]::splitlines rest := by
  cases rest with
  | nil => simp only [splitlines,hc,if_true]
  | cons d rest =>
    have hd : ¬(c=cr ∧ d=lf) := by simpa only [List.head?_cons,Option.some.injEq] using h
    simp only [splitlines,if_neg hd,hc,if_true]

/-- A line feed always ends exactly one line. -/
theorem splitlines_lf (rest : Str) : splitlines (lf::rest)=[]::splitlines rest :=
  splitlines_boundary isLineBoundary_lf (fun h => absurd h.1 (by decide))

/-- The two characters of a CRLF end one line. -/
theorem splitlines_crlf (rest : Str) : splitlines (cr::lf::rest)=[]::splitlines rest := by
  simp only [splitlines,and_self,if_true]

/-- Only the empty text has no line. -/
theorem splitlines_ne_nil {s : Str} (hs : s≠[]) : splitlines s≠[] := by
  cases s with
  | nil => exact absurd rfl hs
  | cons c rest =>
    by_cases hc : isLineBoundary c=true
    · by_cases h : c=cr ∧ rest.head?=some lf
      · obtain ⟨rfl,h⟩ := h
        cases rest with
        | nil => cases h
        | cons d rest =>
          cases h
          rw [splitlines_crlf]
          exact List.cons_ne_nil _ _
      · rw [splitlines_boundary hc h]
        exact List.cons_ne_nil _ _
    · rw [splitlines_cons (Bool.eq_false_of_not_eq_true hc)]
      cases splitlines rest with
      | nil => exact List.cons_ne_nil _ _
      | cons line lines => exact List.cons_ne_nil _ _

/-- The first line has a character more, and the others are as they were. -/
theorem mem_consLine {c : CodePoint} {lines : List Str} {line : Str} (h : line∈consLine c lines) :
    (∃ first,(first=[] ∨ first∈lines) ∧ line=c::first) ∨ line∈lines := by
  cases lines with
  | nil => exact Or.inl ⟨[],Or.inl rfl,List.mem_singleton.mp h⟩
  | cons first lines =>
    rcases List.mem_cons.mp h with rfl|hm
    · exact Or.inl ⟨first,Or.inr List.mem_cons_self,rfl⟩
    · exact Or.inr (List.mem_cons_of_mem _ hm)

/-- A line of a text carries no boundary, and none of its characters is new. -/
theorem mem_splitlines {s line : Str} (h : line∈splitlines s) :
    LineFree line ∧ ∀ c∈line,c∈s := by
  induction s using splitlines.induct generalizing line with
  | case1 => cases h
  | case2 c hc =>
    simp only [splitlines,hc,if_true,List.mem_singleton] at h
    subst h
    exact ⟨lineFree_nil,fun _ hx => absurd hx List.not_mem_nil⟩
  | case3 c hc =>
    simp only [splitlines,if_neg hc,List.mem_singleton] at h
    subst h
    refine ⟨fun x hx => ?_,fun _ hx => hx⟩
    rw [List.mem_singleton.mp hx]
    exact Bool.eq_false_of_not_eq_true hc
  | case4 c d rest hcd ih =>
    simp only [splitlines,if_pos hcd,List.mem_cons] at h
    rcases h with rfl|h
    · exact ⟨lineFree_nil,fun _ hx => absurd hx List.not_mem_nil⟩
    · exact ⟨(ih h).1,fun x hx => List.mem_cons_of_mem _ (List.mem_cons_of_mem _ ((ih h).2 x hx))⟩
  | case5 c d rest hcd hc ih =>
    simp only [splitlines,if_neg hcd,if_pos hc,List.mem_cons] at h
    rcases h with rfl|h
    · exact ⟨lineFree_nil,fun _ hx => absurd hx List.not_mem_nil⟩
    · exact ⟨(ih h).1,fun x hx => List.mem_cons_of_mem _ ((ih h).2 x hx)⟩
  | case6 c d rest hcd hc ih =>
    have hfree : isLineBoundary c=false := Bool.eq_false_of_not_eq_true hc
    rw [splitlines_cons hfree] at h
    rcases mem_consLine h with ⟨first,hfirst,rfl⟩|hm
    · have hi : LineFree first ∧ ∀ x∈first,x∈d::rest := by
        rcases hfirst with rfl|hm
        · exact ⟨lineFree_nil,fun _ hx => absurd hx List.not_mem_nil⟩
        · exact ih hm
      refine ⟨List.forall_mem_cons.mpr ⟨hfree,hi.1⟩,fun x hx => ?_⟩
      rcases List.mem_cons.mp hx with rfl|hx
      · exact List.mem_cons_self
      · exact List.mem_cons_of_mem _ (hi.2 x hx)
    · exact ⟨(ih hm).1,fun x hx => List.mem_cons_of_mem _ ((ih hm).2 x hx)⟩

/-- A boundary-free line in front of an empty one takes its place. -/
theorem splitlines_append_of {line : Str} (hl : LineFree line) {text : Str} {lines : List Str}
    (ht : splitlines text=[]::lines) : splitlines (line++text)=line::lines := by
  induction line with
  | nil => exact ht
  | cons c line ih =>
    have hc := hl c List.mem_cons_self
    have hrest : LineFree line := fun x hx => hl x (List.mem_cons_of_mem _ hx)
    rw [List.cons_append,splitlines_cons hc,ih hrest]
    rfl

/-- A boundary-free line followed by a line feed is split off whole. -/
theorem splitlines_line {line : Str} (hl : LineFree line) (rest : Str) :
    splitlines (line++lf::rest)=line::splitlines rest :=
  splitlines_append_of hl (splitlines_lf rest)

/-- The last line needs no boundary after it, as long as it is not empty. -/
theorem splitlines_last {line : Str} (hl : LineFree line) (hne : line≠[]) :
    splitlines line=[line] := by
  induction line with
  | nil => exact absurd rfl hne
  | cons c line ih =>
    have hc := hl c List.mem_cons_self
    rw [splitlines_cons hc]
    cases line with
    | nil => rfl
    | cons d line =>
      rw [ih (fun x hx => hl x (List.mem_cons_of_mem _ hx)) (List.cons_ne_nil _ _)]
      rfl

/-- Boundary-free lines, each ended by a line feed, are read back as written. -/
theorem splitlines_flatMap {lines : List Str} (hl : ∀ line∈lines,LineFree line) (rest : Str) :
    splitlines (lines.flatMap (fun line => line++[lf])++rest)=lines++splitlines rest := by
  induction lines with
  | nil => rfl
  | cons line lines ih =>
    rw [List.flatMap_cons,List.append_assoc,List.append_assoc,List.singleton_append,
      splitlines_line (hl line List.mem_cons_self),
      ih (fun l h => hl l (List.mem_cons_of_mem _ h))]
    rfl

/-- Whole lines: empty, or ended by a boundary. -/
def WholeLines (s : Str) : Prop := ∀ c,s.getLast?=some c → isLineBoundary c=true

/-- Text printed after whole lines starts a line of its own, unless its first
character completes a CRLF. -/
theorem splitlines_append {s : Str} (hs : WholeLines s) {t : Str} (ht : t.head?≠some lf) :
    splitlines (s++t)=splitlines s++splitlines t := by
  induction s using splitlines.induct with
  | case1 => rfl
  | case2 c hc =>
    have h : ¬(c=cr ∧ t.head?=some lf) := fun h => ht h.2
    rw [List.singleton_append,splitlines_boundary hc h,splitlines_boundary hc (by simp)]
    rfl
  | case3 c hc => exact absurd (hs c rfl) hc
  | case4 c d rest hcd ih =>
    have hw : WholeLines rest := by
      cases rest with
      | nil => exact fun x hx => by cases hx
      | cons x rest => simpa only [WholeLines,List.getLast?_cons_cons] using hs
    obtain ⟨rfl,rfl⟩ := hcd
    rw [List.cons_append,List.cons_append,splitlines_crlf,splitlines_crlf,ih hw]
    rfl
  | case5 c d rest hcd hc ih =>
    have hw : WholeLines (d::rest) := by
      simpa only [WholeLines,List.getLast?_cons_cons] using hs
    have h : ∀ u,¬(c=cr ∧ (d::u).head?=some lf) := fun u => by
      simpa only [List.head?_cons,Option.some.injEq] using hcd
    rw [List.cons_append,List.cons_append,splitlines_boundary hc (h _),splitlines_boundary hc (h _),
      ←List.cons_append,ih hw]
    rfl
  | case6 c d rest hcd hc ih =>
    have hw : WholeLines (d::rest) := by
      simpa only [WholeLines,List.getLast?_cons_cons] using hs
    have hfree : isLineBoundary c=false := Bool.eq_false_of_not_eq_true hc
    rw [List.cons_append,splitlines_cons hfree,splitlines_cons hfree,ih hw]
    cases hl : splitlines (d::rest) with
    | cons first lines => rfl
    | nil => exact absurd hl (splitlines_ne_nil (List.cons_ne_nil _ _))

/-- A text without carriage returns is read as it is. -/
theorem universalNewlines_of_notMem {s : Str} (h : cr∉s) : universalNewlines s=s := by
  fun_induction universalNewlines s with
  | case1 => rfl
  | case2 => exact absurd List.mem_cons_self h
  | case3 => rfl
  | case4 => exact absurd List.mem_cons_self h
  | case5 => exact absurd List.mem_cons_self h
  | case6 c d rest hc ih => rw [ih (fun hm => h (List.mem_cons_of_mem _ hm))]

/-- Newline translation moves no line. -/
theorem splitlines_universalNewlines (s : Str) :
    splitlines (universalNewlines s)=splitlines s := by
  induction s using universalNewlines.induct with
  | case1 => rfl
  | case2 => rfl
  | case3 c hc => simp only [universalNewlines,if_neg hc]
  | case4 rest ih =>
    simp only [universalNewlines,if_true]
    rw [splitlines_lf,splitlines_crlf,ih]
  | case5 d rest hd ih =>
    simp only [universalNewlines,if_true,if_neg hd]
    have h : ¬(cr=cr ∧ (d::rest).head?=some lf) := by
      simpa only [List.head?_cons,Option.some.injEq,true_and] using hd
    rw [splitlines_lf,splitlines_boundary isLineBoundary_cr h,ih]
  | case6 c d rest hc ih =>
    simp only [universalNewlines,if_neg hc]
    cases hb : isLineBoundary c with
    | false => rw [splitlines_cons hb,splitlines_cons hb,ih]
    | true => rw [splitlines_boundary hb (fun h => hc h.1),splitlines_boundary hb (fun h => hc h.1),ih]

/-- A line feed ends a line, whatever stands behind it. -/
theorem splitlines_append_lf (s t : Str) :
    splitlines (s++lf::t)=splitlines (s++[lf])++splitlines t := by
  induction s using splitlines.induct with
  | case1 => rw [List.nil_append,List.nil_append,splitlines_lf,splitlines_lf]; rfl
  | case2 c hc =>
    by_cases hcr : c=cr
    · subst hcr
      rw [List.singleton_append,List.singleton_append,splitlines_crlf,splitlines_crlf]
      rfl
    · have h : ∀ u : Str,¬(c=cr ∧ u.head?=some lf) := fun u hu => hcr hu.1
      rw [List.singleton_append,List.singleton_append,splitlines_boundary hc (h _),
        splitlines_boundary hc (h _),splitlines_lf,splitlines_lf]
      rfl
  | case3 c hc =>
    have hfree : isLineBoundary c=false := Bool.eq_false_of_not_eq_true hc
    rw [List.singleton_append,List.singleton_append,splitlines_cons hfree,splitlines_cons hfree,
      splitlines_lf,splitlines_lf]
    rfl
  | case4 c d rest hcd ih =>
    obtain ⟨rfl,rfl⟩ := hcd
    simp only [List.cons_append]
    rw [splitlines_crlf,splitlines_crlf,ih]
    rfl
  | case5 c d rest hcd hc ih =>
    have h : ∀ u,¬(c=cr ∧ (d::u).head?=some lf) := fun u => by
      simpa only [List.head?_cons,Option.some.injEq] using hcd
    simp only [List.cons_append] at ih ⊢
    rw [splitlines_boundary hc (h _),splitlines_boundary hc (h _),ih]
    rfl
  | case6 c d rest hcd hc ih =>
    have hfree : isLineBoundary c=false := Bool.eq_false_of_not_eq_true hc
    simp only [List.cons_append] at ih ⊢
    rw [splitlines_cons hfree,splitlines_cons hfree,ih]
    cases hl : splitlines (d::(rest++[lf])) with
    | cons first lines => rfl
    | nil => exact absurd hl (splitlines_ne_nil (List.cons_ne_nil _ _))

/-- A line feed at the end of a text adds at most one empty line. -/
theorem splitlines_concat_lf {s : Str} (h : cr∉s) :
    splitlines (s++[lf])=splitlines s ∨ splitlines (s++[lf])=splitlines s++[[]] := by
  induction s with
  | nil => exact Or.inr rfl
  | cons c s ih =>
    have hs := ih (fun hm => h (List.mem_cons_of_mem _ hm))
    rw [List.cons_append]
    by_cases hc : isLineBoundary c=true
    · have hne : ∀ u : Str,¬(c=cr ∧ u.head?=some lf) :=
        fun u hu => h (hu.1 ▸ List.mem_cons_self)
      rw [splitlines_boundary hc (hne _),splitlines_boundary hc (hne _)]
      exact hs.imp (congrArg _) (congrArg _)
    · have hfree : isLineBoundary c=false := Bool.eq_false_of_not_eq_true hc
      rw [splitlines_cons hfree,splitlines_cons hfree]
      rcases hs with hs|hs
      · exact Or.inl (congrArg _ hs)
      · rw [hs]
        cases splitlines s with
        | nil => exact Or.inl rfl
        | cons first lines => exact Or.inr rfl

/-- The lines of a text that are not empty are those of the parts between its
line feeds. -/
theorem mem_splitlines_splitOn {s line : Str} (h : cr∉s) (hne : line≠[]) :
    line∈splitlines s ↔ ∃ part∈s.splitOn lf,line∈splitlines part := by
  by_cases hlf : lf∈s
  · obtain ⟨u,v,hs,hu⟩ := List.eq_append_cons_of_mem hlf
    have hv : v.length<s.length := by
      rw [hs,List.length_append,List.length_cons]
      omega
    have hcr : cr∉u ∧ cr∉v := by
      rw [hs] at h
      exact ⟨fun hm => h (List.mem_append_left _ hm),
        fun hm => h (List.mem_append_right _ (List.mem_cons_of_mem _ hm))⟩
    have hparts : s.splitOn lf=u::v.splitOn lf := by
      rw [hs,List.splitOn_eq_splitOnP,List.splitOn_eq_splitOnP,
        List.splitOnP_append_cons u v (by simp),List.splitOnP_eq_singleton]
      · rfl
      · intro c hc
        simpa using fun he : c=lf => hu (he ▸ hc)
    have hfirst : line∈splitlines (u++[lf]) ↔ line∈splitlines u := by
      rcases splitlines_concat_lf hcr.1 with he|he
      · rw [he]
      · rw [he,List.mem_append,List.mem_singleton]
        exact or_iff_left hne
    rw [hparts,List.exists_mem_cons_iff,hs,splitlines_append_lf,List.mem_append,hfirst,
      mem_splitlines_splitOn hcr.2 hne]
  · have hparts : s.splitOn lf=[s] := by
      rw [List.splitOn_eq_splitOnP,List.splitOnP_eq_singleton]
      intro c hc
      simpa using fun he : c=lf => hlf (he ▸ hc)
    rw [hparts]
    simp only [List.mem_singleton,exists_eq_left]
termination_by s.length

/-- No carriage return is left by newline translation. -/
theorem cr_notMem_universalNewlines (s : Str) : cr∉universalNewlines s := by
  have hlf : cr≠lf := by decide
  fun_induction universalNewlines s with
  | case1 => exact List.not_mem_nil
  | case2 => simpa using hlf
  | case3 c hc => simpa using fun h => hc h.symm
  | case4 rest ih => simpa using ⟨hlf,ih⟩
  | case5 d rest hd ih => simpa using ⟨hlf,ih⟩
  | case6 c d rest hc ih => simpa using ⟨fun h => hc h.symm,ih⟩

end MlopsPlatform.TextLines
