import MlopsPlatform.TextLines
import Mathlib.Data.Finset.Sort

/-!
# Sets of strings, their sorted listing and its file form

A Python set of strings is a finite set, `sorted` lists it in code point
order, and a committed list is its entries joined by line feeds with one more
at the end. Joining is what ending every entry with a line feed gives, except
that an empty list still leaves one empty line.
-/

namespace MlopsPlatform.TextSorted

open TextCodec TextLines

/-- `sorted(found)` of a set of strings. -/
def sorted (found : Finset Str) : List Str := found.sort (fun s t => s≤t)

/-- `separator.join(parts)` -/
def join (separator : Str) (parts : List Str) : Str := separator.intercalate parts

/-- Decimal digits of a count. -/
def digits (n : ℕ) : Str := str (toString n)

@[simp] theorem mem_sorted {found : Finset Str} {s : Str} : s∈sorted found ↔ s∈found :=
  Finset.mem_sort _

@[simp] theorem sorted_toFinset (found : Finset Str) : (sorted found).toFinset=found :=
  Finset.sort_toFinset _ _

/-- A listing is strictly increasing: sorted and without repetition. -/
theorem sorted_increasing (found : Finset Str) : (sorted found).Pairwise (fun s t => s<t) :=
  Finset.sortedLT_sort found |>.pairwise

/-- Equal sets have equal listings. -/
theorem sorted_injective : Function.Injective sorted := by
  intro s t h
  rw [←sorted_toFinset s,h,sorted_toFinset]

@[simp] theorem sorted_empty : sorted ∅=[] := Finset.sort_empty _

/-- Two strings in order are listed in that order. -/
theorem sorted_pair {s t : Str} (h : s<t) : sorted {s,t}=[s,t] := by
  have hle : ∀ r∈({t} : Finset Str),s≤r := fun r hr => Finset.mem_singleton.mp hr ▸ le_of_lt h
  have hnot : s∉({t} : Finset Str) := fun hm => ne_of_lt h (Finset.mem_singleton.mp hm)
  rw [sorted,Finset.sort_insert _ hle hnot,Finset.sort_singleton]

/-- Nonempty entries joined by line feeds, with one more at the end, are the
entries each ended by a line feed. -/
theorem join_lf {parts : List Str} (hne : parts≠[]) :
    join [lf] parts++[lf]=parts.flatMap (fun part => part++[lf]) := by
  induction parts with
  | nil => exact absurd rfl hne
  | cons part parts ih =>
    cases parts with
    | nil => simp [join,List.intercalate]
    | cons next parts =>
      have hi := ih (List.cons_ne_nil _ _)
      rw [List.flatMap_cons,←hi]
      simp [join,List.intercalate]

/-- The characters of a number are digits. -/
theorem digits_bounds {n : ℕ} {c : CodePoint} (h : c∈digits n) : 0x30≤c.val ∧ c.val≤0x39 := by
  obtain ⟨d,hd,rfl⟩ := List.mem_map.mp h
  have hdigit : d.isDigit=true := by
    refine Nat.isDigit_of_mem_toDigits (b:=10) (n:=n) (by decide) (by decide) ?_
    simpa using hd
  simp only [Char.isDigit,Bool.and_eq_true,decide_eq_true_eq,ge_iff_le,UInt32.le_iff_toNat_le]
    at hdigit
  exact hdigit

theorem lineFree_digits (n : ℕ) : LineFree (digits n) := by
  intro c hc
  have hbounds := digits_bounds hc
  simp only [isLineBoundary,Bool.or_eq_false_iff,Bool.and_eq_false_iff,
    decide_eq_false_iff_not,beq_eq_false_iff_ne]
  omega

/-- Joined lines have a UTF-8 form when each has one. -/
theorem encodes_join {parts : List Str} :
    encodes (join [lf] parts++[lf])=true ↔ ∀ part∈parts,encodes part=true := by
  have hlf : encodes [lf]=true := by decide
  by_cases hne : parts=[]
  · rw [hne]
    exact iff_of_true (by decide) (fun _ h => absurd h List.not_mem_nil)
  · rw [join_lf hne,encodes,List.all_flatMap,List.all_eq_true]
    constructor
    · intro h part hp
      exact (encodes_append.mp (h part hp)).1
    · intro h part hp
      exact encodes_append.mpr ⟨h part hp,hlf⟩

/-- What the line reader gives back for a committed list of boundary-free
entries: the entries, or one empty line when there are none. -/
theorem splitlines_join {parts : List Str} (hl : ∀ part∈parts,LineFree part) :
    splitlines (join [lf] parts++[lf])=if parts=[] then [[]] else parts := by
  by_cases h : parts=[]
  · rw [if_pos h,h]
    rfl
  · rw [if_neg h,join_lf h]
    have hs := splitlines_flatMap hl []
    rw [List.append_nil,splitlines_nil,List.append_nil] at hs
    exact hs

end MlopsPlatform.TextSorted
