import MlopsPlatform.SupplyEntrypoints
import MlopsPlatform.SupplyImagesComplete

/-!
# When the files of two images are the same files

Every file of an image is named after its stem, so images are kept apart
exactly when their stems are. A stem forgets the digest, and which of the three
joining characters stood at a place.
-/

namespace MlopsPlatform.SupplyStems

open TextCodec TextStrip TextSorted TextSeparators PythonYaml PythonFiles SupplyEntrypoints SupplyImages
  SupplyImagesComplete

/-- The endings of the files of an image. -/
def endings : List Str :=
  [str ".spdx.json",str ".packages.txt",str ".findings.json",str ".known.txt"]

/-- The files of an image in the sbom directory: its document, its inventory,
its report and its baseline. -/
def filesOf (name : Str) : List Str := endings.map (fun ending => name++ending)

/-- A reference up to its digest. -/
def undigested (reference : Str) : Str := reference.takeWhile (fun c => c≠atSign)

/-- One of the characters a stem writes as an underscore. -/
def Joining (c : CodePoint) : Prop := c=0x2f ∨ c=0x3a ∨ c=0x5f

/-- Two references agree up to their digests, but for places where each has one
of the joining characters. -/
def Meet (reference other : Str) : Prop :=
  List.Forall₂ (fun c d => c=d ∨ Joining c ∧ Joining d) (undigested reference) (undigested other)

/-- Different references have different stems and no file in common. -/
def StemsApart (listed : List Str) : Prop :=
  ∀ r∈listed,∀ s∈listed,r≠s →
    stem r≠stem s ∧ (filesOf (stem r)).Disjoint (filesOf (stem s))

/-- No ending is the end of another one. -/
theorem endings_apart {ending other : Str} (h : ending∈endings) (ho : other∈endings)
    (hsuffix : ending<:+other) : ending=other := by
  have hall : ∀ e∈endings,∀ o∈endings,e<:+o → e=o := by decide
  exact hall ending h other ho hsuffix

/-- A file tells which stem it belongs to. -/
theorem filesOf_disjoint_iff {name other : Str} :
    (filesOf name).Disjoint (filesOf other) ↔ name≠other := by
  constructor
  · intro h he
    have hm : name++str ".known.txt"∈filesOf name :=
      List.mem_map.mpr ⟨str ".known.txt",by decide,rfl⟩
    rw [←he] at h
    exact h hm hm
  · intro hne file hfile hother
    obtain ⟨e,he,rfl⟩ := List.mem_map.mp hfile
    obtain ⟨o,ho,heq⟩ := List.mem_map.mp hother
    have hsame : e=o := by
      rcases List.suffix_or_suffix_of_suffix (List.suffix_append name e)
        (heq ▸ List.suffix_append other o) with hs|hs
      · exact endings_apart he ho hs
      · exact (endings_apart ho he hs).symm
    rw [hsame] at heq
    exact hne (List.append_cancel_right heq).symm

/-- A stem is made from what precedes the digest. -/
theorem stem_eq (reference : Str) : stem reference=(undigested reference).map underscore := by
  have hbefore : (partition atSign reference).1=undigested reference := by
    have hstop : ∀ left : Str,atSign∉left → ∀ rest : Str,rest.head?.all (fun c => c=atSign) →
        (left++rest).takeWhile (fun c => decide (c≠atSign))=left := by
      intro left hleft rest hrest
      have hkept : ∀ c∈left,decide (c≠atSign)=true := by
        intro c hc
        exact decide_eq_true (fun h => hleft (h ▸ hc))
      rw [List.takeWhile_append_of_pos hkept]
      cases rest with
      | nil => exact List.append_nil left
      | cons c rest =>
        have hc : c=atSign := by simpa using hrest
        rw [List.takeWhile_cons_of_neg (by simp [hc]),List.append_nil]
    rcases exists_partition atSign reference with habsent|⟨left,right,rfl,hleft⟩
    · have hs := hstop reference habsent [] rfl
      rw [List.append_nil] at hs
      rw [partition_absent habsent,undigested,hs]
    · have hrest : (atSign::right).head?.all (fun c => decide (c=atSign))=true := by simp
      rw [partition_first hleft,undigested,hstop left hleft _ hrest]
  rw [stem,hbefore]

/-- What a stem makes of two characters is the same when they are the same or
both join. -/
theorem underscore_eq_iff {c d : CodePoint} :
    underscore c=underscore d ↔ c=d ∨ Joining c ∧ Joining d := by
  unfold underscore Joining
  by_cases hc : c=0x2f ∨ c=0x3a
  · by_cases hd : d=0x2f ∨ d=0x3a
    · rw [if_pos hc,if_pos hd]
      exact iff_of_true rfl (Or.inr ⟨hc.imp id Or.inl,hd.imp id Or.inl⟩)
    · rw [if_pos hc,if_neg hd]
      constructor
      · intro h
        exact Or.inr ⟨hc.imp id Or.inl,Or.inr (Or.inr h.symm)⟩
      · rintro (rfl|⟨-,h⟩)
        · exact absurd hc hd
        · exact ((or_assoc.mpr h).resolve_left hd).symm
  · by_cases hd : d=0x2f ∨ d=0x3a
    · rw [if_neg hc,if_pos hd]
      constructor
      · intro h
        exact Or.inr ⟨Or.inr (Or.inr h),hd.imp id Or.inl⟩
      · rintro (rfl|⟨h,-⟩)
        · exact absurd hd hc
        · exact (or_assoc.mpr h).resolve_left hc
    · rw [if_neg hc,if_neg hd]
      constructor
      · exact Or.inl
      · rintro (h|⟨h,h'⟩)
        · exact h
        · exact ((or_assoc.mpr h).resolve_left hc).trans ((or_assoc.mpr h').resolve_left hd).symm

/-- Two references have one stem exactly when they meet. -/
theorem stem_eq_iff {reference other : Str} : stem reference=stem other ↔ Meet reference other := by
  rw [stem_eq,stem_eq,←List.forall₂_eq_eq_eq,List.forall₂_map_left_iff,List.forall₂_map_right_iff]
  simp only [underscore_eq_iff]
  rfl

/-- The images of a list are kept apart exactly when no two of its references
meet. -/
theorem stems_apart_iff {reader : Reader Refusal} {files : Files} {listed : List Str}
    (h : references reader files=.ok listed) :
    StemsApart listed ↔ listed.Pairwise (fun r s => ¬Meet r s) := by
  have hdistinct := references_increasing h
  have hapart : ∀ {r s},stem r≠stem s ∧ (filesOf (stem r)).Disjoint (filesOf (stem s)) ↔
      ¬Meet r s := by
    intro r s
    rw [filesOf_disjoint_iff,and_self,Ne,stem_eq_iff]
  constructor
  · intro hall
    refine hdistinct.imp_of_mem (fun hr hs hlt => ?_)
    exact hapart.mp (hall _ hr _ hs (ne_of_lt hlt))
  · intro hpairs r hr s hs hne
    have hsymmetric : Std.Symm (fun r s => ¬Meet r s) :=
      ⟨fun r s hn hm => hn (stem_eq_iff.mp (stem_eq_iff.mpr hm).symm)⟩
    exact hapart.mpr (hpairs.forall hr hs hne)

/-- Two images with different tags are kept apart. -/
theorem stems_apart_tags : StemsApart [str "postgres:16",str "postgres:17"] := by
  have hpair := @references_pair (str "postgres:16") (str "postgres:17") (by decide) (by decide)
    "services:\n  a:\n    image: postgres:16\n  b:\n    image: postgres:17\n" ""
  have hsorted : sorted {strip (str "postgres:16"),strip (str "postgres:17")}=
      [str "postgres:16",str "postgres:17"] := sorted_pair (by decide)
  rw [hsorted] at hpair
  refine (stems_apart_iff hpair).mpr (List.pairwise_pair.mpr (fun h => ?_))
  exact absurd (stem_eq_iff.mpr h) (by decide)

/-- An image in a namespace and one with an underscore in its name are both
listed and have one stem, so one baseline. -/
theorem stems_apart_fails :
    let listed := [str "team/app:1",str "team_app:1"]
    references (spineReader (pairCompose (str "team/app:1") (str "team_app:1")))
        (spine "services:\n  a:\n    image: team/app:1\n  b:\n    image: team_app:1\n" "")=
      .ok listed ∧
      stem (str "team/app:1")=str "team_app_1" ∧ stem (str "team_app:1")=str "team_app_1" ∧
      ¬StemsApart listed := by
  intro listed
  have hpair := @references_pair (str "team/app:1") (str "team_app:1") (by decide) (by decide)
    "services:\n  a:\n    image: team/app:1\n  b:\n    image: team_app:1\n" ""
  have hsorted : sorted {strip (str "team/app:1"),strip (str "team_app:1")}=listed :=
    sorted_pair (by decide)
  rw [hsorted] at hpair
  refine ⟨hpair,by decide,by decide,fun h => ?_⟩
  have hstems := h (str "team/app:1") (by decide) (str "team_app:1") (by decide) (by decide)
  exact hstems.1 (by decide)

end MlopsPlatform.SupplyStems
