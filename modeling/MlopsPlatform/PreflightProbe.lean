import MlopsPlatform.PreflightVolumeReport

/-!
# What a broken probe is read as

The reader of the probe's report answers for every exit code and output. The
scan stops at the first marker line, a `fingerprint` line counts with the line
behind it, and what no marker says is never read: without one the volume is
unreadable, and not empty.
-/

namespace MlopsPlatform.PreflightProbe

open TextCodec TextLines TextStrip TextSeparators PreflightRuntime PreflightVolumeReport

/-- None of these lines is a marker. -/
def Quiet (lines : List Str) : Prop := ∀ line∈lines,¬IsMarker line

/-- How the scan of stripped nonblank lines ends. -/
inductive Reading : List Str→VolumeState→Prop where
  /-- A `fingerprint` line comes first, and its record is read. -/
  | recorded {before after : List Str} (record : Str) (quiet : Quiet before) :
    Reading (before++Kind.fingerprinted.marker::record::after) (readRecord record)
  /-- One of the other markers comes first. -/
  | marked {before after : List Str} {kind : Kind} (quiet : Quiet before)
    (bare : kind=.unfingerprinted ∨ kind=.empty) :
    Reading (before++kind.marker::after) ⟨kind,[],[],[]⟩
  /-- There is no marker, or a `fingerprint` line without a record at the end. -/
  | silent {lines : List Str}
    (unread : Quiet lines ∨ ∃ before,lines=before++[Kind.fingerprinted.marker] ∧ Quiet before) :
    Reading lines ⟨.unreadable,[],[],str "the probe container reported nothing readable"⟩

/-- Of what the reader returns for an exit code and an output. -/
structure FailsClosed (returncode : ℤ) (stdout : Str) (state : VolumeState) : Prop where
  /-- A failed probe says nothing of the volume. -/
  failed : returncode≠0 → state.kind=.unreadable
  /-- A fingerprint was written on the first nonblank line after a marker. -/
  recorded : state.kind=.fingerprinted →
    ∃ before marker between record after,
      splitlines stdout=before++marker::between++record::after ∧
      strip marker=Kind.fingerprinted.marker ∧ (∀ line∈between,strip line=[]) ∧
      strip record≠[] ∧ strip record=state.salt++colon::state.digest ∧
      colon∉state.salt ∧ state.salt≠[] ∧ state.digest≠[]
  /-- The two other states were named by a probe that succeeded, on a line of
  their own with no `fingerprint` line before it. -/
  marked : state.kind=.empty ∨ state.kind=.unfingerprinted →
    returncode=0 ∧ ∃ before line after,splitlines stdout=before++line::after ∧
      strip line=state.kind.marker ∧
      ∀ earlier∈before,strip earlier≠Kind.fingerprinted.marker
  /-- Without a marker line nothing is read. -/
  silent : (∀ line∈splitlines stdout,¬IsMarker (strip line)) → state.kind=.unreadable

variable {lines before after : List Str} {state : VolumeState} {line : Str}

theorem quiet_nil : Quiet [] := fun _ h => absurd h List.not_mem_nil

/-- One more line that is no marker. -/
theorem Quiet.cons (hline : ¬IsMarker line) (h : Quiet lines) : Quiet (line::lines) :=
  List.forall_mem_cons.mpr ⟨hline,h⟩

/-- A line before the first marker changes nothing. -/
theorem Reading.skip (hline : ¬IsMarker line) (h : Reading lines state) :
    Reading (line::lines) state := by
  cases h with
  | recorded record quiet => exact .recorded record (quiet.cons hline)
  | marked quiet bare => exact .marked (quiet.cons hline) bare
  | silent unread =>
    refine .silent (unread.imp (fun quiet => quiet.cons hline) ?_)
    rintro ⟨before,rfl,quiet⟩
    exact ⟨line::before,rfl,quiet.cons hline⟩

/-- Every scan ends in one of these ways. -/
theorem scanReport_reading (lines : List Str) : Reading lines (scanReport lines) := by
  induction lines with
  | nil => exact .silent (Or.inl quiet_nil)
  | cons line rest ih =>
    rw [scanReport]
    by_cases hfinger : line=Kind.fingerprinted.marker
    · cases rest with
      | nil =>
        rw [hfinger]
        exact .silent (Or.inr ⟨[],rfl,quiet_nil⟩)
      | cons record rest =>
        rw [hfinger,if_pos rfl]
        exact .recorded record quiet_nil
    · rw [if_neg hfinger]
      dsimp only
      by_cases hun : line=Kind.unfingerprinted.marker
      · rw [if_pos hun,hun]
        exact .marked quiet_nil (Or.inl rfl)
      · rw [if_neg hun]
        by_cases hempty : line=Kind.empty.marker
        · rw [if_pos hempty,hempty]
          exact .marked quiet_nil (Or.inr rfl)
        · rw [if_neg hempty]
          refine ih.skip ?_
          rw [IsMarker,not_or,not_or]
          exact ⟨hfinger,hempty,hun⟩

/-- A record is a fingerprint only with a salt and a digest around its first colon. -/
theorem readRecord_fingerprinted {record : Str} (h : (readRecord record).kind=.fingerprinted) :
    record=(readRecord record).salt++colon::(readRecord record).digest ∧
      colon∉(readRecord record).salt ∧ (readRecord record).salt≠[] ∧
      (readRecord record).digest≠[] := by
  rcases exists_partition colon record with habsent|⟨salt,digest,hrecord,hsalt⟩
  · have hparts : partition 0x3a record=(record,[],[]) := partition_absent habsent
    rw [readRecord,hparts,if_neg (fun hn => hn.2 rfl)] at h
    cases h
  · have hparts : partition 0x3a record=(salt,[colon],digest) := by
      rw [hrecord]
      exact partition_first hsalt digest
    by_cases hboth : salt≠[] ∧ digest≠[]
    · have hread : readRecord record=⟨.fingerprinted,salt,digest,[]⟩ := by
        rw [readRecord,hparts,if_pos hboth]
      rw [hread]
      exact ⟨hrecord,hsalt,hboth.1,hboth.2⟩
    · rw [readRecord,hparts,if_neg hboth] at h
      cases h

/-- A record is never one of the two other states. -/
theorem readRecord_kind (record : Str) :
    (readRecord record).kind=.fingerprinted ∨ (readRecord record).kind=.unreadable := by
  unfold readRecord
  dsimp only
  split
  · exact Or.inl rfl
  · exact Or.inr rfl

/-- The stripped nonblank lines among some lines. -/
theorem kept_cut {x : Str} {rest : List Str}
    (h : (lines.map strip).filter (fun l => l≠[])=before++x::rest) :
    ∃ first line last,lines=first++line::last ∧ strip line=x ∧ x≠[] ∧
      (first.map strip).filter (fun l => l≠[])=before ∧
      (last.map strip).filter (fun l => l≠[])=rest := by
  obtain ⟨l,r,hmap,hbefore,hcons⟩ := List.filter_eq_append_iff.mp h
  obtain ⟨skipped,tail,rfl,hskipped,hx,hrest⟩ := List.filter_eq_cons_iff.mp hcons
  rw [←List.append_assoc] at hmap
  obtain ⟨first,others,rfl,hfirst,hothers⟩ := List.map_eq_append_iff.mp hmap
  obtain ⟨line,last,rfl,hline,hlast⟩ := List.map_eq_cons_iff.mp hothers
  refine ⟨first,line,last,rfl,hline,by simpa using hx,?_,by rw [hlast]; exact hrest⟩
  rw [hfirst,List.filter_append,hbefore,List.filter_eq_nil_iff.mpr hskipped,List.append_nil]

/-- Lines of which no stripped nonblank one is a marker. -/
theorem not_isMarker_of_kept {first : List Str}
    (h : Quiet ((first.map strip).filter (fun l => l≠[]))) {earlier : Str}
    (hm : earlier∈first) : ¬IsMarker (strip earlier) := by
  intro hmarker
  refine h (strip earlier) (List.mem_filter.mpr ⟨List.mem_map_of_mem hm,?_⟩) hmarker
  have hne : strip earlier≠[] := by
    intro he
    rw [he] at hmarker
    rcases hmarker with h|h|h <;> exact absurd h (by decide)
  exact decide_eq_true hne

/-- Lines of which none is kept are blank. -/
theorem blank_of_kept {first : List Str} (h : (first.map strip).filter (fun l => l≠[])=[]) :
    ∀ line∈first,strip line=[] := by
  intro line hm
  have hno := List.filter_eq_nil_iff.mp h _ (List.mem_map_of_mem hm)
  simpa using hno

/-- What a scan of a successful probe's output returns fails closed. -/
theorem failsClosed_of_reading {stdout : Str} (h : Reading (reportLines stdout) state) :
    FailsClosed 0 stdout state := by
  have hfailed : (0 : ℤ)≠0 → state.kind=.unreadable := fun hne => absurd rfl hne
  generalize hlines : reportLines stdout=lines at h
  cases h with
  | recorded record quiet =>
    obtain ⟨first,marker,last,hcut,hmarker,-,-,hlast⟩ := kept_cut hlines
    rw [←List.nil_append (record::_)] at hlast
    obtain ⟨between,line,rest,rfl,hline,hne,hbetween,-⟩ := kept_cut hlast
    refine ⟨hfailed,fun hkind => ?_,fun hkind => ?_,fun hsilent => ?_⟩
    · have hrecord := readRecord_fingerprinted hkind
      refine ⟨first,marker,between,line,rest,?_,hmarker,blank_of_kept hbetween,?_,?_,hrecord.2⟩
      · rw [hcut,List.append_assoc,List.cons_append]
      · rwa [hline]
      · rw [hline]
        exact hrecord.1
    · rcases readRecord_kind record with hr|hr <;> rw [hr] at hkind <;> rcases hkind with hk|hk <;>
        cases hk
    · refine absurd (Or.inl hmarker) (hsilent marker ?_)
      rw [hcut]
      exact List.mem_append_right _ List.mem_cons_self
  | @marked before after kind quiet bare =>
    obtain ⟨first,line,last,hcut,hline,-,hfirst,-⟩ := kept_cut hlines
    rw [←hfirst] at quiet
    refine ⟨hfailed,fun hkind => ?_,fun _ => ⟨rfl,first,line,last,hcut,hline,?_⟩,fun hsilent => ?_⟩
    · rcases bare with rfl|rfl <;> cases hkind
    · exact fun earlier hm hmarker => not_isMarker_of_kept quiet hm (Or.inl hmarker)
    · have hm : line∈splitlines stdout := by
        rw [hcut]
        exact List.mem_append_right _ List.mem_cons_self
      refine absurd ?_ (hsilent line hm)
      rw [hline]
      rcases bare with rfl|rfl
      · exact Or.inr (Or.inr rfl)
      · exact Or.inr (Or.inl rfl)
  | silent unread =>
    exact ⟨hfailed,fun hkind => (by cases hkind),fun hkind => (by rcases hkind with hk|hk <;> cases hk),
      fun _ => rfl⟩

/-- The reader of the probe's report answers on every exit code and output,
and fails closed. A nonzero code is read as an unreadable volume; a
fingerprint has a salt and a digest from the first nonblank line after a
`fingerprint` line; an empty or unrecorded volume is one a successful probe
named on a line of its own; and an output without a marker line is unreadable. -/
theorem probe_fails_closed (returncode : ℤ) (stdout stderr : Str) :
    ∃ state,parseVolumeReport returncode stdout stderr=.ok state ∧
      FailsClosed returncode stdout state := by
  by_cases h : returncode=0
  · refine ⟨scanReport (reportLines stdout),?_,?_⟩
    · rw [parseVolumeReport,if_neg (not_not.mpr h)]
    · rw [h]
      exact failsClosed_of_reading (scanReport_reading _)
  · obtain ⟨detail,hd⟩ := parseVolumeReport_failed h stdout stderr
    exact ⟨_,hd,fun _ => rfl,fun hkind => (by cases hkind),
      fun hkind => (by rcases hkind with hk|hk <;> cases hk),fun _ => rfl⟩

end MlopsPlatform.PreflightProbe
