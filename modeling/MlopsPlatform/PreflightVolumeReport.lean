import MlopsPlatform.PreflightChecks

/-!
# From the init script's record to the doctor's verdict

The init script writes a salt and a digest without a newline at the end, the
probe prints them after a marker line, compose narrates before and after, and
the check recomputes the digest. A narration none of whose lines is a marker
hides nothing: what is read is the state of the directory.
-/

namespace MlopsPlatform.PreflightVolumeReport

open TextCodec TextLines TextStrip TextSeparators PythonFiles DigestHex
open PreflightCredentials PreflightRuntime PreflightChecks

/-- The colon, which separates salt, user and password. -/
def colon : CodePoint := 0x3a

/-- A record of a salt and a digest. -/
def recordText (salt digest : Str) : Str := salt++colon::digest

/-- A nonempty string of hexadecimal digits. -/
def HexText (s : Str) : Prop := s≠[] ∧ s.all isHex=true

/-- What a data directory is, as a state of the volume. -/
inductive TrueState : DataDirectory→VolumeState→Prop where
  /-- There is no data. -/
  | empty : TrueState ⟨false,none⟩ ⟨.empty,[],[],[]⟩
  /-- There is data and no record. -/
  | unrecorded : TrueState ⟨true,none⟩ ⟨.unfingerprinted,[],[],[]⟩
  /-- There is a record. -/
  | recorded (version : Bool) {salt digest : Str} (hs : HexText salt) (hd : HexText digest) :
    TrueState ⟨version,some (recordText salt digest)⟩ ⟨.fingerprinted,salt,digest,[]⟩

/-- The line is one of the three markers. -/
def IsMarker (line : Str) : Prop :=
  line=Kind.fingerprinted.marker ∨ line=Kind.empty.marker ∨ line=Kind.unfingerprinted.marker

/-- Whole lines of which none, stripped, is a marker. -/
structure Narration (text : Str) : Prop where
  /-- The text is a sequence of whole lines. -/
  whole : WholeLines text
  /-- No line is a marker. -/
  quiet : ∀ line∈splitlines text,¬IsMarker (strip line)

/-- A text that is empty or starts with a line feed. -/
def Trailer (text : Str) : Prop := text=[] ∨ text.head?=some lf

/-- A hexadecimal digit is no whitespace, no colon and has a UTF-8 form. -/
theorem hex_plain {c : CodePoint} (h : isHex c=true) :
    isSpace c=false ∧ c≠colon ∧ c≠0x20 ∧ isScalar c=true := by
  simp only [isHex,Bool.or_eq_true,Bool.and_eq_true,decide_eq_true_eq] at h
  refine ⟨?_,?_,?_,?_⟩
  · simp only [isSpace,Bool.or_eq_false_iff,Bool.and_eq_false_iff,decide_eq_false_iff_not,
      beq_eq_false_iff_ne]
    omega
  · intro hc
    have hv : c.val=0x3a := congrArg Fin.val hc
    omega
  · intro hc
    have hv : c.val=0x20 := congrArg Fin.val hc
    omega
  · rw [isScalar_iff]
    omega

/-- A record is one nonempty line without whitespace. -/
theorem recordText_not_space {salt digest : Str} (hs : salt.all isHex=true)
    (hd : digest.all isHex=true) : ∀ c∈recordText salt digest,isSpace c=false := by
  intro c hc
  rcases List.mem_append.mp hc with hc|hc
  · exact (hex_plain (List.all_eq_true.mp hs c hc)).1
  · rcases List.mem_cons.mp hc with rfl|hc
    · decide
    · exact (hex_plain (List.all_eq_true.mp hd c hc)).1

/-- A record is cut at its colon. -/
theorem readRecord_recordText {salt digest : Str} (hs : HexText salt) (hd : HexText digest) :
    readRecord (recordText salt digest)=⟨.fingerprinted,salt,digest,[]⟩ := by
  have hcolon : colon∉salt := fun hc => (hex_plain (List.all_eq_true.mp hs.2 _ hc)).2.1 rfl
  have hcut : partition 0x3a (recordText salt digest)=(salt,[colon],digest) :=
    partition_first hcolon digest
  simp only [readRecord,hcut,if_pos (And.intro hs.1 hd.1)]

/-- Lines that are no marker are passed over. -/
theorem scanReport_append {lines : List Str} (h : ∀ line∈lines,¬IsMarker line)
    (rest : List Str) : scanReport (lines++rest)=scanReport rest := by
  induction lines with
  | nil => rfl
  | cons line lines ih =>
    have hline := h line List.mem_cons_self
    rw [IsMarker,not_or,not_or] at hline
    rw [List.cons_append,scanReport,if_neg hline.1]
    dsimp only
    rw [if_neg hline.2.2,if_neg hline.2.1]
    exact ih (fun l hl => h l (List.mem_cons_of_mem _ hl))

/-- The nonblank stripped lines of two texts printed one after the other. -/
theorem reportLines_append {s t : Str} (hs : WholeLines s) (ht : t.head?≠some lf) :
    reportLines (s++t)=reportLines s++reportLines t := by
  simp only [reportLines,splitlines_append hs ht,List.map_append,List.filter_append]

/-- A line without whitespace that is followed by nothing or by a newline. -/
theorem reportLines_line {line trailer : Str} (hne : line≠[])
    (hplain : ∀ c∈line,isSpace c=false) (ht : Trailer trailer) :
    ∃ rest,reportLines (line++trailer)=line::rest := by
  have hfree := lineFree_of_not_space hplain
  have hstrip := strip_of_trimmed (trimmed_of_not_space hplain)
  have hkeep : ∀ rest,(((line::rest).map strip).filter (fun l => l≠[]))=
      line::((rest.map strip).filter (fun l => l≠[])) := by
    intro rest
    rw [List.map_cons,hstrip,List.filter_cons_of_pos (by simpa using hne)]
  rcases ht with rfl|ht
  · refine ⟨[],?_⟩
    rw [List.append_nil,reportLines,splitlines_last hfree hne,hkeep]
    rfl
  · obtain ⟨t,rfl⟩ := List.head?_eq_some_iff.mp ht
    refine ⟨reportLines t,?_⟩
    rw [reportLines,splitlines_line hfree,hkeep,reportLines]

/-- A marker is one nonempty line without whitespace. -/
theorem marker_plain (kind : Kind) :
    kind.marker≠[] ∧ ∀ c∈kind.marker,isSpace c=false := by
  cases kind <;> exact ⟨List.cons_ne_nil _ _,notSpace_literal _ rfl⟩

/-- The lines that follow a marker line. -/
theorem reportLines_marker (kind : Kind) (rest : Str) :
    reportLines (kind.marker++[lf]++rest)=kind.marker::reportLines rest := by
  have hplain := (marker_plain kind).2
  have hstrip := strip_of_trimmed (trimmed_of_not_space hplain)
  rw [List.append_assoc,List.singleton_append,reportLines,
    splitlines_line (lineFree_of_not_space hplain),List.map_cons,hstrip,
    List.filter_cons_of_pos (by simpa using (marker_plain kind).1),reportLines]

/-- A marker does not start with a line feed. -/
theorem marker_head (kind : Kind) (rest : Str) : (kind.marker++rest).head?≠some lf := by
  cases kind <;> exact fun h => absurd (Option.some.inj h) (by decide)

/-- The lines of a narration are passed over, whatever is printed next. -/
theorem scan_after_narration {narration rest : Str} (hn : Narration narration)
    (hrest : rest.head?≠some lf) :
    scanReport (reportLines (narration++rest))=scanReport (reportLines rest) := by
  rw [reportLines_append hn.whole hrest]
  refine scanReport_append (fun line hl => ?_) _
  obtain ⟨hmap,-⟩ := List.mem_filter.mp hl
  obtain ⟨raw,hraw,rfl⟩ := List.mem_map.mp hmap
  exact hn.quiet raw hraw

/-- The probe's report of a directory is read as the directory's state, past
any narration and before any trailer. -/
theorem parse_reportScript {directory : DataDirectory} {volume : VolumeState}
    (ht : TrueState directory volume) {narration trailer : Str} (hn : Narration narration)
    (htrailer : Trailer trailer) (stderr : Str) :
    parseVolumeReport 0 (narration++reportScript directory++trailer) stderr=.ok volume := by
  have hscan : ∀ (kind : Kind) (rest : Str),
      parseVolumeReport 0 (narration++(kind.marker++[lf]++rest)) stderr=
        .ok (scanReport (kind.marker::reportLines rest)) := by
    intro kind rest
    have hhead : (kind.marker++[lf]++rest).head?≠some lf := by
      rw [List.append_assoc]
      exact marker_head kind _
    rw [parseVolumeReport,if_neg (not_not.mpr rfl),scan_after_narration hn hhead,
      reportLines_marker]
  cases ht with
  | empty =>
    have hreport : reportScript ⟨false,none⟩=Kind.empty.marker++[lf] := rfl
    rw [hreport,List.append_assoc,hscan,scanReport,if_neg (by decide)]
    dsimp only
    rw [if_neg (by decide),if_pos rfl]
  | unrecorded =>
    have hreport : reportScript ⟨true,none⟩=Kind.unfingerprinted.marker++[lf] := rfl
    rw [hreport,List.append_assoc,hscan,scanReport,if_neg (by decide)]
    dsimp only
    rw [if_pos rfl]
  | @recorded version salt digest hs hd =>
    have hreport : reportScript ⟨version,some (recordText salt digest)⟩=
        Kind.fingerprinted.marker++[lf]++recordText salt digest := rfl
    have hne : recordText salt digest≠[] := by
      intro h
      exact hs.1 (List.append_eq_nil_iff.mp h).1
    obtain ⟨rest,hrest⟩ := reportLines_line hne (recordText_not_space hs.2 hd.2) htrailer
    rw [hreport,List.append_assoc,List.append_assoc _ (recordText salt digest),hscan,hrest,
      scanReport,if_pos rfl]
    dsimp only [List.head?_cons]
    rw [readRecord_recordText hs hd]

/-- The digest is the first field of what sha256sum prints. -/
theorem firstField_sha256sum (sha256 : Digest) (bytes : ByteArray) :
    firstField (sha256sum sha256 bytes)=sha256.hexdigest bytes := by
  have hblank : (0x20 : CodePoint)∉sha256.hexdigest bytes :=
    fun hc => (hex_plain (List.all_eq_true.mp (sha256.hex bytes) _ hc)).2.2.1 rfl
  have hcut : partition 0x20 (sha256sum sha256 bytes)=
      (sha256.hexdigest bytes,[0x20],str " -") := partition_first hblank (str " -")
  rw [firstField,hcut]

/-- The joined text of three texts. -/
theorem credentialJoin_str (salt user password : String) :
    credentialJoin (str salt) (str user) (str password)=
      str (salt++":"++user++":"++password) := by
  simp only [credentialJoin,str_append]

/-- The shell and the Python side make one digest of one pair. -/
theorem fingerprint_str (sha256 : Digest) (salt user password : String) :
    fingerprint sha256 (str salt) (str user) (str password)=
      .ok (sha256.hexdigest (salt++":"++user++":"++password).toUTF8) := by
  simp only [fingerprint,credentialJoin_str,encode_str]

/-- The init script records the salt and the Python side's digest. -/
theorem recordInitCredentials_eq (sha256 : Digest) {salt user password : String} {digest : Str}
    (hs : str salt≠[])
    (hf : fingerprint sha256 (str salt) (str user) (str password)=.ok digest) :
    recordInitCredentials sha256 salt user password=some (recordText (str salt) digest) ∧
      HexText digest := by
  rw [fingerprint_str,Except.ok.injEq] at hf
  have hne : digest≠[] := by
    rw [←hf]
    exact sha256.nonempty _
  refine ⟨?_,hne,?_⟩
  · simp only [recordInitCredentials,firstField_sha256sum,hf,if_pos (And.intro hs hne)]
    rw [List.append_assoc]
    rfl
  · rw [←hf]
    exact sha256.hex _

/-- The joined text is the salt and its colon, then the joined pair. -/
theorem credentialJoin_split (salt user password : Str) :
    credentialJoin salt user password=(salt++str ":")++(user++str ":"++password) := by
  simp only [credentialJoin,List.append_assoc]

/-- A record of one pair fails for every pair with another join. -/
theorem fingerprint_ne {sha256 : Digest} {salt user password other secret digest : Str}
    (hf : fingerprint sha256 salt user password=.ok digest)
    (hjoin : other++str ":"++secret≠user++str ":"++password) {digest' : Str}
    (hf' : fingerprint sha256 salt other secret=.ok digest') : digest≠digest' := by
  intro hd
  rw [←hd] at hf'
  have hj := fingerprint_join hf' hf
  rw [credentialJoin_split,credentialJoin_split] at hj
  exact hjoin (List.append_cancel_left hj)

/-- The record, the probe and the check agree from end to end. Whatever
compose narrates around it, the report of a directory is read as its state;
the check passes an empty one, cannot tell one without a record, passes the
record the init script wrote from the pair in hand and fails it for every pair
whose join differs. -/
theorem record_read_back (sha256 : Digest) {salt user password : String}
    (hs : HexText (str salt)) {narration trailer : Str} (hn : Narration narration)
    (ht : Trailer trailer) (stderr : Str) :
    (∀ directory volume,TrueState directory volume →
      parseVolumeReport 0 (narration++reportScript directory++trailer) stderr=.ok volume) ∧
    (∀ candidate secret,∃ detail,
      checkPostgresVolume sha256 ⟨.empty,[],[],[]⟩ candidate secret=
        .ok ⟨postgresVolume,.ok,detail⟩) ∧
    (∀ candidate secret,∃ detail,
      checkPostgresVolume sha256 ⟨.unfingerprinted,[],[],[]⟩ candidate secret=
        .ok ⟨postgresVolume,.unknown,detail⟩) ∧
    ∃ record digest,recordInitCredentials sha256 salt user password=some record ∧
      (∀ version,TrueState ⟨version,some record⟩ ⟨.fingerprinted,str salt,digest,[]⟩) ∧
      (∃ detail,checkPostgresVolume sha256 ⟨.fingerprinted,str salt,digest,[]⟩ (str user)
        (str password)=.ok ⟨postgresVolume,.ok,detail⟩) ∧
      ∀ candidate secret : String,
        str candidate++str ":"++str secret≠str user++str ":"++str password →
        ∃ detail,checkPostgresVolume sha256 ⟨.fingerprinted,str salt,digest,[]⟩ (str candidate)
          (str secret)=.ok ⟨postgresVolume,.fail,detail⟩ := by
  have hf := fingerprint_str sha256 salt user password
  obtain ⟨hrecord,hhex⟩ := recordInitCredentials_eq sha256 hs.1 hf
  refine ⟨fun directory volume h => parse_reportScript h hn ht stderr,
    fun _ _ => checkPostgresVolume_empty rfl,
    fun _ _ => checkPostgresVolume_unfingerprinted rfl,
    _,_,hrecord,fun version => .recorded version hs hhex,
    checkPostgresVolume_match rfl hf,fun candidate secret hjoin => ?_⟩
  have hf' := fingerprint_str sha256 salt candidate secret
  exact checkPostgresVolume_mismatch rfl hf' (fingerprint_ne hf hjoin hf')

theorem record_read_back_sample :
    parseVolumeReport 0 (str "[+] Creating 1/1\n"++
      reportScript ⟨true,some (recordText (str sampleSalt) sampleHex)⟩++str "\n") []=
        .ok ⟨.fingerprinted,str sampleSalt,sampleHex,[]⟩ := by
  have hs : HexText (str sampleSalt) := ⟨by decide,by decide +kernel⟩
  have hlines : splitlines (str "[+] Creating 1/1\n")=[str "[+] Creating 1/1"] := by decide +kernel
  have hn : Narration (str "[+] Creating 1/1\n") := by
    refine ⟨fun c hc => ?_,fun line hl => ?_⟩
    · have hlast : c=lf := (Option.some.inj hc).symm
      rw [hlast]
      rfl
    · rw [hlines,List.mem_singleton] at hl
      rw [hl,IsMarker]
      decide +kernel
  have ht : Trailer (str "\n") := Or.inr rfl
  have h := @record_read_back sampleDigest sampleSalt "platform" "1f4c9b2e7a" hs _ _ hn ht []
  exact h.1 _ _ (.recorded true hs ⟨by decide,by decide +kernel⟩)

end MlopsPlatform.PreflightVolumeReport
