import MlopsPlatform.PreflightVolumeReport

/-!
# What a fingerprint tells about a credential pair

The digest is of the salt, the user and the password joined by colons, and a
user or a password may hold a colon itself. Two pairs have one digest when they
are the same pair or when the colon between them stands at two places of one
text, and the check of the volume can tell no more than the digest does.
-/

namespace MlopsPlatform.PreflightFingerprint

open TextCodec TextSeparators PythonFiles DigestHex PreflightCredentials PreflightRuntime
  PreflightChecks PreflightVolumeReport

/-- A volume that holds what the init script recorded of a pair. -/
def Recorded (sha256 : Digest) (salt user password : Str) (volume : VolumeState) : Prop :=
  volume.kind=.fingerprinted ∧ volume.salt=salt ∧
    ∃ s u p : String,salt=str s ∧ user=str u ∧ password=str p ∧
      recordInitCredentials sha256 s u p=some (recordText salt volume.digest)

/-- The fingerprint of a pair tells it from another one, and so does the check. -/
structure Identifies (sha256 : Digest) (salt user password other secret : Str) : Prop where
  /-- Equal fingerprints are of equal pairs. -/
  pair : ∀ digest,fingerprint sha256 salt user password=.ok digest →
    fingerprint sha256 salt other secret=.ok digest → user=other ∧ password=secret
  /-- The check passes only the pair that was recorded. -/
  passes : ∀ volume,Recorded sha256 salt user password volume →
    ∀ result,checkPostgresVolume sha256 volume other secret=.ok result → result.status=.ok →
      user=other ∧ password=secret
  /-- Any other pair fails. -/
  fails : ∀ volume,Recorded sha256 salt user password volume → ¬(user=other ∧ password=secret) →
    ∃ result,checkPostgresVolume sha256 volume other secret=.ok result ∧ result.status=.fail

/-- One pair is the other with the colon between user and password moved. -/
def ColonMoved (user password other secret : Str) : Prop :=
  ∃ w,(other=user++colon::w ∧ password=w++colon::secret) ∨
    (user=other++colon::w ∧ secret=w++colon::password)

variable {sha256 : Digest} {salt user password other secret : Str}

/-- Two pairs are joined to one text when they are equal or the colon moved. -/
theorem credentialJoin_eq_iff :
    credentialJoin salt user password=credentialJoin salt other secret ↔
      (user=other ∧ password=secret) ∨ ColonMoved user password other secret := by
  have hjoin : ∀ u p,credentialJoin salt u p=(salt++str ":")++(u++colon::p) := by
    intro u p
    rw [credentialJoin_split,List.append_assoc u]
    rfl
  rw [hjoin,hjoin,List.append_cancel_left_eq,append_cons_eq_iff,ColonMoved]

/-- A joined text has a UTF-8 form when its three parts have one. -/
theorem encodes_credentialJoin :
    encodes (credentialJoin salt user password)=true ↔
      encodes salt=true ∧ encodes user=true ∧ encodes password=true := by
  have hcolon : encodes (str ":")=true := by decide
  simp only [credentialJoin,encodes_append,hcolon,and_true,and_assoc]

/-- Three parts with a UTF-8 form have a fingerprint. -/
theorem fingerprint_of_encodes (h : encodes (credentialJoin salt user password)=true) :
    ∃ digest,fingerprint sha256 salt user password=.ok digest := by
  cases he : encode (credentialJoin salt user password) with
  | none => exact absurd h (encode_eq_none_iff.mp he)
  | some bytes => exact ⟨sha256.hexdigest bytes,by simp only [fingerprint,he]⟩

/-- Without a UTF-8 form the fingerprint raises. -/
theorem fingerprint_of_not_encodes (h : ¬encodes (credentialJoin salt user password)=true) :
    fingerprint sha256 salt user password=.error .unicodeEncode := by
  simp only [fingerprint,encode_eq_none_iff.mpr h]

/-- What has a fingerprint has a UTF-8 form. -/
theorem encodes_of_fingerprint {digest : Str}
    (h : fingerprint sha256 salt user password=.ok digest) :
    encodes (credentialJoin salt user password)=true := by
  by_contra hn
  rw [fingerprint_of_not_encodes hn] at h
  cases h

/-- Texts with one join have one fingerprint. -/
theorem fingerprint_congr
    (h : credentialJoin salt user password=credentialJoin salt other secret) :
    fingerprint sha256 salt user password=fingerprint sha256 salt other secret := by
  simp only [fingerprint,h]

/-- What is recorded of a pair is its fingerprint, under a nonempty salt. -/
theorem Recorded.fingerprint_eq {volume : VolumeState}
    (h : Recorded sha256 salt user password volume) :
    salt≠[] ∧ fingerprint sha256 salt user password=.ok volume.digest := by
  obtain ⟨-,-,s,u,p,rfl,rfl,rfl,hrecord⟩ := h
  have hs : str s≠[] := by
    intro hs
    simp only [recordInitCredentials,hs,ne_eq,not_true_eq_false,false_and,if_false] at hrecord
    cases hrecord
  obtain ⟨hrecord',-⟩ := recordInitCredentials_eq sha256 hs (fingerprint_str sha256 s u p)
  rw [hrecord',Option.some.injEq,recordText,recordText] at hrecord
  refine ⟨hs,(fingerprint_str sha256 s u p).trans (congrArg Except.ok ?_)⟩
  exact (List.cons.inj (List.append_cancel_left hrecord)).2

/-- A pair of texts is recorded under a nonempty salt. -/
theorem exists_recorded (hs : salt≠[]) {digest : Str}
    (h : encodes (credentialJoin salt user password)=true)
    (hf : fingerprint sha256 salt user password=.ok digest) :
    Recorded sha256 salt user password ⟨.fingerprinted,salt,digest,[]⟩ := by
  obtain ⟨hsalt,huser,hpassword⟩ := encodes_credentialJoin.mp h
  rw [←str_ofList hsalt,←str_ofList huser,←str_ofList hpassword] at hf
  rw [←str_ofList hsalt] at hs
  have hrecord := (recordInitCredentials_eq sha256 hs hf).1
  rw [str_ofList hsalt] at hrecord
  exact ⟨rfl,rfl,_,_,_,(str_ofList hsalt).symm,(str_ofList huser).symm,(str_ofList hpassword).symm,
    hrecord⟩

/-- Under one digest two pairs are equal, unless the colon moved. -/
theorem pair_of_fingerprint (hmoved : ¬ColonMoved user password other secret) {digest : Str}
    (hf : fingerprint sha256 salt user password=.ok digest)
    (hf' : fingerprint sha256 salt other secret=.ok digest) : user=other ∧ password=secret :=
  (credentialJoin_eq_iff.mp (fingerprint_join hf hf')).resolve_right hmoved

/-- The check of a recorded volume passes only what has the recorded digest. -/
theorem fingerprint_of_passes {volume : VolumeState} {result : Result}
    (hrecorded : Recorded sha256 salt user password volume)
    (hresult : checkPostgresVolume sha256 volume other secret=.ok result)
    (hok : result.status=.ok) : fingerprint sha256 salt other secret=.ok volume.digest := by
  simp only [checkPostgresVolume,hrecorded.1,hrecorded.2.1] at hresult
  cases hf : fingerprint sha256 salt other secret with
  | error raised =>
    rw [hf] at hresult
    cases hresult
  | ok digest =>
    rw [hf] at hresult
    dsimp only at hresult
    split at hresult
    · rename_i he
      rw [he]
    · cases hresult
      cases hok

/-- A pair that is told from the recorded one and has a fingerprint fails. -/
theorem fails_of_pair {volume : VolumeState}
    (hrecorded : Recorded sha256 salt user password volume)
    (hpair : ∀ digest,fingerprint sha256 salt user password=.ok digest →
      fingerprint sha256 salt other secret=.ok digest → user=other ∧ password=secret)
    (hother : ¬(user=other ∧ password=secret)) {digest : Str}
    (hf : fingerprint sha256 salt other secret=.ok digest) :
    ∃ result,checkPostgresVolume sha256 volume other secret=.ok result ∧ result.status=.fail := by
  have hdigest := hrecorded.fingerprint_eq.2
  have hd : volume.digest≠digest := by
    intro he
    rw [he] at hdigest
    exact hother (hpair digest hdigest hf)
  obtain ⟨detail,hcheck⟩ := checkPostgresVolume_mismatch hrecorded.1
    (by rw [hrecorded.2.1]; exact hf) hd
  exact ⟨_,hcheck,rfl⟩

/-- Of two pairs that are told apart, the colon was not moved, and the other one
has a UTF-8 form wherever the first can be recorded. -/
theorem apart_of_identifies (h : Identifies sha256 salt user password other secret)
    (hdiffer : ¬(user=other ∧ password=secret))
    (hencodes : encodes (credentialJoin salt user password)=true) :
    ¬ColonMoved user password other secret ∧
      (salt≠[] → encodes other=true ∧ encodes secret=true) := by
  obtain ⟨digest,hdigest⟩ := @fingerprint_of_encodes sha256 _ _ _ hencodes
  refine ⟨fun hmoved => ?_,fun hsalt => ?_⟩
  · have hjoin := (@credentialJoin_eq_iff salt _ _ _ _).mpr (Or.inr hmoved)
    rw [fingerprint_congr hjoin] at hdigest
    exact hdiffer (h.pair digest ((fingerprint_congr hjoin).trans hdigest) hdigest)
  · by_contra hbad
    have hraises : ¬encodes (credentialJoin salt other secret)=true :=
      fun he => hbad (encodes_credentialJoin.mp he).2
    obtain ⟨result,hresult,-⟩ := h.fails _ (exists_recorded hsalt hencodes hdigest) hdiffer
    simp only [checkPostgresVolume,fingerprint_of_not_encodes hraises] at hresult
    cases hresult

/-- A fingerprint identifies a pair against another one exactly when they are
the same pair, or the colon between user and password was not moved and the
other pair has a UTF-8 form; without a fingerprint or a record there is nothing
to tell apart. -/
theorem fingerprint_identifies_iff (sha256 : Digest) (salt user password other secret : Str) :
    Identifies sha256 salt user password other secret ↔
      (user=other ∧ password=secret) ∨
      (encodes salt=true ∧ encodes user=true ∧ encodes password=true →
        ¬ColonMoved user password other secret ∧
          (salt≠[] → encodes other=true ∧ encodes secret=true)) := by
  rw [←encodes_credentialJoin]
  constructor
  · intro h
    by_cases hsame : user=other ∧ password=secret
    · exact Or.inl hsame
    · exact Or.inr (apart_of_identifies h hsame)
  · rintro (⟨rfl,rfl⟩|h)
    · exact ⟨fun _ _ _ => ⟨rfl,rfl⟩,fun _ _ _ _ _ => ⟨rfl,rfl⟩,fun _ _ hn => absurd ⟨rfl,rfl⟩ hn⟩
    · have hpair : ∀ digest,fingerprint sha256 salt user password=.ok digest →
          fingerprint sha256 salt other secret=.ok digest → user=other ∧ password=secret :=
        fun digest hf hf' => pair_of_fingerprint (h (encodes_of_fingerprint hf)).1 hf hf'
      refine ⟨hpair,fun volume hrecorded result hresult hok => ?_,
        fun volume hrecorded hother => ?_⟩
      · exact hpair _ hrecorded.fingerprint_eq.2 (fingerprint_of_passes hrecorded hresult hok)
      · obtain ⟨hsalt,hdigest⟩ := hrecorded.fingerprint_eq
        have hencodes := encodes_of_fingerprint hdigest
        have hjoin : encodes (credentialJoin salt other secret)=true :=
          encodes_credentialJoin.mpr
            ⟨(encodes_credentialJoin.mp hencodes).1,(h hencodes).2 hsalt⟩
        obtain ⟨digest,hf⟩ := @fingerprint_of_encodes sha256 _ _ _ hjoin
        exact fails_of_pair hrecorded hpair hother hf

/-- A volume initialised as user `a:b` with password `c` passes for user `a`
with password `b:c`. -/
theorem fingerprint_identifies_fails :
    ∃ volume,Recorded sampleDigest (str sampleSalt) (str "a:b") (str "c") volume ∧
      (∃ result,checkPostgresVolume sampleDigest volume (str "a") (str "b:c")=.ok result ∧
        result.status=.ok) ∧
      ¬Identifies sampleDigest (str sampleSalt) (str "a:b") (str "c") (str "a") (str "b:c") := by
  have hencodes : encodes (credentialJoin (str sampleSalt) (str "a:b") (str "c"))=true := by
    rw [credentialJoin_str]
    exact encodes_str _
  obtain ⟨digest,hdigest⟩ := @fingerprint_of_encodes sampleDigest _ _ _ hencodes
  have hrecorded := exists_recorded (by decide) hencodes hdigest
  have hjoin : credentialJoin (str sampleSalt) (str "a:b") (str "c")=
      credentialJoin (str sampleSalt) (str "a") (str "b:c") := by decide
  have hother := (@fingerprint_congr sampleDigest _ _ _ _ _ hjoin).symm.trans hdigest
  obtain ⟨detail,hcheck⟩ := checkPostgresVolume_match hrecorded.1 hother
  refine ⟨_,hrecorded,⟨_,hcheck,rfl⟩,fun h => ?_⟩
  exact absurd (h.pair digest hdigest hother).1 (by decide)

end MlopsPlatform.PreflightFingerprint
