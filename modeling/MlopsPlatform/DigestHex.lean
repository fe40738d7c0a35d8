import MlopsPlatform.TextCodec

/-!
# An injective digest with a hexadecimal form

A cryptographic hash is taken as an injective function from bytes to nonempty
strings of hexadecimal digits. Such a function exists, with any one string of
64 digits as its value at any one input: every other input goes to its own
digits behind a leading zero, which makes their number odd.
-/

namespace MlopsPlatform.DigestHex

open TextCodec

/-- The digits `0` to `9` and `a` to `f`. -/
def isHex (c : CodePoint) : Bool := (0x30≤c.val && c.val≤0x39) || (0x61≤c.val && c.val≤0x66)

/-- A hash with a hexadecimal form, free of collisions. -/
structure Digest where
  /-- The hexadecimal digest of some bytes. -/
  hexdigest : ByteArray→Str
  /-- Different bytes have different digests. -/
  injective : Function.Injective hexdigest
  /-- No digest is empty. -/
  nonempty : ∀ bytes,hexdigest bytes≠[]
  /-- A digest is made of hexadecimal digits. -/
  hex : ∀ bytes,(hexdigest bytes).all isHex=true

/-- One hexadecimal digit. -/
def hexDigit (n : Fin 16) : CodePoint :=
  if n.val<10 then ⟨0x30+n.val,by omega⟩ else ⟨0x57+n.val,by omega⟩

/-- The two digits of a byte. -/
def hexByte (b : UInt8) : Str :=
  [hexDigit ⟨b.toNat/16,by have := b.toNat_lt; omega⟩,hexDigit ⟨b.toNat%16,by omega⟩]

/-- The digits of some bytes. -/
def hexBytes (bytes : List UInt8) : Str := bytes.flatMap hexByte

theorem hexDigit_injective : Function.Injective hexDigit := by
  intro m n
  revert m n
  decide

theorem hexDigit_isHex (n : Fin 16) : isHex (hexDigit n)=true := by
  revert n
  decide

/-- A byte is known from its two digits. -/
theorem hexByte_injective : Function.Injective hexByte := by
  intro a b h
  rw [hexByte,hexByte,List.cons.injEq,List.cons.injEq] at h
  have hhigh := congrArg Fin.val (hexDigit_injective h.1)
  have hlow := congrArg Fin.val (hexDigit_injective h.2.1)
  dsimp only at hhigh hlow
  have hval : a.toNat=b.toNat := by omega
  exact UInt8.toNat_inj.mp hval

theorem hexBytes_length (bytes : List UInt8) : (hexBytes bytes).length=2*bytes.length := by
  induction bytes with
  | nil => rfl
  | cons b bytes ih =>
    have hb : (hexByte b).length=2 := rfl
    rw [hexBytes,List.flatMap_cons,List.length_append,hb,←hexBytes,ih,List.length_cons]
    omega

/-- Some bytes are known from their digits. -/
theorem hexBytes_injective : Function.Injective hexBytes := by
  intro s t h
  induction s generalizing t with
  | nil =>
    have hl := congrArg List.length h
    rw [hexBytes_length,hexBytes_length,List.length_nil] at hl
    exact (List.length_eq_zero_iff.mp (by omega)).symm
  | cons a s ih =>
    cases t with
    | nil =>
      have hl := congrArg List.length h
      rw [hexBytes_length,hexBytes_length,List.length_cons,List.length_nil] at hl
      omega
    | cons b t =>
      rw [hexBytes,hexBytes,List.flatMap_cons,List.flatMap_cons] at h
      obtain ⟨hb,ht⟩ := List.append_inj h rfl
      rw [hexByte_injective hb,ih ht]

theorem hexBytes_isHex (bytes : List UInt8) : (hexBytes bytes).all isHex=true := by
  rw [hexBytes,List.all_flatMap,List.all_eq_true]
  intro b _
  simp only [hexByte,List.all_cons,List.all_nil,hexDigit_isHex,Bool.and_true]

/-- A digest whose value at one input is given. -/
def knownHex (bytes : ByteArray) (digits : Str) (other : ByteArray) : Str :=
  if other.data.toList=bytes.data.toList then digits else 0x30::hexBytes other.data.toList

/-- There is a digest with any 64 digits as its value at any one input. -/
def knownDigest (bytes : ByteArray) (digits : Str) (hl : digits.length=64)
    (hh : digits.all isHex=true) : Digest where
  hexdigest := knownHex bytes digits
  injective := by
    have hodd : ∀ b : ByteArray,digits≠0x30::hexBytes b.data.toList := by
      intro b h
      have hlen := congrArg List.length h
      rw [hl,List.length_cons,hexBytes_length] at hlen
      omega
    intro s t h
    unfold knownHex at h
    split at h
    · rename_i hs
      split at h
      · rename_i ht
        exact ByteArray.ext (Array.toList_inj.mp (hs.trans ht.symm))
      · exact absurd h (hodd t)
    · split at h
      · exact absurd h.symm (hodd s)
      · rw [List.cons.injEq] at h
        exact ByteArray.ext (Array.toList_inj.mp (hexBytes_injective h.2))
  nonempty := by
    intro b
    unfold knownHex
    split
    · intro h
      rw [h] at hl
      cases hl
    · exact List.cons_ne_nil _ _
  hex := by
    intro b
    unfold knownHex
    split
    · exact hh
    · rw [List.all_cons,hexBytes_isHex]
      rfl

theorem knownDigest_same {bytes : ByteArray} {digits : Str} {hl : digits.length=64}
    {hh : digits.all isHex=true} :
    (knownDigest bytes digits hl hh).hexdigest bytes=digits := if_pos rfl

end MlopsPlatform.DigestHex
