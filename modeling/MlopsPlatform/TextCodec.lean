import Mathlib.Data.List.Lex
import Mathlib.Data.List.Basic
import Mathlib.Order.Fin.Basic
import Mathlib.Tactic.Common

/-!
# Python strings and their UTF-8 form

A Python string is a list of code points, lone surrogates included. Files hold
bytes: decoding is strict UTF-8 and never yields a surrogate, encoding refuses
a string that carries one. Text written here in double quotes is a Lean string,
which is a valid UTF-8 text by construction.
-/

namespace MlopsPlatform.TextCodec

/-- One Unicode code point, surrogates included. -/
abbrev CodePoint := Fin 0x110000

/-- There are code points; their numerals rest on this. -/
instance codePoints : @NeZero ℕ Zero.ofOfNat0 0x110000 := Nat.instNeZeroSucc

/-- Comparing code points decides equality. -/
instance codePointsLawful : LawfulBEq CodePoint := inferInstance

/-- A Python string. Its order is the code point order `sorted` uses. -/
abbrev Str := List CodePoint

/-- So does comparing strings. -/
instance stringsLawful : LawfulBEq Str := inferInstance

/-- The code point of a Unicode scalar value. -/
def ofChar (c : Char) : CodePoint :=
  ⟨c.toNat, by
    have hc : c.toNat<0xd800 ∨ 0xdfff<c.toNat ∧ c.toNat<0x110000 := c.valid
    omega⟩

/-- A text as the string Python holds for it. -/
def str (text : String) : Str := text.toList.map ofChar

/-- Every code point but the surrogates, which UTF-8 has no form for. -/
def isScalar (c : CodePoint) : Bool := c.val<0xd800 || 0xdfff<c.val

/-- The character of a scalar value. -/
def toChar (c : CodePoint) : Char := Char.ofNat c.val

/-- Strict UTF-8 encoding: a lone surrogate is a UnicodeEncodeError. -/
def encode (s : Str) : Option ByteArray :=
  if s.all isScalar=true then some (String.ofList (s.map toChar)).toUTF8 else none

/-- Whether a string has a UTF-8 form: it has no lone surrogate. -/
def encodes (s : Str) : Bool := s.all isScalar

/-- Strict UTF-8 decoding: invalid bytes are a UnicodeDecodeError. -/
def decode (bytes : ByteArray) : Option Str := (String.fromUTF8? bytes).map str

@[simp] theorem ofChar_val (c : Char) : (ofChar c).val=c.toNat := rfl

theorem isScalar_iff (c : CodePoint) : isScalar c=true ↔ c.val<0xd800 ∨ 0xdfff<c.val := by
  simp only [isScalar,Bool.or_eq_true,decide_eq_true_eq]

/-- A character is never a surrogate. -/
theorem isScalar_ofChar (c : Char) : isScalar (ofChar c)=true := by
  have hc : c.toNat<0xd800 ∨ 0xdfff<c.toNat ∧ c.toNat<0x110000 := c.valid
  rw [isScalar_iff,ofChar_val]
  omega

/-- Reading a character back from its own code point. -/
theorem toChar_ofChar (c : Char) : toChar (ofChar c)=c := by
  simp only [toChar,ofChar_val,Char.ofNat_toNat]

/-- A scalar value is the code point of its own character. -/
theorem ofChar_toChar {c : CodePoint} (hc : isScalar c=true) : ofChar (toChar c)=c := by
  rw [isScalar_iff] at hc
  have hv : (c.val).isValidChar := by
    have hb := c.isLt
    rcases hc with h|h
    · exact Or.inl h
    · exact Or.inr ⟨h,hb⟩
  apply Fin.ext
  rw [ofChar_val,toChar,Char.ofNat,dif_pos hv]
  rfl

/-- No text carries a surrogate. -/
theorem str_scalar (text : String) : (str text).all isScalar=true := by
  simp only [str,List.all_map,List.all_eq_true,Function.comp_apply]
  exact fun c _ => isScalar_ofChar c

/-- The characters of a text survive the change of representation. -/
theorem str_toChar (text : String) : String.ofList ((str text).map toChar)=text := by
  rw [str,List.map_map]
  have hid : toChar ∘ ofChar=id := funext toChar_ofChar
  rw [hid,List.map_id,String.ofList_toList]

/-- A string without surrogates is a text. -/
theorem str_ofList {s : Str} (hs : s.all isScalar=true) :
    str (String.ofList (s.map toChar))=s := by
  rw [str,String.toList_ofList,List.map_map]
  have hid : ∀ c∈s,(ofChar ∘ toChar) c=id c :=
    fun c hc => ofChar_toChar (List.all_eq_true.mp hs c hc)
  rw [List.map_congr_left hid,List.map_id]

/-- Concatenation of texts is concatenation of strings. -/
theorem str_append (s t : String) : str (s++t)=str s++str t := by
  simp only [str,String.toList_append,List.map_append]

/-- A text's own bytes decode to it. -/
@[simp] theorem decode_toUTF8 (text : String) : decode text.toUTF8=some (str text) := by
  have hv : text.toUTF8.IsValidUTF8 := text.isValidUTF8
  simp only [decode,String.fromUTF8?,dif_pos hv,Option.map_some]
  rfl

/-- A text encodes to its own bytes. -/
@[simp] theorem encode_str (text : String) : encode (str text)=some text.toUTF8 := by
  rw [encode,if_pos (str_scalar text),str_toChar]

/-- Whatever encodes is a text, and its bytes are that text's. -/
theorem encode_eq_some {s : Str} {bytes : ByteArray} (h : encode s=some bytes) :
    ∃ text : String,s=str text ∧ bytes=text.toUTF8 := by
  unfold encode at h
  split at h
  · rename_i hs
    exact ⟨String.ofList (s.map toChar),(str_ofList hs).symm,(Option.some.inj h).symm⟩
  · cases h

/-- Only a string with a lone surrogate does not encode. -/
theorem encode_eq_none_iff {s : Str} : encode s=none ↔ ¬encodes s=true := by
  unfold encode encodes
  split
  · rename_i h
    exact iff_of_false (fun hn => (by cases hn)) (fun hn => hn h)
  · rename_i h
    exact iff_of_true rfl h

/-- Two strings have a UTF-8 form together when each has one. -/
theorem encodes_append {s t : Str} :
    encodes (s++t)=true ↔ encodes s=true ∧ encodes t=true := by
  rw [encodes,List.all_append,Bool.and_eq_true,encodes,encodes]

/-- A text has a UTF-8 form. -/
theorem encodes_str (text : String) : encodes (str text)=true := str_scalar text

/-- Whatever decodes is a text. -/
theorem decode_eq_some {bytes : ByteArray} {s : Str} (h : decode bytes=some s) :
    ∃ text : String,s=str text ∧ bytes=text.toUTF8 := by
  simp only [decode,Option.map_eq_some_iff] at h
  obtain ⟨text,ht,rfl⟩ := h
  refine ⟨text,rfl,?_⟩
  simp only [String.fromUTF8?] at ht
  split at ht
  · cases ht
    rfl
  · cases ht

/-- Reading back what was written. -/
theorem decode_encode {s : Str} {bytes : ByteArray} (h : encode s=some bytes) :
    decode bytes=some s := by
  obtain ⟨text,rfl,rfl⟩ := encode_eq_some h
  exact decode_toUTF8 text

/-- Two strings with one encoding are one string. -/
theorem encode_injective {s t : Str} {bytes : ByteArray}
    (hs : encode s=some bytes) (ht : encode t=some bytes) : s=t :=
  Option.some.inj ((decode_encode hs).symm.trans (decode_encode ht))

end MlopsPlatform.TextCodec
