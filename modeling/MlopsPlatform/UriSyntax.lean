import MlopsPlatform.TextCodec
import MlopsPlatform.TextSeparators
import Mathlib.Data.List.TakeWhile

/-!
# Uniform resource identifiers with credentials

The usual way to take an identifier apart: the authority ends at the first
slash, question mark or number sign after the two slashes, the user information
at the last at sign of the authority, user and password at its first colon, and
what the parts stand for are octets, with percent escapes decoded. Decoding
never makes a part longer, and shorter exactly when it holds an escape, so an
identifier put together from plain parts gives back a part only when nothing in
it was read as syntax.
-/

namespace MlopsPlatform.UriSyntax

open TextCodec TextSeparators

/-- The UTF-8 octets of a code point. A surrogate, which has none, is given
three like its neighbours. -/
def octetsOf (c : CodePoint) : List UInt8 :=
  if c.val<0x80 then [UInt8.ofNat c.val]
  else if c.val<0x800 then [UInt8.ofNat (0xc0+c.val/64),UInt8.ofNat (0x80+c.val%64)]
  else if c.val<0x10000 then
    [UInt8.ofNat (0xe0+c.val/4096),UInt8.ofNat (0x80+c.val/64%64),UInt8.ofNat (0x80+c.val%64)]
  else
    [UInt8.ofNat (0xf0+c.val/262144),UInt8.ofNat (0x80+c.val/4096%64),
      UInt8.ofNat (0x80+c.val/64%64),UInt8.ofNat (0x80+c.val%64)]

/-- The octets of a string. -/
def octets (s : Str) : List UInt8 := s.flatMap octetsOf

/-- The value of a hexadecimal digit. -/
def hexValue (c : CodePoint) : Option ℕ :=
  if 0x30≤c.val ∧ c.val≤0x39 then some (c.val-0x30)
  else if 0x41≤c.val ∧ c.val≤0x46 then some (c.val-0x37)
  else if 0x61≤c.val ∧ c.val≤0x66 then some (c.val-0x57)
  else none

/-- The percent sign. -/
def percent : CodePoint := 0x25

/-- The colon. -/
def colon : CodePoint := 0x3a

/-- The at sign. -/
def atSign : CodePoint := 0x40

/-- The slash. -/
def slash : CodePoint := 0x2f

/-- Percent-decoding: a percent sign before two hexadecimal digits is an octet,
any other is itself. -/
def percentDecode : Str→List UInt8
  | c::high::low::rest =>
    if c=percent then
      match hexValue high,hexValue low with
      | some a,some b => UInt8.ofNat (16*a+b)::percentDecode rest
      | _,_ => octetsOf c++percentDecode (high::low::rest)
    else octetsOf c++percentDecode (high::low::rest)
  | c::rest => octetsOf c++percentDecode rest
  | [] => []

/-- What ends a query-free path. -/
def endsPath (c : CodePoint) : Bool := c=0x3f || c=0x23

/-- What ends an authority. -/
def endsAuthority (c : CodePoint) : Bool := c=slash || endsPath c

/-- What stands before and after the last occurrence of a character. -/
def splitLast (c : CodePoint) (s : Str) : Option (Str×Str) :=
  let parts := partition c s.reverse
  if parts.2.1=[] then none else some (parts.2.2.reverse,parts.1.reverse)

/-- An identifier, taken apart. -/
structure Uri where
  /-- The scheme. -/
  scheme : Str
  /-- The user, if there is user information. -/
  user : Option (List UInt8)
  /-- The password, if the user information has a colon. -/
  password : Option (List UInt8)
  /-- The host. -/
  host : List UInt8
  /-- The port. -/
  port : Str
  /-- The path without its first slash, which names a database. -/
  database : List UInt8
deriving DecidableEq

/-- The password in some user information. -/
def passwordIn (userinfo : Str) : Option (List UInt8) :=
  let parts := partition colon userinfo
  if parts.2.1=[] then none else some (percentDecode parts.2.2)

/-- The database a path names, up to a query or a fragment. -/
def databaseIn : Str→List UInt8
  | c::path => if c=slash then percentDecode (path.takeWhile (fun c => !endsPath c)) else []
  | [] => []

/-- What follows the two slashes. -/
def parseAfter (scheme rest : Str) : Uri :=
  let authority := rest.takeWhile (fun c => !endsAuthority c)
  let database := databaseIn (rest.dropWhile (fun c => !endsAuthority c))
  match splitLast atSign authority with
  | none =>
    let address := partition colon authority
    ⟨scheme,none,none,percentDecode address.1,address.2.2,database⟩
  | some (userinfo,location) =>
    let address := partition colon location
    ⟨scheme,some (percentDecode (partition colon userinfo).1),passwordIn userinfo,
      percentDecode address.1,address.2.2,database⟩

/-- Take an identifier apart. -/
def parse (uri : Str) : Option Uri :=
  let parts := partition colon uri
  match parts.2.2 with
  | a::b::rest => if a=slash ∧ b=slash then some (parseAfter parts.1 rest) else none
  | _ => none

/-- An identifier put together by writing its parts one after another. -/
def interpolate (scheme user password host port database : Str) : Str :=
  scheme++str "://"++user++str ":"++password++str "@"++host++str ":"++port++str "/"++database

/-- A percent escape occurs. -/
def Escaped (s : Str) : Prop :=
  ∃ before high low after,s=before++percent::high::low::after ∧
    (hexValue high).isSome=true ∧ (hexValue low).isSome=true

/-- A part that nothing can be read as syntax in. -/
structure Plain (part : Str) : Prop where
  /-- It ends no authority. -/
  inside : ∀ c∈part,endsAuthority c=false
  /-- It has no colon. -/
  noColon : colon∉part
  /-- It has no at sign. -/
  noAt : atSign∉part
  /-- It has no escape. -/
  literal : ¬Escaped part

/-- The parts of an identifier are read as they were written. -/
structure Readable (user password database : Str) : Prop where
  /-- The user ends no authority. -/
  userInside : ∀ c∈user,endsAuthority c=false
  /-- The user has no colon. -/
  noColon : colon∉user
  /-- The user has no escape. -/
  userLiteral : ¬Escaped user
  /-- The password ends no authority. -/
  passwordInside : ∀ c∈password,endsAuthority c=false
  /-- The password has no escape. -/
  passwordLiteral : ¬Escaped password
  /-- The database ends no path. -/
  databaseInside : ∀ c∈database,endsPath c=false
  /-- The database has no escape. -/
  databaseLiteral : ¬Escaped database

theorem octetsOf_pos (c : CodePoint) : 0<(octetsOf c).length := by
  unfold octetsOf
  split
  · exact Nat.one_pos
  · split
    · exact Nat.two_pos
    · split <;> exact Nat.succ_pos _

theorem octets_cons (c : CodePoint) (s : Str) : octets (c::s)=octetsOf c++octets s := rfl

/-- A part of a string has fewer octets. -/
theorem length_octets_lt (s : Str) (c : CodePoint) (t : Str) :
    (octets s).length<(octets (s++c::t)).length := by
  have hc := octetsOf_pos c
  rw [octets,octets,List.flatMap_append,List.flatMap_cons,List.length_append,List.length_append]
  omega

/-- An escape starts here. -/
def EscapeAt (c : CodePoint) (s : Str) : Prop :=
  c=percent ∧ ∃ high low rest,s=high::low::rest ∧
    (hexValue high).isSome=true ∧ (hexValue low).isSome=true

/-- An escape of a string starts at its first character or in the rest. -/
theorem escaped_cons_iff {c : CodePoint} {s : Str} :
    Escaped (c::s) ↔ EscapeAt c s ∨ Escaped s := by
  constructor
  · rintro ⟨before,high,low,after,hs,hhigh,hlow⟩
    cases before with
    | nil =>
      obtain ⟨hp,hrest⟩ := List.cons.inj hs
      exact Or.inl ⟨hp,high,low,after,hrest,hhigh,hlow⟩
    | cons d before =>
      obtain ⟨-,hrest⟩ := List.cons.inj hs
      exact Or.inr ⟨before,high,low,after,hrest,hhigh,hlow⟩
  · rintro (⟨rfl,high,low,rest,rfl,hhigh,hlow⟩|⟨before,high,low,after,rfl,hhigh,hlow⟩)
    · exact ⟨[],high,low,rest,rfl,hhigh,hlow⟩
    · exact ⟨c::before,high,low,after,rfl,hhigh,hlow⟩

/-- A character that starts no escape is itself. -/
theorem percentDecode_cons {c : CodePoint} {s : Str} (h : ¬EscapeAt c s) :
    percentDecode (c::s)=octetsOf c++percentDecode s := by
  cases s with
  | nil => rfl
  | cons high s =>
    cases s with
    | nil => rfl
    | cons low rest =>
      rw [percentDecode]
      by_cases hc : c=percent
      · rw [if_pos hc]
        cases hhigh : hexValue high with
        | none => rfl
        | some a =>
          cases hlow : hexValue low with
          | none => rfl
          | some b =>
            refine absurd ⟨hc,high,low,rest,rfl,?_,?_⟩ h
            · rw [hhigh,Option.isSome_some]
            · rw [hlow,Option.isSome_some]
      · rw [if_neg hc]

/-- An escape is one octet. -/
theorem percentDecode_escape {high low : CodePoint} (hhigh : (hexValue high).isSome=true)
    (hlow : (hexValue low).isSome=true) (rest : Str) :
    ∃ octet,percentDecode (percent::high::low::rest)=octet::percentDecode rest := by
  obtain ⟨a,ha⟩ := Option.isSome_iff_exists.mp hhigh
  obtain ⟨b,hb⟩ := Option.isSome_iff_exists.mp hlow
  exact ⟨UInt8.ofNat (16*a+b),by simp only [percentDecode,if_true,ha,hb]⟩

/-- Decoding never makes a string longer. -/
theorem length_percentDecode_le (n : ℕ) (s : Str) (hn : s.length≤n) :
    (percentDecode s).length≤(octets s).length := by
  induction n generalizing s with
  | zero =>
    rw [List.length_eq_zero_iff.mp (Nat.le_zero.mp hn)]
    exact Nat.le_refl _
  | succ n ih =>
    cases s with
    | nil => exact Nat.le_refl _
    | cons c s =>
      rw [List.length_cons] at hn
      by_cases hescape : EscapeAt c s
      · obtain ⟨rfl,high,low,rest,rfl,hhigh,hlow⟩ := hescape
        obtain ⟨octet,hoctet⟩ := percentDecode_escape hhigh hlow rest
        have hrest := ih rest (by rw [List.length_cons,List.length_cons] at hn; omega)
        have hc := octetsOf_pos percent
        rw [hoctet,octets_cons,octets_cons,octets_cons,List.length_append,List.length_append,
          List.length_append,List.length_cons]
        omega
      · have hs := ih s (by omega)
        rw [percentDecode_cons hescape,octets_cons,List.length_append,List.length_append]
        omega

/-- A string without escapes is decoded as it is. -/
theorem percentDecode_literal {s : Str} (h : ¬Escaped s) : percentDecode s=octets s := by
  induction s with
  | nil => rfl
  | cons c s ih =>
    rw [escaped_cons_iff,not_or] at h
    rw [percentDecode_cons h.1,ih h.2,octets_cons]

/-- Any other is decoded to fewer octets. -/
theorem length_percentDecode_lt {s : Str} (h : Escaped s) :
    (percentDecode s).length<(octets s).length := by
  induction s with
  | nil =>
    obtain ⟨before,high,low,after,hs,-⟩ := h
    cases before <;> cases hs
  | cons c s ih =>
    by_cases hescape : EscapeAt c s
    · obtain ⟨rfl,high,low,rest,rfl,hhigh,hlow⟩ := hescape
      obtain ⟨octet,hoctet⟩ := percentDecode_escape hhigh hlow rest
      have hrest := length_percentDecode_le rest.length rest (Nat.le_refl _)
      have hc := octetsOf_pos percent
      have hh := octetsOf_pos high
      rw [hoctet,octets_cons,octets_cons,octets_cons,List.length_append,List.length_append,
        List.length_append,List.length_cons]
      omega
    · have hs := ih ((escaped_cons_iff.mp h).resolve_left hescape)
      rw [percentDecode_cons hescape,octets_cons,List.length_append,List.length_append]
      omega

/-- A part stands for itself exactly when it has no escape. -/
theorem percentDecode_eq_iff {s : Str} : percentDecode s=octets s ↔ ¬Escaped s := by
  constructor
  · intro h he
    have hlt := length_percentDecode_lt he
    rw [h] at hlt
    exact Nat.lt_irrefl _ hlt
  · exact percentDecode_literal

/-- A shorter part never stands for the whole. -/
theorem percentDecode_ne (s : Str) (c : CodePoint) (t : Str) :
    percentDecode s≠octets (s++c::t) := by
  intro h
  have hle := length_percentDecode_le s.length s (Nat.le_refl _)
  have hlt := length_octets_lt s c t
  rw [←h] at hlt
  omega

/-- What is cut at the last occurrence of a character. -/
theorem splitLast_eq_some {c : CodePoint} {s before after : Str} :
    splitLast c s=some (before,after) ↔ s=before++c::after ∧ c∉after := by
  unfold splitLast
  constructor
  · intro h
    rcases exists_partition c s.reverse with habsent|⟨u,v,hs,hu⟩
    · rw [partition_absent habsent] at h
      simp only [if_true] at h
      cases h
    · rw [hs,partition_first hu] at h
      simp only [List.cons_ne_nil,if_false,Option.some.injEq,Prod.mk.injEq] at h
      obtain ⟨rfl,rfl⟩ := h
      refine ⟨?_,fun hm => hu (List.mem_reverse.mp hm)⟩
      rw [←List.reverse_reverse s,hs,List.reverse_append,List.reverse_cons,List.append_assoc,
        List.singleton_append]
  · rintro ⟨rfl,hafter⟩
    have hs : (before++c::after).reverse=after.reverse++c::before.reverse := by
      rw [List.reverse_append,List.reverse_cons,List.append_assoc,List.singleton_append]
    have hr : c∉after.reverse := fun hm => hafter (List.mem_reverse.mp hm)
    rw [hs,partition_first hr]
    simp only [List.cons_ne_nil,if_false,List.reverse_reverse]

/-- What a class of characters stops is cut at the first of them. -/
theorem takeWhile_stop {stops : CodePoint→Bool} {before : Str}
    (hbefore : ∀ c∈before,stops c=false) {d : CodePoint} (hd : stops d=true) (after : Str) :
    (before++d::after).takeWhile (fun c => !stops c)=before ∧
      (before++d::after).dropWhile (fun c => !stops c)=d::after := by
  have hall : ∀ c∈before,(!stops c)=true := fun c hc => by rw [hbefore c hc]; rfl
  have hstop : ¬(!stops d)=true := by rw [hd]; exact Bool.false_ne_true
  rw [List.takeWhile_append_of_pos hall,List.dropWhile_append_of_pos hall,
    List.takeWhile_cons_of_neg (p:=fun c => !stops c) hstop,
    List.dropWhile_cons_of_neg (p:=fun c => !stops c) hstop,List.append_nil]
  exact ⟨rfl,rfl⟩

variable {scheme user password host port database : Str}

/-- What follows the two slashes of an identifier put together from parts. -/
def afterSlashes (user password host port database : Str) : Str :=
  user++colon::(password++atSign::(host++colon::(port++slash::database)))

/-- The scheme of an identifier put together from parts is read back. -/
theorem parse_interpolate (hscheme : colon∉scheme) :
    parse (interpolate scheme user password host port database)=
      some (parseAfter scheme (afterSlashes user password host port database)) := by
  have hwhole : interpolate scheme user password host port database=
      scheme++colon::slash::slash::afterSlashes user password host port database := by
    simp only [interpolate,List.append_assoc]
    rfl
  rw [parse,hwhole,partition_first hscheme]
  simp only [and_self,if_true]

/-- The address of an identifier put together from plain parts is followed by
the slash of the path. -/
theorem address_inside (hhost : Plain host) (hport : Plain port) :
    ∀ c∈host++colon::port,endsAuthority c=false ∧ c≠atSign := by
  intro c hc
  rcases List.mem_append.mp hc with hc|hc
  · exact ⟨hhost.inside c hc,fun he => hhost.noAt (he ▸ hc)⟩
  · rcases List.mem_cons.mp hc with rfl|hc
    · exact ⟨by decide,by decide⟩
    · exact ⟨hport.inside c hc,fun he => hport.noAt (he ▸ hc)⟩

/-- The authority of an identifier put together from parts ends at the slash of
the path if no part of it ends it earlier. -/
theorem authority_cut (hhost : Plain host) (hport : Plain port)
    (huser : ∀ c∈user,endsAuthority c=false) (hpassword : ∀ c∈password,endsAuthority c=false) :
    (afterSlashes user password host port database).takeWhile (fun c => !endsAuthority c)=
        user++colon::(password++atSign::(host++colon::port)) ∧
      (afterSlashes user password host port database).dropWhile (fun c => !endsAuthority c)=
        slash::database := by
  have haddress := address_inside hhost hport
  have hinside : ∀ c∈user++colon::(password++atSign::(host++colon::port)),
      endsAuthority c=false := by
    intro c hc
    rcases List.mem_append.mp hc with hc|hc
    · exact huser c hc
    · rcases List.mem_cons.mp hc with rfl|hc
      · decide
      · rcases List.mem_append.mp hc with hc|hc
        · exact hpassword c hc
        · rcases List.mem_cons.mp hc with rfl|hc
          · decide
          · exact (haddress c hc).1
  have hwhole : afterSlashes user password host port database=
      (user++colon::(password++atSign::(host++colon::port)))++slash::database := by
    simp only [afterSlashes,List.append_assoc,List.cons_append]
  have hslash : endsAuthority slash=true := by decide
  rw [hwhole]
  exact takeWhile_stop hinside hslash database

/-- A database is read back only if nothing in it ends the path or is an escape. -/
theorem databaseIn_eq_iff : databaseIn (slash::database)=octets database ↔
    (∀ c∈database,endsPath c=false) ∧ ¬Escaped database := by
  have hwhole := List.takeWhile_append_dropWhile (p:=fun c => !endsPath c) (l:=database)
  simp only [databaseIn,if_true]
  constructor
  · intro h
    cases hrest : database.dropWhile (fun c => !endsPath c) with
    | nil =>
      rw [hrest,List.append_nil] at hwhole
      have hall := List.takeWhile_eq_self_iff.mp hwhole
      rw [hwhole] at h
      exact ⟨fun c hc => by simpa using hall c hc,percentDecode_eq_iff.mp h⟩
    | cons c rest =>
      rw [hrest] at hwhole
      have hne := percentDecode_ne (database.takeWhile (fun c => !endsPath c)) c rest
      rw [hwhole] at hne
      exact absurd h hne
  · intro h
    have hall : database.takeWhile (fun c => !endsPath c)=database :=
      List.takeWhile_eq_self_iff.mpr (fun c hc => by rw [h.1 c hc]; rfl)
    rw [hall,percentDecode_literal h.2]

/-- Parts in which nothing is read as syntax are read as they were written. -/
theorem parseAfter_of_readable (hhost : Plain host) (hport : Plain port)
    (h : Readable user password database) :
    parseAfter scheme (afterSlashes user password host port database)=
      ⟨scheme,some (octets user),some (octets password),octets host,port,octets database⟩ := by
  have haddress := address_inside hhost hport
  obtain ⟨hauthority,hpath⟩ := @authority_cut user password host port database hhost hport
    h.userInside h.passwordInside
  have hlast : splitLast atSign (user++colon::(password++atSign::(host++colon::port)))=
      some (user++colon::password,host++colon::port) := by
    refine splitLast_eq_some.mpr ⟨by simp only [List.append_assoc,List.cons_append],fun hm => ?_⟩
    exact (haddress atSign hm).2 rfl
  have hpassword : passwordIn (user++colon::password)=some (octets password) := by
    rw [passwordIn,partition_first h.noColon]
    simp only [List.cons_ne_nil,if_false,percentDecode_literal h.passwordLiteral]
  have hdatabase : databaseIn (slash::database)=octets database :=
    databaseIn_eq_iff.mpr ⟨h.databaseInside,h.databaseLiteral⟩
  unfold parseAfter
  simp only [hauthority,hpath,hlast,hpassword,hdatabase,partition_first h.noColon,
    partition_first hhost.noColon,percentDecode_literal h.userLiteral,
    percentDecode_literal hhost.literal]

/-- The last at sign of an authority that was cut out of an identifier put
together from parts stands in it behind the whole password. -/
theorem parts_eq {x y location remainder : Str} (hhost : Plain host) (hport : Plain port)
    (hx : percentDecode x=octets user) (hcolon : colon∉x) (hy : percentDecode y=octets password)
    (hinside : ∀ c∈y,endsAuthority c=false)
    (h : afterSlashes user password host port database=
      x++colon::(y++atSign::(location++remainder))) :
    x=user ∧ y=password ∧ host++colon::(port++slash::database)=location++remainder := by
  rw [afterSlashes] at h
  rcases append_cons_eq_iff.mp h with ⟨huser,hrest⟩|⟨w,⟨hw,-⟩|⟨hw,-⟩⟩
  · refine ⟨huser.symm,?_⟩
    rcases append_cons_eq_iff.mp hrest with ⟨hpassword,htail⟩|⟨w,⟨hw,htail⟩|⟨hw,-⟩⟩
    · exact ⟨hpassword.symm,htail⟩
    · -- the password runs into the address, which has no at sign before its slash
      have haddress := address_inside hhost hport
      have hcut : (host++colon::port)++slash::database=w++atSign::(location++remainder) := by
        rw [List.append_assoc,List.cons_append]
        exact htail
      have hw' : ∀ c∈w,endsAuthority c=false :=
        fun c hc => hinside c (hw ▸ List.mem_append_right _ (List.mem_cons_of_mem _ hc))
      rcases List.append_eq_append_iff.mp hcut with ⟨v,hv,hrest⟩|⟨v,hv,hrest⟩
      · cases v with
        | nil => exact absurd (List.cons.inj hrest).1 (by decide)
        | cons d v =>
          obtain ⟨rfl,-⟩ := List.cons.inj hrest
          have hslash := hw' slash (hv ▸ List.mem_append_right _ List.mem_cons_self)
          exact absurd hslash (by decide)
      · cases v with
        | nil => exact absurd (List.cons.inj hrest).1 (by decide)
        | cons d v =>
          obtain ⟨rfl,-⟩ := List.cons.inj hrest
          have hat := haddress atSign (hv ▸ List.mem_append_right _ List.mem_cons_self)
          exact absurd rfl hat.2
    · rw [hw] at hy
      exact absurd hy (percentDecode_ne y atSign w)
  · refine absurd ?_ hcolon
    rw [hw]
    exact List.mem_append_right _ List.mem_cons_self
  · rw [hw] at hx
    exact absurd hx (percentDecode_ne x colon w)

/-- Parts that are read as they were written have nothing that is syntax. -/
theorem readable_of_parseAfter (hhost : Plain host) (hport : Plain port)
    (huser : (parseAfter scheme (afterSlashes user password host port database)).user=
      some (octets user))
    (hpassword : (parseAfter scheme (afterSlashes user password host port database)).password=
      some (octets password))
    (hdatabase : (parseAfter scheme (afterSlashes user password host port database)).database=
      octets database) : Readable user password database := by
  have hwhole := List.takeWhile_append_dropWhile (p:=fun c => !endsAuthority c)
    (l:=afterSlashes user password host port database)
  have hinside : ∀ c∈(afterSlashes user password host port database).takeWhile
      (fun c => !endsAuthority c),endsAuthority c=false := by
    intro c hc
    simpa using List.mem_takeWhile_imp hc
  have hcut := @authority_cut user password host port database hhost hport
  unfold parseAfter at huser hpassword hdatabase
  generalize (afterSlashes user password host port database).takeWhile
    (fun c => !endsAuthority c)=authority at *
  generalize (afterSlashes user password host port database).dropWhile
    (fun c => !endsAuthority c)=remainder at *
  dsimp only at huser hpassword hdatabase
  cases hlast : splitLast atSign authority with
  | none =>
    rw [hlast] at huser
    cases huser
  | some pair =>
    obtain ⟨userinfo,location⟩ := pair
    rw [hlast] at huser hpassword hdatabase
    dsimp only at huser hpassword hdatabase
    obtain ⟨rfl,-⟩ := splitLast_eq_some.mp hlast
    rcases exists_partition colon userinfo with habsent|⟨x,y,rfl,hcolon⟩
    · rw [passwordIn,partition_absent habsent] at hpassword
      simp only [if_true] at hpassword
      cases hpassword
    · rw [partition_first hcolon,Option.some.injEq] at huser
      rw [passwordIn,partition_first hcolon] at hpassword
      simp only [List.cons_ne_nil,if_false,Option.some.injEq] at hpassword
      have hx : ∀ c∈x,endsAuthority c=false := fun c hc =>
        hinside c (List.mem_append_left _ (List.mem_append_left _ hc))
      have hy : ∀ c∈y,endsAuthority c=false := fun c hc =>
        hinside c (List.mem_append_left _ (List.mem_append_right _ (List.mem_cons_of_mem _ hc)))
      have hparts : afterSlashes user password host port database=
          x++colon::(y++atSign::(location++remainder)) := by
        rw [←hwhole]
        simp only [List.append_assoc,List.cons_append]
      obtain ⟨rfl,rfl,-⟩ := parts_eq hhost hport huser hcolon hpassword hy hparts
      obtain ⟨-,rfl⟩ := hcut hx hy
      obtain ⟨hends,hliteral⟩ := databaseIn_eq_iff.mp hdatabase
      exact ⟨hx,hcolon,percentDecode_eq_iff.mp huser,hy,percentDecode_eq_iff.mp hpassword,hends,
        hliteral⟩

/-- An identifier put together from parts is taken apart into what they are
exactly when nothing in user, password and database is read as syntax. -/
theorem parse_interpolate_iff (hscheme : colon∉scheme) (hhost : Plain host) (hport : Plain port) :
    parse (interpolate scheme user password host port database)=
      some ⟨scheme,some (octets user),some (octets password),octets host,port,octets database⟩ ↔
    Readable user password database := by
  rw [parse_interpolate hscheme,Option.some.injEq]
  constructor
  · intro h
    refine @readable_of_parseAfter scheme _ _ _ _ _ hhost hport ?_ ?_ ?_
    · rw [h]
    · rw [h]
    · rw [h]
  · exact parseAfter_of_readable hhost hport

end MlopsPlatform.UriSyntax
