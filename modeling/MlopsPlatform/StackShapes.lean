import MlopsPlatform.JsonLexing
import MlopsPlatform.TextStrip

/-!
# The two shapes `compose ps` prints its records in

Compose has printed the records of its containers as one array and as one object
per line. `exited_badly` reads either; `healthy` reads lines only. On an array
it takes the first line for a record: that line is a list, or no document at
all, so it raises whatever the records are. On lines it returns what it should,
and `exited_badly` returns the same list for both shapes as long as no printed
object carries a line boundary.
-/

namespace MlopsPlatform.StackShapes

open TextCodec TextLines TextStrip TextSorted PythonJson JsonStrings JsonText JsonRoundTrip
open JsonLexing

/-- What a finished `compose ps` leaves. -/
structure Printed where
  /-- `returncode` -/
  returncode : ℤ
  /-- `stdout` -/
  stdout : Str

/-- What `healthy` raises. -/
inductive Raised where
  /-- AssertionError of `check`: the command failed. -/
  | assertion (report : Str)
  /-- JSONDecodeError: the line is not one document. -/
  | decode (line : Str)
  /-- AttributeError: a value of this type has no `get`. -/
  | attribute (type : Str)
  /-- TypeError: a value of this type cannot be in a set. -/
  | unhashable (type : Str)
  /-- KeyError -/
  | key (name : Str)

/-- `value == text` -/
def isText (value : Json) (text : Str) : Bool :=
  match value with
  | .str s => s=text
  | _ => false

/-- A value that can be in a set. -/
def hashable : Json→Bool
  | .list _ => false
  | .dict _ => false
  | _ => true

/-- A record of a service that is running, and healthy where it has a check. -/
def isHealthy (row : List (Str×Json)) : Bool :=
  (isText (get row (str "Health")) (str "healthy") || isText (get row (str "Health")) []) &&
    isText (get row (str "State")) (str "running")

/-- `exited_badly`, of one record: the service to report. -/
def failedService (record : Json) : Option Str :=
  match record with
  | .dict row =>
    match get row (str "Service"),get row (str "ExitCode") with
    | .str service,.int code => if code≠0 then some service else none
    | .str service,.bool code => if code=true then some service else none
    | _,_ => none
  | _ => none

section Readers

variable (floatOf : Str→Str)

/-- One pass of the loop of `healthy`: the members of the set after a line. -/
def readRow (states : List Json) (line : Str) : Except Raised (List Json) :=
  match loads floatOf line with
  | none => .error (.decode line)
  | some (.dict row) =>
    if hashable (get row (str "Health"))=false then
      .error (.unhashable (typeName (get row (str "Health"))))
    else if isHealthy row=true then
      match row.lookup (str "Service") with
      | none => .error (.key (str "Service"))
      | some service =>
        if hashable service=true then .ok (states++[service])
        else .error (.unhashable (typeName service))
    else .ok states
  | some value => .error (.attribute (typeName value))

/-- The loop of `healthy`. -/
def readRows : List Json→List Str→Except Raised (List Json)
  | states,[] => .ok states
  | states,line::lines =>
    if strip line=[] then readRows states lines
    else
      match readRow floatOf states line with
      | .ok states => readRows states lines
      | .error e => .error e

/-- `healthy`: the members of the set it returns, in the order they are added.
`report` is the text `check` raises for a failed command. -/
def healthy (report : Str) (printed : Printed) : Except Raised (List Json) :=
  if printed.returncode≠0 then .error (.assertion report)
  else readRows floatOf [] (splitlines printed.stdout)

/-- The records `exited_badly` reads from a stripped text, unless it is no JSON.
A document that starts with a bracket is a list. -/
def readRecords (text : Str) : Option (List Json) :=
  if text.head?=some 0x5b then
    match loads floatOf text with
    | none => none
    | some (.list items) => some items
    | some _ => some []
  else ((splitlines text).filter (fun line => strip line≠[])).mapM (loads floatOf)

/-- `exited_badly`: `probe` is none when the command could not be run. -/
def exitedBadly (probe : Option Printed) : List Str :=
  match probe with
  | none => []
  | some printed =>
    if strip printed.stdout=[] then []
    else
      match readRecords floatOf (strip printed.stdout) with
      | none => []
      | some records => sorted (records.filterMap failedService).toFinset

/-- Both readers get the same out of an array and out of lines. -/
def SameMeaning (report : Str) (returncode : ℤ) (array lines : Str) : Prop :=
  (∃ a b,healthy floatOf report ⟨returncode,array⟩=.ok a ∧
    healthy floatOf report ⟨returncode,lines⟩=.ok b ∧ ∀ service,service∈a ↔ service∈b) ∧
  exitedBadly floatOf (some ⟨returncode,array⟩)=exitedBadly floatOf (some ⟨returncode,lines⟩)

end Readers

theorem isSpace_of_isBlank {c : CodePoint} (h : isBlank c=true) : isSpace c=true := by
  simp only [isBlank,Bool.or_eq_true,decide_eq_true_eq] at h
  rcases h with ((rfl|rfl)|rfl)|rfl <;> decide

theorem skipBlanks_cons {c : CodePoint} (hc : isBlank c=true) (s : Str) :
    skipBlanks (c::s)=skipBlanks s := List.dropWhile_cons_of_pos hc

theorem skipBlanks_stop {c : CodePoint} (hc : isBlank c=false) (s : Str) :
    skipBlanks (c::s)=c::s := List.dropWhile_cons_of_neg (by rw [hc]; exact Bool.false_ne_true)

/-- A carriage return before a line feed changes nothing. -/
theorem splitlines_cr_lf {s : Str} (h : s.head?=some lf) : splitlines (cr::s)=splitlines s := by
  cases s with
  | nil => cases h
  | cons c s =>
    cases h
    rw [splitlines_crlf,splitlines_lf]

/-- The first line of a text that is not blank starts as the text does. -/
theorem splitlines_first {blanks : Str} (hblanks : ∀ c∈blanks,isBlank c=true) {c : CodePoint}
    (hline : isLineBoundary c=false) (hc : isBlank c=false) (rest : Str) :
    ∃ before line after,splitlines (blanks++c::rest)=before++line::after ∧
      (∀ l∈before,Blank l) ∧ ∃ tail,skipBlanks line=c::tail := by
  induction blanks with
  | nil =>
    rw [List.nil_append,splitlines_cons hline]
    cases splitlines rest with
    | nil =>
      exact ⟨[],[c],[],rfl,fun _ h => absurd h List.not_mem_nil,[],skipBlanks_stop hc []⟩
    | cons line lines =>
      exact ⟨[],c::line,lines,rfl,fun _ h => absurd h List.not_mem_nil,line,
        skipBlanks_stop hc line⟩
  | cons d blanks ih =>
    obtain ⟨before,line,after,hsplit,hbefore,tail,hline'⟩ :=
      ih (fun e he => hblanks e (List.mem_cons_of_mem d he))
    have hd := hblanks d List.mem_cons_self
    rw [List.cons_append]
    cases hboundary : isLineBoundary d with
    | false =>
      rw [splitlines_cons hboundary,hsplit]
      cases before with
      | nil =>
        refine ⟨[],d::line,after,rfl,fun _ h => absurd h List.not_mem_nil,tail,?_⟩
        rw [skipBlanks_cons hd,hline']
      | cons l before =>
        refine ⟨(d::l)::before,line,after,rfl,fun l' hl' => ?_,tail,hline'⟩
        rcases List.mem_cons.mp hl' with rfl|hl'
        · intro e he
          rcases List.mem_cons.mp he with rfl|he
          · exact isSpace_of_isBlank hd
          · exact hbefore l List.mem_cons_self e he
        · exact hbefore l' (List.mem_cons_of_mem l hl')
    | true =>
      by_cases hcrlf : d=cr ∧ (blanks++c::rest).head?=some lf
      · obtain ⟨rfl,hlf⟩ := hcrlf
        have hsame := splitlines_cr_lf hlf
        exact ⟨before,line,after,hsame.trans hsplit,hbefore,tail,hline'⟩
      · rw [splitlines_boundary hboundary hcrlf,hsplit]
        refine ⟨[]::before,line,after,rfl,fun l hl => ?_,tail,hline'⟩
        rcases List.mem_cons.mp hl with rfl|hl
        · exact blank_nil
        · exact hbefore l hl

section Shapes

variable {floatOf : Str→Str}

/-- A document that starts with a bracket is a list. -/
theorem loads_bracket {s rest : Str} {v : Json} (hs : skipBlanks s=0x5b::rest)
    (h : loads floatOf s=some v) : ∃ items,v=.list items := by
  rw [loads,hs] at h
  cases hread : rawDecode floatOf (0x5b::rest) with
  | none => simp only [hread,reduceCtorEq] at h
  | some found =>
    obtain ⟨w,r⟩ := found
    simp only [hread] at h
    split_ifs at h with hend
    cases h
    obtain ⟨m,c,s',-,heq,hcases⟩ := scanOnce_cases hread
    rw [List.cons.injEq] at heq
    obtain ⟨rfl,rfl⟩ := heq
    rcases hcases with ⟨hc,-⟩|⟨hc,-⟩|⟨-,d,r',-,⟨-,-,rfl⟩|⟨-,items,-,rfl⟩⟩|⟨⟨-,-,hc⟩,-⟩
    · exact absurd hc (by decide)
    · exact absurd hc (by decide)
    · exact ⟨[],rfl⟩
    · exact ⟨items,rfl⟩
    · exact absurd rfl hc

/-- An atom is no list. -/
theorem scanAtom_not_list {s rest : Str} {items : List Json} :
    scanAtom floatOf s≠some (.list items,rest) := by
  rw [scanAtom]
  cases hword : scanWord s with
  | some found =>
    rw [Option.some_or]
    intro h
    cases h
    obtain ⟨word,hmem,hfound⟩ := List.exists_of_findSome?_eq_some hword
    obtain ⟨rest',-,heq⟩ := Option.map_eq_some_iff.mp hfound
    simp only [words,List.mem_cons,List.not_mem_nil,or_false] at hmem
    rcases hmem with rfl|rfl|rfl|rfl|rfl|rfl <;> cases heq
  | none =>
    rw [Option.none_or]
    intro h
    obtain ⟨found,-,heq⟩ := Option.map_eq_some_iff.mp h
    rw [numberValue] at heq
    split_ifs at heq <;> cases heq

/-- The text of a list starts with a bracket. -/
theorem bracket_of_loads {s : Str} {items : List Json} (h : loads floatOf s=some (.list items)) :
    ∃ rest,skipBlanks s=0x5b::rest := by
  rw [loads] at h
  cases hread : rawDecode floatOf (skipBlanks s) with
  | none => simp only [hread,reduceCtorEq] at h
  | some found =>
    obtain ⟨w,r⟩ := found
    simp only [hread] at h
    split_ifs at h with hend
    cases h
    obtain ⟨m,c,s',-,heq,hcases⟩ := scanOnce_cases hread
    rcases hcases with ⟨-,t,-,hv⟩|⟨-,d,r',-,⟨-,-,hv⟩|⟨-,members,-,hv⟩⟩|⟨hc,-⟩|⟨-,hatom⟩
    · cases hv
    · cases hv
    · cases hv
    · exact ⟨s',hc ▸ heq⟩
    · exact absurd hatom scanAtom_not_list

/-- Blank lines are passed over. -/
theorem readRows_blank {before : List Str} (hbefore : ∀ l∈before,Blank l) (states : List Json)
    (lines : List Str) : readRows floatOf states (before++lines)=readRows floatOf states lines := by
  induction before with
  | nil => rfl
  | cons l before ih =>
    rw [List.cons_append,readRows,if_pos (strip_eq_nil_iff.mpr (hbefore l List.mem_cons_self))]
    exact ih (fun l' hl' => hbefore l' (List.mem_cons_of_mem l hl'))

/-- On a text that starts with a bracket `healthy` raises. -/
theorem healthy_bracket {text rest : Str} (h : skipBlanks text=0x5b::rest) (report : Str)
    (returncode : ℤ) : ∃ e,healthy floatOf report ⟨returncode,text⟩=.error e := by
  rw [healthy]
  by_cases hcode : returncode≠0
  · exact ⟨.assertion report,if_pos hcode⟩
  · rw [if_neg hcode]
    dsimp only
    have htext : text=text.takeWhile isBlank++0x5b::rest := by
      rw [←h,skipBlanks,List.takeWhile_append_dropWhile]
    obtain ⟨before,line,after,hsplit,hbefore,tail,hline⟩ := @splitlines_first
      (text.takeWhile isBlank) (fun _ hc => List.mem_takeWhile_imp hc) 0x5b (by decide) (by decide)
      rest
    have hnonblank : strip line≠[] := by
      rw [ne_eq,strip_eq_nil_iff]
      intro hblank
      have hmem : (0x5b : CodePoint)∈line := by
        refine (List.dropWhile_suffix isBlank).subset ?_
        change (0x5b : CodePoint)∈skipBlanks line
        rw [hline]
        exact List.mem_cons_self
      exact absurd (hblank _ hmem) (by decide)
    have hrow : ∃ e,readRow floatOf [] line=.error e := by
      rw [readRow]
      cases hread : loads floatOf line with
      | none => exact ⟨.decode line,rfl⟩
      | some value =>
        obtain ⟨items,rfl⟩ := loads_bracket hline hread
        exact ⟨.attribute _,rfl⟩
    obtain ⟨e,he⟩ := hrow
    refine ⟨e,?_⟩
    rw [htext,hsplit,readRows_blank hbefore,readRows,if_neg hnonblank,he]

/-- The two shapes never mean the same to both readers: whatever the records of
the array are, `healthy` returns nothing for it. -/
theorem shapes_differ {array : Str} {records : List Json}
    (harray : loads floatOf array=some (.list records)) (report : Str) (returncode : ℤ)
    (lines : Str) : ¬SameMeaning floatOf report returncode array lines := by
  rintro ⟨⟨a,b,ha,-⟩,-⟩
  obtain ⟨rest,hrest⟩ := bracket_of_loads harray
  obtain ⟨e,he⟩ := @healthy_bracket floatOf _ _ hrest report returncode
  rw [he] at ha
  cases ha

/-- A printed record: an object on one line, without whitespace around it. -/
structure RecordText (floatOf : Str→Str) (text : Str) (record : Json) : Prop where
  /-- It reads as the record. -/
  reads : loads floatOf text=some record
  /-- It starts with a brace. -/
  brace : text.head?=some 0x7b
  /-- Nothing stands around it. -/
  trimmed : Trimmed text
  /-- No character of it ends a line. -/
  lineFree : LineFree text

/-- A record of a container, as the two readers need it. -/
structure IsRecord (record : Json) (row : List (Str×Json)) : Prop where
  /-- It is an object. -/
  object : record=.dict row
  /-- `Service` is there, a string. -/
  service : ∃ name,row.lookup (str "Service")=some (.str name)
  /-- `Health` is a string. -/
  health : ∃ name,get row (str "Health")=.str name

/-- The service of a record that `healthy` counts. -/
def healthyService (record : Json) : Option Json :=
  match record with
  | .dict row => if isHealthy row=true then some (get row (str "Service")) else none
  | _ => none

theorem RecordText.not_blank {text : Str} {record : Json}
    (h : RecordText floatOf text record) : strip text≠[] := by
  rw [ne_eq,strip_eq_nil_iff]
  intro hblank
  exact absurd (hblank _ (List.mem_of_mem_head? h.brace)) (by decide)

/-- Every printed line is a record. -/
theorem recordText_of_mem {objects : List Str} {records : List Json}
    (h : List.Forall₂ (RecordText floatOf) objects records) {o : Str} (ho : o∈objects) :
    ∃ record,RecordText floatOf o record := by
  induction h with
  | nil => exact absurd ho List.not_mem_nil
  | @cons o' record objects records hfirst _ ih =>
    rcases List.mem_cons.mp ho with rfl|ho
    · exact ⟨record,hfirst⟩
    · exact ih ho

/-- One line with a record adds the service it is to be counted for. -/
theorem readRow_record {text : Str} {record : Json} {row : List (Str×Json)}
    (h : RecordText floatOf text record) (hrecord : IsRecord record row) (states : List Json) :
    readRow floatOf states text=.ok (states++(healthyService record).toList) := by
  obtain ⟨rfl,⟨service,hservice⟩,⟨health,hhealth⟩⟩ := hrecord
  have hread := h.reads
  have hhash : hashable (get row (str "Health"))≠false := by
    rw [hhealth]
    exact Bool.noConfusion
  have hget : get row (str "Service")=.str service :=
    congrArg (fun found => Option.getD found Json.none) hservice
  rw [readRow,hread]
  dsimp only
  rw [if_neg hhash,healthyService,hservice,hget]
  by_cases hcounts : isHealthy row=true
  · rw [if_pos hcounts,if_pos hcounts]
    rfl
  · rw [if_neg hcounts,if_neg hcounts,Option.toList_none,List.append_nil]

/-- On lines, `healthy` returns the services it is to count. -/
theorem healthy_lines {objects : List Str} {records : List Json}
    (h : List.Forall₂ (RecordText floatOf) objects records)
    (hrecords : ∀ record∈records,∃ row,IsRecord record row) (report : Str) :
    healthy floatOf report ⟨0,objects.flatMap (fun o => o++[lf])⟩=
      .ok (records.filterMap healthyService) := by
  have hfree : ∀ o∈objects,LineFree o := by
    intro o ho
    obtain ⟨record,hrecord⟩ := recordText_of_mem h ho
    exact hrecord.lineFree
  have hlines := splitlines_flatMap hfree []
  rw [List.append_nil,splitlines_nil,List.append_nil] at hlines
  have hrows : ∀ states,readRows floatOf states objects=
      .ok (states++records.filterMap healthyService) := by
    clear hlines hfree
    induction h with
    | nil => exact fun states => congrArg Except.ok (List.append_nil states).symm
    | @cons o record objects records ho _ ih =>
      intro states
      obtain ⟨row,hrow⟩ := hrecords record List.mem_cons_self
      rw [readRows,if_neg ho.not_blank,readRow_record ho hrow]
      dsimp only
      rw [ih (fun r hr => hrecords r (List.mem_cons_of_mem record hr)),List.filterMap_cons]
      cases healthyService record with
      | none => rw [Option.toList_none,List.append_nil]
      | some service => rw [Option.toList_some,List.append_assoc]; rfl
  rw [healthy]
  dsimp only
  rw [if_neg (by decide),hlines,hrows,List.nil_append]

/-- Printed lines are read one by one. -/
theorem mapM_loads {objects : List Str} {records : List Json}
    (h : List.Forall₂ (RecordText floatOf) objects records) :
    objects.mapM (loads floatOf)=some records := by
  induction h with
  | nil => rfl
  | @cons o record objects records ho _ ih =>
    rw [List.mapM_cons,ho.reads,ih]
    rfl

/-- Printed lines but for the last line feed start with a brace and have nothing
around them. -/
theorem trimmed_lines {init : List Str} {last : Str}
    (h : ∀ o∈init++[last],o.head?=some 0x7b ∧ Trimmed o) :
    (init.flatMap (fun o => o++[lf])++last).head?=some 0x7b ∧
      Trimmed (init.flatMap (fun o => o++[lf])++last) := by
  obtain ⟨hbrace,htrimmed⟩ := h last (List.mem_append_right init List.mem_cons_self)
  have hhead : (init.flatMap (fun o => o++[lf])++last).head?=some 0x7b := by
    cases init with
    | nil => exact hbrace
    | cons o init =>
      have ho := (h o List.mem_cons_self).1
      rw [List.flatMap_cons,List.append_assoc,List.append_assoc,List.head?_append,ho]
      rfl
  refine ⟨hhead,fun c hc => ?_,fun c hc => ?_⟩
  · rw [hhead] at hc
    cases hc
    decide
  · rw [List.getLast?_append] at hc
    cases hlast : last.getLast? with
    | none =>
      rw [List.getLast?_eq_none_iff.mp hlast] at hbrace
      cases hbrace
    | some d =>
      rw [hlast,Option.some_or] at hc
      cases hc
      exact htrimmed.last c hlast

/-- On an array `exited_badly` reports on its records. -/
theorem exitedBadly_array {records : List Json} {array : Str}
    (harray : loads floatOf array=some (.list records)) (htrimmed : Trimmed array)
    (returncode : ℤ) : exitedBadly floatOf (some ⟨returncode,array⟩)=
      sorted (records.filterMap failedService).toFinset := by
  have hbracket : array.head?=some 0x5b := by
    obtain ⟨rest,hrest⟩ := bracket_of_loads harray
    cases array with
    | nil => cases hrest
    | cons c array =>
      have hspace := htrimmed.head c rfl
      have hblank : isBlank c=false := by
        cases hb : isBlank c with
        | false => rfl
        | true =>
          rw [isSpace_of_isBlank hb] at hspace
          cases hspace
      rw [skipBlanks_stop hblank,List.cons.injEq] at hrest
      rw [hrest.1]
      rfl
  have hne : array≠[] := by
    rintro rfl
    cases hbracket
  rw [exitedBadly]
  dsimp only
  rw [strip_of_trimmed htrimmed,if_neg hne,readRecords,if_pos hbracket,harray]

/-- On lines it reports on the records of the lines. -/
theorem exitedBadly_lines {objects : List Str} {records : List Json}
    (h : List.Forall₂ (RecordText floatOf) objects records) (returncode : ℤ) :
    exitedBadly floatOf (some ⟨returncode,objects.flatMap (fun o => o++[lf])⟩)=
      sorted (records.filterMap failedService).toFinset := by
  rcases List.eq_nil_or_concat objects with rfl|⟨init,last,rfl⟩
  · cases h
    exact sorted_empty.symm
  · rw [List.concat_eq_append] at h ⊢
    have hrecord : ∀ o∈init++[last],∃ record,RecordText floatOf o record :=
      fun o ho => recordText_of_mem h ho
    have hlastmem : last∈init++[last] := List.mem_append_right init List.mem_cons_self
    obtain ⟨hhead,htrim⟩ := trimmed_lines (fun o ho => by
      obtain ⟨record,ho⟩ := hrecord o ho
      exact ⟨ho.brace,ho.trimmed⟩)
    have hstrip : strip ((init++[last]).flatMap (fun o => o++[lf]))=
        init.flatMap (fun o => o++[lf])++last := by
      have hcut := @strip_append [] (init.flatMap (fun o => o++[lf])++last) [lf] blank_nil
        (fun c hc => by rw [List.mem_singleton.mp hc]; decide)
      rw [List.nil_append,strip_of_trimmed htrim] at hcut
      rw [←hcut,List.flatMap_append,List.flatMap_singleton,List.append_assoc]
    have hlines : splitlines (init.flatMap (fun o => o++[lf])++last)=init++[last] := by
      obtain ⟨record,hlast⟩ := hrecord last hlastmem
      have hne : last≠[] := by
        rintro rfl
        cases hlast.brace
      rw [splitlines_flatMap,splitlines_last hlast.lineFree hne]
      intro o ho
      obtain ⟨record,ho⟩ := hrecord o (List.mem_append_left _ ho)
      exact ho.lineFree
    have hkept : (init++[last]).filter (fun line => strip line≠[])=init++[last] := by
      refine List.filter_eq_self.mpr (fun o ho => decide_eq_true ?_)
      obtain ⟨record,ho⟩ := hrecord o ho
      exact ho.not_blank
    have hne : init.flatMap (fun o => o++[lf])++last≠[] := by
      intro hnil
      rw [hnil] at hhead
      cases hhead
    have hnot : (init.flatMap (fun o => o++[lf])++last).head?≠some 0x5b := by
      rw [hhead]
      decide
    rw [exitedBadly]
    dsimp only
    rw [hstrip,if_neg hne,readRecords,if_neg hnot,hlines,hkept,mapM_loads h]

/-- `exited_badly` returns the same list for both shapes. -/
theorem exitedBadly_shapes {objects : List Str} {records : List Json} {array : Str}
    (h : List.Forall₂ (RecordText floatOf) objects records)
    (harray : loads floatOf array=some (.list records)) (htrimmed : Trimmed array)
    (returncode : ℤ) : exitedBadly floatOf (some ⟨returncode,array⟩)=
      exitedBadly floatOf (some ⟨returncode,objects.flatMap (fun o => o++[lf])⟩) := by
  rw [exitedBadly_array harray htrimmed,exitedBadly_lines h]

end Shapes

/-- A record of a running service without a check. -/
def sampleRecord : Json :=
  .dict [(str "Service",.str (str "mlflow")),(str "State",.str (str "running")),
    (str "Health",.str []),(str "ExitCode",.int 0)]

theorem sampleRecord_valid : Valid (fun text => text) sampleRecord := by
  refine .dict (by decide) ?_
  intro field hfield
  simp only [List.mem_cons,List.not_mem_nil,or_false] at hfield
  rcases hfield with rfl|rfl|rfl|rfl
  · exact .str _
  · exact .str _
  · exact .str _
  · exact .int 0

theorem sampleRecord_loads :
    loads (fun text => text) (dumps sampleRecord)=some sampleRecord ∧
      loads (fun text => text) (dumps (.list [sampleRecord]))=some (.list [sampleRecord]) := by
  have hlist : Valid (fun text => text) (.list [sampleRecord]) := by
    refine .list (fun v hv => ?_)
    rw [List.mem_singleton.mp hv]
    exact sampleRecord_valid
  have hjoined : ∀ s∈strings (.list [sampleRecord]),joinPairs s=s := by decide +kernel
  have hplain : ∀ s∈strings (.list [sampleRecord]),¬HasPair s :=
    fun s hs => (joinPairs_eq_self_iff s).mp (hjoined s hs)
  have hplain' : ∀ s∈strings sampleRecord,¬HasPair s :=
    fun s hs => hplain s (List.mem_append_left _ hs)
  constructor
  · rw [loads_dumps sampleRecord_valid,(readBack_eq_self_iff sampleRecord_valid).mpr hplain']
  · rw [loads_dumps hlist,(readBack_eq_self_iff hlist).mpr hplain]

theorem sampleRecord_text :
    RecordText (fun text => text) (dumps sampleRecord) sampleRecord := by
  have hlast : (dumps sampleRecord).getLast?=some 0x7d := by decide +kernel
  have hfree : (dumps sampleRecord).all (fun c => !isLineBoundary c)=true := by decide +kernel
  refine ⟨sampleRecord_loads.1,rfl,⟨fun c hc => ?_,fun c hc => ?_⟩,fun c hc => ?_⟩
  · cases hc
    decide
  · rw [hlast] at hc
    cases hc
    decide
  · have hc := List.all_eq_true.mp hfree c hc
    rwa [Bool.not_eq_true'] at hc

theorem shapes_differ_sample :
    ¬SameMeaning (fun text => text) [] 0 (dumps (.list [sampleRecord])) (dumps sampleRecord++[lf]) :=
  shapes_differ sampleRecord_loads.2 [] 0 (dumps sampleRecord++[lf])

/-- One running service: `healthy` finds it in a line and raises on the array. -/
theorem shapes_differ_fails :
    loads (fun text => text) (dumps sampleRecord)=some sampleRecord ∧
      loads (fun text => text) (dumps (.list [sampleRecord]))=some (.list [sampleRecord]) ∧
      healthy (fun text => text) [] ⟨0,dumps sampleRecord++[lf]⟩=.ok [.str (str "mlflow")] ∧
      ∃ e,healthy (fun text => text) [] ⟨0,dumps (.list [sampleRecord])⟩=.error e := by
  obtain ⟨rest,hrest⟩ := bracket_of_loads sampleRecord_loads.2
  refine ⟨sampleRecord_loads.1,sampleRecord_loads.2,?_,healthy_bracket hrest [] 0⟩
  have hrecord : IsRecord sampleRecord [(str "Service",.str (str "mlflow")),
      (str "State",.str (str "running")),(str "Health",.str []),(str "ExitCode",.int 0)] :=
    ⟨rfl,⟨_,rfl⟩,⟨[],by rfl⟩⟩
  have hlines := healthy_lines (.cons sampleRecord_text .nil) (fun record hmem => by
    rw [List.mem_singleton.mp hmem]
    exact ⟨_,hrecord⟩) []
  rw [List.flatMap_singleton] at hlines
  rw [hlines]
  rfl

end MlopsPlatform.StackShapes
