import MlopsPlatform.JsonMarkers

/-!
# The fence around a container's answer

A snippet in a container prints a marker and then its answer as JSON, between
whatever else is printed. The reader takes the last marker in the whole output.
It gives the answer back exactly when the answer itself has no marker in a
string, and no surrogate pair that JSON would join.
-/

namespace MlopsPlatform.StackPayload

open TextCodec TextLines PythonJson JsonStrings JsonText JsonRoundTrip JsonLexing JsonMarkers

/-- `PAYLOAD` -/
def payloadMarker : Str := str "<<<payload>>>"

/-- `s.rfind(sub)` -/
def rfind (sub : Str) : Str→Option ℕ
  | [] => if sub=[] then some 0 else none
  | c::rest =>
    match rfind sub rest with
    | some found => some (found+1)
    | none => if sub.isPrefixOf (c::rest)=true then some 0 else none

/-- What the interpreter adds: `repr(float(text))`, `repr` of a string, and the
text of the error `raw_decode` raises. -/
structure Runtime where
  /-- `repr(float(text))` of a numeral -/
  floatOf : Str→Str
  /-- `repr` of a string -/
  repr : Str→Str
  /-- The text of the JSONDecodeError for a text without a document. -/
  decodeError : Str→Str

/-- No marker was printed. -/
def noMarker (runtime : Runtime) (stdout what : Str) : Str :=
  what++str ": no "++payloadMarker++
    str " marker in the container's stdout, so the snippet did not reach its print. Output was "++
    runtime.repr stdout

/-- No document stands behind the marker. -/
def notJson (runtime : Runtime) (stdout what tail : Str) : Str :=
  what++str ": the text after "++payloadMarker++str " is not JSON ("++runtime.decodeError tail++
    str "). Output was "++runtime.repr stdout

/-- `payload`: the value, or the text of the AssertionError. -/
def payload (runtime : Runtime) (stdout what : Str) : Except Str Json :=
  match rfind payloadMarker stdout with
  | none => .error (noMarker runtime stdout what)
  | some found =>
    let tail := (stdout.drop (found+payloadMarker.length)).dropWhile isSpace
    match rawDecode runtime.floatOf tail with
    | none => .error (notJson runtime stdout what tail)
    | some decoded => .ok decoded.1

/-- A text that is not there is not found. -/
theorem rfind_absent {m s : Str} (h : ¬m<:+:s) : rfind m s=none := by
  induction s with
  | nil =>
    refine if_neg ?_
    rintro rfl
    exact h List.nil_infix
  | cons c s ih =>
    have hrest : ¬m<:+:s := fun hin => h (hin.trans (List.suffix_cons c s).isInfix)
    have hfront : ¬m.isPrefixOf (c::s)=true := fun hp =>
      h (List.isPrefixOf_iff_prefix.mp hp).isInfix
    rw [rfind,ih hrest]
    exact if_neg hfront

/-- An occurrence with no later one is found. -/
theorem rfind_last {c : CodePoint} {m before behind : Str} (h : ¬c::m<:+:m++behind) :
    rfind (c::m) (before++c::m++behind)=some before.length := by
  induction before with
  | nil =>
    have hfront : (c::m).isPrefixOf (c::(m++behind))=true :=
      List.isPrefixOf_iff_prefix.mpr (List.prefix_append (c::m) behind)
    rw [List.nil_append,List.cons_append,rfind,rfind_absent h]
    exact if_pos hfront
  | cons d before ih =>
    rw [List.cons_append,List.cons_append,rfind,ih]
    rfl

/-- A text that is there has a last occurrence. -/
theorem exists_last {c : CodePoint} {m s : Str} (h : c::m<:+:s) :
    ∃ before behind,s=before++c::m++behind ∧ ¬c::m<:+:m++behind := by
  induction s with
  | nil => exact absurd (List.infix_nil.mp h) (List.cons_ne_nil c m)
  | cons d s ih =>
    by_cases hlater : c::m<:+:s
    · obtain ⟨before,behind,rfl,hlast⟩ := ih hlater
      exact ⟨d::before,behind,rfl,hlast⟩
    · rcases List.infix_cons_iff.mp h with ⟨behind,hs⟩|hin
      · rw [List.cons_append,List.cons.injEq] at hs
        refine ⟨[],behind,?_,?_⟩
        · rw [List.nil_append,List.cons_append,hs.1,hs.2]
        · rwa [hs.2]
      · exact absurd hin hlater

/-- The marker but for its first character. -/
def markerTail : Str := str "<<payload>>>"

theorem payloadMarker_eq : payloadMarker=0x3c::markerTail := by decide

theorem marker_payload : Marker payloadMarker where
  head := ⟨0x3c,markerTail,payloadMarker_eq,by decide,by decide⟩
  plain := List.all_eq_true.mp (by decide)

/-- The marker has no line feed in it. -/
theorem lf_notMem_marker : lf∉payloadMarker := by decide

/-- No end of the marker is a beginning of it. -/
theorem marker_unbordered {s : Str} (hs : s<:+markerTail) (hp : s<+:payloadMarker) : s=[] := by
  have hall : ∀ n∈List.range 13,n≠0 → payloadMarker.take n≠markerTail.drop (12-n) := by
    decide +kernel
  by_contra hne
  have hlength := hs.length_le
  have htail : markerTail.length=12 := by decide
  rw [htail] at hlength
  refine hall s.length (List.mem_range.mpr (by omega)) (fun h => hne (List.length_eq_zero_iff.mp h))
    ?_
  rw [←List.prefix_iff_eq_take.mp hp,←htail]
  exact List.suffix_iff_eq_drop.mp hs

/-- Text that follows a document and starts a new line adds no occurrence. -/
theorem infix_document {s after : Str} (hafter : ¬payloadMarker<:+:after)
    (hline : after=[] ∨ ∃ tail,after=lf::tail) (h : payloadMarker<:+:s++after) :
    payloadMarker<:+:s := by
  rcases hline with rfl|⟨tail,rfl⟩
  · rwa [List.append_nil] at h
  · refine (infix_of_separated lf_notMem_marker h).resolve_right (fun hin => hafter ?_)
    exact hin.trans (List.suffix_cons lf tail).isInfix

/-- Nor does an occurrence reach into it. -/
theorem split_document {s after front rest : Str} (hafter : ¬payloadMarker<:+:after)
    (hline : after=[] ∨ ∃ tail,after=lf::tail) (h : s++after=front++payloadMarker++rest) :
    ∃ behind,s=front++payloadMarker++behind ∧ rest=behind++after := by
  rcases List.append_eq_append_iff.mp h with ⟨more,hfront,hmore⟩|⟨more,hmore,hrest⟩
  · cases more with
    | nil =>
      rw [List.append_nil] at hfront
      exact ⟨[],by rw [List.append_nil]; exact hfront.symm,hmore.symm⟩
    | cons c more =>
      rcases hline with rfl|⟨tail,rfl⟩
      · cases hmore
      · rw [List.cons_append,List.cons.injEq] at hmore
        rw [←hmore.1] at hfront
        rcases List.append_eq_append_iff.mp hfront with ⟨part,-,hpart⟩|⟨part,-,hpart⟩
        · refine absurd ?_ lf_notMem_marker
          rw [hpart]
          exact List.mem_append_right part List.mem_cons_self
        · refine absurd ?_ hafter
          rw [hmore.2,←List.cons_append,hpart]
          exact (List.suffix_append part payloadMarker).isInfix.trans
            (List.prefix_append (part++payloadMarker) rest).isInfix
  · exact ⟨more,hmore,hrest⟩

/-- Where the marker is not in the document, its last occurrence is the fence. -/
theorem marker_last {s : Str} (h : ¬payloadMarker<:+:s) : ¬payloadMarker<:+:markerTail++s := by
  intro hin
  rcases List.infix_append_iff.mp hin with hin|hin|⟨left,right,heq,hleft,hright⟩
  · exact absurd hin.length_le (by decide)
  · exact h hin
  · have hnil := marker_unbordered hleft ⟨right,heq.symm⟩
    rw [hnil,List.nil_append] at heq
    rw [←heq] at hright
    exact h hright.isInfix

section Fence

variable {runtime : Runtime} {v : Json} {after : Str}

/-- Behind the last marker, the reader is on its own. -/
theorem payload_at {before behind : Str} (hlast : ¬payloadMarker<:+:markerTail++behind)
    (what : Str) : payload runtime (before++payloadMarker++behind) what=
      match rawDecode runtime.floatOf (behind.dropWhile isSpace) with
      | none => .error (notJson runtime (before++payloadMarker++behind) what
          (behind.dropWhile isSpace))
      | some decoded => .ok decoded.1 := by
  have hfound : rfind payloadMarker (before++payloadMarker++behind)=some before.length := by
    rw [payloadMarker_eq] at hlast ⊢
    exact rfind_last hlast
  have hdrop : (before++payloadMarker++behind).drop (before.length+payloadMarker.length)=behind := by
    rw [←List.length_append]
    exact List.drop_left
  rw [payload,hfound]
  dsimp only
  rw [hdrop]

/-- A document without the marker is found, and read back. -/
theorem payload_visible (hv : Valid runtime.floatOf v) (hafter : ¬payloadMarker<:+:after)
    (hline : after=[] ∨ ∃ tail,after=lf::tail) (hnone : ¬payloadMarker<:+:dumps v)
    (before what : Str) :
    payload runtime (before++payloadMarker++(dumps v++after)) what=.ok (readBack v) := by
  have hlast := marker_last (fun hin => hnone (infix_document hafter hline hin))
  obtain ⟨c,s,hs,hc⟩ := dumps_head hv
  have htrim : (dumps v++after).dropWhile isSpace=dumps v++after := by
    rw [hs,List.cons_append,List.dropWhile_cons_of_neg]
    rw [(opens_bounds hc).2.1]
    exact Bool.false_ne_true
  have hstops : Stops after := by
    rcases hline with rfl|⟨tail,rfl⟩
    · exact stops_nil
    · exact stops_cons (by decide) tail
  rw [payload_at hlast,htrim,rawDecode_dumps hv hstops]

/-- A document with the marker in it is not the one that is read. -/
theorem payload_hidden (hv : Valid runtime.floatOf v) (hafter : ¬payloadMarker<:+:after)
    (hline : after=[] ∨ ∃ tail,after=lf::tail) (hsome : payloadMarker<:+:dumps v)
    (before what : Str) :
    payload runtime (before++payloadMarker++(dumps v++after)) what≠.ok v := by
  obtain ⟨front,rest,hsplit,hlast⟩ : ∃ front rest,dumps v++after=front++payloadMarker++rest ∧
      ¬payloadMarker<:+:markerTail++rest := by
    have hin := hsome.trans (List.prefix_append (dumps v) after).isInfix
    rw [payloadMarker_eq] at hin ⊢
    exact exists_last hin
  obtain ⟨behind,hdumps,rfl⟩ := split_document hafter hline hsplit
  have hbehind : ¬payloadMarker<:+:behind := fun hin => hlast
    ((hin.trans (List.prefix_append behind after).isInfix).trans
      (List.suffix_append markerTail (behind++after)).isInfix)
  have hwhole : before++payloadMarker++(dumps v++after)=
      before++payloadMarker++front++payloadMarker++(behind++after) := by
    rw [hsplit]
    simp only [List.append_assoc]
  rw [hwhole,payload_at hlast]
  cases hread : rawDecode runtime.floatOf ((behind++after).dropWhile isSpace) with
  | none => exact fun h => by cases h
  | some decoded =>
    obtain ⟨w,rest⟩ := decoded
    intro h
    cases h
    obtain ⟨s,hs,hin⟩ := (marker_payload.infix_dumps_iff hv).mp hsome
    exact marker_payload.hidden hv hdumps hbehind hline hread s hs hin

/-- The fence gives a value back exactly when no string of it has the marker or a
surrogate pair in it. -/
theorem payload_reads_iff (hv : Valid runtime.floatOf v) (hafter : ¬payloadMarker<:+:after)
    (hline : after=[] ∨ ∃ tail,after=lf::tail) (before what : Str) :
    payload runtime (before++payloadMarker++(dumps v++after)) what=.ok v ↔
      ∀ s∈strings v,¬payloadMarker<:+:s ∧ ¬HasPair s := by
  by_cases hmarker : payloadMarker<:+:dumps v
  · refine iff_of_false (payload_hidden hv hafter hline hmarker before what) (fun h => ?_)
    obtain ⟨s,hs,hin⟩ := (marker_payload.infix_dumps_iff hv).mp hmarker
    exact (h s hs).1 hin
  · have hnone : ∀ s∈strings v,¬payloadMarker<:+:s := fun s hs hin =>
      hmarker ((marker_payload.infix_dumps_iff hv).mpr ⟨s,hs,hin⟩)
    rw [payload_visible hv hafter hline hmarker,Except.ok.injEq,readBack_eq_self_iff hv]
    exact ⟨fun h s hs => ⟨hnone s hs,h s hs⟩,fun h s hs => (h s hs).2⟩

end Fence

/-- A runtime in which every numeral is its own printed form. -/
def plainRuntime : Runtime where
  floatOf text := text
  repr text := text
  decodeError _ := str "Expecting value"

/-- An answer as the snippets print it. -/
def sampleAnswer : Json :=
  .dict [(str "run_id",.str (str "d5bc")),(str "keys",.list [.int 1,.float (str "0.5")])]

theorem payload_reads_sample :
    payload plainRuntime (str "View run\n"++payloadMarker++(dumps sampleAnswer++str "\nbye"))
        (str "plain")=.ok sampleAnswer ↔
      ∀ s∈strings sampleAnswer,¬payloadMarker<:+:s ∧ ¬HasPair s := by
  have hvalid : Valid plainRuntime.floatOf sampleAnswer := by
    refine .dict (by decide) ?_
    intro field hfield
    simp only [List.mem_cons,List.not_mem_nil,or_false] at hfield
    rcases hfield with rfl|rfl
    · exact .str _
    · refine .list ?_
      intro v hv
      simp only [List.mem_cons,List.not_mem_nil,or_false] at hv
      rcases hv with rfl|rfl
      · exact .int 1
      · exact .float (.inr (.inr (.inr ⟨by decide,rfl⟩)))
  exact payload_reads_iff hvalid (by decide +kernel) (.inr ⟨str "bye",by decide⟩) _ _

/-- The marker itself, as an answer, is lost. -/
theorem payload_loses_marker :
    Valid plainRuntime.floatOf (.str payloadMarker) ∧
      payload plainRuntime (payloadMarker++dumps (.str payloadMarker)) (str "plain")≠
        .ok (.str payloadMarker) := by
  refine ⟨.str _,?_⟩
  have hsplit : payloadMarker++dumps (.str payloadMarker)=
      payloadMarker++[quote]++payloadMarker++[quote] := by decide +kernel
  have hlast : ¬payloadMarker<:+:markerTail++[quote] := by decide +kernel
  have hread : rawDecode plainRuntime.floatOf ([quote].dropWhile isSpace)=none := rfl
  rw [hsplit,payload_at hlast,hread]
  exact fun h => by cases h

end MlopsPlatform.StackPayload
