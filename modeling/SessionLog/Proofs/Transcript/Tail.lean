/-
  SessionLog/Proofs/Transcript/Tail.lean
  ======================================
  **The end of a transcript gives the latest response of the whole.**

  The latest response is the text of the newest entry that has one. A line that is cut by
  the start of the tail, wherever in it and in its characters the cut lies, is in front of
  all whole lines, so what it is read as counts only if none of these says anything.
-/
import SessionLog.Proofs.Transcript.Increment

namespace SessionLog.Transcript

/-! ### The newest text among some octets -/

def newestIn? (octets : List UInt8) : Option String := newestText? (Utf8.decodeLenient octets)

theorem newestIn?_eq_or {octets front back : List UInt8}
    (h : entriesIn octets = entriesIn front ++ entriesIn back) :
    newestIn? octets = (newestIn? back).or (newestIn? front) := by
  have hnewest (part : List UInt8) :
      newestIn? part = (entriesIn part).reverse.findSome? Entry.assistantText? :=
    newestText?_eq_findSome? _
  rw [hnewest, hnewest, hnewest, h, List.reverse_append, List.findSome?_append]

theorem IsWhole.drop {octets : List UInt8} (h : IsWhole octets) (n : Nat) :
    IsWhole (octets.drop n) := by
  rcases h with rfl | hlast
  · left
    exact List.drop_nil
  · by_cases hn : octets.length ≤ n
    · left
      exact List.drop_eq_nil_of_le hn
    · right
      rw [List.getLast?_drop, if_neg hn]
      exact hlast

/-- Of whole lines any number of octets can be dropped from in front of a part that says
    something. -/
theorem newestIn?_drop_append {front back : List UInt8} (hfront : IsWhole front) {text : String}
    (hback : newestIn? back = some text) {n : Nat} (hn : n ≤ front.length) :
    newestIn? ((front ++ back).drop n) = some text := by
  have hdropped := entriesIn_append (hfront.drop n) back
  rw [List.drop_append_of_le_length hn, newestIn?_eq_or hdropped, hback, Option.some_or]

/-! ### Lines -/

/-- A line among some octets: there are whole lines in front of it, and a line feed or
    nothing behind it. -/
structure IsLine (front line back : List UInt8) : Prop where
  front_whole : IsWhole front
  no_feed : 0x0A ∉ line
  back_feed : back = [] ∨ back.head? = some 0x0A

/-- What the assistant says in a line. -/
def saidIn? (line : List UInt8) : Option String :=
  (Entry.parse? (Utf8.decodeLenient line)).bind Entry.assistantText?

theorem newestIn?_of_no_feed {line : List UInt8} (h : 0x0A ∉ line) :
    newestIn? line = saidIn? line := by
  have hfeed : '\n' ∉ Utf8.decodeLenient line := by
    intro hmem
    exact h (Utf8.mem_of_mem_decodeLenient (b := 0x0A) (by decide) (by decide) hmem)
  rw [newestIn?, newestText?_eq_findSome?, entries_of_no_feed hfeed, saidIn?]
  cases Entry.parse? (Utf8.decodeLenient line) with
  | none => rfl
  | some entry => simp

/-- From a line on that says something, something is said. -/
theorem exists_newestIn?_line {front line back : List UInt8} (h : IsLine front line back)
    (hsaid : (saidIn? line).isSome = true) : ∃ text, newestIn? (line ++ back) = some text := by
  rw [← newestIn?_of_no_feed h.no_feed] at hsaid
  rw [← Option.isSome_iff_exists]
  rcases h.back_feed with rfl | hhead
  · rw [List.append_nil]
    exact hsaid
  · obtain ⟨rest, rfl⟩ := List.head?_eq_some_iff.1 hhead
    rw [newestIn?_eq_or (entriesIn_append_feed line rest), Option.isSome_or, hsaid, Bool.or_true]

/-! ### The tail -/

theorem latestIn?_eq_map (octets : List UInt8) (maxLength : Nat) :
    latestIn? (some octets) maxLength = (newestIn? (tail octets)).map (capAt maxLength) := by
  rw [latestIn?, Option.bind_some, latestResponse?, newestIn?]

theorem tail_of_length_le {octets : List UInt8} (h : octets.length ≤ tailSize) :
    tail octets = octets := by
  rw [tail, Nat.sub_eq_zero_of_le h, List.drop_zero]

/-- The latest response that is found in the tail of a transcript is that of the whole one,
    if the transcript is no longer than the tail. If it is longer, this is so as soon as the
    assistant says something in a line that starts in the tail, and then there is one. -/
theorem tail_has_latestResponse (octets : List UInt8) (maxLength : Nat) :
    (octets.length ≤ tailSize →
      latestIn? (some octets) maxLength =
        latestResponse? (Utf8.decodeLenient octets) maxLength) ∧
    ∀ front line back : List UInt8, octets = front ++ (line ++ back) → IsLine front line back →
      octets.length - tailSize ≤ front.length → (saidIn? line).isSome = true →
      ∃ response, latestIn? (some octets) maxLength = some response ∧
        latestResponse? (Utf8.decodeLenient octets) maxLength = some response := by
  constructor
  · intro hshort
    rw [latestIn?_eq_map, tail_of_length_le hshort]
    rfl
  · intro front line back hoctets hline hstart hsaid
    obtain ⟨text, htext⟩ := exists_newestIn?_line hline hsaid
    have htail : newestIn? (tail octets) = some text := by
      rw [hoctets] at hstart
      rw [tail, hoctets]
      exact newestIn?_drop_append hline.front_whole htext hstart
    have hwhole : newestIn? octets = some text := by
      have hdropped := newestIn?_drop_append hline.front_whole htext (Nat.zero_le _)
      rwa [List.drop_zero, ← hoctets] at hdropped
    refine ⟨capAt maxLength text, ?_, ?_⟩
    · rw [latestIn?_eq_map, htail, Option.map_some]
    · rw [latestResponse?, ← newestIn?, hwhole, Option.map_some]

/-- A first line of one character with two octets. -/
def cutFront : List UInt8 := [0xC3, 0xA9, 0x0A]

def cutLine : List UInt8 :=
  Utf8.encode ("\x7b\"message\":\x7b\"role\":\"assistant\",\"content\":" ++
    "[\x7b\"type\":\"text\",\"text\":\"ok\"\x7d]\x7d\x7d").toList

/-- Blanks as many as it takes for the tail to start inside the first character. -/
def cutBack : List UInt8 := 0x0A :: List.replicate 51125 0x20

theorem tail_has_latestResponse_cutLine :
    (cutFront ++ (cutLine ++ cutBack)).length - tailSize = 1 ∧
      IsLine cutFront cutLine cutBack ∧ saidIn? cutLine = some "ok" ∧
      ∃ response, latestIn? (some (cutFront ++ (cutLine ++ cutBack))) 1 = some response ∧
        latestResponse? (Utf8.decodeLenient (cutFront ++ (cutLine ++ cutBack))) 1 =
          some response := by
  have hline : IsLine cutFront cutLine cutBack := by
    constructor
    · right
      rfl
    · decide +kernel
    · right
      rfl
  have hsaid : saidIn? cutLine = some "ok" := by decide +kernel
  have hlength : cutLine.length = 72 := by decide +kernel
  have hcut : (cutFront ++ (cutLine ++ cutBack)).length - tailSize = 1 := by
    simp only [cutFront, cutBack, tailSize, List.length_append, List.length_cons,
      List.length_replicate, List.length_nil, hlength]
  have hstart : (cutFront ++ (cutLine ++ cutBack)).length - tailSize ≤ cutFront.length := by
    rw [hcut]
    decide
  have hsome : (saidIn? cutLine).isSome = true := by
    rw [hsaid]
    rfl
  refine ⟨hcut, hline, hsaid, ?_⟩
  exact (tail_has_latestResponse _ 1).2 cutFront cutLine cutBack rfl hline hstart hsome

end SessionLog.Transcript
