/-
  SessionLog/Transcript/Stamp.lean
  ================================
  **Time stamps of transcript entries.**

  A stamp with an offset is a moment and is kept as its time in UTC; a `Z` at the
  end is the offset zero. A stamp without an offset is a time on the local clock.
-/
import SessionLog.Calendar.Parser

namespace SessionLog.Transcript

inductive Stamp where
  /-- A moment, by its time in UTC. -/
  | zoned (utc : DateTime)
  /-- A time on the local clock. -/
  | plain (localTime : DateTime)
deriving DecidableEq, Repr

namespace Stamp

/-- The stamp with a `Z` at its end spelled out as an offset. -/
def spellZulu (text : List Char) : List Char :=
  if text.getLast? = some 'Z' then text.dropLast ++ ['+', '0', '0', ':', '0', '0'] else text

def moment? (text : List Char) : Option DateTime := do
  let (shown, offset) ← DateTime.parseZoned? text
  shown.relabel? (-offset)

def parse? (text : List Char) : Option Stamp :=
  let text := spellZulu text
  match moment? text with
  | some utc => some (.zoned utc)
  | none => (DateTime.parsePlain? text).map .plain

end Stamp

end SessionLog.Transcript
