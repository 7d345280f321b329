/-
  SessionLog/Transcript/Octets.lean
  =================================
  **Transcripts as they lie in a file.**

  A transcript may be missing; then nothing is found in it and nothing counted. Its
  octets are read as UTF-8 with what is broken left out. For the latest response
  only the end of the file is looked at.
-/
import SessionLog.Text.Utf8
import SessionLog.Transcript.Scan

namespace SessionLog.Transcript

/-- How many octets at the end of a file are searched for the latest response. -/
def tailSize : Nat := 51200

def tail (octets : List UInt8) : List UInt8 := octets.drop (octets.length - tailSize)

/-- The octets of the transcript at a path, if the path says anything and there is
    a file. -/
def find? (read : String → Option (List UInt8)) (path : String) : Option (List UInt8) :=
  if path = "" then none else read path

def latestIn? (transcript : Option (List UInt8)) (maxLength : Nat) : Option String :=
  transcript.bind fun octets =>
    latestResponse? (Utf8.decodeLenient (tail octets)) maxLength

def incrementIn (transcript : Option (List UInt8)) (watermark : String) : Increment :=
  match transcript with
  | none => .start watermark
  | some octets => increment (Utf8.decodeLenient octets) watermark

/-- What a transcript adds up to since a start. A missing one is not held against the
    calendar. -/
def recountIn? (transcript : Option (List UInt8)) (start : DateTime) (offset : Offset) :
    Option Recount :=
  match transcript with
  | none => some .start
  | some octets => recount? (Utf8.decodeLenient octets) start offset

end SessionLog.Transcript
