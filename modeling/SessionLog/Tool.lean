/-
  SessionLog/Tool.lean
  ====================
  **Tools, and one-line summaries of what they were given and what came back.**

  A tool is known by its name. A summary shows the part of an input or a response
  that tells most, free text capped; a response with an error shows the error
  whatever the tool. A response is a failure if it has an error, or if it is a
  shell's with an exit code other than zero.
-/
import SessionLog.Json.Printer
import SessionLog.Path
import SessionLog.Text.Cap

namespace SessionLog

/-! ### Kinds of tools -/

inductive ToolKind where
  | read
  | grep
  | glob
  | edit
  | write
  | bash
  | skill
  | task
  | notebookEdit
  | askUserQuestion
  | other
deriving DecidableEq, Repr

namespace ToolKind

def ofName (name : String) : ToolKind :=
  match name with
  | "Read" => .read
  | "Grep" => .grep
  | "Glob" => .glob
  | "Edit" => .edit
  | "MultiEdit" => .edit
  | "Write" => .write
  | "Bash" => .bash
  | "Skill" => .skill
  | "Task" => .task
  | "NotebookEdit" => .notebookEdit
  | "AskUserQuestion" => .askUserQuestion
  | _ => .other

def modifiesFiles (kind : ToolKind) : Bool := kind = .edit || kind = .write

/-- The tool runs a command, which may fail by its exit code. -/
def isShell (kind : ToolKind) : Bool := kind = .bash

def delegates (kind : ToolKind) : Bool := kind = .task

end ToolKind

/-! ### Inputs -/

def textUnder (key : String) (value : Json) : String :=
  ((value.get? key).bind Json.string?).getD ""

namespace ToolKind

/-- What is said of an input that no tool of its own knows: a file, else a
    pattern, else all of it. -/
def summarizeUnknown (input : Json) : String :=
  match input.get? "file_path", input.get? "pattern" with
  | some path, _ => Path.baseName path.display
  | none, some pattern => Text.cap 50 pattern.display
  | none, none => Text.cap 50 input.compact

/-- The directory of a search, by its last name; a dot if none is left. -/
def searchPlace (input : Json) : String :=
  let name := Path.baseName (((input.get? "path").bind Json.string?).getD ".")
  if name = "" then "." else name

def summarizeTask (input : Json) : String :=
  let prompt := textUnder "prompt" input
  let subagent := textUnder "subagent_type" input
  if subagent = "" then Text.cap 50 prompt else subagent ++ ": " ++ Text.cap 40 prompt

/-- One line about the input of a tool. There is nothing to say of an input that is
    no object, or an empty one. -/
def summarizeInput (kind : ToolKind) (input : Json) : String :=
  match input with
  | .object (_ :: _) =>
    match kind with
    | .read | .edit | .write => Path.baseName (textUnder "file_path" input)
    | .grep =>
      "pattern=\"" ++ Text.cap 30 (textUnder "pattern" input) ++ "\", path="
        ++ searchPlace input
    | .glob => Text.cap 50 (textUnder "pattern" input)
    | .bash => Text.cap 50 (textUnder "command" input)
    | .skill => textUnder "skill" input
    | .task => summarizeTask input
    | .notebookEdit | .askUserQuestion | .other => summarizeUnknown input
  | _ => ""

/-! ### Responses -/

def error? (response : Json) : Option Json :=
  (response.get? "error").filter Json.isTruthy

def linesRead (response : Json) : String :=
  let file := response.get? "file"
  match (file.bind (Json.get? "numLines")).filter Json.isTruthy,
      file.bind (Json.get? "totalLines") with
  | some count, _ => count.display
  | none, some count => count.display
  | none, none => "?"

/-- The number of files found, as the response gives it or by its list of them. -/
def filesFound (response : Json) : String :=
  match response.get? "numFiles" with
  | some count => count.display
  | none =>
    let names := ((response.get? "filenames").bind Json.items?).getD []
    String.ofList (Text.digits names.length)

/-- The lines that a hunk of a patch leaves. -/
def hunkLines (hunk : Json) : UInt64 :=
  (((hunk.get? "newLines").bind Json.number?).bind Number.toUInt64?).getD 0

/-- The lines that the hunks leave, added up in 64 bits. -/
def patchLines (hunks : List Json) : UInt64 := (hunks.map hunkLines).foldl (· + ·) 0

def patchSummary (response : Json) : String :=
  match (response.get? "structuredPatch").bind Json.items? with
  | none => ""
  | some [] => ""
  | some hunks =>
    String.ofList (Text.digits (patchLines hunks).toNat) ++ " lines changed"

def summarizeSuccess (kind : ToolKind) (response : Json) : String :=
  let isObject := response.members?.isSome
  match kind with
  | .read => if isObject then linesRead response ++ " lines" else "ok"
  | .grep => if isObject then filesFound response ++ " files matched" else "ok"
  | .glob => if isObject then filesFound response ++ " files" else "ok"
  | .edit => patchSummary response
  | _ => ""

def summarizeOutput (kind : ToolKind) (response : Option Json) : String :=
  match response with
  | none => ""
  | some .null => ""
  | some response =>
    match error? response with
    | some error => "failed: " ++ Text.cap 30 error.display
    | none => summarizeSuccess kind response

/-- An exit code that tells of a failure: any but null, false and zero. -/
def isBadExit : Json → Bool
  | .null => false
  | .bool false => false
  | .number n => !n.toReal.isZero
  | _ => true

/-- The exit code of a shell, under the first of its two names that is there. -/
def exitCode (response : Json) : Json :=
  ((response.get? "exitCode").or (response.get? "exit_code")).getD .null

def isFailure (kind : ToolKind) (response : Option Json) : Bool :=
  match response with
  | none => false
  | some response =>
    (error? response).isSome
      || (kind.isShell && response.members?.isSome && isBadExit (exitCode response))

end ToolKind

end SessionLog
