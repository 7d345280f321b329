/-
  SessionLog/Handler.lean
  =======================
  **Handling one event: from files to files.**

  The state file is read, the event is applied and the transition is written. A
  session that is kept is written before its snapshot. When the state file is reset,
  the closing snapshot comes first, and the reset happens whether or not the
  snapshot could be written. Failures are said in the journal and go no further.

  One thing stops the handling: a snapshot whose tokens are to be counted anew, but
  whose session has a start that is not in the calendar as told in UTC.
-/
import SessionLog.StateFile
import SessionLog.Transition

namespace SessionLog

structure Outcome where
  transition : Transition
  tree : FileTree
  journal : Journal
  /-- Whether the handling came to its end. -/
  finished : Bool
deriving Repr

namespace Handler

/-! ### Writing -/

/-- A notice on an attempt, if it failed. -/
def failure {ε : Type} (notice : Notice) : Except ε Unit → Journal
  | .ok () => []
  | .error _ => [notice]

def storeSession (tree : FileTree) (layout : Layout) (s : Session) : FileTree × Journal :=
  match StateFile.store tree layout.stateFile s with
  | (left, result) => (left, failure .stateNotStored result)

def clearSession (tree : FileTree) (layout : Layout) : FileTree × Journal :=
  match StateFile.clear tree layout.stateFile with
  | (left, result) => (left, failure .stateNotCleared result)

def writeSnapshot (tree : FileTree) (layout : Layout) (settings : Settings) (s : Session)
    (now : DateTime) : FileTree × Journal :=
  match Snapshot.write tree layout settings s now with
  | (left, said, result) => (left, said ++ failure .snapshotNotWritten result)

/-! ### The three writes of a transition -/

def keep (tree : FileTree) (layout : Layout) (transition : Transition) :
    FileTree × Journal :=
  match transition.stateWrite, transition.session with
  | .store, some s => storeSession tree layout s
  | _, _ => (tree, [])

/-- Writes the snapshot that is due, unless its counts cannot be had. -/
def present? (tree : FileTree) (layout : Layout) (settings : Settings) (now : Moment)
    (transition : Transition) : Option (FileTree × Journal) :=
  match transition.snapshot, transition.session with
  | some source, some s =>
    (s.counts? source tree.read? now.offset).map fun s =>
      writeSnapshot tree layout settings s now.localTime
  | _, _ => some (tree, [])

def close (tree : FileTree) (layout : Layout) (transition : Transition) :
    FileTree × Journal :=
  match transition.stateWrite with
  | .reset => clearSession tree layout
  | _ => (tree, [])

def commit (tree : FileTree) (layout : Layout) (settings : Settings) (now : Moment)
    (transition : Transition) : Outcome :=
  let (kept, said) := keep tree layout transition
  match present? kept layout settings now transition with
  | none => ⟨transition, kept, said, false⟩
  | some (presented, told) =>
    let (closed, last) := close presented layout transition
    ⟨transition, closed, said ++ told ++ last, true⟩

/-! ### Events -/

def announcement (payload : Payload) : Journal :=
  (if payload.eventName.isSome then [.eventApplied] else [])
    ++ [.eventHandled]

def handle (tree : FileTree) (layout : Layout) (settings : Settings) (now : Moment)
    (payload : Payload) : Outcome :=
  let (prior, said) := StateFile.read tree layout.stateFile
  let transition := Transition.ofPayload prior payload settings now tree.read?
  let outcome := commit tree layout settings now transition
  { outcome with journal := said ++ announcement payload ++ outcome.journal }

def settings (tree : FileTree) (layout : Layout) : Settings :=
  (Settings.load (tree.read? layout.settingsFile)).1

/-- Handles a payload in its project, unless the project has turned recording
    off. -/
def run? (tree : FileTree) (layout : Layout) (now : Moment) (payload : Payload) :
    Option Outcome :=
  let settings := settings tree layout
  if settings.enabled then some (handle tree layout settings now payload) else none

end Handler

end SessionLog
