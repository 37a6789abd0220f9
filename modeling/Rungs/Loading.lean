import Rungs.Host
import Rungs.Snapshot.Document
import Rungs.Settings.Document

/-! Snapshots and settings from files. Settings may be absent, a snapshot may not. -/

namespace Rungs

inductive LoadFailure where
  | unreadable (text : String)
  | unsuitable (problem : Json.Problem)
deriving Repr, Inhabited

namespace LoadFailure

def snapshotMessage (path : Path) : LoadFailure → String
  | unreadable text => s!"failed to read snapshot {path.text}: {text}"
  | unsuitable problem => s!"failed to parse snapshot {path.text}: {problem.message}"

def settingsMessage (path : Path) : LoadFailure → String
  | unreadable _ => s!"Failed to read generation settings from: {path.text}"
  | unsuitable _ => s!"Failed to parse generation settings JSON from: {path.text}"

end LoadFailure

variable {m : Type → Type} [Monad m]

def Host.load {α : Type} (host : Host m) (ofText : String → Json.Decoded α) (path : Path) :
    ExceptT LoadFailure m α := do
  match ofText (← (host.readText path).adapt .unreadable) with
  | .ok a => return a
  | .error problem => throw (.unsuitable problem)

def Snapshot.load (host : Host m) (path : Path) : ExceptT LoadFailure m Snapshot :=
  host.load Snapshot.ofText path

def Settings.load (host : Host m) (path : Path) : ExceptT LoadFailure m Settings := do
  if ← host.isPresent path then host.load Settings.ofText path else return {}

end Rungs
