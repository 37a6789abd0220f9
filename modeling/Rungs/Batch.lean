import Rungs.CommandLine
import Rungs.Conformance
import Rungs.Diagnostic.Document
import Rungs.Export
import Rungs.Loading

/-! A run over the snapshots of a file or a directory: each one is generated, reported on and, if
there is a directory to export to, exported to a directory of its own in it. A snapshot that cannot
be loaded or may not be exported is reported and does not stop the others. -/

namespace Rungs.Batch

/-- What ends a run early. -/
inductive Failure where
  | badSettings (path : Path) (failure : LoadFailure)
  | notFound (path : Path)
  | unlisted (path : Path)
  | notExported (stem : String) (failure : ExportFailure)
deriving Repr, Inhabited

def Failure.message : Failure → String
  | badSettings path failure => failure.settingsMessage path
  | notFound path => s!"snapshot path not found: {path.text}"
  | unlisted path => s!"failed to list {path.text}"
  | notExported stem _ => s!"failed to export {stem}"

variable {m : Type → Type} [Monad m]

def isSnapshotName (name : String) : Bool :=
  match Path.extension? name with
  | some extension => extension.toLower == "json"
  | none => false

/-- The name of a snapshot: its file name without the extension. -/
def stemOf (path : Path) : String := (path.fileName?.map Path.stem).getD ""

def keepFiles (host : Host m) : List Path → m (List Path)
  | [] => return []
  | path :: rest => do
    let isFile ← host.isFile path
    let kept ← keepFiles host rest
    return if isFile then path :: kept else kept

/-- The file itself, or the snapshots in a directory in the order of their names. -/
def snapshotFiles (host : Host m) (path : Path) : ExceptT Failure m (List Path) := do
  if ← host.isFile path then return [path]
  if !(← host.isPresent path) then throw (.notFound path)
  let names ← (host.names path).adapt fun _ => .unlisted path
  let names := (names.filter isSnapshotName).mergeSort fun a b => decide (a ≤ b)
  let files : m (List Path) := keepFiles host (names.map path.join)
  files

def headline (stem : String) (o : Output) : String :=
  let status := if hasCritical o.diagnostics then "blocked" else "ok"
  s!"[{status}] {stem} rows={o.program.rowCount} diagnostics={o.diagnostics.length} " ++
    s!"critical={criticalCount o.diagnostics}"

def sectionLine (t : Section) : String := s!"  - {t.kind.name} rows={t.rows.length}"

def diagnosticLine (d : Diagnostic) : String :=
  let severity := if d.isCritical then "CRITICAL" else "warning "
  s!"  {severity} {d.kind.name} {d.recordId} '{d.recordName}': {d.message}"

/-- What is printed about an output. -/
def report (asJson : Bool) (stem : String) (o : Output) : List String :=
  headline stem o :: o.program.sections.map sectionLine ++
    if asJson then [(writeList Diagnostic.write o.diagnostics).pretty]
    else o.diagnostics.map diagnosticLine

def violationLine (v : Violation) : String :=
  s!"row {v.rowId} uses {v.device} (offset {v.offset} of {v.kind.name} {v.recordId}) " ++
    "outside its role set"

def generatedLine (s : Snapshot) (o : Output) : String :=
  s!"generated plc {s.plcId} cycle {s.cycleId}: {o.program.rowCount} rows, " ++
    s!"{o.diagnostics.length} diagnostics ({criticalCount o.diagnostics} critical)"

def exportedLine (directory : Path) (e : Exported) : String :=
  s!"  exported {e.files.length} files -> {directory.text} ({e.summary.digest})"

def exportOutput (host : Host m) (o : Output) (directory : Path) (stem : String) :
    ExceptT Failure m Unit := do
  match ← (o.exportTo host directory).run with
  | .ok exported => host.print (exportedLine directory exported)
  | .error (.blocked critical) =>
    host.print s!"  export blocked: {critical} critical diagnostic(s)"
  | .error failure => throw (.notExported stem failure)

def runFile (host : Host m) (c : CommandLine) (settings : Settings) (path : Path) :
    ExceptT Failure m Unit := do
  let stem := stemOf path
  match ← (Snapshot.load host path).run with
  | .error failure => host.print s!"[fail] {stem}: {failure.snapshotMessage path}"
  | .ok snapshot =>
    let output := snapshot.generate settings
    if c.isVerbose then
      host.log (generatedLine snapshot output)
    host.printAll (report c.asJson stem output)
    host.logAll ((snapshot.violations output.program).map violationLine)
    match c.out with
    | some out => exportOutput host output (out.join stem) stem
    | none => return

/-- The whole run. -/
def run (host : Host m) (c : CommandLine) : ExceptT Failure m Unit := do
  let settings ← (Settings.load host c.settings).adapt (.badSettings c.settings)
  let files ← snapshotFiles host c.path
  if files.isEmpty then host.print s!"No .json snapshots found in {c.path.text}"
  else files.forM (runFile host c settings)

end Rungs.Batch
