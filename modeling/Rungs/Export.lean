import Rungs.Generation
import Rungs.Csv
import Rungs.Sha256
import Rungs.Program.Document
import Rungs.Host

/-! Export of a generated program: a table for each section, one for the whole stream, and a summary
with the digest of the stream. A critical diagnostic blocks all of it. -/

namespace Rungs

inductive ExportFailure where
  | blocked (critical : Nat)
  | io (path : Path) (text : String)
deriving DecidableEq, Repr, Inhabited

def ExportFailure.message : ExportFailure → String
  | blocked critical => s!"export blocked by {critical} critical diagnostic(s)"
  | io path text => s!"failed to write {path.text}: {text}"

/-- The counts have 32 bits. -/
structure Summary where
  generatedAt : String
  rows : Nat
  sections : List (EntityKind × Nat)
  warnings : Nat
  digest : String
deriving DecidableEq, Repr, Inhabited

def Summary.write (s : Summary) : Json := .objectOf
  [("generatedAtUtc", Json.text s.generatedAt), ("rows", Json.int s.rows),
   ("sections", writeList (fun (kind, rows) =>
      .objectOf [("kind", kind.writeName), ("rows", Json.int rows)]) s.sections),
   ("warnings", Json.int s.warnings), ("streamDigest", Json.text s.digest)]

/-- The digest of the table of all rows. -/
def Program.digest (p : Program) : String :=
  "sha256:" ++ Sha256.hexDigest (Csv.render p.rows).toUTF8.toList

namespace Output

def summary (o : Output) (time : String) : Summary where
  generatedAt := time
  rows := o.program.rowCount % UInt32.size
  sections := o.program.sections.map fun t => (t.kind, t.rows.length % UInt32.size)
  warnings := o.diagnostics.length % UInt32.size
  digest := o.program.digest

/-- The names and texts of the tables, in the order in which they are written. -/
def tables (o : Output) : List (String × String) :=
  o.program.sections.map (fun t => (t.kind.name ++ ".csv", Csv.render t.rows)) ++
    [("Ladder.csv", Csv.render o.program.rows)]

def files (o : Output) (time : String) : List (String × String) :=
  o.tables ++ [("summary.json", (o.summary time).write.pretty)]

end Output

structure Exported where
  files : List Path
  summary : Summary
deriving DecidableEq, Repr, Inhabited

variable {m : Type → Type} [Monad m]

/-- Writes one file after another, up to the first one that fails. -/
def Host.writeAll (host : Host m) (directory : Path) :
    List (String × String) → ExceptT ExportFailure m (List Path)
  | [] => return []
  | (name, text) :: rest => do
    let path := directory.join name
    (host.replace path text.toUTF8).adapt (.io path)
    return path :: (← host.writeAll directory rest)

def Output.exportTo (o : Output) (host : Host m) (directory : Path) :
    ExceptT ExportFailure m Exported := do
  if hasCritical o.diagnostics then
    throw (.blocked (criticalCount o.diagnostics))
  let time ← host.now
  let files ← host.writeAll directory (o.files time)
  return ⟨files, o.summary time⟩

end Rungs
