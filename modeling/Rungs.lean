import Rungs.Generation
import Rungs.Conformance
import Rungs.Csv
import Rungs.Sha256
import Rungs.Snapshot.Document
import Rungs.Settings.Document
import Rungs.Program.Document
import Rungs.Diagnostic.Document
import Rungs.Disk
import Rungs.Batch
import Rungs.Main
import Rungs.Discipline
import Rungs.Scan
import Rungs.Proofs.Emission
import Rungs.Proofs.Generation
import Rungs.Proofs.Discipline
import Rungs.Proofs.Lookup
import Rungs.Proofs.Operation.Vocabulary
import Rungs.Proofs.Cylinder.Vocabulary
import Rungs.Proofs.Process.Vocabulary
import Rungs.Proofs.Conformance
import Rungs.Proofs.Operation.Links
import Rungs.Proofs.Operation.Confirmation
import Rungs.Proofs.Cylinder.Wiring
import Rungs.Proofs.Cylinder.Exclusion
import Rungs.Proofs.Operation.FailSafe
import Rungs.Proofs.Drivers
import Rungs.Proofs.Operation.Drivers
import Rungs.Proofs.Cylinder.Layout
import Rungs.Proofs.Cylinder.Drivers
import Rungs.Proofs.Coverage
import Rungs.Proofs.Turns
import Rungs.Proofs.Ownership
import Rungs.Proofs.Closure
import Rungs.Proofs.Questions
import Rungs.Proofs.Independence
import Rungs.Proofs.Composition
import Rungs.Proofs.Cylinder.Equations
import Rungs.Proofs.Reordering
import Rungs.Proofs.Csv.Grammar
import Rungs.Proofs.Csv.Rows
import Rungs.Proofs.Disk
import Rungs.Proofs.Replacement
import Rungs.Proofs.Export
import Rungs.Proofs.Operation.Sensing
import Rungs.Proofs.Isolation
import Rungs.Proofs.Locality
import Rungs.Proofs.Disjunction
import Rungs.Proofs.Choices
import Rungs.Proofs.Points
import Rungs.Proofs.Documents
import Rungs.Proofs.Operation.Reset
import Rungs.Proofs.Process.Equations
import Rungs.Proofs.Process.Handshake
import Rungs.Proofs.Cylinder.Words
import Rungs.Proofs.Violations
import Rungs.Proofs.Blocks
import Rungs.Proofs.Resolution
import Rungs.Proofs.Operation.Waiting
import Rungs.Proofs.Cylinder.Coils
import Rungs.Proofs.Devices
import Rungs.Proofs.Atomicity
import Rungs.Proofs.Batch
import Rungs.Proofs.Numbering
