import Rungs.Proofs.Process.Equations

/-! The handshake between a process and its details. A detail starts under its process once all that
it waits for is complete, and completes once its operation has settled; then it stays complete, no
longer running, for as long as the process runs. One scan is told by three equations
(`Context.DetailEquations`); what the completion goes through from scan to scan follows from them by
`Scan.Course.finds`. -/

namespace Rungs

namespace Context

variable {σ : Type} (c : Context σ)

/-- What a scan makes of the bits of a detail, with the running bit of its process. -/
structure DetailEquations (d : Detail) (b : Block) (process : String) (found left : Devices) :
    Prop where
  start : left.bit (b.bit DetailRole.start) =
    (found.bit process && (c.awaited .start d.owner).all found.bit)
  running : left.bit (b.bit DetailRole.running) =
    ((left.bit (b.bit DetailRole.start) || found.bit (b.bit DetailRole.running)) &&
      !found.bit (b.bit DetailRole.complete) && found.bit process)
  complete : left.bit (b.bit DetailRole.complete) =
    ((left.bit (b.bit DetailRole.running) && (c.snapshot.settledBit? d).all found.bit ||
      found.bit (b.bit DetailRole.complete)) && found.bit process)

/-- What one scan tells of a detail. It starts exactly under its process with all that it waits for
complete; it neither runs nor is complete without its process; and it becomes complete only while it
runs and its operation, if there is one to ask, has settled. -/
structure Handshake (d : Detail) (b : Block) (process : String) (found left : Devices) : Prop where
  starts : left.bit (b.bit DetailRole.start) =
    (found.bit process && (c.awaited .start d.owner).all found.bit)
  runs : left.bit (b.bit DetailRole.running) = true → found.bit process = true
  stands : left.bit (b.bit DetailRole.complete) = true → found.bit process = true
  completes : found.bit (b.bit DetailRole.complete) = false →
    left.bit (b.bit DetailRole.complete) = true →
      left.bit (b.bit DetailRole.running) = true ∧
        ∀ settled, c.snapshot.settledBit? d = some settled → found.bit settled = true

variable {c} {d : Detail} {b : Block} {process : String} {found left : Devices}

/-! ## One scan -/

theorem DetailEquations.handshake (h : c.DetailEquations d b process found left) :
    c.Handshake d b process found left where
  starts := h.start
  runs on := by
    rw [h.running, Bool.and_eq_true] at on
    exact on.2
  stands on := by
    rw [h.complete, Bool.and_eq_true] at on
    exact on.2
  completes off on := by
    rw [h.complete, off, Bool.or_false, Bool.and_eq_true, Bool.and_eq_true] at on
    obtain ⟨⟨running, settled⟩, _⟩ := on
    refine ⟨running, fun bit known => ?_⟩
    rw [known, Option.all_some] at settled
    exact settled

/-- A scan that finds the detail complete under its process leaves it so, and not running. -/
theorem DetailEquations.keeps (h : c.DetailEquations d b process found left)
    (complete : found.bit (b.bit DetailRole.complete) = true)
    (runs : found.bit process = true) :
    left.bit (b.bit DetailRole.complete) = true ∧ left.bit (b.bit DetailRole.running) = false := by
  constructor
  · rw [h.complete, complete, runs, Bool.or_true, Bool.and_true]
  · rw [h.running, complete, Bool.not_true, Bool.and_false, Bool.false_and]

/-! ## Rungs -/

theorem scans_detailStartRung :
    (c.detailStartRung d b (.plain process)).Scans found left ↔
      left = found.setBit (b.bit DetailRole.start)
        (found.bit process && (c.awaited .start d.owner).all found.bit) := by
  rw [detailStartRung, Rung.scans_under, Rung.scans_start]
  simp only [Rung.linksRun_allSeries, all_reads_completeContacts, ← awaited_eq,
    Contact.reads_plain, Rung.linksRun_last, Action.run]
  simp

theorem scans_detailRunningRung :
    (detailRunningRung b (.plain process)).Scans found left ↔
      left = found.setBit (b.bit DetailRole.running)
        ((found.bit (b.bit DetailRole.start) || found.bit (b.bit DetailRole.running)) &&
          !found.bit (b.bit DetailRole.complete) && found.bit process) := by
  rw [detailRunningRung, Rung.scans_start]
  simp [Rung.linksRun_parallel, Rung.linksRun_series, Rung.linksRun_last, Action.run,
    Block.reads_contact, Block.reads_inverted]

theorem scans_detailCompleteRung {settled : Option String} :
    (detailCompleteRung b (.plain process) (settled.map Contact.plain)).Scans found left ↔
      left = found.setBit (b.bit DetailRole.complete)
        ((found.bit (b.bit DetailRole.running) && settled.all found.bit ||
          found.bit (b.bit DetailRole.complete)) && found.bit process) := by
  rw [detailCompleteRung, Rung.scans_start]
  cases settled with
  | none =>
    simp [Rung.linksRun_parallel, Rung.linksRun_series, Rung.linksRun_last, Action.run,
      Block.reads_contact]
  | some bit =>
    simp [Rung.linksRun_parallel, Rung.linksRun_series, Rung.linksRun_last, Action.run,
      Block.reads_contact]

theorem rungs_detailRungs (c : Context σ) (d : Detail) (b : Block) (running : Contact) (m : σ) :
    ((c.detailRungs d b running).run m).rungs =
      [c.detailStartRung d b running, detailRunningRung b running,
        detailCompleteRung b running ((c.snapshot.settledBit? d).map Contact.plain)] :=
  (Emission.Returns.bind .emit (.bind .emit ((c.returns_settledContact d m).bind .emit))).rungs

/-- The running bit of the process and the settled bit of the operation are not in the detail's
block. -/
structure Outside (c : Context σ) (d : Detail) (b : Block) (process : String) : Prop where
  process : ∀ role : DetailRole, b.bit role ≠ process
  settled : ∀ role : DetailRole, c.snapshot.settledBit? d ≠ some (b.bit role)

theorem equations_detail (outside : c.Outside d b process)
    (scan : Rung.AllScan [c.detailStartRung d b (.plain process),
      detailRunningRung b (.plain process), detailCompleteRung b (.plain process)
        ((c.snapshot.settledBit? d).map Contact.plain)] found left) :
    c.DetailEquations d b process found left := by
  rw [Rung.allScan_cons] at scan
  obtain ⟨f, starts, scan⟩ := scan
  rw [Rung.allScan_cons] at scan
  obtain ⟨g, runs, completes⟩ := scan
  rw [Rung.allScan_single, scans_detailCompleteRung] at completes
  rw [scans_detailStartRung] at starts
  rw [scans_detailRunningRung] at runs
  have first {x : String} (other : x ≠ b.bit DetailRole.start) : f.bit x = found.bit x := by
    rw [starts, Devices.bit_setBit, if_neg other]
  have second {x : String} (other : x ≠ b.bit DetailRole.running) : g.bit x = f.bit x := by
    rw [runs, Devices.bit_setBit, if_neg other]
  have third {x : String} (other : x ≠ b.bit DetailRole.complete) : left.bit x = g.bit x := by
    rw [completes, Devices.bit_setBit, if_neg other]
  have apart {p q : DetailRole} (other : p ≠ q) : b.bit p ≠ b.bit q :=
    mt (Block.bit_injective fun _ _ => DetailRole.offset_injective) other
  have start : left.bit (b.bit DetailRole.start) = f.bit (b.bit DetailRole.start) := by
    have kept : g.bit (b.bit DetailRole.start) = f.bit (b.bit DetailRole.start) :=
      second (apart nofun)
    rw [third (apart (p := .start) nofun), kept]
  have running : left.bit (b.bit DetailRole.running) = g.bit (b.bit DetailRole.running) :=
    third (apart nofun)
  have before : f.bit (b.bit DetailRole.running) = found.bit (b.bit DetailRole.running) :=
    first (apart nofun)
  have stood : f.bit (b.bit DetailRole.complete) = found.bit (b.bit DetailRole.complete) :=
    first (apart nofun)
  have complete : g.bit (b.bit DetailRole.complete) = found.bit (b.bit DetailRole.complete) := by
    rw [second (apart (p := .complete) nofun), stood]
  have under : f.bit process = found.bit process := first (outside.process _).symm
  have under' : g.bit process = found.bit process :=
    (second (outside.process _).symm).trans under
  have settled : (c.snapshot.settledBit? d).all g.bit =
      (c.snapshot.settledBit? d).all found.bit := by
    cases known : c.snapshot.settledBit? d with
    | none => rfl
    | some bit =>
      have other (role : DetailRole) : bit ≠ b.bit role := by
        rintro rfl
        exact outside.settled role known
      rw [Option.all_some, Option.all_some, second (other _), first (other _)]
  refine ⟨?_, ?_, ?_⟩
  · rw [start, starts, Devices.bit_setBit, if_pos rfl]
  · rw [running, start, ← before, ← stood, ← under]
    rw [runs, Devices.bit_setBit, if_pos rfl]
  · rw [running, ← settled, ← complete, ← under']
    rw [completes, Devices.bit_setBit, if_pos rfl]

/-! ## Many scans -/

/-- The handshake of a detail with its process. Of a detail that is not stopped the block and that of
its process are known. Every state can be scanned, and whatever other devices are changed between
one scan and the next, each scan keeps the handshake; and once the detail is complete, every scan
from then on that finds the process running leaves the detail complete and not running. -/
theorem detail_handshake (c : Context σ) (d : Detail) (m : σ) (rows : List Row)
    (generated : rows = (((c.detail d).run m).synthesis d.owner).rows)
    (ok : ((c.detail d).run m).result = .ok ()) :
    ∃ b process, c.snapshot.block? .detail d.id = some b ∧
      c.snapshot.block? .process d.processId = some process ∧
        (c.Outside d b (process.bit ProcessRole.running) → (∀ s, ∃ t, Scan.Runs rows s t) ∧
          ∀ scans, Scan.Course rows
              (fun left found => ∀ role : DetailRole, found.bit (b.bit role) = left.bit (b.bit role))
              scans →
            (∀ p ∈ scans, c.Handshake d b (process.bit ProcessRole.running) p.1 p.2) ∧
            ∀ earlier p through later, scans = earlier ++ p :: (through ++ later) →
              p.2.bit (b.bit DetailRole.complete) = true →
              (∀ q ∈ through, q.1.bit (process.bit ProcessRole.running) = true) →
              ∀ q ∈ through, q.2.bit (b.bit DetailRole.complete) = true ∧
                q.2.bit (b.bit DetailRole.running) = false) := by
  have stream : rows = streamRows ((c.detail d).run m).rungs := generated
  rcases c.detail_runs d m with ⟨_, f, stopped⟩ | ⟨b, process, fits, owner, runs⟩
  · rw [stopped] at ok
    cases ok
  · refine ⟨b, process, fits.found, owner, fun outside => ?_⟩
    rw [runs, rungs_detailRungs] at stream
    rw [stream]
    refine ⟨fun s => Scan.exists_runs _ s, fun scans course => ⟨fun p mem => ?_, ?_⟩⟩
    · exact (equations_detail outside (course.allScan p mem)).handshake
    · intro earlier p through later split complete under q mem
      rw [split] at course
      have onward := course.of_append
      have equations {found left : Devices} (scan : Rung.AllScan _ found left) :
          c.DetailEquations d b (process.bit ProcessRole.running) found left :=
        equations_detail outside scan
      -- the completion goes on from scan to scan
      have found : ∀ q ∈ through, q.1.bit (b.bit DetailRole.complete) = true :=
        onward.finds (fun _ _ on change => (change .complete).trans on)
          (fun _ _ on runs scan => ((equations scan).keeps on runs).1) complete under
      have scanned := onward.allScan q (List.mem_cons_of_mem p (List.mem_append_left later mem))
      exact (equations scanned).keeps (found q mem) (under q mem)

end Context

/-- A detail that carries out an operation after another detail. -/
def Detail.gated : Detail where
  id := 1
  processId := 1
  operationId := some 1

def Snapshot.gated : Snapshot where
  operations := [{ id := 1, cylinderId := 1, categoryCode := 1 }]
  processes := [{ id := 1, categoryCode := 1 }]
  details := [.gated, { id := 2, processId := 1 }]
  allocations :=
    [⟨.process, 1, "L", 0, 3⟩, ⟨.detail, 1, "L", 10, 3⟩, ⟨.detail, 2, "L", 20, 3⟩,
     ⟨.operation, 1, "L", 40, 20⟩]

namespace Snapshot.Gated

def context : Context Unit where
  settings := {}
  resolver := { resolve := fun _ m => (none, m), range := fun _ _ _ m => ([], m) }
  conditionIds := conditionIds [⟨.start, .detail, 1, 2⟩]
  snapshot := gated

def rows : List Row := (((context.detail .gated).run ()).synthesis Detail.gated.owner).rows

def block : Block := ⟨⟨.detail, 1, "L", 10, 3⟩⟩

theorem outside : context.Outside .gated block "L1" where
  process := fun role => by cases role <;> decide +kernel
  settled := fun role => by cases role <;> decide +kernel

end Snapshot.Gated

theorem detail_handshake_gated : (∀ s, ∃ t, Scan.Runs Snapshot.Gated.rows s t) ∧
    ∀ scans, Scan.Course Snapshot.Gated.rows (fun left found => ∀ role : DetailRole,
          found.bit (Snapshot.Gated.block.bit role) = left.bit (Snapshot.Gated.block.bit role))
        scans →
      (∀ p ∈ scans, p.2.bit "L10" = (p.1.bit "L1" && p.1.bit "L22") ∧
        (p.1.bit "L12" = false → p.2.bit "L12" = true →
          p.2.bit "L11" = true ∧ p.1.bit "L57" = true)) ∧
      ∀ earlier p through later, scans = earlier ++ p :: (through ++ later) →
        p.2.bit "L12" = true → (∀ q ∈ through, q.1.bit "L1" = true) →
          ∀ q ∈ through, q.2.bit "L12" = true ∧ q.2.bit "L11" = false := by
  obtain ⟨b, process, found, owner, handshake⟩ := Snapshot.Gated.context.detail_handshake .gated ()
    Snapshot.Gated.rows rfl rfl
  have block : some b = some Snapshot.Gated.block := found.symm
  have running : some process = some ⟨⟨.process, 1, "L", 0, 3⟩⟩ := owner.symm
  cases block
  cases running
  have bits : Snapshot.Gated.block.bit DetailRole.start = "L10" ∧
      Snapshot.Gated.block.bit DetailRole.running = "L11" ∧
        Snapshot.Gated.block.bit DetailRole.complete = "L12" := by decide +kernel
  have process : (Block.mk ⟨.process, 1, "L", 0, 3⟩).bit ProcessRole.running = "L1" := by
    decide +kernel
  have awaited : Snapshot.Gated.context.awaited .start Detail.gated.owner = ["L22"] := by
    decide +kernel
  have settled : Snapshot.gated.settledBit? .gated = some "L57" := by decide +kernel
  rw [process] at handshake
  obtain ⟨scannable, scans⟩ := handshake Snapshot.Gated.outside
  refine ⟨scannable, fun course h => ?_⟩
  obtain ⟨each, through⟩ := scans course h
  simp only [bits] at through
  refine ⟨fun p mem => ?_, through⟩
  obtain ⟨starts, _, _, completes⟩ := each p mem
  simp only [bits, awaited, List.all_cons, List.all_nil, Bool.and_true] at starts completes
  refine ⟨starts, fun off on => ?_⟩
  obtain ⟨runs, gate⟩ := completes off on
  exact ⟨runs, gate "L57" settled⟩

end Rungs
