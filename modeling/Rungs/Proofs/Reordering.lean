import Mathlib.Data.List.Nodup
import Rungs.Proofs.Cylinder.Exclusion
import Rungs.Proofs.Operation.Vocabulary
import Rungs.Proofs.Turns

/-! The order of a snapshot's records. Every lookup names its records by keys or sorts them, so where
keys are unique it does not tell a snapshot from a reordered one (`Snapshot.Reordered.alike`), and
snapshots that no lookup tells apart have the same generation (`Service.generate_alike`). -/

namespace Rungs

/-! ## Lookups in reordered lists -/

section Lists

variable {α : Type} {xs ys : List α}

/-- What only one record can answer to is found wherever that record stands. -/
theorem find?_eq_of_perm {p : α → Bool} (single : ∀ a ∈ xs, ∀ b ∈ xs, p a → p b → a = b)
    (h : xs.Perm ys) : xs.find? p = ys.find? p := by
  cases found : ys.find? p with
  | none =>
    rw [List.find?_eq_none] at found ⊢
    exact fun a mem => found a (h.mem_iff.mp mem)
  | some b =>
    have listed : b ∈ xs := h.mem_iff.mpr (List.mem_of_find?_eq_some found)
    have suits : p b = true := List.find?_some found
    obtain ⟨a, here⟩ := Option.isSome_iff_exists.mp (List.find?_isSome.mpr ⟨b, listed, suits⟩)
    rw [here, single a (List.mem_of_find?_eq_some here) b listed (List.find?_some here) suits]

theorem single_of_nodup {κ : Type} {key : α → κ} (h : (xs.map key).Nodup) {p : α → Bool} {k : κ}
    (named : ∀ a, p a → key a = k) : ∀ a ∈ xs, ∀ b ∈ xs, p a → p b → a = b :=
  fun a ha b hb pa pb => List.inj_on_of_nodup_map h ha hb ((named a pa).trans (named b pb).symm)

theorem single_of_filter {p : α → Bool} (h : (xs.filter p).length ≤ 1) :
    ∀ a ∈ xs, ∀ b ∈ xs, p a → p b → a = b := by
  intro a ha b hb pa pb
  have here : a ∈ xs.filter p := List.mem_filter.mpr ⟨ha, pa⟩
  have there : b ∈ xs.filter p := List.mem_filter.mpr ⟨hb, pb⟩
  match listed : xs.filter p with
  | [] =>
    rw [listed] at here
    cases here
  | [only] =>
    rw [listed, List.mem_singleton] at here there
    rw [here, there]
  | _ :: _ :: _ => simp [listed] at h

theorem precedes_antisymm {a b : Int32 × Int32} (ab : precedes a b = true)
    (ba : precedes b a = true) : a = b := by
  rw [precedes_iff] at ab ba
  refine Prod.ext (Int32.toInt_inj.mp ?_) (Int32.toInt_inj.mp ?_)
  · omega
  · omega

/-- Records with different keys have one order. -/
theorem inOrder_eq_of_perm {key : α → Int32 × Int32}
    (distinct : ∀ a ∈ xs, ∀ b ∈ xs, key a = key b → a = b) (h : xs.Perm ys) :
    inOrder key xs = inOrder key ys := by
  have same : (inOrder key xs).Perm (inOrder key ys) :=
    (inOrder_perm key xs).trans (h.trans (inOrder_perm key ys).symm)
  refine same.eq_of_pairwise (fun a b ha hb ab ba => ?_) (inOrder_pairwise key xs)
    (inOrder_pairwise key ys)
  exact distinct a ((inOrder_perm key xs).mem_iff.mp ha) b
    (h.mem_iff.mpr ((inOrder_perm key ys).mem_iff.mp hb)) (precedes_antisymm ab ba)

end Lists

namespace Snapshot

/-- No lookup of a generation tells the snapshots apart, unless it looks for operations. -/
structure AlikeElsewhere (s t : Snapshot) : Prop where
  allocation? (kind : EntityKind) (id : Int32) : t.allocation? kind id = s.allocation? kind id
  cylinder? (id : Int32) : t.cylinder? id = s.cylinder? id
  detail? (id : Int32) : t.detail? id = s.detail? id
  hasProcess (id : Int32) : t.hasProcess id = s.hasProcess id
  timer (kind : EntityKind) (id : Int32) (category : TimerCategory) :
    t.timer kind id category = s.timer kind id category
  speedDevice? {cy : Cylinder} (mem : cy ∈ s.cylinders) : t.speedDevice? cy.id = s.speedDevice? cy.id
  manualControl? {cy : Cylinder} (mem : cy ∈ s.cylinders) :
    t.manualControl? cy.id = s.manualControl? cy.id
  cylinders : t.sortedCylinders = s.sortedCylinders
  processes : t.sortedProcesses = s.sortedProcesses
  orphans : t.orphanDetails = s.orphanDetails
  detailsOfOperation (id : Int32) : t.detailsOfOperation id = s.detailsOfOperation id
  detailsOfProcess (id : Int32) : t.detailsOfProcess id = s.detailsOfProcess id

/-- No lookup of a generation tells the snapshots apart. -/
structure Alike (s t : Snapshot) : Prop extends s.AlikeElsewhere t where
  operation? (id : Int32) : t.operation? id = s.operation? id
  operations : t.sortedOperations = s.sortedOperations
  operationsOf (id : Int32) : t.operationsOf id = s.operationsOf id

/-- The same records in any order, except that points and conditions stay as they are. -/
structure Reordered (s t : Snapshot) : Prop where
  cylinders : s.cylinders.Perm t.cylinders
  operations : s.operations.Perm t.operations
  processes : s.processes.Perm t.processes
  details : s.details.Perm t.details
  timers : s.timers.Perm t.timers
  allocations : s.allocations.Perm t.allocations
  speedDevices : s.speedDevices.Perm t.speedDevices
  manualControls : s.manualControls.Perm t.manualControls
  points : s.points = t.points
  conditions : s.conditions = t.conditions

/-- Each record can be told from the others by its key. -/
structure Keyed (s : Snapshot) : Prop where
  cylinders : (s.cylinders.map (·.id)).Nodup
  operations : (s.operations.map (·.id)).Nodup
  processes : (s.processes.map (·.id)).Nodup
  details : (s.details.map (·.id)).Nodup
  allocations : (s.allocations.map fun a => (a.kind, a.recordId)).Nodup
  speedDevices : ∀ cy ∈ s.cylinders, (s.speedDevices.filter fun d =>
    d.cylinderId == cy.id && !Text.isBlankText d.device).length ≤ 1
  manualControls : ∀ cy ∈ s.cylinders,
    (s.manualControls.filter (·.cylinderId == cy.id)).length ≤ 1

section

variable {s t : Snapshot}

/-- Records with unique ids that are sorted by these ids in the end come out the same. -/
theorem inOrder_eq_of_ids {α : Type} {id number : α → Int32} {xs ys : List α}
    (ids : (xs.map id).Nodup) (h : xs.Perm ys) :
    inOrder (fun a => (number a, id a)) xs = inOrder (fun a => (number a, id a)) ys :=
  inOrder_eq_of_perm (fun _ ha _ hb same =>
    List.inj_on_of_nodup_map ids ha hb (Prod.mk.inj same).2) h

theorem timer_eq_of_perm (h : s.timers.Perm t.timers) (kind : EntityKind) (id : Int32)
    (category : TimerCategory) : t.timer kind id category = s.timer kind id category := by
  have owned := h.filter fun x => x.categoryId == category.id && x.ownedBy kind id
  unfold timer
  split
  next none =>
    rw [none] at owned
    rw [owned.eq_nil]
  next only single =>
    rw [single] at owned
    rw [List.perm_singleton.mp owned]
  next none single =>
    split
    next none' =>
      rw [none'] at owned
      exact absurd owned.nil_eq.symm none
    next only single' =>
      rw [single'] at owned
      exact absurd (List.singleton_perm.mp owned).symm (single only)
    next => rw [owned.length_eq]

theorem member_eq_of_perm {α : Type} {id : α → Int32} {xs ys : List α} (ids : (xs.map id).Nodup)
    (h : xs.Perm ys) (k : Int32) :
    ys.reverse.find? (id · == k) = xs.reverse.find? (id · == k) := by
  have reversed : xs.reverse.Perm ys.reverse :=
    (List.reverse_perm xs).trans (h.trans (List.reverse_perm ys).symm)
  have ids' : (xs.reverse.map id).Nodup := ((List.reverse_perm xs).map id).nodup_iff.mpr ids
  have named (a : α) (suits : (id a == k) = true) : id a = k := by simpa using suits
  exact (find?_eq_of_perm (single_of_nodup ids' named) reversed).symm

theorem group_eq_of_perm (h : s.details.Perm t.details) (ids : (s.details.map (·.id)).Nodup)
    (p : Detail → Bool) :
    inOrder Detail.sortKey (t.details.filter p) = inOrder Detail.sortKey (s.details.filter p) :=
  (inOrder_eq_of_ids (ids.sublist (List.filter_sublist.map _)) (h.filter p)).symm

/-- Where keys are unique, no lookup depends on the order of the records. -/
theorem Reordered.alike (h : s.Reordered t) (keyed : s.Keyed) : s.Alike t where
  allocation? kind id := by
    have named (a : Allocation) (suits : (a.kind == kind && a.recordId == id) = true) :
        (a.kind, a.recordId) = (kind, id) := by simpa using suits
    exact (find?_eq_of_perm (single_of_nodup keyed.allocations named) h.allocations).symm
  cylinder? := member_eq_of_perm keyed.cylinders h.cylinders
  operation? := member_eq_of_perm keyed.operations h.operations
  detail? := member_eq_of_perm keyed.details h.details
  hasProcess id := (h.processes.any_eq).symm
  timer := timer_eq_of_perm h.timers
  speedDevice? mem :=
    (find?_eq_of_perm (single_of_filter (keyed.speedDevices _ mem)) h.speedDevices).symm
  manualControl? mem :=
    (find?_eq_of_perm (single_of_filter (keyed.manualControls _ mem)) h.manualControls).symm
  operations := (inOrder_eq_of_ids keyed.operations h.operations).symm
  cylinders := (inOrder_eq_of_ids keyed.cylinders h.cylinders).symm
  processes := (inOrder_eq_of_ids keyed.processes h.processes).symm
  orphans := by
    have known (id : Int32) : t.hasProcess id = s.hasProcess id := h.processes.any_eq.symm
    simp only [orphanDetails, known]
    exact group_eq_of_perm h.details keyed.details _
  operationsOf id :=
    (inOrder_eq_of_ids (keyed.operations.sublist (List.filter_sublist.map _))
      (h.operations.filter _)).symm
  detailsOfOperation id := group_eq_of_perm h.details keyed.details _
  detailsOfProcess id := group_eq_of_perm h.details keyed.details _

end

end Snapshot

/-! ## Entities

A context, and what is built on one, can be made to read another snapshot. What does not look
anything up stays the same by definition (`_reading`); the lookups stay the same where they do not
tell the snapshots apart (`_alike`). -/

section Alike

variable {σ : Type} {t : Snapshot}

namespace Context

/-- The same context for another snapshot. -/
def reading (c : Context σ) (t : Snapshot) : Context σ := { c with snapshot := t }

variable (c : Context σ)

@[simp] theorem resolvePoints_reading : (c.reading t).resolvePoints = c.resolvePoints := rfl

@[simp] theorem pointContact_reading : (c.reading t).pointContact = c.pointContact := rfl

/-- Sensors are looked up by the resolver, whatever the snapshot. -/
@[simp] theorem sensors_reading : (c.reading t).sensors = c.sensors := by
  unfold sensors
  rw [resolvePoints_reading, pointContact_reading]

variable (alike : c.snapshot.AlikeElsewhere t)

include alike

theorem block?_alike (kind : EntityKind) (id : Int32) :
    (c.reading t).snapshot.block? kind id = c.snapshot.block? kind id := by
  rw [Snapshot.block?, Snapshot.block?, ← alike.allocation?]
  rfl

theorem block_alike {ρ : Type} [Role ρ] (owner : Owner) (roles : List ρ) :
    (c.reading t).block owner roles = c.block owner roles := by
  unfold block
  rw [← alike.allocation?]
  rfl

theorem timer_alike : (c.reading t).timer = c.timer :=
  funext fun _ => funext fun category => alike.timer _ _ category

end Context

/-! ### Operations -/

namespace Sequencer

def reading (q : Sequencer σ) (t : Snapshot) : Sequencer σ :=
  { q with context := q.context.reading t }

variable (q : Sequencer σ)

@[simp] theorem operation_reading : (q.reading t).operation = q.operation := rfl

@[simp] theorem template_reading : (q.reading t).template = q.template := rfl

@[simp] theorem settings_reading : (q.reading t).context.settings = q.context.settings := rfl

@[simp] theorem bit_reading : (q.reading t).bit = q.bit := rfl

@[simp] theorem contact_reading : (q.reading t).contact = q.contact := rfl

@[simp] theorem latch_reading : (q.reading t).latch = q.latch := rfl

@[simp] theorem sensors_reading : (q.reading t).sensors = q.sensors := by
  funext name count
  unfold sensors
  rw [← q.context.sensors_reading]
  rfl

@[simp] theorem hold_reading : (q.reading t).hold = q.hold := rfl

@[simp] theorem positioningStart_reading : (q.reading t).positioningStart = q.positioningStart := rfl

@[simp] theorem positioningBusy_reading : (q.reading t).positioningBusy = q.positioningBusy := rfl

@[simp] theorem runEnable_reading : (q.reading t).runEnable = q.runEnable := rfl

@[simp] theorem completion_reading : (q.reading t).completion = q.completion := rfl

@[simp] theorem startLatch_reading : (q.reading t).startLatch = q.startLatch := by
  unfold startLatch
  simp

@[simp] theorem startConfirmed_reading : (q.reading t).startConfirmed = q.startConfirmed := by
  unfold startConfirmed
  simp

@[simp] theorem finishDetected_reading : (q.reading t).finishDetected = q.finishDetected := by
  unfold finishDetected
  simp

variable (alike : q.context.snapshot.AlikeElsewhere t)

include alike

theorem timer_alike : (q.reading t).timer = q.timer := by
  unfold timer
  rw [← q.context.timer_alike alike]
  rfl

theorem optionalDelay_alike : (q.reading t).optionalDelay = q.optionalDelay := by
  unfold optionalDelay
  simp [q.timer_alike alike]

theorem resetGate_alike : (q.reading t).resetGate = q.resetGate := by
  have title : (q.reading t).title = q.title := by
    unfold Sequencer.title
    rw [← alike.cylinder?]
    rfl
  have active : (q.reading t).activeDetail = q.activeDetail := by
    funext d
    unfold activeDetail
    rw [← q.context.block?_alike alike]
    rfl
  unfold resetGate
  rw [title, active, ← alike.detailsOfOperation]
  rfl

theorem speedStep_alike : (q.reading t).speedStep = q.speedStep := by
  unfold speedStep
  simp [q.timer_alike alike]

theorem deepSeat_alike : (q.reading t).deepSeat = q.deepSeat := by
  unfold deepSeat
  simp [q.timer_alike alike]

theorem sequence_alike : (q.reading t).sequence = q.sequence := by
  have delay : (q.reading t).startDelay = q.startDelay := by
    rw [startDelay, startDelay, q.optionalDelay_alike alike]
  have stable : (q.reading t).stableGate = q.stableGate := by
    unfold stableGate
    rw [q.optionalDelay_alike alike]
  rw [sequence_eq, sequence_eq, template_reading]
  simp [q.resetGate_alike alike, q.speedStep_alike alike, q.deepSeat_alike alike, stable, delay]

end Sequencer

/-- An operation looks for no others. -/
theorem Context.operation_alike (c : Context σ) (alike : c.snapshot.AlikeElsewhere t) (o : Operation) :
    (c.reading t).operation o = c.operation o := by
  have scope : (c.reading t).operationScope o = c.operationScope o := by
    unfold operationScope
    rw [← alike.cylinder?]
    rfl
  have sequence (template : OperationTemplate) (b : Block) (sc : String) :
      (Sequencer.mk (c.reading t) o template b sc).sequence =
        (Sequencer.mk c o template b sc).sequence :=
    Sequencer.sequence_alike ⟨c, o, template, b, sc⟩ alike
  unfold operation
  simp only [c.block_alike alike, scope, sequence]

/-! ### Cylinders -/

namespace Drive

def reading (d : Drive σ) (t : Snapshot) : Drive σ := { d with context := d.context.reading t }

variable (d : Drive σ)

@[simp] theorem goMotions_reading : (d.reading t).goMotions = d.goMotions := rfl

@[simp] theorem backMotions_reading : (d.reading t).backMotions = d.backMotions := rfl

@[simp] theorem positioningMotions_reading :
    (d.reading t).positioningMotions = d.positioningMotions := rfl

@[simp] theorem inverted_reading : (d.reading t).inverted = d.inverted := rfl

@[simp] theorem interlocks_reading : (d.reading t).interlocks = d.interlocks := rfl

@[simp] theorem collect_reading : (d.reading t).collect = d.collect := rfl

@[simp] theorem brakeRung_reading : (d.reading t).brakeRung = d.brakeRung := rfl

@[simp] theorem decelerationRungs_reading :
    (d.reading t).decelerationRungs = d.decelerationRungs := rfl

@[simp] theorem common_reading : (d.reading t).common = d.common := rfl

@[simp] theorem retain_reading : (d.reading t).retain = d.retain := rfl

@[simp] theorem outputs_reading : (d.reading t).outputs = d.outputs := rfl

@[simp] theorem optionalOutput_reading : (d.reading t).optionalOutput = d.optionalOutput := rfl

@[simp] theorem coil_reading : (d.reading t).coil = d.coil := rfl

@[simp] theorem jog_reading : (d.reading t).jog = d.jog := rfl

@[simp] theorem speedMoves_reading : (d.reading t).speedMoves = d.speedMoves := rfl

@[simp] theorem doubleCoils_reading : (d.reading t).doubleCoils = d.doubleCoils := by
  simp [doubleCoils]

@[simp] theorem forwardReverse_reading : (d.reading t).forwardReverse = d.forwardReverse := by
  have reverse : (d.reading t).reverseOutputs = d.reverseOutputs := by
    simp [reverseOutputs]
  simp [forwardReverse, reverse]

variable (alike : d.context.snapshot.AlikeElsewhere t)
  (speed : t.speedDevice? d.cylinder.id = d.context.snapshot.speedDevice? d.cylinder.id)

include alike

theorem deceleration_alike : (d.reading t).deceleration = d.deceleration := by
  unfold deceleration
  rw [← d.context.timer_alike alike, decelerationRungs_reading]
  rfl

include speed

theorem output_alike (k : DriveClass) : (d.reading t).output k = d.output k := by
  have word : (d.reading t).speedDevice = d.speedDevice := by
    unfold speedDevice
    rw [← speed]
    rfl
  cases k with
  | singleValve => simp [output, singleValve]
  | doubleValve => simp [output, doubleValve]
  | motor => simp [output, motor]
  | flowValve => simp [output, flowValve, word]
  | servo => simp [output, servo, word]
  | inverter => simp [output, inverter, word, d.deceleration_alike alike]

end Drive

theorem Context.manualSignals_alike (c : Context σ) (alike : c.snapshot.AlikeElsewhere t)
    {cy : Cylinder} (mem : cy ∈ c.snapshot.cylinders) :
    (c.reading t).manualSignals cy = c.manualSignals cy := by
  unfold manualSignals
  rw [← alike.manualControl? mem]
  rfl

/-- Cylinders of snapshots that no lookup tells apart are generated alike. -/
theorem Context.cylinder_alike (c : Context σ) (alike : c.snapshot.Alike t) {cy : Cylinder}
    (mem : cy ∈ c.snapshot.cylinders) : (c.reading t).cylinder cy = c.cylinder cy := by
  have elsewhere := alike.toAlikeElsewhere
  have motions : (c.reading t).snapshot.motionsOf cy.id = c.snapshot.motionsOf cy.id := by
    have motion : t.motion? = c.snapshot.motion? := by
      funext o
      unfold Snapshot.motion?
      rw [← c.block?_alike elsewhere]
      rfl
    unfold Snapshot.motionsOf
    rw [← motion, ← alike.operationsOf]
    rfl
  have output (b : Block) (motions : List Motion) (manual : ManualSignals) (k : DriveClass) :
      (Drive.mk (c.reading t) cy b motions manual).output k =
        (Drive.mk c cy b motions manual).output k :=
    Drive.output_alike ⟨c, cy, b, motions, manual⟩ elsewhere (alike.speedDevice? mem) k
  unfold cylinder
  simp only [c.block_alike elsewhere, motions, c.manualSignals_alike elsewhere mem, output]

/-! ### Processes and details -/

theorem Context.conditionBlocks_alike (c : Context σ) (alike : c.snapshot.AlikeElsewhere t) :
    (c.reading t).conditionBlocks = c.conditionBlocks := by
  funext kind owner
  have block : t.block? .detail = c.snapshot.block? .detail :=
    funext fun id => c.block?_alike alike .detail id
  have detail : t.detail? = c.snapshot.detail? := funext alike.detail?
  unfold conditionBlocks
  rw [← block, ← detail]
  rfl

theorem Context.finishBlocks_alike (c : Context σ) (alike : c.snapshot.AlikeElsewhere t) :
    (c.reading t).finishBlocks = c.finishBlocks := by
  funext p
  have block : t.block? .detail = c.snapshot.block? .detail :=
    funext fun id => c.block?_alike alike .detail id
  unfold finishBlocks
  rw [c.conditionBlocks_alike alike, ← block, ← alike.detailsOfProcess]
  rfl

namespace Cycle

def reading (y : Cycle σ) (t : Snapshot) : Cycle σ := { y with context := y.context.reading t }

variable (y : Cycle σ) (alike : y.context.snapshot.AlikeElsewhere t)

include alike

theorem startRung_alike : (y.reading t).startRung = y.startRung := by
  have chains : (y.reading t).startChains = y.startChains := by
    unfold startChains
    rw [← y.context.conditionBlocks_alike alike]
    rfl
  unfold startRung
  rw [chains]
  rfl

theorem running_alike : (y.reading t).running = y.running := by
  have wait : (y.reading t).interlockWait = y.interlockWait := by
    unfold interlockWait
    rw [← y.context.timer_alike alike]
    rfl
  unfold running
  rw [wait]
  rfl

theorem cycle_alike : (y.reading t).cycle = y.cycle := by
  have finished : (y.reading t).finishedRung = y.finishedRung := by
    unfold finishedRung
    rw [← y.context.finishBlocks_alike alike]
    rfl
  unfold cycle
  rw [y.startRung_alike alike, y.running_alike alike, finished]
  rfl

end Cycle

namespace Context

variable (c : Context σ) (alike : c.snapshot.AlikeElsewhere t)

include alike

theorem process_alike (p : Process) : (c.reading t).process p = c.process p := by
  have cycle (template : ProcessTemplate) (b : Block) :
      (Cycle.mk (c.reading t) p template b).cycle = (Cycle.mk c p template b).cycle :=
    Cycle.cycle_alike ⟨c, p, template, b⟩ alike
  unfold process
  simp only [c.block_alike alike, cycle]

/-- A detail looks for operations only to find out whether its own has settled. -/
theorem detail_of_settled (d : Detail)
    (settled : (c.reading t).settledContact d = c.settledContact d) :
    (c.reading t).detail d = c.detail d := by
  have known : (c.reading t).snapshot.hasProcess d.processId = c.snapshot.hasProcess d.processId :=
    alike.hasProcess _
  have start : (c.reading t).detailStartRung d = c.detailStartRung d := by
    unfold detailStartRung
    rw [c.conditionBlocks_alike alike]
  unfold detail
  simp only [known, c.block_alike alike, c.block?_alike alike, start, settled]

end Context

theorem Context.detail_alike (c : Context σ) (alike : c.snapshot.Alike t) (d : Detail) :
    (c.reading t).detail d = c.detail d := by
  have elsewhere := alike.toAlikeElsewhere
  have operation : (c.reading t).snapshot.operation? = c.snapshot.operation? :=
    funext alike.operation?
  refine c.detail_of_settled elsewhere d ?_
  unfold settledContact
  simp only [c.block?_alike elsewhere, operation]

/-! ## Generation -/

theorem synthesizeEach_congr {α : Type} {owner : α → Owner} {build build' : α → Emission σ Unit}
    {xs : List α} (same : ∀ x ∈ xs, build' x = build x) :
    synthesizeEach owner build' xs = synthesizeEach owner build xs := by
  induction xs with
  | nil => rfl
  | cons x xs ih =>
    obtain ⟨here, rest⟩ := List.forall_mem_cons.mp same
    funext m
    simp only [synthesizeEach, here, ih rest]

namespace Context

variable (c : Context σ) (alike : c.snapshot.Alike t)

include alike

theorem operations_alike : (c.reading t).operations = c.operations := by
  have sorted : (c.reading t).snapshot.sortedOperations = c.snapshot.sortedOperations :=
    alike.operations
  unfold operations
  rw [sorted]
  exact synthesizeEach_congr fun o _ => c.operation_alike alike.toAlikeElsewhere o

theorem cylinders_alike : (c.reading t).cylinders = c.cylinders := by
  have sorted : (c.reading t).snapshot.sortedCylinders = c.snapshot.sortedCylinders := alike.cylinders
  unfold cylinders
  rw [sorted]
  exact synthesizeEach_congr fun cy mem =>
    c.cylinder_alike alike (c.snapshot.mem_sortedCylinders.mp mem)

theorem processes_alike : (c.reading t).processes = c.processes := by
  have sorted : (c.reading t).snapshot.sortedProcesses = c.snapshot.sortedProcesses := alike.processes
  unfold processes
  rw [sorted]
  exact synthesizeEach_congr fun p _ => c.process_alike alike.toAlikeElsewhere p

theorem details_alike : (c.reading t).details = c.details := by
  have sorted : (c.reading t).snapshot.sortedDetails = c.snapshot.sortedDetails := by
    unfold Snapshot.sortedDetails
    rw [← alike.processes, ← alike.orphans]
    simp only [← alike.detailsOfProcess]
    rfl
  unfold details
  rw [sorted]
  exact synthesizeEach_congr fun d _ => c.detail_alike alike d

end Context

/-- Snapshots that no lookup tells apart have the same generation, which leads to the same memory. -/
theorem Service.generate_alike (v : Service σ) {s : Snapshot} (alike : s.Alike t) (m : σ) :
    v.generate t m = v.generate s m := by
  have same : v.context t = (v.context s).reading t := rfl
  simp only [generate, same, (v.context s).operations_alike alike,
    (v.context s).cylinders_alike alike, (v.context s).processes_alike alike,
    (v.context s).details_alike alike]

end Alike

namespace Snapshot

variable {s t : Snapshot}

/-- The order in which a snapshot lists its records does not matter, unless keys are ambiguous. Any
service generates the same from it, and is left with the same memory: if the memory keeps the
questions to a selector, these are the same in the same order. -/
theorem generate_reordered (s t : Snapshot) (keyed : s.Keyed) (reordered : s.Reordered t) :
    (∀ (σ : Type) (v : Service σ) (m : σ), v.generate t m = v.generate s m) ∧
      ∀ (selector : Selector) (settings : Settings) (memory : List Choice),
        let own (x : Snapshot) : Service (List Choice) :=
          .ofTables { points := x.points, selector } x.conditions settings
        (own t).generate t memory = (own s).generate s memory := by
  have alike := reordered.alike keyed
  refine ⟨fun σ v m => v.generate_alike alike m, fun selector settings memory => ?_⟩
  simp only [← reordered.points, ← reordered.conditions]
  exact Service.generate_alike _ alike memory

/-- The snapshot with its records listed backwards. -/
def reversed (s : Snapshot) : Snapshot where
  plcId := s.plcId
  cycleId := s.cycleId
  cylinders := s.cylinders.reverse
  operations := s.operations.reverse
  processes := s.processes.reverse
  details := s.details.reverse
  timers := s.timers.reverse
  points := s.points
  speedDevices := s.speedDevices.reverse
  manualControls := s.manualControls.reverse
  allocations := s.allocations.reverse
  conditions := s.conditions

theorem reordered_reversed (s : Snapshot) : s.Reordered s.reversed where
  cylinders := (List.reverse_perm _).symm
  operations := (List.reverse_perm _).symm
  processes := (List.reverse_perm _).symm
  details := (List.reverse_perm _).symm
  timers := (List.reverse_perm _).symm
  allocations := (List.reverse_perm _).symm
  speedDevices := (List.reverse_perm _).symm
  manualControls := (List.reverse_perm _).symm
  points := rfl
  conditions := rfl

theorem generate_reordered_twoDrives :
    twoDrives.reversed.cylinders = [.axis, .clamp] ∧
      ∀ settings, twoDrives.reversed.generate settings = twoDrives.generate settings := by
  have keyed : twoDrives.Keyed := by
    constructor
    all_goals decide +kernel
  obtain ⟨_, own⟩ := generate_reordered twoDrives _ keyed twoDrives.reordered_reversed
  refine ⟨rfl, fun settings => ?_⟩
  exact congrArg Prod.fst (own .first settings [])

end Snapshot

end Rungs
