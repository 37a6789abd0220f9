import Rungs.Proofs.Composition
import Rungs.Proofs.Reordering

/-! What an operation keeps to itself. Cylinders and details read the operations of a snapshot, but
no more of them than their outlines (`Context.entity_outline`): the name and the sensors of an
operation make a difference to its own rungs only. Where these alone are changed, all that surrounds
the turn of the operation stays as it was, whether the operation comes to its end or stops
(`Service.sequencing_local`). -/

namespace Rungs

/-! ## Sorting -/

section Sorting

variable {α β : Type} {key : α → Int32 × Int32}

theorem inOrder_map {key' : β → Int32 × Int32} (f : α → β) (kept : ∀ a, key' (f a) = key a)
    (xs : List α) : inOrder key' (xs.map f) = (inOrder key xs).map f := by
  refine (List.map_mergeSort fun a _ b _ => ?_).symm
  rw [kept, kept]

/-- A list with a gap where one record is to come. -/
def gapped (before after : List α) : List (Option α) := before.map some ++ none :: after.map some

theorem map_getD_gapped (before after : List α) (a : α) :
    (gapped before after).map (·.getD a) = before ++ a :: after := by
  simp [gapped, Function.comp_def]

theorem exists_map_some {xs : List (Option α)} (full : xs.countP Option.isNone = 0) :
    ∃ ys : List α, xs = ys.map some := by
  induction xs with
  | nil => exact ⟨[], rfl⟩
  | cons x xs ih =>
    cases x with
    | none => simp at full
    | some y =>
      obtain ⟨ys, rfl⟩ := ih (by simpa using full)
      exact ⟨y :: ys, rfl⟩

theorem exists_gapped_of_perm {before after : List α} {xs : List (Option α)}
    (h : xs.Perm (gapped before after)) : ∃ earlier later, xs = gapped earlier later := by
  obtain ⟨earlier, later, rfl⟩ := List.append_of_mem
    (h.mem_iff.mpr (List.mem_append_right _ List.mem_cons_self))
  -- there is no second gap on either side of this one
  have once : (gapped before after).countP Option.isNone = 1 := by
    simp [gapped, List.countP_map, Function.comp_def]
  rw [← h.countP_eq, List.countP_append, List.countP_cons_of_pos rfl] at once
  obtain ⟨earlier, rfl⟩ := exists_map_some (show earlier.countP Option.isNone = 0 by omega)
  obtain ⟨later, rfl⟩ := exists_map_some (show later.countP Option.isNone = 0 by omega)
  exact ⟨earlier, later, rfl⟩

/-- A record that takes the place of one with the same key takes its place in order as well. -/
theorem inOrder_replace {a a' : α} (same : key a' = key a) (before after : List α) :
    ∃ earlier later, inOrder key (before ++ a :: after) = earlier ++ a :: later ∧
      inOrder key (before ++ a' :: after) = earlier ++ a' :: later := by
  let gapKey (x : Option α) : Int32 × Int32 := (x.map key).getD (key a)
  have filled (x : α) (h : key x = key a) : inOrder key (before ++ x :: after) =
      (inOrder gapKey (gapped before after)).map (·.getD x) := by
    have kept : ∀ y : Option α, key (y.getD x) = gapKey y := by
      rintro (_ | y)
      · exact h
      · rfl
    rw [← map_getD_gapped, inOrder_map _ kept]
  obtain ⟨earlier, later, sorted⟩ := exists_gapped_of_perm (inOrder_perm gapKey (gapped before after))
  refine ⟨earlier, later, ?_, ?_⟩
  · rw [filled a rfl, sorted, map_getD_gapped]
  · rw [filled a' same, sorted, map_getD_gapped]

end Sorting

/-! ## Outlines -/

/-- What others see of an operation: everything but its name and its sensors. -/
def Operation.outline (o : Operation) : Operation :=
  { o with
    name := ""
    start := none
    finish := none
    control := none
    sensorCount := none
    speedSensors := [] }

def Motion.outline (m : Motion) : Motion := { m with operation := m.operation.outline }

namespace Snapshot

/-- The snapshot with the outlines of its operations. -/
def outline (s : Snapshot) : Snapshot :=
  { s with operations := s.operations.map Operation.outline }

variable (s : Snapshot)

theorem alikeElsewhere_outline : s.AlikeElsewhere s.outline where
  allocation? _ _ := rfl
  cylinder? _ := rfl
  detail? _ := rfl
  hasProcess _ := rfl
  timer _ _ _ := rfl
  speedDevice? _ := rfl
  manualControl? _ := rfl
  cylinders := rfl
  processes := rfl
  orphans := rfl
  detailsOfOperation _ := rfl
  detailsOfProcess _ := rfl

theorem operation?_outline (id : Int32) :
    s.outline.operation? id = (s.operation? id).map Operation.outline := by
  simp only [operation?, outline]
  rw [← List.map_reverse, List.find?_map]
  rfl

theorem operationsOf_outline (id : Int32) :
    s.outline.operationsOf id = (s.operationsOf id).map Operation.outline := by
  simp only [operationsOf, outline]
  rw [List.filter_map, inOrder_map Operation.outline fun _ => rfl]
  rfl

theorem motion?_outline (o : Operation) :
    s.outline.motion? o.outline = (s.motion? o).map Motion.outline := by
  have code : o.outline.categoryCode = o.categoryCode := rfl
  have block : s.outline.block? .operation o.outline.id = s.block? .operation o.id := rfl
  rw [motion?, motion?, code, block]
  cases OperationTemplate.ofCode? o.categoryCode with
  | none => rfl
  | some template =>
    cases s.block? .operation o.id with
    | none => rfl
    | some block => rfl

theorem motionsOf_outline (id : Int32) :
    s.outline.motionsOf id = (s.motionsOf id).map Motion.outline := by
  have motion : s.outline.motion? ∘ Operation.outline = fun o => (s.motion? o).map Motion.outline :=
    funext s.motion?_outline
  rw [motionsOf, motionsOf, operationsOf_outline, List.filterMap_map, motion, List.map_filterMap]

end Snapshot

/-! ## Drives

A drive takes contacts, positions and speeds from its motions, and all of them are in the outlines. -/

variable {σ : Type}

theorem towards_outline (direction : Direction) (motions : List Motion) :
    towards direction (motions.map Motion.outline) =
      (towards direction motions).map Motion.outline := by
  unfold towards
  rw [List.filter_map]
  rfl

theorem retained_outline (motions : List Motion) :
    retained (motions.map Motion.outline) = (retained motions).map Motion.outline := by
  unfold retained
  rw [List.filter_map]
  rfl

theorem forM_outline {f : Motion → Emission σ Unit} (same : ∀ m, f m.outline = f m)
    (motions : List Motion) : (motions.map Motion.outline).forM f = motions.forM f := by
  simp only [List.forM_eq_forM, List.forM_map, same]

namespace Drive

@[simp] theorem motionContacts_outline (motions : List Motion) (role : OperationRole) :
    motionContacts (motions.map Motion.outline) role = motionContacts motions role := by
  unfold motionContacts
  rw [List.map_map]
  rfl

/-- The drive with the outlines of its motions. -/
def outline (d : Drive σ) : Drive σ := { d with motions := d.motions.map Motion.outline }

variable (d : Drive σ)

@[simp] theorem inverted_outline : d.outline.inverted = d.inverted := rfl

@[simp] theorem interlocks_outline : d.outline.interlocks = d.interlocks := rfl

@[simp] theorem outputs_outline : d.outline.outputs = d.outputs := rfl

@[simp] theorem optionalOutput_outline : d.outline.optionalOutput = d.optionalOutput := rfl

@[simp] theorem coil_outline : d.outline.coil = d.coil := rfl

@[simp] theorem jog_outline : d.outline.jog = d.jog := rfl

@[simp] theorem brakeRung_outline : d.outline.brakeRung = d.brakeRung := rfl

@[simp] theorem speedDevice_outline : d.outline.speedDevice = d.speedDevice := rfl

@[simp] theorem deceleration_outline : d.outline.deceleration = d.deceleration := rfl

@[simp] theorem goMotions_outline : d.outline.goMotions = d.goMotions.map Motion.outline :=
  towards_outline _ _

@[simp] theorem backMotions_outline : d.outline.backMotions = d.backMotions.map Motion.outline :=
  towards_outline _ _

@[simp] theorem offMotions_outline : d.outline.offMotions = d.offMotions.map Motion.outline :=
  towards_outline _ _

@[simp] theorem drivingMotions_outline :
    d.outline.drivingMotions = d.drivingMotions.map Motion.outline := by
  simp [drivingMotions]

@[simp] theorem positioningMotions_outline :
    d.outline.positioningMotions = d.positioningMotions.map Motion.outline := by
  rw [positioningMotions, positioningMotions, drivingMotions_outline, List.filter_map]
  rfl

@[simp] theorem collect_outline (motions : List Motion) :
    d.outline.collect (motions.map Motion.outline) = d.collect motions := by
  funext role target
  unfold collect
  rw [motionContacts_outline]
  rfl

@[simp] theorem common_outline : d.outline.common = d.common := by
  unfold common commonRungs
  simp only [goMotions_outline, backMotions_outline, offMotions_outline, collect_outline]
  rfl

@[simp] theorem retain_outline (motions : List Motion) :
    d.outline.retain (motions.map Motion.outline) = d.retain motions := by
  funext opposite target
  unfold retain
  rw [retained_outline, motionContacts_outline]
  rfl

@[simp] theorem doubleCoils_outline : d.outline.doubleCoils = d.doubleCoils := by
  simp [doubleCoils]

@[simp] theorem forwardReverse_outline : d.outline.forwardReverse = d.forwardReverse := by
  have reverse : d.outline.reverseOutputs = d.reverseOutputs := by
    simp [reverseOutputs]
  simp [forwardReverse, reverse]

@[simp] theorem speedMoves_outline : d.outline.speedMoves = d.speedMoves := by
  funext word
  have moves : ∀ m : Motion, motionMoves (σ := σ) word m.outline = motionMoves word m :=
    fun _ => rfl
  simp [speedMoves, forM_outline moves]

@[simp] theorem servo_outline : d.outline.servo = d.servo := by
  have moves (word : String) (speed : Option String) :
      ∀ m : Motion, servoMoves (σ := σ) word speed m.outline = servoMoves word speed m :=
    fun _ => rfl
  simp [servo, forM_outline (moves _ _)]

/-- No drive looks for more than the outlines of its motions. -/
theorem output_outline (k : DriveClass) : d.outline.output k = d.output k := by
  cases k with
  | singleValve => simp [output, singleValve]
  | doubleValve => simp [output, doubleValve]
  | motor => simp [output, motor]
  | flowValve => simp [output, flowValve]
  | servo => exact d.servo_outline
  | inverter => simp [output, inverter]

end Drive

/-! ## Entities -/

namespace Context

variable (c : Context σ)

theorem cylinder_outline (cy : Cylinder) :
    (c.reading c.snapshot.outline).cylinder cy = c.cylinder cy := by
  have elsewhere := c.snapshot.alikeElsewhere_outline
  have motions : (c.reading c.snapshot.outline).snapshot.motionsOf cy.id =
      (c.snapshot.motionsOf cy.id).map Motion.outline := c.snapshot.motionsOf_outline cy.id
  have check : ∀ m : Motion, checkDirection (σ := σ) m.outline = checkDirection m := fun _ => rfl
  have manual : (c.reading c.snapshot.outline).manualSignals cy = c.manualSignals cy := rfl
  have output (b : Block) (motions : List Motion) (manual : ManualSignals) (k : DriveClass) :
      (Drive.mk (c.reading c.snapshot.outline) cy b (motions.map Motion.outline) manual).output k =
        (Drive.mk c cy b motions manual).output k :=
    (Drive.output_alike ⟨c, cy, b, motions.map Motion.outline, manual⟩ elsewhere rfl k).trans
      (Drive.output_outline ⟨c, cy, b, motions, manual⟩ k)
  unfold cylinder
  simp only [c.block_alike elsewhere, motions, forM_outline check, manual, output]

theorem detail_outline (d : Detail) :
    (c.reading c.snapshot.outline).detail d = c.detail d := by
  refine c.detail_of_settled c.snapshot.alikeElsewhere_outline d ?_
  have operation (id : Int32) : (c.reading c.snapshot.outline).snapshot.operation? id =
      (c.snapshot.operation? id).map Operation.outline := c.snapshot.operation?_outline id
  unfold settledContact
  cases d.operationId with
  | none => rfl
  | some id =>
    simp only [operation]
    cases c.snapshot.operation? id with
    | none => rfl
    | some o => rfl

/-- No entity sees more of the other operations than their outlines. -/
theorem entity_outline (e : Entity) :
    (c.reading c.snapshot.outline).entity e = c.entity e := by
  have elsewhere := c.snapshot.alikeElsewhere_outline
  cases e with
  | operation o => exact c.operation_alike elsewhere o
  | cylinder cy => exact c.cylinder_outline cy
  | process p => exact c.process_alike elsewhere p
  | detail d => exact c.detail_outline d

end Context

/-! ## Generation -/

/-- What a generation yields around the turn of one operation. -/
structure Surroundings where
  /-- What the operations yield that come before it. -/
  earlier : List (Entity × Synthesis)
  /-- What the operations yield that come after it. -/
  later : List (Entity × Synthesis)
  /-- What the cylinders, the processes and the details yield. -/
  others : List (Entity × Synthesis)
  /-- The sections of the cylinders, the processes and the details, without the numbers of rows. -/
  sections : List Section

namespace Service

variable (v : Service σ)

/-- A generation in which one operation yields `own` in its turn. -/
structure Surrounded (s : Snapshot) (m : σ) (o : Operation) (own : Synthesis)
    (around : Surroundings) : Prop where
  turns : v.contributions s m =
    around.earlier ++ (.operation o, own) :: around.later ++ around.others
  operations : (around.earlier ++ (.operation o, own) :: around.later).map Prod.fst =
    s.sortedOperations.map .operation
  others : around.others.map Prod.fst = s.sortedCylinders.map .cylinder ++
    (s.sortedProcesses.map .process ++ s.sortedDetails.map .detail)
  sections : (v.generate s m).1.program.sections.map Section.unnumbered =
    Section.unnumbered ⟨.operation,
        (around.earlier ++ (.operation o, own) :: around.later).flatMap fun e => e.2.rows⟩ ::
      around.sections
  kinds : around.sections.map (·.kind) = [.cylinder, .process, .detail]
  diagnostics : (v.generate s m).1.diagnostics =
    ((around.earlier ++ (.operation o, own) :: around.later).flatMap fun e => e.2.diagnostics) ++
      around.others.flatMap fun e => e.2.diagnostics

variable (s : Snapshot) (fresh : σ)

/-- What entities yield, each by itself. -/
def eachAlone (es : List Entity) : List (Entity × Synthesis) :=
  es.map fun e => (e, v.alone s fresh e)

/-- What there is around the turn of an operation that comes between the others. -/
def surroundings (earlier later : List Operation) : Surroundings where
  earlier := v.eachAlone s fresh (earlier.map .operation)
  later := v.eachAlone s fresh (later.map .operation)
  others := v.eachAlone s fresh (s.sortedCylinders.map .cylinder ++
    (s.sortedProcesses.map .process ++ s.sortedDetails.map .detail))
  sections :=
    [(v.sectionOf s fresh .cylinder (s.sortedCylinders.map .cylinder)).unnumbered,
     (v.sectionOf s fresh .process (s.sortedProcesses.map .process)).unnumbered,
     (v.sectionOf s fresh .detail (s.sortedDetails.map .detail)).unnumbered]

variable {v s fresh} {I : σ → Prop} {m : σ}

theorem alone_outline : v.alone s.outline fresh = v.alone s fresh := by
  funext e
  have same : (v.context s.outline).entity e = (v.context s).entity e :=
    (v.context s).entity_outline e
  unfold alone contribution
  rw [same]

theorem surroundings_outline :
    v.surroundings s.outline fresh = v.surroundings s fresh := by
  unfold surroundings eachAlone sectionOf
  rw [alone_outline]
  rfl

theorem surrounded (alike : v.resolver.Indifferent I) (hf : I fresh) (hm : I m) {o : Operation}
    {earlier later : List Operation} (sorted : s.sortedOperations = earlier ++ o :: later) :
    v.Surrounded s m o (v.alone s fresh (.operation o)) (v.surroundings s fresh earlier later) := by
  let around := v.surroundings s fresh earlier later
  let own := v.alone s fresh (.operation o)
  have operations : v.eachAlone s fresh (s.sortedOperations.map .operation) =
      around.earlier ++ (.operation o, own) :: around.later := by
    rw [sorted]
    simp [eachAlone, around, own, surroundings]
  have turns : v.contributions s m =
      around.earlier ++ (.operation o, own) :: around.later ++ around.others := by
    rw [contributions_apart alike hf hm, ← operations]
    simp only [eachAlone, Snapshot.entities, List.map_append, around, surroundings]
  have names (es : List Entity) : (v.eachAlone s fresh es).map Prod.fst = es := by
    rw [eachAlone, List.map_map]
    exact List.map_id _
  refine ⟨turns, ?_, names _, ?_, rfl, ?_⟩
  · rw [← operations, names]
  · rw [generate_eq, (parts_eq_partsApart alike hf hm).1, (v.composes_partsApart s fresh).sections,
      ← operations, eachAlone, List.flatMap_map]
    rfl
  · rw [diagnostics_generate, turns, List.flatMap_append]

/-- The name and the sensors of one operation make a difference to its own turn only, also where it
stops for the want of one. The other operations yield the same, and so do all cylinders, processes
and details, from any two memories that a table of points can have. -/
theorem sequencing_local (t : IoTable) (stateless : t.selector.Stateless) (settings : Settings)
    (conditionIds : ConditionKind → EntityKind → Int32 → List Int32) (base : Snapshot)
    (before after : List Operation) (o o' : Operation) (same : o'.outline = o.outline)
    (memory memory' : List Choice) (reached : t.resolver.Reachable [] memory)
    (reached' : t.resolver.Reachable [] memory') :
    let v := ofTable t settings conditionIds
    let s : Snapshot := { base with operations := before ++ o :: after }
    let s' : Snapshot := { base with operations := before ++ o' :: after }
    ∃ around, v.Surrounded s memory o (v.alone s [] (.operation o)) around ∧
      v.Surrounded s' memory' o' (v.alone s' [] (.operation o')) around := by
  intro v s s'
  have alike : v.resolver.Indifferent t.Settled := IoTable.indifferent stateless
  have settled : t.Settled memory := IoTable.settled_of_reachable stateless reached
  have settled' : t.Settled memory' := IoTable.settled_of_reachable stateless reached'
  have outline : s'.outline = s.outline := by
    simp only [Snapshot.outline, s, s', List.map_append, List.map_cons, same]
  have key : o'.sortKey = o.sortKey := by
    show o'.outline.sortKey = o.outline.sortKey
    rw [same]
  obtain ⟨earlier, later, sorted, sorted'⟩ := inOrder_replace key before after
  refine ⟨v.surroundings s [] earlier later, surrounded alike t.settled_nil settled sorted, ?_⟩
  rw [← surroundings_outline, ← outline, surroundings_outline]
  exact surrounded alike t.settled_nil settled' sorted'

end Service

/-- A stroke back, on the sensors of `oneStroke`. -/
def Operation.strokeBack : Operation where
  id := 2
  cylinderId := 1
  categoryCode := 1
  goBack := some "B"
  start := some "XE"
  finish := some "XS"
  sortNumber := -1

/-- `oneStroke` with a block for a second operation. -/
def Snapshot.twoStrokes : Snapshot :=
  { oneStroke with allocations := ⟨.operation, 2, "L", 40, 20⟩ :: oneStroke.allocations }

/-- Without a start sensor the stroke back stops, and with one it asks for points that others ask for
as well. Nothing else changes, not even from a memory that already holds a choice. -/
theorem sequencing_local_twoStrokes :
    let t : IoTable := { points := IoTable.twinPoints, selector := .first }
    let v := Service.ofTable t {} (conditionIds [])
    let blind : Operation := { Operation.strokeBack with name := "BACK", start := none }
    let s := { Snapshot.twoStrokes with operations := Snapshot.oneStroke.operations ++ [.strokeBack] }
    let s' := { Snapshot.twoStrokes with operations := Snapshot.oneStroke.operations ++ [blind] }
    let memory := (t.resolve ⟨"XS", false, "CY1", 1⟩ []).2
    hasCritical (v.alone s [] (.operation .strokeBack)).diagnostics = false ∧
      hasCritical (v.alone s' [] (.operation blind)).diagnostics = true ∧
      ∃ around, v.Surrounded s [] .strokeBack (v.alone s [] (.operation .strokeBack)) around ∧
        v.Surrounded s' memory blind (v.alone s' [] (.operation blind)) around := by
  intro t v blind s s' memory
  have stateless : t.selector.Stateless := fun _ _ _ _ => rfl
  have reached : t.resolver.Reachable [] memory := .resolve _ .start
  refine ⟨by decide +kernel, by decide +kernel, ?_⟩
  exact Service.sequencing_local t stateless {} (conditionIds []) Snapshot.twoStrokes
    Snapshot.oneStroke.operations [] .strokeBack blind rfl [] memory .start reached

end Rungs
