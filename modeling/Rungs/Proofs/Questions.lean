import Rungs.Proofs.Cylinder.Wiring
import Rungs.Proofs.Operation.Vocabulary
import Rungs.Proofs.Turns

/-! Emissions that touch the memory by nothing but questions to the resolver. Each entity of a
snapshot is generated by one (`Context.asks_operation` and its siblings). Such an emission yields the
same from all memories between which the resolver's answers do not tell apart (`Asks.agrees`). -/

namespace Rungs

open Emission

variable {σ : Type}

theorem Emission.run_consult {α : Type} (look : σ → α × σ) (m : σ) :
    (Emission.consult look).run m = { result := .ok (look m).1, memory := (look m).2 } := rfl

/-- The emission reads and changes the memory only by asking the resolver. -/
inductive Emission.Asks (v : Resolver σ) : {α : Type} → Emission σ α → Prop
  | pure {α : Type} (a : α) : Asks v (Pure.pure a : Emission σ α)
  | bind {α β : Type} {x : Emission σ α} {f : α → Emission σ β} (hx : Asks v x)
      (hf : ∀ a, Asks v (f a)) : Asks v (x >>= f)
  | emitAll (rungs : List Rung) : Asks v (Emission.emitAll rungs)
  | warn (f : Finding) : Asks v (Emission.warn f)
  | halt {α : Type} (f : Finding) : Asks v (Emission.halt f : Emission σ α)
  | resolve (r : Request) : Asks v (Emission.consult (v.resolve r))
  | range (pattern scope : String) (id : Int32) :
      Asks v (Emission.consult (v.range pattern scope id))

/-- From the memories of which `I` holds the resolver leads to such memories only, and its answers
do not tell them apart. -/
structure Resolver.Indifferent (v : Resolver σ) (I : σ → Prop) : Prop where
  resolve {m : σ} (r : Request) (hm : I m) : I (v.resolve r m).2
  range {m : σ} (pattern scope : String) (id : Int32) (hm : I m) :
    I (v.range pattern scope id m).2
  answer {m m' : σ} (r : Request) (hm : I m) (hm' : I m') :
    (v.resolve r m').1 = (v.resolve r m).1
  family {m m' : σ} (pattern scope : String) (id : Int32) (hm : I m) (hm' : I m') :
    (v.range pattern scope id m').1 = (v.range pattern scope id m).1

/-! ## Loops and choices -/

namespace Emission.Asks

variable {v : Resolver σ} {α β : Type}

theorem emit (r : Rung) : Asks v (Emission.emit r) := emitAll [r]

theorem ite {p : Prop} [Decidable p] {x y : Emission σ α} (hx : Asks v x) (hy : Asks v y) :
    Asks v (if p then x else y) := by
  split
  · exact hx
  · exact hy

theorem mapM {f : α → Emission σ β} (hf : ∀ a, Asks v (f a)) (xs : List α) :
    Asks v (xs.mapM f) := by
  induction xs with
  | nil => exact pure []
  | cons a rest ih =>
    rw [List.mapM_cons]
    exact (hf a).bind fun b => ih.bind fun bs => pure (b :: bs)

theorem forM {f : α → Emission σ Unit} (hf : ∀ a, Asks v (f a)) (xs : List α) :
    Asks v (xs.forM f) := by
  induction xs with
  | nil => exact pure ()
  | cons a rest ih => exact (hf a).bind fun _ => ih

theorem foldlM {f : β → α → Emission σ β} (hf : ∀ b a, Asks v (f b a)) (xs : List α) (b : β) :
    Asks v (xs.foldlM f b) := by
  induction xs generalizing b with
  | nil => exact pure b
  | cons a rest ih =>
    rw [List.foldlM_cons]
    exact (hf b a).bind fun c => ih c

/-! ## Runs from different memories -/

variable {x : Emission σ α} {f : α → Emission σ β} {m m' : σ}

/-- Where the answers do not tell memories apart, the outcome does not either. -/
theorem agrees {I : σ → Prop} (alike : v.Indifferent I) (h : Asks v x) (hm : I m) (hm' : I m') :
    I (x.run m).memory ∧ x.run m' = { x.run m with memory := (x.run m').memory } := by
  induction h generalizing m m' with
  | pure a => exact ⟨hm, rfl⟩
  | @bind _ _ x f _ _ ihx ihf =>
    -- the first part has the same result from both memories, so the same second part follows
    obtain ⟨kept, here⟩ := ihx hm hm'
    obtain ⟨kept', _⟩ := ihx hm' hm
    cases result : (x.run m).result with
    | ok a =>
      obtain ⟨after, there⟩ := ihf a kept kept'
      have result' : (x.run m').result = .ok a := by rw [here]; exact result
      rw [run_bind_ok result, run_bind_ok result']
      refine ⟨after, ?_⟩
      rw [here, there]
    | error e =>
      have result' : (x.run m').result = .error e := by rw [here]; exact result
      rw [run_bind_error result, run_bind_error result']
      refine ⟨kept, ?_⟩
      rw [here]
  | emitAll rungs => exact ⟨hm, rfl⟩
  | warn f => exact ⟨hm, rfl⟩
  | halt f => exact ⟨hm, rfl⟩
  | resolve r =>
    refine ⟨alike.resolve r hm, ?_⟩
    rw [run_consult, run_consult, alike.answer r hm hm']
  | range pattern scope id =>
    refine ⟨alike.range pattern scope id hm, ?_⟩
    rw [run_consult, run_consult, alike.family pattern scope id hm hm']

end Emission.Asks

/-! ## Lookups -/

namespace Context

variable (c : Context σ)

theorem asks_block {ρ : Type} [Role ρ] (owner : Owner) (roles : List ρ) :
    Asks c.resolver (c.block owner roles) := by
  unfold block
  split
  · exact .halt _
  · exact .ite (.halt _) (.ite (.pure _) (.halt _))

theorem asks_resolveMember (family : List IoPoint) (r : Request) :
    Asks c.resolver (c.resolveMember family r) := by
  unfold resolveMember
  split
  · exact .pure _
  · exact .resolve r

theorem asks_resolvePoints (base : Request) (count : Option UInt32) :
    Asks c.resolver (c.resolvePoints base count) :=
  .ite (.bind (.resolve base) fun _ => .pure _) <|
    .bind (.range _ _ _) fun family =>
      .mapM (fun _ => .bind (c.asks_resolveMember family _) fun _ => .pure _) _

theorem asks_pointContact (negated : Bool) (point : String × Option String) :
    Asks c.resolver (c.pointContact negated point) := by
  unfold pointContact
  split
  · exact .pure _
  · exact .bind (.warn _) fun _ => .pure _

theorem asks_sensors (owner : Owner) (name : String) (count : Option UInt32) (scope : String) :
    Asks c.resolver (c.sensors owner name count scope) := by
  rw [sensors_eq]
  exact .ite (.pure _) <| .bind (c.asks_resolvePoints _ count) fun points =>
    .mapM (c.asks_pointContact _) points

end Context

/-! ## Operations -/

namespace Sequencer

variable (s : Sequencer σ)

theorem asks_optionalDelay (category : TimerCategory) (source target : OperationRole) :
    Asks s.context.resolver (s.optionalDelay category source target) := by
  unfold optionalDelay
  split
  · exact .emitAll _
  · exact .emit _
  · exact .bind (.warn _) fun _ => .emit _

theorem asks_resetGate : Asks s.context.resolver s.resetGate := by
  refine .bind (.mapM (fun detail => ?_) _) fun _ => .emit _
  unfold activeDetail
  split
  · exact .pure _
  · exact .bind (.warn _) fun _ => .pure _

theorem asks_startLatch : Asks s.context.resolver s.startLatch := by
  unfold startLatch
  split
  · exact .bind (s.context.asks_sensors _ _ _ _) fun _ => .emit _
  · exact .bind (.pure _) fun _ => .emit _

theorem asks_startConfirmed : Asks s.context.resolver s.startConfirmed := by
  unfold startConfirmed
  split
  · exact .halt _
  · exact .bind (s.context.asks_sensors _ _ _ _) fun _ => .emit _

theorem asks_speedStep (previous : OperationRole) (step : Step) :
    Asks s.context.resolver (s.speedStep previous step) := by
  unfold speedStep
  split
  · exact .halt _
  · split
    · exact .halt _
    · exact .bind (.warn _) fun _ => .pure _
    · exact .bind (s.context.asks_sensors _ _ _ _) fun _ => .bind (.emitAll _) fun _ => .pure _

theorem asks_finishDetected (previous : OperationRole) :
    Asks s.context.resolver (s.finishDetected previous) := by
  unfold finishDetected
  split
  · exact .halt _
  · exact .bind (s.context.asks_sensors _ _ _ _) fun _ => .emit _

theorem asks_deepSeat : Asks s.context.resolver s.deepSeat := by
  unfold deepSeat
  split
  · exact .bind (.emitAll _) fun _ => .pure _
  · exact .pure _
  · exact .bind (.warn _) fun _ => .pure _

theorem asks_sequence : Asks s.context.resolver s.sequence := by
  rw [sequence_eq]
  refine .bind s.asks_resetGate fun _ => .bind (.ite (.emit _) (.pure _)) fun _ => ?_
  refine .bind s.asks_startLatch fun _ => .bind (.ite (.emit _) (.pure _)) fun _ => ?_
  refine .bind (.emit _) fun _ => .bind (s.asks_optionalDelay _ _ _) fun _ => ?_
  refine .bind s.asks_startConfirmed fun _ => .bind (.ite (.emit _) (.pure _)) fun _ => ?_
  refine .bind (.foldlM s.asks_speedStep _ _) fun last => ?_
  refine .bind (s.asks_finishDetected last) fun _ => .bind s.asks_deepSeat fun source => ?_
  exact .bind (s.asks_optionalDelay _ _ _) fun _ => .emit _

end Sequencer

theorem Context.asks_operation (c : Context σ) (o : Operation) :
    Asks c.resolver (c.operation o) := by
  unfold operation
  split
  · exact .halt _
  · refine .bind (c.asks_block _ _) fun b => .bind ?_ fun scope =>
      Sequencer.asks_sequence ⟨c, o, _, b, scope⟩
    unfold operationScope
    split
    · exact .pure _
    · exact .bind (.warn _) fun _ => .pure _

/-! ## Cylinders -/

namespace Drive

variable (d : Drive σ)

theorem asks_retain (motions : List Motion) (opposite target : CylinderRole) :
    Asks d.context.resolver (d.retain motions opposite target) := by
  unfold retain
  split
  · exact .pure _
  · exact .bind (.emit _) fun _ => .pure _

theorem asks_outputs (output : String) (use : OutputUse) :
    Asks d.context.resolver (d.outputs output use) := by
  refine .bind (d.context.asks_resolvePoints _ _) fun points =>
    .bind (.mapM (fun point => ?_) points) fun _ => .pure _
  unfold foundOutput
  split
  · exact .pure _
  · exact .bind (.warn _) fun _ => .pure _

theorem asks_coil (command : CylinderRole) (hold : Option CylinderRole)
    (interlocks : List Contact) (addresses : List String) :
    Asks d.context.resolver (d.coil command hold interlocks addresses) := by
  unfold coil
  split
  · exact .pure _
  · exact .emit _

theorem asks_speedDevice : Asks d.context.resolver d.speedDevice := by
  unfold speedDevice
  split
  · exact .pure _
  · exact .halt _

theorem asks_motionMoves {v : Resolver σ} (word : String) (m : Motion) :
    Asks v (motionMoves word m) := by
  rw [motionMoves_eq]
  refine .bind ?_ fun _ => .forM (fun step => ?_) _
  · split
    · exact .emit _
    · exact .pure _
  · unfold stepMove
    split
    · exact .emit _
    · exact .warn _

theorem asks_speedMoves (word : String) : Asks d.context.resolver (d.speedMoves word) :=
  .bind (.forM (asks_motionMoves word) _) fun _ => .emit _

theorem asks_singleValve : Asks d.context.resolver d.singleValve :=
  .bind (.emitAll _) fun _ => .bind (d.asks_retain _ _ _) fun _ =>
    .bind (d.asks_outputs _ _) fun _ => d.asks_coil _ _ _ _

theorem asks_doubleCoils : Asks d.context.resolver d.doubleCoils :=
  .bind (d.asks_retain _ _ _) fun _ => .bind (d.asks_retain _ _ _) fun _ =>
    .bind (d.asks_outputs _ _) fun _ => .bind (d.asks_outputs _ _) fun _ =>
      .bind (d.asks_coil _ _ _ _) fun _ => d.asks_coil _ _ _ _

theorem asks_doubleValve : Asks d.context.resolver d.doubleValve :=
  .bind (.emitAll _) fun _ => d.asks_doubleCoils

theorem asks_flowValve : Asks d.context.resolver d.flowValve :=
  .bind d.asks_speedDevice fun word => .bind (.emitAll _) fun _ =>
    .bind d.asks_doubleCoils fun _ => d.asks_speedMoves word

theorem asks_forwardReverse : Asks d.context.resolver d.forwardReverse := by
  refine .bind (d.asks_outputs _ _) fun _ => .bind ?_ fun _ =>
    .bind (d.asks_coil _ _ _ _) fun _ => d.asks_coil _ _ _ _
  exact .ite (.bind (.resolve _) fun _ => .pure _) (d.asks_outputs _ _)

theorem asks_motor : Asks d.context.resolver d.motor :=
  .bind (.emitAll _) fun _ => d.asks_forwardReverse

theorem asks_inverter : Asks d.context.resolver d.inverter := by
  refine .bind d.asks_speedDevice fun word => .bind (.emitAll _) fun _ =>
    .bind d.asks_forwardReverse fun _ => .bind (d.asks_speedMoves word) fun _ => ?_
  unfold deceleration
  split
  · exact .emitAll _
  · exact .warn _
  · exact .warn _

theorem asks_servoMoves {v : Resolver σ} (word : String) (next : Option String) (m : Motion) :
    Asks v (servoMoves word next m) := by
  refine .bind ?_ fun _ => ?_
  · unfold positionMove
    split
    · exact .emit _
    · exact .warn _
  · split
    · exact asks_motionMoves _ m
    · exact .pure _

theorem asks_jog (output : String) (role : CylinderRole) :
    Asks d.context.resolver (d.jog output role) := by
  refine .bind (.resolve _) fun found => ?_
  split
  · exact .emit _
  · exact .pure _

theorem asks_servo : Asks d.context.resolver d.servo := by
  refine .bind d.asks_speedDevice fun word => .bind (.emitAll _) fun _ => ?_
  refine .bind (.emit _) fun _ => .bind ?_ fun next => ?_
  · unfold speedWord
    split
    · exact .pure _
    · exact .bind (.warn _) fun _ => .pure _
  · refine .bind (.forM (asks_servoMoves word next) _) fun _ => ?_
    refine .bind (d.asks_outputs _ _) fun _ => .bind (d.asks_coil _ _ _ _) fun _ => ?_
    refine .bind (.emit _) fun _ => .bind (d.asks_outputs _ _) fun _ => ?_
    exact .bind (d.asks_coil _ _ _ _) fun _ => .bind (d.asks_jog _ _) fun _ => d.asks_jog _ _

theorem asks_output (k : DriveClass) : Asks d.context.resolver (d.output k) := by
  cases k with
  | singleValve => exact d.asks_singleValve
  | doubleValve => exact d.asks_doubleValve
  | motor => exact d.asks_motor
  | flowValve => exact d.asks_flowValve
  | servo => exact d.asks_servo
  | inverter => exact d.asks_inverter

end Drive

theorem Context.asks_cylinder (c : Context σ) (cy : Cylinder) :
    Asks c.resolver (c.cylinder cy) := by
  unfold cylinder
  split
  · exact .halt _
  · refine .bind (c.asks_block _ _) fun b => .bind (.forM (fun m => ?_) _) fun _ =>
      .bind (.bind (.forM Asks.warn _) fun _ => .pure _) fun manual =>
        Drive.asks_output ⟨c, cy, b, _, manual⟩ _
    unfold checkDirection
    split
    · exact .pure _
    · exact .warn _

/-! ## Processes and details -/

theorem Cycle.asks_cycle {v : Resolver σ} (y : Cycle σ) : Asks v y.cycle := by
  refine .bind (.emit _) fun _ => .bind ?_ fun _ => .bind (.emit _) fun _ => .emitAll _
  unfold running
  split
  · exact .emit _
  · exact .emit _
  · exact .emitAll _
  · exact .emit _
  · unfold interlockWait
    split
    · exact .emitAll _
    · exact .bind (.warn _) fun _ => .emit _
    · exact .bind (.warn _) fun _ => .emit _

namespace Context

variable (c : Context σ)

theorem asks_process (p : Process) : Asks c.resolver (c.process p) := by
  unfold process
  split
  · exact .halt _
  · exact .bind (c.asks_block _ _) fun _ => Cycle.asks_cycle _

theorem asks_settledContact (d : Detail) : Asks c.resolver (c.settledContact d) := by
  unfold settledContact
  split
  · exact .pure _
  · split
    · exact .bind (.warn _) fun _ => .pure _
    · exact .pure _

theorem asks_detail (d : Detail) : Asks c.resolver (c.detail d) := by
  refine .ite (.bind (c.asks_block _ _) fun b => ?_) (.halt _)
  split
  · exact .halt _
  · exact .bind (.emit _) fun _ => .bind (.emit _) fun _ =>
      .bind (c.asks_settledContact d) fun _ => .emit _

theorem asks_entity (e : Entity) : Asks c.resolver (c.entity e) := by
  cases e with
  | operation o => exact c.asks_operation o
  | cylinder cy => exact c.asks_cylinder cy
  | process p => exact c.asks_process p
  | detail d => exact c.asks_detail d

end Context

end Rungs
