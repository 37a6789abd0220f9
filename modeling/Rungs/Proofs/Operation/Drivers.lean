import Rungs.Proofs.Drivers
import Rungs.Proofs.Operation.Confirmation

/-! What the rungs of an operation drive: one after the other, each by one command, the bits of the
roles that the operation uses. A sequence that stops midway has driven the first of them. -/

namespace Rungs

/-- Starts and completions of a motion are pulses. -/
def OperationRole.coil : OperationRole → Command
  | .positioningStart | .completion => .pls
  | _ => .out

def OperationRole.coils (role : OperationRole) : List Command := [role.coil]

/-- All roles in the order in which a sequence comes to them. -/
def OperationRole.sequence : List OperationRole :=
  .resetGate :: .hold :: .startLatch :: .positioningStart :: .runEnable :: .startDelay ::
    .startConfirmed :: .positioningBusy :: ((List.finRange 4).map .speedStep ++
      [.finishDetected, .deepSeat, .stableGate, .completion])

namespace Sequencer

open Emission

variable {σ : Type} (s : Sequencer σ)

/-- A role that only some templates have. -/
def optional (p : Bool) (role : OperationRole) : List OperationRole := if p then [role] else []

/-- The roles that the sequence drives, in order. -/
def driven : List OperationRole :=
  .resetGate :: (optional (s.template == .retention) .hold ++
    .startLatch :: (optional s.template.isPositioning .positioningStart ++
      .runEnable :: .startDelay :: .startConfirmed ::
        (optional s.template.isPositioning .positioningBusy ++
          (s.timedSteps s.template.steps ++ s.closing))))

def drivenBits (roles : List OperationRole) : List (String × Command) :=
  s.block.drives OperationRole.coils roles

/-- So far the rungs drive what the roles to come leave over. -/
def Driven (coming : List OperationRole) (rungs : List Rung) : Prop :=
  drives rungs ++ s.drivenBits coming = s.drivenBits s.driven

/-- The rungs drive the first of what the whole sequence does. -/
def DrivesFirst (rungs : List Rung) : Prop := drives rungs <+: s.drivenBits s.driven

variable {s} {roles rest : List OperationRole} {role source target : OperationRole}
  {rungs : List Rung} {m : σ}

theorem Driven.first (h : s.Driven rest rungs) : s.DrivesFirst rungs := ⟨s.drivenBits rest, h⟩

theorem drivenBits_append : s.drivenBits (roles ++ rest) = s.drivenBits roles ++ s.drivenBits rest :=
  Block.drives_append rest

theorem drivenBits_singleton : s.drivenBits [role] = [(s.bit role, role.coil)] := rfl

theorem Driven.append (roles : List OperationRole) {new : List Rung}
    (h : s.Driven (roles ++ rest) rungs) (drive : drives new = s.drivenBits roles) :
    s.Driven rest (rungs ++ new) := by
  rw [Driven, drives_append, drive, List.append_assoc, ← drivenBits_append]
  exact h

/-! ## What each part drives -/

theorem drives_latch (source : Contact) (conditions : List Contact) (target : OperationRole)
    (coil : target.coil = .out) :
    drives [s.latch source conditions target] = s.drivenBits [target] := by
  have only : (s.latch source conditions target).actions = [.out (s.bit target)] := by
    rw [latch, Rung.actions_start, List.filterMap_append, Rung.action?_series]
    rfl
  rw [drivenBits_singleton, coil, drives_cons, only]
  rfl

theorem drives_stepRungs (last : OperationRole) (conditions : List Contact) (t : Timer)
    (step : Step) : drives (s.stepRungs last conditions t (.speedStep step)) =
      s.drivenBits [.speedStep step] := by
  have latched := s.drives_latch (.plain (Device.timer t.number)) [] (.speedStep step) rfl
  have timed : (Rung.start (s.contact last) (conditions.map .series)
      (.delay t.number t.preset)).actions.filterMap Action.drive? = [] := by
    rw [Rung.actions_start, Rung.action?_series]
    rfl
  rw [stepRungs, drives_cons, timed, latched]
  rfl

theorem drives_timerRungs (t : Timer) (source : String) (target : OperationRole)
    (coil : target.coil = .out) :
    drives (timerRungs t source (s.bit target)) = s.drivenBits [target] := by
  rw [drivenBits_singleton, coil]
  rfl

theorem drives_optionalDelay (category : TimerCategory) (source target : OperationRole)
    (coil : target.coil = .out) (m : σ) :
    drives ((s.optionalDelay category source target).run m).rungs = s.drivenBits [target] := by
  unfold optionalDelay
  split
  next t found => exact drives_timerRungs t _ target coil
  all_goals
    rw [drivenBits_singleton, coil]
    rfl

theorem drives_startDelay (m : σ) :
    drives (s.startDelay.run m).rungs = s.drivenBits [.startDelay] :=
  drives_optionalDelay _ _ _ rfl m

theorem drives_stableGate (source : OperationRole) (m : σ) :
    drives ((s.stableGate source).run m).rungs = s.drivenBits [.stableGate] :=
  drives_optionalDelay _ _ _ rfl m

theorem drives_resetGate (m : σ) : drives (s.resetGate.run m).rungs = s.drivenBits [.resetGate] := by
  rw [(s.returns_resetGate m).rungs, drives_cons, Rung.actions_under, Rung.actions_anyOf]
  rfl

theorem drives_runEnable (m : σ) : drives (s.runEnable.run m).rungs = s.drivenBits [.runEnable] := by
  have written : (s.runEnable.run m).rungs = [Rung.start (s.contact .startLatch)
      ((if s.template = .retention then [Link.parallel (s.contact .hold)] else []) ++
        if s.template.stopsAtFinish then [Link.series (s.inverted .finishDetected)] else [])
      (.out (s.bit .runEnable))] := rfl
  rw [written, drives_cons, Rung.actions_start, List.filterMap_append]
  split <;> split <;> rfl

/-! ## One part after the other -/

/-- A part that always drives the same. -/
theorem leads_driven (roles : List OperationRole) {x : Emission σ Unit}
    (drive : ∀ m, drives (x.run m).rungs = s.drivenBits roles) :
    Leads (s.Driven (roles ++ rest)) x (fun _ => s.Driven rest) s.DrivesFirst :=
  Leads.append drive (fun _ _ h => h.append roles) fun _ h => h.first

theorem leads_optional {p : Prop} [Decidable p] {q : Bool} {x : Emission σ Unit} (same : q = decide p)
    (drive : ∀ m, drives (x.run m).rungs = s.drivenBits [role]) :
    Leads (s.Driven (optional q role ++ rest)) (if p then x else pure ())
      (fun _ => s.Driven rest) s.DrivesFirst := by
  by_cases holds : p
  · have listed : optional q role = [role] := by simp [optional, same, holds]
    rw [if_pos holds, listed]
    exact leads_driven [role] drive
  · have none : optional q role = [] := by simp [optional, same, holds]
    rw [if_neg holds, none]
    exact Leads.pure fun _ h => h

/-- Looking sensors up drives nothing. -/
theorem leads_lookup {name : String} {count : Option UInt32} :
    Leads (s.Driven rest) (s.sensors name count) (fun _ => s.Driven rest) s.DrivesFirst :=
  Leads.silent (s.rungs_sensors name count) fun _ h => h.first

theorem leads_latched {source : Contact} {conditions : List Contact} (coil : target.coil = .out) :
    Leads (s.Driven (target :: rest)) (.emit (s.latch source conditions target) : Emission σ Unit)
      (fun _ => s.Driven rest) s.DrivesFirst :=
  Leads.emit fun _ h => Driven.append [target] h (s.drives_latch _ _ _ coil)

theorem drives_startLatch :
    Leads (s.Driven (.startLatch :: rest)) s.startLatch (fun _ => s.Driven rest) s.DrivesFirst := by
  rw [startLatch_eq]
  refine Leads.bind ?_ fun control => leads_latched rfl
  unfold controlContacts
  split
  · exact leads_lookup
  · exact Leads.pure fun _ h => h

theorem drives_startConfirmed :
    Leads (s.Driven (.startConfirmed :: rest)) s.startConfirmed
      (fun _ => s.Driven rest) s.DrivesFirst := by
  unfold startConfirmed
  split
  next => exact Leads.halt fun _ h => h.first
  next => exact Leads.bind leads_lookup fun contacts => leads_latched rfl

/-- A speed change point drives its step if it has a timer of its own. -/
theorem drives_speedStep (step : Step) (steps : List Step) (last : OperationRole) :
    Leads (s.Driven (s.timedSteps (step :: steps) ++ rest)) (s.speedStep last step)
      (fun _ => s.Driven (s.timedSteps steps ++ rest)) s.DrivesFirst := by
  unfold speedStep
  split
  next => exact Leads.halt fun _ h => h.first
  next name configured =>
    split
    next => exact Leads.halt fun _ h => h.first
    next count several =>
      have skipped : s.timedSteps (step :: steps) = s.timedSteps steps := by
        simp [timedSteps, several, TimerLookup.isFound]
      rw [skipped]
      exact Leads.warn.bind fun _ => Leads.pure fun _ h => h
    next t found =>
      have timed : s.timedSteps (step :: steps) = .speedStep step :: s.timedSteps steps := by
        simp [timedSteps, found, TimerLookup.isFound]
      rw [timed]
      refine Leads.bind leads_lookup fun contacts => ?_
      refine Leads.bind (Leads.emitAll fun _ h => ?_) fun _ => Leads.pure fun _ h => h
      exact Driven.append [.speedStep step] h (drives_stepRungs last contacts t step)

theorem drives_steps (steps : List Step) (last : OperationRole) :
    Leads (s.Driven (s.timedSteps steps ++ rest)) (steps.foldlM s.speedStep last)
      (fun _ => s.Driven rest) s.DrivesFirst :=
  Leads.foldlM (J := fun steps _ => s.Driven (s.timedSteps steps ++ rest)) drives_speedStep steps
    last

theorem drives_finishDetected (last : OperationRole) :
    Leads (s.Driven (.finishDetected :: rest)) (s.finishDetected last)
      (fun _ => s.Driven rest) s.DrivesFirst := by
  unfold finishDetected
  split
  next => exact Leads.halt fun _ h => h.first
  next => exact Leads.bind leads_lookup fun contacts => leads_latched rfl

theorem drives_deepSeat :
    Leads (s.Driven (s.seat ++ rest)) s.deepSeat (fun _ => s.Driven rest) s.DrivesFirst := by
  unfold deepSeat
  split
  next t found =>
    have seated : s.seat = [.deepSeat] := by simp [seat, found, TimerLookup.isFound]
    rw [seated]
    refine Leads.bind (Leads.emitAll fun _ h => ?_) fun _ => Leads.pure fun _ h => h
    exact Driven.append [.deepSeat] h (drives_timerRungs t _ .deepSeat rfl)
  next missing =>
    have plain : s.seat = [] := by simp [seat, missing, TimerLookup.isFound]
    rw [plain]
    exact Leads.pure fun _ h => h
  next count several =>
    have plain : s.seat = [] := by simp [seat, several, TimerLookup.isFound]
    rw [plain]
    exact Leads.warn.bind fun _ => Leads.pure fun _ h => h

/-- Wherever the sequence stops, it has driven the first of its roles, and at its end all. -/
theorem drives_sequence : Leads (fun rungs => rungs = []) s.sequence
    (fun _ => s.Driven []) s.DrivesFirst := by
  have start (rungs : List Rung) (none : rungs = []) : s.Driven s.driven rungs := by
    rw [none]
    rfl
  have single {role : OperationRole} {x : Emission σ Unit}
      (drive : ∀ m, drives (x.run m).rungs = s.drivenBits [role]) {rest : List OperationRole} :
      Leads (s.Driven (role :: rest)) x (fun _ => s.Driven rest) s.DrivesFirst :=
    leads_driven [role] drive
  rw [sequence_eq]
  refine ((single drives_resetGate).imp start).bind fun _ => ?_
  refine (leads_optional rfl fun _ => rfl).bind fun _ => ?_
  refine drives_startLatch.bind fun _ => ?_
  refine (leads_optional (by simp) fun _ => rfl).bind fun _ => ?_
  refine (single drives_runEnable).bind fun _ => ?_
  refine (single drives_startDelay).bind fun _ => ?_
  refine drives_startConfirmed.bind fun _ => ?_
  refine (leads_optional (by simp) fun _ => rfl).bind fun _ => ?_
  refine (drives_steps s.template.steps .startConfirmed).bind fun last => ?_
  refine (drives_finishDetected last).bind fun _ => drives_deepSeat.bind fun source => ?_
  refine (single (drives_stableGate source)).bind fun _ => ?_
  exact single fun _ => rfl

theorem drives_of_ok (ok : (s.sequence.run m).result = .ok ()) :
    drives (s.sequence.run m).rungs = s.drivenBits s.driven := by
  have whole : s.Driven [] (s.sequence.run m).rungs := drives_sequence.ends [] m () rfl ok
  simpa [Driven, drivenBits, Block.drives] using whole

theorem drivesFirst_sequence (s : Sequencer σ) (m : σ) : s.DrivesFirst (s.sequence.run m).rungs := by
  cases h : (s.sequence.run m).result with
  | ok => exact (drives_sequence.ends [] m () rfl h).first
  | error f => exact drives_sequence.stops [] m f rfl h

/-! ## The roles driven -/

theorem sublist_optional {p : Bool} {some all : List OperationRole} (h : some.Sublist all) :
    (optional p role ++ some).Sublist (role :: all) := by
  cases p
  · exact h.cons role
  · exact h.cons_cons role

theorem driven_nodup : s.driven.Nodup := by
  have all : OperationRole.sequence.Nodup := by decide
  have steps : (s.timedSteps s.template.steps).Sublist ((List.finRange 4).map .speedStep) :=
    (List.filter_sublist.trans (List.take_sublist _ _)).map OperationRole.speedStep
  have closing : s.closing.Sublist [.finishDetected, .deepSeat, .stableGate, .completion] := by
    refine List.Sublist.cons_cons _ ?_
    unfold seat
    split
    · exact List.Sublist.refl _
    · exact List.sublist_cons_self _ _
  have whole : s.driven.Sublist OperationRole.sequence := by
    unfold driven OperationRole.sequence
    refine List.Sublist.cons_cons _ (sublist_optional (List.Sublist.cons_cons _ ?_))
    refine sublist_optional (List.Sublist.cons_cons _ (List.Sublist.cons_cons _ ?_))
    exact List.Sublist.cons_cons _ (sublist_optional (steps.append closing))
  exact all.sublist whole

/-- The sequence drives the roles that it uses. -/
theorem mem_driven : role ∈ s.driven ↔ s.Uses role := by
  constructor
  · intro mem
    simp only [driven, closing, optional, seat, timedSteps, List.mem_cons, List.mem_append,
      List.mem_map, List.mem_filter, List.not_mem_nil, or_false, List.mem_ite_nil_right,
      beq_iff_eq] at mem
    rcases mem with rfl | ⟨held, rfl⟩ | rfl | ⟨moves, rfl⟩ | rfl | rfl | rfl | ⟨moves, rfl⟩ |
      ⟨step, ⟨listed, found⟩, rfl⟩ | rfl | ⟨seated, rfl⟩ | rfl | rfl
    · exact s.uses_common _ rfl
    · exact s.uses_hold held
    · exact s.uses_common _ rfl
    · exact s.uses_positioning moves (.inl rfl)
    · exact s.uses_common _ rfl
    · exact s.uses_common _ rfl
    · exact s.uses_common _ rfl
    · exact s.uses_positioning moves (.inr rfl)
    · obtain ⟨t, found⟩ := TimerLookup.isFound_iff.mp found
      exact s.uses_speedStep listed found
    · exact s.uses_common _ rfl
    · obtain ⟨t, found⟩ := TimerLookup.isFound_iff.mp seated
      exact s.uses_deepSeat found
    · exact s.uses_common _ rfl
    · exact s.uses_common _ rfl
  · intro uses
    have mem := uses.mem
    cases role with
    | speedStep step =>
      have listed : step ∈ s.template.steps := by
        simpa [OperationTemplate.roles, OperationTemplate.commonRoles] using mem
      have found := TimerLookup.isFound_iff.mpr (uses.timed step rfl)
      simp [driven, optional, timedSteps, listed, found]
    | deepSeat =>
      have found := TimerLookup.isFound_iff.mpr (uses.seated rfl)
      simp [driven, optional, closing, seat, found]
    | hold | positioningStart | positioningBusy =>
      simpa [driven, optional, closing, seat, timedSteps, OperationTemplate.roles,
        OperationTemplate.commonRoles] using mem
    | _ => simp [driven, optional, closing]

theorem emits_speedStep_timed (last : OperationRole) (step : Step) :
    (s.speedStep last step).Emits (fun _ => True) (fun _ => True) fun _ =>
      s.timer (.speedChange step) ≠ .missing := by
  unfold speedStep
  split
  next => exact Emits.halt
  next =>
    split
    next => exact Emits.halt
    next several =>
      have timed : s.timer (.speedChange step) ≠ .missing := by simp [several]
      exact (Emits.any _).imp fun _ _ => timed
    next found =>
      have timed : s.timer (.speedChange step) ≠ .missing := by simp [found]
      exact (Emits.any _).imp fun _ _ => timed

/-- A sequence that comes to its end has a timer for each of its speed change points. -/
theorem timed_of_ok (ok : (s.sequence.run m).result = .ok ()) :
    ∀ step ∈ s.template.steps, s.timer (.speedChange step) ≠ .missing := by
  have emits : s.sequence.Emits (fun _ => True) (fun _ => True) fun _ =>
      ∀ step ∈ s.template.steps, s.timer (.speedChange step) ≠ .missing := by
    rw [sequence_eq]
    refine (Emits.any _).bind fun _ _ => (Emits.any _).bind fun _ _ => ?_
    refine (Emits.any _).bind fun _ _ => (Emits.any _).bind fun _ _ => ?_
    refine (Emits.any _).bind fun _ _ => (Emits.any _).bind fun _ _ => ?_
    refine (Emits.any _).bind fun _ _ => (Emits.any _).bind fun _ _ => ?_
    refine (Emits.foldlM_each fun last step _ => emits_speedStep_timed last step).bind
      fun _ timed => ?_
    exact (Emits.any _).imp fun _ _ => timed
  exact emits.answer trivial ok

end Sequencer

/-- An operation is stopped before its first rung, or its rungs are those of its sequence. -/
theorem Context.operation_cases {σ : Type} (c : Context σ) (o : Operation) (m : σ) :
    (((c.operation o).run m).rungs = [] ∧ ∃ f, ((c.operation o).run m).result = .error f) ∨
      ∃ t b scope, OperationTemplate.ofCode? o.categoryCode = some t ∧ c.Fits o.owner t.roles b ∧
        ((c.operation o).run m).rungs = ((Sequencer.mk c o t b scope).sequence.run m).rungs ∧
        ((c.operation o).run m).result = ((Sequencer.mk c o t b scope).sequence.run m).result := by
  rw [operation_eq]
  rcases c.onSequencer_cases o m with ⟨f, stopped⟩ | ⟨t, b, scope, known, fits, runs⟩
  · rw [stopped]
    exact .inl ⟨rfl, f, rfl⟩
  · obtain ⟨result, rungs⟩ := runs (·.sequence)
    exact .inr ⟨t, b, scope, known, fits, rungs, result⟩

end Rungs
