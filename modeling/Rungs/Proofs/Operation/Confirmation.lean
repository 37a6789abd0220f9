import Rungs.IoTable
import Rungs.Proofs.Operation.Links
import Rungs.Proofs.Operation.Vocabulary

/-! The confirmations of an operation come in order: whatever was scanned, and whatever happened to
the devices around the operation, a later confirmation is never on without all the earlier ones. The
sequence is followed link by link. `Confirms` says of the rungs so far that one scan leaves the
confirmations up to the last link in order; a latched link also stays on with the gate, which is
what the next one needs where it is on by itself. -/

namespace Rungs

/-- All confirmations that an operation may give, in the order in which they come. -/
def OperationRole.confirmations : List OperationRole :=
  .resetGate :: .startConfirmed :: ((List.finRange 4).map .speedStep ++
    [.finishDetected, .deepSeat, .stableGate, .completion])

/-- Confirmations that an operation may do without. -/
def OperationRole.isOptional : OperationRole → Bool
  | .speedStep _ | .deepSeat => true
  | _ => false

namespace Sequencer

variable {σ : Type} (s : Sequencer σ)

/-- Whether the operation gives a confirmation, unless it stops before. -/
def gives : OperationRole → Bool
  | .speedStep step =>
    s.template.steps.contains step && (s.timer (.speedChange step)).isFound
  | .deepSeat => (s.timer .deepSeat).isFound
  | _ => true

/-- The confirmations of the operation in the order in which they come. -/
def chain : List OperationRole := OperationRole.confirmations.filter s.gives

/-- The speed steps among the given ones that are confirmed by a timer of their own. -/
def timedSteps (steps : List Step) : List OperationRole :=
  (steps.filter fun step => (s.timer (.speedChange step)).isFound).map .speedStep

/-- The deep seat, if the operation has a timer for it. -/
def seat : List OperationRole := if (s.timer .deepSeat).isFound then [.deepSeat] else []

/-- The confirmations from the finish on. -/
def closing : List OperationRole := .finishDetected :: (s.seat ++ [.stableGate, .completion])

/-- No confirmation of the list is on without all that stand before it. -/
def Ordered (roles : List OperationRole) (d : Devices) : Prop :=
  roles.Pairwise fun earlier later =>
    d.bit (s.bit later) = true → d.bit (s.bit earlier) = true

/-- The rungs confirm the chain up to `last`: a scan of them leaves that much in order and decides
on nothing of what is still to come. -/
structure Confirms (before : List OperationRole) (last : OperationRole)
    (coming : List OperationRole) (rungs : List Rung) : Prop where
  whole : before ++ last :: coming = s.chain
  spared : s.Clear rungs → ∀ role ∈ coming, ∀ r ∈ rungs, s.bit role ∉ r.targets
  ordered : s.Clear rungs → ∀ d e, s.Ordered s.chain d → Rung.AllScan rungs d e →
    s.Ordered (before ++ [last]) e

/-- The rungs confirm the chain up to some link. -/
def InOrder (rungs : List Rung) : Prop :=
  ∃ before last coming, s.Confirms before last coming rungs

/-- A link that is on stays on in a scan that finds or leaves the gate open. -/
def Stays (role : OperationRole) (rungs : List Rung) : Prop :=
  s.Clear rungs → ∀ d e, Rung.AllScan rungs d e → d.bit (s.bit role) = true →
    e.bit (s.bit .resetGate) = true → e.bit (s.bit role) = true

/-- The rungs confirm the chain up to `last`, which then stays on by itself. -/
structure Latched (before : List OperationRole) (last : OperationRole)
    (coming : List OperationRole) (rungs : List Rung) : Prop
    extends s.Confirms before last coming rungs where
  stays : s.Stays last rungs

variable {s}

theorem Confirms.inOrder {before coming : List OperationRole} {last : OperationRole}
    {rungs : List Rung} (h : s.Confirms before last coming rungs) : s.InOrder rungs :=
  ⟨before, last, coming, h⟩

theorem chain_nodup : s.chain.Nodup := by
  have all : OperationRole.confirmations.Nodup := by decide
  exact all.filter _

theorem filter_steps (t : OperationTemplate) :
    (List.finRange 4).filter (fun step => t.steps.contains step) = t.steps := by
  have table : ∀ n < 5, (List.finRange 4).filter
      (fun step => ((List.finRange 4).take n).contains step) = (List.finRange 4).take n := by
    decide
  exact table t.stepCount (Nat.lt_succ_of_le t.stepCount_le)

theorem chain_eq : s.chain =
    .resetGate :: .startConfirmed :: (s.timedSteps s.template.steps ++ s.closing) := by
  have steps : ((List.finRange 4).map OperationRole.speedStep).filter s.gives =
      s.timedSteps s.template.steps := by
    rw [List.filter_map, timedSteps]
    conv_rhs => rw [← filter_steps s.template, List.filter_filter]
    congr 2
    funext step
    exact Bool.and_comm _ _
  have closing : [OperationRole.finishDetected, .deepSeat, .stableGate,
      .completion].filter s.gives = s.closing := by
    unfold Sequencer.closing seat
    have seated : s.gives .deepSeat = (s.timer .deepSeat).isFound := rfl
    have finish : s.gives .finishDetected = true := rfl
    have stable : s.gives .stableGate = true := rfl
    have completion : s.gives .completion = true := rfl
    cases h : (s.timer .deepSeat).isFound <;>
      simp [seated, finish, stable, completion, h]
  have first : s.gives .resetGate = true := rfl
  have second : s.gives .startConfirmed = true := rfl
  rw [chain, OperationRole.confirmations, List.filter_cons_of_pos first,
    List.filter_cons_of_pos second, List.filter_append, steps, closing]

/-! ## Order -/

section Ordered

variable {d e f : Devices} {before coming : List OperationRole} {last next : OperationRole}

theorem Ordered.congr {roles : List OperationRole} (h : s.Ordered roles d)
    (same : ∀ role ∈ roles, e.bit (s.bit role) = d.bit (s.bit role)) : s.Ordered roles e := by
  refine List.Pairwise.imp_of_mem (fun {earlier later} first second implies on => ?_) h
  rw [same later second] at on
  rw [same earlier first]
  exact implies on

theorem Ordered.snoc (h : s.Ordered (before ++ [last]) d)
    (follows : d.bit (s.bit next) = true → d.bit (s.bit last) = true) :
    s.Ordered (before ++ [last] ++ [next]) d := by
  refine List.pairwise_append.mpr
    ⟨h, List.pairwise_singleton _ _, fun earlier mem later only on => ?_⟩
  rw [List.mem_singleton.mp only] at on
  rcases List.mem_append.mp mem with inside | inside
  · have implies := (List.pairwise_append.mp h).2.2 earlier inside last List.mem_cons_self
    exact implies (follows on)
  · rw [List.mem_singleton.mp inside]
    exact follows on

/-- What is still to come does not disturb the order while it is off. -/
theorem Ordered.of_off (h : s.Ordered (before ++ [last]) d)
    (off : ∀ role ∈ coming, d.bit (s.bit role) = false) :
    s.Ordered (before ++ last :: coming) d := by
  have off' : ∀ role ∈ coming, ¬d.bit (s.bit role) = true := fun role mem => by simp [off role mem]
  rw [← List.singleton_append, ← List.append_assoc]
  refine List.pairwise_append.mpr ⟨h, ?_, fun _ _ later mem on => absurd on (off' later mem)⟩
  exact List.pairwise_of_forall_mem_list fun _ _ later mem on => absurd on (off' later mem)

end Ordered

/-! ## One more link -/

section Extension

variable {before coming : List OperationRole} {last next : OperationRole} {old new : List Rung}

theorem Confirms.fresh (h : s.Confirms before last (next :: coming) old) :
    next ∉ coming ∧ ∀ role ∈ before ++ [last], role ≠ next := by
  have distinct := chain_nodup (s := s)
  rw [← h.whole, ← List.singleton_append, ← List.append_assoc, List.nodup_append] at distinct
  obtain ⟨_, tail, apart⟩ := distinct
  exact ⟨(List.nodup_cons.mp tail).1, fun role mem => apart role mem next List.mem_cons_self⟩

/-- In a state in order, the link that comes next is not on without the last one. -/
theorem Confirms.last_of_next {d : Devices} (h : s.Confirms before last (next :: coming) old)
    (order : s.Ordered s.chain d) (on : d.bit (s.bit next) = true) :
    d.bit (s.bit last) = true := by
  rw [Ordered, ← h.whole] at order
  have tail := (List.pairwise_append.mp order).2.1
  exact (List.pairwise_cons.mp tail).1 next List.mem_cons_self on

theorem Confirms.extend (h : s.Confirms before last (next :: coming) old)
    (drives : s.AllDrive next new)
    (follows : s.Clear (old ++ new) → ∀ d f e, s.Ordered s.chain d → Rung.AllScan old d f →
      Rung.AllScan new f e → e.bit (s.bit next) = true → f.bit (s.bit last) = true) :
    s.Confirms (before ++ [last]) next coming (old ++ new) where
  whole := by rw [← h.whole, List.append_assoc]; rfl
  spared clear role mem r inside := by
    have other : role ≠ next := fun same => h.fresh.1 (same ▸ mem)
    rcases List.mem_append.mp inside with inside | inside
    · exact h.spared clear.left role (List.mem_cons_of_mem next mem) r inside
    · exact spared_of_allDrive drives clear.right other r inside
  ordered clear d e order scan := by
    obtain ⟨f, first, second⟩ := Rung.allScan_append.mp scan
    have same : ∀ role ∈ before ++ [last], e.bit (s.bit role) = f.bit (s.bit role) :=
      fun role mem => frame_of_allDrive drives clear.right second (h.fresh.2 role mem)
    refine ((h.ordered clear.left d f order first).congr same).snoc fun on => ?_
    rw [same last (List.mem_append_right before List.mem_cons_self)]
    exact follows clear d f e order first second on

theorem Confirms.delay (h : s.Confirms before last (next :: coming) old)
    (delays : s.Delays last next new) :
    s.Confirms (before ++ [last]) next coming (old ++ new) :=
  h.extend delays.1 fun _ _ f e _ _ second on => delays.2 f e second on

/-- Rungs that confirm `next` after `last`, or hold it while the gate is on. -/
structure Latches (s : Sequencer σ) (last next : OperationRole) (rungs : List Rung) : Prop where
  drives : s.AllDrive next rungs
  follows : s.Clear rungs → ∀ d e, Rung.AllScan rungs d e → e.bit (s.bit next) = true →
    d.bit (s.bit last) = true ∨ d.bit (s.bit next) = true ∧ d.bit (s.bit .resetGate) = true
  holds : s.Clear rungs → ∀ d e, Rung.AllScan rungs d e → d.bit (s.bit next) = true →
    d.bit (s.bit .resetGate) = true → e.bit (s.bit next) = true

theorem Confirms.latch (h : s.Confirms before last (next :: coming) old)
    (stays : s.Stays last old) (latches : s.Latches last next new) :
    s.Confirms (before ++ [last]) next coming (old ++ new) := by
  refine h.extend latches.drives fun clear d f e order first second on => ?_
  rcases latches.follows clear.right f e second on with source | ⟨held, gate⟩
  · exact source
  · -- the link holds itself, so it was on before the scan, and so was the last one
    have kept : f.bit (s.bit next) = d.bit (s.bit next) :=
      first.frame (h.spared clear.left next List.mem_cons_self)
    rw [kept] at held
    exact stays clear.left d f first (h.last_of_next order held) gate

/-- A latch takes the chain one link further, and the new link stays on in its turn. -/
theorem Latched.latch (h : s.Latched before last (next :: coming) old)
    (latches : s.Latches last next new) (other : next ≠ .resetGate) :
    s.Latched (before ++ [last]) next coming (old ++ new) where
  toConfirms := h.toConfirms.latch h.stays latches
  stays clear d e scan on gate := by
    obtain ⟨f, first, second⟩ := Rung.allScan_append.mp scan
    have kept : f.bit (s.bit next) = d.bit (s.bit next) :=
      first.frame (h.spared clear.left next List.mem_cons_self)
    have shut : e.bit (s.bit .resetGate) = f.bit (s.bit .resetGate) :=
      frame_of_allDrive latches.drives clear.right second other.symm
    rw [← kept] at on
    rw [shut] at gate
    exact latches.holds clear.right f e second on gate

/-- Rungs that decide on a role outside the chain change nothing. -/
theorem Confirms.skip (h : s.Confirms before last coming old) {role : OperationRole}
    (drives : s.AllDrive role new) (outside : role ∉ s.chain) :
    s.Confirms before last coming (old ++ new) where
  whole := h.whole
  spared clear other mem r inside := by
    have listed : other ∈ s.chain := by
      rw [← h.whole]
      exact List.mem_append_right before (List.mem_cons_of_mem last mem)
    rcases List.mem_append.mp inside with inside | inside
    · exact h.spared clear.left other mem r inside
    · exact spared_of_allDrive drives clear.right (fun same => outside (same ▸ listed)) r inside
  ordered clear d e order scan := by
    obtain ⟨f, first, second⟩ := Rung.allScan_append.mp scan
    refine (h.ordered clear.left d f order first).congr fun other mem => ?_
    refine frame_of_allDrive drives clear.right second fun same => outside ?_
    rw [← same, ← h.whole, ← List.singleton_append, ← List.append_assoc]
    exact List.mem_append_left coming mem

theorem Stays.skip {link role : OperationRole} (h : s.Stays link old)
    (drives : s.AllDrive role new) (other : link ≠ role) (gate : .resetGate ≠ role) :
    s.Stays link (old ++ new) := by
  intro clear d e scan on open_
  obtain ⟨f, first, second⟩ := Rung.allScan_append.mp scan
  rw [frame_of_allDrive drives clear.right second gate] at open_
  rw [frame_of_allDrive drives clear.right second other]
  exact h clear.left d f first on open_

end Extension

/-! ## Groups of rungs -/

theorem bit_latch {source : Contact} {conditions : List Contact} {target : OperationRole}
    {d e : Devices} (scan : Rung.AllScan [s.latch source conditions target] d e) :
    e.bit (s.bit target) =
      ((source.reads d && conditions.all (·.reads d) || d.bit (s.bit target)) &&
        d.bit (s.bit .resetGate)) := by
  rw [Rung.allScan_single, scans_latch] at scan
  rw [scan, Devices.bit_setBit, if_pos rfl]

/-- A latch on the last link, or on another contact after the reset gate. -/
theorem latches_latch {source : OperationRole} {last next : OperationRole}
    {conditions : List Contact} (h : source = last ∨ last = .resetGate) :
    s.Latches last next [s.latch (s.contact source) conditions next] where
  drives r mem := List.mem_singleton.mp mem ▸ s.drivesOnly_latch _ _ next
  follows _ d e scan on := by
    rw [bit_latch scan, reads_contact] at on
    simp only [Bool.and_eq_true, Bool.or_eq_true] at on
    obtain ⟨⟨begun, _⟩ | held, gate⟩ := on
    · rcases h with rfl | rfl
      · exact .inl begun
      · exact .inl gate
    · exact .inr ⟨held, gate⟩
  holds _ d e scan on gate := by
    rw [bit_latch scan, on, gate]
    simp

/-- The rungs of a speed change point: its timer runs after the last link, and the step is latched
from the timer. -/
def stepRungs (s : Sequencer σ) (last : OperationRole) (conditions : List Contact) (t : Timer)
    (next : OperationRole) : List Rung :=
  [.start (s.contact last) (conditions.map .series) (.delay t.number t.preset),
   s.latch (.plain (Device.timer t.number)) [] next]

theorem clear_timer {last next role : OperationRole} {conditions : List Contact} {t : Timer}
    (clear : s.Clear (s.stepRungs last conditions t next)) :
    s.bit role ≠ Device.timer t.number := by
  intro same
  have inside : Action.delay t.number t.preset ∈ (Rung.start (s.contact last)
      (conditions.map .series) (.delay t.number t.preset)).actions :=
    List.mem_append_right _ List.mem_cons_self
  have runs : Device.timer t.number ∈ timersOf (streamRows (s.stepRungs last conditions t next)) :=
    Rung.mem_timersOf List.mem_cons_self inside
  rw [← same] at runs
  exact clear role runs

/-- After a scan of these rungs the timer is where it was let go, and the step is latched. -/
theorem bit_stepRungs {last next : OperationRole} {conditions : List Contact} {t : Timer}
    {d e : Devices} (clear : s.Clear (s.stepRungs last conditions t next))
    (scan : Rung.AllScan (s.stepRungs last conditions t next) d e) :
    ∃ free, e.bit (s.bit next) =
      ((d.bit (s.bit last) && conditions.all (·.reads d) && free || d.bit (s.bit next)) &&
        d.bit (s.bit .resetGate)) := by
  rw [stepRungs, Rung.allScan_cons] at scan
  obtain ⟨f, first, second⟩ := scan
  simp only [Rung.scans_start, Rung.linksRun_allSeries, Rung.linksRun_last, reads_contact,
    Action.run] at first
  obtain ⟨w, free, eq⟩ := first
  cases eq
  refine ⟨free, ?_⟩
  rw [bit_latch second, Devices.bit_setBit, Devices.bit_setBit, if_neg (clear_timer clear),
    if_neg (clear_timer clear)]
  simp

theorem latches_stepRungs {last next : OperationRole} {conditions : List Contact} {t : Timer} :
    s.Latches last next (s.stepRungs last conditions t next) where
  drives r mem := by
    simp only [stepRungs, List.mem_cons, List.not_mem_nil, or_false] at mem
    rcases mem with rfl | rfl
    · exact s.drivesOnly_delay _ conditions t next
    · exact s.drivesOnly_latch _ [] next
  follows clear d e scan on := by
    obtain ⟨free, eq⟩ := bit_stepRungs clear scan
    rw [eq] at on
    simp only [Bool.and_eq_true, Bool.or_eq_true] at on
    obtain ⟨⟨⟨begun, _⟩, _⟩ | held, gate⟩ := on
    · exact .inl begun
    · exact .inr ⟨held, gate⟩
  holds clear d e scan on gate := by
    obtain ⟨free, eq⟩ := bit_stepRungs clear scan
    rw [eq, on, gate]
    simp

/-! ## The sequence -/

open Emission

/-- The rungs of the reset gate begin the chain, whatever else is in them. -/
theorem latched_gate {rungs : List Rung} (drives : s.AllDrive .resetGate rungs) :
    s.Latched [] .resetGate (.startConfirmed :: (s.timedSteps s.template.steps ++ s.closing))
      rungs where
  whole := chain_eq.symm
  spared clear role mem := by
    have distinct := chain_nodup (s := s)
    rw [chain_eq, List.nodup_cons] at distinct
    exact spared_of_allDrive drives clear fun same => distinct.1 (same ▸ mem)
  ordered _ _ _ _ _ := List.pairwise_singleton _ _
  stays _ _ _ _ _ gate := gate

variable (s)

theorem allDrive_resetGate (m : σ) : s.AllDrive .resetGate (s.resetGate.run m).rungs := by
  have emits : s.resetGate.Emits (fun _ => True) (s.DrivesOnly .resetGate) fun _ => True := by
    refine (Emits.mapM (R := fun _ _ => True) fun detail _ => ?_).bind fun active _ =>
      Emits.emit ?_ trivial
    · unfold activeDetail
      split
      next => exact Emits.pure trivial
      next =>
        exact (Emits.warn (Q := fun _ => True) trivial).bind fun _ _ => Emits.pure trivial
    · intro a mem
      rw [Rung.actions_under, Rung.actions_anyOf] at mem
      exact .inl (congrArg Action.target? (List.mem_singleton.mp mem))
  exact fun r mem => emits.rung trivial mem

/-- A rung of contacts around one coil. -/
theorem drivesOnly_coil {c : Contact} {links : List Link} {role : OperationRole}
    (contacts : links.filterMap Link.action? = []) :
    s.DrivesOnly role (.start c links (.out (s.bit role))) := by
  intro a mem
  rw [Rung.actions_start, contacts, List.nil_append, List.mem_singleton] at mem
  exact .inl (congrArg Action.target? mem)

theorem allDrive_hold (m : σ) : s.AllDrive .hold (s.hold.run m).rungs :=
  fun _ mem => List.mem_singleton.mp mem ▸ s.drivesOnly_coil rfl

theorem allDrive_positioningStart (m : σ) :
    s.AllDrive .positioningStart (s.positioningStart.run m).rungs :=
  fun _ mem => List.mem_singleton.mp mem ▸ s.drivesOnly_pulse

theorem allDrive_positioningBusy (m : σ) :
    s.AllDrive .positioningBusy (s.positioningBusy.run m).rungs :=
  fun _ mem => List.mem_singleton.mp mem ▸ s.drivesOnly_coil rfl

theorem allDrive_runEnable (m : σ) : s.AllDrive .runEnable (s.runEnable.run m).rungs := by
  intro r mem
  rw [List.mem_singleton.mp mem]
  refine s.drivesOnly_coil ?_
  rw [List.filterMap_append]
  split <;> split <;> rfl

theorem allDrive_startDelay (m : σ) : s.AllDrive .startDelay (s.startDelay.run m).rungs :=
  (s.delays_optionalDelay .startWait .runEnable .startDelay m).1

theorem rungs_sensors (name : String) (count : Option UInt32) (m : σ) :
    ((s.sensors name count).run m).rungs = [] := by
  unfold sensors
  exact s.context.rungs_sensors s.operation.owner name count s.scope m

theorem allDrive_startLatch (m : σ) : s.AllDrive .startLatch (s.startLatch.run m).rungs := by
  have silent : (s.controlContacts.run m).rungs = [] := by
    unfold controlContacts
    split
    · exact s.rungs_sensors _ none m
    · rfl
  intro r mem
  rw [startLatch_eq, rungs_bind, silent, List.nil_append] at mem
  split at mem
  next =>
    rw [List.mem_singleton.mp mem]
    exact s.drivesOnly_latch _ _ .startLatch
  next => cases mem

variable {s}

/-- Parts of the sequence outside the chain keep what has been confirmed. -/
theorem leads_skip {x : Emission σ Unit} {role : OperationRole}
    (drives : ∀ m, s.AllDrive role (x.run m).rungs)
    (outside : role ∉ OperationRole.confirmations) {before coming : List OperationRole}
    {last : OperationRole} :
    Leads (s.Latched before last coming) x (fun _ => s.Latched before last coming) s.InOrder := by
  have apart : role ∉ s.chain := fun mem => outside (List.mem_filter.mp mem).1
  refine Leads.append drives (fun old new h only => ?_) fun rungs h => h.inOrder
  refine ⟨h.toConfirms.skip only apart, h.stays.skip only ?_ ?_⟩
  · rintro rfl
    refine apart ?_
    rw [← h.whole]
    exact List.mem_append_right before List.mem_cons_self
  · rintro rfl
    exact outside List.mem_cons_self

theorem leads_guarded {p : Prop} [Decidable p] {x : Emission σ Unit} {role : OperationRole}
    (drives : ∀ m, s.AllDrive role (x.run m).rungs)
    (outside : role ∉ OperationRole.confirmations) {before coming : List OperationRole}
    {last : OperationRole} :
    Leads (s.Latched before last coming) (if p then x else pure ())
      (fun _ => s.Latched before last coming) s.InOrder := by
  split
  · exact leads_skip drives outside
  · exact Leads.pure fun _ h => h

theorem leads_sensors {name : String} {count : Option UInt32} {before : List Rung → Prop}
    (h : ∀ rungs, before rungs → s.InOrder rungs) :
    Leads before (s.sensors name count) (fun _ => before) s.InOrder :=
  Leads.silent (s.rungs_sensors name count) h

theorem leads_startConfirmed {coming : List OperationRole} :
    Leads (s.Latched [] .resetGate (.startConfirmed :: coming)) s.startConfirmed
      (fun _ => s.Latched [.resetGate] .startConfirmed coming) s.InOrder := by
  unfold startConfirmed
  split
  next => exact Leads.halt fun _ h => h.inOrder
  next name configured =>
    refine Leads.bind (leads_sensors fun _ h => h.inOrder) fun contacts => Leads.emit fun _ h => ?_
    have latches : s.Latches .resetGate .startConfirmed
        [s.latch (s.contact .startDelay) contacts .startConfirmed] := latches_latch (.inr rfl)
    exact h.latch latches (by decide)

theorem leads_stepRungs {before coming : List OperationRole} {previous : OperationRole}
    {step : Step} {contacts : List Contact} {t : Timer} :
    Leads (s.Latched before previous (.speedStep step :: coming))
      (.emitAll (s.stepRungs previous contacts t (.speedStep step)) : Emission σ Unit)
      (fun _ => s.Latched (before ++ [previous]) (.speedStep step) coming) s.InOrder := by
  refine Leads.emitAll fun rungs h => h.latch latches_stepRungs ?_
  intro same
  cases same

/-- A speed change point confirms its step or leaves the chain as it is. -/
theorem leads_speedStep (step : Step) (rest : List Step) (previous : OperationRole) :
    Leads (fun rungs => ∃ before,
        s.Latched before previous (s.timedSteps (step :: rest) ++ s.closing) rungs)
      (s.speedStep previous step)
      (fun last rungs => ∃ before, s.Latched before last (s.timedSteps rest ++ s.closing) rungs)
      s.InOrder := by
  refine Leads.choose fun before => ?_
  unfold speedStep
  split
  next => exact Leads.halt fun _ h => h.inOrder
  next name configured =>
    split
    next => exact Leads.halt fun _ h => h.inOrder
    next count several =>
      have skipped : s.timedSteps (step :: rest) = s.timedSteps rest := by
        simp [timedSteps, several, TimerLookup.isFound]
      rw [skipped]
      exact Leads.warn.bind fun _ => Leads.pure fun _ h => ⟨before, h⟩
    next t found =>
      have timed : s.timedSteps (step :: rest) = .speedStep step :: s.timedSteps rest := by
        simp [timedSteps, found, TimerLookup.isFound]
      rw [timed]
      refine Leads.bind (leads_sensors fun _ h => h.inOrder) fun contacts => ?_
      exact Leads.bind leads_stepRungs fun _ => Leads.pure fun _ h => ⟨_, h⟩

theorem leads_steps (steps : List Step) (first : OperationRole) :
    Leads (fun rungs => ∃ before,
        s.Latched before first (s.timedSteps steps ++ s.closing) rungs)
      (steps.foldlM s.speedStep first)
      (fun last rungs => ∃ before, s.Latched before last s.closing rungs) s.InOrder :=
  Leads.foldlM (J := fun steps last rungs => ∃ before,
    s.Latched before last (s.timedSteps steps ++ s.closing) rungs) leads_speedStep steps first

theorem leads_finishDetected {before coming : List OperationRole} {last : OperationRole} :
    Leads (s.Latched before last (.finishDetected :: coming)) (s.finishDetected last)
      (fun _ => s.Confirms (before ++ [last]) .finishDetected coming) s.InOrder := by
  unfold finishDetected
  split
  next => exact Leads.halt fun _ h => h.inOrder
  next name configured =>
    refine Leads.bind (leads_sensors fun _ h => h.inOrder) fun contacts => Leads.emit fun _ h => ?_
    exact h.toConfirms.latch h.stays (latches_latch (.inl rfl))

/-- The deep seat comes after the finish, if the operation has a timer for it. -/
theorem leads_deepSeat {before : List OperationRole} :
    Leads (s.Confirms before .finishDetected (s.seat ++ [.stableGate, .completion])) s.deepSeat
      (fun source rungs => ∃ before, s.Confirms before source [.stableGate, .completion] rungs)
      s.InOrder := by
  have plain (absent : (s.timer .deepSeat).isFound = false) : s.seat = [] := by simp [seat, absent]
  unfold deepSeat
  split
  next t found =>
    have seated : s.seat = [.deepSeat] := by simp [seat, found, TimerLookup.isFound]
    rw [seated]
    have confirmed : Leads (s.Confirms before .finishDetected [.deepSeat, .stableGate, .completion])
        (.emitAll (timerRungs t (s.bit .finishDetected) (s.bit .deepSeat)) : Emission σ Unit)
        (fun _ => s.Confirms (before ++ [.finishDetected]) .deepSeat [.stableGate, .completion])
        s.InOrder := Leads.emitAll fun _ h => h.delay s.delays_timerRungs
    exact confirmed.bind fun _ => Leads.pure fun _ h => ⟨_, h⟩
  next missing =>
    rw [plain (by rw [missing]; rfl)]
    exact Leads.pure fun _ h => ⟨before, h⟩
  next count several =>
    rw [plain (by rw [several]; rfl)]
    exact Leads.warn.bind fun _ => Leads.pure fun _ h => ⟨before, h⟩

theorem leads_stableGate {before : List OperationRole} {source : OperationRole} :
    Leads (s.Confirms before source [.stableGate, .completion]) (s.stableGate source)
      (fun _ => s.Confirms (before ++ [source]) .stableGate [.completion]) s.InOrder :=
  Leads.append (s.delays_optionalDelay .stable source .stableGate)
    (fun _ _ h delays => h.delay delays) fun _ h => h.inOrder

theorem leads_completion {before : List OperationRole} :
    Leads (s.Confirms before .stableGate [.completion]) s.completion
      (fun _ => s.InOrder) s.InOrder :=
  Leads.emit fun _ h => (h.delay s.delays_pulse).inOrder

theorem leads_resetGate :
    Leads (fun rungs => rungs = []) s.resetGate
      (fun _ => s.Latched [] .resetGate
        (.startConfirmed :: (s.timedSteps s.template.steps ++ s.closing))) s.InOrder := by
  refine Leads.append s.allDrive_resetGate (fun old new none drives => ?_) fun _ h => h.inOrder
  rw [none, List.nil_append]
  exact latched_gate drives

/-- Wherever the sequence stops, its rungs confirm the chain up to some link. -/
theorem leads_sequence :
    Leads (fun rungs => rungs = []) s.sequence (fun _ => s.InOrder) s.InOrder := by
  rw [sequence_eq]
  refine leads_resetGate.bind fun _ => ?_
  refine (leads_guarded s.allDrive_hold (by decide)).bind fun _ => ?_
  refine (leads_skip s.allDrive_startLatch (by decide)).bind fun _ => ?_
  refine (leads_guarded s.allDrive_positioningStart (by decide)).bind fun _ => ?_
  refine (leads_skip s.allDrive_runEnable (by decide)).bind fun _ => ?_
  refine (leads_skip s.allDrive_startDelay (by decide)).bind fun _ => ?_
  refine leads_startConfirmed.bind fun _ => ?_
  refine (leads_guarded s.allDrive_positioningBusy (by decide)).bind fun _ => ?_
  refine ((leads_steps s.template.steps .startConfirmed).imp fun _ h => ⟨_, h⟩).bind fun last => ?_
  refine Leads.choose fun before => leads_finishDetected.bind fun _ => ?_
  refine leads_deepSeat.bind fun source => Leads.choose fun before => ?_
  exact leads_stableGate.bind fun _ => leads_completion

theorem inOrder_sequence (s : Sequencer σ) (m : σ) : s.InOrder (s.sequence.run m).rungs := by
  cases h : (s.sequence.run m).result with
  | ok a => exact leads_sequence.ends [] m a rfl h
  | error e => exact leads_sequence.stops [] m e rfl h

/-! ## Scans -/

section Scans

variable {rungs : List Rung} {d : Devices}

/-- What rungs in order do to the confirmations, however often they are scanned. -/
theorem InOrder.ordered (order : s.InOrder rungs) (clear : s.Clear rungs)
    (reached : Scan.Reached (streamRows rungs)
      (fun d => ∀ role : OperationRole, d.bit (s.bit role) = false)
      (fun d e => ∀ role : OperationRole, e.bit (s.bit role) = d.bit (s.bit role)) d) :
    s.Ordered s.chain d := by
  obtain ⟨before, last, coming, h⟩ := order
  have whole {e : Devices} (state : s.Ordered (before ++ [last]) e ∧
      ∀ role ∈ coming, e.bit (s.bit role) = false) : s.Ordered s.chain e := by
    rw [← h.whole]
    exact state.1.of_off state.2
  refine whole (reached.invariant (P := fun e => s.Ordered (before ++ [last]) e ∧
    ∀ role ∈ coming, e.bit (s.bit role) = false) (fun d off => ?_) (fun d e state same => ?_)
    fun d e state scan => ?_)
  · have never : ∀ role : OperationRole, ¬d.bit (s.bit role) = true := fun role => by
      simp [off role]
    refine ⟨?_, fun role _ => off role⟩
    exact List.pairwise_of_forall fun _ later on => absurd on (never later)
  · exact ⟨state.1.congr fun role _ => same role,
      fun role mem => (same role).trans (state.2 role mem)⟩
  · refine ⟨h.ordered clear d e (whole state) scan, fun role mem => ?_⟩
    rw [scan.frame (h.spared clear role mem)]
    exact state.2 role mem

end Scans

end Sequencer

/-- The confirmations of an operation, without the optional ones that no row writes. -/
def Block.confirmations (b : Block) (rows : List Row) : List OperationRole :=
  OperationRole.confirmations.filter fun role =>
    !role.isOptional || (coilsOf rows).contains (b.bit role)

namespace Sequencer

variable {σ : Type} {s : Sequencer σ}

/-- A bit of the operation that some row writes is that of a role in use. -/
theorem uses_of_mem_coilsOf {m : σ} {role : OperationRole}
    (h : s.bit role ∈ coilsOf (streamRows (s.sequence.run m).rungs))
    (clear : s.Clear (s.sequence.run m).rungs) : s.Uses role := by
  obtain ⟨r, mem, a, inside, target⟩ := Rung.exists_action_of_mem_coilsOf h
  have here : s.context.Reached m m := .start
  have proper : s.Proper m r := s.emits_sequence.rung here mem
  have acts := proper.acts a inside
  cases acts with
  | out uses => exact OperationRole.bit_injective (Option.some.inj target) ▸ uses
  | pulse uses => exact OperationRole.bit_injective (Option.some.inj target) ▸ uses
  | delay found =>
    have same : Device.timer _ = s.bit role := Option.some.inj target
    exact absurd (same ▸ Rung.mem_timersOf mem inside) (clear role)

/-- The confirmations that are not optional, or are written, belong to the chain. -/
theorem confirmations_sublist {m : σ} (clear : s.Clear (s.sequence.run m).rungs) :
    (s.block.confirmations (streamRows (s.sequence.run m).rungs)).Sublist s.chain := by
  refine List.monotone_filter_right _ fun role listed => ?_
  rw [Bool.or_eq_true, Bool.not_eq_true', List.contains_iff_mem] at listed
  rcases listed with needed | written
  · cases role <;> first | rfl | cases needed
  · have uses : s.Uses role := uses_of_mem_coilsOf written clear
    cases role with
    | speedStep step =>
      have mem : step ∈ s.template.steps := by
        simpa [OperationTemplate.roles, OperationTemplate.commonRoles] using uses.mem
      have timed := TimerLookup.isFound_iff.mpr (uses.timed step rfl)
      simp [gives, mem, timed]
    | deepSeat => exact TimerLookup.isFound_iff.mpr (uses.seated rfl)
    | _ => rfl

end Sequencer

namespace Context

open Emission

variable {σ : Type} (c : Context σ) (o : Operation)

theorem rungs_operationScope (m : σ) : ((c.operationScope o).run m).rungs = [] :=
  List.eq_nil_iff_forall_not_mem.mpr fun _ mem =>
    (c.emits_operationScope (I := fun _ => True) (P := fun _ => False)).rung trivial mem

/-- The rungs of an operation are those of its sequence in its block, or there are none. -/
theorem rungs_operation (m : σ) : ((c.operation o).run m).rungs = [] ∨
    ∃ t b scope m', c.snapshot.block? .operation o.id = some b ∧
      ((c.operation o).run m).rungs = ((Sequencer.mk c o t b scope).sequence.run m').rungs := by
  unfold operation
  split
  next => exact .inl rfl
  next t known =>
    rcases rungs_bind_silent (c.rungs_block o.owner t.roles m) with none | ⟨b, ok, same⟩
    · exact .inl none
    · have fits : c.Fits o.owner t.roles b :=
        (c.emits_block (I := fun _ => True) (P := fun _ => True) _ _).answer trivial ok
      rw [same]
      rcases rungs_bind_silent (c.rungs_operationScope o _) with none | ⟨scope, _, same⟩
      · exact .inl none
      · exact .inr ⟨t, b, scope, _, fits.found, same⟩

/-- An operation never gives a later confirmation without the earlier ones. Every state can be
scanned, and in whatever states scans lead to from one where the operation's bits are off, with
changes to all other devices in between, a confirmation is on only together with those before it:
the reset gate, the confirmed start, the speed steps that the rows write, the finish, the deep seat
if the rows write it, the stable gate and the completion. -/
theorem confirmations_ordered (b : Block) (found : c.snapshot.block? .operation o.id = some b)
    (m : σ) (rows : List Row) (generated : rows = (((c.operation o).run m).synthesis o.owner).rows)
    (apart : ∀ role : OperationRole, b.bit role ∉ timersOf rows) :
    (∀ s, ∃ t, Scan.Runs rows s t) ∧
      ∀ d, Scan.Reached rows (fun d => ∀ role : OperationRole, d.bit (b.bit role) = false)
          (fun d e => ∀ role : OperationRole, e.bit (b.bit role) = d.bit (b.bit role)) d →
        (b.confirmations rows).Pairwise fun earlier later =>
          d.bit (b.bit later) = true → d.bit (b.bit earlier) = true := by
  have stream : rows = streamRows ((c.operation o).run m).rungs := generated
  refine ⟨fun s => stream ▸ Scan.exists_runs _ s, fun d reached => ?_⟩
  rcases c.rungs_operation o m with none | ⟨t, b', scope, m', own, same⟩
  · -- without rows the bits stay off
    rw [none] at stream
    rw [stream] at reached
    have off : ∀ role : OperationRole, d.bit (b.bit role) = false := by
      refine reached.invariant (P := fun e => ∀ role : OperationRole, e.bit (b.bit role) = false)
        (fun _ off => off) (fun d e off same role => (same role).trans (off role))
        fun d e off scan => ?_
      rw [Rung.allScan_nil] at scan
      exact scan ▸ off
    exact List.pairwise_of_forall fun _ later on => by simp [off later] at on
  · have block : some b' = some b := own.symm.trans found
    cases block
    rw [same] at stream
    rw [stream] at apart reached ⊢
    have order := (Sequencer.mk c o t b scope).inOrder_sequence m'
    exact (order.ordered apart reached).sublist (Sequencer.confirmations_sublist apart)

end Context

/-- An operation with two speed change points and a deep seat. -/
def Operation.twoSpeeds : Operation where
  id := 1
  cylinderId := 1
  categoryCode := 5
  start := some "XS"
  finish := some "XE"
  speedSensors := ["XM", "XN"]

/-- Only this operation, with a timer for each of its speed change points and one for the seat. -/
def Snapshot.twoSpeeds : Snapshot where
  operations := [.twoSpeeds]
  timers :=
    [{ id := 1, categoryId := 5, kind := .operation, recordIds := [1], number := 1, preset := 3 },
     { id := 2, categoryId := 6, kind := .operation, recordIds := [1], number := 2, preset := 3 },
     { id := 3, categoryId := 3, kind := .operation, recordIds := [1], number := 3, preset := 5 }]
  points :=
    [{ id := 1, name := "XS", address := "X0" }, { id := 2, name := "XE", address := "X1" },
     { id := 3, name := "XM", address := "X2" }, { id := 4, name := "XN", address := "X3" }]
  allocations := [⟨.operation, 1, "L", 0, 20⟩]

namespace Snapshot.TwoSpeeds

def context : Context (List Choice) where
  settings := {}
  resolver := IoTable.resolver { points := twoSpeeds.points }
  conditionIds := conditionIds []
  snapshot := twoSpeeds

def block : Block := ⟨⟨.operation, 1, "L", 0, 20⟩⟩

def rows : List Row :=
  (((context.operation .twoSpeeds).run []).synthesis Operation.twoSpeeds.owner).rows

theorem apart (role : OperationRole) : block.bit role ∉ timersOf rows := by
  have timers : timersOf rows = ["T1", "T2", "T3"] := by decide +kernel
  have initials : ∀ x ∈ ["T1", "T2", "T3"], x.toList.head? = some 'T' := by decide
  have initial : (block.bit role).toList.head? = some 'L' := by
    simp [Block.bit, Allocation.device, block, Device.toList_numbered]
  intro mem
  rw [timers] at mem
  rw [initials _ mem] at initial
  cases initial

end Snapshot.TwoSpeeds

theorem confirmations_ordered_twoSpeeds :
    (∀ s, ∃ t, Scan.Runs Snapshot.TwoSpeeds.rows s t) ∧
      ∀ d, Scan.Reached Snapshot.TwoSpeeds.rows
          (fun d => ∀ role : OperationRole, d.bit (Snapshot.TwoSpeeds.block.bit role) = false)
          (fun d e => ∀ role : OperationRole, e.bit (Snapshot.TwoSpeeds.block.bit role) =
            d.bit (Snapshot.TwoSpeeds.block.bit role)) d →
        [OperationRole.resetGate, .startConfirmed, .speedStep 0, .speedStep 1, .finishDetected,
          .deepSeat, .stableGate, .completion].Pairwise fun earlier later =>
            d.bit (Snapshot.TwoSpeeds.block.bit later) = true →
              d.bit (Snapshot.TwoSpeeds.block.bit earlier) = true := by
  have given : Snapshot.TwoSpeeds.block.confirmations Snapshot.TwoSpeeds.rows =
      [.resetGate, .startConfirmed, .speedStep 0, .speedStep 1, .finishDetected, .deepSeat,
        .stableGate, .completion] := by decide +kernel
  rw [← given]
  exact Snapshot.TwoSpeeds.context.confirmations_ordered .twoSpeeds Snapshot.TwoSpeeds.block
    rfl [] Snapshot.TwoSpeeds.rows rfl Snapshot.TwoSpeeds.apart

end Rungs
