import Rungs.Proofs.Operation.Links
import Rungs.Proofs.Operation.Vocabulary

/-! Where an operation takes contacts from sensors: in the rungs of its start latch, its confirmed
start, its speed change points and its finish, from the sensor named for each of them. All other
rungs are put together from bits of blocks, timers and the shared signals (`Sequencer.Plain`). What
holds of the contacts that every sensor's name stands for thus holds of all that the sequence takes
(`Sequencer.emits_formed`). -/

namespace Rungs

open Emission

namespace Sequencer

variable {σ : Type} (s : Sequencer σ)

/-- A rung that starts from the last stage, waits for the contacts of a sensor, and leads to the next
stage or its timer. -/
inductive Takes : Rung → String → List Contact → Prop
  | control {name : String} (named : Text.configured? s.operation.control = some name)
      (contacts : List Contact) :
      Takes (s.latch (s.contact .resetGate)
        (.inverted s.context.settings.pauseSignal :: contacts) .startLatch) name contacts
  | start {name : String} (named : Text.configured? s.operation.start = some name)
      (contacts : List Contact) :
      Takes (s.latch (s.contact .startDelay) contacts .startConfirmed) name contacts
  | step {name : String} {step : Step} {t : Timer}
      (named : Text.configured? s.operation.speedSensors[step.val]? = some name)
      (timed : s.timer (.speedChange step) = .found t) (previous : OperationRole)
      (contacts : List Contact) :
      Takes (.start (s.contact previous) (contacts.map .series) (.delay t.number t.preset)) name
        contacts
  | finish {name : String} (named : Text.configured? s.operation.finish = some name)
      (previous : OperationRole) (contacts : List Contact) :
      Takes (s.latch (s.contact previous) contacts .finishDetected) name contacts

/-- A contact that comes from no sensor. -/
inductive Fixed : Contact → Prop
  | own (role : OperationRole) : Fixed (s.contact role)
  | unfinished : Fixed (s.inverted .finishDetected)
  | detail {d : Detail} {b : Block}
      (mem : d ∈ s.context.snapshot.detailsOfOperation s.operation.id)
      (found : s.context.snapshot.block? .detail d.id = some b) (role : DetailRole)
      (negated : Bool) : Fixed ⟨b.bit role, negated⟩
  | off : Fixed s.context.alwaysOff
  | reset : Fixed s.resetSignal
  | pause : Fixed (.inverted s.context.settings.pauseSignal)
  | timer {category : TimerCategory} {t : Timer} (found : s.timer category = .found t) :
      Fixed (.plain (Device.timer t.number))

/-- The stages that wait for a sensor. -/
def Waits (role : OperationRole) : Prop :=
  role = .startConfirmed ∨ role = .finishDetected ∨
    role = .startLatch ∧ Text.configured? s.operation.control ≠ none

/-- A rung without a sensor. It leads to no stage that waits for one, and its timer has no conditions
but the last stage. -/
structure Plain (r : Rung) : Prop where
  reads : ∀ c ∈ r.contacts, s.Fixed c
  target : ∀ role, r.last = .out (s.bit role) → ¬s.Waits role
  timer : ∀ number preset, r.last = .delay number preset → r.links = []

/-- A rung that takes contacts of which `S` holds from a sensor, or a rung without a sensor. -/
def Formed (S : String → List Contact → Prop) (r : Rung) : Prop :=
  (∃ name contacts, s.Takes r name contacts ∧ S name contacts) ∨ s.Plain r

variable {s} {I : σ → Prop} {S : String → List Contact → Prop} {source target : OperationRole}

/-! ## Rungs without a sensor -/

theorem last_anyOf {heading : String} {chains : List Chain} {otherwise : Contact}
    {links : List Link} {last : Action} :
    (Rung.under heading (.anyOf chains otherwise links last)).last = last := by
  cases chains <;> rfl

theorem not_waits (other : target ∉ [.startConfirmed, .finishDetected, .startLatch]) :
    ¬s.Waits target := by
  rintro (rfl | rfl | ⟨rfl, -⟩) <;> simp at other

theorem plain_start {c : Contact} {links : List Link} {last : Action} (hc : s.Fixed c)
    (hl : ∀ l ∈ links, Rung.LinkWithin s.Fixed (fun _ => True) l)
    (ht : ∀ role, last = .out (s.bit role) → ¬s.Waits role)
    (hd : ∀ number preset, last = .delay number preset → links = []) :
    s.Plain (.start c links last) where
  reads := (Rung.within_start (A := fun _ => True) hc hl trivial).reads
  target := ht
  timer := hd

/-- A rung that leads to a stage without a sensor. -/
theorem plain_out {c : Contact} {links : List Link} (hc : s.Fixed c)
    (hl : ∀ l ∈ links, Rung.LinkWithin s.Fixed (fun _ => True) l) (free : ¬s.Waits target) :
    s.Plain (.start c links (.out (s.bit target))) := by
  refine plain_start hc hl (fun role same => ?_) nofun
  have this : target = role := OperationRole.bit_injective (Action.out.inj same)
  exact this ▸ free

theorem plain_pulse {c : Contact} (hc : s.Fixed c) (device : String) :
    s.Plain (.start c [] (.pulse device)) := plain_start hc nofun nofun nofun

theorem plain_timerRungs {category : TimerCategory} {t : Timer}
    (found : s.timer category = .found t) (free : ¬s.Waits target) :
    ∀ r ∈ timerRungs t (s.bit source) (s.bit target), s.Plain r := by
  intro r mem
  simp only [timerRungs, List.mem_cons, List.not_mem_nil, or_false] at mem
  obtain rfl | rfl := mem
  · exact plain_start (.own source) (by simp) (by simp) fun _ _ _ => rfl
  · exact plain_out (.timer found) (by simp) free

theorem plain_latch {c : Contact} {conditions : List Contact} (hc : s.Fixed c)
    (fixed : ∀ c ∈ conditions, s.Fixed c) (free : ¬s.Waits target) :
    s.Plain (s.latch c conditions target) := by
  refine plain_out hc (fun l mem => ?_) free
  obtain mem | mem := List.mem_append.mp mem
  · exact Rung.linkWithin_series fixed l mem
  · simp only [List.mem_cons, List.not_mem_nil, or_false] at mem
    obtain rfl | rfl := mem
    · exact Fixed.own target
    · exact Fixed.own .resetGate

/-! ## Parts of the sequence -/

theorem formed_optionalDelay {category : TimerCategory} (free : ¬s.Waits target) :
    Emits I (s.Formed S) (s.optionalDelay category source target) fun _ => True := by
  have direct : s.Formed S (.start (s.contact source) [] (.out (s.bit target))) :=
    .inr (plain_out (.own source) nofun free)
  unfold optionalDelay
  split
  next t found =>
    exact Emits.emitAll (fun r mem => .inr (plain_timerRungs found free r mem)) trivial
  next => exact Emits.emit direct trivial
  next => exact (Emits.warn (Q := fun _ => True) trivial).bind fun _ _ => Emits.emit direct trivial

theorem formed_resetGate : Emits I (s.Formed S) s.resetGate fun _ => True := by
  intro m hm
  have rung := s.returns_resetGate m
  rw [rung.memory, rung.rungs]
  refine ⟨hm, fun r mem => ?_, fun _ _ => trivial⟩
  rw [List.mem_singleton.mp mem]
  have chains : ∀ chain ∈ ((s.context.snapshot.detailsOfOperation s.operation.id).map
      s.activeChain).reduceOption, ∀ c ∈ chain.contacts, s.Fixed c := by
    intro chain mem c inside
    rw [List.reduceOption_mem_iff] at mem
    obtain ⟨d, listed, eq⟩ := List.mem_map.mp mem
    obtain ⟨b, found, rfl⟩ := Option.map_eq_some_iff.mp eq
    simp only [Chain.contacts, List.mem_cons, List.not_mem_nil, or_false] at inside
    obtain rfl | rfl := inside
    · exact .detail listed found .running false
    · exact .detail listed found .complete true
  refine .inr ⟨?_, ?_, ?_⟩
  · refine (Rung.within_under (A := fun _ => True) (Rung.within_anyOf chains .off ?_ trivial)).reads
    intro l mem
    rw [List.mem_singleton.mp mem]
    exact Fixed.reset
  · intro role same
    rw [last_anyOf] at same
    have this : OperationRole.resetGate = role := OperationRole.bit_injective (Action.out.inj same)
    exact this ▸ not_waits (by decide)
  · intro number preset same
    rw [last_anyOf] at same
    contradiction

theorem formed_hold : Emits I (s.Formed S) s.hold fun _ => True := by
  refine Emits.emit (.inr (plain_out (.own .startConfirmed) ?_ (not_waits (by decide)))) trivial
  intro l mem
  simp only [List.mem_cons, List.not_mem_nil, or_false] at mem
  obtain rfl | rfl := mem
  · exact Fixed.own .hold
  · exact Fixed.reset

theorem formed_controlContacts
    (sensors : ∀ name count, Emits I (s.Formed S) (s.sensors name count) (S name)) :
    Emits I (s.Formed S) s.controlContacts fun contacts =>
      (∃ name, Text.configured? s.operation.control = some name ∧ S name contacts) ∨
        Text.configured? s.operation.control = none ∧ contacts = [] := by
  unfold controlContacts
  split
  next name named => exact (sensors name none).imp fun _ holds => .inl ⟨name, named, holds⟩
  next none => exact Emits.pure (.inr ⟨none, rfl⟩)

theorem formed_startLatch
    (sensors : ∀ name count, Emits I (s.Formed S) (s.sensors name count) (S name)) :
    Emits I (s.Formed S) s.startLatch fun _ => True := by
  rw [startLatch_eq]
  refine (formed_controlContacts sensors).bind fun contacts known => Emits.emit ?_ trivial
  obtain ⟨name, named, holds⟩ | ⟨named, rfl⟩ := known
  · exact .inl ⟨name, contacts, .control named contacts, holds⟩
  · have free : ¬s.Waits .startLatch := by
      rintro (same | same | ⟨-, waits⟩)
      · cases same
      · cases same
      · exact waits named
    have fixed : ∀ c ∈ [Contact.inverted s.context.settings.pauseSignal], s.Fixed c := by
      intro c mem
      rw [List.mem_singleton.mp mem]
      exact .pause
    exact .inr (plain_latch (.own .resetGate) fixed free)

theorem formed_positioningStart : Emits I (s.Formed S) s.positioningStart fun _ => True :=
  Emits.emit (.inr (plain_pulse (.own .runEnable) _)) trivial

theorem formed_startDelay : Emits I (s.Formed S) s.startDelay fun _ => True :=
  formed_optionalDelay (not_waits (by decide))

theorem formed_stableGate : Emits I (s.Formed S) (s.stableGate source) fun _ => True :=
  formed_optionalDelay (not_waits (by decide))

theorem formed_completion : Emits I (s.Formed S) s.completion fun _ => True :=
  Emits.emit (.inr (plain_pulse (.own .stableGate) _)) trivial

theorem formed_runEnable : Emits I (s.Formed S) s.runEnable fun _ => True := by
  refine Emits.emit (.inr (plain_out (.own .startLatch) ?_ (not_waits (by decide)))) trivial
  intro l mem
  obtain mem | mem := List.mem_append.mp mem
  · split at mem
    · rw [List.mem_singleton.mp mem]
      exact Fixed.own .hold
    · cases mem
  · split at mem
    · rw [List.mem_singleton.mp mem]
      exact Fixed.unfinished
    · cases mem

theorem formed_startConfirmed
    (sensors : ∀ name count, Emits I (s.Formed S) (s.sensors name count) (S name)) :
    Emits I (s.Formed S) s.startConfirmed fun _ => True := by
  unfold startConfirmed
  split
  next => exact Emits.halt
  next name named =>
    exact (sensors name _).bind fun contacts holds =>
      Emits.emit (.inl ⟨name, contacts, .start named contacts, holds⟩) trivial

theorem formed_positioningBusy : Emits I (s.Formed S) s.positioningBusy fun _ => True := by
  refine Emits.emit (.inr (plain_out (.own .positioningStart) ?_ (not_waits (by decide)))) trivial
  intro l mem
  simp only [List.mem_cons, List.not_mem_nil, or_false] at mem
  obtain rfl | rfl | rfl := mem
  · exact Fixed.own .positioningBusy
  · exact Fixed.unfinished
  · exact Fixed.own .resetGate

theorem formed_speedStep
    (sensors : ∀ name count, Emits I (s.Formed S) (s.sensors name count) (S name))
    (previous : OperationRole) (step : Step) :
    Emits I (s.Formed S) (s.speedStep previous step) fun _ => True := by
  unfold speedStep
  split
  next => exact Emits.halt
  next name named =>
    split
    next => exact Emits.halt
    next => exact (Emits.warn (Q := fun _ => True) trivial).bind fun _ _ => Emits.pure trivial
    next t found =>
      refine (sensors name none).bind fun contacts holds =>
        (Emits.emitAll (Q := fun _ => True) (fun r mem => ?_) trivial).bind fun _ _ =>
          Emits.pure trivial
      simp only [List.mem_cons, List.not_mem_nil, or_false] at mem
      obtain rfl | rfl := mem
      · exact .inl ⟨name, contacts, .step named found previous contacts, holds⟩
      · exact .inr (plain_latch (.timer found) nofun (not_waits (by simp)))

theorem formed_finishDetected
    (sensors : ∀ name count, Emits I (s.Formed S) (s.sensors name count) (S name))
    (previous : OperationRole) :
    Emits I (s.Formed S) (s.finishDetected previous) fun _ => True := by
  unfold finishDetected
  split
  next => exact Emits.halt
  next name named =>
    exact (sensors name _).bind fun contacts holds =>
      Emits.emit (.inl ⟨name, contacts, .finish named previous contacts, holds⟩) trivial

theorem formed_deepSeat : Emits I (s.Formed S) s.deepSeat fun _ => True := by
  unfold deepSeat
  split
  next t found =>
    refine (Emits.emitAll (Q := fun _ => True) (fun r mem => ?_) trivial).bind fun _ _ =>
      Emits.pure trivial
    exact .inr (plain_timerRungs found (not_waits (by decide)) r mem)
  next => exact Emits.pure trivial
  next => exact (Emits.warn (Q := fun _ => True) trivial).bind fun _ _ => Emits.pure trivial

/-- If looking up any sensor yields contacts of which `S` holds, the contacts that the sequence takes
from its sensors are such contacts. -/
theorem emits_formed
    (sensors : ∀ name count, Emits I (s.Formed S) (s.sensors name count) (S name)) :
    Emits I (s.Formed S) s.sequence fun _ => True := by
  rw [sequence_eq]
  refine formed_resetGate.bind fun _ _ => ?_
  refine (Emits.ite (fun _ => formed_hold) fun _ => Emits.pure trivial).bind fun _ _ => ?_
  refine (formed_startLatch sensors).bind fun _ _ => ?_
  refine (Emits.ite (fun _ => formed_positioningStart) fun _ => Emits.pure trivial).bind
    fun _ _ => ?_
  refine formed_runEnable.bind fun _ _ => ?_
  refine formed_startDelay.bind fun _ _ => ?_
  refine (formed_startConfirmed sensors).bind fun _ _ => ?_
  refine (Emits.ite (fun _ => formed_positioningBusy) fun _ => Emits.pure trivial).bind
    fun _ _ => ?_
  refine (Emits.foldlM (Q := fun _ => True) trivial
    fun previous step _ _ => formed_speedStep sensors previous step).bind fun last _ => ?_
  refine (formed_finishDetected sensors last).bind fun _ _ => formed_deepSeat.bind fun source _ => ?_
  exact formed_stableGate.bind fun _ _ => formed_completion

end Sequencer

end Rungs
