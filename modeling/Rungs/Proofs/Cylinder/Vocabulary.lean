import Mathlib.Data.List.ReduceOption
import Rungs.Cylinder.Output
import Rungs.Proofs.Lookup
import Rungs.Proofs.Rung

/-! The vocabulary of a cylinder: what its rungs may read, and what they may do. Besides the bits of
its own block it drives the outputs that were found for it and a deceleration timer, and it writes
values of its operations to its speed words; of an operation it reads what `Motion.Shows` lists. -/

namespace Rungs

/-- The bits of its block by which a motion makes itself known to the drive. -/
inductive Motion.Shows (m : Motion) : OperationRole → Prop
  | running : m.Shows .runEnable
  | held (h : m.template = .retention) : m.Shows .hold
  | positioning (h : m.template.isPositioning = true) : m.Shows .positioningStart
  | step {step : Step} (mem : step ∈ m.template.steps) : m.Shows (.speedStep step)

/-- The numbers that an operation wants moved to words. -/
def Operation.values (o : Operation) : List Int :=
  (o.startSpeed.toList ++ o.speeds ++ o.position.toList).map Int32.toInt

theorem Operation.mem_values {o : Operation} {value : Int32}
    (h : value ∈ o.startSpeed.toList ++ o.speeds ++ o.position.toList) :
    value.toInt ∈ o.values := List.mem_map.mpr ⟨value, h, rfl⟩

theorem Snapshot.mem_motionsOf {s : Snapshot} {id : Int32} {m : Motion}
    (h : m ∈ s.motionsOf id) : m.operation ∈ s.operationsOf id ∧
      OperationTemplate.ofCode? m.operation.categoryCode = some m.template ∧
      s.block? .operation m.operation.id = some m.block := by
  obtain ⟨o, mem, eq⟩ := List.mem_filterMap.mp h
  unfold motion? at eq
  split at eq
  next template block known found =>
    cases eq
    exact ⟨mem, known, found⟩
  next => cases eq

theorem DriveClass.mem_roles_of_common {k : DriveClass} {role : CylinderRole}
    (h : DriveClass.commonRoles.contains role = true) : role ∈ k.roles :=
  List.mem_append_left _ (List.contains_iff_mem.mp h)

namespace Drive

variable {σ : Type} (d : Drive σ) (k : DriveClass)

/-- An address that was found for an output of the cylinder. -/
def Connects (initial : σ) (address : String) : Prop :=
  ∃ point,
    d.context.resolver.Answers initial ⟨point, true, d.cylinder.number, d.cylinder.id⟩ address

/-- The speed word of the cylinder, or the word after it. -/
def SpeedWord (word : String) : Prop :=
  ∃ speed, d.context.snapshot.speedDevice? d.cylinder.id = some speed ∧
    (word = Text.trim speed.device ∨ Device.offset? (Text.trim speed.device) 1 = some word)

def decelerationTimer : TimerLookup := d.context.timer d.cylinder.owner .forcedDeceleration

/-- A role that the drive's class has. A hold counts with a motion to hold, the deceleration with its
timer. -/
structure Uses (role : CylinderRole) : Prop where
  mem : role ∈ k.roles
  heldGo : role = .retainGo → retained d.goMotions ≠ []
  heldBack : role = .retainBack → retained d.backMotions ≠ []
  slowed : role = .decelerate → ∃ t, d.decelerationTimer = .found t

inductive Reads (initial : σ) : Contact → Prop
  | own {role : CylinderRole} (h : d.Uses k role) : Reads initial (d.contact role)
  | ownInverted {role : CylinderRole} (h : d.Uses k role) : Reads initial (d.inverted role)
  | motion {m : Motion} {role : OperationRole} (mem : m ∈ d.motions) (h : m.Shows role) :
      Reads initial (m.contact role)
  | off : Reads initial d.context.alwaysOff
  | manual {signal : String} (h : signal ∈ [d.manual.go, d.manual.back, d.manual.enable])
      (negated : Bool) : Reads initial ⟨signal, negated⟩
  | automatic : Reads initial (.plain d.context.settings.autoModeSignal)
  | pause : Reads initial (.plain d.context.settings.pauseSignal)
  | interlock {address : String} (h : d.Connects initial address) :
      Reads initial (.inverted address)
  | timer {t : Timer} (found : d.decelerationTimer = .found t) :
      Reads initial (.inverted (Device.timer t.number))

/-- Writing a value of one of the operations, or zero, to a speed word. -/
inductive Moves : Action → Prop
  | move {value : Int} {word : String}
      (hv : value = 0 ∨ ∃ m ∈ d.motions, value ∈ m.operation.values) (hw : d.SpeedWord word) :
      Moves (.move value word)

inductive Acts (initial : σ) : Action → Prop
  | out {role : CylinderRole} (h : d.Uses k role) : Acts initial (.out (d.bit role))
  | output {address : String} (h : d.Connects initial address) : Acts initial (.out address)
  | delay {t : Timer} (found : d.decelerationTimer = .found t) :
      Acts initial (.delay t.number t.preset)
  | move {a : Action} (h : d.Moves a) : Acts initial a

/-- A rung within the vocabulary of the cylinder. -/
abbrev Proper (initial : σ) (r : Rung) : Prop := r.Within (d.Reads k initial) (d.Acts k initial)

/-- An emission that stays within the vocabulary, with what holds of its answer. -/
abbrev Speaks (initial : σ) {α : Type} (x : Emission σ α) (Q : α → Prop) : Prop :=
  x.Emits (d.context.Reached initial) (d.Proper k initial) Q

/-- An emission that does nothing but write speed words. -/
abbrev Writes (initial : σ) (x : Emission σ Unit) : Prop :=
  x.Emits (d.context.Reached initial) (fun r => r.Within (d.Reads k initial) d.Moves) fun _ => True

theorem mem_towards {direction : Direction} {motions : List Motion} {m : Motion}
    (h : m ∈ towards direction motions) : m ∈ motions := (List.mem_filter.mp h).1

theorem mem_drivingMotions {m : Motion} (h : m ∈ d.drivingMotions) : m ∈ d.motions := by
  rcases List.mem_append.mp h with h | h
  · exact mem_towards h
  · exact mem_towards h

theorem mem_positioningMotions {m : Motion} (h : m ∈ d.positioningMotions) :
    m ∈ d.motions ∧ m.template.isPositioning = true := by
  obtain ⟨mem, positioning⟩ := List.mem_filter.mp h
  exact ⟨d.mem_drivingMotions mem, positioning⟩

theorem mem_retained {motions : List Motion} {m : Motion} (h : m ∈ retained motions) :
    m ∈ motions ∧ m.template = .retention := by
  obtain ⟨mem, template⟩ := List.mem_filter.mp h
  exact ⟨mem, beq_iff_eq.mp template⟩

variable {d k} {initial : σ} {P : Rung → Prop}

theorem uses_of_mem {role : CylinderRole} (mem : role ∈ k.roles)
    (plain : role ∉ [.retainGo, .retainBack, .decelerate]) : d.Uses k role := by
  simp only [List.mem_cons, List.not_mem_nil, or_false, not_or] at plain
  exact ⟨mem, fun go => absurd go plain.1, fun back => absurd back plain.2.1,
    fun slow => absurd slow plain.2.2⟩

theorem uses_common {role : CylinderRole} (h : DriveClass.commonRoles.contains role = true) :
    d.Uses k role := by
  refine uses_of_mem (DriveClass.mem_roles_of_common h) fun conditional => ?_
  have apart : ∀ role ∈ [CylinderRole.retainGo, .retainBack, .decelerate],
      DriveClass.commonRoles.contains role = false := by decide
  rw [apart role conditional] at h
  cases h

/-! ## Rungs -/

theorem reads_motionContacts {motions : List Motion} {role : OperationRole}
    (h : ∀ m ∈ motions, m ∈ d.motions ∧ m.Shows role) :
    ∀ chain ∈ motionContacts motions role, ∀ c ∈ chain.contacts, d.Reads k initial c := by
  intro chain mem c inside
  obtain ⟨m, listed, rfl⟩ := List.mem_map.mp mem
  rw [List.mem_singleton.mp inside]
  exact .motion (h m listed).1 (h m listed).2

theorem proper_collect {motions : List Motion} {role : OperationRole} {target : CylinderRole}
    (h : ∀ m ∈ motions, m ∈ d.motions ∧ m.Shows role) (ht : d.Uses k target) :
    d.Proper k initial (d.collect motions role target) :=
  Rung.within_anyOf (reads_motionContacts h) .off (fun l mem => by cases mem) (.out ht)

theorem proper_manualRung {signal opposite : String} {target : CylinderRole}
    (hs : signal ∈ [d.manual.go, d.manual.back, d.manual.enable])
    (ho : opposite ∈ [d.manual.go, d.manual.back, d.manual.enable]) (ht : d.Uses k target) :
    d.Proper k initial (d.manualRung signal opposite target) := by
  refine Rung.within_start (.manual hs false) (fun l mem => ?_) (.out ht)
  rw [List.mem_singleton.mp mem]
  exact Reads.manual ho true

theorem proper_command {manual auto target : CylinderRole} (hm : d.Uses k manual)
    (ha : d.Uses k auto) (hf : d.Uses k .forcedOff) (ht : d.Uses k target) :
    d.Proper k initial (d.command manual auto target) := by
  refine Rung.within_of_parts (fun c mem => ?_) (fun chain inside c mem => ?_) (fun l mem => ?_)
    (.out ht)
  · simp only [command, Chain.contacts, List.mem_cons, List.not_mem_nil, or_false] at mem
    rcases mem with rfl | rfl
    · exact .own hm
    · exact .manual (by simp) false
  · rw [List.mem_singleton.mp inside] at mem
    simp only [Chain.contacts, List.mem_cons, List.not_mem_nil, or_false] at mem
    rcases mem with rfl | rfl
    · exact .own ha
    · exact .automatic
  · rw [List.mem_singleton.mp mem]
    exact Reads.ownInverted hf

theorem proper_commonRungs : ∀ r ∈ d.commonRungs, d.Proper k initial r := by
  have own {role : CylinderRole} (h : DriveClass.commonRoles.contains role = true) :
      d.Uses k role := uses_common h
  have running (direction : Direction) : ∀ m ∈ towards direction d.motions,
      m ∈ d.motions ∧ m.Shows .runEnable := fun m mem => ⟨mem_towards mem, .running⟩
  intro r mem
  simp only [commonRungs, List.mem_cons, List.not_mem_nil, or_false] at mem
  rcases mem with rfl | rfl | rfl | rfl | rfl | rfl | rfl | rfl
  · exact Rung.within_under (proper_collect (running .go) (own rfl))
  · exact proper_collect (running .back) (own rfl)
  · exact proper_manualRung (by simp) (by simp) (own rfl)
  · exact proper_manualRung (by simp) (by simp) (own rfl)
  · exact proper_collect (running .off) (own rfl)
  · exact proper_command (own rfl) (own rfl) (own rfl) (own rfl)
  · exact proper_command (own rfl) (own rfl) (own rfl) (own rfl)
  · refine Rung.within_start (.own (own rfl)) (fun l mem => ?_) (.out (own rfl))
    rw [List.mem_singleton.mp mem]
    exact Reads.own (own rfl)

theorem proper_coilRung {command : CylinderRole} {hold : Option CylinderRole}
    {interlocks : List Contact} {address : String} {more : List String}
    (hc : d.Uses k command) (hh : ∀ role, hold = some role → d.Uses k role)
    (hi : ∀ c ∈ interlocks, d.Reads k initial c)
    (ha : ∀ a ∈ address :: more, d.Connects initial a) :
    d.Proper k initial (d.coilRung command hold interlocks address more) := by
  have coils : ∀ a ∈ (address :: more).map Action.out, d.Acts k initial a := by
    intro a mem
    obtain ⟨found, inside, rfl⟩ := List.mem_map.mp mem
    exact .output (ha found inside)
  refine Rung.within_start (.own hc) (fun l mem => ?_) (coils _ (List.getLast_mem _))
  rcases List.mem_append.mp mem with mem | mem
  · rcases List.mem_append.mp mem with mem | mem
    · rw [Option.mem_toList, Option.map_eq_some_iff] at mem
      obtain ⟨role, found, rfl⟩ := mem
      exact Reads.own (hh role found)
    · exact Rung.linkWithin_series hi l mem
  · obtain ⟨a, inside, rfl⟩ := List.mem_map.mp mem
    exact coils a (List.dropLast_subset _ inside)

/-! ## Parts that all drives share -/

open Emission

theorem emits_common : d.Speaks k initial d.common fun _ => True :=
  Emits.emitAll proper_commonRungs trivial

theorem emits_retain {motions : List Motion} {opposite target : CylinderRole}
    (h : ∀ m ∈ motions, m ∈ d.motions) (ho : d.Uses k opposite)
    (ht : retained motions ≠ [] → d.Uses k target) :
    d.Speaks k initial (d.retain motions opposite target) fun hold =>
      ∀ role, hold = some role → d.Uses k role := by
  have held : ∀ chain ∈ motionContacts (retained motions) .hold, ∀ c ∈ chain.contacts,
      d.Reads k initial c := reads_motionContacts fun m mem =>
    ⟨h m (mem_retained mem).1, .held (mem_retained mem).2⟩
  unfold retain
  split
  next => exact Emits.pure nofun
  next chain rest eq =>
    have some : retained motions ≠ [] := by
      intro none
      rw [none] at eq
      cases eq
    rw [eq] at held
    refine (Emits.emit (Q := fun _ => True) (Rung.within_of_parts
      (held chain List.mem_cons_self) (fun other mem => held other (List.mem_cons_of_mem _ mem))
      (fun l mem => ?_) (.out (ht some))) trivial).bind fun _ _ => Emits.pure fun role e => ?_
    · rw [List.mem_singleton.mp mem]
      exact Reads.ownInverted ho
    · exact Option.some.inj e ▸ ht some

theorem emits_outputs (output : String) (use : OutputUse) :
    Emits (d.context.Reached initial) P (d.outputs output use) fun addresses =>
      ∀ a ∈ addresses, d.Connects initial a := by
  refine (d.context.emits_resolvePoints _ _).bind fun points known => ?_
  refine (Emits.mapM (R := fun _ found => ∀ a, found = some a → d.Connects initial a)
    fun point mem => ?_).bind fun found all => Emits.pure fun a mem => ?_
  · unfold foundOutput
    split
    next address eq =>
      exact Emits.pure fun a e => Option.some.inj e ▸ ⟨point.1, known point mem address eq⟩
    next =>
      exact (Emits.warn (Q := fun _ => True) trivial).bind fun _ _ => Emits.pure nofun
  · obtain ⟨_, _, connects⟩ := all (some a) (List.reduceOption_mem_iff.mp mem)
    exact connects a rfl

theorem emits_optionalOutput (output : String) :
    Emits (d.context.Reached initial) P (d.optionalOutput output) fun found =>
      ∀ a, found = some a → d.Connects initial a :=
  (d.context.emits_resolve _).imp fun _ known a e => ⟨output, known a e⟩

theorem emits_coil {command : CylinderRole} {hold : Option CylinderRole}
    {interlocks : List Contact} {addresses : List String}
    (hc : d.Uses k command) (hh : ∀ role, hold = some role → d.Uses k role)
    (hi : ∀ c ∈ interlocks, d.Reads k initial c) (ha : ∀ a ∈ addresses, d.Connects initial a) :
    d.Speaks k initial (d.coil command hold interlocks addresses) fun _ => True := by
  unfold coil
  split
  next => exact Emits.pure trivial
  next address more => exact Emits.emit (proper_coilRung hc hh hi ha) trivial

theorem emits_speedDevice : Emits (d.context.Reached initial) P d.speedDevice fun word =>
    ∃ speed, d.context.snapshot.speedDevice? d.cylinder.id = some speed ∧
      word = Text.trim speed.device := by
  unfold speedDevice
  split
  next speed found => exact Emits.pure ⟨speed, found, rfl⟩
  next => exact Emits.halt

theorem within_move {m : Motion} {role : OperationRole} {value : Int} {word : String}
    (mem : m ∈ d.motions) (h : m.Shows role) (hv : value ∈ m.operation.values)
    (hw : d.SpeedWord word) :
    (Rung.start (m.contact role) [] (.move value word)).Within (d.Reads k initial) d.Moves :=
  Rung.within_start (.motion mem h) (fun l inside => by cases inside) (.move (.inr ⟨m, mem, hv⟩) hw)

/-- Writing words is within the vocabulary. -/
theorem Writes.speaks {x : Emission σ Unit} (h : d.Writes k initial x) :
    d.Speaks k initial x fun _ => True :=
  h.weaken (fun _ within => within.mono (fun _ reads => reads) fun _ => .move) fun _ => id

theorem emits_stepMove {m : Motion} {word : String} {step : Step} (mem : m ∈ d.motions)
    (listed : step ∈ m.template.steps) (hw : d.SpeedWord word) :
    d.Writes k initial (stepMove m word step) := by
  unfold stepMove
  split
  next speed found =>
    have value : speed ∈ m.operation.speeds := List.mem_of_getElem? found
    refine Emits.emit (within_move mem (.step listed) ?_ hw) trivial
    exact Operation.mem_values (by simp [value])
  next => exact Emits.warn trivial

theorem motionMoves_eq (word : String) (m : Motion) : (motionMoves word m : Emission σ Unit) =
    (match m.operation.startSpeed with
      | some speed => .emit (.start (m.contact .runEnable) [] (.move speed.toInt word))
      | none => pure ()) >>= fun _ => m.template.steps.forM (stepMove m word) := by
  unfold motionMoves
  cases m.operation.startSpeed with
  | some speed => dsimp only
  | none => exact (Emission.pure_bind () fun _ => m.template.steps.forM (stepMove m word)).symm

theorem emits_motionMoves {m : Motion} {word : String} (mem : m ∈ d.motions)
    (hw : d.SpeedWord word) :
    d.Writes k initial (motionMoves word m) := by
  rw [motionMoves_eq]
  refine Emits.bind (Q := fun _ => True) ?_ fun _ _ => Emits.forM fun step listed =>
    emits_stepMove mem listed hw
  split
  next speed found =>
    exact Emits.emit (within_move mem .running (Operation.mem_values (by simp [found])) hw)
      trivial
  next => exact Emits.pure trivial

theorem emits_speedMoves {word : String} (hw : d.SpeedWord word) :
    d.Writes k initial (d.speedMoves word) := by
  refine (Emits.forM fun m mem => emits_motionMoves (d.mem_drivingMotions mem) hw).bind
    fun _ _ => Emits.emit (Rung.within_start
      (.ownInverted (uses_common rfl)) (fun l mem => by cases mem)
      (.move (.inl rfl) hw)) trivial

/-! ## Valves -/

theorem reads_interlocks {opposite : CylinderRole} {addresses : List String}
    (ho : d.Uses k opposite) (ha : ∀ a ∈ addresses, d.Connects initial a) :
    ∀ c ∈ d.interlocks opposite addresses, d.Reads k initial c := by
  intro c mem
  rcases List.mem_cons.mp mem with rfl | mem
  · exact .ownInverted ho
  · rw [Option.mem_toList, Option.map_eq_some_iff] at mem
    obtain ⟨a, first, rfl⟩ := mem
    exact .interlock (ha a (List.mem_of_mem_head? first))

theorem emits_singleValve : d.Speaks .singleValve initial d.singleValve fun _ => True := by
  refine emits_common.bind fun _ _ => ?_
  have held (some : retained d.goMotions ≠ []) : d.Uses .singleValve .retainGo :=
    ⟨by decide, fun _ => some, nofun, nofun⟩
  refine (emits_retain (fun m mem => mem_towards mem) (uses_common rfl) held).bind
    fun hold hh => ?_
  exact (emits_outputs goOutput .valve).bind fun addresses ha =>
    emits_coil (uses_common rfl) hh (fun c mem => by cases mem) ha

theorem emits_doubleCoils (hg : .retainGo ∈ k.roles) (hb : .retainBack ∈ k.roles) :
    d.Speaks k initial d.doubleCoils fun _ => True := by
  have own {role : CylinderRole} (h : DriveClass.commonRoles.contains role = true) :
      d.Uses k role := uses_common h
  refine (emits_retain (fun m mem => mem_towards mem) (own rfl)
    fun held => ⟨hg, fun _ => held, nofun, nofun⟩).bind fun holdGo hgo => ?_
  refine (emits_retain (fun m mem => mem_towards mem) (own rfl)
    fun held => ⟨hb, nofun, fun _ => held, nofun⟩).bind fun holdBack hback => ?_
  refine (emits_outputs goOutput .goCoil).bind fun go hgs => ?_
  refine (emits_outputs backOutput .backCoil).bind fun back hbs => ?_
  refine (emits_coil (own rfl) hgo (reads_interlocks (own rfl) hbs) hgs).bind
    fun _ _ => ?_
  exact emits_coil (own rfl) hback (reads_interlocks (own rfl) hgs) hbs

theorem emits_doubleValve : d.Speaks .doubleValve initial d.doubleValve fun _ => True :=
  emits_common.bind fun _ _ => emits_doubleCoils (by decide) (by decide)

theorem speedWord_of_eq {word : String}
    (h : ∃ speed, d.context.snapshot.speedDevice? d.cylinder.id = some speed ∧
      word = Text.trim speed.device) : d.SpeedWord word := by
  obtain ⟨speed, found, eq⟩ := h
  exact ⟨speed, found, .inl eq⟩

theorem emits_flowValve : d.Speaks .flowValve initial d.flowValve fun _ => True := by
  refine emits_speedDevice.bind fun word hw => emits_common.bind fun _ _ => ?_
  exact (emits_doubleCoils (by decide) (by decide)).bind fun _ _ =>
    (emits_speedMoves (speedWord_of_eq hw)).speaks

/-! ## Motors -/

theorem emits_reverseOutputs : Emits (d.context.Reached initial) P d.reverseOutputs fun addresses =>
    ∀ a ∈ addresses, d.Connects initial a := by
  unfold reverseOutputs
  refine Emits.ite (fun _ => ?_) fun _ => emits_outputs backOutput .reverse
  exact (emits_optionalOutput backOutput).bind fun found known => Emits.pure fun a mem =>
    known a (Option.mem_toList.mp mem)

theorem emits_forwardReverse : d.Speaks k initial d.forwardReverse fun _ => True := by
  have own {role : CylinderRole} (h : DriveClass.commonRoles.contains role = true) :
      d.Uses k role := uses_common h
  have locked (role : CylinderRole) (h : DriveClass.commonRoles.contains role = true) :
      ∀ c ∈ [d.inverted role], d.Reads k initial c := by
    intro c mem
    rw [List.mem_singleton.mp mem]
    exact .ownInverted (own h)
  have loose : ∀ role, none = some role → d.Uses k role := by
    intro role e
    cases e
  refine (emits_outputs goOutput .forward).bind fun forward hf => ?_
  refine emits_reverseOutputs.bind fun reverse hr => ?_
  exact (emits_coil (own rfl) loose (locked _ rfl) hf).bind fun _ _ =>
    emits_coil (own rfl) loose (locked _ rfl) hr

theorem emits_motor : d.Speaks .motor initial d.motor fun _ => True :=
  emits_common.bind fun _ _ => emits_forwardReverse

theorem emits_deceleration {word : String} (hk : .decelerate ∈ k.roles) (hw : d.SpeedWord word) :
    d.Speaks k initial (d.deceleration word) fun _ => True := by
  unfold deceleration
  split
  next t found =>
    have own : d.Uses k .decelerate := ⟨hk, nofun, nofun, fun _ => ⟨t, found⟩⟩
    refine Emits.emitAll (fun r mem => ?_) trivial
    simp only [decelerationRungs, List.mem_cons, List.not_mem_nil, or_false] at mem
    rcases mem with rfl | rfl
    · refine Rung.within_start (.own (uses_common rfl)) (fun l mem => ?_) (.out own)
      simp only [List.mem_cons, List.not_mem_nil, or_false] at mem
      rcases mem with rfl | rfl | rfl
      · exact Reads.pause
      · exact Acts.delay found
      · exact Reads.timer found
    · exact Rung.within_start (.own own) (fun l mem => by cases mem)
        (.move (.move (.inl rfl) hw))
  next => exact Emits.warn trivial
  next => exact Emits.warn trivial

theorem emits_inverter : d.Speaks .inverter initial d.inverter fun _ => True := by
  refine emits_speedDevice.bind fun word hw => emits_common.bind fun _ _ => ?_
  refine emits_forwardReverse.bind fun _ _ => ?_
  exact (emits_speedMoves (speedWord_of_eq hw)).speaks.bind fun _ _ =>
    emits_deceleration (by decide) (speedWord_of_eq hw)

theorem emits_positionMove {m : Motion} {word : String} (mem : m ∈ d.motions)
    (hm : m.template.isPositioning = true) (hw : d.SpeedWord word) :
    d.Writes k initial (positionMove word m) := by
  unfold positionMove
  split
  next position found =>
    exact Emits.emit (within_move mem (.positioning hm)
      (Operation.mem_values (by simp [found])) hw) trivial
  next => exact Emits.warn trivial

theorem emits_servoMoves {m : Motion} {word : String} {speedWord : Option String}
    (mem : m ∈ d.motions) (hm : m.template.isPositioning = true) (hw : d.SpeedWord word)
    (hs : ∀ w, speedWord = some w → d.SpeedWord w) :
    d.Writes k initial (servoMoves word speedWord m) := by
  refine (emits_positionMove mem hm hw).bind fun _ _ => ?_
  cases speedWord with
  | some w => exact emits_motionMoves mem (hs w rfl)
  | none => exact Emits.pure trivial

theorem emits_speedWord {word : String}
    (h : ∃ speed, d.context.snapshot.speedDevice? d.cylinder.id = some speed ∧
      word = Text.trim speed.device) :
    Emits (d.context.Reached initial) P (speedWord word : Emission σ (Option String)) fun next =>
      ∀ w, next = some w → d.SpeedWord w := by
  obtain ⟨speed, found, rfl⟩ := h
  unfold speedWord
  split
  next w offset =>
    exact Emits.pure fun w' e => Option.some.inj e ▸ ⟨speed, found, .inr offset⟩
  next => exact (Emits.warn (Q := fun _ => True) trivial).bind fun _ _ => Emits.pure nofun

theorem emits_jog {output : String} {role : CylinderRole} (h : d.Uses k role) :
    d.Speaks k initial (d.jog output role) fun _ => True := by
  refine (emits_optionalOutput output).bind fun found known => ?_
  cases found with
  | none => exact Emits.pure trivial
  | some address =>
    refine Emits.emit (Rung.within_start (.own h) (fun l mem => ?_)
      (.output (known address rfl))) trivial
    rw [List.mem_singleton.mp mem]
    exact Reads.manual (by simp) false

theorem proper_brakeRung (h : d.Uses k .brakeRelease) : d.Proper k initial d.brakeRung := by
  refine Rung.within_start (.own (uses_common rfl)) (fun l mem => ?_) (.out h)
  simp only [List.mem_cons, List.not_mem_nil, or_false] at mem
  rcases mem with rfl | rfl
  · exact Reads.own (uses_common rfl)
  · exact Reads.own (uses_common rfl)

theorem emits_servo : d.Speaks .servo initial d.servo fun _ => True := by
  have free : ∀ c ∈ ([] : List Contact), d.Reads .servo initial c := fun c mem => by cases mem
  have loose : ∀ role, none = some role → d.Uses .servo role := by
    intro role e
    cases e
  have positions : d.Uses .servo .servoStart := uses_of_mem (by decide) (by decide)
  have release : d.Uses .servo .brakeRelease := uses_of_mem (by decide) (by decide)
  refine emits_speedDevice.bind fun word hw => emits_common.bind fun _ _ => ?_
  refine (Emits.emit (Q := fun _ => True) (proper_collect (fun m mem =>
    ⟨(d.mem_positioningMotions mem).1, .positioning (d.mem_positioningMotions mem).2⟩)
    positions) trivial).bind fun _ _ => ?_
  refine (emits_speedWord hw).bind fun next hnext => ?_
  have moves : d.Writes .servo initial (d.positioningMotions.forM (servoMoves word next)) :=
    Emits.forM fun m mem => emits_servoMoves (d.mem_positioningMotions mem).1
      (d.mem_positioningMotions mem).2 (speedWord_of_eq hw) hnext
  refine moves.speaks.bind fun _ _ => ?_
  refine (emits_outputs servoStartOutput .servoStart).bind fun start hs => ?_
  refine (emits_coil positions loose free hs).bind fun _ _ => ?_
  refine (Emits.emit (Q := fun _ => True) (proper_brakeRung release) trivial).bind
    fun _ _ => ?_
  refine (emits_outputs brakeOutput .brake).bind fun brake hb => ?_
  refine (emits_coil release loose free hb).bind fun _ _ => ?_
  exact (emits_jog (uses_common rfl)).bind fun _ _ => emits_jog (uses_common rfl)

/-- Every rung of a drive is within the vocabulary of its class. -/
theorem emits_output : d.Speaks k initial (d.output k) fun _ => True := by
  cases k with
  | singleValve => exact emits_singleValve
  | doubleValve => exact emits_doubleValve
  | motor => exact emits_motor
  | flowValve => exact emits_flowValve
  | servo => exact emits_servo
  | inverter => exact emits_inverter

end Drive

namespace Context

variable {σ : Type} (c : Context σ) {initial : σ} {I : σ → Prop} {P : Rung → Prop} {cy : Cylinder}

/-- The cylinder's class is known, and its block holds the roles of the class. -/
def CylinderFits (cy : Cylinder) : Prop :=
  ∃ k b, DriveClass.ofCode? cy.driveCode = some k ∧ c.Fits cy.owner k.roles b

/-- A cylinder's drive, once its block is known. -/
def drive (cy : Cylinder) (b : Block) : Drive σ :=
  ⟨c, cy, b, c.snapshot.motionsOf cy.id,
    (resolveManual (c.snapshot.manualControl? cy.id) c.settings).1⟩

/-- A rung that the cylinder may have contributed. -/
def CylinderRung (initial : σ) (cy : Cylinder) (r : Rung) : Prop :=
  ∃ k b, DriveClass.ofCode? cy.driveCode = some k ∧ c.Fits cy.owner k.roles b ∧
    (c.drive cy b).Proper k initial r

theorem emits_checkDirection (m : Motion) :
    (checkDirection m).Emits I P fun _ => True := by
  unfold checkDirection
  split
  next => exact Emission.Emits.pure trivial
  next => exact Emission.Emits.warn trivial

theorem emits_manualSignals : (c.manualSignals cy).Emits I P fun signals =>
    signals = (resolveManual (c.snapshot.manualControl? cy.id) c.settings).1 :=
  (Emission.Emits.forM fun _ _ => Emission.Emits.warn trivial).bind fun _ _ =>
    Emission.Emits.pure rfl

theorem emits_cylinder : (c.cylinder cy).Emits (c.Reached initial) (c.CylinderRung initial cy)
    fun _ => c.CylinderFits cy := by
  unfold cylinder
  split
  next => exact Emission.Emits.halt
  next k known =>
    refine (c.emits_block cy.owner k.roles).bind fun b fits => ?_
    refine (Emission.Emits.forM fun m _ => emits_checkDirection m).bind fun _ _ => ?_
    refine c.emits_manualSignals.bind fun signals eq => ?_
    rw [eq]
    exact (Drive.emits_output (d := c.drive cy b)).weaken
      (fun r proper => ⟨k, b, known, fits, proper⟩) fun _ _ => ⟨k, b, known, fits⟩

end Context

end Rungs
