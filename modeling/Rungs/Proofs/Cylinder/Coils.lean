import Rungs.IoTable
import Rungs.Proofs.Coverage
import Rungs.Proofs.Resolution

/-! The output coils of a valve. Every point of a side is accounted for: it has an output row at its
address, or a warning of its own. The outputs of a side stand together, in the order of the points,
behind one condition, and a side without any address has no row (`valve_accounts_for_points`). -/

namespace Rungs

open Emission

/-- The two sides that a valve may drive a cylinder to. -/
inductive ValveSide where
  | go | back
deriving DecidableEq, Repr

namespace ValveSide

def opposite : ValveSide → ValveSide
  | go => back | back => go

def output : ValveSide → String
  | go => "G" | back => "B"

def command : ValveSide → CylinderRole
  | go => .goCommand | back => .backCommand

def hold : ValveSide → CylinderRole
  | go => .retainGo | back => .retainBack

def direction : ValveSide → Direction
  | go => .go | back => .back

/-- One value for each side. -/
def pick {α : Type} (forGo forBack : α) : ValveSide → α
  | go => forGo | back => forBack

/-- The condition of a side's outputs: the command of the side, or the hold of a side that is held;
and of a valve whose sides are interlocked, neither the opposite command nor the first output that
the opposite side has. -/
def conditionRows (side : ValveSide) (b : Block) (held interlocked : Bool)
    (opposite : Option String) : List Row :=
  (b.contact side.command).load ::
    ((if held then [(b.contact side.hold).parallel] else []) ++
      if interlocked then
        (b.inverted side.opposite.command).series ::
          (opposite.map fun address => (Contact.inverted address).series).toList
      else [])

/-- The outputs of a side behind their condition. Without outputs there is no row. -/
def coilRows (side : ValveSide) (b : Block) (held interlocked : Bool) (opposite : Option String)
    (outs : List Row) : List Row :=
  if outs = [] then [] else side.conditionRows b held interlocked opposite ++ outs

end ValveSide

namespace DriveClass

/-- The sides that a valve drives. -/
def valveSides : DriveClass → List ValveSide
  | .singleValve => [.go]
  | .doubleValve | .flowValve => [.go, .back]
  | .motor | .servo | .inverter => []

def isInterlocked : DriveClass → Bool
  | .doubleValve | .flowValve => true
  | .singleValve | .motor | .servo | .inverter => false

/-- What the points of a side are used for. -/
def coilUse : DriveClass → ValveSide → OutputUse
  | .singleValve, _ => .valve
  | _, .go => .goCoil
  | _, .back => .backCoil

theorem valveSides_of_isInterlocked {k : DriveClass} (h : k.isInterlocked = true) :
    k.valveSides = [.go, .back] := by
  cases k with
  | doubleValve | flowValve => rfl
  | singleValve | motor | servo | inverter => cases h

theorem coilUse_of_isInterlocked {k : DriveClass} (h : k.isInterlocked = true) :
    k.coilUse = ValveSide.pick .goCoil .backCoil := by
  funext side
  cases k with
  | doubleValve | flowValve => cases side <;> rfl
  | singleValve | motor | servo | inverter => cases h

end DriveClass

/-- Point by point, an output row at the point's address, or a warning that names the point. -/
inductive Accounted (number : String) (use : OutputUse) :
    List (String × Option String) → List Row → List Finding → Prop
  | nil : Accounted number use [] [] []
  | output {name address : String} {points : List (String × Option String)} {outs : List Row}
      {warnings : List Finding} (rest : Accounted number use points outs warnings) :
      Accounted number use ((name, some address) :: points)
        (.instruction .out [address] :: outs) warnings
  | warning {name : String} {points : List (String × Option String)} {outs : List Row}
      {warnings : List Finding} (rest : Accounted number use points outs warnings) :
      Accounted number use ((name, none) :: points) outs
        (.unknownOutput name number use :: warnings)

/-- The finding is not about an output that has no address. -/
def Finding.SparesOutputs (f : Finding) : Prop :=
  ∀ output cylinder use, f ≠ .unknownOutput output cylinder use

/-- The addresses of the points that have one. -/
def addressesOf (points : List (String × Option String)) : List String := points.filterMap Prod.snd

/-- What the points come to is determined. -/
theorem accounted_iff {number : String} {use : OutputUse}
    {points : List (String × Option String)} {outs : List Row} {warnings : List Finding} :
    Accounted number use points outs warnings ↔
      outs = (addressesOf points).map (fun address => .instruction .out [address]) ∧
        warnings = missingPoints (.unknownOutput · number use) points := by
  induction points generalizing outs warnings with
  | nil =>
    constructor
    · rintro ⟨⟩
      exact ⟨rfl, rfl⟩
    · rintro ⟨rfl, rfl⟩
      exact .nil
  | cons point rest ih =>
    constructor
    · intro h
      cases h with
      | output more =>
        obtain ⟨rfl, rfl⟩ := ih.mp more
        exact ⟨rfl, rfl⟩
      | warning more =>
        obtain ⟨rfl, rfl⟩ := ih.mp more
        exact ⟨rfl, rfl⟩
    · rintro ⟨rfl, rfl⟩
      rcases point with ⟨name, _ | address⟩
      · exact .warning (ih.mpr ⟨rfl, rfl⟩)
      · exact .output (ih.mpr ⟨rfl, rfl⟩)

namespace Drive

variable {σ : Type} (d : Drive σ) {initial m : σ}

/-! ## What each part yields -/

theorem yields_retain (motions : List Motion) (opposite target : CylinderRole) (m : σ) :
    Yields (d.retain motions opposite target) m
      (if (retained motions).isEmpty then none else some target)
      (d.holdRungs motions opposite target) [] m := by
  unfold retain holdRungs
  cases retained motions with
  | nil => exact .pure
  | cons motion rest => exact Yields.emit.bind .pure

theorem yields_outputs {output : String} {points : List (String × Option String)} {m' : σ}
    (use : OutputUse) (looked : Yields (d.context.resolvePoints (d.request output)
      d.cylinder.pointCount) m points [] [] m') :
    Yields (d.outputs output use) m (addressesOf points) []
      (missingPoints (.unknownOutput · d.cylinder.number use) points) m' := by
  have found : Yields (points.mapM (d.foundOutput use)) m' (points.map Prod.snd) []
      (missingPoints (.unknownOutput · d.cylinder.number use) points) m' := by
    refine yields_mapM_points (fun point => ?_) points
    rcases point with ⟨name, _ | address⟩
    · exact Yields.warn.bind .pure
    · exact .pure
  have all : addressesOf points = (points.map Prod.snd).reduceOption := by
    rw [List.reduceOption, List.filterMap_map]
    rfl
  rw [all, ← List.append_nil (missingPoints _ _)]
  exact looked.bind (found.bind .pure)

theorem yields_coil {command : CylinderRole} {hold : Option CylinderRole}
    {interlocks : List Contact} {addresses : List String} :
    Yields (d.coil command hold interlocks addresses) m ()
      (d.coilRungs command hold interlocks addresses) [] m := by
  cases addresses with
  | nil => exact .pure
  | cons address more => exact .emit

/-- An output coil is its condition and then its outputs, in order. -/
theorem rows_coilRungs {command : CylinderRole} {hold : Option CylinderRole}
    {interlocks : List Contact} {addresses : List String} (some : addresses ≠ []) :
    streamRows (d.coilRungs command hold interlocks addresses) =
      (d.contact command).load :: ((hold.map fun role => (d.contact role).parallel).toList ++
        interlocks.map Contact.series) ++ addresses.map fun x => .instruction .out [x] := by
  cases addresses with
  | nil => exact absurd rfl some
  | cons address more =>
    have outs : ((address :: more).map Action.out).dropLast.map Action.row ++
        [(((address :: more).map Action.out).getLast (by simp)).row] =
        (address :: more).map fun x => .instruction .out [x] := by
      rw [← List.map_singleton, ← List.map_append, List.dropLast_append_getLast, List.map_map]
      rfl
    have single : streamRows [d.coilRung command hold interlocks address more] =
        (d.coilRung command hold interlocks address more).rows := List.flatMap_singleton ..
    have held : (hold.map fun role => Link.parallel (d.contact role)).toList.map Link.row =
        (hold.map fun role => (d.contact role).parallel).toList := by
      cases hold <;> rfl
    rw [coilRungs, single, coilRung, Rung.rows_start, List.map_append, List.map_append, held,
      List.map_map, List.map_map, ← outs, List.cons_append, List.append_assoc]
    rfl

/-! ## Sides -/

def sideMotions : ValveSide → List Motion
  | .go => d.goMotions | .back => d.backMotions

def isHeld (side : ValveSide) : Bool := !(retained (d.sideMotions side)).isEmpty

def holdOf (side : ValveSide) : Option CylinderRole :=
  if (retained (d.sideMotions side)).isEmpty then none else some side.hold

/-- The holds of all sides. -/
def holdsOf (k : DriveClass) : List Rung :=
  k.valveSides.flatMap fun side =>
    d.holdRungs (d.sideMotions side) side.opposite.command side.hold

def sideInterlocks (k : DriveClass) (points : ValveSide → List (String × Option String))
    (side : ValveSide) : List Contact :=
  if k.isInterlocked then
    d.interlocks side.opposite.command (addressesOf (points side.opposite))
  else []

/-- The coil of a side. -/
def sideCoil (k : DriveClass) (points : ValveSide → List (String × Option String))
    (side : ValveSide) : List Rung :=
  d.coilRungs side.command (d.holdOf side) (d.sideInterlocks k points side)
    (addressesOf (points side))

/-- The warnings of a side. -/
def sideWarnings (k : DriveClass) (points : ValveSide → List (String × Option String))
    (side : ValveSide) : List Finding :=
  missingPoints (.unknownOutput · d.cylinder.number (k.coilUse side)) (points side)

def lookUp (side : ValveSide) : Emission σ (List (String × Option String)) :=
  d.context.resolvePoints (d.request side.output) d.cylinder.pointCount

variable {d} {k : DriveClass} {points : ValveSide → List (String × Option String)}

theorem rows_sideCoil (side : ValveSide) : streamRows (d.sideCoil k points side) =
    side.coilRows d.block (d.isHeld side) k.isInterlocked
      (addressesOf (points side.opposite)).head?
      ((addressesOf (points side)).map fun address => .instruction .out [address]) := by
  have held : ((d.holdOf side).map fun role => (d.contact role).parallel).toList =
      if d.isHeld side then [(d.block.contact side.hold).parallel] else [] := by
    unfold holdOf isHeld
    cases retained (d.sideMotions side) <;> rfl
  have locked : (d.sideInterlocks k points side).map Contact.series = if k.isInterlocked then
      (d.block.inverted side.opposite.command).series ::
        ((addressesOf (points side.opposite)).head?.map
          fun address => (Contact.inverted address).series).toList else [] := by
    unfold sideInterlocks interlocks
    split
    · cases (addressesOf (points side.opposite)).head? <;> rfl
    · rfl
  unfold sideCoil ValveSide.coilRows
  by_cases none : addressesOf (points side) = []
  · rw [none]
    rfl
  · have outs : (addressesOf (points side)).map
        (fun address => Row.instruction .out [address]) ≠ [] := by simpa using none
    rw [if_neg outs, rows_coilRungs d none, held, locked]
    rfl

/-- The points of all sides, looked up one side after the other. -/
structure Looks (d : Drive σ) (initial : σ) (k : DriveClass) (m : σ)
    (points : ValveSide → List (String × Option String)) (m' : σ) : Prop where
  looked : Yields (k.valveSides.mapM d.lookUp) m (k.valveSides.map points) [] [] m'
  names : ∀ side ∈ k.valveSides,
    (points side).map Prod.fst = Context.pointNames side.output d.cylinder.pointCount
  settled : ∀ side ∈ k.valveSides, ∀ point ∈ points side,
    d.context.resolver.Settles initial ⟨point.1, true, d.cylinder.number, d.cylinder.id⟩ point.2

theorem yields_singleValve (hm : d.context.Reached initial m) :
    ∃ points m', d.Looks initial .singleValve m points m' ∧
      Yields d.singleValve m ()
        (d.commonRungs ++ (d.holdsOf .singleValve ++
          DriveClass.singleValve.valveSides.flatMap (d.sideCoil .singleValve points)))
        (DriveClass.singleValve.valveSides.flatMap (d.sideWarnings .singleValve points)) m' := by
  obtain ⟨go, m', looked, _, names, settled⟩ := d.context.yields_resolvePoints
    (d.request goOutput) d.cylinder.pointCount hm
  refine ⟨fun _ => go, m', ⟨looked.bind (.bind .pure .pure), ?_, ?_⟩, ?_⟩
  · intro side mem
    rw [List.mem_singleton.mp mem]
    exact names
  · intro side _
    exact settled
  · have retain := d.yields_retain d.goMotions .backCommand .retainGo m
    have outputs := d.yields_outputs .valve looked
    have whole : Yields d.singleValve m () _ _ m' :=
      Yields.emitAll.bind (retain.bind (outputs.bind d.yields_coil))
    simp only [List.nil_append, List.append_nil] at whole
    simp only [holdsOf, DriveClass.valveSides, List.flatMap_singleton]
    exact whole

theorem yields_doubleCoils (locked : k.isInterlocked = true) (hm : d.context.Reached initial m) :
    ∃ points m', d.Looks initial k m points m' ∧
      Yields d.doubleCoils m ()
        (d.holdsOf k ++ k.valveSides.flatMap (d.sideCoil k points))
        (k.valveSides.flatMap (d.sideWarnings k points)) m' := by
  have two : k.valveSides = [.go, .back] := k.valveSides_of_isInterlocked locked
  obtain ⟨go, m₁, lookedGo, hm₁, namesGo, settledGo⟩ := d.context.yields_resolvePoints
    (d.request goOutput) d.cylinder.pointCount hm
  obtain ⟨back, m₂, lookedBack, _, namesBack, settledBack⟩ := d.context.yields_resolvePoints
    (d.request backOutput) d.cylinder.pointCount hm₁
  refine ⟨ValveSide.pick go back, m₂, ⟨?_, fun side _ => ?_, fun side _ => ?_⟩, ?_⟩
  · have second : Yields ([ValveSide.back].mapM d.lookUp) m₁ [back] [] [] m₂ := by
      rw [List.mapM_cons, List.mapM_nil]
      exact lookedBack.bind (.bind .pure .pure)
    rw [two, List.mapM_cons]
    exact lookedGo.bind (second.bind .pure)
  · cases side with
    | go => exact namesGo
    | back => exact namesBack
  · cases side with
    | go => exact settledGo
    | back => exact settledBack
  · have retainGo := d.yields_retain d.goMotions .backCommand .retainGo m
    have retainBack := d.yields_retain d.backMotions .goCommand .retainBack m
    have outputsGo := d.yields_outputs .goCoil lookedGo
    have outputsBack := d.yields_outputs .backCoil lookedBack
    have whole : Yields d.doubleCoils m () _ _ m₂ := retainGo.bind (retainBack.bind
      (outputsGo.bind (outputsBack.bind (d.yields_coil.bind d.yields_coil))))
    simp only [List.nil_append, List.append_nil] at whole
    simp only [holdsOf, two, List.flatMap_cons, List.flatMap_nil, List.append_nil,
      List.append_assoc, sideCoil, sideInterlocks, locked, if_true, sideWarnings,
      k.coilUse_of_isInterlocked locked]
    exact whole

theorem isHeld_iff (side : ValveSide) :
    d.isHeld side = true ↔ retained (towards side.direction d.motions) ≠ [] := by
  cases side <;> simp [isHeld, sideMotions, goMotions, backMotions, ValveSide.direction]

theorem actions_commonRungs :
    ∀ r ∈ d.commonRungs, ∃ role : CylinderRole, r.actions = [.out (d.bit role)] := by
  intro r mem
  simp only [commonRungs, List.mem_cons, List.not_mem_nil, or_false] at mem
  rcases mem with rfl | rfl | rfl | rfl | rfl | rfl | rfl | rfl
  · exact ⟨.autoGo, Rung.actions_anyOf⟩
  · exact ⟨.autoBack, Rung.actions_anyOf⟩
  · exact ⟨.manualGo, rfl⟩
  · exact ⟨.manualBack, rfl⟩
  · exact ⟨.forcedOff, Rung.actions_anyOf⟩
  · exact ⟨.goCommand, rfl⟩
  · exact ⟨.backCommand, rfl⟩
  · exact ⟨.outputOk, rfl⟩

theorem actions_holdsOf :
    ∀ r ∈ d.holdsOf k, ∃ role : CylinderRole, r.actions = [.out (d.bit role)] := by
  intro r mem
  obtain ⟨side, _, mem⟩ := List.mem_flatMap.mp mem
  unfold holdRungs at mem
  split at mem
  · cases mem
  · rw [List.mem_singleton.mp mem]
    exact ⟨side.hold, rfl⟩

/-- The rows before the coils write bits of the block only. -/
theorem out_of_mem_front {row : Row} (mem : row ∈ streamRows (d.commonRungs ++ d.holdsOf k))
    (out : row.command = .out) : ∃ role : CylinderRole, row = .instruction .out [d.bit role] := by
  obtain ⟨r, listed, inside⟩ := List.mem_flatMap.mp mem
  obtain ⟨role, actions⟩ : ∃ role : CylinderRole, r.actions = [.out (d.bit role)] :=
    (List.mem_append.mp listed).elim (actions_commonRungs r) (actions_holdsOf r)
  obtain ⟨a, action, rfl⟩ := Rung.exists_action_of_row inside (by rw [out]; rfl)
  rw [actions] at action
  rw [List.mem_singleton.mp action]
  exact ⟨role, rfl⟩

/-- Rungs that decide on no device have no output. -/
theorem not_out_of_targets {rungs : List Rung} (idle : ∀ r ∈ rungs, r.targets = []) {row : Row}
    (mem : row ∈ streamRows rungs) : row.command ≠ .out := by
  intro out
  obtain ⟨r, listed, inside⟩ := List.mem_flatMap.mp mem
  obtain ⟨a, action, rfl⟩ := Rung.exists_action_of_row inside (by rw [out]; rfl)
  have target : ∃ x, a.target? = some x := by
    cases a with
    | out x => exact ⟨x, rfl⟩
    | delay timer preset => exact ⟨_, rfl⟩
    | set x | reset x | pulse x | move value word | jump pointer => cases out
  obtain ⟨x, decides⟩ := target
  have driven := Rung.mem_targets.mpr ⟨a, action, decides⟩
  rw [idle r listed] at driven
  cases driven

/-! ## Classes -/

theorem sparing_speedMoves (word : String) : Warns Finding.SparesOutputs (d.speedMoves word) := by
  have step (motion : Motion) (step : Step) : Warns Finding.SparesOutputs
      (stepMove motion word step : Emission σ Unit) := by
    unfold stepMove
    split
    · exact .emit _
    · exact .warn nofun
  refine .bind (.forM (fun motion => ?_) _) fun _ => .emit _
  rw [motionMoves_eq]
  refine .bind ?_ fun _ => .forM (step motion) _
  split
  · exact .emit _
  · exact .pure ()

/-- A valve writes its common rungs, its holds and its coils, and then perhaps moves of a word. -/
theorem yields_valve (valve : k.valveSides ≠ []) (hm : d.context.Reached initial m)
    (ok : ((d.output k).run m).result = .ok ()) :
    ∃ points m₁ moves later m', d.Looks initial k m points m₁ ∧
      Yields (d.output k) m ()
        (d.commonRungs ++ (d.holdsOf k ++ k.valveSides.flatMap (d.sideCoil k points)) ++ moves)
        (k.valveSides.flatMap (d.sideWarnings k points) ++ later) m' ∧
      (∀ r ∈ moves, r.targets = []) ∧ ∀ f ∈ later, f.SparesOutputs := by
  cases k with
  | motor | servo | inverter => exact absurd rfl valve
  | singleValve =>
    obtain ⟨points, m₁, looks, written⟩ := d.yields_singleValve hm
    refine ⟨points, m₁, [], [], m₁, looks, ?_, nofun, nofun⟩
    rw [List.append_nil, List.append_nil]
    exact written
  | doubleValve =>
    obtain ⟨points, m₁, looks, coils⟩ := yields_doubleCoils (k := .doubleValve) rfl hm
    refine ⟨points, m₁, [], [], m₁, looks, ?_, nofun, nofun⟩
    rw [List.append_nil, List.append_nil]
    exact Yields.emitAll.bind coils
  | flowValve =>
    obtain ⟨points, m₁, looks, coils⟩ := yields_doubleCoils (k := .flowValve) rfl hm
    obtain halts | ⟨word, returns, _⟩ := d.speedDevice_cases
    · rw [output, flowValve, halts] at ok
      cases ok
    · have moves := Yields.of_returns (d.returns_speedMoves (m := m₁) word)
      refine ⟨points, m₁, d.speedRungs word, _, m₁, looks, ?_, d.targets_speedRungs,
        d.sparing_speedMoves word m₁⟩
      rw [output, flowValve, returns, Emission.pure_bind, List.append_assoc]
      exact Yields.emitAll.bind (coils.bind moves)

end Drive

namespace Context

variable {σ : Type} (c : Context σ) {cy : Cylinder} {k : DriveClass} {m : σ}

theorem sparing_checkDirections (motions : List Motion) :
    Warns (σ := σ) Finding.SparesOutputs (motions.forM checkDirection) := by
  refine .forM (fun motion => ?_) _
  unfold checkDirection
  split
  · exact .pure ()
  · exact .warn nofun

/-- The manual signals come with no warning but that there are none. -/
theorem sparing_manualSignals (cy : Cylinder) :
    Warns Finding.SparesOutputs (c.manualSignals cy) := by
  unfold manualSignals
  rcases eq : resolveManual (c.snapshot.manualControl? cy.id) c.settings with
    ⟨signals, _ | finding⟩
  · exact .bind (.pure ()) fun _ => .pure signals
  · have only : finding = .noManualControl c.settings.alwaysOff := by
      unfold resolveManual at eq
      split at eq
      · cases eq
      · exact (Option.some.inj (Prod.mk.inj eq).2).symm
    refine .bind (.bind (.warn ?_) fun _ => .pure ()) fun _ => .pure signals
    rw [only]
    exact nofun

/-- A cylinder that comes to its end leaves what its drive leaves, after warnings of its own. -/
theorem yields_cylinder (known : DriveClass.ofCode? cy.driveCode = some k)
    (ok : ((c.cylinder cy).run m).result = .ok ()) :
    ∃ b earlier, c.Fits cy.owner k.roles b ∧ (∀ f ∈ earlier, f.SparesOutputs) ∧
      (((c.drive cy b).output k).run m).result = .ok () ∧
      ∀ rungs warnings m', Yields ((c.drive cy b).output k) m () rungs warnings m' →
        Yields (c.cylinder cy) m () rungs (earlier ++ warnings) m' := by
  have directions := Yields.of_returns (returns_checkDirections (c.snapshot.motionsOf cy.id) m)
  have signals := Yields.of_returns (c.returns_manualSignals cy m)
  unfold cylinder at ok ⊢
  rw [known] at ok ⊢
  dsimp only at ok ⊢
  obtain ⟨f, halts⟩ | ⟨b, returns, fits⟩ := c.block_cases cy.owner k.roles
  · rw [halts] at ok
    cases ok
  · rw [returns, Emission.pure_bind] at ok
    rw [directions.returns.result_then, signals.returns.result_then] at ok
    refine ⟨b, (((c.snapshot.motionsOf cy.id).forM checkDirection).run m).warnings ++
      ((c.manualSignals cy).run m).warnings, fits, fun f mem => ?_, ok,
      fun rungs warnings m' written => ?_⟩
    · exact (List.mem_append.mp mem).elim (sparing_checkDirections _ m f)
        (c.sparing_manualSignals cy m f)
    · rw [returns, Emission.pure_bind, List.append_assoc]
      exact directions.bind (signals.bind written)

/-- A valve's cylinder as it comes out: for each side its points, settled in the order of the sides,
and what they come to, with the rows and the diagnostics around them. -/
structure ValveOutputs (cy : Cylinder) (k : DriveClass) (m : σ) (b : Block)
    (held : ValveSide → Bool) (points : ValveSide → List (String × Option String))
    (outs : ValveSide → List Row) (warnings : ValveSide → List Finding) : Prop where
  fits : c.Fits cy.owner k.roles b
  held_iff : ∀ side ∈ k.valveSides, held side = true ↔ c.snapshot.Retains cy.id side.output
  looked : ((k.valveSides.mapM fun side => c.resolvePoints
    ⟨side.output, true, cy.number, cy.id⟩ cy.pointCount).run m).result =
      .ok (k.valveSides.map points)
  names : ∀ side ∈ k.valveSides, (points side).map Prod.fst = pointNames side.output cy.pointCount
  settled : ∀ side ∈ k.valveSides, ∀ point ∈ points side,
    c.resolver.Settles m ⟨point.1, true, cy.number, cy.id⟩ point.2
  accounted : ∀ side ∈ k.valveSides,
    Accounted cy.number (k.coilUse side) (points side) (outs side) (warnings side)
  /-- Before the coils only bits of the block are written, and after them nothing. -/
  rows : ∃ before after, (((c.cylinder cy).run m).synthesis cy.owner).rows =
      before ++ k.valveSides.flatMap (fun side => side.coilRows b (held side) k.isInterlocked
        (addressesOf (points side.opposite)).head? (outs side)) ++ after ∧
    (∀ row ∈ before, row.command = .out →
      ∃ role : CylinderRole, row = .instruction .out [b.bit role]) ∧
    ∀ row ∈ after, row.command ≠ .out
  diagnostics : ∃ earlier later, ((c.cylinder cy).run m).diagnostics cy.owner =
      (earlier ++ k.valveSides.flatMap warnings ++ later).map cy.owner.warning ∧
    (∀ f ∈ earlier, f.SparesOutputs) ∧ ∀ f ∈ later, f.SparesOutputs

/-- Every output point of a valve is accounted for, whatever the resolver answers. -/
theorem valve_accounts_for_points (cy : Cylinder) (k : DriveClass) (m : σ)
    (known : DriveClass.ofCode? cy.driveCode = some k) (valve : k.valveSides ≠ [])
    (ok : ((c.cylinder cy).run m).result = .ok ()) :
    ∃ b held points outs warnings, c.ValveOutputs cy k m b held points outs warnings := by
  obtain ⟨b, earlier, fits, sparing, done, lifts⟩ := c.yields_cylinder known ok
  have reached : c.Reached m m := .start
  obtain ⟨points, m₁, moves, later, m', looks, written, moving, sparing'⟩ :=
    (c.drive cy b).yields_valve valve reached done
  have whole := lifts _ _ _ written
  refine ⟨b, (c.drive cy b).isHeld, points,
    fun side => (addressesOf (points side)).map fun address => .instruction .out [address],
    (c.drive cy b).sideWarnings k points, fits, ?_, looks.looked.returns.result, looks.names,
    looks.settled, fun side _ => accounted_iff.mpr ⟨rfl, rfl⟩, ?_, ?_⟩
  · intro side _
    rw [Drive.isHeld_iff]
    cases side with
    | go => exact c.snapshot.retained_ne_nil_iff cy.id .go "G" (by decide) fun _ =>
        Motion.direction?_iff
    | back => exact c.snapshot.retained_ne_nil_iff cy.id .back "B" (by decide) fun _ =>
        Motion.direction?_iff
  · refine ⟨streamRows ((c.drive cy b).commonRungs ++ (c.drive cy b).holdsOf k),
      streamRows moves, ?_, fun row mem => Drive.out_of_mem_front mem,
      fun row mem => Drive.not_out_of_targets moving mem⟩
    have coils : streamRows (k.valveSides.flatMap ((c.drive cy b).sideCoil k points)) =
        k.valveSides.flatMap fun side => streamRows ((c.drive cy b).sideCoil k points side) :=
      List.flatMap_assoc
    show streamRows ((c.cylinder cy).run m).rungs = _
    rw [whole.returns.rungs, ← List.append_assoc, streamRows_append, streamRows_append, coils]
    simp only [Drive.rows_sideCoil]
    rfl
  · refine ⟨earlier, later, ?_, sparing, sparing'⟩
    rw [Yields] at whole
    rw [Outcome.diagnostics, whole, List.append_nil]
    exact congrArg (List.map cy.owner.warning) (List.append_assoc ..).symm

end Context

/-- A double valve with two points for each side, of which one side has the first and the other the
second, held to its go side by a retention. -/
private def halfWired : Context (List Choice) where
  settings := {}
  resolver := IoTable.resolver {
    points :=
      [{ id := 1, name := "G1", address := "Y0", isOutput := true },
       { id := 2, name := "B2", address := "Y3", isOutput := true }] }
  conditionIds := conditionIds []
  snapshot :=
    { cylinders := [{ id := 1, number := "CY1", driveCode := 2, pointCount := some 2 }]
      operations := [{ id := 1, cylinderId := 1, categoryCode := 2, goBack := some "G" }]
      allocations := [⟨.operation, 1, "L", 0, 20⟩, ⟨.cylinder, 1, "L", 20, 10⟩] }

theorem valve_accounts_for_points_halfWired :
    let cy : Cylinder := { id := 1, number := "CY1", driveCode := 2, pointCount := some 2 }
    DriveClass.ofCode? cy.driveCode = some .doubleValve ∧
      DriveClass.doubleValve.valveSides ≠ [] ∧
      ((halfWired.cylinder cy).run []).result = .ok () ∧
      ∃ b held points outs warnings,
        halfWired.ValveOutputs cy .doubleValve [] b held points outs warnings ∧
          held .go = true ∧ held .back = false ∧
          outs .go = [.instruction .out ["Y0"]] ∧ outs .back = [.instruction .out ["Y3"]] ∧
          warnings .go = [.unknownOutput "G2" "CY1" .goCoil] ∧
          warnings .back = [.unknownOutput "B1" "CY1" .backCoil] := by
  intro cy
  have known : DriveClass.ofCode? cy.driveCode = some .doubleValve := by decide
  have valve : DriveClass.doubleValve.valveSides ≠ [] := by decide
  have ok : ((halfWired.cylinder cy).run []).result = .ok () := by decide +kernel
  obtain ⟨b, held, points, outs, warnings, written⟩ :=
    halfWired.valve_accounts_for_points cy .doubleValve [] known valve ok
  have looked : ((DriveClass.doubleValve.valveSides.mapM fun side => halfWired.resolvePoints
      ⟨side.output, true, cy.number, cy.id⟩ cy.pointCount).run []).result =
        .ok [[("G1", some "Y0"), ("G2", none)], [("B1", none), ("B2", some "Y3")]] := by
    decide +kernel
  rw [written.looked] at looked
  have sides : [points .go, points .back] =
      [[("G1", some "Y0"), ("G2", none)], [("B1", none), ("B2", some "Y3")]] :=
    Except.ok.inj looked
  obtain ⟨go, more⟩ := List.cons_eq_cons.mp sides
  obtain ⟨back, -⟩ := List.cons_eq_cons.mp more
  obtain ⟨outsGo, warningsGo⟩ := accounted_iff.mp (written.accounted .go (by decide))
  obtain ⟨outsBack, warningsBack⟩ := accounted_iff.mp (written.accounted .back (by decide))
  rw [go] at outsGo warningsGo
  rw [back] at outsBack warningsBack
  have retained : halfWired.snapshot.Retains cy.id "G" :=
    ⟨_, List.mem_cons_self, rfl, by decide, by decide, by decide⟩
  have free : ¬halfWired.snapshot.Retains cy.id "B" := by
    rintro ⟨o, mem, -, -, -, side⟩
    rw [List.mem_singleton.mp mem] at side
    exact absurd side (by decide)
  have heldGo := (written.held_iff .go (by decide)).mpr retained
  have heldBack := fun h => free ((written.held_iff .back (by decide)).mp h)
  exact ⟨known, valve, ok, b, held, points, outs, warnings, written, heldGo,
    by simpa using heldBack, outsGo, outsBack, warningsGo, warningsBack⟩

end Rungs
