import Rungs.Proofs.Cylinder.Moves

/-! The rungs that a drive writes once its wiring is known, class by class. Of the rungs that move
words a `Layout` says no more than that they decide on no device; which ones they are stands in
`returns_flowValve`, `returns_inverter` and `returns_servo`. -/

namespace Rungs.Drive

open Emission

variable {σ : Type} (d : Drive σ)

/-- The hold of a side for its retained motions, if it has any. -/
def holdRungs (motions : List Motion) (opposite target : CylinderRole) : List Rung :=
  match motionContacts (retained motions) .hold with
  | [] => []
  | c :: cs =>
    [{ entry := c, others := cs, links := [.series (d.inverted opposite)],
       last := .out (d.bit target) }]

/-- The holds of both sides. -/
def sideHolds : List Rung :=
  d.holdRungs d.goMotions .backCommand .retainGo ++
    d.holdRungs d.backMotions .goCommand .retainBack

/-- The coils of a double valve. -/
def valveRungs (holdGo holdBack : Option CylinderRole) (w : Wiring) : List Rung :=
  d.coilRungs .goCommand holdGo (d.interlocks .backCommand w.back) w.go ++
    d.coilRungs .backCommand holdBack (d.interlocks .goCommand w.go) w.back

/-- The coils of a motor. -/
def motorRungs (w : Wiring) : List Rung :=
  d.coilRungs .goCommand none [d.inverted .backCommand] w.go ++
    d.coilRungs .backCommand none [d.inverted .goCommand] w.back

/-- The forced deceleration, if the drive has a timer for it. -/
def slowRungs (word : String) : List Rung :=
  match d.decelerationTimer with
  | .found t => d.decelerationRungs t word
  | _ => []

/-- The rungs of a servo between the common ones and the jog outputs. -/
def servoRungs (moves : List Rung) (start brake : List String) : List Rung :=
  [d.collect d.positioningMotions .positioningStart .servoStart] ++ (moves ++
    (d.coilRungs .servoStart none [] start ++ ([d.brakeRung] ++
      d.coilRungs .brakeRelease none [] brake)))

def jogRungs (w : Wiring) : List Rung :=
  d.coilRungs .manualGo none [.plain d.manual.enable] w.go ++
    d.coilRungs .manualBack none [.plain d.manual.enable] w.back

/-- What a drive of a class writes for a wiring. -/
inductive Layout (w : Wiring) : DriveClass → List Rung → Prop
  | singleValve (hold : Option CylinderRole) (back : w.back = []) (others : w.others = []) :
      Layout w .singleValve (d.commonRungs ++ (d.holdRungs d.goMotions .backCommand .retainGo ++
        d.coilRungs .goCommand hold [] w.go))
  | doubleValve (holdGo holdBack : Option CylinderRole) (others : w.others = []) :
      Layout w .doubleValve (d.commonRungs ++ (d.sideHolds ++ d.valveRungs holdGo holdBack w))
  | flowValve (holdGo holdBack : Option CylinderRole) (moves : List Rung)
      (moving : ∀ r ∈ moves, r.targets = []) (others : w.others = []) :
      Layout w .flowValve (d.commonRungs ++ ((d.sideHolds ++ d.valveRungs holdGo holdBack w) ++
        moves))
  | motor (others : w.others = []) : Layout w .motor (d.commonRungs ++ d.motorRungs w)
  | inverter (word : String) (moves : List Rung) (moving : ∀ r ∈ moves, r.targets = [])
      (others : w.others = []) :
      Layout w .inverter (d.commonRungs ++ (d.motorRungs w ++ (moves ++ d.slowRungs word)))
  | servo (moves : List Rung) (start brake : List String) (moving : ∀ r ∈ moves, r.targets = [])
      (others : w.others = start ++ brake) :
      Layout w .servo (d.commonRungs ++ (d.servoRungs moves start brake ++ d.jogRungs w))

variable {d} {w : Wiring} {m : σ}

/-! ## Parts -/

theorem returns_retain (motions : List Motion) (opposite target : CylinderRole) (m : σ) :
    ∃ hold, Returns (d.retain motions opposite target) m hold
      (d.holdRungs motions opposite target) m := by
  unfold retain holdRungs
  cases motionContacts (retained motions) .hold with
  | nil => exact ⟨none, .pure⟩
  | cons c cs => exact ⟨some target, .bind .emit .pure⟩

theorem returns_doubleCoils (ok : (d.valveWiring.run m).result = .ok w) :
    w.others = [] ∧ ∃ holdGo holdBack m',
      Returns d.doubleCoils m () (d.sideHolds ++ d.valveRungs holdGo holdBack w) m' := by
  obtain ⟨go, m₁, _, _, first, rest, _⟩ := (Returns.of_ok ok).exists_of_bind
  obtain ⟨back, m₂, _, _, second, last, _⟩ := rest.exists_of_bind
  cases last.result
  refine ⟨rfl, ?_⟩
  obtain ⟨holdGo, retainGo⟩ := returns_retain (d := d) d.goMotions .backCommand .retainGo m
  obtain ⟨holdBack, retainBack⟩ := returns_retain (d := d) d.backMotions .goCommand .retainBack m
  refine ⟨holdGo, holdBack, m₂, ?_⟩
  have go := first.silent (d.rungs_outputs _ _ _)
  have back := second.silent (d.rungs_outputs _ _ _)
  rw [sideHolds, List.append_assoc]
  exact retainGo.bind (retainBack.bind (go.bind (back.bind (returns_coil.bind returns_coil))))

theorem returns_forwardReverse (ok : (d.motorWiring.run m).result = .ok w) :
    w.others = [] ∧ ∃ m', Returns d.forwardReverse m () (d.motorRungs w) m' := by
  obtain ⟨go, m₁, _, _, first, rest, _⟩ := (Returns.of_ok ok).exists_of_bind
  obtain ⟨back, m₂, _, _, second, last, _⟩ := rest.exists_of_bind
  cases last.result
  have go := first.silent (d.rungs_outputs _ _ _)
  have back := second.silent (d.rungs_reverseOutputs _)
  exact ⟨rfl, m₂, go.bind (back.bind (returns_coil.bind returns_coil))⟩

theorem returns_deceleration (word : String) (m : σ) :
    Returns (d.deceleration word) m () (d.slowRungs word) m := by
  unfold deceleration slowRungs decelerationTimer
  cases d.context.timer d.cylinder.owner .forcedDeceleration with
  | found t => exact .emitAll
  | missing => exact .warn
  | duplicate count => exact .warn

/-- A jog output is a coil of one address at most, under the enable signal. -/
theorem returns_jog {output : String} (role : CylinderRole) {found : Option String} {m' : σ}
    (h : Returns (d.optionalOutput output) m found [] m') : Returns (d.jog output role) m ()
      (d.coilRungs role none [.plain d.manual.enable] found.toList) m' := by
  unfold jog
  cases found with
  | none => exact h.bind .pure
  | some address => exact h.bind .emit

/-! ## Classes -/

theorem layout_singleValve (ok : ((d.wiring .singleValve).run m).result = .ok w) :
    ∃ rungs m', Returns d.singleValve m () rungs m' ∧ d.Layout w .singleValve rungs := by
  obtain ⟨go, m₁, _, _, first, last, _⟩ := (Returns.of_ok ok).exists_of_bind
  cases last.result
  obtain ⟨hold, retain⟩ := returns_retain (d := d) d.goMotions .backCommand .retainGo m
  have go := first.silent (d.rungs_outputs _ _ _)
  exact ⟨_, m₁, .bind .emitAll (retain.bind (go.bind returns_coil)), .singleValve hold rfl rfl⟩

theorem layout_doubleValve (ok : ((d.wiring .doubleValve).run m).result = .ok w) :
    ∃ rungs m', Returns d.doubleValve m () rungs m' ∧ d.Layout w .doubleValve rungs := by
  obtain ⟨others, holdGo, holdBack, m', coils⟩ := returns_doubleCoils ok
  exact ⟨_, m', .bind .emitAll coils, .doubleValve holdGo holdBack others⟩

theorem layout_motor (ok : ((d.wiring .motor).run m).result = .ok w) :
    ∃ rungs m', Returns d.motor m () rungs m' ∧ d.Layout w .motor rungs := by
  obtain ⟨others, m', coils⟩ := returns_forwardReverse ok
  exact ⟨_, m', .bind .emitAll coils, .motor others⟩

/-- A drive that needs a speed word and comes to its end has the word. -/
theorem speedDevice_of_ok {x : Emission σ Wiring}
    (ok : ((d.speedDevice >>= fun _ => x).run m).result = .ok w) :
    ∃ speed, d.context.snapshot.speedDevice? d.cylinder.id = some speed ∧
      d.speedDevice = pure (Text.trim speed.device) ∧ (x.run m).result = .ok w := by
  rcases d.speedDevice_cases with halts | ⟨_, returns, speed, found, rfl⟩
  · rw [halts] at ok
    cases ok
  · rw [returns, Emission.pure_bind] at ok
    exact ⟨speed, found, returns, ok⟩

theorem returns_flowValve (ok : ((d.wiring .flowValve).run m).result = .ok w) :
    w.others = [] ∧ ∃ speed holdGo holdBack m',
      d.context.snapshot.speedDevice? d.cylinder.id = some speed ∧
        Returns d.flowValve m () (d.commonRungs ++ ((d.sideHolds ++
          d.valveRungs holdGo holdBack w) ++ d.speedRungs (Text.trim speed.device))) m' := by
  obtain ⟨speed, found, returns, ok⟩ := speedDevice_of_ok ok
  obtain ⟨others, holdGo, holdBack, m', coils⟩ := returns_doubleCoils ok
  refine ⟨others, speed, holdGo, holdBack, m', found, ?_⟩
  rw [flowValve, returns, Emission.pure_bind]
  exact .bind .emitAll (coils.bind (d.returns_speedMoves _))

theorem layout_flowValve (ok : ((d.wiring .flowValve).run m).result = .ok w) :
    ∃ rungs m', Returns d.flowValve m () rungs m' ∧ d.Layout w .flowValve rungs := by
  obtain ⟨others, speed, holdGo, holdBack, m', _, run⟩ := returns_flowValve ok
  exact ⟨_, m', run, .flowValve holdGo holdBack _ d.targets_speedRungs others⟩

theorem returns_inverter (ok : ((d.wiring .inverter).run m).result = .ok w) :
    w.others = [] ∧ ∃ speed m', d.context.snapshot.speedDevice? d.cylinder.id = some speed ∧
      Returns d.inverter m () (d.commonRungs ++ (d.motorRungs w ++
        (d.speedRungs (Text.trim speed.device) ++ d.slowRungs (Text.trim speed.device)))) m' := by
  obtain ⟨speed, found, returns, ok⟩ := speedDevice_of_ok ok
  obtain ⟨others, m', coils⟩ := returns_forwardReverse ok
  refine ⟨others, speed, m', found, ?_⟩
  rw [inverter, returns, Emission.pure_bind]
  exact .bind .emitAll (coils.bind ((d.returns_speedMoves _).bind (returns_deceleration _ m')))

theorem layout_inverter (ok : ((d.wiring .inverter).run m).result = .ok w) :
    ∃ rungs m', Returns d.inverter m () rungs m' ∧ d.Layout w .inverter rungs := by
  obtain ⟨others, speed, m', _, run⟩ := returns_inverter ok
  exact ⟨_, m', run, .inverter _ _ d.targets_speedRungs others⟩

theorem returns_servo (ok : ((d.wiring .servo).run m).result = .ok w) :
    ∃ speed start brake m', w.others = start ++ brake ∧
      d.context.snapshot.speedDevice? d.cylinder.id = some speed ∧
        Returns d.servo m () (d.commonRungs ++ (d.servoRungs
          (d.positionRungs (Text.trim speed.device)) start brake ++ d.jogRungs w)) m' := by
  obtain ⟨speed, found, returns, ok⟩ := speedDevice_of_ok ok
  obtain ⟨start, m₁, _, _, first, rest, _⟩ := (Returns.of_ok ok).exists_of_bind
  obtain ⟨brake, m₂, _, _, second, rest, _⟩ := rest.exists_of_bind
  obtain ⟨go, m₃, _, _, third, rest, _⟩ := rest.exists_of_bind
  obtain ⟨back, m₄, _, _, fourth, last, _⟩ := rest.exists_of_bind
  cases last.result
  refine ⟨speed, start, brake, m₄, rfl, found, ?_⟩
  have start := first.silent (d.rungs_outputs _ _ _)
  have brake := second.silent (d.rungs_outputs _ _ _)
  have go := returns_jog .manualGo (third.silent (d.rungs_optionalOutput _ _))
  have back := returns_jog .manualBack (fourth.silent (d.rungs_optionalOutput _ _))
  have next : Returns (speedWord (Text.trim speed.device)) m _ [] m := returns_speedWord _
  rw [servo, returns, Emission.pure_bind]
  simp only [servoRungs, jogRungs, List.append_assoc]
  refine .bind .emitAll (.bind .emit (next.bind ((d.returns_positioning _).bind ?_)))
  refine start.bind (returns_coil.bind (.bind .emit (brake.bind (returns_coil.bind ?_))))
  exact go.bind back

theorem layout_servo (ok : ((d.wiring .servo).run m).result = .ok w) :
    ∃ rungs m', Returns d.servo m () rungs m' ∧ d.Layout w .servo rungs := by
  obtain ⟨speed, start, brake, m', others, _, run⟩ := returns_servo ok
  exact ⟨_, m', run, .servo _ start brake Rung.targets_moves others⟩

/-- A drive whose wiring is known comes to its end. -/
theorem layout_output {k : DriveClass} (ok : ((d.wiring k).run m).result = .ok w) :
    ∃ rungs m', Returns (d.output k) m () rungs m' ∧ d.Layout w k rungs := by
  cases k with
  | singleValve => exact layout_singleValve ok
  | doubleValve => exact layout_doubleValve ok
  | motor => exact layout_motor ok
  | flowValve => exact layout_flowValve ok
  | servo => exact layout_servo ok
  | inverter => exact layout_inverter ok

end Rungs.Drive
