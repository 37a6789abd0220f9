import Rungs.Proofs.Cylinder.Equations

/-! The words of a cylinder over one scan. A speed word is zero while the drive is at rest, and
otherwise what the last triggered move has left in it, in the order of the operations: this holds
after every scan, so a drive that has come to rest keeps no speed from before. A servo's positions
go to its word and its speeds to the word after it, and no drive touches any other word
(`Context.words_follow`). -/

namespace Rungs

/-! ## Operations that move words -/

namespace Snapshot

variable (s : Snapshot) (cy : Cylinder) (k : DriveClass) (b : Block)

/-- The operations that move a cylinder to a side, by sort number and then by id: those of a known
category with a block that name the side and do not switch the drive off. -/
def moversTo (side : String) : List Motion :=
  (s.motionsOf cy.id).filter fun m =>
    m.template != .excitationOff && m.operation.goBack.map Text.trim == some side

/-- First all operations that go, then all that come back. -/
def movers : List Motion := s.moversTo cy "G" ++ s.moversTo cy "B"

/-- Those of them that position. -/
def positioners : List Motion := (s.movers cy).filter (·.template.isPositioning)

theorem towards_motionsOf {direction : Direction} {side : String} (nonempty : side ≠ "")
    (asks : ∀ m : Motion, m.direction? = some direction ↔
      m.template ≠ .excitationOff ∧ m.side = side) :
    towards direction (s.motionsOf cy.id) = s.moversTo cy side := by
  refine List.filter_congr fun m _ => ?_
  rw [Bool.eq_iff_iff, beq_iff_eq, asks, Bool.and_eq_true, bne_iff_ne, beq_iff_eq,
    Motion.side_eq_iff nonempty]

/-! ## What the words follow -/

/-- No timer of a cylinder's rows is one of its bits, and no bit of an operation that moves it is
one of these, of its addresses or of its timers. -/
structure Undisturbed (w : Wiring) (rows : List Row) : Prop where
  timers : ∀ x ∈ timersOf rows, ∀ role ∈ k.roles, x ≠ b.bit role
  operations : ∀ m ∈ s.movers cy, ∀ role ∈ m.template.roles,
    m.block.bit role ∉ w.all ++ timersOf rows ∧ ∀ own ∈ k.roles, m.block.bit role ≠ b.bit own

/-- A drive is at rest while its output is not in order. An inverter with one deceleration timer is
also at rest while this decelerates it. -/
def AtRest (e : Devices) : Prop :=
  e.bit (b.bit CylinderRole.outputOk) = false ∨
    k = .inverter ∧ s.timerCount cy.owner .forcedDeceleration = 1 ∧
      e.bit (b.bit CylinderRole.decelerate) = true

/-- The words after a scan that has turned `d` into `e`, for a drive with a speed word. -/
structure SpeedFollows (word : String) (d e : Devices) : Prop where
  resting : s.AtRest cy k b e → e.word word = Device.constant 0
  moving : ¬s.AtRest cy k b e →
    e.word word = d.lastMoved ((s.movers cy).flatMap (·.speedsTo word)) word
  others : ∀ x, x ≠ word → e.word x = d.word x

/-- The words after a scan that has turned `d` into `e`, for a servo with a position word. -/
structure PositionFollows (word : String) (d e : Devices) : Prop where
  position : e.word word = d.lastMoved ((s.positioners cy).flatMap (·.positionsTo word)) word
  speed : ∀ next, Device.offset? word 1 = some next →
    e.word next = d.lastMoved ((s.positioners cy).flatMap (·.speedsTo next)) next
  others : ∀ x, x ≠ word → Device.offset? word 1 ≠ some x → e.word x = d.word x

/-- The words after a scan that has turned `d` into `e`, by the class of the drive. -/
def WordsFollow (d e : Devices) : Prop :=
  match k with
  | .flowValve | .inverter => ∃ speed, s.speedDevice? cy.id = some speed ∧
      s.SpeedFollows cy k b (Text.trim speed.device) d e
  | .servo => ∃ speed, s.speedDevice? cy.id = some speed ∧
      s.PositionFollows cy (Text.trim speed.device) d e
  | .singleValve | .doubleValve | .motor => e.word = d.word

end Snapshot

namespace Drive

variable {σ : Type} {d : Drive σ} {k : DriveClass} {w : Wiring} {rungs before after : List Rung}
  {a e f : Devices} {word x : String}

/-! ## Rungs without words -/

theorem words_collect {motions : List Motion} {role : OperationRole} {target : CylinderRole} :
    (d.collect motions role target).words = [] := by
  rw [Rung.words, collect, Rung.actions_anyOf]
  rfl

theorem wordless_commonRungs : Rung.Wordless d.commonRungs := by
  intro r mem
  simp only [commonRungs, List.mem_cons, List.not_mem_nil, or_false] at mem
  rcases mem with rfl | rfl | rfl | rfl | rfl | rfl | rfl | rfl
  · exact words_collect
  · exact words_collect
  · rfl
  · rfl
  · exact words_collect
  · rfl
  · rfl
  · rfl

theorem wordless_holdRungs {motions : List Motion} {opposite target : CylinderRole} :
    Rung.Wordless (d.holdRungs motions opposite target) := by
  intro r mem
  unfold holdRungs at mem
  split at mem
  next => cases mem
  next =>
    rw [List.mem_singleton.mp mem]
    rfl

theorem wordless_sideHolds : Rung.Wordless d.sideHolds :=
  wordless_holdRungs.append wordless_holdRungs

theorem wordless_coilRungs {command : CylinderRole} {hold : Option CylinderRole}
    {interlocks : List Contact} {addresses : List String} :
    Rung.Wordless (d.coilRungs command hold interlocks addresses) := by
  intro r mem
  cases addresses with
  | nil => cases mem
  | cons address more =>
    rw [List.mem_singleton.mp mem, Rung.words, actions_coilRung, List.filterMap_map]
    exact List.filterMap_eq_nil_iff.mpr fun _ _ => rfl

theorem wordless_valveRungs {holdGo holdBack : Option CylinderRole} :
    Rung.Wordless (d.valveRungs holdGo holdBack w) :=
  wordless_coilRungs.append wordless_coilRungs

theorem wordless_motorRungs : Rung.Wordless (d.motorRungs w) :=
  wordless_coilRungs.append wordless_coilRungs

theorem wordless_jogRungs : Rung.Wordless (d.jogRungs w) :=
  wordless_coilRungs.append wordless_coilRungs

/-- Only drives that take their speed from a word move anything. -/
theorem Layout.wordless (layout : d.Layout w k rungs) (plain : k.requiresSpeedDevice = false) :
    Rung.Wordless rungs := by
  cases layout with
  | singleValve hold =>
    exact wordless_commonRungs.append (wordless_holdRungs.append wordless_coilRungs)
  | doubleValve holdGo holdBack =>
    exact wordless_commonRungs.append (wordless_sideHolds.append wordless_valveRungs)
  | motor => exact wordless_commonRungs.append wordless_motorRungs
  | flowValve | inverter | servo => cases plain

/-- What is neither an address nor a timer nor a bit of the drive is left alone. -/
theorem Layout.spares (layout : d.Layout w k rungs)
    (outside : x ∉ w.all ++ timersOf (streamRows rungs))
    (other : ∀ role ∈ k.roles, x ≠ d.bit role) : ∀ r ∈ rungs, x ∉ r.targets := by
  rw [List.mem_append, not_or] at outside
  refine Rung.spared_of_commandsOn ?_ outside.2
  rw [layout.commandsOn outside.1]
  exact commandsOn_drives_of_other fun role mem => other role (mem_driven.mp mem).mem

/-! ## Speeds -/

/-- The speeds, and then zero over them unless the output is in order. -/
theorem allScan_speedRungs (scan : Rung.AllScan (before ++ (d.speedRungs word ++ after)) a e)
    (wordless : Rung.Wordless before)
    (spared : ∀ m ∈ d.drivingMotions, ∀ role ∈ m.template.roles, ∀ r ∈ before,
      m.block.bit role ∉ r.targets) :
    ∃ f, Rung.AllScan after f e ∧ (∀ x, x ≠ word → f.word x = a.word x) ∧
      f.word word = if f.bit (d.bit .outputOk)
        then a.lastMoved (d.drivingMotions.flatMap (·.speedsTo word)) word
        else Device.constant 0 := by
  have listed {x : Move} (mem : x ∈ d.drivingMotions.flatMap (·.speedsTo word)) : x.word = word ∧
      ∃ m ∈ d.drivingMotions, ∃ role ∈ m.template.roles, x.trigger = m.block.bit role := by
    obtain ⟨m, driving, mem⟩ := List.mem_flatMap.mp mem
    obtain ⟨own, role, used, trigger⟩ := Motion.mem_speedsTo mem
    exact ⟨own, m, driving, role, used, trigger⟩
  rw [speedRungs, List.append_assoc] at scan
  obtain ⟨g, words, scan⟩ := Rung.allScan_moves_after scan wordless fun x mem r inside => by
    obtain ⟨_, m, driving, role, used, trigger⟩ := listed mem
    rw [trigger]
    exact spared m driving role used r inside
  obtain ⟨f, stop, last⟩ := Rung.allScan_cons.mp scan
  obtain ⟨bits, stopped⟩ := Rung.words_of_scans stop
  rw [reads_inverted] at stopped
  refine ⟨f, last, fun x other => ?_, ?_⟩
  · rw [stopped, if_neg fun both => other both.1, words]
    exact Devices.lastMoved_of_ne fun m mem same => other (same ▸ (listed mem).1)
  · rw [stopped, words, bits]
    cases g.bit (d.bit .outputOk) <;> simp

/-- The forced deceleration moves zero to the speed word, if the drive has a timer for it. -/
theorem words_slowRungs (scan : Rung.AllScan (d.slowRungs word) f e) :
    (∀ x, x ≠ word → e.word x = f.word x) ∧
      e.word word = if d.context.snapshot.timerCount d.cylinder.owner .forcedDeceleration = 1 ∧
        e.bit (d.bit .decelerate) = true then Device.constant 0 else f.word word := by
  have timed : (∃ t, d.decelerationTimer = .found t) ↔
      d.context.snapshot.timerCount d.cylinder.owner .forcedDeceleration = 1 :=
    d.context.snapshot.timer_found_iff _ _
  unfold slowRungs at scan
  split at scan
  next t found =>
    obtain ⟨g, timing, scan⟩ := Rung.allScan_cons.mp scan
    obtain ⟨bits, stopped⟩ := Rung.words_of_scans (Rung.allScan_single.mp scan)
    have same : g.word = f.word := funext fun x => timing.word_frame List.not_mem_nil
    rw [reads_contact, ← bits, same] at stopped
    refine ⟨fun x other => ?_, ?_⟩
    · rw [stopped, if_neg fun both => other both.1]
    · simp [stopped, timed.mp ⟨t, found⟩]
  next none =>
    rw [Rung.allScan_nil.mp scan]
    refine ⟨fun _ _ => rfl, (if_neg ?_).symm⟩
    rintro ⟨one, _⟩
    obtain ⟨t, found⟩ := timed.mpr one
    exact none t found

section Classes

variable {c : Context σ} {cy : Cylinder} {b : Block}

theorem drivingMotions_drive : (c.drive cy b).drivingMotions = c.snapshot.movers cy := by
  have go : towards .go (c.snapshot.motionsOf cy.id) = c.snapshot.moversTo cy "G" :=
    c.snapshot.towards_motionsOf cy (by decide) fun _ => Motion.direction?_iff
  have back : towards .back (c.snapshot.motionsOf cy.id) = c.snapshot.moversTo cy "B" :=
    c.snapshot.towards_motionsOf cy (by decide) fun _ => Motion.direction?_iff
  rw [Snapshot.movers, ← go, ← back]
  rfl

theorem positioningMotions_drive :
    (c.drive cy b).positioningMotions = c.snapshot.positioners cy := by
  rw [positioningMotions, drivingMotions_drive]
  rfl

/-- No rung of a drive decides on a bit of an operation that moves it. -/
theorem Layout.spares_movers (layout : (c.drive cy b).Layout w k rungs)
    (undisturbed : c.snapshot.Undisturbed cy k b w (streamRows rungs)) :
    ∀ m ∈ c.snapshot.movers cy, ∀ role ∈ m.template.roles, ∀ r ∈ rungs,
      m.block.bit role ∉ r.targets := by
  intro m mem role used
  obtain ⟨outside, other⟩ := undisturbed.operations m mem role used
  exact layout.spares outside other

/-- The speed word of a drive, where what comes after the speeds keeps the output's state and moves
zero while an inverter is decelerated. -/
theorem speedFollows
    (layout : (c.drive cy b).Layout w k (before ++ ((c.drive cy b).speedRungs word ++ after)))
    (undisturbed : c.snapshot.Undisturbed cy k b w
      (streamRows (before ++ ((c.drive cy b).speedRungs word ++ after))))
    (wordless : Rung.Wordless before)
    (last : ∀ f, Rung.AllScan after f e →
      e.bit (b.bit CylinderRole.outputOk) = f.bit (b.bit CylinderRole.outputOk) ∧
      (∀ x, x ≠ word → e.word x = f.word x) ∧ e.word word =
        if k = .inverter ∧ c.snapshot.timerCount cy.owner .forcedDeceleration = 1 ∧
          e.bit (b.bit CylinderRole.decelerate) = true then Device.constant 0 else f.word word)
    (scan : Rung.AllScan (before ++ ((c.drive cy b).speedRungs word ++ after)) a e) :
    c.snapshot.SpeedFollows cy k b word a e := by
  have spared : ∀ m ∈ (c.drive cy b).drivingMotions, ∀ role ∈ m.template.roles, ∀ r ∈ before,
      m.block.bit role ∉ r.targets := by
    intro m mem role used r inside
    rw [drivingMotions_drive] at mem
    exact layout.spares_movers undisturbed m mem role used r (List.mem_append_left _ inside)
  obtain ⟨f, rest, apart, value⟩ := allScan_speedRungs scan wordless spared
  obtain ⟨ok, others, slowed⟩ := last f rest
  have output : f.bit ((c.drive cy b).bit .outputOk) = e.bit (b.bit CylinderRole.outputOk) :=
    ok.symm
  rw [drivingMotions_drive, output] at value
  refine ⟨?_, fun moving => ?_, fun x other => (others x other).trans (apart x other)⟩
  · rintro (off | slow)
    · rw [slowed, value, off]
      exact ite_self _
    · rw [slowed, if_pos slow]
  · obtain ⟨on, fast⟩ := not_or.mp moving
    rw [slowed, if_neg fast, value, if_pos (Bool.not_eq_false _ ▸ on)]

theorem follows_flowValve {holdGo holdBack : Option CylinderRole} (others : w.others = [])
    (generated : rungs = (c.drive cy b).commonRungs ++ (((c.drive cy b).sideHolds ++
      (c.drive cy b).valveRungs holdGo holdBack w) ++ (c.drive cy b).speedRungs word))
    (undisturbed : c.snapshot.Undisturbed cy .flowValve b w (streamRows rungs))
    (scan : Rung.AllScan rungs a e) : c.snapshot.SpeedFollows cy .flowValve b word a e := by
  have layout : (c.drive cy b).Layout w .flowValve rungs :=
    generated ▸ .flowValve holdGo holdBack _ (targets_speedRungs _) others
  have parts : rungs = ((c.drive cy b).commonRungs ++ ((c.drive cy b).sideHolds ++
      (c.drive cy b).valveRungs holdGo holdBack w)) ++
        ((c.drive cy b).speedRungs word ++ []) := by
    simp only [generated, List.append_nil, List.append_assoc]
  rw [parts] at layout undisturbed scan
  refine speedFollows layout undisturbed (wordless_commonRungs.append
    (wordless_sideHolds.append wordless_valveRungs)) (fun f rest => ?_) scan
  rw [Rung.allScan_nil.mp rest]
  exact ⟨rfl, fun _ _ => rfl, (if_neg fun inverter => nomatch inverter.1).symm⟩

theorem follows_inverter (others : w.others = [])
    (generated : rungs = (c.drive cy b).commonRungs ++ ((c.drive cy b).motorRungs w ++
      ((c.drive cy b).speedRungs word ++ (c.drive cy b).slowRungs word)))
    (undisturbed : c.snapshot.Undisturbed cy .inverter b w (streamRows rungs))
    (scan : Rung.AllScan rungs a e) : c.snapshot.SpeedFollows cy .inverter b word a e := by
  have layout : (c.drive cy b).Layout w .inverter rungs :=
    generated ▸ .inverter word _ (targets_speedRungs _) others
  have parts : rungs = ((c.drive cy b).commonRungs ++ (c.drive cy b).motorRungs w) ++
      ((c.drive cy b).speedRungs word ++ (c.drive cy b).slowRungs word) := by
    rw [generated, List.append_assoc]
  rw [parts] at layout undisturbed scan
  refine speedFollows layout undisturbed (wordless_commonRungs.append wordless_motorRungs)
    (fun f rest => ?_) scan
  obtain ⟨apart, value⟩ := words_slowRungs rest
  refine ⟨rest.frame fun r mem driven => ?_, apart, ?_⟩
  · rcases mem_targets_slowRungs mem driven with own | timer
    · have other : CylinderRole.outputOk = .decelerate := CylinderRole.offset_injective
        (b.allocation.device_injective own)
      cases other
    · refine undisturbed.timers _ ?_ .outputOk (by decide) rfl
      simp only [streamRows_append, timersOf_append, List.mem_append]
      exact .inr (.inr timer)
  · simp only [true_and]
    exact value

/-- A servo moves positions and speeds for the operations that position, and nothing else. -/
theorem words_servo (layout : (c.drive cy b).Layout w .servo rungs) {start brake : List String}
    (generated : rungs = (c.drive cy b).commonRungs ++ ((c.drive cy b).servoRungs
      ((c.drive cy b).positionRungs word) start brake ++ (c.drive cy b).jogRungs w))
    (undisturbed : c.snapshot.Undisturbed cy .servo b w (streamRows rungs))
    (scan : Rung.AllScan rungs a e) (x : String) : e.word x = a.lastMoved
      ((c.snapshot.positioners cy).flatMap (·.servoMoves word (Device.offset? word 1))) x := by
  have parts : rungs = ((c.drive cy b).commonRungs ++ [(c.drive cy b).collect
      (c.drive cy b).positioningMotions .positioningStart .servoStart]) ++
        ((c.drive cy b).positionRungs word ++ ((c.drive cy b).coilRungs .servoStart none [] start ++
          ([(c.drive cy b).brakeRung] ++ ((c.drive cy b).coilRungs .brakeRelease none [] brake ++
            (c.drive cy b).jogRungs w)))) := by
    simp only [generated, servoRungs, List.append_assoc]
  have spared : ∀ x ∈ (c.snapshot.positioners cy).flatMap
      (·.servoMoves word (Device.offset? word 1)), ∀ r ∈ rungs, x.trigger ∉ r.targets := by
    intro x mem
    obtain ⟨m, positioner, mem⟩ := List.mem_flatMap.mp mem
    obtain ⟨mover, positioning⟩ := List.mem_filter.mp positioner
    obtain ⟨role, used, trigger⟩ := Motion.trigger_of_mem_servoMoves positioning mem
    exact trigger ▸ layout.spares_movers undisturbed m mover role used
  rw [parts, positionRungs, positioningMotions_drive] at spared scan
  obtain ⟨f, moved, rest⟩ := Rung.allScan_moves_after scan
    (wordless_commonRungs.append (.single words_collect))
    fun x mem r inside => spared x mem r (List.mem_append_left _ inside)
  have kept : e.word = f.word := rest.word_frame (wordless_coilRungs.append
    ((Rung.Wordless.single rfl).append (wordless_coilRungs.append wordless_jogRungs)))
  rw [kept, moved]

theorem follows_servo {start brake : List String} (others : w.others = start ++ brake)
    (generated : rungs = (c.drive cy b).commonRungs ++ ((c.drive cy b).servoRungs
      ((c.drive cy b).positionRungs word) start brake ++ (c.drive cy b).jogRungs w))
    (undisturbed : c.snapshot.Undisturbed cy .servo b w (streamRows rungs))
    (scan : Rung.AllScan rungs a e) : c.snapshot.PositionFollows cy word a e := by
  have layout : (c.drive cy b).Layout w .servo rungs :=
    generated ▸ .servo _ start brake Rung.targets_moves others
  have words := words_servo layout generated undisturbed scan
  refine ⟨?_, fun next found => ?_, fun x apart far => ?_⟩
  · rw [words]
    exact Motion.lastMoved_positions fun same => Device.ne_of_offset? (by decide) same rfl
  · rw [words, found]
    exact Motion.lastMoved_speeds (Device.ne_of_offset? (by decide) found)
  · rw [words]
    exact Motion.lastMoved_apart apart far

end Classes

/-- Whatever its class, the words of a drive follow its operations. -/
theorem words_follow {c : Context σ} {cy : Cylinder} {b : Block} {m : σ}
    (ok : (((c.drive cy b).wiring k).run m).result = .ok w)
    (generated : rungs = (((c.drive cy b).output k).run m).rungs)
    (undisturbed : c.snapshot.Undisturbed cy k b w (streamRows rungs))
    (scan : Rung.AllScan rungs a e) : c.snapshot.WordsFollow cy k b a e := by
  obtain ⟨rungs', m', run, layout⟩ := layout_output ok
  have plain (none : k.requiresSpeedDevice = false) : e.word = a.word := by
    rw [generated, run.rungs] at scan
    exact scan.word_frame (layout.wordless none)
  cases k with
  | singleValve => exact plain rfl
  | doubleValve => exact plain rfl
  | motor => exact plain rfl
  | flowValve =>
    obtain ⟨others, speed, holdGo, holdBack, _, found, run⟩ := returns_flowValve ok
    exact ⟨speed, found, follows_flowValve others (generated.trans run.rungs) undisturbed scan⟩
  | inverter =>
    obtain ⟨others, speed, _, found, run⟩ := returns_inverter ok
    exact ⟨speed, found, follows_inverter others (generated.trans run.rungs) undisturbed scan⟩
  | servo =>
    obtain ⟨speed, start, brake, _, others, found, run⟩ := returns_servo ok
    exact ⟨speed, found, follows_servo others (generated.trans run.rungs) undisturbed scan⟩

end Drive

namespace Context

variable {σ : Type} (c : Context σ) (cy : Cylinder)

end Context

def Cylinder.spindle : Cylinder where
  id := 1
  number := "CY1"
  driveCode := 16

def Cylinder.slide : Cylinder where
  id := 2
  number := "CY2"
  driveCode := 14

/-- An inverter that changes its speed once and can be decelerated, and a servo that goes back to a
position. -/
def Snapshot.twoMovers : Snapshot where
  cylinders := [.spindle, .slide]
  operations :=
    [{ id := 1, cylinderId := 1, categoryCode := 4, goBack := some "G", startSpeed := some 30,
       speeds := [10] },
     { id := 2, cylinderId := 2, categoryCode := 32, goBack := some "B", startSpeed := some 20,
       speeds := [5], position := some 500 }]
  timers := [{ id := 1, categoryId := 4, kind := .cylinder, recordIds := [1], number := 7,
               preset := 10 }]
  points :=
    [{ id := 1, name := "G", address := "Y0", isOutput := true },
     { id := 2, name := "PST", address := "Y1", isOutput := true }]
  speedDevices := [⟨1, "D10"⟩, ⟨2, "D20"⟩]
  allocations :=
    [⟨.operation, 1, "L", 0, 20⟩, ⟨.operation, 2, "L", 20, 20⟩, ⟨.cylinder, 1, "L", 40, 13⟩,
     ⟨.cylinder, 2, "L", 60, 13⟩]

namespace Snapshot.TwoMovers

def context : Context (List Choice) :=
  { TwoDrives.context with
    resolver := IoTable.resolver { points := twoMovers.points }
    snapshot := twoMovers }

def rows (cy : Cylinder) : List Row := (((context.cylinder cy).run []).synthesis cy.owner).rows

def block (cy : Cylinder) (start : UInt32) : Block := ⟨⟨.cylinder, cy.id, "L", start, 13⟩⟩

theorem ended_spindle : ((context.cylinder .spindle).run []).result = .ok () := by decide +kernel

theorem ended_slide : ((context.cylinder .slide).run []).result = .ok () := by decide +kernel

theorem wired_spindle : ((context.wiring .spindle).run []).result = .ok { go := ["Y0"] } := by
  decide +kernel

theorem wired_slide : ((context.wiring .slide).run []).result =
    .ok { go := [], others := ["Y1"] } := by decide +kernel

theorem undisturbed_spindle : twoMovers.Undisturbed .spindle .inverter (block .spindle 40)
    { go := ["Y0"] } (rows .spindle) where
  timers := by decide +kernel
  operations := by decide +kernel

theorem undisturbed_slide : twoMovers.Undisturbed .slide .servo (block .slide 60)
    { go := [], others := ["Y1"] } (rows .slide) where
  timers := by decide +kernel
  operations := by decide +kernel

theorem atRest_spindle {e : Devices} :
    twoMovers.AtRest .spindle .inverter (block .spindle 40) e ↔
      e.bit "L47" = false ∨ e.bit "L52" = true := by
  have ok : (block .spindle 40).bit CylinderRole.outputOk = "L47" := by decide +kernel
  have slow : (block .spindle 40).bit CylinderRole.decelerate = "L52" := by decide +kernel
  have one : twoMovers.timerCount Cylinder.spindle.owner .forcedDeceleration = 1 := by
    decide +kernel
  simp [AtRest, ok, slow, one]

end Snapshot.TwoMovers

end Rungs
