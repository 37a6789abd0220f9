import Rungs.Proofs.Cylinder.Wiring

/-! Values that a drive moves to its words. Each move is a rung of its own, triggered by one bit,
and of several moves to a word the last one that is triggered decides. What a drive writes for its
motions is such a list, motion by motion: what is not configured is not moved. -/

namespace Rungs

/-- A value that goes to a word while a bit is on. -/
structure Move where
  trigger : String
  value : Int
  word : String
deriving DecidableEq, Repr, Inhabited

def Move.rung (m : Move) : Rung := .start (.plain m.trigger) [] (.move m.value m.word)

namespace Devices

variable (d : Devices)

/-- What one move makes of the devices. -/
def moved (m : Move) : Devices :=
  if d.bit m.trigger then d.setWord m.word (Device.constant m.value) else d

/-- The moves to a word whose triggers are on. -/
def triggered (moves : List Move) (word : String) : List Move :=
  moves.filter fun m => m.word == word && d.bit m.trigger

/-- What a word holds after some moves: the value of the last one that is triggered. Without such a
move the word keeps what it holds. -/
def lastMoved (moves : List Move) (word : String) : String :=
  ((d.triggered moves word).getLast?.map fun m => Device.constant m.value).getD (d.word word)

variable {d} {e : Devices} {m : Move} {moves more : List Move} {x : String}

@[simp] theorem bit_moved : (d.moved m).bit = d.bit := by
  unfold moved
  split
  · exact bit_setWord d m.word _
  · rfl

theorem word_moved : (d.moved m).word x =
    if m.word = x ∧ d.bit m.trigger = true then Device.constant m.value else d.word x := by
  unfold moved
  by_cases triggered : d.bit m.trigger = true
  · simp [triggered, eq_comm]
  · simp [triggered]

/-- The first of some moves counts as what the others find. -/
theorem lastMoved_cons : d.lastMoved (m :: moves) x = (d.moved m).lastMoved moves x := by
  unfold lastMoved triggered
  rw [bit_moved, word_moved, List.filter_cons]
  by_cases first : m.word = x ∧ d.bit m.trigger = true
  · have taken : (m.word == x && d.bit m.trigger) = true := by simp [first]
    rw [if_pos taken, List.getLast?_cons, if_pos first]
    cases (moves.filter fun m => m.word == x && d.bit m.trigger).getLast? <;> rfl
  · have passed : ¬(m.word == x && d.bit m.trigger) = true := by simpa using first
    rw [if_neg passed, if_neg first]

/-- Only the moves to a word count for it. -/
theorem lastMoved_congr (same : moves.filter (·.word == x) = more.filter (·.word == x)) :
    d.lastMoved moves x = d.lastMoved more x := by
  have split (ms : List Move) :
      d.triggered ms x = (ms.filter (·.word == x)).filter fun m => d.bit m.trigger := by
    rw [List.filter_filter]
    exact List.filter_congr fun m _ => Bool.and_comm ..
  unfold lastMoved
  rw [split, same, ← split]

/-- The same triggers, with the same value before, give the same value after. -/
theorem lastMoved_of_found (found : e.word x = d.word x)
    (triggers : ∀ m ∈ moves, e.bit m.trigger = d.bit m.trigger) :
    e.lastMoved moves x = d.lastMoved moves x := by
  have same : e.triggered moves x = d.triggered moves x :=
    List.filter_congr fun m mem => by rw [triggers m mem]
  unfold lastMoved
  rw [found, same]

theorem lastMoved_of_ne (other : ∀ m ∈ moves, m.word ≠ x) : d.lastMoved moves x = d.word x := by
  have none : d.triggered moves x = [] :=
    List.filter_eq_nil_iff.mpr fun m mem => by simp [other m mem]
  unfold lastMoved
  rw [none]
  rfl

end Devices

/-! ## Scans -/

namespace Rung

variable {d e : Devices} {m : Move} {moves : List Move} {x : String}

theorem targets_move : m.rung.targets = [] := rfl

theorem targets_moves : ∀ r ∈ moves.map Move.rung, r.targets = [] := by
  intro r mem
  obtain ⟨m, _, rfl⟩ := List.mem_map.mp mem
  exact targets_move

theorem scans_move : m.rung.Scans d e ↔ e = d.moved m := by
  simp [Move.rung, scans_direct, Action.run, Devices.moved]

/-- A rung that does nothing but move a value. -/
theorem words_of_scans {c : Contact} {value : Int} {word : String}
    (scan : (start c [] (.move value word)).Scans d e) :
    e.bit = d.bit ∧ ∀ x, e.word x =
      if x = word ∧ c.reads d = true then Device.constant value else d.word x := by
  obtain ⟨_, rfl⟩ := scans_direct.mp scan
  cases c.reads d <;> simp [Action.run]

/-- A list of moves leaves all bits alone, and in each word the last of them that is triggered. -/
theorem allScan_moves (scan : AllScan (moves.map Move.rung) d e) :
    e.bit = d.bit ∧ ∀ x, e.word x = d.lastMoved moves x := by
  induction moves generalizing d with
  | nil =>
    rw [allScan_nil.mp scan]
    exact ⟨rfl, fun _ => rfl⟩
  | cons m rest ih =>
    obtain ⟨f, first, scan⟩ := allScan_cons.mp scan
    rw [scans_move.mp first] at scan
    obtain ⟨bits, words⟩ := ih scan
    refine ⟨bits.trans Devices.bit_moved, fun x => ?_⟩
    rw [words, Devices.lastMoved_cons]

/-- Moves among other rungs, of which those before them spare their words and their triggers. -/
theorem allScan_moves_after {before after : List Rung}
    (scan : AllScan (before ++ (moves.map Move.rung ++ after)) d e)
    (wordless : Wordless before)
    (spared : ∀ m ∈ moves, ∀ r ∈ before, m.trigger ∉ r.targets) :
    ∃ f, (∀ x, f.word x = d.lastMoved moves x) ∧ AllScan after f e := by
  obtain ⟨a, first, scan⟩ := allScan_append.mp scan
  obtain ⟨f, moving, last⟩ := allScan_append.mp scan
  obtain ⟨_, words⟩ := allScan_moves moving
  refine ⟨f, fun x => ?_, last⟩
  rw [words]
  exact Devices.lastMoved_of_found (congrFun (first.word_frame wordless) x)
    fun m mem => first.frame (spared m mem)

end Rung

/-! ## Motions -/

namespace Motion

variable (m : Motion)

/-- A value of the motion that goes to a word while one of its bits is on. -/
def move (word : String) (role : OperationRole) (value : Int32) : Move :=
  ⟨m.block.bit role, value.toInt, word⟩

/-- The speeds of a motion: the first when it runs, each further one at its speed change point. -/
def speedsTo (word : String) : List Move :=
  (m.operation.startSpeed.map (m.move word .runEnable)).toList ++
    m.template.steps.flatMap fun step =>
      (m.operation.speeds[step.val]?.map (m.move word (.speedStep step))).toList

/-- The target position of a motion, when its positioning starts. -/
def positionsTo (word : String) : List Move :=
  (m.operation.position.map (m.move word .positioningStart)).toList

/-- What a servo moves for a motion: its position and, if there is a word for them, its speeds. -/
def servoMoves (word : String) (next : Option String) : List Move :=
  m.positionsTo word ++ next.toList.flatMap m.speedsTo

variable {m} {d : Devices} {ms : List Motion} {word : String} {next : Option String} {x : Move}

theorem mem_speedsTo (mem : x ∈ m.speedsTo word) :
    x.word = word ∧ ∃ role ∈ m.template.roles, x.trigger = m.block.bit role := by
  rcases List.mem_append.mp mem with mem | mem
  · obtain ⟨speed, _, rfl⟩ := Option.map_eq_some_iff.mp (Option.mem_toList.mp mem)
    exact ⟨rfl, .runEnable, by simp [OperationTemplate.roles, OperationTemplate.commonRoles], rfl⟩
  · obtain ⟨step, used, mem⟩ := List.mem_flatMap.mp mem
    obtain ⟨speed, _, rfl⟩ := Option.map_eq_some_iff.mp (Option.mem_toList.mp mem)
    exact ⟨rfl, .speedStep step, by simp [OperationTemplate.roles, used], rfl⟩

theorem mem_positionsTo (mem : x ∈ m.positionsTo word) :
    x.word = word ∧ x.trigger = m.block.bit OperationRole.positioningStart := by
  obtain ⟨position, _, rfl⟩ := Option.map_eq_some_iff.mp (Option.mem_toList.mp mem)
  exact ⟨rfl, rfl⟩

theorem word_of_mem_servoMoves (mem : x ∈ m.servoMoves word next) :
    x.word = word ∨ next = some x.word := by
  rcases List.mem_append.mp mem with mem | mem
  · exact .inl (mem_positionsTo mem).1
  · obtain ⟨other, found, mem⟩ := List.mem_flatMap.mp mem
    exact .inr ((mem_speedsTo mem).1 ▸ Option.mem_toList.mp found)

theorem trigger_of_mem_servoMoves (positioning : m.template.isPositioning = true)
    (mem : x ∈ m.servoMoves word next) :
    ∃ role ∈ m.template.roles, x.trigger = m.block.bit role := by
  rcases List.mem_append.mp mem with mem | mem
  · refine ⟨.positioningStart, ?_, (mem_positionsTo mem).2⟩
    simp [OperationTemplate.roles, positioning]
  · obtain ⟨other, _, mem⟩ := List.mem_flatMap.mp mem
    exact (mem_speedsTo mem).2

/-- No speed goes to the word for the positions. -/
theorem lastMoved_positions (apart : next ≠ some word) :
    d.lastMoved (ms.flatMap (·.servoMoves word next)) word =
      d.lastMoved (ms.flatMap (·.positionsTo word)) word := by
  have none (m : Motion) : (next.toList.flatMap m.speedsTo).filter (·.word == word) = [] := by
    refine List.filter_eq_nil_iff.mpr fun x mem same => apart ?_
    obtain ⟨other, found, mem⟩ := List.mem_flatMap.mp mem
    rw [← beq_iff_eq.mp same, (mem_speedsTo mem).1]
    exact Option.mem_toList.mp found
  refine Devices.lastMoved_congr ?_
  rw [List.filter_flatMap, List.filter_flatMap]
  refine List.flatMap_congr fun m _ => ?_
  rw [servoMoves, List.filter_append, none, List.append_nil]

/-- No position goes to the word for the speeds. -/
theorem lastMoved_speeds {other : String} (apart : other ≠ word) :
    d.lastMoved (ms.flatMap (·.servoMoves word (some other))) other =
      d.lastMoved (ms.flatMap (·.speedsTo other)) other := by
  have none (m : Motion) : (m.positionsTo word).filter (·.word == other) = [] := by
    refine List.filter_eq_nil_iff.mpr fun x mem same => apart ?_
    rw [← beq_iff_eq.mp same, (mem_positionsTo mem).1]
  refine Devices.lastMoved_congr ?_
  rw [List.filter_flatMap, List.filter_flatMap]
  refine List.flatMap_congr fun m _ => ?_
  rw [servoMoves, List.filter_append, none, List.nil_append, Option.toList_some,
    List.flatMap_singleton]

theorem lastMoved_apart {other : String} (apart : other ≠ word) (far : next ≠ some other) :
    d.lastMoved (ms.flatMap (·.servoMoves word next)) other = d.word other := by
  refine Devices.lastMoved_of_ne fun x mem same => ?_
  obtain ⟨m, _, mem⟩ := List.mem_flatMap.mp mem
  rcases word_of_mem_servoMoves mem with own | found
  · exact apart (same ▸ own)
  · exact far (same ▸ found)

end Motion

namespace Drive

open Emission

variable {σ : Type} (d : Drive σ) {m : σ}

/-- Zero speed while no command is on. -/
def stopRung (word : String) : Rung := .start (d.inverted .outputOk) [] (.move 0 word)

/-- The speeds of all motions that drive the cylinder, and zero. -/
def speedRungs (word : String) : List Rung :=
  (d.drivingMotions.flatMap (·.speedsTo word)).map Move.rung ++ [d.stopRung word]

/-- The positions of a servo, and the speeds if the word after the positions' is a device. -/
def positionRungs (word : String) : List Rung :=
  (d.positioningMotions.flatMap (·.servoMoves word (Device.offset? word 1))).map Move.rung

theorem targets_speedRungs {word : String} : ∀ r ∈ d.speedRungs word, r.targets = [] :=
  List.forall_mem_append.mpr ⟨Rung.targets_moves, List.forall_mem_singleton.mpr rfl⟩

theorem returns_stepMove (motion : Motion) (word : String) (step : Step) :
    Returns (stepMove motion word step) m ()
      ((motion.operation.speeds[step.val]?.map (motion.move word (.speedStep step))).toList.map
        Move.rung) m := by
  unfold stepMove
  cases motion.operation.speeds[step.val]? with
  | some speed => exact .emit
  | none => exact .warn

theorem returns_motionMoves (word : String) (motion : Motion) :
    Returns (motionMoves word motion) m () ((motion.speedsTo word).map Move.rung) m := by
  rw [motionMoves_eq, Motion.speedsTo, List.map_append, List.map_flatMap]
  refine Returns.bind (a := ()) ?_ (Returns.forM fun step => returns_stepMove motion word step)
  cases motion.operation.startSpeed with
  | some speed => exact .emit
  | none => exact .pure

theorem returns_speedMoves (word : String) :
    Returns (d.speedMoves word) m () (d.speedRungs word) m := by
  rw [speedRungs, List.map_flatMap]
  exact (Returns.forM fun motion => returns_motionMoves word motion).bind .emit

theorem returns_speedWord (word : String) :
    Returns (speedWord word) m (Device.offset? word 1) [] m := by
  unfold speedWord
  split
  next next found => exact found ▸ .pure
  next none => exact none ▸ .bind .warn .pure

theorem returns_positionMove (word : String) (motion : Motion) :
    Returns (positionMove word motion) m () ((motion.positionsTo word).map Move.rung) m := by
  unfold positionMove Motion.positionsTo
  cases motion.operation.position with
  | some position => exact .emit
  | none => exact .warn

theorem returns_servoMoves (word : String) (next : Option String) (motion : Motion) :
    Returns (servoMoves word next motion) m () ((motion.servoMoves word next).map Move.rung) m := by
  rw [Motion.servoMoves, List.map_append]
  refine (returns_positionMove word motion).bind ?_
  cases next with
  | some other =>
    rw [Option.toList_some, List.flatMap_singleton]
    exact returns_motionMoves other motion
  | none => exact .pure

theorem returns_positioning (word : String) : Returns
    (d.positioningMotions.forM (servoMoves word (Device.offset? word 1))) m ()
      (d.positionRungs word) m := by
  rw [positionRungs, List.map_flatMap]
  exact .forM fun motion => returns_servoMoves word (Device.offset? word 1) motion

end Drive

end Rungs
