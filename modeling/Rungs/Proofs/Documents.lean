import Rungs.Proofs.Json.Record
import Rungs.Proofs.Replacement
import Rungs.Loading

/-! The documents of this library read back: snapshots and settings are what they were, programs up
to their counters (`documents_read_back`). The shape of each type says for each key whether it must
be given, and what leaving it out means. -/

namespace Rungs

open Json (Shape Reads)

namespace Cylinder

def shape : Shape := .record
  [("id", .required, .scalar), ("cyNum", .required, .scalar),
   ("name", .defaulted (.text ""), .scalar), ("driveSubId", .required, .scalar),
   ("sortNumber", .defaulted (.int 0), .scalar), ("multiSensorCount", .optional, .scalar)]

theorem reads : Reads shape write read := by
  refine .record (fun _ => rfl) rfl (by decide) (fun _ => rfl) ?_
  rintro ⟨⟩ g supplied
  simp only [List.forall₂_cons] at supplied
  obtain ⟨id, number, name, drive, sort, count, -⟩ := supplied
  exact .seq (.seq (.seq (.seq (.seq (.map _
    (.required .int32 id)) (.required .string number)) (.defaulted .string name))
    (.required .uint32 drive)) (.defaulted .int32 sort)) (.optional .uint32 count)

end Cylinder

namespace Operation

def shape : Shape := .record
  [("id", .required, .scalar), ("name", .defaulted (.text ""), .scalar),
   ("cylinderId", .required, .scalar), ("categoryId", .required, .scalar),
   ("goBack", .optional, .scalar), ("start", .optional, .scalar), ("finish", .optional, .scalar),
   ("con", .optional, .scalar), ("sensorCount", .optional, .scalar),
   ("speedSensors", .defaulted (.list []), .list .scalar),
   ("speeds", .defaulted (.list []), .list .scalar), ("startSpeed", .optional, .scalar),
   ("position", .optional, .scalar), ("sortNumber", .defaulted (.int 0), .scalar)]

theorem reads : Reads shape write read := by
  refine .record (fun _ => rfl) rfl (by decide) (fun _ => rfl) ?_
  rintro ⟨⟩ g supplied
  simp only [List.forall₂_cons] at supplied
  obtain ⟨id, name, cylinder, category, side, start, finish, control, count, sensors, speeds,
    startSpeed, position, sort, -⟩ := supplied
  exact .seq (.seq (.seq (.seq (.seq (.seq (.seq (.seq (.seq (.seq (.seq (.seq (.seq (.map _
    (.required .int32 id)) (.defaulted .string name)) (.required .int32 cylinder))
    (.required .uint32 category)) (.optional .string side)) (.optional .string start))
    (.optional .string finish)) (.optional .string control)) (.optional .uint32 count))
    (.defaulted (.list .string) sensors)) (.defaulted (.list .int32) speeds))
    (.optional .int32 startSpeed)) (.optional .int32 position)) (.defaulted .int32 sort)

end Operation

namespace Process

def shape : Shape := .record
  [("id", .required, .scalar), ("name", .defaulted (.text ""), .scalar),
   ("categoryId", .required, .scalar), ("sortNumber", .defaulted (.int 0), .scalar),
   ("blockNumber", .optional, .scalar)]

theorem reads : Reads shape write read := by
  refine .record (fun _ => rfl) rfl (by decide) (fun _ => rfl) ?_
  rintro ⟨⟩ g supplied
  simp only [List.forall₂_cons] at supplied
  obtain ⟨id, name, category, sort, block, -⟩ := supplied
  exact .seq (.seq (.seq (.seq (.map _
    (.required .int32 id)) (.defaulted .string name)) (.required .uint32 category))
    (.defaulted .int32 sort)) (.optional .uint32 block)

end Process

namespace Detail

def shape : Shape := .record
  [("id", .required, .scalar), ("name", .defaulted (.text ""), .scalar),
   ("processId", .required, .scalar), ("operationId", .optional, .scalar),
   ("sortNumber", .defaulted (.int 0), .scalar)]

theorem reads : Reads shape write read := by
  refine .record (fun _ => rfl) rfl (by decide) (fun _ => rfl) ?_
  rintro ⟨⟩ g supplied
  simp only [List.forall₂_cons] at supplied
  obtain ⟨id, name, process, operation, sort, -⟩ := supplied
  exact .seq (.seq (.seq (.seq (.map _
    (.required .int32 id)) (.defaulted .string name)) (.required .int32 process))
    (.optional .int32 operation)) (.defaulted .int32 sort)

end Detail

namespace Timer

def shape : Shape := .record
  [("id", .required, .scalar), ("name", .defaulted (.text ""), .scalar),
   ("categoryId", .required, .scalar), ("mnemonicType", .required, .scalar),
   ("recordIds", .defaulted (.list []), .list .scalar), ("timerNum", .required, .scalar),
   ("preset", .required, .scalar)]

theorem reads : Reads shape write read := by
  refine .record (fun _ => rfl) rfl (by decide) (fun _ => rfl) ?_
  rintro ⟨⟩ g supplied
  simp only [List.forall₂_cons] at supplied
  obtain ⟨id, name, category, kind, records, number, preset, -⟩ := supplied
  exact .seq (.seq (.seq (.seq (.seq (.seq (.map _
    (.required .int32 id)) (.defaulted .string name)) (.required .uint32 category))
    (.required .kind kind)) (.defaulted (.list .int32) records)) (.required .uint32 number))
    (.required .uint32 preset)

end Timer

namespace IoPoint

def shape : Shape := .record
  [("id", .required, .scalar), ("name", .required, .scalar), ("address", .required, .scalar),
   ("linkDevice", .optional, .scalar), ("isOutput", .defaulted (.bool false), .scalar),
   ("scope", .defaulted (.text ""), .scalar)]

theorem reads : Reads shape write read := by
  refine .record (fun _ => rfl) rfl (by decide) (fun _ => rfl) ?_
  rintro ⟨⟩ g supplied
  simp only [List.forall₂_cons] at supplied
  obtain ⟨id, name, address, link, output, scope, -⟩ := supplied
  exact .seq (.seq (.seq (.seq (.seq (.map _
    (.required .int32 id)) (.required .string name)) (.required .string address))
    (.optional .string link)) (.defaulted .boolean output)) (.defaulted .string scope)

end IoPoint

namespace SpeedDevice

def shape : Shape := .record
  [("cylinderId", .required, .scalar), ("device", .required, .scalar)]

theorem reads : Reads shape write read := by
  refine .record (fun _ => rfl) rfl (by decide) (fun _ => rfl) ?_
  rintro ⟨⟩ g supplied
  simp only [List.forall₂_cons] at supplied
  obtain ⟨cylinder, device, -⟩ := supplied
  exact .seq (.map _ (.required .int32 cylinder)) (.required .string device)

end SpeedDevice

namespace ManualControl

def shape : Shape := .record
  [("cylinderId", .required, .scalar), ("go", .required, .scalar), ("back", .required, .scalar),
   ("enable", .required, .scalar)]

theorem reads : Reads shape write read := by
  refine .record (fun _ => rfl) rfl (by decide) (fun _ => rfl) ?_
  rintro ⟨⟩ g supplied
  simp only [List.forall₂_cons] at supplied
  obtain ⟨cylinder, go, back, enable, -⟩ := supplied
  exact .seq (.seq (.seq (.map _
    (.required .int32 cylinder)) (.required .string go)) (.required .string back))
    (.required .string enable)

end ManualControl

namespace Allocation

def shape : Shape := .record
  [("mnemonicType", .required, .scalar), ("recordId", .required, .scalar),
   ("label", .required, .scalar), ("startNum", .required, .scalar),
   ("outCoilCount", .required, .scalar)]

theorem reads : Reads shape write read := by
  refine .record (fun _ => rfl) rfl (by decide) (fun _ => rfl) ?_
  rintro ⟨⟩ g supplied
  simp only [List.forall₂_cons] at supplied
  obtain ⟨kind, record, label, start, count, -⟩ := supplied
  exact .seq (.seq (.seq (.seq (.map _
    (.required .kind kind)) (.required .int32 record)) (.required .string label))
    (.required .uint32 start)) (.required .uint32 count)

end Allocation

theorem ConditionKind.reads : Reads .scalar (fun k => Json.text k.name)
    (Json.variant ConditionKind.all ConditionKind.name) :=
  .variant (fun k => by cases k <;> decide) fun {j k} same => by
    cases j <;> cases k <;> first | rfl | exact absurd same (by decide)

namespace Condition

def shape : Shape := .record
  [("kind", .required, .scalar), ("ownerType", .required, .scalar),
   ("ownerId", .required, .scalar), ("detailId", .required, .scalar)]

theorem reads : Reads shape write read := by
  refine .record (fun _ => rfl) rfl (by decide) (fun _ => rfl) ?_
  rintro ⟨⟩ g supplied
  simp only [List.forall₂_cons] at supplied
  obtain ⟨kind, ownerKind, owner, detail, -⟩ := supplied
  exact .seq (.seq (.seq (.map _
    (.required ConditionKind.reads kind)) (.required .kind ownerKind)) (.required .int32 owner))
    (.required .int32 detail)

end Condition

namespace Snapshot

def shape : Shape := .record
  [("plcId", .defaulted (.int 0), .scalar), ("cycleId", .defaulted (.int 0), .scalar),
   ("cylinders", .defaulted (.list []), .list Cylinder.shape),
   ("operations", .defaulted (.list []), .list Operation.shape),
   ("processes", .defaulted (.list []), .list Process.shape),
   ("processDetails", .defaulted (.list []), .list Detail.shape),
   ("timers", .defaulted (.list []), .list Timer.shape),
   ("ios", .defaulted (.list []), .list IoPoint.shape),
   ("speedDevices", .defaulted (.list []), .list SpeedDevice.shape),
   ("manualControls", .defaulted (.list []), .list ManualControl.shape),
   ("mnemonics", .defaulted (.list []), .list Allocation.shape),
   ("conditions", .defaulted (.list []), .list Condition.shape)]

theorem reads : Reads shape write read := by
  refine .record (fun _ => rfl) rfl (by decide) (fun _ => rfl) ?_
  rintro ⟨⟩ g supplied
  simp only [List.forall₂_cons] at supplied
  obtain ⟨plc, cycle, cylinders, operations, processes, details, timers, points, speeds, manuals,
    allocations, conditions, -⟩ := supplied
  exact .seq (.seq (.seq (.seq (.seq (.seq (.seq (.seq (.seq (.seq (.seq (.map _
    (.defaulted .int32 plc)) (.defaulted .int32 cycle))
    (.defaulted (.list Cylinder.reads) cylinders))
    (.defaulted (.list Operation.reads) operations))
    (.defaulted (.list Process.reads) processes))
    (.defaulted (.list Detail.reads) details))
    (.defaulted (.list Timer.reads) timers))
    (.defaulted (.list IoPoint.reads) points))
    (.defaulted (.list SpeedDevice.reads) speeds))
    (.defaulted (.list ManualControl.reads) manuals))
    (.defaulted (.list Allocation.reads) allocations))
    (.defaulted (.list Condition.reads) conditions)

end Snapshot

namespace Settings

def shape : Shape :=
  let base : Settings := {}
  .record
    [("alwaysOn", .defaulted (.text base.alwaysOn), .scalar),
     ("alwaysOff", .defaulted (.text base.alwaysOff), .scalar),
     ("pauseSignal", .defaulted (.text base.pauseSignal), .scalar),
     ("resetSignal", .defaulted (.text base.resetSignal), .scalar),
     ("autoModeSignal", .defaulted (.text base.autoModeSignal), .scalar),
     ("testModeSignal", .defaulted (.text base.testModeSignal), .scalar),
     ("debugStartSignal", .defaulted (.text base.debugStartSignal), .scalar),
     ("jumpLabel", .defaulted (.text base.jumpLabel), .scalar)]

theorem reads : Reads shape write read := by
  refine .record (fun _ => rfl) rfl (by decide) (fun _ => rfl) ?_
  rintro ⟨⟩ g supplied
  simp only [List.forall₂_cons] at supplied
  obtain ⟨on, off, pause, reset, auto, test, debug, label, -⟩ := supplied
  exact .seq (.seq (.seq (.seq (.seq (.seq (.seq (.map _
    (.defaulted .string on)) (.defaulted .string off)) (.defaulted .string pause))
    (.defaulted .string reset)) (.defaulted .string auto)) (.defaulted .string test))
    (.defaulted .string debug)) (.defaulted .string label)

end Settings

namespace Row

def shape : Shape := .record
  [("id", .defaulted (.int 0), .scalar), ("command", .required, .scalar),
   ("operands", .defaulted (.list []), .list .scalar), ("note", .optional, .scalar)]

theorem reads : Reads shape write read := by
  refine .record (fun _ => rfl) rfl (by decide) (fun _ => rfl) ?_
  rintro ⟨⟩ g supplied
  simp only [List.forall₂_cons] at supplied
  obtain ⟨id, command, operands, note, -⟩ := supplied
  exact .seq (.seq (.seq (.map _
    (.defaulted .uint32 id)) (.required (.variant Command.mem_all Command.name_injective) command))
    (.defaulted (.list .string) operands)) (.optional .string note)

end Row

theorem EntityKind.reads_name : Reads .scalar EntityKind.writeName EntityKind.readName :=
  .variant (fun k => by cases k <;> decide) EntityKind.name_injective

namespace Section

def shape : Shape := .record
  [("kind", .required, .scalar), ("rows", .required, .list Row.shape)]

theorem reads : Reads shape write read := by
  refine .record (fun _ => rfl) rfl (by decide) (fun _ => rfl) ?_
  rintro ⟨⟩ g supplied
  simp only [List.forall₂_cons] at supplied
  obtain ⟨kind, rows, -⟩ := supplied
  exact .seq (.map _ (.required EntityKind.reads_name kind)) (.required (.list Row.reads) rows)

end Section

namespace Program

def shape : Shape := .record [("sections", .required, .list Section.shape)]

/-- The sections are read back. Numbering begins again. -/
theorem read_varies {p : Program} {n : Json.Node} (varies : shape.Varies p.write n)
    (sound : n.skipFault? = none) : read n = .ok (restored p.sections) := by
  have written : p.write = .object (Json.filled [("sections", writeList Section.write p.sections)]) :=
    rfl
  refine Json.RecordOf.decode_varies (written ▸ varies) sound rfl (by decide) rfl
    (fun g supplied => ?_) "LadderProgram"
  simp only [List.forall₂_cons] at supplied
  exact .map _ (.required (.list Section.reads) supplied.1)

end Program

/-! ## From files -/

namespace Machine

variable {ε δ α β : Type} {before between after machine : Machine} {a : α}

theorem Does.bind {x : ExceptT ε (StateM Machine) α} {f : α → ExceptT ε (StateM Machine) β} {b : β}
    (first : Does x before a between) (second : Does (f a) between b after) :
    Does (x >>= f) before b after := by
  rw [Does, first.run_bind]
  exact second

theorem Does.adapt {x : ExceptT ε (StateM Machine) α} {f : ε → δ} (done : Does x before a after) :
    Does (x.adapt f) before a after := by
  have step : (x.adapt f).run.run before =
      (Except.mapError f (x.run.run before).1, (x.run.run before).2) := rfl
  rw [Does] at done ⊢
  rw [step, done]
  rfl

/-- A file is only looked at. -/
theorem load_does {ofText : String → Json.Decoded α} {text : String} {path : Path}
    (stored : machine.disk.read path = .ok text.toUTF8) (back : ofText text = .ok a) :
    Does (host.load ofText path) machine a machine := by
  have valid : String.fromUTF8? text.toUTF8 = some text := dif_pos text.isValidUTF8
  have bytes : Does (host.read path) machine text.toUTF8 machine := by
    have step : (host.read path).run.run machine = (machine.disk.read path, machine) := rfl
    rw [Does, step, stored]
  have whole : Does (host.readText path) machine text machine := by
    refine bytes.bind ?_
    rw [valid]
    rfl
  refine whole.adapt.bind ?_
  rw [back]
  rfl

theorem settings_load_does {s : Settings} {text : String} {path : Path}
    (stored : machine.disk.read path = .ok text.toUTF8) (back : Settings.ofText text = .ok s) :
    Does (Settings.load host path) machine s machine := by
  have there : (machine.disk.find? path).isSome = true := by
    rw [Disk.read] at stored
    split at stored <;> simp_all
  have present : Does (liftM (host.isPresent path) : ExceptT LoadFailure (StateM Machine) Bool)
      machine true machine := by
    have step : (liftM (host.isPresent path) : ExceptT LoadFailure (StateM Machine) Bool).run.run
        machine = (.ok (machine.disk.find? path).isSome, machine) := rfl
    rw [Does, step, there]
  exact present.bind (load_does stored back)

end Machine

/-- Snapshots and settings are read back from every text that says the same as what is written for
them, also from a file. Of a program everything is read back but its counter, and so the table of its
rows has the same digest. Both written forms of a value are such texts. -/
theorem documents_read_back :
    (∀ (s : Snapshot) (text : String), Snapshot.shape.Allows s.write text →
      Snapshot.ofText text = .ok s ∧ ∀ (path : Path) (machine : Machine),
        machine.disk.read path = .ok text.toUTF8 →
          Machine.Does (Snapshot.load Machine.host path) machine s machine) ∧
    (∀ (s : Settings) (text : String), Settings.shape.Allows s.write text →
      Settings.ofText text = .ok s ∧ ∀ (path : Path) (machine : Machine),
        machine.disk.read path = .ok text.toUTF8 →
          Machine.Does (Settings.load Machine.host path) machine s machine) ∧
    (∀ (p : Program) (text : String), Program.shape.Allows p.write text →
      ∃ q, Program.ofText text = .ok q ∧ q.sections = p.sections ∧ q.digest = p.digest) ∧
    ∀ (shape : Shape) (j : Json), shape.Allows j j.compact ∧ shape.Allows j j.pretty := by
  refine ⟨fun s text allowed => ?_, fun s text allowed => ?_, fun p text allowed => ?_,
    fun shape j => ⟨shape.allows_compact j, shape.allows_pretty j⟩⟩
  · have back : Snapshot.ofText text = .ok s := Snapshot.reads.decodeText allowed
    exact ⟨back, fun path machine stored => Machine.load_does stored back⟩
  · have back : Settings.ofText text = .ok s := Settings.reads.decodeText allowed
    exact ⟨back, fun path machine stored => Machine.settings_load_does stored back⟩
  · have back : Program.ofText text = .ok (.restored p.sections) :=
      Json.decodeText_of_allows allowed Program.read_varies
    exact ⟨.restored p.sections, back, rfl, rfl⟩

/-- One cylinder without a name and without points. -/
private def Snapshot.terse : Snapshot where
  cycleId := 3
  cylinders := [{ id := -1, number := "CY\"1", driveCode := 1 }]

/-- The same with the keys the other way round, some defaults left out, null for the count of points,
and a key that nobody knows. -/
private def Snapshot.terseRevised : Json := .object
  [("comment", .list [.null, .object []]),
   ("cylinders", .list [.object [("multiSensorCount", .null), ("sortNumber", .int 0),
      ("driveSubId", .int 1), ("cyNum", .text "CY\"1"), ("id", .int (-1))]]),
   ("cycleId", .int 3)]

open Json in
private theorem Snapshot.terse_varies :
    Snapshot.shape.Varies Snapshot.terse.write Snapshot.terseRevised.node := by
  let known : List (String × Node) :=
    [("id", (Json.int (-1)).node), ("cyNum", (Json.text "CY\"1").node),
     ("driveSubId", (Json.int 1).node), ("sortNumber", (Json.int 0).node),
     ("multiSensorCount", .null)]
  have cylinder : ∀ c ∈ terse.cylinders,
      Cylinder.shape.Varies c.write (.object (known.reverse.map memberOf) none) := by
    intro c mem
    obtain rfl := List.mem_singleton.mp mem
    exact @Shape.Varies.record _ _ known [] known.reverse
      (.kept rfl .same (.kept rfl .same (.omitted rfl (.kept rfl .same (.kept rfl .same
        (.nulled rfl .nil)))))) (by simp) (by simp)
  let cylinders : String × Node :=
    ("cylinders", .array [.object (known.reverse.map memberOf) none] none)
  let comment : String × Node := ("comment", (Json.list [.null, .object []]).node)
  let cycle : String × Node := ("cycleId", (Json.int 3).node)
  exact @Shape.Varies.record _ _ [cycle, cylinders] [comment] [comment, cylinders, cycle]
    (.omitted rfl (.kept rfl .same (.kept rfl (.list (.cons (cylinder _ List.mem_cons_self) .nil))
      (.omitted rfl (.omitted rfl (.omitted rfl (.omitted rfl (.omitted rfl (.omitted rfl
        (.omitted rfl (.omitted rfl (.omitted rfl .nil))))))))))))
    (by decide) (List.reverse_perm [cycle, cylinders, comment])

/-- A comment, with more rows pushed than are there. -/
private def Program.commented : Program where
  sections := [⟨.detail, [⟨7, .comment, [], some "a,\"b\""⟩]⟩]
  nextId := 9

/-- A machine with one file on it. -/
private def Machine.holding (text : String) : Machine where
  disk := { entries := [(["data.json"], .file text.toUTF8)] }

private theorem Machine.read_holding (text : String) :
    (holding text).disk.read ⟨["data.json"]⟩ = .ok text.toUTF8 := rfl

theorem documents_read_back_terse :
    let text := Snapshot.terseRevised.compact
    let settings : Settings := { pauseSignal := "M9000" }
    let program := Program.commented
    let path : Path := ⟨["data.json"]⟩
    (Snapshot.shape.Allows Snapshot.terse.write text ∧
      (Machine.holding text).disk.read path = .ok text.toUTF8 ∧
      Snapshot.ofText text = .ok Snapshot.terse ∧
      Machine.Does (Snapshot.load Machine.host path) (.holding text) .terse (.holding text)) ∧
    (Settings.shape.Allows settings.write settings.write.pretty ∧
      Machine.Does (Settings.load Machine.host path) (.holding settings.write.pretty) settings
        (.holding settings.write.pretty)) ∧
    Program.shape.Allows program.write program.write.compact ∧
      ∃ q, Program.ofText program.write.compact = .ok q ∧ q.sections = program.sections ∧
        q.digest = program.digest := by
  intro text settings program path
  obtain ⟨snapshots, allSettings, programs, forms⟩ := documents_read_back
  have revised : Snapshot.shape.Allows Snapshot.terse.write text :=
    ⟨_, Snapshot.terse_varies, Snapshot.terseRevised.compact_writtenIn⟩
  obtain ⟨back, load⟩ := snapshots _ text revised
  have indented := (forms Settings.shape settings.write).2
  have compact := (forms Program.shape program.write).1
  exact ⟨⟨revised, Machine.read_holding text, back, load path _ (Machine.read_holding text)⟩,
    ⟨indented, (allSettings _ _ indented).2 path _ (Machine.read_holding _)⟩,
    compact, programs _ _ compact⟩

end Rungs
