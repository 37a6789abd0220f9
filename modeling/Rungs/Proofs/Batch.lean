import Rungs.Proofs.Export
import Rungs.Proofs.Loading
import Rungs.Proofs.Names

/-! What a run over snapshots leaves on the disk. Each file has its turn on the disk that the turns
before it have left; only an export writes, and only under the stem of its file. A later export to
the same place replaces an earlier one (`Batch.run_exports`), which is what becomes of two snapshots
whose names differ only in the letters of the extension (`Batch.run_overwrites`). -/

namespace Rungs

open Disk

namespace Batch

/-- What becomes of a snapshot file when its turn comes. -/
inductive Outcome where
  | unloaded
  | blocked (s : Snapshot)
  | exported (s : Snapshot)

variable (settings : Settings) (out : Path)

/-- The turn of one file. Only an export writes anything. -/
inductive Turn (file : Path) : Outcome → Disk → Disk → Prop
  | unloaded {d : Disk} {failure : LoadFailure} :
      d.outcome (Snapshot.load Machine.host file) = .error failure → Turn file .unloaded d d
  | blocked {d : Disk} {s : Snapshot} :
      d.outcome (Snapshot.load Machine.host file) = .ok s →
      0 < criticalCount (s.generate settings).diagnostics → Turn file (.blocked s) d d
  | exported {d e : Disk} {s : Snapshot} {time : String} {paths : List Path} :
      d.outcome (Snapshot.load Machine.host file) = .ok s →
      criticalCount (s.generate settings).diagnostics = 0 →
      Stored (out.join (stemOf file)) ((s.generate settings).files time) paths d e →
      Turn file (.exported s) d e

/-- One turn after another. -/
inductive Turns : List (Path × Outcome) → Disk → Disk → Prop
  | nil {d : Disk} : Turns [] d d
  | cons {file : Path} {outcome : Outcome} {rest : List (Path × Outcome)} {c d e : Disk} :
      Turn settings out file outcome c d → Turns rest d e → Turns ((file, outcome) :: rest) c e

open Machine

/-! ## What a run does -/

theorem exportOutput_ran {o : Output} {directory : Path} {stem : String} {before after : Machine}
    {result : Except Failure Unit}
    (ran : (exportOutput Machine.host o directory stem).run.run before = (result, after)) :
    (0 < criticalCount o.diagnostics ∧ after.disk = before.disk ∧ result = .ok ()) ∨
    criticalCount o.diagnostics = 0 ∧
      ((∃ path text, result = .error (.notExported stem (.io path text))) ∨
        ∃ time paths, result = .ok () ∧
          Stored directory (o.files time) paths before.disk after.disk) := by
  unfold exportOutput at ran
  replace ran := ran_lift ran
  cases exporting : (o.exportTo Machine.host directory).run before with
  | mk answer left =>
    rw [exporting] at ran
    obtain ⟨critical, rfl, rfl⟩ | ⟨count, ⟨path, text, rfl⟩ | ⟨e, time, rfl, stored⟩⟩ :=
      Output.exportTo_ran exporting
    · obtain ⟨rfl, rfl⟩ := Prod.mk.inj ran
      exact .inl ⟨critical, rfl, rfl⟩
    · obtain ⟨rfl, rfl⟩ := Prod.mk.inj ran
      exact .inr ⟨count, .inl ⟨path, text, rfl⟩⟩
    · obtain ⟨rfl, rfl⟩ := Prod.mk.inj ran
      exact .inr ⟨count, .inr ⟨time, e.files, rfl, stored⟩⟩

theorem disk_printAll (lines : List String) (m : Machine) :
    (Machine.host.printAll lines m).2.disk = m.disk := by
  induction lines generalizing m with
  | nil => rfl
  | cons line rest ih => exact ih { m with printed := m.printed ++ [line] }

theorem disk_logAll (lines : List String) (m : Machine) :
    (Machine.host.logAll lines m).2.disk = m.disk := by
  induction lines generalizing m with
  | nil => rfl
  | cons line rest ih => exact ih { m with logged := m.logged ++ [line] }

/-- Something is shown before what is done next. -/
theorem ran_tell {tell : StateM Machine Unit} {x : ExceptT Failure (StateM Machine) Unit}
    {before after : Machine} {result : Except Failure Unit}
    (quiet : ∀ m, (tell m).2.disk = m.disk)
    (ran : (liftM tell >>= fun _ => x).run.run before = (result, after)) :
    ∃ told : Machine, told.disk = before.disk ∧ x.run.run told = (result, after) :=
  ⟨(tell before).2, quiet before, ran⟩

theorem load_ran {file : Path} {before : Machine} :
    (Snapshot.load Machine.host file).run before =
      (before.disk.outcome (Snapshot.load Machine.host file), before) :=
  (Looks.load Snapshot.ofText file).run_eq before

/-- A snapshot that was loaded is reported on and exported. -/
theorem exportOutput_of_loaded {c : CommandLine} {settings : Settings} {out file : Path}
    {s : Snapshot} {before after : Machine} {result : Except Failure Unit}
    (exports : c.out = some out)
    (loaded : before.disk.outcome (Snapshot.load Machine.host file) = .ok s)
    (ran : (runFile Machine.host c settings file).run.run before = (result, after)) :
    ∃ told : Machine, told.disk = before.disk ∧
      (exportOutput Machine.host (s.generate settings) (out.join (stemOf file))
        (stemOf file)).run.run told = (result, after) := by
  unfold runFile at ran
  simp only [exports] at ran
  replace ran := ran_lift ran
  rw [load_ran, loaded] at ran
  cases verbose : c.isVerbose with
  | true =>
    simp only [verbose, if_true] at ran
    obtain ⟨logged, atLogged, ran⟩ := ran_tell (fun _ => rfl) ran
    obtain ⟨printed, atPrinted, ran⟩ := ran_tell (disk_printAll _) ran
    obtain ⟨told, atTold, ran⟩ := ran_tell (disk_logAll _) ran
    exact ⟨told, atTold.trans (atPrinted.trans atLogged), ran⟩
  | false =>
    simp only [verbose, Bool.false_eq_true, if_false] at ran
    obtain ⟨printed, atPrinted, ran⟩ := ran_tell (disk_printAll _) ran
    obtain ⟨told, atTold, ran⟩ := ran_tell (disk_logAll _) ran
    exact ⟨told, atTold.trans atPrinted, ran⟩

theorem runFile_ran {c : CommandLine} {settings : Settings} {out file : Path}
    {before after : Machine} {result : Except Failure Unit} (exports : c.out = some out)
    (ran : (runFile Machine.host c settings file).run.run before = (result, after)) :
    (∃ outcome, result = .ok () ∧ Turn settings out file outcome before.disk after.disk) ∨
    ∃ s path text, before.disk.outcome (Snapshot.load Machine.host file) = .ok s ∧
      criticalCount (s.generate settings).diagnostics = 0 ∧
      result = .error (.notExported (stemOf file) (.io path text)) := by
  cases loaded : before.disk.outcome (Snapshot.load Machine.host file) with
  | error failure =>
    unfold runFile at ran
    replace ran := ran_lift ran
    rw [load_ran, loaded] at ran
    obtain ⟨rfl, rfl⟩ := Prod.mk.inj ran
    exact .inl ⟨.unloaded, rfl, .unloaded loaded⟩
  | ok s =>
    obtain ⟨told, same, ran⟩ := exportOutput_of_loaded exports loaded ran
    obtain ⟨critical, left, rfl⟩ | ⟨count, ⟨path, text, rfl⟩ | ⟨time, paths, rfl, stored⟩⟩ :=
      exportOutput_ran ran
    · exact .inl ⟨.blocked s, rfl, by rw [left, same]; exact .blocked loaded critical⟩
    · exact .inr ⟨s, path, text, rfl, count, rfl⟩
    · exact .inl ⟨.exported s, rfl, .exported loaded count (same ▸ stored)⟩

/-- All files have their turns, up to one that loads, may be exported and cannot be written. -/
theorem forM_ran {c : CommandLine} {settings : Settings} {out : Path} {files : List Path}
    {before after : Machine} {result : Except Failure Unit} (exports : c.out = some out)
    (ran : (files.forM (runFile Machine.host c settings)).run.run before = (result, after)) :
    (result = .ok () ∧ ∃ turns, turns.map (·.1) = files ∧
      Turns settings out turns before.disk after.disk) ∨
    ∃ turns file rest d s path text, files = turns.map (·.1) ++ file :: rest ∧
      Turns settings out turns before.disk d ∧
      d.outcome (Snapshot.load Machine.host file) = .ok s ∧
      criticalCount (s.generate settings).diagnostics = 0 ∧
      result = .error (.notExported (stemOf file) (.io path text)) := by
  induction files generalizing before with
  | nil =>
    obtain ⟨rfl, rfl⟩ := Prod.mk.inj ran
    exact .inl ⟨rfl, [], rfl, .nil⟩
  | cons file rest ih =>
    obtain ⟨failure, rfl, failed⟩ | ⟨_, between, done, ran⟩ := ran_bind ran
    · obtain ⟨_, same, -⟩ | ⟨s, path, text, loaded, count, same⟩ := runFile_ran exports failed
      · cases same
      · exact .inr ⟨[], file, rest, _, s, path, text, rfl, .nil, loaded, count, same⟩
    · obtain ⟨outcome, -, turn⟩ | ⟨s, path, text, -, -, same⟩ := runFile_ran exports done
      · obtain ⟨rfl, turns, rfl, later⟩ |
          ⟨turns, next, others, d, s, path, text, rfl, later, loaded, count, rfl⟩ := ih ran
        · exact .inl ⟨rfl, (file, outcome) :: turns, rfl, .cons turn later⟩
        · exact .inr ⟨(file, outcome) :: turns, next, others, d, s, path, text, rfl,
            .cons turn later, loaded, count, rfl⟩
      · cases same

/-! ## Where the exports are -/

section

variable {settings : Settings} {out : Path} {c d e : Disk}

theorem evolves_of_stored {o : Output} {time : String} {directory : Path} {paths : List Path}
    (stored : Stored directory (o.files time) paths d e) :
    Evolves (fun x => ∃ name, x = d.folder directory ++ [name]) d e := by
  obtain ⟨proper, properTemporary, -⟩ := o.orderly_files time
  refine stored.evolves.mono ?_
  rintro x ⟨f, mem, rfl | rfl⟩
  · exact ⟨_, target_join (proper _ (List.mem_map_of_mem mem))⟩
  · exact ⟨_, target_join (properTemporary _ (List.mem_map_of_mem mem))⟩

/-- The places that turns may change. -/
def Touches (d : Disk) (out : Path) (turns : List (Path × Outcome)) (x : Place) : Prop :=
  ∃ file s name, (file, .exported s) ∈ turns ∧ x = d.folder (out.join (stemOf file)) ++ [name]

theorem Turn.evolves {file : Path} {outcome : Outcome}
    (turn : Turn settings out file outcome d e) : Evolves (Touches d out [(file, outcome)]) d e := by
  cases turn with
  | unloaded => exact .refl d
  | blocked => exact .refl d
  | exported loaded count stored =>
    exact (evolves_of_stored stored).mono fun x ⟨name, here⟩ => ⟨file, _, name, .head _, here⟩

theorem Turns.evolves {turns : List (Path × Outcome)} (run : Turns settings out turns d e) :
    Evolves (Touches d out turns) d e := by
  induction run with
  | nil => exact .refl _
  | cons turn later ih =>
    refine (turn.evolves.mono ?_).trans (ih.mono ?_)
    · rintro x ⟨file, s, name, mem, here⟩
      exact ⟨file, s, name, List.mem_cons.mpr (.inl (List.mem_singleton.mp mem)), here⟩
    · rintro x ⟨file, s, name, mem, here⟩
      rw [turn.evolves.folder] at here
      exact ⟨file, s, name, .tail _ mem, here⟩

theorem Turns.append {earlier later : List (Path × Outcome)}
    (run : Turns settings out (earlier ++ later) c e) :
    ∃ d, Turns settings out earlier c d ∧ Turns settings out later d e := by
  induction earlier generalizing c with
  | nil => exact ⟨c, .nil, run⟩
  | cons turn rest ih =>
    cases run with
    | cons first run =>
      obtain ⟨d, before, after⟩ := ih run
      exact ⟨d, .cons first before, after⟩

/-- An export stays until another one goes to the same place. -/
theorem Turns.held {earlier later : List (Path × Outcome)} {file : Path} {s : Snapshot}
    (run : Turns settings out (earlier ++ (file, .exported s) :: later) d e)
    (last : ∀ other s', (other, .exported s') ∈ later →
      d.folder (out.join (stemOf other)) ≠ d.folder (out.join (stemOf file))) :
    (s.generate settings).Held (out.join (stemOf file)) e := by
  obtain ⟨started, before, run⟩ := run.append
  cases run with
  | @cons _ _ _ _ finished _ turn after =>
    -- Places are looked up from the same directory in every turn.
    have folder (directory : Path) : finished.folder directory = d.folder directory :=
      (turn.evolves.folder directory).trans (before.evolves.folder directory)
    cases turn with
    | exported loaded count stored =>
      refine (Output.held_of_stored stored).later after.evolves ?_
      rintro name ⟨other, s', name', mem, same⟩
      rw [folder, folder] at same
      exact last other s' mem (List.append_inj_left' same rfl).symm

end

/-- What a run that exports leaves. It ends before anything is written, or at a file that cannot be
written, or when every snapshot had its turn: one that does not load or is blocked writes nothing
and stops nothing, and one that is exported has its files, unless a later one goes to the same
place. That place is where the stem leads from the directory to export to, and files share a stem if
their names differ only in the letters of the extension. -/
theorem run_exports (c : CommandLine) (out : Path) (before after : Machine)
    (result : Except Failure Unit) (exports : c.out = some out)
    (ran : (run Machine.host c).run.run before = (result, after)) :
    let disk := before.disk
    let place (file : Path) : Place := disk.folder (out.join (stemOf file))
    (after = before ∧ ∃ failure, result = .error failure ∧
      ∀ stem cause, failure ≠ .notExported stem cause) ∨
    ∃ settings files, disk.outcome (Settings.load Machine.host c.settings) = .ok settings ∧
      Accepts disk c.path files ∧
      (∀ file ∈ files, stemOf file ≠ "" → place file = step (disk.folder out) (stemOf file)) ∧
      (∀ a ∈ files, ∀ b ∈ files, stemOf a = stemOf b ↔ a = b ∨ Twins c.path a b) ∧
      ((result = .ok () ∧ ∃ turns, turns.map (·.1) = files ∧
          Turns settings out turns disk after.disk ∧
          ∀ earlier file s later, turns = earlier ++ (file, .exported s) :: later →
            (∀ other s', (other, .exported s') ∈ later → place other ≠ place file) →
            (s.generate settings).Held (out.join (stemOf file)) after.disk) ∨
        ∃ turns file rest d s path text, files = turns.map (·.1) ++ file :: rest ∧
          Turns settings out turns disk d ∧
          d.outcome (Snapshot.load Machine.host file) = .ok s ∧
          criticalCount (s.generate settings).diagnostics = 0 ∧
          result = .error (.notExported (stemOf file) (.io path text))) := by
  intro disk place
  unfold run at ran
  have looks := Looks.settings c.settings
  obtain ⟨failure, rfl, failed⟩ | ⟨settings, between, loading, ran⟩ := ran_bind ran
  · obtain ⟨cause, rfl, unread⟩ := fails_adapt failed
    have same := (Prod.mk.inj ((looks.run_eq before).symm.trans unread)).2
    exact .inl ⟨same.symm, _, rfl, by simp⟩
  obtain ⟨loaded, rfl⟩ := Prod.mk.inj ((looks.run_eq before).symm.trans (does_adapt loading))
  obtain ⟨failure, rfl, failed⟩ | ⟨files, between, listing, ran⟩ := ran_bind ran
  · obtain ⟨rfl, ⟨_, same, -⟩ | ⟨_, same, early⟩⟩ := snapshotFiles_ran failed
    · cases same
    · obtain rfl := Except.error.inj same
      exact .inl ⟨rfl, _, rfl, early⟩
  obtain ⟨rfl, ⟨files', same, accepts⟩ | ⟨_, same, -⟩⟩ := snapshotFiles_ran listing
  case inr => cases same
  obtain rfl := Except.ok.inj same
  refine .inr ⟨settings, files, loaded, accepts, fun file _ named => folder_join named,
    fun a memA b memB => accepts.stemOf_eq_iff memA memB, ?_⟩
  cases files with
  | nil =>
    obtain ⟨rfl, rfl⟩ := Prod.mk.inj ran
    exact .inl ⟨rfl, [], rfl, .nil, fun earlier file s later split => by simp at split⟩
  | cons first rest =>
    obtain ⟨rfl, turns, taken, all⟩ | stopped := forM_ran exports ran
    · refine .inl ⟨rfl, turns, taken, all, ?_⟩
      rintro earlier file s later rfl last
      exact all.held last
    · exact .inr stopped

theorem ok_of_toOption {ε α : Type} {x : Except ε α} {a : α} (some : x.toOption = some a) :
    x = .ok a := by
  cases x with
  | error e => cases some
  | ok b => exact congrArg Except.ok (Option.some.inj some)

/-- One process that gets along with nothing else. -/
def lone : Snapshot where
  processes := [{ id := 1, categoryCode := 1 }]
  allocations := [⟨.process, 1, "M", 0, 9⟩]

/-- The same without what is left to the defaults. -/
def loneText : Json := .object
  [("processes", .list [.object [("id", .int 1), ("categoryId", .int 1)]]),
   ("mnemonics", .list [.object [("mnemonicType", .int 1), ("recordId", .int 1),
      ("label", .text "M"), ("startNum", .int 0), ("outCoilCount", .int 9)]])]

/-- Two snapshots of one stem, the second of them empty. -/
def twins : Machine where
  disk.entries := [(["in"], .directory), (["in", "a.JSON"], .file loneText.compact.toUTF8),
    (["in", "a.json"], .file (Json.object []).compact.toUTF8)]

def exporting (path : Path) : CommandLine :=
  ⟨path, ⟨["ladder_settings.json"]⟩, some ⟨["out"]⟩, false, false⟩

theorem settings_twins :
    twins.disk.outcome (Settings.load Machine.host ⟨["ladder_settings.json"]⟩) = .ok {} :=
  ok_of_toOption (by decide +kernel)

theorem accepts_twins : Accepts twins.disk ⟨["in"]⟩ [⟨["in", "a.JSON"]⟩, ⟨["in", "a.json"]⟩] := by
  have listed : twins.disk.names ⟨["in"]⟩ = .ok ["a.JSON", "a.json"] := rfl
  have perm : ["a.JSON", "a.json"].Perm (["a.JSON", "a.json"].filter isSnapshotName) := by
    decide +kernel
  exact .directory (by decide +kernel) listed perm (by decide +kernel)

/-- With settings and files to run over, a run is the turns of these files. -/
theorem run_eq_forM {c : CommandLine} {settings : Settings} {files : List Path} {m : Machine}
    (loaded : m.disk.outcome (Settings.load Machine.host c.settings) = .ok settings)
    (listing : ((snapshotFiles Machine.host c.path).run.run m).1.toBool = true)
    (accepts : Accepts m.disk c.path files) (some : files ≠ []) :
    (run Machine.host c).run.run m = (files.forM (runFile Machine.host c settings)).run.run m := by
  have looking : Does
      ((Settings.load Machine.host c.settings).adapt (Failure.badSettings c.settings)) m
      settings m := by
    have answer : m.disk.outcome
        ((Settings.load Machine.host c.settings).adapt (Failure.badSettings c.settings)) =
        (m.disk.outcome (Settings.load Machine.host c.settings)).mapError _ := rfl
    rw [Does, ((Looks.settings c.settings).adapt _).run_eq, answer, loaded]
    rfl
  have listed : Does (snapshotFiles Machine.host c.path) m files m := by
    cases ran : (snapshotFiles Machine.host c.path).run.run m with
    | mk result after =>
      obtain ⟨rfl, ⟨others, rfl, again⟩ | ⟨failure, rfl, -⟩⟩ := snapshotFiles_ran ran
      · rw [Does, ran, accepts.unique again]
      · rw [ran] at listing
        cases listing
  unfold run
  rw [looking.run_bind, listed.run_bind]
  cases files with
  | nil => exact absurd rfl some
  | cons file rest => rfl

theorem twins_ran :
    (twins.disk.outcome (Snapshot.load Machine.host ⟨["in", "a.JSON"]⟩)).toOption = some lone ∧
    (twins.disk.outcome (Snapshot.load Machine.host ⟨["in", "a.json"]⟩)).toOption = some {} ∧
    ((List.forM [⟨["in", "a.JSON"]⟩, ⟨["in", "a.json"]⟩]
      (runFile Machine.host (exporting ⟨["in"]⟩) {})).run.run twins).1.toBool = true := by
  decide +kernel

/-- One of them alone has its export. -/
theorem run_exports_single :
    let file : Path := ⟨["in", "a.json"]⟩
    (exporting file).out = some ⟨["out"]⟩ ∧ ∃ after,
      (run Machine.host (exporting file)).run.run twins = (.ok (), after) ∧
      (({} : Snapshot).generate {}).Held (Path.join ⟨["out"]⟩ (stemOf file)) after.disk := by
  intro file
  refine ⟨rfl, ?_⟩
  have loads := ok_of_toOption twins_ran.2.1
  have succeeds : ((run Machine.host (exporting file)).run.run twins).1.toBool = true := by
    decide +kernel
  cases ran : (run Machine.host (exporting file)).run.run twins with
  | mk result after =>
    rw [ran] at succeeds
    obtain ⟨_, _, rfl, -⟩ | ⟨settings, files, known, accepts, -, -, ⟨rfl, turns, taken, all, held⟩ |
      ⟨_, _, _, _, _, _, _, _, _, _, _, rfl⟩⟩ :=
        run_exports (exporting file) ⟨["out"]⟩ twins after result rfl ran
    · cases succeeds
    · obtain rfl := accepts.unique (.file (by decide +kernel))
      obtain rfl := Except.ok.inj (settings_twins.symm.trans known)
      obtain ⟨⟨_, outcome⟩, rfl, rfl⟩ := List.map_eq_singleton_iff.mp taken
      refine ⟨after, rfl, ?_⟩
      cases all with
      | cons turn =>
        cases turn with
        | unloaded failed => cases loads.symm.trans failed
        | blocked loaded critical =>
          obtain rfl := Except.ok.inj (loads.symm.trans loaded)
          exact absurd critical (by decide +kernel)
        | exported loaded =>
          obtain rfl := Except.ok.inj (loads.symm.trans loaded)
          exact held [] _ _ [] rfl (by simp)
    · cases succeeds

/-- Both are exported to one directory, and in the end only the second one is there. -/
theorem run_overwrites :
    let first : Path := ⟨["in", "a.JSON"]⟩
    let second : Path := ⟨["in", "a.json"]⟩
    let directory (file : Path) : Path := Path.join ⟨["out"]⟩ (stemOf file)
    let ran := (run Machine.host (exporting ⟨["in"]⟩)).run.run twins
    Accepts twins.disk ⟨["in"]⟩ [first, second] ∧ first ≠ second ∧
    twins.disk.outcome (Snapshot.load Machine.host first) = .ok lone ∧
    twins.disk.outcome (Snapshot.load Machine.host second) = .ok {} ∧
    criticalCount (lone.generate {}).diagnostics = 0 ∧
    criticalCount (({} : Snapshot).generate {}).diagnostics = 0 ∧
    ran.1.toBool = true ∧ directory first = directory second ∧
    ¬ ((lone.generate {}).Held (directory first) ran.2.disk ∧
      (({} : Snapshot).generate {}).Held (directory second) ran.2.disk) := by
  intro first second directory ran
  obtain ⟨loadedFirst, loadedSecond, succeeds⟩ := twins_ran
  have same : directory first = directory second := by decide +kernel
  refine ⟨accepts_twins, by decide, ok_of_toOption loadedFirst, ok_of_toOption loadedSecond,
    by decide +kernel, by decide +kernel, ?_, same, ?_⟩
  · have eq : ran = _ := @run_eq_forM (exporting ⟨["in"]⟩) _ _ _ settings_twins
      (by decide +kernel) accepts_twins (by simp)
    rw [eq]
    exact succeeds
  · -- The tables of the whole stream are of different length.
    rintro ⟨⟨_, files⟩, ⟨_, others⟩⟩
    have table := files ("Ladder.csv", Csv.render (lone.generate {}).program.rows)
      (by simp [Output.files, Output.tables])
    have other := others ("Ladder.csv", Csv.render (({} : Snapshot).generate {}).program.rows)
      (by simp [Output.files, Output.tables])
    rw [same, other] at table
    have sizes := congrArg ByteArray.size (Except.ok.inj table)
    revert sizes
    decide +kernel

end Batch

end Rungs
