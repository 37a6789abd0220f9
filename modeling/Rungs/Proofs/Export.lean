import Mathlib.Algebra.GroupWithZero.Nat
import Rungs.Proofs.Replacement

/-! What an export to a disk in memory leaves behind. A program with a critical diagnostic changes
nothing. One without leaves the tables of its sections, the table of the whole stream and a summary
that agrees with them (`Output.Exports`), and every other file as it was. -/

namespace Rungs

theorem Csv.render_eq (rows : List Row) :
    render rows = "StepNo,Command,Device,Note\n" ++ String.ofList (body rows) := by
  have heading : String.ofList (record headings) = "StepNo,Command,Device,Note\n" := by decide
  rw [← heading, ← String.ofList_append]
  rfl

theorem Csv.body_flatMap (sections : List Section) :
    String.ofList (body (sections.flatMap (·.rows))) =
      String.join (sections.map fun t => String.ofList (body t.rows)) := by
  rw [← String.toList_inj]
  simp [body, List.flatMap_assoc, String.toList_join, List.flatMap_map]

namespace Output

/-- The name of the table of a kind of section. -/
def tableName (kind : EntityKind) : String := kind.name ++ ".csv"

/-- All names that an export can use. -/
def fileNames : List String := EntityKind.all.map tableName ++ ["Ladder.csv", "summary.json"]

theorem orderly_fileNames : Path.Orderly fileNames where
  proper := by decide
  properTemporary := by decide
  apart := by decide

theorem files_eq (o : Output) (time : String) :
    o.files time = o.program.sections.map (fun t => (tableName t.kind, Csv.render t.rows)) ++
      [("Ladder.csv", Csv.render o.program.rows),
        ("summary.json", (o.summary time).write.pretty)] := by
  simp [files, tables, tableName]

theorem orderly_files (o : Output) (time : String) :
    Path.Orderly ((o.files time).map (·.1)) := by
  refine orderly_fileNames.subset fun name mem => ?_
  simp only [files_eq, List.map_append, List.map_map, List.mem_append, List.mem_map] at mem
  obtain ⟨t, -, rfl⟩ | mem := mem
  · exact List.mem_append_left _ (List.mem_map_of_mem (EntityKind.mem_all t.kind))
  · exact List.mem_append_right _ (by simpa [eq_comm] using mem)

theorem nodup_files {o : Output} (distinct : (o.program.sections.map (·.kind)).Nodup)
    (time : String) : ((o.files time).map (·.1)).Nodup := by
  have injective : ∀ j ∈ EntityKind.all, ∀ k ∈ EntityKind.all,
      tableName j = tableName k → j = k := by decide
  have apart : ∀ k ∈ EntityKind.all, ∀ name ∈ ["Ladder.csv", "summary.json"],
      tableName k ≠ name := by decide
  have names : (o.files time).map (·.1) =
      (o.program.sections.map (·.kind)).map tableName ++ ["Ladder.csv", "summary.json"] := by
    simp [files_eq]
  rw [names, List.nodup_append]
  refine ⟨List.Pairwise.map _ ?_ distinct, by decide, ?_⟩
  · intro j k different same
    exact different (injective j (EntityKind.mem_all j) k (EntityKind.mem_all k) same)
  · intro a first b second
    obtain ⟨k, -, rfl⟩ := List.mem_map.mp first
    exact apart k (EntityKind.mem_all k) b second

/-- What an export leaves in a directory, and what it reports. -/
structure Exports (o : Output) (directory : Path) (e : Exported) (before after : Disk) : Prop where
  files : e.files = o.program.sections.map (fun t => directory.join (tableName t.kind)) ++
    [directory.join "Ladder.csv", directory.join "summary.json"]
  tables : (o.program.sections.map (·.kind)).Nodup → ∀ t ∈ o.program.sections,
    after.read (directory.join (tableName t.kind)) = .ok (Csv.render t.rows).toUTF8
  /-- The stream has one heading line and what follows the heading line of each table. -/
  ladder : ∃ bodies : List String,
    o.program.sections.map (fun t => Csv.render t.rows) =
      bodies.map ("StepNo,Command,Device,Note\n" ++ ·) ∧
    after.read (directory.join "Ladder.csv") =
      .ok ("StepNo,Command,Device,Note\n" ++ String.join bodies).toUTF8
  summary : after.read (directory.join "summary.json") = .ok e.summary.write.pretty.toUTF8
  digest : ∀ bytes, after.read (directory.join "Ladder.csv") = .ok bytes →
    e.summary.digest = "sha256:" ++ Sha256.hexDigest bytes.toList
  streamDigest : e.summary.digest = o.program.digest
  counts : e.summary.sections =
    o.program.sections.map fun t => (t.kind, t.rows.length % UInt32.size)
  total : o.program.rows.length < UInt32.size →
    e.summary.rows = (e.summary.sections.map (·.2)).sum
  warnings : e.summary.warnings = o.diagnostics.length % UInt32.size
  temporaries : ∀ path ∈ e.files, after.isFile (path.withExtension "tmp") = false
  frame : ∀ place, (∀ path ∈ e.files, after.place? path ≠ some place ∧
      after.place? (path.withExtension "tmp") ≠ some place) →
    after.content? place = before.content? place

/-- Below the limit the counts of the sections are exact and add up. -/
theorem total_summary (o : Output) (time : String) (few : o.program.rows.length < UInt32.size) :
    (o.summary time).rows = ((o.summary time).sections.map (·.2)).sum := by
  have count (t) (mem : t ∈ o.program.sections) : t.rows.length % UInt32.size = t.rows.length := by
    refine Nat.mod_eq_of_lt (Nat.lt_of_le_of_lt ?_ few)
    obtain ⟨earlier, later, split⟩ := List.append_of_mem mem
    simp only [Program.rows, split, List.flatMap_append, List.flatMap_cons, List.length_append]
    omega
  have exact' : o.program.sections.map (fun t => t.rows.length % UInt32.size) =
      o.program.sections.map fun t => t.rows.length := List.map_congr_left count
  simp only [summary, List.map_map, Function.comp_def, exact', Program.rowCount_eq]
  rw [Nat.mod_eq_of_lt few, Program.rows, List.length_flatMap]

open Disk in
theorem exports_of_stored {o : Output} {directory : Path} {time : String} {paths : List Path}
    {before after : Disk} (stored : Stored directory (o.files time) paths before after) :
    o.Exports directory ⟨paths, o.summary time⟩ before after := by
  have orderly := o.orderly_files time
  have stream : after.read (directory.join "Ladder.csv") =
      .ok (Csv.render o.program.rows).toUTF8 :=
    stored.read (o.files_eq time) (by simp)
  constructor
  case files => simp [stored.paths, files_eq, tableName]
  case tables =>
    intro distinct t mem
    refine stored.read_of_nodup (f := (tableName t.kind, _)) (nodup_files distinct time) ?_
    rw [files_eq]
    exact List.mem_append_left _ (List.mem_map_of_mem mem)
  case ladder =>
    refine ⟨o.program.sections.map fun t => String.ofList (Csv.body t.rows), ?_, ?_⟩
    · simp [Csv.render_eq]
    · rw [stream, Csv.render_eq, Program.rows, Csv.body_flatMap]
  case summary =>
    have split := o.files_eq time
    rw [List.append_cons] at split
    exact stored.read split (by simp)
  case digest =>
    intro bytes found
    rw [stream] at found
    obtain rfl := Except.ok.inj found
    rfl
  case streamDigest => rfl
  case counts => rfl
  case total => exact o.total_summary time
  case warnings => rfl
  case temporaries =>
    intro path mem
    rw [stored.paths] at mem
    obtain ⟨f, among, rfl⟩ := List.mem_map.mp mem
    have absent := stored.gone f among
    rw [Path.withExtension_join (orderly.proper _ (List.mem_map_of_mem among))]
    simp only [isFile, find?, stored.foundTemporary f among, Option.bind_some]
    unfold content? at absent
    split at absent <;> simp_all
  case frame =>
    intro place free
    refine stored.evolves.contents place ?_
    rintro ⟨f, mem, here⟩
    have listed : directory.join f.1 ∈ paths := stored.paths ▸ List.mem_map_of_mem mem
    obtain ⟨name, temporary⟩ := free _ listed
    rw [Path.withExtension_join (orderly.proper _ (List.mem_map_of_mem mem))] at temporary
    obtain rfl | rfl := here
    · exact name (stored.found f mem)
    · exact temporary (stored.foundTemporary f mem)

open Machine in
/-- An export is blocked by the critical diagnostics, and then nothing changes, or it leaves exactly
its own files. -/
theorem exportTo_exact (o : Output) (directory : Path) (before : Machine) :
    (∀ n, criticalCount o.diagnostics = n → 0 < n →
      (o.exportTo Machine.host directory).run.run before = (.error (.blocked n), before)) ∧
    (∀ e after, (o.exportTo Machine.host directory).run.run before = (.ok e, after) →
      criticalCount o.diagnostics = 0 ∧ o.Exports directory e before.disk after.disk) := by
  constructor
  · intro n count positive
    have blocked : hasCritical o.diagnostics = true := hasCritical_iff.mpr (count ▸ positive)
    unfold exportTo
    rw [if_pos blocked, count]
    rfl
  · intro e after done
    by_cases blocked : hasCritical o.diagnostics = true
    · unfold exportTo at done
      rw [if_pos blocked] at done
      have stopped : ((.error (.blocked (criticalCount o.diagnostics)), before) :
          Except ExportFailure Exported × Machine) = (.ok e, after) := done
      simp at stopped
    · have does : Does (o.exportTo Machine.host directory) before e after := done
      unfold exportTo at does
      rw [if_neg blocked] at does
      obtain ⟨time, started, looking, does⟩ := does_bind does
      obtain ⟨paths, finished, writing, does⟩ := does_bind does
      obtain ⟨rfl, rfl⟩ := does_pure does
      have clock : (before.clock, before) = (time, started) := does_lift looking
      obtain ⟨-, rfl⟩ := Prod.mk.inj clock
      have count : criticalCount o.diagnostics = 0 := by
        rw [hasCritical_iff] at blocked
        omega
      exact ⟨count, exports_of_stored (Host.writeAll_does (o.orderly_files time) writing)⟩

end Output

/-- A directory with an older export, and with another one that was broken off. -/
def Machine.exportedBefore : Machine where
  disk.entries := [(["out"], .directory), (["out", "Ladder.csv"], .file "StepNo\n".toUTF8),
    (["out", "summary.tmp"], .file "".toUTF8), (["out", "notes.txt"], .file "keep".toUTF8)]

/-- Two sections of one row each. -/
def Program.twoSections : Program where
  sections := [⟨.operation, [⟨0, .ld, ["M1000"], none⟩]⟩,
    ⟨.cylinder, [⟨1, .out, ["Y100"], some "a,b"⟩]⟩]

theorem Output.exportTo_exact_twoSections :
    let directory : Path := ⟨["out"]⟩
    let warned : Output := ⟨.twoSections, [⟨.cylinder, 1, "CY1", "w", false⟩]⟩
    let failed : Output := ⟨.twoSections, [⟨.cylinder, 1, "CY1", "c", true⟩]⟩
    (0 < 1 ∧ (failed.exportTo Machine.host directory).run.run .exportedBefore =
      (.error (.blocked 1), .exportedBefore)) ∧
    ∃ e after, (warned.exportTo Machine.host directory).run.run .exportedBefore = (.ok e, after) ∧
      warned.Exports directory e Machine.exportedBefore.disk after.disk := by
  intro directory warned failed
  refine ⟨⟨by decide, (failed.exportTo_exact directory _).1 1 rfl (by decide)⟩, ?_⟩
  have succeeds : ((warned.exportTo Machine.host directory).run.run
      .exportedBefore).1.toBool = true := by decide +kernel
  cases run : (warned.exportTo Machine.host directory).run.run .exportedBefore with
  | mk result after =>
    cases result with
    | ok e => exact ⟨e, after, rfl, ((warned.exportTo_exact directory _).2 e after run).2⟩
    | error failure => simp [run, Except.toBool] at succeeds

open Disk Machine in
/-- An export is blocked, or a file cannot be written, or all files are put in place. -/
theorem Output.exportTo_ran {o : Output} {directory : Path} {before after : Machine}
    {result : Except ExportFailure Exported}
    (ran : (o.exportTo Machine.host directory).run.run before = (result, after)) :
    (0 < criticalCount o.diagnostics ∧ after = before ∧
      result = .error (.blocked (criticalCount o.diagnostics))) ∨
    criticalCount o.diagnostics = 0 ∧ ((∃ path text, result = .error (.io path text)) ∨
      ∃ e time, result = .ok e ∧
        Stored directory (o.files time) e.files before.disk after.disk) := by
  unfold exportTo at ran
  by_cases blocked : hasCritical o.diagnostics = true
  · rw [if_pos blocked] at ran
    obtain ⟨rfl, rfl⟩ := Prod.mk.inj ran
    exact .inl ⟨hasCritical_iff.mp blocked, rfl, rfl⟩
  · have count : criticalCount o.diagnostics = 0 := by
      rw [hasCritical_iff] at blocked
      omega
    rw [if_neg blocked] at ran
    replace ran := ran_lift ran
    refine .inr ⟨count, ?_⟩
    obtain ⟨failure, rfl, failed⟩ | ⟨paths, finished, writing, ran⟩ := ran_bind ran
    · obtain ⟨path, text, rfl⟩ := Host.writeAll_fails failed
      exact .inl ⟨path, text, rfl⟩
    · obtain ⟨rfl, rfl⟩ := Prod.mk.inj ran
      exact .inr ⟨_, _, rfl, Host.writeAll_does (o.orderly_files _) writing⟩

namespace Output

/-- A directory holds all files of an export. -/
def Held (o : Output) (directory : Path) (d : Disk) : Prop :=
  ∃ time, ∀ f ∈ o.files time, d.read (directory.join f.1) = .ok f.2.toUTF8

open Disk in
theorem held_of_stored {s : Snapshot} {settings : Settings} {time : String} {directory : Path}
    {paths : List Path} {d e : Disk}
    (stored : Stored directory ((s.generate settings).files time) paths d e) :
    (s.generate settings).Held directory e := by
  have kinds : (s.generate settings).program.sections.map (·.kind) =
      [.operation, .cylinder, .process, .detail] := rfl
  have distinct : ((s.generate settings).program.sections.map (·.kind)).Nodup := by
    rw [kinds]
    decide
  exact ⟨time, fun f mem => stored.read_of_nodup (nodup_files distinct time) mem⟩

open Disk in
/-- An export stays where nothing is changed. -/
theorem Held.later {o : Output} {directory : Path} {changed : Place → Prop} {d e : Disk}
    (held : o.Held directory d) (evolves : Evolves changed d e)
    (kept : ∀ name, ¬ changed (d.folder directory ++ [name])) : o.Held directory e := by
  obtain ⟨time, files⟩ := held
  refine ⟨time, fun f mem => evolves.read (files f mem) ?_⟩
  rw [target_join ((o.orderly_files time).proper _ (List.mem_map_of_mem mem))]
  exact kept _

end Output

end Rungs
