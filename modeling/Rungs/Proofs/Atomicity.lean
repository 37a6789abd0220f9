import Rungs.Proofs.Replacement

/-! What is left of a file that is replaced on a machine whose steps may fail at any time. If the
replacement succeeds, the new bytes are there. If a step reports an error, the old file is still
there, unless it was the rename that failed: by then the old file has been removed
(`Host.replace_outcome`). This does happen, and a directory may have been made where no file was, if
the way to the file leads over its own place (`Host.replace_not_atomic`). -/

namespace Rungs

/-- The steps of a replacement. -/
inductive FileStep where
  | makeDirectories | write | remove | rename
deriving DecidableEq

/-- Which steps fail on which disk although they could be carried out: the words of the error, and
the disk that is left. -/
def Refusals := FileStep → Disk → Option (String × Disk)

namespace Refusals

variable (refuses : Refusals)

/-- A step that may be refused. -/
def guard (step : FileStep) (perform : Disk → Except String Unit × Disk) (d : Disk) :
    Except String Unit × Disk :=
  match refuses step d with
  | some (text, e) => (.error text, e)
  | none => perform d

/-- A refused step leaves what is at a place as it is. -/
def Spare (place : Place) : Prop :=
  ∀ step d text e, refuses step d = some (text, e) → e.get? place = d.get? place

variable {refuses}

theorem guard_ok {step : FileStep} {perform : Disk → Except String Unit × Disk} {d e : Disk}
    (done : refuses.guard step perform d = (.ok (), e)) : perform d = (.ok (), e) := by
  unfold guard at done
  split at done
  · cases (Prod.mk.inj done).1
  · exact done

theorem guard_error {step : FileStep} {perform : Disk → Except String Unit × Disk} {d e : Disk}
    {text : String} (failed : refuses.guard step perform d = (.error text, e)) :
    refuses step d = some (text, e) ∨ perform d = (.error text, e) := by
  unfold guard at failed
  split at failed
  next text' e' refused =>
    rw [refused]
    simp only [Prod.mk.injEq, Except.error.injEq] at failed
    exact .inl (by rw [failed.1, failed.2])
  next => exact .inr failed

end Refusals

/-- A machine on whose files steps may be refused. -/
def Machine.refusing (refuses : Refusals) : Host (StateM Machine) :=
  { host with
    makeDirectories := fun p =>
      onDisk (refuses.guard .makeDirectories fun d => d.makeDirectories p)
    write := fun p bytes => onDisk (refuses.guard .write fun d => d.write p bytes)
    remove := fun p => onDisk (refuses.guard .remove fun d => d.remove p)
    rename := fun source target =>
      onDisk (refuses.guard .rename fun d => d.rename source target) }

/-- One replacement on a machine that may refuse its steps. -/
structure Attempt where
  refuses : Refusals
  path : Path
  bytes : ByteArray
  before : Disk

namespace Attempt

variable (a : Attempt)

def temporary : Path := a.path.withExtension "tmp"

/-- Where the file is to be. -/
def place : Place := a.before.target a.path

/-- What each step does if it is not refused. -/
def carryOut : FileStep → Disk → Except String Unit × Disk
  | .makeDirectories => fun d => d.makeDirectories a.path.parent
  | .write => fun d => d.write a.temporary a.bytes
  | .remove => fun d => d.remove a.path
  | .rename => fun d => d.rename a.temporary a.path

def perform (step : FileStep) : Disk → Except String Unit × Disk :=
  a.refuses.guard step (a.carryOut step)

/-- The disk after the first step. -/
def made : Disk := (a.perform .makeDirectories a.before).2

/-- How far a replacement gets: the step that is tried, and the disk on which it is tried. -/
inductive Tries : FileStep → Disk → Prop
  | makeDirectories : Tries .makeDirectories a.before
  | write {d : Disk} : a.perform .makeDirectories a.before = (.ok (), d) → Tries .write d
  | remove {d e : Disk} : Tries .write d → a.perform .write d = (.ok (), e) →
      (e.find? a.path).isSome = true → Tries .remove e
  | cleared {d e : Disk} : Tries .remove d → a.perform .remove d = (.ok (), e) → Tries .rename e
  | fresh {d e : Disk} : Tries .write d → a.perform .write d = (.ok (), e) →
      (e.find? a.path).isSome = false → Tries .rename e

/-- The replacement ends with a step that reports an error, or with the rename. -/
inductive Ends : Except String Unit → Disk → Prop
  | done {d e : Disk} : a.Tries .rename d → a.perform .rename d = (.ok (), e) → Ends (.ok ()) e
  | failed {step : FileStep} {d e : Disk} {text : String} : a.Tries step d →
      a.perform step d = (.error text, e) → Ends (.error text) e

end Attempt

namespace Machine

variable {refuses : Refusals} {path : Path} {bytes : ByteArray} {before after : Machine}

theorem does_isPresent_refusing {ε : Type} {present : Bool}
    (done : Does (liftM ((refusing refuses).isPresent path) : ExceptT ε (StateM Machine) Bool)
      before present after) :
    after = before ∧ present = (before.disk.find? path).isSome := by
  have looked : ((before.disk.find? path).isSome, before) = (present, after) := does_lift done
  exact ⟨(Prod.mk.inj looked).2.symm, (Prod.mk.inj looked).1.symm⟩

/-- The steps of a replacement, each of which may end it. -/
theorem replace_refusing (d : Disk) : (refusing refuses).replace path bytes = (do
    let a : Attempt := ⟨refuses, path, bytes, d⟩
    onDisk (a.perform .makeDirectories)
    onDisk (a.perform .write)
    if ← (refusing refuses).isPresent path then
      onDisk (a.perform .remove)
    onDisk (a.perform .rename)) := rfl

end Machine

open Machine in
theorem Host.replace_ends {refuses : Refusals} {path : Path} {bytes : ByteArray}
    {before after : Machine} {result : Except String Unit}
    (ran : ((Machine.refusing refuses).replace path bytes).run.run before = (result, after)) :
    Attempt.Ends ⟨refuses, path, bytes, before.disk⟩ result after.disk := by
  rw [replace_refusing before.disk] at ran
  generalize named : (⟨refuses, path, bytes, before.disk⟩ : Attempt) = a at ran ⊢
  have start : before.disk = a.before := by rw [← named]
  have goal : path = a.path := by rw [← named]
  obtain ⟨text, rfl, making⟩ | ⟨_, made, making, ran⟩ := ran_bind ran
  · exact .failed .makeDirectories (start ▸ fails_onDisk making)
  have making := does_onDisk making
  rw [start] at making
  have tries := Attempt.Tries.write making
  obtain ⟨text, rfl, writing⟩ | ⟨_, written, writing, ran⟩ := ran_bind ran
  · exact .failed tries (fails_onDisk writing)
  have writing := does_onDisk writing
  obtain ⟨text, -, looking⟩ | ⟨present, looked, looking, ran⟩ := ran_bind ran
  · exact (not_fails_lift looking).elim
  obtain ⟨rfl, there⟩ := does_isPresent_refusing looking
  rw [goal] at there
  -- What is left is the rename, on the disk that it is tried on.
  have ends {d : Machine} (tries : a.Tries .rename d.disk)
      (ran : (onDisk (a.perform .rename)).run.run d = (result, after)) :
      a.Ends result after.disk := by
    cases result with
    | ok done => exact .done tries (does_onDisk ran)
    | error text => exact .failed tries (fails_onDisk ran)
  cases present with
  | false => exact ends (.fresh tries writing there.symm) ran
  | true =>
    have removes := Attempt.Tries.remove tries writing there.symm
    obtain ⟨text, rfl, removing⟩ | ⟨_, cleared, removing, ran⟩ := ran_bind ran
    · exact .failed removes (fails_onDisk removing)
    · exact ends (.cleared removes (does_onDisk removing)) ran

namespace Attempt

open Disk

variable {a : Attempt} {d e : Disk} {text : String}

/-- The disk with the new bytes under the temporary name. -/
def written (a : Attempt) : Disk := a.made.put (a.before.target a.temporary) (.file a.bytes)

/-- What making directories leaves at the place of the file. -/
theorem get?_made (spares : a.refuses.Spare a.place) :
    a.made.get? a.place = a.before.get? a.place ∨
      a.before.get? a.place = none ∧ a.made.get? a.place = some .directory := by
  unfold made perform Refusals.guard
  split
  next text e refused => exact .inl (spares _ _ text e refused)
  next => exact get?_makeDirectories _ _ _

theorem carryOut_ok {step : FileStep} (done : a.perform step d = (.ok (), e)) :
    a.carryOut step d = (.ok (), e) := Refusals.guard_ok done

theorem Tries.making (tries : a.Tries .write d) :
    a.before.makeDirectories a.path.parent = (.ok (), d) := by
  cases tries with
  | write making =>
    have made := carryOut_ok making
    exact made

theorem Tries.eq_made (tries : a.Tries .write d) :
    d = a.made ∧ ∀ p, a.made.target p = a.before.target p := by
  have evolves := evolves_makeDirectories a.before a.path.parent
  rw [tries.making] at evolves
  cases tries with
  | write making =>
    have same : a.made = d := congrArg Prod.snd making
    exact ⟨same.symm, same ▸ evolves.target⟩

theorem Tries.eq_written (tries : a.Tries .write d) (writing : a.perform .write d = (.ok (), e)) :
    a.made.isDirectory (a.before.target a.temporary) = false ∧ e = a.written ∧
      ∀ p, a.written.target p = a.before.target p := by
  obtain ⟨rfl, target⟩ := tries.eq_made
  obtain ⟨-, file, rfl⟩ := write_eq (Refusals.guard_ok writing)
  rw [target] at file ⊢
  exact ⟨file, rfl, fun p => ((evolves_put file a.bytes).target p).trans (target p)⟩

/-- A file with a temporary name of its own is not changed when that one is written. -/
theorem get?_written (apart : a.before.target a.temporary ≠ a.place)
    (file : a.made.isDirectory (a.before.target a.temporary) = false) :
    a.written.get? a.place = a.made.get? a.place := by
  unfold written
  rw [get?_put _ _ (ne_root file), if_neg apart.symm]

theorem find?_written (apart : a.before.target a.temporary ≠ a.place)
    (file : a.made.isDirectory (a.before.target a.temporary) = false)
    (target : ∀ p, a.made.target p = a.before.target p) :
    a.written.find? a.path = a.made.find? a.path := by
  have place : a.written.place? a.path = a.made.place? a.path := place?_put_file file a.path
  unfold find?
  rw [place]
  cases found : a.made.place? a.path with
  | none => rfl
  | some there =>
    obtain rfl := eq_target found
    rw [Option.bind_some, Option.bind_some, target]
    exact get?_written apart file

/-- The new bytes are in place, whatever could have been refused. -/
theorem Ends.content (ends : a.Ends (.ok ()) e) : e.get? a.place = some (.file a.bytes) := by
  obtain ⟨tries, moving⟩ := ends
  have moves := carryOut_ok moving
  have replaced : Replaced a.path a.bytes a.before e := by
    cases tries with
    | cleared tries removing =>
      cases tries with
      | remove tries writing =>
        exact replaced_of_steps tries.making (carryOut_ok writing) (.inr (carryOut_ok removing)) moves
    | fresh tries writing =>
      exact replaced_of_steps tries.making (carryOut_ok writing) (.inl rfl) moves
  exact content?_eq_some.mp replaced.content

/-- A file that is its own temporary file is never replaced: before it is to be moved, it is removed
or cannot be found. -/
theorem Ends.apart (ends : a.Ends (.ok ()) e) : a.before.target a.temporary ≠ a.place := by
  intro same
  obtain ⟨tries, moving⟩ := ends
  obtain ⟨found, -, ⟨moved, held, -⟩, -⟩ := rename_ok (carryOut_ok moving)
  cases tries with
  | cleared tries removing =>
    cases tries with
    | remove tries writing =>
      obtain ⟨-, rfl, target⟩ := tries.eq_written writing
      obtain ⟨evolves, gone⟩ := remove_ok (carryOut_ok removing)
      rw [evolves.target, target, same] at held
      rw [target, show a.before.target a.path = a.place from rfl, held] at gone
      cases gone
  | fresh tries writing absent =>
    obtain ⟨-, rfl, target⟩ := tries.eq_written writing
    rw [target, same] at held
    rw [target, show a.before.target a.path = a.place from rfl] at found
    simp [find?, found, content?_eq_some.mp held] at absent

/-- A step that reports an error leaves the place of the file as it is, except that directories may
have been made before the one that cannot be made. -/
theorem get?_of_error {step : FileStep} (spares : a.refuses.Spare a.place)
    (later : step ≠ .makeDirectories) (failed : a.perform step d = (.error text, e)) :
    e.get? a.place = d.get? a.place := by
  obtain refused | failed := Refusals.guard_error failed
  · exact spares _ _ _ _ refused
  · cases step with
    | makeDirectories => exact absurd rfl later
    | write => rw [write_error failed]
    | remove => rw [remove_error failed]
    | rename => rw [rename_error failed]

/-- The file is there until it is removed. -/
theorem Tries.get? {step : FileStep} (apart : a.before.target a.temporary ≠ a.place)
    (later : step ≠ .makeDirectories) (tries : a.Tries step d) :
    d.get? a.place =
      if step = .rename ∧ a.made.isFile a.path = true then none else a.made.get? a.place := by
  cases tries with
  | makeDirectories => exact absurd rfl later
  | write making => simp [(Tries.write making).eq_made.1]
  | remove tries writing present =>
    obtain ⟨file, rfl, -⟩ := tries.eq_written writing
    simp [get?_written apart file]
  | cleared tries removing =>
    cases tries with
    | remove tries writing present =>
      obtain ⟨file, rfl, target⟩ := tries.eq_written writing
      obtain ⟨found, ⟨old, entry⟩, rfl⟩ := remove_eq (carryOut_ok removing)
      -- What was removed was there before the temporary file was.
      have there : a.made.isFile a.path = true := by
        unfold isFile
        rw [← find?_written apart file tries.eq_made.2]
        simp [find?, found, entry]
      rw [target] at entry ⊢
      simp [there, get?_erase _ (ne_root (isDirectory_of_file entry)), place]
  | fresh tries writing absent =>
    obtain ⟨file, rfl, -⟩ := tries.eq_written writing
    have free : a.made.isFile a.path = false := by
      rw [find?_written apart file tries.eq_made.2, Option.isSome_eq_false_iff,
        Option.isNone_iff_eq_none] at absent
      simp [isFile, absent]
    simp [free, get?_written apart file]

theorem Ends.outcome (spares : a.refuses.Spare a.place)
    (apart : a.before.target a.temporary ≠ a.place) (ends : a.Ends (.error text) e) :
    ∃ step d, a.Tries step d ∧ a.perform step d = (.error text, e) ∧
      e.get? a.place =
        if step = .rename ∧ a.made.isFile a.path = true then none else a.made.get? a.place := by
  cases ends with
  | @failed step d _ _ tries failed =>
    refine ⟨step, d, tries, failed, ?_⟩
    by_cases first : step = .makeDirectories
    · subst first
      cases tries
      have made : a.made = e := congrArg Prod.snd failed
      simp [made]
    · rw [get?_of_error spares first failed, tries.get? apart first]

end Attempt

/-- What a replacement leaves at the place of the file, on a machine whose steps may be refused as
long as a refused step does not change that place. If it succeeds, the new bytes are there. If it
reports an error, the place is as the directories that were made have left it, unless it was the
rename that failed and there was an old file: then there is none any more. -/
theorem Host.replace_outcome (refuses : Refusals) (path : Path) (bytes : ByteArray)
    (before after : Machine) (result : Except String Unit)
    (spares : refuses.Spare (before.disk.target path))
    (ran : ((Machine.refusing refuses).replace path bytes).run.run before = (result, after)) :
    let a : Attempt := ⟨refuses, path, bytes, before.disk⟩
    let temporary := before.disk.target a.temporary
    (a.made.get? a.place = before.disk.get? a.place ∨
      before.disk.get? a.place = none ∧ a.made.get? a.place = some .directory) ∧
    match result with
    | .ok () => temporary ≠ a.place ∧ after.disk.get? a.place = some (.file bytes)
    | .error text => temporary ≠ a.place →
      ∃ step d, a.Tries step d ∧ a.perform step d = (.error text, after.disk) ∧
        after.disk.get? a.place =
          if step = .rename ∧ a.made.isFile path = true then none else a.made.get? a.place := by
  intro a temporary
  have ends : a.Ends result after.disk := replace_ends ran
  refine ⟨Attempt.get?_made spares, ?_⟩
  cases result with
  | ok done => exact ⟨ends.apart, ends.content⟩
  | error text => exact fun apart => ends.outcome spares apart

/-- No file can be moved. -/
def Refusals.fixed : Refusals := fun step d =>
  if step = .rename then some ("Input/output error (os error 5)", d) else none

theorem Refusals.spare_fixed (place : Place) : fixed.Spare place := by
  intro step d text e refused
  unfold fixed at refused
  split at refused
  · rw [(Prod.mk.inj (Option.some.inj refused)).2]
  · cases refused

/-- A directory with one table. -/
def Machine.tabled : Machine where
  disk.entries := [(["out"], .directory), (["out", "Ladder.csv"], .file "old".toUTF8)]

theorem Host.replace_outcome_fixed :
    let path : Path := ⟨["out", "Ladder.csv"]⟩
    let before := Machine.tabled
    let a : Attempt := ⟨.fixed, path, "new".toUTF8, before.disk⟩
    a.refuses.Spare a.place ∧ ∃ text after,
      ((Machine.refusing .fixed).replace path a.bytes).run.run before = (.error text, after) ∧
      ∃ step d, a.Tries step d ∧ a.perform step d = (.error text, after.disk) ∧
        after.disk.get? a.place =
          if step = .rename ∧ a.made.isFile path = true then none else a.made.get? a.place := by
  intro path before a
  have spares := Refusals.spare_fixed a.place
  have fails : (((Machine.refusing .fixed).replace path a.bytes).run.run before).1.toBool =
      false := by decide +kernel
  cases ran : ((Machine.refusing .fixed).replace path a.bytes).run.run before with
  | mk result after =>
    have outcome := (replace_outcome .fixed path a.bytes before after result spares ran).2
    cases result with
    | ok done => simp [ran, Except.toBool] at fails
    | error text => exact ⟨spares, text, after, rfl, outcome (by decide +kernel)⟩

/-- A replacement that fails may lose the old file, if it is the rename that reports the error, and
may leave a directory where nothing was, if the way to the file leads over it. -/
theorem Host.replace_not_atomic :
    (∀ place, Refusals.fixed.Spare place) ∧
    (let path : Path := ⟨["out", "Ladder.csv"]⟩
      let place := Machine.tabled.disk.target path
      let ran := ((Machine.refusing .fixed).replace path "new".toUTF8).run.run .tabled
      ran.1 = .error "Input/output error (os error 5)" ∧
      Machine.tabled.disk.get? place = some (.file "old".toUTF8) ∧ ran.2.disk.get? place = none) ∧
    (let path : Path := ⟨["out", "Ladder.csv", "..", "Ladder.csv"]⟩
      let before : Machine := {}
      let place := before.disk.target path
      let ran := (Machine.host.replace path "new".toUTF8).run.run before
      ran.1 = .error Disk.isADirectory ∧ before.disk.get? place = none ∧
      ran.2.disk.get? place = some .directory) :=
  ⟨Refusals.spare_fixed, ⟨rfl, rfl, rfl⟩, ⟨rfl, rfl, rfl⟩⟩

end Rungs
