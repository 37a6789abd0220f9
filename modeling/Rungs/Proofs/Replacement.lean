import Rungs.Export
import Rungs.Proofs.Disk

/-! Files put in place on a machine in memory. Each goes to a temporary name first and then takes the
place of the old file; after all of them the last file of each name is there, the temporary ones are
gone, and nothing else has changed (`Disk.Stored`). -/

namespace Rungs

namespace Machine

variable {ε δ α β : Type} {before after : Machine}

/-- A computation ends well: with this result, on this machine. -/
def Does (x : ExceptT ε (StateM Machine) α) (before : Machine) (a : α) (after : Machine) : Prop :=
  x.run.run before = (.ok a, after)

/-- A computation ends in an error, on this machine. -/
def Fails (x : ExceptT ε (StateM Machine) α) (before : Machine) (e : ε) (after : Machine) : Prop :=
  x.run.run before = (.error e, after)

/-- One computation and then another end in the error of the first, or as the second does. -/
theorem ran_bind {x : ExceptT ε (StateM Machine) α} {f : α → ExceptT ε (StateM Machine) β}
    {result : Except ε β} (ran : (x >>= f).run.run before = (result, after)) :
    (∃ e, result = .error e ∧ Fails x before e after) ∨
      ∃ a between, Does x before a between ∧ (f a).run.run between = (result, after) := by
  unfold Fails Does
  rw [ExceptT.run_bind, StateT.run_bind] at ran
  cases first : x.run.run before with
  | mk answer between =>
    rw [first] at ran
    cases answer with
    | ok a => exact .inr ⟨a, between, rfl, ran⟩
    | error e =>
      have stopped : ((.error e, between) : Except ε β × Machine) = (result, after) := ran
      simp only [Prod.mk.injEq] at stopped
      exact .inl ⟨e, stopped.1.symm, by rw [stopped.2]⟩

theorem does_bind {x : ExceptT ε (StateM Machine) α} {f : α → ExceptT ε (StateM Machine) β} {b : β}
    (done : Does (x >>= f) before b after) :
    ∃ a between, Does x before a between ∧ Does (f a) between b after := by
  obtain ⟨e, same, -⟩ | found := ran_bind done
  · cases same
  · exact found

theorem Does.run_bind {x : ExceptT ε (StateM Machine) α}
    {f : α → ExceptT ε (StateM Machine) β} {a : α} (first : Does x before a after) :
    (x >>= f).run.run before = (f a).run.run after := by
  unfold Does at first
  rw [ExceptT.run_bind, StateT.run_bind, first]
  rfl

theorem does_pure {a b : α} (done : Does (pure a : ExceptT ε (StateM Machine) α) before b after) :
    a = b ∧ before = after := by
  have same : ((.ok a, before) : Except ε α × Machine) = (.ok b, after) := done
  simpa using same

theorem does_lift {look : StateM Machine α} {a : α}
    (done : Does (liftM look : ExceptT ε (StateM Machine) α) before a after) :
    look before = (a, after) := by
  have same : ((.ok (look before).1, (look before).2) : Except ε α × Machine) =
      (.ok a, after) := done
  simp only [Prod.mk.injEq, Except.ok.injEq] at same
  exact Prod.ext same.1 same.2

/-- Looking comes first, and what is next goes on from there. -/
theorem ran_lift {look : StateM Machine α} {f : α → ExceptT ε (StateM Machine) β}
    {result : Except ε β} (ran : (liftM look >>= f).run.run before = (result, after)) :
    (f (look before).1).run.run (look before).2 = (result, after) := ran

theorem does_adapt {x : ExceptT ε (StateM Machine) α} {f : ε → δ} {a : α}
    (done : Does (x.adapt f) before a after) : Does x before a after := by
  have same : ((Except.mapError f (x.run.run before).1, (x.run.run before).2) :
      Except δ α × Machine) = (.ok a, after) := done
  unfold Does
  rw [Prod.mk.injEq] at same
  cases result : (x.run.run before).1 with
  | error e =>
    have failed : Except.mapError f (x.run.run before).1 = .error (f e) := by rw [result]; rfl
    exact absurd (failed.symm.trans same.1) (by simp)
  | ok b =>
    have mapped : Except.mapError f (x.run.run before).1 = .ok b := by rw [result]; rfl
    have value : b = a := Except.ok.inj (mapped.symm.trans same.1)
    exact Prod.ext (value ▸ result) same.2

theorem does_onDisk {step : Disk → Except String α × Disk} {a : α}
    (done : Does (onDisk step) before a after) : step before.disk = (.ok a, after.disk) := by
  have same : (((step before.disk).1, { before with disk := (step before.disk).2 }) :
      Except String α × Machine) = (.ok a, after) := done
  rw [Prod.mk.injEq] at same
  exact Prod.ext same.1 (congrArg Machine.disk same.2)

theorem not_fails_pure {a : α} {e : ε} :
    ¬ Fails (pure a : ExceptT ε (StateM Machine) α) before e after := fun failed => by
  have same : ((.ok a, before) : Except ε α × Machine) = (.error e, after) := failed
  simp at same

theorem not_fails_lift {look : StateM Machine α} {e : ε} :
    ¬ Fails (liftM look : ExceptT ε (StateM Machine) α) before e after := fun failed => by
  have same : ((.ok (look before).1, (look before).2) : Except ε α × Machine) =
      (.error e, after) := failed
  simp at same

theorem fails_adapt {x : ExceptT ε (StateM Machine) α} {f : ε → δ} {e : δ}
    (failed : Fails (x.adapt f) before e after) : ∃ cause, e = f cause ∧ Fails x before cause after := by
  have same : ((Except.mapError f (x.run.run before).1, (x.run.run before).2) :
      Except δ α × Machine) = (.error e, after) := failed
  unfold Fails
  rw [Prod.mk.injEq] at same
  cases result : (x.run.run before).1 with
  | error cause =>
    have failed' : Except.mapError f (x.run.run before).1 = .error (f cause) := by rw [result]; rfl
    exact ⟨cause, (Except.error.inj (failed'.symm.trans same.1)).symm, Prod.ext result same.2⟩
  | ok a =>
    have done : Except.mapError f (x.run.run before).1 = .ok a := by rw [result]; rfl
    exact absurd (done.symm.trans same.1) (by simp)

theorem fails_onDisk {step : Disk → Except String α × Disk} {text : String}
    (failed : Fails (onDisk step) before text after) :
    step before.disk = (.error text, after.disk) := by
  have same : (((step before.disk).1, { before with disk := (step before.disk).2 }) :
      Except String α × Machine) = (.error text, after) := failed
  rw [Prod.mk.injEq] at same
  exact Prod.ext same.1 (congrArg Machine.disk same.2)

variable {p target : Path} {bytes : ByteArray}

theorem does_makeDirectories (done : Does (host.makeDirectories p) before () after) :
    before.disk.makeDirectories p = (.ok (), after.disk) :=
  @does_onDisk _ _ _ (fun d => d.makeDirectories p) () done

theorem does_write (done : Does (host.write p bytes) before () after) :
    before.disk.write p bytes = (.ok (), after.disk) :=
  @does_onDisk _ _ _ (fun d => d.write p bytes) () done

theorem does_remove (done : Does (host.remove p) before () after) :
    before.disk.remove p = (.ok (), after.disk) :=
  @does_onDisk _ _ _ (fun d => d.remove p) () done

theorem does_rename (done : Does (host.rename p target) before () after) :
    before.disk.rename p target = (.ok (), after.disk) :=
  @does_onDisk _ _ _ (fun d => d.rename p target) () done

theorem does_isPresent {present : Bool}
    (done : Does (liftM (host.isPresent p) : ExceptT ε (StateM Machine) Bool) before present after) :
    after = before := by
  have looked : ((before.disk.find? p).isSome, before) = (present, after) := does_lift done
  exact (Prod.mk.inj looked).2.symm

end Machine

namespace Path

/-- The segments of a directory without the last one if it is empty. -/
def way (p : Path) : List String :=
  if p.segments.getLast? = some "" then p.segments.dropLast else p.segments

theorem segments_join (p : Path) (name : String) : (p.join name).segments = p.way ++ [name] := by
  unfold join way
  split <;> rfl

/-- A name that leads from a directory to a place in it. -/
def isProper (name : String) : Bool := !isIdle name && name != ".."

/-- The name beside a name under which its new bytes are kept at first. -/
def temporary (name : String) : String := stem name ++ "." ++ "tmp"

theorem isProper_iff {name : String} :
    isProper name = true ↔ isIdle name = false ∧ name ≠ ".." := by
  simp [isProper]

theorem withExtension_join {p : Path} {name : String} (proper : isProper name = true) :
    (p.join name).withExtension "tmp" = p.join (temporary name) := by
  obtain ⟨moves, up⟩ := isProper_iff.mp proper
  have kept : trimmed (p.way ++ [name]) = p.way ++ [name] := by simp [trimmed, moves]
  have there : p.join (temporary name) = ⟨p.way ++ [temporary name]⟩ := by rw [← segments_join]
  rw [there]
  simp [withExtension, fileName?_join moves up, segments_join, kept, temporary]

end Path

namespace Disk

/-- The place in which the names of a directory are looked up. -/
def folder (d : Disk) (directory : Path) : Place :=
  directory.way.foldl step (if directory.way.head? = some "" then [] else d.current)

variable {d e : Disk} {directory : Path} {name : String}

theorem start_append (named : name ≠ "") :
    (if (directory.way ++ [name]).head? = some "" then [] else d.current) =
      if directory.way.head? = some "" then [] else d.current := by
  cases directory.way with
  | nil => simp [named]
  | cons first rest => simp

/-- The names in a directory lead to places beside each other. -/
theorem target_join (proper : Path.isProper name = true) :
    d.target (directory.join name) = d.folder directory ++ [name] := by
  obtain ⟨moves, up⟩ := Path.isProper_iff.mp proper
  have named : name ≠ "" := by
    rintro rfl
    simp [Path.isIdle] at moves
  rw [target, origin, Path.segments_join, start_append named, List.foldl_append]
  simp [folder, step, moves, up]

theorem folder_join (named : name ≠ "") :
    d.folder (directory.join name) = step (d.folder directory) name := by
  have way : (directory.join name).way = directory.way ++ [name] := by
    unfold Path.way
    rw [Path.segments_join]
    simp [named, Path.way]
  rw [folder, way, start_append named, List.foldl_append]
  rfl

theorem Evolves.folder {changed : Place → Prop} (evolves : Evolves changed d e) (directory : Path) :
    e.folder directory = d.folder directory := by
  simp [Disk.folder, evolves.current]

end Disk

theorem Disk.target_join_inj {d : Disk} {directory : Path} {a b : String}
    (properA : Path.isProper a = true) (properB : Path.isProper b = true)
    (same : d.target (directory.join a) = d.target (directory.join b)) : a = b := by
  rw [target_join properA, target_join properB] at same
  simpa using same

/-- A file was put in place as a whole. -/
structure Disk.Replaced (p : Path) (bytes : ByteArray) (d e : Disk) : Prop where
  evolves : Evolves (fun x => x = d.target p ∨ x = d.target (p.withExtension "tmp")) d e
  found : e.place? p = some (d.target p)
  foundTemporary : e.place? (p.withExtension "tmp") = some (d.target (p.withExtension "tmp"))
  content : e.content? (d.target p) = some bytes
  gone : d.target (p.withExtension "tmp") ≠ d.target p →
    e.content? (d.target (p.withExtension "tmp")) = none

open Disk in
/-- What the steps of a replacement come to. The old file is removed if there is one. -/
theorem Disk.replaced_of_steps {path : Path} {bytes : ByteArray} {d made written cleared e : Disk}
    (making : d.makeDirectories path.parent = (.ok (), made))
    (writing : made.write (path.withExtension "tmp") bytes = (.ok (), written))
    (clearing : cleared = written ∨ written.remove path = (.ok (), cleared))
    (moving : cleared.rename (path.withExtension "tmp") path = (.ok (), e)) :
    Replaced path bytes d e := by
  have start : Evolves (fun _ => False) d made := by
    have evolves := evolves_makeDirectories d path.parent
    rwa [making] at evolves
  obtain ⟨found, write, content⟩ := write_ok writing
  have clear : cleared = written ∨ Evolves (· = written.target path) written cleared ∧
      cleared.content? (written.target path) = none := clearing.imp_right remove_ok
  obtain ⟨arrived, move, ⟨moved, held, kept⟩, gone⟩ := rename_ok moving
  have clears : Evolves (· = written.target path) written cleared := by
    obtain rfl | ⟨evolves, -⟩ := clear
    · exact .refl _
    · exact evolves
  -- All places are those of the disk at the beginning.
  have atMade (p : Path) : made.target p = d.target p := start.target p
  have atWritten (p : Path) : written.target p = d.target p :=
    (write.target p).trans (atMade p)
  have atCleared (p : Path) : cleared.target p = d.target p :=
    (clears.target p).trans (atWritten p)
  simp only [atMade, atWritten, atCleared] at content clear clears found move held kept gone
  rw [atCleared] at arrived
  rw [atMade] at write
  have same : moved = bytes := by
    obtain rfl | ⟨-, removed⟩ := clear
    · exact Option.some.inj (held.symm.trans content)
    · by_cases one : d.target (path.withExtension "tmp") = d.target path
      · simp [one, removed] at held
      · rw [clears.contents _ one] at held
        exact Option.some.inj (held.symm.trans content)
  have early : Evolves _ d written := (start.mono fun _ => False.elim).trans write
  have late : Evolves _ written e := (clears.mono fun _ => .inr).trans move
  exact {
    evolves := (early.mono fun _ => .inr).trans (late.mono fun _ => Or.symm)
    found := move.place? arrived
    foundTemporary := late.place? (write.place? found)
    content := by rw [kept, same]
    gone := gone }

open Disk Machine in
theorem Host.replace_does {path : Path} {bytes : ByteArray} {before after : Machine}
    (done : Does (Machine.host.replace path bytes) before () after) :
    Replaced path bytes before.disk after.disk := by
  unfold Host.replace at done
  obtain ⟨_, made, making, done⟩ := does_bind done
  obtain ⟨_, looked, writing, done⟩ := does_bind done
  obtain ⟨present, written, looking, done⟩ := does_bind done
  obtain rfl := does_isPresent looking
  have making := does_makeDirectories making
  have writing := does_write writing
  cases present with
  | false => exact replaced_of_steps making writing (.inl rfl) (does_rename done)
  | true =>
    obtain ⟨_, cleared, removing, moving⟩ := does_bind done
    exact replaced_of_steps making writing (.inr (does_remove removing)) (does_rename moving)

/-- Names whose temporary names are different from all of them. -/
structure Path.Orderly (names : List String) : Prop where
  proper : ∀ a ∈ names, isProper a = true
  properTemporary : ∀ a ∈ names, isProper (temporary a) = true
  apart : ∀ a ∈ names, ∀ b ∈ names, temporary a ≠ b

theorem Path.Orderly.subset {names fewer : List String} (orderly : Orderly names)
    (within : fewer ⊆ names) : Orderly fewer where
  proper a mem := orderly.proper a (within mem)
  properTemporary a mem := orderly.properTemporary a (within mem)
  apart a mema b memb := orderly.apart a (within mema) b (within memb)

/-- Files were put in place one after another. Where a name comes twice, the last one counts. -/
structure Disk.Stored (directory : Path) (files : List (String × String)) (paths : List Path)
    (d e : Disk) : Prop where
  paths : paths = files.map fun f => directory.join f.1
  evolves : Evolves (fun x => ∃ f ∈ files, x = d.target (directory.join f.1) ∨
    x = d.target (directory.join (Path.temporary f.1))) d e
  found : ∀ f ∈ files, e.place? (directory.join f.1) = some (d.target (directory.join f.1))
  foundTemporary : ∀ f ∈ files, e.place? (directory.join (Path.temporary f.1)) =
    some (d.target (directory.join (Path.temporary f.1)))
  content : ∀ earlier f later, files = earlier ++ f :: later → (∀ g ∈ later, g.1 ≠ f.1) →
    e.content? (d.target (directory.join f.1)) = some f.2.toUTF8
  gone : ∀ f ∈ files, e.content? (d.target (directory.join (Path.temporary f.1))) = none

namespace Disk.Stored

variable {directory : Path} {f : String × String} {rest : List (String × String)}
  {paths : List Path} {c d e : Disk}

/-- One more file in front of those that are put in place after it. -/
theorem cons (orderly : Path.Orderly (f.1 :: rest.map (·.1)))
    (first : Replaced (directory.join f.1) f.2.toUTF8 c d)
    (later : Stored directory rest paths d e) :
    Stored directory (f :: rest) (directory.join f.1 :: paths) c e := by
  obtain ⟨proper, properTemporary, apart⟩ := orderly
  have first_mem : f.1 ∈ f.1 :: rest.map (·.1) := .head _
  have rest_mem {g} (mem : g ∈ rest) : g.1 ∈ f.1 :: rest.map (·.1) :=
    .tail _ (List.mem_map_of_mem mem)
  obtain ⟨evolves, found, foundTemporary, content, gone⟩ := first
  rw [Path.withExtension_join (proper _ first_mem)] at evolves foundTemporary gone
  have gone := gone fun same =>
    apart _ first_mem _ first_mem
      (target_join_inj (properTemporary _ first_mem) (proper _ first_mem) same)
  have start (p : Path) : d.target p = c.target p := evolves.target p
  have kept (x : Place) (free : ∀ g ∈ rest, x ≠ c.target (directory.join g.1) ∧
      x ≠ c.target (directory.join (Path.temporary g.1))) : e.content? x = d.content? x := by
    refine later.evolves.contents x ?_
    rintro ⟨g, mem, here | here⟩ <;> rw [start] at here
    · exact (free g mem).1 here
    · exact (free g mem).2 here
  constructor
  case paths => simp [later.paths]
  case evolves =>
    refine (evolves.mono fun x here => ⟨f, .head _, here⟩).trans (later.evolves.mono ?_)
    rintro x ⟨g, mem, here⟩
    rw [start, start] at here
    exact ⟨g, .tail _ mem, here⟩
  case found =>
    intro g mem
    cases mem with
    | head => exact later.evolves.place? found
    | tail _ mem => rw [← start]; exact later.found g mem
  case foundTemporary =>
    intro g mem
    cases mem with
    | head => exact later.evolves.place? foundTemporary
    | tail _ mem => rw [← start]; exact later.foundTemporary g mem
  case content =>
    intro earlier g others split unique
    cases earlier with
    | nil =>
      obtain ⟨rfl, rfl⟩ := List.cons.inj split
      rw [kept _ fun g mem => ⟨fun same => ?_, fun same => ?_⟩, content]
      · exact unique g mem
          (target_join_inj (proper _ first_mem) (proper _ (rest_mem mem)) same).symm
      · exact apart _ (rest_mem mem) _ first_mem
          (target_join_inj (proper _ first_mem) (properTemporary _ (rest_mem mem)) same).symm
    | cons _ earlier =>
      obtain ⟨-, split⟩ := List.cons.inj split
      rw [← start]
      exact later.content earlier g others split unique
  case gone =>
    intro g mem
    cases mem with
    | tail _ mem => rw [← start]; exact later.gone g mem
    | head =>
      -- Another file may have had the same temporary name since.
      by_cases shared : ∃ g ∈ rest, Path.temporary g.1 = Path.temporary f.1
      · obtain ⟨g, mem, same⟩ := shared
        rw [← start, ← same]
        exact later.gone g mem
      · rw [kept _ fun g mem => ⟨fun same => ?_, fun same => ?_⟩, gone]
        · exact apart _ first_mem _ (rest_mem mem)
            (target_join_inj (properTemporary _ first_mem) (proper _ (rest_mem mem)) same)
        · exact shared ⟨g, mem, (target_join_inj (properTemporary _ first_mem)
            (properTemporary _ (rest_mem mem)) same).symm⟩

/-- The last file of a name can be read under it. -/
theorem read {files : List (String × String)} (stored : Stored directory files paths d e)
    {earlier later : List (String × String)} (split : files = earlier ++ f :: later)
    (unique : ∀ g ∈ later, g.1 ≠ f.1) : e.read (directory.join f.1) = .ok f.2.toUTF8 :=
  read_eq (stored.found f (by simp [split])) (stored.content earlier f later split unique)

theorem read_of_nodup {files : List (String × String)} (stored : Stored directory files paths d e)
    (distinct : (files.map (·.1)).Nodup) (mem : f ∈ files) :
    e.read (directory.join f.1) = .ok f.2.toUTF8 := by
  obtain ⟨earlier, later, rfl⟩ := List.append_of_mem mem
  refine stored.read rfl fun g mem same => ?_
  rw [List.map_append, List.nodup_append, List.map_cons, List.nodup_cons] at distinct
  exact distinct.2.1.1 (same ▸ List.mem_map_of_mem mem)

end Disk.Stored

open Disk Machine in
theorem Host.writeAll_does {directory : Path} {files : List (String × String)} {paths : List Path}
    {before after : Machine} (orderly : Path.Orderly (files.map (·.1)))
    (done : Does (Machine.host.writeAll directory files) before paths after) :
    Stored directory files paths before.disk after.disk := by
  induction files generalizing before paths with
  | nil =>
    obtain ⟨rfl, rfl⟩ := does_pure done
    constructor
    case evolves => exact .refl _
    all_goals simp
  | cons f rest ih =>
    obtain ⟨_, between, replacing, done⟩ := does_bind done
    obtain ⟨others, last, writing, done⟩ := does_bind done
    obtain ⟨rfl, rfl⟩ := does_pure done
    have later : Stored directory rest others between.disk last.disk :=
      ih (orderly.subset fun _ => .tail _) writing
    exact later.cons orderly (replace_does (does_adapt replacing))

open Machine in
theorem Host.writeAll_fails {directory : Path} {files : List (String × String)}
    {before after : Machine} {failure : ExportFailure}
    (failed : Fails (Machine.host.writeAll directory files) before failure after) :
    ∃ path text, failure = .io path text := by
  induction files generalizing before with
  | nil => exact (not_fails_pure failed).elim
  | cons f rest ih =>
    obtain ⟨_, same, replacing⟩ | ⟨_, between, -, failed⟩ := ran_bind failed
    · obtain ⟨text, rfl, -⟩ := fails_adapt replacing
      exact ⟨_, text, Except.error.inj same⟩
    obtain ⟨cause, same, writing⟩ | ⟨_, last, -, failed⟩ := ran_bind failed
    · obtain rfl := Except.error.inj same
      exact ih writing
    · exact (not_fails_pure failed).elim

end Rungs
