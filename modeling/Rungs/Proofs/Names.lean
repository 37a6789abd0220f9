import Rungs.Batch
import Rungs.Proofs.Loading

/-! Which files count as snapshots by their names, and what each of them is called. The extension
may be in capitals or not (`Batch.isSnapshotName_iff`), so that two files of a directory can have one
stem (`Batch.Accepts.stemOf_eq_iff`). -/

namespace Rungs

namespace Path

theorem atLastDot_of_free {cs : List Char} (free : '.' ∉ cs) : atLastDot cs = none := by
  induction cs with
  | nil => rfl
  | cons c cs ih =>
    simp only [List.mem_cons, not_or] at free
    rw [atLastDot, ih free.2]
    exact if_neg (Ne.symm free.1)

theorem atLastDot_append (stem : List Char) {extension : List Char} (free : '.' ∉ extension) :
    atLastDot (stem ++ '.' :: extension) = some (stem, extension) := by
  induction stem with
  | nil => simp [atLastDot, atLastDot_of_free free]
  | cons c stem ih => rw [List.cons_append, atLastDot, ih]

theorem eq_append_of_atLastDot {cs stem extension : List Char}
    (found : atLastDot cs = some (stem, extension)) :
    cs = stem ++ '.' :: extension ∧ '.' ∉ extension := by
  by_cases dot : '.' ∈ cs
  · -- The last of the dots is the one that is found.
    obtain ⟨later, earlier, split, free⟩ := List.eq_append_cons_of_mem (List.mem_reverse.mpr dot)
    have cs_eq : cs = earlier.reverse ++ '.' :: later.reverse := by
      rw [← List.reverse_reverse cs, split]
      simp
    have free' : '.' ∉ later.reverse := by simpa using free
    rw [cs_eq, atLastDot_append _ free'] at found
    simp only [Option.some.injEq, Prod.mk.injEq] at found
    obtain ⟨rfl, rfl⟩ := found
    exact ⟨cs_eq, free'⟩
  · rw [atLastDot_of_free dot] at found
    cases found

theorem stemAndExtension_append {stem extension : String} (named : stem ≠ "")
    (free : '.' ∉ extension.toList) :
    stemAndExtension (stem ++ "." ++ extension) = (stem, some extension) := by
  have chars : (stem ++ "." ++ extension).toList = stem.toList ++ '.' :: extension.toList := by simp
  unfold stemAndExtension
  rw [chars, atLastDot_append _ free]
  cases letters : stem.toList with
  | nil => exact absurd (String.toList_eq_nil_iff.mp letters) named
  | cons c cs => simp [← letters]

theorem eq_append_of_extension? {name extension : String}
    (found : extension? name = some extension) :
    ∃ stem, stem ≠ "" ∧ name = stem ++ "." ++ extension ∧ '.' ∉ extension.toList := by
  unfold extension? stemAndExtension at found
  split at found
  next c cs rest split =>
    obtain ⟨letters, free⟩ := eq_append_of_atLastDot split
    obtain rfl : String.ofList rest = extension := Option.some.inj found
    refine ⟨String.ofList (c :: cs), by simp, ?_, by simpa using free⟩
    rw [← String.toList_inj]
    simpa using letters
  next => cases found

end Path

namespace Batch

/-- A name with this stem, and with the extension of a snapshot in any letters. -/
def Belongs (stem name : String) : Prop :=
  ∃ extension : String, extension.toLower = "json" ∧ name = stem ++ "." ++ extension

theorem toList_toLower {extension : String} (json : extension.toLower = "json") :
    extension.toList.map Char.toLower = ['j', 's', 'o', 'n'] := by
  have lower : (extension.map Char.toLower).toList = "json".toList := congrArg String.toList json
  rw [String.toList_map] at lower
  exact lower.trans rfl

theorem dot_notMem {extension : String} (json : extension.toLower = "json") :
    '.' ∉ extension.toList := by
  intro dot
  have lower : '.' ∈ extension.toList.map Char.toLower := List.mem_map.mpr ⟨'.', dot, by decide⟩
  rw [toList_toLower json] at lower
  simp at lower

variable {stem name : String}

theorem stem_of_belongs (named : stem ≠ "") (belongs : Belongs stem name) :
    Path.stem name = stem := by
  obtain ⟨extension, json, rfl⟩ := belongs
  exact congrArg Prod.fst (Path.stemAndExtension_append named (dot_notMem json))

theorem isSnapshotName_of_belongs (named : stem ≠ "") (belongs : Belongs stem name) :
    isSnapshotName name = true := by
  obtain ⟨extension, json, rfl⟩ := belongs
  have found : Path.extension? (stem ++ "." ++ extension) = some extension :=
    congrArg Prod.snd (Path.stemAndExtension_append named (dot_notMem json))
  simp [isSnapshotName, found, json]

/-- A snapshot's name is its stem, which is not empty, and the extension. -/
theorem isSnapshotName_iff :
    isSnapshotName name = true ↔ Path.stem name ≠ "" ∧ Belongs (Path.stem name) name := by
  constructor
  · intro accepted
    unfold isSnapshotName at accepted
    split at accepted
    next extension found =>
      have json : extension.toLower = "json" := by simpa using accepted
      obtain ⟨stem, named, eq, -⟩ := Path.eq_append_of_extension? found
      have belongs : Belongs stem name := ⟨extension, json, eq⟩
      rw [stem_of_belongs named belongs]
      exact ⟨named, belongs⟩
    next => cases accepted
  · exact fun ⟨named, belongs⟩ => isSnapshotName_of_belongs named belongs

/-- A name with a stem leads to something in its directory. -/
theorem isProper_of_belongs (named : stem ≠ "") (belongs : Belongs stem name) :
    Path.isProper name = true := by
  obtain ⟨extension, json, rfl⟩ := belongs
  have first : 0 < stem.length := by
    rw [Nat.pos_iff_ne_zero, Ne, String.length_eq_zero_iff]
    exact named
  have last : extension.length = 4 := by
    rw [← String.length_toList, ← List.length_map Char.toLower, toList_toLower json]
    rfl
  have long : (stem ++ "." ++ extension).length = stem.length + 1 + extension.length := by
    rw [String.length_append, String.length_append]
    rfl
  have other (short : String) (few : short.length < 3) : stem ++ "." ++ extension ≠ short := by
    intro same
    rw [same] at long
    omega
  simp [Path.isProper, Path.isIdle, other "" (by decide), other "." (by decide),
    other ".." (by decide)]

theorem stemOf_join {directory : Path} (proper : Path.isProper name = true) :
    stemOf (directory.join name) = Path.stem name := by
  obtain ⟨moves, up⟩ := Path.isProper_iff.mp proper
  simp [stemOf, Path.fileName?_join moves up]

/-! ## The files of a run -/

/-- The files that are taken for snapshots: one file as it is, or those in a directory that are
named like one, by their names. -/
inductive Accepts (d : Disk) (path : Path) : List Path → Prop
  | file : d.isFile path = true → Accepts d path [path]
  | directory {names sorted : List String} : d.isFile path = false → d.names path = .ok names →
      sorted.Perm (names.filter isSnapshotName) → sorted.Pairwise (· ≤ ·) →
      Accepts d path ((sorted.map path.join).filter d.isFile)

theorem keepFiles_eq (paths : List Path) (m : Machine) :
    keepFiles Machine.host paths m = (paths.filter m.disk.isFile, m) := by
  induction paths with
  | nil => rfl
  | cons path rest ih =>
    have step : keepFiles Machine.host (path :: rest) m =
        (if m.disk.isFile path then path :: (keepFiles Machine.host rest m).1
          else (keepFiles Machine.host rest m).1, (keepFiles Machine.host rest m).2) := rfl
    rw [step, ih, List.filter_cons]

theorem perm_sorted (names : List String) :
    (names.mergeSort fun a b => decide (a ≤ b)).Perm names ∧
      (names.mergeSort fun a b => decide (a ≤ b)).Pairwise (· ≤ ·) := by
  refine ⟨List.mergeSort_perm _ _, ?_⟩
  have sorted : (names.mergeSort fun a b => decide (a ≤ b)).Pairwise fun a b =>
      decide (a ≤ b) = true :=
    List.pairwise_mergeSort (fun a b c => by simpa using String.le_trans)
      (fun a b => by simpa using String.le_total a b) names
  simpa using sorted

theorem snapshotFiles_ran {path : Path} {m after : Machine} {result : Except Failure (List Path)}
    (ran : (snapshotFiles Machine.host path).run.run m = (result, after)) :
    after = m ∧ ((∃ files, result = .ok files ∧ Accepts m.disk path files) ∨
      ∃ failure, result = .error failure ∧ ∀ stem cause, failure ≠ .notExported stem cause) := by
  unfold snapshotFiles at ran
  replace ran := Machine.ran_lift ran
  have isFile : Machine.host.isFile path m = (m.disk.isFile path, m) := rfl
  have isPresent : Machine.host.isPresent path m = ((m.disk.find? path).isSome, m) := rfl
  rw [isFile] at ran
  by_cases file : m.disk.isFile path = true
  · rw [if_pos file] at ran
    obtain ⟨rfl, rfl⟩ := Prod.mk.inj ran
    exact ⟨rfl, .inl ⟨[path], rfl, .file file⟩⟩
  -- What is no file is listed, if there is anything.
  rw [if_neg file] at ran
  replace ran := Machine.ran_lift ran
  rw [isPresent] at ran
  by_cases present : (m.disk.find? path).isSome = true
  · rw [present] at ran
    obtain ⟨failure, rfl, unlisted⟩ | ⟨names, listed, listing, ran⟩ := Machine.ran_bind ran
    · obtain ⟨text, rfl, failed⟩ := Machine.fails_adapt unlisted
      have looked : (m.disk.names path, m) = (.error text, after) := failed
      exact ⟨(Prod.mk.inj looked).2.symm, .inr ⟨_, rfl, by simp⟩⟩
    · have looked : (m.disk.names path, m) = (.ok names, listed) := Machine.does_adapt listing
      obtain ⟨entries, rfl⟩ := Prod.mk.inj looked
      obtain ⟨perm, sorted⟩ := perm_sorted (names.filter isSnapshotName)
      generalize (names.filter isSnapshotName).mergeSort (fun a b => decide (a ≤ b)) = ordered at *
      have kept : ((.ok (keepFiles Machine.host (ordered.map path.join) m).1,
          (keepFiles Machine.host (ordered.map path.join) m).2) : Except Failure _ × Machine) =
          (result, after) := ran
      rw [keepFiles_eq] at kept
      obtain ⟨rfl, rfl⟩ := Prod.mk.inj kept
      rw [Bool.not_eq_true] at file
      exact ⟨rfl, .inl ⟨_, rfl, .directory file entries perm sorted⟩⟩
  · rw [Bool.not_eq_true] at present
    rw [present] at ran
    obtain ⟨rfl, rfl⟩ := Prod.mk.inj ran
    exact ⟨rfl, .inr ⟨_, rfl, by simp⟩⟩

/-- A disk and a path determine the files and their order. -/
theorem Accepts.unique {d : Disk} {path : Path} {files others : List Path}
    (accepts : Accepts d path files) (again : Accepts d path others) : files = others := by
  cases accepts with
  | file isFile =>
    cases again with
    | file => rfl
    | directory no => simp [isFile] at no
  | directory no listed perm sorted =>
    cases again with
    | file isFile => simp [isFile] at no
    | directory _ listed' perm' sorted' =>
      obtain rfl := Except.ok.inj (listed.symm.trans listed')
      have same := (perm.trans perm'.symm).eq_of_pairwise
        (fun a b _ _ => String.le_antisymm) sorted sorted'
      rw [same]

/-- Two names in a directory that differ at most in the letters of the extension. -/
def Twins (directory a b : Path) : Prop :=
  ∃ stem m n, stem ≠ "" ∧ Belongs stem m ∧ Belongs stem n ∧
    a = directory.join m ∧ b = directory.join n

theorem stemOf_of_belongs {stem name : String} {directory : Path} (named : stem ≠ "")
    (belongs : Belongs stem name) : stemOf (directory.join name) = stem := by
  rw [stemOf_join (isProper_of_belongs named belongs), stem_of_belongs named belongs]

/-- Two files share a stem if they are one file or differ only in the letters of the extension. -/
theorem Accepts.stemOf_eq_iff {d : Disk} {path a b : Path} {files : List Path}
    (accepts : Accepts d path files) (memA : a ∈ files) (memB : b ∈ files) :
    stemOf a = stemOf b ↔ a = b ∨ Twins path a b := by
  constructor
  · intro same
    cases accepts with
    | file => exact .inl ((List.mem_singleton.mp memA).trans (List.mem_singleton.mp memB).symm)
    | @directory names sorted _ _ perm _ =>
      have named (f : Path) (mem : f ∈ (sorted.map path.join).filter d.isFile) :
          ∃ name, stemOf f ≠ "" ∧ Belongs (stemOf f) name ∧ f = path.join name := by
        obtain ⟨name, among, rfl⟩ := List.mem_map.mp (List.mem_filter.mp mem).1
        obtain ⟨stem, belongs⟩ :=
          isSnapshotName_iff.mp (List.mem_filter.mp (perm.mem_iff.mp among)).2
        rw [stemOf_of_belongs stem belongs]
        exact ⟨name, stem, belongs, rfl⟩
      obtain ⟨m, stem, belongsA, hereA⟩ := named a memA
      obtain ⟨n, -, belongsB, hereB⟩ := named b memB
      exact .inr ⟨stemOf a, m, n, stem, belongsA, same ▸ belongsB, hereA, hereB⟩
  · rintro (rfl | ⟨stem, m, n, named, belongsA, belongsB, rfl, rfl⟩)
    · rfl
    · rw [stemOf_of_belongs named belongsA, stemOf_of_belongs named belongsB]

end Batch

end Rungs
