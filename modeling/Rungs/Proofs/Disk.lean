import Rungs.Disk

/-! What the steps on a disk in memory do to its files. A step changes the files at the places that
it is about and no others, keeps every directory, and so keeps what every path leads to
(`Disk.Evolves`). A file that is replaced has the new bytes, and its temporary file is gone. -/

namespace Rungs.Disk

/-- The bytes of the file at a place. -/
def content? (d : Disk) (place : Place) : Option ByteArray :=
  match d.get? place with
  | some (.file bytes) => some bytes
  | _ => none

/-- Where a path leads if there are directories all the way. -/
def target (d : Disk) (p : Path) : Place := p.segments.foldl step (d.origin p)

theorem isDirectory_root (d : Disk) : d.isDirectory [] = true := by
  simp [isDirectory, get?]

theorem content?_eq_some {d : Disk} {place : Place} {bytes : ByteArray} :
    d.content? place = some bytes ↔ d.get? place = some (.file bytes) := by
  unfold content?
  split <;> simp_all

theorem walk_eq {d : Disk} {here place : Place} {segments : List String}
    (found : d.walk here segments = some place) : place = segments.foldl step here := by
  induction segments generalizing here with
  | nil => simpa [walk] using found.symm
  | cons segment rest ih =>
    rw [walk] at found
    split at found
    · exact ih found
    · contradiction

theorem eq_target {d : Disk} {p : Path} {place : Place} (found : d.place? p = some place) :
    place = d.target p := by
  unfold place? at found
  split at found
  · exact walk_eq found
  · contradiction

theorem read_eq {d : Disk} {p : Path} {bytes : ByteArray} {place : Place}
    (found : d.place? p = some place) (content : d.content? place = some bytes) :
    d.read p = .ok bytes := by
  simp [read, find?, found, content?_eq_some.mp content]

theorem read_eq_ok {d : Disk} {p : Path} {bytes : ByteArray} :
    d.read p = .ok bytes ↔
      d.place? p = some (d.target p) ∧ d.content? (d.target p) = some bytes := by
  refine ⟨fun found => ?_, fun ⟨place, content⟩ => read_eq place content⟩
  unfold read find? at found
  cases place : d.place? p with
  | none => simp [place] at found
  | some there =>
    obtain rfl := eq_target place
    rw [place, Option.bind_some] at found
    refine ⟨rfl, ?_⟩
    unfold content?
    split at found <;> simp_all

/-- A later state of a disk on which only the files at some places may have changed. -/
structure Evolves (changed : Place → Prop) (d e : Disk) : Prop where
  current : e.current = d.current
  directories : ∀ place, d.isDirectory place = true → e.isDirectory place = true
  contents : ∀ place, ¬ changed place → e.content? place = d.content? place

namespace Evolves

variable {changed others : Place → Prop} {d e f : Disk}

theorem refl (d : Disk) : Evolves changed d d := ⟨rfl, fun _ dir => dir, fun _ _ => rfl⟩

theorem trans (first : Evolves changed d e) (second : Evolves changed e f) : Evolves changed d f where
  current := second.current.trans first.current
  directories place dir := second.directories place (first.directories place dir)
  contents place kept := (second.contents place kept).trans (first.contents place kept)

theorem mono (evolves : Evolves changed d e) (more : ∀ place, changed place → others place) :
    Evolves others d e :=
  { evolves with contents := fun place kept => evolves.contents place fun h => kept (more place h) }

theorem origin (evolves : Evolves changed d e) (p : Path) : e.origin p = d.origin p := by
  simp [Disk.origin, evolves.current]

theorem target (evolves : Evolves changed d e) (p : Path) : e.target p = d.target p := by
  simp [Disk.target, evolves.origin]

theorem walk (evolves : Evolves changed d e) {here place : Place} {segments : List String}
    (found : d.walk here segments = some place) : e.walk here segments = some place := by
  induction segments generalizing here with
  | nil => exact found
  | cons segment rest ih =>
    rw [Disk.walk] at found ⊢
    by_cases dir : d.isDirectory here = true
    · rw [if_pos dir] at found
      rw [if_pos (evolves.directories here dir)]
      exact ih found
    · rw [if_neg dir] at found
      contradiction

/-- A path that leads somewhere leads to the same place later. -/
theorem place? (evolves : Evolves changed d e) {p : Path} {place : Place}
    (found : d.place? p = some place) : e.place? p = some place := by
  unfold Disk.place? at found ⊢
  split at found
  case isTrue usable =>
    rw [if_pos usable, evolves.origin]
    exact evolves.walk found
  case isFalse => contradiction

/-- A file that is not changed is read as before. -/
theorem read (evolves : Evolves changed d e) {p : Path} {bytes : ByteArray}
    (found : d.read p = .ok bytes) (kept : ¬ changed (d.target p)) : e.read p = .ok bytes := by
  obtain ⟨place, content⟩ := read_eq_ok.mp found
  exact read_eq (evolves.place? place) ((evolves.contents _ kept).trans content)

end Evolves

theorem content?_put (d : Disk) {a : Place} (inside : a ≠ []) (bytes : ByteArray) (b : Place) :
    (d.put a (.file bytes)).content? b = if b = a then some bytes else d.content? b := by
  unfold content?
  rw [get?_put d _ inside]
  by_cases here : b = a <;> simp [here]

theorem content?_erase (d : Disk) {a : Place} (inside : a ≠ []) (b : Place) :
    (d.erase a).content? b = if b = a then none else d.content? b := by
  unfold content?
  rw [get?_erase d inside]
  by_cases here : b = a <;> simp [here]

theorem ne_root {d : Disk} {place : Place} (file : d.isDirectory place = false) : place ≠ [] := by
  rintro rfl
  rw [isDirectory_root] at file
  contradiction

theorem evolves_put {d : Disk} {a : Place} (file : d.isDirectory a = false) (bytes : ByteArray) :
    Evolves (· = a) d (d.put a (.file bytes)) where
  current := rfl
  directories place dir := by
    have other : place ≠ a := by
      rintro rfl
      rw [dir] at file
      contradiction
    simpa [isDirectory, get?_put d _ (ne_root file), other] using dir
  contents place kept := by rw [content?_put d (ne_root file), if_neg kept]

theorem evolves_erase {d : Disk} {a : Place} (file : d.isDirectory a = false) :
    Evolves (· = a) d (d.erase a) where
  current := rfl
  directories place dir := by
    have other : place ≠ a := by
      rintro rfl
      rw [dir] at file
      contradiction
    simpa [isDirectory, get?_erase d (ne_root file), other] using dir
  contents place kept := by rw [content?_erase d (ne_root file), if_neg kept]

/-- A directory made where nothing was changes no file. -/
theorem evolves_put_directory {d : Disk} {a : Place} (free : d.get? a = none) :
    Evolves (fun _ => False) d (d.put a .directory) := by
  have inside : a ≠ [] := by
    rintro rfl
    simp [get?] at free
  refine ⟨rfl, fun place dir => ?_, fun place _ => ?_⟩
  · by_cases here : place = a
    · simp [isDirectory, get?_put d _ inside, here]
    · simpa [isDirectory, get?_put d _ inside, here] using dir
  · unfold content?
    rw [get?_put d _ inside]
    by_cases here : place = a <;> simp [here, free]

theorem evolves_makeWay (d : Disk) (here : Place) (segments : List String) :
    Evolves (fun _ => False) d (d.makeWay here segments).2 := by
  induction segments generalizing d here with
  | nil => exact .refl d
  | cons segment rest ih =>
    simp only [makeWay]
    split
    · cases entry : d.get? (step here segment) with
      | none => exact (evolves_put_directory entry).trans (ih _ _)
      | some found =>
        cases found with
        | file bytes => exact .refl d
        | directory => exact ih d _
    · exact .refl d

theorem evolves_makeDirectories (d : Disk) (p : Path) :
    Evolves (fun _ => False) d (d.makeDirectories p).2 := by
  unfold makeDirectories
  split
  · exact evolves_makeWay d _ _
  · exact .refl d

/-! ## What each step does if it is carried out -/

theorem write_eq {d e : Disk} {p : Path} {bytes : ByteArray} (done : d.write p bytes = (.ok (), e)) :
    d.place? p = some (d.target p) ∧ d.isDirectory (d.target p) = false ∧
      e = d.put (d.target p) (.file bytes) := by
  unfold write at done
  cases found : d.place? p with
  | none => simp [found] at done
  | some place =>
    obtain rfl := eq_target found
    by_cases dir : d.isDirectory (d.target p) = true
    · simp [found, dir] at done
    · rw [Bool.not_eq_true] at dir
      simp only [found, dir] at done
      exact ⟨rfl, dir, (Prod.mk.inj done).2.symm⟩

theorem write_ok {d e : Disk} {p : Path} {bytes : ByteArray} (done : d.write p bytes = (.ok (), e)) :
    d.place? p = some (d.target p) ∧ Evolves (· = d.target p) d e ∧
      e.content? (d.target p) = some bytes := by
  obtain ⟨found, file, rfl⟩ := write_eq done
  refine ⟨found, evolves_put file bytes, ?_⟩
  rw [content?_put d (ne_root file), if_pos rfl]

theorem isDirectory_of_file {d : Disk} {place : Place} {bytes : ByteArray}
    (entry : d.get? place = some (.file bytes)) : d.isDirectory place = false := by
  simp [isDirectory, entry]

theorem remove_eq {d e : Disk} {p : Path} (done : d.remove p = (.ok (), e)) :
    d.place? p = some (d.target p) ∧ (∃ old, d.get? (d.target p) = some (.file old)) ∧
      e = d.erase (d.target p) := by
  unfold remove at done
  cases found : d.place? p with
  | none => simp [found] at done
  | some place =>
    obtain rfl := eq_target found
    simp only [found] at done
    cases entry : d.get? (d.target p) with
    | none => simp [entry] at done
    | some here =>
      cases here with
      | directory => simp [entry] at done
      | file old =>
        simp only [entry] at done
        exact ⟨rfl, ⟨old, rfl⟩, (Prod.mk.inj done).2.symm⟩

theorem remove_ok {d e : Disk} {p : Path} (done : d.remove p = (.ok (), e)) :
    Evolves (· = d.target p) d e ∧ e.content? (d.target p) = none := by
  obtain ⟨-, ⟨old, entry⟩, rfl⟩ := remove_eq done
  have file := isDirectory_of_file entry
  refine ⟨evolves_erase file, ?_⟩
  rw [content?_erase d (ne_root file), if_pos rfl]

/-- A file that was moved is at its new place, also if the two places are one. -/
theorem rename_ok {d e : Disk} {source target : Path}
    (done : d.rename source target = (.ok (), e)) :
    d.place? target = some (d.target target) ∧
      Evolves (fun x => x = d.target source ∨ x = d.target target) d e ∧
      (∃ bytes, d.content? (d.target source) = some bytes ∧
        e.content? (d.target target) = some bytes) ∧
      (d.target source ≠ d.target target → e.content? (d.target source) = none) := by
  unfold rename at done
  cases leaving : d.place? source with
  | none => simp [leaving] at done
  | some a =>
    cases arriving : d.place? target with
    | none => simp [leaving, arriving] at done
    | some b =>
      obtain rfl := eq_target leaving
      obtain rfl := eq_target arriving
      simp only [leaving, arriving] at done
      cases entry : d.get? (d.target source) with
      | none => simp [entry] at done
      | some here =>
        cases here with
        | directory => simp [entry] at done
        | file bytes =>
          by_cases dir : d.isDirectory (d.target target) = true
          · simp [entry, dir] at done
          · rw [Bool.not_eq_true] at dir
            simp only [entry, dir] at done
            obtain rfl : (d.erase (d.target source)).put (d.target target) (.file bytes) = e :=
              (Prod.mk.inj done).2
            have file := isDirectory_of_file entry
            have free : (d.erase (d.target source)).isDirectory (d.target target) = false := by
              unfold isDirectory at dir ⊢
              rw [get?_erase d (ne_root file)]
              by_cases here : d.target target = d.target source
              · rw [if_pos here]
              · rwa [if_neg here]
            have left : Evolves _ d _ := evolves_erase file
            have put := content?_put (d.erase (d.target source)) (ne_root dir) bytes
            refine ⟨rfl, ?_, ⟨bytes, content?_eq_some.mpr entry, by rw [put, if_pos rfl]⟩, ?_⟩
            · exact (left.mono fun _ => .inl).trans ((evolves_put free bytes).mono fun _ => .inr)
            · intro apart
              rw [put, if_neg apart, content?_erase d (ne_root file), if_pos rfl]

/-! ## What a step changes if it fails -/

variable {d e : Disk} {p source target : Path} {bytes : ByteArray} {text : String}

theorem write_error (failed : d.write p bytes = (.error text, e)) : e = d := by
  unfold write at failed
  split at failed
  · exact (Prod.mk.inj failed).2.symm
  · split at failed
    · exact (Prod.mk.inj failed).2.symm
    · cases (Prod.mk.inj failed).1

theorem remove_error (failed : d.remove p = (.error text, e)) : e = d := by
  unfold remove at failed
  split at failed
  · exact (Prod.mk.inj failed).2.symm
  · split at failed
    · cases (Prod.mk.inj failed).1
    · exact (Prod.mk.inj failed).2.symm
    · exact (Prod.mk.inj failed).2.symm

theorem rename_error (failed : d.rename source target = (.error text, e)) : e = d := by
  unfold rename at failed
  split at failed
  · split at failed
    · split at failed
      · exact (Prod.mk.inj failed).2.symm
      · cases (Prod.mk.inj failed).1
    · exact (Prod.mk.inj failed).2.symm
    · exact (Prod.mk.inj failed).2.symm
  · exact (Prod.mk.inj failed).2.symm

/-- Directories are made where nothing was, also if the last of them cannot be made. -/
theorem get?_makeWay (d : Disk) (here : Place) (segments : List String) (place : Place) :
    (d.makeWay here segments).2.get? place = d.get? place ∨
      d.get? place = none ∧ (d.makeWay here segments).2.get? place = some .directory := by
  induction segments generalizing d here with
  | nil => exact .inl rfl
  | cons segment rest ih =>
    simp only [makeWay]
    split
    · cases entry : d.get? (step here segment) with
      | none =>
        have inside : step here segment ≠ [] := by
          intro root
          simp [get?, root] at entry
        have made := get?_put d (b := place) .directory inside
        by_cases here' : place = step here segment
        · -- The directory is there, and later steps keep it.
          have later := ih (d.put (step here segment) .directory) (step here segment)
          rw [if_pos here'] at made
          rw [made] at later
          exact .inr ⟨here' ▸ entry, by simpa using later⟩
        · rw [if_neg here'] at made
          rw [← made]
          exact ih _ _
      | some found =>
        cases found with
        | file bytes => exact .inl rfl
        | directory => exact ih d _
    · exact .inl rfl

theorem get?_makeDirectories (d : Disk) (p : Path) (place : Place) :
    (d.makeDirectories p).2.get? place = d.get? place ∨
      d.get? place = none ∧ (d.makeDirectories p).2.get? place = some .directory := by
  unfold makeDirectories
  split
  · exact get?_makeWay d _ _ place
  · exact .inl rfl

/-- A new file is in nobody's way. -/
theorem isDirectory_put_file {a : Place} (file : d.isDirectory a = false) (place : Place) :
    (d.put a (.file bytes)).isDirectory place = d.isDirectory place := by
  unfold isDirectory at file ⊢
  rw [get?_put d _ (ne_root file)]
  by_cases here : place = a
  · rw [if_pos here, here, file]
  · rw [if_neg here]

/-- Paths lead to the same places with the file and without it. -/
theorem place?_put_file {a : Place} (file : d.isDirectory a = false) (p : Path) :
    (d.put a (.file bytes)).place? p = d.place? p := by
  have evolves := evolves_put file bytes
  have back : Evolves (fun _ => True) (d.put a (.file bytes)) d :=
    ⟨rfl, fun place dir => isDirectory_put_file file place ▸ dir, fun _ kept => (kept trivial).elim⟩
  cases found : d.place? p with
  | some place => exact evolves.place? found
  | none =>
    cases there : (d.put a (.file bytes)).place? p with
    | none => rfl
    | some place =>
      rw [back.place? there] at found
      cases found

end Rungs.Disk
