import Mathlib.Data.List.DropRight
import Rungs.Proofs.Composition
import Rungs.Proofs.Documents

/-! The numbers of rows over any history of a program, which pushes sections and, in between, writes
the program and reads it again. No step changes what it finds. The counter, which no document holds,
stands for the rows pushed since the start or the last reading (`History.nextId_made`), and each
section is numbered on from these, so that the i-th of them has the number i (`history_numbered`). -/

namespace Rungs

/-- The two written forms of a document. -/
inductive Json.Form where
  | compact | pretty
deriving DecidableEq, Repr, Inhabited

namespace Json

def Form.text : Form → Json → String
  | compact => Json.compact
  | pretty => Json.pretty

theorem Shape.allows_text (shape : Shape) (j : Json) (form : Form) :
    shape.Allows j (form.text j) := by
  cases form with
  | compact => exact shape.allows_compact j
  | pretty => exact shape.allows_pretty j

end Json

/-- As long as they fit in 32 bits, the numbers of rows go up by one. -/
theorem ids_numberedFrom {n : Nat} {rows : List Row} (fits : n + rows.length ≤ UInt32.size) :
    (numberedFrom (UInt32.ofNat n) rows).map (·.id.toNat) = List.range' n rows.length := by
  have ids := congrArg (List.map UInt32.toNat) (map_id_numberedFrom (UInt32.ofNat n) rows)
  rw [List.map_map, List.map_map] at ids
  refine ids.trans ?_
  rw [List.range'_eq_map_range]
  refine List.map_congr_left fun i mem => ?_
  have below : n + i < UInt32.size := by
    have := List.mem_range.mp mem
    omega
  rw [Function.comp_apply, ← UInt32.ofNat_add]
  exact UInt32.toNat_ofNat_of_lt' below

namespace Program

/-! ## Steps -/

inductive Step where
  /-- A section is pushed. Its rows may have numbers already. -/
  | push (plain : Section)
  /-- The program is written and read again. -/
  | reload (form : Json.Form)
deriving DecidableEq, Repr, Inhabited

def Step.isPush : Step → Bool
  | push _ => true
  | reload _ => false

def perform (p : Program) : Step → Json.Decoded Program
  | .push plain => return p.push plain.kind plain.rows
  | .reload form => ofText (form.text p.write)

/-- What a step makes of a program. A reading begins the numbers again. -/
def performed (p : Program) : Step → Program
  | .push plain => p.push plain.kind plain.rows
  | .reload _ => .restored p.sections

/-- A program that was written is always read again. -/
theorem perform_eq (p : Program) (step : Step) : p.perform step = .ok (p.performed step) := by
  cases step with
  | push plain => rfl
  | reload form =>
    exact Json.decodeText_of_allows (shape.allows_text p.write form) read_varies

theorem sections_performed (p : Program) (step : Step) :
    p.sections <+: (p.performed step).sections := by
  cases step with
  | push plain => exact List.prefix_append _ _
  | reload form => exact List.prefix_rfl

/-! ## Histories -/

abbrev History := List Step

namespace History

/-- The program that a history leaves of a new one. -/
def after (steps : History) : Json.Decoded Program := steps.foldlM perform {}

/-- The same, without the way through a document. -/
def made (steps : History) : Program := steps.foldl performed {}

/-- The sections as they were given to be pushed, in order. -/
def pushed (steps : History) : List Section := steps.filterMap fun
  | .push plain => some plain
  | .reload _ => none

/-- How many rows were pushed. -/
def rowTotal (steps : History) : Nat := ((pushed steps).flatMap (·.rows)).length

/-- The steps since the start or the last reading. -/
def recent (steps : History) : History := steps.rtakeWhile Step.isPush

theorem after_eq (steps : History) : after steps = .ok (made steps) := by
  unfold after made
  generalize ({} : Program) = p
  induction steps generalizing p with
  | nil => rfl
  | cons step steps ih =>
    rw [List.foldlM_cons, perform_eq, List.foldl_cons]
    exact ih (p.performed step)

theorem made_concat (steps : History) (step : Step) :
    made (steps ++ [step]) = (made steps).performed step := List.foldl_append ..

theorem pushed_append (earlier later : History) :
    pushed (earlier ++ later) = pushed earlier ++ pushed later := List.filterMap_append ..

theorem rowTotal_append (earlier later : History) :
    rowTotal (earlier ++ later) = rowTotal earlier + rowTotal later := by
  rw [rowTotal, pushed_append, List.flatMap_append, List.length_append]
  rfl

theorem rowTotal_push (plain : Section) : rowTotal [.push plain] = plain.rows.length := by
  simp [rowTotal, pushed]

theorem rowTotal_recent_le (steps : History) : rowTotal (recent steps) ≤ rowTotal steps := by
  obtain ⟨earlier, split⟩ : ∃ earlier, earlier ++ recent steps = steps :=
    List.rtakeWhile_suffix Step.isPush steps
  have counts := rowTotal_append earlier (recent steps)
  rw [split] at counts
  omega

theorem recent_push (steps : History) (plain : Section) :
    recent (steps ++ [.push plain]) = recent steps ++ [.push plain] :=
  List.rtakeWhile_concat_pos _ _ _ rfl

theorem recent_reload (steps : History) (form : Json.Form) :
    recent (steps ++ [.reload form]) = [] :=
  List.rtakeWhile_concat_neg _ _ _ Bool.false_ne_true

/-- The counter stands for the recent rows. -/
theorem nextId_made (steps : History) :
    (made steps).nextId = UInt32.ofNat (rowTotal (recent steps)) := by
  induction steps using List.reverseRecOn with
  | nil => rfl
  | append_singleton steps step ih =>
    rw [made_concat]
    cases step with
    | push plain =>
      rw [recent_push, rowTotal_append, rowTotal_push, UInt32.ofNat_add, ← ih]
      rfl
    | reload form =>
      rw [recent_reload]
      rfl

/-! ## What a history leaves -/

/-- A history changes nothing that an earlier one has left. -/
theorem sections_made_prefix (before later : History) :
    (made before).sections <+: (made (before ++ later)).sections := by
  induction later using List.reverseRecOn with
  | nil => simp
  | append_singleton later step ih =>
    rw [← List.append_assoc, made_concat]
    exact ih.trans (sections_performed _ step)

/-- The sections are those that were pushed, but for the numbers of their rows. -/
theorem sections_made (steps : History) :
    (made steps).sections.map Section.unnumbered = (pushed steps).map Section.unnumbered := by
  induction steps using List.reverseRecOn with
  | nil => rfl
  | append_singleton steps step ih =>
    rw [made_concat, pushed_append, List.map_append, ← ih]
    cases step with
    | push plain =>
      simp [performed, Program.push, pushed, Section.unnumbered, unnumbered_numberedFrom]
    | reload form => exact (List.append_nil _).symm

theorem length_sections_made (steps : History) :
    (made steps).sections.length = (pushed steps).length := by
  simpa using congrArg List.length (sections_made steps)

theorem kinds_made (steps : History) :
    (made steps).sections.map (·.kind) = (pushed steps).map (·.kind) := by
  simpa [Function.comp_def, Section.unnumbered] using
    congrArg (List.map Section.kind) (sections_made steps)

theorem rowCount_made (steps : History) : (made steps).rowCount = rowTotal steps := by
  have rows := congrArg (fun ts => (ts.flatMap (·.rows)).length) (sections_made steps)
  rw [rowCount_eq]
  simpa [Program.rows, rowTotal, List.flatMap_map, List.length_flatMap, Section.unnumbered] using rows

/-- A pushed section stays in its place among those pushed before and after it. -/
theorem exists_sections_made (before later : History) (plain : Section) :
    ∃ others, (made (before ++ .push plain :: later)).sections = (made before).sections ++
      ⟨plain.kind, numberedFrom (UInt32.ofNat (rowTotal (recent before))) plain.rows⟩ :: others := by
  obtain ⟨others, split⟩ := sections_made_prefix (before ++ [.push plain]) later
  refine ⟨others, ?_⟩
  rw [List.append_cons, ← split, made_concat, ← nextId_made, List.append_cons]
  rfl

theorem getElem?_sections_made (before later : History) (plain : Section) :
    (made (before ++ .push plain :: later)).sections[(pushed before).length]? =
      some ⟨plain.kind, numberedFrom (UInt32.ofNat (rowTotal (recent before))) plain.rows⟩ := by
  obtain ⟨others, split⟩ := exists_sections_made before later plain
  rw [split, ← length_sections_made, List.getElem?_append_right (Nat.le_refl _), Nat.sub_self]
  rfl

theorem section?_made_eq_none {steps : History} {kind : EntityKind}
    (absent : ∀ t ∈ pushed steps, t.kind ≠ kind) : (made steps).section? kind = none := by
  have kinds : ∀ k ∈ (made steps).sections.map (·.kind), k ≠ kind := by
    rw [kinds_made]
    exact List.forall_mem_map.mpr absent
  refine List.find?_eq_none.mpr fun t mem => ?_
  simpa using kinds t.kind (List.mem_map_of_mem mem)

/-- Where no section of a kind was pushed before, the next one stands for the kind. -/
theorem section?_made {before : History} {plain : Section} (later : History)
    (fresh : ∀ t ∈ pushed before, t.kind ≠ plain.kind) :
    (made (before ++ .push plain :: later)).section? plain.kind =
      (made (before ++ .push plain :: later)).sections[(pushed before).length]? := by
  obtain ⟨others, split⟩ := exists_sections_made before later plain
  have none : (made before).section? plain.kind = none := section?_made_eq_none fresh
  rw [getElem?_sections_made, section?, split, List.find?_append]
  rw [section?] at none
  rw [none, Option.none_or, List.find?_cons_of_pos (by simp)]

/-- The rows of a history are those up to the last reading, and the recent ones, numbered from 0. -/
theorem ids_made (steps : History) (few : rowTotal (recent steps) ≤ UInt32.size) :
    (made steps).rows.map (·.id.toNat) =
      (made (steps.rdropWhile Step.isPush)).rows.map (·.id.toNat) ++
        List.range (rowTotal (recent steps)) := by
  induction steps using List.reverseRecOn with
  | nil => rfl
  | append_singleton steps step ih =>
    cases step with
    | push plain =>
      rw [recent_push, rowTotal_append, rowTotal_push] at few ⊢
      have earlier := ih (by omega)
      have joined : List.range (rowTotal (recent steps)) ++
          List.range' (rowTotal (recent steps)) plain.rows.length =
            List.range (rowTotal (recent steps) + plain.rows.length) := by
        simpa [List.range_eq_range'] using
          List.range'_append_1 (s := 0) (m := rowTotal (recent steps)) (n := plain.rows.length)
      rw [made_concat, List.rdropWhile_concat_pos _ _ _ rfl, performed, rows_push, List.map_append,
        earlier, nextId_made, ids_numberedFrom few, List.append_assoc, joined]
    | reload form =>
      rw [recent_reload, List.rdropWhile_concat_neg _ _ _ Bool.false_ne_true]
      exact (List.append_nil _).symm

/-- What a program shows of its history. -/
structure Recounts (steps : History) (p : Program) : Prop where
  /-- The sections are those that were pushed, in this order, but for the numbers of their rows. -/
  sections : p.sections.map Section.unnumbered = (pushed steps).map Section.unnumbered
  /-- Rows are numbered on from those pushed since the start or the last reading. -/
  numbered : ∀ before plain later, steps = before ++ .push plain :: later →
    ∃ t, p.sections[(pushed before).length]? = some t ∧
      t.rows.map (·.id.toNat) = List.range' (rowTotal (recent before)) plain.rows.length
  /-- What was there at any time is still there, with its numbers, and in front of all else. -/
  kept : ∀ before later, steps = before ++ later →
    ∃ q, after before = .ok q ∧ q.sections <+: p.sections
  count : p.rowCount = rowTotal steps
  /-- The first section that was pushed of a kind stands for it. -/
  first : ∀ before plain later, steps = before ++ .push plain :: later →
    (∀ t ∈ pushed before, t.kind ≠ plain.kind) →
      p.section? plain.kind = p.sections[(pushed before).length]?
  missing : ∀ kind, (∀ t ∈ pushed steps, t.kind ≠ kind) → p.section? kind = none
  /-- Without a reading, rows are numbered from 0 as they stand in the stream. -/
  stream : (∀ step ∈ steps, step.isPush = true) →
    p.rows.map (·.id.toNat) = List.range (rowTotal steps)

end History

open History in
/-- Every history of fewer than 2³² rows leaves a program, which shows all that was pushed, in order
and numbered from 0 again after each reading. -/
theorem history_numbered (steps : History) (few : rowTotal steps < UInt32.size) :
    ∃ p, after steps = .ok p ∧ Recounts steps p := by
  refine ⟨made steps, after_eq steps, ?_⟩
  constructor
  case sections => exact sections_made steps
  case numbered =>
    rintro before plain later rfl
    refine ⟨_, getElem?_sections_made before later plain, ids_numberedFrom ?_⟩
    -- the recent rows and the rows of the section are among all rows of the history
    have counts := rowTotal_append before (.push plain :: later)
    have parts := rowTotal_append [.push plain] later
    have recent := rowTotal_recent_le before
    rw [rowTotal_push, List.singleton_append] at parts
    omega
  case kept =>
    rintro before later rfl
    exact ⟨made before, after_eq before, sections_made_prefix before later⟩
  case count => exact rowCount_made steps
  case first =>
    rintro before plain later rfl
    exact section?_made later
  case missing => exact fun kind => section?_made_eq_none
  case stream =>
    intro pushes
    have all : recent steps = steps := List.rtakeWhile_eq_self_iff.mpr pushes
    have ids := ids_made steps (by rw [all]; omega)
    rwa [all, List.rdropWhile_eq_nil_iff.mpr pushes] at ids

/-- Sections of rows that have numbers already, and an empty one that is the first of its kind. -/
private def History.renumbering : History :=
  [.push ⟨.operation, [⟨77, .ld, ["M0"], none⟩, ⟨77, .out, ["M1"], none⟩]⟩,
   .push ⟨.cylinder, []⟩,
   .push ⟨.cylinder, [⟨5, .comment, [], some "a,\"b\""⟩]⟩]

/-- Two readings one after the other, and a push after each of them. -/
private def History.rereading : History := renumbering ++
  [.reload .compact, .push ⟨.cylinder, [⟨0, .anb, [], none⟩]⟩, .reload .pretty, .reload .pretty,
   .push ⟨.detail, [⟨9, .ld, ["M2"], none⟩, ⟨9, .out, ["M3"], none⟩]⟩]

open History in
theorem history_numbered_reread :
    (rowTotal renumbering < UInt32.size ∧ ∃ p, after renumbering = .ok p ∧
      p.rows.map (·.id.toNat) = [0, 1, 2]) ∧
    rowTotal rereading < UInt32.size ∧ ∃ p, after rereading = .ok p ∧ Recounts rereading p ∧
      p.rows.map (·.id.toNat) = [0, 1, 2, 0, 0, 1] ∧ p.rowCount = 6 ∧
      p.section? .cylinder = some ⟨.cylinder, []⟩ ∧ p.section? .process = none := by
  obtain ⟨p, ran, pushed⟩ := history_numbered renumbering (by decide)
  obtain ⟨q, reread, recounts⟩ := history_numbered rereading (by decide)
  have left : q = made rereading := Except.ok.inj (reread.symm.trans (after_eq rereading))
  refine ⟨⟨by decide, p, ran, pushed.stream (by decide)⟩, by decide, q, reread, recounts, ?_,
    recounts.count, ?_, recounts.missing .process (by decide)⟩
  · rw [left]
    decide
  · rw [recounts.first [_] ⟨.cylinder, []⟩ _ rfl (by decide), left]
    decide

end Program

end Rungs
