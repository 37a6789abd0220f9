import Rungs.Generation

/-! How a generated program is put together: every entity contributes the rungs of one emission of
its own, sections follow one another, and the rows are numbered as they stand in the stream. -/

namespace Rungs

variable {σ α : Type}

/-! ## Numbering -/

theorem numberedFrom_append (n : UInt32) (a b : List Row) :
    numberedFrom n (a ++ b) = numberedFrom n a ++ numberedFrom (n + UInt32.ofNat a.length) b := by
  induction a generalizing n with
  | nil => simp [numberedFrom]
  | cons r rs ih =>
    have next : n + UInt32.ofNat (rs.length + 1) = n + 1 + UInt32.ofNat rs.length := by
      rw [UInt32.ofNat_add, UInt32.add_comm (UInt32.ofNat rs.length), UInt32.add_assoc]
      rfl
    simp only [List.cons_append, numberedFrom, ih, List.length_cons, next]

/-- Numbering changes nothing but the numbers. -/
theorem mem_numberedFrom {n : UInt32} {rows : List Row} {row : Row}
    (h : row ∈ numberedFrom n rows) : ∃ plain ∈ rows, row = { plain with id := row.id } := by
  induction rows generalizing n with
  | nil => cases h
  | cons r rs ih =>
    rcases List.mem_cons.mp h with rfl | mem
    · exact ⟨r, List.mem_cons_self, rfl⟩
    · obtain ⟨plain, inside, eq⟩ := ih mem
      exact ⟨plain, List.mem_cons_of_mem r inside, eq⟩

/-! ## Diagnostics -/

/-- Nothing critical on record means that the emission has come to its end. -/
theorem Outcome.ok_of_not_critical {x : Outcome σ Unit} {owner : Owner}
    (h : hasCritical (x.diagnostics owner) = false) : x.result = .ok () := by
  unfold diagnostics at h
  cases e : x.result with
  | ok a => rfl
  | error f =>
    rw [e, hasCritical, List.any_append, Bool.or_eq_false_iff] at h
    cases h.2

theorem not_critical_of_flatMap {f : α → List Diagnostic} {l : List α}
    (h : hasCritical (l.flatMap f) = false) {x : α} (mem : x ∈ l) : hasCritical (f x) = false := by
  rw [hasCritical, List.any_flatMap, List.any_eq_false] at h
  exact Bool.eq_false_iff.mpr (h x mem)

/-! ## Entities one after another -/

section Each

variable {owner : α → Owner} {build : α → Emission σ Unit} {I : σ → Prop}

/-- The entities in order, each with the memory that its emission starts from. -/
def turns (build : α → Emission σ Unit) : List α → σ → List (α × σ)
  | [], _ => []
  | x :: xs, m => (x, m) :: turns build xs ((build x).run m).memory

theorem map_fst_turns (build : α → Emission σ Unit) (xs : List α) (m : σ) :
    (turns build xs m).map Prod.fst = xs := by
  induction xs generalizing m with
  | nil => rfl
  | cons x xs ih => rw [turns, List.map_cons, ih]

theorem mem_of_turn {xs : List α} {m : σ} {t : α × σ} (h : t ∈ turns build xs m) : t.1 ∈ xs := by
  rw [← map_fst_turns build xs m]
  exact List.mem_map_of_mem h

theorem exists_turn (build : α → Emission σ Unit) {xs : List α} {x : α} (h : x ∈ xs) (m : σ) :
    ∃ m', (x, m') ∈ turns build xs m := by
  rw [← map_fst_turns build xs m] at h
  obtain ⟨⟨y, m'⟩, mem, rfl⟩ := List.mem_map.mp h
  exact ⟨m', mem⟩

/-- What every entity keeps of the memory holds at the start of each turn. -/
theorem memory_of_turn (keeps : ∀ x m, I m → I ((build x).run m).memory) {xs : List α} {m : σ}
    (hm : I m) : ∀ t ∈ turns build xs m, I t.2 := by
  induction xs generalizing m with
  | nil => simp [turns]
  | cons x xs ih => exact List.forall_mem_cons.mpr ⟨hm, ih (keeps x m hm)⟩

/-- What entities in a row yield is what they contribute in their turns. -/
theorem synthesizeEach_turns (xs : List α) (m : σ) :
    (synthesizeEach owner build xs m).1.rungs =
        (turns build xs m).flatMap (fun t => ((build t.1).run t.2).rungs) ∧
      (synthesizeEach owner build xs m).1.diagnostics =
        (turns build xs m).flatMap fun t => ((build t.1).run t.2).diagnostics (owner t.1) := by
  induction xs generalizing m with
  | nil => exact ⟨rfl, rfl⟩
  | cons x xs ih =>
    obtain ⟨rungs, diagnostics⟩ := ih ((build x).run m).memory
    constructor
    · rw [turns, List.flatMap_cons, ← rungs]
      rfl
    · rw [turns, List.flatMap_cons, ← diagnostics]
      rfl

/-- What every entity keeps of the memory is kept by all of them in a row. -/
theorem memory_synthesizeEach (keeps : ∀ x m, I m → I ((build x).run m).memory) {xs : List α}
    {m : σ} (hm : I m) : I (synthesizeEach owner build xs m).2 := by
  induction xs generalizing m with
  | nil => exact hm
  | cons x xs ih => exact ih (keeps x m hm)

theorem mem_rungs_synthesizeEach (keeps : ∀ x m, I m → I ((build x).run m).memory) {xs : List α}
    {m : σ} (hm : I m) {r : Rung} (h : r ∈ (synthesizeEach owner build xs m).1.rungs) :
    ∃ x ∈ xs, ∃ m', I m' ∧ r ∈ ((build x).run m').rungs := by
  rw [(synthesizeEach_turns xs m).1] at h
  obtain ⟨t, turn, mem⟩ := List.mem_flatMap.mp h
  exact ⟨t.1, mem_of_turn turn, t.2, memory_of_turn keeps hm t turn, mem⟩

/-- Without a critical diagnostic every entity's emission has come to its end. -/
theorem completes_of_synthesizeEach {xs : List α} {m : σ}
    (h : hasCritical (synthesizeEach owner build xs m).1.diagnostics = false) :
    ∀ x ∈ xs, ∃ m', ((build x).run m').result = .ok () := by
  intro x mem
  obtain ⟨m', turn⟩ := exists_turn build mem m
  rw [(synthesizeEach_turns xs m).2] at h
  exact ⟨m', Outcome.ok_of_not_critical (not_critical_of_flatMap h turn)⟩

end Each

/-! ## The entities of a snapshot -/

namespace Snapshot

variable (s : Snapshot)

theorem mem_sortedOperations {o : Operation} : o ∈ s.sortedOperations ↔ o ∈ s.operations :=
  (inOrder_perm _ _).mem_iff

theorem mem_sortedCylinders {c : Cylinder} : c ∈ s.sortedCylinders ↔ c ∈ s.cylinders :=
  (inOrder_perm _ _).mem_iff

theorem mem_sortedProcesses {p : Process} : p ∈ s.sortedProcesses ↔ p ∈ s.processes :=
  (inOrder_perm _ _).mem_iff

theorem mem_operationsOf {o : Operation} {id : Int32} :
    o ∈ s.operationsOf id ↔ o ∈ s.operations ∧ o.cylinderId = id := by
  rw [operationsOf, (inOrder_perm _ _).mem_iff, List.mem_filter, beq_iff_eq]

theorem mem_detailsOfOperation {d : Detail} {id : Int32} :
    d ∈ s.detailsOfOperation id ↔ d ∈ s.details ∧ d.operationId = some id := by
  rw [detailsOfOperation, (inOrder_perm _ _).mem_iff, List.mem_filter, beq_iff_eq]

theorem mem_detailsOfProcess {d : Detail} {id : Int32} :
    d ∈ s.detailsOfProcess id ↔ d ∈ s.details ∧ d.processId = id := by
  rw [detailsOfProcess, (inOrder_perm _ _).mem_iff, List.mem_filter, beq_iff_eq]

theorem mem_orphanDetails {d : Detail} :
    d ∈ s.orphanDetails ↔ d ∈ s.details ∧ s.hasProcess d.processId = false := by
  rw [orphanDetails, (inOrder_perm _ _).mem_iff, List.mem_filter, Bool.not_eq_true']

theorem hasProcess_iff {id : Int32} : s.hasProcess id = true ↔ ∃ p ∈ s.processes, p.id = id := by
  simp [hasProcess]

/-- A detail is generated with its process, or after all processes if it has none. -/
theorem mem_sortedDetails {d : Detail} : d ∈ s.sortedDetails ↔ d ∈ s.details := by
  rw [sortedDetails, List.mem_append, List.mem_flatMap, mem_orphanDetails]
  constructor
  · rintro (⟨p, _, mem⟩ | ⟨mem, _⟩)
    · exact (s.mem_detailsOfProcess.mp mem).1
    · exact mem
  · intro mem
    cases known : s.hasProcess d.processId with
    | false => exact .inr ⟨mem, rfl⟩
    | true =>
      obtain ⟨p, inside, eq⟩ := s.hasProcess_iff.mp known
      exact .inl ⟨p, s.mem_sortedProcesses.mpr inside, s.mem_detailsOfProcess.mpr ⟨mem, eq.symm⟩⟩

theorem mem_of_operation? {id : Int32} {o : Operation} (h : s.operation? id = some o) :
    o ∈ s.operations ∧ o.id = id := by
  refine ⟨List.mem_reverse.mp (List.mem_of_find?_eq_some h), ?_⟩
  simpa using List.find?_some h

theorem mem_of_detail? {id : Int32} {d : Detail} (h : s.detail? id = some d) :
    d ∈ s.details ∧ d.id = id := by
  refine ⟨List.mem_reverse.mp (List.mem_of_find?_eq_some h), ?_⟩
  simpa using List.find?_some h

end Snapshot

/-! ## Sections -/

private theorem ofSections_push (parts : List (EntityKind × Synthesis)) (p : Program) :
    let q := parts.foldl (fun p part => p.push part.1 part.2.rows) p
    q.rows = p.rows ++ numberedFrom p.nextId (parts.flatMap fun part => part.2.rows) ∧
      ∀ t ∈ q.sections, t ∈ p.sections ∨
        ∃ part ∈ parts, ∃ n, t = ⟨part.1, numberedFrom n part.2.rows⟩ := by
  induction parts generalizing p with
  | nil => simp [numberedFrom]
  | cons part parts ih =>
    obtain ⟨rows, sections⟩ := ih (p.push part.1 part.2.rows)
    constructor
    · simp only [List.foldl_cons, List.flatMap_cons]
      rw [rows, Program.rows_push, numberedFrom_append, List.append_assoc]
      rfl
    · intro t mem
      rcases sections t mem with old | ⟨other, inside, n, eq⟩
      · rcases List.mem_append.mp old with old | new
        · exact .inl old
        · exact .inr ⟨part, List.mem_cons_self, p.nextId, List.mem_singleton.mp new⟩
      · exact .inr ⟨other, List.mem_cons_of_mem part inside, n, eq⟩

namespace Output

/-- The rows of all parts in order, numbered from 0. -/
theorem rows_ofSections (parts : List (EntityKind × Synthesis)) :
    (ofSections parts).program.rows =
      numberedFrom 0 (parts.flatMap fun part => part.2.rows) := by
  have := (ofSections_push parts {}).1
  simpa [ofSections, Program.rows] using this

theorem mem_sections_ofSections {parts : List (EntityKind × Synthesis)} {t : Section}
    (h : t ∈ (ofSections parts).program.sections) :
    ∃ part ∈ parts, ∃ n, t = ⟨part.1, numberedFrom n part.2.rows⟩ := by
  rcases (ofSections_push parts {}).2 t h with none | found
  · cases none
  · exact found

end Output

namespace Service

variable (v : Service σ) (s : Snapshot) (m : σ)

/-- What is generated for the four kinds of entities, in the order of the sections. -/
def parts : List (EntityKind × Synthesis) :=
  let c := v.context s
  let operations := c.operations m
  let cylinders := c.cylinders operations.2
  let processes := c.processes cylinders.2
  let details := c.details processes.2
  [(.operation, operations.1), (.cylinder, cylinders.1), (.process, processes.1),
    (.detail, details.1)]

theorem generate_eq : (v.generate s m).1 = Output.ofSections (v.parts s m) := rfl

/-- No entity leads from a memory of which `I` holds to one of which it does not. -/
structure Preserves (c : Context σ) (I : σ → Prop) : Prop where
  operation : ∀ o m, I m → I ((c.operation o).run m).memory
  cylinder : ∀ cy m, I m → I ((c.cylinder cy).run m).memory
  process : ∀ p m, I m → I ((c.process p).run m).memory
  detail : ∀ d m, I m → I ((c.detail d).run m).memory

/-- The rung comes from the emission of one entity of the snapshot. -/
inductive Origin (c : Context σ) (I : σ → Prop) (r : Rung) : Prop
  | operation (o : Operation) (m : σ) (hm : I m) (mem : o ∈ c.snapshot.operations)
      (h : r ∈ ((c.operation o).run m).rungs)
  | cylinder (cy : Cylinder) (m : σ) (hm : I m) (mem : cy ∈ c.snapshot.cylinders)
      (h : r ∈ ((c.cylinder cy).run m).rungs)
  | process (p : Process) (m : σ) (hm : I m) (mem : p ∈ c.snapshot.processes)
      (h : r ∈ ((c.process p).run m).rungs)
  | detail (d : Detail) (m : σ) (hm : I m) (mem : d ∈ c.snapshot.details)
      (h : r ∈ ((c.detail d).run m).rungs)

section Origin

variable {v s m} {I : σ → Prop} (keeps : Preserves (v.context s) I) (hm : I m)

include keeps hm

theorem origin_of_mem_parts {part : EntityKind × Synthesis} (h : part ∈ v.parts s m) {r : Rung}
    (mem : r ∈ part.2.rungs) : Origin (v.context s) I r := by
  have operations : I ((v.context s).operations m).2 := memory_synthesizeEach keeps.operation hm
  have cylinders : I ((v.context s).cylinders ((v.context s).operations m).2).2 :=
    memory_synthesizeEach keeps.cylinder operations
  have processes : I ((v.context s).processes
      ((v.context s).cylinders ((v.context s).operations m).2).2).2 :=
    memory_synthesizeEach keeps.process cylinders
  simp only [parts, List.mem_cons, List.not_mem_nil, or_false] at h
  rcases h with rfl | rfl | rfl | rfl
  · obtain ⟨o, inside, m', hm', found⟩ := mem_rungs_synthesizeEach keeps.operation hm mem
    exact .operation o m' hm' (s.mem_sortedOperations.mp inside) found
  · obtain ⟨cy, inside, m', hm', found⟩ := mem_rungs_synthesizeEach keeps.cylinder operations mem
    exact .cylinder cy m' hm' (s.mem_sortedCylinders.mp inside) found
  · obtain ⟨p, inside, m', hm', found⟩ := mem_rungs_synthesizeEach keeps.process cylinders mem
    exact .process p m' hm' (s.mem_sortedProcesses.mp inside) found
  · obtain ⟨d, inside, m', hm', found⟩ := mem_rungs_synthesizeEach keeps.detail processes mem
    exact .detail d m' hm' (s.mem_sortedDetails.mp inside) found

/-- A row of the program is a row of some rung in all but its number. -/
theorem origin_of_mem_rows {row : Row} (h : row ∈ (v.generate s m).1.program.rows) :
    ∃ r, Origin (v.context s) I r ∧ ∃ plain ∈ r.rows, plain.operands = row.operands ∧
      plain.command = row.command := by
  rw [generate_eq, Output.rows_ofSections] at h
  obtain ⟨plain, inside, eq⟩ := mem_numberedFrom h
  obtain ⟨part, mem, inside⟩ := List.mem_flatMap.mp inside
  obtain ⟨r, found, inside⟩ := List.mem_flatMap.mp inside
  refine ⟨r, origin_of_mem_parts keeps hm mem found, plain, inside, ?_⟩
  rw [eq]
  exact ⟨rfl, rfl⟩

end Origin

/-- A program without a critical diagnostic leaves no entity's emission unfinished. -/
structure Complete (c : Context σ) : Prop where
  operation : ∀ o ∈ c.snapshot.operations, ∃ m, ((c.operation o).run m).result = .ok ()
  cylinder : ∀ cy ∈ c.snapshot.cylinders, ∃ m, ((c.cylinder cy).run m).result = .ok ()
  process : ∀ p ∈ c.snapshot.processes, ∃ m, ((c.process p).run m).result = .ok ()
  detail : ∀ d ∈ c.snapshot.details, ∃ m, ((c.detail d).run m).result = .ok ()

theorem complete_of_not_critical (h : hasCritical (v.generate s m).1.diagnostics = false) :
    Complete (v.context s) := by
  have split : (v.generate s m).1.diagnostics =
      (v.parts s m).flatMap fun part => part.2.diagnostics := rfl
  rw [split, parts] at h
  simp only [List.flatMap_cons, List.flatMap_nil, hasCritical, List.any_append,
    Bool.or_eq_false_iff] at h
  obtain ⟨operations, cylinders, processes, details, _⟩ := h
  exact {
    operation := fun o mem =>
      completes_of_synthesizeEach operations o (s.mem_sortedOperations.mpr mem)
    cylinder := fun cy mem =>
      completes_of_synthesizeEach cylinders cy (s.mem_sortedCylinders.mpr mem)
    process := fun p mem =>
      completes_of_synthesizeEach processes p (s.mem_sortedProcesses.mpr mem)
    detail := fun d mem =>
      completes_of_synthesizeEach details d (s.mem_sortedDetails.mpr mem) }

end Service

end Rungs
