import Rungs.Proofs.Independence

/-! A program as the composition of its entities. Entities come in a stable order, each as often as
it is listed (`Snapshot.ordered`), and none has a part in what another yields: a program consists of
what its entities yield each by itself, one after the other (`Service.generate_composes`). -/

namespace Rungs

/-! ## Orders -/

/-- All records that are listed, by ascending key, and as they are listed where keys are equal. -/
structure Arranged {α : Type} (key : α → Int32 × Int32) (listed arranged : List α) : Prop where
  perm : arranged.Perm listed
  ascending : arranged.Pairwise fun a b => precedes (key a) (key b) = true
  stable (k : Int32 × Int32) : arranged.filter (key · == k) = listed.filter (key · == k)

theorem arranged_inOrder {α : Type} (key : α → Int32 × Int32) (xs : List α) :
    Arranged key xs (inOrder key xs) where
  perm := inOrder_perm key xs
  ascending := inOrder_pairwise key xs
  stable k := by
    have level : (xs.filter (key · == k)).Pairwise fun a b => precedes (key a) (key b) = true := by
      refine List.pairwise_of_forall_mem_list fun a ha b hb => ?_
      have here : key a = k := by simpa using (List.mem_filter.mp ha).2
      have there : key b = k := by simpa using (List.mem_filter.mp hb).2
      rw [here, there]
      exact precedes_iff.mpr (.inr ⟨rfl, Int.le_refl _⟩)
    -- records of one key are in order as they stand, so sorting keeps them as a sublist
    have kept : (xs.filter (key · == k)).Sublist (inOrder key xs) :=
      List.sublist_mergeSort (fun a b c => precedes_trans (key a) (key b) (key c))
        (fun a b => precedes_total (key a) (key b)) level List.filter_sublist
    have within := kept.filter (key · == k)
    rw [List.filter_filter] at within
    simp only [Bool.and_self] at within
    exact (within.eq_of_length ((inOrder_perm key xs).filter _).length_eq.symm).symm

namespace Snapshot

/-- The details whose process the snapshot lacks, as they are listed. -/
def strays (s : Snapshot) : List Detail :=
  s.details.filter fun d => decide (∀ p ∈ s.processes, p.id ≠ d.processId)

/-- The order in which a snapshot's entities are generated. Details come with their process, in the
order of the processes, and those without one at the end. -/
structure Ordered (s : Snapshot) : Prop where
  operations : Arranged Operation.sortKey s.operations s.sortedOperations
  cylinders : Arranged Cylinder.sortKey s.cylinders s.sortedCylinders
  processes : Arranged Process.sortKey s.processes s.sortedProcesses
  details : ∃ (group : Int32 → List Detail) (others : List Detail),
    s.sortedDetails = s.sortedProcesses.flatMap (fun p => group p.id) ++ others ∧
      (∀ id, Arranged Detail.sortKey (s.details.filter (·.processId == id)) (group id)) ∧
        Arranged Detail.sortKey s.strays others
  once : s.sortedDetails.Perm s.details

theorem ordered (s : Snapshot) (processes : (s.processes.map (·.id)).Nodup) : s.Ordered where
  operations := arranged_inOrder _ _
  cylinders := arranged_inOrder _ _
  processes := arranged_inOrder _ _
  details := by
    refine ⟨s.detailsOfProcess, s.orphanDetails, rfl, fun id => arranged_inOrder _ _, ?_⟩
    have orphans : s.strays = s.details.filter fun d => !s.hasProcess d.processId := by
      refine List.filter_congr fun d _ => ?_
      rw [Bool.eq_iff_iff, decide_eq_true_iff, Bool.not_eq_true', ← Bool.not_eq_true,
        hasProcess_iff]
      simp only [not_exists, not_and]
    rw [orphans]
    exact arranged_inOrder _ _
  once := sortedDetails_perm processes

end Snapshot

/-! ## Sections -/

/-- A row without its number. -/
def Row.unnumbered (r : Row) : Row := { r with id := 0 }

theorem unnumbered_numberedFrom (n : UInt32) (rows : List Row) :
    (numberedFrom n rows).map Row.unnumbered = rows.map Row.unnumbered := by
  induction rows generalizing n with
  | nil => rfl
  | cons r rs ih =>
    rw [numberedFrom, List.map_cons, List.map_cons, ih]
    rfl

/-- A section without the numbers of its rows. -/
def Section.unnumbered (t : Section) : Section := { t with rows := t.rows.map Row.unnumbered }

theorem sections_foldl_push (parts : List (EntityKind × Synthesis)) (p : Program) :
    (parts.foldl (fun p part => p.push part.1 part.2.rows) p).sections.map Section.unnumbered =
      p.sections.map Section.unnumbered ++
        parts.map fun part => (⟨part.1, part.2.rows⟩ : Section).unnumbered := by
  induction parts generalizing p with
  | nil => simp
  | cons part parts ih =>
    have pushed : (p.push part.1 part.2.rows).sections.map Section.unnumbered =
        p.sections.map Section.unnumbered ++ [(⟨part.1, part.2.rows⟩ : Section).unnumbered] := by
      simp [Program.push, Section.unnumbered, unnumbered_numberedFrom]
    rw [List.foldl_cons, ih, pushed, List.append_assoc]
    rfl

/-- There is one section for each part, with the rows of the part. -/
theorem Output.sections_ofSections (parts : List (EntityKind × Synthesis)) :
    (ofSections parts).program.sections.map Section.unnumbered =
      parts.map fun part => (⟨part.1, part.2.rows⟩ : Section).unnumbered := by
  have := sections_foldl_push parts {}
  simpa [ofSections] using this

/-- Rows are numbered from 0 as they stand in the stream. -/
theorem Output.ids_ofSections (parts : List (EntityKind × Synthesis)) :
    (ofSections parts).program.rows.map (·.id) =
      (List.range (ofSections parts).program.rows.length).map UInt32.ofNat := by
  rw [rows_ofSections, map_id_numberedFrom, length_numberedFrom]
  simp

/-! ## Programs -/

namespace Service

variable {σ : Type} (v : Service σ) (s : Snapshot) (fresh : σ)

/-- What an entity yields by itself, from a given memory. -/
def alone (e : Entity) : Synthesis := v.contribution s (e, fresh)

/-- The section of entities that are generated each by itself. -/
def sectionOf (kind : EntityKind) (es : List Entity) : Section where
  kind
  rows := es.flatMap fun e => (v.alone s fresh e).rows

/-- The output is put together from what the entities of a snapshot yield each by itself. -/
structure Composes (output : Output) : Prop where
  sections : output.program.sections.map Section.unnumbered =
    [(v.sectionOf s fresh .operation (s.sortedOperations.map .operation)).unnumbered,
     (v.sectionOf s fresh .cylinder (s.sortedCylinders.map .cylinder)).unnumbered,
     (v.sectionOf s fresh .process (s.sortedProcesses.map .process)).unnumbered,
     (v.sectionOf s fresh .detail (s.sortedDetails.map .detail)).unnumbered]
  diagnostics : output.diagnostics = s.entities.flatMap fun e => (v.alone s fresh e).diagnostics
  ids : output.program.rows.map (·.id) =
    (List.range output.program.rows.length).map UInt32.ofNat

theorem rows_apart (es : List Entity) :
    (v.apart s fresh es).rows = es.flatMap fun e => (v.alone s fresh e).rows :=
  List.flatMap_assoc

theorem composes_partsApart : v.Composes s fresh (Output.ofSections (v.partsApart s fresh)) where
  sections := by
    rw [Output.sections_ofSections, partsApart]
    simp only [List.map_cons, List.map_nil, rows_apart]
    rfl
  diagnostics := by
    simp only [Output.ofSections, partsApart, List.flatMap_cons, List.flatMap_nil, apart,
      Snapshot.entities, List.flatMap_append, List.append_nil]
    rfl
  ids := Output.ids_ofSections _

variable {v s fresh} {I : σ → Prop} {m : σ}

/-- If the answers do not tell memories apart, every turn yields what its entity yields by itself. -/
theorem contributions_apart (alike : v.resolver.Indifferent I) (hf : I fresh) (hm : I m) :
    v.contributions s m = s.entities.map fun e => (e, v.alone s fresh e) := by
  have kept (e : Entity) (m' : σ) (h : I m') : I (((v.context s).entity e).run m').memory :=
    (((v.context s).asks_entity e).agrees alike h hf).1
  have reached : ∀ turn ∈ v.turns s m, I turn.2 := memory_of_turn kept hm
  rw [contributions, ← v.map_fst_turns s m, List.map_map]
  refine List.map_congr_left fun turn mem => ?_
  have same : v.contribution s turn = v.alone s fresh turn.1 :=
    contribution_apart alike hf (reached turn mem) turn.1
  rw [same]
  rfl

/-- If the selector looks at the request and the candidates only, a program is what its entities yield
each by itself on a fresh table, in their order. In its turn every entity yields just that, also if
one before it has stopped. -/
theorem generate_composes (t : IoTable) (stateless : t.selector.Stateless) (settings : Settings)
    (conditionIds : ConditionKind → EntityKind → Int32 → List Int32) (s : Snapshot)
    (processes : (s.processes.map (·.id)).Nodup) (memory : List Choice)
    (reached : t.resolver.Reachable [] memory) :
    let v := ofTable t settings conditionIds
    s.Ordered ∧ v.Composes s [] (v.generate s memory).1 ∧
      v.contributions s memory = s.entities.map fun e => (e, v.alone s [] e) := by
  intro v
  have alike : v.resolver.Indifferent t.Settled := IoTable.indifferent stateless
  have settled : t.Settled memory := IoTable.settled_of_reachable stateless reached
  refine ⟨s.ordered processes, ?_, contributions_apart alike t.settled_nil settled⟩
  rw [generate_eq, (parts_eq_partsApart alike t.settled_nil settled).1]
  exact v.composes_partsApart s []

end Service

/-- An operation without a template. -/
def Operation.unknown : Operation where
  id := 2
  cylinderId := 2
  categoryCode := 99
  sortNumber := -1

/-- `oneStroke` with an operation that stops before all others, and two more details, of which one
has no process. -/
def Snapshot.scattered : Snapshot where
  cylinders := oneStroke.cylinders
  operations := oneStroke.operations ++ [.unknown]
  processes := [{ id := 2, categoryCode := 1 }, { id := 1, categoryCode := 1 }]
  details := { id := 2, processId := 7 } :: { id := 3, processId := 2 } :: oneStroke.details
  allocations := oneStroke.allocations

/-- The table already holds a choice that was made before. -/
theorem generate_composes_scattered :
    let t : IoTable := { points := IoTable.twinPoints, selector := .first }
    let v := Service.ofTable t {} (conditionIds [])
    let memory := (t.resolve ⟨"XS", false, "CY1", 1⟩ []).2
    memory.map (·.address) = [some "X0"] ∧
      (v.alone Snapshot.scattered [] (.operation .unknown)).diagnostics ≠ [] ∧
        Snapshot.scattered.Ordered ∧
          v.Composes Snapshot.scattered [] (v.generate Snapshot.scattered memory).1 := by
  intro t v memory
  have stateless : t.selector.Stateless := fun _ _ _ _ => rfl
  have reached : t.resolver.Reachable [] memory := .resolve _ .start
  obtain ⟨ordered, composes, _⟩ := Service.generate_composes t stateless {} (conditionIds [])
    Snapshot.scattered (by decide) memory reached
  refine ⟨by decide, fun none => ?_, ordered, composes⟩
  cases none

end Rungs
