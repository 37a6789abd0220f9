import Rungs.Discipline
import Rungs.Proofs.Generation

/-! Everything that is generated keeps the discipline: the stream of an entity, also of one whose
generation stopped midway, the stream of a section, and that of the whole program, where the rows of
one entity come right after those of another. -/

namespace Rungs.Discipline

variable {σ : Type}

/-- A reader of groups does not look at the numbers of rows. -/
theorem readAll_numberedFrom (p : Progress) (n : UInt32) (rows : List Row) :
    readAll p (numberedFrom n rows) = readAll p rows := by
  induction rows generalizing p n with
  | nil => rfl
  | cons r rs ih =>
    have same : read p { r with id := n } = read p r := rfl
    simp only [numberedFrom, readAll, List.foldlM_cons, same] at ih ⊢
    cases read p r with
    | none => rfl
    | some q => exact ih q (n + 1)

theorem keeps_numberedFrom {n : UInt32} {rows : List Row} (h : Keeps rows) :
    Keeps (numberedFrom n rows) := by
  obtain ⟨p, all, last⟩ := h
  refine ⟨p, (readAll_numberedFrom _ n rows).trans all, fun nonempty => last ?_⟩
  rintro rfl
  exact nonempty rfl

theorem rows_parts (v : Service σ) (s : Snapshot) (m : σ) :
    ((v.parts s m).flatMap fun part => part.2.rows) =
      streamRows ((v.parts s m).flatMap fun part => part.2.rungs) :=
  (List.flatMap_assoc ..).symm

/-- Whatever the snapshot, the settings, the resolver and the conditions are: the rows of every
entity, of every section and of the whole program are complete rungs, one after the other. An
entity's rows are taken here as its emission leaves them, whether it came to its end or stopped. -/
theorem keeps_generated (c : Context σ) (v : Service σ) (s : Snapshot) (m : σ) :
    ((∀ o, Keeps (((c.operation o).run m).synthesis o.owner).rows) ∧
      (∀ cy, Keeps (((c.cylinder cy).run m).synthesis cy.owner).rows) ∧
      (∀ p, Keeps (((c.process p).run m).synthesis p.owner).rows) ∧
      ∀ d, Keeps (((c.detail d).run m).synthesis d.owner).rows) ∧
    (∀ t ∈ (v.generate s m).1.program.sections, Keeps t.rows) ∧
      Keeps (v.generate s m).1.program.rows := by
  refine ⟨⟨fun o => keeps_streamRows _, fun cy => keeps_streamRows _, fun p => keeps_streamRows _,
    fun d => keeps_streamRows _⟩, ?_, ?_⟩
  · intro t mem
    rw [Service.generate_eq] at mem
    obtain ⟨part, _, n, rfl⟩ := Output.mem_sections_ofSections mem
    exact keeps_numberedFrom (keeps_streamRows part.2.rungs)
  · rw [Service.generate_eq, Output.rows_ofSections, rows_parts]
    exact keeps_numberedFrom (keeps_streamRows _)

end Rungs.Discipline
