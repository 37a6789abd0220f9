import Rungs.Row
import Rungs.EntityKind

/-! A program: sections of rows in the order in which they were pushed. Every row pushed gets the
next number, across sections. The counter is not part of what a document keeps of a program, so
numbering begins again at 0 after reading one (`Program.restored`). -/

namespace Rungs

structure Section where
  kind : EntityKind
  rows : List Row
deriving DecidableEq, Repr, Inhabited

structure Program where
  sections : List Section := []
  nextId : UInt32 := 0
deriving DecidableEq, Repr, Inhabited

/-- Numbers rows one after another, whatever numbers they had. -/
def numberedFrom : UInt32 → List Row → List Row
  | _, [] => []
  | n, r :: rs => { r with id := n } :: numberedFrom (n + 1) rs

theorem length_numberedFrom (n : UInt32) (rows : List Row) :
    (numberedFrom n rows).length = rows.length := by
  induction rows generalizing n with
  | nil => rfl
  | cons r rs ih => simp [numberedFrom, ih]

theorem map_id_numberedFrom (n : UInt32) (rows : List Row) :
    (numberedFrom n rows).map (·.id) =
      (List.range rows.length).map fun i => n + UInt32.ofNat i := by
  induction rows generalizing n with
  | nil => rfl
  | cons r rs ih =>
    simp only [numberedFrom, List.map_cons, ih, List.length_cons, List.range_succ_eq_map,
      List.map_map]
    refine List.cons_eq_cons.mpr ⟨by simp, List.map_congr_left fun i _ => ?_⟩
    simp [UInt32.ofNat_add, UInt32.add_assoc, UInt32.add_comm 1]

namespace Program

def push (p : Program) (kind : EntityKind) (rows : List Row) : Program :=
  { sections := p.sections ++ [⟨kind, numberedFrom p.nextId rows⟩]
    nextId := p.nextId + UInt32.ofNat rows.length }

/-- The first section of a kind. -/
def section? (p : Program) (kind : EntityKind) : Option Section :=
  p.sections.find? (·.kind == kind)

/-- All rows in stream order. -/
def rows (p : Program) : List Row := p.sections.flatMap (·.rows)

def rowCount (p : Program) : Nat := p.sections.foldr (fun t n => t.rows.length + n) 0

/-- A program that consists of given sections, as a document holds it. -/
def restored (sections : List Section) : Program := { sections }

theorem rowCount_eq (p : Program) : p.rowCount = p.rows.length := by
  unfold rowCount rows
  induction p.sections with
  | nil => rfl
  | cons t rest ih => simp [ih]

theorem rows_push (p : Program) (kind : EntityKind) (rows : List Row) :
    (p.push kind rows).rows = p.rows ++ numberedFrom p.nextId rows := by
  simp [push, Program.rows]

end Program

end Rungs
