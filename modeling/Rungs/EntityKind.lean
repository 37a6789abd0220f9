/-! The four kinds of entity that own device allocations, timers, diagnostics and program
sections. -/

namespace Rungs

inductive EntityKind where
  | process | detail | operation | cylinder
deriving DecidableEq, Repr, Inhabited

namespace EntityKind

def all : List EntityKind := [process, detail, operation, cylinder]

/-- The number that stands for a kind in documents. -/
def id : EntityKind → UInt8
  | process => 1 | detail => 2 | operation => 3 | cylinder => 4

/-- The name of a kind in texts, and of the section that its rows go to. -/
def name : EntityKind → String
  | process => "Process" | detail => "ProcessDetail"
  | operation => "Operation" | cylinder => "Cylinder"

def ofId? (n : UInt8) : Option EntityKind := all.find? (·.id == n)

theorem mem_all (k : EntityKind) : k ∈ all := by cases k <;> decide

theorem ofId?_id (k : EntityKind) : ofId? k.id = some k := by cases k <;> decide

theorem name_injective {j k : EntityKind} (h : j.name = k.name) : j = k := by
  have table : ∀ j ∈ all, ∀ k ∈ all, j.name = k.name → j = k := by decide
  exact table j (mem_all j) k (mem_all k) h

end EntityKind

end Rungs
