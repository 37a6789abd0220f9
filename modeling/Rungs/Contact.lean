import Rungs.Row

/-! Contacts and the rows that combine them. `seriesRows` is a conjunction: one load, then series
contacts. `parallelRows` is a disjunction of conjunctions: the groups of its nonempty branches, each
group after the first joined to what stands before it by one `ORB`. -/

namespace Rungs

/-- A device read as it is, or inverted. -/
structure Contact where
  device : String
  negated : Bool := false
deriving DecidableEq, Repr, Inhabited

namespace Contact

def plain (device : String) : Contact := ⟨device, false⟩

def inverted (device : String) : Contact := ⟨device, true⟩

/-- Begins a group. -/
def load (c : Contact) : Row := .instruction (if c.negated then .ldi else .ld) [c.device]

/-- In series with the group so far. -/
def series (c : Contact) : Row := .instruction (if c.negated then .ani else .and) [c.device]

/-- In parallel to the group so far. -/
def parallel (c : Contact) : Row := .instruction (if c.negated then .ori else .or) [c.device]

end Contact

def seriesRows : List Contact → List Row
  | [] => []
  | c :: cs => c.load :: cs.map Contact.series

def parallelRows (branches : List (List Contact)) : List Row :=
  match branches.filter fun b => !b.isEmpty with
  | [] => []
  | b :: bs => seriesRows b ++ bs.flatMap fun b => seriesRows b ++ [.instruction .orb []]

theorem seriesRows_eq_nil_iff {cs : List Contact} : seriesRows cs = [] ↔ cs = [] := by
  cases cs <;> simp [seriesRows]

theorem parallelRows_eq_nil_iff {branches : List (List Contact)} :
    parallelRows branches = [] ↔ ∀ b ∈ branches, b = [] := by
  unfold parallelRows
  split
  next h => simpa [List.filter_eq_nil_iff] using h
  next b bs h =>
    have mem : b ∈ branches.filter fun b => !b.isEmpty := by simp [h]
    obtain ⟨inside, nonempty⟩ := List.mem_filter.mp mem
    simp only [List.append_eq_nil_iff, seriesRows_eq_nil_iff]
    constructor
    · rintro ⟨rfl, -⟩
      simp at nonempty
    · intro all
      simp [all b inside] at nonempty

end Rungs
