import Rungs.Contact
import Rungs.Device

/-! A rung: the condition it starts from, further contacts and outputs in order, and a last output.
A list of rungs therefore renders to rows in which every group of contacts that is begun is also
used: no rung stops between its load and its output. -/

namespace Rungs

/-- What a rung does with the condition that has been built up. -/
inductive Action where
  | out (device : String)
  | delay (timer preset : UInt32)
  | set (device : String)
  | reset (device : String)
  | pulse (device : String)
  | move (value : Int) (word : String)
  | jump (pointer : String)
deriving DecidableEq, Repr, Inhabited

def Action.row : Action → Row
  | out device => .instruction .out [device]
  | delay timer preset => .instruction .out [Device.timer timer, Device.constant preset.toNat]
  | set device => .instruction .set [device]
  | reset device => .instruction .rst [device]
  | pulse device => .instruction .pls [device]
  | move value word => .instruction .mov [Device.constant value, word]
  | jump pointer => .instruction .cj [pointer]

/-- A conjunction of at least one contact. -/
structure Chain where
  first : Contact
  rest : List Contact := []
deriving DecidableEq, Repr, Inhabited

def Chain.contacts (c : Chain) : List Contact := c.first :: c.rest

/-- The chain of one contact. -/
def Chain.single (c : Contact) : Chain := ⟨c, []⟩

/-- What may follow the entry of a rung. An output leaves the condition as it is for what
follows. -/
inductive Link where
  | series (contact : Contact)
  | parallel (contact : Contact)
  | act (action : Action)
deriving DecidableEq, Repr, Inhabited

def Link.row : Link → Row
  | series c => c.series
  | parallel c => c.parallel
  | act a => a.row

/-- The condition of the entry is that of its first chain or of any other. -/
structure Rung where
  heading : Option String := none
  entry : Chain
  others : List Chain := []
  links : List Link := []
  last : Action
deriving DecidableEq, Repr, Inhabited

namespace Rung

def entryRows (r : Rung) : List Row := parallelRows ((r.entry :: r.others).map Chain.contacts)

def rows (r : Rung) : List Row :=
  (r.heading.map Row.comment).toList ++ r.entryRows ++ r.links.map Link.row ++ [r.last.row]

/-- A rung that starts from one contact. -/
def start (c : Contact) (links : List Link) (last : Action) : Rung :=
  { entry := .single c, links, last }

/-- A rung that starts from the first chain there is, or from the contact `otherwise` when there is
none, with the remaining chains beside it. -/
def anyOf (chains : List Chain) (otherwise : Contact) (links : List Link) (last : Action) : Rung :=
  match chains with
  | [] => start otherwise links last
  | c :: cs => { entry := c, others := cs, links, last }

/-- The same rung under a comment. -/
def under (heading : String) (r : Rung) : Rung := { r with heading := some heading }

theorem entryRows_eq (r : Rung) :
    r.entryRows = seriesRows r.entry.contacts ++
      r.others.flatMap fun c => seriesRows c.contacts ++ [.instruction .orb []] := by
  have keep : ∀ cs : List Chain,
      (cs.map Chain.contacts).filter (fun b => !b.isEmpty) = cs.map Chain.contacts := by
    intro cs
    simp [List.filter_eq_self, Chain.contacts]
  rw [entryRows, parallelRows, keep]
  simp only [List.map_cons, List.flatMap_map]

end Rung

/-- The instruction list of a sequence of rungs. -/
def streamRows (rungs : List Rung) : List Row := rungs.flatMap Rung.rows

@[simp] theorem streamRows_append (a b : List Rung) :
    streamRows (a ++ b) = streamRows a ++ streamRows b := List.flatMap_append

end Rungs
