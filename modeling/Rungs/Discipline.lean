import Rungs.Rung

/-! The discipline of an instruction list: a reader that counts the open groups of contacts finds at
every row the groups that the row works on, an output finds exactly one, and the list ends with an
output. The rows of rungs keep it wherever a list of rungs is cut off (`keeps_streamRows`). -/

namespace Rungs.Discipline

/-- What a row does to the open groups. -/
inductive Shape where
  | load | join | merge | output | comment
deriving DecidableEq, Repr, Inhabited

/-- Commands that no rung is made of have no shape. -/
def shape? : Command → Option Shape
  | .ld | .ldi => some .load
  | .and | .ani | .or | .ori => some .join
  | .orb => some .merge
  | .out | .set | .rst | .pls | .mov | .cj => some .output
  | .comment => some .comment
  | .anb | .inc | .sub => none

/-- What the last row was. -/
inductive Last where
  | nothing | contact | output | comment
deriving DecidableEq, Repr, Inhabited

structure Progress where
  depth : Nat := 0
  last : Last := .nothing
deriving DecidableEq, Repr, Inhabited

/-- Reads one row, unless it is out of place. A load after a contact opens one more group, any other
load begins anew; an output uses the one group that is open and keeps it. -/
def read (p : Progress) (r : Row) : Option Progress :=
  match shape? r.command with
  | some .load => some ⟨if p.last = .contact then p.depth + 1 else 1, .contact⟩
  | some .join => if 1 ≤ p.depth then some ⟨p.depth, .contact⟩ else none
  | some .merge => if 2 ≤ p.depth then some ⟨p.depth - 1, .contact⟩ else none
  | some .output => if p.depth = 1 then some ⟨1, .output⟩ else none
  | some .comment =>
    if p.last = .nothing ∨ p.last = .output then some ⟨p.depth, .comment⟩ else none
  | none => none

def readAll (p : Progress) (rows : List Row) : Option Progress := rows.foldlM read p

/-- Every row is in place, and no rung is left unfinished: if there are rows, the last one is an
output. -/
def Keeps (rows : List Row) : Prop :=
  ∃ p, readAll {} rows = some p ∧ (rows ≠ [] → p.last = .output)

theorem readAll_append (p : Progress) (a b : List Row) :
    readAll p (a ++ b) = (readAll p a).bind fun q => readAll q b := List.foldlM_append

theorem readAll_series {d : Nat} (h : 1 ≤ d) (cs : List Contact) :
    readAll ⟨d, .contact⟩ (cs.map Contact.series) = some ⟨d, .contact⟩ := by
  have one (c : Contact) : read ⟨d, .contact⟩ c.series = some ⟨d, .contact⟩ := by
    cases c with
    | mk device negated => cases negated <;> simp [read, Contact.series, Row.instruction, shape?, h]
  induction cs with
  | nil => rfl
  | cons c cs ih => simpa [readAll, one] using ih

theorem readAll_chain (p : Progress) (c : Chain) :
    readAll p (seriesRows c.contacts) =
      some ⟨if p.last = .contact then p.depth + 1 else 1, .contact⟩ := by
  have load : read p c.first.load =
      some ⟨if p.last = .contact then p.depth + 1 else 1, .contact⟩ := by
    rcases c with ⟨⟨device, negated⟩, rest⟩
    cases negated <;> simp [read, Contact.load, Row.instruction, shape?]
  have rest := readAll_series (d := if p.last = .contact then p.depth + 1 else 1)
    (by split <;> omega) c.rest
  simpa [readAll, Chain.contacts, seriesRows, load] using rest

theorem readAll_others (cs : List Chain) :
    readAll ⟨1, .contact⟩
      (cs.flatMap fun c => seriesRows c.contacts ++ [.instruction .orb []]) =
      some ⟨1, .contact⟩ := by
  induction cs with
  | nil => rfl
  | cons c cs ih =>
    rw [List.flatMap_cons, readAll_append, readAll_append, readAll_chain]
    simpa [readAll, read, Row.instruction, shape?] using ih

theorem read_action {p : Progress} (h : p.depth = 1) (a : Action) :
    read p a.row = some ⟨1, .output⟩ := by
  cases a <;> simp [read, Action.row, Row.instruction, shape?, h]

theorem readAll_links (links : List Link) (p : Progress) (h : p.depth = 1) :
    ∃ q, readAll p (links.map Link.row) = some q ∧ q.depth = 1 := by
  induction links generalizing p with
  | nil => exact ⟨p, rfl, h⟩
  | cons l ls ih =>
    have one : ∃ q, read p l.row = some q ∧ q.depth = 1 := by
      rcases l with ⟨device, negated⟩ | ⟨device, negated⟩ | a
      · refine ⟨⟨1, .contact⟩, ?_, rfl⟩
        cases negated <;> simp [read, Link.row, Contact.series, Row.instruction, shape?, h]
      · refine ⟨⟨1, .contact⟩, ?_, rfl⟩
        cases negated <;> simp [read, Link.row, Contact.parallel, Row.instruction, shape?, h]
      · exact ⟨⟨1, .output⟩, read_action h a, rfl⟩
    obtain ⟨q, hq, depth⟩ := one
    obtain ⟨t, ht, depth⟩ := ih q depth
    exact ⟨t, by simpa [readAll, hq] using ht, depth⟩

theorem readAll_heading {p : Progress} (h : p.last = .nothing ∨ p.last = .output)
    (heading : Option String) :
    ∃ q, readAll p (heading.map Row.comment).toList = some q ∧ q.last ≠ .contact := by
  cases heading with
  | none => exact ⟨p, rfl, by rcases h with h | h <;> simp [h]⟩
  | some text =>
    exact ⟨⟨p.depth, .comment⟩, by simp [readAll, read, Row.comment, shape?, h], by simp⟩

theorem readAll_rung {p : Progress} (h : p.last = .nothing ∨ p.last = .output) (r : Rung) :
    readAll p r.rows = some ⟨1, .output⟩ := by
  obtain ⟨q, hq, between⟩ := readAll_heading h r.heading
  obtain ⟨t, ht, depth⟩ := readAll_links r.links ⟨1, .contact⟩ rfl
  rw [Rung.rows, readAll_append, readAll_append, readAll_append, Rung.entryRows_eq, hq]
  simp only [Option.bind_some, readAll_append, readAll_chain, between, if_false, readAll_others, ht]
  simp [readAll, read_action depth]

/-- Reading goes on where the rows of a list of rungs end. -/
theorem readAll_streamRows {p : Progress} (h : p.last = .nothing ∨ p.last = .output)
    (rungs : List Rung) :
    readAll p (streamRows rungs) = some (if rungs = [] then p else ⟨1, .output⟩) := by
  induction rungs generalizing p with
  | nil => rfl
  | cons r rs ih =>
    have := ih (p := ⟨1, .output⟩) (.inr rfl)
    rw [streamRows, List.flatMap_cons, readAll_append, readAll_rung h]
    simpa [streamRows] using this

theorem keeps_streamRows (rungs : List Rung) : Keeps (streamRows rungs) := by
  refine ⟨_, readAll_streamRows (.inl rfl) rungs, fun nonempty => ?_⟩
  cases rungs with
  | nil => exact absurd rfl nonempty
  | cons r rs => rfl

end Rungs.Discipline
