import Rungs.Rung

/-! What a controller does with an instruction list in one scan: rows in order, on the states of
devices and a stack of conditions. Whether a timer has run out or a pulse comes through is open, but
neither is on while its condition is off. `Rung.AllScan` says the same of whole rungs, without a
stack (`Scan.allScan_iff_runs`). -/

namespace Rungs

structure Devices where
  bit : String → Bool
  /-- What was last moved to a word. -/
  word : String → String

namespace Devices

def setBit (d : Devices) (device : String) (value : Bool) : Devices :=
  { d with bit := fun other => if other = device then value else d.bit other }

def setWord (d : Devices) (device : String) (value : String) : Devices :=
  { d with word := fun other => if other = device then value else d.word other }

@[simp] theorem bit_setBit (d : Devices) (a b : String) (v : Bool) :
    (d.setBit a v).bit b = if b = a then v else d.bit b := rfl

@[simp] theorem bit_setWord (d : Devices) (a : String) (v : String) :
    (d.setWord a v).bit = d.bit := rfl

@[simp] theorem word_setBit (d : Devices) (a : String) (v : Bool) :
    (d.setBit a v).word = d.word := rfl

@[simp] theorem word_setWord (d : Devices) (a b : String) (v : String) :
    (d.setWord a v).word b = if b = a then v else d.word b := rfl

end Devices

namespace Scan

structure State where
  devices : Devices
  stack : List Bool := []

/-- One row. `free` is what a timer or a pulse would be if it were up to it alone. A row that finds
too few conditions or has other operands than its command takes means nothing. -/
def step (free : Bool) (r : Row) (s : State) : Option State :=
  let d := s.devices
  match r.command, r.operands, s.stack with
  | .ld, [a], stack => some ⟨d, d.bit a :: stack⟩
  | .ldi, [a], stack => some ⟨d, (!d.bit a) :: stack⟩
  | .and, [a], top :: stack => some ⟨d, (top && d.bit a) :: stack⟩
  | .ani, [a], top :: stack => some ⟨d, (top && !d.bit a) :: stack⟩
  | .or, [a], top :: stack => some ⟨d, (top || d.bit a) :: stack⟩
  | .ori, [a], top :: stack => some ⟨d, (top || !d.bit a) :: stack⟩
  | .anb, [], top :: below :: stack => some ⟨d, (below && top) :: stack⟩
  | .orb, [], top :: below :: stack => some ⟨d, (below || top) :: stack⟩
  | .out, [a], top :: stack => some ⟨d.setBit a top, top :: stack⟩
  | .out, [timer, _], top :: stack => some ⟨d.setBit timer (top && free), top :: stack⟩
  | .pls, [a], top :: stack => some ⟨d.setBit a (top && free), top :: stack⟩
  | .set, [a], top :: stack => some ⟨if top then d.setBit a true else d, top :: stack⟩
  | .rst, [a], top :: stack => some ⟨if top then d.setBit a false else d, top :: stack⟩
  | .mov, [value, word], top :: stack =>
    some ⟨if top then d.setWord word value else d, top :: stack⟩
  | .cj, [_], top :: stack => some ⟨d, top :: stack⟩
  | .comment, _, stack => some ⟨d, stack⟩
  | _, _, _ => none

/-- One scan of some rows may lead from one state to another. -/
inductive Runs : List Row → State → State → Prop
  | nil (s : State) : Runs [] s s
  | cons {r : Row} {rs : List Row} {s t u : State} (free : Bool) (first : step free r s = some t)
      (rest : Runs rs t u) : Runs (r :: rs) s u

theorem runs_append {a b : List Row} {s u : State} :
    Runs (a ++ b) s u ↔ ∃ t, Runs a s t ∧ Runs b t u := by
  induction a generalizing s with
  | nil =>
    constructor
    · exact fun h => ⟨s, .nil s, h⟩
    · rintro ⟨t, h, rest⟩
      cases h
      exact rest
  | cons r rs ih =>
    constructor
    · intro h
      cases h with
      | cons free first rest =>
        obtain ⟨t, before, after⟩ := ih.mp rest
        exact ⟨t, .cons free first before, after⟩
    · rintro ⟨t, h, after⟩
      cases h with
      | cons free first before => exact .cons free first (ih.mpr ⟨t, before, after⟩)

end Scan

def Contact.reads (c : Contact) (d : Devices) : Bool := d.bit c.device != c.negated

def Chain.holds (c : Chain) (d : Devices) : Bool := c.contacts.all (·.reads d)

/-- What an action may do under a condition. -/
def Action.run (free condition : Bool) (d : Devices) : Action → Devices
  | .out device => d.setBit device condition
  | .delay timer _ => d.setBit (Device.timer timer) (condition && free)
  | .pulse device => d.setBit device (condition && free)
  | .set device => if condition then d.setBit device true else d
  | .reset device => if condition then d.setBit device false else d
  | .move value word => if condition then d.setWord word (Device.constant value) else d
  | .jump _ => d

/-- What a link makes of the condition and the devices. -/
def Link.run (free : Bool) (state : Bool × Devices) : Link → Bool × Devices
  | .series c => (state.1 && c.reads state.2, state.2)
  | .parallel c => (state.1 || c.reads state.2, state.2)
  | .act a => (state.1, a.run free state.1 state.2)

namespace Rung

/-- The links one after the other, with the condition that they leave. -/
inductive LinksRun : List Link → Bool × Devices → Bool × Devices → Prop
  | nil (s : Bool × Devices) : LinksRun [] s s
  | cons {l : Link} {ls : List Link} {s t : Bool × Devices} (free : Bool)
      (rest : LinksRun ls (l.run free s) t) : LinksRun (l :: ls) s t

def entryHolds (r : Rung) (d : Devices) : Bool := (r.entry :: r.others).any (·.holds d)

/-- One scan of the rung may leave the devices `e` behind when it finds `d`. -/
def Scans (r : Rung) (d e : Devices) : Prop :=
  ∃ condition, LinksRun (r.links ++ [.act r.last]) (r.entryHolds d, d) (condition, e)

/-- One scan of a list of rungs. -/
inductive AllScan : List Rung → Devices → Devices → Prop
  | nil (d : Devices) : AllScan [] d d
  | cons {r : Rung} {rs : List Rung} {d e f : Devices} (first : r.Scans d e)
      (rest : AllScan rs e f) : AllScan (r :: rs) d f

end Rung

namespace Scan

theorem runs_cons {r : Row} {rs : List Row} {s u : State} :
    Runs (r :: rs) s u ↔ ∃ free t, step free r s = some t ∧ Runs rs t u := by
  constructor
  · intro h
    cases h with
    | cons free first rest => exact ⟨free, _, first, rest⟩
  · rintro ⟨free, t, first, rest⟩
    exact .cons free first rest

theorem runs_nil {s t : State} : Runs [] s t ↔ t = s := by
  constructor
  · intro h
    cases h
    rfl
  · rintro rfl
    exact .nil t

theorem step_load (free : Bool) (c : Contact) (s : State) :
    step free c.load s = some ⟨s.devices, c.reads s.devices :: s.stack⟩ := by
  rcases c with ⟨device, negated⟩
  cases negated <;> simp [step, Contact.load, Row.instruction, Contact.reads]

theorem step_link (free : Bool) (l : Link) (d : Devices) (v : Bool) (stack : List Bool) :
    step free l.row ⟨d, v :: stack⟩ =
      some ⟨(l.run free (v, d)).2, (l.run free (v, d)).1 :: stack⟩ := by
  rcases l with ⟨device, negated⟩ | ⟨device, negated⟩ | a
  · cases negated <;>
      simp [step, Link.row, Contact.series, Row.instruction, Link.run, Contact.reads]
  · cases negated <;>
      simp [step, Link.row, Contact.parallel, Row.instruction, Link.run, Contact.reads]
  · cases a <;> simp [step, Link.row, Action.row, Row.instruction, Link.run, Action.run]

theorem runs_series {cs : List Contact} {d : Devices} {v : Bool} {stack : List Bool} {t : State} :
    Runs (cs.map Contact.series) ⟨d, v :: stack⟩ t ↔
      t = ⟨d, (v && cs.all (·.reads d)) :: stack⟩ := by
  induction cs generalizing v with
  | nil => simp [runs_nil]
  | cons c cs ih =>
    have one (free : Bool) : step free c.series ⟨d, v :: stack⟩ =
        some ⟨d, (v && c.reads d) :: stack⟩ := step_link free (.series c) d v stack
    simp [runs_cons, one, ih, Bool.and_assoc]

theorem runs_chain {c : Chain} {s t : State} :
    Runs (seriesRows c.contacts) s t ↔ t = ⟨s.devices, c.holds s.devices :: s.stack⟩ := by
  simp [Chain.contacts, seriesRows, runs_cons, step_load, runs_series, Chain.holds]

theorem step_merge (free : Bool) (d : Devices) (v w : Bool) (stack : List Bool) :
    step free (.instruction .orb []) ⟨d, w :: v :: stack⟩ = some ⟨d, (v || w) :: stack⟩ := rfl

theorem runs_others {cs : List Chain} {d : Devices} {v : Bool} {stack : List Bool} {t : State} :
    Runs (cs.flatMap fun c => seriesRows c.contacts ++ [.instruction .orb []]) ⟨d, v :: stack⟩ t ↔
      t = ⟨d, (v || cs.any (·.holds d)) :: stack⟩ := by
  induction cs generalizing v with
  | nil => simp [runs_nil]
  | cons c cs ih =>
    simp only [List.flatMap_cons, runs_append, runs_chain, exists_eq_left, runs_cons, runs_nil]
    simp [step_merge, ih, Bool.or_assoc]

theorem runs_links {ls : List Link} {d : Devices} {v : Bool} {stack : List Bool} {t : State} :
    Runs (ls.map Link.row) ⟨d, v :: stack⟩ t ↔
      ∃ w, Rung.LinksRun ls (v, d) (w, t.devices) ∧ t.stack = w :: stack := by
  induction ls generalizing d v with
  | nil =>
    constructor
    · intro h
      cases runs_nil.mp h
      exact ⟨v, .nil _, rfl⟩
    · rintro ⟨w, h, stack⟩
      cases h
      cases t
      simp_all [runs_nil]
  | cons l ls ih =>
    simp only [List.map_cons, runs_cons, step_link, Option.some.injEq]
    constructor
    · rintro ⟨free, _, rfl, rest⟩
      obtain ⟨w, links, stack⟩ := ih.mp rest
      exact ⟨w, .cons free links, stack⟩
    · rintro ⟨w, h, stack⟩
      cases h with
      | cons free rest => exact ⟨free, _, rfl, ih.mpr ⟨w, rest, stack⟩⟩

theorem runs_heading {heading : Option String} {s t : State} :
    Runs (heading.map Row.comment).toList s t ↔ t = s := by
  cases heading with
  | none => simp [runs_nil]
  | some text =>
    have one (free : Bool) : step free (.comment text) s = some s := rfl
    simp [runs_cons, runs_nil, one]

/-- The rows of a rung do what the rung does, and leave its condition on the stack. -/
theorem runs_rung {r : Rung} {s t : State} :
    Runs r.rows s t ↔
      ∃ condition, Rung.LinksRun (r.links ++ [.act r.last])
        (r.entryHolds s.devices, s.devices) (condition, t.devices) ∧
        t.stack = condition :: s.stack := by
  have rows : r.rows = (r.heading.map Row.comment).toList ++ (seriesRows r.entry.contacts ++
      ((r.others.flatMap fun c => seriesRows c.contacts ++ [.instruction .orb []]) ++
        (r.links ++ [Link.act r.last]).map Link.row)) := by
    simp [Rung.rows, Rung.entryRows_eq, Link.row]
  rw [rows]
  simp only [runs_append, runs_heading, runs_chain, runs_others, runs_links, exists_eq_left]
  simp [Rung.entryHolds]

/-- A list of rungs leaves behind the same devices as its rows. -/
theorem allScan_iff_runs {rungs : List Rung} {s : State} {e : Devices} :
    Rung.AllScan rungs s.devices e ↔ ∃ stack, Runs (streamRows rungs) s ⟨e, stack⟩ := by
  induction rungs generalizing s with
  | nil =>
    constructor
    · intro h
      cases h
      exact ⟨s.stack, .nil s⟩
    · rintro ⟨stack, h⟩
      cases runs_nil.mp h
      exact .nil _
  | cons r rs ih =>
    simp only [streamRows, List.flatMap_cons, runs_append, runs_rung] at ih ⊢
    constructor
    · intro h
      cases h with
      | cons first rest =>
        rename_i f
        obtain ⟨condition, first⟩ := first
        obtain ⟨stack, rest⟩ := (ih (s := ⟨f, condition :: s.stack⟩)).mp rest
        exact ⟨stack, ⟨f, condition :: s.stack⟩, ⟨condition, first, rfl⟩, rest⟩
    · rintro ⟨stack, t, ⟨condition, first, _⟩, rest⟩
      exact .cons ⟨condition, first⟩ (ih.mpr ⟨stack, rest⟩)

end Scan

end Rungs
