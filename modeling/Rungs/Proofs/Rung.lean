import Rungs.Rung

/-! What a rung reads and what it does: its contacts and its actions, wherever they stand in it.
The operands of its rows are the devices of the contacts and the operands of the actions. -/

namespace Rungs

/-- The contact that a link reads, if it reads one. -/
def Link.contact? : Link → Option Contact
  | .series c => some c
  | .parallel c => some c
  | .act _ => none

def Link.action? : Link → Option Action
  | .series _ => none
  | .parallel _ => none
  | .act a => some a

/-- The device that an action decides on. Words and pointers are not devices in this sense. -/
def Action.target? : Action → Option String
  | .out device => some device
  | .delay timer _ => some (Device.timer timer)
  | .set device => some device
  | .reset device => some device
  | .pulse device => some device
  | .move _ _ => none
  | .jump _ => none

/-- The word that an action moves a value to. -/
def Action.word? : Action → Option String
  | .move _ word => some word
  | .out _ | .delay _ _ | .set _ | .reset _ | .pulse _ | .jump _ => none

/-- These commands build up a condition; a comment does nothing. -/
def Command.isCondition : Command → Bool
  | .ld | .ldi | .and | .ani | .or | .ori | .anb | .orb | .comment => true
  | _ => false

namespace Rung

variable {K : Contact → Prop} {A : Action → Prop}

def contacts (r : Rung) : List Contact :=
  (r.entry :: r.others).flatMap Chain.contacts ++ r.links.filterMap Link.contact?

def actions (r : Rung) : List Action := r.links.filterMap Link.action? ++ [r.last]

/-- The devices that the actions of a rung decide on. -/
def targets (r : Rung) : List String := r.actions.filterMap Action.target?

/-- The words that the actions of a rung move values to. -/
def words (r : Rung) : List String := r.actions.filterMap Action.word?

/-- All contacts of the rung satisfy `K` and all its actions `A`. -/
structure Within (K : Contact → Prop) (A : Action → Prop) (r : Rung) : Prop where
  reads : ∀ c ∈ r.contacts, K c
  acts : ∀ a ∈ r.actions, A a

theorem mem_targets {r : Rung} {device : String} :
    device ∈ r.targets ↔ ∃ a ∈ r.actions, a.target? = some device := List.mem_filterMap

theorem mem_words {r : Rung} {word : String} :
    word ∈ r.words ↔ ∃ a ∈ r.actions, a.word? = some word := List.mem_filterMap

theorem rows_start {c : Contact} {links : List Link} {last : Action} :
    (start c links last).rows = c.load :: (links.map Link.row ++ [last.row]) := rfl

theorem actions_start {c : Contact} {links : List Link} {last : Action} :
    (start c links last).actions = links.filterMap Link.action? ++ [last] := rfl

theorem actions_anyOf {chains : List Chain} {otherwise : Contact} {links : List Link}
    {last : Action} :
    (anyOf chains otherwise links last).actions = links.filterMap Link.action? ++ [last] := by
  cases chains <;> rfl

theorem actions_under {heading : String} {r : Rung} : (r.under heading).actions = r.actions := rfl

theorem action?_series (cs : List Contact) : (cs.map Link.series).filterMap Link.action? = [] := by
  induction cs with
  | nil => rfl
  | cons c cs ih => simp [Link.action?]

theorem Within.mono {K' : Contact → Prop} {A' : Action → Prop} {r : Rung} (h : r.Within K A)
    (hk : ∀ c, K c → K' c) (ha : ∀ a, A a → A' a) : r.Within K' A' :=
  ⟨fun c mem => hk c (h.reads c mem), fun a mem => ha a (h.acts a mem)⟩

/-- What holds of a link: `K` of its contact or `A` of its action. -/
def LinkWithin (K : Contact → Prop) (A : Action → Prop) : Link → Prop
  | .series c => K c
  | .parallel c => K c
  | .act a => A a

theorem linkWithin_series {cs : List Contact} (h : ∀ c ∈ cs, K c) :
    ∀ l ∈ cs.map Link.series, LinkWithin K A l := by
  intro l mem
  obtain ⟨c, inside, rfl⟩ := List.mem_map.mp mem
  exact h c inside

theorem within_of_parts {r : Rung} (entry : ∀ c ∈ r.entry.contacts, K c)
    (others : ∀ chain ∈ r.others, ∀ c ∈ chain.contacts, K c)
    (links : ∀ l ∈ r.links, LinkWithin K A l) (last : A r.last) : r.Within K A := by
  refine ⟨fun c mem => ?_, fun a mem => ?_⟩
  · rcases List.mem_append.mp mem with mem | mem
    · obtain ⟨chain, inside, found⟩ := List.mem_flatMap.mp mem
      rcases List.mem_cons.mp inside with rfl | inside
      · exact entry c found
      · exact others chain inside c found
    · obtain ⟨l, inside, found⟩ := List.mem_filterMap.mp mem
      have holds := links l inside
      cases l with
      | series d => cases found; exact holds
      | parallel d => cases found; exact holds
      | act d => cases found
  · rcases List.mem_append.mp mem with mem | mem
    · obtain ⟨l, inside, found⟩ := List.mem_filterMap.mp mem
      have holds := links l inside
      cases l with
      | series d => cases found
      | parallel d => cases found
      | act d => cases found; exact holds
    · rw [List.mem_singleton.mp mem]
      exact last

theorem within_start {c : Contact} {links : List Link} {last : Action} (hc : K c)
    (hl : ∀ l ∈ links, LinkWithin K A l) (ha : A last) : (start c links last).Within K A := by
  refine within_of_parts (fun d mem => ?_) (fun chain mem => by cases mem) hl ha
  have only : d = c := List.mem_singleton.mp mem
  exact only ▸ hc

theorem within_anyOf {chains : List Chain} {otherwise : Contact} {links : List Link}
    {last : Action} (hc : ∀ chain ∈ chains, ∀ c ∈ chain.contacts, K c)
    (ho : K otherwise) (hl : ∀ l ∈ links, LinkWithin K A l) (ha : A last) :
    (anyOf chains otherwise links last).Within K A := by
  cases chains with
  | nil => exact within_start ho hl ha
  | cons chain rest =>
    exact within_of_parts (hc chain List.mem_cons_self)
      (fun other mem => hc other (List.mem_cons_of_mem chain mem)) hl ha

theorem within_under {heading : String} {r : Rung} (h : r.Within K A) :
    (r.under heading).Within K A := ⟨h.reads, h.acts⟩

/-! ## Operands of rows -/

private theorem mem_operands_series {cs : List Contact} {row : Row} {x : String}
    (h : row ∈ seriesRows cs) (hx : x ∈ row.operands) : ∃ c ∈ cs, c.device = x := by
  cases cs with
  | nil => cases h
  | cons c cs =>
    rcases List.mem_cons.mp h with rfl | mem
    · exact ⟨c, List.mem_cons_self, (List.mem_singleton.mp hx).symm⟩
    · obtain ⟨d, inside, rfl⟩ := List.mem_map.mp mem
      exact ⟨d, List.mem_cons_of_mem c inside, (List.mem_singleton.mp hx).symm⟩

private theorem mem_operands_entry {r : Rung} {row : Row} {x : String}
    (h : row ∈ r.entryRows) (hx : x ∈ row.operands) : ∃ c ∈ r.contacts, c.device = x := by
  have chained : ∃ chain ∈ r.entry :: r.others, row ∈ seriesRows chain.contacts := by
    rw [entryRows_eq] at h
    rcases List.mem_append.mp h with mem | mem
    · exact ⟨r.entry, List.mem_cons_self, mem⟩
    · obtain ⟨chain, inside, mem⟩ := List.mem_flatMap.mp mem
      rcases List.mem_append.mp mem with mem | mem
      · exact ⟨chain, List.mem_cons_of_mem r.entry inside, mem⟩
      · rw [List.mem_singleton.mp mem] at hx
        cases hx
  obtain ⟨chain, inside, mem⟩ := chained
  obtain ⟨c, found, eq⟩ := mem_operands_series mem hx
  exact ⟨c, List.mem_append_left _ (List.mem_flatMap.mpr ⟨chain, inside, found⟩), eq⟩

/-- A row of a rung has the device of a contact for its operand, or it is the row of an action. -/
theorem row_cases {r : Rung} {row : Row} {x : String} (h : row ∈ r.rows) (hx : x ∈ row.operands) :
    (∃ c ∈ r.contacts, c.device = x) ∨ ∃ a ∈ r.actions, row = a.row := by
  simp only [rows, List.mem_append, List.mem_singleton, List.mem_map] at h
  rcases h with ((mem | mem) | ⟨l, mem, rfl⟩) | rfl
  · rw [Option.mem_toList, Option.map_eq_some_iff] at mem
    obtain ⟨text, _, rfl⟩ := mem
    cases hx
  · exact .inl (mem_operands_entry mem hx)
  · cases l with
    | series c =>
      exact .inl ⟨c, List.mem_append_right _ (List.mem_filterMap.mpr ⟨_, mem, rfl⟩),
        (List.mem_singleton.mp hx).symm⟩
    | parallel c =>
      exact .inl ⟨c, List.mem_append_right _ (List.mem_filterMap.mpr ⟨_, mem, rfl⟩),
        (List.mem_singleton.mp hx).symm⟩
    | act a =>
      exact .inr ⟨a, List.mem_append_left _ (List.mem_filterMap.mpr ⟨_, mem, rfl⟩), rfl⟩
  · exact .inr ⟨r.last, List.mem_append_right _ List.mem_cons_self, rfl⟩

theorem isCondition_contact (c : Contact) :
    c.load.command.isCondition = true ∧ c.series.command.isCondition = true ∧
      c.parallel.command.isCondition = true := by
  rcases c with ⟨device, negated⟩
  cases negated <;> exact ⟨rfl, rfl, rfl⟩

theorem isCondition_seriesRows {cs : List Contact} {row : Row} (h : row ∈ seriesRows cs) :
    row.command.isCondition = true := by
  cases cs with
  | nil => cases h
  | cons c cs =>
    rcases List.mem_cons.mp h with rfl | mem
    · exact (isCondition_contact c).1
    · obtain ⟨other, _, rfl⟩ := List.mem_map.mp mem
      exact (isCondition_contact other).2.1

/-- The rows of a rung build up its condition, or they are the rows of its actions. -/
theorem exists_action_of_row {r : Rung} {row : Row} (mem : row ∈ r.rows)
    (h : row.command.isCondition = false) : ∃ a ∈ r.actions, row = a.row := by
  rw [rows, entryRows_eq] at mem
  simp only [List.mem_append, List.mem_singleton, List.mem_map, List.mem_flatMap] at mem
  rcases mem with ((heading | entry | ⟨c, _, chain | rfl⟩) | ⟨l, inside, rfl⟩) | rfl
  · rw [Option.mem_toList, Option.map_eq_some_iff] at heading
    obtain ⟨text, _, rfl⟩ := heading
    cases h
  · rw [isCondition_seriesRows entry] at h
    cases h
  · rw [isCondition_seriesRows chain] at h
    cases h
  · cases h
  · cases l with
    | series c =>
      rw [Link.row, (isCondition_contact c).2.1] at h
      cases h
    | parallel c =>
      rw [Link.row, (isCondition_contact c).2.2] at h
      cases h
    | act a =>
      have listed : a ∈ r.actions :=
        List.mem_append_left _ (List.mem_filterMap.mpr ⟨_, inside, rfl⟩)
      exact ⟨a, listed, rfl⟩
  · exact ⟨r.last, List.mem_append_right _ List.mem_cons_self, rfl⟩

/-- An operand of a rung's rows is the device of a contact or an operand of an action. -/
theorem mem_operands {r : Rung} {row : Row} {x : String} (h : row ∈ r.rows)
    (hx : x ∈ row.operands) :
    (∃ c ∈ r.contacts, c.device = x) ∨ ∃ a ∈ r.actions, x ∈ a.row.operands := by
  refine (row_cases h hx).imp_right ?_
  rintro ⟨a, mem, rfl⟩
  exact ⟨a, mem, hx⟩

end Rung

end Rungs
