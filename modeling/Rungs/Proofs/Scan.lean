import Rungs.Proofs.Rung
import Rungs.Scan
import Rungs.Snapshot.Lookup

/-! Laws of a scan. It can always be completed, it leaves alone what no action decides on
(`AllScan.frame`), and what a rung does can be read off its links one by one. States that are
reached by scans, with an environment that acts between them, keep what both keep
(`Reached.invariant`). -/

namespace Rungs

variable {d e : Devices} {x : String}

/-- The same value for all bits of a list. -/
def Devices.setBits (d : Devices) (devices : List String) (value : Bool) : Devices :=
  devices.foldl (fun e device => e.setBit device value) d

theorem Devices.bit_setBits {devices : List String} {value : Bool} :
    (d.setBits devices value).bit x = if x ∈ devices then value else d.bit x := by
  unfold setBits
  induction devices generalizing d with
  | nil => simp
  | cons y ys ih =>
    rw [List.foldl_cons, ih, bit_setBit]
    by_cases later : x ∈ ys
    · simp [later]
    · by_cases same : x = y <;> simp [later, same]

/-! ## Contacts -/

@[simp] theorem Contact.reads_plain : (Contact.plain x).reads d = d.bit x := by
  simp [reads, plain]

@[simp] theorem Contact.reads_inverted : (Contact.inverted x).reads d = !d.bit x := by
  simp [reads, inverted]

theorem Block.reads_contact {ρ : Type} [Role ρ] {b : Block} {role : ρ} :
    (b.contact role).reads d = d.bit (b.bit role) := Contact.reads_plain

theorem Block.reads_inverted {ρ : Type} [Role ρ] {b : Block} {role : ρ} :
    (b.inverted role).reads d = !d.bit (b.bit role) := Contact.reads_inverted

/-! ## Links -/

namespace Rung

variable {ls : List Link} {v : Bool} {s t : Bool × Devices}

theorem linksRun_nil : LinksRun [] s t ↔ t = s := by
  constructor
  · intro h
    cases h
    rfl
  · rintro rfl
    exact .nil t

theorem linksRun_cons {l : Link} :
    LinksRun (l :: ls) s t ↔ ∃ free, LinksRun ls (l.run free s) t := by
  constructor
  · intro h
    cases h with
    | cons free rest => exact ⟨free, rest⟩
  · rintro ⟨free, rest⟩
    exact .cons free rest

theorem linksRun_series {c : Contact} :
    LinksRun (.series c :: ls) (v, d) t ↔ LinksRun ls (v && c.reads d, d) t := by
  simp [linksRun_cons, Link.run]

theorem linksRun_parallel {c : Contact} :
    LinksRun (.parallel c :: ls) (v, d) t ↔ LinksRun ls (v || c.reads d, d) t := by
  simp [linksRun_cons, Link.run]

theorem linksRun_act {a : Action} :
    LinksRun (.act a :: ls) (v, d) t ↔ ∃ free, LinksRun ls (v, a.run free v d) t := linksRun_cons

theorem linksRun_allSeries {cs : List Contact} :
    LinksRun (cs.map .series ++ ls) (v, d) t ↔ LinksRun ls (v && cs.all (·.reads d), d) t := by
  induction cs generalizing v with
  | nil => simp
  | cons c cs ih => simp [linksRun_series, ih, Bool.and_assoc]

/-- The last action of a rung, under the condition that the links before it leave. -/
theorem linksRun_last {a : Action} :
    LinksRun [.act a] (v, d) t ↔ ∃ free, t = (v, a.run free v d) := by
  simp [linksRun_act, linksRun_nil]

/-- Outputs under one condition. -/
theorem linksRun_outs {devices : List String} :
    LinksRun (devices.map fun device => .act (.out device)) (v, d) t ↔
      t = (v, d.setBits devices v) := by
  induction devices generalizing d with
  | nil => simp [linksRun_nil, Devices.setBits]
  | cons y ys ih => simp [linksRun_act, ih, Action.run, Devices.setBits]

theorem scans_start {c : Contact} {links : List Link} {last : Action} :
    (start c links last).Scans d e ↔
      ∃ w, LinksRun (links ++ [.act last]) (c.reads d, d) (w, e) := by
  have entry : (start c links last).entryHolds d = c.reads d := by
    simp [entryHolds, start, Chain.single, Chain.holds, Chain.contacts]
  rw [Scans, entry]
  rfl

/-- A rung of one contact and one action. -/
theorem scans_direct {c : Contact} {a : Action} :
    (start c [] a).Scans d e ↔ ∃ free, e = a.run free (c.reads d) d := by
  simp [scans_start, linksRun_last]

theorem scans_under {heading : String} {r : Rung} : (r.under heading).Scans d e ↔ r.Scans d e :=
  Iff.rfl

/-- Without any chain the contact `otherwise` decides. -/
theorem scans_anyOf {chains : List Chain} {otherwise : Contact} {links : List Link}
    {last : Action} :
    (anyOf chains otherwise links last).Scans d e ↔
      ∃ w, LinksRun (links ++ [.act last])
        (if chains = [] then otherwise.reads d else chains.any (·.holds d), d) (w, e) := by
  cases chains with
  | nil => exact scans_start
  | cons chain rest => rfl

/-! ## Frames -/

theorem bit_actionRun {a : Action} {free : Bool} (h : a.target? ≠ some x) :
    (a.run free v d).bit x = d.bit x := by
  cases a with
  | out y | delay y p | pulse y =>
    have other : ¬x = _ := fun same => h (congrArg some same.symm)
    simp [Action.run, other]
  | set y | reset y =>
    have other : ¬x = _ := fun same => h (congrArg some same.symm)
    cases v <;> simp [Action.run, other]
  | move value word => cases v <;> simp [Action.run]
  | jump pointer => rfl

theorem word_actionRun {a : Action} {free : Bool} (h : a.word? ≠ some x) :
    (a.run free v d).word x = d.word x := by
  cases a with
  | out y | delay y p | pulse y => rfl
  | set y | reset y => cases v <;> rfl
  | move value word =>
    have other : ¬x = word := fun same => h (congrArg some same.symm)
    cases v <;> simp [Action.run, other]
  | jump pointer => rfl

theorem linksRun_keeps {P : Devices → Prop} (h : LinksRun ls s t)
    (keeps : ∀ l ∈ ls, ∀ a, l.action? = some a → ∀ free v d, P d → P (a.run free v d))
    (found : P s.2) : P t.2 := by
  induction h with
  | nil => exact found
  | @cons l ls s t free rest ih =>
    refine ih (fun k mem => keeps k (List.mem_cons_of_mem l mem)) ?_
    cases l with
    | series c => exact found
    | parallel c => exact found
    | act a => exact keeps _ List.mem_cons_self a rfl free s.1 s.2 found

/-- What each action of a rung keeps, the rung keeps. -/
theorem Scans.keeps {r : Rung} {P : Devices → Prop} (h : r.Scans d e)
    (keeps : ∀ a ∈ r.actions, ∀ free v f, P f → P (a.run free v f)) (found : P d) : P e := by
  obtain ⟨w, run⟩ := h
  refine linksRun_keeps run (fun l mem a eq => keeps a ?_) found
  rcases List.mem_append.mp mem with mem | mem
  · exact List.mem_append_left _ (List.mem_filterMap.mpr ⟨l, mem, eq⟩)
  · rw [List.mem_singleton.mp mem] at eq
    cases eq
    exact List.mem_append_right _ List.mem_cons_self

theorem Scans.frame {r : Rung} (h : r.Scans d e) (spared : x ∉ r.targets) :
    e.bit x = d.bit x := by
  refine h.keeps (P := fun f => f.bit x = d.bit x) (fun a mem free v f kept => ?_) rfl
  have other : a.target? ≠ some x := fun same => spared (mem_targets.mpr ⟨a, mem, same⟩)
  rw [bit_actionRun other, kept]

theorem Scans.word_frame {r : Rung} (h : r.Scans d e) (spared : x ∉ r.words) :
    e.word x = d.word x := by
  refine h.keeps (P := fun f => f.word x = d.word x) (fun a mem free v f kept => ?_) rfl
  have other : a.word? ≠ some x := fun same => spared (mem_words.mpr ⟨a, mem, same⟩)
  rw [word_actionRun other, kept]

/-! ## Lists of rungs -/

variable {rungs : List Rung}

theorem allScan_nil : AllScan [] d e ↔ e = d := by
  constructor
  · intro h
    cases h
    rfl
  · rintro rfl
    exact .nil e

theorem allScan_cons {r : Rung} :
    AllScan (r :: rungs) d e ↔ ∃ f, r.Scans d f ∧ AllScan rungs f e := by
  constructor
  · intro h
    cases h with
    | cons first rest => exact ⟨_, first, rest⟩
  · rintro ⟨f, first, rest⟩
    exact .cons first rest

theorem allScan_append {more : List Rung} :
    AllScan (rungs ++ more) d e ↔ ∃ f, AllScan rungs d f ∧ AllScan more f e := by
  induction rungs generalizing d with
  | nil => simp [allScan_nil]
  | cons r rs ih =>
    simp only [List.cons_append, allScan_cons, ih]
    constructor
    · rintro ⟨g, first, f, before, after⟩
      exact ⟨f, ⟨g, first, before⟩, after⟩
    · rintro ⟨f, ⟨g, first, before⟩, after⟩
      exact ⟨g, first, f, before, after⟩

theorem allScan_single {r : Rung} : AllScan [r] d e ↔ r.Scans d e := by
  simp [allScan_cons, allScan_nil]

/-- A device that no action of the rungs decides on keeps its state. -/
theorem AllScan.frame (h : AllScan rungs d e) (spared : ∀ r ∈ rungs, x ∉ r.targets) :
    e.bit x = d.bit x := by
  induction h with
  | nil => rfl
  | @cons r rs d f e first rest ih =>
    rw [ih fun other mem => spared other (List.mem_cons_of_mem r mem)]
    exact first.frame (spared r List.mem_cons_self)

/-- The rungs move nothing to any word. -/
def Wordless (rungs : List Rung) : Prop := ∀ r ∈ rungs, r.words = []

theorem Wordless.append {more : List Rung} (h : Wordless rungs) (hm : Wordless more) :
    Wordless (rungs ++ more) := List.forall_mem_append.mpr ⟨h, hm⟩

theorem Wordless.single {r : Rung} (h : r.words = []) : Wordless [r] :=
  List.forall_mem_singleton.mpr h

theorem AllScan.word_frame (h : AllScan rungs d e) (wordless : Wordless rungs) :
    e.word = d.word := by
  induction h with
  | nil => rfl
  | @cons r rs d f e first rest ih =>
    obtain ⟨here, later⟩ := List.forall_mem_cons.mp wordless
    rw [ih later]
    exact funext fun x => first.word_frame (here ▸ List.not_mem_nil)

theorem exists_linksRun (ls : List Link) (s : Bool × Devices) : ∃ t, LinksRun ls s t := by
  induction ls generalizing s with
  | nil => exact ⟨s, .nil s⟩
  | cons l ls ih =>
    obtain ⟨t, rest⟩ := ih (l.run true s)
    exact ⟨t, .cons true rest⟩

theorem exists_allScan (rungs : List Rung) (d : Devices) : ∃ e, AllScan rungs d e := by
  induction rungs generalizing d with
  | nil => exact ⟨d, .nil d⟩
  | cons r rs ih =>
    obtain ⟨⟨w, f⟩, run⟩ := exists_linksRun (r.links ++ [.act r.last]) (r.entryHolds d, d)
    obtain ⟨e, rest⟩ := ih f
    exact ⟨e, .cons ⟨w, run⟩ rest⟩

end Rung

/-! ## Devices of rows -/

namespace Row

/-- The timer that a row runs. -/
def timer? (row : Row) : Option String :=
  match row.command, row.operands with
  | .out, [timer, _] => some timer
  | _, _ => none

/-- The bit that a row writes in every scan. -/
def coil? (row : Row) : Option String :=
  match row.command, row.operands with
  | .out, [device] => some device
  | .pls, [device] => some device
  | _, _ => none

end Row

/-- The timers that run in some rows. -/
def timersOf (rows : List Row) : List String := rows.filterMap Row.timer?

/-- The bits that some rows write in every scan. -/
def coilsOf (rows : List Row) : List String := rows.filterMap Row.coil?

theorem timersOf_append (a b : List Row) : timersOf (a ++ b) = timersOf a ++ timersOf b :=
  List.filterMap_append

theorem coilsOf_append (a b : List Row) : coilsOf (a ++ b) = coilsOf a ++ coilsOf b :=
  List.filterMap_append

namespace Rung

theorem row_mem_rows {r : Rung} {a : Action} (h : a ∈ r.actions) : a.row ∈ r.rows := by
  simp only [rows, List.mem_append, List.mem_map, List.mem_singleton]
  rcases List.mem_append.mp h with mem | mem
  · obtain ⟨l, inside, eq⟩ := List.mem_filterMap.mp mem
    refine .inl (.inr ⟨l, inside, ?_⟩)
    cases l with
    | series c => cases eq
    | parallel c => cases eq
    | act b => cases eq; rfl
  · exact .inr (congrArg Action.row (List.mem_singleton.mp mem))

theorem coil?_action {a : Action} {x : String} (h : a.row.coil? = some x) :
    a.target? = some x := by
  cases a <;> first | exact h | cases h

theorem isCondition_of_coil? {row : Row} {x : String} (h : row.coil? = some x) :
    row.command.isCondition = false := by
  unfold Row.coil? at h
  split at h
  next command _ => rw [command]; rfl
  next command _ => rw [command]; rfl
  next => contradiction

/-- The bits that the rows of a rung write are those that its actions decide on. -/
theorem exists_action_of_coil? {r : Rung} {row : Row} {x : String} (mem : row ∈ r.rows)
    (h : row.coil? = some x) : ∃ a ∈ r.actions, a.target? = some x := by
  obtain ⟨a, inside, rfl⟩ := exists_action_of_row mem (isCondition_of_coil? h)
  exact ⟨a, inside, coil?_action h⟩

theorem exists_action_of_mem_coilsOf {rungs : List Rung} {x : String}
    (h : x ∈ coilsOf (streamRows rungs)) :
    ∃ r ∈ rungs, ∃ a ∈ r.actions, a.target? = some x := by
  obtain ⟨row, mem, coil⟩ := List.mem_filterMap.mp h
  obtain ⟨r, listed, inside⟩ := List.mem_flatMap.mp mem
  exact ⟨r, listed, exists_action_of_coil? inside coil⟩

theorem mem_coilsOf {rungs : List Rung} {r : Rung} {x : String} (mem : r ∈ rungs)
    (h : .out x ∈ r.actions) : x ∈ coilsOf (streamRows rungs) :=
  List.mem_filterMap.mpr ⟨_, List.mem_flatMap.mpr ⟨r, mem, row_mem_rows h⟩, rfl⟩

theorem mem_timersOf {rungs : List Rung} {r : Rung} {n p : UInt32} (mem : r ∈ rungs)
    (h : .delay n p ∈ r.actions) : Device.timer n ∈ timersOf (streamRows rungs) :=
  List.mem_filterMap.mpr ⟨_, List.mem_flatMap.mpr ⟨r, mem, row_mem_rows h⟩, rfl⟩

end Rung

/-! ## Many scans -/

namespace Scan

theorem exists_runs (rungs : List Rung) (s : State) : ∃ t, Runs (streamRows rungs) s t := by
  obtain ⟨e, all⟩ := Rung.exists_allScan rungs s.devices
  obtain ⟨stack, run⟩ := allScan_iff_runs.mp all
  exact ⟨⟨e, stack⟩, run⟩

/-- The states that any number of scans of the rows can reach, where the environment makes changes
before, between and after them. -/
inductive Reached (rows : List Row) (initially : Devices → Prop)
    (changes : Devices → Devices → Prop) : Devices → Prop
  | start {d : Devices} (h : initially d) : Reached rows initially changes d
  | change {d e : Devices} (before : Reached rows initially changes d) (h : changes d e) :
      Reached rows initially changes e
  | scan {d : Devices} {stack : List Bool} {t : State} (before : Reached rows initially changes d)
      (h : Runs rows ⟨d, stack⟩ t) : Reached rows initially changes t.devices

/-- What holds initially and is kept by the environment and by every scan holds in every state
reached. -/
theorem Reached.invariant {rungs : List Rung} {initially : Devices → Prop}
    {changes : Devices → Devices → Prop} {P : Devices → Prop} (first : ∀ d, initially d → P d)
    (outside : ∀ d e, P d → changes d e → P e) (scan : ∀ d e, P d → Rung.AllScan rungs d e → P e)
    (h : Reached (streamRows rungs) initially changes d) : P d := by
  induction h with
  | start h => exact first _ h
  | change _ h ih => exact outside _ _ ih h
  | @scan d stack t _ h ih =>
    exact scan d t.devices ih (allScan_iff_runs (s := ⟨d, stack⟩).mpr ⟨t.stack, h⟩)

/-- Scans of the rows one after the other, each with the devices that it finds and those that it
leaves. The environment makes changes between them. -/
inductive Course (rows : List Row) (changes : Devices → Devices → Prop) :
    List (Devices × Devices) → Prop
  | nil : Course rows changes []
  | cons {d : Devices} {stack : List Bool} {t : State} {later : List (Devices × Devices)}
      (run : Runs rows ⟨d, stack⟩ t) (next : ∀ q ∈ later.head?, changes t.devices q.1)
      (rest : Course rows changes later) : Course rows changes ((d, t.devices) :: later)

section Course

variable {rungs : List Rung} {changes : Devices → Devices → Prop} {p : Devices × Devices}
  {scans : List (Devices × Devices)}

theorem Course.allScan (h : Course (streamRows rungs) changes scans) :
    ∀ p ∈ scans, Rung.AllScan rungs p.1 p.2 := by
  induction h with
  | nil => exact fun p mem => nomatch mem
  | @cons d stack t later run _ _ ih =>
    exact List.forall_mem_cons.mpr
      ⟨allScan_iff_runs (s := ⟨d, stack⟩).mpr ⟨t.stack, run⟩, ih⟩

theorem Course.of_append {rows : List Row} {earlier : List (Devices × Devices)}
    (h : Course rows changes (earlier ++ scans)) : Course rows changes scans := by
  induction earlier with
  | nil => exact h
  | cons p earlier ih =>
    cases h with
    | cons _ _ rest => exact ih rest

/-- What a scan leaves, the environment keeps and every later scan keeps while its condition holds,
all those scans find. -/
theorem Course.finds {K holds : Devices → Prop} (outside : ∀ d e, K d → changes d e → K e)
    (scan : ∀ d e, K d → holds d → Rung.AllScan rungs d e → K e)
    {through later : List (Devices × Devices)}
    (h : Course (streamRows rungs) changes (p :: (through ++ later))) (left : K p.2)
    (condition : ∀ q ∈ through, holds q.1) : ∀ q ∈ through, K q.1 := by
  induction through generalizing p with
  | nil => exact fun q mem => nomatch mem
  | cons q rest ih =>
    have next : Course (streamRows rungs) changes (q :: (rest ++ later)) := by
      cases h with
      | cons _ _ rest => exact rest
    have found : K q.1 := by
      cases h with
      | cons _ next _ => exact outside _ _ left (next q rfl)
    have kept : K q.2 :=
      scan _ _ found (condition q List.mem_cons_self) (next.allScan q List.mem_cons_self)
    exact List.forall_mem_cons.mpr
      ⟨found, ih next kept fun r mem => condition r (List.mem_cons_of_mem q mem)⟩

end Course

end Scan

end Rungs
