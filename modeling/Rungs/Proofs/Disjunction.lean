import Rungs.Proofs.Rung
import Rungs.Scan

/-! The rows of a disjunction of conjunctions. On a controller they leave the stack as it was, with
one value on top of it: whether some branch holds. Branches without contacts count for nothing; each
of the others has one load, and all but the first are joined by one `ORB` right after them
(`parallelRows_compiles`). -/

namespace Rungs

/-! ## Rows as a program for a stack -/

namespace Scan

/-- The rows in order, unless one of them finds too few conditions on the stack. -/
def exec (free : Bool) (rows : List Row) (s : State) : Option State :=
  rows.foldlM (fun t r => step free r t) s

/-- What builds up a condition does not depend on timers and pulses. -/
theorem step_condition {r : Row} (h : r.command.isCondition = true) (free free' : Bool)
    (s : State) : step free r s = step free' r s := by
  obtain ⟨id, command, operands, note⟩ := r
  obtain ⟨d, stack⟩ := s
  rcases operands with _ | ⟨a, _ | ⟨b, operands⟩⟩ <;>
    rcases stack with _ | ⟨top, _ | ⟨below, stack⟩⟩ <;>
      cases command <;> first | rfl | cases h

/-- Rows that only build up conditions have one run, if they have any. -/
theorem exec_eq_some_iff {rows : List Row} (h : ∀ r ∈ rows, r.command.isCondition = true)
    (free : Bool) {s t : State} : exec free rows s = some t ↔ Runs rows s t := by
  induction rows generalizing s with
  | nil => simp [exec, runs_nil, eq_comm]
  | cons r rs ih =>
    have later : ∀ u, exec free rs u = some t ↔ Runs rs u t := fun u =>
      ih fun x mem => h x (List.mem_cons_of_mem r mem)
    have here : ∀ free', step free' r s = step free r s := fun free' =>
      step_condition (h r List.mem_cons_self) free' free s
    rw [exec, List.foldlM_cons, runs_cons]
    constructor
    · intro run
      obtain ⟨u, first, rest⟩ := Option.bind_eq_some_iff.mp run
      exact ⟨free, u, first, (later u).mp rest⟩
    · rintro ⟨free', u, first, rest⟩
      exact Option.bind_eq_some_iff.mpr ⟨u, here free' ▸ first, (later u).mpr rest⟩

end Scan

/-! ## Branches and groups -/

/-- The branches that have contacts. -/
def groupsOf (branches : List (List Contact)) : List (List Contact) :=
  branches.filter fun b => !b.isEmpty

/-- The row that joins a group to what stands before it. -/
def mergeRow : Row := .instruction .orb []

def loadCount (rows : List Row) : Nat := rows.countP (·.command.isLoad)

def mergeCount (rows : List Row) : Nat := rows.countP (·.command == .orb)

/-- Groups that come after others, each with its `ORB`. -/
def joinedRows (groups : List (List Contact)) : List Row :=
  groups.flatMap fun b => seriesRows b ++ [mergeRow]

variable {branches groups : List (List Contact)} {first b : List Contact}

theorem ne_nil_of_mem_groupsOf (h : b ∈ groupsOf branches) : b ≠ [] := by
  simpa using (List.mem_filter.mp h).2

theorem groupsOf_eq_nil_iff : groupsOf branches = [] ↔ ∀ b ∈ branches, b = [] := by
  simp [groupsOf, List.filter_eq_nil_iff]

theorem parallelRows_eq (h : groupsOf branches = first :: groups) :
    parallelRows branches = seriesRows first ++ joinedRows groups := by
  rw [groupsOf] at h
  simp only [parallelRows, h]
  rfl

theorem isCondition_joinedRows {r : Row} (mem : r ∈ joinedRows groups) :
    r.command.isCondition = true := by
  obtain ⟨b, -, inside⟩ := List.mem_flatMap.mp mem
  rcases List.mem_append.mp inside with series | merge
  · exact Rung.isCondition_seriesRows series
  · rw [List.mem_singleton.mp merge]
    rfl

/-! ## What the rows leave on the stack -/

theorem exists_chains (nonempty : ∀ b ∈ groups, b ≠ []) :
    ∃ chains : List Chain, chains.map Chain.contacts = groups := by
  induction groups with
  | nil => exact ⟨[], rfl⟩
  | cons b rest ih =>
    obtain ⟨chains, same⟩ := ih fun x mem => nonempty x (List.mem_cons_of_mem b mem)
    cases b with
    | nil => exact absurd rfl (nonempty [] List.mem_cons_self)
    | cons c cs => exact ⟨⟨c, cs⟩ :: chains, by rw [List.map_cons, same]; rfl⟩

/-- One value comes on top of the stack: whether all contacts of some branch agree. -/
theorem runs_parallelRows (h : groupsOf branches ≠ []) {s t : Scan.State} :
    Scan.Runs (parallelRows branches) s t ↔
      t = ⟨s.devices, (groupsOf branches).any (·.all (·.reads s.devices)) :: s.stack⟩ := by
  obtain ⟨chains, same⟩ := exists_chains fun b (mem : b ∈ groupsOf branches) =>
    ne_nil_of_mem_groupsOf mem
  rw [← same] at h ⊢
  cases chains with
  | nil => exact absurd rfl h
  | cons c cs =>
    rw [parallelRows_eq same.symm, joinedRows, List.flatMap_map]
    simp only [mergeRow, Scan.runs_append, Scan.runs_chain, exists_eq_left, Scan.runs_others]
    simp [Chain.holds, Function.comp_def]

/-! ## Where the rows stand -/

theorem count_seriesRows (nonempty : b ≠ []) :
    loadCount (seriesRows b) = 1 ∧ mergeCount (seriesRows b) = 0 := by
  have load (c : Contact) : c.load.command.isLoad = true ∧ (c.load.command == .orb) = false := by
    rcases c with ⟨device, negated⟩
    cases negated <;> exact ⟨rfl, rfl⟩
  have series (c : Contact) :
      c.series.command.isLoad = false ∧ (c.series.command == .orb) = false := by
    rcases c with ⟨device, negated⟩
    cases negated <;> exact ⟨rfl, rfl⟩
  cases b with
  | nil => contradiction
  | cons c cs =>
    simp [loadCount, mergeCount, seriesRows, List.countP_map, load, series, Function.comp_def]

theorem loadCount_append (a b : List Row) : loadCount (a ++ b) = loadCount a + loadCount b :=
  List.countP_append

theorem mergeCount_append (a b : List Row) : mergeCount (a ++ b) = mergeCount a + mergeCount b :=
  List.countP_append

theorem count_joinedRows (nonempty : ∀ b ∈ groups, b ≠ []) :
    loadCount (joinedRows groups) = groups.length ∧
      mergeCount (joinedRows groups) = groups.length := by
  induction groups with
  | nil => exact ⟨rfl, rfl⟩
  | cons b rest ih =>
    obtain ⟨loads, merges⟩ := ih fun x mem => nonempty x (List.mem_cons_of_mem b mem)
    obtain ⟨load, plain⟩ := count_seriesRows (nonempty b List.mem_cons_self)
    have merge : loadCount [mergeRow] = 0 ∧ mergeCount [mergeRow] = 1 := ⟨rfl, rfl⟩
    rw [joinedRows] at loads merges
    simp only [joinedRows, List.flatMap_cons, loadCount_append, mergeCount_append, loads, merges,
      load, plain, merge, List.length_cons]
    omega

/-- The group at a position: so many loads and merges stand before it, and right after it stands an
`ORB`, unless it is the first. -/
def StandsAt (rows : List Row) (k : Nat) (b : List Contact) : Prop :=
  ∃ before after, rows = before ++ seriesRows b ++ (if k = 0 then [] else [mergeRow]) ++ after ∧
    loadCount before = k ∧ mergeCount before = k - 1

theorem standsAt_parallelRows {k : Nat} (h : (groupsOf branches)[k]? = some b) :
    StandsAt (parallelRows branches) k b := by
  cases all : groupsOf branches with
  | nil => simp [all] at h
  | cons first rest =>
    have nonempty : ∀ x ∈ first :: rest, x ≠ [] := fun x mem =>
      ne_nil_of_mem_groupsOf (all ▸ mem)
    rw [all] at h
    rw [parallelRows_eq all]
    cases k with
    | zero =>
      obtain rfl : first = b := by simpa using h
      exact ⟨[], joinedRows rest, by simp, rfl, rfl⟩
    | succ k =>
      -- the groups between the first one and this one
      have inside : rest[k]? = some b := by simpa using h
      obtain ⟨bound, here⟩ := List.getElem?_eq_some_iff.mp inside
      have parts : rest = rest.take k ++ b :: rest.drop (k + 1) := by
        rw [← here, List.getElem_cons_drop, List.take_append_drop]
      have joined : joinedRows rest = joinedRows (rest.take k) ++
          (seriesRows b ++ [mergeRow] ++ joinedRows (rest.drop (k + 1))) := by
        simpa [joinedRows] using congrArg joinedRows parts
      have between : ∀ x ∈ rest.take k, x ≠ [] := fun x mem =>
        nonempty x (List.mem_cons_of_mem first (List.mem_of_mem_take mem))
      obtain ⟨loads, merges⟩ := count_joinedRows between
      obtain ⟨load, plain⟩ := count_seriesRows (nonempty first List.mem_cons_self)
      have short : (rest.take k).length = k := List.length_take_of_le (Nat.le_of_lt bound)
      refine ⟨seriesRows first ++ joinedRows (rest.take k), joinedRows (rest.drop (k + 1)), ?_, ?_⟩
      · simp [joined]
      · rw [loadCount_append, mergeCount_append, load, plain, loads, merges, short]
        omega

/-- The rows of a disjunction of conjunctions compute it. Without a branch that has contacts there are
no rows. Otherwise they run on any stack, and leave on top of it whether the contacts of some such
branch are all on; each branch has one load, and each after the first one `ORB` right after it. -/
theorem parallelRows_compiles (branches : List (List Contact)) :
    ((∀ b ∈ branches, b = []) → parallelRows branches = []) ∧
      ((∃ b ∈ branches, b ≠ []) →
        (∀ free (s : Scan.State), Scan.exec free (parallelRows branches) s =
          some ⟨s.devices, (groupsOf branches).any (·.all (·.reads s.devices)) :: s.stack⟩) ∧
        loadCount (parallelRows branches) = (groupsOf branches).length ∧
        mergeCount (parallelRows branches) = (groupsOf branches).length - 1 ∧
        ∀ k b, (groupsOf branches)[k]? = some b → StandsAt (parallelRows branches) k b) := by
  refine ⟨parallelRows_eq_nil_iff.mpr, fun ⟨b, listed, contacts⟩ => ?_⟩
  have present : groupsOf branches ≠ [] := fun absent =>
    contacts (groupsOf_eq_nil_iff.mp absent b listed)
  obtain ⟨first, rest, all⟩ := List.exists_cons_of_ne_nil present
  have nonempty : ∀ x ∈ first :: rest, x ≠ [] := fun x mem => ne_nil_of_mem_groupsOf (all ▸ mem)
  have conditions : ∀ r ∈ parallelRows branches, r.command.isCondition = true := by
    intro r mem
    rw [parallelRows_eq all] at mem
    exact (List.mem_append.mp mem).elim Rung.isCondition_seriesRows isCondition_joinedRows
  obtain ⟨load, plain⟩ := count_seriesRows (nonempty first List.mem_cons_self)
  obtain ⟨loads, merges⟩ := count_joinedRows fun x mem => nonempty x (List.mem_cons_of_mem first mem)
  refine ⟨fun free s => ?_, ?_, ?_, fun k x => standsAt_parallelRows⟩
  · exact (Scan.exec_eq_some_iff conditions free).mpr ((runs_parallelRows present).mpr rfl)
  · rw [parallelRows_eq all, loadCount_append, load, loads, all, List.length_cons]
    omega
  · rw [parallelRows_eq all, mergeCount_append, plain, merges, all, List.length_cons]
    omega

/-- Three branches with contacts between two empty ones, on a stack that is not empty. -/
theorem parallelRows_compiles_gaps :
    let branches : List (List Contact) :=
      [[], [.plain "X0", .inverted "X1"], [.plain "X2"], [], [.inverted "X3", .plain "X0"]]
    let s : Scan.State := ⟨⟨fun x => x == "X0" || x == "X3", fun _ => ""⟩, [false, true]⟩
    ((∀ b ∈ [[], ([] : List Contact)], b = []) → parallelRows [[], []] = []) ∧
      (∃ b ∈ branches, b ≠ []) ∧
      (Scan.exec false (parallelRows branches) s).map (·.stack) = some [true, false, true] ∧
      loadCount (parallelRows branches) = 3 ∧ mergeCount (parallelRows branches) = 2 ∧
      StandsAt (parallelRows branches) 2 [.inverted "X3", .plain "X0"] := by
  have contacts : ∃ b ∈ [[], [Contact.plain "X0", .inverted "X1"], [.plain "X2"], [],
      [.inverted "X3", .plain "X0"]], b ≠ [] := ⟨[.plain "X2"], by decide, by decide⟩
  obtain ⟨runs, loads, merges, stands⟩ := (parallelRows_compiles _).2 contacts
  refine ⟨(parallelRows_compiles _).1, contacts, ?_, loads.trans (by decide),
    merges.trans (by decide), stands 2 _ (by decide)⟩
  rw [runs]
  decide

end Rungs
