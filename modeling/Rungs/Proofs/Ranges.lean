import Rungs.Proofs.IoTable

/-! Families of numbered points. A range has the points of a scope that bear the pattern and a number
or, if the scope has none, the shared ones, each as often as the table lists it. They come by number
and then by id; points that agree in both stay in the order of the table (`range_exact`). -/

namespace Rungs.IoTable

variable {pattern : String}

/-! ## Numbers behind a pattern -/

theorem numericSuffix?_eq_some_iff {name : String} {n : UInt32} :
    numericSuffix? pattern name = some n ↔ Device.Names name pattern n.toNat := by
  rw [numericSuffix?, Option.ite_none_right_eq_some, List.isPrefixOf_iff_prefix]
  constructor
  · rintro ⟨⟨digits, text⟩, suffix⟩
    rw [← text, List.drop_left] at suffix
    exact ⟨digits, Text.word?_eq_some_iff.mp suffix, text.symm⟩
  · rintro ⟨digits, denotes, text⟩
    refine ⟨⟨digits, text.symm⟩, ?_⟩
    rw [text, List.drop_left]
    exact Text.word?_eq_some_iff.mpr denotes

/-- The point's name is the pattern and, after it, digits that denote the number. -/
def Bears (pattern : String) (p : IoPoint) (n : UInt32) : Prop :=
  Device.Names p.name pattern n.toNat

instance (p : IoPoint) (n : UInt32) : Decidable (Bears pattern p n) :=
  decidable_of_iff _ numericSuffix?_eq_some_iff

/-- The point's name is the pattern and digits whose value fits in 32 bits. -/
def IsNumbered (pattern : String) (p : IoPoint) : Prop := ∃ n, Bears pattern p n

theorem isNumbered_iff {p : IoPoint} :
    (numericSuffix? pattern p.name).isSome = true ↔ IsNumbered pattern p := by
  rw [Option.isSome_iff_exists]
  exact exists_congr fun _ => numericSuffix?_eq_some_iff

instance (p : IoPoint) : Decidable (IsNumbered pattern p) := decidable_of_iff _ isNumbered_iff

theorem Bears.unique {p : IoPoint} {m n : UInt32} (first : Bears pattern p m)
    (second : Bears pattern p n) : m = n :=
  Option.some.inj ((numericSuffix?_eq_some_iff.mpr first).symm.trans
    (numericSuffix?_eq_some_iff.mpr second))

/-- Points with their numbers. Those without one are left out. -/
def numbered (pattern : String) (points : List IoPoint) : List (UInt32 × IoPoint) :=
  points.filterMap fun p => (numericSuffix? pattern p.name).map (·, p)

theorem bears_of_mem_numbered {points : List IoPoint} {x : UInt32 × IoPoint}
    (mem : x ∈ numbered pattern points) : Bears pattern x.2 x.1 := by
  obtain ⟨p, -, pair⟩ := List.mem_filterMap.mp mem
  obtain ⟨n, suffix, rfl⟩ := Option.map_eq_some_iff.mp pair
  exact numericSuffix?_eq_some_iff.mp suffix

theorem map_snd_numbered {points : List IoPoint} (all : ∀ p ∈ points, IsNumbered pattern p) :
    (numbered pattern points).map Prod.snd = points := by
  induction points with
  | nil => rfl
  | cons p rest ih =>
    obtain ⟨n, suffix⟩ := Option.isSome_iff_exists.mp (isNumbered_iff.mpr (all p (.head _)))
    have others := ih fun q mem => all q (.tail _ mem)
    unfold numbered at others ⊢
    rw [List.filterMap_cons_some (by rw [suffix]; rfl), List.map_cons, others]

/-! ## The order of a range -/

theorem suffixPrecedes_iff {a b : UInt32 × IoPoint} : suffixPrecedes a b = true ↔
    a.1 < b.1 ∨ a.1 = b.1 ∧ a.2.id ≤ b.2.id := by
  simp [suffixPrecedes]

theorem suffixPrecedes_total (a b : UInt32 × IoPoint) :
    (suffixPrecedes a b || suffixPrecedes b a) = true := by
  simp only [Bool.or_eq_true, suffixPrecedes_iff, UInt32.lt_iff_toNat_lt, ← UInt32.toNat_inj,
    Int32.le_iff_toInt_le]
  omega

theorem suffixPrecedes_trans (a b c : UInt32 × IoPoint) (ab : suffixPrecedes a b = true)
    (bc : suffixPrecedes b c = true) : suffixPrecedes a c = true := by
  simp only [suffixPrecedes_iff, UInt32.lt_iff_toNat_lt, ← UInt32.toNat_inj,
    Int32.le_iff_toInt_le] at ab bc ⊢
  omega

/-- What a number and an id have in common keeps its order. -/
theorem filter_mergeSort_suffixPrecedes (xs : List (UInt32 × IoPoint)) (n : UInt32) (id : Int32) :
    (xs.mergeSort suffixPrecedes).filter (fun x => x.1 = n ∧ x.2.id = id) =
      xs.filter fun x => x.1 = n ∧ x.2.id = id := by
  have alike : (xs.filter fun x => x.1 = n ∧ x.2.id = id).Pairwise
      fun a b => suffixPrecedes a b = true := by
    refine List.pairwise_of_forall_mem_list fun a first b second => suffixPrecedes_iff.mpr (.inr ?_)
    have first : a.1 = n ∧ a.2.id = id := by simpa using (List.mem_filter.mp first).2
    have second : b.1 = n ∧ b.2.id = id := by simpa using (List.mem_filter.mp second).2
    rw [first.1, first.2, second.1, second.2]
    exact ⟨rfl, Int32.le_refl _⟩
  have kept := (List.sublist_mergeSort suffixPrecedes_trans suffixPrecedes_total alike
    List.filter_sublist).filter fun x => x.1 = n ∧ x.2.id = id
  rw [List.filter_filter] at kept
  simp only [Bool.and_self] at kept
  refine (kept.eq_of_length ?_).symm
  exact ((List.mergeSort_perm xs suffixPrecedes).filter _).length_eq.symm

/-! ## Families -/

variable (t : IoTable) (pattern : String)

/-- The points of a scope that bear the pattern and a number or, if it has none, the shared ones. -/
def family (scope : String) : List IoPoint :=
  let own := t.points.filter fun p => p.scope = scope ∧ IsNumbered pattern p
  if own = [] then t.points.filter fun p => Text.trim p.scope = "" ∧ IsNumbered pattern p else own

theorem within_eq_family (scope : String) :
    t.within scope (fun p => (numericSuffix? pattern p.name).isSome) = t.family pattern scope := by
  have own (p : IoPoint) : (p.scope == scope && (numericSuffix? pattern p.name).isSome) =
      decide (p.scope = scope ∧ IsNumbered pattern p) := by
    rw [Bool.eq_iff_iff, Bool.and_eq_true, beq_iff_eq, isNumbered_iff, decide_eq_true_eq]
  have shared (p : IoPoint) : (Text.isBlankText p.scope && (numericSuffix? pattern p.name).isSome) =
      decide (Text.trim p.scope = "" ∧ IsNumbered pattern p) := by
    rw [Bool.eq_iff_iff, Bool.and_eq_true, isNumbered_iff, decide_eq_true_eq,
      Text.trim_eq_empty_iff]
  simp only [within, family, own, shared, List.isEmpty_iff]

theorem map_snd_family (scope : String) :
    (numbered pattern (t.family pattern scope)).map Prod.snd = t.family pattern scope := by
  refine map_snd_numbered fun p mem => ?_
  rw [← within_eq_family] at mem
  exact isNumbered_iff.mp (t.mem_within mem).2.1

theorem range_eq (scope : String) : t.range pattern scope =
    ((numbered pattern (t.family pattern scope)).mergeSort suffixPrecedes).map Prod.snd := by
  rw [← within_eq_family]
  rfl

theorem range_perm_family (scope : String) :
    (t.range pattern scope).Perm (t.family pattern scope) := by
  have sorted := (List.mergeSort_perm (numbered pattern (t.family pattern scope))
    suffixPrecedes).map Prod.snd
  rwa [map_snd_family, ← range_eq] at sorted

/-- Points that share a number and an id are found by their pairs. -/
theorem filter_map_snd {xs : List (UInt32 × IoPoint)} (bears : ∀ x ∈ xs, Bears pattern x.2 x.1)
    (n : UInt32) (id : Int32) :
    (xs.map Prod.snd).filter (fun p => Bears pattern p n ∧ p.id = id) =
      (xs.filter fun x => x.1 = n ∧ x.2.id = id).map Prod.snd := by
  rw [List.filter_map]
  refine congrArg _ (List.filter_congr fun x mem => ?_)
  rw [Function.comp_apply, decide_eq_decide]
  refine and_congr_left fun _ => ⟨fun other => (bears x mem).unique other, ?_⟩
  rintro rfl
  exact bears x mem

/-- A range has its family, ordered and stable, whatever the selector is, and leaves the memory as it
is. -/
theorem range_exact (scope : String) :
    (t.range pattern scope).Perm (t.family pattern scope) ∧
    (t.range pattern scope).Pairwise (fun p q => ∀ m n, Bears pattern p m → Bears pattern q n →
      m < n ∨ m = n ∧ p.id ≤ q.id) ∧
    (∀ n id, (t.range pattern scope).filter (fun p => Bears pattern p n ∧ p.id = id) =
      (t.family pattern scope).filter fun p => Bears pattern p n ∧ p.id = id) ∧
    ∀ (selector : Selector) (recordId : Int32) (memory : List Choice),
      ({ t with selector } : IoTable).resolver.range pattern scope recordId memory =
        (t.range pattern scope, memory) := by
  have bears : ∀ x ∈ numbered pattern (t.family pattern scope), Bears pattern x.2 x.1 :=
    fun x => bears_of_mem_numbered
  have bearsSorted : ∀ x ∈ (numbered pattern (t.family pattern scope)).mergeSort suffixPrecedes,
      Bears pattern x.2 x.1 := fun x mem => bears x ((List.mergeSort_perm _ _).mem_iff.mp mem)
  refine ⟨t.range_perm_family pattern scope, ?_, fun n id => ?_, fun _ _ _ => rfl⟩
  · have sorted := List.pairwise_mergeSort suffixPrecedes_trans suffixPrecedes_total
      (numbered pattern (t.family pattern scope))
    rw [range_eq, List.pairwise_map]
    refine sorted.imp_of_mem fun {x y} first second precedes m n p q => ?_
    obtain rfl := (bearsSorted x first).unique p
    obtain rfl := (bearsSorted y second).unique q
    exact suffixPrecedes_iff.mp precedes
  · rw [range_eq, filter_map_snd pattern bearsSorted, filter_mergeSort_suffixPrecedes,
      ← filter_map_snd pattern bears, map_snd_family]

end Rungs.IoTable
