import Rungs.Proofs.Json.Shape

/-! Records read back. What an object gives for a field is the same wherever its key stands and
whatever unknown keys stand beside it (`RecordOf.decode_object`), and a record is put together from
its fields one by one (`Builds.seq`). So it is read back if each field is (`Reads.record`). -/

namespace Rungs.Json

/-! ## Looking up keys -/

section Lookup

variable {α : Type} {entries : List (String × α)} {key : String}

theorem lookup_of_mem (distinct : (entries.map (·.1)).Nodup) {a : α} (mem : (key, a) ∈ entries) :
    entries.lookup key = some a := by
  obtain ⟨before, after, rfl⟩ := List.append_of_mem mem
  refine List.lookup_eq_some_iff.mpr ⟨before, after, rfl, fun p earlier => ?_⟩
  simp only [List.map_append, List.map_cons, List.nodup_append] at distinct
  have other : p.1 ≠ key := distinct.2.2 p.1 (List.mem_map_of_mem earlier) key List.mem_cons_self
  simpa using other.symm

theorem lookup_of_not_mem (missing : key ∉ entries.map (·.1)) : entries.lookup key = none := by
  refine List.lookup_eq_none_iff.mpr fun p mem => ?_
  have other : key ≠ p.1 := fun same => missing (same ▸ List.mem_map_of_mem mem)
  simpa using other

end Lookup

/-- The members whose values are there. -/
def filled (members : List (String × Option Json)) : List (String × Json) :=
  members.filterMap fun m => m.2.map (m.1, ·)

theorem lookup_filled {members : List (String × Option Json)}
    (distinct : (members.map (·.1)).Nodup) (key : String) :
    (filled members).lookup key = (members.lookup key).join := by
  induction members with
  | nil => rfl
  | cons m members ih =>
    obtain ⟨fresh, apart⟩ := List.nodup_cons.mp distinct
    obtain ⟨name, value⟩ := m
    have rest := ih apart
    by_cases here : key = name
    · subst here
      rw [lookup_of_not_mem fresh] at rest
      cases value with
      | none => simpa [filled] using rest
      | some j => simp [filled]
    · have other : (key == name) = false := by simpa using here
      cases value <;> simpa [filled, List.lookup_cons, other] using rest

/-! ## Fields -/

/-- What is given for a field says the same as what is written for it, if anything is. -/
inductive Supplied : Presence → Shape → Option Json → Option Node → Prop
  | kept {presence : Presence} {shape : Shape} {j : Json} {n : Node} :
      shape.Varies j n → n.skipFault? = none → Supplied presence shape (some j) (some n)
  | omitted {shape : Shape} {j : Json} : Supplied (.defaulted j) shape (some j) none
  | absent {presence : Presence} {shape : Shape} : Supplied presence shape none none
  | nulled {shape : Shape} : Supplied .optional shape none (some .null)

theorem Edited.keys_sublist {written : List (String × Json)} {fields : Shape.Fields}
    {known : List (String × Node)} (h : Edited written fields known) :
    (known.map (·.1)).Sublist (fields.map (·.1)) := by
  induction fields generalizing known with
  | nil =>
    cases h
    exact .slnil
  | cons f fields ih =>
    cases h with
    | kept _ _ rest | nulled _ rest => exact (ih rest).cons_cons _
    | omitted _ rest | absent _ rest => exact (ih rest).cons _

/-- Fields with different keys get what stands under their keys. -/
theorem Edited.supplied {written : List (String × Json)} {fields : Shape.Fields}
    {known : List (String × Node)} (h : Edited written fields known)
    (distinct : (fields.map (·.1)).Nodup) {members : List (String × Option Json)}
    (aligned : members.map (·.1) = fields.map (·.1))
    (present : ∀ m ∈ members, written.lookup m.1 = m.2) {node? : String → Option Node}
    (given : ∀ p ∈ known, node? p.1 = some p.2 ∧ p.2.skipFault? = none)
    (missing : ∀ key ∈ fields.map (·.1), key ∉ known.map (·.1) → node? key = none) :
    List.Forall₂ (fun f m => Supplied f.2.1 f.2.2 m.2 (node? f.1)) fields members := by
  induction fields generalizing known members with
  | nil =>
    obtain rfl : members = [] := by simpa using aligned
    exact .nil
  | cons f fields ih =>
    obtain ⟨m, members, rfl, same, alike⟩ := List.map_eq_cons_iff.mp aligned
    obtain ⟨fresh, apart⟩ := List.nodup_cons.mp distinct
    obtain ⟨here, later⟩ := List.forall_mem_cons.mp present
    obtain ⟨key, presence, shape⟩ := f
    rw [same] at here
    -- the key stands in the object, or it does not: either way the other fields do not mind
    have added {n : Node} {rest : List (String × Node)} (edited : Edited written fields rest)
        (is : known = (key, n) :: rest) : node? key = some n ∧ n.skipFault? = none ∧
          List.Forall₂ (fun f m => Supplied f.2.1 f.2.2 m.2 (node? f.1)) fields members := by
      subst is
      obtain ⟨⟨found, sound⟩, others⟩ := List.forall_mem_cons.mp given
      refine ⟨found, sound, ih edited apart alike later others fun k mem away => ?_⟩
      have other : k ≠ key := fun same => fresh (same ▸ mem)
      exact missing k (List.mem_cons_of_mem _ mem) (by simpa [other] using away)
    have skipped (edited : Edited written fields known) : node? key = none ∧
        List.Forall₂ (fun f m => Supplied f.2.1 f.2.2 m.2 (node? f.1)) fields members :=
      ⟨missing key List.mem_cons_self fun mem => fresh (edited.keys_sublist.subset mem),
        ih edited apart alike later given fun k mem => missing k (List.mem_cons_of_mem _ mem)⟩
    cases h with
    | kept value varies edited =>
      obtain ⟨found, sound, rest⟩ := added edited rfl
      refine .cons ?_ rest
      rw [found, ← here, value]
      exact .kept varies sound
    | nulled nothing edited =>
      obtain ⟨found, -, rest⟩ := added edited rfl
      refine .cons ?_ rest
      rw [found, ← here, nothing]
      exact .nulled
    | omitted value edited =>
      obtain ⟨none, rest⟩ := skipped edited
      refine .cons ?_ rest
      rw [none, ← here, value]
      exact .omitted
    | absent nothing edited =>
      obtain ⟨none, rest⟩ := skipped edited
      refine .cons ?_ rest
      rw [none, ← here, nothing]
      exact .absent

/-- What is written is kept as it is. -/
theorem edited_self {written : List (String × Json)} {fields : Shape.Fields}
    {members : List (String × Option Json)} (aligned : members.map (·.1) = fields.map (·.1))
    (present : ∀ m ∈ members, written.lookup m.1 = m.2) :
    Edited written fields ((Json.filled members).map fun p => (p.1, p.2.node)) := by
  induction fields generalizing members with
  | nil =>
    obtain rfl : members = [] := by simpa using aligned
    exact .nil
  | cons f fields ih =>
    obtain ⟨⟨key, value⟩, members, rfl, rfl, alike⟩ := List.map_eq_cons_iff.mp aligned
    obtain ⟨here, later⟩ := List.forall_mem_cons.mp present
    have rest := ih alike later
    cases value with
    | none => exact .absent here rest
    | some j => exact .kept here .same rest

theorem entries_eq_map (members : List (String × Json)) :
    entries members = (members.map fun p => (p.1, p.2.node)).map memberOf := by
  induction members with
  | nil => rfl
  | cons p members ih => simp [entries, memberOf, ih]

theorem varies_record {fields : Shape.Fields} {members : List (String × Option Json)} {n : Node}
    (aligned : members.map (·.1) = fields.map (·.1))
    (written : ∀ m ∈ members, (filled members).lookup m.1 = m.2)
    (varies : Shape.Varies (.record fields) (.object (filled members)) n) :
    ∃ known unknown found : List (String × Node), n = .object (found.map memberOf) none ∧
      Edited (filled members) fields known ∧ (∀ p ∈ unknown, p.1 ∉ fields.map (·.1)) ∧
      found.Perm (known ++ unknown) := by
  cases varies with
  | record edited apart order => exact ⟨_, _, _, rfl, edited, apart, order⟩
  | same =>
    refine ⟨_, [], (filled members).map fun p => (p.1, p.2.node), ?_,
      edited_self aligned written, by simp, by simp⟩
    rw [Json.node, entries_eq_map]

/-! ## Putting a record together -/

namespace RecordOf

variable {α : Type} (r : RecordOf α)

/-- The members of an object that a record knows, the last one first. -/
def taken (found : List (String × Node)) : List (String × Node) :=
  (found.filter fun p => p.1 ∈ r.keys).reverse

theorem members_eq {found seen : List (String × Node)}
    (sound : ∀ p ∈ found, p.2.skipFault? = none)
    (accepted : ∀ p ∈ found, ∀ f ∈ r.fields, f.key = p.1 → f.check p.2 = .ok ())
    (distinct : ((r.taken found ++ seen).map (·.1)).Nodup) :
    r.members (found.map memberOf) none seen = .ok (r.taken found ++ seen) := by
  induction found generalizing seen with
  | nil => simp [members, taken, stopped]
  | cons p found ih =>
    obtain ⟨here, later⟩ := List.forall_mem_cons.mp sound
    obtain ⟨good, others⟩ := List.forall_mem_cons.mp accepted
    by_cases known : p.1 ∈ r.keys
    · have grown : r.taken (p :: found) ++ seen = r.taken found ++ p :: seen := by
        simp [taken, known]
      rw [grown] at distinct ⊢
      obtain ⟨f, hit⟩ : ∃ f, r.fields.find? (·.key == p.1) = some f := by
        rw [← Option.isSome_iff_exists, List.find?_isSome]
        simpa [keys] using known
      have key : f.key = p.1 := by simpa using List.find?_some hit
      have check : f.check p.2 = .ok () := good f (List.mem_of_find?_eq_some hit) key
      have fresh : seen.any (·.1 == p.1) = false := by
        refine List.any_eq_false.mpr fun q mem same => ?_
        have apart := ((List.sublist_append_right _ _).map _).nodup distinct
        have there : p.1 ∈ seen.map (·.1) := eq_of_beq same ▸ List.mem_map_of_mem mem
        exact (List.nodup_cons.mp apart).1 there
      simp [members, memberOf, hit, fresh, check, ih later others distinct]
    · have same : r.taken (p :: found) = r.taken found := by simp [taken, known]
      rw [same] at distinct ⊢
      have none : r.fields.find? (·.key == p.1) = none := by simpa [keys] using known
      simp [members, memberOf, none, here, stopped, ih later others distinct]

end RecordOf

/-- From what is given a record gets this value, and none of it is refused. -/
structure Builds {α : Type} (r : RecordOf α) (g : Given) (a : α) : Prop where
  built : r.build g = .ok a
  accepted : ∀ f ∈ r.fields, ∀ n, g.node? f.key = some n → f.check n = .ok ()

namespace Builds

variable {α β : Type} {g : Given}

theorem map {r : RecordOf α} {a : α} (f : α → β) (h : Builds r g a) : Builds (f <$> r) g (f a) where
  built := by
    have step : (f <$> r).build g = (r.build g).map f := rfl
    rw [step, h.built]
    rfl
  accepted := h.accepted

theorem seq {r : RecordOf (α → β)} {s : RecordOf α} {f : α → β} {a : α} (first : Builds r g f)
    (second : Builds s g a) : Builds (r <*> s) g (f a) where
  built := by
    have step : (r <*> s).build g = (r.build g).bind fun f => (s.build g).map f := rfl
    rw [step, first.built, second.built]
    rfl
  accepted f mem := (List.mem_append.mp mem).elim (first.accepted f) (second.accepted f)

theorem field_of_some {key : String} {read : Decoder α} {otherwise : Option α} {n : Node} {a : α}
    (found : g.node? key = some n) (value : read n = .ok a) :
    Builds (RecordOf.field key read otherwise) g a where
  built := by simp [RecordOf.field, found, value]
  accepted f mem m there := by
    obtain rfl := List.mem_singleton.mp mem
    obtain rfl : n = m := by simpa [found] using there
    simp [value]

theorem field_of_none {key : String} {read : Decoder α} {a : α} (missing : g.node? key = none) :
    Builds (RecordOf.field key read (some a)) g a where
  built := by simp [RecordOf.field, missing]
  accepted f mem m there := by
    obtain rfl := List.mem_singleton.mp mem
    simp [missing] at there

variable {shape : Shape} {write : α → Json} {read : Decoder α} {key : String}

theorem required (h : Reads shape write read) {a : α}
    (supplied : Supplied .required shape (some (write a)) (g.node? key)) :
    Builds (RecordOf.required key read) g a := by
  generalize found : g.node? key = given at supplied
  cases supplied with
  | kept varies sound => exact field_of_some found (h.back varies sound)

theorem defaulted (h : Reads shape write read) {a otherwise : α}
    (supplied : Supplied (.defaulted (write otherwise)) shape (some (write a)) (g.node? key)) :
    Builds (RecordOf.defaulted key read otherwise) g a := by
  generalize found : g.node? key = given at supplied
  generalize written : write a = j at supplied
  cases supplied with
  | kept varies sound => exact field_of_some found (h.back (written ▸ varies) sound)
  | omitted =>
    obtain rfl := h.injective written
    exact field_of_none found

theorem optional (h : Reads shape write read) {a? : Option α}
    (supplied : Supplied .optional shape (a?.map write) (g.node? key)) :
    Builds (RecordOf.optional key read) g a? := by
  generalize found : g.node? key = given at supplied
  cases a? with
  | none =>
    cases supplied with
    | absent => exact field_of_none found
    | nulled => exact field_of_some found rfl
  | some a =>
    cases supplied with
    | @kept _ _ _ n varies sound =>
      have value : nullable read n = (read n).map some := by
        have given := h.not_null varies
        cases n <;> first | rfl | contradiction
      exact field_of_some found (by rw [value, h.back varies sound]; rfl)

end Builds

/-- Known members that can be put in place are read, and nothing else that is sound is in the way. -/
theorem RecordOf.decode_object {α : Type} (r : RecordOf α) {found : List (String × Node)} {a : α}
    (sound : ∀ p ∈ found, p.2.skipFault? = none) (distinct : ((r.taken found).map (·.1)).Nodup)
    (builds : ∀ absent, Builds r ⟨fun key => (r.taken found).lookup key, absent⟩ a)
    (name : String) : r.decode name (.object (found.map memberOf) none) = .ok a := by
  have accepted : ∀ p ∈ found, ∀ f ∈ r.fields, f.key = p.1 → f.check p.2 = .ok () := by
    intro p mem f isField key
    have known : p.1 ∈ r.keys := List.mem_map.mpr ⟨f, isField, key⟩
    have there : p ∈ r.taken found := by simp [taken, mem, known]
    have looked : (r.taken found).lookup f.key = some p.2 :=
      key ▸ lookup_of_mem distinct there
    exact (builds fun _ => default).accepted f isField p.2 looked
  have read : r.members (found.map memberOf) none [] = .ok (r.taken found) := by
    simpa using @members_eq _ r found [] sound accepted (by simpa using distinct)
  rw [decode, read]
  exact (builds _).built

theorem skipFault?_of_mem {found : List (String × Node)}
    (sound : skipEntries (found.map memberOf) = none) : ∀ p ∈ found, p.2.skipFault? = none := by
  induction found with
  | nil => simp
  | cons p found ih =>
    obtain ⟨here, later⟩ : p.2.skipFault? = none ∧ skipEntries (found.map memberOf) = none := by
      simpa [skipEntries, memberOf] using sound
    exact List.forall_mem_cons.mpr ⟨here, ih later⟩

/-- Of an object with unknown members a record takes the known ones. -/
theorem RecordOf.taken_perm {α : Type} {r : RecordOf α} {known unknown found : List (String × Node)}
    (inside : ∀ p ∈ known, p.1 ∈ r.keys) (outside : ∀ p ∈ unknown, p.1 ∉ r.keys)
    (order : found.Perm (known ++ unknown)) : (r.taken found).Perm known := by
  have all : known.filter (fun p => p.1 ∈ r.keys) = known :=
    List.filter_eq_self.mpr fun p mem => by simpa using inside p mem
  have none : unknown.filter (fun p => p.1 ∈ r.keys) = [] :=
    List.filter_eq_nil_iff.mpr fun p mem => by simpa using outside p mem
  have kept := order.filter fun p => p.1 ∈ r.keys
  rw [List.filter_append, all, none, List.append_nil] at kept
  exact (List.reverse_perm _).trans kept

/-- A record is put together from any object that says the same as the members that are written, if
it can be put together from their fields one by one. -/
theorem RecordOf.decode_varies {α : Type} {r : RecordOf α} {fields : Shape.Fields}
    {members : List (String × Option Json)} {n : Node} {a : α}
    (varies : Shape.Varies (.record fields) (.object (filled members)) n)
    (sound : n.skipFault? = none) (keys : r.keys = fields.map (·.1))
    (distinct : (fields.map (·.1)).Nodup) (aligned : members.map (·.1) = fields.map (·.1))
    (builds : ∀ g : Given, List.Forall₂ (fun f m => Supplied f.2.1 f.2.2 m.2 (g.node? f.1)) fields
      members → Builds r g a) (name : String) : r.decode name n = .ok a := by
  have looked : ∀ m ∈ members, (filled members).lookup m.1 = m.2 := by
    intro m mem
    have apart : (members.map (·.1)).Nodup := aligned ▸ distinct
    rw [lookup_filled apart, lookup_of_mem apart mem]
    rfl
  obtain ⟨known, unknown, found, rfl, edited, strange, order⟩ := varies_record aligned looked varies
  have sound : ∀ p ∈ found, p.2.skipFault? = none :=
    skipFault?_of_mem (by simpa [Node.skipFault?] using sound)
  have same : (r.taken found).Perm known :=
    taken_perm (fun p mem => keys ▸ edited.keys_sublist.subset (List.mem_map_of_mem mem))
      (keys ▸ strange) order
  have apart : ((r.taken found).map (·.1)).Nodup :=
    (same.map _).nodup_iff.mpr (distinct.sublist edited.keys_sublist)
  refine r.decode_object sound apart (fun absent => builds _ ?_) name
  refine edited.supplied distinct aligned looked (fun p mem => ⟨?_, ?_⟩) fun key _ missing => ?_
  · exact lookup_of_mem apart (same.mem_iff.mpr mem)
  · exact sound p (order.mem_iff.mpr (List.mem_append_left _ mem))
  · exact lookup_of_not_mem fun there => missing ((same.map _).mem_iff.mp there)

theorem Reads.record {α : Type} {r : RecordOf α} {name : String} {fields : Shape.Fields}
    {write : α → Json} {members : α → List (String × Option Json)}
    (written : ∀ a, write a = .object (filled (members a)))
    (keys : r.keys = fields.map (·.1)) (distinct : (fields.map (·.1)).Nodup)
    (aligned : ∀ a, (members a).map (·.1) = fields.map (·.1))
    (builds : ∀ a (g : Given), List.Forall₂ (fun f m => Supplied f.2.1 f.2.2 m.2 (g.node? f.1))
      fields (members a) → Builds r g a) :
    Reads (.record fields) write (r.decode name) where
  present a := by simp [written]
  back {a n} varies sound :=
    RecordOf.decode_varies (written a ▸ varies) sound keys distinct (aligned a) (builds a) name

end Rungs.Json
