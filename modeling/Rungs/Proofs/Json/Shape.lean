import Rungs.Proofs.Json.Reading
import Rungs.Proofs.Json.Writing
import Rungs.Document

/-! Which documents say the same as the one that is written. What may change follows the shape of
the value: in a record the order of the keys, unknown keys, a key whose value is the default, and
null in place of a key that is not there. A decoder that minds none of it reads the value back from
every such text (`Reads.decodeText`). -/

namespace Rungs.Json

/-- What it means to leave a field out. -/
inductive Presence where
  | required
  /-- Left out, the field has this value. -/
  | defaulted (value : Json)
  /-- Left out or null, the field has no value. -/
  | optional

/-- Which parts of a document are records, and of which fields. -/
inductive Shape where
  | scalar
  | list (item : Shape)
  | record (fields : List (String × Presence × Shape))

abbrev Shape.Fields := List (String × Presence × Shape)

def memberOf (p : String × Node) : Entry := .member (.ok p.1) p.2

mutual

/-- Trees that say the same as a value, for someone who knows its shape. -/
inductive Shape.Varies : Shape → Json → Node → Prop
  | same {shape : Shape} {j : Json} : Shape.Varies shape j j.node
  | list {item : Shape} {items : List Json} {found : List Node} :
      VariesEach item items found → Shape.Varies (.list item) (.list items) (.array found none)
  /-- The keys that are kept, and unknown keys, in any order. -/
  | record {fields : Shape.Fields} {written : List (String × Json)}
      {known unknown found : List (String × Node)} :
      Edited written fields known → (∀ p ∈ unknown, p.1 ∉ fields.map (·.1)) →
      found.Perm (known ++ unknown) →
      Shape.Varies (.record fields) (.object written) (.object (found.map memberOf) none)

inductive VariesEach : Shape → List Json → List Node → Prop
  | nil {item : Shape} : VariesEach item [] []
  | cons {item : Shape} {j : Json} {n : Node} {items : List Json} {found : List Node} :
      Shape.Varies item j n → VariesEach item items found → VariesEach item (j :: items) (n :: found)

/-- What is kept of the fields of a record that is written with given members. -/
inductive Edited : List (String × Json) → Shape.Fields → List (String × Node) → Prop
  | nil {written : List (String × Json)} : Edited written [] []
  | kept {written : List (String × Json)} {key : String} {presence : Presence} {shape : Shape}
      {j : Json} {n : Node} {fields : Shape.Fields} {known : List (String × Node)} :
      written.lookup key = some j → Shape.Varies shape j n → Edited written fields known →
      Edited written ((key, presence, shape) :: fields) ((key, n) :: known)
  | omitted {written : List (String × Json)} {key : String} {shape : Shape} {j : Json}
      {fields : Shape.Fields} {known : List (String × Node)} :
      written.lookup key = some j → Edited written fields known →
      Edited written ((key, .defaulted j, shape) :: fields) known
  | absent {written : List (String × Json)} {key : String} {presence : Presence} {shape : Shape}
      {fields : Shape.Fields} {known : List (String × Node)} :
      written.lookup key = none → Edited written fields known →
      Edited written ((key, presence, shape) :: fields) known
  | nulled {written : List (String × Json)} {key : String} {shape : Shape}
      {fields : Shape.Fields} {known : List (String × Node)} :
      written.lookup key = none → Edited written fields known →
      Edited written ((key, .optional, shape) :: fields) ((key, .null) :: known)

end

/-- A text that says the same as a value. -/
def Shape.Allows (shape : Shape) (j : Json) (text : String) : Prop :=
  ∃ n, shape.Varies j n ∧ n.WrittenIn text

theorem Shape.allows_compact (shape : Shape) (j : Json) : shape.Allows j j.compact :=
  ⟨j.node, .same, j.compact_writtenIn⟩

theorem Shape.allows_pretty (shape : Shape) (j : Json) : shape.Allows j j.pretty :=
  ⟨j.node, .same, j.pretty_writtenIn⟩

/-- To read a text that says the same as a value it is enough to read the trees that do. -/
theorem decodeText_of_allows {α : Type} {shape : Shape} {j : Json} {read : Decoder α} {a : α}
    {text : String} (allowed : shape.Allows j text)
    (back : ∀ {n}, shape.Varies j n → n.skipFault? = none → read n = .ok a) :
    decodeText read text = .ok a := by
  obtain ⟨n, varies, written⟩ := allowed
  obtain ⟨_, cs, _, _, value, -⟩ := id written
  simp [decodeText, written.ofText, back varies value.foundIn.sound]

/-- A decoder that reads back what is written, and what varies from it. Nothing is written as null. -/
structure Reads {α : Type} (shape : Shape) (write : α → Json) (read : Decoder α) : Prop where
  present : ∀ a, write a ≠ .null
  back : ∀ {a n}, shape.Varies (write a) n → n.skipFault? = none → read n = .ok a

namespace Reads

variable {α : Type} {shape : Shape} {write : α → Json} {read : Decoder α}

theorem decodeText (h : Reads shape write read) {a : α} {text : String}
    (allowed : shape.Allows (write a) text) : Json.decodeText read text = .ok a :=
  decodeText_of_allows allowed h.back

theorem node (h : Reads shape write read) (a : α) : read (write a).node = .ok a :=
  h.back .same (compact_written (write a)).foundIn.sound

/-- What is read back cannot be written alike. -/
theorem injective (h : Reads shape write read) {a b : α} (same : write a = write b) : a = b := by
  have back := h.node a
  rw [same, h.node b] at back
  exact (Except.ok.inj back).symm

theorem not_null (h : Reads shape write read) {a : α} {n : Node} (varies : shape.Varies (write a) n) :
    n ≠ .null := by
  have present := h.present a
  generalize write a = j at varies present
  cases varies with
  | same => cases j <;> simp_all [Json.node]
  | list | record => simp

/-! ## Scalars -/

theorem scalar (present : ∀ a, write a ≠ .null) (node : ∀ a, read (write a).node = .ok a) :
    Reads .scalar write read where
  present := present
  back {a n} varies _ := by
    generalize shape : write a = j at varies
    cases varies
    rw [← shape, node]

theorem integer_node {expected : String} {low high n : Int}
    (bounds : -signBit ≤ low ∧ high ≤ word64Max) (least : low ≤ n) (greatest : n ≤ high) :
    integer expected low high (Json.int n).node = .ok n := by
  have numeral : (Lexeme.ofInt n).numeral = .ok (.int n) :=
    numeral_ofInt (by omega) (by omega)
  simp [Json.node, numeral, integer, least, greatest]

theorem int32 : Reads .scalar writeInt32 Json.int32 := by
  refine .scalar (by simp [writeInt32]) fun n => ?_
  have whole : integer "i32" int32Min int32Max (Json.int n.toInt).node = .ok n.toInt :=
    integer_node (by decide) n.minValue_le_toInt n.toInt_le
  simp [writeInt32, Json.int32, whole]

theorem uint32 : Reads .scalar writeUInt32 Json.uint32 := by
  refine .scalar (by simp [writeUInt32]) fun n => ?_
  have bound : n.toNat < UInt32.size := n.toNat_lt
  have whole : integer "u32" 0 (UInt32.size - 1) (Json.int n.toNat).node = .ok (n.toNat : Int) :=
    integer_node (by decide) (by omega) (by omega)
  rw [writeUInt32, Json.uint32, whole]
  simp

theorem kind : Reads .scalar EntityKind.write EntityKind.read := by
  refine .scalar (by simp [EntityKind.write]) fun k => ?_
  have bound : k.id.toNat < UInt8.size := k.id.toNat_lt
  have whole : integer "u8" 0 (UInt8.size - 1) (Json.int k.id.toNat).node = .ok (k.id.toNat : Int) :=
    integer_node (by decide) (by omega) (by omega)
  rw [EntityKind.write, EntityKind.read, Json.uint8, whole]
  simp [EntityKind.ofId?_id]

theorem string : Reads .scalar Json.text Json.string := .scalar (by simp) fun _ => rfl

theorem boolean : Reads .scalar Json.bool Json.boolean := .scalar (by simp) fun _ => rfl

/-- A name that stands for one value only is read as this value. -/
theorem variant {values : List α} {name : α → String} (complete : ∀ a, a ∈ values)
    (injective : ∀ {a b}, name a = name b → a = b) :
    Reads .scalar (fun a => .text (name a)) (Json.variant values name) := by
  refine .scalar (by simp) fun a => ?_
  have found : ∃ b, values.find? (fun v => name v == name a) = some b := by
    rw [← Option.isSome_iff_exists, List.find?_isSome]
    exact ⟨a, complete a, by simp⟩
  obtain ⟨b, found⟩ := found
  have same : name b = name a := by simpa using List.find?_some found
  simp [Json.node, Json.variant, variantNamed, found, injective same]

/-! ## Lists -/

theorem varies_list {item : Shape} {items : List Json} {n : Node}
    (varies : Shape.Varies (.list item) (.list items) n) :
    ∃ found, n = .array found none ∧ VariesEach item items found := by
  cases varies with
  | list each => exact ⟨_, rfl, each⟩
  | same =>
    refine ⟨_, rfl, ?_⟩
    induction items with
    | nil => exact .nil
    | cons j items ih => exact .cons .same ih

theorem list (h : Reads shape write read) :
    Reads (.list shape) (writeList write) (listOf read) where
  present as := by simp [writeList]
  back {as n} varies sound := by
    obtain ⟨found, rfl, each⟩ := varies_list varies
    have clear : skipItems found = none := by simpa [Node.skipFault?] using sound
    have values : found.mapM read = .ok as := by
      clear varies sound
      induction as generalizing found with
      | nil =>
        cases each
        rfl
      | cons a as ih =>
        cases each with
        | cons varies each =>
          obtain ⟨first, others⟩ : _ ∧ _ := by simpa [skipItems] using clear
          simp [h.back varies first, ih _ each others]
    simp [listOf, values, stopped]

end Reads

end Rungs.Json
