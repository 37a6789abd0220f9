import Rungs.Csv

/-! A reader of comma separated text. It knows the grammar only: a field stands in quotes or has none
in it, a comma ends a field, a line end ends a record. Every table of texts is read back from what
`Csv.record` writes of it (`records?_flatMap_record`). -/

namespace Rungs.Csv

/-- Where a reader stands. After a carriage return only the line feed can follow. -/
inductive Place where
  | record | field | plain | quoted | closed | ending
deriving DecidableEq, Repr, Inhabited

/-- What a character is to a reader: part of the field, markup, or the end of a field or record. -/
inductive Reading where
  | keep (next : Place)
  | drop (next : Place)
  | comma
  | line
deriving DecidableEq, Repr

def Place.take : Place → Char → Option Reading
  | quoted, '"' => some (.drop closed)
  | quoted, _ => some (.keep quoted)
  | ending, '\n' => some .line
  | ending, _ => none
  | _, ',' => some .comma
  | _, '\n' => some .line
  | _, '\r' => some (.drop ending)
  | closed, '"' => some (.keep quoted)
  | closed, _ => none
  | plain, '"' => none
  | _, '"' => some (.drop quoted)
  | _, _ => some (.keep plain)

/-- What may stand at the end of a text. The last record needs no line end. -/
def Place.stop : Place → List (List Char) → Option (List (List (List Char)))
  | record, _ => some []
  | quoted, _ => none
  | _, fields => some [fields]

/-- Reads records, with what has been read of the present field and of the fields before it. -/
def read (place : Place) (field : List Char) (fields : List (List Char)) :
    List Char → Option (List (List (List Char)))
  | [] => place.stop (fields ++ [field])
  | c :: rest => (place.take c).bind fun
    | .keep next => read next (field ++ [c]) fields rest
    | .drop next => read next field fields rest
    | .comma => read .field [] (fields ++ [field]) rest
    | .line => (read .record [] [] rest).map ((fields ++ [field]) :: ·)

/-- The records of a text, if it follows the grammar. -/
def records? (text : String) : Option (List (List String)) :=
  (read .record [] [] text.toList).map (·.map (·.map String.ofList))

variable {field : List Char} {fields : List (List Char)}

/-- A character that needs no quotes is kept as it is, also at the start of a field. -/
private theorem take_free {place : Place}
    (bare : place = .record ∨ place = .field ∨ place = .plain) {c : Char}
    (free : needsQuotes c = false) : place.take c = some (.keep .plain) := by
  simp only [needsQuotes, Bool.or_eq_false_iff, beq_eq_false_iff_ne] at free
  obtain ⟨⟨⟨comma, quote⟩, feed⟩, turn⟩ := free
  unfold Place.take
  split <;> simp_all

private theorem read_plain {cs : List Char} (plain : ∀ c ∈ cs, needsQuotes c = false)
    (tail : List Char) :
    read .plain field fields (cs ++ tail) = read .plain (field ++ cs) fields tail := by
  induction cs generalizing field with
  | nil => simp
  | cons c rest ih =>
    have keep : Place.plain.take c = some (.keep .plain) := take_free (by simp) (plain c (by simp))
    have later := @ih (field ++ [c]) fun d mem => plain d (by simp [mem])
    simpa [read, keep] using later

private theorem read_quoted (cs tail : List Char) :
    read .quoted field fields (cs.flatMap doubled ++ '"' :: tail) =
      read .closed (field ++ cs) fields tail := by
  induction cs generalizing field with
  | nil => simp [read, Place.take]
  | cons c rest ih =>
    have later := @ih (field ++ [c])
    by_cases quote : c = '"'
    · subst quote
      simpa [doubled, read, Place.take] using later
    · have keep : Place.quoted.take c = some (.keep .quoted) := by
        unfold Place.take
        split <;> simp_all
      simpa [doubled, quote, read, keep] using later

/-- At the end of a field it no longer counts how the field was written. -/
private theorem read_end {place : Place} (outside : place ≠ .quoted ∧ place ≠ .ending) {c : Char}
    (ends : c = ',' ∨ c = '\n') (tail : List Char) :
    read place field fields (c :: tail) = read .closed field fields (c :: tail) := by
  obtain ⟨open', pending⟩ := outside
  obtain rfl | rfl := ends <;> cases place <;> first | rfl | contradiction

private theorem read_field {place : Place} (fresh : place = .record ∨ place = .field) (s : String)
    {c : Char} (ends : c = ',' ∨ c = '\n') (tail : List Char) :
    read place [] fields (Csv.field s ++ c :: tail) =
      read .closed s.toList fields (c :: tail) := by
  unfold Csv.field
  split
  case isTrue quotes =>
    have enter : place.take '"' = some (.drop .quoted) := by
      obtain rfl | rfl := fresh <;> rfl
    have inside : read .quoted [] fields (s.toList.flatMap doubled ++ '"' :: c :: tail) =
        read .closed s.toList fields (c :: tail) := read_quoted s.toList (c :: tail)
    simpa [read, enter] using inside
  case isFalse free =>
    have plain : ∀ d ∈ s.toList, needsQuotes d = false := by simpa using free
    cases text : s.toList with
    | nil => exact read_end (by obtain rfl | rfl := fresh <;> simp) ends tail
    | cons first rest =>
      rw [text] at plain
      have free : needsQuotes first = false := plain first (by simp)
      have enter : read place [] fields (first :: rest ++ c :: tail) =
          read .plain [] fields (first :: rest ++ c :: tail) := by
        have here : place.take first = some (.keep .plain) :=
          take_free (by obtain rfl | rfl := fresh <;> simp) free
        have there : Place.plain.take first = some (.keep .plain) := take_free (by simp) free
        simp [read, here, there]
      rw [enter, read_plain plain, List.nil_append]
      exact read_end (by simp) ends tail

private theorem read_record {place : Place} (fresh : place = .record ∨ place = .field)
    {texts : List String} (nonempty : texts ≠ []) (tail : List Char) :
    read place [] fields (record texts ++ tail) =
      (read .record [] [] tail).map ((fields ++ texts.map String.toList) :: ·) := by
  induction texts generalizing place fields with
  | nil => contradiction
  | cons first rest ih =>
    cases rest with
    | nil =>
      simp only [record, List.append_assoc, List.singleton_append]
      rw [read_field fresh first (.inr rfl)]
      simp [read, Place.take]
    | cons second others =>
      have step : read .closed first.toList fields (',' :: record (second :: others) ++ tail) =
          read .field [] (fields ++ [first.toList]) (record (second :: others) ++ tail) := by
        simp [read, Place.take]
      simp only [record, List.append_assoc, List.cons_append]
      rw [read_field fresh first (.inl rfl)]
      have later := @ih (fields ++ [first.toList]) .field (.inr rfl) (by simp)
      simpa using step.trans later

private theorem read_table {records : List (List String)} (nonempty : ∀ r ∈ records, r ≠ []) :
    read .record [] [] (records.flatMap record) = some (records.map (·.map String.toList)) := by
  induction records with
  | nil => rfl
  | cons r rest ih =>
    have later := ih fun x mem => nonempty x (by simp [mem])
    rw [List.flatMap_cons, read_record (.inl rfl) (nonempty r (by simp)), later]
    rfl

/-- What is written record by record is read record by record, whatever the fields have in them. -/
theorem records?_flatMap_record {records : List (List String)} (nonempty : ∀ r ∈ records, r ≠ []) :
    records? (String.ofList (records.flatMap record)) = some records := by
  have back (r : List String) : (r.map String.toList).map String.ofList = r := by
    simp [Function.comp_def, String.ofList_toList]
  simp [records?, read_table nonempty, Function.comp_def, back]

/-- Text from elsewhere is read too: other line ends, quotes that were not needed, no last line end. -/
example : records? "a,\"b,\"\"c\"\r\n\"\",x" = some [["a", "b,\"c"], ["", "x"]] := by decide

end Rungs.Csv
