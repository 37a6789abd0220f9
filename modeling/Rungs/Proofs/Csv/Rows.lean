import Rungs.Text.Digits
import Rungs.Proofs.Csv.Grammar
import Mathlib.Data.List.Forall2
import Mathlib.Logic.Relation

/-! Rows read back from their table. The text loses three things and no more: whether a note is absent
or empty, whether there is no operand or one empty operand, and the operands of comments. -/

namespace Rungs

/-- The command that a table writes with a given word. -/
def Command.ofMnemonic? (word : String) : Option Command := all.find? (·.mnemonic = word)

theorem Command.ofMnemonic?_mnemonic (c : Command) : ofMnemonic? c.mnemonic = some c := by
  cases c <;> decide

namespace Row

/-- One row becomes the other when one thing that tables do not write is changed in it. -/
inductive Unwritten : Row → Row → Prop
  | note (id : UInt32) (command : Command) (operands : List String) :
      Unwritten ⟨id, command, operands, none⟩ ⟨id, command, operands, some ""⟩
  | operand (id : UInt32) (command : Command) (note : Option String) :
      Unwritten ⟨id, command, [], note⟩ ⟨id, command, [""], note⟩
  | comment (id : UInt32) (operands others : List String) (note : Option String) :
      Unwritten ⟨id, .comment, operands, note⟩ ⟨id, .comment, others, note⟩

/-- Rows that a table does not tell apart. -/
def Same : Row → Row → Prop := Relation.EqvGen Unwritten

/-- A row as its table shows it. -/
def shown (r : Row) : Row where
  id := r.id
  command := r.command
  operands := if r.command = .comment ∨ r.operands = [] then [""] else r.operands
  note := some (r.note.getD "")

theorem same_shown (r : Row) : r.Same r.shown := by
  obtain ⟨id, command, operands, note⟩ := r
  have noted : Same ⟨id, command, operands, note⟩ ⟨id, command, operands, some (note.getD "")⟩ := by
    cases note with
    | none => exact .rel _ _ (.note id command operands)
    | some text => exact .refl _
  refine noted.trans _ _ _ ?_
  by_cases silent : command = .comment
  · subst silent
    exact .rel _ _ (by simpa [shown] using .comment id operands [""] (some (note.getD "")))
  · cases operands with
    | nil => exact .rel _ _ (by simpa [shown] using .operand id command (some (note.getD "")))
    | cons first rest => simpa [shown, silent] using .refl _

/-- The rows that a table does not tell apart are those that it shows alike. -/
theorem same_iff {a b : Row} : a.Same b ↔ a.shown = b.shown := by
  constructor
  · intro same
    induction same with
    | rel x y change => cases change <;> simp [shown]
    | refl x => rfl
    | symm x y _ ih => exact ih.symm
    | trans x y z _ _ first second => exact first.trans second
  · intro alike
    have back : b.shown.Same b := (same_shown b).symm
    exact (same_shown a).trans _ _ _ (alike ▸ back)

instance (a b : Row) : Decidable (a.Same b) := decidable_of_iff _ same_iff.symm

end Row

namespace Csv

/-- The rows in records of four columns, and the operands in front of the first row. -/
def assemble : List (List String) → Option (List String × List Row)
  | [] => some ([], [])
  | [step, word, device, note] :: rest => do
    let (further, rows) ← assemble rest
    if step = "" then return (device :: further, rows)
    let id ← Text.word? step.toList
    let command ← Command.ofMnemonic? word
    return ([], ⟨id, command, device :: further, some note⟩ :: rows)
  | _ :: _ => none

/-- The rows in a table. Its heading line is not looked at, and an operand needs a row before it. -/
def rows? (text : String) : Option (List Row) := do
  let (stray, rows) ← assemble (← records? text).tail
  if stray = [] then some rows else none

/-- The rows in the bytes of a table. -/
def decode (bytes : ByteArray) : Option (List Row) := (String.fromUTF8? bytes).bind rows?

theorem assemble_further (operands : List String) {rest : List (List String)}
    {further : List String} {rows : List Row} (tail : assemble rest = some (further, rows)) :
    assemble (operands.map (fun x => ["", "", x, ""]) ++ rest) = some (operands ++ further, rows) := by
  induction operands with
  | nil => exact tail
  | cons first others ih => simp [assemble, ih]

theorem assemble_row (id : UInt32) (command : Command) (device note : String)
    {rest : List (List String)} {further : List String} {rows : List Row}
    (tail : assemble rest = some (further, rows)) :
    assemble ([toString id.toNat, command.mnemonic, device, note] :: rest) =
      some ([], ⟨id, command, device :: further, some note⟩ :: rows) := by
  have small : id.toNat < UInt32.size := id.toNat_lt
  have step : Text.word? (toString id.toNat).toList = some id := by
    simp [Text.word?_toDigits, small]
  have numbered : toString id.toNat ≠ "" := by simp
  simp only [assemble, tail, numbered, if_false, step, Command.ofMnemonic?_mnemonic]
  rfl

theorem assemble_rowRecords (r : Row) {rest : List (List String)} {rows : List Row}
    (tail : assemble rest = some ([], rows)) :
    assemble (rowRecords r ++ rest) = some ([], r.shown :: rows) := by
  unfold rowRecords
  by_cases silent : r.command = .comment
  · have row : assemble ([toString r.id.toNat, "", "", r.note.getD ""] :: rest) = _ :=
      assemble_row r.id .comment "" (r.note.getD "") tail
    simpa [silent, Row.shown] using row
  · have further := assemble_further r.operands.tail tail
    have row := assemble_row r.id r.command (r.operands.headD "") (r.note.getD "") further
    have devices : r.operands.headD "" :: r.operands.tail = r.shown.operands := by
      cases texts : r.operands <;> simp [Row.shown, silent, texts]
    rw [List.append_nil, devices] at row
    simp only [silent, if_false, List.cons_append]
    exact row

theorem assemble_flatMap (rows : List Row) :
    assemble (rows.flatMap rowRecords) = some ([], rows.map Row.shown) := by
  induction rows with
  | nil => rfl
  | cons r rest ih => exact assemble_rowRecords r ih

theorem rows?_render (rows : List Row) : rows? (render rows) = some (rows.map Row.shown) := by
  have nonempty : ∀ r ∈ headings :: rows.flatMap rowRecords, r ≠ [] := by
    intro r mem
    obtain rfl | mem := List.mem_cons.mp mem
    · simp [headings]
    · obtain ⟨x, -, mem⟩ := List.mem_flatMap.mp mem
      unfold rowRecords at mem
      split at mem
      · simp_all
      · obtain rfl | mem := List.mem_cons.mp mem
        · simp
        · obtain ⟨_, -, rfl⟩ := List.mem_map.mp mem
          simp
  have text : render rows =
      String.ofList ((headings :: rows.flatMap rowRecords).flatMap record) := rfl
  rw [rows?, text, records?_flatMap_record nonempty]
  simp [assemble_flatMap]

theorem decode_render (rows : List Row) :
    decode (render rows).toUTF8 = some (rows.map Row.shown) := by
  have valid : String.fromUTF8? (render rows).toUTF8 = some (render rows) :=
    dif_pos (render rows).isValidUTF8
  rw [decode, valid, Option.bind_some, rows?_render]

theorem rowRecords_shown (r : Row) : rowRecords r.shown = rowRecords r := by
  by_cases silent : r.command = .comment
  · simp [rowRecords, Row.shown, silent]
  · cases texts : r.operands <;> simp [rowRecords, Row.shown, silent, texts]

theorem render_map_shown (rows : List Row) : render (rows.map Row.shown) = render rows := by
  simp [render, renderChars, body, List.flatMap_map, rowRecords_shown]

theorem forall₂_same_iff {rows others : List Row} :
    List.Forall₂ Row.Same rows others ↔ rows.map Row.shown = others.map Row.shown := by
  have alike : Row.Same = fun a b => a.shown = b.shown :=
    funext fun a => funext fun b => propext Row.same_iff
  rw [alike, ← List.forall₂_eq_eq_eq, List.forall₂_map_left_iff, List.forall₂_map_right_iff]

/-- A table gives back every row, up to what it does not write, and two lists of rows have one table
exactly if they are the same up to that. -/
theorem render_lossless (rows others : List Row) :
    (∃ back, decode (render rows).toUTF8 = some back ∧ List.Forall₂ Row.Same rows back) ∧
      ((render rows).toUTF8 = (render others).toUTF8 ↔ List.Forall₂ Row.Same rows others) := by
  refine ⟨⟨rows.map Row.shown, decode_render rows, ?_⟩, ?_⟩
  · rw [List.forall₂_map_right_iff, List.forall₂_same]
    exact fun r _ => r.same_shown
  · rw [forall₂_same_iff]
    constructor
    · intro same
      have back := congrArg decode same
      rw [decode_render, decode_render] at back
      exact Option.some.inj back
    · intro alike
      rw [← render_map_shown rows, alike, render_map_shown]

end Csv

end Rungs
