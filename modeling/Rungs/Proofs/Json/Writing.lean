import Rungs.Proofs.Json.Grammar
import Rungs.Json.Basic
import Rungs.Text.Digits
import Mathlib.Data.List.Forall2

/-! Both written forms of a value follow the grammar, and stand for the tree of the value
(`compact_writtenIn`, `pretty_writtenIn`). -/

namespace Rungs.Json

/-- The number as it is written. -/
def Lexeme.ofInt (n : Int) : Lexeme := ⟨decide (n < 0), Nat.toDigits 10 n.natAbs, none, none⟩

mutual

/-- The tree that a text of a value has. -/
def node : Json → Node
  | null => .null
  | bool b => .bool b
  | int n => .number (Lexeme.ofInt n).numeral
  | text s => .text (.ok s)
  | list items => .array (nodes items) none
  | object members => .object (entries members) none

def nodes : List Json → List Node
  | [] => []
  | item :: items => node item :: nodes items

def entries : List (String × Json) → List Entry
  | [] => []
  | (name, value) :: members => .member (.ok name) (node value) :: entries members

end

/-! ## Numbers -/

theorem digits_toDigits (n : Nat) : Digits (Nat.toDigits 10 n) where
  nonempty := Nat.toDigits_ne_nil
  digit _ mem := Nat.isDigit_of_mem_toDigits (by decide) (by decide) mem

theorem text_ofInt (n : Int) : (Lexeme.ofInt n).Text (toString n).toList := by
  have text : (Lexeme.ofInt n).Text _ := .mk (digits_toDigits n.natAbs)
    (Text.toDigits_of_leading_zero n.natAbs) .absent .absent
  have shape : (toString n).toList =
      (if decide (n < 0) then ['-'] else []) ++ (Nat.toDigits 10 n.natAbs ++ ([] ++ [])) := by
    rw [Int.toString_eq_repr, Int.repr_eq_if]
    by_cases sign : 0 ≤ n
    · have same : n.toNat = n.natAbs := by omega
      simp [sign, same, Nat.toList_repr, Int.not_lt.mpr sign]
    · have same : (-n).toNat = n.natAbs := by omega
      simp [sign, same, Nat.toList_repr, Int.not_le.mp sign]
  rwa [shape]

/-- Whole numbers are exact as long as 64 bits hold them. -/
theorem numeral_ofInt {n : Int} (low : -signBit ≤ n) (high : n ≤ word64Max) :
    (Lexeme.ofInt n).numeral = .ok (.int n) := by
  have value := Nat.ofDigitChars_toDigits (b := 10) (n := n.natAbs) (by decide) (by decide)
  have whole : (Lexeme.ofInt n).int? = some n := by
    by_cases negative : n < 0
    · have bounds : ¬(n.natAbs = 0 ∨ signBit < n.natAbs) := by omega
      have same : -(n.natAbs : Int) = n := by omega
      simp only [Lexeme.int?, Lexeme.ofInt, value, negative, decide_true, Option.isSome_none,
        Bool.or_self, Bool.false_eq_true, if_false, if_true, bounds, same]
    · have bound : ¬word64Max < n.natAbs := by omega
      have same : (n.natAbs : Int) = n := by omega
      simp only [Lexeme.int?, Lexeme.ofInt, value, negative, decide_false, Option.isSome_none,
        Bool.or_self, Bool.false_eq_true, if_false, bound, same]
  simp [Lexeme.numeral, whole]

/-! ## Strings -/

theorem hexText_control {n : Nat} (small : n < 32) :
    HexText n ['0', '0', hexDigit (n / 16), hexDigit n] := by
  have digit : ∀ k, k < 16 → hexValue? (Nat.digitChar k) = some k := by decide
  have zero : hexValue? '0' = some 0 := by decide
  have text := HexText.mk zero zero (digit (n / 16 % 16) (by omega)) (digit (n % 16) (by omega))
  have value : ((0 * 16 + 0) * 16 + n / 16 % 16) * 16 + n % 16 = n := by omega
  rwa [value] at text

theorem Inside.escaped_append {cs body : List Char} (h : Inside (.ok cs) body) (c : Char) :
    Inside (.ok (c :: cs)) (escaped c ++ body) := by
  have letter {l d : Char} (known : simpleEscape? l = some d) :
      Inside (.ok (d :: cs)) (['\\', l] ++ body) := h.letter known
  by_cases short : c ∈ ['"', '\\', '\x08', '\x0c', '\n', '\r', '\t']
  · simp only [List.mem_cons, List.not_mem_nil, or_false] at short
    rcases short with rfl | rfl | rfl | rfl | rfl | rfl | rfl <;> exact letter rfl
  simp only [List.mem_cons, List.not_mem_nil, or_false, not_or] at short
  obtain ⟨quote, backslash, backspace, formFeed, lineFeed, carriageReturn, tab⟩ := short
  by_cases small : c.toNat < 32
  · have unit := h.unit (hexText_control small) (by simp [isLeadSurrogate]; omega)
      (by simp [isTrailSurrogate]; omega)
    rw [Char.ofNat_toNat] at unit
    simp only [escaped, quote, backslash, backspace, formFeed, lineFeed, carriageReturn, tab, small,
      if_false, if_true]
    exact unit
  · have visible : 32 ≤ c.toNat := Nat.not_lt.mp small
    rw [escaped_of_plain quote backslash visible]
    exact h.plain quote backslash visible

theorem quoted_quote (s : String) : Quoted (.ok s) (quote s) := by
  have inside (cs : List Char) : Inside (.ok cs) (cs.flatMap escaped) := by
    induction cs with
    | nil => exact .nil
    | cons c cs ih => simpa using ih.escaped_append c
  simpa [quote, Except.map] using Quoted.mk (inside s.toList)

/-! ## Values -/

theorem separated_joined {α : Type} {R : α → List Char → Prop} {as : List α}
    {parts : List (List Char)} (h : List.Forall₂ R as parts) (nonempty : as ≠ [])
    {gap last before : List Char} (blankBefore : Blank before) (blank : Blank gap)
    (blankLast : Blank last) :
    Separated R as (before ++ (joined (',' :: gap) parts ++ last)) := by
  induction h generalizing before with
  | nil => contradiction
  | @cons a part as parts written rest ih =>
    cases rest with
    | nil => exact .last blankBefore written blankLast
    | cons next others =>
      have later := ih (by simp) blank
      have step := Separated.more blankBefore written .nil later
      simpa [joined] using step

theorem written_list {items : List Node} {parts : List (List Char)}
    (h : List.Forall₂ Node.Written items parts) {gap last : List Char} (blank : Blank gap)
    (blankLast : Blank last) :
    (Node.array items none).Written
      ('[' :: (gap ++ (joined (',' :: gap) parts ++ last) ++ [']'])) := by
  cases h with
  | nil => exact .emptyArray (blank.append blankLast)
  | cons first rest =>
    exact .array (separated_joined (.cons first rest) (by simp) blank blank blankLast)

theorem written_object {entries : List Entry} {parts : List (List Char)}
    (h : List.Forall₂ (MemberText Node.Written) entries parts) {gap last : List Char}
    (blank : Blank gap) (blankLast : Blank last) :
    (Node.object entries none).Written
      ('\x7b' :: (gap ++ (joined (',' :: gap) parts ++ last) ++ ['\x7d'])) := by
  cases h with
  | nil => exact .emptyObject (blank.append blankLast)
  | cons first rest =>
    exact .object (separated_joined (.cons first rest) (by simp) blank blank blankLast)

theorem memberText {name : String} {value : Json} {cs after : List Char}
    (h : value.node.Written cs) (blank : Blank after) :
    MemberText Node.Written (.member (.ok name) value.node)
      (quote name ++ ':' :: (after ++ cs)) := .mk (quoted_quote name) .nil blank h

mutual

theorem compact_written : (j : Json) → j.node.Written j.compactChars
  | .null => .null
  | .bool true => .yes
  | .bool false => .no
  | .int n => .number (text_ofInt n)
  | .text s => .text (quoted_quote s)
  | .list items => by
    have text := written_list (compactItems_written items) .nil .nil
    rw [List.nil_append, List.append_nil] at text
    exact text
  | .object members => by
    have text := written_object (compactMembers_written members) .nil .nil
    rw [List.nil_append, List.append_nil] at text
    exact text

theorem compactItems_written :
    (items : List Json) → List.Forall₂ Node.Written (nodes items) (compactItems items)
  | [] => .nil
  | item :: items => .cons (compact_written item) (compactItems_written items)

theorem compactMembers_written : (members : List (String × Json)) →
    List.Forall₂ (MemberText Node.Written) (entries members) (compactMembers members)
  | [] => .nil
  | (_, value) :: members =>
    .cons (memberText (compact_written value) .nil) (compactMembers_written members)

end

theorem Blank.space : Blank [' '] := by simp [Blank, isSpace]

theorem Blank.newline (level : Nat) : Blank (newline level) := by
  intro c mem
  rcases List.mem_cons.mp mem with rfl | space
  · rfl
  · rw [List.eq_of_mem_replicate space]
    rfl

/-- Brackets stand around parts, or around nothing, in the same way. -/
theorem exists_bracketed (opening closing : Char) (level : Nat) (parts : List (List Char)) :
    ∃ gap last, Blank gap ∧ Blank last ∧ bracketed opening closing level parts =
      opening :: (gap ++ (joined (',' :: gap) parts ++ last) ++ [closing]) := by
  cases parts with
  | nil => exact ⟨[], [], .nil, .nil, rfl⟩
  | cons part parts =>
    exact ⟨newline (level + 1), newline level, .newline _, .newline _, by simp [bracketed]⟩

mutual

theorem pretty_written : (level : Nat) → (j : Json) → j.node.Written (j.prettyChars level)
  | _, .null => .null
  | _, .bool true => .yes
  | _, .bool false => .no
  | _, .int n => .number (text_ofInt n)
  | _, .text s => .text (quoted_quote s)
  | level, .list items => by
    obtain ⟨_, _, blank, blankLast, shape⟩ :=
      exists_bracketed '[' ']' level (prettyItems (level + 1) items)
    have text := written_list (prettyItems_written (level + 1) items) blank blankLast
    rw [← shape] at text
    exact text
  | level, .object members => by
    obtain ⟨_, _, blank, blankLast, shape⟩ :=
      exists_bracketed leftBrace rightBrace level (prettyMembers (level + 1) members)
    have text := written_object (prettyMembers_written (level + 1) members) blank blankLast
    rw [← leftBrace, ← rightBrace, ← shape] at text
    exact text

theorem prettyItems_written : (level : Nat) → (items : List Json) →
    List.Forall₂ Node.Written (nodes items) (prettyItems level items)
  | _, [] => .nil
  | level, item :: items => .cons (pretty_written level item) (prettyItems_written level items)

theorem prettyMembers_written : (level : Nat) → (members : List (String × Json)) →
    List.Forall₂ (MemberText Node.Written) (entries members) (prettyMembers level members)
  | _, [] => .nil
  | level, (_, value) :: members =>
    .cons (memberText (pretty_written level value) .space)
      (prettyMembers_written level members)

end

theorem Node.Written.writtenIn {n : Node} {cs : List Char} (h : n.Written cs) :
    n.WrittenIn (String.ofList cs) := ⟨[], cs, [], .nil, h, .nil, by simp⟩

theorem compact_writtenIn (j : Json) : j.node.WrittenIn j.compact := (compact_written j).writtenIn

theorem pretty_writtenIn (j : Json) : j.node.WrittenIn j.pretty := (pretty_written 0 j).writtenIn

end Rungs.Json
