/-! JSON documents as values, and their two written forms: compact, and indented by two spaces per
level. Members keep their order. Only the quote, the backslash and the controls below the space are
escaped (`escaped_of_plain`). -/

namespace Rungs

inductive Json where
  | null
  | bool (value : Bool)
  | int (value : Int)
  | text (value : String)
  | list (items : List Json)
  | object (members : List (String × Json))
deriving Repr, Inhabited

namespace Json

def hexDigit (n : Nat) : Char := Nat.digitChar (n % 16)

def escaped (c : Char) : List Char :=
  if c = '"' then ['\\', '"']
  else if c = '\\' then ['\\', '\\']
  else if c = '\x08' then ['\\', 'b']
  else if c = '\x0c' then ['\\', 'f']
  else if c = '\n' then ['\\', 'n']
  else if c = '\r' then ['\\', 'r']
  else if c = '\t' then ['\\', 't']
  else if c.toNat < 32 then ['\\', 'u', '0', '0', hexDigit (c.toNat / 16), hexDigit c.toNat]
  else [c]

theorem escaped_of_plain {c : Char} (quote : c ≠ '"') (backslash : c ≠ '\\')
    (visible : 32 ≤ c.toNat) : escaped c = [c] := by
  have control : ∀ d : Char, d.toNat < 32 → c ≠ d := by
    rintro d small rfl
    omega
  simp [escaped, quote, backslash, control '\x08' (by decide), control '\x0c' (by decide),
    control '\n' (by decide), control '\r' (by decide), control '\t' (by decide),
    Nat.not_lt.mpr visible]

def quote (s : String) : List Char := '"' :: s.toList.flatMap escaped ++ ['"']

/-- Parts with a separator between neighbours. -/
def joined (separator : List Char) : List (List Char) → List Char
  | [] => []
  | [part] => part
  | part :: parts => part ++ separator ++ joined separator parts

def leftBrace : Char := '\x7b'

def rightBrace : Char := '\x7d'

mutual

def compactChars : Json → List Char
  | null => "null".toList
  | bool true => "true".toList
  | bool false => "false".toList
  | int n => (toString n).toList
  | text s => quote s
  | list items => '[' :: joined [','] (compactItems items) ++ [']']
  | object members => leftBrace :: joined [','] (compactMembers members) ++ [rightBrace]

def compactItems : List Json → List (List Char)
  | [] => []
  | item :: items => compactChars item :: compactItems items

def compactMembers : List (String × Json) → List (List Char)
  | [] => []
  | (name, value) :: members => (quote name ++ ':' :: compactChars value) :: compactMembers members

end

def compact (j : Json) : String := String.ofList j.compactChars

/-- A line break and the indentation of a level. -/
def newline (level : Nat) : List Char := '\n' :: List.replicate (2 * level) ' '

/-- Brackets around parts on lines of their own; nothing between brackets that hold nothing. -/
def bracketed (opening closing : Char) (level : Nat) (parts : List (List Char)) : List Char :=
  if parts.isEmpty then [opening, closing]
  else opening :: newline (level + 1) ++ joined (',' :: newline (level + 1)) parts ++
    newline level ++ [closing]

mutual

def prettyChars (level : Nat) : Json → List Char
  | list items => bracketed '[' ']' level (prettyItems (level + 1) items)
  | object members => bracketed leftBrace rightBrace level (prettyMembers (level + 1) members)
  | null => "null".toList
  | bool true => "true".toList
  | bool false => "false".toList
  | int n => (toString n).toList
  | text s => quote s

def prettyItems (level : Nat) : List Json → List (List Char)
  | [] => []
  | item :: items => prettyChars level item :: prettyItems level items

def prettyMembers (level : Nat) : List (String × Json) → List (List Char)
  | [] => []
  | (name, value) :: members =>
    (quote name ++ ':' :: ' ' :: prettyChars level value) :: prettyMembers level members

end

def pretty (j : Json) : String := String.ofList (j.prettyChars 0)

/-- The members whose values are there. -/
def objectOf (members : List (String × Option Json)) : Json :=
  object (members.filterMap fun (name, value) => value.map (name, ·))

end Json

end Rungs
