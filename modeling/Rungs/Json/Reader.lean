import Rungs.Json.Node

/-! Reading a JSON text into its tree. Nothing is lost: a text that is no document has a tree too,
with the fault where the text goes wrong. -/

namespace Rungs.Json

def isSpace (c : Char) : Bool := c == ' ' || c == '\n' || c == '\t' || c == '\r'

def skipSpace (cs : List Char) : List Char := cs.dropWhile isSpace

/-- The rest of a fixed word. -/
def scanWord : List Char → List Char → Except Fault (List Char)
  | [], cs => .ok cs
  | _ :: _, [] => .error .truncated
  | w :: ws, c :: cs => if w = c then scanWord ws cs else .error .malformed

def hexValue? (c : Char) : Option Nat :=
  if '0' ≤ c ∧ c ≤ '9' then some (c.toNat - '0'.toNat)
  else if 'a' ≤ c ∧ c ≤ 'f' then some (c.toNat - 'a'.toNat + 10)
  else if 'A' ≤ c ∧ c ≤ 'F' then some (c.toNat - 'A'.toNat + 10)
  else none

def byteCount (cs : List Char) : Nat := cs.foldr (fun c n => c.utf8Size + n) 0

/-- The four hexadecimal digits of an escape. The text is truncated if fewer than four bytes are
left of it. -/
def scanHex (cs : List Char) : Except Fault (Nat × List Char) :=
  let number? := match cs with
    | a :: b :: c :: d :: rest => do
      let a ← hexValue? a
      let b ← hexValue? b
      let c ← hexValue? c
      let d ← hexValue? d
      return (((a * 16 + b) * 16 + c) * 16 + d, rest)
    | _ => none
  match number? with
  | some result => .ok result
  | none => .error (if byteCount (cs.take 4) < 4 then .truncated else .malformed)

/-- The character that a letter after a backslash stands for. -/
def simpleEscape? (c : Char) : Option Char :=
  match c with
  | '"' => some '"'
  | '\\' => some '\\'
  | '/' => some '/'
  | 'b' => some '\x08'
  | 'f' => some '\x0c'
  | 'n' => some '\n'
  | 'r' => some '\r'
  | 't' => some '\t'
  | _ => none

def isLeadSurrogate (n : Nat) : Bool := 0xd800 ≤ n && n < 0xdc00

def isTrailSurrogate (n : Nat) : Bool := 0xdc00 ≤ n && n < 0xe000

/-- The character of a numeric escape, after its `\u`. A leading surrogate needs a trailing one in a
second escape. -/
def scanUnicode (cs : List Char) : Except Fault (Char × List Char) := do
  let (lead, cs) ← scanHex cs
  if isTrailSurrogate lead then throw .malformed
  else if isLeadSurrogate lead then
    let cs ← scanWord ['\\', 'u'] cs
    let (trail, cs) ← scanHex cs
    if isTrailSurrogate trail then
      return (Char.ofNat (0x10000 + (lead - 0xd800) * 0x400 + (trail - 0xdc00)), cs)
    else throw .malformed
  else return (Char.ofNat lead, cs)

/-- The rest of a string for its reader: its characters, and what follows the closing quote. -/
def readText : Nat → List Char → Except Fault (List Char × List Char)
  | _, [] => .error .truncated
  | _, '"' :: cs => .ok ([], cs)
  | 0, _ :: _ => .error .malformed
  | _ + 1, ['\\'] => .error .truncated
  | fuel + 1, '\\' :: c :: cs =>
    if c = 'u' then do
      let (decoded, cs) ← scanUnicode cs
      let (more, rest) ← readText fuel cs
      return (decoded :: more, rest)
    else
      match simpleEscape? c with
      | some decoded => do
        let (more, rest) ← readText fuel cs
        return (decoded :: more, rest)
      | none => .error .malformed
  | fuel + 1, c :: cs =>
    if c.toNat < 32 then .error .malformed
    else do
      let (more, rest) ← readText fuel cs
      return (c :: more, rest)

/-- The rest of a string for someone who passes over it: what follows the closing quote. -/
def skipText : Nat → List Char → Except Fault (List Char)
  | _, [] => .error .truncated
  | _, '"' :: cs => .ok cs
  | 0, _ :: _ => .error .malformed
  | _ + 1, ['\\'] => .error .truncated
  | fuel + 1, '\\' :: c :: cs =>
    if c = 'u' then do
      let (_, cs) ← scanHex cs
      skipText fuel cs
    else if (simpleEscape? c).isSome then skipText fuel cs
    else .error .malformed
  | fuel + 1, c :: cs => if c.toNat < 32 then .error .malformed else skipText fuel cs

/-- A string after its opening quote: its decoded text, and what follows it if it ends at all. -/
def scanText (fuel : Nat) (cs : List Char) : Except Fault String × Except Fault (List Char) :=
  ((readText fuel cs).map fun (read, _) => String.ofList read, skipText fuel cs)

/-- A value and, unless the text broke off in it, what follows. -/
abbrev Scanned := Node × Option (List Char)

def brokenOff (opening : Option Char) (f : Fault) : Scanned := (.broken opening f f, none)

def scanLiteral (opening : Char) (word : List Char) (value : Node) (cs : List Char) : Scanned :=
  match scanWord word cs with
  | .ok rest => (value, some rest)
  | .error f => brokenOff (some opening) f

def scanString (fuel : Nat) (cs : List Char) : Scanned :=
  match scanText fuel cs with
  | (read, .ok rest) => (.text read, some rest)
  | (.error f, .error g) => (.broken (some '"') f g, none)
  | (.ok _, .error g) => brokenOff (some '"') g

/-- A number that breaks off is always malformed for someone who passes over it. -/
def scanNumber (cs : List Char) : Scanned :=
  match Lexeme.scan cs with
  | .ok (lexeme, rest) => (.number lexeme.numeral, some rest)
  | .error f => (.broken cs.head? f .malformed, none)

mutual

def scanValue : Nat → List Char → Scanned
  | 0, _ => brokenOff none .malformed
  | fuel + 1, cs =>
    match skipSpace cs with
    | [] => brokenOff none .truncated
    | 'n' :: cs => scanLiteral 'n' ['u', 'l', 'l'] .null cs
    | 't' :: cs => scanLiteral 't' ['r', 'u', 'e'] (.bool true) cs
    | 'f' :: cs => scanLiteral 'f' ['a', 'l', 's', 'e'] (.bool false) cs
    | '"' :: cs => scanString fuel cs
    | '[' :: cs =>
      match skipSpace cs with
      | [] => (.array [] (some .truncated), none)
      | ']' :: rest => (.array [] none, some rest)
      | cs =>
        let (items, stop, rest) := scanItems fuel cs
        (.array items stop, rest)
    | c :: cs =>
      if c = '\x7b' then
        match skipSpace cs with
        | '\x7d' :: rest => (.object [] none, some rest)
        | cs =>
          let (entries, stop, rest) := scanEntries fuel cs
          (.object entries stop, rest)
      else if c = '-' ∨ c.isDigit then scanNumber (c :: cs)
      else brokenOff (some c) .malformed

/-- The items of an array from the next one on. -/
def scanItems : Nat → List Char → List Node × Option Fault × Option (List Char)
  | 0, _ => ([], some .malformed, none)
  | fuel + 1, cs =>
    match scanValue fuel cs with
    | (node, none) => ([node], some .malformed, none)
    | (node, some cs) =>
      match skipSpace cs with
      | [] => ([node], some .truncated, none)
      | ']' :: rest => ([node], none, some rest)
      | ',' :: cs =>
        let (items, stop, rest) := scanItems fuel cs
        (node :: items, stop, rest)
      | _ => ([node], some .malformed, none)

/-- The entries of an object from the next one on. -/
def scanEntries : Nat → List Char → List Entry × Option Fault × Option (List Char)
  | 0, _ => ([], some .malformed, none)
  | fuel + 1, cs =>
    match skipSpace cs with
    | '"' :: cs =>
      match scanText fuel cs with
      | (.error f, .error g) => ([.member (.error f) (.broken none f g)], some g, none)
      | (.ok name, .error g) => ([.member (.ok name) (.broken none g g)], some g, none)
      | (name, .ok cs) =>
        match skipSpace cs with
        | [] => ([.member name (.broken none .truncated .truncated)], some .truncated, none)
        | ':' :: cs =>
          match scanValue fuel cs with
          | (value, none) => ([.member name value], some .malformed, none)
          | (value, some cs) =>
            match skipSpace cs with
            | [] => ([.member name value], some .truncated, none)
            | '\x7d' :: rest => ([.member name value], none, some rest)
            | ',' :: cs =>
              let (entries, stop, rest) := scanEntries fuel cs
              (.member name value :: entries, stop, rest)
            | _ => ([.member name value], some .malformed, none)
        | _ => ([.member name (.broken none .malformed .malformed)], some .malformed, none)
    | [] => ([.nameless .truncated], some .truncated, none)
    | _ => ([.nameless .malformed], some .malformed, none)

end

/-- A bracket takes two steps for its one character, and nothing takes more, so twice the length of
the text is enough. -/
def Document.ofChars (cs : List Char) : Document :=
  let (root, rest) := scanValue (2 * cs.length + 2) cs
  { root, trailing := !(skipSpace (rest.getD [])).isEmpty }

def Document.ofText (s : String) : Document := .ofChars s.toList

end Rungs.Json
