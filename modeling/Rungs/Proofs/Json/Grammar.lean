import Rungs.Json.Reader

/-! The grammar of JSON texts: which texts stand for a value. It leaves a writer free where JSON does:
white space around every token, the escapes of a string, the digits of a number. A string with a
surrogate that stands alone follows the grammar too, but has no text to read. -/

namespace Rungs.Json

/-- White space. -/
def Blank (cs : List Char) : Prop := ∀ c ∈ cs, isSpace c = true

theorem Blank.nil : Blank [] := by simp [Blank]

theorem Blank.append {cs ds : List Char} (first : Blank cs) (second : Blank ds) :
    Blank (cs ++ ds) := fun c mem => (List.mem_append.mp mem).elim (first c) (second c)

theorem Blank.skipSpace_append {before : List Char} (blank : Blank before) (cs : List Char) :
    skipSpace (before ++ cs) = skipSpace cs := List.dropWhile_append_of_pos blank

theorem skipSpace_cons {c : Char} (visible : isSpace c = false) (cs : List Char) :
    skipSpace (c :: cs) = c :: cs := List.dropWhile_cons_of_neg (by simp [visible])

/-! ## Numbers -/

/-- One or more digits. -/
structure Digits (cs : List Char) : Prop where
  nonempty : cs ≠ []
  digit : ∀ c ∈ cs, c.isDigit = true

/-- The digits after a point, or nothing. -/
inductive FractionText : Option (List Char) → List Char → Prop
  | absent : FractionText none []
  | present {ds : List Char} : Digits ds → FractionText (some ds) ('.' :: ds)

/-- The digits of an exponent behind its mark and its sign, or nothing. -/
inductive ExponentText : Option (Bool × List Char) → List Char → Prop
  | absent : ExponentText none []
  | unsigned {mark : Char} {ds : List Char} : mark = 'e' ∨ mark = 'E' → Digits ds →
      ExponentText (some (false, ds)) (mark :: ds)
  | plus {mark : Char} {ds : List Char} : mark = 'e' ∨ mark = 'E' → Digits ds →
      ExponentText (some (false, ds)) (mark :: '+' :: ds)
  | minus {mark : Char} {ds : List Char} : mark = 'e' ∨ mark = 'E' → Digits ds →
      ExponentText (some (true, ds)) (mark :: '-' :: ds)

/-- A number. Only a single zero may start with one. -/
inductive Lexeme.Text : Lexeme → List Char → Prop
  | mk {negative : Bool} {whole fractionText exponentText : List Char}
      {fraction : Option (List Char)} {exponent : Option (Bool × List Char)} :
      Digits whole → (whole.head? = some '0' → whole = ['0']) →
      FractionText fraction fractionText → ExponentText exponent exponentText →
      Lexeme.Text ⟨negative, whole, fraction, exponent⟩
        ((if negative then ['-'] else []) ++ (whole ++ (fractionText ++ exponentText)))

/-! ## Strings -/

/-- Four hexadecimal digits and their value. -/
inductive HexText : Nat → List Char → Prop
  | mk {a b c d : Char} {i j k l : Nat} : hexValue? a = some i → hexValue? b = some j →
      hexValue? c = some k → hexValue? d = some l →
      HexText (((i * 16 + j) * 16 + k) * 16 + l) [a, b, c, d]

/-- An escape of a trailing surrogate stands at the front. -/
def TrailAhead (cs : List Char) : Prop :=
  ∃ n hex rest, HexText n hex ∧ isTrailSurrogate n = true ∧ cs = '\\' :: 'u' :: (hex ++ rest)

/-- What may stand between quotes, and the characters that it stands for. Two surrogates stand for one
character. -/
inductive Inside : Except Fault (List Char) → List Char → Prop
  | nil : Inside (.ok []) []
  | plain {c : Char} {more : Except Fault (List Char)} {cs : List Char} :
      c ≠ '"' → c ≠ '\\' → 32 ≤ c.toNat → Inside more cs →
      Inside (more.map (c :: ·)) (c :: cs)
  | letter {letter c : Char} {more : Except Fault (List Char)} {cs : List Char} :
      simpleEscape? letter = some c → Inside more cs →
      Inside (more.map (c :: ·)) ('\\' :: letter :: cs)
  | unit {n : Nat} {more : Except Fault (List Char)} {hex cs : List Char} :
      HexText n hex → isLeadSurrogate n = false → isTrailSurrogate n = false → Inside more cs →
      Inside (more.map (Char.ofNat n :: ·)) ('\\' :: 'u' :: (hex ++ cs))
  | pair {lead trail : Nat} {more : Except Fault (List Char)} {hex hex' cs : List Char} :
      HexText lead hex → isLeadSurrogate lead = true →
      HexText trail hex' → isTrailSurrogate trail = true → Inside more cs →
      Inside (more.map (Char.ofNat (0x10000 + (lead - 0xd800) * 0x400 + (trail - 0xdc00)) :: ·))
        ('\\' :: 'u' :: (hex ++ '\\' :: 'u' :: (hex' ++ cs)))
  | lone {n : Nat} {more : Except Fault (List Char)} {hex cs : List Char} :
      HexText n hex → isTrailSurrogate n = true ∨ isLeadSurrogate n = true ∧ ¬TrailAhead cs →
      Inside more cs →
      Inside (.error .malformed) ('\\' :: 'u' :: (hex ++ cs))

/-- A string in its quotes. -/
inductive Quoted : Except Fault String → List Char → Prop
  | mk {read : Except Fault (List Char)} {body : List Char} : Inside read body →
      Quoted (read.map String.ofList) ('"' :: (body ++ ['"']))

/-! ## Values -/

/-- One or more parts with commas between them, and white space around each. -/
inductive Separated {α : Type} (R : α → List Char → Prop) : List α → List Char → Prop
  | last {a : α} {before cs after : List Char} : Blank before → R a cs → Blank after →
      Separated R [a] (before ++ (cs ++ after))
  | more {a : α} {as : List α} {before cs after rest : List Char} : Blank before → R a cs →
      Blank after → Separated R as rest →
      Separated R (a :: as) (before ++ (cs ++ (after ++ ',' :: rest)))

/-- A name, a colon and a value. -/
inductive MemberText (R : Node → List Char → Prop) : Entry → List Char → Prop
  | mk {name : Except Fault String} {value : Node} {key before after cs : List Char} :
      Quoted name key → Blank before → Blank after → R value cs →
      MemberText R (.member name value) (key ++ (before ++ ':' :: (after ++ cs)))

/-- A value, from its first character to its last. -/
inductive Node.Written : Node → List Char → Prop
  | null : Node.Written .null ['n', 'u', 'l', 'l']
  | yes : Node.Written (.bool true) ['t', 'r', 'u', 'e']
  | no : Node.Written (.bool false) ['f', 'a', 'l', 's', 'e']
  | number {l : Lexeme} {cs : List Char} : l.Text cs → Node.Written (.number l.numeral) cs
  | text {read : Except Fault String} {cs : List Char} : Quoted read cs →
      Node.Written (.text read) cs
  | emptyArray {inside : List Char} : Blank inside →
      Node.Written (.array [] none) ('[' :: (inside ++ [']']))
  | array {items : List Node} {cs : List Char} : Separated Node.Written items cs →
      Node.Written (.array items none) ('[' :: (cs ++ [']']))
  | emptyObject {inside : List Char} : Blank inside →
      Node.Written (.object [] none) ('\x7b' :: (inside ++ ['\x7d']))
  | object {entries : List Entry} {cs : List Char} :
      Separated (MemberText Node.Written) entries cs →
      Node.Written (.object entries none) ('\x7b' :: (cs ++ ['\x7d']))

/-- A text with one value in it, and white space around it. -/
def Node.WrittenIn (n : Node) (text : String) : Prop :=
  ∃ before cs after, Blank before ∧ n.Written cs ∧ Blank after ∧
    text.toList = before ++ (cs ++ after)

end Rungs.Json
