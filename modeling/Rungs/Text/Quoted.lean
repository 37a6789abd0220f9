import Rungs.Text.Invisible

/-! Quoting of a text inside a message: double quotes around it, a backslash before a quote or a
backslash, the usual letters for the common controls, and the hexadecimal code point of any other
invisible character. Visible text other than quotes and backslashes stays as it is. -/

namespace Rungs.Text

/-- A code point in lower case hexadecimal, written between braces after `\u`. -/
def codePointEscape (c : Char) : List Char :=
  ['\\', 'u', '\x7b'] ++ Nat.toDigits 16 c.toNat ++ ['\x7d']

def quotedChar (c : Char) : List Char :=
  if c = '\x00' then ['\\', '0']
  else if c = '\t' then ['\\', 't']
  else if c = '\r' then ['\\', 'r']
  else if c = '\n' then ['\\', 'n']
  else if c = '\\' then ['\\', '\\']
  else if c = '"' then ['\\', '"']
  else if isInvisible c then codePointEscape c
  else [c]

def quoted (s : String) : String :=
  String.ofList ('"' :: s.toList.flatMap quotedChar ++ ['"'])

end Rungs.Text
