import Rungs.Path

/-! The machine that a program runs on, as far as this one needs it: files, a clock, and lines to
print. A step that can fail answers with the machine's own words. -/

namespace Rungs

structure Host (m : Type → Type) where
  isPresent : Path → m Bool
  isFile : Path → m Bool
  /-- The names in a directory, in any order. -/
  names : Path → ExceptT String m (List String)
  read : Path → ExceptT String m ByteArray
  /-- Makes a directory and those above it that are missing. -/
  makeDirectories : Path → ExceptT String m Unit
  write : Path → ByteArray → ExceptT String m Unit
  remove : Path → ExceptT String m Unit
  rename : Path → Path → ExceptT String m Unit
  /-- The time as text. -/
  now : m String
  print : String → m Unit
  /-- Tells the operator something that is not part of the results. -/
  log : String → m Unit

namespace Host

variable {m : Type → Type} [Monad m] (host : Host m)

/-- Replaces a file as a whole: the bytes go to a temporary file beside it, which then takes the
place of the old one. -/
def replace (path : Path) (bytes : ByteArray) : ExceptT String m Unit := do
  host.makeDirectories path.parent
  let temporary := path.withExtension "tmp"
  host.write temporary bytes
  if ← host.isPresent path then
    host.remove path
  host.rename temporary path

def readText (path : Path) : ExceptT String m String := do
  match String.fromUTF8? (← host.read path) with
  | some text => return text
  | none => throw "stream did not contain valid UTF-8"

def printAll (lines : List String) : m Unit := lines.forM host.print

def logAll (lines : List String) : m Unit := lines.forM host.log

end Host

end Rungs
