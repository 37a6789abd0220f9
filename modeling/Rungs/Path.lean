/-! Paths as they are written: the segments between slashes, kept one by one so that a path has the
text that it was given. The empty path has no segments; a path from the root begins with an empty
segment. -/

namespace Rungs

structure Path where
  segments : List String
deriving DecidableEq, Repr, Inhabited

namespace Path

/-- The characters between slashes; there is always a last segment. -/
def split : List Char → List (List Char)
  | [] => [[]]
  | c :: cs =>
    if c = '/' then [] :: split cs
    else match split cs with
      | segment :: rest => (c :: segment) :: rest
      | [] => [[c]]

def ofText (text : String) : Path :=
  ⟨if text.isEmpty then [] else (split text.toList).map String.ofList⟩

def textChars : List String → List Char
  | [] => []
  | [last] => last.toList
  | first :: rest => first.toList ++ '/' :: textChars rest

def text (p : Path) : String := String.ofList (textChars p.segments)

/-- The path of a name inside this directory. -/
def join (p : Path) (name : String) : Path :=
  ⟨if p.segments.getLast? = some "" then p.segments.dropLast ++ [name] else p.segments ++ [name]⟩

/-- A segment that stays where it is. -/
def isIdle (segment : String) : Bool := segment == "" || segment == "."

/-- Without the idle segments at the end. -/
def trimmed (segments : List String) : List String :=
  (segments.reverse.dropWhile isIdle).reverse

/-- The last segment, if it is a name. -/
def fileName? (p : Path) : Option String :=
  match (trimmed p.segments).getLast? with
  | some name => if name = ".." then none else some name
  | none => none

/-- The directory that the last segment is in. -/
def parent (p : Path) : Path := ⟨trimmed (trimmed p.segments).dropLast⟩

/-- What stands before and after the last dot. -/
def atLastDot : List Char → Option (List Char × List Char)
  | [] => none
  | c :: cs =>
    match atLastDot cs with
    | some (stem, extension) => some (c :: stem, extension)
    | none => if c = '.' then some ([], cs) else none

/-- A file name and its extension. A dot at the very beginning does not start an extension. -/
def stemAndExtension (name : String) : String × Option String :=
  match atLastDot name.toList with
  | some (c :: stem, extension) => (String.ofList (c :: stem), some (String.ofList extension))
  | _ => (name, none)

def stem (name : String) : String := (stemAndExtension name).1

def extension? (name : String) : Option String := (stemAndExtension name).2

/-- Puts another extension at the end of the file name; a path without a file name stays. -/
def withExtension (p : Path) (extension : String) : Path :=
  match p.fileName? with
  | some name => ⟨(trimmed p.segments).dropLast ++ [stem name ++ "." ++ extension]⟩
  | none => p

theorem fileName?_join {p : Path} {name : String} (h : isIdle name = false) (up : name ≠ "..") :
    (p.join name).fileName? = some name := by
  have key (segments : List String) : (trimmed (segments ++ [name])).getLast? = some name := by
    simp [trimmed, h]
  have : (trimmed (p.join name).segments).getLast? = some name := by
    unfold join
    split <;> exact key _
  simp [fileName?, this, up]

end Path

end Rungs
