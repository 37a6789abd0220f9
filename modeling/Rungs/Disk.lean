import Rungs.Host

/-! Files and directories in memory. Every place is known by the names on the way to it from the
root, which is always a directory. Paths lead from the current directory, or from the root if they
begin with a slash. -/

namespace Rungs

abbrev Place := List String

inductive Entry where
  | file (bytes : ByteArray)
  | directory
deriving Inhabited

structure Disk where
  entries : List (Place × Entry) := []
  current : Place := []
deriving Inhabited

namespace Disk

def get? (d : Disk) (place : Place) : Option Entry :=
  if place = [] then some .directory else d.entries.lookup place

def erase (d : Disk) (place : Place) : Disk :=
  { d with entries := d.entries.filter (·.1 != place) }

def put (d : Disk) (place : Place) (entry : Entry) : Disk :=
  { d with entries := (place, entry) :: (d.erase place).entries }

theorem lookup_erase (d : Disk) (a b : Place) :
    (d.erase a).entries.lookup b = if b = a then none else d.entries.lookup b := by
  unfold erase
  induction d.entries with
  | nil => simp
  | cons e es ih => grind

theorem get?_erase (d : Disk) {a b : Place} (h : a ≠ []) :
    (d.erase a).get? b = if b = a then none else d.get? b := by
  grind [get?, lookup_erase]

theorem get?_put (d : Disk) {a b : Place} (entry : Entry) (h : a ≠ []) :
    (d.put a entry).get? b = if b = a then some entry else d.get? b := by
  simp only [get?, put, List.lookup_cons, lookup_erase]
  grind

def isDirectory (d : Disk) (place : Place) : Bool :=
  match d.get? place with
  | some .directory => true
  | _ => false

/-- Names are of limited length. -/
def isName (segment : String) : Bool := segment.utf8ByteSize ≤ 255

/-- Paths are of limited length too, however far they lead, and without the character that ends a
text. -/
def isPath (p : Path) : Bool :=
  p.text.utf8ByteSize < 4096 && !p.text.toList.contains '\x00'

/-- Where a segment leads from a directory. -/
def step (here : Place) (segment : String) : Place :=
  if Path.isIdle segment then here
  else if segment = ".." then here.dropLast
  else here ++ [segment]

/-- Follows segments. Each of them needs a directory to start from, also one that stays in it. -/
def walk (d : Disk) (here : Place) : List String → Option Place
  | [] => some here
  | segment :: rest => if d.isDirectory here then d.walk (step here segment) rest else none

/-- Where a path leads from. -/
def origin (d : Disk) (p : Path) : Place :=
  if p.segments.head? = some "" then [] else d.current

/-- The place of a path, which may be free. -/
def place? (d : Disk) (p : Path) : Option Place :=
  if p.segments ≠ [] ∧ isPath p ∧ p.segments.all isName then d.walk (d.origin p) p.segments
  else none

def find? (d : Disk) (p : Path) : Option Entry := (d.place? p).bind d.get?

def isFile (d : Disk) (p : Path) : Bool :=
  match d.find? p with
  | some (.file _) => true
  | _ => false

/-- The name of a place that lies directly in a directory. -/
def nameIn (directory place : Place) : Option String :=
  if place.dropLast = directory then place.getLast? else none

def missing : String := "No such file or directory (os error 2)"
def notDirectory : String := "Not a directory (os error 20)"
def nameTooLong : String := "File name too long (os error 36)"
def invalidPath : String := "Invalid argument (os error 22)"
def isADirectory : String := "Is a directory (os error 21)"

def names (d : Disk) (p : Path) : Except String (List String) :=
  match d.place? p with
  | none => .error missing
  | some place =>
    match d.get? place with
    | some .directory => .ok (d.entries.filterMap fun e => nameIn place e.1)
    | some (.file _) => .error notDirectory
    | none => .error missing

def read (d : Disk) (p : Path) : Except String ByteArray :=
  match d.find? p with
  | some (.file bytes) => .ok bytes
  | some .directory => .error isADirectory
  | none => .error missing

/-- Makes the directories on the way along some segments. What was made before a failure stays. -/
def makeWay (d : Disk) (here : Place) : List String → Except String Unit × Disk
  | [] => (.ok (), d)
  | segment :: rest =>
    let there := step here segment
    if isName segment then
      match d.get? there with
      | some .directory => d.makeWay there rest
      | some (.file _) => (.error notDirectory, d)
      | none => (d.put there .directory).makeWay there rest
    else (.error nameTooLong, d)

def makeDirectories (d : Disk) (p : Path) : Except String Unit × Disk :=
  if isPath p then d.makeWay (d.origin p) p.segments else (.error invalidPath, d)

def write (d : Disk) (p : Path) (bytes : ByteArray) : Except String Unit × Disk :=
  match d.place? p with
  | none => (.error missing, d)
  | some place =>
    if d.isDirectory place then (.error isADirectory, d)
    else (.ok (), d.put place (.file bytes))

def remove (d : Disk) (p : Path) : Except String Unit × Disk :=
  match d.place? p with
  | none => (.error missing, d)
  | some place =>
    match d.get? place with
    | some (.file _) => (.ok (), d.erase place)
    | some .directory => (.error isADirectory, d)
    | none => (.error missing, d)

/-- Moves a file, over another one if there is one. -/
def rename (d : Disk) (source target : Path) : Except String Unit × Disk :=
  match d.place? source, d.place? target with
  | some a, some b =>
    match d.get? a with
    | some (.file bytes) =>
      if d.isDirectory b then (.error isADirectory, d)
      else (.ok (), (d.erase a).put b (.file bytes))
    | some .directory => (.error isADirectory, d)
    | none => (.error missing, d)
  | _, _ => (.error missing, d)

/-- The files below the current directory, with their paths from there. -/
def files (d : Disk) : List (Path × ByteArray) :=
  d.entries.filterMap fun
    | (place, .file bytes) =>
      if d.current.isPrefixOf place then some (⟨place.drop d.current.length⟩, bytes) else none
    | (_, .directory) => none

end Disk

/-- A machine in memory. Its clock stands still. -/
structure Machine where
  disk : Disk := {}
  clock : String := ""
  printed : List String := []
  logged : List String := []
deriving Inhabited

namespace Machine

/-- A step that changes the disk, also when it fails. -/
def onDisk {α : Type} (step : Disk → Except String α × Disk) : ExceptT String (StateM Machine) α :=
  .mk fun machine =>
    let (result, disk) := step machine.disk
    (result, { machine with disk })

/-- A step that only looks at the disk. -/
def fromDisk {α : Type} (look : Disk → α) : StateM Machine α := fun machine =>
  (look machine.disk, machine)

def host : Host (StateM Machine) where
  isPresent p := fromDisk fun d => (d.find? p).isSome
  isFile p := fromDisk fun d => d.isFile p
  names p := .mk (fromDisk fun d => d.names p)
  read p := .mk (fromDisk fun d => d.read p)
  makeDirectories p := onDisk fun d => d.makeDirectories p
  write p bytes := onDisk fun d => d.write p bytes
  remove p := onDisk fun d => d.remove p
  rename source target := onDisk fun d => d.rename source target
  now := fun machine => (machine.clock, machine)
  print line := fun machine => ((), { machine with printed := machine.printed ++ [line] })
  log line := fun machine => ((), { machine with logged := machine.logged ++ [line] })

end Machine

end Rungs
