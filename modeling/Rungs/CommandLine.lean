import Rungs.Path

/-! The command line: a path of snapshots, the settings to use, where to export to, and in which
form to print diagnostics. Arguments are taken from left to right; the first that cannot be used, or
a request for help, ends it. -/

namespace Rungs

structure CommandLine where
  path : Path
  settings : Path
  out : Option Path
  asJson : Bool
  isVerbose : Bool
deriving DecidableEq, Repr, Inhabited

namespace CommandLine

/-- Why there is nothing to run. -/
inductive Stop where
  | help
  | misuse
deriving DecidableEq, Repr, Inhabited

def Stop.exitCode : Stop → UInt32
  | help => 0
  | misuse => 2

inductive Slot where
  | path
  | settings
  | out
deriving DecidableEq, Repr, Inhabited

/-- What the arguments so far have said. -/
structure Progress where
  path : Option String := none
  settings : Option String := none
  out : Option String := none
  asJson : Bool := false
  isVerbose : Bool := false
  /-- An option that still needs its value. -/
  awaiting : Option Slot := none
  /-- Whether what follows is free of options. -/
  isPlain : Bool := false
deriving DecidableEq, Repr, Inhabited

namespace Progress

/-- A value that may be given once and not be empty. -/
def once (old : Option String) (value : String) : Except Stop (Option String) :=
  if old.isSome || value.isEmpty then .error .misuse else .ok (some value)

def fill (p : Progress) (slot : Slot) (value : String) : Except Stop Progress :=
  let p := { p with awaiting := none }
  match slot with
  | .path => return { p with path := ← once p.path value }
  | .settings => return { p with settings := ← once p.settings value }
  | .out => return { p with out := ← once p.out value }

def json (p : Progress) : Except Stop Progress :=
  if p.asJson then .error .misuse else .ok { p with asJson := true }

def verbose (p : Progress) : Except Stop Progress :=
  if p.isVerbose then .error .misuse else .ok { p with isVerbose := true }

/-- An option with its value, or one whose value comes next. -/
def option (p : Progress) (slot : Slot) (value : Option String) : Except Stop Progress :=
  match value with
  | some value => p.fill slot value
  | none => .ok { p with awaiting := some slot }

/-- What follows two dashes. -/
def long (p : Progress) (text : List Char) : Except Stop Progress :=
  let value :=
    match text.dropWhile (· != '=') with
    | _ :: value => some (String.ofList value)
    | [] => none
  match String.ofList (text.takeWhile (· != '=')), value with
  | "settings", value => p.option .settings value
  | "out", value => p.option .out value
  | "json", none => p.json
  | "verbose", none => p.verbose
  | "help", none => .error .help
  | _, _ => .error .misuse

/-- What follows the letter of an option. -/
def attached : List Char → Option String
  | [] => none
  | '=' :: value => some (String.ofList value)
  | value => some (String.ofList value)

/-- What follows one dash: letters, of which one that needs a value takes the rest. -/
def short (p : Progress) : List Char → Except Stop Progress
  | [] => .ok p
  | 's' :: rest => p.option .settings (attached rest)
  | 'o' :: rest => p.option .out (attached rest)
  | 'v' :: rest => do (← p.verbose).short rest
  | 'h' :: _ => .error .help
  | _ :: _ => .error .misuse

def take (p : Progress) (argument : String) : Except Stop Progress :=
  if p.isPlain then p.fill .path argument
  else
    match argument.toList, p.awaiting with
    | '-' :: _ :: _, some _ => .error .misuse
    | ['-', '-'], none => .ok { p with isPlain := true }
    | '-' :: '-' :: text, none => p.long text
    | '-' :: c :: rest, none => p.short (c :: rest)
    | _, some slot => p.fill slot argument
    | _, none => p.fill .path argument

end Progress

def defaultSettings : String := "ladder_settings.json"

def parse (arguments : List String) : Except Stop CommandLine := do
  let p ← arguments.foldlM Progress.take {}
  match p.path, p.awaiting with
  | some path, none =>
    return ⟨.ofText path, .ofText (p.settings.getD defaultSettings), p.out.map .ofText, p.asJson,
      p.isVerbose⟩
  | _, _ => throw .misuse

end CommandLine

end Rungs
