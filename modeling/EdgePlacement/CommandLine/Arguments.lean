import EdgePlacement.Decimal.Numeral
import EdgePlacement.Settings

/-!
# Command-line arguments

An option may be cut to any beginning of its name that no other option shares, and its value may
stand behind an equals sign or be the next argument. A next argument that looks like an option is no
value, unless it is a negative number or holds a blank. An option that is given again replaces what
was given before. Arguments that belong to no option are refused.
-/

namespace EdgePlacement.CommandLine

open EdgePlacement.Decimal EdgePlacement.Text

inductive Switch where
  | help
  | dataset
  | seed
  | backend
  | pathWeight
  | tolerance
  | exportFolder
  | verbose
  deriving DecidableEq

namespace Switch

def all : List Switch :=
  [help, dataset, seed, backend, pathWeight, tolerance, exportFolder, verbose]

def name : Switch → String
  | help => "--help"
  | dataset => "--dataset"
  | seed => "--seed"
  | backend => "--backend"
  | pathWeight => "--path-weight"
  | tolerance => "--eps"
  | exportFolder => "--csv-out"
  | verbose => "--verbose"

def ofName? (name : String) : Option Switch :=
  all.find? fun s => s.name = name

def beginningWith (start : List Char) : List Switch :=
  all.filter fun s => start.isPrefixOf s.name.toList

end Switch

inductive Argument where
  | option (switch : Switch) (value : Option String)
  | plain (text : String)
  | divider
  | unknown
  | spoiled
  | ambiguous
  deriving DecidableEq

namespace Argument

def isNumeric (s : List Char) : Bool :=
  s.all fun c => (digitValue? c).isSome

def isNegativeNumber : List Char → Bool
  | '-' :: rest =>
    let rest := if rest.getLast? = some '\n' then rest.dropLast else rest
    let whole := rest.takeWhile (· ≠ '.')
    match rest.dropWhile (· ≠ '.') with
    | [] => !whole.isEmpty && isNumeric whole
    | _ :: fraction => isNumeric whole && !fraction.isEmpty && isNumeric fraction
  | _ => false

/-- The part before the first equals sign, and the value behind it if there is one. -/
def splitValue (s : List Char) : List Char × Option String :=
  match s.dropWhile (· ≠ '=') with
  | [] => (s, none)
  | _ :: value => (s.takeWhile (· ≠ '='), some (String.ofList value))

/-- Help in its short form may be asked for several times at once. What follows does not matter, for
help comes first, unless it reads as a value of the option. -/
def ofShortHelp (tail : List Char) : Argument :=
  match tail.dropWhile (· = 'h') with
  | '=' :: _ | '-' :: _ => spoiled
  | _ => option .help none

def ofDashed (s : String) : Argument :=
  if isNegativeNumber s.toList || s.toList.contains ' ' then plain s else unknown

def ofLong (s : String) : Argument :=
  match Switch.ofName? s with
  | some switch => option switch none
  | none =>
    let (start, value) := splitValue s.toList
    match value.bind fun _ => Switch.ofName? (String.ofList start) with
    | some switch => option switch value
    | none =>
      match Switch.beginningWith start with
      | [] => ofDashed s
      | [switch] => option switch value
      | _ => ambiguous

def ofText (s : String) : Argument :=
  match s.toList with
  | ['-', '-'] => divider
  | '-' :: '-' :: _ => ofLong s
  | '-' :: 'h' :: tail => ofShortHelp tail
  | '-' :: _ :: _ => ofDashed s
  | _ => plain s

def ofTexts : List String → List Argument
  | [] => []
  | s :: rest =>
    match ofText s with
    | divider => divider :: rest.map plain
    | argument => argument :: ofTexts rest

end Argument

structure Request where
  dataset : Option String
  seed : Int
  backend : Backend
  pathWeight : PathWeight
  tolerance : Float
  exportFolder : Option String
  verbose : Bool
  hasStray : Bool

inductive Answer where
  | help
  | refused
  | accepted (dataset : String) (request : Request)

namespace Request

def start : Request where
  dataset := none
  seed := 42
  backend := .highs
  pathWeight := .latency
  tolerance := 1e-6
  exportFolder := none
  verbose := false
  hasStray := false

/-- The request with the value of one option; none when the option cannot have it. -/
def set? (request : Request) (value : String) : Switch → Option Request
  | .dataset => some { request with dataset := some value }
  | .seed => (Numeral.readWhole? value).map fun seed => { request with seed }
  | .backend => (Backend.ofName? value).map fun backend => { request with backend }
  | .pathWeight => (PathWeight.ofName? value).map fun pathWeight => { request with pathWeight }
  | .tolerance =>
    (Numeral.read? value).map fun numeral => { request with tolerance := numeral.toFloat }
  | .exportFolder => some { request with exportFolder := some value }
  | .help | .verbose => none

def stray (request : Request) : Request :=
  { request with hasStray := true }

/-- Strays and a missing dataset are found out at the end; all else where it stands. -/
def read (request : Request) : List Argument → Answer
  | [] =>
    match request.dataset with
    | some dataset => if request.hasStray then .refused else .accepted dataset request
    | none => .refused
  | .option .help none :: _ => .help
  | .option .verbose none :: rest => { request with verbose := true }.read rest
  | .option switch (some value) :: rest
  | .option switch none :: .plain value :: rest =>
    match request.set? value switch with
    | some request => request.read rest
    | none => .refused
  | .plain _ :: rest | .divider :: rest | .unknown :: rest => request.stray.read rest
  | .option _ none :: _ | .spoiled :: _ | .ambiguous :: _ => .refused

end Request

/-- An ambiguous argument spoils all the others. -/
def readArguments (arguments : List String) : Answer :=
  let arguments := Argument.ofTexts arguments
  if arguments.contains .ambiguous then .refused else Request.start.read arguments

end EdgePlacement.CommandLine
