/-
The requests that a command line can make: to scan a repository or to
score it, with what is set for this one run.

Options for the configuration file and for talking more may stand before
the command as well as behind it; behind it wins.
-/
import SourceDigest.Command.Options
import SourceDigest.Data.Toml.Scalar
import SourceDigest.Output.Document
import SourceDigest.Settings.Datum

namespace SourceDigest

/-- Which files a request is about. -/
structure FilterOptions where
  path : Path := "."
  ignore : List Text := []
  includes : List Text := []
  noGitignore : Bool := false

structure ScanOptions where
  filter : FilterOptions
  output : Option Path := none
  format : DocumentFormat := .plain
  noSummary : Bool := false
  summaryThreshold : Option Nat := none
  entities : Option EntityMethod := none
  select : Bool := false
  threads : Option Nat := none
  sequential : Bool := false
  maxSize : Option Nat := none
  noProgress : Bool := false

structure ScoreOptions where
  filter : FilterOptions
  threshold : Option Double := none
  density : Option DensityMethod := none
  selectedOnly : Bool := false

inductive Command where
  | scan (o : ScanOptions)
  | score (o : ScoreOptions)

structure Request where
  config : Option Path := none
  verbose : Bool := false
  command : Command

namespace Request

-- ====================================================================== values

/-- A number that sixty-four bits hold; a plus may lead it. -/
def size? (t : Text) : Option Nat :=
  let digits := (Text.dropLead? ['+'] t).getD t
  if digits ≠ [] ∧ digits.all Char.isDigit then
    let n := Toml.ofDigits 10 digits
    if n < UInt64.size then some n else none
  else none

/-- The part of a number behind its whole digits: a fraction, which may be
empty when there were whole digits, and an exponent. -/
def numberBehind? (whole t : Text) : Option Double :=
  let fraction := if t.head? == some '.' then (t.drop 1).takeWhile Char.isDigit else []
  let behind := if t.head? == some '.' then (t.drop 1).dropWhile Char.isDigit else t
  if whole = [] ∧ fraction = [] then none
  else
    let scale (exponent : Int) : Double :=
      Toml.numberOf (whole ++ fraction) (exponent - fraction.length)
    match behind with
    | [] => some (scale 0)
    | e :: t =>
      let (minus, digits) := Toml.sign t
      if (e = 'e' ∨ e = 'E') ∧ digits ≠ [] ∧ digits.all Char.isDigit then
        let n : Int := Toml.ofDigits 10 digits
        some (scale (if minus then -n else n))
      else none

/-- A floating-point number. -/
def number? (t : Text) : Option Double :=
  let (minus, body) := Toml.sign t
  let size : Option Double :=
    match String.ofList (Text.lowerAscii body) with
    | "inf" | "infinity" => some .infinity
    | "nan" => some .nan
    | _ => numberBehind? (body.takeWhile Char.isDigit) (body.dropWhile Char.isDigit)
  size.map fun x => if minus then -x else x

/-- The formats by name. -/
def formats : List (String × DocumentFormat) := [("plain", .plain), ("json", .json)]

/-- The choice of a name. -/
def choice? {α : Type} (choices : List (String × α)) (t : Text) : Option α :=
  (choices.find? fun c => c.1.toList == t).map Prod.snd

-- ======================================================================= forms

def isPath (t : Text) : Bool := t ≠ []

def helpForms : List OptionForm := [
  { long := "help", short := some 'h' }, { long := "version", short := some 'V' }]

/-- Options that may stand anywhere. -/
def generalForms : List OptionForm := helpForms ++ [
  { long := "config", short := some 'c', value := some isPath },
  { long := "verbose", short := some 'v' }]

def filterForms : List OptionForm := [
  { long := "ignore", value := some fun _ => true, repeatable := true },
  { long := "include", value := some fun _ => true, repeatable := true },
  { long := "no-gitignore" }]

def scanForms : List OptionForm := generalForms ++ filterForms ++ [
  { long := "output", short := some 'o', value := some isPath },
  { long := "format", short := some 'f', value := some fun t => (choice? formats t).isSome },
  { long := "no-summary" },
  { long := "summary-threshold", value := some fun t => (size? t).isSome },
  { long := "ner", value := some fun t => (choice? EntityMethod.names t).isSome },
  { long := "select" },
  { long := "threads", short := some 'j', value := some fun t => (size? t).isSome },
  { long := "sequential" },
  { long := "max-size", value := some fun t => (size? t).isSome },
  { long := "no-progress" }]

def scoreForms : List OptionForm := generalForms ++ filterForms ++ [
  { long := "threshold", value := some fun t => (number? t).isSome },
  { long := "density", value := some fun t => (choice? DensityMethod.names t).isSome },
  { long := "selected" }]

-- ===================================================================== reading

def filterOf (g : Given) : FilterOptions where
  path := g.words.head?.getD "."
  ignore := g.values "ignore"
  includes := g.values "include"
  noGitignore := g.has "no-gitignore"

def scanOf (g : Given) : ScanOptions where
  filter := filterOf g
  output := g.value? "output"
  format := ((g.value? "format").bind (choice? formats)).getD .plain
  noSummary := g.has "no-summary"
  summaryThreshold := (g.value? "summary-threshold").bind size?
  entities := (g.value? "ner").bind (choice? EntityMethod.names)
  select := g.has "select"
  threads := (g.value? "threads").bind size?
  sequential := g.has "sequential"
  maxSize := (g.value? "max-size").bind size?
  noProgress := g.has "no-progress"

def scoreOf (g : Given) : ScoreOptions where
  filter := filterOf g
  threshold := (g.value? "threshold").bind number?
  density := (g.value? "density").bind (choice? DensityMethod.names)
  selectedOnly := g.has "selected"

/-- Reads the arguments behind the name of a command. A path is the only
word, and not an empty one. -/
def readCommand (forms : List OptionForm) (outer : Given) (make : Given → Command)
    (arguments : List Text) : Except Refusal Request :=
  match readArguments forms 1 {} none arguments with
  | .error e => .error e
  | .ok (_, _ :: _) => .error .misuse
  | .ok (g, []) =>
    if g.words.any fun w => !isPath w then .error .misuse
    else .ok {
      config := (g.value? "config").or (outer.value? "config")
      verbose := g.has "verbose" || outer.has "verbose"
      command := make g }

/-- What asking for help on some commands comes to. -/
def refusalOfHelp : List Text → Refusal
  | [] => .help
  | [name] =>
    if (["scan", "score", "help"] : List String).any fun n => n.toList == name then .help
    else .misuse
  | _ => .misuse

/-- The request that some arguments make. -/
def ofArguments (arguments : List Text) : Except Refusal Request :=
  match readArguments generalForms 0 {} none arguments with
  | .error e => .error e
  | .ok (_, []) => .error .misuse
  | .ok (outer, name :: rest) =>
    match String.ofList name with
    | "scan" => readCommand scanForms outer (fun g => .scan (scanOf g)) rest
    | "score" => readCommand scoreForms outer (fun g => .score (scoreOf g)) rest
    | "help" => .error (refusalOfHelp rest)
    | _ => .error .misuse

end Request

end SourceDigest
