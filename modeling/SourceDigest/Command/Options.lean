/-
Reading command lines: options, their values, and words.

A long option stands behind two hyphens, with its value behind an equals
sign or as the next argument. Short options stand behind one hyphen and
may share it; one that takes a value takes what is left of the argument or
the next one. A value that is an argument of its own does not start with a
hyphen, unless it is one. Behind `--` there are words only.

The first thing amiss ends the reading.
-/
import SourceDigest.Text.Basic

namespace SourceDigest

/-- An option that may be given. -/
structure OptionForm where
  long : String
  short : Option Char := none
  /-- Which values it takes; without this it takes none. -/
  value : Option (Text → Bool) := none
  /-- Whether it may be given more than once. -/
  repeatable : Bool := false

/-- Why a command line is not carried out. -/
inductive Refusal where
  /-- It makes no sense. -/
  | misuse
  /-- Help is asked for. -/
  | help
  /-- The version is asked for. -/
  | version
deriving DecidableEq, Repr

/-- The options and words of a command line so far, in order. -/
structure Given where
  options : List (String × Text) := []
  words : List Text := []
deriving DecidableEq, Repr

namespace Given

/-- The values of an option. -/
def values (g : Given) (long : String) : List Text :=
  (g.options.filter fun o => o.1 == long).map Prod.snd

/-- The value of an option that is given once. -/
def value? (g : Given) (long : String) : Option Text := (g.values long).head?

/-- Whether an option is given. -/
def has (g : Given) (long : String) : Bool := g.options.any fun o => o.1 == long

/-- Adds an option with its value. -/
def give (g : Given) (form : OptionForm) (value : Text) : Except Refusal Given :=
  if form.long = "help" then .error .help
  else if form.long = "version" then .error .version
  else if g.has form.long && !form.repeatable then .error .misuse
  else if form.value.any fun isValid => !isValid value then .error .misuse
  else .ok { g with options := g.options ++ [(form.long, value)] }

end Given

/-- An argument that starts with a hyphen and is not one. -/
def isOptionLike (argument : Text) : Bool := argument.head? == some '-' && argument ≠ ['-']

/-- What reading one argument leaves open: an option that waits for its
value, or nothing. -/
abbrev Reading := Except Refusal (Given × Option OptionForm)

/-- Reads a long option behind its hyphens. -/
def readLong (forms : List OptionForm) (g : Given) (t : Text) : Reading :=
  let name := Text.before '=' t
  let attached := if t.length = name.length then none else some (t.drop (name.length + 1))
  match forms.find? fun f => f.long.toList == name with
  | none => .error .misuse
  | some form =>
    match form.value, attached with
    | some _, some value => (g.give form value).map fun g => (g, none)
    | some _, none => .ok (g, some form)
    | none, some _ => .error .misuse
    | none, none => (g.give form []).map fun g => (g, none)

/-- Reads short options behind their hyphen. -/
def readShort (forms : List OptionForm) (g : Given) : Text → Reading
  | [] => .ok (g, none)
  | c :: rest =>
    match forms.find? fun f => f.short == some c with
    | none => .error .misuse
    | some form =>
      match form.value with
      | none =>
        match g.give form [] with
        | .ok g => readShort forms g rest
        | .error e => .error e
      | some _ =>
        match rest with
        | [] => .ok (g, some form)
        | '=' :: value => (g.give form value).map fun g => (g, none)
        | value => (g.give form value).map fun g => (g, none)

/-- Reads arguments up to the first word that is one too many, and gives
what is left from there. -/
def readArguments (forms : List OptionForm) (words : Nat) (g : Given)
    (waiting : Option OptionForm) : List Text → Except Refusal (Given × List Text)
  | [] => if waiting.isSome then .error .misuse else .ok (g, [])
  | argument :: rest =>
    match waiting with
    | some form =>
      if isOptionLike argument then .error .misuse
      else
        match g.give form argument with
        | .ok g => readArguments forms words g none rest
        | .error e => .error e
    | none =>
      let goOn : Reading → Except Refusal (Given × List Text)
        | .ok (g, waiting) => readArguments forms words g waiting rest
        | .error e => .error e
      if argument = ['-', '-'] then
        if rest.length ≤ words - g.words.length then
          .ok ({ g with words := g.words ++ rest }, [])
        else .error .misuse
      else if isOptionLike argument then
        match argument with
        | '-' :: '-' :: long => goOn (readLong forms g long)
        | _ => goOn (readShort forms g (argument.drop 1))
      else if g.words.length < words then
        readArguments forms words { g with words := g.words ++ [argument] } none rest
      else .ok (g, argument :: rest)

end SourceDigest
