/-
Data: the values that settings are read from and that reports are written
as, whatever text they have.

A table holds named values in an order of its own. A moment stands for a
date or a time of day; nothing here asks which.
-/
import SourceDigest.Data.Double
import SourceDigest.Text.Basic

namespace SourceDigest

/-- A value of a data document. -/
inductive Datum where
  | null
  | flag (b : Bool)
  | integer (n : Int)
  | number (x : Double)
  | text (t : Text)
  | moment
  | list (items : List Datum)
  | table (fields : List (Text × Datum))
deriving Inhabited

namespace Datum

/-- A table whose names are written out. -/
def object (fields : List (String × Datum)) : Datum :=
  table (fields.map fun f => (f.1.toList, f.2))

def nat (n : Nat) : Datum := integer n

def texts (ts : List Text) : Datum := list (ts.map text)

-- ==================================================================== reading

def toFlag? : Datum → Option Bool
  | flag b => some b
  | _ => none

def toText? : Datum → Option Text
  | text t => some t
  | _ => none

/-- A size is an integer from zero up to what sixty-four bits hold. -/
def toSize? : Datum → Option Nat
  | integer n => if 0 ≤ n ∧ n < UInt64.size then some n.toNat else none
  | _ => none

/-- An integer serves as a number, too. -/
def toNumber? : Datum → Option Double
  | number x => some x
  | integer n => some (Double.ofInt n)
  | _ => none

def toTexts? : Datum → Option (List Text)
  | list items => items.mapM toText?
  | _ => none

/-- What may be left out, by `null`. -/
def toOptional? {α : Type} (read : Datum → Option α) : Datum → Option (Option α)
  | null => some none
  | d => (read d).map some

/-- Whether a value holds nothing. -/
def isEmpty : Datum → Bool
  | list items => items.isEmpty
  | table fields => fields.isEmpty
  | _ => false

/-- One of some choices, by name: as a text, or as the only name in a table,
with nothing in it. -/
def toChoice? {α : Type} (choices : List (String × α)) (d : Datum) : Option α :=
  let named (name : Text) : Option α :=
    (choices.find? fun c => c.1.toList == name).map Prod.snd
  match d with
  | text t => named t
  | table [(name, value)] => if value.isEmpty then named name else none
  | _ => none

/-- A field of a record. A table gives fields by name and a list by place;
a field that is not given has its default. A moment is a record that gives
none of the fields asked for. -/
def field {α : Type} (d : Datum) (place : Nat) (name : String) (read : Datum → Option α)
    (default : α) : Option α :=
  match d with
  | table fields =>
    match fields.lookup name.toList with
    | some value => read value
    | none => some default
  | list items =>
    match items[place]? with
    | some value => read value
    | none => some default
  | moment => some default
  | _ => none

end Datum

end SourceDigest
