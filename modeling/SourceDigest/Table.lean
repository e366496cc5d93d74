/-
Tables: values under texts, in the order of their keys.
-/
import SourceDigest.Text.Basic

namespace SourceDigest

/-- Values under keys. Every operation keeps the keys in strictly
ascending order. -/
abbrev Table (α : Type) := List (Text × α)

namespace Table

variable {α β : Type}

/-- A table of values serves as one of what they stand for. -/
instance [Coe α β] : Coe (Table α) (Table β) := ⟨List.map fun e => (e.1, Coe.coe e.2)⟩

/-- The value under a key. -/
def get? (t : Table α) (key : Text) : Option α := (t.find? fun e => e.1 == key).map Prod.snd

/-- Changes the value under a key, which may be missing before. -/
def alter (key : Text) (f : Option α → α) : Table α → Table α
  | [] => [(key, f none)]
  | e :: rest =>
    if e.1 = key then (key, f (some e.2)) :: rest
    else if Text.le key e.1 then (key, f none) :: e :: rest
    else e :: alter key f rest

/-- Puts a value under a key. -/
def put (key : Text) (value : α) (t : Table α) : Table α := alter key (fun _ => value) t

/-- The keys in order. -/
def keys (t : Table α) : List Text := t.map Prod.fst

end Table

end SourceDigest
