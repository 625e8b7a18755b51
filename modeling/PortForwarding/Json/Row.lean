import PortForwarding.Json.Basic

/-! # Reading records

A record is written as an object or, just as well, as an array of its fields in
order of declaration. `row` brings both to one shape, the list of the fields'
values in order, `none` for a field that is not there. An object may carry further
members, but it may not say one of the known fields twice; an array may end early,
but it may not have more items than the record has fields.

The readers of single fields say what a missing one stands for: nothing
(`required`), a default (`defaulted`), or absence (`optional`, which takes a null
the same way).
-/

namespace PortForwarding.Json

def valuesOf (name : String) (members : List (String × Json)) : List Json :=
  (members.filter fun m => m.1 == name).map Prod.snd

/-- The fields of an object in the order of `names`; none if a field is
said twice. -/
def rowOfMembers (members : List (String × Json)) :
    List String → Option (List (Option Json))
  | [] => some []
  | name :: names =>
    match valuesOf name members with
    | [] => (rowOfMembers members names).map (none :: ·)
    | [value] => (rowOfMembers members names).map (some value :: ·)
    | _ => none

/-- The fields of an array, which are there as far as it goes; none if it
goes further. -/
def rowOfItems : List Json → List String → Option (List (Option Json))
  | [], names => some (names.map fun _ => none)
  | _ :: _, [] => none
  | item :: items, _ :: names => (rowOfItems items names).map (some item :: ·)

/-- The values of the fields `names` of a record. -/
def row (names : List String) : Json → Option (List (Option Json))
  | .obj members => rowOfMembers members names
  | .arr items => rowOfItems items names
  | _ => none

/-! ## Fields -/

def required {α : Type} (read : Json → Option α) : Option Json → Option α
  | some j => read j
  | none => none

/-- A field that has a value of its own where it is missing. -/
def defaulted {α : Type} (value : α) (read : Json → Option α) : Option Json → Option α
  | some j => read j
  | none => some value

/-- A field that may be absent; a null says so too. -/
def optional {α : Type} (read : Json → Option α) : Option Json → Option (Option α)
  | none => some none
  | some .null => some none
  | some j => (read j).map some

/-! ## Readers of values -/

/-- An integer from 0 up to, and without, `bound`. -/
def natBelow? (bound : Nat) (j : Json) : Option Nat :=
  j.nat?.filter (· < bound)

def word16? (j : Json) : Option UInt16 :=
  (j.natBelow? 65536).map UInt16.ofNat

def word32? (j : Json) : Option UInt32 :=
  (j.natBelow? 4294967296).map UInt32.ofNat

def listOf? {α : Type} (read : Json → Option α) : Json → Option (List α)
  | .arr items => items.mapM read
  | _ => none

/-- The name of a case: a string, or an object with that name alone over a null. -/
def caseName? : Json → Option String
  | .str s => some s
  | .obj [(s, .null)] => some s
  | _ => none

/-- One of finitely many values, by its name. -/
def caseOf? {α : Type} (name : α → String) (cases : List α) (j : Json) : Option α :=
  j.caseName?.bind fun s => cases.find? fun a => name a == s

end PortForwarding.Json
