/-! # JSON values

A JSON document as a value. Members of an object keep their order and may repeat, as
in the text they came from. Integers have no bound.

Some literals are well formed and yet nothing here ever reads them: a number with a
fraction or an exponent (and `-0`), a string that holds half of a surrogate pair, an
object with such a name. All of these are `unread`; a record may carry them in
a member it does not know, and nowhere else.
-/

namespace PortForwarding

/-- A JSON value. -/
inductive Json where
  | null
  | bool (value : Bool)
  | int (value : Int)
  | str (text : String)
  | arr (items : List Json)
  | obj (members : List (String × Json))
  | unread
  deriving BEq, Repr, Inhabited

namespace Json

/-! ## Members -/

/-- The members of an object; none for any other value. -/
def members : Json → List (String × Json)
  | .obj ms => ms
  | _ => []

/-- The value of the first member called `name`. -/
def member? (name : String) (j : Json) : Option Json :=
  (j.members.find? fun m => m.1 == name).map Prod.snd

/-- The value of a member, where a missing one and a null are the same. -/
def present? (name : String) (j : Json) : Option Json :=
  match j.member? name with
  | some .null => none
  | v => v

/-- The value reached by following `path` through nested objects. -/
def at? : List String → Json → Option Json
  | [], j => some j
  | name :: path, j => (j.present? name).bind (at? path)

/-! ## Scalars and arrays -/

def text? : Json → Option String
  | .str s => some s
  | _ => none

def int? : Json → Option Int
  | .int n => some n
  | _ => none

/-- The value of an integer that is not negative. -/
def nat? : Json → Option Nat
  | .int (.ofNat n) => some n
  | _ => none

def bool? : Json → Option Bool
  | .bool b => some b
  | _ => none

def items? : Json → Option (List Json)
  | .arr js => some js
  | _ => none

/-! ## Building -/

def nat (n : Nat) : Json :=
  .int (Int.ofNat n)

def orNull : Option Json → Json
  | some j => j
  | none => .null

def texts (ss : List String) : Json :=
  .arr (ss.map .str)

/-! ## Merge patches

A merge patch describes a change to a document: an object changes the members it
names, a null removes one, and any other value replaces what was there. -/

/-- The members with the value of `name` replaced, or added at the end. -/
def setMember (name : String) (value : Json) :
    List (String × Json) → List (String × Json)
  | [] => [(name, value)]
  | m :: ms => if m.1 = name then (name, value) :: ms else m :: setMember name value ms

def dropMember (name : String) (ms : List (String × Json)) : List (String × Json) :=
  ms.filter fun m => decide (m.1 ≠ name)

mutual

/-- The document `target` after the merge patch. -/
def merge (target : Json) : Json → Json
  | .obj changes => .obj (mergeMembers target.members changes)
  | patch => patch

/-- The members `ms` after the changes of a patch object. -/
def mergeMembers (ms : List (String × Json)) :
    List (String × Json) → List (String × Json)
  | [] => ms
  | (name, .null) :: changes => mergeMembers (dropMember name ms) changes
  | (name, change) :: changes =>
    let old := ((ms.find? fun m => m.1 == name).map Prod.snd).getD .null
    mergeMembers (setMember name (merge old change) ms) changes

end

end Json

end PortForwarding
