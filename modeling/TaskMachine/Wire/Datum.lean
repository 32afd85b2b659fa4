/-
Data as other programs exchange it: nothing, truth values, numbers, texts,
lists and records. A number is whole or it is not, by the way it is written;
of one that is not, nothing here ever asks for more.
-/

namespace TaskMachine

/-- A datum. -/
inductive Datum where
  | nothing
  | truth (truth : Bool)
  /-- A number written without a point or an exponent. -/
  | whole (number : Int)
  /-- Any other number. -/
  | fraction
  | text (text : String)
  | list (items : List Datum)
  /-- Named fields, no two of one name. -/
  | record (fields : List (String × Datum))
  deriving Inhabited

namespace Datum

/-- A whole number below a bound. -/
def natBelow? (bound : Nat) : Datum → Option Nat
  | .whole number => if 0 ≤ number ∧ number < bound then some number.toNat else none
  | _ => none

/-- A choice among named cases: the name and, if the case carries something, what it carries.
It is written as the name alone or as a record whose one field has the name. -/
def case? : Datum → Option (String × Option Datum)
  | .text name => some (name, none)
  | .record [(name, content)] => some (name, some content)
  | _ => none

/-- The name of a case that carries nothing. What may stand with the name is nothing. -/
def bareCase? (datum : Datum) : Option String :=
  match datum.case? with
  | some (name, none) => some name
  | some (name, some .nothing) => some name
  | _ => none

/-- The field of a record with a given name. -/
def field? (name : String) : Datum → Option Datum
  | .record fields => fields.lookup name
  | _ => none

end Datum

end TaskMachine
