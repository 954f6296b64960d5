import RobotConsole.Json.Value
import RobotConsole.Text.Quoted

/-!
# Fitting JSON values into records

A schema lists the fields of a record in order.  A record may come as an object, whose members are
taken in ascending order of their keys, or as an array of the fields' values in the order of the
schema.  Fields that are absent keep their defaults, members that name no field are passed over, and
a field that is named twice, by its own name and by another name for it, is refused.
-/

set_option autoImplicit false

namespace RobotConsole.Report

inductive Found where
  | null
  | boolean (truth : Bool)
  | integer (number : Int)
  | double (number : Double)
  | string (text : String)
  | sequence
  | map
  deriving DecidableEq, Repr

inductive Misfit where
  | wrongType (found : Found) (expected : String)
  | outOfRange (number : Int) (expected : String)
  | repeated (field : String)
  | tooLong (length : Nat)
  deriving DecidableEq, Repr

def Found.of : Json → Found
  | .null => .null
  | .boolean truth => .boolean truth
  | .integer number => .integer number
  | .double number => .double number
  | .string text => .string text
  | .array _ => .sequence
  | .object _ => .map

def Found.message : Found → String
  | .null => "null"
  | .boolean truth => "boolean \x60" ++ (if truth then "true" else "false") ++ "\x60"
  | .integer number => "integer \x60" ++ Text.intText number ++ "\x60"
  | .double number => "floating point \x60" ++ number.text ++ "\x60"
  | .string text => "string " ++ Text.quote text
  | .sequence => "sequence"
  | .map => "map"

def Misfit.message : Misfit → String
  | .wrongType found expected => "invalid type: " ++ found.message ++ ", expected " ++ expected
  | .outOfRange number expected =>
      "invalid value: integer \x60" ++ Text.intText number ++ "\x60, expected " ++ expected
  | .repeated field => "duplicate field \x60" ++ field ++ "\x60"
  | .tooLong length => "invalid length " ++ Text.natText length ++
      ", expected fewer elements in array"

abbrev Fit (α : Type) := Json → Except Misfit α

def wrongType {α : Type} (value : Json) (expected : String) : Except Misfit α :=
  .error (.wrongType (Found.of value) expected)

def fitText : Fit String
  | .string text => .ok text
  | value => wrongType value "a string"

/-- A whole number from `low` to `high`; `expected` names the range. -/
def fitInteger (expected : String) (low high : Int) : Fit Int
  | .integer number =>
      if low ≤ number ∧ number ≤ high then .ok number else .error (.outOfRange number expected)
  | value => wrongType value expected

def fitLong : Fit Int :=
  fitInteger "i64" (-0x8000000000000000) 0x7FFFFFFFFFFFFFFF

def fitCount : Fit Nat := fun value =>
  match fitInteger "u32" 0 0xFFFFFFFF value with
  | .ok number => .ok number.toNat
  | .error misfit => .error misfit

def fitOptional {α : Type} (fit : Fit α) : Fit (Option α)
  | .null => .ok none
  | value =>
      match fit value with
      | .ok found => .ok (some found)
      | .error misfit => .error misfit

def fitItems {α : Type} (fit : Fit α) : List Json → Except Misfit (List α)
  | [] => .ok []
  | item :: rest =>
      match fit item with
      | .error misfit => .error misfit
      | .ok found =>
          match fitItems fit rest with
          | .error misfit => .error misfit
          | .ok others => .ok (found :: others)

def fitList {α : Type} (fit : Fit α) : Fit (List α)
  | .array items => fitItems fit items
  | value => wrongType value "a sequence"

structure Field (Record : Type) where
  name : String
  otherNames : List String
  fill : Json → Record → Except Misfit Record

def Field.of {Record α : Type} (name : String) (fit : Fit α) (put : α → Record → Record)
    (otherNames : List String) : Field Record :=
  ⟨name, otherNames, fun value record =>
    match fit value with
    | .ok found => .ok (put found record)
    | .error misfit => .error misfit⟩

def Field.isNamed {Record : Type} (field : Field Record) (key : String) : Bool :=
  key == field.name || field.otherNames.contains key

structure Schema (Record : Type) where
  name : String
  fields : List (Field Record)
  default : Record

namespace Schema

variable {Record : Type}

def field? (schema : Schema Record) (key : String) : Option (Field Record) :=
  schema.fields.find? fun field => field.isNamed key

/-- Takes the members of an object one by one; `filled` holds the names of the fields taken so
far. -/
def fillMembers (schema : Schema Record) :
    List String → List (String × Json) → Record → Except Misfit Record
  | _, [], record => .ok record
  | filled, (key, value) :: rest, record =>
      match schema.field? key with
      | none => fillMembers schema filled rest record
      | some field =>
          if filled.contains field.name then .error (.repeated field.name)
          else
            match field.fill value record with
            | .error misfit => .error misfit
            | .ok record => fillMembers schema (field.name :: filled) rest record

/-- Takes values for the fields in order; `length` is that of the whole array. -/
def fillItems (length : Nat) : List (Field Record) → List Json → Record → Except Misfit Record
  | _, [], record => .ok record
  | [], _ :: _, _ => .error (.tooLong length)
  | field :: fields, value :: rest, record =>
      match field.fill value record with
      | .error misfit => .error misfit
      | .ok record => fillItems length fields rest record

def fit (schema : Schema Record) : Fit Record
  | .object members => fillMembers schema [] members schema.default
  | .array items => fillItems items.length schema.fields items schema.default
  | value => wrongType value ("struct " ++ schema.name)

end Schema

end RobotConsole.Report
