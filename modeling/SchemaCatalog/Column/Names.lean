/-
  The names in a schema, and schemas whose names differ.

  Schemas are made by the library of the engine, not by the catalog.  What is assumed of it is this.  Every
  field of a schema has a full name: its own name behind the full name of what holds it, with a dot between
  the two.  Records hold the fields listed in them.  A list holds a field `element`, a map holds `key` and
  `value`; the numbers of these three are fixed.  A schema is refused if and only if two of its fields have
  one full name, so a field inside a record can be in the way of one outside of it.

  What is held comes before its holder, so of two fields with one name the first in that order counts as
  the one that has the name.
-/
import SchemaCatalog.Failure
import SchemaCatalog.Text.Cut

namespace SchemaCatalog

open Text (Points Spelled)

/-- A field's full name and its number. -/
structure FullName where
  name : Points
  id : Int

/-- The full name of a field, given the names of what it lies in. -/
def FullName.under (holders : List Points) (name : Points) (id : Int) : FullName :=
  ⟨Text.glued (.char '.') (holders ++ [name]), id⟩

mutual

/-- The full names inside a type. -/
def FieldType.namesIn (holders : List Points) : FieldType → List FullName
  | .list element =>
    namesIn (holders ++ [("element" : Points)]) element ++ [.under holders "element" 1]
  | .map key value =>
    namesIn (holders ++ [("key" : Points)]) key ++ namesIn (holders ++ [("value" : Points)]) value ++
      [.under holders "key" 1, .under holders "value" 2]
  | .struct fields => fieldNamesIn holders fields
  | _ => []
termination_by structural t => t

/-- The full names of fields and of what they hold. -/
def FieldType.fieldNamesIn (holders : List Points) : List (Field String FieldType) → List FullName
  | [] => []
  | f :: fs => fieldNameIn holders f ++ fieldNamesIn holders fs
termination_by structural fs => fs

/-- The full names of what a field holds, and its own. -/
def FieldType.fieldNameIn (holders : List Points) : Field String FieldType → List FullName
  | ⟨id, name, _, type⟩ => namesIn (holders ++ [(name : Points)]) type ++ [.under holders name id]
termination_by structural f => f

end

/-- The failure at the first name that is there already. -/
def repeatedName? (earlier : List FullName) : List FullName → Option Failure
  | [] => none
  | n :: ns =>
    match earlier.find? fun e => e.name == n.name with
    | some e => some (.repeatedField n.name e.id n.id)
    | none => repeatedName? (earlier ++ [n]) ns

variable {ν : Type}

/-- The full names in a schema. -/
def fullNames [Spelled ν] (fields : List (Field ν FieldType)) : List FullName :=
  fields.flatMap fun f =>
    FieldType.namesIn [Spelled.points f.name] f.type ++ [.under [] (Spelled.points f.name) f.id]

/-- Fields whose full names differ. -/
structure Schema (ν : Type) where
  fields : List (Field ν FieldType)

/-- The schema with the given fields. -/
def Schema.ofFields [Spelled ν] (fields : List (Field ν FieldType)) : Except Failure (Schema ν) :=
  match repeatedName? [] (fullNames fields) with
  | some f => .error f
  | none => .ok ⟨fields⟩

end SchemaCatalog
