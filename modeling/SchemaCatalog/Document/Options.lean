/-
  The table properties that a document keeps, in their normal form.

  Five properties matter; their names are looked up in small letters, so a table may spell one of them in
  several ways.  The normal form has each of them once, at the place of its first spelling and with the
  value of its last; booleans become the words `true` and `false`.  All other properties are left out.
-/
import SchemaCatalog.Failure
import SchemaCatalog.Value.Members

namespace SchemaCatalog

/-- The format of the files of a table. -/
inductive FileFormat where
  | csv
  | json
  | parquet
  | text
deriving DecidableEq

namespace FileFormat

/-- Every format. -/
def all : List FileFormat := [.csv, .json, .parquet, .text]

/-- The name of a format. -/
def name : FileFormat → String
  | .csv => "csv"
  | .json => "json"
  | .parquet => "parquet"
  | .text => "text"

/-- The format with a name; letter case does not matter. -/
def ofName? (s : String) : Option FileFormat := all.find? fun f => Text.lower s == f.name

/-- The format named by a value. -/
def ofValue? (v : Value) : Option FileFormat := v.text?.bind ofName?

/-- The format named by a value, or the failure to name one. -/
def ofValue (v : Value) : Except Failure FileFormat :=
  match ofValue? v with
  | some f => .ok f
  | none => .error (.unsupportedFormat v)

end FileFormat

namespace Options

/-- The names of the properties that matter. -/
def names : List String :=
  ["format", "field_delimiter", "record_delimiter", "has_header_row", "external_location"]

/-- A property's value in normal form. -/
def spelled : Value → Value
  | .bool b => .text (if b then "true" else "false")
  | v => v

/-- Takes one property into a normal form.  A name must have small letters. -/
def add (options : Members) (property : Value × Value) : Except Failure Members :=
  match property.1.lower? with
  | none => .error .lacking
  | some (.text k) =>
    if names.contains k then .ok (options.put (.text k) (spelled property.2)) else .ok options
  | some _ => .ok options

/-- Takes properties into a normal form, one after the other. -/
def addAll : Members → List (Value × Value) → Except Failure Members
  | options, [] => .ok options
  | options, p :: ps =>
    match add options p with
    | .error e => .error e
    | .ok options => addAll options ps

/-- The normal form of table properties. -/
def normalize (properties : Members) : Except Failure Members := addAll [] properties

end Options

end SchemaCatalog
