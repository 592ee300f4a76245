/-
  Where the data of a table lies: a bucket and a path in it.

  A location is written `scheme://bucket/path`; all three parts are needed.  A query and a fragment are
  dropped.  The bucket is the whole authority as written.
-/
import SchemaCatalog.Uri.Given
import SchemaCatalog.Failure

namespace SchemaCatalog

/-- A place in a store.  Its parts are texts, or bytes if the location is given in bytes. -/
structure Location where
  bucket : Value
  path : Value

namespace Location

/-- The bucket and the path in a text that has both, and a scheme. -/
def split? (s : List Char) : Option (List Char × List Char) :=
  match Uri.parse? s with
  | none => none
  | some u =>
    if u.scheme.isEmpty || u.authority.isEmpty || u.path.isEmpty then none
    else some (u.authority, u.path)

/-- The location that a value describes. -/
def ofValue (v : Value) : Except Failure Location :=
  match (Uri.textOf? v).bind split? with
  | some (bucket, path) => .ok ⟨Uri.part v bucket, Uri.part v path⟩
  | none => .error (.invalidLocation v)

end Location

end SchemaCatalog
