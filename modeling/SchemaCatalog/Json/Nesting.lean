/-
  How deep lists and objects may lie inside one another.

  Reading and writing a value take a step of recursion for every list and object that is open, and whoever
  runs the catalog allows only so many.  The number is a parameter of everything that reads or writes
  JSON.  It is the same for reading and for writing, and for every caller.  Of it nothing is assumed but
  that the documents of the catalog themselves fit: the type of a column lies in its description, this in
  the columns, and these in the document.
-/

namespace SchemaCatalog.Json

/-- How many lists and objects may be open at once. -/
class Nesting where
  deepest : Nat
  /-- The documents of the catalog fit. -/
  three_le : 3 ≤ deepest

namespace Usual

/-- The usual number, for a program that calls the catalog at once. -/
scoped instance : Nesting := ⟨990, by decide⟩

end Usual

end SchemaCatalog.Json
