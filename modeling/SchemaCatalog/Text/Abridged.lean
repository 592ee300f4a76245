/-
  Long texts cut down to their two ends.

  A message that shows a long value leaves out its middle.  Lengths are counted in bytes of UTF-8, and an
  end never holds a part of a character, so it may be a little shorter than it could be.
-/

namespace SchemaCatalog.Text

/-- As many characters from the front as fit into a number of bytes. -/
def fitting : Nat → List Char → List Char
  | _, [] => []
  | room, c :: rest => if c.utf8Size ≤ room then c :: fitting (room - c.utf8Size) rest else []

/-- A text of up to 50 bytes as it is, a longer one by 25 bytes of its front and 24 of its end. -/
def abridged (s : String) : String :=
  if s.utf8ByteSize ≤ 50 then s
  else
    String.ofList (fitting 25 s.toList) ++ "..." ++
      String.ofList (fitting 24 s.toList.reverse).reverse

end SchemaCatalog.Text
