/-
  The host and the port of an authority.

  They stand behind the last `@`.  A host in brackets ends at the closing bracket and its port follows the
  next colon; any other host ends at the first colon.  The host is read in small letters up to a zone
  behind a percent sign, which keeps its spelling.
-/
import SchemaCatalog.Uri.Basic
import SchemaCatalog.Text.Case

namespace SchemaCatalog.Uri

/-- The host and the port as written. -/
def hostPort (authority : List Char) : List Char × List Char :=
  let s := Text.afterLast '@' authority
  match Text.after? '[' s with
  | some inside =>
    (Text.before ']' inside, (Text.after? ':' ((Text.after? ']' inside).getD [])).getD [])
  | none => (Text.before ':' s, (Text.after? ':' s).getD [])

/-- A host in small letters, its zone left alone. -/
def lowerHost (host : List Char) : String :=
  Text.lower (String.ofList (Text.before '%' host)) ++ String.ofList (host.dropWhile (· != '%'))

/-- The number of a port, if it is one; digits beyond any sensible length are refused unread. -/
def port? (s : List Char) : Option Nat :=
  if !s.isEmpty && s.all Char.isDigit && decide (s.length ≤ 4300) then
    let n := Nat.ofDigitChars 10 s 0
    if n ≤ 65535 then some n else none
  else none

end SchemaCatalog.Uri
