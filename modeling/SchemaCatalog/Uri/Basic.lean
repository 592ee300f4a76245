/-
  Taking a location apart.

  A location is a scheme, an authority behind two slashes, a path, and a query and fragment that are cut
  off.  Control characters and spaces at the front are ignored, and so are tabs and line ends anywhere.
  The scheme is a letter followed by letters, digits and `+`, `-`, `.`; it is read in small letters.

  An authority is refused when its brackets do not match or do not surround an address, and when one of
  its characters has a compatible form that holds one of the delimiters `/ ? # @ :`, because such a
  location would be taken apart in another way once its text is normalised.
-/
import SchemaCatalog.Uri.Address

namespace SchemaCatalog

/-- The parts of a location that matter here. -/
structure Uri where
  scheme : List Char
  authority : List Char
  path : List Char

namespace Uri

/-! ## The text -/

/-- The characters ignored everywhere in a location. -/
def isIgnored (c : Char) : Bool := c == '\t' || c == '\r' || c == '\n'

/-- The text of a location without what is ignored. -/
def cleaned (s : List Char) : List Char :=
  (s.dropWhile fun c => decide (c.toNat ≤ 0x20)).filter fun c => !isIgnored c

/-! ## The scheme -/

/-- The characters of a scheme. -/
def isSchemeChar (c : Char) : Bool := c.isAlphanum || c == '+' || c == '-' || c == '.'

/-- A well-formed scheme. -/
def isScheme (s : List Char) : Bool := (s.head?.any Char.isAlpha) && s.all isSchemeChar

/-- The scheme in small letters and the text behind its colon; no scheme and all of the text if what
stands before the first colon is none. -/
def cutScheme (s : List Char) : List Char × List Char :=
  match Text.after? ':' s with
  | some rest =>
    let scheme := Text.before ':' s
    if isScheme scheme then (scheme.map Char.toLower, rest) else ([], s)
  | none => ([], s)

/-! ## The authority -/

/-- The characters that end an authority. -/
def endsAuthority (c : Char) : Bool := c == '/' || c == '?' || c == '#'

/-- The authority behind two slashes and the text behind it; no authority without the slashes. -/
def cutAuthority (s : List Char) : List Char × List Char :=
  match s with
  | '/' :: '/' :: rest =>
    (rest.takeWhile fun c => !endsAuthority c, rest.dropWhile fun c => !endsAuthority c)
  | _ => ([], s)

/-- The host of a bracketed authority, behind its user part; none if there is text between the brackets
and the delimiters around them. -/
def bracketedHost? (hostAndPort : List Char) : Option (List Char) :=
  match Text.after? '[' hostAndPort with
  | none => some (Text.before ':' hostAndPort)
  | some inside =>
    if !(Text.before '[' hostAndPort).isEmpty then none
    else match Text.after? ']' inside with
      | some (c :: _) => if c = ':' then some (Text.before ']' inside) else none
      | _ => some (Text.before ']' inside)

/-- Whether the brackets of an authority match and surround an address. -/
def bracketsAgree (authority : List Char) : Bool :=
  match authority.contains '[', authority.contains ']' with
  | false, false => true
  | true, true => (bracketedHost? (Text.afterLast '@' authority)).any isBracketedHost
  | _, _ => false

/-- The characters whose compatible form holds one of the delimiters `/ ? # @ :`. -/
def delimiterLike : List Nat :=
  [0x2047, 0x2048, 0x2049, 0x2100, 0x2101, 0x2105, 0x2106, 0x2A74, 0xFE13, 0xFE16, 0xFE55, 0xFE56,
   0xFE5F, 0xFE6B, 0xFF03, 0xFF0F, 0xFF1A, 0xFF1F, 0xFF20]

/-- Whether an authority keeps its parts when its text is normalised. -/
def staysApart (authority : List Char) : Bool := authority.all fun c => !delimiterLike.contains c.toNat

/-! ## The whole location -/

/-- The characters that end a path. -/
def endsPath (c : Char) : Bool := c == '?' || c == '#'

/-- Takes a location apart; none if its authority is refused. -/
def parse? (s : List Char) : Option Uri :=
  let (scheme, rest) := cutScheme (cleaned s)
  let (authority, rest) := cutAuthority rest
  if bracketsAgree authority && staysApart authority then
    some ⟨scheme, authority, rest.takeWhile fun c => !endsPath c⟩
  else none

end Uri

end SchemaCatalog
