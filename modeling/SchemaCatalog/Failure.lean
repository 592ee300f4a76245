/-
  Everything that can go wrong, by cause.

  Two things depend on a failure beyond its wording: its kind, and which handlers catch it.  Kinds form a
  tree, and a handler for a kind catches every kind below it; the failures that a registry client raises
  come from outside the catalog and may be of any kind, so they carry kind and wording with them.

  `Unreadable` lists why a stored document is not read; reading one fails in no other way.  All but the last
  of its causes are wrong with the document, and code that reads documents of unknown origin handles them.
  The last, a text that nests too deep to be read at all, has a kind of its own that no handler is for.
-/
import SchemaCatalog.Value.Display
import SchemaCatalog.Text.Utf8
import SchemaCatalog.Text.Abridged
import SchemaCatalog.Json.Fault
import SchemaCatalog.Column.Schema

namespace SchemaCatalog

/-! ## Kinds -/

/-- The kind of a failure. -/
inductive Kind where
  | badValue
  | configuration
  | invalidLocation
  | unreadable
  | missingField
  | validation
  | unsupportedFormat
  | unsupportedType
  | service
  | serviceUnavailable
  | registryUnreachable
  | noSuchNamespace
  | registryNotFound
  | noSuchTable
  | missingKey
  | runtime
  /-- More lists and objects inside one another than there is room for. -/
  | tooDeep
  | system
  | connection
  | connectionRefused
  | connectionReset
  | brokenPipe
  | timeout
  | permission
  | fileNotFound
  /-- A value lacks what is asked of it. -/
  | lacking
  /-- A value of a type that has no place here. -/
  | mistyped
  | outOfRange
deriving DecidableEq

/-- The next more general kind. -/
def Kind.parent? : Kind → Option Kind
  | .configuration => some .badValue
  | .invalidLocation | .unreadable | .missingField => some .configuration
  | .unsupportedFormat | .unsupportedType => some .validation
  | .serviceUnavailable => some .service
  | .registryUnreachable => some .serviceUnavailable
  | .registryNotFound => some .noSuchNamespace
  | .tooDeep => some .runtime
  | .connection | .timeout | .permission | .fileNotFound => some .system
  | .connectionRefused | .connectionReset | .brokenPipe => some .connection
  | _ => none

/-- The kinds caught by a handler for kind `k`: `k` itself and all below.  No kind has more than two
others above it. -/
def Kind.isA (kind k : Kind) : Bool :=
  kind == k || kind.parent? == some k || (kind.parent?.bind Kind.parent?) == some k

/-! ## Unreadable documents -/

/-- The two texts that a document consists of. -/
inductive Part where
  /-- The document itself. -/
  | document
  /-- The text under its comment, which describes the table. -/
  | metadata

/-- The name of a part where it is read. -/
def Part.reading : Part → String
  | .document => "schema document"
  | .metadata => "metadata block"

/-- The name of a part at the start of a sentence. -/
def Part.title : Part → String
  | .document => "Schema document"
  | .metadata => "Metadata block"

/-- Why a document cannot be read. -/
inductive Unreadable where
  /-- It is neither text nor bytes. -/
  | notText (document : Value)
  | notUtf8 (fault : Text.Utf8.Fault)
  | notJson (part : Part) (text : Text.Points) (fault : Json.Fault)
  | notObject (part : Part)
  | missing (part : Part) (key : String)
  /-- The member under this key is no text. -/
  | notString (key : String)
  /-- The member under this key is no object. -/
  | notMembers (key : String)
  | untypedColumn (name : Value)
  | unknownType (type : Value)
  /-- One of its texts nests too deep. -/
  | tooDeep (problem : Json.Problem)

/-- Why a part cannot be read when there is a fault in its text. -/
def Unreadable.ofFault (part : Part) (text : Text.Points) (f : Json.Fault) : Unreadable :=
  if f.problem.isDeep then .tooDeep f.problem else .notJson part text f

/-- The kind of the failure. -/
def Unreadable.kind : Unreadable → Kind
  | .missing .. | .untypedColumn _ => .missingField
  | .unknownType _ => .unsupportedType
  | .tooDeep _ => .tooDeep
  | _ => .unreadable

/-- The wording of the failure. -/
def Unreadable.message : Unreadable → String
  | .notText v =>
    "Error processing schema document: the JSON object must be str, bytes or bytearray, not " ++ v.typeName
  | .notUtf8 f => "Error processing schema document: " ++ f.message
  | .notJson part text f => "Error processing " ++ part.reading ++ ": " ++ f.message text
  | .notObject part => "Error processing " ++ part.reading ++ ": not a JSON object"
  | .missing part key => part.title ++ " has no " ++ key
  | .notString key => key ++ " is not a string"
  | .notMembers key => key ++ " is not a JSON object"
  | .untypedColumn name => "Column " ++ name.shown ++ " has no type"
  | .unknownType type => "Unsupported JSON schema type: " ++ type.shown
  | .tooDeep problem => problem.text

/-! ## Unfit names -/

/-- What speaks against a value as the name of a field, in full and by its short name. -/
structure Objection where
  text : String
  code : String

/-- The objection to a value that is no text: it is of another type, or its bytes are no text. -/
def Objection.ofName (name : Value) : Objection :=
  match name.bytes? with
  | some _ =>
    ⟨"Input should be a valid string, unable to parse raw data as a unicode string", "string_unicode"⟩
  | none => ⟨"Input should be a valid string", "string_type"⟩

/-- The report of the objection to a name: what was expected, what was found, and where to read on. -/
def unfitNameReport (name : Value) : String :=
  let objection := Objection.ofName name
  "1 validation error for NestedField\nname\n  " ++ objection.text ++
    " [type=" ++ objection.code ++ ", input_value=" ++ Text.abridged name.inner ++
    ", input_type=" ++ name.typeName ++ "]\n    For further information visit " ++
    "https://errors.pydantic.dev/2.14/v/" ++ objection.code

/-! ## Failures -/

/-- Why an operation fails. -/
inductive Failure where
  | unreadable (why : Unreadable)
  | unknownColumnType (type : Value)
  | unknownFieldType (type : FieldType)
  | unsupportedFormat (format : Value)
  | invalidLocation (location : Value)
  | noLocation (ns table : Value)
  | invalidEndpoint (uri : Value)
  | noClient
  | invalidClient (path : String)
  | unknownClient (path : String)
  /-- The catalog is configured without this property. -/
  | missingProperty (key : String)
  | noNamespace (name : String)
  | noTable (ns table : String)
  /-- A schema was asked of an entry for a namespace. -/
  | noTableInEntry (ns : Value)
  | repeatedField (name : Text.Points) (first second : Int)
  /-- A field cannot have this name. -/
  | unfitName (name : Value)
  | noGroup (name : String)
  | noSchema (type group : String)
  /-- The registry at this address does not answer. -/
  | unreachable (url : String) (cause : Failure)
  /-- An integer is too long to be written. -/
  | longInteger
  /-- A value nests too deep to be written. -/
  | tooDeep
  | lacking
  | mistyped
  | outOfRange
  /-- A failure raised by a registry client. -/
  | raised (kind : Kind) (message : String)

namespace Failure

/-- The kind of a failure. -/
def kind : Failure → Kind
  | .unreadable why => why.kind
  | .unknownColumnType _ | .unknownFieldType _ => .unsupportedType
  | .unsupportedFormat _ => .unsupportedFormat
  | .invalidLocation _ => .invalidLocation
  | .noLocation .. | .invalidEndpoint _ | .noClient | .invalidClient _ | .unknownClient _ =>
    .configuration
  | .missingProperty _ => .missingKey
  | .noNamespace _ => .noSuchNamespace
  | .noTable .. => .noSuchTable
  | .noTableInEntry _ | .repeatedField .. | .longInteger => .badValue
  | .unfitName _ => .validation
  | .tooDeep => .tooDeep
  | .noGroup _ | .noSchema .. => .registryNotFound
  | .unreachable .. => .registryUnreachable
  | .lacking => .lacking
  | .mistyped => .mistyped
  | .outOfRange => .outOfRange
  | .raised kind _ => kind

/-- The wording of a failure.  A missing key is told by its quoted name. -/
def message : Failure → String
  | .unreadable why => why.message
  | .unknownColumnType type => "Unsupported column type: " ++ type.shown
  | .unknownFieldType type => "Unsupported column type: " ++ type.text
  | .unsupportedFormat format => "Unsupported table format for query: " ++ format.shown
  | .invalidLocation location => "Error processing location: " ++ location.shown
  | .noLocation ns table => "Table " ++ ns.shown ++ "." ++ table.shown ++ " has no external_location"
  | .invalidEndpoint uri => "Invalid registry uri: " ++ uri.shown
  | .noClient => "No registry client configured, set py-client-impl"
  | .invalidClient path => "Invalid client implementation: " ++ path
  | .unknownClient path => "Could not load client implementation: " ++ path
  | .missingProperty key => Text.quoted key
  | .noNamespace name => "Namespace does not exist: " ++ name
  | .noTable ns table => "Table does not exist: " ++ ns ++ "." ++ table
  | .noTableInEntry ns => "Namespace entry " ++ ns.shown ++ " has no table"
  | .repeatedField name first second =>
    s!"Invalid schema, multiple fields for name {Text.shown name}: {first} and {second}"
  | .unfitName name => unfitNameReport name
  | .noGroup name => "Group " ++ name ++ " not found"
  | .noSchema type group => "Schema " ++ type ++ " not found in " ++ group
  | .unreachable url cause => "Cannot connect to schema registry at " ++ url ++ ": " ++ cause.message
  | .longInteger =>
    "Exceeds the limit (4300 digits) for integer string conversion" ++
      "; use sys.set_int_max_str_digits() to increase the limit"
  | .tooDeep => "maximum recursion depth exceeded while encoding a JSON object"
  | .lacking | .mistyped | .outOfRange => ""
  | .raised kind message => if kind = .missingKey then Text.quoted message else message

end Failure

end SchemaCatalog
