import SchemaCatalog.Catalog
import SchemaCatalog.Registry.Server
import SchemaCatalog.Proofs.Json.RoundTrip
import SchemaCatalog.Proofs.Document.Columns
import SchemaCatalog.Proofs.Document.Options
import SchemaCatalog.Proofs.Text.Utf8
import SchemaCatalog.Proofs.Document.RoundTrip
import SchemaCatalog.Proofs.Registry.Server
import SchemaCatalog.Proofs.Session
import SchemaCatalog.Proofs.Requests
import SchemaCatalog.Proofs.Failing
import SchemaCatalog.Proofs.Snapshot.Positions
import SchemaCatalog.Proofs.Snapshot.Build
import SchemaCatalog.Proofs.Catalog.Effects
import SchemaCatalog.Proofs.Catalog.Ledger
import SchemaCatalog.Proofs.Catalog.Refinement
import SchemaCatalog.Proofs.Catalog.Dropping
import SchemaCatalog.Proofs.Catalog.Creating
import SchemaCatalog.Proofs.Catalog.Spelling
import SchemaCatalog.Proofs.Json.Grammar
import SchemaCatalog.Proofs.Document.Acceptance
import SchemaCatalog.Proofs.Document.Rewriting
import SchemaCatalog.Proofs.Document.Written
import SchemaCatalog.Proofs.Snapshot.Listing
import SchemaCatalog.Proofs.Snapshot.Lookup
import SchemaCatalog.Proofs.Snapshot.Schema
import SchemaCatalog.Proofs.Catalog.Reads
import SchemaCatalog.Proofs.Catalog.Operations
import SchemaCatalog.Proofs.Catalog.Loading
import SchemaCatalog.Proofs.Catalog.Agreement
import SchemaCatalog.Proofs.Catalog.Locating
import SchemaCatalog.Proofs.Catalog.Outages
import SchemaCatalog.Proofs.Catalog.Hiding
import SchemaCatalog.Proofs.Endpoint
import SchemaCatalog.Proofs.Exchanges
import SchemaCatalog.Proofs.Sessions
import SchemaCatalog.Proofs.Catalog.Sessions
import SchemaCatalog.Proofs.Registry.Ids
import SchemaCatalog.Proofs.Registry.Shared
import SchemaCatalog.Proofs.Catalog.SharedDropping
import SchemaCatalog.Proofs.Catalog.SharedReading
import SchemaCatalog.Proofs.Document.Checks
import SchemaCatalog.Proofs.Json.Visible
import SchemaCatalog.Proofs.Document.Shape
import SchemaCatalog.Proofs.Uri.Authority
import SchemaCatalog.Proofs.Document.Sources
import SchemaCatalog.Proofs.Document.NormalForm
import SchemaCatalog.Proofs.Column.Kind
import SchemaCatalog.Proofs.Catalog.Browsing
