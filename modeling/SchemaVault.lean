import SchemaVault.Calendar
import SchemaVault.Entities.Operations
import SchemaVault.Entities.Paging
import SchemaVault.Entities.Queries
import SchemaVault.Entities.SortValue
import SchemaVault.Entities.ValidatorCache
import SchemaVault.Failure
import SchemaVault.Identifier
import SchemaVault.Json.Basic
import SchemaVault.Json.Pointer
import SchemaVault.Json.Printer
import SchemaVault.Json.Reader
import SchemaVault.Json.Token
import SchemaVault.Json5.Basic
import SchemaVault.Json5.Numeral
import SchemaVault.Json5.Reader
import SchemaVault.Json5.Text
import SchemaVault.Json5.Token
import SchemaVault.Number.Basic
import SchemaVault.Number.Double
import SchemaVault.Number.Extended
import SchemaVault.Number.Literal
import SchemaVault.Number.Shortest
import SchemaVault.Pattern.Brackets
import SchemaVault.Pattern.CharClass
import SchemaVault.Pattern.Escape
import SchemaVault.Pattern.Expr
import SchemaVault.Pattern.Fault
import SchemaVault.Pattern.Reader
import SchemaVault.Pattern.Search
import SchemaVault.Pattern.Size
import SchemaVault.Proofs.Entities.Caching
import SchemaVault.Proofs.Entities.Changes
import SchemaVault.Proofs.Entities.Conformance
import SchemaVault.Proofs.Entities.History
import SchemaVault.Proofs.Entities.Isolation
import SchemaVault.Proofs.Entities.Listing
import SchemaVault.Proofs.Entities.Offsets
import SchemaVault.Proofs.Entities.Order
import SchemaVault.Proofs.Entities.Paging
import SchemaVault.Proofs.Entities.Refusal
import SchemaVault.Proofs.Entities.SortColumns
import SchemaVault.Proofs.Entities.Ungoverned
import SchemaVault.Proofs.Failure
import SchemaVault.Proofs.Identifier
import SchemaVault.Proofs.Identifier.Order
import SchemaVault.Proofs.Identifier.Sorting
import SchemaVault.Proofs.Json.Members
import SchemaVault.Proofs.Json.Ordered
import SchemaVault.Proofs.Json.Pointer
import SchemaVault.Proofs.Json.Sameness
import SchemaVault.Proofs.Json5.Acceptance
import SchemaVault.Proofs.Json5.Tokens
import SchemaVault.Proofs.Number.Comparison
import SchemaVault.Proofs.Number.Sign
import SchemaVault.Proofs.Schema.Annotations
import SchemaVault.Proofs.Schema.Compilation
import SchemaVault.Proofs.Schema.Dates
import SchemaVault.Proofs.Schema.Equality
import SchemaVault.Proofs.Schema.Evolution
import SchemaVault.Proofs.Schema.Integers
import SchemaVault.Proofs.Schema.Locations
import SchemaVault.Proofs.Schema.Malformed
import SchemaVault.Proofs.Schema.Meaning
import SchemaVault.Proofs.Schema.Places
import SchemaVault.Proofs.Schema.Reports
import SchemaVault.Proofs.Schema.Validation
import SchemaVault.Proofs.Schemas.Activation
import SchemaVault.Proofs.Schemas.ActiveHistory
import SchemaVault.Proofs.Schemas.AppendOnly
import SchemaVault.Proofs.Schemas.Changes
import SchemaVault.Proofs.Schemas.Creation
import SchemaVault.Proofs.Schemas.Decision
import SchemaVault.Proofs.Schemas.Draft
import SchemaVault.Proofs.Schemas.Identity
import SchemaVault.Proofs.Schemas.Indices
import SchemaVault.Proofs.Schemas.Lookup
import SchemaVault.Proofs.Schemas.Naming
import SchemaVault.Proofs.Schemas.NumberRange
import SchemaVault.Proofs.Schemas.Numbering
import SchemaVault.Proofs.Schemas.SingleActive
import SchemaVault.Proofs.Schemas.Slug
import SchemaVault.Proofs.Schemas.SlugRuns
import SchemaVault.Proofs.Schemas.Statements
import SchemaVault.Proofs.Schemas.Views
import SchemaVault.Proofs.Schemas.WellFormed
import SchemaVault.Proofs.Space.Categories
import SchemaVault.Proofs.Space.Constraints
import SchemaVault.Proofs.Space.Transaction
import SchemaVault.Proofs.Text
import SchemaVault.Proofs.Vault.Atomicity
import SchemaVault.Proofs.Vault.CategoryHistory
import SchemaVault.Proofs.Vault.Frame
import SchemaVault.Proofs.Vault.Move
import SchemaVault.Proofs.Vault.Reopening
import SchemaVault.Proofs.Vault.Run
import SchemaVault.Proofs.Vault.Soundness
import SchemaVault.Proofs.Version
import SchemaVault.Proofs.Version.Refusal
import SchemaVault.Proofs.Version.Spelling
import SchemaVault.Proofs.Version.Succession
import SchemaVault.Proofs.Wire.RoundTrip
import SchemaVault.Schema.Basic
import SchemaVault.Schema.Check
import SchemaVault.Schema.Compile
import SchemaVault.Schema.Format
import SchemaVault.Schema.Validator
import SchemaVault.Schemas.Changes
import SchemaVault.Schemas.Draft
import SchemaVault.Schemas.Operations
import SchemaVault.Schemas.Queries
import SchemaVault.Schemas.Slug
import SchemaVault.Schemas.TableName
import SchemaVault.Space.Basic
import SchemaVault.Space.Categories
import SchemaVault.Space.Migrations
import SchemaVault.Space.Overwrite
import SchemaVault.Space.StorageError
import SchemaVault.Space.Transaction
import SchemaVault.Text.Blank
import SchemaVault.Text.Digits
import SchemaVault.Text.Hexadecimal
import SchemaVault.Text.Letters
import SchemaVault.Text.Lowercase
import SchemaVault.Text.Quoted
import SchemaVault.Text.Ranges
import SchemaVault.Text.Split
import SchemaVault.Text.Unprintable
import SchemaVault.Toml.Basic
import SchemaVault.Toml.Reader
import SchemaVault.Toml.Scalar
import SchemaVault.Toml.Text
import SchemaVault.Vault.Basic
import SchemaVault.Vault.Config
import SchemaVault.Vault.Request
import SchemaVault.Version
import SchemaVault.Wire.Config
import SchemaVault.Wire.Entities
import SchemaVault.Wire.Form
import SchemaVault.Wire.Schemas
