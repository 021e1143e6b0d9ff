import PredicateSearch.Text.Blank
import PredicateSearch.Text.Quoted
import PredicateSearch.Decimal.Numeral
import PredicateSearch.Attribute
import PredicateSearch.Key
import PredicateSearch.Operand.Document
import PredicateSearch.Dialect
import PredicateSearch.Condition
import PredicateSearch.Condition.Sql
import PredicateSearch.Keyed
import PredicateSearch.LoadError
import PredicateSearch.Schema.Reading
import PredicateSearch.Json.Text
import PredicateSearch.Json.Reading
import PredicateSearch.Schema.Document
import PredicateSearch.Toml.Document
import PredicateSearch.Search
import PredicateSearch.Settings.Logging
import PredicateSearch.Source
import PredicateSearch.Proofs.Condition.Compile
import PredicateSearch.Proofs.Condition.Typing
import PredicateSearch.Proofs.Pattern.Like
import PredicateSearch.Proofs.Sql.Quoting
import PredicateSearch.Proofs.Condition.Matching
import PredicateSearch.Proofs.Decimal.Numeral
import PredicateSearch.Proofs.Sql.Token
import PredicateSearch.Proofs.Sql.Layout
import PredicateSearch.Proofs.Sql.Template
import PredicateSearch.Proofs.Sql.Safety
import PredicateSearch.Proofs.Sql.Cut
import PredicateSearch.Proofs.Search.Grouping
import PredicateSearch.Proofs.Schema.Acceptance
import PredicateSearch.Proofs.Schema.Layout
import PredicateSearch.Proofs.Schema.Faults
import PredicateSearch.Proofs.Schema.Places
import PredicateSearch.Proofs.Schema.Joining
import PredicateSearch.Proofs.Schema.Viable
import PredicateSearch.Proofs.Schema.Store
import PredicateSearch.Proofs.Key.Reach
import PredicateSearch.Proofs.Condition.Pair
import PredicateSearch.Proofs.Key.Parsing
import PredicateSearch.Proofs.Search.Steps
import PredicateSearch.Proofs.Key.Spelling
import PredicateSearch.Proofs.Condition.Toggle
import PredicateSearch.Proofs.Condition.Precedence
import PredicateSearch.Proofs.Condition.Membership
import PredicateSearch.Proofs.Settings.Overrides
import PredicateSearch.Proofs.Settings.Expansion
import PredicateSearch.Proofs.Json
import PredicateSearch.Proofs.Operand.Document
import PredicateSearch.Proofs.Condition.Integer
import PredicateSearch.Proofs.Json.Reading
import PredicateSearch.Proofs.Schema.Document
import PredicateSearch.Proofs.Search.Params
import PredicateSearch.Proofs.Condition.Number
import PredicateSearch.Proofs.Condition.Double
import PredicateSearch.Proofs.Sql.Quotation
