import Criteria.Catalog
import Criteria.Main
import Criteria.Time.Printer
import Criteria.Value.Temporal
import Criteria.Proofs.Bindings.Enumeration
import Criteria.Proofs.Bindings.Limit
import Criteria.Proofs.Join.Reading
import Criteria.Proofs.Join.Growth
import Criteria.Proofs.Join.Descendants
import Criteria.Proofs.CommandLine.Explain
import Criteria.Proofs.Plan.Meaning
import Criteria.Proofs.Plan.Acceptance
import Criteria.Proofs.Plan.Selection
import Criteria.Proofs.Plan.Embedding
import Criteria.Proofs.Store.Agreement
import Criteria.Proofs.Store.Failure
import Criteria.Proofs.Store.Narrowing
import Criteria.Proofs.Store.Pages
import Criteria.Proofs.Store.Slices
import Criteria.Proofs.Store.Navigation
import Criteria.Proofs.Store.Reordering
import Criteria.Proofs.Catalog.Accounting
import Criteria.Proofs.Catalog.Identifiers
import Criteria.Proofs.Condition.RoundTrip
import Criteria.Proofs.Condition.Skipping
import Criteria.Proofs.Catalog.Calls
import Criteria.Proofs.Store.Rows
import Criteria.Proofs.Catalog.Lookups
import Criteria.Proofs.Catalog.ListedIds
import Criteria.Proofs.Catalog.Search
import Criteria.Proofs.Criterion.IgnoringCase
import Criteria.Proofs.Criterion.Patterns
import Criteria.Proofs.Criterion.Opposites
import Criteria.Proofs.Criterion.Expansions
import Criteria.Proofs.Store.Ranges
import Criteria.Proofs.Plan.Arena
import Criteria.Proofs.Plan.NormalForm
import Criteria.Proofs.Document.SortOrder
import Criteria.Proofs.Sorting.Stability
import Criteria.Proofs.Sorting.Documents
import Criteria.Proofs.Aggregate.Results
import Criteria.Proofs.Aggregate.Copies
import Criteria.Proofs.Aggregate.Sums
import Criteria.Proofs.Aggregate.Distinct
import Criteria.Proofs.Value.Times
import Criteria.Proofs.Value.Codec
import Criteria.Proofs.Document.InvertedRanges
import Criteria.Proofs.Condition.Calls
import Criteria.Proofs.Predicate.Display
import Criteria.Proofs.Criterion.OwnText
