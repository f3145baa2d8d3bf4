import QueryTree.Dialect.Reader
import QueryTree.Hook
import QueryTree.Similarity.Reader
import QueryTree.Similarity.Request
import QueryTree.Sql.Mutation
import QueryTree.Proofs.Arguments.Alignment
import QueryTree.Proofs.Arguments.Literals
import QueryTree.Proofs.Build.Absence
import QueryTree.Proofs.Build.Misuse
import QueryTree.Proofs.Build.Reported
import QueryTree.Proofs.Column.Written
import QueryTree.Proofs.Condition.Escape
import QueryTree.Proofs.Condition.Invisible
import QueryTree.Proofs.Condition.Required
import QueryTree.Proofs.Elimination.Fixpoint
import QueryTree.Proofs.Elimination.Names
import QueryTree.Proofs.Finite.Reach
import QueryTree.Proofs.Hook.Rounds
import QueryTree.Proofs.Join.Constraint
import QueryTree.Proofs.Mutation.Assignments
import QueryTree.Proofs.Mutation.Filtered
import QueryTree.Proofs.Nesting.Labels
import QueryTree.Proofs.Nesting.Shared
import QueryTree.Proofs.Paging.Loop
import QueryTree.Proofs.Paging.Pages
import QueryTree.Proofs.Paging.Requested
import QueryTree.Proofs.Similarity.Extensions
import QueryTree.Proofs.Similarity.Nearest
import QueryTree.Proofs.Similarity.NormalForm
import QueryTree.Proofs.Similarity.Visits
import QueryTree.Proofs.Source.Declaration
import QueryTree.Proofs.Union.Count
import QueryTree.Proofs.Union.Structure
import QueryTree.Proofs.Value.Constants
import QueryTree.Proofs.Value.Projection
import QueryTree.Proofs.Value.RoundTrip
import QueryTree.Proofs.Value.Times
