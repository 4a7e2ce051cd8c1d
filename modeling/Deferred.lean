import Deferred.Bindings
import Deferred.Builtin.Signature
import Deferred.Builtin.Substitute
import Deferred.Config
import Deferred.Config.Document
import Deferred.Config.Format
import Deferred.Decimal.Shortest
import Deferred.Decimal.Style
import Deferred.Double
import Deferred.Double.Arithmetic
import Deferred.Element
import Deferred.Event
import Deferred.Fault
import Deferred.Heap
import Deferred.Inspect
import Deferred.Progression
import Deferred.Session.Basic
import Deferred.Session.Command
import Deferred.Source
import Deferred.Substitution
import Deferred.Syntax.Node
import Deferred.Text.Extending
import Deferred.Text.Quoted
import Deferred.Text.Unprintable
import Deferred.Toml.Document
import Deferred.Toml.Format
import Deferred.Toml.Item
import Deferred.Toml.Quoted
import Deferred.Toml.Scalar
import Deferred.Value
import Deferred.Value.Anchors
import Deferred.Value.Duplicate
import Deferred.Value.Equality
import Deferred.Value.Text
import Deferred.Vector.Store
import Deferred.Vector.View
import Deferred.Proofs.Duplicate
import Deferred.Proofs.Builtin.Supplied
import Deferred.Proofs.Builtin.Matching
import Deferred.Proofs.Builtin.Calls
import Deferred.Proofs.Substitution.Names
import Deferred.Proofs.Substitution.Composition
import Deferred.Proofs.Substitution.Locality
import Deferred.Proofs.Substitution.Occurrences
import Deferred.Proofs.Substitution.Identity
import Deferred.Proofs.Substitution.Closed
import Deferred.Proofs.Substitution.Quotation
import Deferred.Proofs.Substitution.Sources
import Deferred.Proofs.Substitution.Reuse
import Deferred.Proofs.Vector.Operations
import Deferred.Proofs.Vector.Marks
import Deferred.Proofs.Holdings
import Deferred.Proofs.Value.Parts
import Deferred.Proofs.Value.Anchors
import Deferred.Proofs.Value.Equality
import Deferred.Proofs.Value.Text
import Deferred.Proofs.Value.Readings
import Deferred.Proofs.Value.Sameness
import Deferred.Proofs.Value.Exchange
import Deferred.Proofs.Value.Shown
import Deferred.Proofs.Substitution.Grouping
import Deferred.Proofs.Objects
import Deferred.Proofs.Promises
import Deferred.Proofs.Session.Ledger
import Deferred.Proofs.Session.Mirror
import Deferred.Proofs.Session.SceneStep
import Deferred.Proofs.Session.Origins
import Deferred.Proofs.Session.Promises
import Deferred.Proofs.Session.VectorStep
import Deferred.Proofs.Session.Made
import Deferred.Proofs.Session.Run
import Deferred.Proofs.Session.Claims
import Deferred.Proofs.Session.Updates
import Deferred.Proofs.Substitution.Arguments
import Deferred.Proofs.Vector.Laws
import Deferred.Proofs.Double.Exact
import Deferred.Proofs.Double.Rounding
import Deferred.Proofs.Double.Progression
import Deferred.Proofs.Progression
import Deferred.Proofs.Conversions
import Deferred.Proofs.Session.Views
import Deferred.Proofs.Session.VectorText
import Deferred.Proofs.Session.Sameness
import Deferred.Proofs.Session.SameText
import Deferred.Proofs.Toml.Decimal
import Deferred.Proofs.Toml.Format
import Deferred.Proofs.Toml.Lines
import Deferred.Proofs.Toml.Settings
import Deferred.Proofs.Config
