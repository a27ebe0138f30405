import Infra.Artifact
import Infra.Check.Rule
import Infra.Check.Runner
import Infra.Cli.Bundle
import Infra.Cli.Run
import Infra.Main
import Infra.Report.Form
import Infra.Settings.Cache
import Infra.Store.Tree
import Infra.Log.Context
import Infra.Log.Logger
import Infra.Log.Session
import Infra.Template.Serializer
import Infra.Proofs.Graph.Completeness
import Infra.Proofs.Graph.Soundness
import Infra.Proofs.Discovery.Dependency
import Infra.Proofs.Discovery.Naming
import Infra.Proofs.Discovery.Collect
import Infra.Proofs.Discovery.Coherence
import Infra.Proofs.Discovery.Pass
import Infra.Proofs.Discovery.Spent
import Infra.Proofs.Discovery.Repetition
import Infra.Proofs.Store.Shown
import Infra.Proofs.Entries
import Infra.Proofs.Except
import Infra.Proofs.Template.Reference
import Infra.Proofs.Template.Rendering
import Infra.Proofs.Template.Draft
import Infra.Proofs.Template.Agreement
import Infra.Proofs.Expr.Stable
import Infra.Proofs.Unit.Stable
import Infra.Proofs.Unit.Name
import Infra.Proofs.Template.Gating
import Infra.Proofs.Template.Stack
import Infra.Proofs.Template.Closed
import Infra.Proofs.Template.Files
import Infra.Proofs.Template.Marker
import Infra.Proofs.Artifact
import Infra.Proofs.Template.Formed
import Infra.Proofs.Template.RoundTrip
import Infra.Proofs.Check.Isolation
import Infra.Proofs.Unit.Scan
import Infra.Proofs.Composite.Tree
import Infra.Proofs.Composite.Repetition
import Infra.Proofs.Composite.Defaults
import Infra.Proofs.Template.Spelling
import Infra.Proofs.Template.Null
import Infra.Proofs.Text.Upper
import Infra.Proofs.Text.Words
import Infra.Proofs.Render.Interpolation
import Infra.Proofs.Template.Unknown
import Infra.Proofs.Failure
import Infra.Proofs.Log.Context
import Infra.Proofs.Log.Scope
import Infra.Proofs.Log.Configuration
import Infra.Proofs.Discovery.Given
import Infra.Proofs.Reading
import Infra.Proofs.Json.Extent
import Infra.Proofs.Toml.Extent
import Infra.Proofs.Config.File
import Infra.Proofs.Graph.Neighbours
import Infra.Backend.Session
import Infra.Proofs.Backend.Binding
import Infra.Proofs.Settings.InUse
import Infra.Failure.Construction
