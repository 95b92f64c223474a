import Stencil.Main
import Stencil.File.Tree
import Stencil.View
import Stencil.Value.OfData
import Stencil.Proofs.Engine.Literals
import Stencil.Proofs.Parse.Viable
import Stencil.Proofs.Render.FreePaths
import Stencil.Proofs.Parse.Calls
import Stencil.Proofs.Template.Canonical
import Stencil.Proofs.Token.Tags
import Stencil.Proofs.Engine.Canonical
import Stencil.Proofs.Parse.Limit
import Stencil.Proofs.Render.Scopes
import Stencil.Proofs.Engine.Concat
import Stencil.Proofs.Engine.Verbatim
import Stencil.Proofs.Engine.Events
import Stencil.Proofs.Engine.Stray
import Stencil.Proofs.Text.Quoted
import Stencil.Proofs.Parse.Descent
import Stencil.Proofs.Parse.Mirrors
import Stencil.Proofs.Parse.Checks
import Stencil.Proofs.Render.Renaming
import Stencil.Proofs.Engine.Noise
import Stencil.Proofs.Engine.Unfinished
import Stencil.Proofs.CommandLine.Stages
import Stencil.Proofs.Render.Moments
import Stencil.Proofs.Value.Equality
import Stencil.Proofs.Value.Truth
import Stencil.Proofs.Text.ByteOrder
import Stencil.Proofs.Value.Entries
import Stencil.Proofs.Value.Documents
import Stencil.Proofs.File.Path
import Stencil.Proofs.View.Root
import Stencil.Proofs.Token.Dump
import Stencil.Proofs.Engine.Elements
import Stencil.Proofs.Token.Cursor
import Stencil.Proofs.Double.Shortest
import Stencil.Proofs.Parse.Bounded
import Stencil.Proofs.Value.Fraction
