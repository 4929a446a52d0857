import ImageSizing.Engine.Recipe
import ImageSizing.Window.Session
import ImageSizing.Proofs.Size.Normal
import ImageSizing.Proofs.Engine.History
import ImageSizing.Proofs.Engine.StepLimit
import ImageSizing.Proofs.Binary64.Overflow
import ImageSizing.Proofs.Dimension.Readable
import ImageSizing.Proofs.Engine.BuiltIn
import ImageSizing.Proofs.Engine.Order
import ImageSizing.Proofs.Engine.Reclusive
import ImageSizing.Proofs.Engine.Registration
import ImageSizing.Proofs.Batch.NoOverwrite
import ImageSizing.Proofs.Engine.Snapshot
import ImageSizing.Proofs.Logged.Reported
import ImageSizing.Proofs.Scaling.Concrete
import ImageSizing.Proofs.Engine.Reporting
import ImageSizing.Proofs.Value.Data
import ImageSizing.Proofs.Dimension.Tokens
import ImageSizing.Proofs.Logged.Contained
import ImageSizing.Proofs.Size.Data
import ImageSizing.Proofs.Engine.Containment
import ImageSizing.Proofs.Value.Keys
import ImageSizing.Proofs.Size.Elaboration
import ImageSizing.Proofs.Engine.Elaboration
import ImageSizing.Proofs.Files.Saving
import ImageSizing.Proofs.Batch.Pair
import ImageSizing.Proofs.Batch.Effects
import ImageSizing.Proofs.Batch.Outputs
import ImageSizing.Proofs.Batch.Probing
import ImageSizing.Batch.Loop
import ImageSizing.Proofs.Batch.Loop
import ImageSizing.Proofs.Batch.Replay
import ImageSizing.Proofs.Batch.Accounts
import ImageSizing.Proofs.Binary64.RoundingError
import ImageSizing.Proofs.Dimension.Integers
import ImageSizing.Proofs.Scaling.WholeAxes
import ImageSizing.Proofs.Engine.Box
import ImageSizing.Proofs.Size.Copies
import ImageSizing.Proofs.Engine.WithFunction
import ImageSizing.Proofs.Batch.Steady
import ImageSizing.Proofs.Files.Listing
import ImageSizing.Proofs.Window.Commands
import ImageSizing.Proofs.Window.Transcript
import ImageSizing.Proofs.Window.Agreement
import ImageSizing.Proofs.Window.Repeating
import ImageSizing.Proofs.Size.Recapture
import ImageSizing.Proofs.Engine.InAdvance
import ImageSizing.Proofs.Window.Accounting
import ImageSizing.Proofs.Text.Slashless
import ImageSizing.Proofs.Value.Slashless
import ImageSizing.Proofs.Template.Items
import ImageSizing.Proofs.Template.Layouts
import ImageSizing.Proofs.Template.Filling
import ImageSizing.Proofs.Files.Below
import ImageSizing.Proofs.Batch.Confinement
import ImageSizing.Proofs.Files.Filling
import ImageSizing.Proofs.Files.Folders
import ImageSizing.Proofs.Files.Putting
import ImageSizing.Proofs.Batch.Repeated
import ImageSizing.Proofs.Dimension.Spelling
import ImageSizing.Proofs.Dimension.Patterns
import ImageSizing.Proofs.Binary64.Nearest
import ImageSizing.Proofs.Dimension.Boundary
import ImageSizing.Proofs.Dimension.Accepted
import ImageSizing.Proofs.Dimension.Faults
import ImageSizing.Proofs.Text.Scanning
import ImageSizing.Proofs.Engine.Pairs
import ImageSizing.Proofs.Binary64.Value
import ImageSizing.Proofs.Binary64.AddHalf
import ImageSizing.Proofs.Number.HalfUp
import ImageSizing.Proofs.Engine.Exact
import ImageSizing.Proofs.Binary64.RoundTrip
import ImageSizing.Proofs.Scaling.OneAxis
import ImageSizing.Proofs.Logged.Thinned
import ImageSizing.Proofs.Value.Adjusted
import ImageSizing.Proofs.Size.Defaults
import ImageSizing.Proofs.Engine.FunctionWarnings
import ImageSizing.Proofs.Engine.Blind
import ImageSizing.Proofs.Engine.Defaults
import ImageSizing.Proofs.Text.Lowercase
import ImageSizing.Proofs.Files.Extensions
import ImageSizing.Proofs.Files.Sound
import ImageSizing.Proofs.Files.Walking
import ImageSizing.Proofs.Files.Pictures
import ImageSizing.Proofs.Text.Fields
import ImageSizing.Proofs.Window.SizesField
import ImageSizing.Proofs.Window.Selection
import ImageSizing.Proofs.Files.Formats
import ImageSizing.Proofs.Logged.Avoided
import ImageSizing.Proofs.Value.Faults
import ImageSizing.Proofs.Template.Faults
import ImageSizing.Proofs.Engine.Raised
import ImageSizing.Proofs.Batch.KeptFormats
