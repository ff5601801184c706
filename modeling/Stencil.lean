import Stencil.Text.Blank
import Stencil.Text.Search
import Stencil.Text.Markup
import Stencil.Text.Lines
import Stencil.Text.Digit
import Stencil.Text.Quoted
import Stencil.Text.Utf8
import Stencil.Number.Shortest
import Stencil.Number.Numeral
import Stencil.Template.Reading
import Stencil.Walk.Machine
import Stencil.Walk.Plain
import Stencil.Walk.Walker
import Stencil.Listing
import Stencil.Context.Basic
import Stencil.Render.Visit
import Stencil.Render.Halting
import Stencil.Renderer
import Stencil.Template
import Stencil.Files.Content
import Stencil.Partials.Directory
import Stencil.Yaml.Block
import Stencil.Yaml.Flow
import Stencil.Yaml.Token
import Stencil.Yaml.Kind
import Stencil.Yaml.Node
import Stencil.Yaml.Document
import Stencil.DataFile
import Stencil.Settings
import Stencil.CommandLine.Arguments
import Stencil.CommandLine.Run
import Stencil.CommandLine.Usage
import Stencil.Main
import Stencil.Proofs.Text.Occurrence
import Stencil.Proofs.Text.Words
import Stencil.Proofs.Text.Trimming
import Stencil.Proofs.Delimiters
import Stencil.Proofs.Template.Lexing
import Stencil.Proofs.Template.Sections
import Stencil.Proofs.Template.Nesting
import Stencil.Proofs.Template.Defects
import Stencil.Proofs.Template.Layout
import Stencil.Proofs.Template.Coverage
import Stencil.Proofs.Template.Writing
import Stencil.Proofs.Walk.Traversal
import Stencil.Proofs.Walk.Invariant
import Stencil.Proofs.Walk.Simulation
import Stencil.Proofs.Walk.Events
import Stencil.Proofs.Walk.Steps
import Stencil.Proofs.Walk.Brackets
import Stencil.Proofs.Data.Alike
import Stencil.Proofs.Data.Written
import Stencil.Proofs.Data.Lookup
import Stencil.Proofs.Data.Parts
import Stencil.Proofs.Render.Action
import Stencil.Proofs.Render.Seat
import Stencil.Proofs.Render.Frames
import Stencil.Proofs.Render.Direct
import Stencil.Proofs.Render.Recursion
import Stencil.Proofs.Render.Calls
import Stencil.Proofs.Render.Levels
import Stencil.Proofs.Render.Stacks
import Stencil.Proofs.Render.Twins
import Stencil.Proofs.Render.Loaded
import Stencil.Proofs.Render.Indifference
import Stencil.Proofs.Render.Session
import Stencil.Proofs.Render.Ending
import Stencil.Proofs.Text.Markup
import Stencil.Proofs.Render.Chunks
import Stencil.Proofs.Render.Inlining
import Stencil.Proofs.Template.Preorder
import Stencil.Proofs.Template.Moving
import Stencil.Proofs.Template.Canonical
import Stencil.Proofs.Template.Joining
import Stencil.Proofs.Template.Repair
import Stencil.Proofs.Template.Depths
import Stencil.Proofs.Template.Shape
import Stencil.Proofs.Template.Progress
import Stencil.Proofs.Template.Outline
import Stencil.Proofs.Text.Utf8
import Stencil.Proofs.Files.Content
import Stencil.Proofs.Files.Access
import Stencil.Proofs.Files.Destination
import Stencil.Proofs.Partials.Directory
import Stencil.Proofs.CommandLine.Output
import Stencil.Proofs.Render.Failing
import Stencil.Proofs.CommandLine.Culprit
import Stencil.Proofs.Settings
import Stencil.Proofs.CommandLine.Loading
import Stencil.Proofs.CommandLine.Rendering
import Stencil.Proofs.CommandLine.Conclusion
import Stencil.Proofs.Walk.Leaving
import Stencil.Proofs.Walk.Parting
import Stencil.Proofs.Render.Records
import Stencil.Proofs.Render.Limits
import Stencil.Proofs.Render.Capped
import Stencil.Proofs.Render.Accounts
import Stencil.Proofs.Render.Escaping
import Stencil.Proofs.Render.Complement
import Stencil.Proofs.Render.Flat
import Stencil.Proofs.Render.Paths
import Stencil.Proofs.Walk.Straight
import Stencil.Proofs.Listing
import Stencil.Proofs.Data.Scoping
import Stencil.Proofs.Data.Blocks
import Stencil.Proofs.Template.Switching
import Stencil.Proofs.Data.Positions
