import Recast.Main
import Recast.Command.Folder
import Recast.Command.Answer
import Recast.Config.Form
import Recast.Toml.Reader
import Recast.Toml.Printer
import Recast.Flow.Task
import Recast.Flow.Runner
import Recast.Stream.Subscription
import Recast.Time.Stats
import Recast.Store.Sink
import Recast.Store.Basic
import Recast.Store.Table
import Recast.Decoder.Standard
import Recast.Skip
import Recast.Graph.Encoder
import Recast.Compile.Job
import Recast.Stream.Recording
import Recast.Morph.Run
import Recast.Script.Reader
import Recast.Script.Writer
import Recast.Markup.Node
import Recast.Markup.Outline
import Recast.Compile.Issue
import Recast.Condition.Filter
import Recast.Graph.Form
import Recast.Graph.Name
import Recast.Morph.Collector
import Recast.Morph.Function
import Recast.Text.Placeholder
import Recast.Proofs.Skip.Kept
import Recast.Proofs.Skip.Addressed
import Recast.Proofs.Graph.Encoding
import Recast.Proofs.Flow.Records
import Recast.Proofs.Job.WellFormed
import Recast.Proofs.Compile.Chain
import Recast.Proofs.Compile.Draft
import Recast.Proofs.Compile.Shape
import Recast.Proofs.Compile.Ending
import Recast.Proofs.Compile.Flushing
import Recast.Proofs.Morph.Route
import Recast.Proofs.OrderedMap
import Recast.Proofs.Morph.Call
import Recast.Proofs.Morph.Log
import Recast.Proofs.Morph.Layer
import Recast.Proofs.Morph.Reading
import Recast.Proofs.Compile.Meaning
import Recast.Proofs.Compile.Correct
import Recast.Proofs.Markup.Escape
import Recast.Proofs.Markup.Tag
import Recast.Proofs.Markup.Layout
import Recast.Proofs.Markup.Tree
import Recast.Proofs.Script.Tree
import Recast.Proofs.Script.Document
import Recast.Proofs.Markup.Legal
import Recast.Proofs.Script.Held
import Recast.Proofs.Script.Faithful
import Recast.Proofs.Script.Representable
import Recast.Proofs.Flow.Compiled
import Recast.Proofs.Skip.Trimmed
import Recast.Proofs.Graph.Key
import Recast.Proofs.Graph.Move
import Recast.Proofs.Graph.EntityTree
import Recast.Proofs.Graph.SchemaPaths
import Recast.Proofs.Graph.Routes
import Recast.Proofs.Graph.Expansion
import Recast.Proofs.Job.Saved
import Recast.Proofs.Compile.Internal
import Recast.Proofs.Decoder.Whole
import Recast.Proofs.Decoder.Leaves
import Recast.Proofs.Flow.Refused
import Recast.Proofs.Flow.Reread
import Recast.Proofs.Graph.Attached
import Recast.Proofs.Decoder.Fault
import Recast.Proofs.Store.Table
import Recast.Proofs.Store.History
import Recast.Proofs.Store.Stored
import Recast.Proofs.Store.FirstSeen
import Recast.Proofs.Graph.Forms
import Recast.Proofs.Graph.Merge
import Recast.Proofs.Morph.Reset
import Recast.Proofs.Flow.Interleaving
import Recast.Proofs.Condition.Reading
import Recast.Proofs.Pattern.Search
import Recast.Proofs.Morph.Starred
import Recast.Proofs.Morph.Index
import Recast.Proofs.Morph.Depth
import Recast.Proofs.Morph.Faults
import Recast.Proofs.Compile.Nesting
import Recast.Proofs.Compile.Remaining
import Recast.Proofs.Compile.Tables
import Recast.Proofs.Morph.Registry
import Recast.Proofs.Morph.Reported
import Recast.Proofs.Job.Described
import Recast.Proofs.Morph.Substitution
import Recast.Proofs.Morph.Lookup
import Recast.Proofs.Text.Placeholder
import Recast.Proofs.Morph.Gathered
import Recast.Proofs.Markup.Skeleton
import Recast.Proofs.Decoder.Names
import Recast.Proofs.Json.Lexed
import Recast.Proofs.Json.Built
import Recast.Proofs.Json.Reread
import Recast.Proofs.Json.Fields
import Recast.Proofs.Compile.Alike
import Recast.Proofs.Compile.SameTables
import Recast.Proofs.Compile.Interchange
import Recast.Proofs.Compile.Rewritten
import Recast.Proofs.Job.Duplicates
import Recast.Proofs.Config.References
import Recast.Proofs.Graph.PathText
import Recast.Proofs.Time.Stats
import Recast.Proofs.Decoder.Registry
