import DataBridge.Main
import DataBridge.Marshal.Machine
import DataBridge.Proofs.Double
import DataBridge.Proofs.Failure
import DataBridge.Proofs.Ending
import DataBridge.Proofs.Record
import DataBridge.Proofs.Resolver.Ensures
import DataBridge.Proofs.Resolver.Reachable
import DataBridge.Proofs.Resolver.WellFormed
import DataBridge.Proofs.Resolver.Depth
import DataBridge.Proofs.Resolver.Search
import DataBridge.Proofs.Resolver.Descent
import DataBridge.Proofs.Resolver.Unfold
import DataBridge.Proofs.Resolver.Memory
import DataBridge.Proofs.Resolver.Definition
import DataBridge.Proofs.Resolver.Content
import DataBridge.Proofs.Resolver.Numeric
import DataBridge.Proofs.Flatten.Layout
import DataBridge.Proofs.Flatten.Occurrence
import DataBridge.Proofs.Flatten.LeafPath
import DataBridge.Proofs.Flatten.Addressing
import DataBridge.Proofs.Flatten.Slots
import DataBridge.Proofs.Flatten.Essence
import DataBridge.Proofs.Naming.HighWater
import DataBridge.Proofs.Naming.Script
import DataBridge.Proofs.Marshal.Codec
import DataBridge.Proofs.Marshal.Machine
import DataBridge.Proofs.Marshal.Incoming
import DataBridge.Proofs.Marshal.Outgoing
import DataBridge.Proofs.Marshal.Leaf
import DataBridge.Proofs.Marshal.Canonical
import DataBridge.Proofs.Marshal.RoundTrip
import DataBridge.Proofs.Marshal.Reference
import DataBridge.Proofs.Marshal.Heap
import DataBridge.Proofs.Marshal.Aliasing
import DataBridge.Proofs.Marshal.Sharing
import DataBridge.Proofs.Path
import DataBridge.Proofs.Path.Order
import DataBridge.Proofs.FileSystem
import DataBridge.Proofs.FileSystem.Writing
import DataBridge.Proofs.Artifacts
import DataBridge.Proofs.Loader.DepthFirst
import DataBridge.Proofs.Loader.Imports
import DataBridge.Proofs.Loader.Closure
import DataBridge.Proofs.Loader.Schema
import DataBridge.Proofs.Loader.History
import DataBridge.Proofs.Privacy.Visible
import DataBridge.Proofs.Privacy.Program
import DataBridge.Proofs.Privacy.Native
import DataBridge.Proofs.Privacy.Generated
import DataBridge.Proofs.Marshal.Blank
import DataBridge.Proofs.Casing
import DataBridge.Proofs.Words
import DataBridge.Proofs.Program.Temporary
import DataBridge.Proofs.Program.Call
import DataBridge.Proofs.Program.Borrowed
import DataBridge.Proofs.Program.Usage
import DataBridge.Proofs.Program.Declaration
import DataBridge.Proofs.Header.Lines
import DataBridge.Proofs.Header.Reading
import DataBridge.Proofs.Header.Complete
import DataBridge.Proofs.Addon.TypeNames
import DataBridge.Proofs.Addon.Identifiers
import DataBridge.Proofs.Addon.FileScope
import DataBridge.Proofs.Addon.Collision
import DataBridge.Proofs.Addon.HeaderTypes
import DataBridge.Proofs.Resolver.Agreement
import DataBridge.Proofs.Resolver.Expansion
import DataBridge.Proofs.Resolver.Upkeep
import DataBridge.Proofs.Resolver.Settled
import DataBridge.Proofs.Resolver.Aliases
import DataBridge.Proofs.Header.Declared
import DataBridge.Proofs.Package.DebFile
import DataBridge.Proofs.Command.Run
import DataBridge.Proofs.Resolver.Comments
import DataBridge.Proofs.Header.Comments
import DataBridge.Proofs.Addon.Mention
import DataBridge.Proofs.Addon.Allowed
import DataBridge.Proofs.Addon.Programs
import DataBridge.Proofs.Addon.Spelling
import DataBridge.Proofs.Addon.Carriers
import DataBridge.Proofs.Addon.Handlers
import DataBridge.Proofs.Addon.Calls
import DataBridge.Proofs.Addon.Start
import DataBridge.Proofs.Addon.Outside
import DataBridge.Proofs.Addon.Order
import DataBridge.Proofs.Addon.Closed
import DataBridge.Proofs.Double.Nearest
import DataBridge.Proofs.Flatten.Mirror
import DataBridge.Proofs.Flatten.Nesting
import DataBridge.Proofs.Loader.Directories
import DataBridge.Proofs.Marshal.Reduction
import DataBridge.Proofs.Truncation
import DataBridge.Proofs.Numbering
import DataBridge.Proofs.Json.Reading
import DataBridge.Proofs.Json.Printed
import DataBridge.Proofs.Program.Document
