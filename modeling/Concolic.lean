import Concolic.Main
import Concolic.Fixture
import Concolic.Engine.Scripted
import Concolic.Engine.Bridge
import Concolic.Run.Host
import Concolic.Proofs.Bytes.LittleEndian
import Concolic.Proofs.Bytes.Splice
import Concolic.Proofs.Text.Utf8
import Concolic.Proofs.Record.RoundTrip
import Concolic.Proofs.Log.Traced
import Concolic.Proofs.Run.Carrying
import Concolic.Proofs.Binding
import Concolic.Proofs.Configuration.Construction
import Concolic.Proofs.Run.Collection
import Concolic.Proofs.Run.Pipeline
import Concolic.Proofs.Run.Conversation
import Concolic.Proofs.Run.Scoping
import Concolic.Proofs.Text.Numeral
import Concolic.Proofs.Configuration.Grammar
import Concolic.Proofs.Configuration.Loading
import Concolic.Proofs.FileTree.Footprint
import Concolic.Proofs.FileTree.Confinement
import Concolic.Proofs.Run.Confined
import Concolic.Proofs.Run.Separation
import Concolic.Proofs.Run.Parallel
import Concolic.Proofs.Run.Discovery
import Concolic.Proofs.Configuration.Store
import Concolic.Proofs.Run.Abandoned
import Concolic.Proofs.Json.RoundTrip
import Concolic.Proofs.Text.Hex
import Concolic.Proofs.Engine.Lockstep
import Concolic.Proofs.Engine.Encoding
import Concolic.Proofs.Run.Transparency
import Concolic.Proofs.Record.Interruption
import Concolic.Proofs.Engine.Framing
import Concolic.Proofs.Run.Naming
import Concolic.Proofs.CommandLine.Leftovers
import Concolic.Proofs.Record.Delivery
import Concolic.Proofs.Record.Embedding
import Concolic.Proofs.Run.Holdings
import Concolic.Proofs.Run.Launches
import Concolic.Proofs.Run.Dealing
import Concolic.Proofs.Run.Accounting
import Concolic.Proofs.CommandLine.Totals
import Concolic.Proofs.Run.Silence
import Concolic.Proofs.Record.Exhaustion
import Concolic.Proofs.Record.Damage
import Concolic.Proofs.Configuration.Density
import Concolic.Proofs.Xml.Variation
import Concolic.Proofs.Configuration.Range
import Concolic.Proofs.Configuration.Arrangement
import Concolic.Proofs.Settings.Reading
import Concolic.Proofs.CommandLine.Precedence
import Concolic.Proofs.Run.Addressing
import Concolic.Proofs.Run.Widths
import Concolic.Proofs.FileTree.Changes
import Concolic.Proofs.Run.Enclosure
import Concolic.Proofs.Run.Breakdown
import Concolic.Proofs.Run.Companions
import Concolic.Proofs.Run.Listing
