import TreeDump.Main
import TreeDump.Proofs.CommandLine.Ending
import TreeDump.Proofs.Grammar.Ownership
import TreeDump.Proofs.Json.RoundTrip
import TreeDump.Proofs.Languages.Builtin
import TreeDump.Proofs.Run.Borrowings
import TreeDump.Proofs.Run.Independence
import TreeDump.Proofs.Run.Ledger
import TreeDump.Proofs.Run.Lines
import TreeDump.Proofs.Settings.Configuration
import TreeDump.Proofs.Settings.Patterns
import TreeDump.Proofs.Tree.Export
import TreeDump.Proofs.Walk.Coverage
import TreeDump.Proofs.Yaml.Records
import TreeDump.Tree.Traversal
import TreeDump.Proofs.Format.Preview
import TreeDump.Proofs.Tree.Leaves
import TreeDump.Proofs.Json.Lines
import TreeDump.Proofs.Run.Handling
import TreeDump.Proofs.Run.Stages
import TreeDump.Proofs.Walk.Filtering
import TreeDump.Proofs.Format.Limit
import TreeDump.Proofs.Run.DryRun
import TreeDump.Proofs.Settings.Layers
import TreeDump.Proofs.Grammar.Economy
import TreeDump.Proofs.Languages.Registration
import TreeDump.Proofs.Run.Destinations
import TreeDump.Proofs.Walk.Inheritance
import TreeDump.Proofs.Tree.Conversion
