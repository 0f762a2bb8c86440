import ComponentTree.FileTree.Disk
import ComponentTree.Main
import ComponentTree.Proofs.Graph.Dependencies
import ComponentTree.Proofs.Loader
import ComponentTree.Proofs.Build.Step
import ComponentTree.Proofs.Build.Underway
import ComponentTree.Proofs.Build.Closure
import ComponentTree.Proofs.Build.Attempts
import ComponentTree.Proofs.Build.Missed
import ComponentTree.Proofs.Build.Bounds
import ComponentTree.Proofs.Tree.Reread
import ComponentTree.Proofs.Tree.Separate
import ComponentTree.Proofs.Tree.Layout
import ComponentTree.Proofs.Tree.Walks
import ComponentTree.Proofs.Tree.Chains
import ComponentTree.Proofs.Tree.Drawing
import ComponentTree.Proofs.Json.Reading
import ComponentTree.Proofs.Tree.Record
import ComponentTree.Proofs.Markup.Reading
import ComponentTree.Proofs.Tree.Listing
import ComponentTree.Proofs.Tree.Items
import ComponentTree.Proofs.FileTree.WellNamed
import ComponentTree.Proofs.FileTree.Reordered
import ComponentTree.Proofs.Scan.Sorted
import ComponentTree.Proofs.FileTree.Canonical
import ComponentTree.Proofs.Build.Linked
import ComponentTree.Proofs.Scan.Canonical
import ComponentTree.Proofs.Source.Statements
import ComponentTree.Proofs.Source.Names
import ComponentTree.Proofs.Toml.Strings
import ComponentTree.Proofs.Toml.Values
import ComponentTree.Proofs.Toml.Assignments
import ComponentTree.Proofs.Config.Written
import ComponentTree.Proofs.Run.Ending
import ComponentTree.Proofs.Build.Reached
import ComponentTree.Proofs.Tree.Counted
import ComponentTree.Proofs.Tree.Limited
import ComponentTree.Proofs.Source.Written
import ComponentTree.Proofs.Source.Tags
import ComponentTree.Proofs.Name.Resolution
import ComponentTree.Proofs.Graph.Operations
import ComponentTree.Proofs.CandidateSet.Insertions
import ComponentTree.Proofs.Toml.Keys
import ComponentTree.Proofs.Config.Schema
import ComponentTree.Proofs.Config.Acceptance
import ComponentTree.Proofs.CommandLine.Written
import ComponentTree.Proofs.CommandLine.Reading
import ComponentTree.Proofs.CommandLine.Request
