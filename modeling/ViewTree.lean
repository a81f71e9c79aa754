import ViewTree.Main
import ViewTree.Proofs.Command.Readable
import ViewTree.Proofs.Compile.Locality
import ViewTree.Proofs.Compile.Silence
import ViewTree.Proofs.Host.Realize
import ViewTree.Proofs.Metadata.Search
import ViewTree.Proofs.Metadata.Typed
import ViewTree.Proofs.Render.Edit
import ViewTree.Proofs.Render.Nulls
import ViewTree.Proofs.Render.Outline
import ViewTree.Proofs.Rule.Encoding
import ViewTree.Proofs.Rule.Exhaustive
import ViewTree.Proofs.Rule.Pruning
import ViewTree.Proofs.View.Format
import ViewTree.Proofs.Rule.Shape
import ViewTree.Proofs.Tree.Preorder
import ViewTree.Proofs.Component.Inside
import ViewTree.Proofs.Component.Inspection
import ViewTree.Proofs.Component.Description
import ViewTree.Proofs.Component.Gates
import ViewTree.Proofs.Factory.Registry
import ViewTree.Proofs.Rules.Assignment
