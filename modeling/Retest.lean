import Retest.Analysis
import Retest.Assembly.Basic
import Retest.Assembly.Code
import Retest.Assembly.Pool
import Retest.Build.Basic
import Retest.Build.ClassPath
import Retest.CallGraph.Basic
import Retest.CallGraph.Draft
import Retest.CallGraph.Footprint
import Retest.CallGraph.Reflection
import Retest.ClassFile.AnnotationText
import Retest.ClassFile.Attribute
import Retest.ClassFile.Basic
import Retest.ClassFile.Bytecode
import Retest.ClassFile.Constant
import Retest.ClassFile.Cursor
import Retest.ClassFile.Decode
import Retest.ClassFile.Fact
import Retest.ClassFile.Fault
import Retest.ClassFile.Pool
import Retest.Dependency
import Retest.Digest.Crc32
import Retest.Digest.Fingerprint
import Retest.Digest.Sha256
import Retest.Error
import Retest.Hierarchy
import Retest.Inventory
import Retest.Json.Reader
import Retest.Json.Value
import Retest.Json.Writer
import Retest.Selection.Basic
import Retest.Selection.Next
import Retest.Selection.Outcome
import Retest.Selection.Run
import Retest.Selection.Tests
import Retest.Settings
import Retest.Snapshot.Basic
import Retest.Snapshot.Change
import Retest.Snapshot.Json
import Retest.Snapshot.Lines
import Retest.Sorted.Map
import Retest.Sorted.Set
import Retest.Store.Basic
import Retest.Store.Directory
import Retest.Store.Line
import Retest.Store.Text
import Retest.Text.Blank
import Retest.Text.GraphemeExtend
import Retest.Text.Numeral
import Retest.Text.Quoted
import Retest.Text.Ranges
import Retest.Text.Search
import Retest.Text.Unprintable
import Retest.Text.Utf8
import Retest.Text.WordChar
import Retest.Traversal
import Retest.UnitName
import Retest.Proofs.Sorted
import Retest.Proofs.Text.Parts
import Retest.Proofs.Analysis
import Retest.Proofs.Json.Written
import Retest.Proofs.Selection.Diff
import Retest.Proofs.Selection.Fixpoint
import Retest.Proofs.Selection.Soundness
import Retest.Proofs.CallGraph.Dispatch
import Retest.Proofs.Selection.Completeness
import Retest.Proofs.Store.Tolerance
import Retest.Proofs.Selection.Overriding
import Retest.Proofs.Selection.Names
import Retest.Proofs.Selection.Interruption
import Retest.Proofs.Selection.Unusable
import Retest.Proofs.Selection.First
import Retest.Proofs.Selection.LostSnapshots
import Retest.Proofs.Store.Damage
import Retest.Proofs.Selection.LostRecords
import Retest.Proofs.Selection.Encodings
import Retest.Proofs.Selection.Removed
import Retest.Proofs.Selection.UnitRecords
import Retest.Proofs.CallGraph.Reflection
import Retest.Proofs.Selection.Wildcard
import Retest.Proofs.Selection.Reflection
import Retest.Proofs.CallGraph.Merging
import Retest.Proofs.ClassFile.Readers
import Retest.Proofs.ClassFile.Layout
import Retest.Proofs.ClassFile.PassedOver
import Retest.Proofs.Assembly.Pool
import Retest.Proofs.Assembly.Code
import Retest.Proofs.Assembly.RoundTrip
import Retest.Proofs.ClassFile.Names
import Retest.Proofs.ClassFile.Operands
import Retest.Proofs.ClassFile.Texts
import Retest.Proofs.Snapshot.Lines
import Retest.Proofs.Selection.Locality
import Retest.Proofs.Selection.Shortcut
import Retest.Proofs.Selection.Tests
import Retest.Proofs.Selection.Exact
import Retest.Proofs.Snapshot.Renaming
import Retest.Proofs.Snapshot.Unchanged
import Retest.Proofs.Snapshot.Tolerated
import Retest.Proofs.Declared
import Retest.Proofs.CallGraph.Rules
import Retest.Proofs.ClassFile.Encoding
import Retest.Proofs.Snapshot.Equivalence
import Retest.Proofs.Snapshot.Symmetry
import Retest.Proofs.Text.ModifiedUtf8
import Retest.Proofs.ClassFile.PrefixFree
import Retest.Proofs.CallGraph.Bootstraps
import Retest.Proofs.Snapshot.DeclarationOrder
import Retest.Proofs.Store.Resaving
import Retest.Proofs.ClassFile.Jumps
import Retest.Proofs.Selection.Ancestry
