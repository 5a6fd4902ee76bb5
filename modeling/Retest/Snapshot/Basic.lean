import Retest.ClassFile.Decode
import Retest.Dependency
import Retest.Digest.Crc32
import Retest.Digest.Fingerprint
import Retest.Snapshot.Lines
import Retest.Sorted.Map

/-!
# Snapshots

A `Retest.Snapshot` is what is remembered of a unit from one selection to the
next: a fingerprint of each member and of the whole, and the few facts about
the unit that tell kinds of changes apart. Where a class file declares a slot
more than once, the last declaration stays.

Constructors and static initializers are fingerprinted without regard to the
order of their lines; all other members in order.
-/

namespace Retest

structure MethodHeader where
  access : Access
  exceptions : List UnitName
deriving DecidableEq, Repr

/-- **What is remembered of a unit** from one selection to the next. -/
structure Snapshot where
  name : UnitName
  /-- The checksum of the class file's octets. -/
  crc : UInt32
  /-- The fingerprint of the unit as a whole. -/
  whole : Fingerprint
  /-- The fingerprint of its access flags, generic signature and annotations. -/
  header : Fingerprint
  superName : Option UnitName
  interfaces : SortedSet UnitName
  /-- The declarations of its fields, with initial values. -/
  declarations : SortedSet String
  /-- The fingerprints of fields, by slot. -/
  fields : SortedMap String Fingerprint
  /-- The fingerprints of constructors and static initializers, by slot. -/
  constructors : SortedMap Signature Fingerprint
  /-- The fingerprints of the other methods that are not static, by slot. -/
  instanceMethods : SortedMap Signature Fingerprint
  /-- The fingerprints of the other static methods, by slot. -/
  staticMethods : SortedMap Signature Fingerprint
  /-- The headers of all methods, by slot. -/
  methodHeaders : SortedMap Signature MethodHeader
deriving DecidableEq

namespace Snapshot

/-! ### Look-ups -/

/-- The fingerprint of a method, of whichever kind it is. -/
def method? (snapshot : Snapshot) (signature : Signature) : Option Fingerprint :=
  snapshot.constructors.get? signature <|> snapshot.instanceMethods.get? signature <|>
    snapshot.staticMethods.get? signature

def field? (snapshot : Snapshot) (name descriptor : String) : Option Fingerprint :=
  snapshot.fields.get? (name ++ ":" ++ descriptor)

/-- **The fingerprint of a dependency** that belongs to the unit. This is what records are compared
with. -/
def fingerprint? (snapshot : Snapshot) (id : Dependency) : Option Fingerprint :=
  if id.owner ≠ snapshot.name then none
  else
    match id with
    | .unit _ => some snapshot.whole
    | .method key => snapshot.method? key.signature
    | .field key => snapshot.field? key.name key.descriptor

def signatures (snapshot : Snapshot) : List Signature :=
  snapshot.constructors.keys.toList ++ snapshot.instanceMethods.keys.toList ++
    snapshot.staticMethods.keys.toList

def parents (snapshot : Snapshot) : List UnitName :=
  snapshot.superName.toList ++ snapshot.interfaces.toList

/-! ### Taking a snapshot -/

/-- The fingerprints of members that pass a test, by slot. Of members with the same slot the last
one stays. -/
def slots {α : Type} (members : List α) (keep : α → Bool) (slot : α → String)
    (fingerprint : α → Fingerprint) : SortedMap String Fingerprint :=
  .ofList ((members.filter keep).map fun m => (slot m, fingerprint m))

/-- The lines of which the fingerprint of a whole unit is taken. -/
def summary (snapshot : Snapshot) : List String :=
  ["header " ++ snapshot.header.text, "super " ++ snapshot.superName.getD "-",
    "interfaces " ++ ",".intercalate snapshot.interfaces.toList] ++
    part "field " snapshot.fields ++ part "init " snapshot.constructors ++
    part "method " snapshot.instanceMethods ++ part "static " snapshot.staticMethods
where
  /-- The lines for members of one kind. -/
  part (kind : String) (members : SortedMap String Fingerprint) : List String :=
    members.entries.map fun (slot, fingerprint) => kind ++ slot ++ " " ++ fingerprint.text

/-- **Take a snapshot** of a class file, given the checksum of its octets. -/
def ofClass (file : ClassFile) (crc : UInt32) : Snapshot :=
  let isInitializer (m : MethodDecl) : Bool := isInitializerName m.name
  let ordered (m : MethodDecl) : Fingerprint := .ordered m.lines
  let parts : Snapshot := {
    name := file.name
    crc := crc
    whole := default
    header := .ordered file.headerLines
    superName := file.superName
    interfaces := .ofList file.interfaces
    declarations := .ofList (file.fields.map FieldDecl.declaration)
    fields := slots file.fields (fun _ => true) FieldDecl.slot fun f => .ordered f.lines
    constructors := slots file.methods isInitializer MethodDecl.slot fun m => .unordered m.lines
    instanceMethods :=
      slots file.methods (fun m => !isInitializer m && !m.access.isStatic) MethodDecl.slot ordered
    staticMethods :=
      slots file.methods (fun m => !isInitializer m && m.access.isStatic) MethodDecl.slot ordered
    methodHeaders := .ofList (file.methods.map fun m => (m.slot, ⟨m.access, m.exceptions⟩)) }
  { parts with whole := .ordered parts.summary }

def decode (bytes : List UInt8) : Except Fault (ClassFile × Snapshot) := do
  let file ← ClassFile.decode bytes
  return (file, ofClass file (Digest.Crc32.check bytes))

end Snapshot

end Retest
