import Retest.Json.Reader
import Retest.Json.Writer
import Retest.Snapshot.Basic

/-!
# Snapshots as JSON

A snapshot is written as an object with its fields in a fixed order
(`Retest.Snapshot.write`) and read by the rules for records
(`Retest.Snapshot.parse?`). In an object the super class and the headers of
methods may be left out.
-/

namespace Retest

namespace MethodHeader

/-- The names of the fields, in order. -/
def fieldNames : List String := ["access", "exceptions"]

/-- A header from a JSON value. -/
def ofJson? (j : Json) : Option MethodHeader := do
  let record ← j.record? fieldNames
  let [access, exceptions] := record.values | none
  return {
    access := .ofNat (← Json.required? (Json.naturalBelow? UInt16.size) access)
    exceptions := ← Json.required? (Json.list? Json.text?) exceptions }

/-- Write a header. -/
def write (header : MethodHeader) : List Char :=
  Json.writeObject [("access", Json.writeNatural header.access.toNat),
    ("exceptions", Json.writeArray (header.exceptions.map Json.writeString))]

end MethodHeader

namespace Snapshot

/-- The names of the fields, in order. -/
def fieldNames : List String :=
  ["name", "raw_crc", "class", "header", "super_name", "interfaces", "fields",
    "field_fingerprints", "constructors", "instance_methods", "static_methods", "method_headers"]

/-- A fingerprint from a JSON value: any string. -/
def fingerprintOfJson? (j : Json) : Option Fingerprint := j.text?.map .mk

def fingerprintsOfJson? : Json → Option (SortedMap String Fingerprint) :=
  Json.map? fingerprintOfJson?

/-- A snapshot from a JSON value. -/
def ofJson? (j : Json) : Option Snapshot := do
  let record ← j.record? fieldNames
  let [name, crc, whole, header, superName, interfaces, declarations, fields, constructors,
    instanceMethods, staticMethods, methodHeaders] := record.values | none
  let readSuper := Json.nullable? Json.text?
  return {
    name := ← Json.required? Json.text? name
    crc := .ofNat (← Json.required? (Json.naturalBelow? UInt32.size) crc)
    whole := ← Json.required? fingerprintOfJson? whole
    header := ← Json.required? fingerprintOfJson? header
    superName := ← if record.positional then Json.required? readSuper superName
      else Json.optional? none readSuper superName
    interfaces := ← Json.required? Json.set? interfaces
    declarations := ← Json.required? Json.set? declarations
    fields := ← Json.required? fingerprintsOfJson? fields
    constructors := ← Json.required? fingerprintsOfJson? constructors
    instanceMethods := ← Json.required? fingerprintsOfJson? instanceMethods
    staticMethods := ← Json.required? fingerprintsOfJson? staticMethods
    methodHeaders := ← Json.optional? ∅ (Json.map? MethodHeader.ofJson?) methodHeaders }

def parse? (text : String) : Option Snapshot := do ofJson? (← Json.parse? text)

def writeFingerprints (fingerprints : SortedMap String Fingerprint) : List Char :=
  Json.writeObject (fingerprints.entries.map fun (slot, f) => (slot, Json.writeString f.text))

def writeSet (set : SortedSet String) : List Char :=
  Json.writeArray (set.toList.map Json.writeString)

/-- Write a snapshot. -/
def write (snapshot : Snapshot) : List Char :=
  Json.writeObject [("name", Json.writeString snapshot.name),
    ("raw_crc", Json.writeNatural snapshot.crc.toNat),
    ("class", Json.writeString snapshot.whole.text),
    ("header", Json.writeString snapshot.header.text),
    ("super_name", snapshot.superName.elim "null".toList Json.writeString),
    ("interfaces", writeSet snapshot.interfaces),
    ("fields", writeSet snapshot.declarations),
    ("field_fingerprints", writeFingerprints snapshot.fields),
    ("constructors", writeFingerprints snapshot.constructors),
    ("instance_methods", writeFingerprints snapshot.instanceMethods),
    ("static_methods", writeFingerprints snapshot.staticMethods),
    ("method_headers", Json.writeObject
      (snapshot.methodHeaders.entries.map fun (slot, h) => (slot, h.write)))]

end Snapshot

end Retest
