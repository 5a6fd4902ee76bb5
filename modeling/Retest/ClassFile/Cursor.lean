import Retest.ClassFile.Fault

/-!
# Reading octets

A `Retest.Cursor` is a place in an octet string: how far it is from the start,
and what is left. A `Retest.Reader` takes some octets off the front and returns
a value, or fails with a fault. All numbers are written with the most
significant octet first.

A read never looks beyond the octets it takes, so its outcome on what is left
does not depend on what follows.
-/

namespace Retest

/-- A place in an octet string. -/
structure Cursor where
  /-- How many octets lie before the place. -/
  position : Nat
  /-- The octets after it. -/
  rest : List UInt8
deriving DecidableEq, Repr

/-- A step that reads octets at the cursor and moves it, or fails. What has been read before a fault
is lost. -/
abbrev Reader := StateT Cursor (Except Fault)

namespace Reader

/-- Read a whole octet string from its start; what is left at the end is passed over. -/
def within {α : Type} (bytes : List UInt8) (reader : Reader α) : Except Fault α :=
  (reader.run ⟨0, bytes⟩).map (·.1)

def fail {α : Type} (fault : Fault) : Reader α := fun _ => .error fault

def position : Reader Nat := fun c => .ok (c.position, c)

def remaining : Reader Nat := fun c => .ok (c.rest.length, c)

def atEnd : Reader Bool := fun c => .ok (c.rest.isEmpty, c)

/-- Fail if octets wanted at the cursor are not there. -/
def short {α : Type} (wanted : Nat) : Reader α := fun c => .error (.truncated c.position wanted)

/-- The first `n` elements of a list and the rest, if there are that many. -/
def cut? {α : Type} : Nat → List α → Option (List α × List α)
  | 0, l => some ([], l)
  | _ + 1, [] => none
  | n + 1, a :: l => (cut? n l).map fun (front, rest) => (a :: front, rest)

/-- Cutting a list gives two parts that make it up, the first of the length asked for. -/
theorem cut?_eq_some_iff {α : Type} {n : Nat} {l front rest : List α} :
    cut? n l = some (front, rest) ↔ l = front ++ rest ∧ front.length = n := by
  induction n generalizing l front with
  | zero =>
    rw [cut?, Option.some.injEq, Prod.mk.injEq, List.length_eq_zero_iff]
    constructor
    · rintro ⟨rfl, rfl⟩
      exact ⟨rfl, rfl⟩
    · rintro ⟨rfl, rfl⟩
      exact ⟨rfl, rfl⟩
  | succ n ih =>
    cases l with
    | nil =>
      rw [cut?]
      constructor
      · intro h
        cases h
      · rintro ⟨h, hn⟩
        rw [(List.append_eq_nil_iff.1 h.symm).1] at hn
        cases hn
    | cons a l =>
      rw [cut?, Option.map_eq_some_iff]
      constructor
      · rintro ⟨⟨f, r⟩, hc, hp⟩
        obtain ⟨rfl, rfl⟩ := Prod.mk.inj hp
        obtain ⟨rfl, hn⟩ := ih.1 hc
        exact ⟨rfl, by rw [List.length_cons, hn]⟩
      · rintro ⟨h, hn⟩
        cases front with
        | nil => cases hn
        | cons b front =>
          obtain ⟨rfl, rfl⟩ := List.cons.inj h
          exact ⟨(front, rest), ih.2 ⟨rfl, Nat.succ.inj hn⟩, rfl⟩

def take (n : Nat) : Reader (List UInt8) := fun c =>
  match cut? n c.rest with
  | some (front, rest) => .ok (front, ⟨c.position + n, rest⟩)
  | none => short n c

def u1 : Reader UInt8 := fun c =>
  match c.rest with
  | a :: rest => .ok (a, ⟨c.position + 1, rest⟩)
  | _ => short 1 c

def u2 : Reader UInt16 := fun c =>
  match c.rest with
  | a :: b :: rest => .ok (.ofNat (a.toNat * 256 + b.toNat), ⟨c.position + 2, rest⟩)
  | _ => short 2 c

def u4 : Reader UInt32 := fun c =>
  match c.rest with
  | a :: b :: d :: e :: rest =>
    .ok (.ofNat (((a.toNat * 256 + b.toNat) * 256 + d.toNat) * 256 + e.toNat),
      ⟨c.position + 4, rest⟩)
  | _ => short 4 c

/-- Read a number of eight octets, as two of four. -/
def u8 : Reader UInt64 := do
  let high ← u4
  let low ← u4
  return .ofNat (high.toNat * UInt32.size + low.toNat)

def i1 : Reader Int8 := return (← u1).toInt8

def i2 : Reader Int16 := return (← u2).toInt16

def i4 : Reader Int32 := return (← u4).toInt32

def times {α : Type} (reader : Reader α) : Nat → Reader (List α)
  | 0 => return []
  | n + 1 => do
    let a ← reader
    let as ← times reader n
    return a :: as

/-- Read a number of two octets, and then that many times. -/
def counted {α : Type} (reader : Reader α) : Reader (List α) := do times reader (← u2).toNat

/-- Read until no octet is left, `fuel` times at most. For a reader that takes at least one octet
each time, as many times as there are octets are enough. -/
def untilEnd {α : Type} (reader : Reader α) : (fuel : Nat) → Reader (List α)
  | 0 => return []
  | fuel + 1 => do
    if ← atEnd then return []
    let a ← reader
    let as ← untilEnd reader fuel
    return a :: as

end Reader

end Retest
