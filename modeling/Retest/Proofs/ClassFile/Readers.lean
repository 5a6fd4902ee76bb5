import Mathlib.Data.List.Forall2
import Retest.Assembly.Pool
import Retest.ClassFile.Cursor

/-!
# What readers make of octets

Two things are said of a reader. It *yields* an outcome on certain octets
(`Retest.Reader.Yields`) if it comes to that outcome wherever the octets stand and
whatever follows them, and has taken exactly these octets if it succeeds. And it is
*local* (`Retest.Reader.IsLocal`) if every success is of this kind: it takes some
octets off the front, and would have found the same value in them anywhere else.

Both carry over from the parts of a reader to the whole, so that what a reader of
the class-file format does on octets that were put together from parts is read off
from what it does on the parts. Numbers are the leaves: they are read from the
octets that `Retest.Assembly.two` and `Retest.Assembly.four` write, and from no
others.

Where reading is over, what is left are outcomes of single steps: the module begins with
what the success of a step after another one, or of a step for each element of a list, says
of the steps.
-/

namespace Retest

open Assembly (two four)

/-! ### Steps that succeed -/

section Outcomes

variable {α β γ : Type} {f : α → Except Fault β} {g : β → Except Fault γ}

/-- A step after another one succeeds. -/
theorem bind_eq_ok_iff {outcome : Except Fault α} {next : α → Except Fault β} {b : β} :
    (outcome >>= next) = .ok b ↔ ∃ a, outcome = .ok a ∧ next a = .ok b := by
  constructor
  · intro h
    cases outcome with
    | error fault => cases h
    | ok a => exact ⟨a, rfl, h⟩
  · rintro ⟨a, rfl, h⟩
    exact h

theorem mapM_eq_ok_iff {l : List α} {l' : List β} :
    l.mapM f = .ok l' ↔ List.Forall₂ (fun a b => f a = .ok b) l l' := by
  induction l generalizing l' with
  | nil =>
    rw [List.mapM_nil, List.forall₂_nil_left_iff]
    exact ⟨fun h => (Except.ok.inj h).symm, fun h => congrArg _ h.symm⟩
  | cons a l ih =>
    rw [List.mapM_cons, List.forall₂_cons_left_iff, bind_eq_ok_iff]
    constructor
    · rintro ⟨b, hb, h⟩
      obtain ⟨r, hr, h⟩ := bind_eq_ok_iff.1 h
      cases h
      exact ⟨b, r, hb, ih.1 hr, rfl⟩
    · rintro ⟨b, r, hb, hr, rfl⟩
      exact ⟨b, hb, bind_eq_ok_iff.2 ⟨r, ih.2 hr, rfl⟩⟩

/-- All elements come to the outcome that is expected of them. -/
theorem mapM_eq_ok_map_iff {h : α → β} {l : List α} :
    l.mapM f = .ok (l.map h) ↔ ∀ a ∈ l, f a = .ok (h a) := by
  rw [mapM_eq_ok_iff, List.forall₂_map_right_iff, List.forall₂_same]

/-- The same, where for each element something else is expected. -/
theorem mapM_eq_ok_map_iff_forall {h : γ → β} {Q : γ → Prop} {l : List γ} {l' : List α}
    (hall : List.Forall₂ (fun c a => f a = .ok (h c) ↔ Q c) l l') :
    l'.mapM f = .ok (l.map h) ↔ ∀ c ∈ l, Q c := by
  rw [mapM_eq_ok_iff, List.forall₂_map_right_iff]
  induction hall with
  | nil => simp
  | cons hhead _ ih => rw [List.forall₂_cons, List.forall_mem_cons, ih, hhead]

theorem exists_mapM_eq_ok {l : List α} (h : ∀ a ∈ l, ∃ b, f a = .ok b) :
    ∃ l', l.mapM f = .ok l' := by
  induction l with
  | nil => exact ⟨[], rfl⟩
  | cons a l ih =>
    obtain ⟨b, hb⟩ := h a List.mem_cons_self
    obtain ⟨l', hl'⟩ := ih fun a ha => h a (List.mem_cons_of_mem _ ha)
    exact ⟨b :: l', by rw [List.mapM_cons, hb, hl']; rfl⟩

/-- What an element comes to stands at its place. -/
theorem getElem?_of_mapM_eq_ok {l : List α} {l' : List β} (h : l.mapM f = .ok l') {k : Nat}
    {a : α} {b : β} (hk : l[k]? = some a) (hb : f a = .ok b) : l'[k]? = some b := by
  rw [mapM_eq_ok_iff] at h
  induction h generalizing k with
  | nil => cases hk
  | cons hhead _ ih =>
    rcases k with _ | k
    · rw [Option.some.inj hk, hb] at hhead
      exact congrArg some (Except.ok.inj hhead).symm
    · exact ih hk

/-- Two passes succeed together if one pass over both does. -/
theorem mapM_bind_eq_ok_iff {l : List α} {l' : List γ} :
    (∃ r, l.mapM f = .ok r ∧ r.mapM g = .ok l') ↔ l.mapM (fun a => f a >>= g) = .ok l' := by
  simp only [mapM_eq_ok_iff]
  induction l generalizing l' with
  | nil => simp
  | cons a l ih =>
    rw [List.forall₂_cons_left_iff]
    constructor
    · rintro ⟨r, hr, hl'⟩
      obtain ⟨b, r', hb, hr', rfl⟩ := List.forall₂_cons_left_iff.1 hr
      obtain ⟨c, s, hc, hs, rfl⟩ := List.forall₂_cons_left_iff.1 hl'
      exact ⟨c, s, bind_eq_ok_iff.2 ⟨b, hb, hc⟩, ih.1 ⟨r', hr', hs⟩, rfl⟩
    · rintro ⟨c, s, hc, hs, rfl⟩
      obtain ⟨r, hr, hs'⟩ := ih.2 hs
      obtain ⟨b, hb, hc⟩ := bind_eq_ok_iff.1 hc
      exact ⟨b :: r, .cons hb hr, .cons hc hs'⟩

/-- What comes of elements with one property has another one, if this holds of each. -/
theorem forall_of_mapM_eq_ok {P : α → Prop} {Q : β → Prop}
    (hf : ∀ a b, P a → f a = .ok b → Q b) {l : List α} {l' : List β} (h : l.mapM f = .ok l')
    (hl : ∀ a ∈ l, P a) : ∀ b ∈ l', Q b := by
  rw [mapM_eq_ok_iff] at h
  induction h with
  | nil => simp
  | cons hab _ ih =>
    rw [List.forall_mem_cons] at hl ⊢
    exact ⟨hf _ _ hl.1 hab, ih hl.2⟩

end Outcomes

/-! ### Numbers -/

namespace Assembly

@[simp] theorem length_two (n : UInt16) : (two n).length = 2 := rfl

@[simp] theorem length_four (n : UInt32) : (four n).length = 4 := rfl

/-- Every two octets are those of a number. -/
theorem two_ofNat (a b : UInt8) : two (.ofNat (a.toNat * 256 + b.toNat)) = [a, b] := by
  have ha := a.toNat_lt
  have hb := b.toNat_lt
  rw [two, UInt16.toNat_ofNat_of_lt' (show _ < 65536 by omega),
    show (a.toNat * 256 + b.toNat) / 256 = a.toNat by omega,
    show (a.toNat * 256 + b.toNat) % 256 = b.toNat by omega, UInt8.ofNat_toNat, UInt8.ofNat_toNat]

/-- Every four octets are those of a number. -/
theorem four_ofNat (a b c d : UInt8) :
    four (.ofNat (((a.toNat * 256 + b.toNat) * 256 + c.toNat) * 256 + d.toNat)) = [a, b, c, d] := by
  have ha := a.toNat_lt
  have hb := b.toNat_lt
  have hc := c.toNat_lt
  have hd := d.toNat_lt
  have byte : ∀ (n : Nat) (x : UInt8), n % 256 = x.toNat → UInt8.ofNat n = x := by
    intro n x hn
    rw [← UInt8.toNat_inj, UInt8.toNat_ofNat', hn]
  rw [four, UInt32.toNat_ofNat_of_lt' (show _ < 4294967296 by omega), byte _ a (by omega),
    byte _ b (by omega), byte _ c (by omega), byte _ d (by omega)]

end Assembly

namespace Reader

variable {α β γ : Type}

/-! ### Outcomes on octets -/

/-- **A reader yields an outcome on octets**: it comes to it wherever they stand and whatever
follows, and takes them off if it succeeds. -/
def Yields (reader : Reader α) (octets : List UInt8) (outcome : Except Fault α) : Prop :=
  ∀ position rest, reader.run ⟨position, octets ++ rest⟩ =
    outcome.map fun a => (a, ⟨position + octets.length, rest⟩)

namespace Yields

theorem pure (a : α) : Yields (Pure.pure a) [] (.ok a) := fun _ _ => rfl

/-- What is looked up beside the octets takes none of them. -/
theorem lift (outcome : Except Fault α) : Yields (liftM outcome) [] outcome := by
  intro position rest
  cases outcome <;> rfl

theorem bind {reader : Reader α} {next : α → Reader β} {octets octets' : List UInt8}
    {outcome : Except Fault α} {outcome' : α → Except Fault β} (h : Yields reader octets outcome)
    (h' : ∀ a, outcome = .ok a → Yields (next a) octets' (outcome' a)) :
    Yields (reader >>= next) (octets ++ octets') (outcome >>= outcome') := by
  intro position rest
  rw [StateT.run_bind, List.append_assoc, h]
  cases outcome with
  | error fault => rfl
  | ok a =>
    refine (h' a rfl (position + octets.length) rest).trans ?_
    rw [List.length_append, Nat.add_assoc]
    rfl

/-- Success, and then something else. -/
theorem bind_ok {reader : Reader α} {next : α → Reader β} {octets octets' : List UInt8} {a : α}
    {outcome : Except Fault β} (h : Yields reader octets (.ok a))
    (h' : Yields (next a) octets' outcome) :
    Yields (reader >>= next) (octets ++ octets') outcome := by
  have hnext : ∀ b, Except.ok a = (.ok b : Except Fault α) → Yields (next b) octets' outcome := by
    intro b hb
    cases hb
    exact h'
  exact h.bind hnext

/-- Success, and then something that takes nothing. -/
theorem map_ok {reader : Reader α} {f : α → β} {octets : List UInt8} {a : α}
    (h : Yields reader octets (.ok a)) : Yields (do return f (← reader)) octets (.ok (f a)) := by
  rw [← List.append_nil octets]
  exact h.bind_ok (.pure (f a))

/-- Something that takes nothing, and then something else. -/
theorem lift_bind {outcome : Except Fault α} {next : α → Reader β} {octets : List UInt8}
    {outcome' : α → Except Fault β}
    (h : ∀ a, outcome = .ok a → Yields (next a) octets (outcome' a)) :
    Yields (liftM outcome >>= next) octets (outcome >>= outcome') :=
  (lift outcome).bind h

/-- What remains of a string that is read as a whole is passed over. -/
theorem within {reader : Reader α} {octets : List UInt8} {outcome : Except Fault α}
    (h : Yields reader octets outcome) (tail : List UInt8) :
    Reader.within (octets ++ tail) reader = outcome := by
  rw [Reader.within, h 0 tail]
  cases outcome <;> rfl

theorem u1 (b : UInt8) : Yields u1 [b] (.ok b) := fun _ _ => rfl

theorem u2 (n : UInt16) : Yields u2 (two n) (.ok n) := by
  intro position rest
  have hn := n.toNat_lt
  have hread : UInt16.ofNat ((UInt8.ofNat (n.toNat / 256)).toNat * 256 +
      (UInt8.ofNat (n.toNat % 256)).toNat) = n := by
    rw [← UInt16.toNat_inj, UInt16.toNat_ofNat', UInt8.toNat_ofNat', UInt8.toNat_ofNat']
    omega
  exact congrArg (fun m => Except.ok (m, (⟨position + 2, rest⟩ : Cursor))) hread

/-- What is looked up under an index. -/
theorem lookup (find : UInt16 → Except Fault α) (index : UInt16) :
    Yields (do find (← Reader.u2)) (two index) (find index) := by
  rw [← List.append_nil (two index)]
  exact (u2 index).bind_ok (lift (find index))

theorem u4 (n : UInt32) : Yields u4 (four n) (.ok n) := by
  intro position rest
  have hn := n.toNat_lt
  have hread : UInt32.ofNat ((((UInt8.ofNat (n.toNat / 0x1000000)).toNat * 256 +
      (UInt8.ofNat (n.toNat / 0x10000)).toNat) * 256 +
      (UInt8.ofNat (n.toNat / 0x100)).toNat) * 256 + (UInt8.ofNat n.toNat).toNat) = n := by
    rw [← UInt32.toNat_inj, UInt32.toNat_ofNat', UInt8.toNat_ofNat', UInt8.toNat_ofNat',
      UInt8.toNat_ofNat', UInt8.toNat_ofNat']
    omega
  exact congrArg (fun m => Except.ok (m, (⟨position + 4, rest⟩ : Cursor))) hread

theorem take (octets : List UInt8) : Yields (take octets.length) octets (.ok octets) := by
  intro position rest
  have hcut : cut? octets.length (octets ++ rest) = some (octets, rest) :=
    cut?_eq_some_iff.2 ⟨rfl, rfl⟩
  show Reader.take octets.length ⟨position, octets ++ rest⟩ = _
  rw [Reader.take, hcut]
  rfl

/-- Reading one part after another. -/
theorem times {reader : Reader α} {octets : γ → List UInt8} {outcome : γ → Except Fault α}
    {parts : List γ} (h : ∀ part ∈ parts, Yields reader (octets part) (outcome part)) :
    Yields (times reader parts.length) (parts.flatMap octets) (parts.mapM outcome) := by
  induction parts with
  | nil => exact pure []
  | cons part parts ih =>
    rw [List.mapM_cons, List.flatMap_cons]
    refine (h part List.mem_cons_self).bind fun a _ => ?_
    rw [← List.append_nil (parts.flatMap octets)]
    exact (ih fun part hpart => h part (List.mem_cons_of_mem _ hpart)).bind fun as _ => pure _

/-- Reading parts after their number. -/
theorem counted {reader : Reader α} {octets : γ → List UInt8} {outcome : γ → Except Fault α}
    {parts : List γ} (hlength : parts.length < 65536)
    (h : ∀ part ∈ parts, Yields reader (octets part) (outcome part)) :
    Yields (counted reader) (Assembly.counted (parts.map octets)) (parts.mapM outcome) := by
  have hcount : (UInt16.ofNat (parts.map octets).length).toNat = parts.length := by
    rw [List.length_map, UInt16.toNat_ofNat_of_lt' hlength]
  rw [Assembly.counted, ← List.flatMap_def]
  refine (u2 _).bind_ok ?_
  rw [hcount]
  exact times h

/-- Reading parts after their number, if each of them can be read. -/
theorem counted_ok {reader : Reader α} {octets : γ → List UInt8} {value : γ → α}
    {parts : List γ} (hlength : parts.length < 65536)
    (h : ∀ part ∈ parts, Yields reader (octets part) (.ok (value part))) :
    Yields (Reader.counted reader) (Assembly.counted (parts.map octets))
      (.ok (parts.map value)) := by
  have hvalues : parts.mapM (fun part => (Except.ok (value part) : Except Fault α)) =
      .ok (parts.map value) := List.mapM_pure
  exact hvalues ▸ counted hlength h

end Yields

/-! ### Successes taken apart -/

theorem eq_ok_of_toOption {outcome : Except Fault α} {a : α} (h : outcome.toOption = some a) :
    outcome = .ok a := by
  cases outcome with
  | error fault => cases h
  | ok b => rw [Option.some.inj h]

theorem of_run_bind {reader : Reader α} {next : α → Reader β} {c c'' : Cursor} {b : β}
    (h : (reader >>= next).run c = .ok (b, c'')) :
    ∃ a c', reader.run c = .ok (a, c') ∧ (next a).run c' = .ok (b, c'') := by
  rw [StateT.run_bind] at h
  cases hr : reader.run c with
  | error fault =>
    rw [hr] at h
    cases h
  | ok p =>
    rw [hr] at h
    exact ⟨p.1, p.2, rfl, h⟩

theorem of_run_lift {outcome : Except Fault α} {c c' : Cursor} {a : α}
    (h : (liftM outcome : Reader α).run c = .ok (a, c')) : c' = c := by
  cases outcome with
  | error fault => cases h
  | ok b =>
    cases h
    rfl

theorem of_run_lift_bind {outcome : Except Fault α} {next : α → Reader β} {c c' : Cursor} {b : β}
    (h : (liftM outcome >>= next).run c = .ok (b, c')) :
    ∃ a, outcome = .ok a ∧ (next a).run c = .ok (b, c') := by
  cases outcome with
  | error fault => cases h
  | ok a => exact ⟨a, rfl, h⟩

theorem of_run_u1 {c c' : Cursor} {b : UInt8} (h : u1.run c = .ok (b, c')) :
    c.rest = [b] ++ c'.rest := by
  obtain ⟨position, rest⟩ := c
  cases rest with
  | nil => cases h
  | cons a rest =>
    cases h
    rfl

theorem of_run_u2 {c c' : Cursor} {n : UInt16} (h : u2.run c = .ok (n, c')) :
    c.rest = two n ++ c'.rest := by
  obtain ⟨position, rest⟩ := c
  match rest with
  | [] | [_] => cases h
  | a :: b :: rest =>
    cases h
    rw [Assembly.two_ofNat]
    rfl

theorem of_run_u4 {c c' : Cursor} {n : UInt32} (h : u4.run c = .ok (n, c')) :
    c.rest = four n ++ c'.rest := by
  obtain ⟨position, rest⟩ := c
  match rest with
  | [] | [_] | [_, _] | [_, _, _] => cases h
  | a :: b :: d :: e :: rest =>
    cases h
    rw [Assembly.four_ofNat]
    rfl

theorem of_run_take {c c' : Cursor} {n : Nat} {l : List UInt8}
    (h : (take n).run c = .ok (l, c')) : c.rest = l ++ c'.rest ∧ l.length = n := by
  cases hcut : cut? n c.rest with
  | none =>
    have hfail : (take n).run c = short n c := by simp only [take, StateT.run, hcut]
    rw [hfail] at h
    cases h
  | some p =>
    have hfound : (take n).run c = .ok (p.1, ⟨c.position + n, p.2⟩) := by
      simp only [take, StateT.run, hcut]
    rw [hfound] at h
    cases h
    exact cut?_eq_some_iff.1 hcut

/-- A block that is read comes with its length. -/
theorem of_run_block {size : UInt32} {block : List UInt8} {c c₁ c' : Cursor}
    (hsize : u4.run c = .ok (size, c₁)) (hblock : (take size.toNat).run c₁ = .ok (block, c')) :
    block.length < UInt32.size ∧ c.rest = four (.ofNat block.length) ++ block ++ c'.rest := by
  obtain ⟨hrest, hlength⟩ := of_run_take hblock
  refine ⟨hlength ▸ size.toNat_lt, ?_⟩
  rw [of_run_u4 hsize, hrest, hlength, UInt32.ofNat_toNat, List.append_assoc]

/-- What is read several times was put together from parts, with a value for each. -/
theorem forall₂_of_run_times {reader : Reader α} {octets : γ → List UInt8} {R : γ → α → Prop}
    (hreader : ∀ c a c', reader.run c = .ok (a, c') →
      ∃ part, c.rest = octets part ++ c'.rest ∧ R part a)
    {n : Nat} {c c' : Cursor} {as : List α} (h : (times reader n).run c = .ok (as, c')) :
    ∃ parts : List γ, parts.length = n ∧ c.rest = parts.flatMap octets ++ c'.rest ∧
      List.Forall₂ R parts as := by
  induction n generalizing c as with
  | zero =>
    cases h
    exact ⟨[], rfl, rfl, .nil⟩
  | succ n ih =>
    obtain ⟨a, c₁, ha, h⟩ := of_run_bind h
    obtain ⟨as', c₂, has, h⟩ := of_run_bind h
    cases h
    obtain ⟨part, hpart, hR⟩ := hreader c a c₁ ha
    obtain ⟨parts, hlength, hparts, hall⟩ := ih has
    refine ⟨part :: parts, by rw [List.length_cons, hlength], ?_, .cons hR hall⟩
    rw [hpart, hparts, List.flatMap_cons, List.append_assoc]

/-- What is read several times was put together from that many parts. -/
theorem of_run_times {reader : Reader α} {octets : γ → List UInt8}
    (hreader : ∀ c a c', reader.run c = .ok (a, c') → ∃ part, c.rest = octets part ++ c'.rest)
    {n : Nat} {c c' : Cursor} {as : List α} (h : (times reader n).run c = .ok (as, c')) :
    ∃ parts : List γ, parts.length = n ∧ c.rest = parts.flatMap octets ++ c'.rest := by
  have hparts : ∀ c a c', reader.run c = .ok (a, c') →
      ∃ part, c.rest = octets part ++ c'.rest ∧ True := fun c a c' hrun =>
    (hreader c a c' hrun).imp fun _ hrest => ⟨hrest, trivial⟩
  obtain ⟨parts, hlength, hrest, -⟩ := forall₂_of_run_times (R := fun _ _ => True) hparts h
  exact ⟨parts, hlength, hrest⟩

theorem of_run_counted {reader : Reader α} {octets : γ → List UInt8}
    (hreader : ∀ c a c', reader.run c = .ok (a, c') → ∃ part, c.rest = octets part ++ c'.rest)
    {c c' : Cursor} {as : List α} (h : (counted reader).run c = .ok (as, c')) :
    ∃ parts : List γ, parts.length < 65536 ∧
      c.rest = Assembly.counted (parts.map octets) ++ c'.rest := by
  obtain ⟨n, c₁, hn, h⟩ := of_run_bind h
  obtain ⟨parts, hlength, hparts⟩ := of_run_times hreader h
  refine ⟨parts, hlength ▸ n.toNat_lt, ?_⟩
  rw [of_run_u2 hn, hparts, Assembly.counted, ← List.flatMap_def, List.length_map, hlength,
    UInt16.ofNat_toNat, List.append_assoc]

theorem of_within {reader : Reader α} {bytes : List UInt8} {a : α}
    (h : within bytes reader = .ok a) : ∃ c, reader.run ⟨0, bytes⟩ = .ok (a, c) := by
  rw [within] at h
  cases hr : reader.run ⟨0, bytes⟩ with
  | error fault =>
    rw [hr] at h
    cases h
  | ok p =>
    rw [hr] at h
    cases h
    exact ⟨p.2, rfl⟩

/-! ### Local readers -/

/-- **A reader is local** if what it finds on success lies in the octets it takes. -/
def IsLocal (reader : Reader α) : Prop :=
  ∀ c a c', reader.run c = .ok (a, c') →
    ∃ octets, c.rest = octets ++ c'.rest ∧ Yields reader octets (.ok a)

namespace IsLocal

theorem pure (a : α) : IsLocal (Pure.pure a : Reader α) := by
  intro c b c' h
  cases h
  exact ⟨[], rfl, .pure a⟩

theorem fail (fault : Fault) : IsLocal (Reader.fail fault : Reader α) := by
  intro c a c' h
  cases h

theorem bind {reader : Reader α} {next : α → Reader β} (h : IsLocal reader)
    (h' : ∀ a, IsLocal (next a)) : IsLocal (reader >>= next) := by
  intro c b c'' hrun
  obtain ⟨a, c', ha, hb⟩ := of_run_bind hrun
  obtain ⟨octets, hrest, hyields⟩ := h c a c' ha
  obtain ⟨octets', hrest', hyields'⟩ := h' a c' b c'' hb
  exact ⟨octets ++ octets', by rw [hrest, hrest', List.append_assoc], hyields.bind_ok hyields'⟩

theorem u1 : IsLocal u1 := fun _ _ _ h => ⟨_, of_run_u1 h, .u1 _⟩

theorem u2 : IsLocal u2 := fun _ _ _ h => ⟨_, of_run_u2 h, .u2 _⟩

theorem u4 : IsLocal u4 := fun _ _ _ h => ⟨_, of_run_u4 h, .u4 _⟩

theorem take (n : Nat) : IsLocal (take n) := by
  intro c a c' h
  obtain ⟨hrest, rfl⟩ := of_run_take h
  exact ⟨a, hrest, .take a⟩

end IsLocal

/-! ### What carries over to the whole -/

/-- A property of readers carries over from the parts of a reader to the whole. -/
structure CarriesOver (P : {α : Type} → Reader α → Prop) : Prop where
  pure : ∀ {α : Type} (a : α), P (Pure.pure a : Reader α)
  fail : ∀ {α : Type} (fault : Fault), P (Reader.fail fault : Reader α)
  bind : ∀ {α β : Type} {reader : Reader α} {next : α → Reader β}, P reader →
    (∀ a, P (next a)) → P (reader >>= next)
  u1 : P u1
  u2 : P u2
  u4 : P u4
  take : ∀ n, P (take n)

theorem IsLocal.carriesOver : CarriesOver IsLocal := ⟨pure, fail, bind, u1, u2, u4, take⟩

end Reader

end Retest
