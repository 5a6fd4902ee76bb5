import Mathlib.Order.Defs.PartialOrder
import Retest.ClassFile.Decode
import Retest.Proofs.ClassFile.Readers
import Retest.Proofs.Text.Utf8

/-!
# What is found in an assembled constant pool

While a class file is assembled its constant pool only grows, so an index that was
handed out at some point is good for the finished pool. This is made precise by
`Retest.Assembly.Ensures`: whatever is assembled before and after a step, if all of it
leads to the draft `final` and that draft is within the limits of the format, then the
index which the step returns has a property in `final`. The property is always about
reading: under the index, `Retest.Pool` finds what the step was asked for.

The same predicate carries two things that every step has to leave intact for the pool
as a whole to be readable: that all entries are entries, and that all bootstrap methods
can be resolved.
-/

namespace Retest

open Assembly (two four)
open Reader (Yields)

/-! ### Entries -/

/-- Octets are those of an entry, which takes up one index. -/
structure IsEntry (octets : List UInt8) (entry : Entry) : Prop where
  yields (index : Nat) : Yields (Pool.readEntry index) octets (.ok entry)
  isWide_eq : entry.isWide = false
  usable : entry ≠ .unusable

namespace IsEntry

theorem text {value : String} (h : (Text.Utf8.encode value).length < UInt16.size) :
    IsEntry (1 :: two (.ofNat (Text.Utf8.encode value).length) ++ Text.Utf8.encode value)
      (.text value) := by
  refine ⟨fun index => (Yields.u1 1).bind_ok ?_, rfl, by rintro ⟨⟩⟩
  show Yields (do return Entry.text (poolText (← Reader.take (← Reader.u2).toNat))) _ _
  have htext : poolText (Text.Utf8.encode value) = value := by
    rw [poolText, Text.Utf8.decode?_encode]
    rfl
  have htake := (Yields.take (Text.Utf8.encode value)).map_ok
    (f := fun o => Entry.text (poolText o))
  refine (Yields.u2 _).bind_ok ?_
  rw [UInt16.toNat_ofNat_of_lt' h]
  rwa [htext] at htake

theorem int (value : Int32) : IsEntry (3 :: four value.toUInt32) (.int value) := by
  refine ⟨fun index => (Yields.u1 3).bind_ok ?_, rfl, by rintro ⟨⟩⟩
  show Yields (do return Entry.int (← Reader.i4)) _ _
  exact (Yields.u4 value.toUInt32).map_ok.map_ok

/-- What is read of one index. -/
theorem one {f : UInt16 → Entry} (i : UInt16) :
    Yields (do return f (← Reader.u2)) ([i].flatMap two) (.ok (f i)) := (Yields.u2 i).map_ok

/-- What is read of two indices. -/
theorem pair {f : UInt16 → UInt16 → Entry} (i j : UInt16) :
    Yields (do return f (← Reader.u2) (← Reader.u2)) ([i, j].flatMap two) (.ok (f i j)) :=
  (Yields.u2 i).bind_ok (Yields.u2 j).map_ok

theorem unit (i : UInt16) : IsEntry (7 :: [i].flatMap two) (.unit i) :=
  ⟨fun _ => (Yields.u1 7).bind_ok (one i), rfl, by rintro ⟨⟩⟩

theorem string (i : UInt16) : IsEntry (8 :: [i].flatMap two) (.string i) :=
  ⟨fun _ => (Yields.u1 8).bind_ok (one i), rfl, by rintro ⟨⟩⟩

theorem methodType (i : UInt16) : IsEntry (16 :: [i].flatMap two) (.methodType i) :=
  ⟨fun _ => (Yields.u1 16).bind_ok (one i), rfl, by rintro ⟨⟩⟩

theorem nameAndType (i j : UInt16) : IsEntry (12 :: [i, j].flatMap two) (.nameAndType i j) :=
  ⟨fun _ => (Yields.u1 12).bind_ok (pair i j), rfl, by rintro ⟨⟩⟩

theorem callSite (i j : UInt16) : IsEntry (18 :: [i, j].flatMap two) (.callSite i j) :=
  ⟨fun _ => (Yields.u1 18).bind_ok (pair i j), rfl, by rintro ⟨⟩⟩

/-- Only members of interfaces are told apart by their tags. -/
theorem member {tag : UInt8} (htag : tag ∈ [9, 10, 11]) (i j : UInt16) :
    IsEntry (tag :: [i, j].flatMap two) (.member (tag == 11) i j) := by
  have hcases : tag = 9 ∨ tag = 10 ∨ tag = 11 := by simpa using htag
  refine ⟨fun _ => ?_, rfl, by rintro ⟨⟩⟩
  rcases hcases with rfl | rfl | rfl
  · exact (Yields.u1 9).bind_ok (pair i j)
  · exact (Yields.u1 10).bind_ok (pair i j)
  · exact (Yields.u1 11).bind_ok (pair i j)

theorem handle (kind : UInt8) (i : UInt16) : IsEntry (15 :: kind :: two i) (.handle kind i) :=
  ⟨fun _ => (Yields.u1 15).bind_ok ((Yields.u1 kind).bind_ok (Yields.u2 i).map_ok), rfl,
    by rintro ⟨⟩⟩

end IsEntry

/-- The entry that octets stand for. -/
def Entry.ofOctets (octets : List UInt8) : Entry :=
  ((Reader.within octets (Pool.readEntry 0)).toOption).getD .unusable

theorem IsEntry.ofOctets_eq {octets : List UInt8} {entry : Entry} (h : IsEntry octets entry) :
    Entry.ofOctets octets = entry := by
  have hread := (h.yields 0).within []
  rw [List.append_nil] at hread
  rw [Entry.ofOctets, hread]
  rfl

/-- A name that is written with slashes is read as if it had been dotted throughout. -/
theorem UnitName.ofSlashed_slashed (name : UnitName) :
    ofSlashed name.slashed = .ofSlashed name := by
  rw [ofSlashed, slashed, ofSlashed, replaceChar, replaceChar, replaceChar, String.toList_ofList,
    List.map_map]
  congr 1
  refine List.map_congr_left fun c _ => ?_
  by_cases hc : c = '.'
  · simp [hc]
  · simp [hc]

namespace Assembly

/-! ### Drafts -/

/-- A draft comes before another if that has more entries and bootstrap methods at the end. -/
instance : Preorder Draft where
  le draft final := draft.entries <+: final.entries ∧ draft.bootstraps <+: final.bootstraps
  le_refl draft := ⟨List.prefix_rfl, List.prefix_rfl⟩
  le_trans _ _ _ h h' := ⟨h.1.trans h'.1, h.2.trans h'.2⟩

/-- A bootstrap method as it is read. -/
def BootstrapDraft.entry (draft : BootstrapDraft) : BootstrapEntry :=
  ⟨draft.handle, draft.arguments⟩

namespace Draft

/-- The constant pool that a draft becomes. -/
def pool (draft : Draft) : Pool := ⟨(.unusable :: draft.entries.map Entry.ofOctets).toArray⟩

/-- **A draft is within the limits** of the format: all its entries have an index, and each number
that is written in two octets fits into them. -/
structure Fits (draft : Draft) : Prop where
  entries : draft.entries.length ≤ 65534
  /-- A text stands after its tag and its length. -/
  texts : ∀ entry ∈ draft.entries, entry.length < 3 + UInt16.size
  bootstraps : draft.bootstraps.length < UInt16.size

instance (draft : Draft) : Decidable draft.Fits :=
  decidable_of_iff (draft.entries.length ≤ 65534 ∧
      (∀ entry ∈ draft.entries, entry.length < 3 + UInt16.size) ∧
      draft.bootstraps.length < UInt16.size)
    ⟨fun ⟨h, h', h''⟩ => ⟨h, h', h''⟩, fun h => ⟨h.entries, h.texts, h.bootstraps⟩⟩

/-- What a draft holds is in order, as far as it is within the limits: entries are entries, and
bootstrap methods can be resolved in the finished pool. -/
structure Sound (draft final : Draft) : Prop where
  isEntry : ∀ octets ∈ draft.entries, octets.length < 3 + UInt16.size →
    ∃ entry, IsEntry octets entry
  resolves : ∀ bootstrap ∈ draft.bootstraps, bootstrap.arguments.length ≤ 3 ∧
    ∃ resolved, bootstrap.entry.resolve final.pool = .ok resolved

/-- Bootstrap methods are those of a draft, resolved in its pool. -/
def Resolves (draft : Draft) (bootstraps : List Bootstrap) : Prop :=
  (draft.bootstraps.map BootstrapDraft.entry).mapM (BootstrapEntry.resolve draft.pool) =
    .ok bootstraps

theorem sound_empty (final : Draft) : Sound {} final := ⟨by simp, by simp⟩

variable {final : Draft}

/-- An entry of a draft is found under its index. -/
theorem entry_pool (hfits : final.Fits) {k : Nat} {octets : List UInt8} {entry : Entry}
    (hk : final.entries[k]? = some octets) (hentry : IsEntry octets entry) :
    final.pool.entry (.ofNat (k + 1)) = .ok entry := by
  obtain ⟨hlt, -⟩ := List.getElem?_eq_some_iff.1 hk
  have hbound := hfits.entries
  have hindex : (UInt16.ofNat (k + 1)).toNat = k + 1 :=
    UInt16.toNat_ofNat_of_lt' (show _ < 65536 by omega)
  have hfound : final.pool.entries[(UInt16.ofNat (k + 1)).toNat]? = some entry := by
    rw [hindex, pool, List.getElem?_toArray, List.getElem?_cons_succ, List.getElem?_map, hk]
    exact congrArg some hentry.ofOctets_eq
  rw [Pool.entry, hfound]
  cases entry
  case unusable => exact absurd rfl hentry.usable
  all_goals rfl

/-- The entries of a draft are read one after another. -/
theorem yields_readEntries {entries : List (List UInt8)}
    (h : ∀ octets ∈ entries, ∃ entry, IsEntry octets entry) (index : Nat) :
    Yields (Pool.readEntries entries.length index) entries.flatten
      (.ok (entries.map Entry.ofOctets)) := by
  induction entries generalizing index with
  | nil => exact .pure []
  | cons octets entries ih =>
    obtain ⟨entry, hentry⟩ := h octets List.mem_cons_self
    have hrest := ih (fun o ho => h o (List.mem_cons_of_mem _ ho)) (index + 1)
    rw [List.length_cons, Pool.readEntries.eq_2, List.flatten_cons, List.map_cons,
      hentry.ofOctets_eq]
    refine (hentry.yields index).bind_ok ?_
    rw [hentry.isWide_eq]
    exact hrest.map_ok

theorem yields_read (hfits : final.Fits) (hsound : final.Sound final) :
    Yields Pool.read (two (.ofNat (final.entries.length + 1)) ++ final.entries.flatten)
      (.ok final.pool) := by
  have hbound := hfits.entries
  have hcount : (UInt16.ofNat (final.entries.length + 1)).toNat = final.entries.length + 1 :=
    UInt16.toNat_ofNat_of_lt' (show _ < 65536 by omega)
  have hentries := yields_readEntries
    (fun octets hmem => hsound.isEntry octets hmem (hfits.texts octets hmem)) 1
  refine (Yields.u2 _).bind_ok ?_
  rw [hcount]
  exact hentries.map_ok

/-- The bootstrap methods of a sound draft can be resolved. -/
theorem Sound.exists_resolves (hsound : final.Sound final) :
    ∃ bootstraps, final.Resolves bootstraps := by
  refine exists_mapM_eq_ok fun entry hentry => ?_
  obtain ⟨draft, hdraft, rfl⟩ := List.mem_map.1 hentry
  exact (hsound.resolves draft hdraft).2

theorem Resolves.getElem? {bootstraps : List Bootstrap} (h : final.Resolves bootstraps) {k : Nat}
    {draft : BootstrapDraft} {resolved : Bootstrap} (hk : final.bootstraps[k]? = some draft)
    (hresolved : draft.entry.resolve final.pool = .ok resolved) :
    bootstraps[k]? = some resolved :=
  getElem?_of_mapM_eq_ok h (by rw [List.getElem?_map, hk]; rfl) hresolved

end Draft

/-! ### Steps -/

variable {α β : Type} {final : Draft} {given : Prop}

/-- **A step ensures a property of its result**, something being given: it only adds to a draft,
and if what comes of it leads to `final`, then it leaves a sound draft sound, and its result has
the property. -/
def Ensures (final : Draft) (given : Prop) (step : Assembler α) (P : α → Prop) : Prop :=
  ∀ draft, draft ≤ (step.run draft).2 ∧
    ((step.run draft).2 ≤ final → given →
      (draft.Sound final → (step.run draft).2.Sound final) ∧ P (step.run draft).1)

namespace Ensures

theorem pure {a : α} {P : α → Prop} (h : given → P a) :
    Ensures final given (Pure.pure a) P :=
  fun draft => ⟨le_refl draft, fun _ hgiven => ⟨id, h hgiven⟩⟩

/-- One step after another; the first one's property is given to the second. -/
theorem bind {step : Assembler α} {next : α → Assembler β} {P : α → Prop} {Q : β → Prop}
    (h : Ensures final given step P) (h' : ∀ a, Ensures final (given ∧ P a) (next a) Q) :
    Ensures final given (step >>= next) Q := by
  intro draft
  obtain ⟨hle, hstep⟩ := h draft
  obtain ⟨hle', hnext⟩ := h' (step.run draft).1 (step.run draft).2
  refine ⟨le_trans hle hle', fun hfinal hgiven => ?_⟩
  obtain ⟨hsound, hP⟩ := hstep (le_trans hle' hfinal) hgiven
  obtain ⟨hsound', hQ⟩ := hnext hfinal ⟨hgiven, hP⟩
  exact ⟨fun hdraft => hsound' (hsound hdraft), hQ⟩

/-- From one property to another. -/
theorem mono {step : Assembler α} {P Q : α → Prop} (h : Ensures final given step P)
    (h' : given → ∀ a, P a → Q a) : Ensures final given step Q := by
  intro draft
  obtain ⟨hle, hstep⟩ := h draft
  refine ⟨hle, fun hfinal hgiven => ?_⟩
  obtain ⟨hsound, hP⟩ := hstep hfinal hgiven
  exact ⟨hsound, h' hgiven _ hP⟩

/-- A function of the result of a step ensures what follows from what the step ensures. -/
theorem map {step : Assembler α} {f : α → β} {P : α → Prop} {Q : β → Prop}
    (h : Ensures final given step P) (h' : given → ∀ a, P a → Q (f a)) :
    Ensures final given (do return f (← step)) Q :=
  h.bind fun a => .pure fun hgiven => h' hgiven.1 a hgiven.2

/-- The same steps for each element of a list. -/
theorem mapM {step : α → Assembler β} {P : α → β → Prop} {l : List α}
    (h : ∀ a ∈ l, ∀ given, Ensures final given (step a) (P a)) :
    Ensures final given (l.mapM step) (List.Forall₂ P l) := by
  induction l generalizing given with
  | nil => exact .pure fun _ => .nil
  | cons a l ih =>
    rw [List.mapM_cons]
    refine (h a List.mem_cons_self _).bind fun b => ?_
    exact (ih fun a ha => h a (List.mem_cons_of_mem _ ha)).map
      fun hgiven bs hbs => .cons hgiven.2 hbs

end Ensures

/-! ### Entries that are asked for -/

/-- The first place of an entry stays the first when more is added. -/
theorem idxOf?_of_extends {entries entries' : List (List UInt8)} {octets : List UInt8} {k : Nat}
    (hextends : entries <+: entries') (h : entries.idxOf? octets = some k) :
    entries'.idxOf? octets = some k := by
  obtain ⟨more, rfl⟩ := hextends
  rw [List.idxOf?] at h ⊢
  rw [List.findIdx?_append, h]
  rfl

/-- An entry that stands in the finished draft is found under its index, and asking for it again
changes nothing. -/
theorem entry_of_idxOf? (hfits : final.Fits) {octets : List UInt8} {entry : Entry} {k : Nat}
    (hentry : octets.length < 3 + UInt16.size → IsEntry octets entry)
    (hk : final.entries.idxOf? octets = some k) :
    final.pool.entry (.ofNat (k + 1)) = .ok entry ∧
      (intern octets).run final = (.ofNat (k + 1), final) := by
  have hget : final.entries[k]? = some octets := by
    obtain ⟨hlt, heq, -⟩ := List.idxOf?_eq_some_iff.1 hk
    rw [List.getElem?_eq_getElem hlt, heq]
  refine ⟨Draft.entry_pool hfits hget (hentry ?_), ?_⟩
  · exact hfits.texts _ (List.mem_of_getElem? hget)
  · show intern octets final = _
    rw [intern, hk]

/-- An entry is asked for, and will be found under its index from then on. -/
theorem ensures_intern (hfits : final.Fits) {octets : List UInt8} {entry : Entry}
    (hentry : octets.length < 3 + UInt16.size → IsEntry octets entry) :
    Ensures final given (intern octets) fun i =>
      final.pool.entry i = .ok entry ∧ (intern octets).run final = (i, final) := by
  intro draft
  cases hk : draft.entries.idxOf? octets with
  | some k =>
    have hrun : (intern octets).run draft = (.ofNat (k + 1), draft) := by
      show intern octets draft = _
      rw [intern, hk]
    rw [hrun]
    exact ⟨le_refl draft, fun hfinal _ =>
      ⟨id, entry_of_idxOf? hfits hentry (idxOf?_of_extends hfinal.1 hk)⟩⟩
  | none =>
    have hrun : (intern octets).run draft = (.ofNat (draft.entries.length + 1),
        { draft with entries := draft.entries ++ [octets] }) := by
      show intern octets draft = _
      rw [intern, hk]
    -- the new entry is found at its own place, as it stands nowhere before
    have hlast : (draft.entries ++ [octets]).idxOf? octets = some draft.entries.length := by
      rw [List.idxOf?] at hk ⊢
      rw [List.findIdx?_append, hk]
      simp
    rw [hrun]
    refine ⟨⟨List.prefix_append _ _, List.prefix_rfl⟩, fun hfinal _ => ⟨fun hsound => ⟨?_, ?_⟩, ?_⟩⟩
    · intro o ho hlength
      rcases List.mem_append.1 ho with ho | ho
      · exact hsound.isEntry o ho hlength
      · rw [List.mem_singleton.1 ho] at hlength ⊢
        exact ⟨entry, hentry hlength⟩
    · exact hsound.resolves
    · exact entry_of_idxOf? hfits hentry (idxOf?_of_extends hfinal.1 hlast)

section

variable (hfits : final.Fits)
include hfits

theorem ensures_text (value : String) : Ensures final given (text value) fun i =>
    final.pool.text i = .ok value ∧ (text value).run final = (i, final) := by
  have hentry : (1 :: two (.ofNat (Text.Utf8.encode value).length) ++
      Text.Utf8.encode value).length < 3 + UInt16.size →
      IsEntry (1 :: two (.ofNat (Text.Utf8.encode value).length) ++ Text.Utf8.encode value)
        (.text value) := by
    intro h
    simp only [List.length_append, List.length_cons, length_two] at h
    exact .text (by omega)
  refine (ensures_intern hfits hentry).mono fun _ i ⟨hi, hrun⟩ => ⟨?_, hrun⟩
  rw [Pool.text, hi]
  rfl

/-- An entry that refers to others is asked for. -/
theorem ensures_refer {tag : UInt8} {indices : List UInt16} {entry : Entry}
    (hentry : IsEntry (tag :: indices.flatMap two) entry) :
    Ensures final given (refer tag indices) fun i =>
      final.pool.entry i = .ok entry ∧ (refer tag indices).run final = (i, final) :=
  ensures_intern hfits fun _ => hentry

theorem ensures_unit (name : UnitName) : Ensures final given (unit name) fun i =>
    final.pool.unit i = .ok (.ofSlashed name) := by
  refine (ensures_text hfits name.slashed).bind fun i =>
    (ensures_refer hfits (.unit i)).mono fun ⟨_, hi, _⟩ j ⟨hj, _⟩ => ?_
  rw [Pool.unit, hj]
  show (do return UnitName.ofSlashed (← final.pool.text i)) = _
  rw [hi, ← UnitName.ofSlashed_slashed name]
  rfl

theorem ensures_string (value : String) : Ensures final given (string value) fun i =>
    final.pool.constant i = .ok (.string value) ∧ (string value).run final = (i, final) := by
  refine (ensures_text hfits value).bind fun i =>
    (ensures_refer hfits (.string i)).mono fun ⟨_, hi, hrun⟩ j ⟨hj, hrun'⟩ => ⟨?_, ?_⟩
  · rw [Pool.constant, hj]
    show (do return Constant.string (← final.pool.text i)) = _
    rw [hi]
    rfl
  · rw [string, StateT.run_bind, hrun]
    exact hrun'

theorem ensures_integer (value : Int32) : Ensures final given (integer value) fun i =>
    final.pool.constant i = .ok (.int value) := by
  refine (ensures_intern hfits fun _ => .int value).mono fun _ i ⟨hi, _⟩ => ?_
  rw [Pool.constant, hi]
  rfl

theorem ensures_nameAndType (name descriptor : String) :
    Ensures final given (nameAndType name descriptor) fun i =>
      final.pool.nameAndType i = .ok (name, descriptor) := by
  refine (ensures_text hfits name).bind fun i => (ensures_text hfits descriptor).bind fun j =>
    (ensures_refer hfits (.nameAndType i j)).mono fun ⟨⟨_, hi, _⟩, hj, _⟩ k ⟨hk, _⟩ => ?_
  rw [Pool.nameAndType, hk]
  show (do return (← final.pool.text i, ← final.pool.text j)) = _
  rw [hi, hj]
  rfl

theorem ensures_member {tag : UInt8} (htag : tag ∈ [9, 10, 11]) (owner : UnitName)
    (name descriptor : String) : Ensures final given (member tag owner name descriptor) fun i =>
      final.pool.member i = .ok ⟨.ofSlashed owner, name, descriptor, tag == 11⟩ := by
  refine (ensures_unit hfits owner).bind fun i =>
    (ensures_nameAndType hfits name descriptor).bind fun j =>
      (ensures_refer hfits (.member htag i j)).mono fun ⟨⟨_, hi⟩, hj⟩ k ⟨hk, _⟩ => ?_
  rw [Pool.member, hk]
  show (do
    let found ← final.pool.nameAndType j
    return (⟨← final.pool.unit i, found.1, found.2, tag == 11⟩ : MemberRef)) = _
  rw [hi, hj]
  rfl

theorem ensures_staticHandle (owner : UnitName) (name descriptor : String) :
    Ensures final given (staticHandle owner name descriptor) fun i =>
      final.pool.handle i = .ok ⟨6, .ofSlashed owner, name, descriptor, false⟩ ∧
        final.pool.constant i = .ok (.handle ⟨6, .ofSlashed owner, name, descriptor, false⟩) := by
  refine (ensures_member hfits (by decide) owner name descriptor).bind fun i =>
    (ensures_intern hfits fun _ => .handle 6 i).mono fun ⟨_, hi⟩ j ⟨hj, _⟩ => ?_
  have hhandle : final.pool.handle j = .ok ⟨6, .ofSlashed owner, name, descriptor, false⟩ := by
    rw [Pool.handle, hj]
    show (do return (⟨6, ← final.pool.member i⟩ : Handle)) = _
    rw [hi]
    rfl
  refine ⟨hhandle, ?_⟩
  rw [Pool.constant, hj]
  show (do return Constant.handle (← final.pool.handle j)) = _
  rw [hhandle]
  rfl

theorem ensures_methodType (descriptor : String) :
    Ensures final given (methodType descriptor) fun i =>
      final.pool.constant i = .ok (.methodType descriptor) := by
  refine (ensures_text hfits descriptor).bind fun i =>
    (ensures_refer hfits (.methodType i)).mono fun ⟨_, hi, _⟩ j ⟨hj, _⟩ => ?_
  rw [Pool.constant, hj]
  show (do return Constant.methodType (← final.pool.text i)) = _
  rw [hi]
  rfl

theorem ensures_callSite (bootstrap : UInt16) (name descriptor : String) :
    Ensures final given (callSite bootstrap name descriptor) fun i =>
      final.pool.callSite i = .ok (bootstrap, name, descriptor) := by
  refine (ensures_nameAndType hfits name descriptor).bind fun i =>
    (ensures_refer hfits (.callSite bootstrap i)).mono fun ⟨_, hi⟩ j ⟨hj, _⟩ => ?_
  rw [Pool.callSite, hj]
  show (do return (bootstrap, ← final.pool.nameAndType i)) = _
  rw [hi]
  rfl

/-- A bootstrap method is added, which has to be a small one that can be resolved. -/
theorem ensures_bootstrap {entry : BootstrapDraft} {resolved : Bootstrap}
    (harguments : entry.arguments.length ≤ 3)
    (hresolved : given → entry.entry.resolve final.pool = .ok resolved) :
    Ensures final given (bootstrap entry) fun i =>
      final.bootstraps[i.toNat]? = some entry := by
  intro draft
  refine ⟨⟨List.prefix_rfl, List.prefix_append _ _⟩, fun hfinal hgiven => ⟨fun hsound => ?_, ?_⟩⟩
  · refine ⟨hsound.isEntry, fun b hb => ?_⟩
    rcases List.mem_append.1 hb with hb | hb
    · exact hsound.resolves b hb
    · rw [List.mem_singleton.1 hb]
      exact ⟨harguments, resolved, hresolved hgiven⟩
  · obtain ⟨more, hmore⟩ := hfinal.2
    have hbound := hfits.bootstraps
    -- the index does not wrap around, because not even the finished draft has too many
    have hlength : draft.bootstraps.length < UInt16.size := by
      rw [← hmore, List.length_append] at hbound
      simp only [bootstrap, StateT.run, List.length_append, List.length_singleton] at hbound
      omega
    rw [← hmore]
    show ((draft.bootstraps ++ [entry]) ++ more)[(UInt16.ofNat draft.bootstraps.length).toNat]? = _
    rw [UInt16.toNat_ofNat_of_lt' hlength]
    simp

/-- The octets of an attribute are those of a layout with its name. -/
theorem ensures_attributeNamed (name : String) (body : List UInt8) :
    Ensures final given (attributeNamed name body) fun octets =>
      ∃ i, final.pool.text i = .ok name ∧
        octets = two i ++ four (.ofNat body.length) ++ body :=
  (ensures_text hfits name).map fun _ i ⟨hi, _⟩ => ⟨i, hi, rfl⟩

end

end Assembly

end Retest
