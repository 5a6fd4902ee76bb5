import Mathlib.Data.List.Perm.Subperm
import Retest.Proofs.Snapshot.Tolerated

/-!
# Units that can stand for one another

When only whole units are tracked, two snapshots of a unit are compared by
`Retest.equivalent`, which looks at the differences of their methods after renamed ones have
been paired up. `Retest.equivalent_iff` says what comes of it in terms of the snapshots alone:
parents, header and constructors are the same, the declarations of fields of one are among
those of the other, and the methods are the same with their headers, or else all there were
before and more, in a unit that is no fixture and stands outside of the hierarchy.

What is behind it is that a difference of two collections is empty only between equal ones,
and adds something only if no entry of the first is missing from the second
(`Retest.MethodDiff.isEmpty_between_iff`, `Retest.MethodDiff.onlyAdds_between_iff`): pairing
renamed methods moves slots from one list to another, but never makes one disappear.
-/

namespace Retest

/-! ### Collections that grow -/

namespace SortedMap

variable {κ β : Type} [Ord κ] [Std.LawfulEqOrd κ] {m n : SortedMap κ β}

/-- **Every entry of a map is an entry of another.** -/
def Within (m n : SortedMap κ β) : Prop := ∀ k v, m.get? k = some v → n.get? k = some v

theorem nodup_entries (m : SortedMap κ β) : m.entries.Nodup := by
  refine m.sorted.imp fun {a b} hlt hab => ?_
  subst hab
  exact compare_self_ne_lt a.1 hlt

theorem Within.subset (h : m.Within n) : m.entries ⊆ n.entries :=
  fun e he => get?_eq_some_iff.1 (h e.1 e.2 (get?_eq_some_iff.2 he))

variable [Std.TransOrd κ]

theorem Within.antisymm (h : m.Within n) (h' : n.Within m) : m = n :=
  ext_get? fun k => Option.ext fun v => ⟨h k v, h' k v⟩

/-- A map within another is another one if and only if it is smaller. -/
theorem Within.size_lt_iff (h : m.Within n) : m.size < n.size ↔ m ≠ n := by
  have hsubperm := m.nodup_entries.subperm h.subset
  refine ⟨fun hlt heq => Nat.lt_irrefl _ (heq ▸ hlt), fun hne => ?_⟩
  by_contra hle
  have hperm := hsubperm.perm_of_length_le (Nat.le_of_not_lt hle)
  exact hne (h.antisymm fun k v hv =>
    get?_eq_some_iff.2 (hperm.mem_iff.2 (get?_eq_some_iff.1 hv)))

end SortedMap

namespace MethodDiff

variable {before after : SortedMap Signature Fingerprint}

/-- **Methods are only added if all that were there are still there.** -/
theorem onlyAdds_between_iff : (between before after).onlyAdds = true ↔ before.Within after := by
  refine ⟨fun h slot f => get?_of_onlyAdds h, fun h => ?_⟩
  -- a slot that is removed or renamed would have to have another entry afterwards
  have hnone : ∀ slot, ¬(slot ∈ (between before after).removed ∨
      slot ∈ (between before after).renamed.map (·.1)) := by
    intro slot hslot
    obtain ⟨f, hf, hne⟩ := mem_between_old.1 hslot
    exact hne (h slot f hf)
  rw [onlyAdds, Bool.and_eq_true, List.isEmpty_iff, List.isEmpty_iff]
  exact ⟨List.eq_nil_iff_forall_not_mem.2 fun slot hslot => hnone slot (.inl hslot),
    List.eq_nil_iff_forall_not_mem.2 fun e he =>
      hnone e.1 (.inr (List.mem_map_of_mem he))⟩

/-- **There is no difference between equal collections only.** -/
theorem isEmpty_between_iff : (between before after).isEmpty = true ↔ before = after := by
  simp only [isEmpty, Bool.and_eq_true, List.isEmpty_iff]
  constructor
  · rintro ⟨⟨hadded, hremoved⟩, hrenamed⟩
    exact eq_of_between hadded hremoved hrenamed
  · rintro rfl
    have hadds := onlyAdds_between_iff.2 fun _ _ (hf : before.get? _ = _) => hf
    rw [onlyAdds, Bool.and_eq_true, List.isEmpty_iff, List.isEmpty_iff] at hadds
    refine ⟨⟨List.eq_nil_iff_forall_not_mem.2 fun slot hslot => ?_, hadds.1⟩, hadds.2⟩
    obtain ⟨f, hf, hne⟩ := mem_between_new.1 (.inl hslot)
    exact hne hf

end MethodDiff

/-! ### Snapshots -/

namespace Snapshot

variable {before after : Snapshot}

/-- The methods of two snapshots are the same, and so are the headers. -/
def SameMethods (before after : Snapshot) : Prop :=
  before.instanceMethods = after.instanceMethods ∧ before.staticMethods = after.staticMethods ∧
    before.methodHeaders = after.methodHeaders

/-- All methods are still there as they were, and others have come. -/
def GainsMethods (before after : Snapshot) : Prop :=
  before.instanceMethods.Within after.instanceMethods ∧
    before.staticMethods.Within after.staticMethods ∧
    (before.instanceMethods.size < after.instanceMethods.size ∨
      before.staticMethods.size < after.staticMethods.size)

theorem sameMethods_iff : before.SameMethods after ↔
    ((MethodDiff.between before.instanceMethods after.instanceMethods).isEmpty = true ∧
      (MethodDiff.between before.staticMethods after.staticMethods).isEmpty = true) ∧
      before.methodHeaders = after.methodHeaders := by
  rw [SameMethods, MethodDiff.isEmpty_between_iff, MethodDiff.isEmpty_between_iff, and_assoc]

/-- Methods are gained where they are only added, and there is a difference. -/
theorem gainsMethods_iff : before.GainsMethods after ↔
    ((MethodDiff.between before.instanceMethods after.instanceMethods).onlyAdds = true ∧
      (MethodDiff.between before.staticMethods after.staticMethods).onlyAdds = true) ∧
      ¬((MethodDiff.between before.instanceMethods after.instanceMethods).isEmpty = true ∧
        (MethodDiff.between before.staticMethods after.staticMethods).isEmpty = true) := by
  simp only [GainsMethods, MethodDiff.onlyAdds_between_iff, MethodDiff.isEmpty_between_iff,
    and_assoc]
  refine and_congr_right fun hinstances => and_congr_right fun hstatics => ?_
  rw [hinstances.size_lt_iff, hstatics.size_lt_iff, not_and_or]

end Snapshot

/-- **When snapshots of a unit can stand for one another**: if and only if parents, header and
constructors are the same, the declarations of fields of one are among those of the other, and the
methods are the same, or have only become more and the unit is neither a fixture nor in the
hierarchy. In particular, an instance or static method that has changed, gone or been renamed is
never tolerated. -/
theorem equivalent_iff (before after : Snapshot) (isFixture inHierarchy : Bool) :
    (equivalent before after isFixture inHierarchy = true ↔
      (before.superName = after.superName ∧ before.interfaces = after.interfaces ∧
        before.header = after.header ∧ before.constructors = after.constructors) ∧
      ((∀ text ∈ before.declarations, text ∈ after.declarations) ∨
        ∀ text ∈ after.declarations, text ∈ before.declarations) ∧
      (before.SameMethods after ∨
        before.GainsMethods after ∧ isFixture = false ∧ inHierarchy = false)) ∧
    ∀ slot f, before.instanceMethods.get? slot = some f ∧
          after.instanceMethods.get? slot ≠ some f ∨
        before.staticMethods.get? slot = some f ∧ after.staticMethods.get? slot ≠ some f →
      equivalent before after isFixture inHierarchy = false := by
  constructor
  · rw [Snapshot.sameMethods_iff, Snapshot.gainsMethods_iff]
    simp only [equivalent, Bool.and_eq_true, Bool.or_eq_true, beq_iff_eq,
      Snapshot.extraDeclarations_isEmpty]
    split
    · next hempty =>
      simp only [hempty, and_true, true_and, not_true_eq_false, and_false, false_and, or_false,
        beq_iff_eq]
      tauto
    · next hdiffer =>
      simp only [hdiffer, false_and, false_or, not_false_eq_true, and_true, Bool.and_eq_true,
        Bool.not_eq_true']
      tauto
  · intro slot f hslot
    rw [← Bool.not_eq_true]
    intro h
    have hkeeps := Snapshot.keeps_of_equivalent h
    rcases hslot with ⟨hf, hne⟩ | ⟨hf, hne⟩
    · exact hne (MethodDiff.get?_of_onlyAdds hkeeps.instanceMethods hf)
    · exact hne (MethodDiff.get?_of_onlyAdds hkeeps.staticMethods hf)

end Retest
