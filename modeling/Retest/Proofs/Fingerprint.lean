import Retest.Digest.Fingerprint
import Retest.Proofs.Text.Delimited
import Retest.Proofs.Text.Utf8

/-!
# What a fingerprint identifies

A fingerprint is a digest, so it can tell lines apart only as far as SHA-256 tells the octets apart
that were hashed. Up to that it forgets nothing: an ordered fingerprint identifies a list of lines,
and an unordered one a multiset of lines, repeated lines counted as often as they come
(`Retest.Fingerprint.ordered_and_unordered_eq_iff`). All that is asked of the lines is that none of
them holds a line feed; lines may be empty.

There are two arguments. Every line is closed by a line feed, which no other octet of the encoding
can be taken for, and so the octets can be cut into lines again
(`Retest.Fingerprint.octets_injective`). And the order of code points is a linear one, in which two
lines that are not told apart are equal, and so there is one way only to sort a multiset
(`Retest.Fingerprint.sortLines_eq_iff`).
-/

namespace Retest

open Text

/-- Two octet strings that SHA-256 does not tell apart. -/
def Digest.Sha256.Collide (a b : List UInt8) : Prop := a ≠ b ∧ digest a = digest b

instance (a b : List UInt8) : Decidable (Digest.Sha256.Collide a b) :=
  inferInstanceAs (Decidable (_ ∧ _))

namespace Fingerprint

open Digest.Sha256 (Collide)

variable {lines lines' : List String}

/-! ### Lists of lines -/

/-- Lines without line feeds are told by the octets that stand for them. -/
theorem octets_injective (h : ∀ s ∈ lines, '\n' ∉ s.toList) (h' : ∀ s ∈ lines', '\n' ∉ s.toList)
    (heq : octets lines = octets lines') : lines = lines' := by
  -- each line is closed by a line feed, and cutting the octets at these gives the lines
  have hsplit : ∀ l : List String, (∀ s ∈ l, '\n' ∉ s.toList) →
      (octets l).splitOnP (· == 10) = l.map Utf8.encode ++ [[]] := by
    intro l hl
    have hclosed : octets l = (l.map Utf8.encode).flatMap (· ++ [10]) := by
      rw [octets, List.flatMap_map]
    rw [hclosed, splitOnP_flatMap_closed (p := (· == (10 : UInt8))) rfl]
    intro part hpart b hb
    obtain ⟨s, hs, rfl⟩ := List.mem_map.1 hpart
    refine beq_eq_false_iff_ne.2 ?_
    rintro rfl
    exact hl s hs (Utf8.mem_of_octet_mem (by decide) hb)
  have hencoded := hsplit lines h
  rw [heq, hsplit lines' h'] at hencoded
  have hinjective : Function.Injective Utf8.encode := by
    intro s t hst
    have hsome := congrArg Utf8.decode? hst
    rw [Utf8.decode?_encode, Utf8.decode?_encode] at hsome
    exact Option.some.inj hsome
  exact (List.map_injective_iff.2 hinjective (List.append_cancel_right hencoded)).symm

/-- Fingerprints that no collision makes equal are equal only for equal texts. -/
theorem ordered_eq_iff_octets (h : ¬Collide (octets lines) (octets lines')) :
    ordered lines = ordered lines' ↔ octets lines = octets lines' := by
  constructor
  · intro heq
    by_contra hne
    exact h ⟨hne, hexOctets_injective (Fingerprint.mk.inj heq)⟩
  · intro heq
    rw [ordered, ordered, heq]

/-- **Equal fingerprints come from equal lines or from a collision.** -/
theorem ordered_eq_iff (h : ∀ s ∈ lines, '\n' ∉ s.toList) (h' : ∀ s ∈ lines', '\n' ∉ s.toList) :
    ordered lines = ordered lines' ↔ lines = lines' ∨
      (octets lines ≠ octets lines' ∧
        Digest.Sha256.digest (octets lines) = Digest.Sha256.digest (octets lines')) := by
  by_cases hcollide : Collide (octets lines) (octets lines')
  · refine iff_of_true ?_ (.inr hcollide)
    rw [ordered, ordered, hcollide.2]
  · rw [ordered_eq_iff_octets hcollide]
    exact ⟨fun heq => .inl (octets_injective h h' heq),
      fun hor => congrArg octets (hor.resolve_right hcollide)⟩

/-! ### Multisets of lines -/

theorem perm_sortLines (lines : List String) : (sortLines lines).Perm lines :=
  List.mergeSort_perm _ _

theorem pairwise_sortLines (lines : List String) :
    (sortLines lines).Pairwise fun a b => (compare a b).isLE = true := by
  refine List.pairwise_mergeSort (fun _ _ _ => Std.TransCmp.isLE_trans) (fun a b => ?_) lines
  rw [Std.OrientedOrd.eq_swap]
  cases compare b a <;> rfl

/-- **There is one way to sort a multiset of lines**, repeated lines counted. -/
theorem sortLines_eq_iff : sortLines lines = sortLines lines' ↔ lines.Perm lines' := by
  constructor
  · intro heq
    calc lines.Perm (sortLines lines) := (perm_sortLines lines).symm
      _ = sortLines lines' := heq
      List.Perm _ lines' := perm_sortLines lines'
  · intro hperm
    have hsorted : (sortLines lines).Perm (sortLines lines') :=
      (perm_sortLines lines).trans (hperm.trans (perm_sortLines lines').symm)
    -- a line that is neither before nor after another is the same line
    have hantisymm : ∀ a b : String, (compare a b).isLE = true → (compare b a).isLE = true →
        a = b :=
      fun a b hab hba => Std.LawfulEqOrd.eq_of_compare (Std.OrientedCmp.isLE_antisymm hab hba)
    exact hsorted.eq_of_pairwise (fun a b _ _ => hantisymm a b) (pairwise_sortLines lines)
      (pairwise_sortLines lines')

/-- **The unordered fingerprint is one of multisets.** -/
theorem unordered_eq_of_perm (h : lines.Perm lines') : unordered lines = unordered lines' := by
  rw [unordered, unordered, sortLines_eq_iff.2 h]

/-- **Fingerprints identify lists and multisets of lines.** Let no line hold a line feed. If SHA-256
does not collide on the octets that are hashed, then ordered fingerprints are equal exactly for
equal lists, and unordered fingerprints exactly for lists that are permutations of one another. -/
theorem ordered_and_unordered_eq_iff (xs ys : List String) (hxs : ∀ s ∈ xs, '\n' ∉ s.toList)
    (hys : ∀ s ∈ ys, '\n' ∉ s.toList) :
    (¬Collide (octets xs) (octets ys) → (ordered xs = ordered ys ↔ xs = ys)) ∧
      (¬Collide (octets (sortLines xs)) (octets (sortLines ys)) →
        (unordered xs = unordered ys ↔ ys.Perm xs)) := by
  have hordered : ∀ {l l' : List String}, (∀ s ∈ l, '\n' ∉ s.toList) →
      (∀ s ∈ l', '\n' ∉ s.toList) → ¬Collide (octets l) (octets l') →
      (ordered l = ordered l' ↔ l = l') := fun hl hl' hno => by
    rw [ordered_eq_iff_octets hno]
    exact ⟨octets_injective hl hl', congrArg octets⟩
  refine ⟨hordered hxs hys, fun hno => ?_⟩
  -- sorting moves lines and makes no new ones
  have hsorted : ∀ {l : List String}, (∀ s ∈ l, '\n' ∉ s.toList) →
      ∀ s ∈ sortLines l, '\n' ∉ s.toList :=
    fun hl s hs => hl s ((perm_sortLines _).mem_iff.1 hs)
  rw [unordered, unordered, hordered (hsorted hxs) (hsorted hys) hno, sortLines_eq_iff,
    List.perm_comm]

/-- Some lines, one of them empty. -/
def sampleLines : List String := ["b", "", "a"]

/-- In another order the lines are another list and the same multiset; with one of them twice they
are another multiset. -/
theorem ordered_and_unordered_sampleLines :
    ordered sampleLines ≠ ordered ["a", "b", ""] ∧
      unordered sampleLines = unordered ["a", "b", ""] ∧
      unordered sampleLines ≠ unordered ("b" :: sampleLines) := by
  have hplain : ∀ s ∈ sampleLines, '\n' ∉ s.toList := by decide
  have hmoved := ordered_and_unordered_eq_iff _ ["a", "b", ""] hplain (by decide)
  have hrepeated := ordered_and_unordered_eq_iff _ ("b" :: sampleLines) hplain (by decide)
  have hperm : ["a", "b", ""].Perm sampleLines := by decide
  have hsorted : sortLines sampleLines = ["", "a", "b"] :=
    (sortLines_eq_iff.2 (by decide)).trans (List.mergeSort_of_pairwise (by decide))
  have hsorted' : sortLines ("b" :: sampleLines) = ["", "a", "b", "b"] :=
    (sortLines_eq_iff.2 (by decide)).trans (List.mergeSort_of_pairwise (by decide))
  refine ⟨fun heq => ?_, (hmoved.2 fun h => h.1 ?_).2 hperm, fun heq => ?_⟩
  · exact absurd ((hmoved.1 (by decide +kernel)).1 heq) (by decide)
  · rw [sortLines_eq_iff.2 hperm]
  · rw [hsorted, hsorted'] at hrepeated
    exact absurd ((hrepeated.2 (by decide +kernel)).1 heq) (by decide)

end Fingerprint

end Retest
