import Mathlib.Data.List.Flatten
import Retest.Proofs.Ancestry
import Retest.Proofs.Selection.Tests
import Retest.Selection.Outcome

/-!
# Ancestors in snapshots

A selection has no hierarchy of the units. It looks for ancestors in the snapshots, in a walk over a
queue of names (`Retest.Selection.Context.walk`): the parents of a unit are queued as they are
named, and it is only when a name comes to the front of the queue that the walk looks whether the
unit is left out, whether it has a snapshot, and whether it was met before. A name may stand in the
queue many times, and units of which nothing is known are never marked.

`Retest.Selection.Context.Walks` says what the walk does without a bound on the number of rounds.
Each round takes a name off the queue, and the queue grows only when a snapshot is met whose name
was not. So there are no more rounds than names in the queue and places among the parents that the
snapshots not yet met name, which is what `Retest.Selection.Context.ancestors` provides for: the
walk ends whatever the snapshots are, circles of parents included, and in one way only
(`Retest.Selection.Context.walks_iff`).

With the snapshots of an analysis the walk agrees with the hierarchy of the analysis
(`Retest.Build.ancestors_analyze`). The hierarchy has units without a class file as well; but those
have no parents in it, so no way to a unit that was read leads through one of them.
-/

namespace Retest

namespace Selection.Context

variable {context : Context} {unit : UnitName} {queue seen : List UnitName} {s t : Snapshot}
  {found : List Snapshot}

/-! ### The walk -/

/-- **The walk over a queue of units**: with the names met so far, it finds snapshots. -/
inductive Walks (context : Context) :
    (queue seen : List UnitName) → (found : List Snapshot) → Prop where
  /-- The queue is empty. -/
  | done {seen : List UnitName} : Walks context [] seen []
  /-- The first unit of the queue is left out. -/
  | excluded {unit : UnitName} {queue seen : List UnitName} {found : List Snapshot}
    (hexcluded : context.settings.isExcluded unit = true)
    (hmore : Walks context queue seen found) : Walks context (unit :: queue) seen found
  /-- It has no snapshot. -/
  | unknown {unit : UnitName} {queue seen : List UnitName} {found : List Snapshot}
    (hkept : context.settings.isExcluded unit = false)
    (hunknown : context.snapshots.get? unit = none)
    (hmore : Walks context queue seen found) : Walks context (unit :: queue) seen found
  /-- It has one that was met before. -/
  | again {unit : UnitName} {queue seen : List UnitName} {found : List Snapshot} {s : Snapshot}
    (hkept : context.settings.isExcluded unit = false)
    (hknown : context.snapshots.get? unit = some s) (hseen : s.name ∈ seen)
    (hmore : Walks context queue seen found) : Walks context (unit :: queue) seen found
  /-- It has one that is new, and the parents named there join the queue. -/
  | met {unit : UnitName} {queue seen : List UnitName} {found : List Snapshot} {s : Snapshot}
    (hkept : context.settings.isExcluded unit = false)
    (hknown : context.snapshots.get? unit = some s) (hseen : s.name ∉ seen)
    (hmore : Walks context (queue ++ s.parents) (seen ++ [s.name]) found) :
    Walks context (unit :: queue) seen (s :: found)

/-- How many parents the snapshots name that were not met. -/
def unmet (snapshots : List Snapshot) (seen : List UnitName) : Nat :=
  ((snapshots.filter fun s => !seen.contains s.name).flatMap Snapshot.parents).length

theorem unmet_cons (s : Snapshot) (snapshots : List Snapshot) (seen : List UnitName) :
    unmet (s :: snapshots) seen =
      (if s.name ∈ seen then 0 else s.parents.length) + unmet snapshots seen := by
  by_cases h : s.name ∈ seen
  · simp [unmet, h]
  · simp [unmet, h]

/-- Meeting one leaves fewer, by as many as join the queue. -/
theorem unmet_append_singleton {snapshots : List Snapshot} (hs : s ∈ snapshots)
    (hseen : s.name ∉ seen) :
    unmet snapshots (seen ++ [s.name]) + s.parents.length ≤ unmet snapshots seen := by
  have hless : ∀ l, unmet l (seen ++ [s.name]) ≤ unmet l seen := by
    intro l
    induction l with
    | nil => exact Nat.le_refl 0
    | cons t l ih =>
      rw [unmet_cons, unmet_cons]
      by_cases ht : t.name ∈ seen
      · rw [if_pos ht, if_pos (List.mem_append_left _ ht)]
        omega
      · rw [if_neg ht]
        split <;> omega
  induction snapshots with
  | nil => cases hs
  | cons t l ih =>
    rw [unmet_cons, unmet_cons]
    rcases List.mem_cons.1 hs with rfl | hs
    · have hmore := hless l
      rw [if_neg hseen, if_pos (List.mem_append_right _ List.mem_cons_self)]
      omega
    · have hmore := ih hs
      by_cases ht : t.name ∈ seen
      · rw [if_pos ht, if_pos (List.mem_append_left _ ht)]
        omega
      · rw [if_neg ht]
        split <;> omega

/-- **The walk ends** within the rounds it is given, if these are enough for the queue and for all
that may join it. -/
theorem walks_walk {fuel : Nat}
    (hfuel : queue.length + unmet context.snapshots.values seen ≤ fuel) :
    context.Walks queue seen (context.walk fuel queue seen) := by
  induction fuel generalizing queue seen with
  | zero =>
    obtain rfl : queue = [] := List.length_eq_zero_iff.1 (by omega)
    exact .done
  | succ fuel ih =>
    cases queue with
    | nil => exact .done
    | cons unit queue =>
      rw [List.length_cons] at hfuel
      have hrest := @ih queue seen (by omega)
      rw [walk]
      rcases hexcluded : context.settings.isExcluded unit with _ | _
      · rw [if_neg Bool.false_ne_true]
        rcases hknown : context.snapshots.get? unit with _ | s
        · exact .unknown hexcluded hknown hrest
        · dsimp only
          by_cases hseen : s.name ∈ seen
          · rw [if_pos (List.contains_iff_mem.2 hseen)]
            exact .again hexcluded hknown hseen hrest
          · have hless := unmet_append_singleton (SortedMap.mem_values.2 ⟨unit, hknown⟩) hseen
            rw [if_neg fun h => hseen (List.contains_iff_mem.1 h)]
            refine .met hexcluded hknown hseen (ih ?_)
            rw [List.length_append]
            omega
      · rw [if_pos rfl]
        exact .excluded hexcluded hrest

/-- There is one way only for the walk to end. -/
theorem Walks.unique {found' : List Snapshot} (h : context.Walks queue seen found)
    (h' : context.Walks queue seen found') : found = found' := by
  induction h generalizing found' with
  | done =>
    cases h'
    rfl
  | excluded _ _ ih | unknown _ _ _ ih | again _ _ _ _ ih => cases h' <;> grind
  | met _ _ _ _ ih => cases h' <;> grind

/-- **The walk comes to the ancestors**, and to nothing else. -/
theorem walks_iff : context.Walks s.parents [s.name] found ↔ found = context.ancestors s := by
  have hwalks : context.Walks s.parents [s.name] (context.ancestors s) := by
    refine walks_walk (Nat.add_le_add_left ?_ _)
    exact (List.filter_sublist.flatMap _).length_le
  constructor
  · exact fun h => h.unique hwalks
  · rintro rfl
    exact hwalks

/-! ### What the walk finds -/

/-- **Every snapshot stands under its own name.** -/
def Named (context : Context) : Prop :=
  ∀ unit s, context.snapshots.get? unit = some s → s.name = unit

/-- Whether a unit is not left out and has a snapshot. -/
def knows (context : Context) (unit : UnitName) : Bool :=
  !context.settings.isExcluded unit && context.snapshots.contains unit

theorem knows_eq_true : context.knows unit = true ↔
    context.settings.isExcluded unit = false ∧ ∃ s, context.snapshots.get? unit = some s := by
  rw [knows, Bool.and_eq_true, Bool.not_eq_true', SortedMap.contains_eq_true, SortedMap.mem_keys]

theorem knows_of_excluded (h : context.settings.isExcluded unit = true) :
    context.knows unit = false := by
  rw [knows, h]
  rfl

theorem knows_of_unknown (h : context.snapshots.get? unit = none) : context.knows unit = false := by
  refine Bool.eq_false_iff.2 fun hknows => ?_
  obtain ⟨-, s, hs⟩ := knows_eq_true.1 hknows
  exact Option.some_ne_none s (hs.symm.trans h)

/-- **A unit names a known parent**, according to its snapshot. -/
def HasParent (context : Context) (unit parent : UnitName) : Prop :=
  ∃ s, context.snapshots.get? unit = some s ∧ parent ∈ s.parents ∧ context.knows parent = true

/-- The snapshots that are found are there. -/
theorem Walks.exists_get? (h : context.Walks queue seen found) :
    ∀ s ∈ found, ∃ unit, context.snapshots.get? unit = some s := by
  induction h with
  | done => exact fun _ hs => absurd hs List.not_mem_nil
  | excluded _ _ ih | unknown _ _ _ ih | again _ _ _ _ ih => exact ih
  | met _ hknown _ _ ih => exact List.forall_mem_cons.2 ⟨⟨_, hknown⟩, ih⟩

theorem Walks.get?_name (hnamed : context.Named) (h : context.Walks queue seen found) :
    ∀ s ∈ found, context.snapshots.get? s.name = some s := by
  intro s hs
  obtain ⟨unit, hunit⟩ := h.exists_get? s hs
  rwa [hnamed unit s hunit]

/-- No name is met twice. -/
theorem Walks.nodup (h : context.Walks queue seen found) (hseen : seen.Nodup) :
    (seen ++ found.map Snapshot.name).Nodup := by
  induction h with
  | done => rwa [List.map_nil, List.append_nil]
  | excluded _ _ ih | unknown _ _ _ ih | again _ _ _ _ ih => exact ih hseen
  | @met unit queue seen found s _ _ hnew _ ih =>
    have hmore := ih (List.nodup_append.2 ⟨hseen, List.nodup_singleton _, fun a ha b hb hab =>
      hnew (List.mem_singleton.1 hb ▸ hab ▸ ha)⟩)
    rwa [List.append_assoc, List.singleton_append] at hmore

/-- What is found is reached from a known unit of the queue. -/
theorem Walks.reached (hnamed : context.Named) (h : context.Walks queue seen found) :
    ∀ s ∈ found, ∃ unit ∈ queue, context.knows unit = true ∧
      Relation.ReflTransGen context.HasParent unit s.name := by
  induction h with
  | done => exact fun _ hs => absurd hs List.not_mem_nil
  | excluded _ _ ih | unknown _ _ _ ih | again _ _ _ _ ih =>
    intro s hs
    obtain ⟨unit, hunit, hreached⟩ := ih s hs
    exact ⟨unit, List.mem_cons_of_mem _ hunit, hreached⟩
  | @met unit queue seen found s hkept hknown _ _ ih =>
    have hknows : context.knows unit = true := knows_eq_true.2 ⟨hkept, s, hknown⟩
    intro t ht
    rcases List.mem_cons.1 ht with rfl | ht
    · exact ⟨unit, List.mem_cons_self, hknows, by rw [hnamed unit t hknown]⟩
    · obtain ⟨first, hfirst, hknows', hreached⟩ := ih t ht
      rcases List.mem_append.1 hfirst with hfirst | hfirst
      · exact ⟨first, List.mem_cons_of_mem _ hfirst, hknows', hreached⟩
      · exact ⟨unit, List.mem_cons_self, hknows, hreached.head ⟨s, hknown, hfirst, hknows'⟩⟩

/-- The known parents of the units met so far have been met or are queued. -/
def Covers (context : Context) (seen queue : List UnitName) : Prop :=
  ∀ unit ∈ seen, ∀ parent, context.HasParent unit parent → parent ∈ seen ∨ parent ∈ queue

/-- A unit that is not known, or was met, need not be queued. -/
theorem Covers.pass (h : context.Covers seen (unit :: queue))
    (hunit : context.knows unit = true → unit ∈ seen) : context.Covers seen queue := by
  intro u hu parent hparent
  rcases h u hu parent hparent with hmem | hmem
  · exact .inl hmem
  · rcases List.mem_cons.1 hmem with rfl | hmem
    · obtain ⟨-, -, -, hknows⟩ := hparent
      exact .inl (hunit hknows)
    · exact .inr hmem

/-- A unit that is met has its parents queued. -/
theorem Covers.meet (h : context.Covers seen (s.name :: queue))
    (hs : context.snapshots.get? s.name = some s) :
    context.Covers (seen ++ [s.name]) (queue ++ s.parents) := by
  intro u hu parent hparent
  rw [List.mem_append, List.mem_append, List.mem_singleton]
  rcases List.mem_append.1 hu with hu | hu
  · rcases h u hu parent hparent with hmem | hmem
    · exact .inl (.inl hmem)
    · exact (List.mem_cons.1 hmem).imp .inr .inl
  · obtain rfl := List.mem_singleton.1 hu
    obtain ⟨r, hr, hmem, -⟩ := hparent
    obtain rfl := Option.some.inj (hs.symm.trans hr)
    exact .inr (.inr hmem)

/-- **At the end all known parents have been met.** -/
theorem Walks.covers (hnamed : context.Named) (h : context.Walks queue seen found)
    (hseen : context.Covers seen queue) :
    context.Covers (seen ++ found.map Snapshot.name) [] := by
  induction h with
  | done => rwa [List.map_nil, List.append_nil]
  | excluded hexcluded _ ih =>
    refine ih (hseen.pass fun hknows => ?_)
    rw [knows_of_excluded hexcluded] at hknows
    cases hknows
  | unknown _ hunknown _ ih =>
    refine ih (hseen.pass fun hknows => ?_)
    rw [knows_of_unknown hunknown] at hknows
    cases hknows
  | again _ hknown hmet _ ih => exact ih (hseen.pass fun _ => hnamed _ _ hknown ▸ hmet)
  | met _ hknown _ _ ih =>
    obtain rfl := hnamed _ _ hknown
    have hmore := ih (hseen.meet hknown)
    rwa [List.append_assoc, List.singleton_append] at hmore

/-- **What the walk from a unit finds**: the other units that one or more steps to a known parent
lead to. -/
theorem Walks.mem_iff (hnamed : context.Named) (hs : context.snapshots.get? s.name = some s)
    (h : context.Walks s.parents [s.name] found) :
    t ∈ found ↔ context.snapshots.get? t.name = some t ∧ t.name ≠ s.name ∧
      Relation.TransGen context.HasParent s.name t.name := by
  constructor
  · intro ht
    have hnodup := List.nodup_cons.1 (h.nodup (List.nodup_singleton _))
    obtain ⟨first, hfirst, hknows, hreached⟩ := h.reached hnamed t ht
    refine ⟨h.get?_name hnamed t ht, fun heq => ?_, .head' ⟨s, hs, hfirst, hknows⟩ hreached⟩
    exact hnodup.1 (heq ▸ List.mem_map_of_mem ht)
  · rintro ⟨ht, hne, hreached⟩
    have hstart : context.Covers [s.name] s.parents := by
      rintro unit hunit parent ⟨r, hr, hparent, -⟩
      rw [List.mem_singleton.1 hunit, hs] at hr
      exact .inr (Option.some.inj hr ▸ hparent)
    have hclosed := h.covers hnamed hstart
    have hmet : ∀ x, Relation.TransGen context.HasParent s.name x →
        x ∈ [s.name] ++ found.map Snapshot.name := fun x hx => by
      induction hx with
      | single hparent =>
        exact (hclosed _ List.mem_cons_self _ hparent).resolve_right List.not_mem_nil
      | tail _ hparent ih => exact (hclosed _ ih _ hparent).resolve_right List.not_mem_nil
    obtain ⟨r, hr, hname⟩ :=
      List.mem_map.1 ((List.mem_cons.1 (hmet t.name hreached)).resolve_left hne)
    have hget := h.get?_name hnamed r hr
    rw [hname, ht] at hget
    exact Option.some.inj hget ▸ hr

end Selection.Context

/-! ### The hierarchy of an analysis -/

/-- A snapshot names the parents that the class file names. -/
theorem Snapshot.mem_parents_ofClass {file : ClassFile} {crc : UInt32} {parent : UnitName} :
    parent ∈ (ofClass file crc).parents ↔ parent ∈ file.info.parents := by
  have hparents : (ofClass file crc).parents =
      file.superName.toList ++ (SortedSet.ofList file.interfaces).toList := rfl
  have hinfo : file.info.parents = file.superName.toList ++ file.interfaces := rfl
  rw [hparents, hinfo, List.mem_append, List.mem_append, SortedSet.mem_toList, SortedSet.mem_ofList]

/-- What a selection compares with that has the snapshots of an analysis. -/
def Analysis.context (analysis : Analysis) (settings : Settings) (granularity : Granularity)
    (tests : SortedSet UnitName) : Selection.Context :=
  ⟨settings, granularity, analysis.snapshots, tests⟩

namespace Build

variable {build : Build} {settings : Settings} {external : List (UnitName × UnitName)}
  {granularity : Granularity} {tests : SortedSet UnitName} {unit parent : UnitName} {s : Snapshot}

theorem named_context_analyze :
    ((build.analyze settings external).context settings granularity tests).Named :=
  fun _ _ h => (build.coherent_analyze settings external).named h

/-- What the class files declare that can be read. -/
def declared (build : Build) (settings : Settings) : Declarations :=
  .addClasses settings {} ((build.parsed settings).map (·.2.file))

theorem hasParent_declared : (build.declared settings).HasParent settings unit parent ↔
    ∃ p, (unit, p) ∈ build.parsed settings ∧ parent ∈ p.file.info.parents ∧
      settings.isExcluded parent = false := by
  have hunits : ∀ info, (build.declared settings).units.get? unit = some info ↔
      ∃ p, (unit, p) ∈ build.parsed settings ∧ p.file.info = info :=
    fun info => @get?_units_analyze build settings [] unit info
  simp only [Declarations.HasParent, hunits]
  constructor
  · rintro ⟨_, ⟨p, hp, rfl⟩, hparent, hkept⟩
    exact ⟨p, hp, hparent, hkept⟩
  · rintro ⟨p, hp, hparent, hkept⟩
    exact ⟨_, ⟨p, hp, rfl⟩, hparent, hkept⟩

/-- **Snapshots and declarations agree on the parents that can be read.** -/
theorem hasParent_context_analyze :
    ((build.analyze settings external).context settings granularity tests).HasParent unit parent ↔
      (build.declared settings).HasParent settings unit parent ∧
        ∃ s, (build.analyze settings external).snapshots.get? parent = some s := by
  have hget : ∀ s, ((build.analyze settings external).context settings granularity
      tests).snapshots.get? unit = some s ↔
        ∃ p, (unit, p) ∈ build.parsed settings ∧ p.snapshot = s :=
    fun s => @get?_snapshots_analyze build settings external unit s
  have hparents : ∀ {p}, (unit, p) ∈ build.parsed settings →
      (parent ∈ p.snapshot.parents ↔ parent ∈ p.file.info.parents) := fun hp => by
    obtain ⟨bytes, -, -, -, hsnapshot⟩ := of_parse (mem_parsed.1 hp).2
    rw [hsnapshot]
    exact Snapshot.mem_parents_ofClass
  rw [hasParent_declared]
  constructor
  · rintro ⟨s, hs, hparent, hknows⟩
    obtain ⟨p, hp, rfl⟩ := (hget s).1 hs
    obtain ⟨hkept, hknown⟩ := Selection.Context.knows_eq_true.1 hknows
    exact ⟨⟨p, hp, (hparents hp).1 hparent, hkept⟩, hknown⟩
  · rintro ⟨⟨p, hp, hparent, hkept⟩, hknown⟩
    exact ⟨p.snapshot, (hget _).2 ⟨p, hp, rfl⟩, (hparents hp).2 hparent,
      Selection.Context.knows_eq_true.2 ⟨hkept, hknown⟩⟩

/-- A unit that has a parent can be read. -/
theorem exists_snapshot_of_hasParent
    (h : (build.declared settings).HasParent settings unit parent) :
    ∃ s, (build.analyze settings external).snapshots.get? unit = some s := by
  obtain ⟨p, hp, -⟩ := hasParent_declared.1 h
  exact ⟨p.snapshot, get?_snapshots_analyze.2 ⟨p, hp, rfl⟩⟩

/-- **A way to a unit that can be read leads through such units only.** -/
theorem transGen_context_analyze_iff {x y : UnitName} :
    Relation.TransGen ((build.analyze settings external).context settings granularity
        tests).HasParent x y ↔
      Relation.TransGen ((build.declared settings).HasParent settings) x y ∧
        ∃ s, (build.analyze settings external).snapshots.get? y = some s := by
  constructor
  · intro h
    refine ⟨h.lift id fun _ _ hparent => (hasParent_context_analyze.1 hparent).1, ?_⟩
    obtain ⟨_, -, hlast⟩ := Relation.TransGen.tail'_iff.1 h
    exact (hasParent_context_analyze.1 hlast).2
  · rintro ⟨h, hy⟩
    induction h with
    | single hparent => exact .single (hasParent_context_analyze.2 ⟨hparent, hy⟩)
    | tail _ hparent ih =>
      exact (ih (exists_snapshot_of_hasParent hparent)).tail
        (hasParent_context_analyze.2 ⟨hparent, hy⟩)

/-- **The ancestors in the snapshots are those of the hierarchy.** Let a selection have the
snapshots and the settings of an analysis, and start at any unit that was read. However the parents
go round in circles, the walk over the queue ends, and in one way only; it does not come back to the
unit and meets no unit twice; and it finds the snapshots of those ancestors in the hierarchy that
were read, and no others. -/
theorem ancestors_analyze (build : Build) (settings : Settings)
    (external : List (UnitName × UnitName)) (granularity : Granularity)
    (tests : SortedSet UnitName) {analysis : Analysis}
    (hanalysis : build.analyze settings external = analysis) {unit : UnitName} {s : Snapshot}
    (hs : analysis.snapshots.get? unit = some s) :
    (∀ found, (analysis.context settings granularity tests).Walks s.parents [unit] found ↔
        found = (analysis.context settings granularity tests).ancestors s) ∧
      unit ∉ ((analysis.context settings granularity tests).ancestors s).map Snapshot.name ∧
      (((analysis.context settings granularity tests).ancestors s).map Snapshot.name).Nodup ∧
      ∀ t, t ∈ (analysis.context settings granularity tests).ancestors s ↔
        ∃ ancestor ∈ analysis.inventory.hierarchy.ancestors unit,
          analysis.snapshots.get? ancestor = some t := by
  subst hanalysis
  have hnamed : ((build.analyze settings external).context settings granularity tests).Named :=
    named_context_analyze
  obtain rfl := hnamed unit s hs
  have hwalks := Selection.Context.walks_iff.2 (rfl :
    _ = ((build.analyze settings external).context settings granularity tests).ancestors s)
  have hnodup := List.nodup_cons.1 (hwalks.nodup (List.nodup_singleton s.name))
  refine ⟨fun found => Selection.Context.walks_iff, hnodup.1, hnodup.2, fun t => ?_⟩
  have hancestors : ∀ ancestor, ancestor ∈
      (build.analyze settings external).inventory.hierarchy.ancestors s.name ↔
        ancestor ≠ s.name ∧
          Relation.TransGen ((build.declared settings).HasParent settings) s.name ancestor :=
    fun ancestor => @Declarations.mem_ancestors_hierarchy settings (build.declared settings) _ _
  rw [hwalks.mem_iff hnamed hs, transGen_context_analyze_iff]
  constructor
  · rintro ⟨ht, hne, hreached, -⟩
    exact ⟨t.name, (hancestors _).2 ⟨hne, hreached⟩, ht⟩
  · rintro ⟨ancestor, hancestor, ht⟩
    obtain rfl := hnamed ancestor t ht
    obtain ⟨hne, hreached⟩ := (hancestors _).1 hancestor
    exact ⟨ht, hne, hreached, t, ht⟩

/-- Three classes that extend one another in a circle. One of them implements an interface that has
no class file, another one that is left out. -/
def sampleRing : Build :=
  .ofMap (.ofList ([{ name := "a.A", superName := some "a.B", interfaces := ["a.I"] },
    { name := "a.B", superName := some "a.C", interfaces := ["java.lang.Runnable"] },
    { name := "a.C", superName := some "a.A" }].map fun spec : ClassSpec =>
      (spec.name, spec.assemble)))

/-- The ancestors of a class of the circle are the two others. -/
theorem ancestors_sampleRing : ∃ s, (sampleRing.analyze {} []).snapshots.get? "a.A" = some s ∧
    ∀ name, name ∈ (((sampleRing.analyze {} []).context {} .member ∅).ancestors s).map
      Snapshot.name ↔ name = "a.B" ∨ name = "a.C" := by
  have hread : ((sampleRing.analyze {} []).snapshots.get? "a.A").isSome = true ∧
      ((sampleRing.analyze {} []).snapshots.get? "a.B").isSome = true ∧
      ((sampleRing.analyze {} []).snapshots.get? "a.C").isSome = true ∧
      ((sampleRing.analyze {} []).snapshots.get? "a.I").isSome = false := by decide +kernel
  have hancestors : (sampleRing.analyze {} []).inventory.hierarchy.ancestors "a.A" =
      ["a.B", "a.C", "a.I"] := by decide +kernel
  obtain ⟨hA, hB, hC, hI⟩ := hread
  obtain ⟨s, hs⟩ := Option.isSome_iff_exists.1 hA
  obtain ⟨-, -, -, hmem⟩ := ancestors_analyze sampleRing {} [] .member ∅ rfl hs
  rw [hancestors] at hmem
  have hnamed : ∀ {unit t}, (sampleRing.analyze {} []).snapshots.get? unit = some t →
      t.name = unit := (sampleRing.coherent_analyze {} []).named
  have hfound : ∀ {unit}, unit ∈ ["a.B", "a.C", "a.I"] →
      ((sampleRing.analyze {} []).snapshots.get? unit).isSome = true →
      unit ∈ (((sampleRing.analyze {} []).context {} .member ∅).ancestors s).map Snapshot.name := by
    intro unit hunit hsome
    obtain ⟨t, ht⟩ := Option.isSome_iff_exists.1 hsome
    exact List.mem_map.2 ⟨t, (hmem t).2 ⟨unit, hunit, ht⟩, hnamed ht⟩
  refine ⟨s, hs, fun name => ⟨fun hname => ?_, ?_⟩⟩
  · obtain ⟨t, ht, rfl⟩ := List.mem_map.1 hname
    obtain ⟨ancestor, hancestor, hget⟩ := (hmem t).1 ht
    rw [hnamed hget]
    rcases List.mem_cons.1 hancestor with rfl | hancestor
    · exact .inl rfl
    · rcases List.mem_cons.1 hancestor with rfl | hancestor
      · exact .inr rfl
      · rw [List.mem_singleton.1 hancestor] at hget
        rw [hget] at hI
        cases hI
  · rintro (rfl | rfl)
    · exact hfound (by simp) hB
    · exact hfound (by simp) hC

end Build

end Retest
