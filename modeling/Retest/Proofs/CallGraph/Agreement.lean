import Retest.Proofs.CallGraph.Touches

/-!
# Footprints that do not grow

Between two versions of the class files, a test may come to touch more than it did, or less. It
touches no more if the versions agree in what it touches in the later one
(`Retest.CallGraph.Touches.of_agrees`). The proof goes along the rules, and each of them needs
something else: that units have the ancestors they had, that members were there, that methods use
what they used. Where a member is looked for upward, the earlier version must not have found it
sooner, and so what it found has to be there still.
-/

namespace Retest

/-- The unit that a fact says is used. -/
def Fact.used? : Fact → Option UnitName
  | .call _ owner _ _ => some owner
  | .access _ key _ _ => some key.owner
  | .unit .. | .method .. | .field .. => none

/-- Two tests find the same if what each finds passes the other. -/
theorem eq_of_find? {α : Type} {p p' : α → Bool} {l : List α} {a b : α}
    (ha : l.find? p = some a) (hb : l.find? p' = some b) (ha' : p' a = true) (hb' : p b = true) :
    a = b := by
  induction l with
  | nil => cases ha
  | cons x l ih =>
    rw [List.find?_cons] at ha hb
    cases hx : p x with
    | true =>
      rw [hx] at ha
      obtain rfl := Option.some.inj ha
      rw [ha'] at hb
      exact Option.some.inj hb
    | false =>
      rw [hx] at ha
      cases hx' : p' x with
      | true =>
        rw [hx'] at hb
        obtain rfl := Option.some.inj hb
        cases hx.symm.trans hb'
      | false =>
        rw [hx'] at hb
        exact ih ha hb

namespace CallGraph

section Names

variable (settings : Settings) (files : List ClassFile) (external : List (UnitName × UnitName))
  (t : UnitName)

/-- **The units that a test names**: the test itself, the owners of what it touches, and the units
that the methods it touches use. -/
inductive Names : UnitName → Prop where
  | self : Names t
  | owner {n : Dependency} (hn : Touches settings files external t n) : Names n.owner
  | used {file : ClassFile} {fact : Fact} {caller : MethodKey} {unit : UnitName}
      (hcaller : Touches settings files external t (.method caller))
      (hfile : file ∈ kept settings files) (hfact : fact ∈ file.facts)
      (hfactCaller : fact.caller? = some caller) (hunit : fact.used? = some unit) : Names unit

end Names

/-- **Two versions of class files agree in what a test touches** in the later one. -/
structure Agrees (settings : Settings) (files files' : List ClassFile)
    (external external' : List (UnitName × UnitName)) (t : UnitName) : Prop where
  /-- The units that the test names have the ancestors they had. -/
  ancestors : ∀ unit, Names settings files' external' t unit →
    (Context.ofClasses settings files).inventory.hierarchy.ancestors unit =
      (Context.ofClasses settings files').inventory.hierarchy.ancestors unit
  /-- The members that it touches were there. -/
  methods : ∀ key, Touches settings files' external' t (.method key) →
    (Context.ofClasses settings files').inventory.declaresMethod key.owner key.signature = true →
    (Context.ofClasses settings files).inventory.declaresMethod key.owner key.signature = true
  fields : ∀ key, Touches settings files' external' t (.field key) →
    (Context.ofClasses settings files').inventory.declaresField key.owner key.slot = true →
    (Context.ofClasses settings files).inventory.declaresField key.owner key.slot = true
  /-- What it touched is still there. -/
  keptMethods : ∀ key, Touches settings files external t (.method key) →
    (Context.ofClasses settings files).inventory.declaresMethod key.owner key.signature = true →
    (Context.ofClasses settings files').inventory.declaresMethod key.owner key.signature = true
  keptFields : ∀ key, Touches settings files external t (.field key) →
    (Context.ofClasses settings files).inventory.declaresField key.owner key.slot = true →
    (Context.ofClasses settings files').inventory.declaresField key.owner key.slot = true
  /-- The methods use what they used. -/
  uses : ∀ file ∈ kept settings files', ∀ fact ∈ file.facts, ∀ caller,
    fact.caller? = some caller → Touches settings files external t (.method caller) →
    Touches settings files' external' t (.method caller) →
      ∃ old ∈ kept settings files, fact ∈ old.facts
  /-- What writes a field was touched. -/
  writes : ∀ field caller, Touches settings files external t (.field field) →
    Touches settings files' external' t (.method caller) →
    (Context.ofClasses settings files').Joins (kept settings files') (proper external')
      (.field field) (.method caller) → Touches settings files external t (.method caller)
  /-- What is known of dependencies was known. -/
  pairs : ∀ e ∈ proper external', ∀ signature,
    Touches settings files' external' t (.method ⟨e.1, signature⟩) → e ∈ external

variable {settings : Settings} {files files' : List ClassFile}
  {external external' : List (UnitName × UnitName)} {t : UnitName}

/-- A unit is a node only if another depends on it. -/
theorem exists_pair_of_touches {unit : UnitName}
    (h : Touches settings files external t (.unit unit)) :
    ∃ dependent, (dependent, unit) ∈ proper external := by
  cases h with
  | joined _ hjoins =>
    cases hjoins with
    | dependent hpair hdeclares => exact ⟨_, hpair⟩

/-- What is found upward in the later version was found in the earlier one. -/
theorem findUpward?_of_agrees {test test' : UnitName → Bool} {owner unit : UnitName}
    (hancestors : (Context.ofClasses settings files).inventory.hierarchy.ancestors owner =
      (Context.ofClasses settings files').inventory.hierarchy.ancestors owner)
    (hunit : (Context.ofClasses settings files').inventory.findUpward? owner test' = some unit)
    (hthere : test unit = true)
    (hkept : ∀ found, (Context.ofClasses settings files).inventory.findUpward? owner test =
      some found → test' found = true) :
    (Context.ofClasses settings files).inventory.findUpward? owner test = some unit := by
  have hmem := List.mem_of_find?_eq_some hunit
  rw [← hancestors] at hmem
  obtain ⟨found, hfound⟩ : ∃ found,
      (Context.ofClasses settings files).inventory.findUpward? owner test = some found :=
    Option.isSome_iff_exists.1 (List.find?_isSome.2 ⟨unit, hmem, hthere⟩)
  rw [Inventory.findUpward?, ← hancestors] at hunit
  rw [hfound, eq_of_find? hfound hunit (hkept found hfound) hthere]

/-- **A test touches no more than it did** where the versions agree in what it touches. -/
theorem Touches.of_agrees (h : Agrees settings files files' external external' t)
    {n : Dependency} (hn : Touches settings files' external' t n) :
    Touches settings files external t n := by
  induction hn with
  | @own signature hdeclares =>
    exact .own (h.methods ⟨t, signature⟩ (.own hdeclares) hdeclares)
  | @inherits ancestor signature hancestor hdeclares hsignature hfixture =>
    have hthere := h.methods ⟨ancestor, signature⟩
      (.joined (.inherits hancestor hdeclares hsignature hfixture)
        (.inherited hancestor hdeclares hsignature hfixture)) hdeclares
    exact .inherits (h.ancestors t .self ▸ hancestor) hthere hsignature hfixture
  | joined ha hjoins ih =>
    have hb := Touches.joined ha hjoins
    cases hjoins with
    | @initializer key hmethod hname hinit =>
      exact .joined ih (.initializer (h.methods key ha hmethod) hname
        (h.methods ⟨key.owner, staticInitializerSignature⟩ hb hinit))
    | @resolved file caller owner unit signature kind hfile hfact hunit =>
      obtain ⟨old, hold, hfact'⟩ := h.uses file hfile _ hfact _ rfl ih ha
      have hdeclares := Inventory.declaresMethod_of_resolveMethod? hunit
      refine .joined ih (.resolved hold hfact' (findUpward?_of_agrees
        (h.ancestors owner (.used ha hfile hfact rfl rfl)) hunit
        (h.methods ⟨unit, signature⟩ hb hdeclares)
        ?_))
      intro found hfound
      exact h.keptMethods ⟨found, signature⟩ (.joined ih (.resolved hold hfact' hfound))
        (Inventory.declaresMethod_of_resolveMethod? hfound)
    | @overriding file caller owner unit signature kind hfile hfact howner hsignature hunit
        hdeclares =>
      obtain ⟨old, hold, hfact'⟩ := h.uses file hfile _ hfact _ rfl ih ha
      have hcoherent := fun files => Declarations.coherent_hierarchy settings
        (Declarations.addClasses settings {} files)
      have hup := (hcoherent files').mem_ancestors_iff_mem_descendants.2 hunit
      have hancestors := h.ancestors unit (.owner hb)
      refine .joined ih (.overriding hold hfact' howner hsignature ?_
        (h.methods ⟨unit, signature⟩ hb hdeclares))
      exact (hcoherent files).mem_ancestors_iff_mem_descendants.1
        (show owner ∈ (Context.ofClasses settings files).inventory.hierarchy.ancestors unit from
          hancestors ▸ hup)
    | @accessed file caller field unit write isStatic hfile hfact hunit =>
      obtain ⟨old, hold, hfact'⟩ := h.uses file hfile _ hfact _ rfl ih ha
      have hdeclares := Inventory.declaresField_of_resolveField? hunit
      refine .joined ih (.accessed hold hfact' (findUpward?_of_agrees
        (h.ancestors field.owner (.used ha hfile hfact rfl rfl)) hunit
          (h.fields { field with owner := unit } hb hdeclares) ?_))
      intro found hfound
      exact h.keptFields { field with owner := found } (.joined ih (.accessed hold hfact' hfound))
        (Inventory.declaresField_of_resolveField? hfound)
    | written hfile hfact hunit hname =>
      exact h.writes _ _ ih hb (.written hfile hfact hunit hname)
    | @dependent dependent dependency signature hpair hdeclares =>
      have hpair' := mem_proper.2 ⟨h.pairs _ hpair signature ha, (mem_proper.1 hpair).2⟩
      exact .joined ih (.dependent hpair'
        (h.methods ⟨dependent, signature⟩ ha hdeclares))
    | @dependency _ dependency signature hpair hdeclares =>
      obtain ⟨dependent, hpair'⟩ := exists_pair_of_touches ih
      exact .joined ih (.dependency hpair' (h.methods ⟨dependency, signature⟩ hb hdeclares))
    | @inherited unit ancestor signature hancestor hdeclares hsignature hfixture =>
      have hancestors := h.ancestors unit (.owner ha)
      exact .joined ih (.inherited (hancestors ▸ hancestor)
        (h.methods ⟨ancestor, signature⟩ hb hdeclares) hsignature hfixture)

end CallGraph

end Retest
