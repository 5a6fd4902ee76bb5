import Retest.Proofs.Selection.Overlooked

/-!
# Stores that do not fall behind

After every run of a history, the store names a test in all records that its footprint in the graph
of that run reaches, or else a change was overlooked since the test was last run again
(`Retest.exists_history_complete_or_overlooked`). So a store falls behind the builds only through
the kinds of changes that `Retest.Overlooked` lists, and with a run that selects the test it catches
up.

Both the exception and the condition on the names of tests are needed. A unit that is new may
enlarge the footprint of a test without selecting it, since a call of a method also leads to the
methods that override it: the test is not recorded for the new method until it is run again for
another reason (`Retest.history_sampleOverride`). And the store does not show a test whose name is
not found again in its text (`Retest.history_sampleComma`).
-/

namespace Retest

/-- **The store is complete as of the run itself**: every test stands in all records that its
footprint reaches now. -/
def Completed.Complete (settings : Settings) (r : Completed) : Prop :=
  ∀ t ∈ r.tests settings, ∀ id, ((r.analysis settings).graph.footprint t).contains
    (r.analysis settings).graph id = true → ∀ store record, r.directory.loadStore = some store →
      store.records.get? id = some record → t ∈ record.tests

/-- **After each run of a history the store is complete, or a change was overlooked** since the test
that is missing was last run again. -/
theorem exists_history_complete_or_overlooked {settings : Settings} {start : StoreDirectory}
    (hgranularity : settings.granularity = .member) (hstart : ∀ file, start.entry? file = none)
    (requests : List Request) (hok : ∀ q ∈ requests, q.Admissible settings) :
    ∃ runs, History settings start runs ∧ runs.map Completed.toRequest = requests ∧
      ∀ newer latest past, runs = newer ++ latest :: past → ∀ t ∈ latest.tests settings,
        ∃ store later r, latest.directory.loadStore = some store ∧
          LastRefresh settings t (latest :: past) later r ∧
          ((∀ id record, ((latest.analysis settings).graph.footprint t).contains
              (latest.analysis settings).graph id = true →
              store.records.get? id = some record → t ∈ record.tests) ∨
            ∃ q q', Follows (later ++ [r]) q q' ∧ Overlooked settings t q q') := by
  obtain ⟨runs, h, hmap⟩ := History.exists_of_requests hstart requests
  have hokRuns : ∀ q ∈ runs, q.Admissible settings := by
    intro q hq
    exact hok _ (hmap ▸ List.mem_map_of_mem hq)
  refine ⟨runs, h, hmap, ?_⟩
  rintro newer latest past rfl t ht
  -- what a store holds depends on the runs up to it, not on newer ones
  have hpast := h.of_append
  have hokPast : ∀ q ∈ latest :: past, q.Admissible settings := fun q hq =>
    hokRuns q (List.mem_append_right _ hq)
  have hload : start.loadStore = none := by
    simp [StoreDirectory.loadStore, StoreDirectory.read?, hstart]
  obtain ⟨store, later, r, hstore, hlast, -⟩ := hpast.mem_testsOf_iff hload hokPast rfl ht
  refine ⟨store, later, r, hstore, hlast, ?_⟩
  obtain ⟨before, hbefore⟩ := hlast.runs_eq
  rw [hbefore] at hpast hokPast
  have hlatest : (later ++ r :: before).head? = some latest := by
    rw [← hbefore, List.head?_cons]
  refine (hpast.upToDate_or_overlooked hgranularity hokPast hlast.refreshed hlast.later
    hlatest).imp_left fun hupToDate id record hcontains hget => ?_
  have hreaches : latest.Reaches settings t id :=
    (Completed.reaches_iff hgranularity).2 ⟨id, Completed.touches_iff.2 hcontains, .inr rfl⟩
  obtain ⟨store', hstore', hmem⟩ := hupToDate id hreaches ⟨store, record, hstore, hget⟩
  obtain rfl := Option.some.inj (hstore.symm.trans hstore')
  obtain ⟨record', hget', hmem⟩ := Store.mem_testsOf.1 hmem
  obtain rfl := Option.some.inj (hget.symm.trans hget')
  exact hmem

/-! ### An edit of a body -/

/-- A run for the one test. -/
def sampleRequest (build : Build) : Request := ⟨build, some ["shop.CartTest"], []⟩

/-- The sample class before its method came to read the field. -/
def sampleEarlier : ClassSpec :=
  (ClassSpec.addField { name := "shop.Cart" }
    { access := 0x0008, name := "count", descriptor := "I" }).addMethod
    { access := 0x0001, name := "total", descriptor := "()I", code := some [.iconst 3, .ireturn] }

/-- The test reaches its own method, which has a fingerprint, and nothing that uses reflection.
There is no class yet that overrides a method. -/
theorem analysis_sampleBuild :
    (sampleRequest sampleBuild).Admissible {} ∧
      ((sampleBuild.analyze {} []).graph.footprint "shop.CartTest").contains
        (sampleBuild.analyze {} []).graph (.method ⟨"shop.CartTest", "testTotal()V"⟩) = true ∧
      ((sampleBuild.analyze {} []).graph.footprint "shop.CartTest").reflective = false ∧
      ((sampleBuild.analyze {} []).fingerprint?
        (.method ⟨"shop.CartTest", "testTotal()V"⟩)).isSome = true ∧
      ((sampleBuild.analyze {} []).fingerprint?
        (.method ⟨"shop.GiftCart", "total()I"⟩)).isNone = true := by
  decide +kernel

/-- Of every unit there are two versions, which have the same outline. -/
theorem outlines_sampleEarlier : (sampleRequest (buildWith sampleEarlier)).Admissible {} ∧
    (∀ e ∈ (buildWith sampleEarlier).parsed {}, ∃ e' ∈ sampleBuild.parsed {}, e'.1 = e.1) ∧
    (∀ e' ∈ sampleBuild.parsed {}, ∃ e ∈ (buildWith sampleEarlier).parsed {}, e.1 = e'.1) ∧
    (∀ e' ∈ sampleBuild.parsed {}, ∀ fact ∈ e'.2.file.facts, ∀ caller ∈ fact.caller?,
      caller.name ≠ staticInitializerName ∧ caller.name ≠ constructorName) ∧
    ∀ e ∈ (buildWith sampleEarlier).parsed {}, ∀ e' ∈ sampleBuild.parsed {}, e'.1 = e.1 →
      (e.2.file.superName = e'.2.file.superName ∧ e.2.file.interfaces = e'.2.file.interfaces ∧
        e.2.file.methods.map MethodDecl.slot = e'.2.file.methods.map MethodDecl.slot ∧
        e.2.file.fields.map FieldDecl.slot = e'.2.file.fields.map FieldDecl.slot) := by
  decide +kernel

set_option maxRecDepth 4000 in
/-- What is different is seen. -/
theorem versions_sampleEarlier : ∀ e ∈ (buildWith sampleEarlier).parsed {},
    ∀ e' ∈ sampleBuild.parsed {}, e'.1 = e.1 → e.2.file.facts = e'.2.file.facts ∨
      (e.2.snapshot.crc ≠ e'.2.snapshot.crc ∧ (e.2.file.Plain ∧ e'.2.file.Plain) ∧
        e.2.snapshot.fingerprint? (.method ⟨"shop.Cart", "total()I"⟩) ≠ none ∧
        e.2.snapshot.fingerprint? (.method ⟨"shop.Cart", "total()I"⟩) ≠
          e'.2.snapshot.fingerprint? (.method ⟨"shop.Cart", "total()I"⟩) ∧
        ∀ fact ∈ e.2.file.facts ++ e'.2.file.facts, ∀ caller ∈ fact.caller?,
          (fact ∈ e.2.file.facts ∧ fact ∈ e'.2.file.facts) ∨
            caller = ⟨"shop.Cart", "total()I"⟩) := by
  decide +kernel

/-- The edit is not overlooked. -/
theorem not_overlooked_sampleEarlier {q r : Completed} {t : UnitName}
    (hq : q.toRequest = sampleRequest (buildWith sampleEarlier))
    (hr : r.toRequest = sampleRequest sampleBuild) : ¬Overlooked {} t q r := by
  obtain ⟨-, hkept, hadded, hcallers, houtlines⟩ := outlines_sampleEarlier
  refine not_overlooked_of_sameOutline (fun unit old hold => ?_) (fun unit new hnew => ?_)
    (fun field caller hjoins => ?_) fun e he => ?_
  · rw [hq] at hold
    obtain ⟨⟨_, new⟩, hnew, rfl⟩ := hkept _ hold
    obtain ⟨hsuper, hinterfaces, hmethods, hfields⟩ := houtlines _ hold _ hnew rfl
    have houtline : old.file.SameOutline new.file := {
      superName := hsuper
      interfaces := fun unit => by rw [hinterfaces]
      methods := fun slot => by rw [← List.mem_map, hmethods, List.mem_map]
      fields := fun slot => by rw [← List.mem_map, hfields, List.mem_map] }
    refine ⟨new, by rw [hr]; exact hnew, houtline, ?_⟩
    rcases versions_sampleEarlier _ hold _ hnew rfl with hfacts | ⟨hcrc, hplain, hthere, hne, huses⟩
    · exact ParsedUnit.not_veils_of_alike ⟨houtline, fun _ => by rw [hfacts]⟩
    · exact ParsedUnit.not_veils_of_ne hcrc hplain hthere hne huses
  · rw [hr] at hnew
    obtain ⟨⟨_, old⟩, hold, rfl⟩ := hadded _ hnew
    exact ⟨old, by rw [hq]; exact hold⟩
  · -- no method is an initializer
    rw [hr] at hjoins
    cases hjoins with
    | @written file caller field unit isStatic hfile hfact hunit hname =>
      obtain ⟨p, hp, rfl⟩ := Build.mem_kept_files.1 hfile
      obtain ⟨hstatic, hconstructor⟩ := hcallers _ hp _ hfact caller rfl
      cases isStatic with
      | true => exact absurd hname hstatic
      | false => exact absurd hname hconstructor
  · rw [hr] at he
    cases he

/-- Of two runs one follows the other. -/
theorem Follows.eq_of_pair {first second q q' r : Completed} {later before : List Completed}
    (hruns : [second, first] = later ++ r :: before) (h : Follows (later ++ [r]) q q') :
    q = first ∧ q' = second := by
  obtain ⟨newer, older, hsplit⟩ := h
  have hall : [second, first] = newer ++ q' :: q :: (older ++ before) := by
    rw [hruns, ← List.singleton_append, ← List.append_assoc, hsplit]
    simp
  cases newer with
  | nil =>
    obtain ⟨rfl, hrest⟩ := List.cons.inj hall
    obtain ⟨rfl, -⟩ := List.cons.inj hrest
    exact ⟨rfl, rfl⟩
  | cons _ newer =>
    have hlength := congrArg List.length hall
    simp only [List.length_append, List.length_cons, List.length_nil] at hlength
    omega

/-- The method of the class is edited between two runs and comes to read a field. The store is
complete afterwards, and so it names the test in the record of the field. -/
theorem exists_history_sampleEdited : ∃ first second, History {} ⟨"store", none⟩ [second, first] ∧
    first.toRequest = sampleRequest (buildWith sampleEarlier) ∧
    second.toRequest = sampleRequest sampleBuild ∧ second.Complete {} := by
  have hok : ∀ q ∈ [sampleRequest sampleBuild, sampleRequest (buildWith sampleEarlier)],
      q.Admissible {} := by
    simp [analysis_sampleBuild.1, outlines_sampleEarlier.1]
  have hruns := @exists_history_complete_or_overlooked {} ⟨"store", none⟩ rfl (fun _ => rfl) _ hok
  obtain ⟨runs, h, hmap, hcomplete⟩ := hruns
  obtain ⟨second, _, rfl, hsecond, hmap⟩ := List.map_eq_cons_iff.1 hmap
  obtain ⟨first, _, rfl, hfirst, hmap⟩ := List.map_eq_cons_iff.1 hmap
  obtain rfl := List.map_eq_nil_iff.1 hmap
  refine ⟨first, second, h, hfirst, hsecond, fun t ht id hcontains store record hload hget => ?_⟩
  obtain ⟨store', later, r, hload', hlast, hall | ⟨q, q', hfollows, hoverlooked⟩⟩ :=
    hcomplete [] second [first] rfl t ht
  · obtain rfl := Option.some.inj (hload.symm.trans hload')
    exact hall id record hcontains hget
  · obtain ⟨before, hbefore⟩ := hlast.runs_eq
    obtain ⟨rfl, rfl⟩ := hfollows.eq_of_pair hbefore
    exact absurd hoverlooked (not_overlooked_sampleEarlier hfirst hsecond)

/-! ### A new unit that overrides a method -/

/-- A class that overrides the method of the sample class. -/
def sampleOverride : ClassSpec :=
  ClassSpec.addMethod { name := "shop.GiftCart", superName := some "shop.Cart" }
    { access := 0x0001, name := "total", descriptor := "()I", code := some [.iconst 3, .ireturn] }

/-- The sample build with the class beside it. -/
def sampleExtended : Build :=
  .ofMap (.ofList [("shop.Cart", sampleUnit.assemble), ("shop.CartTest", sampleTest.assemble),
    ("shop.GiftCart", sampleOverride.assemble)])

/-- The test reaches the overriding method, which has a fingerprint; the other classes are what
they were. -/
theorem analysis_sampleExtended :
    (sampleRequest sampleExtended).Admissible {} ∧
      ((sampleExtended.analyze {} []).graph.footprint "shop.CartTest").contains
        (sampleExtended.analyze {} []).graph (.method ⟨"shop.GiftCart", "total()I"⟩) = true ∧
      ((sampleExtended.analyze {} []).fingerprint?
        (.method ⟨"shop.GiftCart", "total()I"⟩)).isSome = true ∧
      ∀ unit ∈ sampleBuild.relevant {}, sampleExtended.locate unit = sampleBuild.locate unit := by
  decide +kernel

/-- The first run records the test, which does not depend on just anything. -/
theorem loadStore_sampleBuild {r : Completed} (hr : r.toRequest = sampleRequest sampleBuild)
    (hrun : (runSelection {} r.build r.tests? r.external).run.run ⟨"store", none⟩ =
      (.ok r.selection, r.directory)) :
    ∃ store, r.directory.loadStore = some store ∧ "shop.CartTest" ∈ store.tests ∧
      "shop.CartTest" ∉ store.wildcard := by
  obtain ⟨hadmissible, hcontains, hplain, hfound, -⟩ := analysis_sampleBuild
  have hok : r.Admissible {} := hr ▸ hadmissible
  obtain ⟨previous, store, -, hload, -, -, hwildcard, hrecords⟩ := Completed.loadStore_eq hok hrun
  have hrefreshed : "shop.CartTest" ∈ r.refreshed {} := by
    by_contra hnot
    obtain ⟨store, hstore, -⟩ :=
      Completed.mem_tests_of_not_refreshed hrun (by rw [hr]; decide) hnot
    cases hstore
  -- the test reaches its own method, and nothing that it reaches uses reflection
  have hreaches : r.Reaches {} "shop.CartTest" (.method ⟨"shop.CartTest", "testTotal()V"⟩) := by
    refine (Completed.reaches_iff rfl).2 ⟨_, Completed.touches_iff.2 ?_, .inr rfl⟩
    rw [hr]
    exact hcontains
  have hreflective : ((r.analysis {}).graph.footprint "shop.CartTest").reflective = false := by
    rw [hr]
    exact hplain
  have hrecord : r.Records (.method ⟨"shop.CartTest", "testTotal()V"⟩) := by
    refine (Completed.records_iff hok hrun).2 ⟨rfl, Option.isSome_iff_exists.1 ?_⟩
    rw [hr]
    exact hfound
  refine ⟨store, hload, ?_, ?_⟩
  · have hmem := (Completed.mem_testsOf_iff hok hload hrecords).2
      ⟨hrecord, Store.Renewal.mem_testsFor.2 (.inr ⟨hrefreshed, hreaches⟩)⟩
    obtain ⟨record, hget, ht⟩ := Store.mem_testsOf.1 hmem
    exact SortedSet.mem_union.2 (.inr (Store.mem_recordTests.2 ⟨_, record, hget, ht⟩))
  · rw [hwildcard, Store.mem_wildcard_next]
    rintro (⟨-, -, hnot⟩ | ⟨-, htrue⟩)
    · exact hnot hrefreshed
    · cases hreflective.symm.trans htrue

/-- The class that is new does not select the test. -/
theorem not_mem_refreshed_sampleExtended {first second : Completed}
    (hfirst : first.toRequest = sampleRequest sampleBuild)
    (hsecond : second.toRequest = sampleRequest sampleExtended)
    (h : History {} ⟨"store", none⟩ [second, first]) : "shop.CartTest" ∉ second.refreshed {} := by
  obtain ⟨-, -, -, hsame⟩ := analysis_sampleExtended
  have hok : first.Admissible {} := hfirst ▸ analysis_sampleBuild.1
  cases h with
  | cons hpast hrun =>
    cases hpast with
    | cons _ hrunFirst =>
      obtain ⟨store, hload, hknown, hwildcard⟩ := loadStore_sampleBuild hfirst hrunFirst
      have hkept : ∀ unit ∈ first.build.relevant {},
          second.build.locate unit = first.build.locate unit := by
        rw [hfirst, hsecond]
        exact hsame
      intro hagain
      exact (Completed.of_mem_refreshed_of_kept hok hrunFirst hrun hkept hload hagain).elim
        hwildcard fun hunknown => hunknown hknown

/-- A test that the second of two runs does not run again was last run again in the first. -/
theorem LastRefresh.mem_of_pair {settings : Settings} {t : UnitName} {first second r : Completed}
    {later : List Completed} (h : LastRefresh settings t [second, first] later r)
    (hnot : t ∉ second.refreshed settings) : first ∈ later ++ [r] := by
  obtain ⟨before, hbefore⟩ := h.runs_eq
  rcases List.cons_eq_append_iff.1 hbefore with ⟨rfl, hrest⟩ | ⟨newer, rfl, hfirst⟩
  · obtain ⟨rfl, -⟩ := List.cons.inj hrest
    exact absurd h.refreshed hnot
  · rcases List.cons_eq_append_iff.1 hfirst with ⟨rfl, hrest⟩ | ⟨newer, rfl, -⟩
    · obtain ⟨rfl, -⟩ := List.cons.inj hrest
      exact List.mem_append_right _ List.mem_cons_self
    · exact List.mem_cons_of_mem _ List.mem_cons_self

/-- A class is added that overrides a method which the test calls. The test reaches the new method,
but it is not run again, and the record of the new method does not name it. -/
theorem history_sampleOverride : ∃ first second, History {} ⟨"store", none⟩ [second, first] ∧
    (∀ q ∈ [second, first], q.Admissible {}) ∧ ¬second.Complete {} := by
  have hruns : ∃ runs, History {} ⟨"store", none⟩ runs ∧ runs.map Completed.toRequest =
      [sampleRequest sampleExtended, sampleRequest sampleBuild] :=
    History.exists_of_requests (fun _ => rfl) _
  obtain ⟨runs, h, hmap⟩ := hruns
  obtain ⟨second, _, rfl, hsecond, hmap⟩ := List.map_eq_cons_iff.1 hmap
  obtain ⟨first, _, rfl, hfirst, hmap⟩ := List.map_eq_cons_iff.1 hmap
  obtain rfl := List.map_eq_nil_iff.1 hmap
  obtain ⟨hadmissible, hcontains, hfound, -⟩ := analysis_sampleExtended
  have hokFirst : first.Admissible {} := hfirst ▸ analysis_sampleBuild.1
  have hokSecond : second.Admissible {} := hsecond ▸ hadmissible
  have hok : ∀ q ∈ [second, first], q.Admissible {} := by
    simp [hokFirst, hokSecond]
  have ht : "shop.CartTest" ∈ second.tests {} := by rw [hsecond]; decide
  have hnot := not_mem_refreshed_sampleExtended hfirst hsecond h
  have hreached : ((second.analysis {}).graph.footprint "shop.CartTest").contains
      (second.analysis {}).graph (.method ⟨"shop.GiftCart", "total()I"⟩) = true := by
    rw [hsecond]
    exact hcontains
  refine ⟨first, second, h, hok, fun hcomplete => ?_⟩
  obtain ⟨store, later, r, hload, hlast, hiff⟩ := h.mem_testsOf_iff rfl hok rfl ht
  cases h with
  | cons hpast hrun =>
    obtain ⟨store', record, hload', hget⟩ :
        second.Records (.method ⟨"shop.GiftCart", "total()I"⟩) := by
      refine (Completed.records_iff hokSecond hrun).2 ⟨rfl, Option.isSome_iff_exists.1 ?_⟩
      rw [hsecond]
      exact hfound
    obtain rfl := Option.some.inj (hload.symm.trans hload')
    have hmem := hcomplete _ ht _ hreached store record hload hget
    obtain ⟨-, hall⟩ := (hiff _).1 (Store.mem_testsOf.2 ⟨record, hget, hmem⟩)
    -- the test was last run again in the first run, which knew nothing of the new class
    cases hpast with
    | cons _ hrunFirst =>
      obtain ⟨-, f, hf⟩ := (Completed.records_iff hokFirst hrunFirst).1
        (hall first (hlast.mem_of_pair hnot))
      have hnone :
          (first.analysis {}).fingerprint? (.method ⟨"shop.GiftCart", "total()I"⟩) = none := by
        rw [hfirst, ← Option.isNone_iff_eq_none]
        exact analysis_sampleBuild.2.2.2.2
      cases hnone.symm.trans hf

/-! ### A name that holds a comma -/

/-- A test whose name holds a comma. -/
def sampleComma : ClassSpec :=
  ClassSpec.addMethod { name := "shop.A,shop.BTest" }
    { access := 0x0001, name := "test", descriptor := "()V", code := some [.ret] }

/-- A build of this test. -/
def sampleCommaBuild : Build := .ofMap (.ofList [("shop.A,shop.BTest", sampleComma.assemble)])

/-- The settings under which the tests are named in each record. -/
def byNames : Settings := { encoding := some .names }

/-- What the store is made from in the first run. -/
def sampleCommaRenewal : Store.Renewal :=
  Selection.renewal (.first (.ofList ["shop.A,shop.BTest"]))
    (sampleCommaBuild.analyze byNames []) .member ["shop.A,shop.BTest"]

theorem mem_refreshed_sampleComma {t : UnitName} :
    t ∈ sampleCommaRenewal.refreshed ↔ t = "shop.A,shop.BTest" :=
  SortedSet.mem_ofList.trans List.mem_singleton

theorem mem_tests_sampleComma {t : UnitName} :
    t ∈ sampleCommaRenewal.tests ↔ t = "shop.A,shop.BTest" :=
  SortedSet.mem_ofList.trans List.mem_singleton

/-- All is read, and all identifiers are. The test reaches its own method, which has a
fingerprint, and nothing that uses reflection. -/
theorem analysis_sampleComma :
    sampleCommaBuild.AllRead byNames ∧ (sampleCommaBuild.analyze byNames []).ReadsBack .member ∧
      ((sampleCommaBuild.analyze byNames []).graph.footprint "shop.A,shop.BTest").contains
        (sampleCommaBuild.analyze byNames []).graph
          (.method ⟨"shop.A,shop.BTest", "test()V"⟩) = true ∧
      ((sampleCommaBuild.analyze byNames []).graph.footprint
        "shop.A,shop.BTest").reflective = false ∧
      ((sampleCommaBuild.analyze byNames []).fingerprint?
        (.method ⟨"shop.A,shop.BTest", "test()V"⟩)).isSome = true := by
  decide +kernel

theorem readable_sampleComma : (Store.next {} sampleCommaRenewal).Readable := by
  obtain ⟨-, hreadsBack, -, hplain, -⟩ := analysis_sampleComma
  have hempty : ({} : Store).Readable := StoreDirectory.readable_of_previous?
    (d := ⟨"store", none⟩) (show StoreDirectory.previous? _ (.first ∅) = some {} from rfl)
  refine Store.readable_next (sampleCommaBuild.coherent_analyze byNames []) hempty
    hreadsBack (fun t ht => ?_) (fun t ht => ?_) fun t ht => ?_
  · rw [mem_tests_sampleComma.1 ht]
    exact ⟨by decide, by decide +kernel, by decide⟩
  · rcases Store.mem_wildcard_next.1 ht with ⟨ht, -⟩ | ⟨hmem, htrue⟩
    · exact absurd ht (SortedSet.not_mem_empty t)
    · rw [mem_refreshed_sampleComma.1 hmem] at htrue
      cases hplain.symm.trans htrue
  · exact mem_tests_sampleComma.2 (mem_refreshed_sampleComma.1 ht)

/-- The store has a record for the method, with the test in it. -/
theorem exists_record_sampleComma : ∃ f, (Store.next {} sampleCommaRenewal).records.get?
    (.method ⟨"shop.A,shop.BTest", "test()V"⟩) = some ⟨f, .ofList ["shop.A,shop.BTest"]⟩ := by
  obtain ⟨hall, -, hcontains, -, hfound⟩ := analysis_sampleComma
  obtain ⟨f, hf⟩ := Option.isSome_iff_exists.1 hfound
  refine ⟨f, (Store.get?_records_next_eq_some (sampleCommaBuild.coherent_analyze byNames [])
    (hall.not_mem_failed _)).2 ⟨rfl, hf, SortedSet.ext_mem fun t => ?_⟩⟩
  rw [SortedSet.mem_ofList, List.mem_singleton, Store.Renewal.mem_testsFor]
  have hreaches : sampleCommaRenewal.reaches (sampleCommaRenewal.analysis.graph.footprint
      "shop.A,shop.BTest") (.method ⟨"shop.A,shop.BTest", "test()V"⟩) = true :=
    (Store.Renewal.reaches_of_not_isUnit rfl rfl).2
      (Footprint.mem_dependencies_of_contains hcontains)
  constructor
  · rintro rfl
    exact .inr ⟨mem_refreshed_sampleComma.2 rfl, hreaches⟩
  · rintro (⟨-, ht, -⟩ | ⟨ht, -⟩)
    · exact mem_tests_sampleComma.1 ht
    · exact mem_refreshed_sampleComma.1 ht

/-- The test is written as one name and read as two. -/
theorem readBack?_sampleComma {store : Store} {id : Dependency} {f : Fingerprint}
    (hid : id.ReadsBack) (hf : f.IsHex) :
    store.readBack? .names id ⟨f, .ofList ["shop.A,shop.BTest"]⟩ =
      some ⟨f, .ofList ["shop.A", "shop.BTest"]⟩ := by
  have hset : Store.parseTests? none (["shop.A,shop.BTest"].flatMap Store.splitTests) =
      some (.ofList ["shop.A", "shop.BTest"]) := by
    decide +kernel
  exact congrArg (Option.map Prod.snd) (Store.parseRecord?_recordLineWith hid hf (by decide) hset)

/-- After the first run of a test whose name holds a comma, no record that is read names it. -/
theorem history_sampleComma : ∃ run : Completed, History byNames ⟨"store", none⟩ [run] ∧
    run.build.AllRead byNames ∧ (run.analysis byNames).ReadsBack .member ∧
    ¬run.Complete byNames := by
  obtain ⟨hall, hreadsBack, hcontains, -⟩ := analysis_sampleComma
  have hrun := runSelection_first (d := ⟨"store", none⟩) rfl rfl byNames sampleCommaBuild
    (some ["shop.A,shop.BTest"]) []
  refine ⟨⟨⟨sampleCommaBuild, some ["shop.A,shop.BTest"], []⟩, _, StoreDirectory.written
    ⟨"store", none⟩ byNames (Store.next {} sampleCommaRenewal)
    (sampleCommaBuild.analyze byNames []).snapshots.values⟩, .cons .nil hrun, hall, hreadsBack,
    fun hcomplete => ?_⟩
  obtain ⟨f, hget⟩ := exists_record_sampleComma
  obtain ⟨loaded, hloaded, -, -, hrecords⟩ := Store.parse?_render readable_sampleComma .names
  have hread : loaded.records.get? (.method ⟨"shop.A,shop.BTest", "test()V"⟩) =
      some ⟨f, .ofList ["shop.A", "shop.BTest"]⟩ := by
    rw [hrecords, hget]
    exact readBack?_sampleComma (readable_sampleComma.readsBack hget)
      (readable_sampleComma.isHex hget)
  have hmem : "shop.A,shop.BTest" ∈ SortedSet.ofList ["shop.A", "shop.BTest"] :=
    hcomplete _ (List.mem_singleton.2 rfl) _ hcontains loaded _
      ((StoreDirectory.loadStore_written _ _ _ _).trans hloaded) hread
  exact absurd hmem (by decide)

/-- **The footprints of now may be ahead of the store**, after a unit was added, or where the name
of a test is not found again. -/
theorem exists_history_not_complete :
    (∃ first second, History {} ⟨"store", none⟩ [second, first] ∧
      (∀ q ∈ [second, first], q.Admissible {}) ∧ ¬second.Complete {}) ∧
    ∃ run : Completed, History byNames ⟨"store", none⟩ [run] ∧ run.build.AllRead byNames ∧
      (run.analysis byNames).ReadsBack .member ∧ ¬run.Complete byNames :=
  ⟨history_sampleOverride, history_sampleComma⟩

end Retest
