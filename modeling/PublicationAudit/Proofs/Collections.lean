import Mathlib.Algebra.GroupWithZero.Nat
import PublicationAudit.Proofs.FirstMentions
import PublicationAudit.Proofs.Grouping
import PublicationAudit.Publication

/-!
# Entries by class

The collections of a publication part its entries by class. `group_entries` says which groups there
are, in which order, and what they hold; `objects_perm` that every entry stands in just one of them.
`Collection.PartsByClass` puts together what collections are to show, compliance with a report
included; the main statement, `ofEntries_eq_iff`, is that the collections of a publication show it
and are the only ones that do.
-/

namespace PublicationAudit

/-- The entries of all collections. -/
def Publication.objects (publication : Publication) : List Entry :=
  publication.classes.flatMap (·.objects)

namespace Collection

/-- Declaring classes puts no entry under any class. -/
theorem find?_declared (classes : List String) {groups : OrderedMap String (List Entry)}
    (h : ∀ cls, (groups.find? cls).getD [] = []) (cls : String) :
    ((classes.foldl (fun groups cls => groups.upsert cls fun old => old.getD []) groups).find?
      cls).getD [] = [] := by
  induction classes generalizing groups with
  | nil => exact h cls
  | cons declared classes ih =>
      refine ih fun other => ?_
      rw [OrderedMap.find?_upsert]
      split
      · exact h declared
      · exact h other

/-- The groups are the target classes and then the other classes that entries show, and each holds
the entries of its class in their order. -/
theorem group_entries (shapes : ShapeSet) (entries : List Entry) :
    (group shapes entries).entries =
      (shapes.targetClasses ++ entries.map (·.cls)).eraseDups.map fun cls =>
        (cls, entries.filter fun entry => entry.cls = cls) := by
  have hkeys : (shapes.targetClasses.foldl
      (fun groups cls => groups.upsert cls fun old => old.getD [])
      (.empty : OrderedMap String (List Entry))).keys = shapes.targetClasses := by
    have hdeclared := OrderedMap.keys_foldl_upsert id
      (fun _ (old : Option (List Entry)) => old.getD []) shapes.targetClasses .empty
    rw [OrderedMap.keys_empty, List.nil_append, List.map_id] at hdeclared
    exact hdeclared.trans (eraseDups_of_nodup (nodup_eraseDups _))
  refine (OrderedMap.entries_pushAll Entry.cls id _ entries).trans ?_
  rw [hkeys]
  refine List.map_congr_left fun cls _ => ?_
  rw [find?_declared shapes.targetClasses (fun _ => rfl), List.map_id, List.nil_append]

/-- Grouping loses and repeats no entry. -/
theorem objects_perm (shapes : ShapeSet) (report : MaturityReport) (entries : List Entry) :
    ((ofEntries shapes report entries).flatMap (·.objects)).Perm entries := by
  rw [ofEntries, List.flatMap_map, group_entries, List.flatMap_map]
  refine flatMap_filter_perm Entry.cls (nodup_eraseDups _) fun entry hentry => ?_
  rw [List.mem_eraseDups, List.mem_append]
  exact .inr (List.mem_map_of_mem hentry)

end Collection

/-! ## Compliance of a class -/

namespace MaturityReport

/-- A report lists something as missing for a class: the class itself or a property of it. -/
def ListsMissing (report : MaturityReport) (cls : String) : Prop :=
  ∃ r ∈ report.tiers, cls ∈ r.missingClasses ∨ ∃ path, ⟨cls, path⟩ ∈ r.missingOptional

/-- The first of the tiers of a report that list a class as missing. -/
def FirstMissingAt (report : MaturityReport) (cls : String) (tier : Tier) : Prop :=
  ∃ before r after, report.tiers = before ++ r :: after ∧ r.tier = tier ∧
    cls ∈ r.missingClasses ∧ ∀ earlier ∈ before, cls ∉ earlier.missingClasses

/-- The paths of the properties that a report lists as missing for a class, as it lists them. -/
def missingPathsFor (report : MaturityReport) (cls : String) : List String :=
  ((report.tiers.flatMap (·.missingOptional)).filter fun missing =>
    missing.targetClass = cls).map (·.path)

variable {report : MaturityReport} {cls path : String}

/-- A path is listed for a class by some tier. -/
theorem mem_missingPathsFor :
    path ∈ report.missingPathsFor cls ↔ ∃ r ∈ report.tiers, ⟨cls, path⟩ ∈ r.missingOptional := by
  rw [missingPathsFor, List.mem_map]
  constructor
  · rintro ⟨⟨_, _⟩, hmissing, rfl⟩
    obtain ⟨hlisted, hcls⟩ := List.mem_filter.1 hmissing
    obtain rfl := of_decide_eq_true hcls
    exact List.mem_flatMap.1 hlisted
  · rintro ⟨r, hr, hmissing⟩
    exact ⟨⟨cls, path⟩, List.mem_filter.2 ⟨List.mem_flatMap.2 ⟨r, hr, hmissing⟩, by simp⟩, rfl⟩

end MaturityReport

namespace Compliance

/-- What a compliance says of a class is what a report lists: the first tier that lists the class as
missing, and the paths that are listed for it, each where it first comes. -/
structure Describes (report : MaturityReport) (cls : String) (compliance : Compliance) : Prop where
  tier : ∀ tier, compliance.missingAtTier = some tier ↔ report.FirstMissingAt cls tier
  paths : FirstMentions (fun _ => True) (report.missingPathsFor cls) compliance.missingOptional

variable {report : MaturityReport} {cls : String} {compliance other : Compliance}

/-- A report is described in one way. -/
theorem Describes.unique (h : compliance.Describes report cls)
    (hother : other.Describes report cls) : compliance = other := by
  have htier : compliance.missingAtTier = other.missingAtTier :=
    Option.ext fun tier => (h.tier tier).trans (hother.tier tier).symm
  exact congrArg₂ Compliance.mk htier (h.paths.unique hother.paths)

/-- The tier that a search of the reports finds is the first that lists the class. -/
theorem find?_eq_some_iff (report : MaturityReport) (cls : String) (tier : Tier) :
    (report.tiers.find? fun r => r.missingClasses.contains cls).map (·.tier) = some tier ↔
      report.FirstMissingAt cls tier := by
  rw [Option.map_eq_some_iff]
  constructor
  · rintro ⟨r, hfind, rfl⟩
    obtain ⟨hlists, before, after, htiers, hbefore⟩ := List.find?_eq_some_iff_append.1 hfind
    exact ⟨before, r, after, htiers, rfl, List.contains_iff_mem.1 hlists, fun earlier hearlier =>
      by simpa using hbefore earlier hearlier⟩
  · rintro ⟨before, r, after, htiers, rfl, hlists, hbefore⟩
    refine ⟨r, List.find?_eq_some_iff_append.2 ⟨List.contains_iff_mem.2 hlists, before, after,
      htiers, fun earlier hearlier => ?_⟩, rfl⟩
    simpa using hbefore earlier hearlier

/-- A class has a compliance when a report lists something for it. -/
theorem isSome_ofReport?_iff (report : MaturityReport) (cls : String) :
    (ofReport? report cls).isSome = true ↔ report.ListsMissing cls := by
  have hclass : ((report.tiers.find? fun r => r.missingClasses.contains cls).map
      (·.tier)).isNone = true ↔ ¬∃ r ∈ report.tiers, cls ∈ r.missingClasses := by simp
  have hpaths : (report.missingPathsFor cls).eraseDups.isEmpty = true ↔
      ¬∃ r ∈ report.tiers, ∃ path, ⟨cls, path⟩ ∈ r.missingOptional := by
    simp only [List.isEmpty_iff, List.eq_nil_iff_forall_not_mem, List.mem_eraseDups,
      MaturityReport.mem_missingPathsFor, ← not_exists]
    rw [exists_comm]
    simp only [exists_and_left]
  have hlists : report.ListsMissing cls ↔ (∃ r ∈ report.tiers, cls ∈ r.missingClasses) ∨
      ∃ r ∈ report.tiers, ∃ path, ⟨cls, path⟩ ∈ r.missingOptional := by
    simp only [MaturityReport.ListsMissing, and_or_left, exists_or]
  rw [MaturityReport.missingPathsFor] at hpaths
  rw [hlists]
  simp only [ofReport?]
  split
  · rename_i hnothing
    rw [Bool.and_eq_true, hclass, hpaths] at hnothing
    simp [hnothing]
  · rename_i hsomething
    rw [Bool.and_eq_true, hclass, hpaths, not_and_or, not_not, not_not] at hsomething
    simpa using hsomething

/-- And then the compliance says what the report lists. -/
theorem describes_of_ofReport? (h : ofReport? report cls = some compliance) :
    compliance.Describes report cls := by
  simp only [ofReport?] at h
  split at h
  · cases h
  · cases h
    exact ⟨find?_eq_some_iff report cls, firstMentions_all _⟩

/-- There is no other compliance with a report. -/
theorem ofReport?_eq_iff {found : Option Compliance} : ofReport? report cls = found ↔
    (found.isSome = true ↔ report.ListsMissing cls) ∧
      ∀ compliance, found = some compliance → compliance.Describes report cls := by
  constructor
  · rintro rfl
    exact ⟨isSome_ofReport?_iff report cls, fun _ => describes_of_ofReport?⟩
  · rintro ⟨hpresent, hdescribed⟩
    have hsome : (ofReport? report cls).isSome = found.isSome :=
      Bool.eq_iff_iff.2 ((isSome_ofReport?_iff report cls).trans hpresent.symm)
    cases found with
    | none => simpa using hsome
    | some compliance =>
        obtain ⟨made, hmade⟩ := Option.isSome_iff_exists.1 hsome
        rw [hmade, (describes_of_ofReport? hmade).unique (hdescribed compliance rfl)]

end Compliance

/-! ## Collections of entries -/

namespace Collection

/-- What one collection of entries is to show: the entries of its class in their order and how many
they are; and a compliance when the report lists something as missing for the class, which says
what. -/
structure Collects (report : MaturityReport) (entries : List Entry) (collection : Collection) :
    Prop where
  named : collection.className = shortName collection.classUri
  objects : collection.objects = entries.filter fun entry => entry.cls = collection.classUri
  counted : collection.count = collection.objects.length
  present : collection.compliance.isSome = true ↔ report.ListsMissing collection.classUri
  described : ∀ compliance, collection.compliance = some compliance →
    compliance.Describes report collection.classUri

/-- What the collections of entries are to show. There is one for each target class of the shapes
in the order of their declaration, and then one for each other class in the order in which entries
first show it. Every entry is in one collection, and the counts add up. -/
structure PartsByClass (shapes : ShapeSet) (report : MaturityReport) (entries : List Entry)
    (collections : List Collection) : Prop where
  distinct : (collections.map (·.classUri)).Nodup
  classes : ∃ declared others, collections.map (·.classUri) = declared ++ others ∧
    FirstMentions (fun _ => True) (shapes.shapes.map (·.targetClass)) declared ∧
    FirstMentions (· ∉ declared) (entries.map (·.cls)) others
  each : ∀ collection ∈ collections, collection.Collects report entries
  once : (collections.flatMap (·.objects)).Perm entries
  total : (collections.map (·.count)).sum = entries.length

variable {shapes : ShapeSet} {report : MaturityReport} {entries : List Entry}
  {collections : List Collection}

/-- Every class has one collection, in the order of the classes. -/
theorem ofEntries_eq_map (shapes : ShapeSet) (report : MaturityReport) (entries : List Entry) :
    ofEntries shapes report entries =
      (shapes.targetClasses ++ entries.map (·.cls)).eraseDups.map fun cls =>
        ofGroup report (cls, entries.filter fun entry => entry.cls = cls) := by
  rw [ofEntries, group_entries, List.map_map]
  rfl

/-- The classes of the collections are the distinct classes that shapes target or entries show. -/
theorem map_classUri_ofEntries :
    (ofEntries shapes report entries).map (·.classUri) =
      (shapes.targetClasses ++ entries.map (·.cls)).eraseDups := by
  rw [ofEntries_eq_map, List.map_map]
  exact List.map_id _

/-- They are those that shapes target, followed by the others that entries show. -/
theorem classes_eq_append (shapes : ShapeSet) (entries : List Entry) :
    (shapes.targetClasses ++ entries.map (·.cls)).eraseDups = shapes.targetClasses ++
      ((entries.map (·.cls)).filter fun cls => cls ∉ shapes.targetClasses).eraseDups := by
  have hdeclared : shapes.targetClasses.eraseDups = shapes.targetClasses :=
    eraseDups_of_nodup (nodup_eraseDups _)
  rw [List.eraseDups_append, hdeclared]
  congr 2
  exact List.filter_congr fun cls _ => by simp

/-- A collection shows what it is to show exactly when it is made for its class. -/
theorem collects_iff {collection : Collection} : collection.Collects report entries ↔
    ofGroup report (collection.classUri, entries.filter fun entry =>
      entry.cls = collection.classUri) = collection := by
  constructor
  · intro h
    have hcompliance := Compliance.ofReport?_eq_iff.2 ⟨h.present, h.described⟩
    simp only [ofGroup]
    rw [hcompliance, ← h.objects, ← h.named, ← h.counted]
  · intro h
    rw [← h]
    exact ⟨rfl, rfl, rfl, Compliance.isSome_ofReport?_iff report _,
      fun _ => Compliance.describes_of_ofReport?⟩

/-- The collections of a publication are those that part its entries by class: each holds the
entries of its class, in order, and a compliance that says what the report lists as missing for it.
Nothing else parts them so. -/
theorem ofEntries_eq_iff (shapes : ShapeSet) (report : MaturityReport) (entries : List Entry)
    (collections : List Collection) : ofEntries shapes report entries = collections ↔
      PartsByClass shapes report entries collections := by
  constructor
  · rintro rfl
    have heach : ∀ collection ∈ ofEntries shapes report entries,
        collection.Collects report entries := fun collection hcollection => by
      rw [ofEntries_eq_map] at hcollection
      obtain ⟨cls, -, rfl⟩ := List.mem_map.1 hcollection
      exact collects_iff.2 rfl
    have honce := objects_perm shapes report entries
    refine ⟨?_, ⟨shapes.targetClasses,
      ((entries.map (·.cls)).filter fun cls => cls ∉ shapes.targetClasses).eraseDups, ?_,
      firstMentions_all _, (firstMentions_eraseDups _ _).congr fun cls _ => by simp⟩, heach, honce,
      ?_⟩
    · rw [map_classUri_ofEntries]
      exact nodup_eraseDups _
    · rw [map_classUri_ofEntries, classes_eq_append]
    · rw [← honce.length_eq, List.length_flatMap]
      exact congrArg List.sum (List.map_congr_left fun collection hcollection =>
        (heach collection hcollection).counted)
  · intro h
    obtain ⟨declared, others, hclasses, hdeclared, hothers⟩ := h.classes
    obtain rfl := hdeclared.unique (firstMentions_all _)
    obtain rfl := hothers.unique
      ((firstMentions_eraseDups (fun cls => cls ∉ shapes.targetClasses) _).congr fun cls _ => by
        simp [ShapeSet.targetClasses])
    calc ofEntries shapes report entries
        = (collections.map (·.classUri)).map fun cls =>
            ofGroup report (cls, entries.filter fun entry => entry.cls = cls) := by
          rw [ofEntries_eq_map, hclasses, classes_eq_append]
          rfl
      _ = collections.map id := by
          rw [List.map_map]
          exact List.map_congr_left fun collection hcollection =>
            collects_iff.1 (h.each collection hcollection)
      _ = collections := List.map_id _

end Collection

end PublicationAudit
