import PublicationAudit.Fact
import PublicationAudit.OrderedMap
import PublicationAudit.Vocabulary

/-!
# The working set of facts

A fact set holds facts in the order in which they first came, each once, together with an index that
keeps the places of every subject's facts. It only grows. The invariants tie the index to the list
of facts, so that every indexed query is a plain scan of that list: see `factsFor_eq_filter`,
`subjects_eq` and `contains_iff`; `toList_insert` says what an insertion does to the list.
-/

namespace PublicationAudit

/-- The places in a list of facts at which a subject's facts stand. -/
def placesIn (facts : List Fact) (subject : Node) : List Nat :=
  (facts.zipIdx.filter fun entry => entry.1.subject = subject).map Prod.snd

/-- What stands at places that were noted together with what stands there. -/
theorem filterMap_places (facts : List Fact) (noted : List (Fact × Nat))
    (h : ∀ entry ∈ noted, facts[entry.2]? = some entry.1) :
    (noted.map Prod.snd).filterMap (facts[·]?) = noted.map Prod.fst := by
  induction noted with
  | nil => rfl
  | cons entry noted ih =>
    obtain ⟨hentry, hnoted⟩ := List.forall_mem_cons.1 h
    rw [List.map_cons, List.filterMap_cons_some hentry, ih hnoted, List.map_cons]

/-- What stands at a subject's places are its facts. -/
theorem filterMap_placesIn (facts : List Fact) (subject : Node) :
    (placesIn facts subject).filterMap (facts[·]?) = facts.filter (·.subject = subject) := by
  have hnoted : ∀ entry ∈ facts.zipIdx.filter (fun entry => entry.1.subject = subject),
      facts[entry.2]? = some entry.1 := fun entry hentry =>
    List.mem_zipIdx_iff_getElem?.1 (List.mem_filter.1 hentry).1
  rw [placesIn, filterMap_places facts _ hnoted]
  conv => rhs; rw [← List.zipIdx_map_fst 0 facts, List.filter_map]
  rfl

/-- One fact more adds one place for its subject and none for another. -/
theorem placesIn_append (facts : List Fact) (fact : Fact) (subject : Node) :
    placesIn (facts ++ [fact]) subject =
      placesIn facts subject ++ if fact.subject = subject then [facts.length] else [] := by
  rw [placesIn, List.zipIdx_append, List.filter_append, List.map_append]
  by_cases hsubject : fact.subject = subject <;> simp [placesIn, hsubject]

/-- Facts without duplicates, indexed by subject. -/
structure FactSet where
  facts : Array Fact
  /-- The places of a subject's facts, by subject. -/
  bySubject : OrderedMap Node (Array Nat)
  nodup : facts.toList.Nodup
  indexed : ∀ s, ((bySubject.find? s).getD #[]).toList = placesIn facts.toList s
  subjects_eq : bySubject.keys = (facts.toList.map (·.subject)).eraseDups

namespace FactSet

/-- The set without facts. -/
def empty : FactSet where
  facts := #[]
  bySubject := .empty
  nodup := by simp
  indexed := by simp [placesIn]
  subjects_eq := by simp

instance : Inhabited FactSet := ⟨empty⟩

/-- All facts in the order in which they first came. -/
def toList (set : FactSet) : List Fact := set.facts.toList

/-- The places of a subject's facts, as the index has them. -/
def placesOf (set : FactSet) (subject : Node) : List Nat :=
  ((set.bySubject.find? subject).getD #[]).toList

/-- The facts of one subject, in order: what stands at its places. -/
def factsFor (set : FactSet) (subject : Node) : List Fact :=
  (set.placesOf subject).filterMap (set.facts[·]?)

/-- Whether the fact is in the set: only the facts of its subject are searched. -/
def contains (set : FactSet) (fact : Fact) : Bool := (set.factsFor fact.subject).contains fact

/-- The facts of a subject are a scan of all facts. -/
theorem factsFor_eq_filter (set : FactSet) (subject : Node) :
    set.factsFor subject = set.toList.filter (·.subject = subject) := by
  rw [factsFor, placesOf, set.indexed, toList, ← filterMap_placesIn]
  simp only [Array.getElem?_toList]

/-- The indexed test is membership. -/
theorem contains_iff {set : FactSet} {fact : Fact} :
    set.contains fact = true ↔ fact ∈ set.toList := by
  simp [contains, factsFor_eq_filter]

/-- Adds a fact that the set does not hold yet. -/
def append (set : FactSet) (fact : Fact) (h : ¬set.contains fact = true) : FactSet where
  facts := set.facts.push fact
  bySubject := set.bySubject.upsert fact.subject fun old => (old.getD #[]).push set.facts.size
  nodup := by
    rw [Array.toList_push]
    refine List.nodup_append.2 ⟨set.nodup, by simp, fun a ha b hb hab => ?_⟩
    simp only [List.mem_singleton] at hb
    subst hb; subst hab
    exact h (contains_iff.2 ha)
  indexed := by
    intro s
    rw [OrderedMap.find?_upsert, Array.toList_push, placesIn_append, ← set.indexed s]
    by_cases hs : s = fact.subject
    · subst hs; simp
    · have : ¬fact.subject = s := fun he => hs he.symm
      simp [hs, this]
  subjects_eq := by
    rw [OrderedMap.keys_upsert, set.subjects_eq, Array.toList_push, List.map_append,
      List.eraseDups_append, List.map_singleton]
    generalize set.facts.toList.map (·.subject) = subjects
    by_cases hs : fact.subject ∈ subjects <;> simp [hs, List.removeAll, List.eraseDups_cons]

/-- Adds a fact unless the set holds it; the flag says whether it was new. -/
def insert (set : FactSet) (fact : Fact) : Bool × FactSet :=
  if h : set.contains fact = true then (false, set) else (true, set.append fact h)

/-- Adds facts in order; the number says how many were new. -/
def extend (set : FactSet) : List Fact → Nat × FactSet
  | [] => (0, set)
  | fact :: rest =>
    let (isNew, grown) := set.insert fact
    let (count, final) := grown.extend rest
    ((if isNew then 1 else 0) + count, final)

/-- The set of the listed facts. -/
def ofList (facts : List Fact) : FactSet := (empty.extend facts).2

/-- The number of facts. -/
def size (set : FactSet) : Nat := set.facts.size

/-- The distinct subjects in the order of their first fact. -/
def subjects (set : FactSet) : List Node := set.bySubject.keys

/-- Whether some fact has the subject. -/
def hasSubject (set : FactSet) (subject : Node) : Bool := set.bySubject.contains subject

/-- The objects of a subject for a predicate, in order. -/
def objects (set : FactSet) (subject : Node) (predicate : String) : List Node :=
  ((set.factsFor subject).filter (·.predicate = predicate)).map (·.object)

/-- The classes that a subject declares, in order. Only IRIs name classes. -/
def typesOf (set : FactSet) (subject : Node) : List String :=
  (set.objects subject Vocabulary.rdfType).filterMap Node.iri?

/-- The subjects that declare a class, in the order of the declarations. -/
def instancesOf (set : FactSet) (cls : String) : List Node :=
  (set.toList.filter fun f => f.predicate = Vocabulary.rdfType ∧ f.object = .iri cls).map
    (·.subject)

/-- Whether some subject declares the class. -/
def hasInstance (set : FactSet) (cls : String) : Bool := !(set.instancesOf cls).isEmpty

/-- Every IRI mentioned as subject or object, in order and with repetitions. -/
def iris (set : FactSet) : List String := set.toList.flatMap Fact.iris

@[simp] theorem toList_empty : empty.toList = [] := rfl

/-- An insertion appends the fact when it is new and changes nothing otherwise. -/
theorem toList_insert (set : FactSet) (fact : Fact) :
    (set.insert fact).2.toList =
      if fact ∈ set.toList then set.toList else set.toList ++ [fact] := by
  simp only [insert]
  split
  · rename_i h
    simp [contains_iff.1 h]
  · rename_i h
    have : ¬fact ∈ set.toList := fun hm => h (contains_iff.2 hm)
    rw [if_neg this]
    simp [toList, append]

/-- Every place of the index is one of a fact. -/
theorem lt_size_of_mem_placesOf {set : FactSet} {subject : Node} {place : Nat}
    (h : place ∈ set.placesOf subject) : place < set.size := by
  rw [placesOf, set.indexed, placesIn, List.mem_map] at h
  obtain ⟨entry, hentry, rfl⟩ := h
  have hplace := List.mem_zipIdx_iff_getElem?.1 (List.mem_filter.1 hentry).1
  rw [Array.getElem?_toList] at hplace
  exact (Array.getElem?_eq_some_iff.1 hplace).1

/-- The subjects are the distinct subjects of the facts. -/
theorem subjects_eq_eraseDups (set : FactSet) :
    set.subjects = (set.toList.map (·.subject)).eraseDups :=
  set.subjects_eq

end FactSet

end PublicationAudit
