import Mathlib.Data.List.Basic
import PublicationAudit.Crawl.Entity

/-!
# Entities and the segments of a path

The kind of an entity is found by looking for a segment name between two slashes at every place of
the IRI, from left to right. `innerSegments` cuts the IRI at its slashes instead and leaves out what
is not between two of them. Read `firstIn?_intercalate` first: the search goes through the segments
one by one, although two of them share the slash between them. The main statement is
`ofIri?_first_inner_segment`.
-/

namespace PublicationAudit.EntityKind

/-! ## Segment names -/

/-- There is no other kind. -/
theorem mem_all (kind : EntityKind) : kind ∈ all := by cases kind <;> decide

/-- Segment names have no slashes. -/
theorem slash_notMem_segment (kind : EntityKind) : '/' ∉ kind.segment.toList := by
  cases kind <;> decide

/-- Kinds have different segment names. -/
theorem segment_injective {kind other : EntityKind} (h : kind.segment = other.segment) :
    kind = other := by
  revert h
  cases kind <;> cases other <;> decide

/-- The kind that has a segment as its name. -/
def ofSegment? (segment : List Char) : Option EntityKind :=
  all.find? fun kind => kind.segment.toList = segment

variable {kind : EntityKind} {segment before rest : List Char}

/-- A segment is the name of one kind. -/
theorem ofSegment?_eq_some_iff :
    ofSegment? segment = some kind ↔ kind.segment.toList = segment := by
  have hname : ∀ {found}, ofSegment? segment = some found → found.segment.toList = segment :=
    fun h => of_decide_eq_true
      (List.find?_some (p := fun kind : EntityKind => kind.segment.toList = segment) h)
  constructor
  · exact hname
  · rintro rfl
    obtain ⟨found, hfound⟩ : ∃ found, ofSegment? kind.segment.toList = some found :=
      Option.isSome_iff_exists.1 (List.find?_isSome.2 ⟨kind, mem_all kind, by simp⟩)
    rw [hfound, segment_injective (String.toList_injective (hname hfound))]

/-- Every other segment names none. -/
theorem ofSegment?_eq_none_iff :
    ofSegment? segment = none ↔ ∀ kind : EntityKind, kind.segment.toList ≠ segment := by
  rw [Option.eq_none_iff_forall_ne_some]
  exact forall_congr' fun kind => not_congr ofSegment?_eq_some_iff

/-! ## The search -/

/-- A segment ends before the first slash. -/
theorem takeWhile_segment (rest : List Char) (h : '/' ∉ segment) :
    (segment ++ '/' :: rest).takeWhile (· != '/') = segment := by
  have hpass : ∀ c ∈ segment, (c != '/') = true := fun c hc => by
    rw [bne_iff_ne]
    rintro rfl
    exact h hc
  rw [List.takeWhile_append_of_pos hpass, List.takeWhile_cons_of_neg (by simp), List.append_nil]

/-- After a slash, a name is found where it is the whole segment up to the next slash. -/
theorem atStart?_segment (h : '/' ∉ segment) :
    atStart? ('/' :: (segment ++ '/' :: rest)) = ofSegment? segment := by
  rw [atStart?, ofSegment?]
  congr 1
  funext kind
  rw [Bool.eq_iff_iff, List.isPrefixOf_iff_prefix, decide_eq_true_iff, List.cons_append,
    List.cons_prefix_cons, eq_self, true_and]
  constructor
  · rintro ⟨after, hafter⟩
    rw [List.append_assoc, List.singleton_append] at hafter
    rw [← takeWhile_segment after (slash_notMem_segment kind), hafter, takeWhile_segment rest h]
  · rintro rfl
    exact ⟨rest, by simp⟩

/-- After the last slash nothing is found. -/
theorem atStart?_last (h : '/' ∉ segment) : atStart? ('/' :: segment) = none := by
  refine List.find?_eq_none.2 fun kind _ hstart => h ?_
  rw [List.isPrefixOf_iff_prefix, List.cons_append, List.cons_prefix_cons] at hstart
  exact hstart.2.subset (by simp)

/-- What stands before the first slash is passed over. -/
theorem firstIn?_append (h : '/' ∉ before) : firstIn? (before ++ rest) = firstIn? rest := by
  induction before with
  | nil => rfl
  | cons c before ih =>
      rw [List.mem_cons, not_or] at h
      have hnone : atStart? (c :: (before ++ rest)) = none :=
        List.find?_eq_none.2 fun kind _ hstart => by
          rw [List.isPrefixOf_iff_prefix, List.cons_append, List.cons_prefix_cons] at hstart
          exact h.1 hstart.1
      rw [List.cons_append, firstIn?, hnone, Option.none_or, ih h.2]

/-- The search goes through the segments between two slashes. -/
theorem firstIn?_intercalate {first : List Char} {segments : List (List Char)}
    (hfirst : '/' ∉ first) (h : ∀ segment ∈ segments, '/' ∉ segment) :
    firstIn? (['/'].intercalate (first :: segments)) =
      segments.dropLast.findSome? ofSegment? := by
  induction segments generalizing first with
  | nil =>
      rw [List.intercalate_singleton, ← List.append_nil first, firstIn?_append hfirst]
      rfl
  | cons segment segments ih =>
      have hsegment := h segment List.mem_cons_self
      have hrest := ih hsegment fun other hother => h other (List.mem_cons_of_mem segment hother)
      rw [List.intercalate_cons_cons, List.append_assoc, firstIn?_append hfirst,
        List.singleton_append, firstIn?, hrest]
      cases segments with
      | nil => rw [List.intercalate_singleton, atStart?_last hsegment]; rfl
      | cons next segments =>
          -- The slash after this segment is the one before the next.
          rw [List.intercalate_cons_cons, List.append_assoc, List.singleton_append,
            atStart?_segment hsegment,
            List.dropLast_cons_of_ne_nil (List.cons_ne_nil next segments), List.findSome?_cons]
          cases ofSegment? segment <;> rfl

/-! ## Segments between slashes -/

/-- The segments of an IRI that stand between two of its slashes. -/
def innerSegments (iri : String) : List String :=
  ((iri.toList.splitOn '/').tail.dropLast).map String.ofList

/-- No segment of a text has a slash. -/
theorem slash_notMem_of_mem_splitOn {s : List Char} (h : segment ∈ s.splitOn '/') :
    '/' ∉ segment := by
  rw [List.splitOn_eq_splitOnP] at h
  induction s generalizing segment with
  | nil =>
      obtain rfl := List.mem_singleton.1 h
      exact List.not_mem_nil
  | cons c s ih =>
      rw [List.splitOnP_cons_eq_if_modifyHead] at h
      split at h
      case isTrue =>
        rcases List.mem_cons.1 h with rfl | h
        · exact List.not_mem_nil
        · exact ih h
      case isFalse hc =>
        -- The character belongs to the first segment of the rest.
        obtain ⟨first, segments, hrest⟩ :=
          List.exists_cons_of_ne_nil (List.splitOnP_ne_nil (· == '/') s)
        rw [hrest, List.modifyHead_cons] at h
        rcases List.mem_cons.1 h with rfl | h
        · rw [List.mem_cons, not_or]
          exact ⟨fun heq => hc (beq_iff_eq.2 heq.symm), ih (hrest ▸ List.mem_cons_self)⟩
        · exact ih (hrest ▸ List.mem_cons_of_mem first h)

/-- The kind of an IRI is that of the first inner segment that names one. -/
theorem ofIri?_eq_findSome? (iri : String) :
    ofIri? iri = (innerSegments iri).findSome? fun segment => ofSegment? segment.toList := by
  have hslash : ∀ segment ∈ iri.toList.splitOn '/', '/' ∉ segment :=
    fun _ => slash_notMem_of_mem_splitOn
  have hjoin : ['/'].intercalate (iri.toList.splitOn '/') = iri.toList :=
    List.intercalate_splitOn '/'
  obtain ⟨first, segments, hsegments⟩ :=
    List.exists_cons_of_ne_nil (List.splitOn_ne_nil '/' iri.toList)
  rw [hsegments] at hslash hjoin
  rw [ofIri?, ← hjoin, firstIn?_intercalate (hslash first List.mem_cons_self) fun segment h =>
    hslash segment (List.mem_cons_of_mem first h), innerSegments, hsegments, List.findSome?_map]
  simp [Function.comp_def]

/-- None of the segments names a kind when no name of a kind is among them. -/
theorem forall_ofSegment?_eq_none_iff {segments : List String} :
    (∀ segment ∈ segments, ofSegment? segment.toList = none) ↔
      ∀ kind : EntityKind, kind.segment ∉ segments := by
  simp only [ofSegment?_eq_none_iff, ne_eq, String.toList_inj]
  constructor
  · intro h kind hkind
    exact h kind.segment hkind kind rfl
  · rintro h _ hsegment kind rfl
    exact h kind hsegment

/-- An IRI stands for an entity of a kind exactly when the name of that kind is one of the segments
between its slashes and no name of a kind stands before it there; it stands for none exactly when no
segment there is such a name. -/
theorem ofIri?_first_inner_segment (iri : String) :
    (∀ kind, ofIri? iri = some kind ↔ ∃ before after,
      innerSegments iri = before ++ kind.segment :: after ∧
        ∀ other : EntityKind, other.segment ∉ before) ∧
    (ofIri? iri = none ↔ ∀ kind : EntityKind, kind.segment ∉ innerSegments iri) := by
  rw [ofIri?_eq_findSome?, List.findSome?_eq_none_iff, forall_ofSegment?_eq_none_iff]
  refine ⟨fun kind => ?_, Iff.rfl⟩
  simp only [List.findSome?_eq_some_iff, forall_ofSegment?_eq_none_iff, ofSegment?_eq_some_iff,
    String.toList_inj]
  constructor
  · rintro ⟨before, _, after, hsegments, rfl, hbefore⟩
    exact ⟨before, after, hsegments, hbefore⟩
  · rintro ⟨before, after, hsegments, hbefore⟩
    exact ⟨before, kind.segment, after, hsegments, rfl, hbefore⟩

example : ofIri? "http://e/personen/bestuursorganen/1" = some .persoon := by decide

end PublicationAudit.EntityKind
