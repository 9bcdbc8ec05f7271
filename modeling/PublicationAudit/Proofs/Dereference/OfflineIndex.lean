import PublicationAudit.Dereference.Directory
import PublicationAudit.Proofs.Grouping

/-!
# The library of a directory

What a library answers when it is made from the entries of a directory. `dereference_ofFiles` says
it for files whose facts are known, `mapM_copies_of_reads` and `ofEntries_of_first_failure` say which
files those are. `ofEntries_serves` is assembled from them: an IRI stands for the files that
describe it, whole and in the order of the directory, and one file that cannot be read leaves no
library.
-/

namespace PublicationAudit

namespace OfflineLibrary

/-! ## Files under the IRIs that they describe -/

/-- Facts describe an IRI if it is the subject of one of them. -/
def Describes (iri : String) (facts : List Fact) : Prop := ∃ fact ∈ facts, fact.subject = .iri iri

instance (iri : String) (facts : List Fact) : Decidable (Describes iri facts) :=
  inferInstanceAs (Decidable (∃ fact ∈ facts, fact.subject = .iri iri))

theorem mem_describedIris {iri : String} {facts : List Fact} :
    iri ∈ describedIris facts ↔ Describes iri facts := by
  rw [describedIris, List.mem_eraseDups, List.mem_filterMap]
  refine exists_congr fun fact => and_congr_right fun _ => ?_
  cases fact.subject <;> simp [Node.iri?]

/-- A file comes after the earlier ones under each IRI that it describes, and under no other. -/
theorem find?_addFile (library : OfflineLibrary) (facts : List Fact) (iri : String) :
    (library.addFile facts).find? iri =
      if Describes iri facts then some ((library.find? iri).getD [] ++ facts)
      else library.find? iri := by
  have hnodup : (describedIris facts).Nodup := nodup_eraseDups _
  rw [addFile, OrderedMap.find?_foldl_upsert _ hnodup library iri]
  exact if_congr mem_describedIris rfl rfl

/-- After files were added in order, an IRI stands for those that describe it. -/
theorem find?_foldl_addFile (files : List (List Fact)) (library : OfflineLibrary) (iri : String) :
    (files.foldl addFile library).find? iri =
      if ∃ facts ∈ files, Describes iri facts then
        some ((library.find? iri).getD [] ++ (files.filter (Describes iri ·)).flatten)
      else library.find? iri := by
  induction files generalizing library with
  | nil => simp
  | cons facts files ih =>
      rw [List.foldl_cons, ih, find?_addFile]
      simp only [List.exists_mem_cons_iff]
      by_cases hfirst : Describes iri facts
      · by_cases hrest : ∃ others ∈ files, Describes iri others
        · simp [hfirst, hrest]
        · have hnone : files.filter (Describes iri ·) = [] := List.filter_eq_nil_iff.2
            fun others hothers => by simpa using fun h => hrest ⟨others, hothers, h⟩
          simp [hfirst, hrest, hnone]
      · simp [hfirst]

/-- A library of files answers with the files that describe an IRI, one after the other. -/
theorem dereference_ofFiles (files : List (List Fact)) (iri : String) :
    (ofFiles files).dereference iri =
      if ∃ facts ∈ files, Describes iri facts then
        .ok (files.filter (Describes iri ·)).flatten
      else .error (.fetch iri "no offline copy available") := by
  rw [dereference, ofFiles, find?_foldl_addFile]
  by_cases h : ∃ facts ∈ files, Describes iri facts
  · rw [if_pos h, if_pos h]
    rfl
  · rw [if_neg h, if_neg h]
    rfl

/-! ## The copies in a directory -/

/-- An entry of a directory is an offline copy if it is a file whose name has the extension of one,
in either case. -/
def IsOfflineCopy (entry : String × FileTree) : Prop :=
  (∃ bytes, entry.2 = .file bytes) ∧
    ∃ extension, Rdf.pathExtension? entry.1 = some extension ∧
      Text.lowerAscii extension ∈ extensions

/-- An entry is a file that reads as facts, or fails to. -/
def ReadsAs (read : String → ByteArray → Except Failure (List Fact)) (entry : String × FileTree)
    (answer : Except Failure (List Fact)) : Prop :=
  ∃ bytes, entry.2 = .file bytes ∧ read entry.1 bytes = answer

/-- An entry is a file that reads. -/
def IsReadable (read : String → ByteArray → Except Failure (List Fact))
    (entry : String × FileTree) : Prop :=
  ∃ facts, ReadsAs read entry (.ok facts)

theorem isCopy_iff {name : String} :
    isCopy name = true ↔ ∃ extension, Rdf.pathExtension? name = some extension ∧
      Text.lowerAscii extension ∈ extensions := by
  unfold isCopy
  cases Rdf.pathExtension? name <;> simp

theorem isOfflineCopy_file_iff {name : String} {bytes : ByteArray} :
    IsOfflineCopy (name, .file bytes) ↔ isCopy name = true := by
  rw [isCopy_iff]
  exact and_iff_right ⟨bytes, rfl⟩

theorem not_isOfflineCopy_directory {name : String} {entries : List (String × FileTree)} :
    ¬ IsOfflineCopy (name, .directory entries) := fun ⟨⟨_, h⟩, _⟩ => by simp at h

instance (entry : String × FileTree) : Decidable (IsOfflineCopy entry) :=
  match entry with
  | (_, .file _) => decidable_of_iff _ isOfflineCopy_file_iff.symm
  | (_, .directory _) => isFalse not_isOfflineCopy_directory

section Reading

variable {read : String → ByteArray → Except Failure (List Fact)} {entry : String × FileTree}
  {entries : List (String × FileTree)} {content : String × FileTree → List Fact}

/-- An offline copy reads as something. -/
theorem IsOfflineCopy.reads (h : IsOfflineCopy entry) : ∃ answer, ReadsAs read entry answer := by
  obtain ⟨⟨bytes, hbytes⟩, -⟩ := h
  exact ⟨_, bytes, hbytes, rfl⟩

theorem copies_cons_of_not (h : ¬ IsOfflineCopy entry) :
    copies (entry :: entries) = copies entries := by
  obtain ⟨name, node⟩ := entry
  cases node with
  | file bytes =>
      rw [isOfflineCopy_file_iff] at h
      simp [copies, h]
  | directory inner => simp [copies]

/-- A copy is read before the entries after it. -/
theorem mapM_copies_cons {answer : Except Failure (List Fact)} (h : IsOfflineCopy entry)
    (hreads : ReadsAs read entry answer) :
    ((copies (entry :: entries)).mapM fun copy => read copy.1 copy.2) = do
      return (← answer) :: (← (copies entries).mapM fun copy => read copy.1 copy.2) := by
  obtain ⟨name, node⟩ := entry
  obtain ⟨bytes, hnode, rfl⟩ := hreads
  cases hnode
  rw [isOfflineCopy_file_iff] at h
  simp [copies, h]

/-- Where every copy reads, the files that come in are the copies, in the order of the entries. -/
theorem mapM_copies_of_reads
    (hreads : ∀ entry ∈ entries, IsOfflineCopy entry → ReadsAs read entry (.ok (content entry))) :
    ((copies entries).mapM fun copy => read copy.1 copy.2) =
      .ok ((entries.filter (IsOfflineCopy ·)).map content) := by
  induction entries with
  | nil => rfl
  | cons entry entries ih =>
      obtain ⟨hfirst, hrest⟩ := List.forall_mem_cons.1 hreads
      by_cases hcopy : IsOfflineCopy entry
      · rw [mapM_copies_cons hcopy (hfirst hcopy), ih hrest, List.filter_cons_of_pos (by simpa)]
        rfl
      · rw [copies_cons_of_not hcopy, ih hrest, List.filter_cons_of_neg (by simpa)]

/-- The first copy that does not read decides, whatever comes after it. -/
theorem mapM_copies_of_first_failure {before after : List (String × FileTree)} {failure : Failure}
    (hbefore : ∀ earlier ∈ before, IsOfflineCopy earlier → IsReadable read earlier)
    (hcopy : IsOfflineCopy entry) (hfails : ReadsAs read entry (.error failure)) :
    ((copies (before ++ entry :: after)).mapM fun copy => read copy.1 copy.2) =
      .error failure := by
  induction before with
  | nil =>
      rw [List.nil_append, mapM_copies_cons hcopy hfails]
      rfl
  | cons earlier before ih =>
      obtain ⟨hfirst, hrest⟩ := List.forall_mem_cons.1 hbefore
      rw [List.cons_append]
      by_cases hearlier : IsOfflineCopy earlier
      · obtain ⟨facts, hfacts⟩ := hfirst hearlier
        rw [mapM_copies_cons hearlier hfacts, ih hrest]
        rfl
      · rw [copies_cons_of_not hearlier, ih hrest]

/-! ## The library of the entries -/

/-- The copies among entries that describe an IRI, in their order. -/
def copiesDescribing (content : String × FileTree → List Fact) (iri : String)
    (entries : List (String × FileTree)) : List (String × FileTree) :=
  entries.filter fun entry => IsOfflineCopy entry ∧ Describes iri (content entry)

/-- Where every copy reads, the library answers an IRI with the copies that describe it, one after
the other. -/
theorem ofEntries_of_reads
    (hreads : ∀ entry ∈ entries, IsOfflineCopy entry → ReadsAs read entry (.ok (content entry))) :
    ∃ library, ofEntries read entries = .ok library ∧
      ∀ iri, library.dereference iri =
        if ∃ entry ∈ entries, IsOfflineCopy entry ∧ Describes iri (content entry) then
          .ok ((copiesDescribing content iri entries).flatMap content)
        else .error (.fetch iri "no offline copy available") := by
  refine ⟨_, by rw [ofEntries, mapM_copies_of_reads hreads]; rfl, fun iri => ?_⟩
  have hcopies : (((entries.filter (IsOfflineCopy ·)).map content).filter
      (Describes iri ·)).flatten = (copiesDescribing content iri entries).flatMap content := by
    rw [List.filter_map, List.filter_filter, ← List.flatMap_def, copiesDescribing]
    congr 1
    refine List.filter_congr fun entry _ => ?_
    simp [Bool.and_comm]
  have hsome : (∃ facts ∈ (entries.filter (IsOfflineCopy ·)).map content, Describes iri facts) ↔
      ∃ entry ∈ entries, IsOfflineCopy entry ∧ Describes iri (content entry) := by
    simp [and_assoc]
  rw [dereference_ofFiles, hcopies]
  exact if_congr hsome rfl rfl

/-- Where a copy does not read, one is the first, and it says why. -/
theorem exists_first_failure
    (h : ∃ entry ∈ entries, IsOfflineCopy entry ∧ ¬ IsReadable read entry) :
    ∃ before entry after failure, entries = before ++ entry :: after ∧
      (∀ earlier ∈ before, IsOfflineCopy earlier → IsReadable read earlier) ∧
      IsOfflineCopy entry ∧ ReadsAs read entry (.error failure) := by
  have hsome : ∃ entry ∈ entries, ¬ (IsOfflineCopy entry → IsReadable read entry) := by
    obtain ⟨entry, hentry, hcopy, hunread⟩ := h
    exact ⟨entry, hentry, fun hall => hunread (hall hcopy)⟩
  obtain ⟨before, entry, after, hentries, hbefore, hentry⟩ := exists_first_not hsome
  obtain ⟨hcopy, hunread⟩ := Classical.not_imp.1 hentry
  obtain ⟨answer, hanswer⟩ : ∃ answer, ReadsAs read entry answer := hcopy.reads
  cases answer with
  | ok facts => exact absurd ⟨facts, hanswer⟩ hunread
  | error failure => exact ⟨before, entry, after, failure, hentries, hbefore, hcopy, hanswer⟩

theorem ofEntries_of_first_failure {before after : List (String × FileTree)} {failure : Failure}
    (hbefore : ∀ earlier ∈ before, IsOfflineCopy earlier → IsReadable read earlier)
    (hcopy : IsOfflineCopy entry) (hfails : ReadsAs read entry (.error failure)) :
    ofEntries read (before ++ entry :: after) = .error failure := by
  rw [ofEntries, mapM_copies_of_first_failure hbefore hcopy hfails]
  rfl

/-- There is no library exactly where a copy does not read, and the first such copy says why. -/
theorem ofEntries_eq_error_iff {failure : Failure} :
    ofEntries read entries = .error failure ↔
      ∃ before entry after, entries = before ++ entry :: after ∧
        (∀ earlier ∈ before, IsOfflineCopy earlier → IsReadable read earlier) ∧
        IsOfflineCopy entry ∧ ReadsAs read entry (.error failure) := by
  constructor
  · intro h
    by_cases hall : ∃ entry ∈ entries, IsOfflineCopy entry ∧ ¬ IsReadable read entry
    · obtain ⟨before, entry, after, cause, rfl, hbefore, hcopy, hcause⟩ :=
        exists_first_failure hall
      cases h.symm.trans (ofEntries_of_first_failure hbefore hcopy hcause)
      exact ⟨before, entry, after, rfl, hbefore, hcopy, hcause⟩
    · push Not at hall
      -- What the copies read as makes up a library, so that there is no failure.
      choose! content hreads using hall
      obtain ⟨library, hlibrary, -⟩ := ofEntries_of_reads hreads
      exact nomatch hlibrary.symm.trans h
  · rintro ⟨before, entry, after, rfl, hbefore, hcopy, hcause⟩
    exact ofEntries_of_first_failure hbefore hcopy hcause

/-- Nothing but the copies has any influence. -/
theorem copies_filter (entries : List (String × FileTree)) :
    copies (entries.filter (IsOfflineCopy ·)) = copies entries := by
  induction entries with
  | nil => rfl
  | cons entry entries ih =>
      by_cases hcopy : IsOfflineCopy entry
      · rw [List.filter_cons_of_pos (by simpa)]
        simp only [copies, List.filterMap_cons] at ih ⊢
        rw [ih]
      · rw [List.filter_cons_of_neg (by simpa), copies_cons_of_not hcopy, ih]

end Reading

/-- A library of a directory serves whole files by the IRIs that they describe. Where every copy
reads, in whatever order the directory lists its entries, an IRI has a document exactly where a copy
describes it: the facts of all copies that do, each once, as they stand in the listing. Another
order permutes these copies. One copy that does not read leaves no library, whatever the others
hold, and the first such copy says why. Entries that are no copies have no influence. -/
theorem ofEntries_serves (read : String → ByteArray → Except Failure (List Fact))
    (entries : List (String × FileTree)) :
    (∀ content : String × FileTree → List Fact,
      (∀ entry ∈ entries, IsOfflineCopy entry → ReadsAs read entry (.ok (content entry))) →
        ∀ listing : List (String × FileTree), listing.Perm entries →
          (∃ library, ofEntries read listing = .ok library ∧
            ∀ iri, library.dereference iri =
              if ∃ entry ∈ listing, IsOfflineCopy entry ∧ Describes iri (content entry) then
                .ok ((copiesDescribing content iri listing).flatMap content)
              else .error (.fetch iri "no offline copy available")) ∧
          ∀ iri, (copiesDescribing content iri listing).Perm
            (copiesDescribing content iri entries)) ∧
      ((∃ entry ∈ entries, IsOfflineCopy entry ∧ ¬ IsReadable read entry) →
        ∀ listing : List (String × FileTree), listing.Perm entries →
          ∃ failure, ofEntries read listing = .error failure) ∧
      (∀ failure, ofEntries read entries = .error failure ↔
        ∃ before entry after, entries = before ++ entry :: after ∧
          (∀ earlier ∈ before, IsOfflineCopy earlier → IsReadable read earlier) ∧
          IsOfflineCopy entry ∧ ReadsAs read entry (.error failure)) ∧
      (∀ others : List (String × FileTree),
        others.filter (IsOfflineCopy ·) = entries.filter (IsOfflineCopy ·) →
          ofEntries read others = ofEntries read entries) ∧
      ∀ (files : Files) (path : String), files path = .ok (.directory entries) →
        ofDirectory files path = ofEntries readCopy entries := by
  refine ⟨fun content hreads listing hlisting => ⟨?_, fun iri => hlisting.filter _⟩,
    fun ⟨entry, hentry, hunread⟩ listing hlisting => ?_, fun _ => ofEntries_eq_error_iff,
    fun others hothers => ?_, fun files path hpath => ?_⟩
  · exact ofEntries_of_reads fun entry hentry => hreads entry (hlisting.mem_iff.1 hentry)
  · obtain ⟨before, first, after, failure, hfirst⟩ :=
      exists_first_failure ⟨entry, hlisting.mem_iff.2 hentry, hunread⟩
    exact ⟨failure, ofEntries_eq_error_iff.2 ⟨before, first, after, hfirst⟩⟩
  · rw [ofEntries, ofEntries, ← copies_filter others, hothers, copies_filter]
  · rw [ofDirectory, Files.list, hpath]
    rfl

/-- Two copies describe one subject, one of them twice, and a note and a directory are passed over.
With a copy that does not read, there is no library. -/
theorem ofEntries_serves_shared_subject :
    let fact (subject predicate : String) : Fact := ⟨.iri subject, predicate, .plain "x"⟩
    let content (entry : String × FileTree) : List Fact :=
      if entry.1 = "a.ttl" then [fact "s" "p", fact "s" "q", fact "t" "p"] else [fact "s" "r"]
    let read (name : String) (_ : ByteArray) : Except Failure (List Fact) :=
      if name ∈ ["a.ttl", "b.NT"] then .ok (content (name, .file .empty))
      else .error (.unsupportedFormat name)
    let entries : List (String × FileTree) := [("a.ttl", .file .empty), ("b.NT", .file .empty),
      ("c.ttl", .directory []), ("note.txt", .file .empty)]
    let unread : String × FileTree := ("d.nq", .file .empty)
    (∀ entry ∈ entries, IsOfflineCopy entry → ReadsAs read entry (.ok (content entry))) ∧
      entries.reverse.Perm entries ∧
      (∃ library, ofEntries read entries.reverse = .ok library ∧ library.dereference "s" =
        .ok [fact "s" "r", fact "s" "p", fact "s" "q", fact "t" "p"]) ∧
      IsOfflineCopy unread ∧ ¬ IsReadable read unread ∧
      ∃ failure, ofEntries read (entries ++ [unread]) = .error failure := by
  intro fact content read entries unread
  have hreads : ∀ entry ∈ entries, IsOfflineCopy entry → ReadsAs read entry (.ok (content entry)) :=
    List.forall_mem_cons.2 ⟨fun _ => ⟨.empty, rfl, rfl⟩,
      List.forall_mem_cons.2 ⟨fun _ => ⟨.empty, rfl, rfl⟩,
        List.forall_mem_cons.2 ⟨fun hcopy => absurd hcopy not_isOfflineCopy_directory,
          List.forall_mem_singleton.2 fun hcopy => absurd hcopy (by decide)⟩⟩⟩
  have hcopy : IsOfflineCopy unread := by decide
  have hunread : ¬ IsReadable read unread := by
    rintro ⟨facts, bytes, -, hfacts⟩
    cases hfacts
  obtain ⟨hserves, -⟩ := ofEntries_serves read entries
  obtain ⟨⟨library, hlibrary, hanswers⟩, -⟩ :=
    hserves content hreads entries.reverse (List.reverse_perm entries)
  obtain ⟨-, hfails, -⟩ := ofEntries_serves read (entries ++ [unread])
  exact ⟨hreads, List.reverse_perm entries, ⟨library, hlibrary, by rw [hanswers]; decide⟩, hcopy,
    hunread, hfails ⟨unread, List.mem_append_right _ List.mem_cons_self, hcopy, hunread⟩ _ (.refl _)⟩

end OfflineLibrary

end PublicationAudit
