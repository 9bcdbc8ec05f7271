import Mathlib.Data.List.DropRight
import Mathlib.Data.List.TakeWhile
import PublicationAudit.Vocabulary

/-!
# Short names

An IRI is shown under the text after its last separator. The program takes the text after the last
hash and the text after the last slash and keeps the shorter of the two; `IsShortName` looks for the
last separator of either kind. Read `shortSuffix_eq_rtakeWhile` first: of two ends of one text, the
shorter one is the end without separators of either kind. The main statement is
`shortName_follows_last_separator`.
-/

namespace PublicationAudit

/-! ## The ends of a list -/

section Ends

variable {α : Type} {p q : α → Bool} {s before name : List α} {a : α}

/-- Of the ends that pass a test each, the shorter one passes both. -/
theorem rtakeWhile_and_of_length_le
    (h : (s.rtakeWhile p).length ≤ (s.rtakeWhile q).length) :
    s.rtakeWhile (fun c => p c && q c) = s.rtakeWhile p := by
  rw [List.rtakeWhile, List.rtakeWhile, List.length_reverse, List.length_reverse] at h
  have hstart : s.reverse.takeWhile p <+: s.reverse.takeWhile q :=
    List.prefix_of_prefix_length_le (List.takeWhile_prefix p) (List.takeWhile_prefix q) h
  have hpass : ∀ c ∈ s.reverse.takeWhile p, q c = true := fun c hc =>
    List.mem_takeWhile_imp (hstart.subset hc)
  have hboth := List.takeWhile_takeWhile q p s.reverse
  rw [List.takeWhile_eq_self_iff.2 hpass] at hboth
  rw [List.rtakeWhile, List.rtakeWhile, hboth]
  simp [Bool.and_comm]

/-- An end that passes a test is as long as it can be when what stands before it fails. -/
theorem rtakeWhile_append_cons (hfail : p a = false) (hname : ∀ c ∈ name, p c = true) :
    (before ++ a :: name).rtakeWhile p = name := by
  have hpass : ∀ c ∈ name.reverse, p c = true := fun c hc => hname c (List.mem_reverse.1 hc)
  rw [List.rtakeWhile, List.reverse_append, List.reverse_cons, List.append_assoc,
    List.takeWhile_append_of_pos hpass]
  simp [hfail]

/-- Where not everything passes a test, something that fails stands before the end that does. -/
theorem exists_append_cons_rtakeWhile (h : s.rtakeWhile p ≠ s) :
    ∃ before a, p a = false ∧ s = before ++ a :: s.rtakeWhile p := by
  have hwhole := List.rdropWhile_append_rtakeWhile (p := p) (l := s)
  have hbefore : s.rdropWhile p ≠ [] := fun hnil => by
    rw [hnil, List.nil_append] at hwhole
    exact h hwhole
  refine ⟨(s.rdropWhile p).dropLast, (s.rdropWhile p).getLast hbefore,
    Bool.eq_false_iff.2 (List.rdropWhile_last_not p s hbefore), ?_⟩
  rw [List.append_cons, List.dropLast_append_getLast, hwhole]

end Ends

/-- The first of two texts where it has fewer bytes, else the second. -/
def shorterInBytes (s t : List Char) : List Char :=
  if (String.ofList s).utf8ByteSize < (String.ofList t).utf8ByteSize then s else t

/-- What stands before an end of a text has bytes of its own. -/
theorem utf8ByteSize_lt_of_suffix {short long : List Char} (h : short <:+ long)
    (hlength : short.length < long.length) :
    (String.ofList short).utf8ByteSize < (String.ofList long).utf8ByteSize := by
  obtain ⟨before, rfl⟩ := h
  have hbefore : (String.ofList before).utf8ByteSize ≠ 0 := fun hzero => by
    rw [String.utf8ByteSize_eq_zero_iff, String.ofList_eq_empty_iff] at hzero
    simp [hzero] at hlength
  rw [String.ofList_append, String.utf8ByteSize_append]
  omega

/-- Of two ends of one text, the one with fewer characters has fewer bytes. -/
theorem utf8ByteSize_lt_iff_of_suffix {s t whole : List Char} (hs : s <:+ whole)
    (ht : t <:+ whole) :
    (String.ofList s).utf8ByteSize < (String.ofList t).utf8ByteSize ↔ s.length < t.length := by
  rcases lt_trichotomy s.length t.length with hless | heq | hmore
  · have hend := List.suffix_of_suffix_length_le hs ht hless.le
    exact iff_of_true (utf8ByteSize_lt_of_suffix hend hless) hless
  · have hsame := (List.suffix_of_suffix_length_le hs ht heq.le).eq_of_length heq
    rw [hsame]
    exact iff_of_false (lt_irrefl _) (lt_irrefl _)
  · have hend := List.suffix_of_suffix_length_le ht hs hmore.le
    exact iff_of_false (utf8ByteSize_lt_of_suffix hend hmore).asymm hmore.asymm

/-! ## The last separator -/

/-- What separates the parts of an IRI: a hash before the fragment, slashes between segments. -/
def IsSeparator (c : Char) : Prop := c = '#' ∨ c = '/'

/-- Every other character stands inside a name. -/
def isNameCharacter (c : Char) : Bool := c != '#' && c != '/'

/-- Names have no separators. -/
theorem isNameCharacter_iff {c : Char} : isNameCharacter c = true ↔ ¬ IsSeparator c := by
  simp [isNameCharacter, IsSeparator]

/-- Separators are in no names. -/
theorem isNameCharacter_eq_false_iff {c : Char} : isNameCharacter c = false ↔ IsSeparator c := by
  rw [← Bool.not_eq_true, isNameCharacter_iff, not_not]

/-- The shorter of the two ends is the text after the last separator of either kind. -/
theorem shortSuffix_eq_rtakeWhile (s : List Char) :
    shortSuffix s = s.rtakeWhile isNameCharacter := by
  have hhash : Text.afterLast '#' s = s.rtakeWhile (· != '#') := rfl
  have hslash : Text.afterLast '/' s = s.rtakeWhile (· != '/') := rfl
  rw [shortSuffix, hhash, hslash]
  split
  case isTrue hless => exact (rtakeWhile_and_of_length_le hless.le).symm
  case isFalse hless =>
    rw [← rtakeWhile_and_of_length_le (not_lt.1 hless)]
    congr 1
    funext c
    exact Bool.and_comm _ _

/-- The same end is the shorter one when the two are measured in bytes. -/
theorem shortSuffix_eq_shorterInBytes (s : List Char) :
    shortSuffix s = shorterInBytes (Text.afterLast '#' s) (Text.afterLast '/' s) := by
  simp only [shortSuffix, shorterInBytes, utf8ByteSize_lt_iff_of_suffix
    (Text.afterLast_suffix '#' s) (Text.afterLast_suffix '/' s)]

/-! ## Short names -/

/-- The short name of an IRI: the text after its last separator. An IRI that has no separator, or
that ends in one, is its own short name. -/
inductive IsShortName : List Char → List Char → Prop where
  | afterSeparator (before : List Char) (sep : Char) (name : List Char) (hsep : IsSeparator sep)
      (hname : name ≠ []) (hrest : ∀ c ∈ name, ¬ IsSeparator c) :
      IsShortName (before ++ sep :: name) name
  | endsInSeparator (before : List Char) (sep : Char) (hsep : IsSeparator sep) :
      IsShortName (before ++ [sep]) (before ++ [sep])
  | noSeparator (iri : List Char) (hnone : ∀ c ∈ iri, ¬ IsSeparator c) : IsShortName iri iri

/-- The characters of a short name. -/
theorem toList_shortName (iri : String) :
    (shortName iri).toList =
      if iri.toList.rtakeWhile isNameCharacter = [] then iri.toList
      else iri.toList.rtakeWhile isNameCharacter := by
  simp only [shortName, shortSuffix_eq_rtakeWhile, List.isEmpty_iff]
  split <;> simp

namespace IsShortName

variable {iri name : List Char}

/-- Only one name follows the last separator. -/
theorem eq_rtakeWhile (h : IsShortName iri name) :
    name = if iri.rtakeWhile isNameCharacter = [] then iri
      else iri.rtakeWhile isNameCharacter := by
  cases h with
  | afterSeparator before sep name hsep hname hrest =>
      rw [rtakeWhile_append_cons (isNameCharacter_eq_false_iff.2 hsep)
        fun c hc => isNameCharacter_iff.2 (hrest c hc), if_neg hname]
  | endsInSeparator before sep hsep =>
      rw [List.rtakeWhile_concat_neg _ _ _ fun h => isNameCharacter_iff.1 h hsep, if_pos rfl]
  | noSeparator iri hnone =>
      rw [List.rtakeWhile_eq_self_iff.2 fun c hc => isNameCharacter_iff.2 (hnone c hc), ite_self]

/-- Every IRI has a short name. -/
theorem exists_name (iri : List Char) : ∃ name, IsShortName iri name := by
  by_cases hwhole : iri.rtakeWhile isNameCharacter = iri
  · exact ⟨iri, .noSeparator iri fun c hc =>
      isNameCharacter_iff.1 (List.rtakeWhile_eq_self_iff.1 hwhole c hc)⟩
  · obtain ⟨before, sep, hfail, hiri⟩ := exists_append_cons_rtakeWhile hwhole
    have hsep := isNameCharacter_eq_false_iff.1 hfail
    by_cases hname : iri.rtakeWhile isNameCharacter = []
    · rw [hname] at hiri
      exact ⟨iri, hiri ▸ .endsInSeparator before sep hsep⟩
    · have hrest : ∀ c ∈ iri.rtakeWhile isNameCharacter, ¬ IsSeparator c := fun c hc =>
        isNameCharacter_iff.1 (List.mem_rtakeWhile_imp hc)
      generalize iri.rtakeWhile isNameCharacter = name at hiri hname hrest
      exact ⟨name, hiri ▸ .afterSeparator before sep name hsep hname hrest⟩

/-- It is the one under which the IRI is shown. -/
theorem iff_eq_shortName {iri name : String} :
    IsShortName iri.toList name.toList ↔ shortName iri = name := by
  have hfound : ∀ {name : List Char}, IsShortName iri.toList name →
      (shortName iri).toList = name := fun h => by rw [toList_shortName, ← h.eq_rtakeWhile]
  constructor
  · exact fun h => String.toList_injective (hfound h)
  · rintro rfl
    obtain ⟨name, h⟩ := exists_name iri.toList
    rwa [hfound h]

/-- A short name ends its IRI. -/
theorem suffix (h : IsShortName iri name) : name <:+ iri := by
  cases h with
  | afterSeparator before sep name =>
      exact (List.suffix_cons sep name).trans (List.suffix_append before (sep :: name))
  | endsInSeparator => exact List.suffix_refl _
  | noSeparator => exact List.suffix_refl _

/-- Only the empty text has an empty short name. -/
theorem eq_nil_iff (h : IsShortName iri name) : name = [] ↔ iri = [] := by
  cases h with
  | afterSeparator before sep name hsep hname => simp [hname]
  | endsInSeparator => exact Iff.rfl
  | noSeparator => exact Iff.rfl

/-- A short name with a separator is the whole IRI. -/
theorem eq_or_no_separator (h : IsShortName iri name) :
    name = iri ∨ ∀ c ∈ name, ¬ IsSeparator c := by
  cases h with
  | afterSeparator before sep name hsep hname hrest => exact .inr hrest
  | endsInSeparator => exact .inl rfl
  | noSeparator => exact .inl rfl

/-- A short name is its own short name. -/
theorem shortens_to_itself (h : IsShortName iri name) : IsShortName name name := by
  cases h with
  | afterSeparator before sep name hsep hname hrest => exact .noSeparator name hrest
  | endsInSeparator before sep hsep => exact .endsInSeparator before sep hsep
  | noSeparator iri hnone => exact .noSeparator iri hnone

end IsShortName

/-- The short name of an IRI is the text after its last hash or slash, or the whole IRI where it has
neither or nothing follows it. So it ends the IRI, is empty for the empty text alone, has no
separator unless it is the whole IRI, and is its own short name. The two ends that are compared may
as well be measured in bytes. -/
theorem shortName_follows_last_separator (iri : String) :
    (∀ name, shortName iri = name ↔ IsShortName iri.toList name.toList) ∧
    (shortName iri).toList <:+ iri.toList ∧
    (shortName iri = "" ↔ iri = "") ∧
    (shortName iri = iri ∨ ∀ c ∈ (shortName iri).toList, ¬ IsSeparator c) ∧
    shortName (shortName iri) = shortName iri ∧
    shortSuffix iri.toList = shorterInBytes (Text.afterLast '#' iri.toList)
      (Text.afterLast '/' iri.toList) := by
  have hshort : IsShortName iri.toList (shortName iri).toList :=
    IsShortName.iff_eq_shortName.2 rfl
  refine ⟨fun name => IsShortName.iff_eq_shortName.symm, hshort.suffix, ?_,
    hshort.eq_or_no_separator.imp_left String.toList_injective,
    IsShortName.iff_eq_shortName.1 hshort.shortens_to_itself, shortSuffix_eq_shorterInBytes _⟩
  rw [← String.toList_eq_nil_iff, hshort.eq_nil_iff, String.toList_eq_nil_iff]

example : shortName "http://example.org/a#b/c" = "c" := by decide

end PublicationAudit
