import Mathlib.Logic.ExistsUnique
import PublicationAudit.Constraint
import PublicationAudit.Proofs.Substitution

/-!
# Query templates

The query of a constraint is its template with the focus written for one placeholder and the path
for the other. `FillsPlaceholders` says what that is to mean: every placeholder of the template
gives way at once, and nothing that is written into it is looked at again.
-/

namespace PublicationAudit

/-- A way of filling templates that writes a focus for every occurrence of its placeholder, and a
path, where there is one, for every occurrence of the other. What stands before and after an
occurrence is filled on its own, so that the text written there stays as it is, and a template
without occurrences stays as it is too. -/
structure FillsPlaceholders (focus : String) (path : Option String) (fill : String → String) :
    Prop where
  writes_focus : ∀ before after, fill (before ++ "$this" ++ after) =
    fill before ++ ("<" ++ focus ++ ">") ++ fill after
  writes_path : ∀ iri, path = some iri → ∀ before after, fill (before ++ "$PATH" ++ after) =
    fill before ++ ("<" ++ iri ++ ">") ++ fill after
  keeps : ∀ template, ¬ "$this".toList <:+: template.toList →
    (path.isSome = true → ¬ "$PATH".toList <:+: template.toList) → fill template = template

/-- Where a text occurs, something stands before it and after it. -/
theorem infix_iff_exists {pattern text : String} :
    pattern.toList <:+: text.toList ↔ ∃ before after, text = before ++ pattern ++ after := by
  constructor
  · rintro ⟨before, after, h⟩
    refine ⟨.ofList before, .ofList after, ?_⟩
    rw [← String.toList_inj]
    simp [← h]
  · rintro ⟨before, after, rfl⟩
    exact ⟨before.toList, after.toList, by simp⟩

/-- A text that occurs in another occurs there for a first time. -/
theorem exists_first_infix {pattern text : String} (hpattern : 0 < pattern.length)
    (h : pattern.toList <:+: text.toList) : ∃ before after,
      text = before ++ pattern ++ after ∧ ¬ pattern.toList <:+: before.toList := by
  induction hlength : text.length using Nat.strongRecOn generalizing text with
  | ind n ih =>
      obtain ⟨before, after, rfl⟩ := infix_iff_exists.1 h
      by_cases hearlier : pattern.toList <:+: before.toList
      · simp only [String.length_append] at hlength
        obtain ⟨first, rest, rfl, hfirst⟩ := ih before.length (by omega) hearlier rfl
        exact ⟨first, rest ++ pattern ++ after, by simp [String.append_assoc], hfirst⟩
      · exact ⟨before, after, rfl, hearlier⟩

namespace FillsPlaceholders

variable {focus other template : String} {path : Option String} {fill fillOther : String → String}

/-- Two ways of filling templates agree on a template unless they write different texts into it. -/
theorem agree (h : FillsPlaceholders focus path fill)
    (hother : FillsPlaceholders other path fillOther)
    (hsame : "$this".toList <:+: template.toList → focus = other) :
    fill template = fillOther template := by
  induction hlength : template.length using Nat.strongRecOn generalizing template with
  | ind n ih =>
      -- A template with an occurrence is filled on both sides of it, where it is shorter.
      have hparts : ∀ before pattern after : String, template = before ++ pattern ++ after →
          0 < pattern.length → fill before = fillOther before ∧ fill after = fillOther after := by
        rintro before pattern after rfl hpattern
        simp only [String.length_append] at hlength
        refine ⟨ih before.length (by omega) (fun hthis => hsame ?_) rfl,
          ih after.length (by omega) (fun hthis => hsame ?_) rfl⟩
        · obtain ⟨left, right, rfl⟩ := infix_iff_exists.1 hthis
          exact infix_iff_exists.2 ⟨left, right ++ pattern ++ after, by simp [String.append_assoc]⟩
        · obtain ⟨left, right, rfl⟩ := infix_iff_exists.1 hthis
          exact infix_iff_exists.2 ⟨before ++ pattern ++ left, right, by simp [String.append_assoc]⟩
      by_cases hthis : "$this".toList <:+: template.toList
      · obtain rfl := hsame hthis
        obtain ⟨before, after, hsplit⟩ := infix_iff_exists.1 hthis
        obtain ⟨hbefore, hafter⟩ := hparts before _ after hsplit (by decide)
        rw [hsplit, h.writes_focus, hother.writes_focus, hbefore, hafter]
      · by_cases hpath : path.isSome = true ∧ "$PATH".toList <:+: template.toList
        · obtain ⟨iri, rfl⟩ := Option.isSome_iff_exists.1 hpath.1
          obtain ⟨before, after, hsplit⟩ := infix_iff_exists.1 hpath.2
          obtain ⟨hbefore, hafter⟩ := hparts before _ after hsplit (by decide)
          rw [hsplit, h.writes_path iri rfl, hother.writes_path iri rfl, hbefore, hafter]
        · have hnone := fun hsome hin => hpath ⟨hsome, hin⟩
          rw [h.keeps template hthis hnone, hother.keeps template hthis hnone]

end FillsPlaceholders

/-! ## Filling templates in one pass -/

/-- The rule that writes an IRI for a placeholder. -/
def placeholderRule (placeholder iri : String) : Text.Rule :=
  ⟨placeholder.toList, "<".toList ++ iri.toList ++ ">".toList⟩

/-- The rules that write a focus and a path into a template. -/
def placeholderRules (focus : String) (path : Option String) : List Text.Rule :=
  placeholderRule "$this" focus :: path.toList.map (placeholderRule "$PATH")

/-- A template filled in one pass. -/
def substitutePlaceholders (focus : String) (path : Option String) (template : String) : String :=
  String.ofList (Text.substituteFrom (placeholderRules focus path) 0 template.toList)

variable {focus iri template : String} {path : Option String}

/-- The characters of a template filled in one pass. -/
theorem toList_substitutePlaceholders (focus : String) (path : Option String) (template : String) :
    (substitutePlaceholders focus path template).toList =
      Text.substituteFrom (placeholderRules focus path) 0 template.toList :=
  String.toList_ofList

/-- Placeholders have a dollar sign nowhere but at their start. -/
theorem dollar_notMem_tail (focus : String) (path : Option String) :
    ∀ rule ∈ placeholderRules focus path, '$' ∉ rule.pattern.tail := by
  simp [placeholderRules, placeholderRule]

/-- Templates can be filled in one pass. -/
theorem fillsPlaceholders_substitute (focus : String) (path : Option String) :
    FillsPlaceholders focus path (substitutePlaceholders focus path) where
  writes_focus before after := by
    rw [← String.toList_inj]
    simp only [toList_substitutePlaceholders, String.toList_append]
    exact Text.substituteFrom_occurrence (placeholderRule "$this" focus) rfl
      (dollar_notMem_tail focus _) rfl _
  writes_path iri hpath before after := by
    obtain rfl := hpath
    rw [← String.toList_inj]
    simp only [toList_substitutePlaceholders, String.toList_append]
    exact Text.substituteFrom_occurrence (placeholderRule "$PATH" iri) rfl
      (dollar_notMem_tail focus _) rfl _
  keeps template hthis hpath := by
    rw [← String.toList_inj, toList_substitutePlaceholders]
    refine Text.substituteFrom_of_not_infix fun rule hrule => ?_
    rcases List.mem_cons.1 hrule with rfl | hrest
    · exact hthis
    · obtain ⟨iri, hiri, rfl⟩ := List.mem_map.1 hrest
      exact hpath (by simp [Option.mem_toList.1 hiri])

/-! ## How queries are instantiated -/

section Instantiation

open Text (replaceAll substituteFrom)

/-- The characters of a text in which an IRI was written for a placeholder. -/
theorem toList_replaceAll (placeholder iri text : String) :
    (replaceAll placeholder ("<" ++ iri ++ ">") text).toList =
      substituteFrom [placeholderRule placeholder iri] 0 text.toList := by
  rw [replaceAll, String.toList_ofList, Text.replaceFrom_eq_substituteFrom, placeholderRule,
    String.toList_append, String.toList_append]

/-- The query of a shape is its template filled in one pass. -/
theorem instantiateQuery_none (template focus : String) :
    instantiateQuery template focus none = substitutePlaceholders focus none template := by
  rw [← String.toList_inj, instantiateQuery, toList_replaceAll, toList_substitutePlaceholders]
  rfl

/-- Writing the focus leaves the placeholder of the path where it is. -/
theorem substitutePlaceholders_path (focus before after : String) :
    substitutePlaceholders focus none (before ++ "$PATH" ++ after) =
      substitutePlaceholders focus none before ++ "$PATH" ++
        substitutePlaceholders focus none after := by
  rw [← String.toList_inj]
  simp only [toList_substitutePlaceholders, String.toList_append]
  have hhere : substituteFrom (placeholderRules focus none) 0 ("$PATH".toList ++ after.toList) =
      "$PATH".toList ++ substituteFrom (placeholderRules focus none) 0 after.toList := rfl
  have hparts := Text.substituteFrom_append_cons (dollar_notMem_tail focus none)
    before.toList ("PATH".toList ++ after.toList)
  rw [List.append_assoc, List.append_assoc, ← hhere]
  exact hparts

/-- A path is written for every occurrence of its placeholder. -/
theorem replaceAll_path_occurrence (iri before after : String) :
    replaceAll "$PATH" ("<" ++ iri ++ ">") (before ++ "$PATH" ++ after) =
      replaceAll "$PATH" ("<" ++ iri ++ ">") before ++ ("<" ++ iri ++ ">") ++
        replaceAll "$PATH" ("<" ++ iri ++ ">") after := by
  rw [← String.toList_inj]
  simp only [toList_replaceAll, String.toList_append]
  refine Text.substituteFrom_occurrence (placeholderRule "$PATH" iri) rfl
    (fun rule hrule => ?_) rfl _
  obtain rfl := List.mem_singleton.1 hrule
  show '$' ∉ "$PATH".toList.tail
  decide

/-- It is written into a text in angle brackets as into the texts around it. -/
theorem replaceAll_path_bracketed (iri before text after : String) :
    replaceAll "$PATH" ("<" ++ iri ++ ">") (before ++ ("<" ++ text ++ ">") ++ after) =
      replaceAll "$PATH" ("<" ++ iri ++ ">") before ++
        ("<" ++ replaceAll "$PATH" ("<" ++ iri ++ ">") text ++ ">") ++
        replaceAll "$PATH" ("<" ++ iri ++ ">") after := by
  have hopening : ∀ rule ∈ [placeholderRule "$PATH" iri],
      rule.pattern ≠ [] ∧ '<' ∉ rule.pattern := by
    simp [placeholderRule]
  have hclosing : ∀ rule ∈ [placeholderRule "$PATH" iri],
      rule.pattern ≠ [] ∧ '>' ∉ rule.pattern := by
    simp [placeholderRule]
  have hbefore := Text.substituteFrom_separator hopening before.toList
    (text.toList ++ '>' :: after.toList)
  rw [Text.substituteFrom_separator hclosing] at hbefore
  rw [← String.toList_inj]
  simp only [toList_replaceAll, String.toList_append]
  simpa using hbefore

/-- A text without its placeholder stays. -/
theorem replaceAll_path_of_not_infix {text : String} (h : ¬ "$PATH".toList <:+: text.toList)
    (iri : String) : replaceAll "$PATH" ("<" ++ iri ++ ">") text = text := by
  rw [← String.toList_inj, toList_replaceAll]
  exact Text.substituteFrom_of_not_infix (by simpa [placeholderRule] using h)

/-- The query of a property fills the template, but with a focus into which the path was written. -/
theorem fillsPlaceholders_instantiateQuery (focus iri : String) :
    FillsPlaceholders (replaceAll "$PATH" ("<" ++ iri ++ ">") focus) (some iri)
      (instantiateQuery · focus (some iri)) := by
  have hfocus := fillsPlaceholders_substitute focus none
  have hquery : ∀ template, instantiateQuery template focus (some iri) =
      replaceAll "$PATH" ("<" ++ iri ++ ">") (substitutePlaceholders focus none template) :=
    fun template => congrArg (replaceAll "$PATH" ("<" ++ iri ++ ">"))
      (instantiateQuery_none template focus)
  refine ⟨fun before after => ?_, fun path hpath before after => ?_, fun template hthis hnone => ?_⟩
  · simp only [hquery, hfocus.writes_focus, replaceAll_path_bracketed]
  · obtain rfl := Option.some.inj hpath
    simp only [hquery, substitutePlaceholders_path, replaceAll_path_occurrence]
  · simp only [hquery]
    rw [hfocus.keeps template hthis (fun h => by simp at h),
      replaceAll_path_of_not_infix (hnone rfl)]

/-- Where the placeholder of the path occurs in a text, writing the path changes what the text
starts with. -/
theorem replaceAll_path_ne (iri : String) {text : String} (h : "$PATH".toList <:+: text.toList)
    (rest other : List Char) :
    (replaceAll "$PATH" ("<" ++ iri ++ ">") text).toList ++ rest ≠ text.toList ++ other := by
  obtain ⟨before, after, rfl, hbefore⟩ := exists_first_infix (by decide) h
  rw [replaceAll_path_occurrence, replaceAll_path_of_not_infix hbefore]
  intro hsame
  simp only [String.toList_append, List.append_assoc, List.append_cancel_left_eq] at hsame
  -- What comes next is an opening bracket on one side and a dollar sign on the other.
  cases hsame

end Instantiation

/-- A query of a property fills its template in one pass, unless the template asks for the focus and
the focus has the placeholder of the path in it. -/
theorem instantiateQuery_eq_fill_iff {fill : String → String}
    (hfill : FillsPlaceholders focus (some iri) fill) (template : String) :
    instantiateQuery template focus (some iri) = fill template ↔
      ¬ "$this".toList <:+: template.toList ∨ ¬ "$PATH".toList <:+: focus.toList := by
  have hquery := fillsPlaceholders_instantiateQuery focus iri
  constructor
  · intro hsame
    by_contra hboth
    obtain ⟨hthis, hpath⟩ := not_or.1 hboth
    obtain ⟨before, after, rfl, hbefore⟩ := exists_first_infix (by decide) (not_not.1 hthis)
    have hstart := hquery.agree hfill fun h => absurd h hbefore
    rw [hquery.writes_focus, hfill.writes_focus, hstart] at hsame
    rw [← String.toList_inj] at hsame
    simp only [String.toList_append, List.append_assoc, List.append_cancel_left_eq] at hsame
    exact replaceAll_path_ne iri (not_not.1 hpath) _ _ hsame
  · intro h
    exact hquery.agree hfill fun hthis =>
      replaceAll_path_of_not_infix (h.resolve_left fun hnot => hnot hthis) iri

/-- The violations of a constraint depend on the engine by its answer to the query alone. -/
theorem Constraint.violations_congr {constraint : Constraint} {engine other : QueryEngine}
    {focus : Node} {path : Option String}
    (h : ∀ query, constraint.query? focus path = some query → engine query = other query) :
    constraint.violations engine focus path = constraint.violations other focus path := by
  unfold violations
  cases hparts : constraint.parts? with
  | none => rfl
  | some parts =>
      cases hiri : focus.iri? with
      | none => simp only
      | some iri =>
          have hanswer := h (instantiateQuery parts.1 iri path) (by simp [query?, hparts, hiri])
          simp only [hanswer]

/-- A constraint that is not inert asks about an IRI the query that its template gives. -/
theorem Constraint.query?_iri (select message focus : String) (path : Option String) :
    (⟨some select, some message⟩ : Constraint).query? (.iri focus) path =
      some (instantiateQuery select focus path) := rfl

/-- There is one way of filling templates for a focus and a path. The query about a focus is that of
a shape's constraint filled in this way, and so is that of a property's constraint, except just when
the template asks for the focus and the placeholder of the path occurs in the focus: then the path
is written into the focus as well. The engine is asked nothing else. -/
theorem query?_eq_fill_iff (focus : String) :
    (∀ path, ∃! fill, FillsPlaceholders focus path fill) ∧
    (∀ fill, FillsPlaceholders focus none fill → ∀ select message,
      (⟨some select, some message⟩ : Constraint).query? (.iri focus) none =
        some (fill select)) ∧
    (∀ path fill, FillsPlaceholders focus (some path) fill → ∀ select message,
      ((⟨some select, some message⟩ : Constraint).query? (.iri focus) (some path) =
          some (fill select) ↔
        ¬ "$this".toList <:+: select.toList ∨ ¬ "$PATH".toList <:+: focus.toList)) ∧
    (∀ path, ∃ fill,
      FillsPlaceholders (Text.replaceAll "$PATH" ("<" ++ path ++ ">") focus) (some path) fill ∧
        ∀ select message, (⟨some select, some message⟩ : Constraint).query? (.iri focus)
          (some path) = some (fill select)) ∧
    ∀ (constraint : Constraint) path engine other,
      (∀ query, constraint.query? (.iri focus) path = some query → engine query = other query) →
        constraint.violations engine (.iri focus) path =
          constraint.violations other (.iri focus) path := by
  refine ⟨fun path => ?_, fun fill hfill select message => ?_,
    fun path fill hfill select message => ?_,
    fun path => ⟨_, fillsPlaceholders_instantiateQuery focus path, fun _ _ => rfl⟩,
    fun constraint path engine other => Constraint.violations_congr⟩
  · refine ⟨_, fillsPlaceholders_substitute focus path, fun fill hfill => ?_⟩
    funext template
    exact hfill.agree (fillsPlaceholders_substitute focus path) fun _ => rfl
  · rw [Constraint.query?_iri, instantiateQuery_none,
      (fillsPlaceholders_substitute focus none).agree hfill fun _ => rfl]
  · rw [Constraint.query?_iri, Option.some.injEq]
    exact instantiateQuery_eq_fill_iff hfill select

/-- About a focus without the placeholder of the path, a property's constraint asks the filled
template, also when the path itself looks like a placeholder. -/
theorem query?_eq_fill_iff_path_this :
    FillsPlaceholders "urn:a" (some "urn:$this")
        (substitutePlaceholders "urn:a" (some "urn:$this")) ∧
      ¬ "$PATH".toList <:+: "urn:a".toList ∧
      substitutePlaceholders "urn:a" (some "urn:$this") "$this $PATH ?value" =
        "<urn:a> <urn:$this> ?value" ∧
      (⟨some "$this $PATH ?value", some "none"⟩ : Constraint).query? (.iri "urn:a")
        (some "urn:$this") = some "<urn:a> <urn:$this> ?value" := by
  have hfill := fillsPlaceholders_substitute "urn:a" (some "urn:$this")
  have hfocus : ¬ "$PATH".toList <:+: "urn:a".toList := by decide
  have hfilled : substitutePlaceholders "urn:a" (some "urn:$this") "$this $PATH ?value" =
      "<urn:a> <urn:$this> ?value" := by decide
  refine ⟨hfill, hfocus, hfilled, ?_⟩
  rw [← hfilled]
  exact ((query?_eq_fill_iff "urn:a").2.2.1 _ _ hfill _ "none").2 (.inr hfocus)

/-- About an IRI with the placeholder of the path in it, a property's constraint asks a query with a
different focus, which is no IRI: the path was written into it. -/
theorem query?_writes_path_into_focus :
    ∃ fill, FillsPlaceholders "http://example.org/$PATH" (some "urn:name") fill ∧
      fill "$this $PATH ?value" = "<http://example.org/$PATH> <urn:name> ?value" ∧
      (⟨some "$this $PATH ?value", some "none"⟩ : Constraint).query?
          (.iri "http://example.org/$PATH") (some "urn:name") =
        some "<http://example.org/<urn:name>> <urn:name> ?value" ∧
      (⟨some "$this $PATH ?value", some "none"⟩ : Constraint).query?
          (.iri "http://example.org/$PATH") (some "urn:name") ≠
        some (fill "$this $PATH ?value") :=
  ⟨_, fillsPlaceholders_substitute _ _, by decide, by decide, by decide⟩

end PublicationAudit
