import Mathlib.Data.List.Infix
import PublicationAudit.Text.Search

/-!
# Simultaneous substitution

Rules that are applied to a text in one pass: where the pattern of a rule stands, its replacement is
written, and the pass goes on behind the pattern. Replacing one pattern is the case of a single rule
(`replaceFrom_eq_substituteFrom`). Read `substituteFrom_append_cons` first: where a part of a text
begins with a character that the patterns have nowhere but at their start, no occurrence reaches
into it from before, and the parts are rewritten one by one.
-/

namespace PublicationAudit.Text

/-- A pattern and what is written in its place. -/
structure Rule where
  pattern : List Char
  replacement : List Char

/-- The first rule whose pattern starts a text. -/
def firstRule? (rules : List Rule) (text : List Char) : Option Rule :=
  rules.find? fun rule => rule.pattern.isPrefixOf text

/-- Rewrites a text from left to right; `skip` characters still belong to the pattern that was found
last. -/
def substituteFrom (rules : List Rule) : Nat → List Char → List Char
  | _, [] => []
  | skip + 1, _ :: cs => substituteFrom rules skip cs
  | 0, c :: cs =>
    match firstRule? rules (c :: cs) with
    | some rule => rule.replacement ++ substituteFrom rules (rule.pattern.length - 1) cs
    | none => c :: substituteFrom rules 0 cs

/-- Replacing a pattern is substitution with one rule. -/
theorem replaceFrom_eq_substituteFrom (pattern replacement : List Char) (skip : Nat)
    (text : List Char) :
    replaceFrom pattern replacement skip text =
      substituteFrom [⟨pattern, replacement⟩] skip text := by
  induction text generalizing skip with
  | nil => cases skip <;> rfl
  | cons c text ih =>
      cases skip with
      | succ skip => exact ih skip
      | zero =>
          rw [replaceFrom, substituteFrom, firstRule?, List.find?_singleton]
          split <;> simp only [ih]

variable {rules : List Rule} {rule : Rule} {before after text : List Char} {c : Char}

/-- A rule that is found is one of the rules, and its pattern starts the text. -/
theorem prefix_of_firstRule? (h : firstRule? rules text = some rule) :
    rule ∈ rules ∧ rule.pattern <+: text :=
  ⟨List.mem_of_find?_eq_some h, List.isPrefixOf_iff_prefix.1
    (List.find?_some (p := fun rule : Rule => rule.pattern.isPrefixOf text) h)⟩

/-- No rule is found where no pattern starts the text. -/
theorem firstRule?_eq_none : firstRule? rules text = none ↔
    ∀ rule ∈ rules, ¬ rule.pattern <+: text := by
  simp [firstRule?, List.find?_eq_none]

/-- The same rule is found in texts that the same patterns start. -/
theorem firstRule?_congr {other : List Char}
    (h : ∀ rule ∈ rules, rule.pattern <+: text ↔ rule.pattern <+: other) :
    firstRule? rules text = firstRule? rules other := by
  induction rules with
  | nil => rfl
  | cons rule rules ih =>
      have hrule : rule.pattern.isPrefixOf text = rule.pattern.isPrefixOf other := by
        rw [Bool.eq_iff_iff, List.isPrefixOf_iff_prefix, List.isPrefixOf_iff_prefix]
        exact h rule List.mem_cons_self
      have hrest := ih fun rule hrule => h rule (List.mem_cons_of_mem _ hrule)
      rw [firstRule?, firstRule?] at hrest ⊢
      rw [List.find?_cons, List.find?_cons, hrule, hrest]

/-- What belongs to the pattern that was found last is passed over. -/
theorem substituteFrom_length_append (rules : List Rule) (skipped text : List Char) :
    substituteFrom rules skipped.length (skipped ++ text) = substituteFrom rules 0 text := by
  induction skipped with
  | nil => rfl
  | cons c skipped ih => exact ih

/-- A pattern at the start gives way to its replacement. -/
theorem substituteFrom_pattern_append (hpattern : rule.pattern ≠ [])
    (hfirst : firstRule? rules (rule.pattern ++ text) = some rule) :
    substituteFrom rules 0 (rule.pattern ++ text) =
      rule.replacement ++ substituteFrom rules 0 text := by
  obtain ⟨⟨⟩ | ⟨c, rest⟩, replacement⟩ := rule
  · exact absurd rfl hpattern
  · rw [List.cons_append] at hfirst ⊢
    rw [substituteFrom, hfirst]
    simp only [List.length_cons, Nat.add_sub_cancel, substituteFrom_length_append]

/-- A character at which no pattern starts stays. -/
theorem substituteFrom_cons_of_none (h : firstRule? rules (c :: text) = none) :
    substituteFrom rules 0 (c :: text) = c :: substituteFrom rules 0 text := by
  rw [substituteFrom, h]

/-- A text without any of the patterns stays. -/
theorem substituteFrom_of_not_infix (h : ∀ rule ∈ rules, ¬ rule.pattern <:+: text) :
    substituteFrom rules 0 text = text := by
  induction text with
  | nil => rfl
  | cons c text ih =>
      have hnone : firstRule? rules (c :: text) = none :=
        firstRule?_eq_none.2 fun rule hrule hstart => h rule hrule hstart.isInfix
      rw [substituteFrom_cons_of_none hnone, ih fun rule hrule hlater =>
        h rule hrule (hlater.trans (List.suffix_cons c text).isInfix)]

/-- A text is rewritten in two parts when no pattern reaches from the first into the second. -/
theorem substituteFrom_append {skip : Nat} (hskip : skip ≤ before.length)
    (hwithin : ∀ rule ∈ rules, ∀ part, part <:+ before → part ≠ [] →
      rule.pattern <+: part ++ after → rule.pattern <+: part) :
    substituteFrom rules skip (before ++ after) =
      substituteFrom rules skip before ++ substituteFrom rules 0 after := by
  induction before generalizing skip with
  | nil =>
      obtain rfl : skip = 0 := Nat.le_zero.1 hskip
      rfl
  | cons c before ih =>
      have hlater : ∀ rule ∈ rules, ∀ part, part <:+ before → part ≠ [] →
          rule.pattern <+: part ++ after → rule.pattern <+: part := fun rule hrule part hpart =>
        hwithin rule hrule part (hpart.trans (List.suffix_cons c before))
      cases skip with
      | succ skip => exact ih (Nat.le_of_succ_le_succ hskip) hlater
      | zero =>
          -- The same patterns start the text and its first part.
          have hsame : firstRule? rules (c :: (before ++ after)) =
              firstRule? rules (c :: before) :=
            firstRule?_congr fun rule hrule =>
              ⟨hwithin rule hrule (c :: before) (List.suffix_refl _) (List.cons_ne_nil c before),
                fun h => h.trans (List.prefix_append (c :: before) after)⟩
          rw [List.cons_append, substituteFrom, substituteFrom, hsame]
          split
          · rename_i rule hfirst
            have hlength := (prefix_of_firstRule? hfirst).2.length_le
            rw [List.length_cons] at hlength
            rw [ih (by omega) hlater, List.append_assoc]
          · rw [ih (Nat.zero_le _) hlater, List.cons_append]

/-- No pattern reaches into a part that begins with a character which the patterns have nowhere but
at their start. -/
theorem substituteFrom_append_cons (hc : ∀ rule ∈ rules, c ∉ rule.pattern.tail)
    (before after : List Char) :
    substituteFrom rules 0 (before ++ c :: after) =
      substituteFrom rules 0 before ++ substituteFrom rules 0 (c :: after) := by
  refine substituteFrom_append (Nat.zero_le _) fun rule hrule part _ hpart hstart => ?_
  have hc := hc rule hrule
  have hhere : part <+: part ++ c :: after := List.prefix_append part _
  by_cases hlength : rule.pattern.length ≤ part.length
  · exact List.prefix_of_prefix_length_le hstart hhere hlength
  · -- The pattern would go on with the first character of the second part.
    obtain ⟨rest, hrest⟩ := List.prefix_of_prefix_length_le hhere hstart (by omega)
    rw [← hrest] at hstart hc hlength
    rw [List.prefix_append_right_inj] at hstart
    obtain ⟨first, part, rfl⟩ := List.exists_cons_of_ne_nil hpart
    cases rest with
    | nil => simp at hlength
    | cons d rest =>
        obtain ⟨rfl, -⟩ := List.cons_prefix_cons.1 hstart
        simp at hc

/-- A pattern whose first character no pattern has elsewhere gives way wherever it stands, and what
stands before it and after it is rewritten on its own. -/
theorem substituteFrom_occurrence (rule : Rule) {rest : List Char}
    (hpattern : rule.pattern = c :: rest) (hc : ∀ other ∈ rules, c ∉ other.pattern.tail)
    (hfirst : firstRule? rules (rule.pattern ++ after) = some rule) (before : List Char) :
    substituteFrom rules 0 (before ++ rule.pattern ++ after) =
      substituteFrom rules 0 before ++ rule.replacement ++ substituteFrom rules 0 after := by
  have hhere := substituteFrom_pattern_append (hpattern ▸ List.cons_ne_nil c rest) hfirst
  rw [hpattern, List.cons_append] at hhere
  rw [List.append_assoc, hpattern, List.cons_append, substituteFrom_append_cons hc, hhere,
    List.append_assoc]

/-- A character that no pattern has separates what stands before it from what stands after it. -/
theorem substituteFrom_separator (hc : ∀ rule ∈ rules, rule.pattern ≠ [] ∧ c ∉ rule.pattern)
    (before after : List Char) :
    substituteFrom rules 0 (before ++ c :: after) =
      substituteFrom rules 0 before ++ c :: substituteFrom rules 0 after := by
  have hnone : firstRule? rules (c :: after) = none :=
    firstRule?_eq_none.2 fun rule hrule hstart => by
      obtain ⟨first, rest, hpattern⟩ := List.exists_cons_of_ne_nil (hc rule hrule).1
      rw [hpattern] at hstart
      obtain ⟨rfl, -⟩ := List.cons_prefix_cons.1 hstart
      exact (hc rule hrule).2 (hpattern ▸ List.mem_cons_self)
  rw [substituteFrom_append_cons (fun rule hrule h => (hc rule hrule).2 (List.mem_of_mem_tail h)),
    substituteFrom_cons_of_none hnone]

end PublicationAudit.Text
