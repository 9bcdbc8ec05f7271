import PublicationAudit.Constraint

/-!
# Message templates

The message of a row is its template, read once from left to right: a placeholder gives way to the
value of its variable, and everything else stays. `FillsMessage` says what that is to mean without
saying how a placeholder is found. The main statement is `fillsMessage_iff`: the messages of rows
are made so.
-/

namespace PublicationAudit

/-! ## Placeholders -/

/-- A letter of ASCII. -/
def IsAsciiLetter (c : Char) : Prop := ('a' ≤ c ∧ c ≤ 'z') ∨ ('A' ≤ c ∧ c ≤ 'Z')

/-- A digit of ASCII. -/
def IsAsciiDigit (c : Char) : Prop := '0' ≤ c ∧ c ≤ '9'

/-- A placeholder of a variable: a brace, a question mark or dollar sign, the variable, and the
closing brace. The variable starts with a letter or an underscore and goes on with these and
digits. -/
inductive IsPlaceholder : List Char → List Char → Prop where
  | intro (sign first : Char) (rest : List Char) (hsign : sign = '?' ∨ sign = '$')
      (hfirst : IsAsciiLetter first ∨ first = '_')
      (hrest : ∀ c ∈ rest, IsAsciiLetter c ∨ IsAsciiDigit c ∨ c = '_') :
      IsPlaceholder (first :: rest) ('\x7b' :: sign :: first :: (rest ++ ['\x7d']))

/-- A range of characters is checked by its ends. -/
theorem inRange_iff {first last c : Char} :
    (decide (first.val ≤ c.val) && decide (c.val ≤ last.val)) = true ↔ first ≤ c ∧ c ≤ last := by
  rw [Bool.and_eq_true, decide_eq_true_eq, decide_eq_true_eq, Char.le_def, Char.le_def]

/-- Letters are recognised. -/
theorem isAlpha_iff {c : Char} : c.isAlpha = true ↔ IsAsciiLetter c := by
  have hupper : c.isUpper = true ↔ 'A' ≤ c ∧ c ≤ 'Z' := decide_eq_true_iff
  have hlower : c.isLower = true ↔ 'a' ≤ c ∧ c ≤ 'z' := inRange_iff
  rw [IsAsciiLetter, or_comm, ← hupper, ← hlower]
  exact Bool.or_eq_true_iff

/-- Digits are recognised. -/
theorem isDigit_iff {c : Char} : c.isDigit = true ↔ IsAsciiDigit c := inRange_iff

/-- Variables start with a letter or an underscore. -/
theorem isVariableStart_iff {c : Char} :
    isVariableStart c = true ↔ IsAsciiLetter c ∨ c = '_' := by
  rw [isVariableStart, Bool.or_eq_true, beq_iff_eq, isAlpha_iff]

/-- They go on with letters, digits and underscores. -/
theorem isVariablePart_iff {c : Char} :
    isVariablePart c = true ↔ IsAsciiLetter c ∨ IsAsciiDigit c ∨ c = '_' := by
  rw [isVariablePart, Bool.or_eq_true, beq_iff_eq, Char.isAlphanum, Bool.or_eq_true, isAlpha_iff,
    isDigit_iff, or_assoc]

namespace IsPlaceholder

variable {name text : List Char}

/-- Besides the variable, a placeholder has its sign and two braces. -/
theorem length_eq (h : IsPlaceholder name text) : text.length = name.length + 3 := by
  cases h
  simp

/-- No opening brace stands after its first character. -/
theorem eq_cons (h : IsPlaceholder name text) :
    ∃ tail, text = '\x7b' :: tail ∧ '\x7b' ∉ tail := by
  obtain ⟨sign, first, rest, hsign, hfirst, hrest⟩ := h
  have hno : ∀ c, IsAsciiLetter c ∨ IsAsciiDigit c ∨ c = '_' → '\x7b' ≠ c := by
    rintro c hc rfl
    revert hc
    simp only [IsAsciiLetter, IsAsciiDigit]
    decide
  refine ⟨_, rfl, ?_⟩
  have hsigned : '\x7b' ≠ sign := by rcases hsign with rfl | rfl <;> decide
  simp only [List.mem_cons, List.mem_append, List.not_mem_nil, or_false, not_or]
  exact ⟨hsigned, hno first (hfirst.imp_right .inr), fun hin => hno _ (hrest _ hin) rfl, by decide⟩

/-- A placeholder is found where it stands. -/
theorem found (h : IsPlaceholder name text) (rest : List Char) :
    placeholder? (text ++ rest) = some name := by
  obtain ⟨sign, first, parts, hsign, hfirst, hrest⟩ := h
  have hparts : ∀ c ∈ parts, isVariablePart c = true :=
    fun c hc => isVariablePart_iff.2 (hrest c hc)
  have hclosing : isVariablePart '\x7d' = false := by decide
  have hbegins : ((sign == '?' || sign == '$') && isVariableStart first) = true := by
    simp [hsign, isVariableStart_iff.2 hfirst]
  simp [placeholder?, hbegins, List.dropWhile_append_of_pos hparts,
    List.takeWhile_append_of_pos hparts, hclosing]

end IsPlaceholder

/-- What is found is a placeholder that stands there. -/
theorem exists_of_placeholder? {name s : List Char} (h : placeholder? s = some name) :
    ∃ text rest, IsPlaceholder name text ∧ s = text ++ rest := by
  unfold placeholder? at h
  split at h
  case h_2 => cases h
  case h_1 sign first rest =>
    split at h
    case isFalse => cases h
    case isTrue hfound =>
      obtain rfl := Option.some.inj h
      simp only [Bool.and_eq_true, Bool.or_eq_true, beq_iff_eq] at hfound
      obtain ⟨⟨hsign, hfirst⟩, hclosing⟩ := hfound
      obtain ⟨after, hafter⟩ := List.head?_eq_some_iff.1 hclosing
      refine ⟨_, after, .intro sign first _ hsign (isVariableStart_iff.1 hfirst) fun c hc =>
        isVariablePart_iff.1 (List.all_eq_true.1 List.all_takeWhile c hc), ?_⟩
      have hsplit := List.takeWhile_append_dropWhile (p := isVariablePart) (l := rest)
      rw [hafter] at hsplit
      simp [hsplit]

/-- Nothing is found where no placeholder stands. -/
theorem placeholder?_eq_none_iff {s : List Char} :
    placeholder? s = none ↔ ∀ name text, IsPlaceholder name text → ¬ text <+: s := by
  constructor
  · rintro hnone name text hplaceholder ⟨rest, rfl⟩
    rw [hplaceholder.found] at hnone
    cases hnone
  · intro hnone
    refine Option.eq_none_iff_forall_ne_some.2 fun name hname => ?_
    obtain ⟨text, rest, hplaceholder, rfl⟩ := exists_of_placeholder? hname
    exact hnone name text hplaceholder (List.prefix_append text rest)

/-- Only an opening brace starts a placeholder. -/
theorem placeholder?_cons {c : Char} (h : '\x7b' ≠ c) (rest : List Char) :
    placeholder? (c :: rest) = none := by
  unfold placeholder?
  split
  case h_1 heq => exact absurd (List.cons.inj heq).1.symm h
  case h_2 => rfl

/-! ## Filled templates -/

/-- What a template becomes when it is filled from a row: the placeholder that comes first gives way
to the value of its variable, or stays where the variable is unbound, and what follows it is filled
on its own. A character that starts no placeholder stays. -/
inductive FillsMessage (row : Row) : List Char → List Char → Prop where
  | done : FillsMessage row [] []
  | bound (name text rest filled : List Char) (node : Node)
      (hplaceholder : IsPlaceholder name text)
      (hvalue : row.value? (String.ofList name) = some node)
      (hrest : FillsMessage row rest filled) :
      FillsMessage row (text ++ rest) (node.lexical.toList ++ filled)
  | unbound (name text rest filled : List Char) (hplaceholder : IsPlaceholder name text)
      (hvalue : row.value? (String.ofList name) = none) (hrest : FillsMessage row rest filled) :
      FillsMessage row (text ++ rest) (text ++ filled)
  | verbatim (c : Char) (rest filled : List Char)
      (hnone : ∀ name text, IsPlaceholder name text → ¬ text <+: c :: rest)
      (hrest : FillsMessage row rest filled) : FillsMessage row (c :: rest) (c :: filled)

section Filling

variable {row : Row} {name text s : List Char}

/-- The characters of a filled placeholder are left out. -/
theorem fillFrom_length_append (row : Row) (text rest : List Char) :
    fillFrom row text.length (text ++ rest) = fillFrom row 0 rest := by
  induction text with
  | nil => rfl
  | cons c text ih => exact ih

/-- A character stays where no placeholder is filled. -/
theorem fillFrom_cons {c : Char} {rest : List Char}
    (h : filledPlaceholder? row (c :: rest) = none) :
    fillFrom row 0 (c :: rest) = c :: fillFrom row 0 rest := by
  rw [fillFrom, h]

/-- It stays where none is found. -/
theorem fillFrom_verbatim {c : Char} {rest : List Char} (h : placeholder? (c :: rest) = none) :
    fillFrom row 0 (c :: rest) = c :: fillFrom row 0 rest :=
  fillFrom_cons (by rw [filledPlaceholder?, h, Option.bind_none])

/-- Text without opening braces stays. -/
theorem fillFrom_append_of_notMem (h : '\x7b' ∉ text) (rest : List Char) :
    fillFrom row 0 (text ++ rest) = text ++ fillFrom row 0 rest := by
  induction text with
  | nil => rfl
  | cons c text ih =>
      obtain ⟨hne, hnotMem⟩ := not_or.1 (mt List.mem_cons.2 h)
      rw [List.cons_append, fillFrom_verbatim (placeholder?_cons hne _), ih hnotMem,
        List.cons_append]

/-- The placeholder of a bound variable gives way to its value. -/
theorem fillFrom_bound {node : Node} (h : IsPlaceholder name text)
    (hvalue : row.value? (String.ofList name) = some node) (rest : List Char) :
    fillFrom row 0 (text ++ rest) = node.lexical.toList ++ fillFrom row 0 rest := by
  have hfilled : filledPlaceholder? row (text ++ rest) =
      some (node.lexical.toList, text.length) := by
    simp [filledPlaceholder?, h.found rest, hvalue, h.length_eq]
  obtain ⟨tail, rfl, -⟩ := h.eq_cons
  rw [List.cons_append] at hfilled ⊢
  rw [fillFrom, hfilled]
  exact congrArg (node.lexical.toList ++ ·) (fillFrom_length_append row tail rest)

/-- The placeholder of an unbound variable stays. -/
theorem fillFrom_unbound (h : IsPlaceholder name text)
    (hvalue : row.value? (String.ofList name) = none) (rest : List Char) :
    fillFrom row 0 (text ++ rest) = text ++ fillFrom row 0 rest := by
  have hfilled : filledPlaceholder? row (text ++ rest) = none := by
    simp [filledPlaceholder?, h.found rest, hvalue]
  obtain ⟨tail, rfl, htail⟩ := h.eq_cons
  rw [List.cons_append] at hfilled ⊢
  rw [fillFrom_cons hfilled, fillFrom_append_of_notMem htail, List.cons_append]

/-- Templates are filled in one way only. -/
theorem FillsMessage.eq_fillFrom {filled : List Char} (h : FillsMessage row s filled) :
    filled = fillFrom row 0 s := by
  induction h with
  | done => rfl
  | bound name text rest filled node hplaceholder hvalue _ ih =>
      rw [fillFrom_bound hplaceholder hvalue, ih]
  | unbound name text rest filled hplaceholder hvalue _ ih =>
      rw [fillFrom_unbound hplaceholder hvalue, ih]
  | verbatim c rest filled hnone _ ih =>
      rw [fillFrom_verbatim (placeholder?_eq_none_iff.2 hnone), ih]

/-- Every template is filled. -/
theorem fillsMessage_fillFrom (row : Row) (s : List Char) :
    FillsMessage row s (fillFrom row 0 s) := by
  induction hlength : s.length using Nat.strongRecOn generalizing s with
  | ind n ih =>
      cases hfound : placeholder? s with
      | some name =>
          obtain ⟨text, rest, hplaceholder, rfl⟩ := exists_of_placeholder? hfound
          rw [List.length_append, hplaceholder.length_eq] at hlength
          have hrest := ih rest.length (by omega) rest rfl
          cases hvalue : row.value? (String.ofList name) with
          | some node =>
              rw [fillFrom_bound hplaceholder hvalue]
              exact .bound name text rest _ node hplaceholder hvalue hrest
          | none =>
              rw [fillFrom_unbound hplaceholder hvalue]
              exact .unbound name text rest _ hplaceholder hvalue hrest
      | none =>
          cases s with
          | nil => exact .done
          | cons c rest =>
              rw [List.length_cons] at hlength
              rw [fillFrom_verbatim hfound]
              exact .verbatim c rest _ (placeholder?_eq_none_iff.1 hfound)
                (ih rest.length (by omega) rest rfl)

/-- The message of a row is its template, filled from left to right in one pass: text from the row
is not looked at again. -/
theorem fillsMessage_iff {template : String} {filled : List Char} :
    FillsMessage row template.toList filled ↔ filled = (renderMessage template row).toList := by
  rw [renderMessage, String.toList_ofList]
  constructor
  · exact FillsMessage.eq_fillFrom
  · rintro rfl
    exact fillsMessage_fillFrom row _

end Filling

/-- A value that looks like a placeholder is not filled; an unbound variable and an unfinished
placeholder stay. -/
example : renderMessage "\x7b\x7b?a\x7d of \x7b$b\x7d \x7b?c\x7d \x7b?a"
      [("a", .iri "\x7b$b\x7d"), ("b", .blank "x")] =
    "\x7b\x7b$b\x7d of x \x7b?c\x7d \x7b?a" := by decide

end PublicationAudit
