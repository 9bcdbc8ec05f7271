import PublicationAudit.Proofs.FactHistory
import PublicationAudit.Shape.Compile

/-!
# What statements say

Each kind of statement about a shape comes from the facts of one predicate, as far as their objects
can be read (`ShapeStatement.IsKind`). So what a walk over the statements of a node keeps or
collects of one kind is what the objects of one predicate say: the last of them (`foldl_keeps_last`)
or all in order (`foldl_collects`).
-/

namespace PublicationAudit

namespace ShapeStatement

/-- The class that a statement targets. -/
def targetClass? : ShapeStatement → Option String
  | targetClass cls => some cls
  | _ => none

/-- The property shape that a statement adds. -/
def property? : ShapeStatement → Option Node
  | property shape => some shape
  | _ => none

/-- The name that a statement gives. -/
def name? : ShapeStatement → Option String
  | name text => some text
  | _ => none

/-- The description that a statement gives. -/
def description? : ShapeStatement → Option String
  | description text => some text
  | _ => none

/-- The path that a statement gives. -/
def path? : ShapeStatement → Option String
  | path iri => some iri
  | _ => none

/-- The class that a statement requires of values. -/
def requiredClass? : ShapeStatement → Option String
  | requiredClass cls => some cls
  | _ => none

/-- The lower bound that a statement sets. -/
def minCount? : ShapeStatement → Option Nat
  | minCount count => some count
  | _ => none

/-- The upper bound that a statement sets. -/
def maxCount? : ShapeStatement → Option Nat
  | maxCount count => some count
  | _ => none

/-- The tier that a statement sets. -/
def maturityLevel? : ShapeStatement → Option Tier
  | maturityLevel tier => some tier
  | _ => none

/-- The constraint that a statement adds. -/
def constraint? : ShapeStatement → Option Node
  | constraint query => some query
  | _ => none

/-- The query that a statement gives. -/
def select? : ShapeStatement → Option String
  | select query => some query
  | _ => none

/-- The message template that a statement gives. -/
def message? : ShapeStatement → Option String
  | message template => some template
  | _ => none

/-- The predicate whose facts make a statement; a statement of no use has none. -/
def predicate? : ShapeStatement → Option String
  | targetClass _ => some Vocabulary.targetClass
  | property _ => some Vocabulary.property
  | name _ => some Vocabulary.name
  | description _ => some Vocabulary.description
  | path _ => some Vocabulary.path
  | requiredClass _ => some Vocabulary.requiredClass
  | minCount _ => some Vocabulary.minCount
  | maxCount _ => some Vocabulary.maxCount
  | maturityLevel _ => some Vocabulary.maturityLevel
  | constraint _ => some Vocabulary.sparql
  | select _ => some Vocabulary.select
  | message _ => some Vocabulary.message
  | malformed .. => none
  | unrecognized _ => none

/-! ## Where statements come from -/

/-- A statement that can be made by facts of a predicate. -/
def MadeBy (predicate : String) (statement : ShapeStatement) : Prop :=
  ∀ made, statement.predicate? = some made → predicate = made

section MadeBy

variable {predicate made value : String} {statement other : ShapeStatement} {β : Type}

/-- A statement is made by its own predicate. -/
theorem MadeBy.of_eq (hmade : statement.predicate? = some made) (h : predicate = made) :
    MadeBy predicate statement := fun _ hother => by
  rw [h]
  exact Option.some.inj (hmade.symm.trans hother)

/-- Where the object cannot be read, any predicate makes a malformed statement. -/
theorem MadeBy.orMalformed {make : β → ShapeStatement}
    (hmake : ∀ b, (make b).predicate? = some made) (h : predicate = made) (read? : Option β) :
    MadeBy predicate ((read?.map make).getD (malformed predicate value)) := by
  cases read? with
  | none => exact nofun
  | some b => exact .of_eq (hmake b) h

/-- A choice by the predicate. -/
theorem MadeBy.ite (h : predicate = made → MadeBy predicate statement)
    (hother : MadeBy predicate other) :
    MadeBy predicate (if predicate = made then statement else other) := by
  split
  · exact h ‹_›
  · exact hother

end MadeBy

/-- A fact makes a statement of its own predicate. -/
theorem madeBy_ofFact (fact : Fact) : MadeBy fact.predicate (ofFact fact) := by
  unfold ofFact
  iterate 2 refine .ite (fun h => .orMalformed (fun _ => rfl) h _) ?_
  iterate 2 refine .ite (fun h => .of_eq rfl h) ?_
  iterate 6 refine .ite (fun h => .orMalformed (fun _ => rfl) h _) ?_
  iterate 2 refine .ite (fun h => .of_eq rfl h) ?_
  exact nofun

/-- A kind of statement is what the objects of one predicate say, as far as they can be read. -/
structure IsKind {α : Type} (kind? : ShapeStatement → Option α) (predicate : String)
    (read? : Node → Option α) : Prop where
  own : ∀ subject object, kind? (ofFact ⟨subject, predicate, object⟩) = read? object
  made : ∀ statement a, kind? statement = some a → statement.predicate? = some predicate

variable {α β σ : Type} {kind? : ShapeStatement → Option α} {predicate : String}
  {read? : Node → Option α}

/-- Facts of another predicate make no statement of the kind. -/
theorem IsKind.ofFact (h : IsKind kind? predicate read?) (fact : Fact) :
    kind? (ofFact fact) = if fact.predicate = predicate then read? fact.object else none := by
  obtain ⟨subject, own, object⟩ := fact
  split
  · rename_i hpredicate
    obtain rfl : own = predicate := hpredicate
    exact h.own subject object
  · rename_i hpredicate
    cases hkind : kind? (ShapeStatement.ofFact ⟨subject, own, object⟩) with
    | none => rfl
    | some a => exact absurd (madeBy_ofFact _ _ (h.made _ a hkind)) hpredicate

/-- What statements of the kind say is what the objects of the predicate say. -/
theorem IsKind.filterMap (h : IsKind kind? predicate read?) (facts : List Fact) :
    (facts.map ShapeStatement.ofFact).filterMap kind? =
      ((facts.filter (·.predicate = predicate)).map (·.object)).filterMap read? := by
  rw [List.filterMap_map, List.filterMap_map, List.filterMap_filter]
  refine List.filterMap_congr fun fact _ => ?_
  simp [h.ofFact fact]

/-! ## The kinds -/

theorem isKind_targetClass : IsKind targetClass? Vocabulary.targetClass Node.iri? where
  own _ object := by cases object <;> rfl
  made statement _ h := by cases statement <;> cases h; rfl

theorem isKind_property : IsKind property? Vocabulary.property resourceOf? where
  own _ object := by cases object <;> rfl
  made statement _ h := by cases statement <;> cases h; rfl

theorem isKind_name : IsKind name? Vocabulary.name fun object => some object.lexical where
  own _ _ := rfl
  made statement _ h := by cases statement <;> cases h; rfl

theorem isKind_description :
    IsKind description? Vocabulary.description fun object => some object.lexical where
  own _ _ := rfl
  made statement _ h := by cases statement <;> cases h; rfl

theorem isKind_path : IsKind path? Vocabulary.path Node.iri? where
  own _ object := by cases object <;> rfl
  made statement _ h := by cases statement <;> cases h; rfl

theorem isKind_requiredClass : IsKind requiredClass? Vocabulary.requiredClass Node.iri? where
  own _ object := by cases object <;> rfl
  made statement _ h := by cases statement <;> cases h; rfl

theorem isKind_minCount : IsKind minCount? Vocabulary.minCount countOf? where
  own _ object := by
    show minCount? (((countOf? object).map minCount).getD _) = _
    cases countOf? object <;> rfl
  made statement _ h := by cases statement <;> cases h; rfl

theorem isKind_maxCount : IsKind maxCount? Vocabulary.maxCount countOf? where
  own _ object := by
    show maxCount? (((countOf? object).map maxCount).getD _) = _
    cases countOf? object <;> rfl
  made statement _ h := by cases statement <;> cases h; rfl

theorem isKind_maturityLevel : IsKind maturityLevel? Vocabulary.maturityLevel tierOf? where
  own _ object := by
    show maturityLevel? (((tierOf? object).map maturityLevel).getD
      (malformed Vocabulary.maturityLevel object.key)) = tierOf? object
    cases tierOf? object <;> rfl
  made statement _ h := by cases statement <;> cases h; rfl

theorem isKind_constraint : IsKind constraint? Vocabulary.sparql resourceOf? where
  own _ object := by cases object <;> rfl
  made statement _ h := by cases statement <;> cases h; rfl

theorem isKind_select : IsKind select? Vocabulary.select fun object => some object.lexical where
  own _ _ := rfl
  made statement _ h := by cases statement <;> cases h; rfl

theorem isKind_message : IsKind message? Vocabulary.message fun object => some object.lexical where
  own _ _ := rfl
  made statement _ h := by cases statement <;> cases h; rfl

/-! ## Walks over statements -/

variable {note : σ → ShapeStatement → σ}

/-- What every statement of a kind overwrites holds in the end what the last of them says. -/
theorem foldl_keeps_last (field : σ → Option α)
    (hnote : ∀ draft statement,
      field (note draft statement) = (kind? statement).or (field draft))
    (statements : List ShapeStatement) (draft : σ) :
    field (statements.foldl note draft) =
      (statements.filterMap kind?).getLast?.or (field draft) := by
  induction statements generalizing draft with
  | nil => rfl
  | cons statement statements ih =>
      rw [List.foldl_cons, ih, hnote, ← Option.or_assoc, List.filterMap_cons]
      cases kind? statement with
      | none => rw [Option.or_none]
      | some a =>
          rw [List.getLast?_cons]
          cases (statements.filterMap kind?).getLast? <;> rfl

/-- What every statement of a kind adds to holds in the end what all of them say, in order. -/
theorem foldl_collects (field : σ → List β) (make? : α → Option β)
    (hnote : ∀ draft statement,
      field (note draft statement) = field draft ++ ((kind? statement).bind make?).toList)
    (statements : List ShapeStatement) (draft : σ) :
    field (statements.foldl note draft) =
      field draft ++ (statements.filterMap kind?).filterMap make? := by
  induction statements generalizing draft with
  | nil => exact (List.append_nil _).symm
  | cons statement statements ih =>
      rw [List.foldl_cons, ih, hnote, List.append_assoc, List.filterMap_cons]
      congr 1
      cases kind? statement with
      | none => rfl
      | some a =>
          show (make? a).toList ++ _ = (a :: statements.filterMap kind?).filterMap make?
          rw [List.filterMap_cons]
          cases make? a <;> rfl

end ShapeStatement

end PublicationAudit
