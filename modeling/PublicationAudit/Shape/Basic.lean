import PublicationAudit.Maturity.Tier

/-!
# Shapes

What an application profile asks of the subjects of a class: which properties they have, how often,
of which class, at which maturity tier, and which embedded queries have to stay without rows.
-/

namespace PublicationAudit

/-- An embedded query with a message template. It is inert unless both are there. -/
structure Constraint where
  select : Option String := none
  message : Option String := none
  deriving DecidableEq, Repr, Inhabited

/-- The query and the template of a constraint that is not inert. -/
def Constraint.parts? (constraint : Constraint) : Option (String × String) :=
  match constraint.select, constraint.message with
  | some select, some message => some (select, message)
  | _, _ => none

/-- Whether the constraint asks anything. -/
def Constraint.isActive (constraint : Constraint) : Bool := constraint.parts?.isSome

/-- What is asked of one property. -/
structure PropertyShape where
  name : String
  description : Option String
  path : String
  requiredClass : Option String
  minCount : Nat
  maxCount : Option Nat
  tier : Option Tier
  constraints : List Constraint
  deriving DecidableEq, Repr, Inhabited

/-- A property that may be absent. -/
def PropertyShape.isOptional (shape : PropertyShape) : Bool := shape.minCount == 0

/-- Whether a number of values is within the bounds. -/
def PropertyShape.admitsCount (shape : PropertyShape) (count : Nat) : Bool :=
  shape.minCount ≤ count && shape.maxCount.all fun bound => count ≤ bound

/-- What is asked of the subjects of one class. -/
structure NodeShape where
  id : String
  targetClass : String
  name : String
  tier : Option Tier
  properties : List PropertyShape
  constraints : List Constraint
  deriving DecidableEq, Repr, Inhabited

/-- The shapes of an application profile in the order of their declaration. -/
structure ShapeSet where
  shapes : List NodeShape
  deriving DecidableEq, Repr, Inhabited

namespace ShapeSet

/-- The shapes that target a class; there may be several. -/
def shapesFor (set : ShapeSet) (cls : String) : List NodeShape :=
  set.shapes.filter fun shape => shape.targetClass = cls

/-- The distinct target classes in the order of their first shape. -/
def targetClasses (set : ShapeSet) : List String :=
  (set.shapes.map (·.targetClass)).eraseDups

end ShapeSet

end PublicationAudit
