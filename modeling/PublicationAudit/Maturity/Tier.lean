/-!
# Maturity tiers

The four tiers of maturity. Tier zero carries no checks; the three others are scored, lowest first.
-/

namespace PublicationAudit

/-- A tier of maturity. -/
inductive Tier where
  | niveau0
  | niveau1
  | niveau2
  | niveau3
  deriving DecidableEq, Repr, Inhabited

namespace Tier

/-- The place of a tier, counted from zero. -/
def rank : Tier → Nat
  | niveau0 => 0
  | niveau1 => 1
  | niveau2 => 2
  | niveau3 => 3

instance : LE Tier := ⟨fun s t => s.rank ≤ t.rank⟩

instance : LT Tier := ⟨fun s t => s.rank < t.rank⟩

instance (s t : Tier) : Decidable (s ≤ t) := inferInstanceAs (Decidable (s.rank ≤ t.rank))

instance (s t : Tier) : Decidable (s < t) := inferInstanceAs (Decidable (s.rank < t.rank))

/-- The highest tier. -/
def highest : Tier := niveau3

/-- The tier directly below; there is none below the lowest. -/
def below : Tier → Tier
  | niveau0 => niveau0
  | niveau1 => niveau0
  | niveau2 => niveau1
  | niveau3 => niveau2

/-- The lower of two tiers. -/
def lower (s t : Tier) : Tier := if s ≤ t then s else t

/-- All tiers, lowest first. -/
def all : List Tier := [niveau0, niveau1, niveau2, niveau3]

/-- The tiers that carry checks, lowest first. -/
def scored : List Tier := [niveau1, niveau2, niveau3]

/-- The name of a tier. -/
def name : Tier → String
  | niveau0 => "Niveau 0"
  | niveau1 => "Niveau 1"
  | niveau2 => "Niveau 2"
  | niveau3 => "Niveau 3"

/-- The tier with the given name, which has to match exactly. -/
def ofName? (text : String) : Option Tier := all.find? fun t => t.name = text

/-- A tier is read back from its name. -/
theorem ofName?_name (t : Tier) : ofName? t.name = some t := by cases t <;> decide

end Tier

end PublicationAudit
