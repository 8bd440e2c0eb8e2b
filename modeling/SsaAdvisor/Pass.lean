/-!
# Passes

The five analyses that a report is made of, and sets of them.

Follows `PassKind`, `Passes` and the names and descriptions of each `AnalysisPass`.
Spec guidance: `SPEC_FULL.md` §§4, 10.5.
-/

namespace SsaAdvisor

/-- One of the analyses. -/
inductive Pass where
  | escape
  | constants
  | devirtualization
  | monomorphization
  | lifetime
deriving DecidableEq, Repr

namespace Pass

/-- All passes, in the order in which a report lists them. -/
def all : List Pass := [.escape, .constants, .devirtualization, .monomorphization, .lifetime]

/-- The name of a pass. -/
def name : Pass → String
  | .escape => "escape"
  | .constants => "constants"
  | .devirtualization => "devirtualization"
  | .monomorphization => "monomorphization"
  | .lifetime => "lifetime"

/-- What a pass does, in one phrase. -/
def description : Pass → String
  | .escape => "Classifies allocation sites as escaping or stack-promotable"
  | .constants => "Folds constant expressions and flags statically decided branches"
  | .devirtualization => "Resolves virtual call sites to a bounded target set"
  | .monomorphization => "Finds abstract-typed parameters and their concrete instantiation sets"
  | .lifetime => "Computes safe auto-release points for manually managed allocations"

/-- The pass with the given name. -/
def ofName? (name : String) : Option Pass := all.find? (·.name == name)

/-- The bit that stands for a pass in a packed set. -/
def flag : Pass → Nat
  | .escape => 1
  | .constants => 2
  | .devirtualization => 4
  | .monomorphization => 8
  | .lifetime => 16

/-- Every pass is listed. -/
theorem mem_all (pass : Pass) : pass ∈ all := by cases pass <;> decide

end Pass

/-- A set of passes. -/
structure PassSet where
  contains : Pass → Bool

namespace PassSet

/-- The set of all passes. -/
def all : PassSet := ⟨fun _ ↦ true⟩

/-- The set of the listed passes. -/
def ofList (passes : List Pass) : PassSet := ⟨passes.contains⟩

/-- The set packed into the bits of a number. -/
def bits (s : PassSet) : Nat := ((Pass.all.filter s.contains).map Pass.flag).foldr (· + ·) 0

/-- A listed pass is in the set, and no other. -/
theorem contains_ofList (passes : List Pass) (pass : Pass) :
    (ofList passes).contains pass = true ↔ pass ∈ passes := by
  simp [ofList]

end PassSet
end SsaAdvisor
