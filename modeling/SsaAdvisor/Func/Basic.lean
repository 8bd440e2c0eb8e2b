import SsaAdvisor.Signature
import SsaAdvisor.Statement

/-!
# Functions

A function is a name, the declared types of its parameters, and a body of statements numbered from
one. Nothing here assumes that the body is well formed: positions outside it have no statement, and
the regions and scans below are defined for every body.

Follows `Function`, with `iter_after`, `loop_regions` and `next_return`, and `LoopRegion`.
Spec guidance: `SPEC_FULL.md` §§3, 10.1.
-/

namespace SsaAdvisor

/-- A numbered list is in ascending order of its numbers. -/
theorem pairwise_zipIdx {α : Type} (xs : List α) (start : Nat) :
    (xs.zipIdx start).Pairwise (·.2 < ·.2) := by
  rw [← List.pairwise_map, List.zipIdx_map_snd]
  exact List.pairwise_lt_range'

/-- A function in static single assignment form. -/
structure Func where
  name : String
  parameterTypes : List Ty
  body : Array Statement
deriving Inhabited

/-- The statements that a backward jump repeats. -/
structure LoopRegion where
  /-- Where the jump leads. -/
  header : Nat
  /-- The statement that jumps back. -/
  latch : Nat
deriving DecidableEq

namespace LoopRegion

/-- Whether a position lies between header and latch, both included. -/
def contains (l : LoopRegion) (position : Nat) : Bool :=
  decide (l.header ≤ position ∧ position ≤ l.latch)

end LoopRegion

namespace Func

/-- Number of statements. -/
def size (f : Func) : Nat := f.body.size

/-- The statement at a position, counted from one. -/
def statement? (f : Func) (position : Nat) : Option Statement :=
  if position = 0 then none else f.body[position - 1]?

/-- The statement at a position of the body, counted from one. -/
def statementAt (f : Func) (position : Nat) (hin : 1 ≤ position ∧ position ≤ f.size) : Statement :=
  have hlt : position - 1 < f.body.size := Nat.sub_one_lt_of_le hin.1 hin.2
  f.body[position - 1]

/-- The statements with their positions, in order. -/
def numbered (f : Func) : List (Statement × Nat) := f.body.toList.zipIdx 1

/-- The numbered statements behind a position. Follows `iter_after`. -/
def after (f : Func) (position : Nat) : List (Statement × Nat) := f.numbered.drop position

/-- The function's own signature. -/
def signature (f : Func) : Signature := ⟨f.name, f.parameterTypes⟩

/-- The declared type of a parameter, counted from one. -/
def parameterType? (f : Func) (position : Nat) : Option Ty :=
  if position = 0 then none else f.parameterTypes[position - 1]?

/-- The targets of all branches and jumps, in order, also those outside the body. -/
def jumpTargets (f : Func) : List Nat := f.numbered.filterMap (·.1.jumpTarget?)

/-- The regions closed by backward jumps, one for each such jump, in order of their latches. A jump
to itself closes a region of one statement. Follows `loop_regions`. -/
def loopRegions (f : Func) : List LoopRegion :=
  f.numbered.filterMap fun (s, position) ↦
    (s.jumpTarget?.filter (· ≤ position)).map fun header ↦ ⟨header, position⟩

/-- Whether the position lies in some loop region. -/
def inLoop (f : Func) (position : Nat) : Bool := f.loopRegions.any (·.contains position)

/-- The first return behind a position. Follows `next_return`. -/
def nextReturn? (f : Func) (position : Nat) : Option Nat :=
  ((f.after position).find? fun (s, _) ↦ s matches .ret _).map (·.2)

/-- The written form of a function, a line for the signature and one for each statement. -/
def text (f : Func) : String :=
  f.signature.text ++ "\n"
    ++ String.join (f.numbered.map fun (s, position) ↦ s!"  #{position} = " ++ s.text ++ "\n")

/-- The numbered statements are those of the body, each at its position. -/
theorem mem_numbered {f : Func} {s : Statement} {position : Nat} :
    (s, position) ∈ f.numbered ↔ f.statement? position = some s := by
  unfold numbered statement?
  rw [List.mem_zipIdx_iff_le_and_getElem?_sub]
  by_cases h : position = 0
  · simp [h]
  · have : 1 ≤ position := Nat.one_le_iff_ne_zero.mpr h
    simp [h, this]

/-- The numbered statements are in ascending order of their positions. -/
theorem pairwise_numbered (f : Func) : f.numbered.Pairwise (·.2 < ·.2) :=
  pairwise_zipIdx _ _

/-- What a search finds at the numbered statements is in ascending order of their positions. -/
theorem pairwise_filterMap_numbered (f : Func) {α : Type} {find : Statement × Nat → Option α}
    {index : α → Nat} (h : ∀ s position a, find (s, position) = some a → index a = position) :
    (f.numbered.filterMap find).Pairwise (index · < index ·) := by
  rw [List.pairwise_filterMap]
  apply f.pairwise_numbered.imp
  rintro ⟨s, i⟩ ⟨s', j⟩ hlt a ha b hb
  rw [h s i a ha, h s' j b hb]
  exact hlt

/-- The statements behind a position are those at larger positions. -/
theorem mem_after {f : Func} {s : Statement} {start position : Nat} :
    (s, position) ∈ f.after start ↔ start < position ∧ f.statement? position = some s := by
  simp only [after, numbered, statement?, List.mem_iff_getElem?, List.getElem?_drop,
    List.getElem?_zipIdx, Option.map_eq_some_iff, Prod.mk.injEq, Array.getElem?_toList]
  constructor
  · rintro ⟨i, _, hs, rfl, rfl⟩
    have : 1 + (start + i) - 1 = start + i := by omega
    simp [this, hs]
    omega
  · rintro ⟨hp, hs⟩
    rw [if_neg (by omega)] at hs
    refine ⟨position - 1 - start, s, ?_, rfl, by omega⟩
    rwa [Nat.add_sub_cancel' (by omega)]

/-- The statements behind a position follow it one after the other. -/
theorem getElem?_after (f : Func) (start i : Nat) :
    (f.after start)[i]? =
      (f.statement? (start + i + 1)).map fun s ↦ (s, start + i + 1) := by
  rw [after, List.getElem?_drop, numbered, List.getElem?_zipIdx, statement?,
    if_neg (Nat.succ_ne_zero _), Array.getElem?_toList, Nat.add_sub_cancel, Nat.add_comm 1]

/-- Only positions of the body have a statement. -/
theorem statement?_eq_none_iff {f : Func} {position : Nat} :
    f.statement? position = none ↔ position = 0 ∨ f.size < position := by
  unfold statement? size
  split
  · simp_all
  · simp
    omega

/-- Every position of the body has its statement. -/
theorem statement?_eq_statementAt {f : Func} {position : Nat}
    (hin : 1 ≤ position ∧ position ≤ f.size) :
    f.statement? position = some (f.statementAt position hin) := by
  have hlt : position - 1 < f.body.size := Nat.sub_one_lt_of_le hin.1 hin.2
  rw [statement?, if_neg (by omega), Array.getElem?_eq_getElem hlt]
  rfl

/-- A statement stands between one and the size of the body. -/
theorem bounds_of_statement? {f : Func} {s : Statement} {position : Nat}
    (h : f.statement? position = some s) : 1 ≤ position ∧ position ≤ f.size := by
  have hn : ¬ f.statement? position = none := by simp [h]
  rw [statement?_eq_none_iff] at hn
  omega

/-- The next return is found behind the position and within the body. -/
theorem bounds_of_nextReturn? {f : Func} {start ret : Nat} (h : f.nextReturn? start = some ret) :
    start < ret ∧ ret ≤ f.size := by
  obtain ⟨⟨s, position⟩, hf, rfl⟩ := Option.map_eq_some_iff.mp h
  have hm := mem_after.mp (List.mem_of_find?_eq_some hf)
  exact ⟨hm.1, (bounds_of_statement? hm.2).2⟩

end Func
end SsaAdvisor
