/-!
# Sets of statement positions

Positions count from one. A set over a body of `size` statements packs one bit per position into
words of 64 bits; a position outside the body is never a member, and adding it changes nothing.
Membership after each operation is the view that the laws below describe.

Follows `StatementSet::insert`, `contains` and `slot`.
-/

namespace SsaAdvisor

/-- A set of positions between one and `size`. -/
@[ext]
structure StatementSet where
  /-- Number of statements of the body. -/
  size : Nat
  /-- One bit per statement, the first in the lowest bit of the first word. -/
  words : Array (BitVec 64)
  words_size : words.size = (size + 63) / 64

namespace StatementSet

/-- The set without members. -/
def empty (size : Nat) : StatementSet :=
  ⟨size, Array.replicate ((size + 63) / 64) 0, by simp⟩

/-- Whether a position lies in the body. -/
def InRange (s : StatementSet) (position : Nat) : Prop := 1 ≤ position ∧ position ≤ s.size

instance (s : StatementSet) (position : Nat) : Decidable (s.InRange position) :=
  inferInstanceAs (Decidable (_ ∧ _))

/-- The word of a position in the body is one of the packed words. -/
theorem InRange.word_lt {s : StatementSet} {position : Nat} (h : s.InRange position) :
    (position - 1) / 64 < s.words.size := by
  rw [s.words_size]
  obtain ⟨h1, h2⟩ := h
  omega

/-- Whether a position is a member. Follows `StatementSet::contains`. -/
def contains (s : StatementSet) (position : Nat) : Bool :=
  decide (s.InRange position) &&
    (s.words[(position - 1) / 64]?.getD 0).getLsbD ((position - 1) % 64)

/-- The set with a position of the body added. Follows `StatementSet::insert`. -/
def add (s : StatementSet) (position : Nat) : StatementSet :=
  if s.InRange position then
    ⟨s.size,
      s.words.modify ((position - 1) / 64) (· ||| BitVec.twoPow 64 ((position - 1) % 64)),
      by simpa using s.words_size⟩
  else s

/-- Add a position, and say whether this changed its word. -/
def insert (s : StatementSet) (position : Nat) : Bool × StatementSet :=
  let word := (position - 1) / 64
  (s.words[word]? != (s.add position).words[word]?, s.add position)

/-- The set of the listed positions that lie in the body. -/
def ofList (size : Nat) (positions : List Nat) : StatementSet :=
  positions.foldl add (empty size)

/-- The empty set has no member. -/
theorem contains_empty (size position : Nat) : (empty size).contains position = false := by
  simp [contains, empty, Array.getElem?_replicate]
  grind

/-- Adding a position keeps the body's size. -/
theorem size_add (s : StatementSet) (position : Nat) : (s.add position).size = s.size := by
  unfold add
  split <;> rfl

/-- After an addition the members are the former ones and, if it lies in the body, the new one. -/
theorem contains_add (s : StatementSet) (position other : Nat) :
    (s.add position).contains other =
      (s.contains other || (other == position && decide (s.InRange position))) := by
  -- only the word of the new position changes, and in it only the position's own bit
  by_cases hp : s.InRange position
  · by_cases ho : s.InRange other
    · have hs : (s.add position).InRange other := by simpa [InRange, size_add] using ho
      have hlt := hp.word_lt
      have hlo := ho.word_lt
      have hr : (s.add position).words =
          s.words.modify ((position - 1) / 64) (· ||| BitVec.twoPow 64 ((position - 1) % 64)) := by
        simp [add, hp]
      simp only [contains, hs, ho, hp, hr, decide_true, Bool.true_and, Bool.and_true,
        Array.getElem?_modify]
      obtain ⟨hp1, -⟩ := hp
      obtain ⟨ho1, -⟩ := ho
      by_cases hw : (position - 1) / 64 = (other - 1) / 64
      · rw [if_pos hw, Array.getElem?_eq_getElem hlo]
        simp only [Option.map_some, Option.getD_some, BitVec.getLsbD_or, BitVec.getLsbD_twoPow]
        congr 1
        have : ((position - 1) % 64 = (other - 1) % 64) ↔ other = position := by omega
        have hb : (position - 1) % 64 < 64 := by omega
        simp only [hb, decide_true, Bool.true_and, this, Bool.beq_eq_decide_eq]
      · have he : other ≠ position := by rintro rfl; exact hw rfl
        simp [hw, he]
    · have hs : ¬ (s.add position).InRange other := by simpa [InRange, size_add] using ho
      have he : other ≠ position := by rintro rfl; exact ho hp
      simp [contains, hs, ho, he]
  · simp [add, hp]

private theorem contains_foldl_add (s : StatementSet) (positions : List Nat) (position : Nat) :
    (positions.foldl add s).contains position = true ↔
      s.contains position = true ∨ position ∈ positions ∧ s.InRange position := by
  induction positions generalizing s with
  | nil => simp
  | cons first rest ih =>
    rw [List.foldl_cons, ih, contains_add]
    have hr : (s.add first).InRange position ↔ s.InRange position := by simp [InRange, size_add]
    by_cases he : position = first
    · subst he
      simp only [hr, List.mem_cons, beq_self_eq_true, Bool.true_and, Bool.or_eq_true,
        decide_eq_true_eq, true_or, true_and]
      grind
    · simp [hr, he]

/-- The members of a listed set are the listed positions that lie in the body. -/
theorem contains_ofList {size position : Nat} {positions : List Nat} :
    (ofList size positions).contains position = true ↔
      position ∈ positions ∧ 1 ≤ position ∧ position ≤ size := by
  rw [ofList, contains_foldl_add, contains_empty]
  simp [InRange, empty]

end StatementSet
end SsaAdvisor
