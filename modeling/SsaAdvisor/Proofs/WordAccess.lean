import Mathlib.Tactic.Tauto
import SsaAdvisor.StatementSet

/-!
# Word by word access to statement sets

The operations on statement sets, with every access to a word checked: an access outside the words
stops them without a result. A position of the body has its word among the packed ones, so nothing
ever stops, and the answers are those of the operations themselves. Main statement: a run of
insertions makes the finite set of those of its positions that lie in the body.
-/

namespace SsaAdvisor

private theorem or_twoPow_eq_self_iff {w : BitVec 64} {bit : Nat} (hbit : bit < 64) :
    w ||| BitVec.twoPow 64 bit = w ↔ w.getLsbD bit = true := by
  constructor
  · intro heq
    rw [← heq, BitVec.getLsbD_or, BitVec.getLsbD_twoPow]
    simp [hbit]
  · intro hset
    apply BitVec.eq_of_getLsbD_eq
    intro i hi
    rw [BitVec.getLsbD_or, BitVec.getLsbD_twoPow]
    by_cases heq : bit = i
    · rw [← heq, hset, Bool.true_or]
    · simp [heq]

private theorem and_twoPow_ne_zero {w : BitVec 64} {bit : Nat} (hbit : bit < 64) :
    (w &&& BitVec.twoPow 64 bit != 0#64) = w.getLsbD bit := by
  have hmask : BitVec.twoPow 64 bit ≠ 0#64 := by
    intro hzero
    have hget := congrArg (·.getLsbD bit) hzero
    simp [hbit] at hget
  rw [BitVec.and_twoPow]
  cases w.getLsbD bit <;> simp [hmask]

namespace StatementSet

variable {s : StatementSet} {position : Nat}

/-- The word and the bit of a position of the body. -/
def slot? (s : StatementSet) (position : Nat) : Option (Nat × Nat) :=
  if s.InRange position then some ((position - 1) / 64, (position - 1) % 64) else none

/-- Membership by a checked read of the position's word. -/
def contains? (s : StatementSet) (position : Nat) : Option Bool :=
  match s.slot? position with
  | none => some false
  | some (word, bit) => do
    let w ← s.words[word]?
    some (w &&& BitVec.twoPow 64 bit != 0#64)

/-- Insertion by a checked read of the position's word, which is then written in the same place. -/
def insert? (s : StatementSet) (position : Nat) : Option (Bool × StatementSet) :=
  match s.slot? position with
  | none => some (false, s)
  | some (word, bit) => do
    let old ← s.words[word]?
    let new := old ||| BitVec.twoPow 64 bit
    some (old != new, ⟨s.size, s.words.setIfInBounds word new, by simpa using s.words_size⟩)

/-- Insert the positions of a list from left to right, each with its answer. -/
def insertAll? (s : StatementSet) : List Nat → Option (List Bool × StatementSet)
  | [] => some ([], s)
  | position :: positions => do
    let (isNew, s) ← s.insert? position
    let (answers, s) ← s.insertAll? positions
    some (isNew :: answers, s)

private theorem exists_word (hin : s.InRange position) :
    ∃ w, s.words[(position - 1) / 64]? = some w ∧
      s.contains position = w.getLsbD ((position - 1) % 64) ∧
      (s.add position).words =
        s.words.setIfInBounds ((position - 1) / 64)
          (w ||| BitVec.twoPow 64 ((position - 1) % 64)) := by
  have hlt := hin.word_lt
  refine ⟨s.words[(position - 1) / 64], Array.getElem?_eq_getElem hlt, ?_, ?_⟩
  · simp [contains, hin, Array.getElem?_eq_getElem hlt]
  · rw [add, if_pos hin]
    apply Array.ext_getElem?
    intro i
    rw [Array.getElem?_modify, Array.getElem?_setIfInBounds]
    by_cases hi : (position - 1) / 64 = i
    · subst hi
      simp [hlt]
    · simp [hi]

/-- The read of a membership test is within the words. -/
theorem contains?_eq (s : StatementSet) (position : Nat) :
    s.contains? position = some (s.contains position) := by
  by_cases hin : s.InRange position
  · obtain ⟨w, hw, hcontains, -⟩ := exists_word hin
    rw [contains?, slot?, if_pos hin, hcontains, ← and_twoPow_ne_zero (Nat.mod_lt _ (by omega))]
    simp only [hw, Option.bind_eq_bind, Option.bind_some]
  · simp [contains?, slot?, contains, hin]

private theorem insert_fst_eq {w : BitVec 64} (hin : s.InRange position)
    (hw : s.words[(position - 1) / 64]? = some w)
    (hadd : (s.add position).words = s.words.setIfInBounds ((position - 1) / 64)
      (w ||| BitVec.twoPow 64 ((position - 1) % 64))) :
    (s.insert position).1 = (w != w ||| BitVec.twoPow 64 ((position - 1) % 64)) := by
  rw [insert, hadd, hw]
  simp [bne, hin.word_lt]

/-- The accesses of an insertion are within the words. -/
theorem insert?_eq (s : StatementSet) (position : Nat) :
    s.insert? position = some (s.insert position) := by
  by_cases hin : s.InRange position
  · obtain ⟨w, hw, -, hadd⟩ := exists_word hin
    rw [insert?, slot?, if_pos hin]
    simp only [hw, Option.bind_eq_bind, Option.bind_some, Option.some_inj]
    exact Prod.ext (insert_fst_eq hin hw hadd).symm
      (StatementSet.ext (size_add s position).symm hadd.symm)
  · simp [insert?, slot?, insert, add, hin]

/-- The answer to an insertion is whether the position lies in the body and was no member. -/
theorem insert_fst (s : StatementSet) (position : Nat) :
    (s.insert position).1 = (decide (s.InRange position) && !s.contains position) := by
  by_cases hin : s.InRange position
  · obtain ⟨w, hw, hcontains, hadd⟩ := exists_word hin
    have hself := or_twoPow_eq_self_iff (w := w) (Nat.mod_lt (position - 1) (Nat.succ_pos 63))
    rw [insert_fst_eq hin hw hadd, hcontains, Bool.eq_iff_iff, bne_iff_ne, ne_comm, ne_eq, hself]
    simp [hin]
  · simp [insert, add, hin]

private theorem isNew_add (s : StatementSet) (first i : Nat) (positions : List Nat) :
    (decide ((s.add first).InRange i) && !(s.add first).contains i && !positions.contains i) =
      (decide (s.InRange i) && !s.contains i && !(first :: positions).contains i) := by
  have hrange : (s.add first).InRange i ↔ s.InRange i := by simp [InRange, size_add]
  rw [Bool.eq_iff_iff]
  by_cases heq : i = first
  · subst heq
    simp [hrange, contains_add]
    tauto
  · simp [hrange, contains_add, heq]

/-- A run of insertions stops at no access. Its answers tell the positions of the body that were
neither members before nor inserted earlier in the run. -/
theorem insertAll?_eq (s : StatementSet) (positions : List Nat) :
    s.insertAll? positions =
      some (positions.mapIdx fun k i ↦
          decide (s.InRange i) && !s.contains i && !(positions.take k).contains i,
        positions.foldl add s) := by
  induction positions generalizing s with
  | nil => rfl
  | cons first rest ih =>
    have hfirst : (s.insert first).1 =
        (decide (s.InRange first) && !s.contains first && !([] : List Nat).contains first) := by
      rw [insert_fst, List.contains_nil, Bool.not_false, Bool.and_true]
    have hsnd : (s.insert first).2 = s.add first := rfl
    simp only [insertAll?, insert?_eq, Option.bind_eq_bind, Option.bind_some, hsnd, ih, hfirst,
      isNew_add, List.mapIdx_cons, List.take_zero, List.take_succ_cons, List.foldl_cons]

private theorem size_ofList (size : Nat) (positions : List Nat) :
    (ofList size positions).size = size := by
  have hfold : ∀ s : StatementSet, (positions.foldl add s).size = s.size := by
    induction positions with
    | nil => exact fun _ ↦ rfl
    | cons first rest ih => exact fun s ↦ (ih (s.add first)).trans (size_add s first)
  exact hfold (empty size)

/-- Any run of insertions into an empty set makes the finite set of those of its positions that lie
in the body. Each insertion answers whether the position lies in the body and was not yet inserted;
outside the body it changes nothing, and it never changes whether another position is a member. No
access lies outside the words, neither in the run nor in what follows. -/
theorem insertions_make_set (size : Nat) (positions : List Nat) :
    let s := ofList size positions
    (empty size).insertAll? positions =
      some (positions.mapIdx fun k i ↦
        decide ((1 ≤ i ∧ i ≤ size) ∧ i ∉ positions.take k), s) ∧
    (∀ i, s.contains? i = some (s.contains i) ∧
      (s.contains i = true ↔ (1 ≤ i ∧ i ≤ size) ∧ i ∈ positions)) ∧
    (∀ i, s.insert? i = some (s.insert i) ∧
      ((s.insert i).1 = true ↔ (1 ≤ i ∧ i ≤ size) ∧ i ∉ positions)) ∧
    (∀ i, ¬ (1 ≤ i ∧ i ≤ size) → (s.insert i).2 = s) ∧
    ∀ i j, j ≠ i → (s.insert i).2.contains j = s.contains j := by
  intro s
  have hrange : ∀ i, s.InRange i ↔ 1 ≤ i ∧ i ≤ size := by
    intro i
    rw [InRange, size_ofList]
  have hcontains : ∀ i, s.contains i = true ↔ (1 ≤ i ∧ i ≤ size) ∧ i ∈ positions := by
    intro i
    rw [contains_ofList, and_comm]
  refine ⟨?_, fun i ↦ ⟨contains?_eq s i, hcontains i⟩, fun i ↦ ⟨insert?_eq s i, ?_⟩, ?_, ?_⟩
  · rw [insertAll?_eq]
    congr 2
    apply congrFun (congrArg List.mapIdx ?_)
    funext k i
    have hempty : (empty size).InRange i ↔ 1 ≤ i ∧ i ≤ size := Iff.rfl
    rw [contains_empty]
    simp [hempty]
  · rw [insert_fst, Bool.and_eq_true, decide_eq_true_eq, Bool.not_eq_true', ← Bool.not_eq_true,
      hcontains, hrange]
    tauto
  · intro i hout
    exact if_neg (mt (hrange i).mp hout)
  · intro i j hne
    have hadd : (s.insert i).2.contains j = (s.add i).contains j := rfl
    rw [hadd, contains_add, beq_eq_false_iff_ne.mpr hne, Bool.false_and, Bool.or_false]

/-- The last bit of the first word and the first bit of the second one are told apart, and a
position behind the body changes nothing. -/
theorem insertions_make_set_wordEdge :
    let s := ofList 65 [64, 66, 64, 0]
    ¬ (1 ≤ 66 ∧ 66 ≤ 65) ∧ (s.insert 66).2 = s ∧
      65 ≠ 64 ∧ (s.insert 64).2.contains 65 = s.contains 65 ∧ s.contains 65 = false := by
  obtain ⟨-, hcontains, -, hout, hother⟩ := insertions_make_set 65 [64, 66, 64, 0]
  have hedge : ¬ (1 ≤ 66 ∧ 66 ≤ 65) := by decide
  refine ⟨hedge, hout 66 hedge, by decide, hother 64 65 (by decide), ?_⟩
  rw [← Bool.not_eq_true, (hcontains 65).2]
  decide

end StatementSet
end SsaAdvisor
