import SsaAdvisor.Func.Defect
import SsaAdvisor.ValueUse

/-!
# Readers of a value

A statement reads a value if one of its operands names it. The uses of a value are its readers
behind the definition, so the last use is the last of these. An accepted function may also read a
value in front of its definition, as loops do, but never in the statement that defines it.
-/

namespace SsaAdvisor.Func

/-- Whether an operand of the statement at a position names the value. -/
def Reads (f : Func) (position value : Nat) : Prop :=
  (f.statement? position).any (·.usesValue value) = true

instance (f : Func) (position value : Nat) : Decidable (f.Reads position value) :=
  inferInstanceAs (Decidable (_ = true))

variable {f : Func} {ctx : Context} {value position : Nat}

private theorem reads_iff :
    f.Reads position value ↔
      ∃ s, f.statement? position = some s ∧ ∃ op ∈ s.operands, op.isValue value = true := by
  simp [Reads, Option.any_eq_true, Statement.usesValue]

/-- The uses of a value stand at its readers behind the definition. -/
theorem mem_map_index_forwardUses :
    position ∈ (f.forwardUses ctx value).map (·.index) ↔
      value < position ∧ f.Reads position value := by
  simp only [forwardUses, List.map_map, List.mem_map, List.mem_filter, Function.comp_apply,
    Prod.exists, mem_after, Reads, Option.any_eq_true]
  constructor
  · rintro ⟨s, q, ⟨⟨hlt, hs⟩, hu⟩, rfl⟩
    exact ⟨hlt, s, hs, hu⟩
  · rintro ⟨hlt, s, hs, hu⟩
    exact ⟨s, position, ⟨⟨hlt, hs⟩, hu⟩, rfl⟩

/-- The uses of a value are in ascending order of their statements. -/
theorem pairwise_forwardUses (f : Func) (ctx : Context) (value : Nat) :
    (f.forwardUses ctx value).Pairwise (·.index < ·.index) := by
  rw [forwardUses, List.pairwise_map]
  exact ((pairwise_numbered f).sublist (List.drop_sublist _ _)).filter _

/-- The position of the last use, or that of the definition if there is none. -/
def lastReader (f : Func) (ctx : Context) (value : Nat) : Nat :=
  ((f.forwardUses ctx value).getLast?.map (·.index)).getD value

/-- Which use is the last does not depend on the context. -/
theorem lastReader_eq (f : Func) (ctx ctx' : Context) (value : Nat) :
    f.lastReader ctx' value = f.lastReader ctx value := by
  simp only [lastReader, forwardUses, List.getLast?_map, Option.map_map, Function.comp_def]

/-- The last use is a reader behind the definition, if it is not the definition. -/
theorem reads_lastReader (ctx : Context) (h : f.lastReader ctx value ≠ value) :
    value < f.lastReader ctx value ∧ f.Reads (f.lastReader ctx value) value := by
  unfold lastReader at h ⊢
  cases hu : (f.forwardUses ctx value).getLast? with
  | none => simp [hu] at h
  | some use =>
    exact mem_map_index_forwardUses.mp (List.mem_map_of_mem (List.mem_of_getLast? hu))

/-- The last use does not stand in front of the definition. -/
theorem le_lastReader (f : Func) (ctx : Context) (value : Nat) :
    value ≤ f.lastReader ctx value := by
  by_cases h : f.lastReader ctx value = value
  · exact Nat.le_of_eq h.symm
  · exact Nat.le_of_lt (reads_lastReader ctx h).1

/-- The last use stands in the body if the definition does. -/
theorem lastReader_le_size (ctx : Context) (hsize : value ≤ f.size) :
    f.lastReader ctx value ≤ f.size := by
  by_cases h : f.lastReader ctx value = value
  · rwa [h]
  · obtain ⟨s, hs, -⟩ := reads_iff.mp (reads_lastReader ctx h).2
    exact (bounds_of_statement? hs).2

/-- No reader behind the definition stands behind the last use. -/
theorem le_lastReader_of_reads (hr : f.Reads position value) (hlt : value < position) :
    position ≤ f.lastReader ctx value := by
  have hin : position ∈ (f.forwardUses ctx value).map (·.index) :=
    mem_map_index_forwardUses.mpr ⟨hlt, hr⟩
  obtain ⟨use, hm, rfl⟩ := List.mem_map.mp hin
  have hp := pairwise_forwardUses f ctx value
  cases h : (f.forwardUses ctx value).getLast? with
  | none => simp [List.getLast?_eq_none_iff.mp h] at hm
  | some last =>
    simp only [lastReader, h, Option.map_some, Option.getD_some]
    obtain ⟨front, hf⟩ := List.getLast?_eq_some_iff.mp h
    rw [hf, List.pairwise_append] at hp
    rw [hf, List.mem_append, List.mem_singleton] at hm
    rcases hm with hm | rfl
    · exact Nat.le_of_lt (hp.2.2 use hm last (List.mem_singleton.mpr rfl))
    · exact Nat.le_refl _

/-- In an accepted function no statement reads its own value. -/
theorem not_reads_self (hv : f.validate = .ok ()) (value : Nat) : ¬ f.Reads value value := by
  intro hr
  obtain ⟨s, hs, op, ho, hop⟩ := reads_iff.mp hr
  have hd := operandDefect?_of_validate hv hs ho
  simp [operandDefect?_eq, hop] at hd

end SsaAdvisor.Func
