import Mathlib.Data.List.Basic
import SsaAdvisor.Report.Finding

/-!
# Findings by pass and by urgency

The findings are those of the five passes, one after the other, and the order by urgency and
statement is a total preorder. Ordering is stable, so it commutes with every choice among the
findings: whatever is left out, the others keep their places relative to each other.
-/

namespace SsaAdvisor

section StableOrder

variable {α : Type} {le : α → α → Bool}

private theorem append_inj_of_forall (test : α → Bool) {front back front' back' : List α}
    (h : front ++ back = front' ++ back') (hf : ∀ x ∈ front, test x = true)
    (hb : ∀ x ∈ back, test x = false) (hf' : ∀ x ∈ front', test x = true)
    (hb' : ∀ x ∈ back', test x = false) : front = front' ∧ back = back' := by
  have hfront : ∀ {xs ys : List α}, (∀ x ∈ xs, test x = true) → (∀ y ∈ ys, test y = false) →
      (xs ++ ys).filter test = xs := by
    intro xs ys hxs hys
    have hnil : ys.filter test = [] := List.filter_eq_nil_iff.mpr fun y hy ↦ by simp [hys y hy]
    rw [List.filter_append, List.filter_eq_self.mpr hxs, hnil, List.append_nil]
  obtain rfl : front = front' := by rw [← hfront hf hb, h, hfront hf' hb']
  exact ⟨rfl, List.append_cancel_left h⟩

/-- To sort what is chosen is to choose from what is sorted. -/
theorem mergeSort_filter (trans : ∀ a b c, le a b = true → le b c = true → le a c = true)
    (total : ∀ a b, (le a b || le b a) = true) (chosen : α → Bool) (xs : List α) :
    (xs.filter chosen).mergeSort le = (xs.mergeSort le).filter chosen := by
  induction xs with
  | nil => simp
  | cons x xs ih =>
    obtain ⟨front, back, hsort, hrest, hfront⟩ := List.mergeSort_cons trans total x xs
    by_cases hx : chosen x = true
    · obtain ⟨front', back', hsort', hrest', hfront'⟩ :=
        List.mergeSort_cons trans total x (xs.filter chosen)
      have hback : ∀ {before behind ys : List α}, ys.mergeSort le = before ++ x :: behind →
          ∀ y ∈ behind, (!le x y) = false := by
        intro before behind ys hys y hy
        have hp := List.pairwise_mergeSort trans total ys
        rw [hys, List.pairwise_append, List.pairwise_cons] at hp
        rw [hp.2.1.1 y hy, Bool.not_true]
      -- the sorted element stands in front of the first that it precedes, in both lists
      have hsame : front' ++ back' = front.filter chosen ++ back.filter chosen := by
        rw [← hrest', ih, hrest, List.filter_append]
      obtain ⟨hf, hb⟩ := append_inj_of_forall (!le x ·) hsame hfront' (hback hsort')
        (fun y hy ↦ hfront y (List.mem_filter.mp hy).1)
        (fun y hy ↦ hback hsort y (List.mem_filter.mp hy).1)
      rw [List.filter_cons_of_pos hx, hsort', hsort, hf, hb, List.filter_append,
        List.filter_cons_of_pos hx]
    · rw [List.filter_cons_of_neg hx, ih, hsort, hrest, List.filter_append, List.filter_append,
        List.filter_cons_of_neg hx]

end StableOrder

/-- An element of a list that may be missing. -/
theorem mem_getD_nil {α : Type} {xs? : Option (List α)} {x : α} :
    x ∈ xs?.getD [] ↔ ∃ xs, xs? = some xs ∧ x ∈ xs := by
  cases xs? <;> simp

namespace Finding

variable {settings : Settings} {r : Results} {finding : Finding} {pass : Pass}

/-- Findings are ordered by the ranks of their priorities and then by statement. -/
theorem precedes_iff {a b : Finding} :
    a.precedes b = true ↔ a.priority.rank < b.priority.rank ∨
      a.priority.rank = b.priority.rank ∧ a.statement.getD 0 ≤ b.statement.getD 0 := by
  have hrank : a.priority.rank = b.priority.rank ↔ a.priority = b.priority := by
    cases a.priority <;> cases b.priority <;> decide
  simp [precedes, hrank]

/-- What precedes a finding precedes what it precedes. -/
theorem precedes_trans (a b c : Finding) (hab : a.precedes b = true) (hbc : b.precedes c = true) :
    a.precedes c = true := by
  rw [precedes_iff] at hab hbc ⊢
  omega

/-- Of two findings one precedes the other. -/
theorem precedes_total (a b : Finding) : (a.precedes b || b.precedes a) = true := by
  rw [Bool.or_eq_true, precedes_iff, precedes_iff]
  omega

/-- The finding on an allocation is about its statement. -/
theorem pass_and_statement_of_ofEscape? {expectNoEscapes : Bool} {e : EscapeRecord}
    (h : ofEscape? expectNoEscapes e = some finding) :
    finding.pass = .escape ∧ finding.statement = some e.index := by
  simp only [ofEscape?] at h
  -- it escapes, or it can be promoted in one of two ways, or there is nothing to say
  by_cases hescapes : e.escapes = true
  · rw [if_pos hescapes] at h
    exact Option.some.inj h ▸ ⟨rfl, rfl⟩
  · rw [if_neg hescapes] at h
    by_cases hreplace : e.canScalarReplace = true
    · rw [if_pos hreplace] at h
      exact Option.some.inj h ▸ ⟨rfl, rfl⟩
    · rw [if_neg hreplace, Option.ite_none_right_eq_some] at h
      exact Option.some.inj h.2 ▸ ⟨rfl, rfl⟩

private theorem pass_ofVirtualCall (call : VirtualCall) :
    (ofVirtualCall call).pass = .devirtualization := by
  unfold ofVirtualCall
  split <;> rfl

/-- The findings on a specialization are about no statement. -/
theorem pass_and_statement_of_mem_ofSpecialization {oversizedThreshold : Nat} {s : Specialization}
    (h : finding ∈ ofSpecialization oversizedThreshold s) :
    finding.pass = .monomorphization ∧ finding.statement = none := by
  rcases List.mem_append.mp h with h | h
  · split at h
    · exact List.mem_singleton.mp h ▸ ⟨rfl, rfl⟩
    · exact (nomatch h)
  · obtain ⟨p, -, rfl⟩ := List.mem_map.mp h
    exact ⟨rfl, rfl⟩

/-- The findings of one pass, in the order of its records. -/
def ofPass (settings : Settings) (r : Results) : Pass → List Finding
  | .escape => (r.escapes.data?.getD []).filterMap (ofEscape? settings.expectNoEscapes)
  | .constants => ((r.constants.data?.map (·.decidedBranches)).getD []).map ofDecidedBranch
  | .devirtualization => (r.virtualCalls.data?.getD []).map ofVirtualCall
  | .monomorphization =>
    (r.specialization.data?.map (ofSpecialization settings.oversizedVariantThreshold)).getD []
  | .lifetime => (r.lifetimes.data?.getD []).map ofLifetime

/-- The findings are those of the passes, one pass after the other. -/
theorem unordered_eq (settings : Settings) (r : Results) :
    unordered settings r = Pass.all.flatMap (ofPass settings r) := by
  simp [unordered, Pass.all, ofPass]

/-- The findings of a pass name it. -/
theorem pass_of_mem_ofPass (h : finding ∈ ofPass settings r pass) : finding.pass = pass := by
  cases pass with
  | escape =>
    obtain ⟨e, -, he⟩ := List.mem_filterMap.mp h
    exact (pass_and_statement_of_ofEscape? he).1
  | constants =>
    obtain ⟨d, -, rfl⟩ := List.mem_map.mp h
    rfl
  | devirtualization =>
    obtain ⟨call, -, rfl⟩ := List.mem_map.mp h
    exact pass_ofVirtualCall call
  | monomorphization =>
    obtain ⟨findings, hs, hm⟩ := mem_getD_nil.mp h
    obtain ⟨s, -, rfl⟩ := Option.map_eq_some_iff.mp hs
    exact (pass_and_statement_of_mem_ofSpecialization hm).1
  | lifetime =>
    obtain ⟨l, -, rfl⟩ := List.mem_map.mp h
    rfl

/-- A finding is one of some pass. -/
theorem mem_ofResults :
    finding ∈ ofResults settings r ↔ ∃ pass, finding ∈ ofPass settings r pass := by
  simp [(ofResults_perm settings r).mem_iff, unordered_eq, Pass.mem_all]

end Finding
end SsaAdvisor
