import Mathlib.Data.Set.Insert
import Mathlib.Order.Bounds.Defs
import SsaAdvisor.Proofs.Capture
import SsaAdvisor.Proofs.ReleasePoint
import SsaAdvisor.Proofs.Wording

/-!
# Agreement of escapes and lifetimes

A manual allocation has a verdict on its escape and a lifetime, which two passes find, each from its
own choice of the uses. The two agree: there is one lifetime for each verdict on a manual
allocation, its conflicts tell of the uses that the reasons to escape tell of and of the releases
among them, and where a release can be inserted the value does not escape.
-/

namespace SsaAdvisor

namespace Func

/-- The uses of a value that stand against inserting a release. -/
def conflictingUses (f : Func) (ctx : Context) (value : Nat) : List ValueUse :=
  (f.forwardUses ctx value).filter (·.isConflict)

end Func

/-- The lifetime and the verdict of one allocation agree. -/
structure Lifetime.Accords (l : Lifetime) (r : EscapeRecord) (f : Func) (ctx : Context) :
    Prop where
  index : l.index = r.index
  callee : l.callee = r.callee
  conflicts : l.conflicts = (f.conflictingUses ctx l.index).map ValueUse.conflictText
  /-- The reasons tell of the same uses, less the releases. -/
  reasons : r.reasons =
    ((f.conflictingUses ctx l.index).filter (·.kind != .release)).map ValueUse.text
  lastUse : IsGreatest
    (insert l.index {position | l.index < position ∧ f.Reads position l.index}) l.lastUse
  release : l.canAutoFree = true →
    r.escapes = false ∧ l.conflicts = [] ∧
      ∃ k, l.releaseBefore = some k ∧ ∀ position ≥ k, ¬ f.Reads position l.index

namespace ValueUse

private theorem isConflict_and_ne_release (use : ValueUse) :
    (use.isConflict && use.kind != .release) = use.kind.isCapture := by
  obtain ⟨index, kind⟩ := use
  cases kind <;> rfl

end ValueUse

namespace Func

variable {f : Func} {ctx : Context} {site : AllocationSite} {stackThreshold scalarThreshold : Nat}
  {jumps : List Jump} {joins : StatementSet}

private theorem filter_conflictingUses (f : Func) (ctx : Context) (value : Nat) :
    (f.conflictingUses ctx value).filter (·.kind != .release) = f.captures ctx value := by
  rw [conflictingUses, captures, List.filter_filter]
  apply List.filter_congr
  intro use _
  rw [Bool.and_comm]
  exact use.isConflict_and_ne_release

/-- The last use is the greatest among the definition and the readers behind it. -/
theorem isGreatest_lastReader (f : Func) (ctx : Context) (value : Nat) :
    IsGreatest (insert value {position | value < position ∧ f.Reads position value})
      (f.lastReader ctx value) := by
  constructor
  · by_cases h : f.lastReader ctx value = value
    · exact .inl h
    · exact .inr (reads_lastReader ctx h)
  · rintro position (rfl | ⟨hlt, hr⟩)
    · exact f.le_lastReader ctx position
    · exact le_lastReader_of_reads hr hlt

private theorem escapes_eq_false_of_conflictingUses_eq_nil
    (h : f.conflictingUses ctx site.index = []) :
    (f.escapeRecord ctx stackThreshold scalarThreshold site).escapes = false := by
  have hcaptures : f.captures ctx site.index = [] := by
    rw [← filter_conflictingUses, h, List.filter_nil]
  simp [escapeRecord, hcaptures]

/-- Nothing reads the value from the position on in front of which a release is offered. -/
theorem not_reads_of_releasePoint? {k : Nat}
    (h : f.releasePoint? jumps joins site.index (f.lastReader ctx site.index) = some k) :
    ∀ position ≥ k, ¬ f.Reads position site.index := by
  obtain ⟨ret, -, hlast, -, -⟩ := of_releasePoint?_eq_some h
  intro position hk hr
  have hle := f.le_lastReader ctx site.index
  have hread : position ≤ f.lastReader ctx site.index := le_lastReader_of_reads hr (by omega)
  omega

private theorem accords_lifetime (f : Func) (ctx : Context) (jumps : List Jump)
    (joins : StatementSet) (stackThreshold scalarThreshold : Nat) (site : AllocationSite) :
    (f.lifetime ctx jumps joins site).Accords
      (f.escapeRecord ctx stackThreshold scalarThreshold site) f ctx where
  index := rfl
  callee := rfl
  conflicts := rfl
  reasons := congrArg (List.map ValueUse.text) (f.filter_conflictingUses ctx site.index).symm
  lastUse := f.isGreatest_lastReader ctx site.index
  release := by
    intro hfree
    obtain ⟨k, hk⟩ := Option.isSome_iff_exists.mp hfree
    obtain ⟨hconflicts, hpoint⟩ := releaseBefore_lifetime_eq_some.mp hk
    have huses : f.conflictingUses ctx site.index = [] := List.map_eq_nil_iff.mp hconflicts
    exact ⟨escapes_eq_false_of_conflictingUses_eq_nil huses, hconflicts, k, hk,
      not_reads_of_releasePoint? hpoint⟩

/-- The lifetimes are those of the verdicts on manual allocations, in order, and agree with them.
The texts determine the uses that they tell of. -/
theorem lifetimes_accord (f : Func) (ctx : Context)
    (lookahead stackThreshold scalarThreshold : Nat) :
    List.Forall₂ (fun l r ↦ l.Accords r f ctx) (f.lifetimes ctx lookahead)
        ((f.escapeRecords ctx stackThreshold scalarThreshold).filter (·.kind == .manual)) ∧
      Function.Injective ValueUse.text ∧ Function.Injective ValueUse.conflictText := by
  refine ⟨?_, ValueUse.text_injective, ValueUse.conflictText_injective⟩
  rw [lifetimes, escapeRecords, List.filter_map, List.forall₂_map_left_iff,
    List.forall₂_map_right_iff]
  apply List.forall₂_same.mpr
  intro site _
  exact f.accords_lifetime ctx _ _ stackThreshold scalarThreshold site

/-- Two buffers, of which a callee keeps one and gets it twice, and which is released later. -/
def twoBuffers : Func where
  name := "buffers"
  parameterTypes := []
  body := #[
    .call "malloc" [.const (.int 64)] (.concrete "Ptr"),
    .call "malloc" [.const (.int 64)] (.concrete "Ptr"),
    .call "register" [.value 2, .value 2] .nothing,
    .call "free" [.value 2] .nothing,
    .call "unsafe_load" [.value 1] .int,
    .ret none]

/-- Of two buffers, the one that is kept has a conflict more than it has reasons to escape, and the
other is not read where its release is offered. -/
theorem lifetimes_accord_twoBuffers :
    twoBuffers.lifetimes .initial 20 =
        [⟨1, "malloc", 5, [], some 6⟩,
          ⟨2, "malloc", 4,
            ["captured by unknown callee 'register' at #3", "already released at #4"], none⟩] ∧
      (twoBuffers.escapeRecords .initial 4096 256).filter (·.kind == .manual) =
        [⟨1, "malloc", .manual, true, some 64, false, [], true, false⟩,
          ⟨2, "malloc", .manual, true, some 64, true,
            ["passed to unknown callee 'register' at #3"], false, false⟩] ∧
      ∀ position ≥ 6, ¬ twoBuffers.Reads position 1 := by
  have hl : twoBuffers.lifetimes .initial 20 =
      [⟨1, "malloc", 5, [], some 6⟩,
        ⟨2, "malloc", 4,
          ["captured by unknown callee 'register' at #3", "already released at #4"], none⟩] := by
    decide +kernel
  have hr : (twoBuffers.escapeRecords .initial 4096 256).filter (·.kind == .manual) =
      [⟨1, "malloc", .manual, true, some 64, false, [], true, false⟩,
        ⟨2, "malloc", .manual, true, some 64, true,
          ["passed to unknown callee 'register' at #3"], false, false⟩] := by
    decide +kernel
  refine ⟨hl, hr, ?_⟩
  have h := (lifetimes_accord twoBuffers .initial 20 4096 256).1
  rw [hl, hr, List.forall₂_cons] at h
  obtain ⟨-, -, k, hk, hn⟩ := h.1.release rfl
  cases hk
  exact hn

end Func
end SsaAdvisor
