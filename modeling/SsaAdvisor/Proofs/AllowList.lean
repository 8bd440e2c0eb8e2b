import Mathlib.Data.List.Forall2
import SsaAdvisor.Proofs.ReleasePoint

/-!
# Callees of known behaviour

To add a callee to one of the lists of a context changes how its uses of a value are classified: as
before, or as the kind that the list stands for. Where that kind is no capture, reasons to escape
can only go away; where it is one, an allocation that has none left has the uses that it had. The
same holds of conflicts with a release, one of which is to release the value already. Allocations,
propagation and last uses do not depend on the lists.
-/

namespace SsaAdvisor

/-- A context with other lists of callees, by which each use is classified as before or as the given
kind. -/
structure Context.Reclassifies (ctx ctx' : Context) (kind : UseKind) : Prop where
  same : ∃ safeReads releases globalStores,
    ctx' = { ctx with
      safeReads := safeReads
      releases := releases
      globalStores := globalStores }
  useKind : ∀ (f : Func) (s : Statement),
    f.useKind ctx' s = f.useKind ctx s ∨ f.useKind ctx' s = kind

/-- The verdict on the same allocation, which escapes no more and is promoted no less. -/
structure EscapeRecord.EscapesNoMore (r r' : EscapeRecord) : Prop where
  same : r' = { r with
    escapes := r'.escapes
    reasons := r'.reasons
    canStackPromote := r'.canStackPromote
    canScalarReplace := r'.canScalarReplace }
  escapes : r'.escapes = true → r.escapes = true
  canStackPromote : r.canStackPromote = true → r'.canStackPromote = true
  canScalarReplace : r.canScalarReplace = true → r'.canScalarReplace = true

/-- The lifetime of the same allocation with the same last use, released at the same position if it
can be released in both. -/
structure Lifetime.SameUse (l l' : Lifetime) : Prop where
  same : l' = { l with conflicts := l'.conflicts, releaseBefore := l'.releaseBefore }
  releaseBefore : ∀ k k', l.releaseBefore = some k → l'.releaseBefore = some k' → k' = k

namespace Context

private theorem reclassifies_withSafeRead (ctx : Context) (callee : String) :
    ctx.Reclassifies (ctx.withSafeRead callee) .safeRead := by
  refine ⟨⟨_, _, _, rfl⟩, ?_⟩
  intro f s
  cases s with
  | call other args resultType =>
    have hr : (ctx.withSafeRead callee).isRelease other = ctx.isRelease other := rfl
    have hg : (ctx.withSafeRead callee).isGlobalStore other = ctx.isGlobalStore other := rfl
    simp only [Func.useKind, hr, hg, isSafeRead_withSafeRead]
    cases ctx.isRelease other <;> cases ctx.isGlobalStore other <;> cases other == callee <;> simp
  | _ => exact .inl rfl

private theorem reclassifies_withGlobalStore (ctx : Context) (callee : String) :
    ctx.Reclassifies (ctx.withGlobalStore callee) .globalStore := by
  refine ⟨⟨_, _, _, rfl⟩, ?_⟩
  intro f s
  cases s with
  | call other args resultType =>
    have hr : (ctx.withGlobalStore callee).isRelease other = ctx.isRelease other := rfl
    have hs : (ctx.withGlobalStore callee).isSafeRead other = ctx.isSafeRead other := rfl
    simp only [Func.useKind, hr, hs, isGlobalStore_withGlobalStore]
    cases ctx.isRelease other <;> cases other == callee <;> simp
  | _ => exact .inl rfl

private theorem reclassifies_withRelease (ctx : Context) (callee : String) :
    ctx.Reclassifies (ctx.withRelease callee) .release := by
  refine ⟨⟨_, _, _, rfl⟩, ?_⟩
  intro f s
  cases s with
  | call other args resultType =>
    have hg : (ctx.withRelease callee).isGlobalStore other = ctx.isGlobalStore other := rfl
    have hs : (ctx.withRelease callee).isSafeRead other = ctx.isSafeRead other := rfl
    simp only [Func.useKind, hg, hs, isRelease_withRelease]
    cases other == callee <;> simp
  | _ => exact .inl rfl

end Context

section MappedFilter

variable {α β : Type} {g g' : α → β} {test : β → Bool}

private theorem filter_map_sublist (h : ∀ a, g' a = g a ∨ test (g' a) = false) (as : List α) :
    ((as.map g').filter test).Sublist ((as.map g).filter test) := by
  induction as with
  | nil => exact .slnil
  | cons a as ih =>
    rw [List.map_cons, List.map_cons]
    rcases h a with hsame | hfails
    · rw [hsame, List.filter_cons, List.filter_cons]
      split
      · exact ih.cons_cons _
      · exact ih
    · rw [List.filter_cons_of_neg (Bool.not_eq_true _ ▸ hfails)]
      exact ih.trans ((List.sublist_cons_self _ _).filter _)

private theorem map_eq_of_filter_eq_nil {as : List α} (h : ∀ a, g' a = g a ∨ test (g' a) = true)
    (hnone : (as.map g').filter test = []) : as.map g' = as.map g := by
  refine List.map_congr_left ?_
  intro a ha
  rcases h a with hsame | hpasses
  · exact hsame
  · exact absurd hpasses (List.filter_eq_nil_iff.mp hnone _ (List.mem_map_of_mem ha))

end MappedFilter

namespace Context.Reclassifies

variable {f : Func} {ctx ctx' : Context} {kind : UseKind} {test : ValueUse → Bool} {value : Nat}

/-- The allocations are the same. -/
theorem allocationSites (h : ctx.Reclassifies ctx' kind) (f : Func) :
    f.allocationSites ctx' = f.allocationSites ctx := by
  obtain ⟨_, _, _, rfl⟩ := h.same
  rfl

/-- Propagation finds the same. -/
theorem propagate (h : ctx.Reclassifies ctx' kind) (f : Func) (lookahead : Nat) :
    f.propagate ctx' lookahead = f.propagate ctx lookahead := by
  obtain ⟨_, _, _, rfl⟩ := h.same
  rfl

private theorem use_eq_or (h : ctx.Reclassifies ctx' kind) (f : Func) (s : Statement)
    (position : Nat) :
    (⟨position, f.useKind ctx' s⟩ : ValueUse) = ⟨position, f.useKind ctx s⟩ ∨
      (⟨position, f.useKind ctx' s⟩ : ValueUse) = ⟨position, kind⟩ :=
  (h.useKind f s).imp (congrArg _) (congrArg _)

/-- If uses of the kind fail a test, those that pass it are among those that did. -/
theorem filter_sublist (h : ctx.Reclassifies ctx' kind) (hk : ∀ i, test ⟨i, kind⟩ = false)
    (f : Func) (value : Nat) :
    ((f.forwardUses ctx' value).filter test).Sublist ((f.forwardUses ctx value).filter test) := by
  apply filter_map_sublist
  rintro ⟨s, position⟩
  exact (h.use_eq_or f s position).imp_right fun hkind ↦ (congrArg test hkind).trans (hk position)

private theorem forwardUses_eq (h : ctx.Reclassifies ctx' kind) (hk : ∀ i, test ⟨i, kind⟩ = true)
    (hnone : (f.forwardUses ctx' value).filter test = []) :
    f.forwardUses ctx' value = f.forwardUses ctx value := by
  refine map_eq_of_filter_eq_nil ?_ hnone
  rintro ⟨s, position⟩
  exact (h.use_eq_or f s position).imp_right fun hkind ↦ (congrArg test hkind).trans (hk position)

end Context.Reclassifies

namespace Func

variable {f : Func} {ctx ctx' : Context} {kind : UseKind}

private theorem escapesNoMore_of_captures {stackThreshold scalarThreshold : Nat}
    {site : AllocationSite} (h : f.captures ctx site.index = [] → f.captures ctx' site.index = []) :
    (f.escapeRecord ctx stackThreshold scalarThreshold site).EscapesNoMore
      (f.escapeRecord ctx' stackThreshold scalarThreshold site) := by
  refine ⟨rfl, ?_, ?_, ?_⟩
  · simp only [escapeRecord, List.isEmpty_map, Bool.not_eq_true', ← Bool.not_eq_true,
      List.isEmpty_iff]
    exact mt h
  · simp only [escapeRecord, List.isEmpty_map, Bool.and_eq_true, Bool.not_not, List.isEmpty_iff]
    exact And.imp_left h
  · simp only [escapeRecord, List.isEmpty_map, Bool.and_eq_true, Bool.not_not, List.isEmpty_iff]
    exact And.imp_right (And.imp_left h)

/-- Where the kind is no capture, allocations escape no more, and for some of the same reasons. -/
theorem escapeRecords_of_not_isCapture (h : ctx.Reclassifies ctx' kind)
    (hk : kind.isCapture = false) (f : Func) (stackThreshold scalarThreshold : Nat) :
    List.Forall₂ (fun r r' ↦ r.EscapesNoMore r' ∧ r'.reasons.Sublist r.reasons)
      (f.escapeRecords ctx stackThreshold scalarThreshold)
      (f.escapeRecords ctx' stackThreshold scalarThreshold) := by
  rw [escapeRecords, escapeRecords, h.allocationSites, List.forall₂_map_left_iff,
    List.forall₂_map_right_iff, List.forall₂_same]
  intro site _
  have hsub : (f.captures ctx' site.index).Sublist (f.captures ctx site.index) :=
    h.filter_sublist (fun _ ↦ hk) f site.index
  refine ⟨escapesNoMore_of_captures ?_, hsub.map ValueUse.text⟩
  intro hnone
  rwa [hnone, List.sublist_nil] at hsub

/-- Where the kind is a capture, allocations escape no less. -/
theorem escapeRecords_of_isCapture (h : ctx.Reclassifies ctx' kind) (hk : kind.isCapture = true)
    (f : Func) (stackThreshold scalarThreshold : Nat) :
    List.Forall₂ (fun r r' ↦ r'.EscapesNoMore r)
      (f.escapeRecords ctx stackThreshold scalarThreshold)
      (f.escapeRecords ctx' stackThreshold scalarThreshold) := by
  rw [escapeRecords, escapeRecords, h.allocationSites, List.forall₂_map_left_iff,
    List.forall₂_map_right_iff, List.forall₂_same]
  intro site _
  apply escapesNoMore_of_captures
  intro hnone
  rwa [captures, h.forwardUses_eq (fun _ ↦ hk) hnone] at hnone

private theorem forall₂_lifetimes (h : ctx.Reclassifies ctx' kind) {R : Lifetime → Lifetime → Prop}
    (hR : ∀ jumps joins site,
      R (f.lifetime ctx jumps joins site) (f.lifetime ctx' jumps joins site)) (lookahead : Nat) :
    List.Forall₂ R (f.lifetimes ctx lookahead) (f.lifetimes ctx' lookahead) := by
  rw [lifetimes, lifetimes, h.allocationSites, h.propagate, List.forall₂_map_left_iff,
    List.forall₂_map_right_iff, List.forall₂_same]
  exact fun site _ ↦ hR _ _ site

section Lifetime

variable {jumps : List Jump} {joins : StatementSet} {site : AllocationSite}

/-- In every context an allocation has the same last use, and releases it at the same position. -/
theorem sameUse_lifetime (f : Func) (ctx ctx' : Context) :
    (f.lifetime ctx jumps joins site).SameUse (f.lifetime ctx' jumps joins site) := by
  constructor
  · have hlast : (f.lifetime ctx' jumps joins site).lastUse =
        (f.lifetime ctx jumps joins site).lastUse := f.lastReader_eq ctx ctx' site.index
    simp only [lifetime] at hlast ⊢
    rw [hlast]
  · intro k k' hk hk'
    have hpoint := (releaseBefore_lifetime_eq_some.mp hk).2
    have hpoint' := (releaseBefore_lifetime_eq_some.mp hk').2
    rw [f.lastReader_eq ctx ctx', hpoint] at hpoint'
    exact (Option.some.inj hpoint').symm

private theorem releaseBefore_of_conflicts {k : Nat}
    (h : (f.lifetime ctx jumps joins site).conflicts = [] →
      (f.lifetime ctx' jumps joins site).conflicts = [])
    (hk : (f.lifetime ctx jumps joins site).releaseBefore = some k) :
    (f.lifetime ctx' jumps joins site).releaseBefore = some k := by
  rw [releaseBefore_lifetime_eq_some] at hk ⊢
  rw [f.lastReader_eq ctx ctx']
  exact hk.imp_left h

end Lifetime

/-- Where the kind is no conflict, some of the same conflicts are left, and releases stay where they
were. -/
theorem lifetimes_of_not_isConflict (h : ctx.Reclassifies ctx' kind)
    (hk : ∀ i, ValueUse.isConflict ⟨i, kind⟩ = false) (f : Func) (lookahead : Nat) :
    List.Forall₂ (fun l l' ↦ l.SameUse l' ∧ l'.conflicts.Sublist l.conflicts ∧
        ∀ k, l.releaseBefore = some k → l'.releaseBefore = some k)
      (f.lifetimes ctx lookahead) (f.lifetimes ctx' lookahead) := by
  refine forall₂_lifetimes h ?_ lookahead
  intro jumps joins site
  have hsub : (f.lifetime ctx' jumps joins site).conflicts.Sublist
      (f.lifetime ctx jumps joins site).conflicts :=
    (h.filter_sublist hk f site.index).map ValueUse.conflictText
  refine ⟨f.sameUse_lifetime ctx ctx', hsub, fun k ↦ releaseBefore_of_conflicts ?_⟩
  intro hnone
  rwa [hnone, List.sublist_nil] at hsub

/-- Where the kind is a conflict, no release is offered that was not. -/
theorem lifetimes_of_isConflict (h : ctx.Reclassifies ctx' kind)
    (hk : ∀ i, ValueUse.isConflict ⟨i, kind⟩ = true) (f : Func) (lookahead : Nat) :
    List.Forall₂ (fun l l' ↦ l.SameUse l' ∧ (l'.canAutoFree = true → l.canAutoFree = true))
      (f.lifetimes ctx lookahead) (f.lifetimes ctx' lookahead) := by
  refine forall₂_lifetimes h ?_ lookahead
  intro jumps joins site
  refine ⟨f.sameUse_lifetime ctx ctx', ?_⟩
  intro hfree
  obtain ⟨k, hk'⟩ := Option.isSome_iff_exists.mp hfree
  refine Option.isSome_iff_exists.mpr ⟨k, releaseBefore_of_conflicts ?_ hk'⟩
  intro hnone
  have huses := h.forwardUses_eq hk (List.map_eq_nil_iff.mp hnone)
  simp only [lifetime, huses] at hnone
  exact hnone

/-- To add a callee to a list of the context leaves allocations, sizes and last uses as they are,
and an allocation that can be released before and after is so at the same position. A callee that
only reads takes away reasons and conflicts, so that fewer allocations escape, promotions stay and
releases stay where they were. With one that stores globally no fewer allocations escape, and none
is promoted or released that was not. With one that releases no more allocations escape, and yet
none is released that was not. -/
theorem allowLists_monotone (f : Func) (ctx : Context) (callee : String)
    (stackThreshold scalarThreshold lookahead : Nat) :
    (List.Forall₂ (fun r r' ↦ r.EscapesNoMore r' ∧ r'.reasons.Sublist r.reasons)
        (f.escapeRecords ctx stackThreshold scalarThreshold)
        (f.escapeRecords (ctx.withSafeRead callee) stackThreshold scalarThreshold) ∧
      List.Forall₂ (fun l l' ↦ l.SameUse l' ∧ l'.conflicts.Sublist l.conflicts ∧
          ∀ k, l.releaseBefore = some k → l'.releaseBefore = some k)
        (f.lifetimes ctx lookahead) (f.lifetimes (ctx.withSafeRead callee) lookahead)) ∧
      (List.Forall₂ (fun r r' ↦ r'.EscapesNoMore r)
        (f.escapeRecords ctx stackThreshold scalarThreshold)
        (f.escapeRecords (ctx.withGlobalStore callee) stackThreshold scalarThreshold) ∧
      List.Forall₂ (fun l l' ↦ l.SameUse l' ∧ (l'.canAutoFree = true → l.canAutoFree = true))
        (f.lifetimes ctx lookahead) (f.lifetimes (ctx.withGlobalStore callee) lookahead)) ∧
      (List.Forall₂ (fun r r' ↦ r.EscapesNoMore r' ∧ r'.reasons.Sublist r.reasons)
        (f.escapeRecords ctx stackThreshold scalarThreshold)
        (f.escapeRecords (ctx.withRelease callee) stackThreshold scalarThreshold) ∧
      List.Forall₂ (fun l l' ↦ l.SameUse l' ∧ (l'.canAutoFree = true → l.canAutoFree = true))
        (f.lifetimes ctx lookahead) (f.lifetimes (ctx.withRelease callee) lookahead)) := by
  have hread := ctx.reclassifies_withSafeRead callee
  have hstore := ctx.reclassifies_withGlobalStore callee
  have hrelease := ctx.reclassifies_withRelease callee
  refine ⟨⟨?_, ?_⟩, ⟨?_, ?_⟩, ?_, ?_⟩
  · exact escapeRecords_of_not_isCapture hread rfl f _ _
  · exact lifetimes_of_not_isConflict hread (fun _ ↦ rfl) f _
  · exact escapeRecords_of_isCapture hstore rfl f _ _
  · exact lifetimes_of_isConflict hstore (fun _ ↦ rfl) f _
  · exact escapeRecords_of_not_isCapture hrelease rfl f _ _
  · exact lifetimes_of_isConflict hrelease (fun _ ↦ rfl) f _

end Func
end SsaAdvisor
