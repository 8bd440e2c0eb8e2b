import SsaAdvisor.Proofs.Dispatch

/-!
# Growth of the hierarchy

A name that the hierarchy does not know is related to every other name, so a parent that is recorded
for it can only tell names apart. The links among the known names stay as they are: no chain of them
leads to a name that is unknown. Main statement: recording parents for unknown names one after the
other withdraws no disjointness of types, and takes candidates from virtual calls without adding
any.
-/

namespace SsaAdvisor

namespace Hierarchy

variable {h h' : Hierarchy} {child parent x y : String} {links : List (String × String)}

/-- Whether the hierarchy tells apart all names that the other one does. -/
def Refines (h h' : Hierarchy) : Prop := ∀ x y, h.related x y = true → h'.related x y = true

/-- Whether each link in turn is recorded for a name that is unknown until then. -/
def recordsUnknown (h : Hierarchy) : List (String × String) → Bool
  | [] => true
  | (child, parent) :: links => !h.knows child && (h.insert child parent).recordsUnknown links

section Insert

variable (hu : h.knows child = false)

include hu

private theorem knows_insert_of_knows (hx : h.knows x = true) :
    (h.insert child parent).knows x = true := by
  have hentries : (h.insert child parent).parents.entries = (child, parent) :: h.parents.entries :=
    NameMap.entries_insert_of_get?_eq_none (parent?_of_unknown hu) parent
  rw [knows, NameMap.anyValue, Bool.or_eq_true] at hx ⊢
  rw [hentries, List.any_cons, Bool.or_eq_true]
  rcases hx with hx | hx
  · left
    show ((h.insert child parent).parent? x).isSome = true
    rw [parent?_insert]
    split
    · rfl
    · exact hx
  · exact .inr (.inr hx)

private theorem ancestor?_insert_of_knows (hx : h.knows x = true) (i : Nat) :
    (h.insert child parent).ancestor? i x = h.ancestor? i x := by
  induction i generalizing x with
  | zero => rfl
  | succ i ih =>
    have hne : x ≠ child := by
      rintro rfl
      rw [hu] at hx
      cases hx
    rw [ancestor?, ancestor?, parent?_insert, if_neg hne]
    cases hp : h.parent? x with
    | none => rfl
    | some parent' => exact ih (knows_of_parent? hp)

private theorem isNamedSubtype_insert_of_knows (hx : h.knows x = true) :
    (h.insert child parent).isNamedSubtype x y = h.isNamedSubtype x y := by
  rw [Bool.eq_iff_iff, isNamedSubtype_iff_exists, isNamedSubtype_iff_exists]
  simp only [ancestor?_insert_of_knows hu hx]

private theorem refines_insert (parent : String) : (h.insert child parent).Refines h := by
  intro x y hr
  by_cases hx : h.knows x = true
  · by_cases hy : h.knows y = true
    · simpa [related, hx, hy, knows_insert_of_knows hu, isNamedSubtype_insert_of_knows hu] using hr
    · simp [related, hy]
  · simp [related, hx]

end Insert

/-- With parents for unknown names, all names stay apart that were told apart. -/
theorem refines_insertAll (hnew : h.recordsUnknown links = true) :
    (h.insertAll links).Refines h := by
  induction links generalizing h with
  | nil => exact fun _ _ hr ↦ hr
  | cons link links ih =>
    rw [recordsUnknown, Bool.and_eq_true, Bool.not_eq_true'] at hnew
    intro x y hr
    exact refines_insert hnew.1 link.2 x y (ih hnew.2 x y hr)

mutual
/-- Types that intersect still do where fewer names are told apart. -/
theorem intersects_of_refines (hr : h.Refines h') :
    ∀ a b : Ty, h.intersects a b = true → h'.intersects a b = true
  | .top, _ | .union _, .top | .concrete _, .top | .abstract _, .top | .container _ _, .top => by
    simp [intersects]
  | .union as, .union _ | .union as, .concrete _ | .union as, .abstract _
  | .union as, .container _ _ => by
    simpa only [intersects] using anyIntersects_of_refines hr as _
  | .concrete _, .union bs | .abstract _, .union bs | .container _ _, .union bs => by
    simpa only [intersects] using anyIntersects_of_refines hr bs _
  | .concrete _, .concrete _ | .concrete _, .container _ _ | .container _ _, .concrete _ => by
    simp [intersects]
  | .concrete x, .abstract y | .abstract y, .concrete x | .abstract x, .abstract y
  | .container x _, .abstract y | .abstract y, .container x _ => by
    rw [intersects, intersects]
    exact hr x y
  | .container x as, .container y bs => by
    simp only [intersects, Bool.and_eq_true, Bool.or_eq_true]
    rintro ⟨hxy, hargs⟩
    exact ⟨hr x y hxy, hargs.imp_right (allPairsIntersect_of_refines hr as bs)⟩
termination_by a b => sizeOf a + sizeOf b

private theorem anyIntersects_of_refines (hr : h.Refines h') :
    ∀ (as : List Ty) (b : Ty), h.anyIntersects as b = true → h'.anyIntersects as b = true
  | [], _ => by simp [anyIntersects]
  | a :: as, b => by
    rw [anyIntersects, anyIntersects, Bool.or_eq_true, Bool.or_eq_true]
    exact Or.imp (intersects_of_refines hr a b) (anyIntersects_of_refines hr as b)
termination_by as b => sizeOf as + sizeOf b

private theorem allPairsIntersect_of_refines (hr : h.Refines h') :
    ∀ as bs : List Ty, h.allPairsIntersect as bs = true → h'.allPairsIntersect as bs = true
  | [], _ | _ :: _, [] => by simp [allPairsIntersect]
  | a :: as, b :: bs => by
    rw [allPairsIntersect, allPairsIntersect, Bool.and_eq_true, Bool.and_eq_true]
    exact And.imp (intersects_of_refines hr a b) (allPairsIntersect_of_refines hr as bs)
termination_by as bs => sizeOf as + sizeOf bs
end

end Hierarchy

private theorem Context.candidates_of_refines {h h' : Hierarchy} (hr : h.Refines h') (ctx : Context)
    (callee : String) (receiver : Ty) :
    (({ ctx with hierarchy := h } : Context).candidates callee receiver).toList ⊆
      (({ ctx with hierarchy := h' } : Context).candidates callee receiver).toList := by
  intro s hs
  rw [mem_candidates] at hs ⊢
  obtain ⟨hregistered, ty, hty, hi⟩ := hs
  exact ⟨hregistered, ty, hty, Hierarchy.intersects_of_refines hr ty receiver hi⟩

namespace VirtualCall

/-- The same virtual call with no further candidates, and dispatched according to those left. -/
structure NarrowsTo (call call' : VirtualCall) : Prop where
  same : call' = { call with candidates := call'.candidates, strategy := call'.strategy }
  candidates : call'.candidates.toList ⊆ call.candidates.toList

/-- The virtual call with the candidates of another context. -/
def retarget (ctx : Context) (maxSwitchTargets : Nat) (call : VirtualCall) : VirtualCall :=
  let candidates := ctx.candidates call.callee call.receiverType
  { call with candidates, strategy := .ofCount candidates.size maxSwitchTargets }

end VirtualCall

namespace Func

private theorem virtualCall?_retarget (f : Func) (ctx : Context) (h : Hierarchy) (p : Propagation)
    (maxSwitchTargets : Nat) (numbered : Statement × Nat) :
    f.virtualCall? { ctx with hierarchy := h } p maxSwitchTargets numbered =
      (f.virtualCall? ctx p maxSwitchTargets numbered).map
        (Option.map (.retarget { ctx with hierarchy := h } maxSwitchTargets)) := by
  unfold virtualCall?
  split
  · split
    · rfl
    · cases f.operandType _ _ with
      | error defect => rfl
      | ok receiverType =>
        simp only [bind, Except.bind]
        split <;> rfl
  · rfl

/-- With a hierarchy that tells more names apart the same virtual calls are found, with no further
candidates. -/
theorem virtualCalls_of_refines {h h' : Hierarchy} (hr : h'.Refines h) (f : Func) (ctx : Context)
    {maxSwitchTargets lookahead : Nat} {calls : List VirtualCall}
    (hcalls : f.virtualCalls { ctx with hierarchy := h } maxSwitchTargets lookahead = .ok calls) :
    ∃ calls', f.virtualCalls { ctx with hierarchy := h' } maxSwitchTargets lookahead = .ok calls' ∧
      List.Forall₂ VirtualCall.NarrowsTo calls calls' := by
  obtain ⟨found, hfound, hreduce⟩ := virtualCalls_eq_ok_iff.mp hcalls
  have hfound' := mapM_eq_ok_map _
    (f.virtualCall?_retarget { ctx with hierarchy := h } h' _ maxSwitchTargets) hfound
  refine ⟨_, virtualCalls_eq_ok_iff.mpr ⟨_, hfound', rfl⟩, ?_⟩
  rw [List.reduceOption_map, hreduce, List.forall₂_map_right_iff, List.forall₂_same]
  intro call hc
  obtain ⟨s, -, hcall⟩ := exists_of_mem_virtualCalls hcalls hc
  obtain ⟨_, _, _, _, _, -, -, -, -, hrecord⟩ := virtualCall?_eq_ok_some_iff.mp hcall
  have hcandidates : call.candidates =
      ({ ctx with hierarchy := h } : Context).candidates call.callee call.receiverType := by
    rw [hrecord]
  refine ⟨rfl, ?_⟩
  rw [hcandidates]
  exact Context.candidates_of_refines hr ctx _ _

/-- A function that shows a value of an unknown type. -/
def showCircle : Func where
  name := "show_circle"
  parameterTypes := [.abstract "Circle"]
  body := #[.call "show" [.argument 1] .nothing, .ret none]

end Func

namespace Hierarchy

/-- Types that intersect once a parent is recorded for an unknown name did so before. So while
parents are recorded for unknown names one after the other, no disjointness is withdrawn, and every
function keeps its virtual calls, with no further candidates. -/
theorem growth_only_separates (h : Hierarchy) :
    (∀ child parent, h.knows child = false →
      ∀ a b, (h.insert child parent).intersects a b = true → h.intersects a b = true) ∧
    ∀ links, h.recordsUnknown links = true →
      (∀ a b, h.intersects a b = false → (h.insertAll links).intersects a b = false) ∧
      ∀ (f : Func) (ctx : Context) (maxSwitchTargets lookahead : Nat) (calls : List VirtualCall),
        f.virtualCalls { ctx with hierarchy := h } maxSwitchTargets lookahead = .ok calls →
          ∃ calls', f.virtualCalls { ctx with hierarchy := h.insertAll links }
              maxSwitchTargets lookahead = .ok calls' ∧
            List.Forall₂ VirtualCall.NarrowsTo calls calls' := by
  refine ⟨?_, ?_⟩
  · intro child parent hu
    exact intersects_of_refines (refines_insert hu parent)
  · intro links hnew
    have hr := refines_insertAll hnew
    refine ⟨?_, ?_⟩
    · intro a b hd
      rw [← Bool.not_eq_true] at hd ⊢
      exact mt (intersects_of_refines hr a b) hd
    · intro f ctx maxSwitchTargets lookahead calls hcalls
      exact Func.virtualCalls_of_refines hr f ctx hcalls

/-- Where figures are placed. -/
def figures : List (String × String) := [("Shape", "Figure"), ("Circle", "Shape")]

/-- A circle may be shown by every method until it is recorded where it belongs, then by none. -/
theorem growth_only_separates_showCircle :
    builtin.knows "Shape" = false ∧ builtin.recordsUnknown figures = true ∧
      builtin.intersects (.abstract "Shape") (.abstract "Figure") = true ∧
      (builtin.insertAll figures).intersects (.abstract "Integer") .string = false ∧
      ∃ call call' : VirtualCall,
        Func.showCircle.virtualCalls { Func.shows with hierarchy := builtin } 4 20 = .ok [call] ∧
        Func.showCircle.virtualCalls { Func.shows with hierarchy := builtin.insertAll figures }
          4 20 = .ok [call'] ∧
        call.candidates.size = 3 ∧ call'.candidates.size = 0 ∧ call.NarrowsTo call' := by
  have hu : builtin.knows "Shape" = false := by decide +kernel
  have hnew : builtin.recordsUnknown figures = true := by decide +kernel
  have hcalls : Func.showCircle.virtualCalls { Func.shows with hierarchy := builtin } 4 20 =
      .ok [⟨1, "show", .abstract "Circle", ⟨[⟨"show", [.string]⟩,
        ⟨"show", [.abstract "AbstractFloat"]⟩, ⟨"show", [.abstract "Signed"]⟩]⟩, .switch, true,
        false⟩] := by decide +kernel
  have hcalls' : Func.showCircle.virtualCalls
      { Func.shows with hierarchy := builtin.insertAll figures } 4 20 =
        .ok [⟨1, "show", .abstract "Circle", ⟨[]⟩, .none, true, false⟩] := by decide +kernel
  obtain ⟨hinsert, hinsertAll⟩ := growth_only_separates builtin
  obtain ⟨hdisjoint, hnarrows⟩ := hinsertAll figures hnew
  refine ⟨hu, hnew, hinsert "Shape" "Figure" hu _ _ (by decide +kernel),
    hdisjoint _ _ (by decide +kernel), _, _, hcalls, hcalls', rfl, rfl, ?_⟩
  obtain ⟨_, hfound, hcandidates⟩ := hnarrows Func.showCircle Func.shows 4 20 _ hcalls
  obtain rfl := Except.ok.inj (hcalls'.symm.trans hfound)
  exact (List.forall₂_cons.mp hcandidates).1

end Hierarchy
end SsaAdvisor
