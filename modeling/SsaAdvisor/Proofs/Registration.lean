import Mathlib.Data.Set.Card
import SsaAdvisor.Advisor
import SsaAdvisor.Proofs.Dispatch

/-!
# Registration of methods

A table is filled by registering signatures one after the other. It then holds each of them once,
under its name, and the order of registration shows in nothing but the order of a lookup. The passes
that look methods up put what they find into ordered sets, and an ordered set does not tell in which
order it was filled. Main statement: tables that are filled with the same set of signatures, in any
order and with any repetitions, give equal reports.
-/

namespace SsaAdvisor

private theorem isEmpty_congr {α : Type} {xs ys : List α} (h : ∀ x, x ∈ xs ↔ x ∈ ys) :
    xs.isEmpty = ys.isEmpty := by
  rw [Bool.eq_iff_iff, List.isEmpty_iff, List.isEmpty_iff, List.eq_nil_iff_forall_not_mem,
    List.eq_nil_iff_forall_not_mem]
  simp only [h]

namespace MethodTable

/-- A table that holds the signatures of a set, each once and under its name, and no others. -/
structure Holds (t : MethodTable) (members : Set Signature) : Prop where
  isSome_lookup? : ∀ name, (t.lookup? name).isSome = true ↔ ∃ s ∈ members, s.name = name
  mem_lookup? : ∀ name found, t.lookup? name = some found →
    ∀ s, s ∈ found ↔ s ∈ members ∧ s.name = name
  nodup_lookup? : ∀ name found, t.lookup? name = some found → found.Nodup
  size : t.size = {name | ∃ s ∈ members, s.name = name}.ncard

/-- Tables in which every lookup finds the same signatures, in some order. -/
def SameLookups (t t' : MethodTable) : Prop :=
  ∀ name, Option.Rel List.Perm (t.lookup? name) (t'.lookup? name)

variable {t t' : MethodTable} {name : String} {s : Signature} {found : List Signature}

/-- As many names are registered as there are names under which something is found. -/
theorem size_eq_ncard (t : MethodTable) :
    t.size = {name | (t.lookup? name).isSome = true}.ncard := by
  have hnames : {name | (t.lookup? name).isSome = true} =
      (t.methods.names.toFinset : Set String) := by
    ext name
    rw [List.coe_toFinset, Set.mem_ofPred_eq, Set.mem_ofPred_eq, NameMap.mem_names, lookup?]
  have hnodup : t.methods.names.Nodup := t.methods.nodup
  rw [hnames, Set.ncard_coe_finset, List.toFinset_card_of_nodup hnodup, NameMap.names,
    List.length_map]
  rfl

private theorem mem_lookup?_filled {signatures : List Signature} :
    s ∈ ((empty.registerAll signatures).lookup? name).getD [] ↔ s ∈ signatures ∧ s.name = name := by
  rw [mem_lookup?_registerAll]
  exact or_iff_right List.not_mem_nil

/-- A table holds the signatures that it was filled with. -/
theorem holds_registerAll (signatures : List Signature) :
    (empty.registerAll signatures).Holds {s | s ∈ signatures} := by
  have hsome : ∀ name, ((empty.registerAll signatures).lookup? name).isSome = true ↔
      ∃ s ∈ {s | s ∈ signatures}, s.name = name := by
    intro name
    simp only [isSome_lookup?_iff, mem_lookup?_filled, Set.mem_ofPred_eq]
  refine ⟨hsome, fun name found hfound s ↦ ?_, nodup _, ?_⟩
  · rw [Set.mem_ofPred_eq, ← mem_lookup?_filled, hfound, Option.getD_some]
  · simp only [size_eq_ncard, hsome]

/-- Tables that were filled with the same set of signatures have the same lookups. -/
theorem sameLookups_registerAll {signatures signatures' : List Signature}
    (h : ∀ s, s ∈ signatures ↔ s ∈ signatures') :
    (empty.registerAll signatures).SameLookups (empty.registerAll signatures') := by
  intro name
  have hmem : ∀ s, s ∈ ((empty.registerAll signatures).lookup? name).getD [] ↔
      s ∈ ((empty.registerAll signatures').lookup? name).getD [] := by
    intro s
    rw [mem_lookup?_filled, mem_lookup?_filled, h]
  have hsome : ((empty.registerAll signatures).lookup? name).isSome =
      ((empty.registerAll signatures').lookup? name).isSome := by
    rw [Bool.eq_iff_iff, isSome_lookup?_iff, isSome_lookup?_iff]
    simp only [hmem]
  cases hfound : (empty.registerAll signatures).lookup? name with
  | none =>
    rw [hfound, Option.isSome_none, eq_comm, Option.isSome_eq_false_iff,
      Option.isNone_iff_eq_none] at hsome
    rw [hsome]
    exact .none
  | some found =>
    rw [hfound, Option.isSome_some, eq_comm] at hsome
    obtain ⟨found', hfound'⟩ := Option.isSome_iff_exists.mp hsome
    simp only [hfound, hfound', Option.getD_some] at hmem
    rw [hfound']
    exact .some ((List.perm_ext_iff_of_nodup (nodup _ _ _ hfound) (nodup _ _ _ hfound')).mpr hmem)

namespace SameLookups

private theorem isSome_lookup?_eq (h : t.SameLookups t') (name : String) :
    (t.lookup? name).isSome = (t'.lookup? name).isSome := by
  have hname := h name
  generalize t.lookup? name = found, t'.lookup? name = found' at hname ⊢
  cases hname <;> rfl

private theorem mem_lookup?_iff (h : t.SameLookups t') (name : String) (s : Signature) :
    s ∈ (t.lookup? name).getD [] ↔ s ∈ (t'.lookup? name).getD [] := by
  have hname := h name
  generalize t.lookup? name = found, t'.lookup? name = found' at hname ⊢
  cases hname with
  | some hperm => exact hperm.mem_iff
  | none => exact Iff.rfl

end SameLookups
end MethodTable

section SameLookups

variable {t t' : MethodTable}

private theorem Context.candidates_of_sameLookups (h : t.SameLookups t') (ctx : Context) :
    ({ ctx with methods := t } : Context).candidates =
      ({ ctx with methods := t' } : Context).candidates := by
  funext callee receiver
  apply SortedSet.ofList_congr
  intro s
  simp only [List.mem_filter, h.mem_lookup?_iff callee s]

private theorem Func.virtualCalls_of_sameLookups (h : t.SameLookups t') (f : Func) (ctx : Context)
    (maxSwitchTargets lookahead : Nat) :
    f.virtualCalls { ctx with methods := t } maxSwitchTargets lookahead =
      f.virtualCalls { ctx with methods := t' } maxSwitchTargets lookahead := by
  have hcall : f.virtualCall? { ctx with methods := t } =
      f.virtualCall? { ctx with methods := t' } := by
    funext p maxSwitchTargets numbered
    unfold virtualCall?
    simp only [Context.candidates_of_sameLookups h, h.isSome_lookup?_eq]
  unfold virtualCalls
  rw [hcall]
  rfl

namespace Specialization

private theorem openParameter_congr {methods methods' : List Signature}
    (h : ∀ s, s ∈ methods ↔ s ∈ methods') (ctx : Context) (position : Nat) (nested : Option Nat)
    (declared : Ty) :
    openParameter ctx methods position nested declared =
      openParameter ctx methods' position nested declared := by
  have hmem : ∀ ty, ty ∈ observed ctx methods position nested declared ↔
      ty ∈ observed ctx methods' position nested declared := by
    intro ty
    simp only [observed, List.mem_append, List.mem_filter, List.mem_filterMap, h]
  simp only [openParameter, isEmpty_congr hmem]
  split
  · rw [SortedSet.ofList_congr hmem]
  · rfl

private theorem ofSignature_of_sameLookups (h : t.SameLookups t') (ctx : Context)
    (signature : Signature) :
    ofSignature { ctx with methods := t } signature =
      ofSignature { ctx with methods := t' } signature := by
  have hparameters : openParameters { ctx with methods := t } signature =
      openParameters { ctx with methods := t' } signature := by
    simp only [openParameters, openParameter_congr (h.mem_lookup?_iff signature.name)]
    rfl
  simp only [ofSignature, hparameters]

end Specialization

/-- The report on a function does not depend on the order of lookups. -/
theorem Advisor.report_of_sameLookups (h : t.SameLookups t') (ctx : Context) (settings : Settings)
    (f : Func) :
    (⟨{ ctx with methods := t }, settings⟩ : Advisor).report f =
      (⟨{ ctx with methods := t' }, settings⟩ : Advisor).report f := by
  have hresults : (⟨{ ctx with methods := t }, settings⟩ : Advisor).results f =
      (⟨{ ctx with methods := t' }, settings⟩ : Advisor).results f := by
    simp only [results_eq, Func.virtualCalls_of_sameLookups h,
      Specialization.ofSignature_of_sameLookups h]
    rfl
  simp only [report, hresults]
  rfl

end SameLookups

namespace Advisor

/-- Tables that are filled with the same set of signatures, in any order and with any repetitions,
hold each of them once and no others, find the same up to order, and have equally many names; and
every function has equal reports with them. -/
theorem report_registerAll_eq {signatures signatures' : List Signature}
    (h : ∀ s, s ∈ signatures ↔ s ∈ signatures') :
    (MethodTable.empty.registerAll signatures).Holds {s | s ∈ signatures} ∧
      (MethodTable.empty.registerAll signatures').Holds {s | s ∈ signatures} ∧
      (MethodTable.empty.registerAll signatures).SameLookups
        (MethodTable.empty.registerAll signatures') ∧
      ∀ (ctx : Context) (settings : Settings) (f : Func),
        (⟨{ ctx with methods := .registerAll .empty signatures }, settings⟩ : Advisor).report f =
          (⟨{ ctx with methods := .registerAll .empty signatures' }, settings⟩ :
            Advisor).report f := by
  have hsame := MethodTable.sameLookups_registerAll h
  have hholds := MethodTable.holds_registerAll signatures'
  have hmembers : {s | s ∈ signatures'} = {s | s ∈ signatures} := Set.ext fun s ↦ (h s).symm
  rw [hmembers] at hholds
  exact ⟨MethodTable.holds_registerAll signatures, hholds, hsame, report_of_sameLookups hsame⟩

/-- Three methods, in the order in which they may be defined. -/
def showMethods : List Signature :=
  [⟨"show", [.abstract "Signed"]⟩, ⟨"show", [.abstract "Unsigned"]⟩, ⟨"print", [.top]⟩]

/-- The same methods in another order, one of them twice. -/
def shuffledShowMethods : List Signature :=
  [⟨"print", [.top]⟩, ⟨"show", [.abstract "Unsigned"]⟩, ⟨"show", [.abstract "Signed"]⟩,
    ⟨"show", [.abstract "Unsigned"]⟩]

/-- The lookups of the two tables differ, and the reports do not. -/
theorem report_registerAll_eq_showInteger :
    (∀ s, s ∈ showMethods ↔ s ∈ shuffledShowMethods) ∧
      (MethodTable.empty.registerAll showMethods).lookup? "show" ≠
        (MethodTable.empty.registerAll shuffledShowMethods).lookup? "show" ∧
      (⟨{ Context.initial with methods := .registerAll .empty showMethods }, {}⟩ : Advisor).report
          Func.showInteger =
        (⟨{ Context.initial with methods := .registerAll .empty shuffledShowMethods }, {}⟩ :
          Advisor).report Func.showInteger := by
  have h : ∀ s, s ∈ showMethods ↔ s ∈ shuffledShowMethods := by
    intro s
    simp only [showMethods, shuffledShowMethods, List.mem_cons, List.not_mem_nil, or_false]
    tauto
  exact ⟨h, by decide +kernel, (report_registerAll_eq h).2.2.2 .initial {} Func.showInteger⟩

end Advisor
end SsaAdvisor
