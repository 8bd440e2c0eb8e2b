import SsaAdvisor.Proofs.CheckedFold
import SsaAdvisor.Proofs.Subtyping
import SsaAdvisor.Proofs.WellFormed

/-!
# Instantiations of open parameters

An open parameter is specialized to the concrete types that are observed at its place: the members
of its own union, and what registered methods of the same name have there, as far as it may share a
value with the open type. The usual types are suggested only where none is observed. One variant is
needed for every combination. The number of variants is capped after each parameter, which comes to
capping the product: at the cap it stays with every further factor but zero, and zero wins either
way. Main statement: the open parameters of a signature are its open places, each filled in from the
types observed there, with the exact number of variants up to the cap.
-/

namespace SsaAdvisor

private theorem Ty.noTopMember_of_isConcrete {ty : Ty} (hc : ty.isConcrete = true) :
    ty.NoTopMember := by
  match ty with
  | .concrete name => exact .leaf rfl rfl
  | .container name args =>
    rw [isConcrete, allConcrete_eq, List.all_eq_true] at hc
    refine .container rfl fun arg harg ↦ ?_
    have hlt := sizeOf_lt_container name harg
    exact noTopMember_of_isConcrete (hc arg harg)
  | .top | .abstract _ | .union _ => cases hc
termination_by sizeOf ty

namespace Hierarchy

variable {h : Hierarchy} {ty : Ty} {members : List Ty}

private theorem intersects_self (hc : ty.isConcrete = true) : h.intersects ty ty = true := by
  have hself : h.isSubtype ty ty = true := isSubtype_self (Ty.noTopMember_of_isConcrete hc)
  exact intersects_of_isSubtype hc hself hself

private theorem intersects_union_of_mem (hc : ty.isConcrete = true) (hm : ty ∈ members) :
    h.intersects ty (.union members) = true := by
  obtain ⟨x, hx⟩ := exists_name?_of_isConcrete hc
  exact (intersects_union_right_iff hx).mpr ⟨ty, hm, intersects_self hc⟩

end Hierarchy

/-- Whether an open parameter is filled in from the types observed for it and, where there is none,
from the usual types. -/
structure OpenParameter.FilledFrom (p : OpenParameter) (types : Set Ty) : Prop where
  ascending : p.instantiations.toList.Pairwise (compare · · = .lt)
  source_eq_observed_iff : p.source = .observed ↔ types.Nonempty
  mem_iff : p.source = .observed → ∀ ty, ty ∈ p.instantiations.toList ↔ ty ∈ types
  source_eq_suggested_iff : p.source = .suggested ↔
    types = ∅ ∧ Specialization.suggestions p.declaredType ≠ []
  eq_suggestions : p.source ≠ .observed →
    p.instantiations = .ofList (Specialization.suggestions p.declaredType)

namespace Specialization

variable {ctx : Context} {signature : Signature} {position : Nat} {nested : Option Nat}
  {declared ty : Ty} {methods : List Signature} {parameters : List OpenParameter}

/-- The concrete types observed for an open type at a place of the signature: members of the type
itself, and what methods of the same name have at that place and the type may share a value with. -/
def observedTypes (ctx : Context) (signature : Signature) (position : Nat) (nested : Option Nat)
    (declared : Ty) : Set Ty :=
  {ty | ty.isConcrete = true ∧
    ((∃ members, declared = .union members ∧ ty ∈ members) ∨
      ∃ s ∈ (ctx.methods.lookup? signature.name).getD [], s.name = signature.name ∧
        typeAt? s position nested = some ty ∧ ctx.hierarchy.intersects ty declared = true)}

private theorem intersects_of_mem_observedTypes
    (hm : ty ∈ observedTypes ctx signature position nested declared) :
    ty.isConcrete = true ∧ ctx.hierarchy.intersects ty declared = true := by
  obtain ⟨hc, ⟨members, rfl, hm⟩ | ⟨s, -, -, -, hi⟩⟩ := hm
  · exact ⟨hc, Hierarchy.intersects_union_of_mem hc hm⟩
  · exact ⟨hc, hi⟩

private theorem mem_members_and_isConcrete_iff (hopen : declared.isAbstract = true) :
    ty ∈ declared.members ∧ ty.isConcrete = true ↔
      ty.isConcrete = true ∧ ∃ members, declared = .union members ∧ ty ∈ members := by
  cases declared with
  | concrete | container => cases hopen
  | union members => simp [Ty.members, and_comm]
  | top | abstract =>
    simp only [Ty.members, List.mem_singleton, reduceCtorEq, false_and, exists_false, and_false,
      iff_false]
    rintro ⟨rfl, hc⟩
    cases hc

/-- The search for instantiations finds the observed types. -/
theorem mem_observed_iff (hopen : declared.isAbstract = true) :
    ty ∈ observed ctx ((ctx.methods.lookup? signature.name).getD []) position nested declared ↔
      ty ∈ observedTypes ctx signature position nested declared := by
  rw [observed, List.mem_append, List.mem_filter, mem_members_and_isConcrete_iff hopen,
    observedTypes, Set.mem_ofPred_eq, and_or_left]
  simp only [List.mem_filter, List.mem_filterMap, Bool.and_eq_true]
  refine or_congr_right ?_
  constructor
  · rintro ⟨⟨s, hs, hat⟩, hc, hi⟩
    exact ⟨hc, s, hs, MethodTable.name_of_mem_lookup? hs, hat, hi⟩
  · rintro ⟨hc, s, hs, -, hat, hi⟩
    exact ⟨⟨s, hs, hat⟩, hc, hi⟩

private theorem openParameter_of_observed_ne_nil
    (hfound : observed ctx methods position nested declared ≠ []) :
    openParameter ctx methods position nested declared =
      ⟨position, nested, declared, .ofList (observed ctx methods position nested declared),
        .observed⟩ := by
  simp [openParameter, hfound]

private theorem openParameter_of_observed_eq_nil
    (hfound : observed ctx methods position nested declared = []) :
    openParameter ctx methods position nested declared =
      ⟨position, nested, declared, .ofList (suggestions declared),
        if suggestions declared = [] then .unresolved else .suggested⟩ := by
  by_cases hsuggested : suggestions declared = [] <;> simp [openParameter, hfound, hsuggested]

/-- An open parameter is filled in from what is observed. -/
theorem filledFrom_openParameter {types : Set Ty}
    (hmem : ∀ ty, ty ∈ observed ctx methods position nested declared ↔ ty ∈ types) :
    (openParameter ctx methods position nested declared).FilledFrom types := by
  have hempty : observed ctx methods position nested declared = [] ↔ types = ∅ := by
    simp only [List.eq_nil_iff_forall_not_mem, Set.eq_empty_iff_forall_notMem, hmem]
  by_cases hfound : observed ctx methods position nested declared = []
  · have htypes := hempty.mp hfound
    rw [openParameter_of_observed_eq_nil hfound]
    have hsource : (if suggestions declared = [] then InstantiationSource.unresolved
        else .suggested) ≠ .observed := by
      split <;> nofun
    refine ⟨SortedSet.pairwise_ofList _, ?_, fun hs ↦ absurd hs hsource, ?_, fun _ ↦ rfl⟩
    · exact iff_of_false hsource (htypes ▸ Set.not_nonempty_empty)
    · rw [htypes, eq_self_iff_true, true_and]
      split <;> simp_all
  · have htypes := Set.nonempty_iff_ne_empty.mpr (mt hempty.mpr hfound)
    rw [openParameter_of_observed_ne_nil hfound]
    refine ⟨SortedSet.pairwise_ofList _, iff_of_true rfl htypes, ?_, ?_, absurd rfl⟩
    · intro _ ty
      rw [SortedSet.mem_ofList, hmem]
    · exact iff_of_false nofun fun hnone ↦ htypes.ne_empty hnone.1

private theorem exists_of_typeAt? (hat : typeAt? signature position nested = some ty) :
    ∃ declared, signature.parameterTypes[position - 1]? = some declared := by
  cases nested with
  | none => exact ⟨ty, hat⟩
  | some argument =>
    simp only [typeAt?] at hat
    split at hat
    · next name args hd => exact ⟨_, hd⟩
    · cases hat

private theorem mem_openTypes_iff (hd : signature.parameterTypes[position - 1]? = some declared) :
    (nested, ty) ∈ openTypes declared ↔
      ty.isAbstract = true ∧ typeAt? signature position nested = some ty := by
  refine ⟨(of_mem_openTypes · hd), ?_⟩
  rintro ⟨hopen, hat⟩
  cases nested with
  | none =>
    obtain rfl := Option.some.inj (hd.symm.trans hat)
    simp [openTypes, hopen]
  | some argument =>
    simp only [typeAt?, hd] at hat
    cases declared with
    | container name args =>
      simp only [openTypes, Ty.isAbstract, Ty.abstractArgs, Bool.false_eq_true, if_false,
        List.mem_map, List.mem_filterMap, Prod.exists]
      exact ⟨argument, ty, ⟨ty, argument, List.mem_zipIdx_iff_getElem?.mpr hat, if_pos hopen⟩, rfl⟩
    | _ => cases hat

/-- The number of variants is the capped product of the numbers of instantiations. -/
theorem variants_eq (hne : parameters ≠ []) :
    variants parameters =
      min (parameters.map (·.instantiations.size)).prod (2 ^ 64 - 1) := by
  have hfold := foldl_min_mul (parameters.map (·.instantiations.size))
    (show 1 ≤ variantLimit by decide)
  rw [List.foldl_map, Nat.one_mul] at hfold
  rw [variants, if_neg (by simpa using hne), hfold]
  rfl

/-- Every open parameter has an instantiation exactly if there is a variant, or none is needed. -/
theorem canFullySpecialize_iff :
    (parameters.all fun p ↦ !p.instantiations.isEmpty) = true ↔
      parameters = [] ∨ 1 ≤ variants parameters := by
  by_cases hnil : parameters = []
  · simp [hnil]
  · have hsize : ∀ p : OpenParameter,
        (!p.instantiations.isEmpty) = true ↔ 0 < p.instantiations.size := by
      intro p
      rw [Bool.not_eq_true', SortedSet.isEmpty, List.isEmpty_eq_false_iff, SortedSet.size,
        List.length_pos_iff]
    rw [variants_eq hnil, or_iff_right hnil, Nat.le_min, and_iff_left (by decide),
      Nat.one_le_iff_ne_zero, ← Nat.pos_iff_ne_zero, List.prod_pos_iff_forall_pos_nat,
      List.forall_mem_map, List.all_eq_true]
    simp only [hsize]

/-- The open parameters of a signature are those that are filled in at its open places. -/
theorem mem_openParameters_iff {p : OpenParameter} :
    p ∈ openParameters ctx signature ↔
      ∃ position nested ty, 1 ≤ position ∧ typeAt? signature position nested = some ty ∧
        ty.isAbstract = true ∧ p = openParameter ctx
          ((ctx.methods.lookup? signature.name).getD []) position nested ty := by
  simp only [openParameters, List.mem_flatMap, List.mem_map, Prod.exists,
    List.mk_mem_zipIdx_iff_le_and_getElem?_sub]
  constructor
  · rintro ⟨declared, position, ⟨hle, hd⟩, nested, ty, hm, rfl⟩
    obtain ⟨hopen, hat⟩ := of_mem_openTypes hm hd
    exact ⟨position, nested, ty, hle, hat, hopen, rfl⟩
  · rintro ⟨position, nested, ty, hle, hat, hopen, rfl⟩
    obtain ⟨declared, hd⟩ := exists_of_typeAt? hat
    exact ⟨declared, position, ⟨hle, hd⟩, nested, ty, (mem_openTypes_iff hd).mpr ⟨hopen, hat⟩, rfl⟩

private theorem filledFrom_of_mem {p : OpenParameter} (hp : p ∈ openParameters ctx signature) :
    p.FilledFrom (observedTypes ctx signature p.position p.nested p.declaredType) := by
  obtain ⟨position, nested, ty, -, -, hopen, rfl⟩ := mem_openParameters_iff.mp hp
  exact filledFrom_openParameter fun _ ↦ mem_observed_iff hopen

/-- The open parameters of a signature are its open places, one each and in order. Each is filled in
from the types observed there, which are concrete and may share a value with the open type, and from
the usual types only where none is observed. The number of variants is the product of the numbers of
instantiations up to the largest 64-bit number, and zero without open parameters. A full
specialization is possible exactly if there is a variant or there is nothing to specialize. -/
theorem ofSignature_exact (ctx : Context) (signature : Signature) :
    let s := ofSignature ctx signature
    (∀ position nested ty,
      (∃ p ∈ s.parameters, p.position = position ∧ p.nested = nested ∧ p.declaredType = ty) ↔
        1 ≤ position ∧ typeAt? signature position nested = some ty ∧ ty.isAbstract = true) ∧
    s.parameters.Pairwise OpenParameter.Before ∧
    (∀ p ∈ s.parameters,
      p.FilledFrom (observedTypes ctx signature p.position p.nested p.declaredType) ∧
      (p.source = .observed → ∀ ty ∈ p.instantiations.toList,
        ty.isConcrete = true ∧ ctx.hierarchy.intersects ty p.declaredType = true)) ∧
    s.requiredVariants = (if s.parameters = [] then 0
      else min (s.parameters.map (·.instantiations.size)).prod (2 ^ 64 - 1)) ∧
    (s.canFullySpecialize = true ↔ s.parameters = [] ∨ 1 ≤ s.requiredVariants) := by
  intro s
  have hmem : ∀ {p}, p ∈ s.parameters ↔ _ := mem_openParameters_iff
  refine ⟨?_, (pairwise_openParameters ctx signature).1, ?_, ?_, canFullySpecialize_iff⟩
  · intro position nested ty
    simp only [hmem]
    constructor
    · rintro ⟨_, ⟨position, nested, ty, hle, hat, hopen, rfl⟩, rfl, rfl, rfl⟩
      exact ⟨hle, hat, hopen⟩
    · rintro ⟨hle, hat, hopen⟩
      exact ⟨_, ⟨position, nested, ty, hle, hat, hopen, rfl⟩, rfl, rfl, rfl⟩
  · intro p hp
    have hfilled := filledFrom_of_mem hp
    refine ⟨hfilled, ?_⟩
    intro hs ty hm
    exact intersects_of_mem_observedTypes ((hfilled.mem_iff hs ty).mp hm)
  · split
    · next hnil => exact if_pos (List.isEmpty_iff.mpr hnil)
    · next hne => exact variants_eq hne

/-- A program that combines numbers and vectors in two ways. -/
def combines : Context :=
  { Context.initial with
    methods := MethodTable.empty.registerAll
      [⟨"combine", [.int, .container "Vector" [.concrete "Float32"]]⟩, ⟨"combine", [.string]⟩,
        ⟨"split", [.bool, .container "Vector" [.int]]⟩] }

/-- A signature with open types in its first, second and last parameter. -/
def combine : Signature :=
  ⟨"combine", [.union [.int, .float], .container "Vector" [.abstract "Real", .string], .bool,
    .abstract "AbstractArray"]⟩

/-- A method with another kind of vector tells the elements. No method has a fourth parameter, so
the usual two arrays are suggested; with the two members of the union that makes four variants. -/
theorem ofSignature_exact_combine :
    (∃ p ∈ (ofSignature combines combine).parameters, p.position = 2 ∧ p.nested = some 0 ∧
      p.declaredType = .abstract "Real" ∧ p.source = .observed ∧
      .concrete "Float32" ∈ p.instantiations.toList) ∧
    (∃ p ∈ (ofSignature combines combine).parameters, p.position = 4 ∧ p.nested = none ∧
      p.declaredType = .abstract "AbstractArray" ∧ p.source = .suggested ∧
      p.instantiations = .ofList [.container "Vector" [.float], .container "Vector" [.int]]) ∧
    (ofSignature combines combine).requiredVariants = 4 ∧
    (ofSignature combines combine).canFullySpecialize = true := by
  obtain ⟨hplaces, -, hfilled, hvariants, hfull⟩ := ofSignature_exact combines combine
  have helement : .concrete "Float32" ∈
      observedTypes combines combine 2 (some 0) (.abstract "Real") :=
    (mem_observed_iff rfl).mp (by decide +kernel)
  have harrays : observedTypes combines combine 4 none (.abstract "AbstractArray") = ∅ := by
    have hnil : observed combines ((combines.methods.lookup? combine.name).getD []) 4 none
        (.abstract "AbstractArray") = [] := by decide +kernel
    apply Set.eq_empty_iff_forall_notMem.mpr
    intro ty hm
    have hfound := (mem_observed_iff rfl).mpr hm
    rw [hnil] at hfound
    cases hfound
  have hcount : (ofSignature combines combine).requiredVariants = 4 := by
    rw [hvariants]
    decide +kernel
  refine ⟨?_, ?_, hcount, hfull.mpr (.inr (by rw [hcount]; decide))⟩
  · obtain ⟨p, hp, hposition, hnested, hdeclared⟩ :=
      (hplaces 2 (some 0) (.abstract "Real")).mpr ⟨by decide, rfl, rfl⟩
    obtain ⟨hfilled, -⟩ := hfilled p hp
    rw [hposition, hnested, hdeclared] at hfilled
    have hs := hfilled.source_eq_observed_iff.mpr ⟨_, helement⟩
    exact ⟨p, hp, hposition, hnested, hdeclared, hs, (hfilled.mem_iff hs _).mpr helement⟩
  · obtain ⟨p, hp, hposition, hnested, hdeclared⟩ :=
      (hplaces 4 none (.abstract "AbstractArray")).mpr ⟨by decide, rfl, rfl⟩
    obtain ⟨hfilled, -⟩ := hfilled p hp
    rw [hposition, hnested, hdeclared, harrays] at hfilled
    have hs : p.source = .suggested :=
      hfilled.source_eq_suggested_iff.mpr ⟨rfl, by simp [hdeclared, suggestions]⟩
    refine ⟨p, hp, hposition, hnested, hdeclared, hs, ?_⟩
    rw [hfilled.eq_suggestions (by simp [hs]), hdeclared]
    rfl

end Specialization
end SsaAdvisor
