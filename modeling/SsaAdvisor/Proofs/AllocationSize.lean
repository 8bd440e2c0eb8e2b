import Mathlib.Algebra.Ring.Nat
import Mathlib.Data.List.Perm.Basic
import SsaAdvisor.Escape
import SsaAdvisor.Proofs.CheckedFold

/-!
# The size of an allocation

What the size of an allocation is, by its rule, is said here in numbers without bound. Main
statement: an estimate is that size and was read off constants that stand at the call; a size whose
factors are positive is estimated if it fits 64 bits. So a promotion to the stack is one of an exact
size below the threshold, and the size arguments may be given in any order. Arguments in front of
the first dimension are no size arguments: `fill` takes the size from its second argument on, so the
order of its arguments matters.
-/

namespace SsaAdvisor

/-- The arguments that a rule takes the size from. -/
def SizeRule.sizeArguments : SizeRule → List Operand → List Operand
  | .elements _ firstDimension, args => args.drop firstDimension
  | .bytes, args | .stringLength, args => args
  | .fixed _, _ | .unknown, _ => []

/-- The size of an element, given by the rule or else that of the result's element type. -/
def SizeRule.elementSize? : SizeRule → Ty → Option Nat
  | .elements elementBytes _, resultType =>
    elementBytes.or (resultType.elementType?.bind Ty.sizeBytes?)
  | _, _ => none

private theorem Constant.asInt?_eq_some {c : Constant} {v : Int64} :
    c.asInt? = some v ↔ c = .int v := by
  cases c <;> simp [asInt?]

namespace Func

/-- The constant that stands at a call for an operand: an immediate one, or that of a literal. -/
inductive StandsFor (f : Func) : Operand → Constant → Prop
  | immediate (c : Constant) : StandsFor f (.const c) c
  | literal {position : Nat} {c : Constant} {ty : Ty} :
    f.statement? position = some (.literal c ty) → StandsFor f (.value position) c

/-- A natural number stands for the operand. -/
def IsDimension (f : Func) (op : Operand) (n : Nat) : Prop :=
  ∃ v : Int64, f.StandsFor op (.int v) ∧ v.toInt = n

/-- A text of the given length in UTF-8 stands for the operand. -/
def IsTextOfLength (f : Func) (op : Operand) (n : Nat) : Prop :=
  ∃ text : String, f.StandsFor op (.str text) ∧ text.utf8ByteSize = n

/-- The numbers whose product is the size of an allocation. -/
inductive Factors (f : Func) : SizeRule → List Operand → Ty → List Nat → Prop
  | elements {elementBytes : Option Nat} {firstDimension element : Nat} {args : List Operand}
      {resultType : Ty} {dims : List Nat} :
    (SizeRule.elements elementBytes firstDimension).elementSize? resultType = some element →
      List.Forall₂ f.IsDimension (args.drop firstDimension) dims → dims ≠ [] →
        Factors f (.elements elementBytes firstDimension) args resultType (element :: dims)
  | bytes {args : List Operand} {resultType : Ty} {dims : List Nat} :
    List.Forall₂ f.IsDimension args dims → dims ≠ [] → Factors f .bytes args resultType dims

/-- The size of an allocation in bytes. -/
inductive ExactSize (f : Func) : SizeRule → List Operand → Ty → Nat → Prop
  | fixed (bytes : Nat) (args : List Operand) (resultType : Ty) :
    ExactSize f (.fixed bytes) args resultType bytes
  | product {rule : SizeRule} {args : List Operand} {resultType : Ty} {factors : List Nat} :
    f.Factors rule args resultType factors → ExactSize f rule args resultType factors.prod
  | text {args : List Operand} {resultType : Ty} {lengths : List Nat} :
    List.Forall₂ f.IsTextOfLength args lengths →
      ExactSize f .stringLength args resultType lengths.sum

/-- The statement at a position calls an allocator with the given arguments. -/
structure Allocates (f : Func) (ctx : Context) (position : Nat) (callee : String)
    (allocator : Allocator) (args : List Operand) (resultType : Ty) : Prop where
  call : f.statement? position = some (.call callee args resultType)
  allocator : ctx.allocator? callee = some allocator

variable {f : Func} {op : Operand} {ops args args' : List Operand} {resultType : Ty}
  {rule : SizeRule} {c : Constant} {n size size' : Nat}

private theorem literalOperand?_eq_some_iff : f.literalOperand? op = some c ↔ f.StandsFor op c := by
  constructor
  · intro h
    cases op with
    | const c' =>
      obtain rfl := Option.some.inj h
      exact .immediate _
    | argument => cases h
    | value position =>
      simp only [literalOperand?] at h
      split at h
      · next c' ty hs =>
        obtain rfl := Option.some.inj h
        exact .literal hs
      · cases h
  · rintro (_ | hs)
    · rfl
    · simp [literalOperand?, hs]

private theorem dimension?_eq_some_iff : f.dimension? op = some n ↔ f.IsDimension op n := by
  simp only [dimension?, Option.bind_eq_bind, Option.bind_eq_some_iff, Constant.asInt?_eq_some,
    Option.ite_none_right_eq_some, Option.some.injEq, literalOperand?_eq_some_iff, IsDimension]
  constructor
  · rintro ⟨_, hc, v, rfl, hnonneg, rfl⟩
    exact ⟨v, hc, (Int.toNat_of_nonneg hnonneg).symm⟩
  · rintro ⟨v, hv, hn⟩
    exact ⟨_, hv, v, rfl, by omega, by omega⟩

private theorem textLength?_eq_some_iff : f.textLength? op = some n ↔ f.IsTextOfLength op n := by
  simp only [IsTextOfLength, ← literalOperand?_eq_some_iff]
  unfold textLength?
  split
  · next text htext => simp [htext]
  · next hnone =>
    refine iff_of_false nofun ?_
    rintro ⟨text, htext, -⟩
    exact hnone text htext

private theorem byteCount?_eq_some_iff : byteCount? n = some size ↔ n < UInt64.size ∧ n = size := by
  unfold byteCount?
  split
  · next hn => simp [hn]
  · next hn => simp [hn]

private theorem foldlM_byteCount?_eq_some_iff {size? : Operand → Option Nat}
    {IsSize : Operand → Nat → Prop}
    {combine : Nat → Nat → Nat} {start : Nat} (hsize : ∀ op n, size? op = some n ↔ IsSize op n) :
    ops.foldlM (fun acc op ↦ (size? op).bind fun n ↦ byteCount? (combine acc n)) start =
        some size ↔
      ∃ sizes, List.Forall₂ IsSize ops sizes ∧ sizes.foldl combine start = size ∧
        ∀ front, front <+: sizes → front ≠ [] → front.foldl combine start < UInt64.size := by
  have hvalue : ∀ n v, byteCount? n = some v → id v = n := fun n v h ↦
    (byteCount?_eq_some_iff.mp h).2.symm
  have hfits : ∀ n, (byteCount? n).isSome = true ↔ n < UInt64.size := by
    intro n
    simp [Option.isSome_iff_exists, byteCount?_eq_some_iff]
  rw [foldlM_bind_eq, Option.bind_eq_some_iff]
  simp only [mapM_eq_some_iff, hsize, ← hfits]
  refine exists_congr fun sizes ↦ and_congr_right fun _ ↦ ?_
  have hsome := isSome_foldlM_iff combine hvalue sizes start
  rw [id] at hsome
  rw [← hsome]
  constructor
  · intro h
    exact ⟨(value_of_foldlM combine hvalue h).symm, Option.isSome_of_eq_some h⟩
  · rintro ⟨rfl, h⟩
    obtain ⟨total, htotal⟩ := Option.isSome_iff_exists.mp h
    exact htotal.trans (congrArg some (value_of_foldlM combine hvalue htotal))

private theorem product?_eq_some_iff :
    f.product? ops = some size ↔
      ∃ dims, List.Forall₂ f.IsDimension ops dims ∧ dims.prod = size ∧
        ∀ front, front <+: dims → front ≠ [] → front.prod < UInt64.size := by
  simp only [List.prod_eq_foldl_nat]
  exact foldlM_byteCount?_eq_some_iff fun _ _ ↦ dimension?_eq_some_iff

private theorem totalLength?_eq_some_iff :
    f.totalLength? ops = some size ↔
      ∃ lengths, List.Forall₂ f.IsTextOfLength ops lengths ∧ lengths.sum = size ∧
        ∀ front, front <+: lengths → front ≠ [] → front.sum < UInt64.size := by
  simp only [List.sum_eq_foldl_nat]
  exact foldlM_byteCount?_eq_some_iff fun _ _ ↦ textLength?_eq_some_iff

private theorem properProduct?_eq_some_iff :
    f.properProduct? ops = some size ↔ ops ≠ [] ∧ f.product? ops = some size := by
  cases ops <;> simp [properProduct?]

private theorem prod_front_le {front factors : List Nat} (hfront : front <+: factors)
    (hpos : ∀ n ∈ factors, 1 ≤ n) : front.prod ≤ factors.prod := by
  obtain ⟨back, rfl⟩ := hfront
  rw [List.prod_append]
  apply Nat.le_mul_of_pos_right
  exact List.prod_pos_iff_forall_pos_nat.mpr fun n hn ↦ hpos n (List.mem_append_right front hn)

private theorem sum_front_le {front lengths : List Nat} (hfront : front <+: lengths) :
    front.sum ≤ lengths.sum := by
  obtain ⟨back, rfl⟩ := hfront
  rw [List.sum_append]
  exact Nat.le_add_right _ _

private theorem of_properProduct?_eq_some (h : f.properProduct? ops = some size) :
    ∃ dims, List.Forall₂ f.IsDimension ops dims ∧ dims ≠ [] ∧ dims.prod = size ∧
      size < UInt64.size := by
  obtain ⟨hne, h⟩ := properProduct?_eq_some_iff.mp h
  obtain ⟨dims, hdims, rfl, hfits⟩ := product?_eq_some_iff.mp h
  have hne' : dims ≠ [] := by
    rintro rfl
    exact hne (List.forall₂_nil_right_iff.mp hdims)
  exact ⟨dims, hdims, hne', rfl, hfits dims (List.prefix_refl dims) hne'⟩

private theorem properProduct?_of_dimensions {dims : List Nat}
    (hdims : List.Forall₂ f.IsDimension ops dims)
    (hne : dims ≠ []) (hpos : ∀ n ∈ dims, 1 ≤ n) (hfits : dims.prod < UInt64.size) :
    f.properProduct? ops = some dims.prod := by
  have hne' : ops ≠ [] := by
    rintro rfl
    exact hne (List.forall₂_nil_left_iff.mp hdims)
  rw [properProduct?_eq_some_iff, product?_eq_some_iff]
  refine ⟨hne', dims, hdims, rfl, fun front hfront _ ↦ ?_⟩
  exact (prod_front_le hfront hpos).trans_lt hfits

/-- An estimate is the exact size, and fits 64 bits unless the rule fixes it. -/
theorem of_estimate?_eq_some (h : f.estimate? rule args resultType = some size) :
    f.ExactSize rule args resultType size ∧
      ((∀ bytes, rule ≠ .fixed bytes) → size < UInt64.size) := by
  cases rule with
  | fixed bytes =>
    obtain rfl := Option.some.inj h
    exact ⟨.fixed _ args resultType, fun hrule ↦ absurd rfl (hrule _)⟩
  | elements elementBytes firstDimension =>
    simp only [estimate?, Option.bind_eq_bind, Option.bind_eq_some_iff] at h
    obtain ⟨element, helement, product, hproduct, h⟩ := h
    obtain ⟨hfits, rfl⟩ := byteCount?_eq_some_iff.mp h
    obtain ⟨dims, hdims, hne, rfl, -⟩ := of_properProduct?_eq_some hproduct
    rw [Nat.mul_comm, ← List.prod_cons] at hfits ⊢
    exact ⟨.product (.elements helement hdims hne), fun _ ↦ hfits⟩
  | bytes =>
    obtain ⟨dims, hdims, hne, rfl, hfits⟩ := of_properProduct?_eq_some h
    exact ⟨.product (.bytes hdims hne), fun _ ↦ hfits⟩
  | stringLength =>
    obtain ⟨lengths, hlengths, rfl, hfits⟩ := totalLength?_eq_some_iff.mp h
    refine ⟨.text hlengths, fun _ ↦ ?_⟩
    by_cases hne : lengths = []
    · rw [hne]
      decide
    · exact hfits lengths (List.prefix_refl lengths) hne
  | unknown => cases h

private theorem estimate?_of_factors {factors : List Nat}
    (h : f.Factors rule args resultType factors)
    (hpos : ∀ n ∈ factors, 1 ≤ n) (hfits : factors.prod < UInt64.size) :
    f.estimate? rule args resultType = some factors.prod := by
  cases h with
  | bytes hdims hne => exact properProduct?_of_dimensions hdims hne hpos hfits
  | @elements elementBytes firstDimension element args resultType dims helement hdims hne =>
    obtain ⟨helementPos, hdimsPos⟩ := List.forall_mem_cons.mp hpos
    rw [List.prod_cons, Nat.mul_comm] at hfits ⊢
    have hprod := (Nat.le_mul_of_pos_right dims.prod helementPos).trans_lt hfits
    have hproduct := properProduct?_of_dimensions hdims hne hdimsPos hprod
    simp only [SizeRule.elementSize?] at helement
    simp [estimate?, helement, hproduct, byteCount?_eq_some_iff, hfits]

private theorem estimate?_of_lengths {lengths : List Nat}
    (h : List.Forall₂ f.IsTextOfLength args lengths) (hfits : lengths.sum < UInt64.size) :
    f.estimate? .stringLength args resultType = some lengths.sum := by
  rw [estimate?, totalLength?_eq_some_iff]
  exact ⟨lengths, h, rfl, fun front hfront _ ↦ (sum_front_le hfront).trans_lt hfits⟩

private theorem Factors.eq_append {factors : List Nat}
    (h : f.Factors rule args resultType factors) :
    ∃ dims, List.Forall₂ f.IsDimension (rule.sizeArguments args) dims ∧
      factors = (rule.elementSize? resultType).toList ++ dims := by
  cases h with
  | bytes hdims => exact ⟨factors, hdims, rfl⟩
  | elements helement hdims => exact ⟨_, hdims, by rw [helement]; rfl⟩

private theorem ExactSize.standsFor (h : f.ExactSize rule args resultType size)
    (hm : op ∈ rule.sizeArguments args) : ∃ c, f.StandsFor op c := by
  cases h with
  | fixed => cases hm
  | product hfactors =>
    obtain ⟨dims, hdims, -⟩ := hfactors.eq_append
    obtain ⟨n, -, v, hv, -⟩ := exists_mem_of_forall₂ hdims hm
    exact ⟨_, hv⟩
  | text hlengths =>
    obtain ⟨n, -, text, htext, -⟩ := exists_mem_of_forall₂ hlengths hm
    exact ⟨_, htext⟩

/-- A size does not depend on the order of the size arguments. -/
theorem ExactSize.eq_of_perm (h : f.ExactSize rule args resultType size)
    (h' : f.ExactSize rule args' resultType size')
    (hperm : (rule.sizeArguments args).Perm (rule.sizeArguments args')) : size = size' := by
  have hdimension : Relator.RightUnique f.IsDimension := fun op n n' hn hn' ↦
    Option.some.inj ((dimension?_eq_some_iff.mpr hn).symm.trans (dimension?_eq_some_iff.mpr hn'))
  have hlength : Relator.RightUnique f.IsTextOfLength := fun op n n' hn hn' ↦
    Option.some.inj ((textLength?_eq_some_iff.mpr hn).symm.trans (textLength?_eq_some_iff.mpr hn'))
  cases h with
  | fixed =>
    cases h' with
    | fixed => rfl
    | product hfactors' => cases hfactors'
  | product hfactors =>
    cases h' with
    | fixed => cases hfactors
    | text => cases hfactors
    | product hfactors' =>
      obtain ⟨dims, hdims, rfl⟩ := hfactors.eq_append
      obtain ⟨dims', hdims', rfl⟩ := hfactors'.eq_append
      have := List.rel_perm_imp hdimension hdims hdims' hperm
      exact (this.append_left _).prod_nat
  | text hlengths =>
    cases h' with
    | product hfactors' => cases hfactors'
    | text hlengths' => exact (List.rel_perm_imp hlength hlengths hlengths' hperm).sum_nat

private theorem of_canStackPromote {ctx : Context} {stackThreshold scalarThreshold : Nat}
    {site : AllocationSite}
    (h : (f.escapeRecord ctx stackThreshold scalarThreshold site).canStackPromote = true) :
    (f.escapeRecord ctx stackThreshold scalarThreshold site).escapes = false ∧
      ∃ size, site.estimatedBytes = some size ∧ size < stackThreshold := by
  simpa [escapeRecord, Option.any_eq_true] using h

/-- The size of an allocation site is estimated by the rule of its allocator. -/
theorem exists_allocates {ctx : Context} {site : AllocationSite}
    (hm : site ∈ f.allocationSites ctx) :
    ∃ allocator args resultType,
      f.Allocates ctx site.index site.callee allocator args resultType ∧
        site.estimatedBytes = f.estimate? allocator.size args resultType := by
  obtain ⟨callee, args, resultType, allocator, hs, ha, hsite⟩ := mem_allocationSites.mp hm
  obtain rfl : site.callee = callee := congrArg AllocationSite.callee hsite
  exact ⟨allocator, args, resultType, ⟨hs, ha⟩, congrArg AllocationSite.estimatedBytes hsite⟩

/-- A known size is the exact one, rests on constants that stand at the call, and fits 64 bits
unless the rule fixes it. A product of positive numbers and a total length are known if they fit
64 bits. A promotion to the stack is one of an exact size below the threshold, of an allocation that
does not escape. Size arguments in another order give the same size. -/
theorem allocation_sizes_exact (f : Func) (ctx : Context) :
    (∀ site ∈ f.allocationSites ctx, ∃ allocator args resultType,
      f.Allocates ctx site.index site.callee allocator args resultType ∧
      (∀ size, site.estimatedBytes = some size →
        f.ExactSize allocator.size args resultType size ∧
        (∀ op ∈ allocator.size.sizeArguments args, ∃ c, f.StandsFor op c) ∧
        ((∀ bytes, allocator.size ≠ .fixed bytes) → size < 2 ^ 64)) ∧
      (∀ factors, f.Factors allocator.size args resultType factors → (∀ n ∈ factors, 1 ≤ n) →
        factors.prod < 2 ^ 64 → site.estimatedBytes = some factors.prod) ∧
      (∀ lengths, allocator.size = .stringLength → List.Forall₂ f.IsTextOfLength args lengths →
        lengths.sum < 2 ^ 64 → site.estimatedBytes = some lengths.sum)) ∧
    (∀ stackThreshold scalarThreshold,
      ∀ r ∈ f.escapeRecords ctx stackThreshold scalarThreshold, r.canStackPromote = true →
        r.escapes = false ∧ ∃ allocator args resultType size,
          f.Allocates ctx r.index r.callee allocator args resultType ∧
          f.ExactSize allocator.size args resultType size ∧ size < stackThreshold) ∧
    (∀ rule args args' resultType size size',
      (SizeRule.sizeArguments rule args).Perm (rule.sizeArguments args') →
      f.estimate? rule args resultType = some size →
      f.estimate? rule args' resultType = some size' → size = size') := by
  refine ⟨?_, ?_, ?_⟩
  · intro site hsite
    obtain ⟨allocator, args, resultType, hcall, hestimate⟩ := exists_allocates hsite
    rw [hestimate]
    refine ⟨allocator, args, resultType, hcall, ?_, ?_, ?_⟩
    · intro size h
      obtain ⟨hexact, hfits⟩ := of_estimate?_eq_some h
      exact ⟨hexact, fun op ↦ hexact.standsFor, hfits⟩
    · intro factors
      exact estimate?_of_factors
    · intro lengths hrule
      rw [hrule]
      exact estimate?_of_lengths
  · intro stackThreshold scalarThreshold r hr hpromote
    obtain ⟨site, hsite, rfl⟩ := List.mem_map.mp hr
    obtain ⟨hescapes, size, hsize, hlt⟩ := of_canStackPromote hpromote
    obtain ⟨allocator, args, resultType, hcall, hestimate⟩ := exists_allocates hsite
    rw [hestimate] at hsize
    exact ⟨hescapes, allocator, args, resultType, size, hcall, (of_estimate?_eq_some hsize).1, hlt⟩
  · intro rule args args' resultType size size' hperm h h'
    exact (of_estimate?_eq_some h).1.eq_of_perm (of_estimate?_eq_some h').1 hperm

/-- A function that sums up a matrix with one dimension from a literal and one immediate. -/
def summedMatrix : Func where
  name := "total"
  parameterTypes := []
  body := #[
    .literal (.int 4) .int,
    .call "zeros" [.value 1, .const (.int 8)] (.container "Matrix" [.int]),
    .call "sum" [.value 2] .int,
    .ret (some (.value 3))]

/-- The matrix may live on the stack: its four times eight elements of eight bytes are below the
threshold. -/
theorem allocation_sizes_exact_summedMatrix :
    ⟨2, "zeros", .array, true, some 256, false, [], true, false⟩ ∈
        summedMatrix.escapeRecords .initial 4096 256 ∧
      ∃ allocator args resultType size,
        summedMatrix.Allocates .initial 2 "zeros" allocator args resultType ∧
          summedMatrix.ExactSize allocator.size args resultType size ∧ size < 4096 := by
  have hr : ⟨2, "zeros", .array, true, some 256, false, [], true, false⟩ ∈
      summedMatrix.escapeRecords .initial 4096 256 := by decide +kernel
  exact ⟨hr, ((allocation_sizes_exact summedMatrix .initial).2.1 4096 256 _ hr rfl).2⟩

/-- A function that fills two vectors by calls with the same two arguments in different order. -/
def filledBothWays : Func where
  name := "filled"
  parameterTypes := []
  body := #[
    .call "fill" [.const (.int 3), .const (.int 4)] (.container "Vector" [.float]),
    .call "fill" [.const (.int 4), .const (.int 3)] (.container "Vector" [.float]),
    .ret none]

/-- Calls with the same arguments in different order have different known sizes, since the first
argument of `fill` is the value and not a dimension. -/
theorem fill_depends_on_order :
    ∃ args args' resultType, args.Perm args' ∧
      filledBothWays.statement? 1 = some (.call "fill" args resultType) ∧
      filledBothWays.statement? 2 = some (.call "fill" args' resultType) ∧
      filledBothWays.allocationSites .initial =
        [⟨1, "fill", .array, some 32⟩, ⟨2, "fill", .array, some 24⟩] :=
  ⟨_, _, _, .swap (.const (.int 4)) (.const (.int 3)) [], rfl, rfl, by decide +kernel⟩

end Func
end SsaAdvisor
