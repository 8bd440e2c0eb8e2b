import SsaAdvisor.NameMap
import SsaAdvisor.SortedSet
import SsaAdvisor.Ty.Order

/-!
# Method signatures

A signature names a method and lists the declared types of its parameters. Signatures are ordered by
name and then by their parameter lists, which is a total order. A method table keeps the registered
signatures under their names, in order of registration and each once.

Follows `MethodSignature`, `MethodTable::register` and `MethodTable::lookup`.
Spec guidance: `SPEC_FULL.md` §§3, 10.2.
-/

namespace SsaAdvisor

/-- The name of a method and the declared types of its parameters. -/
structure Signature where
  name : String
  parameterTypes : List Ty
deriving DecidableEq, Inhabited

namespace Signature

/-- The declared type of the first parameter, on which calls dispatch. -/
def receiver? (s : Signature) : Option Ty := s.parameterTypes.head?

/-- The written form of a signature. -/
def text (s : Signature) : String :=
  s.name ++ "(" ++ Ty.commaSeparated (s.parameterTypes.map fun ty ↦ "::" ++ ty.text) ++ ")"

/-- Comparison by name, then by parameter list. -/
def order (a b : Signature) : Ordering :=
  (compare a.name b.name).then (Ty.orderAll a.parameterTypes b.parameterTypes)

instance : Ord Signature := ⟨order⟩

/-- Comparison decides equality of signatures. -/
theorem order_eq_iff {a b : Signature} : order a b = .eq ↔ a = b := by
  constructor
  · intro h
    simp only [order, Ordering.then_eq_eq] at h
    cases a
    cases b
    simp only [mk.injEq]
    exact ⟨by simpa using h.1, Ty.eq_of_orderAll _ _ h.2⟩
  · rintro rfl
    simp [order, Ty.orderAll_self]

instance : Std.LawfulEqOrd Signature where
  compare_self := order_eq_iff.mpr rfl
  eq_of_compare := order_eq_iff.mp

/-- Comparison the other way round gives the opposite result. -/
theorem order_swap (a b : Signature) : (order a b).swap = order b a := by
  rw [order, order, Ordering.swap_then, ← Std.OrientedOrd.eq_swap, Ty.orderAll_swap]

/-- The order on signatures is transitive. -/
theorem order_trans (a b c : Signature) (hab : order a b = .lt) (hbc : order b c = .lt) :
    order a c = .lt :=
  Ty.then_trans compare Ty.orderAll (fun _ _ ↦ Std.LawfulEqOrd.compare_eq_iff_eq)
    Std.TransCmp.lt_trans (Ty.orderAll_trans _ _ _) hab hbc

instance : Std.TransOrd Signature := Ty.transOrd_of_lt_trans order_swap order_trans

end Signature

/-- The registered signatures under each name, in order of registration. -/
structure MethodTable where
  methods : NameMap (List Signature)
  /-- Under a name stand only signatures of that name. -/
  named : ∀ name found, methods.get? name = some found → ∀ s ∈ found, s.name = name
  /-- No signature is registered twice. -/
  nodup : ∀ name found, methods.get? name = some found → found.Nodup
  /-- A name is registered with a signature. -/
  nonempty : ∀ name found, methods.get? name = some found → found ≠ []

namespace MethodTable

variable {t : MethodTable} {s other : Signature} {name : String} {found : List Signature}

/-- The table without signatures. -/
def empty : MethodTable := ⟨.empty, nofun, nofun, nofun⟩

/-- The signatures under a name in order of registration, none if the name is not registered.
Follows `MethodTable::lookup`. -/
def lookup? (t : MethodTable) (name : String) : Option (List Signature) := t.methods.get? name

/-- Append a signature to those of its name, unless it is among them already. -/
def extend (found : List Signature) (s : Signature) : List Signature :=
  if s ∈ found then found else found ++ [s]

private theorem mem_extend : other ∈ extend found s ↔ other ∈ found ∨ other = s := by
  unfold extend
  split
  · next h =>
    constructor
    · exact Or.inl
    · rintro (h' | rfl)
      · exact h'
      · exact h
  · rw [List.mem_append, List.mem_singleton]

private theorem nodup_extend (h : found.Nodup) (s : Signature) : (extend found s).Nodup := by
  unfold extend
  split
  · exact h
  · next hnew =>
    rw [List.nodup_append]
    refine ⟨h, List.pairwise_singleton _ s, ?_⟩
    rintro other hother new hs rfl
    exact hnew (List.mem_singleton.mp hs ▸ hother)

/-- What is found under a name bears it. -/
theorem name_of_mem_lookup? (hs : s ∈ (t.lookup? name).getD []) : s.name = name := by
  cases h : t.lookup? name with
  | none =>
    rw [h] at hs
    exact (nomatch hs)
  | some found =>
    rw [h] at hs
    exact t.named name found h s hs

private theorem nodup_getD (t : MethodTable) (name : String) :
    ((t.lookup? name).getD []).Nodup := by
  cases h : t.lookup? name with
  | none => exact .nil
  | some found => exact t.nodup name found h

private theorem of_get?_insert {m : NameMap (List Signature)} {key : String}
    {value : List Signature} {P : String → List Signature → Prop} (hnew : P key value)
    (hold : ∀ name found, m.get? name = some found → P name found) :
    ∀ name found, (m.insert key value).get? name = some found → P name found := by
  intro name found hfound
  rw [NameMap.get?_insert] at hfound
  split at hfound
  · next heq =>
    obtain rfl := Option.some.inj hfound
    exact heq ▸ hnew
  · exact hold name found hfound

/-- Append a signature under its own name, unless it is registered already.
Follows `MethodTable::register`. -/
def register (t : MethodTable) (s : Signature) : MethodTable where
  methods := t.methods.insert s.name (extend ((t.lookup? s.name).getD []) s)
  named := of_get?_insert (P := fun name found ↦ ∀ s ∈ found, s.name = name)
    (fun _ hother ↦ (mem_extend.mp hother).elim name_of_mem_lookup? (congrArg _ ·)) t.named
  nodup := of_get?_insert (P := fun _ found ↦ found.Nodup) (nodup_extend (t.nodup_getD s.name) s)
    t.nodup
  nonempty := of_get?_insert (P := fun _ found ↦ found ≠ [])
    (List.ne_nil_of_mem (mem_extend.mpr (.inr rfl))) t.nonempty

/-- Register the signatures of a list from left to right. -/
def registerAll (t : MethodTable) (signatures : List Signature) : MethodTable :=
  signatures.foldl register t

/-- Number of registered names. -/
def size (t : MethodTable) : Nat := t.methods.size

/-- Whether nothing is registered. -/
def isEmpty (t : MethodTable) : Bool := t.methods.isEmpty

/-- A registration is seen under its own name and under no other. -/
theorem lookup?_register (t : MethodTable) (s : Signature) (name : String) :
    (t.register s).lookup? name =
      if name = s.name then some (extend ((t.lookup? s.name).getD []) s) else t.lookup? name :=
  NameMap.get?_insert _ _ _ _

/-- What is found after a registration is what was found before, and the new signature under its
name. -/
theorem mem_lookup?_register :
    other ∈ ((t.register s).lookup? name).getD [] ↔
      other ∈ (t.lookup? name).getD [] ∨ other = s ∧ s.name = name := by
  rw [lookup?_register]
  split
  · next h =>
    subst h
    rw [Option.getD_some, mem_extend, and_iff_left rfl]
  · next h =>
    rw [eq_comm] at h
    simp [h]

/-- What is found after registrations is what was found before, and the new signatures of that
name. -/
theorem mem_lookup?_registerAll {signatures : List Signature} :
    s ∈ ((t.registerAll signatures).lookup? name).getD [] ↔
      s ∈ (t.lookup? name).getD [] ∨ s ∈ signatures ∧ s.name = name := by
  unfold registerAll
  induction signatures generalizing t with
  | nil => simp
  | cons new signatures ih =>
    rw [List.foldl_cons, ih, mem_lookup?_register, List.mem_cons, or_and_right, or_assoc]
    refine or_congr_right (or_congr_left ?_)
    constructor
    · rintro ⟨rfl, hname⟩
      exact ⟨rfl, hname⟩
    · rintro ⟨rfl, hname⟩
      exact ⟨rfl, hname⟩

/-- A name is registered if something is found under it. -/
theorem isSome_lookup?_iff :
    (t.lookup? name).isSome = true ↔ ∃ s, s ∈ (t.lookup? name).getD [] := by
  cases h : t.lookup? name with
  | none => simp
  | some found => simpa using List.exists_mem_of_ne_nil found (t.nonempty name found h)

end MethodTable
end SsaAdvisor
