import Mathlib.Logic.Relation
import SsaAdvisor.Proofs.Ancestor

/-!
# Reachability along parent links

A hierarchy comes from a history of recorded links, in which a later parent of a name replaces an
earlier one and chains may run into cycles. Main statement: one name is below another exactly if the
recorded links lead there in any number of steps, and no walk with a larger bound would meet more.
-/

namespace SsaAdvisor

/-- After pairs have been bound from left to right, a name has the value of its last pair. -/
theorem NameMap.get?_insertAll {α : Type} (m : NameMap α) (pairs : List (String × α))
    (name : String) :
    (m.insertAll pairs).get? name = (pairs.reverse.lookup name).or (m.get? name) := by
  induction pairs generalizing m with
  | nil => rfl
  | cons pair pairs ih =>
    obtain ⟨key, value⟩ := pair
    have hlast : ([(key, value)].lookup name).or (m.get? name) =
        (m.insert key value).get? name := by
      rw [get?_insert, List.lookup_cons]
      by_cases hname : name = key
      · simp [hname]
      · simp [hname, beq_eq_false_iff_ne.mpr hname]
    rw [List.reverse_cons, List.lookup_append, Option.or_assoc, hlast, ← ih]
    rfl

namespace Hierarchy

variable {h : Hierarchy} {child parent name a : String}

/-- The link from a name to its recorded parent. -/
def Linked (h : Hierarchy) (child parent : String) : Prop := h.parent? child = some parent

/-- Links lead to an ancestor in as many steps as it stands above the name, and to nothing else. -/
theorem reflTransGen_linked_iff :
    Relation.ReflTransGen h.Linked name a ↔ ∃ i, h.ancestor? i name = some a := by
  constructor
  · intro hreach
    induction hreach using Relation.ReflTransGen.head_induction_on with
    | refl => exact ⟨0, rfl⟩
    | head hlink _ ih =>
      obtain ⟨i, ha⟩ := ih
      exact ⟨i + 1, by rw [ancestor?, hlink, Option.bind_some, ha]⟩
  · rintro ⟨i, ha⟩
    induction i generalizing name with
    | zero => exact Option.some.inj ha ▸ .refl
    | succ i ih =>
      obtain ⟨parent, hlink, ha⟩ := Option.bind_eq_some_iff.mp ha
      exact .head hlink (ih ha)

/-- The link that a history leaves to a name is the last one recorded for it, or an older one where
the history has none. -/
theorem linked_insertAll_iff {links : List (String × String)} :
    (h.insertAll links).Linked child parent ↔
      links.reverse.lookup child = some parent ∨
        links.reverse.lookup child = none ∧ h.Linked child parent := by
  rw [Linked, parent?, insertAll, NameMap.get?_insertAll, Option.or_eq_some_iff]
  rfl

/-- After any history of recorded links, of which the last one for each name counts, a name is below
another one exactly if the links lead there in any number of steps. The walk loses nothing by its
bound: to visit one name more than have a parent is enough, and further visits meet no other
name. -/
theorem isNamedSubtype_iff_reachable (h : Hierarchy) (links : List (String × String))
    (child ancestor : String) :
    let grown := h.insertAll links
    (∀ name parent, grown.Linked name parent ↔
      links.reverse.lookup name = some parent ∨
        links.reverse.lookup name = none ∧ h.Linked name parent) ∧
    (grown.isNamedSubtype child ancestor = true ↔
      Relation.ReflTransGen grown.Linked child ancestor) ∧
    ∀ more, grown.meets ancestor (grown.children.card + 1 + more) child =
      grown.isNamedSubtype child ancestor := by
  intro grown
  refine ⟨fun _ _ ↦ linked_insertAll_iff, ?_, fun more ↦ ?_⟩
  · rw [isNamedSubtype_iff_exists, reflTransGen_linked_iff]
  · have hvisits : grown.children.card < grown.children.card + 1 + more := by omega
    rw [Bool.eq_iff_iff, meets_iff_exists hvisits, isNamedSubtype_iff_exists]

-- with one visit less, the walk misses the end of a chain of all links
example :
    let chain := empty.insertAll [("A", "C"), ("B", "C"), ("A", "B")]
    chain.isNamedSubtype "A" "C" = true ∧ chain.meets "C" chain.parents.size "A" = false := by
  decide +kernel

end Hierarchy
end SsaAdvisor
