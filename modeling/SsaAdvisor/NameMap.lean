/-!
# Finite maps from names

A list of pairs in which each name stands once; the latest binding of a name replaces the earlier
one. The map is observed through `get?`, `contains` and `size`, never through its order.
-/

namespace SsaAdvisor

/-- Values bound to names. -/
structure NameMap (α : Type) where
  entries : List (String × α)
  /-- No name is bound twice. -/
  nodup : (entries.map (·.1)).Nodup

namespace NameMap

variable {α : Type}

/-- The map without bindings. -/
def empty : NameMap α := ⟨[], .nil⟩

/-- The value bound to a name. -/
def get? (m : NameMap α) (name : String) : Option α := m.entries.lookup name

/-- Whether a name is bound. -/
def contains (m : NameMap α) (name : String) : Bool := (m.get? name).isSome

/-- Number of bound names. -/
def size (m : NameMap α) : Nat := m.entries.length

private theorem nodup_rebound {entries : List (String × α)} (h : (entries.map (·.1)).Nodup)
    (name : String) (value : α) :
    (((name, value) :: entries.filter (·.1 != name)).map (·.1)).Nodup := by
  rw [List.map_cons, List.nodup_cons]
  refine ⟨fun hm ↦ ?_, (List.filter_sublist.map _).nodup h⟩
  obtain ⟨entry, hentry, heq⟩ := List.mem_map.mp hm
  exact bne_iff_ne.mp (List.mem_filter.mp hentry).2 heq

/-- Bind a name, replacing its previous binding. -/
def insert (m : NameMap α) (name : String) (value : α) : NameMap α :=
  ⟨(name, value) :: m.entries.filter (·.1 != name), nodup_rebound m.nodup name value⟩

/-- The bound names, each once. -/
def names (m : NameMap α) : List String := m.entries.map (·.1)

/-- Whether nothing is bound. -/
def isEmpty (m : NameMap α) : Bool := m.entries.isEmpty

/-- Whether some bound value passes the test. -/
def anyValue (m : NameMap α) (test : α → Bool) : Bool := m.entries.any (test ·.2)

/-- Bind the pairs of a list from left to right; of two pairs with one name the later stays. -/
def insertAll (m : NameMap α) (pairs : List (String × α)) : NameMap α :=
  pairs.foldl (fun acc pair ↦ acc.insert pair.1 pair.2) m

/-- The empty map binds nothing. -/
theorem get?_empty (name : String) : (empty : NameMap α).get? name = none := rfl

-- removing one name leaves the lookup of every other name alone
private theorem lookup_filter_ne (entries : List (String × α)) {name other : String}
    (h : other ≠ name) : (entries.filter (·.1 != name)).lookup other = entries.lookup other := by
  induction entries with
  | nil => rfl
  | cons entry entries ih =>
    obtain ⟨key, value⟩ := entry
    by_cases hk : key = name
    · have hb : (other == name) = false := by simp [h]
      simp [hk, ih, List.lookup_cons, hb]
    · simp [hk, ih, List.lookup_cons]

/-- An insertion is seen under its own name and under no other. -/
theorem get?_insert (m : NameMap α) (name other : String) (value : α) :
    (m.insert name value).get? other = if other = name then some value else m.get? other := by
  by_cases h : other = name
  · simp [insert, get?, h]
  · have hb : (other == name) = false := by simp [h]
    simp [insert, get?, List.lookup_cons, h, hb, lookup_filter_ne]

/-- The listed names are the bound ones. -/
theorem mem_names {m : NameMap α} {name : String} :
    name ∈ m.names ↔ (m.get? name).isSome = true := by
  rw [names, get?, Option.isSome_iff_ne_none, ne_eq, List.lookup_eq_none_iff, List.mem_map]
  constructor
  · rintro ⟨entry, hentry, rfl⟩ hnone
    exact bne_iff_ne.mp (hnone entry hentry) rfl
  · intro h
    by_cases hm : ∃ entry ∈ m.entries, entry.1 = name
    · exact hm
    · refine absurd (fun entry hentry ↦ bne_iff_ne.mpr fun heq ↦ ?_) h
      exact hm ⟨entry, hentry, heq.symm⟩

/-- Binding a name that was not bound leaves the other bindings as they are. -/
theorem entries_insert_of_get?_eq_none {m : NameMap α} {name : String} (h : m.get? name = none)
    (value : α) : (m.insert name value).entries = (name, value) :: m.entries := by
  have hne : m.entries.filter (·.1 != name) = m.entries := by
    rw [List.filter_eq_self]
    intro entry he
    rw [bne_comm]
    exact List.lookup_eq_none_iff.mp h entry he
  exact congrArg ((name, value) :: ·) hne

end NameMap
end SsaAdvisor
