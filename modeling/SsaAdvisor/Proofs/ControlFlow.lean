import Mathlib.Data.List.Chain
import Mathlib.Logic.Relation
import SsaAdvisor.Propagation

/-!
# Control flow

Control leaves a statement by one of two arms, and a set of live arms says which of them count. A
path lists the positions that control visits from the first statement on; it ends anywhere, at the
latest where no live arm leads on. Main statement: if the positions behind `first`, up to `last`,
can only be entered from `first` or from each other, then every visit of one of them follows a visit
of `first` with nothing but such positions in between.
-/

namespace SsaAdvisor

/-- The two ways to leave a statement. -/
inductive Arm where
  /-- On to the next statement. -/
  | next
  /-- To the target of a branch or jump. -/
  | jump
deriving DecidableEq, Repr

namespace Arm

instance (p : Arm → Prop) [DecidablePred p] : Decidable (∃ arm, p arm) :=
  decidable_of_iff (p .next ∨ p .jump) (by
    constructor
    · rintro (h | h)
      · exact ⟨.next, h⟩
      · exact ⟨.jump, h⟩
    · rintro ⟨_ | _, h⟩
      · exact .inl h
      · exact .inr h)

end Arm

/-- Whether control can go on to the next statement. -/
def Statement.fallsThrough : Statement → Bool
  | .literal .. | .globalRead .. | .call .. | .branch .. => true
  | .jump _ | .ret _ => false

/-- Control goes on behind a statement that defines a value. -/
theorem Statement.fallsThrough_of_producesValue {s : Statement} (h : s.producesValue = true) :
    s.fallsThrough = true := by
  cases s <;> simp_all [producesValue, fallsThrough]

/-- Which arms of which statements count. -/
abbrev LiveArms := Nat → Arm → Prop

/-- The live arms of the positions that are kept. -/
def LiveArms.restrict (live : LiveArms) (kept : Nat → Prop) : LiveArms :=
  fun position arm ↦ live position arm ∧ kept position

/-- Keeping every position changes nothing. -/
theorem LiveArms.restrict_true (live : LiveArms) : live.restrict (fun _ ↦ True) = live := by
  funext position arm
  simp [restrict]

/-- The arms that propagation has not decided against: all but the jumps of decided branches whose
jump is dead. -/
def Propagation.liveArms (p : Propagation) : LiveArms :=
  fun position arm ↦ arm = .jump → p.jumpIsDead position = false

instance (p : Propagation) (position : Nat) : DecidablePred (p.liveArms position) :=
  fun arm ↦ inferInstanceAs (Decidable (arm = .jump → _))

namespace Func

/-- Where control arrives when it leaves the statement at a position by an arm. -/
def leadsTo? (f : Func) (position : Nat) : Arm → Option Nat
  | .next => ((f.statement? position).filter Statement.fallsThrough).map fun _ ↦ position + 1
  | .jump => (f.statement? position).bind Statement.jumpTarget?

/-- Whether control can pass from one position to another by a live arm. -/
def Flows (f : Func) (live : LiveArms) (source target : Nat) : Prop :=
  ∃ arm, live source arm ∧ f.leadsTo? source arm = some target

instance (f : Func) (live : LiveArms) [∀ position, DecidablePred (live position)]
    (source target : Nat) : Decidable (f.Flows live source target) :=
  inferInstanceAs (Decidable (∃ arm, live source arm ∧ f.leadsTo? source arm = some target))

/-- Whether control can pass from one position to another in any number of steps. -/
def Reaches (f : Func) (live : LiveArms) : Nat → Nat → Prop := Relation.ReflTransGen (f.Flows live)

/-- A list of the positions that control visits one after the other, from the first statement on. -/
structure IsPath (f : Func) (live : LiveArms) (path : List Nat) : Prop where
  start : path.head? = some 1
  chain : path.IsChain (f.Flows live)

instance (f : Func) (live : LiveArms) [∀ position, DecidablePred (live position)]
    (path : List Nat) : Decidable (f.IsPath live path) :=
  decidable_of_iff (path.head? = some 1 ∧ path.IsChain (f.Flows live))
    ⟨fun h ↦ ⟨h.1, h.2⟩, fun h ↦ ⟨h.1, h.2⟩⟩

/-- The positions behind `first`, up to `last`, are entered only from `first` or from each other,
and `last` leads back to none of them. -/
def EntersThrough (f : Func) (live : LiveArms) (first last : Nat) : Prop :=
  ∀ source target, f.Flows live source target → first < target → target ≤ last →
    first ≤ source ∧ source < last

variable {f : Func} {live : LiveArms} {path : List Nat}

/-- Falling through leads to the next position. -/
theorem leadsTo?_next {source target : Nat} :
    f.leadsTo? source .next = some target ↔
      (∃ s, f.statement? source = some s ∧ s.fallsThrough = true) ∧ target = source + 1 := by
  rw [leadsTo?, Option.map_eq_some_iff]
  constructor
  · rintro ⟨s, hs, rfl⟩
    exact ⟨⟨s, Option.filter_eq_some_iff.mp hs⟩, rfl⟩
  · rintro ⟨⟨s, hs⟩, rfl⟩
    exact ⟨s, Option.filter_eq_some_iff.mpr hs, rfl⟩

/-- A jump leads to its target. -/
theorem leadsTo?_jump {source target : Nat} :
    f.leadsTo? source .jump = some target ↔
      ∃ s, f.statement? source = some s ∧ s.jumpTarget? = some target :=
  Option.bind_eq_some_iff

/-- The targets of branches and jumps are the positions to which a jump leads. -/
theorem mem_jumpTargets {target : Nat} :
    target ∈ f.jumpTargets ↔ ∃ source, f.leadsTo? source .jump = some target := by
  simp only [jumpTargets, List.mem_filterMap, Prod.exists, mem_numbered, leadsTo?_jump]
  constructor
  · rintro ⟨s, source, hs, ht⟩
    exact ⟨source, s, hs, ht⟩
  · rintro ⟨source, s, hs, ht⟩
    exact ⟨s, source, hs, ht⟩

/-- A position to which no jump leads is reached only by falling into it. -/
theorem reaches_succ_iff {position : Nat} {s : Statement} (hs : f.statement? position = some s)
    (hf : s.fallsThrough = true)
    (hj : ∀ source, f.leadsTo? source .jump ≠ some (position + 1)) :
    f.Reaches live 1 (position + 1) ↔ f.Reaches live 1 position ∧ live position .next := by
  have hnext : f.leadsTo? position .next = some (position + 1) :=
    leadsTo?_next.mpr ⟨⟨s, hs, hf⟩, rfl⟩
  constructor
  · intro hr
    rcases hr.cases_tail with heq | ⟨source, hsource, arm, hlive, hto⟩
    · have := (bounds_of_statement? hs).1
      omega
    · cases arm with
      | next =>
        obtain rfl := Nat.succ.inj (leadsTo?_next.mp hto).2
        exact ⟨hsource, hlive⟩
      | jump => exact absurd hto (hj source)
  · rintro ⟨hr, hlive⟩
    exact hr.tail ⟨.next, hlive, hnext⟩

namespace IsPath

/-- A path starts at the first statement. -/
theorem getElem?_zero (hp : f.IsPath live path) : path[0]? = some 1 := by
  rw [← List.head?_eq_getElem?, hp.start]

/-- Control passes from each position of a path to the one behind it. -/
theorem flows (hp : f.IsPath live path) {time i j : Nat} (hi : path[time]? = some i)
    (hj : path[time + 1]? = some j) : f.Flows live i j := by
  obtain ⟨ht, rfl⟩ := List.getElem?_eq_some_iff.mp hi
  obtain ⟨hs, rfl⟩ := List.getElem?_eq_some_iff.mp hj
  exact List.isChain_iff_getElem.mp hp.chain time hs

/-- A visit inside the positions behind `first` follows a visit of `first`, and in between control
stays strictly inside. -/
theorem exists_entry (hp : f.IsPath live path) {first last : Nat} (hf : 1 ≤ first)
    (he : f.EntersThrough live first last) {time i : Nat} (ht : path[time]? = some i)
    (hi : first < i) (hl : i ≤ last) :
    ∃ s < time, path[s]? = some first ∧
      ∀ u j, s < u → u < time → path[u]? = some j → first < j ∧ j < last := by
  induction time generalizing i with
  | zero =>
    rw [hp.getElem?_zero, Option.some.injEq] at ht
    omega
  | succ time ih =>
    have hlt : time < path.length := by
      have := (List.getElem?_eq_some_iff.mp ht).1
      omega
    have hc := List.getElem?_eq_getElem hlt
    obtain ⟨hge, hlast⟩ := he _ _ (hp.flows hc ht) hi hl
    by_cases hfirst : path[time] = first
    · refine ⟨time, Nat.lt_succ_self _, by rw [hc, hfirst], ?_⟩
      intro u j hu hv
      omega
    · have hin : first < path[time] := by omega
      obtain ⟨s, hs, hsf, hbetween⟩ := ih hc hin hlast.le
      refine ⟨s, by omega, hsf, ?_⟩
      intro u j hu hv hj
      by_cases hut : u = time
      · rw [hut, hc, Option.some.injEq] at hj
        omega
      · exact hbetween u j hu (by omega) hj

/-- Between two visits control reaches the later position, through kept positions only if the path
visits no others in between. -/
theorem reaches (hp : f.IsPath live path) (kept : Nat → Prop) {since time i j : Nat}
    (hi : path[since]? = some i) (hle : since ≤ time) (hj : path[time]? = some j)
    (hk : ∀ u q, since ≤ u → u < time → path[u]? = some q → kept q) :
    f.Reaches (live.restrict kept) i j := by
  induction time, hle using Nat.le_induction generalizing j with
  | base =>
    rw [hi, Option.some.injEq] at hj
    exact hj ▸ .refl
  | succ time hle ih =>
    have hlt : time < path.length := by
      have := (List.getElem?_eq_some_iff.mp hj).1
      omega
    have hc := List.getElem?_eq_getElem hlt
    obtain ⟨arm, hlive, hto⟩ := hp.flows hc hj
    have hkept : kept path[time] := hk time _ hle (Nat.lt_succ_self _) hc
    have hbefore : f.Reaches (live.restrict kept) i path[time] := by
      apply ih hc
      intro u q hu hv
      exact hk u q hu (by omega)
    exact hbefore.tail ⟨arm, ⟨hlive, hkept⟩, hto⟩

/-- Control reaches every position that a path visits. -/
theorem reaches_of_mem (hp : f.IsPath live path) {position : Nat} (hm : position ∈ path) :
    f.Reaches live 1 position := by
  obtain ⟨time, ht⟩ := List.mem_iff_getElem?.mp hm
  rw [← LiveArms.restrict_true live]
  exact hp.reaches _ hp.getElem?_zero (Nat.zero_le _) ht fun _ _ _ _ _ ↦ trivial

/-- Where control can reach a position through kept positions, a path can be extended to it that
visits no others on the way. -/
theorem exists_extension (hp : f.IsPath live path) {kept : Nat → Prop} {i j : Nat}
    (hi : path.getLast? = some i)
    (hr : f.Reaches (live.restrict kept) i j) :
    ∃ rest, f.IsPath live (path ++ rest) ∧ (path ++ rest).getLast? = some j ∧
      ∀ u q, path.length ≤ u + 1 → u + 1 < (path ++ rest).length →
        (path ++ rest)[u]? = some q → kept q := by
  induction hr with
  | refl =>
    refine ⟨[], ?_⟩
    rw [List.append_nil]
    refine ⟨hp, hi, ?_⟩
    intro u q hu hv
    omega
  | @tail m j _ hmj ih =>
    obtain ⟨rest, hrp, hlast, hkept⟩ := ih
    obtain ⟨arm, ⟨hlive, hk⟩, hto⟩ := hmj
    refine ⟨rest ++ [j], ⟨?_, ?_⟩, ?_, ?_⟩
    · rw [← List.append_assoc, List.head?_append, hrp.start, Option.some_or]
    · rw [← List.append_assoc, List.isChain_append]
      refine ⟨hrp.chain, .singleton j, ?_⟩
      intro x hx y hy
      rw [hlast, Option.mem_some_iff] at hx
      rw [List.head?_singleton, Option.mem_some_iff] at hy
      subst hx hy
      exact ⟨arm, hlive, hto⟩
    · simp
    · intro u q hu hv hq
      rw [← List.append_assoc] at hq hv
      rw [List.length_append, List.length_singleton] at hv
      rw [List.getElem?_append_left (by omega)] at hq
      by_cases hend : u + 1 < (path ++ rest).length
      · exact hkept u q hu hend hq
      · have hul : u = (path ++ rest).length - 1 := by omega
        rw [hul, ← List.getLast?_eq_getElem?, hlast, Option.some.injEq] at hq
        exact hq ▸ hk

end IsPath

/-- The first statement alone is a path. -/
theorem isPath_singleton (f : Func) (live : LiveArms) : f.IsPath live [1] :=
  ⟨rfl, .singleton 1⟩

end Func
end SsaAdvisor
