import SsaAdvisor.Lifetime
import SsaAdvisor.Proofs.ControlFlow
import SsaAdvisor.Proofs.Reader

/-!
# Release points

A release is inserted in front of a statement. Control enters that statement only from the one
before it, and the positions between the allocation and the release only through the allocation. So
each arrival at the release follows an allocation of its own, on every path. Nothing behind the
allocation reads the value after the release; a reader in front of the allocation does, if control
reaches it from the release without allocating again, and only then.
-/

namespace SsaAdvisor.Func

variable {f : Func} {ctx : Context} {lookahead : Nat} {l : Lifetime} {k : Nat} {path : List Nat}

/-- The live jumps are the jumps that live arms make. -/
theorem mem_liveJumps {p : Propagation} {source target : Nat} :
    ⟨source, target⟩ ∈ f.liveJumps p ↔
      p.liveArms source .jump ∧ f.leadsTo? source .jump = some target := by
  simp only [liveJumps, List.mem_filterMap, Prod.exists, mem_numbered, leadsTo?_jump,
    Propagation.liveArms, forall_const]
  constructor
  · rintro ⟨s, position, hs, h⟩
    split at h
    · simp at h
    · next hd =>
      obtain ⟨_, ht, he⟩ := Option.map_eq_some_iff.mp h
      simp only [Jump.mk.injEq] at he
      obtain ⟨rfl, rfl⟩ := he
      exact ⟨by simpa using hd, s, hs, ht⟩
  · rintro ⟨hd, s, hs, ht⟩
    exact ⟨s, source, hs, by simp [hd, ht]⟩

/-- What makes a position a release point of an allocation: no live jump leads to it, the positions
up to it are entered through the allocation, and the readers behind the allocation stand before it.
-/
structure IsReleasePoint (f : Func) (live : LiveArms) (allocation release : Nat) : Prop where
  one_le : 1 ≤ allocation
  lt : allocation < release
  no_jump : ∀ source, live source .jump → f.leadsTo? source .jump ≠ some release
  enters : f.EntersThrough live allocation release
  readers : ∀ reader, f.Reads reader allocation → allocation < reader → reader < release

private theorem entersThrough_of_not_bypassed {p : Propagation} {allocation release : Nat}
    (h : isBypassed (f.liveJumps p) allocation release = false) :
    f.EntersThrough p.liveArms allocation release := by
  rintro source target ⟨arm, hlive, hto⟩ hlt hle
  cases arm with
  | next =>
    obtain ⟨-, rfl⟩ := leadsTo?_next.mp hto
    omega
  | jump =>
    have hj := List.any_eq_false.mp h _ (mem_liveJumps.mpr ⟨hlive, hto⟩)
    simp [hlt, hle] at hj
    omega

/-- A release is offered behind the last use, up to the next return, where it is admitted. -/
theorem of_releasePoint?_eq_some {jumps : List Jump} {joins : StatementSet}
    {allocation lastUse : Nat} (h : f.releasePoint? jumps joins allocation lastUse = some k) :
    ∃ ret, f.nextReturn? lastUse = some ret ∧ lastUse < k ∧ k ≤ ret ∧
      f.admitsRelease jumps joins allocation k = true := by
  obtain ⟨ret, hret, hfind⟩ := Option.bind_eq_some_iff.mp h
  have hlt := (bounds_of_nextReturn? hret).1
  have hm := List.mem_range'_1.mp (List.mem_of_find?_eq_some hfind)
  exact ⟨ret, hret, by omega, by omega, List.find?_some hfind⟩

/-- A release is offered if nothing stands against it, at the first position that admits it. -/
theorem releaseBefore_lifetime_eq_some {jumps : List Jump} {joins : StatementSet}
    {site : AllocationSite} :
    (f.lifetime ctx jumps joins site).releaseBefore = some k ↔
      (f.lifetime ctx jumps joins site).conflicts = [] ∧
        f.releasePoint? jumps joins site.index (f.lastReader ctx site.index) = some k := by
  simp [lifetime, lastReader]

/-- The position that a lifetime offers for its release is a release point. -/
theorem isReleasePoint_of_mem_lifetimes (hl : l ∈ f.lifetimes ctx lookahead)
    (hk : l.releaseBefore = some k) :
    f.IsReleasePoint (f.propagate ctx lookahead).liveArms l.index k := by
  obtain ⟨site, hsite, rfl⟩ := List.mem_map.mp hl
  obtain ⟨_, _, _, _, hs, -, -⟩ := mem_allocationSites.mp (List.mem_filter.mp hsite).1
  obtain ⟨-, hpoint⟩ := releaseBefore_lifetime_eq_some.mp hk
  obtain ⟨ret, hret, hlast, hret_le, hadmits⟩ := of_releasePoint?_eq_some hpoint
  have hsize := hret_le.trans (bounds_of_nextReturn? hret).2
  simp only [admitsRelease, Bool.and_eq_true, Bool.not_eq_true'] at hadmits
  obtain ⟨⟨hjoin, hbypassed⟩, -⟩ := hadmits
  have hle := f.le_lastReader ctx site.index
  have hlt : site.index < k := Nat.lt_of_le_of_lt hle hlast
  refine ⟨(bounds_of_statement? hs).1, hlt, ?_, entersThrough_of_not_bypassed hbypassed,
    fun reader hr hrl ↦ Nat.lt_of_le_of_lt (le_lastReader_of_reads hr hrl) hlast⟩
  intro source hlive hto
  have hm : k ∈ (f.liveJumps (f.propagate ctx lookahead)).map (·.target) :=
    List.mem_map_of_mem (mem_liveJumps.mpr ⟨hlive, hto⟩)
  have hin := StatementSet.contains_ofList.mpr ⟨hm, Nat.one_le_of_lt hlt, hsize⟩
  rw [hin] at hjoin
  exact Bool.noConfusion hjoin

namespace IsReleasePoint

variable {live : LiveArms} {allocation release : Nat}

private theorem falls_into (h : f.IsReleasePoint live allocation release) {source : Nat} {arm : Arm}
    (hlive : live source arm) (hto : f.leadsTo? source arm = some release) :
    arm = .next ∧ source + 1 = release := by
  cases arm with
  | next => exact ⟨rfl, (leadsTo?_next.mp hto).2.symm⟩
  | jump => exact absurd hto (h.no_jump source hlive)

/-- Each arrival at a release point follows an allocation, with no arrival in between. -/
theorem exists_allocation (h : f.IsReleasePoint live allocation release)
    (hp : f.IsPath live path) {time : Nat} (ht : path[time]? = some release) :
    ∃ s < time, path[s]? = some allocation ∧
      ∀ u, s ≤ u → u < time → path[u]? ≠ some release := by
  obtain ⟨s, hs, ha, hbetween⟩ := hp.exists_entry h.one_le h.enters ht h.lt le_rfl
  refine ⟨s, hs, ha, ?_⟩
  intro u hu hv hr
  rcases Nat.eq_or_lt_of_le hu with rfl | hlt
  · rw [ha, Option.some.injEq] at hr
    exact h.lt.ne hr
  · exact (hbetween u release hlt hv hr).2.false

private theorem reader_lt (h : f.IsReleasePoint live allocation release) (hp : f.IsPath live path)
    (hself : ¬ f.Reads allocation allocation) {arrival time reader : Nat}
    (hle : arrival ≤ time) (ha : path[arrival]? = some release) (ht : path[time]? = some reader)
    (hr : f.Reads reader allocation)
    (hn : ∀ u, arrival ≤ u → u < time → path[u]? ≠ some allocation) : reader < allocation := by
  by_contra hge
  have hne : reader ≠ allocation := fun he ↦ hself (he ▸ hr)
  have hlt : allocation < reader := by omega
  have hback := h.readers reader hr hlt
  -- the reader lies inside, so the path has entered through the allocation before it
  obtain ⟨s, hs, hsa, hbetween⟩ := hp.exists_entry h.one_le h.enters ht hlt hback.le
  have hsn : s < arrival := by
    by_contra hge
    exact hn s (by omega) hs hsa
  by_cases he : arrival = time
  · rw [he, ht, Option.some.injEq] at ha
    omega
  · exact (hbetween arrival release hsn (by omega) ha).2.false

end IsReleasePoint

/-- Control falls into the position in front of which a release is offered and never jumps to it,
and on every path each arrival there follows an allocation that no earlier arrival has released. -/
theorem release_follows_allocation (hl : l ∈ f.lifetimes ctx lookahead)
    (hk : l.releaseBefore = some k) :
    (∀ source arm, (f.propagate ctx lookahead).liveArms source arm →
        f.leadsTo? source arm = some k → arm = .next ∧ source + 1 = k) ∧
      ∀ path, f.IsPath (f.propagate ctx lookahead).liveArms path →
        ∀ time : Nat, path[time]? = some k →
          ∃ s < time, path[s]? = some l.index ∧
            ∀ u, s ≤ u → u < time → path[u]? ≠ some k := by
  have h := isReleasePoint_of_mem_lifetimes hl hk
  exact ⟨fun _ _ ↦ h.falls_into, fun _ hp _ ↦ h.exists_allocation hp⟩

/-- A loop around an allocation, with a jump to the release point that is never taken. -/
def retryLoop : Func where
  name := "retry"
  parameterTypes := [.bool]
  body := #[
    .literal (.bool true) .bool,
    .call "malloc" [.const (.int 64)] (.concrete "Ptr"),
    .branch (.value 1) true 5,
    .call "unsafe_load" [.value 2] .int,
    .branch (.argument 1) false 2,
    .ret none]

/-- The second arrival at the release point of a loop follows the second allocation. -/
theorem release_follows_allocation_retryLoop :
    ⟨2, "malloc", 4, [], some 5⟩ ∈ retryLoop.lifetimes .initial 20 ∧
      retryLoop.IsPath (retryLoop.propagate .initial 20).liveArms [1, 2, 3, 4, 5, 2, 3, 4, 5] ∧
      ∃ s < 8, [1, 2, 3, 4, 5, 2, 3, 4, 5][s]? = some 2 ∧
        ∀ u, s ≤ u → u < 8 → [1, 2, 3, 4, 5, 2, 3, 4, 5][u]? ≠ some 5 := by
  have hl : ⟨2, "malloc", 4, [], some 5⟩ ∈ retryLoop.lifetimes .initial 20 := by decide +kernel
  have hp : retryLoop.IsPath (retryLoop.propagate .initial 20).liveArms
      [1, 2, 3, 4, 5, 2, 3, 4, 5] := by decide +kernel
  exact ⟨hl, hp, (release_follows_allocation hl rfl).2 _ hp 8 rfl⟩

/-- Whether a path reads the value of an allocation after it has arrived at the release point and
before it allocates again. -/
def ReadsAfterRelease (f : Func) (path : List Nat) (allocation release : Nat) : Prop :=
  ∃ arrival time reader : Nat, arrival ≤ time ∧ path[arrival]? = some release ∧
    path[time]? = some reader ∧ f.Reads reader allocation ∧
    ∀ u, arrival ≤ u → u < time → path[u]? ≠ some allocation

/-- In an accepted function some path reads a value after its release exactly if control reaches the
release point, and from there a reader in front of the allocation without allocating again. -/
theorem readsAfterRelease_iff (hv : f.validate = .ok ()) (hl : l ∈ f.lifetimes ctx lookahead)
    (hk : l.releaseBefore = some k) :
    (∃ path, f.IsPath (f.propagate ctx lookahead).liveArms path ∧
        f.ReadsAfterRelease path l.index k) ↔
      ∃ reader < l.index, f.Reads reader l.index ∧
        f.Reaches (f.propagate ctx lookahead).liveArms 1 k ∧
        f.Reaches ((f.propagate ctx lookahead).liveArms.restrict (· ≠ l.index)) k reader := by
  have h := isReleasePoint_of_mem_lifetimes hl hk
  constructor
  · rintro ⟨path, hp, arrival, time, reader, hle, ha, ht, hr, hn⟩
    have hlt := h.reader_lt hp (not_reads_self hv _) hle ha ht hr hn
    have hstart := hp.reaches (fun _ ↦ True) hp.getElem?_zero (Nat.zero_le _) ha
      fun _ _ _ _ _ ↦ trivial
    rw [LiveArms.restrict_true] at hstart
    refine ⟨reader, hlt, hr, hstart, hp.reaches _ ha hle ht ?_⟩
    intro u q hu hv hq he
    rw [he] at hq
    exact hn u hu hv hq
  · rintro ⟨reader, -, hr, hstart, hback⟩
    rw [← LiveArms.restrict_true (f.propagate ctx lookahead).liveArms] at hstart
    obtain ⟨front, hp, hfront, -⟩ := (isPath_singleton f _).exists_extension rfl hstart
    obtain ⟨rest, hp', hrest, hkept⟩ := hp.exists_extension hfront hback
    have hpos : 0 < ([1] ++ front).length := by simp
    have hlen : ([1] ++ front ++ rest).length = ([1] ++ front).length + rest.length :=
      List.length_append
    refine ⟨_, hp', ([1] ++ front).length - 1, ([1] ++ front ++ rest).length - 1, reader, ?_, ?_,
      ?_, hr, ?_⟩
    · omega
    · rw [List.getElem?_append_left (by omega), ← List.getLast?_eq_getElem?, hfront]
    · rw [← List.getLast?_eq_getElem?, hrest]
    · intro u hu hv hq
      exact hkept u l.index (by omega) (by omega) hq rfl

/-- No path of the loop around an allocation reads the value after its release. -/
theorem readsAfterRelease_iff_retryLoop :
    retryLoop.validate = .ok () ∧ ⟨2, "malloc", 4, [], some 5⟩ ∈ retryLoop.lifetimes .initial 20 ∧
      ¬ ∃ path, retryLoop.IsPath (retryLoop.propagate .initial 20).liveArms path ∧
        retryLoop.ReadsAfterRelease path 2 5 := by
  have hl : ⟨2, "malloc", 4, [], some 5⟩ ∈ retryLoop.lifetimes .initial 20 := by decide +kernel
  have hn : ∀ reader < 2, ¬ retryLoop.Reads reader 2 := by decide
  refine ⟨by decide +kernel, hl, ?_⟩
  intro hex
  obtain ⟨reader, hlt, hr, -⟩ := (readsAfterRelease_iff (by decide +kernel) hl rfl).mp hex
  exact hn reader hlt hr

/-- A loop that reads the allocation of the iteration before, at a position in front of it. -/
def carriedLoop : Func where
  name := "carried"
  parameterTypes := [.bool, .bool]
  body := #[
    .branch (.argument 1) false 6,
    .jump 4,
    .call "unsafe_load" [.value 4] .int,
    .call "malloc" [.const (.int 64)] (.concrete "Ptr"),
    .branch (.argument 2) false 3,
    .ret none]

/-- A release that a lifetime offers can be followed by a read of the value: the use behind the
loop's back edge stands in front of the allocation, where no use is looked for. -/
theorem carriedLoop_reads_after_release :
    carriedLoop.validate = .ok () ∧
      ⟨4, "malloc", 4, [], some 5⟩ ∈ carriedLoop.lifetimes .initial 20 ∧
      carriedLoop.IsPath (carriedLoop.propagate .initial 20).liveArms [1, 2, 4, 5, 3] ∧
      carriedLoop.ReadsAfterRelease [1, 2, 4, 5, 3] 4 5 := by
  refine ⟨by decide +kernel, by decide +kernel, by decide +kernel, 3, 4, 3, by decide, rfl, rfl,
    by decide, ?_⟩
  intro u hu hv
  obtain rfl : u = 3 := by omega
  decide

end SsaAdvisor.Func
