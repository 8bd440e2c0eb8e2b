import Mathlib.Data.List.Duplicate
import SsaAdvisor.Advisor
import SsaAdvisor.Proofs.ControlFlow
import SsaAdvisor.Proofs.Dispatch

/-!
# What control repeats

A path that comes back to a position has on its way gone from there, or from behind, to there, or to
in front. Falling through only leads on, so some backward jump spans the position, and its loop
region contains it, however the loops overlap and wherever they are entered. Outside all regions
nothing is repeated, and a dynamic call that is repeated is found to be urgent.
-/

namespace SsaAdvisor

/-- All arms of all statements. -/
def LiveArms.all : LiveArms := fun _ _ ↦ True

instance (position : Nat) : DecidablePred (LiveArms.all position) :=
  fun _ ↦ inferInstanceAs (Decidable True)

namespace Func

variable {f : Func} {live : LiveArms} {ctx : Context} {path : List Nat} {position : Nat}

/-- The loop regions are those of the jumps that do not lead forward. -/
theorem mem_loopRegions {l : LoopRegion} :
    l ∈ f.loopRegions ↔ l.header ≤ l.latch ∧ f.leadsTo? l.latch .jump = some l.header := by
  simp only [loopRegions, List.mem_filterMap, Prod.exists, mem_numbered, leadsTo?_jump,
    Option.map_eq_some_iff, Option.filter_eq_some_iff, decide_eq_true_eq]
  constructor
  · rintro ⟨s, latch, hs, header, ⟨ht, hle⟩, rfl⟩
    exact ⟨hle, s, hs, ht⟩
  · rintro ⟨hle, s, hs, ht⟩
    exact ⟨s, l.latch, hs, l.header, ⟨ht, hle⟩, rfl⟩

private theorem inLoop_iff :
    f.inLoop position = true ↔ ∃ l ∈ f.loopRegions, l.header ≤ position ∧ position ≤ l.latch := by
  simp [inLoop, LoopRegion.contains]

/-- A step from a position or from behind it, to the position or in front of it, is a backward jump
around the position. -/
theorem Flows.inLoop {source target : Nat} (h : f.Flows live source target)
    (hs : position ≤ source) (ht : target ≤ position) : f.inLoop position = true := by
  obtain ⟨arm, -, hto⟩ := h
  cases arm with
  | next =>
    have := (leadsTo?_next.mp hto).2
    omega
  | jump => exact inLoop_iff.mpr ⟨⟨target, source⟩, mem_loopRegions.mpr ⟨ht.trans hs, hto⟩, ht, hs⟩

private theorem inLoop_of_isChain_cons {source target : Nat}
    (hp : (source :: path).IsChain (f.Flows live))
    (hs : position ≤ source) (hm : target ∈ path) (ht : target ≤ position) :
    f.inLoop position = true := by
  -- as long as no step of the path jumps back over the position, control stays behind it
  induction path generalizing source with
  | nil => simp at hm
  | cons second rest ih =>
    obtain ⟨hflows, hrest⟩ := List.isChain_cons_cons.mp hp
    by_cases hsecond : second ≤ position
    · exact hflows.inLoop hs hsecond
    · have hne : target ≠ second := by omega
      exact ih hrest (by omega) (List.mem_of_ne_of_mem hne hm)

/-- A position that a path visits twice lies in a loop. -/
theorem inLoop_of_two_le_count (hp : path.IsChain (f.Flows live))
    (hc : 2 ≤ path.count position) : f.inLoop position = true := by
  have hd := List.duplicate_iff_two_le_count.mpr hc
  clear hc
  induction hd with
  | cons_mem hm => exact inLoop_of_isChain_cons hp le_rfl hm le_rfl
  | cons_duplicate _ ih => exact ih (List.isChain_of_isChain_cons hp)

private theorem inLoop_of_mem_virtualCalls {call : VirtualCall} {calls : List VirtualCall}
    {maxSwitchTargets lookahead : Nat}
    (h : f.virtualCalls ctx maxSwitchTargets lookahead = .ok calls) (hc : call ∈ calls) :
    call.inLoop = f.inLoop call.index := by
  obtain ⟨s, -, hcall⟩ := exists_of_mem_virtualCalls h hc
  obtain ⟨_, _, _, _, _, -, -, -, -, hrecord⟩ := virtualCall?_eq_ok_some_iff.mp hcall
  rw [hrecord]

private theorem exists_report_of_validate (hv : f.validate = .ok ()) (a : Advisor)
    (hp : a.settings.passes.contains .devirtualization = true) :
    ∃ report calls, a.report f = .ok report ∧
      f.virtualCalls a.context a.settings.maxSwitchTargets a.settings.deadBranchLookahead =
        .ok calls ∧
      ∀ call ∈ calls, Finding.ofVirtualCall call ∈ report.findings := by
  obtain ⟨calls, hcalls⟩ := exists_virtualCalls hv a.context a.settings.maxSwitchTargets
    a.settings.deadBranchLookahead
  refine ⟨_, calls, a.report_eq_ok hv, hcalls, ?_⟩
  intro call hc
  apply Finding.ofVirtualCall_mem_ofResults a.settings _ hc
  rw [Advisor.results_eq, hcalls]
  exact Section.data?_ofPass hp (List.isEmpty_eq_false_iff_exists_mem.mpr ⟨call, hc⟩)

/-- A position that a path visits twice lies in a loop region. So a virtual call outside all loops
is executed at most once on a path, and in the report on an accepted function each dynamic call that
some path executes twice has an urgent finding. -/
theorem loopRegions_cover (f : Func) :
    (∀ (path : List Nat) position, path.IsChain (f.Flows .all) → 2 ≤ path.count position →
        ∃ l ∈ f.loopRegions, l.header ≤ position ∧ position ≤ l.latch) ∧
      (∀ ctx maxSwitchTargets lookahead calls,
        f.virtualCalls ctx maxSwitchTargets lookahead = .ok calls →
        ∀ call ∈ calls, call.inLoop = false →
          ∀ path : List Nat, path.IsChain (f.Flows .all) → path.count call.index ≤ 1) ∧
      (f.validate = .ok () → ∀ a : Advisor,
        a.settings.passes.contains .devirtualization = true →
        ∃ report calls, a.report f = .ok report ∧
          f.virtualCalls a.context a.settings.maxSwitchTargets a.settings.deadBranchLookahead =
            .ok calls ∧
          ∀ call ∈ calls, call.isUnresolved = true →
            ∀ path : List Nat, path.IsChain (f.Flows .all) → 2 ≤ path.count call.index →
              ∃ finding ∈ report.findings, finding.priority = .high ∧
                finding.statement = some call.index) := by
  refine ⟨fun _ _ hp hc ↦ inLoop_iff.mp (inLoop_of_two_le_count hp hc), ?_, ?_⟩
  · intro ctx maxSwitchTargets lookahead calls h call hc hl path hp
    by_contra htwice
    have hin := inLoop_of_two_le_count hp (Nat.lt_of_not_le htwice)
    rw [← inLoop_of_mem_virtualCalls h hc, hl] at hin
    exact Bool.noConfusion hin
  · intro hv a hpass
    obtain ⟨report, calls, hreport, hcalls, hfindings⟩ := exists_report_of_validate hv a hpass
    refine ⟨report, calls, hreport, hcalls, ?_⟩
    intro call hc hu path hp htwice
    have hl : call.inLoop = true :=
      (inLoop_of_mem_virtualCalls hcalls hc).trans (inLoop_of_two_le_count hp htwice)
    exact ⟨_, hfindings call hc, Finding.priority_ofVirtualCall hu hl,
      Finding.statement_ofVirtualCall call⟩

/-- A loop that is entered both at its start and in its middle. -/
def twoEntries : Func where
  name := "two_entries"
  parameterTypes := [.abstract "Integer", .bool]
  body := #[
    .branch (.argument 2) false 4,
    .call "work" [.argument 1] .nothing,
    .branch (.argument 2) false 5,
    .jump 2,
    .ret none]

/-- The call in the loop is repeated, whichever way control enters, and so it is urgent. -/
theorem loopRegions_cover_twoEntries :
    twoEntries.validate = .ok () ∧ [1, 4, 2, 3, 4, 2].IsChain (twoEntries.Flows .all) ∧
      (∃ l ∈ twoEntries.loopRegions, l.header ≤ 3 ∧ 3 ≤ l.latch) ∧
      ∃ report, (⟨.initial, {}⟩ : Advisor).report twoEntries = .ok report ∧
        ∃ finding ∈ report.findings, finding.priority = .high ∧ finding.statement = some 2 := by
  have hv : twoEntries.validate = .ok () := by decide +kernel
  have hp : [1, 4, 2, 3, 4, 2].IsChain (twoEntries.Flows .all) := by decide +kernel
  have hp' : [1, 2, 3, 4, 2, 3].IsChain (twoEntries.Flows .all) := by decide +kernel
  have hcalls : twoEntries.virtualCalls .initial 4 20 =
      .ok [⟨2, "work", .abstract "Integer", .empty, .none, false, true⟩] := by decide +kernel
  obtain ⟨hregion, -, hurgent⟩ := loopRegions_cover twoEntries
  obtain ⟨report, calls, hreport, h, hfindings⟩ := hurgent hv ⟨.initial, {}⟩ rfl
  obtain rfl := Except.ok.inj (hcalls.symm.trans h)
  exact ⟨hv, hp, hregion _ 3 hp' (by decide), report, hreport,
    hfindings _ List.mem_cons_self rfl _ hp (by decide)⟩

end Func
end SsaAdvisor
