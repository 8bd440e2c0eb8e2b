import SsaAdvisor.Escape
import SsaAdvisor.Proofs.ControlFlow
import SsaAdvisor.Proofs.Reader

/-!
# Captures of a value

A statement captures a value if it reads the value and may keep it beyond the function. Whether it
does depends on the statement alone: what else a call reads changes the wording of the reason, not
the verdict. An allocation is found to escape exactly if a statement behind it captures the value.
So the verdict misses the captures in front of the allocation, which a loop can reach, and no
others.
-/

namespace SsaAdvisor

/-- Whether a statement may keep beyond the function what it reads. A return may, and so may a call,
unless its callee releases its argument, or only reads it and does not store it globally. -/
def Statement.mayKeep (ctx : Context) : Statement → Bool
  | .ret _ => true
  | .call callee _ _ =>
    !ctx.isRelease callee && (ctx.isGlobalStore callee || !ctx.isSafeRead callee)
  | .literal .. | .globalRead .. | .branch .. | .jump _ => false

namespace Func

/-- Whether the statement at a position reads the value and may keep it beyond the function. -/
def Captures (f : Func) (ctx : Context) (position value : Nat) : Prop :=
  (f.statement? position).any (fun s ↦ s.usesValue value && s.mayKeep ctx) = true

instance (f : Func) (ctx : Context) (position value : Nat) :
    Decidable (f.Captures ctx position value) :=
  inferInstanceAs (Decidable (_ = true))

variable {f : Func} {ctx : Context} {position value : Nat}

private theorem isCapture_useKind (f : Func) (ctx : Context) (s : Statement) :
    (f.useKind ctx s).isCapture = s.mayKeep ctx := by
  cases s with
  | call callee args resultType =>
    simp only [useKind, Statement.mayKeep]
    cases hr : ctx.isRelease callee with
    | true => simp [UseKind.isCapture]
    | false =>
      cases hg : ctx.isGlobalStore callee with
      | true => simp [UseKind.isCapture]
      | false =>
        cases hs : ctx.isSafeRead callee with
        | true => simp [UseKind.isCapture]
        | false =>
          -- what is left captures, with or without an operand read from a global
          by_cases hany : args.any f.readsGlobal = true
          · simp [hany, UseKind.isCapture]
          · simp [hany, UseKind.isCapture]
  | _ => rfl

private theorem Captures.reads (h : f.Captures ctx position value) : f.Reads position value := by
  obtain ⟨s, hs, hc⟩ := (Option.any_eq_true _ _).mp h
  exact (Option.any_eq_true _ _).mpr ⟨s, hs, (Bool.and_eq_true _ _ ▸ hc).1⟩

/-- The captures of a value among its uses stand at the statements behind the definition that
capture it. -/
theorem mem_map_index_captures :
    position ∈ (f.captures ctx value).map (·.index) ↔
      value < position ∧ f.Captures ctx position value := by
  simp only [captures, forwardUses, List.mem_map, List.mem_filter, Prod.exists, mem_after, Captures,
    Option.any_eq_true, Bool.and_eq_true]
  constructor
  · rintro ⟨_, ⟨⟨s, q, ⟨⟨hlt, hs⟩, hu⟩, rfl⟩, hc⟩, rfl⟩
    exact ⟨hlt, s, hs, hu, isCapture_useKind f ctx s ▸ hc⟩
  · rintro ⟨hlt, s, hs, hu, hk⟩
    exact ⟨_, ⟨⟨s, position, ⟨⟨hlt, hs⟩, hu⟩, rfl⟩, isCapture_useKind f ctx s ▸ hk⟩, rfl⟩

/-- An allocation is found to escape exactly if a statement behind it captures the value. -/
theorem escapes_escapeRecord {stackThreshold scalarThreshold : Nat} {site : AllocationSite} :
    (f.escapeRecord ctx stackThreshold scalarThreshold site).escapes = true ↔
      ∃ position > site.index, f.Captures ctx position site.index := by
  have hne : (f.escapeRecord ctx stackThreshold scalarThreshold site).escapes = true ↔
      ∃ position, position ∈ (f.captures ctx site.index).map (·.index) := by
    simp [escapeRecord, List.eq_nil_iff_forall_not_mem]
  rw [hne]
  exact exists_congr fun _ ↦ mem_map_index_captures

/-- An allocation that is found to escape is not promoted. -/
theorem promotions_of_escapes {stackThreshold scalarThreshold : Nat} {site : AllocationSite}
    (h : (f.escapeRecord ctx stackThreshold scalarThreshold site).escapes = true) :
    (f.escapeRecord ctx stackThreshold scalarThreshold site).canStackPromote = false ∧
      (f.escapeRecord ctx stackThreshold scalarThreshold site).canScalarReplace = false := by
  simp only [escapeRecord] at h ⊢
  simp only [h, Bool.not_true, Bool.false_and, Bool.and_false, and_self]

/-- Every allocation of an accepted function has one verdict: it escapes exactly if a statement
behind it captures the value, and then it is not promoted. The value is captured anywhere in the
body exactly if the verdict says so or a statement in front of the allocation captures it. -/
theorem escapes_iff_captured_behind (hv : f.validate = .ok ()) (ctx : Context)
    (stackThreshold scalarThreshold : Nat) :
    (f.escapeRecords ctx stackThreshold scalarThreshold).map (·.index) =
        (f.allocationSites ctx).map (·.index) ∧
      ∀ r ∈ f.escapeRecords ctx stackThreshold scalarThreshold,
        (r.escapes = true ↔ ∃ position > r.index, f.Captures ctx position r.index) ∧
        ((∃ position, f.Captures ctx position r.index) ↔
          r.escapes = true ∨ ∃ position < r.index, f.Captures ctx position r.index) ∧
        (r.escapes = true → r.canStackPromote = false ∧ r.canScalarReplace = false) := by
  refine ⟨by simp [escapeRecords, escapeRecord], ?_⟩
  intro r hr
  obtain ⟨site, -, rfl⟩ := List.mem_map.mp hr
  refine ⟨escapes_escapeRecord, ?_, promotions_of_escapes⟩
  rw [escapes_escapeRecord]
  constructor
  · rintro ⟨position, hc⟩
    rcases Nat.lt_trichotomy position site.index with hlt | rfl | hgt
    · exact .inr ⟨position, hlt, hc⟩
    · exact absurd hc.reads (not_reads_self hv _)
    · exact .inl ⟨position, hgt, hc⟩
  · rintro (⟨position, -, hc⟩ | ⟨position, -, hc⟩)
    · exact ⟨position, hc⟩
    · exact ⟨position, hc⟩

/-- A loop that sums up the array of the iteration before. -/
def summedLoop : Func where
  name := "summed"
  parameterTypes := [.bool]
  body := #[
    .jump 3,
    .call "sum" [.value 3] .float,
    .call "zeros" [.const (.int 4)] (.container "Vector" [.float]),
    .branch (.argument 1) false 2,
    .ret none]

/-- The array of a loop that only reads it is captured nowhere. -/
theorem escapes_iff_captured_behind_summedLoop :
    summedLoop.validate = .ok () ∧
      ⟨3, "zeros", .array, true, some 32, false, [], true, true⟩ ∈
        summedLoop.escapeRecords .initial 4096 256 ∧
      ¬ ∃ position, summedLoop.Captures .initial position 3 := by
  have hv : summedLoop.validate = .ok () := by decide +kernel
  have hr : ⟨3, "zeros", .array, true, some 32, false, [], true, true⟩ ∈
      summedLoop.escapeRecords .initial 4096 256 := by decide +kernel
  have hfront : ¬ ∃ position < 3, summedLoop.Captures .initial position 3 := by decide +kernel
  refine ⟨hv, hr, ?_⟩
  intro hc
  rcases ((escapes_iff_captured_behind hv .initial 4096 256).2 _ hr).2.1.mp hc with he | hf
  · exact Bool.noConfusion he
  · exact hfront hf

/-- A function that returns an array by a jump back to a return in front of the allocation. -/
def returnedLoop : Func where
  name := "returned"
  parameterTypes := []
  body := #[
    .jump 3,
    .ret (some (.value 3)),
    .call "zeros" [.const (.int 4)] (.container "Vector" [.float]),
    .jump 2]

/-- An array that a path allocates and then returns is found not to escape, and both promotions are
offered: the return stands in front of the allocation, where no use is looked for. -/
theorem returnedLoop_not_escapes :
    returnedLoop.validate = .ok () ∧
      ⟨3, "zeros", .array, true, some 32, false, [], true, true⟩ ∈
        returnedLoop.escapeRecords .initial 4096 256 ∧
      returnedLoop.Captures .initial 2 3 ∧
      returnedLoop.IsPath (returnedLoop.propagate .initial 20).liveArms [1, 3, 4, 2] := by
  decide +kernel

end Func
end SsaAdvisor
