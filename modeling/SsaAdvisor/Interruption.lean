import SsaAdvisor.Pass

/-!
# Interrupted passes

A pass may end without a result: it breaks off with a message, or it is still at work when the time
for the passes of a run is over. Which passes do so is up to the machine, so the course of a run is
an input here: it tells when the outcome of each pass arrives and which pass breaks off. The workers
that the passes run on, the log, and times that no clock can hold are left out.

Follows `collect_outcomes` and `panic_message`.
Spec guidance: `SPEC_FULL.md` §§5, 10.5.
-/

namespace SsaAdvisor

/-- Why a pass ends without a result. -/
inductive Interruption where
  /-- The pass was still at work when the time was over. -/
  | timedOut
  /-- The pass broke off with this message. -/
  | panicked (message : String)
deriving DecidableEq, Repr

/-- The text of an interruption. -/
def Interruption.reason (pass : Pass) : Interruption → String
  | .timedOut => "timed out"
  | .panicked message => pass.name ++ " panicked: " ++ message

/-- How the passes of one run go. -/
structure Course where
  /-- When the outcome of a pass arrives, counted from the start of the run. -/
  arrival : Pass → Nat
  /-- The message with which a pass breaks off, if it does. -/
  panic? : Pass → Option String

namespace Course

/-- Every outcome arrives at once, and no pass breaks off. -/
def undisturbed : Course := ⟨fun _ ↦ 0, fun _ ↦ none⟩

/-- How a pass is interrupted, if it is, within the time given to a run. Without a limit every
outcome is waited for. Follows `collect_outcomes`. -/
def interruption? (c : Course) (timeout : Option Nat) (pass : Pass) : Option Interruption :=
  if timeout.any (· < c.arrival pass) then some .timedOut else (c.panic? pass).map .panicked

/-- A pass comes to a result if its outcome arrives in time and it does not break off. -/
theorem interruption?_eq_none_iff {c : Course} {timeout : Option Nat} {pass : Pass} :
    c.interruption? timeout pass = none ↔
      (∀ limit, timeout = some limit → c.arrival pass ≤ limit) ∧ c.panic? pass = none := by
  unfold interruption?
  cases timeout with
  | none => simp
  | some limit =>
    rcases Nat.lt_or_ge limit (c.arrival pass) with hlate | hintime
    · simp [hlate, Nat.not_le.mpr hlate]
    · simp [hintime, Nat.not_lt.mpr hintime]

/-- In an undisturbed run every pass comes to a result, whatever time is given. -/
theorem interruption?_undisturbed (timeout : Option Nat) (pass : Pass) :
    undisturbed.interruption? timeout pass = none :=
  interruption?_eq_none_iff.mpr ⟨fun limit _ ↦ Nat.zero_le limit, rfl⟩

end Course
end SsaAdvisor
