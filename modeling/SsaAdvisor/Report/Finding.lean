import SsaAdvisor.Report.Basic
import SsaAdvisor.Settings

/-!
# Findings

What the passes found, in sentences. Each pass contributes its findings in the order of its records;
the list is then ordered by urgency and by statement, and findings that agree in both keep their
order.

Follows `collect_findings`.
Spec guidance: `SPEC_FULL.md` §§4.6, 10.5.
-/

namespace SsaAdvisor

/-- How urgent a finding is. -/
inductive Priority where
  | critical
  | high
  | medium
  | low
deriving DecidableEq, Repr

namespace Priority

/-- All priorities, most urgent first. -/
def all : List Priority := [.critical, .high, .medium, .low]

/-- The name of a priority. -/
def name : Priority → String
  | .critical => "critical"
  | .high => "high"
  | .medium => "medium"
  | .low => "low"

/-- Position of a priority, most urgent first. -/
def rank : Priority → Nat
  | .critical => 0
  | .high => 1
  | .medium => 2
  | .low => 3

end Priority

/-- One sentence about a function. -/
structure Finding where
  priority : Priority
  pass : Pass
  /-- The statement that the finding is about, if it is about one. -/
  statement : Option Nat
  message : String
deriving DecidableEq, Repr

namespace Finding

/-- Order by urgency, then by statement; a finding about no statement comes first. -/
def precedes (a b : Finding) : Bool :=
  a.priority.rank < b.priority.rank
    || (a.priority == b.priority && a.statement.getD 0 ≤ b.statement.getD 0)

/-- The finding on an allocation, if there is something to say: that it escapes, or how it could be
promoted. -/
def ofEscape? (expectNoEscapes : Bool) (r : EscapeRecord) : Option Finding :=
  let subject := r.kind.text ++ " allocation by '" ++ r.callee ++ "'"
  let size :=
    match r.estimatedBytes with
    | some bytes => s!" ({bytes} bytes)"
    | none => ""
  if r.escapes then
    some ⟨if expectNoEscapes then .critical else .low, .escape, some r.index,
      subject ++ " escapes: " ++ ", ".intercalate r.reasons⟩
  else if r.canScalarReplace then
    some ⟨.low, .escape, some r.index, subject ++ size ++ " can be scalar-replaced"⟩
  else if r.canStackPromote then
    some ⟨.low, .escape, some r.index, subject ++ size ++ " can be stack-promoted"⟩
  else none

/-- The finding on a decided branch. -/
def ofDecidedBranch (d : DecidedBranch) : Finding :=
  ⟨.medium, .constants, some d.index,
    s!"branch arm for `{d.eliminatedArm}` is never taken ({d.statementsEliminated} statements)"⟩

/-- The finding on a virtual call. One that stays dynamic in a loop is urgent. -/
def ofVirtualCall (call : VirtualCall) : Finding :=
  let subject := "call to '" ++ call.callee ++ "'"
  match call.strategy with
  | .direct =>
    ⟨.low, .devirtualization, some call.index, subject ++ " can be dispatched directly"⟩
  | .switch =>
    ⟨.low, .devirtualization, some call.index,
      subject ++ s!" can use a {call.candidates.size}-way type switch"⟩
  | .none =>
    let detail :=
      if call.symbolKnown then s!"{call.candidates.size} candidates" else "not in the method table"
    ⟨if call.inLoop then .high else .low, .devirtualization, some call.index,
      subject ++ " on " ++ call.receiverType.text ++ " stays dynamic (" ++ detail ++ ")"⟩

/-- The finding on an open parameter. -/
def ofOpenParameter (p : OpenParameter) : Finding :=
  let subject := s!"parameter {p.position} (" ++ p.declaredType.text ++ ")"
  let message :=
    if p.instantiations.isEmpty then subject ++ " has no known instantiation"
    else
      subject ++ " can be specialized to "
        ++ Ty.commaSeparated (p.instantiations.toList.map Ty.text)
        ++ " (" ++ p.source.text ++ ")"
  ⟨.low, .monomorphization, none, message⟩

/-- The findings on a specialization: that it is large, and one on each open parameter. -/
def ofSpecialization (oversizedThreshold : Nat) (s : Specialization) : List Finding :=
  let oversized :=
    if oversizedThreshold < s.requiredVariants then
      [⟨.medium, .monomorphization, none,
        s!"full specialization needs {s.requiredVariants} variants"⟩]
    else []
  oversized ++ s.parameters.map ofOpenParameter

/-- The finding on the lifetime of a manual allocation. -/
def ofLifetime (l : Lifetime) : Finding :=
  let subject := "'" ++ l.callee ++ "' allocation"
  let message :=
    match l.releaseBefore with
    | some position => subject ++ s!" can be released before #{position}"
    | none =>
      if l.conflicts.isEmpty then subject ++ " has no safe release point"
      else subject ++ " cannot be auto-released: " ++ ", ".intercalate l.conflicts
  ⟨.low, .lifetime, some l.index, message⟩

/-- All findings, pass by pass. -/
def unordered (settings : Settings) (r : Results) : List Finding :=
  (r.escapes.data?.getD []).filterMap (ofEscape? settings.expectNoEscapes)
    ++ ((r.constants.data?.map (·.decidedBranches)).getD []).map ofDecidedBranch
    ++ (r.virtualCalls.data?.getD []).map ofVirtualCall
    ++ (r.specialization.data?.map (ofSpecialization settings.oversizedVariantThreshold)).getD []
    ++ (r.lifetimes.data?.getD []).map ofLifetime

/-- All findings, most urgent first. Follows `collect_findings`. -/
def ofResults (settings : Settings) (r : Results) : List Finding :=
  (unordered settings r).mergeSort precedes

/-- The finding on a virtual call is about its statement. -/
theorem statement_ofVirtualCall (call : VirtualCall) :
    (ofVirtualCall call).statement = some call.index := by
  unfold ofVirtualCall
  split <;> rfl

/-- The finding on a virtual call is urgent if the call stays dynamic in a loop. -/
theorem priority_ofVirtualCall {call : VirtualCall} (hu : call.isUnresolved = true)
    (hl : call.inLoop = true) : (ofVirtualCall call).priority = .high := by
  have hs : call.strategy = .none := by simpa [VirtualCall.isUnresolved] using hu
  simp [ofVirtualCall, hs, hl]

/-- Ordering neither loses nor repeats a finding. -/
theorem ofResults_perm (settings : Settings) (r : Results) :
    (ofResults settings r).Perm (unordered settings r) :=
  List.mergeSort_perm _ _

/-- Each virtual call of the results has its finding. -/
theorem ofVirtualCall_mem_ofResults {r : Results} {calls : List VirtualCall} {call : VirtualCall}
    (settings : Settings) (hr : r.virtualCalls.data? = some calls) (hc : call ∈ calls) :
    ofVirtualCall call ∈ ofResults settings r := by
  rw [(ofResults_perm settings r).mem_iff, unordered, hr]
  simp only [List.mem_append, Option.getD_some]
  exact .inl (.inl (.inr (List.mem_map_of_mem hc)))

end Finding
end SsaAdvisor
