import Mathlib.Algebra.BigOperators.Group.Multiset.Basic
import Mathlib.Data.Prod.Lex
import SsaAdvisor.Proofs.FindingOrder

/-!
# The account of all findings

A finding has a heading: its urgency, its pass and its statement. The headings that results call for
are told record by record and section by section, without regard to order. The findings on any
results have these headings, no more and no fewer. They are in ascending order of urgency and
statement, and those that agree in both stand in the order of passes and, within one pass, of its
records: each has the heading of its record and begins with words that name the record, as an open
parameter is named by its position and its type.
-/

namespace SsaAdvisor

/-- What a finding says besides its message. -/
structure Heading where
  priority : Priority
  pass : Pass
  statement : Option Nat
deriving DecidableEq

/-- What findings are sorted by: urgency, then statement, where none counts as zero. -/
def Heading.key (heading : Heading) : Nat ×ₗ Nat :=
  toLex (heading.priority.rank, heading.statement.getD 0)

private theorem filter_mergeSort_of_forall {α : Type} {le : α → α → Bool}
    (trans : ∀ a b c, le a b = true → le b c = true → le a c = true)
    (total : ∀ a b, (le a b || le b a) = true) {chosen : α → Bool}
    (h : ∀ a b, chosen a = true → chosen b = true → le a b = true) (xs : List α) :
    (xs.mergeSort le).filter chosen = xs.filter chosen := by
  rw [← mergeSort_filter trans total]
  apply List.mergeSort_of_pairwise
  apply List.pairwise_of_forall_mem_list
  intro a ha b hb
  exact h a b (List.mem_filter.mp ha).2 (List.mem_filter.mp hb).2

private theorem coe_filterMap_ite {α β : Type} {first second : α → Bool} {g g' : α → β}
    {find : α → Option β}
    (h : ∀ a, find a =
      if first a then some (g a) else if second a then some (g' a) else none) (as : List α) :
    (as.filterMap find : Multiset β) =
      (as.filter first).map g + (as.filter fun a ↦ !first a && second a).map g' := by
  induction as with
  | nil => rfl
  | cons a as ih =>
    rw [List.filterMap_cons, h]
    by_cases hfirst : first a = true
    · simp [hfirst, ← Multiset.cons_coe, ih]
    · by_cases hsecond : second a = true
      · simp [hfirst, hsecond, ← Multiset.cons_coe, ih]
      · simp [hfirst, hsecond, ih]

/-- Whether the pass has results. -/
def Results.isPopulated (r : Results) : Pass → Bool
  | .escape => r.escapes.isPopulated
  | .constants => r.constants.isPopulated
  | .devirtualization => r.virtualCalls.isPopulated
  | .monomorphization => r.specialization.isPopulated
  | .lifetime => r.lifetimes.isPopulated

/-- The headings that the results of a pass call for: one for each allocation that escapes, and for
each other one that can be promoted; one for each decided branch; one for each virtual call; one for
a large specialization, and for each open parameter; one for each lifetime. -/
def Results.headings (r : Results) (settings : Settings) : Pass → Multiset Heading
  | .escape => r.escapes.contribution fun records ↦
      .ofList ((records.filter (·.escapes)).map fun e ↦
        .mk (if settings.expectNoEscapes then .critical else .low) .escape (some e.index))
      + .ofList ((records.filter fun e ↦
          !e.escapes && (e.canScalarReplace || e.canStackPromote)).map fun e ↦
        .mk .low .escape (some e.index))
  | .constants => r.constants.contribution fun p ↦
      .ofList (p.decidedBranches.map fun d ↦ .mk .medium .constants (some d.index))
  | .devirtualization => r.virtualCalls.contribution fun calls ↦
      .ofList (calls.map fun call ↦
        .mk (if call.isUnresolved && call.inLoop then .high else .low) .devirtualization
          (some call.index))
  | .monomorphization => r.specialization.contribution fun s ↦
      (if settings.oversizedVariantThreshold < s.requiredVariants then
        {.mk .medium .monomorphization none} else 0)
      + .ofList (s.parameters.map fun _ ↦ .mk .low .monomorphization none)
  | .lifetime => r.lifetimes.contribution fun lifetimes ↦
      .ofList (lifetimes.map fun l ↦ .mk .low .lifetime (some l.index))

/-- What a record calls for: a finding with this heading, whose message begins with this text. -/
structure Topic where
  heading : Heading
  subject : String

/-- What an allocation calls for: a finding if it escapes, or if it can be promoted. -/
def EscapeRecord.topic? (expectNoEscapes : Bool) (e : EscapeRecord) : Option Topic :=
  let subject := e.kind.text ++ " allocation by '" ++ e.callee ++ "'"
  if e.escapes then
    some ⟨⟨if expectNoEscapes then .critical else .low, .escape, some e.index⟩, subject⟩
  else if e.canScalarReplace || e.canStackPromote then
    some ⟨⟨.low, .escape, some e.index⟩, subject⟩
  else none

/-- What a decided branch calls for. -/
def DecidedBranch.topic (d : DecidedBranch) : Topic :=
  ⟨⟨.medium, .constants, some d.index⟩, s!"branch arm for `{d.eliminatedArm}"⟩

/-- What a virtual call calls for. -/
def VirtualCall.topic (call : VirtualCall) : Topic :=
  ⟨⟨if call.isUnresolved && call.inLoop then .high else .low, .devirtualization, some call.index⟩,
    "call to '" ++ call.callee ++ "'"⟩

/-- What an open parameter calls for. -/
def OpenParameter.topic (p : OpenParameter) : Topic :=
  ⟨⟨.low, .monomorphization, none⟩,
    s!"parameter {p.position} (" ++ p.declaredType.text ++ ")"⟩

/-- What a specialization calls for: a finding if it is large, and one for each open parameter. -/
def Specialization.topics (oversizedThreshold : Nat) (s : Specialization) : List Topic :=
  (if oversizedThreshold < s.requiredVariants then
    [⟨⟨.medium, .monomorphization, none⟩, s!"full specialization needs {s.requiredVariants}"⟩]
    else [])
  ++ s.parameters.map OpenParameter.topic

/-- What a lifetime calls for. -/
def Lifetime.topic (l : Lifetime) : Topic :=
  ⟨⟨.low, .lifetime, some l.index⟩, "'" ++ l.callee ++ "' allocation"⟩

/-- What the results of a pass call for, in the order of its records. -/
def Results.topics (r : Results) (settings : Settings) : Pass → List Topic
  | .escape => (r.escapes.data?.getD []).filterMap (EscapeRecord.topic? settings.expectNoEscapes)
  | .constants => ((r.constants.data?.map (·.decidedBranches)).getD []).map DecidedBranch.topic
  | .devirtualization => (r.virtualCalls.data?.getD []).map VirtualCall.topic
  | .monomorphization =>
    (r.specialization.data?.map
      (Specialization.topics settings.oversizedVariantThreshold)).getD []
  | .lifetime => (r.lifetimes.data?.getD []).map Lifetime.topic

/-- The message begins with the text. -/
def Opens (text message : String) : Prop := ∃ rest, message = text ++ rest

private theorem Opens.self (text : String) : Opens text text := ⟨"", by rw [String.append_empty]⟩

private theorem Opens.append {text message : String} (h : Opens text message) (more : String) :
    Opens text (message ++ more) := by
  obtain ⟨rest, rfl⟩ := h
  exact ⟨rest ++ more, String.append_assoc⟩

namespace Finding

variable {settings : Settings} {r : Results} {finding : Finding} {pass : Pass}

/-- What the finding says besides its message. -/
def heading (finding : Finding) : Heading := ⟨finding.priority, finding.pass, finding.statement⟩

/-- What the finding is sorted by. -/
def key (finding : Finding) : Nat ×ₗ Nat := finding.heading.key

/-- Findings precede each other as their keys do. -/
theorem precedes_iff_key_le {a b : Finding} : a.precedes b = true ↔ a.key ≤ b.key := by
  rw [precedes_iff, key, key, Heading.key, Heading.key, Prod.Lex.toLex_le_toLex]
  rfl

/-- The finding is one that the topic calls for. -/
def Answers (topic : Topic) (finding : Finding) : Prop :=
  finding.heading = topic.heading ∧ Opens topic.subject finding.message

private theorem answers_ofEscape? (expectNoEscapes : Bool) (e : EscapeRecord) :
    Option.Rel Answers (e.topic? expectNoEscapes) (ofEscape? expectNoEscapes e) := by
  unfold EscapeRecord.topic? ofEscape?
  by_cases hescapes : e.escapes = true
  · rw [if_pos hescapes, if_pos hescapes]
    exact .some ⟨rfl, ((Opens.self _).append _).append _⟩
  · rw [if_neg hescapes, if_neg hescapes]
    by_cases hreplace : e.canScalarReplace = true
    · rw [if_pos hreplace, hreplace, Bool.true_or, if_pos rfl]
      exact .some ⟨rfl, ((Opens.self _).append _).append _⟩
    · rw [if_neg hreplace, Bool.eq_false_iff.mpr hreplace, Bool.false_or]
      by_cases hpromote : e.canStackPromote = true
      · rw [if_pos hpromote, if_pos hpromote]
        exact .some ⟨rfl, ((Opens.self _).append _).append _⟩
      · rw [if_neg hpromote, if_neg hpromote]
        exact .none

private theorem answers_ofDecidedBranch (d : DecidedBranch) :
    Answers d.topic (ofDecidedBranch d) :=
  ⟨rfl, (((Opens.self _).append _).append _).append _⟩

private theorem answers_ofVirtualCall (call : VirtualCall) :
    Answers call.topic (ofVirtualCall call) := by
  unfold Answers VirtualCall.topic ofVirtualCall VirtualCall.isUnresolved
  cases call.strategy with
  | direct => exact ⟨rfl, (Opens.self _).append _⟩
  | switch => exact ⟨rfl, (Opens.self _).append _⟩
  | none =>
    exact ⟨rfl, (((((Opens.self _).append _).append _).append _).append _).append _⟩

private theorem answers_ofOpenParameter (p : OpenParameter) :
    Answers p.topic (ofOpenParameter p) := by
  refine ⟨rfl, ?_⟩
  unfold ofOpenParameter
  dsimp only
  split
  · exact (Opens.self _).append _
  · exact (((((Opens.self _).append _).append _).append _).append _).append _

private theorem answers_ofLifetime (l : Lifetime) : Answers l.topic (ofLifetime l) := by
  refine ⟨rfl, ?_⟩
  unfold ofLifetime
  dsimp only
  split
  · exact (Opens.self _).append _
  · split
    · exact (Opens.self _).append _
    · exact ((Opens.self _).append _).append _

private theorem forall₂_map {α : Type} {topic : α → Topic} {find : α → Finding}
    (h : ∀ a, Answers (topic a) (find a)) (as : List α) :
    List.Forall₂ Answers (as.map topic) (as.map find) := by
  rw [List.forall₂_map_left_iff, List.forall₂_map_right_iff, List.forall₂_same]
  exact fun a _ ↦ h a

private theorem answers_ofSpecialization (oversizedThreshold : Nat) (s : Specialization) :
    List.Forall₂ Answers (s.topics oversizedThreshold) (ofSpecialization oversizedThreshold s) := by
  unfold Specialization.topics ofSpecialization
  refine List.rel_append ?_ (forall₂_map answers_ofOpenParameter s.parameters)
  split
  · exact .cons ⟨rfl, (Opens.self _).append _⟩ .nil
  · exact .nil

/-- The findings of a pass are those that its results call for, one after the other. -/
theorem answers_ofPass (settings : Settings) (r : Results) (pass : Pass) :
    List.Forall₂ Answers (r.topics settings pass) (ofPass settings r pass) := by
  cases pass with
  | escape =>
    have hrecords : List.Forall₂ Eq (r.escapes.data?.getD []) (r.escapes.data?.getD []) :=
      List.forall₂_refl _
    refine List.rel_filterMap ?_ hrecords
    rintro e _ rfl
    exact answers_ofEscape? _ e
  | constants => exact forall₂_map answers_ofDecidedBranch _
  | devirtualization => exact forall₂_map answers_ofVirtualCall _
  | monomorphization =>
    simp only [Results.topics, ofPass]
    cases r.specialization.data? with
    | none => exact .nil
    | some s => exact answers_ofSpecialization _ s
  | lifetime => exact forall₂_map answers_ofLifetime _

private theorem coe_map_heading_topics (settings : Settings) (r : Results) (pass : Pass) :
    .ofList ((r.topics settings pass).map Topic.heading) = r.headings settings pass := by
  cases pass with
  | escape =>
    simp only [Results.topics, Results.headings, List.map_filterMap]
    cases r.escapes with
    | populated records =>
      apply coe_filterMap_ite
      intro e
      unfold EscapeRecord.topic?
      split
      · rfl
      · split <;> rfl
    | _ => rfl
  | constants =>
    simp only [Results.topics, Results.headings, List.map_map]
    cases r.constants <;> rfl
  | devirtualization =>
    simp only [Results.topics, Results.headings, List.map_map]
    cases r.virtualCalls <;> rfl
  | monomorphization =>
    simp only [Results.topics, Results.headings]
    cases r.specialization with
    | populated s =>
      simp only [Section.data?, Section.contribution, Option.map_some, Option.getD_some,
        Specialization.topics, List.map_append, List.map_map]
      by_cases hlarge : settings.oversizedVariantThreshold < s.requiredVariants
      · rw [if_pos hlarge, if_pos hlarge]
        rfl
      · rw [if_neg hlarge, if_neg hlarge, Multiset.zero_add]
        rfl
    | _ => rfl
  | lifetime =>
    simp only [Results.topics, Results.headings, List.map_map]
    cases r.lifetimes <;> rfl

private theorem map_heading_ofPass (settings : Settings) (r : Results) (pass : Pass) :
    .ofList ((ofPass settings r pass).map heading) = r.headings settings pass := by
  have hsame : (r.topics settings pass).map Topic.heading =
      (ofPass settings r pass).map heading := by
    rw [← List.forall₂_eq_eq_eq, List.forall₂_map_left_iff, List.forall₂_map_right_iff]
    exact (answers_ofPass settings r pass).imp fun _ _ h ↦ h.1.symm
  rw [← hsame, coe_map_heading_topics]

/-- The findings have the headings that the results of all passes call for. -/
theorem map_heading_ofResults (settings : Settings) (r : Results) :
    .ofList ((ofResults settings r).map heading) = (Pass.all.map (r.headings settings)).sum := by
  have hperm := (ofResults_perm settings r).map heading
  rw [Multiset.coe_eq_coe.mpr hperm, unordered_eq]
  generalize Pass.all = passes
  induction passes with
  | nil => rfl
  | cons pass passes ih =>
    rw [List.flatMap_cons, List.map_append, ← Multiset.coe_add, ih, map_heading_ofPass,
      List.map_cons, List.sum_cons]

private theorem ofPass_of_isPopulated_eq_false (h : r.isPopulated pass = false)
    (settings : Settings) :
    ofPass settings r pass = [] := by
  have hnone : r.headings settings pass = 0 := by
    cases pass <;> exact Section.contribution_of_isPopulated_eq_false h _
  rw [← map_heading_ofPass, Multiset.coe_eq_zero, List.map_eq_nil_iff] at hnone
  exact hnone

/-- The findings are in ascending order of their keys. -/
theorem pairwise_key_ofResults (settings : Settings) (r : Results) :
    (ofResults settings r).Pairwise (·.key ≤ ·.key) := by
  simp only [← precedes_iff_key_le]
  exact List.pairwise_mergeSort precedes_trans precedes_total _

/-- Findings with the same key stand in the order of passes and records. -/
theorem filter_key_ofResults (settings : Settings) (r : Results) (k : Nat ×ₗ Nat) :
    (ofResults settings r).filter (·.key = k) =
      (Pass.all.flatMap (ofPass settings r)).filter (·.key = k) := by
  rw [← unordered_eq]
  apply filter_mergeSort_of_forall precedes_trans precedes_total
  intro a b ha hb
  rw [decide_eq_true_eq] at ha hb
  rw [precedes_iff_key_le, ha, hb]

/-- Findings with the same key are those that the records of the passes call for, in this order. -/
theorem answers_filter_key (settings : Settings) (r : Results) (k : Nat ×ₗ Nat) :
    List.Forall₂ Answers
      ((Pass.all.flatMap (r.topics settings)).filter (·.heading.key = k))
      ((ofResults settings r).filter (·.key = k)) := by
  have hpasses : List.Forall₂ Eq Pass.all Pass.all := List.forall₂_refl _
  rw [filter_key_ofResults]
  refine List.rel_filter ?_ (List.rel_flatMap hpasses ?_)
  · intro topic finding h
    have hkey : finding.key = topic.heading.key := congrArg Heading.key h.1
    simp only [decide_eq_true_eq, hkey]
  · rintro pass _ rfl
    exact answers_ofPass settings r pass

/-- The findings on any results are in ascending order of urgency and statement, and those that
agree in both stand in the order of passes and of their records, each with the heading of its record
and opening with words that name it. Their headings are those that the results of the passes call
for, each as often as they do. A pass without results has none. -/
theorem ofResults_accounts (settings : Settings) (r : Results) :
    let findings := ofResults settings r
    findings.Pairwise (·.key ≤ ·.key) ∧
      (∀ k, findings.filter (·.key = k) =
        (Pass.all.flatMap (ofPass settings r)).filter (·.key = k)) ∧
      (∀ k, List.Forall₂ Answers
        ((Pass.all.flatMap (r.topics settings)).filter (·.heading.key = k))
        (findings.filter (·.key = k))) ∧
      .ofList (findings.map heading) = (Pass.all.map (r.headings settings)).sum ∧
      ∀ pass, r.isPopulated pass = false → ∀ finding ∈ findings, finding.pass ≠ pass := by
  intro findings
  refine ⟨pairwise_key_ofResults settings r, filter_key_ofResults settings r,
    answers_filter_key settings r, map_heading_ofResults settings r, ?_⟩
  rintro pass hpass finding hm rfl
  obtain ⟨pass, hm⟩ := mem_ofResults.mp hm
  rw [pass_of_mem_ofPass hm] at hpass
  rw [ofPass_of_isPopulated_eq_false hpass] at hm
  exact (nomatch hm)

/-- Results with three allocations, one of which escapes and one of which can be promoted, with a
large specialization and with no section of virtual calls. -/
def assembled : Results where
  signature := ⟨"assembled", [.abstract "Real"]⟩
  escapes := .populated [
    ⟨4, "zeros", .array, true, some 32, false, [], true, true⟩,
    ⟨3, "collect", .array, false, none, false, [], false, false⟩,
    ⟨2, "malloc", .manual, true, some 64, true, ["returned at #5"], false, false⟩]
  constants := .empty
  virtualCalls := .absent "disabled"
  specialization := .populated ⟨[⟨1, none, .abstract "Real", .ofList [], .unresolved⟩], false, 9⟩
  lifetimes := .populated [⟨2, "malloc", 5, ["returned at #5"], none⟩]

/-- Two findings of low priority on the same statement stand in the order of their passes, and there
is none on virtual calls. -/
theorem ofResults_accounts_assembled :
    ((ofResults {} assembled).filter (·.key = toLex (3, 2))).map heading =
        [⟨.low, .escape, some 2⟩, ⟨.low, .lifetime, some 2⟩] ∧
      .ofList ((ofResults {} assembled).map heading) = Multiset.ofList [
        ⟨.low, .escape, some 2⟩, ⟨.low, .escape, some 4⟩, ⟨.medium, .monomorphization, none⟩,
        ⟨.low, .monomorphization, none⟩, ⟨.low, .lifetime, some 2⟩] ∧
      assembled.isPopulated .devirtualization = false ∧
      ∀ finding ∈ ofResults {} assembled, finding.pass ≠ .devirtualization := by
  obtain ⟨-, hstable, -, haccount, hnone⟩ := ofResults_accounts {} assembled
  have hties : ((Pass.all.flatMap (ofPass {} assembled)).filter
      (·.key = toLex (3, 2))).map heading =
        [⟨.low, .escape, some 2⟩, ⟨.low, .lifetime, some 2⟩] := by
    decide +kernel
  refine ⟨?_, ?_, rfl, hnone .devirtualization rfl⟩
  · rw [hstable, hties]
  · rw [haccount]
    rfl

end Finding
end SsaAdvisor
