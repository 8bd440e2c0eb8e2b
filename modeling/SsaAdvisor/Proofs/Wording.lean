import Mathlib.Data.List.DropRight
import SsaAdvisor.Lifetime

/-!
# The wording of uses

What is written of a use ends in the number of its statement, and what stands in front of the number
tells the kind of the use. So a reason to escape determines the use that it tells of, and so does a
conflict with a release. The name of a callee may hold anything, also what reads like the end of
such a text: the number is what stands behind the last mark.
-/

namespace SsaAdvisor

private theorem rtakeWhile_isDigit_append_mark (front : String) (n : Nat) :
    (front ++ ("#" ++ toString n)).toList.rtakeWhile Char.isDigit = Nat.toDigits 10 n := by
  have hall : ∀ c ∈ (Nat.toDigits 10 n).reverse, c.isDigit = true := by
    intro c hc
    exact Nat.isDigit_of_mem_toDigits (by decide) (by decide) (List.mem_reverse.mp hc)
  have hlist : (front ++ ("#" ++ toString n)).toList =
      front.toList ++ '#' :: Nat.toDigits 10 n := by simp
  -- read from the back, the digits come first and the mark, which is none, ends them
  rw [hlist, List.rtakeWhile, List.reverse_append, List.reverse_cons, List.append_assoc,
    List.takeWhile_append_of_pos hall]
  simp

private theorem append_mark_inj {front front' : String} {m n : Nat}
    (h : front ++ ("#" ++ toString m) = front' ++ ("#" ++ toString n)) :
    front = front' ∧ m = n := by
  have hdigits : Nat.toDigits 10 m = Nat.toDigits 10 n := by
    rw [← rtakeWhile_isDigit_append_mark front, h, rtakeWhile_isDigit_append_mark]
  have hnumber := congrArg (Nat.ofDigitChars 10 · 0) hdigits
  simp only [Nat.ofDigitChars_ten_toDigits] at hnumber
  subst hnumber
  exact ⟨by simpa using h, rfl⟩

namespace UseKind

/-- What is written in front of the statement's number. The verb says how a callee that may retain
the value got it. -/
def wording (verb : String) : UseKind → String
  | .returned => "returned at "
  | .globalStore => "stored to global storage at "
  | .unknownCall callee => verb ++ " unknown callee '" ++ callee ++ "' at "
  | .safeRead => "read at "
  | .release => "already released at "
  | .condition => "used as a condition at "

section Verb

variable {verb : String} {initial : Char} {rest : List Char} {kind kind' : UseKind}

private theorem wording_unknownCall_ne (hverb : verb.toList = initial :: rest)
    (hinitial : initial ∉ ['r', 's', 'a', 'u']) {callee : String}
    (hkind : ∀ callee, kind ≠ .unknownCall callee) :
    wording verb (.unknownCall callee) ≠ wording verb kind := by
  intro h
  have hhead := congrArg (fun text : String ↦ text.toList.head?) h
  simp only [List.mem_cons, List.not_mem_nil, or_false, not_or] at hinitial
  cases kind with
  | unknownCall callee => exact hkind callee rfl
  | _ => simp [wording, hverb, hinitial] at hhead

private theorem wording_injective (hverb : verb.toList = initial :: rest)
    (hinitial : initial ∉ ['r', 's', 'a', 'u']) : Function.Injective (wording verb) := by
  intro kind kind' h
  cases kind with
  | unknownCall callee =>
    cases kind' with
    | unknownCall callee' =>
      simp only [wording, String.append_left_inj, String.append_right_inj] at h
      rw [h]
    | _ => exact absurd h (wording_unknownCall_ne hverb hinitial nofun)
  | _ =>
    cases kind' with
    | unknownCall callee' => exact absurd h.symm (wording_unknownCall_ne hverb hinitial nofun)
    | _ => simp_all [wording]

end Verb

end UseKind

namespace ValueUse

/-- A use is written as its wording and the number of its statement. -/
def written (verb : String) (use : ValueUse) : String :=
  use.kind.wording verb ++ ("#" ++ toString use.index)

theorem written_injective {verb : String} {initial : Char} {rest : List Char}
    (hverb : verb.toList = initial :: rest) (hinitial : initial ∉ ['r', 's', 'a', 'u']) :
    Function.Injective (written verb) := by
  intro use use' h
  obtain ⟨hwording, hindex⟩ := append_mark_inj h
  have hkind := UseKind.wording_injective hverb hinitial hwording
  cases use
  cases use'
  simp_all

private theorem text_eq_written : text = written "passed to" := by
  funext ⟨index, kind⟩
  cases kind with
  | unknownCall callee =>
    simp only [text, written, UseKind.wording, String.append_assoc]
    rfl
  | _ => rfl

private theorem conflictText_eq_written : conflictText = written "captured by" := by
  funext ⟨index, kind⟩
  cases kind with
  | unknownCall callee =>
    simp only [conflictText, written, UseKind.wording, String.append_assoc]
    rfl
  | _ => rfl

/-- What is written of a use determines its statement and its kind. -/
theorem text_injective : Function.Injective text := by
  have hverb : "passed to".toList = 'p' :: "assed to".toList := by simp
  rw [text_eq_written]
  exact written_injective hverb (by decide)

/-- What is written of a conflict determines its statement and its kind. -/
theorem conflictText_injective : Function.Injective conflictText := by
  have hverb : "captured by".toList = 'c' :: "aptured by".toList := by simp
  rw [conflictText_eq_written]
  exact written_injective hverb (by decide)

end ValueUse
end SsaAdvisor
