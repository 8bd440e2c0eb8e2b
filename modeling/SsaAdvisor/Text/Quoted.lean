import SsaAdvisor.Text.Graphic

/-!
# Quoted text

Text in messages stands between double quotes. Quote, backslash and the usual control characters
have a letter escape, every other character that does not show on its own is written by its code
point in hexadecimal, and all else stands for itself; an apostrophe needs no escape.
-/

namespace SsaAdvisor.Text

/-- The letter that stands behind a backslash for this character, if it has one. -/
def escapeLetter? : Char → Option Char
  | '"' => some '"'
  | '\\' => some '\\'
  | '\n' => some 'n'
  | '\r' => some 'r'
  | '\t' => some 't'
  | '\x00' => some '0'
  | _ => none

/-- Lowercase hexadecimal digits of a number, without leading zeros. -/
def hexDigits (n : Nat) : List Char := Nat.toDigits 16 n

/-- The written form of one character inside quotes. -/
def escape (c : Char) : List Char :=
  match escapeLetter? c with
  | some letter => ['\\', letter]
  | none =>
    if isGraphic c then [c] else ['\\', 'u', '\x7b'] ++ hexDigits c.toNat ++ ['\x7d']

/-- Text between double quotes, character by character. -/
def quote (s : String) : String :=
  String.ofList ('"' :: (s.toList.flatMap escape ++ ['"']))

/-- A character that shows on its own and has no letter escape is written as itself. -/
theorem escape_of_isGraphic {c : Char} (hl : escapeLetter? c = none) (hg : isGraphic c = true) :
    escape c = [c] := by
  simp [escape, hl, hg]

end SsaAdvisor.Text
