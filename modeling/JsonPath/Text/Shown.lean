import JsonPath.Text.Hidden

/-!
# Names as they are shown

A description of a path shows a name in double quotes, so that nothing in it is left to guess:
quotes and backslashes are escaped, and a character that does not show by itself is given by its
code. The form is for readers; it has escapes that a path does not.

## Main definitions

* `shown`: how a name is shown.

## Main results

* `shownChar_of_plain`: a visible ASCII character that needs no escape shows as it is.
-/

namespace JsonPath.Text

/-- A character by its code. -/
def codeEscape (c : Char) : List Char :=
  ['\\', 'u', '\x7b'] ++ Nat.toDigits 16 c.toNat ++ ['\x7d']

/-- How a character of a name is shown. -/
def shownChar (c : Char) : List Char :=
  if c = '"' then ['\\', '"']
  else if c = '\\' then ['\\', '\\']
  else if c = '\t' then ['\\', 't']
  else if c = '\r' then ['\\', 'r']
  else if c = '\n' then ['\\', 'n']
  else if c = '\x00' then ['\\', '0']
  else if isHidden c then codeEscape c
  else [c]

/-- How a name is shown: in double quotes. -/
def shown (name : String) : String :=
  String.ofList ('"' :: name.toList.flatMap shownChar ++ ['"'])

/-- A visible ASCII character that needs no escape shows as it is. -/
theorem shownChar_of_plain {c : Char} (hl : 32 ≤ c.toNat) (hu : c.toNat < 127) (hq : c ≠ '"')
    (hb : c ≠ '\\') : shownChar c = [c] := by
  have ne (d : Char) (hd : d.toNat < 32) : c ≠ d := by
    rintro rfl
    omega
  rw [shownChar, if_neg hq, if_neg hb, if_neg (ne _ (by decide)), if_neg (ne _ (by decide)),
    if_neg (ne _ (by decide)), if_neg (ne _ (by decide)), if_neg]
  simp only [isHidden, show c.toNat < 128 by omega, if_true, Bool.or_eq_true, decide_eq_true_eq,
    beq_iff_eq]
  omega

end JsonPath.Text
