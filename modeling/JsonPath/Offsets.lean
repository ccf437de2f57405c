import JsonPath.Filter.Token

/-!
# Reading at byte offsets

The readers of filters work on the text that is left. Here each of them is given a text and a byte
offset instead, and says at which offset it ends. No token begins inside a character: an offset
there, or past the end of the text, is answered as a place where nothing can be read.

## Main definitions

* `skipBlanksAt`, `Numeral.endAt?`, `Quoted.endAt?`: where blanks, a number, a quoted text end.
* `Step.readAt`: the steps of a reference.
* `Token.readAt`: a token, and where the reading stands afterwards.

## Main results

* `Token.readAt_of_dropBytes?`: what a reading from a character on comes to.
-/

namespace JsonPath

open Text

/-- The offset of the first character that is no blank. -/
def skipBlanksAt (text : String) (start : Nat) : Nat :=
  match dropBytes? start text.toList with
  | none => start
  | some s => offsetIn text.toList (skipBlanks s)

/-- The offset after the number that begins at an offset. -/
def Text.Numeral.endAt? (text : String) (start : Nat) : Option Nat :=
  (dropBytes? start text.toList).bind fun s =>
    (Numeral.scan s).map fun p => offsetIn text.toList p.2

/-- The offset after the quoted text that begins at an offset, whatever byte stands there as its
quote. -/
def Text.Quoted.endAt? (text : String) (start : Nat) : Option Nat :=
  match text.toUTF8.toList.drop start with
  | [] => none
  | quote :: rest =>
    match split '\\'.toUInt8 quote (fun _ => false) rest with
    | .ok (body, _) => some (start + body.length + 2)
    | .error _ => none

/-- The steps after the sign of a reference at an offset, and the offset after them. -/
def Step.readAt (text : String) (start : Nat) : Except Error (List Step × Nat) :=
  match dropBytes? (start + 1) text.toList with
  | none => .ok ([], start + 1)
  | some s =>
    match Step.readAll s with
    | .error rest => .error ((Fault.unparsable rest).report text.toList)
    | .ok (steps, rest) => .ok (steps, offsetIn text.toList rest)

namespace Token

/-- What comes of reading a token at a byte offset of a text. -/
structure Found where
  /-- The token and the offset at which it begins. -/
  result : Except Error (Token × Nat)
  /-- The offset at which the reading stands afterwards. -/
  position : Nat

/-- The first token from a byte offset of a text on; `previous` is the role of the token before
it. -/
def readAt (text : String) (start : Nat) (previous : Role) : Found :=
  match dropBytes? start text.toList with
  | none => ⟨.error (.unparsableAt text start), start⟩
  | some s =>
    match (lex previous).run.run s with
    | (.ok (t, first), rest) => ⟨.ok (t, offsetIn text.toList first), offsetIn text.toList rest⟩
    | (.error fault, rest) =>
      ⟨.error ((Fault.unparsable fault).report text.toList), offsetIn text.toList rest⟩

/-- What comes of reading a token where a character begins. -/
theorem readAt_of_dropBytes? {text : String} {start : Nat} {s : List Char}
    (h : dropBytes? start text.toList = some s) (previous : Role) :
    readAt text start previous =
      match next previous s with
      | .ok (t, rest) =>
        ⟨.ok (t, offsetIn text.toList (skipBlanks s)), offsetIn text.toList rest⟩
      | .error fault =>
        ⟨.error ((Fault.unparsable fault).report text.toList),
          offsetIn text.toList (skipBlanks s)⟩ := by
  rw [readAt, h]
  dsimp only
  rw [lex_eq]
  cases next previous s <;> rfl

end Token

end JsonPath
