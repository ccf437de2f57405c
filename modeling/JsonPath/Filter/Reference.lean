import JsonPath.Text

/-!
# References

A filter refers to a value of the document by `$` or `@` and steps, each of which names one member
or one element:

    .name    .['name']    ['name']    ["name"]    [3]

Quoted names take no escapes, so they end at the next quote of their kind. A reference ends where no
step begins; a step that begins and cannot be read is at fault as a whole.

## Main definitions

* `Step`, `Reference`: a step, and a reference with the text it was written as.
* `Step.read?`: the step a text begins with.
* `Step.readAll`: all the steps a text begins with.

## Main results

* `Step.length_lt_of_read?`: a step takes at least one character.
* `Step.length_le_of_readAll`: steps never lengthen a text.
-/

namespace JsonPath

/-- One step of a reference. -/
inductive Step where
  /-- The member with a name. -/
  | name (name : String)
  /-- The element at a position, counted from zero. -/
  | index (position : Nat)
  deriving DecidableEq, Repr

/-- A reference to one value: the text it was written as, and the steps that lead to the value. -/
structure Reference where
  /-- The text of the reference, with its first sign. -/
  text : String
  /-- The steps from the value the first sign stands for. -/
  steps : List Step
  deriving DecidableEq, Repr

namespace Step

open Text

/-- The end of a bracketed step: blanks and `]`. -/
def close? (step : Step) (s : List Char) : Option (Step × List Char) :=
  match skipBlanks s with
  | ']' :: rest => some (step, rest)
  | _ => none

/-- A quoted name without escapes, after its opening quote. -/
def quoted? (quote : Char) (s : List Char) : Option (Step × List Char) :=
  match s.dropWhile (· != quote) with
  | _ :: rest => close? (.name (String.ofList (s.takeWhile (· != quote)))) rest
  | [] => none

/-- A position, in digits that stand for less than `2 ^ 64`. -/
def position? (s : List Char) : Option (Step × List Char) :=
  let n := digitsValue (s.takeWhile Char.isDigit)
  if n < UInt64.size then close? (.index n) (s.dropWhile Char.isDigit) else none

/-- What stands between the brackets of a step. -/
def bracketed? (s : List Char) : Option (Step × List Char) :=
  match skipBlanks s with
  | c :: rest =>
    if c = '\'' ∨ c = '"' then quoted? c rest
    else if c.isDigit then position? (c :: rest)
    else none
  | [] => none

/-- A name without quotes, after its point. -/
def named? (s : List Char) : Option (Step × List Char) :=
  let name := s.takeWhile isWord
  if name.isEmpty then none else some (.name (String.ofList name), s.dropWhile isWord)

/-- The step a text begins with. -/
def read? : List Char → Option (Step × List Char)
  | '.' :: '[' :: rest => bracketed? rest
  | '[' :: rest => bracketed? rest
  | '.' :: rest => named? rest
  | _ => none

/-- Whether a step begins here. -/
def begins : List Char → Bool
  | '.' :: _ => true
  | '[' :: _ => true
  | _ => false

/-- The bracket that closes a step is read. -/
theorem length_lt_of_close? {step t : Step} {s rest : List Char}
    (h : close? step s = some (t, rest)) : rest.length < s.length := by
  unfold close? at h
  split at h
  · rename_i tail hs
    obtain ⟨_, rfl⟩ := by simpa using h
    have := length_skipBlanks_le s
    rw [hs, List.length_cons] at this
    omega
  · simp at h

/-- A step in brackets leaves a shorter text. -/
theorem length_lt_of_bracketed? {t : Step} {s rest : List Char}
    (h : bracketed? s = some (t, rest)) : rest.length < s.length := by
  have hs := length_skipBlanks_le s
  unfold bracketed? at h
  split at h
  · rename_i c tail hc
    rw [hc] at hs
    split at h
    · unfold quoted? at h
      split at h
      · rename_i _ r hr
        have h₁ := length_lt_of_close? h
        have h₂ := length_dropWhile_le (· != c) tail
        rw [hr] at h₂
        simp at hs h₂
        omega
      · simp at h
    · split at h
      · unfold position? at h
        dsimp only at h
        split at h
        · have h₁ := length_lt_of_close? h
          have h₂ := length_dropWhile_le Char.isDigit (c :: tail)
          omega
        · simp at h
      · simp at h
  · simp at h

/-- A step takes at least one character. -/
theorem length_lt_of_read? {t : Step} {s rest : List Char}
    (h : read? s = some (t, rest)) : rest.length < s.length := by
  unfold read? at h
  split at h
  · have := length_lt_of_bracketed? h
    simp
    omega
  · have := length_lt_of_bracketed? h
    simp
    omega
  · rename_i tail _
    unfold named? at h
    dsimp only at h
    split at h
    · simp at h
    · obtain ⟨_, rfl⟩ := by simpa using h
      have := length_dropWhile_le isWord tail
      simp
      omega
  · simp at h

/-- All the steps a text begins with, and the rest. A step that cannot be read is reported as the
rest of the text at its first character. -/
def readAll (s : List Char) : Except (List Char) (List Step × List Char) :=
  if begins s then
    match h : read? s with
    | none => .error s
    | some (step, rest) =>
      have := length_lt_of_read? h
      (readAll rest).map fun p => (step :: p.1, p.2)
  else
    .ok ([], s)
termination_by s.length

/-- Steps never lengthen a text. -/
theorem length_le_of_readAll {s rest : List Char} {steps : List Step}
    (h : readAll s = .ok (steps, rest)) : rest.length ≤ s.length := by
  fun_induction readAll s generalizing steps rest with
  | case1 => simp at h
  | case2 s _ step tail hs hlt ih =>
    obtain ⟨p, ht, hp⟩ := map_eq_ok_iff.1 h
    obtain ⟨-, rfl⟩ := Prod.mk.inj hp
    have := ih ht
    omega
  | case3 => simp_all

end Step

end JsonPath
