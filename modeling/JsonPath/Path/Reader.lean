import JsonPath.Filter.Postfix
import JsonPath.Path.Segment

/-!
# Reading paths

A path is `$` and at least one segment. A segment begins with a point and a name, with brackets, or
with a point and brackets; a second point detaches it. In brackets stand `*`, quoted names,
positions, a slice, or `?` and a filter in parentheses. A name that parentheses follow calls a
function, and only functions may follow a function.

Each reader takes the text that is left and gives what it read with the rest, or the fault. Where a
fault is placed is part of what is read: at the character that may not stand there, at the beginning
of a number or a name that is no good as a whole, after the points of a segment.

## Main definitions

* `Selector.readDotted`, `Selector.readBracketed`: what follows a point, what stands in brackets.
* `Segment.read`: a segment.
* `Path.read`, `Path.ofString`: a whole path.

## Main results

* `Segment.length_lt_of_read`: a segment takes at least one character.
-/

namespace JsonPath

open Text

namespace Selector

/-- The integer a run of digits with an optional `-` stands for, if 64 bits can hold it. -/
def integer? : List Char → Option Int
  | '-' :: ds =>
    if ds.isEmpty || UInt64.size / 2 < digitsValue ds then none else some (-(digitsValue ds : Int))
  | ds =>
    if ds.isEmpty || UInt64.size / 2 ≤ digitsValue ds then none else some (digitsValue ds)

/-- The names of a list up to the bracket that closes it. `done` holds the names that were read,
`settled` says whether one was read since the last comma. -/
def readNames (done : List String) (settled : Bool) (s : List Char) :
    Except Fault (List String × List Char) :=
  match s with
  | [] => .error (.unparsable [])
  | c :: rest =>
    if c = ']' then
      if settled then .ok (done, c :: rest) else .error (.unparsable (c :: rest))
    else if c = '\'' ∨ c = '"' then
      if settled then
        .error (.unparsable (c :: rest))
      else
        match h : Quoted.split '\\' c (· == '\x00') rest with
        | .error fault => .error (.unparsable fault)
        | .ok (body, after) =>
          have := Quoted.length_lt_of_split h
          if body.isEmpty then .error (.unparsable (c :: rest))
          else readNames (done ++ [String.ofList (Quoted.unquote body)]) true after
    else if isPad c then
      readNames done settled rest
    else if c = ',' then
      if settled then readNames done false rest else .error (.unparsable (c :: rest))
    else
      .error (.unparsable (c :: rest))
termination_by s.length

/-- Which kind of positions a bracket turns out to hold. -/
inductive Positions where
  /-- One position so far: a list or a slice may still come of it. -/
  | undecided
  /-- A list. -/
  | list
  /-- A slice with this start. -/
  | slice (start : Option Int)

/-- Positions or a slice up to the bracket that closes them. `done` holds the positions before the
last comma, `current` the number read since the last comma or colon. -/
def readPositions (kind : Positions) (done : List Int) (current : Option Int) (s : List Char) :
    Except Fault (Selector × List Char) :=
  match s with
  | [] => .error (.unparsable [])
  | c :: rest =>
    if c = '-' ∨ c.isDigit then
      if current.isSome then
        .error (.unparsable (c :: rest))
      else if (rest.dropWhile Char.isDigit).head? = some '-' then
        .error (.unparsable (rest.dropWhile Char.isDigit))
      else
        match integer? (c :: rest.takeWhile Char.isDigit) with
        | none => .error (.unparsable (c :: rest))
        | some k =>
          have := length_dropWhile_le Char.isDigit rest
          readPositions kind done (some k) (rest.dropWhile Char.isDigit)
    else if c = ']' then
      match kind, current with
      | .slice start, stop => .ok (.slice start stop, c :: rest)
      | _, some k => .ok (.indices (done ++ [k]), c :: rest)
      | _, none => .error (.unparsable (c :: rest))
    else if c = ':' then
      match kind with
      | .undecided => readPositions (.slice current) [] none rest
      | _ => .error (.unparsable (c :: rest))
    else if c = ',' then
      match kind, current with
      | .slice _, _ => .error (.unparsable (c :: rest))
      | _, some k => readPositions .list (done ++ [k]) none rest
      | _, none => .error (.unparsable (c :: rest))
    else if isPad c then
      readPositions kind done current rest
    else
      .error (.unparsable (c :: rest))
termination_by s.length
decreasing_by all_goals (simp_wf; try omega)

/-- What stands in brackets, from its first character. -/
def readListed (s : List Char) : Except Fault (Selector × List Char) :=
  match s with
  | '?' :: rest => (Filter.read rest).map fun p => (.filter p.1, p.2)
  | '*' :: rest => .ok (.all, rest)
  | c :: _ =>
    if c = '\'' ∨ c = '"' then (readNames [] false s).map fun p => (.names p.1, p.2)
    else if c.isDigit ∨ c = ':' ∨ c = '-' then readPositions .undecided [] none s
    else .error (.unparsable s)
  | [] => .error (.unparsable s)

/-- What stands in brackets, after the opening one, up to and with the closing one. Blanks may stand
inside both. -/
def readBracketed (s : List Char) : Except Fault (Selector × List Char) :=
  match readListed (skipBlanks s) with
  | .error fault => .error fault
  | .ok (selector, rest) =>
    match skipBlanks rest with
    | ']' :: rest => .ok (selector, rest)
    | rest => .error (.unparsable rest)

/-- The parentheses of a function call, with blanks between them, and the rest. -/
def callParentheses? : List Char → Option (List Char × List Char)
  | '(' :: rest =>
    match skipBlanks rest with
    | ')' :: after => some ('(' :: (rest.takeWhile isBlank ++ [')']), after)
    | _ => none
  | _ => none

/-- What follows a point: `*`, a name, or a function call. -/
def readDotted (s : List Char) : Except Fault (Selector × List Char) :=
  match s with
  | '*' :: rest => .ok (.all, rest)
  | _ =>
    let name := s.takeWhile isWord
    let rest := s.dropWhile isWord
    match callParentheses? rest with
    | some (parentheses, after) =>
      match Aggregate.ofName? (String.ofList name) with
      | some f => .ok (.apply f, after)
      | none => .error (.unsupported s (name ++ parentheses))
    | none =>
      if name.isEmpty then .error (.unparsable s)
      else .ok (.names [String.ofList name], rest)

/-! ### Progress -/

/-- A list of names leaves no longer text. -/
theorem length_le_of_readNames {done names : List String} {settled : Bool} {s rest : List Char}
    (h : readNames done settled s = .ok (names, rest)) : rest.length ≤ s.length := by
  fun_induction readNames done settled s <;> try (simp at h; done)
  · simp_all
  all_goals
    rename_i ih
    have := ih h
    simp
    omega

/-- A list of positions leaves no longer text. -/
theorem length_le_of_readPositions {kind : Positions} {done : List Int} {current : Option Int}
    {s rest : List Char} {selector : Selector}
    (h : readPositions kind done current s = .ok (selector, rest)) : rest.length ≤ s.length := by
  fun_induction readPositions kind done current s <;> try (simp at h; done)
  all_goals first
    | (obtain ⟨_, rfl⟩ := by simpa using h
       exact Nat.le_refl _)
    | (rename_i ih
       have := ih h
       simp
       omega)

/-- What is listed in brackets leaves no longer text. -/
theorem length_le_of_readListed {s rest : List Char} {selector : Selector}
    (h : readListed s = .ok (selector, rest)) : rest.length ≤ s.length := by
  unfold readListed at h
  split at h
  · rename_i tail
    obtain ⟨p, hs, hp⟩ := map_eq_ok_iff.1 h
    obtain ⟨-, rfl⟩ := Prod.mk.inj hp
    have := Filter.length_lt_of_read hs
    simp
    omega
  · obtain ⟨_, rfl⟩ := by simpa using h
    simp
  · split at h
    · rename_i c tail _ _ _
      obtain ⟨p, hs, hp⟩ := map_eq_ok_iff.1 h
      obtain ⟨-, rfl⟩ := Prod.mk.inj hp
      exact length_le_of_readNames hs
    · split at h
      · exact length_le_of_readPositions h
      · simp at h
  · simp at h

/-- A selector in brackets leaves a shorter text, since its bracket is read. -/
theorem length_lt_of_readBracketed {s rest : List Char} {selector : Selector}
    (h : readBracketed s = .ok (selector, rest)) : rest.length < s.length := by
  unfold readBracketed at h
  split at h
  · simp at h
  · rename_i mid hm
    split at h
    · rename_i tail ht
      obtain ⟨_, rfl⟩ := by simpa using h
      have h₁ := length_le_of_readListed hm
      have h₂ := length_skipBlanks_le s
      have h₃ := length_skipBlanks_le mid
      rw [ht, List.length_cons] at h₃
      omega
    · simp at h

/-- The parentheses of a call that are read leave a shorter text. -/
theorem length_lt_of_callParentheses? {s rest parentheses : List Char}
    (h : callParentheses? s = some (parentheses, rest)) : rest.length < s.length := by
  unfold callParentheses? at h
  split at h
  · rename_i tail
    split at h
    · rename_i after ha
      obtain ⟨_, rfl⟩ := by simpa using h
      have := length_skipBlanks_le tail
      rw [ha, List.length_cons] at this
      simp
      omega
    · simp at h
  · simp at h

/-- A selector behind a point leaves no longer text. -/
theorem length_le_of_readDotted {s rest : List Char} {selector : Selector}
    (h : readDotted s = .ok (selector, rest)) : rest.length ≤ s.length := by
  have hs := length_dropWhile_le isWord s
  unfold readDotted at h
  split at h
  · obtain ⟨_, rfl⟩ := by simpa using h
    simp
  · dsimp only at h
    split at h
    · rename_i hc
      have := length_lt_of_callParentheses? hc
      split at h
      · obtain ⟨_, rfl⟩ := by simpa using h
        omega
      · simp at h
    · split at h
      · simp at h
      · obtain ⟨_, rfl⟩ := by simpa using h
        exact hs

end Selector

namespace Segment

/-- What a segment begins with. -/
structure Opening where
  /-- Whether brackets follow, or else a name. -/
  bracketed : Bool
  /-- Whether two points were read. -/
  detached : Bool

/-- What may follow the points of a segment: brackets or a name, but neither the end nor a further
point. -/
def openingAfter (detached : Bool) : List Char → Except Fault (Opening × List Char)
  | [] => .error (.unparsable [])
  | '.' :: rest => .error (.unparsable ('.' :: rest))
  | '[' :: rest => .ok (⟨true, detached⟩, '[' :: rest)
  | body => .ok (⟨false, detached⟩, body)

/-- The points a segment begins with, and its body: the name, or the brackets from the opening
one. -/
def readOpening : List Char → Except Fault (Opening × List Char)
  | '.' :: '.' :: body => openingAfter true body
  | '.' :: body => openingAfter false body
  | '[' :: rest => .ok (⟨true, false⟩, '[' :: rest)
  | s => .error (.unparsable s)

/-- The selector in the body of a segment. -/
def readBody (opening : Opening) (body : List Char) : Except Fault (Selector × List Char) :=
  if opening.bracketed then Selector.readBracketed body.tail else Selector.readDotted body

/-- The segment a text begins with, its body, and the rest. -/
def read (s : List Char) : Except Fault (Segment × List Char × List Char) :=
  match readOpening s with
  | .error fault => .error fault
  | .ok (opening, body) =>
    (readBody opening body).map fun p => (⟨p.1, opening.detached⟩, body, p.2)

/-- Finding out how a selector opens reads nothing, and there is something to open. -/
theorem length_of_openingAfter {detached : Bool} {s body : List Char} {opening : Opening}
    (h : openingAfter detached s = .ok (opening, body)) : body = s ∧ s ≠ [] := by
  unfold openingAfter at h
  split at h
  · simp at h
  · simp at h
  · obtain ⟨_, rfl⟩ := by simpa using h
    simp
  · simp_all

/-- An opening leaves a text for its selector, which is shorter unless a bracket is what opens. -/
theorem length_of_readOpening {s body : List Char} {opening : Opening}
    (h : readOpening s = .ok (opening, body)) :
    body.length ≤ s.length ∧ body ≠ [] ∧ (opening.bracketed = false → body.length < s.length) := by
  unfold readOpening at h
  split at h
  · obtain ⟨rfl, hne⟩ := length_of_openingAfter h
    exact ⟨by simp only [List.length_cons]; omega, hne,
      fun _ => by simp only [List.length_cons]; omega⟩
  · obtain ⟨rfl, hne⟩ := length_of_openingAfter h
    exact ⟨by simp, hne, fun _ => by simp⟩
  · obtain ⟨rfl, rfl⟩ := by simpa using h
    simp
  · simp at h

/-- A segment takes at least one character. -/
theorem length_lt_of_read {s body rest : List Char} {segment : Segment}
    (h : read s = .ok (segment, body, rest)) : rest.length < s.length := by
  unfold read at h
  split at h
  · simp at h
  · rename_i opening b ho
    obtain ⟨hle, hne, hlt⟩ := length_of_readOpening ho
    obtain ⟨p, hb, hp⟩ := map_eq_ok_iff.1 h
    obtain ⟨_, _, rfl⟩ := by simpa using hp
    unfold readBody at hb
    split at hb
    · have := Selector.length_lt_of_readBracketed hb
      rw [List.length_tail] at this
      omega
    · rename_i hnb
      have := Selector.length_le_of_readDotted hb
      have := hlt (by simpa using hnb)
      omega

end Segment

namespace Path

/-- The segments of a path. After a function only functions are admitted; the fault is the body of
the first segment that is none. -/
def readSegments (afterFunction : Bool) (s : List Char) : Except Fault (List Segment) :=
  if s.isEmpty then
    .ok []
  else
    match h : Segment.read s with
    | .error fault => .error fault
    | .ok (segment, body, rest) =>
      have := Segment.length_lt_of_read h
      if afterFunction && !segment.isFunction then .error (.unparsable body)
      else (readSegments segment.isFunction rest).map (segment :: ·)
termination_by s.length

/-- A path: the root and at least one segment. -/
def read : List Char → Except Fault Path
  | '$' :: c :: rest => (readSegments false (c :: rest)).map Path.mk
  | _ => .error .missingRoot

/-- The path that a text denotes. -/
def ofString (text : String) : Except Error Path :=
  (read text.toList).mapError (Fault.report text.toList)

end Path

end JsonPath
