import JsonPath.Document.Reader

/-!
# Walking a document by its text

A value of a document can be known by its place alone, without its tree: a `Span` is the text from
the first character of the value on, and the text behind the value. What it contains is found by
reading again. Each child is read for itself, with room for the full depth however deep it stands,
and the walk goes on behind it.

A `Scan` is a walk over the children of one container, between two of them. It ends behind the
container, at the closing bracket, or at the first place that cannot be read; that is reported as if
it were the last child.

## Main definitions

* `Span`, `Site.spanIn`: a value by its place, and the span of a value whose tree is known.
* `Scan.step`, `Scan.collect`: the next child, and all that follow.
* `Span.elements`, `Span.members`: the children of an array and of an object.

## Main results

* `Scan.length_lt_of_step`: a step leaves less to be read, whatever its outcome.
-/

namespace JsonPath

open Text

namespace Document

/-- A value by its place in a document. -/
structure Span where
  /-- The document from the first character of the value on. -/
  rest : List Char
  /-- The document behind the value. -/
  after : List Char
  deriving DecidableEq, Repr

/-- A walk over the children of a container. -/
structure Scan where
  /-- The document from where the walk stands. -/
  rest : List Char
  /-- The document behind the container. -/
  stop : List Char
  /-- Whether no child was found yet. -/
  first : Bool
  deriving DecidableEq, Repr

namespace Scan

/-- The document from the next child on, past blanks and, except in front of the first child, a
comma; nothing at the closing bracket. -/
def next? (closing : Char) (missing : Malformed) (s : Scan) : Except Flaw (Option (List Char)) :=
  match skipBlanks s.rest with
  | [] => if s.first then .ok (some []) else .error ⟨[], missing⟩
  | c :: after =>
    if !s.first && c == ',' then .ok (some (skipBlanks after))
    else if c == closing then .ok none
    else if s.first then .ok (some (c :: after))
    else .error ⟨c :: after, missing⟩

/-- Going on to the next child makes the rest of a span no longer. -/
theorem length_le_of_next? {closing : Char} {missing : Malformed} {s : Scan} {rest : List Char}
    (h : s.next? closing missing = .ok (some rest)) : rest.length ≤ s.rest.length := by
  have hskip := length_skipBlanks_le s.rest
  unfold next? at h
  split at h
  · split at h
    · obtain rfl : [] = rest := by simpa using h
      exact Nat.zero_le _
    · cases h
  · next c after hc =>
    rw [hc, List.length_cons] at hskip
    have hafter := length_skipBlanks_le after
    split at h
    · obtain rfl : skipBlanks after = rest := by simpa using h
      omega
    · split at h
      · cases h
      · split at h
        · obtain rfl : c :: after = rest := by simpa using h
          exact hskip
        · cases h

variable {α : Type}

/-- The next child, read by `child`, and the walk behind it. Something wrong takes the place of a
child, and nothing follows it. -/
def step (closing : Char) (missing : Malformed) (child : (s : List Char) → Outcome α s) (s : Scan) :
    Option (Except Flaw α × Scan) :=
  if s.rest.length ≤ s.stop.length then
    none
  else
    match s.next? closing missing with
    | .error flaw => some (.error flaw, { s with rest := s.stop })
    | .ok none => none
    | .ok (some rest) =>
      match child rest with
      | .error flaw => some (.error flaw, { s with rest := s.stop })
      | .ok (value, after) => some (.ok value, ⟨after.1, s.stop, false⟩)

/-- A step leaves less to be read, whatever its outcome. -/
theorem length_lt_of_step {closing : Char} {missing : Malformed}
    {child : (s : List Char) → Outcome α s} {s t : Scan} {found : Except Flaw α}
    (h : s.step closing missing child = some (found, t)) : t.rest.length < s.rest.length := by
  unfold step at h
  split at h
  · cases h
  next hstop =>
  split at h
  · obtain ⟨-, rfl⟩ := by simpa using h
    exact Nat.not_le.1 hstop
  · cases h
  · next rest hrest =>
    have hle := length_le_of_next? hrest
    split at h
    · obtain ⟨-, rfl⟩ := by simpa using h
      exact Nat.not_le.1 hstop
    · next value after _ =>
      obtain ⟨-, rfl⟩ := by simpa using h
      exact Nat.lt_of_lt_of_le after.2 hle

/-- All the children from here on. -/
def collect (closing : Char) (missing : Malformed) (child : (s : List Char) → Outcome α s)
    (s : Scan) : List (Except Flaw α) :=
  match h : s.step closing missing child with
  | none => []
  | some (found, t) =>
    have := length_lt_of_step h
    found :: t.collect closing missing child
termination_by s.rest.length

end Scan

namespace Span

/-- The text of the value. -/
def text (s : Span) : List Char :=
  s.rest.take (s.rest.length - s.after.length)

/-- The kind of the value, by its first character. -/
def kind (s : Span) : Kind :=
  match s.rest with
  | '\x7b' :: _ => .object
  | '[' :: _ => .array
  | '"' :: _ => .string
  | 't' :: _ => .bool
  | 'f' :: _ => .bool
  | 'n' :: _ => .null
  | _ => .number

/-- The value that begins here, as an element. -/
def readElement (s : List Char) : Outcome Span s :=
  match readValue maxDepth s with
  | .error flaw => .error flaw
  | .ok (_, after) => .ok (⟨s, after.1⟩, after)

/-- A member takes at least one character. -/
theorem length_lt_of_pair {s behind rest after : List Char} (hbehind : behind.length < s.length)
    (h : skipBlanks behind = ':' :: rest) (hafter : after.length < (skipBlanks rest).length) :
    after.length < s.length := by
  have h₁ := length_skipBlanks_le behind
  have h₂ := length_skipBlanks_le rest
  rw [h, List.length_cons] at h₁
  omega

/-- The key that begins here and the value of its member. -/
def readPair (s : List Char) : Outcome (Span × Span) s :=
  match readString s .keyExpected with
  | .error flaw => .error flaw
  | .ok (_, ⟨behind, hbehind⟩) =>
    match h : skipBlanks behind with
    | ':' :: rest =>
      match readValue maxDepth (skipBlanks rest) with
      | .error flaw => .error flaw
      | .ok (_, ⟨after, hafter⟩) =>
        .ok ((⟨s, behind⟩, ⟨skipBlanks rest, after⟩),
          ⟨after, length_lt_of_pair hbehind h hafter⟩)
    | rest => .error ⟨rest, .colonExpected⟩

/-- A walk over what the value contains if it is of a kind; over nothing otherwise. -/
def scan (kind : Kind) (s : Span) : Scan :=
  ⟨if s.kind = kind then s.rest.tail else s.after, s.after, true⟩

/-- The elements of an array in order; nothing else has elements. -/
def elements (s : Span) : List (Except Flaw Span) :=
  (s.scan .array).collect ']' .elementEnd readElement

/-- The members of an object in order, each with its key; nothing else has members. -/
def members (s : Span) : List (Except Flaw (Span × Span)) :=
  (s.scan .object).collect '\x7d' .memberEnd readPair

end Span

end Document

/-- The span of a value in its document. -/
def Site.spanIn (document : List Char) (s : Site) : Document.Span :=
  ⟨(dropBytes? s.start document).getD [],
    (dropBytes? (s.start + byteSize s.text) document).getD []⟩

end JsonPath
