import JsonPath.Pattern.Escape

/-!
# Classes in brackets

A class in brackets is the union of what stands in it: characters, ranges, escapes, named ASCII
classes and nested classes. `&&`, `--` and `~~` combine what stands on their two sides, from the
left. A `]` at the beginning stands for itself, and so do dashes at the beginning and a dash at the
end.

## Main definitions

* `readPosix?`: a named ASCII class.
* `readRange`: a range, or a single item.
* `readClass`: a whole class.
-/

namespace JsonPath

open Text

namespace Pattern

/-- The ASCII classes that are named in brackets of their own. -/
def posixClasses : List (String × CharRanges) :=
  [("alnum", [(0x30, 0x39), (0x41, 0x5A), (0x61, 0x7A)]),
    ("alpha", [(0x41, 0x5A), (0x61, 0x7A)]),
    ("ascii", [(0x00, 0x7F)]),
    ("blank", [(0x09, 0x09), (0x20, 0x20)]),
    ("cntrl", [(0x00, 0x1F), (0x7F, 0x7F)]),
    ("digit", [(0x30, 0x39)]),
    ("graph", [(0x21, 0x7E)]),
    ("lower", [(0x61, 0x7A)]),
    ("print", [(0x20, 0x7E)]),
    ("punct", [(0x21, 0x2F), (0x3A, 0x40), (0x5B, 0x60), (0x7B, 0x7E)]),
    ("space", [(0x09, 0x0D), (0x20, 0x20)]),
    ("upper", [(0x41, 0x5A)]),
    ("word", [(0x30, 0x39), (0x41, 0x5A), (0x5F, 0x5F), (0x61, 0x7A)]),
    ("xdigit", [(0x30, 0x39), (0x41, 0x46), (0x61, 0x66)])]

/-- An ASCII class, `[:name:]` or `[:^name:]`, after its bracket. There is none if the text does not
look like one. -/
def readPosix? (f : Flags) (s : List Char) : Option (CharClass × List Char) :=
  match s with
  | ':' :: rest =>
    let negated := rest.head? = some '^'
    let rest := if negated then rest.tail else rest
    match rest.dropWhile (· != ':') with
    | ':' :: ']' :: after =>
      (posixClasses.lookup (String.ofList (rest.takeWhile (· != ':')))).map fun ranges =>
        (f.finish negated (.table ranges), after)
    | _ => none
  | _ => none

/-- A class, and how deeply it is nested. -/
structure Nested where
  /-- The class. -/
  toClass : CharClass
  /-- How deeply it is nested. -/
  depth : Nat

/-- The union of the items that stand side by side. -/
def Nested.unionOf (items : List Nested) : Nested :=
  match items with
  | [] => ⟨.empty, 0⟩
  | [k] => k
  | k :: rest =>
    ⟨rest.foldl (fun u l => u.union l.toClass) k.toClass,
      1 + items.foldl (fun d l => max d l.depth) 0⟩

/-- The ways to combine two classes. -/
inductive Combination where
  /-- What is in both, `&&`. -/
  | intersection
  /-- What is in the first only, `--`. -/
  | difference
  /-- What is in one only, `~~`. -/
  | symmetric

/-- The left-hand side of a combination that waits for its right-hand side. -/
abbrev Waiting := Option (Nested × Combination)

/-- The class so far, once a right-hand side is complete. Both sides are closed under case first. -/
def combine (f : Flags) (waiting : Waiting) (right : Nested) : Nested :=
  match waiting with
  | none => right
  | some (left, how) =>
    let k := f.finish false left.toClass
    let l := f.finish false right.toClass
    ⟨match how with
      | .intersection => k.intersection l
      | .difference => k.difference l
      | .symmetric => k.symmetric l, 1 + max left.depth right.depth⟩

/-- The combination a text begins with, and the rest. -/
def readCombination? : List Char → Option (Combination × List Char)
  | '&' :: '&' :: rest => some (.intersection, rest)
  | '-' :: '-' :: rest => some (.difference, rest)
  | '~' :: '~' :: rest => some (.symmetric, rest)
  | _ => none

/-- A character or an escape in a class. -/
def readClassPrimitive (f : Flags) : List Char → Except Refusal (Primitive × List Char)
  | [] => .error .unclosedClass
  | '\\' :: rest => readEscape f rest
  | c :: rest => .ok (.char c, rest)

/-- A primitive as a part of a class. Anchors are none, and outside Unicode a character must be an
ASCII one. -/
def Primitive.toClass? (f : Flags) : Primitive → Option CharClass
  | .char c => if f.unicode || c.toNat < 128 then some (.single c) else none
  | .named n negated =>
    let k := n.toClass f.unicode
    some (if negated then k.complement else k)
  | .anchor _ => none

/-- Whether a `-` in a class is followed by what makes it stand for itself. -/
def endsRange (f : Flags) (s : List Char) : Bool :=
  match f.skip s with
  | ']' :: _ => true
  | '-' :: _ => true
  | _ => false

/-- A range, or a single item of a class. -/
def readRange (f : Flags) (s : List Char) : Except Refusal (Nested × List Char) := do
  let (low, rest) ← readClassPrimitive f s
  let single : Except Refusal (Nested × List Char) :=
    match low.toClass? f with
    | some k => .ok (⟨k, 0⟩, f.skip rest)
    | none => .error .classItem
  match f.skip rest with
  | [] => .error .unclosedClass
  | '-' :: after =>
    if endsRange f after then
      single
    else
      let (high, rest) ← readClassPrimitive f (f.skip after)
      match low, high with
      | .char a, .char b =>
        if a ≤ b && (f.unicode || b.toNat < 128) then
          .ok (⟨.table [(a.toNat, b.toNat)], 0⟩, rest)
        else
          .error .classItem
      | _, _ => .error .classItem
  | _ => single

/-- The dashes at the beginning of a class, which stand for themselves, and the rest. -/
def splitDashes (f : Flags) : (bound : Nat) → List Char → List Nested × List Char
  | 0, s => ([], s)
  | bound + 1, s =>
    match s with
    | '-' :: rest =>
      let more := splitDashes f bound (f.skip rest)
      (⟨.single '-', 0⟩ :: more.1, more.2)
    | s => ([], s)

/-- What a class begins with after its bracket: whether it is negated, and the items that stand for
themselves there. -/
def readClassStart (f : Flags) (s : List Char) : Bool × List Nested × List Char :=
  let s := f.skip s
  let negated := s.head? = some '^'
  let dashes := splitDashes f s.length (if negated then f.skip s.tail else s)
  match dashes.1, dashes.2 with
  | [], ']' :: rest => (negated, [⟨.single ']', 0⟩], f.skip rest)
  | items, rest => (negated, items, rest)

mutual

/-- A class after its opening bracket, with the closing one. -/
def readClass (f : Flags) : (bound : Nat) → List Char → Except Refusal (Nested × List Char)
  | 0, _ => .error .unclosedClass
  | bound + 1, s =>
    let start := readClassStart f s
    match readClassItems f bound none start.2.1 start.2.2 with
    | .error e => .error e
    | .ok (inner, rest) => .ok (⟨f.finish start.1 inner.toClass, inner.depth + 1⟩, rest)

/-- The items of a class up to and with the closing bracket. `items` are those that stand side by
side since the last combination. -/
def readClassItems (f : Flags) : (bound : Nat) → Waiting → (items : List Nested) → List Char →
    Except Refusal (Nested × List Char)
  | 0, _, _, _ => .error .unclosedClass
  | bound + 1, waiting, items, s =>
    match f.skip s with
    | [] => .error .unclosedClass
    | ']' :: rest => .ok (combine f waiting (.unionOf items), rest)
    | '[' :: rest =>
      match readPosix? f rest with
      | some (k, rest) => readClassItems f bound waiting (items ++ [⟨k, 0⟩]) rest
      | none =>
        match readClass f bound rest with
        | .error e => .error e
        | .ok (k, rest) => readClassItems f bound waiting (items ++ [k]) rest
    | s =>
      match readCombination? s with
      | some (how, rest) =>
        readClassItems f bound (some (combine f waiting (.unionOf items), how)) [] rest
      | none =>
        match readRange f s with
        | .error e => .error e
        | .ok (k, rest) => readClassItems f bound waiting (items ++ [k]) rest

end

end Pattern

end JsonPath
