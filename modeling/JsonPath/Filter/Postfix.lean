import JsonPath.Filter.Token

/-!
# Filters in postfix order

A filter is written with its operators between the operands and is kept with every operator after
its operands, without parentheses. An `Arrangement` holds the tokens that are in their final order
and a stack of operators and parentheses that wait. An operator that arrives first sends off the
stacked operators that bind at least as tightly, so operators of one precedence group from the left;
a closing parenthesis sends off everything down to its partner.

The role of the token before decides what may come next: a binary operator and a closing parenthesis
need an operand before them, an operand and `!` must have none. The parenthesis that closes the
whole filter ends it, and what still waits follows in the order of the stack.

## Main definitions

* `Arrangement.feed`: one more token, if it may stand here.
* `Arrangement.run`: tokens are read and fed up to the parenthesis that closes the filter.
* `Filter.read`: the whole filter, from its opening parenthesis.
-/

namespace JsonPath

/-- A filter that is partly read. -/
structure Arrangement where
  /-- The tokens that are in their final order. -/
  output : List Token
  /-- The operators and opening parentheses that wait, the latest first. -/
  stack : List Token
  /-- How many parentheses are open, the one around the filter included. There are at most as many
  as characters were read of the filter. -/
  depth : Nat
  /-- The role of the token before; a group in parentheses counts as an operand. -/
  previous : Role

namespace Arrangement

/-- Right after the parenthesis that opens the filter. -/
def start : Arrangement :=
  ⟨[], [], 1, .none⟩

/-- Whether a stacked token goes before an operator that arrives. -/
def precedes (op : Operator) (t : Token) : Bool :=
  t != .opening && t.precedence ≤ op.precedence

/-- Whether an operator may follow. -/
def admits (a : Arrangement) (op : Operator) : Bool :=
  match op.role with
  | .binary => a.previous == .operand
  | _ => a.previous != .operand

/-- What becomes of a filter when a token is fed to it. -/
inductive Fed where
  /-- More tokens are to come. -/
  | more (a : Arrangement)
  /-- The token was the parenthesis that closes the filter. -/
  | done (a : Arrangement)

/-- Takes a closing parenthesis, which needs an operand before it. -/
def close? (a : Arrangement) : Option Fed :=
  if a.previous != .operand then
    none
  else if a.depth ≤ 1 then
    some (.done a)
  else
    match a.stack.dropWhile (· != .opening) with
    | [] => none
    | _ :: stack =>
      some <| .more
        ⟨a.output ++ a.stack.takeWhile (· != .opening), stack, a.depth - 1, .operand⟩

/-- Takes one more token, if it may stand after the one before it. -/
def feed (a : Arrangement) : Token → Option Fed
  | .opening => some (.more ⟨a.output, .opening :: a.stack, a.depth + 1, .none⟩)
  | .closing => a.close?
  | .operator op =>
    if a.admits op then
      some <| .more
        ⟨a.output ++ a.stack.takeWhile (precedes op),
          .operator op :: a.stack.dropWhile (precedes op), a.depth, op.role⟩
    else
      none
  | operand =>
    if a.previous == .operand then none
    else some (.more ⟨a.output ++ [operand], a.stack, a.depth, .operand⟩)

/-- Reads tokens and feeds them up to the parenthesis that closes the filter. The rest of the text
is what follows that parenthesis, or begins at what is at fault: at a token that may not stand where
it does. -/
def run (a : Arrangement) (s : List Char) : Except (List Char) (Arrangement × List Char) :=
  match h : Token.next a.previous s with
  | .error rest => .error rest
  | .ok (t, rest) =>
    have := Token.length_lt_of_next h
    match a.feed t with
    | none => .error (Text.skipBlanks s)
    | some (.done a) => .ok (a, rest)
    | some (.more a) => run a rest
termination_by s.length

/-- A filter takes at least one character. -/
theorem length_lt_of_run {a b : Arrangement} {s rest : List Char}
    (h : a.run s = .ok (b, rest)) : rest.length < s.length := by
  fun_induction run a s with
  | case1 => simp at h
  | case2 => simp at h
  | case3 => simp_all
  | case4 _ _ _ _ _ _ _ _ ih =>
    have := ih h
    omega

end Arrangement

namespace Filter

/-- Reads a filter from the parenthesis that opens it: its tokens in postfix order, and the rest. -/
def read : List Char → Except Fault (List Token × List Char)
  | '(' :: s =>
    match Arrangement.start.run s with
    | .error rest => .error (.unparsable rest)
    | .ok (a, rest) =>
      if a.stack.contains .opening then
        .error (.unbalanced ('(' :: s) ('(' :: s.take (s.length - rest.length)))
      else
        .ok (a.output ++ a.stack, rest)
  | s => .error (.unparsable s)

/-- A filter that is read leaves a shorter text, since it has a closing parenthesis at least. -/
theorem length_lt_of_read {s rest : List Char} {tokens : List Token}
    (h : read s = .ok (tokens, rest)) : rest.length < s.length := by
  unfold read at h
  split at h
  · split at h
    · simp at h
    · rename_i hs
      split at h
      · simp at h
      · obtain ⟨_, rfl⟩ := by simpa using h
        exact Nat.lt_succ_of_lt (Arrangement.length_lt_of_run hs)
  · simp at h

end Filter

end JsonPath
