import JsonPath.Text

/-!
# Quoted text

Between two quotes of one kind a backslash stands before a quote of that kind or before a backslash,
and before nothing else. The same rule serves the names of a bracketed list and the string literals
of a filter; a list of names refuses some characters besides.

`Quoted.split` finds the closing quote and leaves the escapes in place, `unquote` drops them. A
failure is reported as the rest of the text at the character that cannot stand there. The alphabet
is left open, so that a text can be searched as bytes too.

## Main results

* `Quoted.append_of_split`: the body, the closing quote and the rest make up the text.
* `Quoted.unquote_escape`: escaping is undone by `unquote`.
-/

namespace JsonPath.Text.Quoted

variable {α : Type} [DecidableEq α]

/-- Reads up to the closing `quote`: the body with its escapes, and the rest after the quote. The
reading fails at an `escape` with nothing to escape, at a `banned` character and at the end. -/
def split (escape quote : α) (banned : α → Bool) : List α → Except (List α) (List α × List α)
  | [] => .error []
  | c :: rest =>
    if c = quote then
      .ok ([], rest)
    else if c = escape then
      match rest with
      | [] => .error [c]
      | d :: rest =>
        if d = quote ∨ d = escape then
          (split escape quote banned rest).map fun p => (c :: d :: p.1, p.2)
        else
          .error (c :: d :: rest)
    else if banned c then
      .error (c :: rest)
    else
      (split escape quote banned rest).map fun p => (c :: p.1, p.2)

/-- The text with the backslash of every escape dropped. -/
def unquote : List Char → List Char
  | [] => []
  | '\\' :: [] => []
  | '\\' :: c :: rest => c :: unquote rest
  | c :: rest => c :: unquote rest

/-- The text with a backslash before every backslash and every `quote`. -/
def escape (quote : Char) : List Char → List Char
  | [] => []
  | c :: rest => if c = quote ∨ c = '\\' then '\\' :: c :: escape quote rest
      else c :: escape quote rest

/-- A body that is split off, its quote and what is left make up the text. -/
theorem append_of_split {escape quote : α} {banned : α → Bool} {s body rest : List α}
    (h : split escape quote banned s = .ok (body, rest)) : body ++ quote :: rest = s := by
  fun_induction split escape quote banned s generalizing body rest with
  | case1 => simp at h
  | case2 =>
    obtain ⟨rfl, rfl⟩ := by simpa using h
    rfl
  | case3 => simp at h
  | case4 d tail _ _ ih =>
    obtain ⟨p, hs, hp⟩ := map_eq_ok_iff.1 h
    obtain ⟨rfl, rfl⟩ := Prod.mk.inj hp
    simp [ih hs]
  | case5 => simp at h
  | case6 => simp at h
  | case7 c tail _ _ _ ih =>
    obtain ⟨p, hs, hp⟩ := map_eq_ok_iff.1 h
    obtain ⟨rfl, rfl⟩ := Prod.mk.inj hp
    simp [ih hs]

/-- A body that is split off leaves a shorter text, since its quote is read. -/
theorem length_lt_of_split {escape quote : α} {banned : α → Bool} {s body rest : List α}
    (h : split escape quote banned s = .ok (body, rest)) : rest.length < s.length := by
  rw [← append_of_split h]
  simp
  omega

/-- What is escaped for a quote is read back as it was. -/
theorem unquote_escape (quote : Char) (s : List Char) : unquote (escape quote s) = s := by
  induction s with
  | nil => rfl
  | cons c s ih =>
    rw [escape]
    split
    · simp [unquote, ih]
    · rename_i h
      rw [unquote]
      · rw [ih]
      · intro hc _; simp [hc] at h
      · intro _ _ hc _; simp [hc] at h

end JsonPath.Text.Quoted
