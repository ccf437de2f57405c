import JsonPath.Document.Node
import JsonPath.Proofs.Document.Grammar
import JsonPath.Proofs.Text.Stopping

/-!
# Well-Formed Trees

A tree of the type `Node` holds any texts for its numbers, strings and gaps. It is
*well formed* if these are what the grammar of JSON allows in their places. The texts of the
well-formed trees are exactly the values of the grammar, and a tree is nested as deeply as a
derivation of its text has to be.

## Main results

* `Node.WellFormed.derives`: the text of a well-formed tree is a value.
* `Grammar.Derives.hasTree`: **every value is the text of a well-formed tree**.
* `Node.WellFormed.exists_text_eq_cons`: how the text of a value begins.
-/

namespace JsonPath

open Text Grammar

/-- The parts of a number are those of a JSON number. -/
structure Text.Numeral.WellFormed (n : Numeral) : Prop where
  /-- There is no plus sign. -/
  sign : n.sign = [] ∨ n.sign = ['-']
  /-- There are no leading zeros. -/
  integer : Whole n.integer
  /-- A point has digits after it. -/
  fraction : ∀ s ∈ n.fraction, Digits s
  /-- The exponent has digits. -/
  exponent : ∀ e ∈ n.exponent, (e.mark = 'e' ∨ e.mark = 'E') ∧
    (e.sign = [] ∨ e.sign = ['-'] ∨ e.sign = ['+']) ∧ Digits e.digits

/-- What stands in front of a child: blanks, and for every child but the first a comma. -/
def Grammar.Gap (first : Bool) (s : List Char) : Prop :=
  if first then Blanks s
  else ∃ before after, s = before ++ ',' :: after ∧ Blanks before ∧ Blanks after

/-- A colon with blanks around it. -/
def Grammar.Colon (s : List Char) : Prop :=
  ∃ left right, s = left ++ ':' :: right ∧ Blanks left ∧ Blanks right

mutual

/-- A value is what the grammar allows. -/
def Node.WellFormed : Node → Prop
  | .number numeral => numeral.WellFormed
  | .string body => Characters body
  | .array items => items.WellFormed true
  | .object members => members.WellFormed true
  | _ => True

/-- What stands in brackets, from the first element on or after it, is what the grammar
allows. -/
def Items.WellFormed (first : Bool) : Items → Prop
  | .close blanks => Blanks blanks
  | .item gap value rest => Gap first gap ∧ value.WellFormed ∧ rest.WellFormed false

/-- What stands in braces, from the first member on or after it, is what the grammar
allows. -/
def Members.WellFormed (first : Bool) : Members → Prop
  | .close blanks => Blanks blanks
  | .member gap key colon value rest =>
      Gap first gap ∧ Characters key ∧ Colon colon ∧ value.WellFormed ∧ rest.WellFormed false

end

/-! ### The text of a well-formed tree -/

/-- The text of a number is a number. -/
theorem Text.Numeral.WellFormed.number {n : Numeral} (h : n.WellFormed) : Number n.text := by
  have hfraction : Fraction (n.fraction.elim [] ('.' :: ·)) := by
    cases hf : n.fraction with
    | none => exact .none
    | some s => exact .digits (h.fraction s hf)
  have hscale : Scale (n.exponent.elim [] Exponent.text) := by
    cases he : n.exponent with
    | none => exact .none
    | some e =>
        obtain ⟨hmark, hsign, hdigits⟩ := h.exponent e he
        exact .digits hmark hsign hdigits
  exact .mk h.sign h.integer hfraction hscale

/-- How the text of a whole number begins. -/
theorem Grammar.Whole.exists_eq_cons {s : List Char} (h : Whole s) :
    ∃ c t, s = c :: t ∧ c.isDigit := by
  cases h with
  | zero => exact ⟨'0', [], rfl, rfl⟩
  | @digits c t _ hd => exact ⟨c, t, rfl, hd.2 c (by simp)⟩

/-- **How the text of a value begins**: with neither a blank nor a character that ends or
separates values. -/
theorem Node.WellFormed.exists_text_eq_cons {node : Node} (h : node.WellFormed) :
    ∃ c t, node.text = c :: t ∧ isBlank c = false ∧ c ∉ [',', ':', ']', '\x7d'] := by
  cases node with
  | null => exact ⟨'n', _, rfl, rfl, by decide⟩
  | bool value => cases value <;> exact ⟨_, _, rfl, rfl, by decide⟩
  | number numeral =>
      obtain ⟨c, t, ht, hc⟩ := h.integer.exists_eq_cons
      have hdigit : isBlank c = false ∧ c ∉ [',', ':', ']', '\x7d'] := by
        refine ⟨isBlank_of_isDigit hc, fun hmem => ?_⟩
        have : c = ',' ∨ c = ':' ∨ c = ']' ∨ c = '\x7d' := by simpa using hmem
        rcases this with rfl | rfl | rfl | rfl <;> exact absurd hc (by decide)
      rcases h.sign with hsign | hsign
      · exact ⟨c, _, by rw [Node.text, Numeral.text, hsign, ht]; rfl, hdigit⟩
      · exact ⟨'-', _, by rw [Node.text, Numeral.text, hsign]; rfl, by decide⟩
  | string body => exact ⟨'"', _, rfl, rfl, by decide⟩
  | array items => exact ⟨'[', _, rfl, rfl, by decide⟩
  | object members => exact ⟨'\x7b', _, rfl, rfl, by decide⟩

/-! ### From trees to the grammar -/

/-- What follows an element: blanks and the end, or blanks, a comma and elements. -/
def Grammar.Follows (symbol : Symbol) (depth : Nat) (s : List Char) : Prop :=
  Blanks s ∨ ∃ before more, s = before ++ ',' :: more ∧ Blanks before ∧
    Derives symbol depth more

/-- A value with what follows it makes elements. -/
theorem Grammar.Follows.elements {depth : Nat} {before value after : List Char}
    (hbefore : Blanks before) (hvalue : Derives .value depth value)
    (hafter : Follows .elements depth after) :
    Derives .elements depth (before ++ (value ++ after)) := by
  rcases hafter with hafter | ⟨blanks, more, rfl, hblanks, hmore⟩
  · exact .element hbefore hvalue hafter
  · exact .elements hbefore hvalue hblanks hmore

/-- A key and a value with what follows them make members. -/
theorem Grammar.Follows.members {depth : Nat} {before key colon value after : List Char}
    (hbefore : Blanks before) (hkey : Characters key) (hcolon : Colon colon)
    (hvalue : Derives .value depth value) (hafter : Follows .members depth after) :
    Derives .members depth (before ++ (quoted key ++ (colon ++ (value ++ after)))) := by
  obtain ⟨left, right, rfl, hleft, hright⟩ := hcolon
  rcases hafter with hafter | ⟨blanks, more, rfl, hblanks, hmore⟩
  · simpa [quoted] using Derives.member hbefore hkey hleft hright hvalue hafter
  · simpa [quoted] using Derives.members hbefore hkey hleft hright hvalue hblanks hmore

mutual

/-- **The text of a well-formed tree is a value**, nested as deeply as the tree. -/
theorem Node.WellFormed.derives {node : Node} {depth : Nat} (h : node.WellFormed)
    (hdepth : node.depth ≤ depth) : Derives .value depth node.text := by
  match node, depth with
  | .null, _ => exact .nullWord
  | .bool true, _ => exact .trueWord
  | .bool false, _ => exact .falseWord
  | .number numeral, _ => exact .number (Numeral.WellFormed.number h)
  | .string body, _ => exact .string h
  | .array (.close blanks), depth + 1 => exact .emptyArray h
  | .array (.item gap value rest), depth + 1 =>
      obtain ⟨hgap, hvalue, hrest⟩ := h
      have hle : max value.depth rest.depth ≤ depth := Nat.le_of_succ_le_succ hdepth
      have hderives := hvalue.derives (Nat.le_trans (Nat.le_max_left _ _) hle)
      obtain ⟨after, htext, hafter⟩ := hrest.follows (Nat.le_trans (Nat.le_max_right _ _) hle)
      have harray := Derives.array (Follows.elements hgap hderives hafter)
      rw [Node.text, Items.text, htext]
      simpa using harray
  | .object (.close blanks), depth + 1 => exact .emptyObject h
  | .object (.member gap key colon value rest), depth + 1 =>
      obtain ⟨hgap, hkey, hcolon, hvalue, hrest⟩ := h
      have hle : max value.depth rest.depth ≤ depth := Nat.le_of_succ_le_succ hdepth
      have hderives := hvalue.derives (Nat.le_trans (Nat.le_max_left _ _) hle)
      obtain ⟨after, htext, hafter⟩ := hrest.follows (Nat.le_trans (Nat.le_max_right _ _) hle)
      have hobject := Derives.object (Follows.members hgap hkey hcolon hderives hafter)
      rw [Node.text, Members.text, htext]
      simpa using hobject

/-- What stands behind an element. -/
theorem Items.WellFormed.follows {items : Items} {depth : Nat} (h : items.WellFormed false)
    (hdepth : items.depth ≤ depth) :
    ∃ s, items.text = s ++ [']'] ∧ Follows .elements depth s := by
  match items with
  | .close blanks => exact ⟨blanks, rfl, .inl h⟩
  | .item gap value rest =>
      obtain ⟨⟨before, after, rfl, hbefore, hafter⟩, hvalue, hrest⟩ := h
      obtain ⟨s, hs, hfollows⟩ := hrest.follows (Nat.le_trans (Nat.le_max_right _ _) hdepth)
      have hderives := hvalue.derives (Nat.le_trans (Nat.le_max_left _ _) hdepth)
      refine ⟨before ++ ',' :: (after ++ (value.text ++ s)), ?_,
        .inr ⟨before, _, rfl, hbefore, Follows.elements hafter hderives hfollows⟩⟩
      rw [Items.text, hs]
      simp

/-- What stands behind a member. -/
theorem Members.WellFormed.follows {members : Members} {depth : Nat}
    (h : members.WellFormed false) (hdepth : members.depth ≤ depth) :
    ∃ s, members.text = s ++ ['\x7d'] ∧ Follows .members depth s := by
  match members with
  | .close blanks => exact ⟨blanks, rfl, .inl h⟩
  | .member gap key colon value rest =>
      obtain ⟨⟨before, after, rfl, hbefore, hafter⟩, hkey, hcolon, hvalue, hrest⟩ := h
      obtain ⟨s, hs, hfollows⟩ := hrest.follows (Nat.le_trans (Nat.le_max_right _ _) hdepth)
      have hderives := hvalue.derives (Nat.le_trans (Nat.le_max_left _ _) hdepth)
      refine ⟨before ++ ',' :: (after ++ (quoted key ++ (colon ++ (value.text ++ s)))), ?_,
        .inr ⟨before, _, rfl, hbefore, Follows.members hafter hkey hcolon hderives hfollows⟩⟩
      rw [Members.text, hs]
      simp

end

/-! ### From the grammar to trees -/

/-- Every number is the text of a well-formed one. -/
theorem Grammar.Number.exists_numeral {s : List Char} (h : Number s) :
    ∃ n : Numeral, n.WellFormed ∧ n.text = s := by
  obtain ⟨hminus, hwhole, hfraction, hscale⟩ := h
  next minus whole fraction scale =>
  obtain ⟨f, hf, hftext⟩ : ∃ f : Option (List Char),
      (∀ t ∈ f, Digits t) ∧ f.elim [] ('.' :: ·) = fraction := by
    cases hfraction with
    | none => exact ⟨none, by simp, rfl⟩
    | @digits t ht => exact ⟨some t, by simpa using ht, rfl⟩
  obtain ⟨e, he, hetext⟩ : ∃ e : Option Exponent,
      (∀ e' ∈ e, (e'.mark = 'e' ∨ e'.mark = 'E') ∧
        (e'.sign = [] ∨ e'.sign = ['-'] ∨ e'.sign = ['+']) ∧ Digits e'.digits) ∧
      e.elim [] Exponent.text = scale := by
    cases hscale with
    | none => exact ⟨none, by simp, rfl⟩
    | @digits mark sign t hmark hsign ht =>
        exact ⟨some ⟨mark, sign, t⟩, by simpa using ⟨hmark, hsign, ht⟩, rfl⟩
  exact ⟨⟨minus, whole, f, e⟩, ⟨hminus, hwhole, hf, he⟩, by rw [Numeral.text, hftext, hetext]⟩

/-- There is a well-formed tree of a symbol with a text. -/
def Grammar.HasTree : Symbol → Nat → List Char → Prop
  | .value, depth, s => ∃ node : Node, node.WellFormed ∧ node.depth ≤ depth ∧ node.text = s
  | .elements, depth, s => ∃ gap value rest, (Items.item gap value rest).WellFormed true ∧
      (Items.item gap value rest).depth ≤ depth ∧
      (Items.item gap value rest).text = s ++ [']']
  | .members, depth, s => ∃ gap key colon value rest,
      (Members.member gap key colon value rest).WellFormed true ∧
      (Members.member gap key colon value rest).depth ≤ depth ∧
      (Members.member gap key colon value rest).text = s ++ ['\x7d']

/-- **Every derivation has a well-formed tree.** -/
theorem Grammar.Derives.hasTree {symbol : Symbol} {depth : Nat} {s : List Char}
    (h : Derives symbol depth s) : HasTree symbol depth s := by
  induction h with
  | nullWord => exact ⟨.null, trivial, Nat.zero_le _, rfl⟩
  | trueWord => exact ⟨.bool true, trivial, Nat.zero_le _, rfl⟩
  | falseWord => exact ⟨.bool false, trivial, Nat.zero_le _, rfl⟩
  | number h =>
      obtain ⟨n, hn, htext⟩ := h.exists_numeral
      exact ⟨.number n, hn, Nat.zero_le _, htext⟩
  | string h => exact ⟨.string _, h, Nat.zero_le _, rfl⟩
  | emptyArray h => exact ⟨.array (.close _), h, Nat.succ_le_succ (Nat.zero_le _), rfl⟩
  | array _ ih =>
      obtain ⟨gap, value, rest, hw, hd, ht⟩ := ih
      exact ⟨.array (.item gap value rest), hw, Nat.succ_le_succ hd, by rw [Node.text, ht]⟩
  | emptyObject h => exact ⟨.object (.close _), h, Nat.succ_le_succ (Nat.zero_le _), rfl⟩
  | object _ ih =>
      obtain ⟨gap, key, colon, value, rest, hw, hd, ht⟩ := ih
      exact ⟨.object (.member gap key colon value rest), hw, Nat.succ_le_succ hd,
        by rw [Node.text, ht]⟩
  | @element depth before value after hbefore _ hafter ih =>
      obtain ⟨node, hw, hd, rfl⟩ := ih
      exact ⟨before, node, .close after, ⟨hbefore, hw, hafter⟩,
        Nat.max_le.2 ⟨hd, Nat.zero_le _⟩, by simp [Items.text]⟩
  | @elements depth before value after more hbefore _ hafter _ ih ihmore =>
      obtain ⟨node, hw, hd, rfl⟩ := ih
      obtain ⟨gap, value, rest, ⟨hgap, hvalue, hrest⟩, hdmore, htmore⟩ := ihmore
      refine ⟨before, node, .item (after ++ ',' :: gap) value rest,
        ⟨hbefore, hw, ⟨after, gap, rfl, hafter, hgap⟩, hvalue, hrest⟩,
        Nat.max_le.2 ⟨hd, hdmore⟩, ?_⟩
      simpa [Items.text] using htmore
  | @member depth before key left right value after hbefore hkey hleft hright _ hafter ih =>
      obtain ⟨node, hw, hd, rfl⟩ := ih
      exact ⟨before, key, left ++ ':' :: right, node, .close after,
        ⟨hbefore, hkey, ⟨left, right, rfl, hleft, hright⟩, hw, hafter⟩,
        Nat.max_le.2 ⟨hd, Nat.zero_le _⟩, by simp [Members.text, quoted]⟩
  | @members depth before key left right value after more hbefore hkey hleft hright _ hafter _
      ih ihmore =>
      obtain ⟨node, hw, hd, rfl⟩ := ih
      obtain ⟨gap, key', colon, value, rest, ⟨hgap, hrest⟩, hdmore, htmore⟩ := ihmore
      refine ⟨before, key, left ++ ':' :: right, node,
        .member (after ++ ',' :: gap) key' colon value rest,
        ⟨hbefore, hkey, ⟨left, right, rfl, hleft, hright⟩, hw,
          ⟨after, gap, rfl, hafter, hgap⟩, hrest⟩,
        Nat.max_le.2 ⟨hd, hdmore⟩, ?_⟩
      simpa [Members.text, quoted] using htmore

end JsonPath
