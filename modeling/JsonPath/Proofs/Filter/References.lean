import JsonPath.Offsets
import JsonPath.Proofs.Document.Grammar
import JsonPath.Proofs.Filter.Lookahead

/-!
# References Are Read Back

A step of a reference can be written in several ways: a name without quotes behind a point, a name
in quotes of either kind or a position in brackets, with or without a point in front of the brackets
and with blanks inside them. `WrittenStep` has one constructor for each of them, `WrittenStep.text`
is how the step is written, `WrittenStep.step` what it means.

Steps can be written one after the other without anything between them, because each begins with a
point or a bracket and neither can go on with a name. So a reference is read back as the steps it
was written for (`WrittenStep.readAll_text`), and its end is found in front of every text that
begins no step and does not go on with the last name.

## Main definitions

* `WrittenStep`: a step as it is written.
* `WrittenStep.Ends`: what may stand behind the steps of a reference.

## Main results

* `WrittenStep.read?_text`, `WrittenStep.readAll_text`: one step, and all of them, are read back.
* `Step.readAt_written`: **references are read back**, with the offset at which they end.
-/

namespace JsonPath

open Text Grammar

/-- A step of a reference as it is written. -/
inductive WrittenStep where
  /-- A name without quotes, behind a point. -/
  | bare (name : List Char)
  /-- A name in quotes, in brackets that a point may precede. -/
  | quoted (point : Bool) (before : List Char) (quote : Char) (name after : List Char)
  /-- A position in decimal digits, in brackets that a point may precede. -/
  | position (point : Bool) (before digits after : List Char)

namespace WrittenStep

/-- The step that is written. -/
def step : WrittenStep → Step
  | .bare name => .name (String.ofList name)
  | .quoted _ _ _ name _ => .name (String.ofList name)
  | .position _ _ digits _ => .index (digitsValue digits)

/-- Brackets, with a point in front of them or without one. -/
def brackets (point : Bool) (content : List Char) : List Char :=
  (if point then ['.'] else []) ++ '[' :: (content ++ [']'])

/-- The text of a step. -/
def text : WrittenStep → List Char
  | .bare name => '.' :: name
  | .quoted point before quote name after =>
    brackets point (before ++ quote :: (name ++ quote :: after))
  | .position point before digits after => brackets point (before ++ (digits ++ after))

/-- What a written step has to be: a name without quotes is not empty and made of the characters of
such names, a name in quotes does not contain its quote, a position can be held in 64 bits. -/
def WellFormed : WrittenStep → Prop
  | .bare name => name ≠ [] ∧ ∀ c ∈ name, isWord c
  | .quoted _ before quote name after =>
    (quote = '\'' ∨ quote = '"') ∧ quote ∉ name ∧ Blanks before ∧ Blanks after
  | .position _ before digits after =>
    Digits digits ∧ digitsValue digits < Nat.pow 2 64 ∧ Blanks before ∧ Blanks after

/-- Whether a step is a name without quotes. -/
def isBare : WrittenStep → Bool
  | .bare _ => true
  | _ => false

/-- What may stand behind the steps of a reference: nothing, or a character that begins no step and
does not go on with the last name. -/
def Ends (written : List WrittenStep) (after : List Char) : Prop :=
  ∀ c ∈ after.head?, c ≠ '.' ∧ c ≠ '[' ∧
    ∀ w ∈ written.getLast?, w.isBare = true → isWord c = false

/-! ### One step -/

/-- Blanks may stand in front of the bracket that closes a step. -/
theorem close?_blanks {blanks : List Char} (h : Blanks blanks) (t : Step) (rest : List Char) :
    Step.close? t (blanks ++ ']' :: rest) = some (t, rest) := by
  rw [Step.close?, skipBlanks_append_eq (blanks_iff.1 h) rfl]
  rfl

/-- A name without its quote is read up to the bracket. -/
theorem quoted?_name {quote : Char} {name after : List Char} (hname : quote ∉ name)
    (hafter : Blanks after) (rest : List Char) :
    Step.quoted? quote (name ++ quote :: (after ++ ']' :: rest)) =
      some (.name (String.ofList name), rest) := by
  have hall : ∀ c ∈ name, (c != quote) = true := fun c hc =>
    bne_iff_ne.2 fun hquote => hname (hquote ▸ hc)
  have hstop : ∀ c ∈ (quote :: (after ++ ']' :: rest)).head?, (c != quote) = false := by simp
  rw [Step.quoted?, dropWhile_append_eq hall hstop, takeWhile_append_eq hall hstop]
  exact close?_blanks hafter _ rest

/-- Digits below the bound are read up to the bracket. -/
theorem position?_digits {digits after : List Char} (hdigits : Digits digits)
    (hlt : digitsValue digits < Nat.pow 2 64) (hafter : Blanks after) (rest : List Char) :
    Step.position? (digits ++ (after ++ ']' :: rest)) =
      some (.index (digitsValue digits), rest) := by
  have hstop : ∀ c ∈ (after ++ ']' :: rest).head?, c.isDigit = false := by
    rcases after with - | ⟨d, after⟩
    · simp
    · intro c hc
      obtain rfl : d = c := by simpa using hc
      exact (not_blank (blanks_iff.1 hafter d (by simp))).1
  simp only [Step.position?, dropWhile_append_eq hdigits.2 hstop,
    takeWhile_append_eq hdigits.2 hstop]
  rw [if_pos (by simpa [UInt64.size] using hlt)]
  exact close?_blanks hafter _ rest

/-- Brackets are read as a step in brackets, with or without a point in front. -/
theorem read?_brackets {point : Bool} {content rest : List Char} :
    Step.read? (brackets point content ++ rest) = Step.bracketed? (content ++ ']' :: rest) := by
  cases point <;> simp [brackets, Step.read?]

/-- **One step is read back**, in front of any text that does not go on with its name. -/
theorem read?_text {w : WrittenStep} (h : w.WellFormed) {rest : List Char}
    (hrest : w.isBare = true → ∀ c ∈ rest.head?, isWord c = false) :
    Step.read? (w.text ++ rest) = some (w.step, rest) := by
  cases w with
  | bare name =>
      obtain ⟨hne, hword⟩ := h
      obtain ⟨c, name, rfl⟩ := List.exists_cons_of_ne_nil hne
      rw [text, List.cons_append, List.cons_append, Step.read?]
      · rw [← List.cons_append, Step.named?, takeWhile_append_eq hword (hrest rfl),
          dropWhile_append_eq hword (hrest rfl)]
        rfl
      · rintro _ ⟨⟩
        exact absurd (hword '[' (by simp)) (by decide)
  | quoted point before quote name after =>
      obtain ⟨hquote, hname, hbefore, hafter⟩ := h
      have hblank : isBlank quote = false := by rcases hquote with rfl | rfl <;> rfl
      rw [text, read?_brackets]
      simp only [List.append_assoc, List.cons_append]
      rw [Step.bracketed?, skipBlanks_append_eq (blanks_iff.1 hbefore) hblank]
      dsimp only
      rw [if_pos hquote]
      exact quoted?_name hname hafter rest
  | position point before digits after =>
      obtain ⟨hdigits, hlt, hbefore, hafter⟩ := h
      have hread := position?_digits hdigits hlt hafter rest
      obtain ⟨d, digits, rfl⟩ := List.exists_cons_of_ne_nil hdigits.1
      have hd : d.isDigit = true := hdigits.2 d (by simp)
      have hquote : ¬ (d = '\'' ∨ d = '"') := by
        rintro (rfl | rfl) <;> exact absurd hd (by decide)
      rw [text, read?_brackets]
      simp only [List.append_assoc, List.cons_append] at hread ⊢
      rw [Step.bracketed?, skipBlanks_append_eq (blanks_iff.1 hbefore) (isBlank_of_isDigit hd)]
      dsimp only
      rw [if_neg hquote, if_pos hd]
      exact hread

/-! ### All the steps -/

/-- A step begins with a point or a bracket. -/
theorem head_text (w : WrittenStep) (rest : List Char) :
    ∀ c ∈ (w.text ++ rest).head?, c = '.' ∨ c = '[' := by
  have brackets_head (point : Bool) (content : List Char) :
      ∀ c ∈ (brackets point content ++ rest).head?, c = '.' ∨ c = '[' := by
    cases point <;> simp [brackets]
  cases w with
  | bare name => simp [text]
  | quoted point before quote name after => exact brackets_head point _
  | position point before digits after => exact brackets_head point _

/-- **Steps are read back**, one by one, up to a text that ends them. A name without quotes ends in
front of the next step, or at the end of all of them. -/
theorem readAll_text {written : List WrittenStep} (h : ∀ w ∈ written, w.WellFormed)
    {after : List Char} (hafter : Ends written after) :
    Step.readAll (written.flatMap text ++ after) = .ok (written.map step, after) := by
  induction written with
  | nil =>
      rw [List.flatMap_nil, List.nil_append]
      refine Step.readAll_of_not_begins ?_
      rcases after with - | ⟨c, after⟩
      · rfl
      · obtain ⟨hpoint, hbracket, -⟩ := hafter c rfl
        rw [Step.begins]
        · rintro _ ⟨⟩
          exact hpoint rfl
        · rintro _ ⟨⟩
          exact hbracket rfl
  | cons w written ih =>
      obtain ⟨hw, hwritten⟩ := List.forall_mem_cons.1 h
      have hlater : Ends written after := fun c hc =>
        ⟨(hafter c hc).1, (hafter c hc).2.1, fun w' hw' =>
          (hafter c hc).2.2 w' (List.mem_getLast?_cons hw')⟩
      have hrest : w.isBare = true →
          ∀ c ∈ (written.flatMap text ++ after).head?, isWord c = false := by
        intro hbare c hc
        rcases written with - | ⟨w', written⟩
        · exact (hafter c hc).2.2 w rfl hbare
        · rw [List.flatMap_cons, List.append_assoc] at hc
          rcases head_text w' _ c hc with rfl | rfl <;> rfl
      rw [List.flatMap_cons, List.append_assoc, Step.readAll_of_read? (read?_text hw hrest),
        ih hwritten hlater]
      rfl

end WrittenStep

/-- **References are read back**: behind `$` or `@`, and in front of every text that ends them, the
steps are found as they were written, with the offset after the last one. -/
theorem Step.readAt_written {sign : Char} (hsign : sign = '$' ∨ sign = '@')
    {written : List WrittenStep} (hwritten : ∀ w ∈ written, w.WellFormed) {after : String}
    (hafter : WrittenStep.Ends written after.toList) (before : String) :
    readAt (before ++ String.ofList (sign :: written.flatMap WrittenStep.text) ++ after)
        (byteSize before.toList) =
      .ok (written.map WrittenStep.step,
        byteSize before.toList + byteSize (sign :: written.flatMap WrittenStep.text)) ∧
    Token.readReference sign (written.flatMap WrittenStep.text ++ after.toList) =
      .ok (⟨String.ofList (sign :: written.flatMap WrittenStep.text),
        written.map WrittenStep.step⟩, after.toList) := by
  have hread := WrittenStep.readAll_text hwritten hafter
  have hsize : byteSize [sign] = 1 := by rcases hsign with rfl | rfl <;> rfl
  constructor
  · have htext : (before ++ String.ofList (sign :: written.flatMap WrittenStep.text) ++
        after).toList =
        (before.toList ++ [sign]) ++ (written.flatMap WrittenStep.text ++ after.toList) := by
      simp
    have hstart : byteSize before.toList + 1 = byteSize (before.toList ++ [sign]) := by
      rw [byteSize_append, hsize]
    rw [readAt, htext, hstart, dropBytes?_byteSize]
    dsimp only
    rw [hread]
    dsimp only
    rw [← List.append_assoc, offsetIn_append]
    simp [byteSize_append]
  · simp only [Token.readReference, hread, Except.map, List.length_append, Nat.add_sub_cancel,
      List.take_left]

/-- A name without quotes, a name in quotes behind a point and a position with a leading zero, in
front of a blank. -/
theorem Step.readAt_written_mixed :
    readAt ("1 < " ++ "@.a.[\"] \" ][\t07]" ++ " - 1") 4 =
        .ok ([.name "a", .name "] ", .index 7], 20) ∧
      Token.readReference '@' ".a.[\"] \" ][\t07] - 1".toList =
        .ok (⟨"@.a.[\"] \" ][\t07]", [.name "a", .name "] ", .index 7]⟩, " - 1".toList) := by
  have hbare : (WrittenStep.bare ['a']).WellFormed :=
    ⟨by decide, List.all_eq_true.1 rfl⟩
  have hquoted : (WrittenStep.quoted true [] '"' [']', ' '] [' ']).WellFormed :=
    ⟨.inr rfl, by decide, by simp [Blanks], by simp [Blanks]⟩
  have hposition : (WrittenStep.position false ['\t'] ['0', '7'] []).WellFormed :=
    ⟨⟨by decide, List.all_eq_true.1 rfl⟩, by decide, by simp [Blanks], by simp [Blanks]⟩
  have hwritten : ∀ w ∈ [WrittenStep.bare ['a'], .quoted true [] '"' [']', ' '] [' '],
      .position false ['\t'] ['0', '7'] []], w.WellFormed := by
    simp only [List.forall_mem_cons]
    exact ⟨hbare, hquoted, hposition, List.forall_mem_nil _⟩
  have hafter : WrittenStep.Ends [WrittenStep.bare ['a'], .quoted true [] '"' [']', ' '] [' '],
      .position false ['\t'] ['0', '7'] []] " - 1".toList := by
    rintro _ ⟨⟩
    exact ⟨by decide, by decide, fun _ _ _ => rfl⟩
  exact readAt_written (.inr rfl) hwritten hafter "1 < "

end JsonPath
