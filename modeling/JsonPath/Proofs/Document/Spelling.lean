import JsonPath.Document.Decoding
import JsonPath.Proofs.Document.Reading
import JsonPath.Proofs.Document.Surrogates

/-!
# How Strings Are Spelled

A string can be written in many ways. Each of its characters stands for itself where that is
allowed, or is written as a backslash and a letter, as an escape of four hexadecimal digits in
either case, or, beyond the first 65536, as two such escapes, a leading surrogate and a trailing one
(`Grammar.Spells`). Decoding undoes all of them, mixed in any way: a string of the grammar is
decoded to exactly the text that it spells (`Document.decode_eq_ok_iff`).

What spells no text has a surrogate without a partner. To say so without mentioning decoding, the
numbers of the escapes are listed in their order, with a gap for everything else
(`Grammar.escapeNumbers`): a leading surrogate must have a trailing one right behind it, and a
trailing one a leading one right before it.

## Main definitions

* `Grammar.Spells`: **the spellings of a text**.
* `Grammar.Unpaired`: a surrogate without a partner.

## Main results

* `Grammar.Spells.characters`: every spelling is a string of the grammar.
* `Document.decode_eq_ok_iff`: **decoding gives what was spelled**.
* `Document.decode_eq_error_iff`: **decoding fails at unpaired surrogates** only.
* `Document.decodeAt_of_spells`, `Document.decodeAt_eq_error_iff`: both hold of a string in a
  document, which is decoded only if it has escapes.
-/

namespace JsonPath

open Text

/-! ### Spellings -/

namespace Grammar

/-- The hexadecimal digits of a value, a small and a capital one. -/
def HexDigitOf (value : Nat) (c : Char) : Prop :=
  value < 16 ∧ (c = value.digitChar ∨ c = value.digitChar.toUpper)

instance (value : Nat) (c : Char) : Decidable (HexDigitOf value c) :=
  inferInstanceAs (Decidable (_ ∧ _))

/-- The escapes of a number with four hexadecimal digits. -/
inductive Escape : Nat → List Char → Prop
  | mk {n : Nat} {a b c d : Char} : HexDigitOf (n / 0x1000) a → HexDigitOf (n / 0x100 % 0x10) b →
      HexDigitOf (n / 0x10 % 0x10) c → HexDigitOf (n % 0x10) d → Escape n ['\\', 'u', a, b, c, d]

/-- The characters with an escape of one letter, and the letters. -/
def shortEscapes : List (Char × Char) :=
  [('"', '"'), ('\\', '\\'), ('/', '/'), ('\x08', 'b'), ('\x0c', 'f'), ('\n', 'n'), ('\r', 'r'),
    ('\t', 't')]

/-- The spellings of a character: as it is, with one letter, with its number or, if that has more
than four digits, with two surrogates. -/
inductive CharSpelling : Char → List Char → Prop
  | raw {c : Char} : 0x20 ≤ c.toNat → c ≠ '"' → c ≠ '\\' → CharSpelling c [c]
  | short {c letter : Char} : (c, letter) ∈ shortEscapes → CharSpelling c ['\\', letter]
  | single {c : Char} {s : List Char} : Escape c.toNat s → CharSpelling c s
  | pair {c : Char} {lead trail : List Char} : 0x10000 ≤ c.toNat →
      Escape (0xD800 + (c.toNat - 0x10000) / 0x400) lead →
      Escape (0xDC00 + (c.toNat - 0x10000) % 0x400) trail → CharSpelling c (lead ++ trail)

/-- The spellings of a text, character by character. -/
inductive Spells : List Char → List Char → Prop
  | nil : Spells [] []
  | cons {c : Char} {s spelling body : List Char} : CharSpelling c spelling → Spells s body →
      Spells (c :: s) (spelling ++ body)

end Grammar

/-! ### Hexadecimal digits -/

open Grammar

/-- A hexadecimal digit is one of its value. -/
theorem Grammar.HexDigit.hexDigitOf {c : Char} (h : HexDigit c) :
    HexDigitOf (Document.hexValue c) c := by
  have hall : ∀ n < 128, Document.isHex (Char.ofNat n) = true →
      HexDigitOf (Document.hexValue (Char.ofNat n)) (Char.ofNat n) := by decide
  have hlt : c.toNat < 128 := by
    simp only [HexDigit, Char.le_def, UInt32.le_iff_toNat_le] at h
    change 48 ≤ c.toNat ∧ c.toNat ≤ 57 ∨ 97 ≤ c.toNat ∧ c.toNat ≤ 102 ∨
      65 ≤ c.toNat ∧ c.toNat ≤ 70 at h
    omega
  have hdigit := hall c.toNat hlt
  rw [Char.ofNat_toNat] at hdigit
  exact hdigit ((Document.isHex_iff c).2 h)

/-- The digits of a value are the hexadecimal digits that have this value. -/
theorem Grammar.hexDigitOf_iff {value : Nat} {c : Char} :
    HexDigitOf value c ↔ HexDigit c ∧ Document.hexValue c = value := by
  constructor
  · rintro ⟨hvalue, hc⟩
    have hsmall : ∀ value < 16, Document.isHex value.digitChar = true ∧
        Document.hexValue value.digitChar = value := by decide
    have hcapital : ∀ value < 16, Document.isHex value.digitChar.toUpper = true ∧
        Document.hexValue value.digitChar.toUpper = value := by decide
    rw [← Document.isHex_iff]
    rcases hc with rfl | rfl
    · exact hsmall value hvalue
    · exact hcapital value hvalue
  · rintro ⟨hc, rfl⟩
    exact hc.hexDigitOf

/-- The escapes of a number are those that are read as it. -/
theorem Grammar.escape_iff {n : Nat} {s : List Char} :
    Escape n s ↔ ∃ a b c d, s = ['\\', 'u', a, b, c, d] ∧ HexDigit a ∧ HexDigit b ∧ HexDigit c ∧
      HexDigit d ∧ Document.hexNumber a b c d = n := by
  constructor
  · rintro ⟨ha, hb, hc, hd⟩
    have hlt := ha.1
    obtain ⟨ha, hav⟩ := hexDigitOf_iff.1 ha
    obtain ⟨hb, hbv⟩ := hexDigitOf_iff.1 hb
    obtain ⟨hc, hcv⟩ := hexDigitOf_iff.1 hc
    obtain ⟨hd, hdv⟩ := hexDigitOf_iff.1 hd
    refine ⟨_, _, _, _, rfl, ha, hb, hc, hd, ?_⟩
    rw [Document.hexNumber, hav, hbv, hcv, hdv]
    omega
  · rintro ⟨a, b, c, d, rfl, ha, hb, hc, hd, rfl⟩
    obtain ⟨hav, -⟩ := ha.hexDigitOf
    obtain ⟨hbv, -⟩ := hb.hexDigitOf
    obtain ⟨hcv, -⟩ := hc.hexDigitOf
    obtain ⟨hdv, -⟩ := hd.hexDigitOf
    refine .mk (hexDigitOf_iff.2 ⟨ha, ?_⟩) (hexDigitOf_iff.2 ⟨hb, ?_⟩) (hexDigitOf_iff.2 ⟨hc, ?_⟩)
      (hexDigitOf_iff.2 ⟨hd, ?_⟩) <;> rw [Document.hexNumber] <;> omega

/-! ### Every spelling is a string -/

namespace Grammar

/-- An escape with permitted characters behind it is permitted. -/
theorem Escape.characters {n : Nat} {s body : List Char} (h : Escape n s)
    (hbody : Characters body) : Characters (s ++ body) := by
  obtain ⟨a, b, c, d, rfl, ha, hb, hc, hd, -⟩ := escape_iff.1 h
  exact .unicode ha hb hc hd hbody

/-- A spelling with permitted characters behind it is permitted. -/
theorem CharSpelling.characters {c : Char} {s body : List Char} (h : CharSpelling c s)
    (hbody : Characters body) : Characters (s ++ body) := by
  cases h with
  | raw hcontrol hquote hbackslash => exact .plain hcontrol hquote hbackslash hbody
  | @short letter hmem =>
      have hletter : ∀ p ∈ shortEscapes, p.2 ∈ ['"', '\\', '/', 'b', 'f', 'n', 'r', 't'] := by
        decide
      exact .escaped (hletter _ hmem) hbody
  | single hescape => exact hescape.characters hbody
  | pair _ hlead htrail =>
      rw [List.append_assoc]
      exact hlead.characters (htrail.characters hbody)

/-- **Every spelling is a string of the grammar.** -/
theorem Spells.characters {s body : List Char} (h : Spells s body) : Characters body := by
  induction h with
  | nil => exact .nil
  | cons hc _ ih => exact hc.characters ih

end Grammar

/-! ### Decoding gives what was spelled -/

namespace Document

/-- A character is no surrogate. -/
theorem not_surrogate (c : Char) : isLeading c.toNat = false ∧ isTrailing c.toNat = false := by
  have hvalid : c.toNat < 0xD800 ∨ 0xDFFF < c.toNat ∧ c.toNat < 0x110000 := c.valid
  simp only [isLeading, isTrailing, Bool.and_eq_false_iff, decide_eq_false_iff_not]
  omega

/-- The surrogates of a character stand for it. -/
theorem pairedChar_surrogates {c : Char} (hc : 0x10000 ≤ c.toNat) :
    pairedChar (0xD800 + (c.toNat - 0x10000) / 0x400) (0xDC00 + (c.toNat - 0x10000) % 0x400) =
      c := by
  have hnumber : 0x10000 + (0xD800 + (c.toNat - 0x10000) / 0x400 - 0xD800) * 0x400 +
      (0xDC00 + (c.toNat - 0x10000) % 0x400 - 0xDC00) = c.toNat := by
    omega
  rw [pairedChar, hnumber, Char.ofNat_toNat]

/-- A spelling of a character is decoded to it, whatever follows. -/
theorem decodeFrom_spelling {c : Char} {s : List Char} (h : CharSpelling c s) (before : Nat)
    (rest : List Char) : ∃ before', decodeFrom before (s ++ rest) =
      (decodeFrom before' rest).map (c :: ·) := by
  have hvalid : c.toNat < 0xD800 ∨ 0xDFFF < c.toNat ∧ c.toNat < 0x110000 := c.valid
  cases h with
  | raw _ _ hbackslash => exact ⟨_, decodeFrom_plain hbackslash before rest⟩
  | @short letter hmem =>
      have hletter : ∀ p ∈ shortEscapes, p.2 ≠ 'u' ∧ escapedChar p.2 = p.1 := by decide
      obtain ⟨hne, hescaped⟩ := hletter _ hmem
      exact ⟨_, hescaped ▸ decodeFrom_short hne before rest⟩
  | single hescape =>
      obtain ⟨a, b, d, e, rfl, -, -, -, -, hn⟩ := escape_iff.1 hescape
      obtain ⟨hlead, htrail⟩ := not_surrogate c
      rw [← hn] at hlead htrail
      refine ⟨before + 6, (decodeFrom_single hlead htrail before rest).trans ?_⟩
      rw [hn, Char.ofNat_toNat]
  | pair hbeyond hlead htrail =>
      obtain ⟨a, b, d, e, rfl, -, -, -, -, hn⟩ := escape_iff.1 hlead
      obtain ⟨a', b', d', e', rfl, -, -, -, -, hm⟩ := escape_iff.1 htrail
      have hleading : isLeading (hexNumber a b d e) = true := by
        simp only [hn, isLeading, Bool.and_eq_true, decide_eq_true_eq]
        omega
      have htrailing : isTrailing (hexNumber a' b' d' e') = true := by
        simp only [hm, isTrailing, Bool.and_eq_true, decide_eq_true_eq]
        omega
      refine ⟨before + 12, (decodeFrom_pair hleading htrailing before rest).trans ?_⟩
      rw [hn, hm, pairedChar_surrogates hbeyond]

/-- A spelling is decoded to what it spells. -/
theorem decodeFrom_of_spells {s body : List Char} (h : Spells s body) (before : Nat) :
    decodeFrom before body = .ok s := by
  induction h generalizing before with
  | nil => rfl
  | cons hc _ ih =>
      obtain ⟨before', hdecode⟩ := decodeFrom_spelling hc before _
      rw [hdecode, ih]
      rfl

/-- The digits of an escape spell its number. -/
theorem escape_hexNumber {a b c d : Char} {s : List Char}
    (h : Characters ('\\' :: 'u' :: a :: b :: c :: d :: s)) :
    Escape (hexNumber a b c d) ['\\', 'u', a, b, c, d] := by
  cases h with
  | plain _ _ hc _ => exact absurd rfl hc
  | escaped hc _ => simp at hc
  | unicode ha hb hc hd _ => exact escape_iff.2 ⟨a, b, c, d, rfl, ha, hb, hc, hd, rfl⟩

/-- A code outside the surrogates is the code of its character. -/
theorem toNat_ofNat_of_valid {n : Nat} (h : n < 0xD800 ∨ 0xDFFF < n ∧ n < 0x110000) :
    (Char.ofNat n).toNat = n := by
  rw [Char.ofNat, dif_pos h]
  rfl

/-- An escape of a number that is no surrogate spells the character with that number. -/
theorem spelling_single {n : Nat} {s : List Char} (hlead : isLeading n = false)
    (htrail : isTrailing n = false) (h : Escape n s) : CharSpelling (Char.ofNat n) s := by
  have hlt : n < 0x10000 := by
    cases h with
    | mk ha =>
        have hdigit := ha.1
        omega
  simp only [isLeading, isTrailing, Bool.and_eq_false_iff, decide_eq_false_iff_not] at hlead htrail
  have hnumber := toNat_ofNat_of_valid (n := n) (by omega)
  exact .single (hnumber.symm ▸ h)

/-- Two surrogates spell the character that they are paired to. -/
theorem spelling_pair {n m : Nat} {lead trail : List Char} (hlead : isLeading n = true)
    (htrail : isTrailing m = true) (h : Escape n lead) (h' : Escape m trail) :
    CharSpelling (pairedChar n m) (lead ++ trail) := by
  simp only [isLeading, isTrailing, Bool.and_eq_true, decide_eq_true_eq] at hlead htrail
  have hnumber : (pairedChar n m).toNat = 0x10000 + (n - 0xD800) * 0x400 + (m - 0xDC00) :=
    toNat_ofNat_of_valid (by omega)
  have hn : 0xD800 + ((pairedChar n m).toNat - 0x10000) / 0x400 = n := by omega
  have hm : 0xDC00 + ((pairedChar n m).toNat - 0x10000) % 0x400 = m := by omega
  exact .pair (by omega) (hn.symm ▸ h) (hm.symm ▸ h')

/-- What is decoded was spelled. -/
theorem spells_of_decodeFrom {body : List Char} (hbody : Characters body) {before : Nat}
    {s : List Char} (h : decodeFrom before body = .ok s) : Spells s body := by
  fun_induction decodeFrom before body generalizing s with
  | case1 =>
      obtain rfl := Except.ok.inj h
      exact .nil
  | case3 _ a b c d _ _ hlead a' b' c' d' rest _ htrail =>
      rename_i ih
      obtain ⟨text, hrest, rfl⟩ := map_eq_ok_iff.1 h
      exact .cons (spelling_pair hlead htrail (escape_hexNumber hbody)
        (escape_hexNumber hbody.of_unicode)) (ih hbody.of_unicode.of_unicode hrest)
  | case7 _ a b c d rest _ htrail hlead ih =>
      obtain ⟨text, hrest, rfl⟩ := map_eq_ok_iff.1 h
      exact .cons (spelling_single (by simpa using hlead) (by simpa using htrail)
        (escape_hexNumber hbody)) (ih hbody.of_unicode hrest)
  | case8 _ c rest hshort ih =>
      obtain ⟨text, hrest, rfl⟩ := map_eq_ok_iff.1 h
      cases hbody with
      | plain _ _ hc _ => exact absurd rfl hc
      | escaped hc hs =>
          have hletters : ['"', '\\', '/', 'b', 'f', 'n', 'r', 't'].all
              (fun c => (escapedChar c, c) ∈ shortEscapes) = true := by decide
          have hmem := of_decide_eq_true (List.all_eq_true.1 hletters c hc)
          exact .cons (.short hmem) (ih hs hrest)
      | unicode => exact (hshort _ _ _ _ _ rfl rfl).elim
  | case9 _ c rest _ hshort ih =>
      obtain ⟨text, hrest, rfl⟩ := map_eq_ok_iff.1 h
      cases hbody with
      | plain hcontrol hquote hc hs => exact .cons (.raw hcontrol hquote hc) (ih hs hrest)
      | escaped => exact (hshort _ _ rfl rfl).elim
      | unicode => exact (hshort _ _ rfl rfl).elim
  | _ => cases h

/-- **Decoding gives what was spelled**, and nothing else. -/
theorem decode_eq_ok_iff {body s : List Char} (hbody : Characters body) :
    decode body = .ok s ↔ Spells s body :=
  ⟨spells_of_decodeFrom hbody, fun h => decodeFrom_of_spells h 1⟩

end Document

/-! ### Surrogates without a partner -/

namespace Grammar

/-- The numbers of the escapes with four digits in their order, with a gap for every other
character and every other escape. -/
def escapeNumbers : List Char → List (Option Nat)
  | [] => []
  | '\\' :: 'u' :: a :: b :: c :: d :: rest =>
    some (Document.hexNumber a b c d) :: escapeNumbers rest
  | '\\' :: _ :: rest => none :: escapeNumbers rest
  | _ :: rest => none :: escapeNumbers rest

/-- A surrogate without a partner: a leading one with no trailing one right behind it, or a trailing
one with no leading one right before it. -/
def Unpaired (numbers : List (Option Nat)) : Prop :=
  ∃ before n after, numbers = before ++ some n :: after ∧
    (Document.isLeading n = true ∧
        (∀ m, after.head? = some (some m) → Document.isTrailing m = false) ∨
      Document.isTrailing n = true ∧
        ∀ m, before.getLast? = some (some m) → Document.isLeading m = false)

variable {numbers : List (Option Nat)}

/-- The empty text has no unpaired surrogate. -/
theorem not_unpaired_nil : ¬ Unpaired [] := by
  rintro ⟨before, n, after, h, -⟩
  cases before <;> cases h

/-- What stands far in front of a place does not matter to it. -/
theorem forall_getLast?_append_iff {front before : List (Option Nat)} {p : Nat → Prop}
    (hfront : ∀ m, front.getLast? = some (some m) → p m) :
    (∀ m, (front ++ before).getLast? = some (some m) → p m) ↔
      ∀ m, before.getLast? = some (some m) → p m := by
  rw [List.getLast?_append]
  cases before.getLast? with
  | none => simpa using hfront
  | some last => rfl

/-- Behind what is no leading surrogate, a list is judged on its own. -/
theorem unpaired_cons_iff {number : Option Nat}
    (hlead : ∀ n, number = some n → Document.isLeading n = false) :
    Unpaired (number :: numbers) ↔
      (∃ n, number = some n ∧ Document.isTrailing n = true) ∨ Unpaired numbers := by
  have hfront : ∀ m, [number].getLast? = some (some m) → Document.isLeading m = false :=
    fun m hm => hlead m (Option.some.inj hm)
  constructor
  · rintro ⟨before, n, after, htext, h⟩
    rcases before with - | ⟨first, before⟩
    · obtain ⟨rfl, rfl⟩ := List.cons.inj htext
      rcases h with ⟨hleading, -⟩ | ⟨htrailing, -⟩
      · rw [hlead n rfl] at hleading
        cases hleading
      · exact .inl ⟨n, rfl, htrailing⟩
    · obtain ⟨rfl, rfl⟩ := List.cons.inj htext
      exact .inr ⟨before, n, after, rfl,
        h.imp_right (And.imp_right (forall_getLast?_append_iff hfront).1)⟩
  · rintro (⟨n, rfl, htrailing⟩ | ⟨before, n, after, rfl, h⟩)
    · exact ⟨[], n, numbers, rfl, .inr ⟨htrailing, nofun⟩⟩
    · exact ⟨number :: before, n, after, rfl,
        h.imp_right (And.imp_right (forall_getLast?_append_iff hfront).2)⟩

/-- Behind a pair of surrogates, too. -/
theorem unpaired_pair_iff {n m : Nat} (hlead : Document.isLeading n = true)
    (htrail : Document.isTrailing m = true) :
    Unpaired (some n :: some m :: numbers) ↔ Unpaired numbers := by
  have not_trailing {n : Nat} (h : Document.isLeading n = true) :
      ¬ Document.isTrailing n = true := by simp [Document.isTrailing_of_isLeading h]
  have hfront : ∀ k, [some n, some m].getLast? = some (some k) → Document.isLeading k = false := by
    rintro k ⟨⟩
    exact Bool.eq_false_iff.2 fun hleading => not_trailing hleading htrail
  constructor
  · rintro ⟨before, k, after, htext, h⟩
    rcases before with - | ⟨first, - | ⟨second, before⟩⟩
    · obtain ⟨hk, rfl⟩ := List.cons.inj htext
      obtain rfl := Option.some.inj hk
      rcases h with ⟨-, hafter⟩ | ⟨htrailing, -⟩
      · rw [hafter m rfl] at htrail
        cases htrail
      · exact absurd htrailing (not_trailing hlead)
    · obtain ⟨rfl, htext'⟩ := List.cons.inj htext
      obtain rfl := Option.some.inj (List.cons.inj htext').1
      rcases h with ⟨hleading, -⟩ | ⟨-, hbefore⟩
      · exact absurd htrail (not_trailing hleading)
      · rw [hbefore n rfl] at hlead
        cases hlead
    · obtain ⟨rfl, htext'⟩ := List.cons.inj htext
      obtain ⟨rfl, rfl⟩ := List.cons.inj htext'
      exact ⟨before, k, after, rfl,
        h.imp_right (And.imp_right (forall_getLast?_append_iff hfront).1)⟩
  · rintro ⟨before, k, after, rfl, h⟩
    exact ⟨some n :: some m :: before, k, after, rfl,
      h.imp_right (And.imp_right (forall_getLast?_append_iff hfront).2)⟩

/-- A plain character gives no number. -/
theorem escapeNumbers_plain {c : Char} (hc : c ≠ '\\') (s : List Char) :
    escapeNumbers (c :: s) = none :: escapeNumbers s := by
  rw [escapeNumbers]
  · rintro _ _ _ _ _ rfl
    exact absurd rfl hc
  · rintro _ _ rfl
    exact absurd rfl hc

/-- A short escape gives no number. -/
theorem escapeNumbers_short {c : Char} (hc : c ≠ 'u') (s : List Char) :
    escapeNumbers ('\\' :: c :: s) = none :: escapeNumbers s := by
  rw [escapeNumbers]
  rintro _ _ _ _ _ rfl
  exact absurd rfl hc

/-- What is no number pairs nothing. -/
theorem unpaired_none_iff : Unpaired (none :: numbers) ↔ Unpaired numbers := by
  simp [unpaired_cons_iff]

/-- Where every surrogate has a partner, none has none. -/
theorem Paired.not_unpaired {body : List Char} (h : Paired body) :
    ¬ Unpaired (escapeNumbers body) := by
  induction h with
  | nil => exact not_unpaired_nil
  | plain hc _ ih => rwa [escapeNumbers_plain hc, unpaired_none_iff]
  | escaped hc _ ih => rwa [escapeNumbers_short hc, unpaired_none_iff]
  | single hlead htrail _ ih =>
      rw [escapeNumbers, unpaired_cons_iff (by simpa using hlead)]
      simpa [htrail] using ih
  | pair hlead htrail _ ih => rwa [escapeNumbers, escapeNumbers, unpaired_pair_iff hlead htrail]

/-- A leading surrogate with no trailing one right behind it has no partner. -/
theorem unpaired_of_leading {n : Nat} (hlead : Document.isLeading n = true)
    (hnext : ∀ m, numbers.head? = some (some m) → Document.isTrailing m = false) :
    Unpaired (some n :: numbers) :=
  ⟨[], n, numbers, rfl, .inl ⟨hlead, hnext⟩⟩

/-- The characters of short escapes are not the mark of a code. -/
theorem ne_unicode_of_escapable {c : Char} (hc : c ∈ ['"', '\\', '/', 'b', 'f', 'n', 'r', 't']) :
    c ≠ 'u' := by
  rintro rfl
  exact absurd hc (by decide)

/-- A body that does not begin with a code has no number first. -/
theorem head_escapeNumbers_ne {body : List Char} (hbody : Characters body)
    (hcode : ∀ a b c d rest, body ≠ '\\' :: 'u' :: a :: b :: c :: d :: rest) (m : Nat) :
    (escapeNumbers body).head? ≠ some (some m) := by
  cases hbody with
  | nil => simp [escapeNumbers]
  | plain _ _ hc _ => simp [escapeNumbers_plain hc]
  | escaped hc _ => simp [escapeNumbers_short (ne_unicode_of_escapable hc)]
  | unicode => exact absurd rfl (hcode _ _ _ _ _)

/-- A leading surrogate with no code right behind it has no partner. -/
theorem unpaired_of_leading_body {n : Nat} (hlead : Document.isLeading n = true)
    {body : List Char} (hbody : Characters body)
    (hcode : ∀ a b c d rest, body ≠ '\\' :: 'u' :: a :: b :: c :: d :: rest) :
    Unpaired (some n :: escapeNumbers body) :=
  unpaired_of_leading hlead fun m hm => absurd hm (head_escapeNumbers_ne hbody hcode m)

end Grammar

namespace Document

/-- Where decoding fails, a surrogate has no partner. -/
theorem unpaired_of_decodeFrom {body : List Char} (hbody : Characters body) {before : Nat}
    {fault : LoneSurrogate} (h : decodeFrom before body = .error fault) :
    Unpaired (escapeNumbers body) := by
  fun_induction decodeFrom before body with
  | case1 => cases h
  | case2 _ a b c d rest _ htrail =>
      exact ⟨[], hexNumber a b c d, escapeNumbers rest, rfl, .inr ⟨htrail, by simp⟩⟩
  | case3 _ a b c d _ _ hlead a' b' c' d' rest _ htrail =>
      rename_i ih
      rw [escapeNumbers, escapeNumbers, unpaired_pair_iff hlead htrail]
      exact ih hbody.of_unicode.of_unicode (map_eq_error_iff.1 h)
  | case4 _ a b c d _ _ hlead a' b' c' d' rest _ htrail =>
      rw [escapeNumbers, escapeNumbers]
      refine unpaired_of_leading hlead ?_
      rintro m ⟨⟩
      exact Bool.eq_false_iff.2 htrail
  | case5 _ a b c d _ _ hlead tail hshort =>
      rw [escapeNumbers]
      refine unpaired_of_leading_body hlead hbody.of_unicode ?_
      rintro _ _ _ _ _ ⟨⟩
      exact hshort _ _ _ _ _ rfl
  | case6 _ a b c d rest _ _ hlead _ hbackslash =>
      rw [escapeNumbers]
      refine unpaired_of_leading_body hlead hbody.of_unicode ?_
      rintro _ _ _ _ _ rfl
      exact hbackslash _ rfl
  | case7 _ a b c d rest _ htrail hlead ih =>
      rw [escapeNumbers, unpaired_cons_iff (by simpa using hlead)]
      exact .inr (ih hbody.of_unicode (map_eq_error_iff.1 h))
  | case8 _ c rest hshort ih =>
      cases hbody with
      | plain _ _ hc _ => exact absurd rfl hc
      | escaped hc hs =>
          rw [escapeNumbers_short (ne_unicode_of_escapable hc), unpaired_none_iff]
          exact ih hs (map_eq_error_iff.1 h)
      | unicode => exact (hshort _ _ _ _ _ rfl rfl).elim
  | case9 _ c rest _ hshort ih =>
      cases hbody with
      | plain _ _ hc hs =>
          rw [escapeNumbers_plain hc, unpaired_none_iff]
          exact ih hs (map_eq_error_iff.1 h)
      | escaped | unicode => exact (hshort _ _ rfl rfl).elim

/-- **Decoding fails at unpaired surrogates**, and for no other reason. -/
theorem decode_eq_error_iff {body : List Char} (hbody : Characters body) :
    (∃ fault, decode body = .error fault) ↔ Unpaired (escapeNumbers body) := by
  constructor
  · rintro ⟨fault, h⟩
    exact unpaired_of_decodeFrom hbody h
  · intro hunpaired
    cases h : decode body with
    | error fault => exact ⟨fault, rfl⟩
    | ok text =>
        have hpaired := (exists_decode_iff hbody).1 ⟨text, h⟩
        exact absurd hunpaired hpaired.not_unpaired

/-- A string stands for what its characters are decoded to, with or without escapes. -/
theorem decodeAt_decoder (search : Search) (start : Nat) (body : List Char) :
    decodeAt ⟨search, decoder⟩ start body =
      ((decode body).mapError LoneSurrogate.message).mapError (.document start) := by
  by_cases hescape : '\\' ∈ body
  · exact if_pos hescape
  · rw [decodeAt_of_plain _ _ hescape, decode_of_plain hescape]
    rfl

/-- A string with a spelling stands for what it spells. -/
theorem decodeAt_of_spells {s body : List Char} (h : Spells s body) (search : Search)
    (start : Nat) : decodeAt ⟨search, decoder⟩ start body = .ok s := by
  rw [decodeAt_decoder, (decode_eq_ok_iff h.characters).2 h]
  rfl

/-- A string that is read stands for nothing exactly if a surrogate in it has no partner. -/
theorem decodeAt_eq_error_iff {body : List Char} (hbody : Characters body) (search : Search)
    (start : Nat) : (∃ e, decodeAt ⟨search, decoder⟩ start body = .error e) ↔
      Unpaired (escapeNumbers body) := by
  rw [← decode_eq_error_iff hbody, decodeAt_decoder]
  cases decode body with
  | error fault => exact ⟨fun _ => ⟨fault, rfl⟩, fun _ => ⟨_, rfl⟩⟩
  | ok text => exact ⟨fun ⟨_, h⟩ => (by cases h), fun ⟨_, h⟩ => (by cases h)⟩

end Document

end JsonPath
