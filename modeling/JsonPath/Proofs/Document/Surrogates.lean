import JsonPath.Document.Escapes
import JsonPath.Proofs.Document.Grammar

/-!
# Surrogates in Strings

The grammar lets any four hexadecimal digits follow `\u`, so a document may have a string that
stands for nothing: one with a leading surrogate that no trailing one follows, or with a
trailing one that no leading one precedes. These are the only strings of the grammar that
cannot be decoded.

## Main definitions

* `Grammar.Paired`: what stands between the quotes of a string without such surrogates.

## Main results

* `Document.exists_decode_iff`: **a string can be decoded** exactly if its surrogates are paired.
-/

namespace JsonPath

open Grammar

namespace Grammar

/-- What stands between the quotes of a string in which every surrogate has a partner: a leading
one is followed by a trailing one, and they do not occur in another way. -/
inductive Paired : List Char → Prop
  | nil : Paired []
  | plain {c : Char} {s : List Char} : c ≠ '\\' → Paired s → Paired (c :: s)
  | escaped {c : Char} {s : List Char} : c ≠ 'u' → Paired s → Paired ('\\' :: c :: s)
  | single {a b c d : Char} {s : List Char} :
      Document.isLeading (Document.hexNumber a b c d) = false →
      Document.isTrailing (Document.hexNumber a b c d) = false →
      Paired s → Paired ('\\' :: 'u' :: a :: b :: c :: d :: s)
  | pair {a b c d a' b' c' d' : Char} {s : List Char} :
      Document.isLeading (Document.hexNumber a b c d) = true →
      Document.isTrailing (Document.hexNumber a' b' c' d') = true →
      Paired s →
      Paired ('\\' :: 'u' :: a :: b :: c :: d :: '\\' :: 'u' :: a' :: b' :: c' :: d' :: s)

/-- Behind an escape of four digits a string goes on. -/
theorem Characters.of_unicode {a b c d : Char} {s : List Char}
    (h : Characters ('\\' :: 'u' :: a :: b :: c :: d :: s)) : Characters s := by
  cases h with
  | plain _ _ hc _ => exact absurd rfl hc
  | escaped hc _ => simp at hc
  | unicode _ _ _ _ hs => exact hs

end Grammar

namespace Document

/-- A leading surrogate is no trailing one. -/
theorem isTrailing_of_isLeading {n : Nat} (h : isLeading n = true) : isTrailing n = false := by
  simp only [isLeading, isTrailing, Bool.and_eq_true, decide_eq_true_eq] at *
  simp only [Bool.and_eq_false_iff, decide_eq_false_iff_not]
  omega

/-- A plain character is decoded to itself. -/
theorem decodeFrom_plain {c : Char} (hc : c ≠ '\\') (before : Nat) (rest : List Char) :
    decodeFrom before (c :: rest) = (decodeFrom (before + c.utf8Size) rest).map (c :: ·) := by
  rw [decodeFrom]
  · rintro _ _ _ _ _ rfl
    exact absurd rfl hc
  · rintro _ _ rfl
    exact absurd rfl hc

/-- A short escape is decoded to its character. -/
theorem decodeFrom_short {c : Char} (hc : c ≠ 'u') (before : Nat) (rest : List Char) :
    decodeFrom before ('\\' :: c :: rest) =
      (decodeFrom (before + 2) rest).map (escapedChar c :: ·) := by
  rw [decodeFrom]
  rintro _ _ _ _ _ rfl
  exact absurd rfl hc

/-- A code outside the surrogates is decoded to its character. -/
theorem decodeFrom_single {a b c d : Char} (hlead : isLeading (hexNumber a b c d) = false)
    (htrail : isTrailing (hexNumber a b c d) = false) (before : Nat) (rest : List Char) :
    decodeFrom before ('\\' :: 'u' :: a :: b :: c :: d :: rest) =
      (decodeFrom (before + 6) rest).map (.ofNat (hexNumber a b c d) :: ·) := by
  rw [decodeFrom.eq_def]
  simp [hlead, htrail]

/-- Two surrogates in order are decoded to one character. -/
theorem decodeFrom_pair {a b c d a' b' c' d' : Char} (hlead : isLeading (hexNumber a b c d) = true)
    (htrail : isTrailing (hexNumber a' b' c' d') = true) (before : Nat) (rest : List Char) :
    decodeFrom before
        ('\\' :: 'u' :: a :: b :: c :: d :: '\\' :: 'u' :: a' :: b' :: c' :: d' :: rest) =
      (decodeFrom (before + 12) rest).map
        (pairedChar (hexNumber a b c d) (hexNumber a' b' c' d') :: ·) := by
  rw [decodeFrom]
  simp [isTrailing_of_isLeading hlead, hlead, htrail]

/-- A body whose surrogates are paired can be decoded. -/
theorem exists_decodeFrom_of_paired {body : List Char} (h : Paired body) (before : Nat) :
    ∃ text, decodeFrom before body = .ok text := by
  induction h generalizing before with
  | nil => exact ⟨[], rfl⟩
  | plain hc _ ih =>
      obtain ⟨text, htext⟩ := ih _
      rw [decodeFrom_plain hc, htext]
      exact ⟨_, rfl⟩
  | escaped hc _ ih =>
      obtain ⟨text, htext⟩ := ih _
      rw [decodeFrom_short hc, htext]
      exact ⟨_, rfl⟩
  | single hlead htrail _ ih =>
      obtain ⟨text, htext⟩ := ih _
      rw [decodeFrom_single hlead htrail, htext]
      exact ⟨_, rfl⟩
  | pair hlead htrail _ ih =>
      obtain ⟨text, htext⟩ := ih _
      rw [decodeFrom_pair hlead htrail, htext]
      exact ⟨_, rfl⟩

/-- In a body that can be decoded the surrogates are paired. -/
theorem paired_of_decodeFrom {body : List Char} (hbody : Characters body) {before : Nat}
    {text : List Char} (h : decodeFrom before body = .ok text) : Paired body := by
  fun_induction decodeFrom before body generalizing text with
  | case1 => exact .nil
  | case3 _ _ _ _ _ _ _ hlead _ _ _ _ _ _ htrail =>
      rename_i ih
      obtain ⟨_, hrest, -⟩ := map_eq_ok_iff.1 h
      exact .pair hlead htrail (ih hbody.of_unicode.of_unicode hrest)
  | case7 _ _ _ _ _ _ _ htrail hlead ih =>
      obtain ⟨_, hrest, -⟩ := map_eq_ok_iff.1 h
      exact .single (by simpa using hlead) (by simpa using htrail) (ih hbody.of_unicode hrest)
  | case8 _ c rest hshort ih =>
      obtain ⟨_, hrest, -⟩ := map_eq_ok_iff.1 h
      cases hbody with
      | plain _ _ hc _ => exact absurd rfl hc
      | escaped hc hs => exact .escaped (by rintro rfl; simp at hc) (ih hs hrest)
      | unicode => exact (hshort _ _ _ _ _ rfl rfl).elim
  | case9 _ c rest _ hshort ih =>
      obtain ⟨_, hrest, -⟩ := map_eq_ok_iff.1 h
      cases hbody with
      | plain _ _ hc hs => exact .plain hc (ih hs hrest)
      | escaped => exact (hshort _ _ rfl rfl).elim
      | unicode => exact (hshort _ _ rfl rfl).elim
  | _ => cases h

/-- **A string can be decoded** exactly if its surrogates are paired. -/
theorem exists_decode_iff {body : List Char} (hbody : Characters body) :
    (∃ text, decode body = .ok text) ↔ Paired body :=
  ⟨fun ⟨_, h⟩ => paired_of_decodeFrom hbody h, fun h => exists_decodeFrom_of_paired h 1⟩

end Document

/-- A decoder fails on a string of a document only if that has a surrogate without a partner. -/
def Decoder.Complete (decode : Decoder) : Prop :=
  ∀ body, Characters body → Paired body → ∃ text, decode body = .ok text

/-- The decoder of the program is complete. -/
theorem Document.complete_decoder : decoder.Complete := by
  intro body hbody hpaired
  obtain ⟨text, htext⟩ := (exists_decode_iff hbody).2 hpaired
  exact ⟨text, by rw [decoder, htext]; rfl⟩

end JsonPath
