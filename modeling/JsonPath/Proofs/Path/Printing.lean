import Mathlib
import JsonPath.Path.Printer
import JsonPath.Proofs.Path.Quoting
import JsonPath.Proofs.Path.WellFormed
import JsonPath.Proofs.Text.Numerals

/-!
# Printed Paths Are Read Back

A path is printed in one form, with every selector in brackets, every name in double quotes and
every number in decimal. That form is for readers, and not all of it can be read again: a filter is
printed in postfix order, a character that does not show is given by its code, and the points of a
detached function come out as three. Everything else that was read is printed as a text that is read
as the same path (`Path.ofString_print`).

Each selector is printed as a text of a grammar that the reader is already known to accept: names as
names in quotes without blanks (`ListedName`), positions as a list or a slice
(`Grammar.Listing`). A number that was read fits into 64 bits, and so does its decimal form.

## Main definitions

* `Path.Printable`: the paths that are printed as they can be read.

## Main results

* `Grammar.Listing.print`: the positions of the grammar are printed as texts of the grammar.
* `Segment.read_print`: a segment is read back in front of other segments.
* `Path.ofString_print`: **printed paths are read back**, so no two paths are printed alike.
-/

namespace JsonPath

open Text Grammar

/-! ### What is printed as it can be read -/

/-- The printable characters of ASCII. -/
def IsPrintable (c : Char) : Prop :=
  0x20 ≤ c.toNat ∧ c.toNat ≤ 0x7e

/-- Names of printable characters, and no filter. -/
def Selector.Printable : Selector → Prop
  | .names listed => ∀ name ∈ listed, ∀ c ∈ name.toList, IsPrintable c
  | .filter _ => False
  | _ => True

/-- A segment with such a selector. A function is not detached. -/
structure Segment.Printable (segment : Segment) : Prop where
  /-- The selector is printed as it can be read. -/
  selector : segment.selector.Printable
  /-- A function is not detached. -/
  attached : segment.isFunction = true → segment.detached = false

/-- A path of such segments. -/
def Path.Printable (p : Path) : Prop :=
  ∀ segment ∈ p.segments, segment.Printable

/-! ### Numbers -/

namespace Grammar

/-- The integers of the grammar are those of 64 bits. -/
theorem Integer.bounds {s : List Char} {k : Int} (h : Integer s k) :
    -(Nat.pow 2 63 : Int) ≤ k ∧ k < Nat.pow 2 63 := by
  cases h with
  | unsigned _ hlt => omega
  | negative _ hle =>
      have hpos : 0 < Nat.pow 2 63 := by decide
      omega

/-- An integer of 64 bits is printed as an integer of the grammar. -/
theorem integer_toString {k : Int} (h : -(Nat.pow 2 63 : Int) ≤ k ∧ k < Nat.pow 2 63) :
    Integer (toString k).toList k := by
  cases k with
  | ofNat n =>
      have hn : digitsValue (Nat.toDigits 10 n) < Nat.pow 2 63 := by
        rw [digitsValue_toDigits]
        exact Int.ofNat_lt.1 h.2
      have hinteger := Integer.unsigned (digits_toDigits n) hn
      rw [digitsValue_toDigits] at hinteger
      exact (Nat.toList_repr (n := n)).symm ▸ hinteger
  | negSucc n =>
      have hn : digitsValue (Nat.toDigits 10 (n + 1)) ≤ Nat.pow 2 63 := by
        rw [digitsValue_toDigits]
        omega
      have hinteger := Integer.negative (digits_toDigits (n + 1)) hn
      have htext : (toString (Int.negSucc n)).toList = '-' :: Nat.toDigits 10 (n + 1) := by
        show ("-" ++ Nat.repr (n + 1)).toList = _
        rw [String.toList_append, Nat.toList_repr]
        rfl
      rw [digitsValue_toDigits] at hinteger
      rw [htext]
      exact hinteger

/-- The shortest spelling of an integer's value is one of its spellings. -/
theorem Integer.print {s : List Char} {k : Int} (h : Integer s k) :
    Integer (toString k).toList k :=
  integer_toString h.bounds

/-- A bound is printed as one of its spellings, a missing one as nothing. -/
theorem OptionalInteger.print {s : List Char} {bound : Option Int} (h : OptionalInteger s bound) :
    OptionalInteger (printBound "" bound).toList bound := by
  cases h with
  | none => exact .none
  | some hs => exact .some hs.print

/-- The integers of a list are printed with nothing but commas between them. -/
theorem Further.print {s : List Char} {ks : List Int} (h : Further s ks) (k : Int) :
    ∃ rest, [','].intercalate ((k :: ks).map fun k => (toString k).toList) =
      (toString k).toList ++ rest ∧ Further rest ks := by
  induction h generalizing k with
  | close => exact ⟨[], by simp, .close pads_nil⟩
  | @comma _ _ _ _ next ks _ _ hs _ ih =>
      obtain ⟨rest, htext, hrest⟩ := ih next
      refine ⟨',' :: ((toString next).toList ++ rest), ?_, ?_⟩
      · rw [List.map_cons] at htext
        rw [List.map_cons, List.map_cons, List.intercalate_cons_cons, htext]
        simp
      · exact .comma pads_nil pads_nil hs.print hrest

/-- A list or a slice is printed in brackets as a text of the grammar. -/
theorem Listing.print {s : List Char} {selector : Selector} (h : Listing s selector) :
    ∃ content, selector.print.toList = '[' :: (content ++ [']']) ∧ Listing content selector := by
  cases h with
  | @indices _ _ k ks hs hrest =>
      obtain ⟨rest, htext, hfurther⟩ := hrest.print k
      refine ⟨_, ?_, .indices hs.print hfurther⟩
      rw [← htext]
      simp [Selector.print, String.toList_intercalate, Function.comp_def]
  | slice hs hpads hrest =>
      obtain ⟨-, hstop, -⟩ := hrest
      refine ⟨_, ?_, .slice hs.print pads_nil (.mk pads_nil hstop.print pads_nil)⟩
      simp [Selector.print]

end Grammar

/-! ### Selectors -/

namespace Selector

/-- Positions and slices are those of the grammar. -/
def Listable (selector : Selector) : Prop :=
  match selector with
  | .indices _ | .slice _ _ => ∃ content, Listing content selector
  | _ => True

/-- What is read in brackets as positions or a slice is in the grammar. -/
theorem listable_of_readListed {s rest : List Char} {selector : Selector}
    (h : readListed s = .ok (selector, rest)) : selector.Listable := by
  rw [readListed.eq_def] at h
  split at h
  · obtain ⟨p, -, hp⟩ := map_eq_ok_iff.1 h
    obtain ⟨rfl, -⟩ := Prod.mk.inj hp
    trivial
  · obtain ⟨rfl, -⟩ := Prod.mk.inj (Except.ok.inj h)
    trivial
  · next c tail _ _ =>
      split at h
      · obtain ⟨p, -, hp⟩ := map_eq_ok_iff.1 h
        obtain ⟨rfl, -⟩ := Prod.mk.inj hp
        trivial
      split at h
      · next hc =>
          obtain ⟨content, after, htext, -, hremainder⟩ := remainder_of_readPositions h
          have hlisting : Listing content selector := hremainder.listing fun d hd => by
            obtain ⟨inside, rfl⟩ := List.head?_eq_some_iff.1 hd
            obtain rfl : c = d := (List.cons.inj htext).1
            exact isPad_of_isBlank_eq_false (isBlank_of_positions hc)
          cases hlisting with
          | indices hs hrest => exact ⟨_, .indices hs hrest⟩
          | slice hs hpads hrest => exact ⟨_, .slice hs hpads hrest⟩
      · cases h
  · cases h

/-! ### Names -/

/-- A printable name is shown as it is written in double quotes. -/
theorem shown_eq_enclose {name : String} (h : ∀ c ∈ name.toList, IsPrintable c) :
    (shown name).toList = Quoted.enclose '"' name.toList := by
  have hescape : name.toList.flatMap shownChar = Quoted.escape '"' name.toList := by
    generalize name.toList = s at h
    induction s with
    | nil => rfl
    | cons c s ih =>
        obtain ⟨⟨hlow, hhigh⟩, hs⟩ := List.forall_mem_cons.1 h
        rw [List.flatMap_cons, ih hs, Quoted.escape]
        by_cases hquote : c = '"'
        · subst hquote
          rfl
        by_cases hbackslash : c = '\\'
        · subst hbackslash
          rfl
        · rw [shownChar_of_plain hlow (Nat.lt_succ_of_le hhigh) hquote hbackslash,
            if_neg (not_or.2 ⟨hquote, hbackslash⟩)]
          rfl
  rw [shown, String.toList_ofList, hescape, Quoted.enclose]
  rfl

/-- Names that can be listed are listed without blanks. -/
theorem exists_listed {names : List String} (h : ∀ name ∈ names, name ≠ "" ∧ '\x00' ∉ name.toList) :
    ∃ listed : List ListedName, listed.map ListedName.name = names ∧
      listed.map ListedName.text = names.map fun name => Quoted.enclose '"' name.toList := by
  refine ⟨names.pmap (fun name h =>
    ⟨[], '"', name, [], pads_nil, pads_nil, .inr rfl, h.1, h.2⟩) h, ?_, ?_⟩
  · rw [List.map_pmap, List.pmap_eq_map, List.map_id']
  · simp [List.map_pmap, ListedName.text]

/-- **A selector in brackets is read back** as it is printed, whatever follows. -/
theorem readBracketed_print {selector : Selector} (hprintable : selector.Printable)
    (hwellFormed : selector.WellFormed) (hlistable : selector.Listable)
    (hfunction : selector.isFunction = false) :
    ∃ content, selector.print.toList = '[' :: (content ++ [']']) ∧
      ∀ after, readBracketed (content ++ ']' :: after) = .ok (selector, after) := by
  have of_listing (h : ∃ content, Listing content selector) :
      ∃ content, selector.print.toList = '[' :: (content ++ [']']) ∧
        ∀ after, readBracketed (content ++ ']' :: after) = .ok (selector, after) := by
    obtain ⟨content, hcontent⟩ := h
    obtain ⟨printed, htext, hprinted⟩ := hcontent.print
    exact ⟨printed, htext, readBracketed_listing hprinted⟩
  cases selector with
  | all => exact ⟨['*'], rfl, fun after => rfl⟩
  | names names =>
      obtain ⟨hne, hnames⟩ := hwellFormed
      have hnull : ∀ name ∈ names, name ≠ "" ∧ '\x00' ∉ name.toList := fun name hname =>
        ⟨hnames name hname, fun hmem => absurd (hprintable name hname _ hmem).1 (by decide)⟩
      obtain ⟨listed, rfl, htexts⟩ := exists_listed hnull
      refine ⟨ListedName.listText listed, ?_, readBracketed_listed (by simpa using hne)⟩
      have hshown : (listed.map ListedName.name).map (fun name => (shown name).toList) =
          listed.map ListedName.text := by
        rw [htexts]
        exact List.map_congr_left fun name hname => shown_eq_enclose (hprintable name hname)
      rw [ListedName.listText, ← hshown]
      simp [print, String.toList_intercalate, Function.comp_def]
  | indices positions => exact of_listing hlistable
  | slice start stop => exact of_listing hlistable
  | filter tokens => exact hprintable.elim
  | apply f => cases hfunction

end Selector

/-! ### Segments -/

namespace Segment

/-- What is read as positions or a slice is in the grammar: behind a point stand neither. -/
theorem listable_of_read {s body rest : List Char} {segment : Segment}
    (h : read s = .ok (segment, body, rest)) : segment.selector.Listable := by
  obtain ⟨_, _, hlisted⟩ | ⟨_, _, hdotted⟩ := selector_of_read h
  · exact Selector.listable_of_readListed hlisted
  · obtain hselector | ⟨f, hselector⟩ | ⟨name, -, hselector⟩ :=
      Selector.selector_of_readDotted hdotted <;>
        rw [hselector] <;> trivial

/-- **A segment is read back** in front of other segments. -/
theorem read_print {s body rest : List Char} {segment : Segment}
    (h : read s = .ok (segment, body, rest)) (hprintable : segment.Printable) (after : List Char) :
    ∃ body', read (segment.print.toList ++ after) = .ok (segment, body', after) := by
  have hwellFormed := wellFormed_of_read h
  have hlistable := listable_of_read h
  obtain ⟨selector, detached⟩ := segment
  obtain ⟨hselector, hattached⟩ := hprintable
  cases hfunction : selector.isFunction with
  | false =>
      obtain ⟨content, hcontent, hread⟩ :=
        Selector.readBracketed_print hselector hwellFormed hlistable hfunction
      refine ⟨'[' :: (content ++ ']' :: after), read_eq_ok_iff.2
        ⟨if detached then ['.', '.'] else [], '[', content ++ ']' :: after, ?_, rfl, ⟨by decide, ?_⟩, hread after⟩⟩
      · rw [print, String.toList_append, hcontent]
        cases detached <;> simp
      · cases detached <;> simp
  | true =>
      obtain rfl : detached = false := hattached hfunction
      cases selector with
      | apply f =>
          have hname : ∀ c ∈ f.name.toList, isWord c = true := by
            cases f <;> exact List.all_eq_true.1 rfl
          have hread : Selector.readDotted (f.name.toList ++ '(' :: ')' :: after) =
              .ok (.apply f, after) :=
            Selector.readDotted_call hname rfl
              (by rw [String.ofList_toList, Aggregate.ofName?_name])
          obtain ⟨c, tail, hcons⟩ : ∃ c tail, f.name.toList = c :: tail := by
            cases f <;> exact ⟨_, _, rfl⟩
          have hc : isWord c = true := hname c (by rw [hcons]; simp)
          have hne : c ≠ '.' ∧ c ≠ '[' := by
            constructor <;> rintro rfl <;> exact absurd hc (by decide)
          refine ⟨f.name.toList ++ '(' :: ')' :: after, read_eq_ok_iff.2 ⟨['.'], c,
            tail ++ '(' :: ')' :: after, ?_, by rw [hcons]; rfl,
            ⟨hne.1, .inr (.inl ⟨rfl, rfl⟩)⟩, ?_⟩⟩
          · simp [print, Selector.print]
          · rw [if_neg hne.2, hread]
      | _ => cases hfunction

end Segment

/-! ### Paths -/

namespace Path

/-- Segments are read back one by one. -/
theorem readSegments_print {afterFunction : Bool} {s : List Char} {segments : List Segment}
    (h : readSegments afterFunction s = .ok segments)
    (hprintable : ∀ segment ∈ segments, segment.Printable) :
    readSegments afterFunction (segments.flatMap fun segment => segment.print.toList) =
      .ok segments := by
  fun_induction readSegments afterFunction s generalizing segments with
  | case1 =>
      obtain rfl := Except.ok.inj h
      exact readSegments_nil _
  | case4 afterFunction s hempty segment body rest hread _ hallowed ih =>
      obtain ⟨later, hlater, rfl⟩ := map_eq_ok_iff.1 h
      obtain ⟨hsegment, hprintable⟩ := List.forall_mem_cons.1 hprintable
      obtain ⟨body', hread'⟩ := Segment.read_print hread hsegment
        (later.flatMap fun segment => segment.print.toList)
      rw [List.flatMap_cons, readSegments_of_read hread', if_neg hallowed, ih hlater hprintable]
      rfl
  | _ => cases h

/-- **Printed paths are read back.** If a text is read as a path without filters and detached
functions, whose names are printable, then the path is printed as a text that is read as the same
path. So no two such paths are printed alike. -/
theorem ofString_print {text : String} {p : Path} (h : ofString text = .ok p)
    (hprintable : p.Printable) :
    ofString p.print = .ok p ∧
      ∀ (text' : String) (q : Path), ofString text' = .ok q → q.Printable →
        q.print = p.print → q = p := by
  have read_back {text : String} {p : Path} (h : ofString text = .ok p) (hp : p.Printable) :
      ofString p.print = .ok p := by
    obtain ⟨body, -, -, hread⟩ := ofString_eq_ok h
    have hback := readSegments_print hread hp
    have htext : (String.join (p.segments.map Segment.print)).toList =
        p.segments.flatMap fun segment => segment.print.toList := by
      rw [String.toList_join, List.flatMap_map]
    rw [print, ofString_root_eq_ok_iff, htext]
    refine ⟨fun hnil => ?_, hback⟩
    rw [hnil, readSegments_nil] at hback
    exact (wellFormed_of_ofString h).nonempty (Except.ok.inj hback).symm
  refine ⟨read_back h hprintable, fun text' q hq hqprintable hprint => ?_⟩
  have hback := read_back hq hqprintable
  rw [hprint, read_back h hprintable] at hback
  exact (Except.ok.inj hback).symm

/-- Names with a quote and a backslash in them, an open slice at any depth, and a call. -/
def quotedNames : Path :=
  ⟨[⟨.names ["it\"s", "\\"], false⟩, ⟨.slice (some (-2)) none, true⟩, ⟨.apply .max, false⟩]⟩

/-- Names in either quotes and a slice with padding are printed in one form, which is read back. -/
theorem ofString_print_quotedNames :
    ofString "$['it\"s' ,\"\\\\\"]..[ -02:].max()" = .ok quotedNames ∧ quotedNames.Printable ∧
      quotedNames.print = "$[\"it\\\"s\",\"\\\\\"]..[-2:].max()" ∧
      ofString quotedNames.print = .ok quotedNames := by
  have hnames : Segment.read "['it\"s' ,\"\\\\\"]..[ -02:].max()".toList =
      .ok (⟨.names ["it\"s", "\\"], false⟩, "['it\"s' ,\"\\\\\"]..[ -02:].max()".toList,
        "..[ -02:].max()".toList) := by cbv
  have hslice : Segment.read "..[ -02:].max()".toList =
      .ok (⟨.slice (some (-2)) none, true⟩, "[ -02:].max()".toList, ".max()".toList) := by cbv
  have hmax : Segment.read ".max()".toList =
      .ok (⟨.apply .max, false⟩, "max()".toList, []) := rfl
  have hread : ofString ("$" ++ "['it\"s' ,\"\\\\\"]..[ -02:].max()") = .ok quotedNames := by
    rw [ofString_root_eq_ok_iff, readSegments_of_read hnames, readSegments_of_read hslice,
      readSegments_of_read hmax, readSegments_nil]
    exact ⟨by decide, rfl⟩
  have hprintable : quotedNames.Printable := by
    simp only [Printable, quotedNames, List.forall_mem_cons]
    refine ⟨⟨?_, fun _ => rfl⟩, ⟨trivial, by decide⟩, ⟨trivial, fun _ => rfl⟩, by simp⟩
    have hchars : ∀ name ∈ ["it\"s", "\\"], ∀ c ∈ name.toList,
        (0x20 ≤ c.toNat && c.toNat ≤ 0x7e) = true := by
      simp only [List.forall_mem_cons]
      exact ⟨List.all_eq_true.1 rfl, List.all_eq_true.1 rfl, by simp⟩
    intro name hname c hc
    simpa [IsPrintable] using hchars name hname c hc
  exact ⟨hread, hprintable, by decide, (ofString_print hread hprintable).1⟩

end Path

end JsonPath
