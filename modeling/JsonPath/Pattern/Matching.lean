import JsonPath.Pattern.Basic

/-!
# Searching for patterns

To search for a pattern, places in the text are marked: one mark before each character and one at
the end. From marked places a pattern leads to other places, those where it may end if it begins at
a marked one (`Pattern.advance`). All the beginnings are followed at once, so a pattern occurs in a
text if from all its places it leads to any place.

A repetition without an upper bound leads to all the places that more and more rounds reach, and no
more rounds are needed than there are places.

## Main definitions

* `Marks`: the marked places.
* `Pattern.advance`: where a pattern leads.
* `Pattern.occursIn`: whether a pattern occurs in a text.
-/

namespace JsonPath

/-- Marks at the places of a text, in order: before each character and at the end. -/
abbrev Marks := List Bool

namespace Marks

/-- The places that are marked in either. -/
def join (s t : Marks) : Marks :=
  List.zipWith (· || ·) s t

/-- What `f` leads to in exactly so many rounds. -/
def iterate (f : Marks → Marks) : (rounds : Nat) → Marks → Marks
  | 0, s => s
  | rounds + 1, s => if s.any id then iterate f rounds (f s) else s

/-- What `f` leads to in at most so many rounds. -/
def within (f : Marks → Marks) : (rounds : Nat) → Marks → Marks
  | 0, s => s
  | rounds + 1, s =>
    let t := join s (f s)
    if t = s then s else within f rounds t

end Marks

/-- The characters around each place of a text. -/
def surroundings (before : Option Char) : List Char → List (Option Char × Option Char)
  | [] => [(before, none)]
  | c :: text => (before, some c) :: surroundings (some c) text

namespace Pattern

/-- Where a pattern may end if it begins at a marked place. -/
def advance (text : List Char) : Pattern → Marks → Marks
  | .empty, s => s
  | .one k, s => false :: List.zipWith (fun marked c => marked && k.contains c) s text
  | .anchor a, s =>
    List.zipWith (fun marked around => marked && a.holds around.1 around.2) s
      (surroundings none text)
  | .sequence p q, s => q.advance text (p.advance text s)
  | .choice p q, s => (p.advance text s).join (q.advance text s)
  | .times least none p, s =>
    Marks.within (p.advance text) s.length (Marks.iterate (p.advance text) least s)
  | .times least (some most) p, s =>
    Marks.within (p.advance text) (most - least) (Marks.iterate (p.advance text) least s)

/-- Whether a pattern occurs somewhere in a text. -/
def occursIn (p : Pattern) (text : List Char) : Bool :=
  (p.advance text (List.replicate (text.length + 1) true)).any id

end Pattern

end JsonPath
