import JsonPath.Text.Numeral

/-!
# JSON values with their layout

A document is kept as a tree that loses nothing of the text it was read from: numbers keep their
spelling, strings their escapes, containers the blanks and commas between their children. The text
in front of a child, blanks and a comma if there is one, is its *gap*. So a value can be written out
again exactly (`Node.text`), and no node needs to know where it stands.

A `Site` is a node at a byte offset of its document. The offsets of the children follow from the
gaps.

## Main definitions

* `Node`, with `Items` and `Members`: the values, what stands in brackets, what stands in braces.
* `Node.text`: the text of a value, as it was written.
* `Node.depth`: how deeply containers are nested in it.
* `Site`, `Site.children`: a value in its document, and the values directly below it.

## Main results

* `Site.size_lt_of_mem_children`: a child is smaller than its parent.
-/

namespace JsonPath

open Text

mutual

/-- A JSON value as it is written. -/
inductive Node where
  /-- The word `null`. -/
  | null
  /-- One of the words `true` and `false`. -/
  | bool (value : Bool)
  /-- A number. -/
  | number (numeral : Numeral)
  /-- A string: what stands between the quotes, with its escapes. -/
  | string (body : List Char)
  /-- An array. -/
  | array (items : Items)
  /-- An object. -/
  | object (members : Members)

/-- What stands in the brackets of an array, from some place on. -/
inductive Items where
  /-- Blanks and the closing bracket. -/
  | close (blanks : List Char)
  /-- An element, its gap, and the rest. -/
  | item (gap : List Char) (value : Node) (rest : Items)

/-- What stands in the braces of an object, from some place on. -/
inductive Members where
  /-- Blanks and the closing brace. -/
  | close (blanks : List Char)
  /-- A member: its gap, the key without its quotes, the colon with blanks around it, the value. -/
  | member (gap key colon : List Char) (value : Node) (rest : Members)

end

/-- The kinds of JSON values. -/
inductive Kind where
  /-- Members by name. -/
  | object
  /-- Elements by position. -/
  | array
  /-- A string. -/
  | string
  /-- A number. -/
  | number
  /-- A truth value. -/
  | bool
  /-- No value. -/
  | null
  deriving DecidableEq, Repr

/-- A string with its quotes. -/
def quoted (body : List Char) : List Char :=
  '"' :: (body ++ ['"'])

mutual

/-- The text of a value, as it was written. -/
def Node.text : Node → List Char
  | .null => "null".toList
  | .bool value => if value then "true".toList else "false".toList
  | .number numeral => numeral.text
  | .string body => quoted body
  | .array items => '[' :: items.text
  | .object members => '\x7b' :: members.text

/-- The text of what stands in brackets, with the closing one. -/
def Items.text : Items → List Char
  | .close blanks => blanks ++ [']']
  | .item gap value rest => gap ++ (value.text ++ rest.text)

/-- The text of what stands in braces, with the closing one. -/
def Members.text : Members → List Char
  | .close blanks => blanks ++ ['\x7d']
  | .member gap key colon value rest => gap ++ (quoted key ++ (colon ++ (value.text ++ rest.text)))

end

mutual

/-- How deeply containers are nested: zero for a value that is none. -/
def Node.depth : Node → Nat
  | .array items => items.depth + 1
  | .object members => members.depth + 1
  | _ => 0

/-- The greatest depth of the elements. -/
def Items.depth : Items → Nat
  | .close _ => 0
  | .item _ value rest => max value.depth rest.depth

/-- The greatest depth of the values of the members. -/
def Members.depth : Members → Nat
  | .close _ => 0
  | .member _ _ _ value rest => max value.depth rest.depth

end

mutual

/-- How many values there are in a value, itself included. -/
def Node.size : Node → Nat
  | .array items => items.size + 1
  | .object members => members.size + 1
  | _ => 1

/-- How many values there are in the elements. -/
def Items.size : Items → Nat
  | .close _ => 0
  | .item _ value rest => value.size + rest.size

/-- How many values there are in the values of the members. -/
def Members.size : Members → Nat
  | .close _ => 0
  | .member _ _ _ value rest => value.size + rest.size

end

namespace Node

/-- The kind of a value. -/
def kind : Node → Kind
  | .null => .null
  | .bool _ => .bool
  | .number _ => .number
  | .string _ => .string
  | .array _ => .array
  | .object _ => .object

/-- Whether a value can have children. -/
def isContainer : Node → Bool
  | .array _ => true
  | .object _ => true
  | _ => false

/-- Whether a value is an array. -/
def isArray : Node → Bool
  | .array _ => true
  | _ => false

end Node

/-- A value at a byte offset of its document. -/
structure Site where
  /-- Where the value begins. -/
  start : Nat
  /-- The value. -/
  node : Node

/-- The member of an object at its place. -/
structure MemberSite where
  /-- Where the key begins. -/
  keyStart : Nat
  /-- The key without its quotes, with its escapes. -/
  key : List Char
  /-- The value. -/
  value : Site

/-- The elements, for a text that begins at a byte offset. -/
def Items.sites (start : Nat) : Items → List Site
  | .close _ => []
  | .item gap value rest =>
    let place := start + byteSize gap
    ⟨place, value⟩ :: rest.sites (place + byteSize value.text)

/-- The members, for a text that begins at a byte offset. -/
def Members.sites (start : Nat) : Members → List MemberSite
  | .close _ => []
  | .member gap key colon value rest =>
    let keyStart := start + byteSize gap
    let place := keyStart + byteSize (quoted key) + byteSize colon
    ⟨keyStart, key, ⟨place, value⟩⟩ :: rest.sites (place + byteSize value.text)

namespace Site

/-- The text of a value, as it was written. -/
def text (s : Site) : List Char :=
  s.node.text

/-- The elements of an array in order; nothing else has elements. -/
def elements (s : Site) : List Site :=
  match s.node with
  | .array items => items.sites (s.start + 1)
  | _ => []

/-- The members of an object in order; nothing else has members. -/
def members (s : Site) : List MemberSite :=
  match s.node with
  | .object members => members.sites (s.start + 1)
  | _ => []

end Site

/-- How a value is found in its parent. -/
inductive Label where
  /-- By the key of a member; the key begins at `start`. -/
  | key (start : Nat) (body : List Char)
  /-- By its position among the elements. -/
  | position (index count : Nat)
  deriving DecidableEq, Repr

/-- A value directly below another one. -/
structure Child where
  /-- How it is found there. -/
  label : Label
  /-- The value. -/
  site : Site

/-- The values directly below a value, in the order of the document. -/
def Site.children (s : Site) : List Child :=
  match s.node with
  | .array items =>
    let sites := items.sites (s.start + 1)
    let count := sites.length
    sites.zipIdx.map fun (site, index) => ⟨.position index count, site⟩
  | .object members =>
    (members.sites (s.start + 1)).map fun m => ⟨.key m.keyStart m.key, m.value⟩
  | _ => []

/-- An element is no larger than the elements it is one of. -/
theorem Items.size_le_of_mem_sites {start : Nat} {items : Items} {s : Site}
    (h : s ∈ items.sites start) : s.node.size ≤ items.size := by
  match items with
  | .close _ => simp [Items.sites] at h
  | .item gap value rest =>
    rw [Items.sites] at h
    rcases List.mem_cons.1 h with rfl | h
    · simp [Items.size]
    · have := size_le_of_mem_sites h
      simp [Items.size]
      omega

/-- A value of an object is no larger than the members it is one of. -/
theorem Members.size_le_of_mem_sites {start : Nat} {members : Members} {m : MemberSite}
    (h : m ∈ members.sites start) : m.value.node.size ≤ members.size := by
  match members with
  | .close _ => simp [Members.sites] at h
  | .member gap key colon value rest =>
    rw [Members.sites] at h
    rcases List.mem_cons.1 h with rfl | h
    · simp [Members.size]
    · have := size_le_of_mem_sites h
      simp [Members.size]
      omega

/-- A child is smaller than its parent. -/
theorem Site.size_lt_of_mem_children {s : Site} {c : Child} (h : c ∈ s.children) :
    c.site.node.size < s.node.size := by
  unfold Site.children at h
  split at h
  · rename_i items hn
    obtain ⟨⟨site, i⟩, hm, rfl⟩ := List.mem_map.1 h
    have := Items.size_le_of_mem_sites (List.fst_mem_of_mem_zipIdx hm)
    rw [hn, Node.size]
    exact Nat.lt_succ_of_le this
  · rename_i members hn
    obtain ⟨m, hm, rfl⟩ := List.mem_map.1 h
    have := Members.size_le_of_mem_sites hm
    rw [hn, Node.size]
    exact Nat.lt_succ_of_le this
  · simp at h

end JsonPath
