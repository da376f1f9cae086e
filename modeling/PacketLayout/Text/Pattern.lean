/-
PacketLayout.Text.Pattern — regular expressions that are searched for.

A pattern is searched for anywhere in a text, and all that is asked is
whether it occurs. The search carries a set of places: from the places
where a pattern can start it goes to those where it can then end. A place
is a gap between characters, and a set of places one mark for each gap,
so the search needs no backtracking, and a repetition has reached all it
can reach after as many rounds as there are places.
-/
import PacketLayout.Text.Blank

namespace PacketLayout.Text

/-! ## Sets of characters -/

/-- A set of characters. -/
inductive CharSet where
  | none
  | between (first last : Char)
  /-- White space. -/
  | blank
  | union (left right : CharSet)
  | inter (left right : CharSet)
  /-- The characters of the first set that are not in the second. -/
  | diff (left right : CharSet)
  /-- The characters that are in one of the sets only. -/
  | symmDiff (left right : CharSet)
  | compl (set : CharSet)
  /-- The characters that are in the set in either case of the ASCII
  alphabet. -/
  | eitherCase (set : CharSet)
  deriving DecidableEq

namespace CharSet

def contains (c : Char) : CharSet → Bool
  | none => false
  | between first last => first ≤ c && c ≤ last
  | blank => isBlank c
  | union left right => left.contains c || right.contains c
  | inter left right => left.contains c && right.contains c
  | diff left right => left.contains c && !right.contains c
  | symmDiff left right => left.contains c != right.contains c
  | compl set => !set.contains c
  | eitherCase set =>
    set.contains c || set.contains c.toLower || set.contains c.toUpper

def single (c : Char) : CharSet :=
  between c c

def ofRanges (ranges : List (Char × Char)) : CharSet :=
  ranges.foldr (fun range set => union (between range.1 range.2) set) none

def digit : CharSet :=
  between '0' '9'

/-- The characters of words: letters and digits of ASCII, and the
underscore. -/
def word : CharSet :=
  ofRanges [('0', '9'), ('A', 'Z'), ('_', '_'), ('a', 'z')]

end CharSet

/-! ## Patterns -/

/-- What must hold at a place. -/
inductive Place where
  | textStart
  | textEnd
  | lineStart
  | lineEnd
  /-- A word starts or ends here. -/
  | wordBorder
  /-- No word starts or ends here. -/
  | noWordBorder
  | wordStart
  | wordEnd
  deriving DecidableEq

inductive Pattern where
  | empty
  | one (set : CharSet)
  | place (what : Place)
  | both (first second : Pattern)
  | either (left right : Pattern)
  /-- At least `least` times, and at most `most` times, if that is
  given. -/
  | repeated (body : Pattern) (least : Nat) (most : Option Nat)
  deriving DecidableEq

/-! ## Search -/

/-- The characters before and after a place. -/
structure Gap where
  before : Option Char
  after : Option Char

/-- The places of a text, after the character `before`. -/
def gaps (before : Option Char) : List Char → List Gap
  | [] => [⟨before, none⟩]
  | c :: rest => ⟨before, some c⟩ :: gaps (some c) rest

/-- There is a character of a word. -/
def isWordChar (c : Option Char) : Bool :=
  c.any (CharSet.word.contains ·)

def Place.holds (place : Place) (gap : Gap) : Bool :=
  let before := isWordChar gap.before
  let after := isWordChar gap.after
  match place with
  | .textStart => gap.before.isNone
  | .textEnd => gap.after.isNone
  | .lineStart => gap.before.isNone || gap.before == some '\n'
  | .lineEnd => gap.after.isNone || gap.after == some '\n'
  | .wordBorder => before != after
  | .noWordBorder => before == after
  | .wordStart => !before && after
  | .wordEnd => before && !after

/-- The marks of two sets of places together. -/
def joinMarks (left right : List Bool) : List Bool :=
  List.zipWith (· || ·) left right

namespace Pattern

/-- The places that a pattern reaches from the marked ones. -/
def advance (text : List Char) : Pattern → List Bool → List Bool
  | empty, marks => marks
  | one set, marks =>
    false :: List.zipWith (fun mark c => mark && set.contains c) marks text
  | place what, marks =>
    List.zipWith (fun mark gap => mark && what.holds gap) marks (gaps none text)
  | both first second, marks => advance text second (advance text first marks)
  | either left right, marks =>
    joinMarks (advance text left marks) (advance text right marks)
  | repeated body least most, marks =>
    let rounds := match most with
      | some n => min (n - least) (text.length + 1)
      | none => text.length + 1
    Nat.repeat (fun marks => joinMarks marks (advance text body marks)) rounds
      (Nat.repeat (advance text body) least marks)

/-- The pattern occurs somewhere in the text. -/
def occursIn (pattern : Pattern) (text : String) : Bool :=
  (pattern.advance text.toList (List.replicate (text.toList.length + 1) true)).any id

end Pattern

end PacketLayout.Text
