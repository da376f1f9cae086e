/-
PacketLayout.Text.Pattern.Reading — the written form of patterns.

A written pattern is read from left to right, one item at a time: a
character, a set in brackets, an escape, the start or the end of a group,
a bar, or a repetition of the item before it. What has been read is a
stack of groups that are still open, so the first fault in the text is
the one that is found. A fault knows the columns it is about, and its
message shows them below the pattern.

Case folding, words and digits are those of ASCII, and the properties of
the Unicode database are not known.
-/
import PacketLayout.Text.Decimal
import PacketLayout.Text.Hex
import PacketLayout.Text.Pattern
import PacketLayout.Text.Scan

namespace PacketLayout.Text

/-! ## Faults -/

/-- What is wrong with a written pattern. -/
inductive PatternFault.Kind where
  | setUnclosed
  /-- An escape in a set is neither a character nor a set. -/
  | setEscape
  | rangeReversed
  /-- A range does not go from a character to a character. -/
  | rangeBoundary
  | countMissing
  | countTooLarge
  | countsReversed
  | countUnclosed
  | escapeUnfinished
  | escapeUnknown
  | hexMissing
  | hexDigit
  /-- The number is not that of a character. -/
  | hexValue
  | flagUnknown
  | flagRepeated
  /-- A minus sign is followed by no flag. -/
  | negationDangling
  | negationRepeated
  | flagsUnfinished
  | nameEmpty
  | nameCharacter
  | nameUnfinished
  | groupUnclosed
  | groupUnopened
  /-- There is nothing to repeat. -/
  | operandMissing
  | backreference
  | lookAround
  | property
  deriving DecidableEq

def PatternFault.Kind.message : PatternFault.Kind → String
  | .setUnclosed => "unclosed character class"
  | .setEscape => "invalid escape sequence found in character class"
  | .rangeReversed => "invalid character class range, the start must be <= the end"
  | .rangeBoundary => "invalid range boundary, must be a literal"
  | .countMissing => "repetition quantifier expects a valid decimal"
  | .countTooLarge => "decimal literal invalid"
  | .countsReversed =>
    "invalid repetition count range, the start must be <= the end"
  | .countUnclosed => "unclosed counted repetition"
  | .escapeUnfinished =>
    "incomplete escape sequence, reached end of pattern prematurely"
  | .escapeUnknown => "unrecognized escape sequence"
  | .hexMissing => "hexadecimal literal empty"
  | .hexDigit => "invalid hexadecimal digit"
  | .hexValue => "hexadecimal literal is not a Unicode scalar value"
  | .flagUnknown => "unrecognized flag"
  | .flagRepeated => "duplicate flag"
  | .negationDangling => "dangling flag negation operator"
  | .negationRepeated => "flag negation operator repeated"
  | .flagsUnfinished => "expected flag but got end of regex"
  | .nameEmpty => "empty capture group name"
  | .nameCharacter => "invalid capture group character"
  | .nameUnfinished => "unclosed capture group name"
  | .groupUnclosed => "unclosed group"
  | .groupUnopened => "unopened group"
  | .operandMissing => "repetition operator missing expression"
  | .backreference => "backreferences are not supported"
  | .lookAround => "look-around, including look-ahead and look-behind, is not supported"
  | .property => "Unicode property not found"

/-- A fault, and the columns from `first` to before `last` that it is
about. -/
structure PatternFault where
  kind : PatternFault.Kind
  first : Nat
  last : Nat
  /-- The columns of what is repeated. -/
  earlier : Option (Nat × Nat) := none
  deriving DecidableEq

/-- The line of marks below a pattern, which is at least one mark wide for
each stretch of columns. -/
def caretLine (stretches : List (Nat × Nat)) : List Char :=
  stretches.foldl
    (fun line (first, last) =>
      line ++ List.replicate (first - line.length) ' '
        ++ List.replicate (max 1 (last - first)) '^')
    []

/-- The message for a fault of the given pattern. -/
def PatternFault.message (fault : PatternFault) (pattern : String) : String :=
  "regex parse error:\n    " ++ pattern ++ "\n    "
    ++ String.ofList (caretLine (fault.earlier.toList ++ [(fault.first, fault.last)]))
    ++ "\nerror: " ++ fault.kind.message

/-! ## Escapes -/

/-- What is left of a pattern, and in which column that starts. -/
structure Cursor where
  column : Nat
  rest : List Char

def Cursor.skip (cursor : Cursor) (count : Nat) : Cursor :=
  ⟨cursor.column + count, cursor.rest.drop count⟩

/-- A fault from the given column to the cursor. -/
def Cursor.fault {α : Type} (cursor : Cursor) (first : Nat) (kind : PatternFault.Kind) :
    Except PatternFault α :=
  .error { kind, first, last := cursor.column }

/-- A fault at the cursor. -/
def Cursor.faultHere {α : Type} (cursor : Cursor) (kind : PatternFault.Kind) :
    Except PatternFault α :=
  .error { kind, first := cursor.column, last := cursor.column }

/-- A part of a pattern that does not hold others. -/
inductive Atom where
  | character (c : Char)
  | set (chars : CharSet)
  | place (what : Place)
  deriving DecidableEq

/-- The number that hexadecimal digits write. -/
def hexNumber (digits : List Char) : Nat :=
  digits.foldl
    (fun value digit =>
      16 * value + (if digit.isDigit then digit.toNat - '0'.toNat
        else digit.toUpper.toNat - 'A'.toNat + 10))
    0

/-- The character whose number is written, in the given columns. -/
def readCode (digits : List Char) (first last : Nat) : Except PatternFault Atom :=
  let code := hexNumber digits
  if code.isValidChar then .ok (.character (Char.ofNat code))
  else .error { kind := .hexValue, first, last }

/-- Reads a fixed count of hexadecimal digits. -/
def readDigits (cursor : Cursor) (count : Nat) : Except PatternFault (Atom × Cursor) :=
  let digits := (cursor.rest.take count).takeWhile isHexDigit
  let after := cursor.skip digits.length
  if digits.length = count then do
    return (← readCode digits cursor.column after.column, after)
  else
    match after.rest with
    | [] => after.faultHere .escapeUnfinished
    | _ => after.faultHere .hexDigit

/-- Reads hexadecimal digits in braces; the cursor is after the opening
one. -/
def readBraced (cursor : Cursor) : Except PatternFault (Atom × Cursor) :=
  let opening := cursor.column - 1
  let digits := cursor.rest.takeWhile isHexDigit
  let after := cursor.skip digits.length
  match after.rest with
  | [] => after.fault opening .escapeUnfinished
  | '}' :: _ =>
    if digits.isEmpty then (after.skip 1).fault opening .hexMissing
    else do return (← readCode digits cursor.column after.column, after.skip 1)
  | _ => after.faultHere .hexDigit

/-- Reads a character by its number, of so many digits unless they are in
braces. -/
def readHex (cursor : Cursor) (count : Nat) : Except PatternFault (Atom × Cursor) :=
  match cursor.rest with
  | [] => cursor.faultHere .escapeUnfinished
  | '{' :: _ => readBraced (cursor.skip 1)
  | _ => readDigits cursor count

/-- The name of a property ends the escape: one character, or all to the
closing brace. -/
def skipProperty (cursor : Cursor) : Cursor :=
  match cursor.rest with
  | '{' :: rest => cursor.skip (2 + (rest.takeWhile (· != '}')).length)
  | _ => cursor.skip 1

/-- The meaning of an escaped letter. -/
def Atom.ofLetter? : Char → Option Atom
  | 'd' => some (.set .digit)
  | 'D' => some (.set (.compl .digit))
  | 's' => some (.set .blank)
  | 'S' => some (.set (.compl .blank))
  | 'w' => some (.set .word)
  | 'W' => some (.set (.compl .word))
  | 'a' => some (.character '\x07')
  | 'f' => some (.character '\x0c')
  | 't' => some (.character '\t')
  | 'n' => some (.character '\n')
  | 'r' => some (.character '\r')
  | 'v' => some (.character '\x0b')
  | 'A' => some (.place .textStart)
  | 'z' => some (.place .textEnd)
  | 'b' => some (.place .wordBorder)
  | 'B' => some (.place .noWordBorder)
  | '<' => some (.place .wordStart)
  | '>' => some (.place .wordEnd)
  | _ => none

/-- Reads what follows a backslash in the column `first`. A character of
ASCII that is neither a letter nor a digit stands for itself. -/
def readEscape (first : Nat) (cursor : Cursor) : Except PatternFault (Atom × Cursor) :=
  match cursor.rest with
  | [] => cursor.fault first .escapeUnfinished
  | c :: _ =>
    let after := cursor.skip 1
    if c.isDigit then after.fault first .backreference
    else if c = 'x' then readHex after 2
    else if c = 'u' then readHex after 4
    else if c = 'U' then readHex after 8
    else if c = 'p' ∨ c = 'P' then (skipProperty after).fault first .property
    else
      match Atom.ofLetter? c with
      | some atom => .ok (atom, after)
      | none =>
        if c ≤ '\x7f' ∧ !c.isAlphanum then .ok (.character c, after)
        else after.fault first .escapeUnknown

/-! ## Sets in brackets -/

/-- How two sets are put together. -/
inductive SetOperation where
  | inter
  | diff
  | symmDiff
  deriving DecidableEq

def SetOperation.apply : SetOperation → CharSet → CharSet → CharSet
  | .inter => .inter
  | .diff => .diff
  | .symmDiff => .symmDiff

/-- The sets that have a name between colons. -/
def CharSet.ofName? : String → Option CharSet
  | "alnum" => some (.ofRanges [('0', '9'), ('A', 'Z'), ('a', 'z')])
  | "alpha" => some (.ofRanges [('A', 'Z'), ('a', 'z')])
  | "ascii" => some (.between '\x00' '\x7f')
  | "blank" => some (.ofRanges [('\t', '\t'), (' ', ' ')])
  | "cntrl" => some (.ofRanges [('\x00', '\x1f'), ('\x7f', '\x7f')])
  | "digit" => some .digit
  | "graph" => some (.between '!' '~')
  | "lower" => some (.between 'a' 'z')
  | "print" => some (.between ' ' '~')
  | "punct" => some (.ofRanges [('!', '/'), (':', '@'), ('[', '\x60'), ('\x7b', '~')])
  | "space" => some (.ofRanges [('\t', '\r'), (' ', ' ')])
  | "upper" => some (.between 'A' 'Z')
  | "word" => some .word
  | "xdigit" => some (.ofRanges [('0', '9'), ('A', 'F'), ('a', 'f')])
  | _ => none

/-- Reads `[:name:]`, or `[:^name:]` for all but the named set. -/
def readNamedSet? (cursor : Cursor) : Option (CharSet × Cursor) := do
  let inside ← after? "[:" cursor.rest
  let negated := inside.head? == some '^'
  let name := (inside.drop (if negated then 1 else 0)).takeWhile (· != ':')
  let set ← CharSet.ofName? (String.ofList name)
  let used := (if negated then 3 else 2) + name.length
  let _ ← after? ":]" (cursor.rest.drop used)
  return (if negated then .compl set else set, cursor.skip (used + 2))

/-- A set that has been opened. -/
structure OpenSet where
  first : Nat
  last : Nat
  negated : Bool
  /-- What stands left of the last operation. -/
  left : Option (SetOperation × CharSet) := none
  /-- What has been read since. -/
  items : CharSet := .none

namespace OpenSet

def add (set : OpenSet) (item : CharSet) : OpenSet :=
  { set with items := .union set.items item }

/-- What has been read. -/
def operand (set : OpenSet) : CharSet :=
  match set.left with
  | some (operation, left) => operation.apply left set.items
  | none => set.items

def operate (set : OpenSet) (operation : SetOperation) : OpenSet :=
  { set with left := some (operation, set.operand), items := .none }

def close (set : OpenSet) : CharSet :=
  if set.negated then .compl set.operand else set.operand

def unclosed {α : Type} (set : OpenSet) : Except PatternFault α :=
  .error { kind := .setUnclosed, first := set.first, last := set.last }

end OpenSet

/-- Reads the start of a set, at its bracket. A minus sign stands for
itself there, and so does a closing bracket that comes first. -/
def openSet (cursor : Cursor) : Except PatternFault (OpenSet × Cursor) :=
  let first := cursor.column
  let inside := cursor.skip 1
  let negated := inside.rest.head? == some '^'
  let start := if negated then inside.skip 1 else inside
  let dashes := (start.rest.takeWhile (· == '-')).length
  let afterDashes := start.skip dashes
  let closing := dashes == 0 && afterDashes.rest.head? == some ']'
  let after := if closing then afterDashes.skip 1 else afterDashes
  let items : CharSet :=
    if closing then .single ']' else if dashes = 0 then .none else .single '-'
  match after.rest with
  | [] =>
    if dashes = 0 then after.fault first .setUnclosed
    else .error { kind := .setUnclosed, first, last := first }
  | _ => .ok ({ first, last := after.column, negated, items }, after)

/-- Reads one character of a set, or an escape. -/
def readSetAtom (cursor : Cursor) : Except PatternFault (Atom × Cursor) :=
  match cursor.rest with
  | '\\' :: _ => readEscape cursor.column (cursor.skip 1)
  | c :: _ => .ok (.character c, cursor.skip 1)
  | [] => cursor.faultHere .setUnclosed

/-- The set that an atom of a set stands for. -/
def Atom.asItem (atom : Atom) (first last : Nat) : Except PatternFault CharSet :=
  match atom with
  | .character c => .ok (.single c)
  | .set chars => .ok chars
  | .place _ => .error { kind := .setEscape, first, last }

/-- The character that an atom at the end of a range stands for. -/
def Atom.asBoundary (atom : Atom) (first last : Nat) : Except PatternFault Char :=
  match atom with
  | .character c => .ok c
  | _ => .error { kind := .rangeBoundary, first, last }

/-- Reads an item of a set: an atom, or a range. A minus sign before
the closing bracket, or before another, makes no range. -/
def readSetItem (set : OpenSet) (cursor : Cursor) :
    Except PatternFault (CharSet × Cursor) := do
  let (lower, afterLower) ← readSetAtom cursor
  match afterLower.rest with
  | [] => set.unclosed
  | '-' :: rest =>
    if rest.head? = some ']' ∨ rest.head? = some '-' then
      return (← lower.asItem cursor.column afterLower.column, afterLower)
    else if rest.isEmpty then set.unclosed
    else
      let start := afterLower.skip 1
      let (upper, after) ← readSetAtom start
      let first ← lower.asBoundary cursor.column afterLower.column
      let last ← upper.asBoundary start.column after.column
      if first ≤ last then return (.between first last, after)
      else after.fault cursor.column .rangeReversed
  | _ => return (← lower.asItem cursor.column afterLower.column, afterLower)

/-- Reads the rest of a set. Each item takes at least one character, so
the length of what is left is fuel enough. -/
def readSet (fold : CharSet → CharSet) (fuel : Nat) (set : OpenSet) (cursor : Cursor) :
    Except PatternFault (CharSet × Cursor) :=
  match fuel, cursor.rest with
  | 0, _ => set.unclosed
  | _, [] => set.unclosed
  | _ + 1, ']' :: _ => .ok (set.close, cursor.skip 1)
  | fuel + 1, '&' :: '&' :: _ => readSet fold fuel (set.operate .inter) (cursor.skip 2)
  | fuel + 1, '-' :: '-' :: _ => readSet fold fuel (set.operate .diff) (cursor.skip 2)
  | fuel + 1, '~' :: '~' :: _ => readSet fold fuel (set.operate .symmDiff) (cursor.skip 2)
  | fuel + 1, '[' :: _ =>
    match readNamedSet? cursor with
    | some (named, after) => readSet fold fuel (set.add (fold named)) after
    | none => do
      let (inner, start) ← openSet cursor
      let (nested, after) ← readSet fold fuel inner start
      readSet fold fuel (set.add nested) after
  | fuel + 1, _ => do
    let (item, after) ← readSetItem set cursor
    readSet fold fuel (set.add (fold item)) after

/-! ## Groups -/

/-- How patterns are taken. -/
structure PatternFlags where
  ignoreCase : Bool := false
  /-- The starts and ends of lines count as those of the text. -/
  multiLine : Bool := false
  /-- A dot stands for a line end as well. -/
  dotAll : Bool := false
  deriving DecidableEq

/-- The set with the case of letters ignored, if the flags say so. -/
def PatternFlags.fold (flags : PatternFlags) (set : CharSet) : CharSet :=
  if flags.ignoreCase then .eitherCase set else set

/-- Turns one flag on or off. Those that change neither what is found nor
where are accepted, too. -/
def PatternFlags.turn? (flags : PatternFlags) (letter : Char) (value : Bool) :
    Option PatternFlags :=
  match letter with
  | 'i' => some { flags with ignoreCase := value }
  | 'm' => some { flags with multiLine := value }
  | 's' => some { flags with dotAll := value }
  | 'U' | 'u' | 'R' | 'x' => some flags
  | _ => none

/-- A group, up to where it has been read. -/
structure OpenGroup where
  /-- The column of its parenthesis. -/
  first : Nat
  /-- The flags in force around the group. -/
  around : PatternFlags
  /-- The alternatives before the last bar, the last first. -/
  branches : List Pattern := []
  /-- The items since, the last first; a change of flags is none. -/
  items : List (Option Pattern) := []

/-- The pattern of the items of an alternative, the last first. -/
def patternOfItems (items : List (Option Pattern)) : Pattern :=
  (items.filterMap id).foldl (fun later item => .both item later) .empty

/-- The pattern of a group. -/
def OpenGroup.pattern (group : OpenGroup) : Pattern :=
  group.branches.foldl (fun later branch => .either branch later)
    (patternOfItems group.items)

/-- What has been read of a pattern: the innermost group, the groups
around it, and the flags in force. The outermost group is the pattern as
a whole. -/
structure Draft where
  flags : PatternFlags := {}
  group : OpenGroup := { first := 0, around := {} }
  around : List OpenGroup := []

namespace Draft

def push (draft : Draft) (item : Option Pattern) : Draft :=
  { draft with group := { draft.group with items := item :: draft.group.items } }

/-- Starts another alternative. -/
def bar (draft : Draft) : Draft :=
  { draft with
    group := { draft.group with
      branches := patternOfItems draft.group.items :: draft.group.branches
      items := [] } }

/-- Opens a group, with the flags in force inside of it. -/
def openGroup (draft : Draft) (first : Nat) (flags : PatternFlags) : Draft :=
  { flags, group := { first, around := draft.flags },
    around := draft.group :: draft.around }

/-- Closes a group, if one is open. -/
def closeGroup? (draft : Draft) : Option Draft :=
  match draft.around with
  | [] => none
  | outer :: around =>
    some (push { flags := draft.group.around, group := outer, around }
      (some draft.group.pattern))

/-- Takes an atom as an item. -/
def pushAtom (draft : Draft) : Atom → Draft
  | .character c => draft.push (some (.one (draft.flags.fold (.single c))))
  | .set chars => draft.push (some (.one chars))
  | .place what => draft.push (some (.place what))

/-- Repeats the last item. -/
def repeatItem? (draft : Draft) (least : Nat) (most : Option Nat) : Option Draft :=
  match draft.group.items with
  | some item :: items =>
    some { draft with
      group := { draft.group with items := some (.repeated item least most) :: items } }
  | _ => none

end Draft

/-! ## Flags and names of groups -/

/-- A flag that has been read, or the minus sign, and its column. -/
abbrev FlagMark := Char × Nat

/-- Reads flags up to a colon or a closing parenthesis. Those after a
minus sign are turned off. -/
def readFlags (flags : PatternFlags) (value : Bool) (marks : List FlagMark) (column : Nat) :
    List Char → Except PatternFault (PatternFlags × Cursor)
  | [] => .error { kind := .flagsUnfinished, first := column, last := column }
  | c :: rest =>
    let earlier := (marks.find? fun mark => mark.1 == c).map fun mark =>
      (mark.2, mark.2 + 1)
    if c = ':' ∨ c = ')' then
      match marks with
      | ('-', dash) :: _ =>
        .error { kind := .negationDangling, first := dash, last := dash + 1 }
      | _ => .ok (flags, ⟨column, c :: rest⟩)
    else if c = '-' then
      if earlier.isSome then
        .error { kind := .negationRepeated, first := column, last := column + 1, earlier }
      else readFlags flags false ((c, column) :: marks) (column + 1) rest
    else
      match flags.turn? c value with
      | none => .error { kind := .flagUnknown, first := column, last := column + 1 }
      | some turned =>
        if earlier.isSome then
          .error { kind := .flagRepeated, first := column, last := column + 1, earlier }
        else readFlags turned value ((c, column) :: marks) (column + 1) rest

/-- A name can hold the character, at its start or later. -/
def isNameChar (atStart : Bool) (c : Char) : Bool :=
  c == '_' || c.isAlpha
    || (!atStart && (c.isDigit || c == '.' || c == '[' || c == ']'))

/-- Reads the name of a group, with the bracket that ends it. -/
def readName (cursor : Cursor) : Except PatternFault Cursor :=
  let first := (cursor.rest.take 1).takeWhile (isNameChar true)
  let later := (cursor.rest.drop first.length).takeWhile (isNameChar false)
  let after := cursor.skip (if first.isEmpty then 0 else first.length + later.length)
  match after.rest with
  | [] => after.faultHere .nameUnfinished
  | '>' :: _ =>
    if first.isEmpty then cursor.faultHere .nameEmpty else .ok (after.skip 1)
  | _ => after.faultHere .nameCharacter

/-- Reads the start of a group, or a change of flags; the cursor is at the
parenthesis. -/
def readGroup (draft : Draft) (cursor : Cursor) : Except PatternFault (Draft × Cursor) :=
  let first := cursor.column
  let inside := cursor.skip 1
  let opened := draft.openGroup first draft.flags
  if startsWith "?=" inside.rest ∨ startsWith "?!" inside.rest then
    (inside.skip 2).fault first .lookAround
  else if startsWith "?<=" inside.rest ∨ startsWith "?<!" inside.rest then
    (inside.skip 3).fault first .lookAround
  else if startsWith "?P<" inside.rest then do return (opened, ← readName (inside.skip 3))
  else if startsWith "?<" inside.rest then do return (opened, ← readName (inside.skip 2))
  else if startsWith "?" inside.rest then
    let start := inside.skip 1
    match start.rest with
    | [] => inside.fault first .groupUnclosed
    | ')' :: _ => inside.faultHere .operandMissing
    | _ => do
      let (flags, after) ← readFlags draft.flags true [] start.column start.rest
      if startsWith ":" after.rest then
        return (draft.openGroup first flags, after.skip 1)
      else return (Draft.push { draft with flags } none, after.skip 1)
  else .ok (opened, inside)

/-! ## Repetitions -/

/-- Takes the mark of a repetition that stops early, which finds the same
texts. -/
def skipLazy (cursor : Cursor) : Cursor :=
  if cursor.rest.head? = some '?' then cursor.skip 1 else cursor

/-- The largest number that a repetition can have. -/
def maxCount : Nat := 4294967295

/-- Reads the number of a repetition, with white space around it. -/
def readCount (cursor : Cursor) : Except PatternFault Nat × Cursor :=
  let start := cursor.skip (cursor.rest.takeWhile isBlank).length
  let digits := start.rest.takeWhile Char.isDigit
  let stop := start.skip digits.length
  let after := stop.skip (stop.rest.takeWhile isBlank).length
  if digits.isEmpty then (stop.fault start.column .countMissing, after)
  else if decimalValue digits > maxCount then
    (stop.fault start.column .countTooLarge, after)
  else (.ok (decimalValue digits), after)

/-- Reads the numbers of a repetition between braces: the least, and the
most, if there is one. The cursor is at the opening brace. -/
def readCounts (cursor : Cursor) :
    Except PatternFault ((Nat × Option Nat) × Cursor) := do
  let first := cursor.column
  let inside := cursor.skip 1
  if inside.rest.isEmpty then inside.fault first .countUnclosed
  let (least, afterLeast) := readCount inside
  let (counts, after) ←
    match afterLeast.rest with
    | [] => afterLeast.fault first .countUnclosed
    | ',' :: rest =>
      if rest.isEmpty then (afterLeast.skip 1).fault first .countUnclosed
      else if rest.head? = some '}' then
        pure ((← least, none), afterLeast.skip 1)
      else do
        let n ← least
        let (most, after) := readCount (afterLeast.skip 1)
        pure ((n, some (← most)), after)
    | _ => do
      let n ← least
      pure ((n, some n), afterLeast)
  if after.rest.head? ≠ some '}' then after.fault first .countUnclosed
  let stop := skipLazy (after.skip 1)
  if counts.2.any (· < counts.1) then stop.fault first .countsReversed
  return (counts, stop)

/-- Reads a repetition, at its sign. -/
def readRepetition (draft : Draft) (cursor : Cursor) (least : Nat) (most : Option Nat) :
    Except PatternFault (Draft × Cursor) :=
  match draft.repeatItem? least most with
  | some repeated => .ok (repeated, skipLazy (cursor.skip 1))
  | none => cursor.faultHere .operandMissing

/-! ## Whole patterns -/

/-- Reads one item of a pattern, at the character `c`. -/
def readItem (draft : Draft) (cursor : Cursor) (c : Char) :
    Except PatternFault (Draft × Cursor) :=
  match c with
  | '(' => readGroup draft cursor
  | ')' =>
    match draft.closeGroup? with
    | some closed => .ok (closed, cursor.skip 1)
    | none => cursor.faultHere .groupUnopened
  | '|' => .ok (draft.bar, cursor.skip 1)
  | '[' => do
    let (set, start) ← openSet cursor
    let (chars, after) ← readSet draft.flags.fold start.rest.length set start
    return (draft.push (some (.one chars)), after)
  | '?' => readRepetition draft cursor 0 (some 1)
  | '*' => readRepetition draft cursor 0 none
  | '+' => readRepetition draft cursor 1 none
  | '{' =>
    match draft.repeatItem? 0 none with
    | none => cursor.faultHere .operandMissing
    | some _ => do
      let (counts, after) ← readCounts cursor
      return ((draft.repeatItem? counts.1 counts.2).getD draft, after)
  | '.' =>
    .ok (draft.push (some (.one
      (if draft.flags.dotAll then .compl .none else .compl (.single '\n')))), cursor.skip 1)
  | '^' =>
    .ok (draft.pushAtom (.place (if draft.flags.multiLine then .lineStart else .textStart)),
      cursor.skip 1)
  | '$' =>
    .ok (draft.pushAtom (.place (if draft.flags.multiLine then .lineEnd else .textEnd)),
      cursor.skip 1)
  | '\\' => do
    let (atom, after) ← readEscape cursor.column (cursor.skip 1)
    return (draft.pushAtom atom, after)
  | _ => .ok (draft.pushAtom (.character c), cursor.skip 1)

/-- Reads the rest of a pattern. Each item takes at least one character,
so the length of what is left is fuel enough. -/
def readItems (fuel : Nat) (draft : Draft) (cursor : Cursor) : Except PatternFault Draft :=
  match fuel, cursor.rest with
  | fuel + 1, c :: _ => do
    let (next, after) ← readItem draft cursor c
    readItems fuel next after
  | _, _ => .ok draft

/-- Reads a written pattern. -/
def Pattern.read (text : String) : Except PatternFault Pattern := do
  let draft ← readItems text.toList.length {} ⟨0, text.toList⟩
  match draft.around with
  | [] => return draft.group.pattern
  | _ =>
    .error { kind := .groupUnclosed, first := draft.group.first,
             last := draft.group.first + 1 }

end PacketLayout.Text
