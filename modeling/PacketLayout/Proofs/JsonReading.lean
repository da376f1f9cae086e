/-
PacketLayout.Proofs.JsonReading — a reader of JSON texts, and what it makes
of the two layouts.

The reader works in two passes, and knows nothing of how a text came
about. The first goes through the text one character at a time and takes
it apart into words: signs, texts and numbers. White space stands between
words and may be left out. A text may hold any escape there is, also one
for each half of a surrogate pair, and a number has no digit in front of
it that does not count. The second pass goes through the words and keeps
the lists and records that are still open on a stack. What it makes keeps
all members of a record, in order and with repeated names.

`true`, `false`, `null`, fractions and exponents are refused; no value
here is written with them.

* `Json.lexFrom_quoted`, `Json.lexFrom_number`: a text and a number are
  read as the one word they are.
* `Json.lexFrom_compactChars`, `Json.lexFrom_indentedChars`: both layouts
  of a value have the same words.
* `Json.runWords_words`: the words of a value are read as the value.
* `Json.read?_render`: a written value is read back.
-/
import Mathlib.Tactic.SplitIfs
import PacketLayout.Json

namespace PacketLayout

namespace Json

/-! ## Words -/

/-- The smallest parts of a JSON text. -/
inductive Word where
  | openList
  | closeList
  | openRecord
  | closeRecord
  | comma
  | colon
  | text (value : String)
  | number (value : Int)
  deriving DecidableEq

/-- The words that are one sign. -/
def sign? : Char → Option Word
  | '[' => some .openList
  | ']' => some .closeList
  | '\x7b' => some .openRecord
  | '\x7d' => some .closeRecord
  | ',' => some .comma
  | ':' => some .colon
  | _ => none

/-- White space between words. -/
def isSpace (c : Char) : Bool :=
  c == ' ' || c == '\t' || c == '\n' || c == '\r'

/-- The number that digits write behind a sign, if they write one. -/
def numberOf? (negative : Bool) (digits : List Char) : Option Int :=
  if digits = [] ∨ (digits.head? = some '0' ∧ digits ≠ ['0']) then none
  else
    let size : Int := Nat.ofDigitChars 10 digits 0
    some (if negative then -size else size)

/-- The character that is escaped by a single one. -/
def unescape? : Char → Option Char
  | '"' => some '"'
  | '\\' => some '\\'
  | '/' => some '/'
  | 'b' => some '\x08'
  | 't' => some '\t'
  | 'n' => some '\n'
  | 'f' => some '\x0c'
  | 'r' => some '\r'
  | _ => none

/-- The value of a hexadecimal digit, in either case. -/
def hexValue? (c : Char) : Option Nat :=
  if c.isDigit then some (c.toNat - '0'.toNat)
  else if 'a' ≤ c ∧ c ≤ 'f' then some (c.toNat - 'a'.toNat + 10)
  else if 'A' ≤ c ∧ c ≤ 'F' then some (c.toNat - 'A'.toNat + 10)
  else none

/-- Where in a JSON text the reader stands. What it has read of a text or
of a number is kept with the last character first. -/
inductive Mode where
  | between
  | number (negative : Bool) (digits : List Char)
  | text (read : List Char)
  /-- Behind a backslash. -/
  | escape (read : List Char)
  /-- In the digits of a code unit, with so many to come after the next;
  `high` is the first half of a pair, if this is to be the second. -/
  | unit (read : List Char) (high : Option Nat) (left value : Nat)
  /-- Behind the first half of a pair: these characters come next, and then
  the digits of the second half. -/
  | pair (read : List Char) (high : Nat) (awaited : List Char)

namespace Mode

/-- Goes on from between two words. -/
def start (c : Char) : Option (Mode × List Word) :=
  if isSpace c then some (.between, [])
  else if c = '"' then some (.text [], [])
  else if c = '-' then some (.number true [], [])
  else if c.isDigit then some (.number false [c], [])
  else (sign? c).map fun word => (.between, [word])

/-- Goes on behind a whole code unit. -/
def afterUnit (read : List Char) (high : Option Nat) (unit : Nat) : Option Mode :=
  match high with
  | some first =>
    if 0xdc00 ≤ unit ∧ unit < 0xe000 then
      some (.text (Char.ofNat (0x10000 + (first - 0xd800) * 0x400 + (unit - 0xdc00)) :: read))
    else none
  | none =>
    if 0xd800 ≤ unit ∧ unit < 0xdc00 then some (.pair read unit ['\\', 'u'])
    else if 0xdc00 ≤ unit ∧ unit < 0xe000 then none
    else some (.text (Char.ofNat unit :: read))

/-- Reads one more character: where the reader stands behind it, and the
words that have come to their end. -/
def step : Mode → Char → Option (Mode × List Word)
  | .between, c => start c
  | .number negative digits, c =>
    if c.isDigit then some (.number negative (c :: digits), [])
    else do
      let value ← numberOf? negative digits.reverse
      let (next, words) ← start c
      pure (next, .number value :: words)
  | .text read, c =>
    if c = '"' then some (.between, [.text (String.ofList read.reverse)])
    else if c = '\\' then some (.escape read, [])
    else if c.toNat < 0x20 then none
    else some (.text (c :: read), [])
  | .escape read, c =>
    if c = 'u' then some (.unit read none 3 0, [])
    else (unescape? c).map fun meant => (.text (meant :: read), [])
  | .unit read high left value, c => do
    let digit ← hexValue? c
    match left with
    | 0 => (afterUnit read high (16 * value + digit)).map fun next => (next, [])
    | more + 1 => some (.unit read high more (16 * value + digit), [])
  | .pair read high awaited, c =>
    match awaited with
    | [] => none
    | first :: rest =>
      if c ≠ first then none
      else if rest = [] then some (.unit read (some high) 3 0, [])
      else some (.pair read high rest, [])

/-- The words that the end of the text brings to their end. -/
def finish : Mode → Option (List Word)
  | .between => some []
  | .number negative digits =>
    (numberOf? negative digits.reverse).map fun value => [.number value]
  | _ => none

end Mode

/-- The words of a text, from a place in it on. -/
def lexFrom : Mode → List Char → Option (List Word)
  | mode, [] => mode.finish
  | mode, c :: rest => do
    let (next, words) ← mode.step c
    (lexFrom next rest).map (words ++ ·)

/-! ## Values from words -/

/-- A list or a record that is still open, with what has been read of it,
last first. In a record the value of a member is to come. -/
inductive Frame where
  | list (items : List Json)
  | record (members : List (String × Json)) (name : String)

/-- How far a value has been read; `outer` is what is open around it. -/
inductive Reading where
  | beforeValue (outer : List Frame)
  | afterOpenList (outer : List Frame)
  | afterOpenRecord (outer : List Frame)
  /-- One more member comes next. -/
  | beforeName (outer : List Frame) (members : List (String × Json))
  | beforeColon (outer : List Frame) (members : List (String × Json)) (name : String)
  | afterValue (outer : List Frame) (value : Json)

namespace Reading

/-- Reads the first word of a value. -/
def begin? (outer : List Frame) : Word → Option Reading
  | .text value => some (.afterValue outer (.text value))
  | .number value => some (.afterValue outer (.number value))
  | .openList => some (.afterOpenList outer)
  | .openRecord => some (.afterOpenRecord outer)
  | _ => none

/-- Reads one more word. -/
def step : Reading → Word → Option Reading
  | .beforeValue outer, word => begin? outer word
  | .afterOpenList outer, .closeList => some (.afterValue outer (.list []))
  | .afterOpenList outer, word => begin? (.list [] :: outer) word
  | .afterOpenRecord outer, .closeRecord => some (.afterValue outer (.record []))
  | .afterOpenRecord outer, .text name => some (.beforeColon outer [] name)
  | .beforeName outer members, .text name => some (.beforeColon outer members name)
  | .beforeColon outer members name, .colon =>
    some (.beforeValue (.record members name :: outer))
  | .afterValue (.list items :: outer) value, .comma =>
    some (.beforeValue (.list (value :: items) :: outer))
  | .afterValue (.list items :: outer) value, .closeList =>
    some (.afterValue outer (.list (value :: items).reverse))
  | .afterValue (.record members name :: outer) value, .comma =>
    some (.beforeName outer ((name, value) :: members))
  | .afterValue (.record members name :: outer) value, .closeRecord =>
    some (.afterValue outer (.record ((name, value) :: members).reverse))
  | _, _ => none

/-- The value, if all of it has been read. -/
def finish : Reading → Option Json
  | .afterValue [] value => some value
  | _ => none

end Reading

/-- Goes on with reading. -/
def runWords (words : List Word) (reading : Reading) : Option Reading :=
  words.foldlM Reading.step reading

/-- The value that a text writes. -/
def read? (text : String) : Option Json := do
  let words ← lexFrom .between text.toList
  let reading ← runWords words (.beforeValue [])
  reading.finish

/-! ## Reading words -/

section Words

variable {c : Char} {rest : List Char} {word : Word} {words : List Word} {mode next : Mode}

theorem lexFrom_cons (h : mode.step c = some (next, words)) :
    lexFrom mode (c :: rest) = (lexFrom next rest).map (words ++ ·) := by
  rw [lexFrom, h]
  rfl

/-- A character that ends no word. -/
theorem lexFrom_cons_nil (h : mode.step c = some (next, [])) :
    lexFrom mode (c :: rest) = lexFrom next rest := by
  rw [lexFrom_cons h]
  simp

theorem lexFrom_space (space : isSpace c = true) :
    lexFrom .between (c :: rest) = lexFrom .between rest :=
  lexFrom_cons_nil (by simp [Mode.step, Mode.start, space])

theorem lexFrom_spaces {spaces : List Char} (space : ∀ c ∈ spaces, isSpace c = true) :
    lexFrom .between (spaces ++ rest) = lexFrom .between rest := by
  induction spaces with
  | nil => rfl
  | cons c spaces ih =>
    rw [List.cons_append, lexFrom_space (space c (by simp)),
      ih fun c mem => space c (by simp [mem])]

theorem lexFrom_newLine (depth : Nat) :
    lexFrom .between (newLine depth ++ rest) = lexFrom .between rest := by
  refine lexFrom_spaces fun c mem => ?_
  rcases List.mem_cons.mp mem with rfl | mem
  · rfl
  · rw [List.eq_of_mem_replicate mem]
    rfl

/-- No sign is taken for anything else. -/
theorem step_sign (sign : sign? c = some word) :
    Mode.step .between c = some (.between, [word]) := by
  unfold sign? at sign
  split at sign <;> cases sign <;> rfl

theorem lexFrom_sign (sign : sign? c = some word) :
    lexFrom .between (c :: rest) = (lexFrom .between rest).map (word :: ·) :=
  lexFrom_cons (step_sign sign)

/-! ### Texts -/

/-- How a character is written: by a letter, by its code, or as it is. -/
theorem escape_cases (c : Char) :
    (∃ letter, unescape? letter = some c ∧ escape c = ['\\', letter]) ∨
    (c.toNat < 0x20 ∧
      escape c = ['\\', 'u', '0', '0', hexDigit (c.toNat / 16), hexDigit (c.toNat % 16)]) ∨
    (c ≠ '"' ∧ c ≠ '\\' ∧ ¬ c.toNat < 0x20 ∧ escape c = [c]) := by
  unfold escape
  split_ifs with quote backslash backspace tab newline feed back control
  · exact .inl ⟨'"', by rw [quote]; rfl, rfl⟩
  · exact .inl ⟨'\\', by rw [backslash]; rfl, rfl⟩
  · exact .inl ⟨'b', by rw [backspace]; rfl, rfl⟩
  · exact .inl ⟨'t', by rw [tab]; rfl, rfl⟩
  · exact .inl ⟨'n', by rw [newline]; rfl, rfl⟩
  · exact .inl ⟨'f', by rw [feed]; rfl, rfl⟩
  · exact .inl ⟨'r', by rw [back]; rfl, rfl⟩
  · exact .inr (.inl ⟨control, rfl⟩)
  · exact .inr (.inr ⟨quote, backslash, control, rfl⟩)

theorem lexFrom_backslash (read : List Char) :
    lexFrom (.text read) ('\\' :: rest) = lexFrom (.escape read) rest :=
  lexFrom_cons_nil rfl

theorem lexFrom_letter {letter : Char} (meant : unescape? letter = some c) (read : List Char) :
    lexFrom (.text read) ('\\' :: letter :: rest) = lexFrom (.text (c :: read)) rest := by
  have other : letter ≠ 'u' := by
    rintro rfl
    cases meant
  rw [lexFrom_backslash]
  exact lexFrom_cons_nil (by rw [Mode.step, if_neg other, meant]; rfl)

theorem hexValue?_hexDigit : ∀ value < 16, hexValue? (hexDigit value) = some value := by
  decide

theorem lexFrom_unit {left value digit : Nat} {read : List Char} {high : Option Nat}
    (small : digit < 16) :
    lexFrom (.unit read high (left + 1) value) (hexDigit digit :: rest)
      = lexFrom (.unit read high left (16 * value + digit)) rest :=
  lexFrom_cons_nil (by rw [Mode.step, hexValue?_hexDigit digit small]; rfl)

/-- A character below the space is read from its code. -/
theorem lexFrom_code (control : c.toNat < 0x20) (read : List Char) :
    lexFrom (.text read) ('\\' :: 'u' :: '0' :: '0' :: hexDigit (c.toNat / 16)
        :: hexDigit (c.toNat % 16) :: rest) = lexFrom (.text (c :: read)) rest := by
  have first : c.toNat / 16 < 16 := by omega
  have second : c.toNat % 16 < 16 := by omega
  have whole : Mode.afterUnit read none c.toNat = some (.text (c :: read)) := by
    rw [Mode.afterUnit, if_neg (by omega), if_neg (by omega), Char.ofNat_toNat]
  have opened : Mode.step (.escape read) 'u' = some (.unit read none 3 0, []) := rfl
  rw [lexFrom_backslash, lexFrom_cons_nil opened]
  change lexFrom (.unit read none (2 + 1) 0) (hexDigit 0 :: hexDigit 0 :: _) = _
  rw [lexFrom_unit (by omega), lexFrom_unit (by omega), lexFrom_unit first]
  refine lexFrom_cons_nil ?_
  rw [Mode.step, hexValue?_hexDigit _ second]
  simp only [Option.bind_eq_bind, Option.bind_some, Nat.mul_zero, Nat.add_zero, Nat.zero_add,
    Nat.div_add_mod, whole, Option.map_some]

/-- What stands for a character is read as the character. -/
theorem lexFrom_escape (c : Char) (read rest : List Char) :
    lexFrom (.text read) (escape c ++ rest) = lexFrom (.text (c :: read)) rest := by
  rcases escape_cases c with ⟨letter, meant, written⟩ | ⟨control, written⟩
    | ⟨quote, backslash, control, written⟩
  · rw [written]
    exact lexFrom_letter meant read
  · rw [written]
    exact lexFrom_code control read
  · rw [written]
    refine lexFrom_cons_nil ?_
    rw [Mode.step, if_neg quote, if_neg backslash, if_neg control]

theorem lexFrom_escapes (text read rest : List Char) :
    lexFrom (.text read) (text.flatMap escape ++ rest)
      = lexFrom (.text (text.reverse ++ read)) rest := by
  induction text generalizing read with
  | nil => rfl
  | cons c text ih =>
    rw [List.flatMap_cons, List.append_assoc, lexFrom_escape, ih, List.reverse_cons,
      List.append_assoc, List.singleton_append]

/-- A text in quotation marks is one word, whatever stands in it. -/
theorem lexFrom_quoted (text : String) (rest : List Char) :
    lexFrom .between (quoted text ++ rest) = (lexFrom .between rest).map (.text text :: ·) := by
  have opened : lexFrom .between (quoted text ++ rest)
      = lexFrom (.text []) (text.toList.flatMap escape ++ '"' :: rest) := by
    rw [quoted, List.cons_append, List.append_assoc]
    exact lexFrom_cons_nil rfl
  have closed : Mode.step (.text text.toList.reverse) '"' = some (.between, [.text text]) := by
    rw [Mode.step, if_pos rfl, List.reverse_reverse, String.ofList_toList]
  rw [opened, lexFrom_escapes, List.append_nil, lexFrom_cons closed]
  rfl

/-! ### Numbers -/

/-- No digit comes next. -/
def Stops (rest : List Char) : Prop :=
  ∀ c ∈ rest.head?, c.isDigit = false

theorem lexFrom_digits {negative : Bool} {read digits : List Char}
    (digit : ∀ c ∈ digits, c.isDigit = true) :
    lexFrom (.number negative read) (digits ++ rest)
      = lexFrom (.number negative (digits.reverse ++ read)) rest := by
  induction digits generalizing read with
  | nil => rfl
  | cons c digits ih =>
    have one : Mode.step (.number negative read) c = some (.number negative (c :: read), []) := by
      rw [Mode.step, if_pos (digit c (by simp))]
    rw [List.cons_append, lexFrom_cons_nil one, ih fun c mem => digit c (by simp [mem]),
      List.reverse_cons, List.append_assoc, List.singleton_append]

/-- A number ends where no digit comes next. -/
theorem lexFrom_stop {negative : Bool} {digits : List Char} {value : Int}
    (number : numberOf? negative digits.reverse = some value) (stops : Stops rest) :
    lexFrom (.number negative digits) rest = (lexFrom .between rest).map (.number value :: ·) := by
  cases rest with
  | nil => simp [lexFrom, Mode.finish, number]
  | cons c rest =>
    have other : c.isDigit = false := stops c rfl
    cases started : Mode.step .between c with
    | none =>
      have starts : Mode.start c = none := started
      simp [lexFrom, Mode.step, other, number, starts]
    | some pair =>
      obtain ⟨next, words⟩ := pair
      have one : Mode.step (.number negative digits) c = some (next, .number value :: words) := by
        have starts : Mode.start c = some (next, words) := started
        simp [Mode.step, other, number, starts]
      rw [lexFrom_cons one, lexFrom_cons started, Option.map_map]
      rfl

/-- Only the number zero has a zero for its first digit. -/
theorem head?_toDigits {value : Nat} (zero : (Nat.toDigits 10 value).head? = some '0') :
    value = 0 := by
  induction value using Nat.strongRecOn with
  | _ value ih =>
    rw [Nat.toDigits_eq_if (by omega)] at zero
    split at zero
    · rename_i small
      have digits : ∀ digit < 10, Nat.digitChar digit = '0' → digit = 0 := by decide
      exact digits value small (by simpa using zero)
    · rename_i large
      have front : (Nat.toDigits 10 (value / 10)).head? = some '0' := by
        obtain ⟨first, more, split⟩ :=
          List.exists_cons_of_ne_nil (Nat.toDigits_ne_nil (n := value / 10) (b := 10))
        simpa [split] using zero
      have lower := ih (value / 10) (by omega) front
      omega

theorem numberOf?_toDigits (negative : Bool) (value : Nat) :
    numberOf? negative (Nat.toDigits 10 value)
      = some (if negative then -(value : Int) else value) := by
  have leading : ¬ (Nat.toDigits 10 value = [] ∨
      ((Nat.toDigits 10 value).head? = some '0' ∧ Nat.toDigits 10 value ≠ ['0'])) := by
    rintro (empty | ⟨zero, more⟩)
    · exact Nat.toDigits_ne_nil empty
    · rw [head?_toDigits zero] at more
      exact more rfl
  rw [numberOf?, if_neg leading, Nat.ofDigitChars_toDigits (by omega) (by omega)]

theorem digit_of_mem_toDigits {value : Nat} (mem : c ∈ Nat.toDigits 10 value) :
    c.isDigit = true :=
  Nat.isDigit_of_mem_toDigits (by omega) (by omega) mem

/-- Digits in front of a stop are a number. -/
theorem lexFrom_toDigits (negative : Bool) (value : Nat) (stops : Stops rest) :
    lexFrom (.number negative []) (Nat.toDigits 10 value ++ rest)
      = (lexFrom .between rest).map
          (.number (if negative then -(value : Int) else value) :: ·) := by
  rw [lexFrom_digits fun c => digit_of_mem_toDigits, List.append_nil]
  exact lexFrom_stop (by rw [List.reverse_reverse, numberOf?_toDigits]) stops

/-- The first digit opens a number. -/
theorem lexFrom_digit (digit : c.isDigit = true) :
    lexFrom .between (c :: rest) = lexFrom (.number false []) (c :: rest) := by
  have unlike (other : Char) (no : other.isDigit = false) : c ≠ other := by
    rintro rfl
    rw [digit] at no
    cases no
  have opened : Mode.step .between c = some (.number false [c], []) := by
    simp [Mode.step, Mode.start, isSpace, digit, unlike ' ' rfl, unlike '\t' rfl,
      unlike '\n' rfl, unlike '\r' rfl, unlike '"' rfl, unlike '-' rfl]
  rw [lexFrom_cons_nil opened]
  exact (lexFrom_cons_nil (by rw [Mode.step, if_pos digit])).symm

/-- A number is one word. -/
theorem lexFrom_number (value : Int) (stops : Stops rest) :
    lexFrom .between ((toString value).toList ++ rest)
      = (lexFrom .between rest).map (.number value :: ·) := by
  cases value with
  | ofNat size =>
    have written : (toString (Int.ofNat size)).toList = Nat.toDigits 10 size := Nat.toList_repr
    obtain ⟨first, more, split⟩ :=
      List.exists_cons_of_ne_nil (Nat.toDigits_ne_nil (n := size) (b := 10))
    have there : first ∈ Nat.toDigits 10 size := by
      rw [split]
      simp
    have digit := digit_of_mem_toDigits there
    have numeral := lexFrom_toDigits false size stops
    rw [split, List.cons_append] at numeral
    rw [written, split, List.cons_append, lexFrom_digit digit, numeral]
    rfl
  | negSucc size =>
    have written : (toString (Int.negSucc size)).toList = '-' :: Nat.toDigits 10 (size + 1) := by
      change ("-" ++ (size + 1).repr).toList = _
      rw [String.toList_append, Nat.toList_repr]
      rfl
    have minus : Mode.step .between '-' = some (.number true [], []) := rfl
    rw [written, List.cons_append, lexFrom_cons_nil minus]
    exact lexFrom_toDigits true (size + 1) stops

end Words

/-! ## The words of a value -/

mutual

/-- A value as words. -/
def words : Json → List Word
  | .number value => [.number value]
  | .text value => [.text value]
  | .list items => .openList :: (itemWords items ++ [.closeList])
  | .record members => .openRecord :: (memberWords members ++ [.closeRecord])

/-- Items with commas between them. -/
def itemWords : List Json → List Word
  | [] => []
  | [item] => words item
  | item :: next :: rest => words item ++ .comma :: itemWords (next :: rest)

/-- Members with commas between them. -/
def memberWords : List (String × Json) → List Word
  | [] => []
  | [(name, value)] => .text name :: .colon :: words value
  | (name, value) :: next :: rest =>
    .text name :: .colon :: (words value ++ .comma :: memberWords (next :: rest))

end

section Layouts

variable {rest : List Char} {later : List Word}

theorem stops_of_sign {c : Char} {word : Word} (sign : sign? c = some word) :
    Stops (c :: rest) := by
  intro d mem
  obtain rfl : c = d := by simpa using mem
  unfold sign? at sign
  split at sign <;> cases sign <;> rfl

theorem stops_newLine (depth : Nat) : Stops (newLine depth ++ rest) := by
  intro c mem
  obtain rfl : '\n' = c := by simpa [newLine] using mem
  rfl

/-- A sign in front of words. -/
theorem sign_front {c : Char} {word : Word} (sign : sign? c = some word)
    (behind : lexFrom .between rest = some later) :
    lexFrom .between (c :: rest) = some (word :: later) := by
  rw [lexFrom_sign sign, behind]
  rfl

theorem quoted_front (text : String) (behind : lexFrom .between rest = some later) :
    lexFrom .between (quoted text ++ rest) = some (.text text :: later) := by
  rw [lexFrom_quoted, behind]
  rfl

theorem number_front (value : Int) (stops : Stops rest)
    (behind : lexFrom .between rest = some later) :
    lexFrom .between ((toString value).toList ++ rest) = some (.number value :: later) := by
  rw [lexFrom_number value stops, behind]
  rfl

theorem newLine_front (depth : Nat) (behind : lexFrom .between rest = some later) :
    lexFrom .between (newLine depth ++ rest) = some later := by
  rw [lexFrom_newLine, behind]

/-- What stands between the name of a member and its value in the indented
layout. -/
theorem colon_front (behind : lexFrom .between rest = some later) :
    lexFrom .between (':' :: ' ' :: rest) = some (.colon :: later) :=
  sign_front rfl (by rw [lexFrom_space rfl, behind])

mutual

/-- The compact layout of a value, in front of words. -/
theorem lexFrom_compactChars (value : Json) {rest : List Char} {later : List Word}
    (stops : Stops rest) (behind : lexFrom .between rest = some later) :
    lexFrom .between (compactChars value ++ rest) = some (words value ++ later) := by
  match value with
  | .number value => exact number_front value stops behind
  | .text value => exact quoted_front value behind
  | .list items =>
    simp only [compactChars, words, List.cons_append, List.append_assoc]
    exact sign_front rfl (lexFrom_compactItems items (stops_of_sign rfl) (sign_front rfl behind))
  | .record members =>
    simp only [compactChars, words, List.cons_append, List.append_assoc]
    exact sign_front rfl
      (lexFrom_compactMembers members (stops_of_sign rfl) (sign_front rfl behind))

theorem lexFrom_compactItems (items : List Json) {rest : List Char} {later : List Word}
    (stops : Stops rest) (behind : lexFrom .between rest = some later) :
    lexFrom .between (compactItems items ++ rest) = some (itemWords items ++ later) := by
  match items with
  | [] => exact behind
  | [item] => exact lexFrom_compactChars item stops behind
  | item :: next :: more =>
    simp only [compactItems, itemWords, List.cons_append, List.append_assoc]
    exact lexFrom_compactChars item (stops_of_sign rfl)
      (sign_front rfl (lexFrom_compactItems (next :: more) stops behind))

theorem lexFrom_compactMembers (members : List (String × Json)) {rest : List Char}
    {later : List Word} (stops : Stops rest) (behind : lexFrom .between rest = some later) :
    lexFrom .between (compactMembers members ++ rest) = some (memberWords members ++ later) := by
  match members with
  | [] => exact behind
  | [(name, value)] =>
    simp only [compactMembers, memberWords, List.cons_append, List.append_assoc]
    exact quoted_front name (sign_front rfl (lexFrom_compactChars value stops behind))
  | (name, value) :: next :: more =>
    simp only [compactMembers, memberWords, List.cons_append, List.append_assoc]
    exact quoted_front name (sign_front rfl (lexFrom_compactChars value (stops_of_sign rfl)
      (sign_front rfl (lexFrom_compactMembers (next :: more) stops behind))))

end

mutual

/-- The indented layout of a value, in front of words. -/
theorem lexFrom_indentedChars (depth : Nat) (value : Json) {rest : List Char} {later : List Word}
    (stops : Stops rest) (behind : lexFrom .between rest = some later) :
    lexFrom .between (indentedChars depth value ++ rest) = some (words value ++ later) := by
  match value with
  | .number value => exact number_front value stops behind
  | .text value => exact quoted_front value behind
  | .list [] => exact sign_front rfl (sign_front rfl behind)
  | .list (item :: items) =>
    simp only [indentedChars, words, List.cons_append, List.append_assoc]
    exact sign_front rfl (lexFrom_indentedItems (depth + 1) (item :: items) (stops_newLine depth)
      (newLine_front depth (sign_front rfl behind)))
  | .record [] => exact sign_front rfl (sign_front rfl behind)
  | .record (member :: members) =>
    simp only [indentedChars, words, List.cons_append, List.append_assoc]
    exact sign_front rfl (lexFrom_indentedMembers (depth + 1) (member :: members)
      (stops_newLine depth) (newLine_front depth (sign_front rfl behind)))

theorem lexFrom_indentedItems (depth : Nat) (items : List Json) {rest : List Char}
    {later : List Word} (stops : Stops rest) (behind : lexFrom .between rest = some later) :
    lexFrom .between (indentedItems depth items ++ rest) = some (itemWords items ++ later) := by
  match items with
  | [] => exact behind
  | [item] =>
    simp only [indentedItems, itemWords, List.append_assoc]
    exact newLine_front depth (lexFrom_indentedChars depth item stops behind)
  | item :: next :: more =>
    simp only [indentedItems, itemWords, List.cons_append, List.append_assoc]
    exact newLine_front depth (lexFrom_indentedChars depth item (stops_of_sign rfl)
      (sign_front rfl (lexFrom_indentedItems depth (next :: more) stops behind)))

theorem lexFrom_indentedMembers (depth : Nat) (members : List (String × Json)) {rest : List Char}
    {later : List Word} (stops : Stops rest) (behind : lexFrom .between rest = some later) :
    lexFrom .between (indentedMembers depth members ++ rest)
      = some (memberWords members ++ later) := by
  match members with
  | [] => exact behind
  | [(name, value)] =>
    simp only [indentedMembers, memberWords, List.cons_append, List.append_assoc]
    exact newLine_front depth
      (quoted_front name (colon_front (lexFrom_indentedChars depth value stops behind)))
  | (name, value) :: next :: more =>
    simp only [indentedMembers, memberWords, List.cons_append, List.append_assoc]
    exact newLine_front depth (quoted_front name (colon_front
      (lexFrom_indentedChars depth value (stops_of_sign rfl)
        (sign_front rfl (lexFrom_indentedMembers depth (next :: more) stops behind)))))

end

/-- Both layouts of a value have the same words. -/
theorem lexFrom_render (layout : Layout) (value : Json) :
    lexFrom .between (value.render layout).toList = some (words value) := by
  have nothing : Stops [] := by simp [Stops]
  have empty : lexFrom .between [] = some [] := rfl
  cases layout with
  | compact =>
    have read := lexFrom_compactChars value nothing empty
    rwa [List.append_nil, List.append_nil, ← String.toList_ofList (l := compactChars value)]
      at read
  | indented =>
    have read := lexFrom_indentedChars 0 value nothing empty
    rwa [List.append_nil, List.append_nil, ← String.toList_ofList (l := indentedChars 0 value)]
      at read

end Layouts

/-! ## Reading a value -/

section Values

theorem runWords_cons {word : Word} {words : List Word} {reading next : Reading}
    (h : reading.step word = some next) :
    runWords (word :: words) reading = runWords words next := by
  rw [runWords, List.foldlM_cons, h]
  rfl

/-- The first item of a list is read like any other. -/
theorem runWords_afterOpenList (item : Json) (items : List Json) (outer : List Frame)
    (rest : List Word) :
    runWords (itemWords (item :: items) ++ rest) (.afterOpenList outer)
      = runWords (itemWords (item :: items) ++ rest) (.beforeValue (.list [] :: outer)) := by
  cases items <;> cases item <;> rfl

/-- The name of the first member is read like any other. -/
theorem runWords_afterOpenRecord (member : String × Json) (members : List (String × Json))
    (outer : List Frame) (rest : List Word) :
    runWords (memberWords (member :: members) ++ rest) (.afterOpenRecord outer)
      = runWords (memberWords (member :: members) ++ rest) (.beforeName outer []) := by
  cases members <;> rfl

mutual

/-- The words of a value are read as the value. -/
theorem runWords_words (value : Json) (outer : List Frame) (rest : List Word) :
    runWords (words value ++ rest) (.beforeValue outer)
      = runWords rest (.afterValue outer value) := by
  match value with
  | .number value => exact runWords_cons rfl
  | .text value => exact runWords_cons rfl
  | .list [] => exact (runWords_cons rfl).trans (runWords_cons rfl)
  | .list (item :: items) =>
    simp only [words, List.cons_append, List.append_assoc]
    rw [runWords_cons rfl, runWords_afterOpenList, List.nil_append,
      runWords_itemWords (item :: items) (by simp)]
    rfl
  | .record [] => exact (runWords_cons rfl).trans (runWords_cons rfl)
  | .record (member :: members) =>
    simp only [words, List.cons_append, List.append_assoc]
    rw [runWords_cons rfl, runWords_afterOpenRecord, List.nil_append,
      runWords_memberWords (member :: members) (by simp)]
    rfl

/-- The last items of a list, behind those that have been read. -/
theorem runWords_itemWords (items : List Json) (full : items ≠ []) (read : List Json)
    (outer : List Frame) (rest : List Word) :
    runWords (itemWords items ++ .closeList :: rest) (.beforeValue (.list read :: outer))
      = runWords rest (.afterValue outer (.list (read.reverse ++ items))) := by
  match items with
  | [] => exact absurd rfl full
  | [item] =>
    simp only [itemWords]
    rw [runWords_words, runWords_cons rfl, List.reverse_cons]
  | item :: next :: more =>
    simp only [itemWords, List.append_assoc, List.cons_append]
    rw [runWords_words, runWords_cons rfl, runWords_itemWords (next :: more) (by simp),
      List.reverse_cons, List.append_assoc, List.singleton_append]

/-- The last members of a record, behind those that have been read. -/
theorem runWords_memberWords (members : List (String × Json)) (full : members ≠ [])
    (read : List (String × Json)) (outer : List Frame) (rest : List Word) :
    runWords (memberWords members ++ .closeRecord :: rest) (.beforeName outer read)
      = runWords rest (.afterValue outer (.record (read.reverse ++ members))) := by
  match members with
  | [] => exact absurd rfl full
  | [(name, value)] =>
    simp only [memberWords, List.cons_append]
    rw [runWords_cons rfl, runWords_cons rfl, runWords_words, runWords_cons rfl,
      List.reverse_cons]
  | (name, value) :: next :: more =>
    simp only [memberWords, List.append_assoc, List.cons_append]
    rw [runWords_cons rfl, runWords_cons rfl, runWords_words, runWords_cons rfl,
      runWords_memberWords (next :: more) (by simp), List.reverse_cons, List.append_assoc,
      List.singleton_append]

end

/-- A value is read back from its text, in either layout. -/
theorem read?_render (layout : Layout) (value : Json) :
    read? (value.render layout) = some value := by
  have run := runWords_words value [] []
  rw [List.append_nil] at run
  simp only [read?, lexFrom_render, Option.bind_eq_bind, Option.bind_some, run]
  rfl

end Values

end Json

end PacketLayout
