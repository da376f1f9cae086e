/-
PacketLayout.Text.Scan — taking a line of text apart.

Lines are read as `List Char`, by small readers that each answer one
question: does the text start with this word, what are the pieces
between the separators, what stands before the comment. Each has an
ordinary recursion, so what a reader says about a text is proved by
induction on the text.

* `after?_eq_some_iff`, `startsWith_iff`: the text after a word is found
  exactly when the text is that word followed by it.
* `not_mem_pieces`: no piece holds the separator.
* `splitOn_eq_pieces`: the pieces are those that the list is split into.
* `bracketed?_eq_some_iff`: a text splits at its first closing bracket.
-/
namespace PacketLayout.Text

/-! ## Words at the start -/

/-- What follows the characters `word` at the start of a text. -/
def afterChars? : List Char → List Char → Option (List Char)
  | [], text => some text
  | _ :: _, [] => none
  | w :: word, c :: text => if w = c then afterChars? word text else none

/-- What follows `word` at the start of a text. -/
def after? (word : String) (text : List Char) : Option (List Char) :=
  afterChars? word.toList text

/-- The text starts with `word`. -/
def startsWith (word : String) (text : List Char) : Bool :=
  (after? word text).isSome

theorem afterChars?_eq_some_iff {word text rest : List Char} :
    afterChars? word text = some rest ↔ text = word ++ rest := by
  induction word generalizing text with
  | nil => simp [afterChars?]
  | cons w word ih =>
    cases text with
    | nil => simp [afterChars?]
    | cons c text =>
      by_cases h : w = c
      · simp [afterChars?, h, ih]
      · simp [afterChars?, h, Ne.symm h]

/-- The text after a word is found exactly when the text is that word
followed by it. -/
theorem after?_eq_some_iff {word : String} {text rest : List Char} :
    after? word text = some rest ↔ text = word.toList ++ rest :=
  afterChars?_eq_some_iff

theorem after?_append (word : String) (rest : List Char) :
    after? word (word.toList ++ rest) = some rest :=
  after?_eq_some_iff.mpr rfl

theorem after?_eq_none_iff {word : String} {text : List Char} :
    after? word text = none ↔ ¬ word.toList <+: text := by
  constructor
  · rintro missing ⟨rest, rfl⟩
    rw [after?_append] at missing
    cases missing
  · intro other
    cases found : after? word text with
    | none => rfl
    | some rest => exact absurd ⟨rest, (after?_eq_some_iff.mp found).symm⟩ other

theorem startsWith_iff {word : String} {text : List Char} :
    startsWith word text = true ↔ word.toList <+: text := by
  constructor
  · intro starts
    obtain ⟨rest, found⟩ := Option.isSome_iff_exists.mp starts
    exact ⟨rest, (after?_eq_some_iff.mp found).symm⟩
  · rintro ⟨rest, rfl⟩
    rw [startsWith, after?_append]
    rfl

/-! ## Separators -/

/-- The pieces of a text between the occurrences of `separator`: the
first one, and those after each occurrence. A text without the separator
is one piece. -/
def pieces (separator : Char) : List Char → List Char × List (List Char)
  | [] => ([], [])
  | c :: rest =>
    let later := pieces separator rest
    if c = separator then ([], later.1 :: later.2) else (c :: later.1, later.2)

/-- The text whose pieces are given. -/
def joinPieces (separator : Char) (first : List Char) (rest : List (List Char)) :
    List Char :=
  first ++ rest.flatMap (separator :: ·)

/-- No piece holds the separator. -/
theorem not_mem_pieces (separator : Char) (text : List Char) :
    separator ∉ (pieces separator text).1
      ∧ ∀ piece ∈ (pieces separator text).2, separator ∉ piece := by
  induction text with
  | nil => simp [pieces]
  | cons c rest ih =>
    by_cases h : c = separator
    · simpa [pieces, h] using ih
    · simpa [pieces, h, Ne.symm h] using ih

/-- A text without the separator is one piece. -/
theorem pieces_of_not_mem {separator : Char} {text : List Char} (free : separator ∉ text) :
    pieces separator text = (text, []) := by
  induction text with
  | nil => rfl
  | cons c rest ih =>
    obtain ⟨different, later⟩ := List.ne_and_not_mem_of_not_mem_cons free
    simp [pieces, different.symm, ih later]

/-- The first piece of a text ends at the first separator. -/
theorem pieces_append {separator : Char} {text : List Char} (free : separator ∉ text)
    (rest : List Char) :
    pieces separator (text ++ separator :: rest)
      = (text, (pieces separator rest).1 :: (pieces separator rest).2) := by
  induction text with
  | nil => simp [pieces]
  | cons c more ih =>
    obtain ⟨different, later⟩ := List.ne_and_not_mem_of_not_mem_cons free
    simp [pieces, different.symm, ih later]

/-- A text has a second piece exactly when it holds the separator. -/
theorem pieces_snd_eq_nil_iff {separator : Char} {text : List Char} :
    (pieces separator text).2 = [] ↔ separator ∉ text := by
  induction text with
  | nil => simp [pieces]
  | cons c rest ih =>
    by_cases h : c = separator
    · simp [pieces, h]
    · simp [pieces, h, Ne.symm h, ih]

/-- The pieces of a text are those that the list is split into. -/
theorem splitOn_eq_pieces (separator : Char) (text : List Char) :
    text.splitOn separator = (pieces separator text).1 :: (pieces separator text).2 := by
  induction text with
  | nil => rfl
  | cons c rest ih =>
    rw [List.splitOn_cons_eq_if_modifyHead, ih]
    by_cases h : c = separator
    · simp [pieces, h]
    · simp [pieces, h]

/-- There is one piece more than separators. -/
theorem length_splitOn (separator : Char) (text : List Char) :
    (text.splitOn separator).length = text.count separator + 1 := by
  induction text with
  | nil => rfl
  | cons c rest ih =>
    rw [List.splitOn_cons_eq_if_modifyHead, List.count_cons]
    split
    · rw [List.length_cons, ih]
    · rw [List.length_modifyHead, ih]

/-! ## Brackets -/

/-- What stands before the first closing bracket of a text, and what
stands after it. -/
def bracketed? (text : List Char) : Option (List Char × List Char) :=
  match text.dropWhile (· != ']') with
  | [] => none
  | _ :: rest => some (text.takeWhile (· != ']'), rest)

/-- Scanning for a character passes a text without it. -/
theorem bne_of_not_mem {stop : Char} {text : List Char} (free : stop ∉ text) :
    ∀ c ∈ text, (c != stop) = true := by
  intro c mem
  have other : c ≠ stop := fun same => free (same ▸ mem)
  simpa using other

theorem bracketed?_append {inside : List Char} (rest : List Char) (h : ']' ∉ inside) :
    bracketed? (inside ++ ']' :: rest) = some (inside, rest) := by
  simp only [bracketed?, List.dropWhile_append_of_pos (bne_of_not_mem h),
    List.takeWhile_append_of_pos (bne_of_not_mem h)]
  simp

/-- A text splits at its first closing bracket and nowhere else. -/
theorem bracketed?_eq_some_iff {text inside rest : List Char} :
    bracketed? text = some (inside, rest) ↔
      text = inside ++ ']' :: rest ∧ ']' ∉ inside := by
  constructor
  · intro h
    unfold bracketed? at h
    split at h
    · simp at h
    · rename_i c after drop
      have hc : c = ']' := by
        have hd := List.head?_dropWhile_not (· != ']') text
        rw [drop] at hd
        simpa using hd
      subst hc
      obtain ⟨rfl, rfl⟩ : text.takeWhile (· != ']') = inside ∧ after = rest := by
        simpa using h
      refine ⟨?_, ?_⟩
      · rw [← drop, List.takeWhile_append_dropWhile]
      · intro mem
        have all := List.all_takeWhile (p := (· != ']')) (l := text)
        rw [List.all_eq_true] at all
        simpa using all _ mem
  · rintro ⟨rfl, h⟩
    exact bracketed?_append rest h

/-! ## Comments -/

/-- What stands before the first `//` of a text: all of it, if there is
none. -/
def beforeComment : List Char → List Char
  | '/' :: '/' :: _ => []
  | c :: rest => c :: beforeComment rest
  | [] => []

end PacketLayout.Text
