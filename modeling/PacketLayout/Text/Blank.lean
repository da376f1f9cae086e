/-
PacketLayout.Text.Blank — white space, and what trimming leaves.

White space is the Unicode property `White_Space`, twenty-five code
points in ten ranges. Trimming takes white space off both ends of a
text and nothing from its inside.

* `trim_eq_nil_iff`: a text trims to nothing exactly when it is blank
  throughout.
* `trim_trim`: trimming twice is trimming once.
* `trim_of_ends`: a text whose two ends are not blank is its own trim.
-/
namespace PacketLayout.Text

/-! ## The class -/

/-- The ranges of the Unicode property `White_Space`, each with its
first and last code point. -/
def blankRanges : List (Nat × Nat) :=
  [(0x0009, 0x000D), (0x0020, 0x0020), (0x0085, 0x0085), (0x00A0, 0x00A0),
   (0x1680, 0x1680), (0x2000, 0x200A), (0x2028, 0x2029), (0x202F, 0x202F),
   (0x205F, 0x205F), (0x3000, 0x3000)]

/-- A character with the Unicode property `White_Space`. -/
def isBlank (c : Char) : Bool :=
  blankRanges.any fun range => range.1 ≤ c.toNat && c.toNat ≤ range.2

/-- The two blanks that may stand inside a line between its words. -/
def isSpace (c : Char) : Bool :=
  c == ' ' || c == '\t'

/-! ## Trimming -/

def trimLeft (text : List Char) : List Char :=
  text.dropWhile isBlank

def trimRight (text : List Char) : List Char :=
  (text.reverse.dropWhile isBlank).reverse

def trim (text : List Char) : List Char :=
  trimRight (trimLeft text)

/-- Trimming on strings. -/
def trimmed (text : String) : String :=
  String.ofList (trim text.toList)

theorem trimLeft_eq_nil_iff {text : List Char} :
    trimLeft text = [] ↔ text.all isBlank = true := by
  induction text with
  | nil => simp [trimLeft]
  | cons c rest ih =>
    simp only [trimLeft] at ih ⊢
    by_cases h : isBlank c = true
    · simp [h, ih]
    · simp [h]

theorem trimLeft_of_head {text : List Char}
    (h : ∀ c ∈ text.head?, isBlank c = false) : trimLeft text = text := by
  cases text with
  | nil => rfl
  | cons c rest =>
    have hc : isBlank c = false := h c (by simp)
    simp [trimLeft, hc]

theorem trimRight_of_last {text : List Char}
    (h : ∀ c ∈ text.getLast?, isBlank c = false) : trimRight text = text := by
  have hr : trimLeft text.reverse = text.reverse :=
    trimLeft_of_head (by simpa using h)
  simpa [trimRight, trimLeft] using congrArg List.reverse hr

/-- A text whose two ends are not blank is its own trim. -/
theorem trim_of_ends {text : List Char}
    (head : ∀ c ∈ text.head?, isBlank c = false)
    (last : ∀ c ∈ text.getLast?, isBlank c = false) : trim text = text := by
  rw [trim, trimLeft_of_head head, trimRight_of_last last]

theorem head_trimLeft {text : List Char} :
    ∀ c ∈ (trimLeft text).head?, isBlank c = false := by
  induction text with
  | nil => simp [trimLeft]
  | cons c rest ih =>
    simp only [trimLeft] at ih ⊢
    by_cases h : isBlank c = true
    · simpa [List.dropWhile_cons, h] using ih
    · intro d hd
      simp only [List.dropWhile_cons, h] at hd
      have hdc : c = d := by simpa using hd
      subst hdc
      simpa using h

theorem getLast_trimRight {text : List Char} :
    ∀ c ∈ (trimRight text).getLast?, isBlank c = false := by
  have h := @head_trimLeft text.reverse
  simpa [trimRight, trimLeft] using h

/-- Trimming on the right keeps the start of what it does not empty. -/
theorem trimRight_append_blank {text : List Char} :
    ∃ blanks, text = trimRight text ++ blanks ∧ blanks.all isBlank = true := by
  refine ⟨(text.reverse.takeWhile isBlank).reverse, ?_, ?_⟩
  · rw [trimRight, ← List.reverse_append, List.takeWhile_append_dropWhile,
      List.reverse_reverse]
  · rw [List.all_reverse, List.all_takeWhile]

theorem head_trim {text : List Char} :
    ∀ c ∈ (trim text).head?, isBlank c = false := by
  intro c hc
  obtain ⟨blanks, split, _⟩ := @trimRight_append_blank (trimLeft text)
  refine @head_trimLeft text c ?_
  rw [split]
  cases ht : trimRight (trimLeft text) with
  | nil => simp [trim, ht] at hc
  | cons d rest => simpa [trim, ht] using hc

theorem getLast_trim {text : List Char} :
    ∀ c ∈ (trim text).getLast?, isBlank c = false :=
  getLast_trimRight

/-- Trimming twice is trimming once. -/
theorem trim_trim (text : List Char) : trim (trim text) = trim text :=
  trim_of_ends head_trim getLast_trim

/-- A text trims to nothing exactly when it is blank throughout. -/
theorem trim_eq_nil_iff {text : List Char} :
    trim text = [] ↔ text.all isBlank = true := by
  rw [← trimLeft_eq_nil_iff]
  constructor
  · intro h
    obtain ⟨blanks, split, all⟩ := @trimRight_append_blank (trimLeft text)
    rw [show trimRight (trimLeft text) = [] from h, List.nil_append] at split
    cases hl : trimLeft text with
    | nil => rfl
    | cons c rest =>
      have hc := @head_trimLeft text c (by simp [hl])
      rw [← split, hl] at all
      simp [hc] at all
  · intro h
    simp [trim, h, trimRight]

/-- Trimming takes off nothing but white space. -/
theorem mem_trim {text : List Char} {c : Char} (dark : isBlank c = false) (mem : c ∈ text) :
    c ∈ trim text := by
  have left : ∀ {text : List Char}, c ∈ text → c ∈ trimLeft text := by
    intro text mem
    rw [← List.takeWhile_append_dropWhile (p := isBlank) (l := text), List.mem_append] at mem
    rcases mem with blank | kept
    · have all := List.all_eq_true.mp (List.all_takeWhile (p := isBlank) (l := text)) c blank
      rw [dark] at all
      cases all
    · exact kept
  exact List.mem_reverse.mpr (left (List.mem_reverse.mpr (left mem)))

end PacketLayout.Text
