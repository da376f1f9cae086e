/-
PacketLayout.Proofs.Units — which texts are units.

There are eight forms of units: seven fixed words, and literal bytes. They
can be tried one after the other at the front of a text. The first one that
the text starts with settles what its front is, and no other is tried if it
leaves a rest, although forms start alike: `64$4` starts with a byte, and
four words start with `$`. No unit is lost by that. A text that starts with
a fixed word is that word or no unit, for every fixed word has a character
that is no hexadecimal digit; and bytes are taken to the last one.

* `Token.read?_eq_some_iff`: what is read is the text of a unit that can be
  written.
* `Token.front?_of_read?`, `Token.read?_of_form`: the first form that fits
  takes the whole text, and so does any other.
* `Token.read?_exactly`: the whole reader.
-/
import PacketLayout.Text.Scan
import PacketLayout.Token

namespace PacketLayout

namespace Text

variable {text : List Char}

theorem isHexDigit_iff {c : Char} : isHexDigit c = true ↔
    ('0' ≤ c ∧ c ≤ '9') ∨ ('a' ≤ c ∧ c ≤ 'f') ∨ ('A' ≤ c ∧ c ≤ 'F') := by
  simp only [isHexDigit, Char.isDigit, Bool.or_eq_true, Bool.and_eq_true, decide_eq_true_eq,
    or_assoc]
  rfl

/-- As many bytes as a text starts with, and what follows them. -/
def leadingBytes : List Char → List Char × List Char
  | high :: low :: rest =>
    if isHexDigit high && isHexDigit low then
      (high :: low :: (leadingBytes rest).1, (leadingBytes rest).2)
    else ([], high :: low :: rest)
  | text => ([], text)

theorem leadingBytes_append (text : List Char) :
    (leadingBytes text).1 ++ (leadingBytes text).2 = text := by
  fun_induction leadingBytes text with
  | case1 high low rest hex ih => simp [ih]
  | case2 high low rest other => rfl
  | case3 text short => rfl

theorem isHexBytes_leadingBytes (some : (leadingBytes text).1 ≠ []) :
    isHexBytes (leadingBytes text).1 = true := by
  fun_induction leadingBytes text with
  | case1 high low rest hex ih =>
    rw [Bool.and_eq_true] at hex
    cases later : (leadingBytes rest).1 with
    | nil => simp [isHexBytes, hex]
    | cons c more =>
      have bytes := isHexBytes_iff.mp (ih (by simp [later]))
      rw [later] at bytes
      refine isHexBytes_iff.mpr ⟨by simp, ?_, ?_⟩
      · have even := bytes.2.1
        simp only [List.length_cons] at even ⊢
        omega
      · simpa [hex] using bytes.2.2
  | case2 high low rest other => exact absurd rfl some
  | case3 text short => exact absurd rfl some

/-- Bytes are taken as far as they go. -/
theorem leadingBytes_of_isHexBytes {rest : List Char} (bytes : isHexBytes text = true)
    (ended : ∀ c ∈ rest.head?, isHexDigit c = false) :
    leadingBytes (text ++ rest) = (text, rest) := by
  obtain ⟨-, even, digits⟩ := isHexBytes_iff.mp bytes
  clear bytes
  fun_induction leadingBytes text with
  | case1 high low more hex ih =>
    have shorter : more.length % 2 = 0 := by
      simp only [List.length_cons] at even
      omega
    have later := ih shorter fun c mem => digits c (by simp [mem])
    simp only [List.cons_append, leadingBytes, hex, later, if_true]
  | case2 high low more other => exact absurd (by simp [digits]) other
  | case3 text short =>
    match text, even with
    | high :: low :: more, _ => exact absurd rfl (short high low more)
    | [], _ =>
      match rest with
      | [] => rfl
      | [c] => rfl
      | c :: d :: rest =>
        have other : isHexDigit c = false := ended c (by simp)
        simp [leadingBytes, other]

end Text

open Text

namespace Token

variable {text rest : List Char} {token : Token}

/-! ## What is read -/

/-- Literal bytes read as such: none of the fixed words could be bytes. -/
theorem read?_hexBytes (bytes : isHexBytes text = true) :
    read? text = some (.hex (String.ofList text)) := by
  have other : words.find? (fun word => word.render.toList == text) = none := by
    rw [List.find?_eq_none]
    intro word mem same
    have none : ∀ word ∈ words, isHexBytes word.render.toList = false := by decide +kernel
    rw [← eq_of_beq same, none word mem] at bytes
    cases bytes
  rw [read?, other]
  simp [bytes]

/-- A fixed word reads as its unit: no two units have the same word. -/
theorem read?_render_of_mem_words (listed : token ∈ words) :
    read? token.render.toList = some token := by
  have all : ∀ word ∈ words, read? word.render.toList = some word := by decide +kernel
  exact all token listed

/-- The units that can be written in a layout line. -/
inductive Writable : Token → Prop
  | composite (value : Composite) : Writable (.composite value)
  | size {bytes : Nat} (listed : bytes ∈ [1, 2, 4]) : Writable (.size bytes)
  | hex {digits : String} (bytes : isHexBytes digits.toList = true) : Writable (.hex digits)

theorem writable_of_mem_words (listed : token ∈ words) : token.Writable := by
  simp only [words, List.mem_cons, List.not_mem_nil, or_false] at listed
  rcases listed with rfl | rfl | rfl | rfl | rfl | rfl | rfl
  · exact .composite _
  · exact .composite _
  · exact .composite _
  · exact .composite _
  · exact .size (by simp)
  · exact .size (by simp)
  · exact .size (by simp)

/-- Values of every kind and the three sizes are the fixed words. -/
theorem Writable.cases (writable : token.Writable) :
    token ∈ words ∨ ∃ digits : String, isHexBytes digits.toList = true ∧ token = .hex digits := by
  cases writable with
  | composite value => cases value <;> exact .inl (by decide)
  | size listed =>
    simp only [List.mem_cons, List.not_mem_nil, or_false] at listed
    rcases listed with rfl | rfl | rfl <;> exact .inl (by decide)
  | hex bytes => exact .inr ⟨_, bytes, rfl⟩

theorem Writable.read? (writable : token.Writable) : read? token.render.toList = some token := by
  rcases writable.cases with listed | ⟨digits, bytes, rfl⟩
  · exact read?_render_of_mem_words listed
  · rw [render, read?_hexBytes bytes, String.ofList_toList]

/-- A text is read as the unit whose text it is, if that can be written. -/
theorem read?_eq_some_iff :
    Token.read? text = some token ↔ token.Writable ∧ token.render.toList = text := by
  constructor
  · intro found
    refine ⟨?_, render_of_read? found⟩
    rcases read?_cases found with ⟨listed, -⟩ | ⟨bytes, rfl⟩
    · exact writable_of_mem_words listed
    · exact .hex (by simpa using bytes)
  · rintro ⟨writable, rfl⟩
    exact writable.read?

theorem Writable.isEmpty_eq (writable : token.Writable) : token.isEmpty = false := by
  cases writable with
  | composite value => rfl
  | size listed => rfl
  | hex bytes => simpa [isEmpty] using (isHexBytes_iff.mp bytes).1

/-! ## Form by form -/

/-- A form of units: the unit at the front of a text, if the text starts
with one, and what follows it. -/
abbrev Form := List Char → Option (Token × List Char)

/-- A fixed word. -/
def Form.word (word : Token) : Form := fun text =>
  (after? word.render text).map fun rest => (word, rest)

/-- Literal bytes, as many as there are. -/
def Form.bytes : Form := fun text =>
  if (leadingBytes text).1 = [] then none
  else some (.hex (String.ofList (leadingBytes text).1), (leadingBytes text).2)

/-- The forms, in the order in which they are tried. -/
def forms : List Form :=
  words.map Form.word ++ [Form.bytes]

/-- The unit at the front of a text, in the first form that the text starts
with, and what follows it. -/
def front? : Form := fun text =>
  forms.findSome? fun form => form text

theorem Form.word_eq_some_iff {word : Token} :
    Form.word word text = some (token, rest) ↔
      token = word ∧ text = word.render.toList ++ rest := by
  simp only [Form.word, Option.map_eq_some_iff, after?_eq_some_iff, Prod.mk.injEq]
  constructor
  · rintro ⟨_, split, rfl, rfl⟩
    exact ⟨rfl, split⟩
  · rintro ⟨rfl, split⟩
    exact ⟨rest, split, rfl, rfl⟩

/-- A form that takes the whole text reads what the text is read as. -/
theorem read?_of_form {form : Form} (listed : form ∈ forms)
    (whole : form text = some (token, [])) : read? text = some token := by
  rcases List.mem_append.mp listed with fixed | last
  · obtain ⟨word, known, rfl⟩ := List.mem_map.mp fixed
    obtain ⟨rfl, split⟩ := Form.word_eq_some_iff.mp whole
    rw [split, List.append_nil]
    exact read?_render_of_mem_words known
  · obtain rfl := List.mem_singleton.mp last
    unfold Form.bytes at whole
    split at whole
    · cases whole
    · rename_i some
      have split := leadingBytes_append text
      simp only [Option.some.injEq, Prod.mk.injEq] at whole
      rw [whole.2, List.append_nil] at split
      rw [← whole.1, split]
      exact read?_hexBytes (split ▸ isHexBytes_leadingBytes some)

/-- Every fixed word has a character that is no hexadecimal digit, so no
text that starts with one is all bytes. -/
theorem word_eq_none_of_bytes {word : Token} (listed : word ∈ words)
    (bytes : isHexBytes text = true) : Form.word word text = none := by
  have other : ∀ word ∈ words, word.render.toList.all isHexDigit = false := by
    decide +kernel
  rw [Form.word, Option.map_eq_none_iff, after?_eq_none_iff]
  rintro ⟨rest, rfl⟩
  have digits := (isHexBytes_iff.mp bytes).2.2
  have all : word.render.toList.all isHexDigit = true :=
    List.all_eq_true.mpr fun c mem => digits c (List.mem_append_left _ mem)
  rw [other word listed] at all
  cases all

/-- The first form that fits a unit takes all of it. -/
theorem front?_of_read? (found : read? text = some token) : front? text = some (token, []) := by
  obtain ⟨writable, rfl⟩ := read?_eq_some_iff.mp found
  rcases writable.cases with listed | ⟨digits, bytes, rfl⟩
  · have fixed : ∀ word ∈ words, front? word.render.toList = some (word, []) := by
      decide +kernel
    exact fixed token listed
  · have unfit : (words.map Form.word).findSome? (fun form => form digits.toList) = none := by
      rw [List.findSome?_eq_none_iff]
      intro form mem
      obtain ⟨word, listed, rfl⟩ := List.mem_map.mp mem
      exact word_eq_none_of_bytes listed bytes
    have written : digits.toList ≠ [] := (isHexBytes_iff.mp bytes).1
    have all : leadingBytes digits.toList = (digits.toList, []) := by
      simpa using @leadingBytes_of_isHexBytes digits.toList [] bytes (by simp)
    rw [front?, forms, List.findSome?_append, render, unfit, Option.none_or]
    simp [Form.bytes, all, written]

/-! ## The whole reader -/

/-- The texts of units are seven words, and the even numbers of hexadecimal
digits in any case.

To try the forms of units in their order, and to fail if the first one that
fits leaves a rest, reads them all and reads nothing else: each form by
itself would read the same where it takes the whole text. What is read has
a text, which is the one that was read; so different texts are read as
different units, and the units that can be read are the ones whose texts
are read as them. -/
theorem read?_exactly :
    (∀ text : List Char, (∃ token, read? text = some token) ↔
      text ∈ ["64$4", "73$4$gbk", "$gbk", "param", "$1", "$2", "$4"].map String.toList ∨
        (text ≠ [] ∧ text.length % 2 = 0 ∧ ∀ c ∈ text,
          ('0' ≤ c ∧ c ≤ '9') ∨ ('a' ≤ c ∧ c ≤ 'f') ∨ ('A' ≤ c ∧ c ≤ 'F'))) ∧
    (∀ text token, read? text = some token ↔ front? text = some (token, [])) ∧
    (∀ text token, read? text = some token ↔
      ∃ form ∈ forms, form text = some (token, [])) ∧
    (∀ text token, read? text = some token →
      token.render.toList = text ∧ token.isEmpty = false) ∧
    (∀ text text' token, read? text = some token → read? text' = some token → text = text') ∧
    ∀ token, (∃ text, read? text = some token) ↔
      token.Writable ∧ read? token.render.toList = some token := by
  have of_front : ∀ {text token}, front? text = some (token, []) →
      ∃ form ∈ forms, form text = some (token, []) := fun first =>
    List.exists_of_findSome?_eq_some first
  refine ⟨fun text => ?_, fun text token => ⟨front?_of_read?, fun first => ?_⟩,
    fun text token => ⟨fun found => of_front (front?_of_read? found), ?_⟩,
    fun text token found => ?_, fun text text' token found found' => ?_, fun token => ?_⟩
  · have listed : ["64$4", "73$4$gbk", "$gbk", "param", "$1", "$2", "$4"].map String.toList
        = words.map fun word => word.render.toList := by decide +kernel
    simp only [← isHexDigit_iff, ← isHexBytes_iff, listed, List.mem_map]
    constructor
    · rintro ⟨token, found⟩
      obtain ⟨writable, rfl⟩ := read?_eq_some_iff.mp found
      rcases writable.cases with known | ⟨digits, bytes, rfl⟩
      · exact .inl ⟨token, known, rfl⟩
      · exact .inr bytes
    · rintro (⟨word, known, rfl⟩ | bytes)
      · exact ⟨word, read?_render_of_mem_words known⟩
      · exact ⟨_, read?_hexBytes bytes⟩
  · obtain ⟨form, listed, whole⟩ := of_front first
    exact read?_of_form listed whole
  · rintro ⟨form, listed, whole⟩
    exact read?_of_form listed whole
  · obtain ⟨writable, written⟩ := read?_eq_some_iff.mp found
    exact ⟨written, writable.isEmpty_eq⟩
  · rw [← render_of_read? found, render_of_read? found']
  · constructor
    · rintro ⟨text, found⟩
      have writable := (read?_eq_some_iff.mp found).1
      exact ⟨writable, writable.read?⟩
    · rintro ⟨-, found⟩
      exact ⟨_, found⟩

/-- Bytes that start like a word; a word that starts like bytes; and a text
that starts with a word and goes on. -/
theorem read?_exactly_samples :
    read? "6473".toList = some (.hex "6473") ∧
    (Token.hex "6473").render.toList = "6473".toList ∧
    front? "73$4$gbk".toList = some (.composite .lengthPrefixedGbk, []) ∧
    read? "73$4$gbk".toList = some (.composite .lengthPrefixedGbk) ∧
    front? "64$44".toList = some (.composite .int64Pair, "4".toList) ∧
    read? "64$44".toList ≠ some (.composite .int64Pair) := by
  obtain ⟨-, first, -, rendered, -⟩ := read?_exactly
  have bytes : read? "6473".toList = some (.hex "6473") := by decide +kernel
  have word : front? "73$4$gbk".toList = some (.composite .lengthPrefixedGbk, []) := by
    decide +kernel
  have longer : front? "64$44".toList = some (.composite .int64Pair, "4".toList) := by
    decide +kernel
  refine ⟨bytes, (rendered _ _ bytes).1, word, (first _ _).mpr word, longer, ?_⟩
  rw [ne_eq, first, longer]
  decide

end Token

end PacketLayout
