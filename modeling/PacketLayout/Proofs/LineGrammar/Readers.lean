/-
PacketLayout.Proofs.LineGrammar.Readers — the readers of lines find what the
grammar finds.

A reader of lines looks for words, closing brackets and blanks by itself.
Here each reader is compared with the rule for its lines: it reads a text
exactly if the rule takes the text as a whole, and it reads what the parts
say. The choices of the grammar are ordered and its repetitions greedy, and
neither matters: what the first form that fits leaves is the end of the line
or no other form fits.

* `ControlLine.read?_eq_grammar`, `readFragmentHeader?_eq_grammar`,
  `readPacketHeader?_eq_grammar`, `BranchHeader.parts?_eq_grammar`,
  `Qualifier.read?_eq_grammar`: reader by reader.
* `readPacketBytes?_eq_some_iff`: bytes end where the blanks begin.
-/
import PacketLayout.Proofs.LineGrammar.Brackets
import PacketLayout.Proofs.Units

namespace PacketLayout

open Text

variable {text rest : List Char}

/-! ## Signs and blanks -/

namespace LineRule

open Rule

theorem front?_spaces (text : List Char) :
    spaces.front? text = some ([], text.dropWhile isSpace) :=
  front?_many_one isSpace text

/-- A form that blanks may follow to the end of the text. -/
theorem whole?_both_spaces (rule : LineRule) (text : List Char) :
    (both rule spaces).whole? text
      = (rule.front? text).bind fun found => if endsLine found.2 then some found.1 else none :=
  whole?_both_many_one rule isSpace text

/-- A sign, and blanks behind it. -/
theorem front?_signed (sign : String) (rule : LineRule) (text : List Char) :
    (all [word sign, spaces, rule]).front? text = (afterSign? sign text).bind rule.front? := by
  rw [front?_all_cons, front?_word, afterSign?]
  cases after? sign text with
  | none => rfl
  | some rest =>
    simp only [Option.map_some, Option.bind_some, front?_all_cons, front?_spaces, List.nil_append]
    cases rule.front? (rest.dropWhile isSpace) with
    | none => rfl
    | some found => simp

theorem front?_optional_signed (sign : String) (text : List Char) :
    (optional (all [word sign, spaces])).front? text
      = some ([], (afterSign? sign text).getD text) := by
  rw [front?_optional, front?_all_cons, front?_word, afterSign?]
  cases after? sign text with
  | none => rfl
  | some rest => simp [front?_all_cons, front?_spaces]

end LineRule

/-! ## The bracket of a fragment -/

namespace LineRule

open Rule

/-- The name in front of a text in the bracket of a fragment, and what
follows the bracket. -/
def leadingName? (text : List Char) : Option (List Char × List Char) :=
  ((after? "Fragment[" text).bind bracketed?).filter fun found => isFragmentName found.1

theorem front?_fragmentBracket (text : List Char) :
    fragmentBracket.front? text
      = (leadingName? text).map fun found => ([(.name, found.1)], found.2) := by
  rw [fragmentBracket, front?_all_cons, front?_word, leadingName?]
  cases after? "Fragment[" text with
  | none => rfl
  | some inside =>
    simp only [Option.map_some, Option.bind_some, List.nil_append, fills_named.front?,
      Rule.front?_all_nil]
    cases (bracketed? inside).filter fun found => isFragmentName found.1 with
    | none => rfl
    | some found => rfl

theorem readFragmentName?_eq (text : List Char) :
    readFragmentName? text = (leadingName? text).bind fun found =>
      if endsLine found.2 then some (String.ofList found.1) else none := by
  unfold readFragmentName? leadingName?
  cases (after? "Fragment[" text).bind bracketed? with
  | none => rfl
  | some found =>
    rw [Option.filter_some]
    cases name : isFragmentName found.1 with
    | false => simp [name]
    | true => simp [name]

end LineRule

/-! ## Control lines -/

theorem isLastWord_eq (word : String) (text : List Char) :
    isLastWord word text = (after? word text).any endsLine := by
  unfold isLastWord
  cases after? word text with
  | none => rfl
  | some rest => rfl

/-- What starts with a sign or a bracket starts with nothing else. -/
theorem after?_of_plus (signed : after? "+" text = some rest) :
    afterSign? "-" text = none ∧ after? "pack" text = none := by
  rw [after?_eq_some_iff.mp signed]
  simp [afterSign?, after?, afterChars?]

theorem after?_of_minus (signed : after? "-" text = some rest) : after? "pack" text = none := by
  rw [after?_eq_some_iff.mp signed]
  simp [after?, afterChars?]

theorem after?_of_placeholder (word : after? "SubCate" text = some rest) :
    after? "REP" text = none := by
  rw [after?_eq_some_iff.mp word]
  simp [after?, afterChars?]

theorem LineRule.after?_of_leadingName? {found : List Char × List Char}
    (name : leadingName? text = some found) :
    after? "SubCate" text = none ∧ after? "REP" text = none := by
  obtain ⟨inside, -⟩ := Option.filter_eq_some_iff.mp name
  obtain ⟨behind, word, -⟩ := Option.bind_eq_some_iff.mp inside
  rw [after?_eq_some_iff.mp word]
  simp [after?, afterChars?]

/-- Of the forms of control lines, the first one that fits the start of a
text is the only one. -/
theorem ControlLine.read?_eq_grammar (text : List Char) :
    ControlLine.read? text = (LineRule.controlLine.whole? text).bind ControlLine.ofFound? := by
  rw [LineRule.controlLine, LineRule.whole?_both_spaces, LineRule.control]
  simp only [Rule.front?_firstOf_cons, Rule.front?_firstOf_nil, Rule.front?_part,
    LineRule.front?_signed, Rule.front?_word]
  unfold ControlLine.read?
  simp only [LineRule.readFragmentName?_eq, isLastWord_eq]
  cases plus : afterSign? "+" text with
  | some rest =>
    obtain ⟨behind, signed, -⟩ := Option.map_eq_some_iff.mp plus
    obtain ⟨minus, word⟩ := after?_of_plus signed
    simp only [minus, word, Option.bind_some, Option.bind_none, Option.map_none, Option.or_none,
      LineRule.front?_fragmentBracket, Rule.front?_word]
    cases name : LineRule.leadingName? rest with
    | some found =>
      obtain ⟨mark, start⟩ := LineRule.after?_of_leadingName? name
      cases ends : endsLine found.2 <;> simp [mark, start, ends, ofFound?]
    | none =>
      cases mark : after? "SubCate" rest with
      | some tail =>
        have start := after?_of_placeholder mark
        cases ends : endsLine tail <;> simp [start, ends, ofFound?]
      | none =>
        cases start : after? "REP" rest with
        | some tail => cases ends : endsLine tail <;> simp [ends, ofFound?]
        | none => rfl
  | none =>
    cases minus : afterSign? "-" text with
    | some rest =>
      obtain ⟨behind, signed, -⟩ := Option.map_eq_some_iff.mp minus
      have word := after?_of_minus signed
      simp only [word, Option.bind_some, Option.bind_none, Option.map_none, Option.or_none,
        Option.none_or, Rule.front?_word]
      cases finish : after? "REP" rest with
      | some tail => cases ends : endsLine tail <;> simp [ends, ofFound?]
      | none => rfl
    | none =>
      cases word : after? "pack" text with
      | some tail => cases ends : endsLine tail <;> simp [ends, ofFound?]
      | none => rfl

/-! ## Headers of fragments -/

theorem readFragmentHeader?_eq_grammar (text : List Char) :
    readFragmentHeader? text
      = (LineRule.fragmentHeader.whole? text).bind fragmentOfFound? := by
  rw [LineRule.fragmentHeader, LineRule.whole?_both_spaces, Rule.front?_all_cons,
    LineRule.front?_optional_signed, readFragmentHeader?, LineRule.readFragmentName?_eq]
  simp only [Option.bind_some, Rule.front?_all_cons, LineRule.front?_fragmentBracket]
  cases LineRule.leadingName? ((afterSign? "+" text).getD text) with
  | none => rfl
  | some found => cases ends : endsLine found.2 <;> simp [ends, fragmentOfFound?]

/-! ## Headers of packets -/

theorem after?_two (first second : String) (text : List Char) :
    after? (first ++ second) text = (after? first text).bind (after? second) := by
  apply Option.ext
  intro rest
  simp only [Option.bind_eq_some_iff, after?_eq_some_iff, String.toList_append]
  constructor
  · rintro rfl
    exact ⟨second.toList ++ rest, List.append_assoc .., rfl⟩
  · rintro ⟨_, rfl, rfl⟩
    exact (List.append_assoc ..).symm

namespace LineRule

/-- A word and what must follow it, as two words. -/
theorem front?_two_words (first second : String) (rules : List LineRule) (text : List Char) :
    (Rule.all (Rule.word (first ++ second) :: rules)).front? text
      = (Rule.all (Rule.word first :: Rule.word second :: rules)).front? text := by
  simp only [Rule.front?_all_cons, Rule.front?_word, after?_two]
  cases after? first text with
  | none => rfl
  | some rest =>
    simp only [Option.map_some, Option.bind_some]
    cases after? second rest with
    | none => rfl
    | some more =>
      simp only [Option.map_some, Option.bind_some]
      cases (Rule.all rules).front? more with
      | none => rfl
      | some found => rfl

/-- Bytes are found as far as they go. -/
theorem greedy_bytes (times : Nat) (enough : text.length ≤ times) :
    Rule.greedy (Rule.all [Rule.one isHexDigit, Rule.one isHexDigit] : LineRule).front? times text
      = ([], (leadingBytes text).2) := by
  induction times generalizing text with
  | zero =>
    obtain rfl : text = [] := List.length_eq_zero_iff.mp (by omega)
    rfl
  | succ times ih =>
    match text, enough with
    | [], _ => rfl
    | [c], _ =>
      cases digit : isHexDigit c <;>
        simp [Rule.greedy, Rule.front?_all_cons, Rule.front?_one_cons, leadingBytes, digit]
    | high :: low :: rest, enough =>
      have shorter : rest.length ≤ times := by
        simp only [List.length_cons] at enough
        omega
      cases first : isHexDigit high <;> cases second : isHexDigit low <;>
        simp [Rule.greedy, Rule.front?_all_cons, Rule.front?_one_cons, leadingBytes, first, second,
          ih shorter]

theorem front?_hexBytes (text : List Char) :
    hexBytes.front? text
      = if (leadingBytes text).1 = [] then none else some ([], (leadingBytes text).2) := by
  rw [hexBytes, Rule.several, Rule.front?_both]
  cases text with
  | nil => rfl
  | cons high more =>
    cases more with
    | nil =>
      cases digit : isHexDigit high <;>
        simp [Rule.front?_all_cons, Rule.front?_one_cons, leadingBytes, digit]
    | cons low rest =>
      cases first : isHexDigit high <;> cases second : isHexDigit low <;>
        simp [Rule.front?_all_cons, Rule.front?, leadingBytes, first, second,
          greedy_bytes rest.length]

theorem front?_bytes (label : LinePart) (text : List Char) :
    (Rule.part label hexBytes).front? text
      = if (leadingBytes text).1 = [] then none
        else some ([(label, (leadingBytes text).1)], (leadingBytes text).2) := by
  rw [Rule.front?_part, front?_hexBytes]
  split
  · rfl
  · rw [Option.map_some, Rule.take_of_split (leadingBytes_append text)]

end LineRule

theorem isSpace_of_isHexDigit {c : Char} (digit : isHexDigit c = true) : isSpace c = false := by
  cases blank : isSpace c with
  | false => rfl
  | true =>
    simp only [isSpace, Bool.or_eq_true, beq_iff_eq] at blank
    rcases blank with rfl | rfl
    · exact absurd digit (by decide)
    · exact absurd digit (by decide)

/-- Bytes end where the blanks begin. -/
theorem readPacketBytes?_eq_some_iff {header : String} :
    readPacketBytes? text = some header ↔
      ∃ bytes tail, text = bytes ++ tail ∧ isHexBytes bytes = true ∧ endsLine tail = true ∧
        header = upper (String.ofList bytes) := by
  constructor
  · intro found
    unfold readPacketBytes? at found
    dsimp only at found
    split at found
    · rename_i known
      rw [Bool.and_eq_true] at known
      cases found
      exact ⟨_, _, List.takeWhile_append_dropWhile.symm, known.1, known.2, rfl⟩
    · cases found
  · rintro ⟨bytes, tail, rfl, hex, ends, rfl⟩
    have digits : ∀ c ∈ bytes, (!isSpace c) = true := by
      intro c mem
      rw [isSpace_of_isHexDigit ((isHexBytes_iff.mp hex).2.2 c mem)]
      rfl
    rw [readPacketBytes?, List.takeWhile_append_of_pos digits,
      List.dropWhile_append_of_pos digits]
    cases tail with
    | nil => simp [hex, endsLine]
    | cons c more =>
      have blank : isSpace c = true := List.all_eq_true.mp ends c (by simp)
      simp [blank, hex, ends]

/-- Bytes, and blanks to the end. -/
theorem readPacketBytes?_eq (text : List Char) :
    readPacketBytes? text
      = if (leadingBytes text).1 = [] then none
        else if endsLine (leadingBytes text).2 then
          some (upper (String.ofList (leadingBytes text).1))
        else none := by
  have split := leadingBytes_append text
  apply Option.ext
  intro header
  rw [readPacketBytes?_eq_some_iff]
  constructor
  · rintro ⟨bytes, tail, rfl, hex, ends, rfl⟩
    have ended : ∀ c ∈ tail.head?, isHexDigit c = false := by
      intro c first
      have blank : isSpace c = true := List.all_eq_true.mp ends c (List.mem_of_mem_head? first)
      cases digit : isHexDigit c with
      | false => rfl
      | true =>
        rw [isSpace_of_isHexDigit digit] at blank
        cases blank
    rw [leadingBytes_of_isHexBytes hex ended, if_neg (isHexBytes_iff.mp hex).1, if_pos ends]
  · intro found
    split at found
    · cases found
    · rename_i written
      split at found
      · rename_i ends
        cases found
        exact ⟨_, _, split.symm, isHexBytes_leadingBytes written, ends, rfl⟩
      · cases found

/-- A bracket around a description that is not empty, and a colon. -/
theorem LineRule.front?_description (rules : List LineRule) (text : List Char) :
    (Rule.all (Rule.part .description (Rule.several enclosed) :: Rule.word "]:" :: rules)).front?
        text
      = ((bracketed? text).filter fun found => !found.1.isEmpty).bind fun found =>
          (after? ":" found.2).bind fun rest => ((Rule.all rules).front? rest).map fun more =>
            ((.description, found.1) :: more.1, more.2) := by
  have colon : "]:" = "]" ++ ":" := rfl
  have parted : (Rule.all (Rule.part .description (Rule.several enclosed)
        :: Rule.word "]:" :: rules)).front? text
      = (Rule.all (Rule.part .description (Rule.several enclosed)
        :: Rule.word "]" :: Rule.word ":" :: rules)).front? text := by
    rw [Rule.front?_all_cons, Rule.front?_all_cons]
    simp only [colon, front?_two_words]
  rw [parted, fills_enclosed.front?]
  cases (bracketed? text).filter fun found => !found.1.isEmpty with
  | none => rfl
  | some found =>
    simp only [Option.bind_some, Rule.front?_all_cons, Rule.front?_word]
    cases after? ":" found.2 with
    | none => rfl
    | some rest => simp

theorem readPacketHeader?_eq (text : List Char) :
    readPacketHeader? text
      = (((after? "Packet[" text).bind bracketed?).filter fun found => !found.1.isEmpty).bind
          fun found => (after? ":" found.2).bind fun rest =>
            (readPacketBytes? rest).map fun header => ⟨String.ofList found.1, header⟩ := by
  rw [readPacketHeader?]
  cases (after? "Packet[" text).bind bracketed? with
  | none => rfl
  | some found =>
    obtain ⟨description, behind⟩ := found
    rw [Option.filter_some]
    split
    · rename_i rest opened
      cases opened
      cases description.isEmpty with
      | true => simp
      | false => simp [after?, afterChars?]
    · rename_i other
      have unfit : after? ":" behind = none := by
        cases colon : after? ":" behind with
        | none => rfl
        | some rest =>
          rw [after?_eq_some_iff.mp colon] at other
          exact absurd rfl (other _ _)
      split
      · rw [Option.bind_some, unfit]
        rfl
      · rfl

theorem readPacketHeader?_eq_grammar (text : List Char) :
    readPacketHeader? text
      = (LineRule.packetHeader.whole? text).bind PacketHeader.ofFound? := by
  rw [LineRule.packetHeader, LineRule.whole?_both_spaces, Rule.front?_all_cons, Rule.front?_word,
    readPacketHeader?_eq]
  cases after? "Packet[" text with
  | none => rfl
  | some inside =>
    simp only [Option.map_some, Option.bind_some, LineRule.front?_description, List.nil_append]
    cases (bracketed? inside).filter fun found => !found.1.isEmpty with
    | none => rfl
    | some found =>
      simp only [Option.bind_some]
      cases after? ":" found.2 with
      | none => rfl
      | some rest =>
        simp only [Option.bind_some, Rule.front?_all_cons, LineRule.front?_bytes,
          readPacketBytes?_eq]
        split
        · rfl
        · cases ends : endsLine (leadingBytes rest).2 with
          | true => simp [ends, PacketHeader.ofFound?]
          | false => simp [ends]

/-! ## Headers of branches -/

namespace BranchHeader

open LineRule

/-- The parts of a bracket: up to the first colon, and behind it. -/
def innerParts (inside : List Char) : List Char × List Char :=
  (inside.takeWhile (· != ':'), (inside.dropWhile (· != ':')).drop 1)

/-- A character of the first part. -/
def isDescriptive (c : Char) : Bool :=
  c != ':' && c != ']'

theorem front?_descriptive :
    (Rule.except (Rule.either (Rule.word ":") (Rule.word "]")) : LineRule).front?
      = (Rule.one isDescriptive).front? := by
  refine Rule.front?_except fun c rest => ?_
  by_cases colon : ':' = c
  · subst colon
    rfl
  · by_cases shut : ']' = c
    · subst shut
      rfl
    · simp [Rule.front?_either, Rule.front?_word, after?, afterChars?, isDescriptive, colon, shut,
        Ne.symm colon, Ne.symm shut]

theorem innerParts_of_not_mem {inside : List Char} (free : ':' ∉ inside) :
    innerParts inside = (inside, []) := by
  have passed := bne_of_not_mem free
  rw [innerParts, List.takeWhile_eq_self_iff.mpr passed, List.dropWhile_eq_nil_iff.mpr passed]
  rfl

theorem innerParts_append {inside : List Char} (free : ':' ∉ inside) (rest : List Char) :
    innerParts (inside ++ ':' :: rest) = (inside, rest) := by
  have passed := bne_of_not_mem free
  rw [innerParts, List.takeWhile_append_of_pos passed, List.dropWhile_append_of_pos passed]
  simp

theorem front?_optional_run {rule : LineRule} {among : Char → Bool}
    (same : rule.front? = (Rule.one among).front?) (label : LinePart) (text : List Char) :
    (Rule.optional (Rule.part label (Rule.several rule))).front? text
      = some (Rule.ofRun label (text.takeWhile among), text.dropWhile among) := by
  rw [Rule.front?_optional, Rule.front?_part_congr label (Rule.front?_several_congr same),
    ← Rule.front?_optional, Rule.front?_optional_several]

theorem front?_optional_inner (text : List Char) :
    (Rule.optional (Rule.all [Rule.word ":",
        Rule.optional (Rule.part .inner (Rule.several enclosed))])).front? text
      = match text with
        | ':' :: rest =>
          some (Rule.ofRun .inner (rest.takeWhile (· != ']')), rest.dropWhile (· != ']'))
        | text => some ([], text) := by
  rw [Rule.front?_optional, Rule.front?_all_cons, Rule.front?_word]
  split
  · rename_i rest
    have colon : after? ":" (':' :: rest) = some rest := rfl
    rw [colon]
    simp [Rule.front?_all_cons, front?_optional_run front?_enclosed]
  · rename_i other
    have unfit : after? ":" text = none := by
      cases colon : after? ":" text with
      | none => rfl
      | some rest => exact absurd (after?_eq_some_iff.mp colon) (other rest)
    rw [unfit]
    rfl

/-- The parts inside a bracket are found as they are taken apart. -/
theorem whole?_inside (rules : List LineRule) (text : List Char) :
    (Rule.all (Rule.optional (Rule.part .description (Rule.several
        (Rule.except (Rule.either (Rule.word ":") (Rule.word "]")))))
      :: Rule.optional (Rule.all [Rule.word ":",
        Rule.optional (Rule.part .inner (Rule.several enclosed))])
      :: Rule.word "]" :: rules)).whole? text
      = (bracketed? text).bind fun found => ((Rule.all rules).whole? found.2).map fun more =>
          Rule.ofRun .description (innerParts found.1).1
            ++ (Rule.ofRun .inner (innerParts found.1).2 ++ more) := by
  rw [Rule.whole?_all_cons, front?_optional_run front?_descriptive, Option.bind_some]
  have split : text.takeWhile isDescriptive ++ text.dropWhile isDescriptive = text :=
    List.takeWhile_append_dropWhile
  have kept := List.all_eq_true.mp (List.all_takeWhile (p := isDescriptive) (l := text))
  have stops := List.head?_dropWhile_not isDescriptive text
  generalize text.takeWhile isDescriptive = front at split kept ⊢
  generalize text.dropWhile isDescriptive = rest at split stops ⊢
  subst split
  have shut : ']' ∉ front := by
    intro mem
    cases kept _ mem
  have colon : ':' ∉ front := by
    intro mem
    cases kept _ mem
  rw [bracketed?_append_of_not_mem shut, Rule.whole?_all_cons, front?_optional_inner]
  cases rest with
  | nil => rfl
  | cons c behind =>
    obtain rfl | other := eq_or_ne c ':'
    · have inner : bracketed? (':' :: behind)
          = (bracketed? behind).map fun found => (':' :: found.1, found.2) :=
        @bracketed?_append_of_not_mem [':'] (by simp) behind
      rw [inner, bracketed?_eq behind]
      simp only [Option.bind_some, Rule.whole?_all_cons, Rule.front?_word]
      cases after? "]" (behind.dropWhile (· != ']')) with
      | none => rfl
      | some outside => simp [innerParts_append colon, Function.comp_def]
    · obtain rfl : c = ']' := by simpa [isDescriptive, other] using stops
      have closed : bracketed? (']' :: behind) = some ([], behind) := rfl
      rw [closed]
      cases tail : (Rule.all rules).whole? behind with
      | none => simp [Rule.whole?_all_cons, Rule.front?_word, after?, afterChars?, tail]
      | some found =>
        simp [Rule.whole?_all_cons, Rule.front?_word, after?, afterChars?, tail,
          innerParts_of_not_mem colon]

theorem whole?_outer (text : List Char) :
    (Rule.all [Rule.optional (Rule.all [Rule.word ":",
        Rule.part .outer (Rule.several Rule.any)])] : LineRule).whole? text
      = (outer? text).map (Rule.ofRun .outer) := by
  rw [Rule.whole?_all_cons, Rule.front?_optional, Rule.front?_all_cons, Rule.front?_word]
  unfold outer?
  split
  · rfl
  · simp [Rule.front?_all_cons, Rule.any, Rule.front?_part_several, Rule.ofRun, after?,
      afterChars?, Rule.whole?]
  · rename_i filled other
    cases text with
    | nil => exact absurd rfl filled
    | cons c rest =>
      obtain rfl | unfit := eq_or_ne c ':'
      · cases rest with
        | nil => rfl
        | cons d more => exact absurd rfl (other d more)
      · simp [after?, afterChars?, Ne.symm unfit, Rule.whole?]

theorem parts?_eq_grammar (text : List Char) :
    parts? text = (LineRule.branchHeader.whole? text).map Parts.ofFound := by
  have found : ∀ description inner outer, Parts.ofFound (Rule.ofRun .description description
      ++ (Rule.ofRun .inner inner ++ Rule.ofRun .outer outer)) = ⟨description, inner, outer⟩ := by
    intro description inner outer
    cases description <;> cases inner <;> cases outer <;> rfl
  rw [branchHeader, Rule.whole?_all_cons, Rule.front?_word, parts?]
  cases after? "SubCate[" text with
  | none => rfl
  | some rest =>
    simp only [Option.map_some, Option.bind_some, whole?_inside, whole?_outer]
    cases bracketed? rest with
    | none => rfl
    | some bracket =>
      simp [found, innerParts, Function.comp_def]

end BranchHeader

/-! ## Qualifiers -/

/-- What starts like one kind of qualifier starts like no other. -/
theorem after?_of_database (start : after? "R[" text = some rest) :
    after? "Fn[" text = none ∧ after? "T[" text = none ∧ after? "P[" text = none := by
  rw [after?_eq_some_iff.mp start]
  simp [after?, afterChars?]

theorem after?_of_function (start : after? "Fn[" text = some rest) :
    after? "T[" text = none ∧ after? "P[" text = none := by
  rw [after?_eq_some_iff.mp start]
  simp [after?, afterChars?]

theorem after?_of_type (start : after? "T[" text = some rest) : after? "P[" text = none := by
  rw [after?_eq_some_iff.mp start]
  simp [after?, afterChars?]

namespace Qualifier

/-- Nothing but a bracket. -/
theorem whole?_arguments (text : List Char) :
    (Rule.all [Rule.part .arguments (Rule.many LineRule.enclosed), Rule.word "]"]).whole? text
      = (onlyBracketed? text).map fun inside => [(.arguments, inside)] := by
  rw [Rule.whole?, LineRule.fills_many_enclosed.front?]
  unfold onlyBracketed?
  cases bracketed? text with
  | none => rfl
  | some found =>
    obtain ⟨inside, rest⟩ := found
    cases rest with
    | nil => rfl
    | cons c more => rfl

/-- The names of types, by their characters. -/
theorem any_typeName (inside : List Char) :
    (["byte", "short", "ushort", "int", "uint"].any (·.toList == inside))
      = (ForcedType.ofName? (String.ofList inside)).isSome := by
  have same : ∀ name : String, (name.toList == inside) = (name == String.ofList inside) := by
    intro name
    rw [Bool.eq_iff_iff, beq_iff_eq, beq_iff_eq, ← String.toList_inj, String.toList_ofList]
  simp only [ForcedType.ofName?, List.isSome_find?, same]
  rfl

theorem whole?_typeName (text : List Char) :
    (Rule.all [Rule.part .typeName (Rule.firstOf [Rule.word "byte", Rule.word "short",
        Rule.word "ushort", Rule.word "int", Rule.word "uint"]), Rule.word "]",
        Rule.many Rule.any] : LineRule).whole? text
      = ((bracketed? text).filter fun found =>
          (ForcedType.ofName? (String.ofList found.1)).isSome).map fun found =>
            [(.typeName, found.1)] := by
  have names : LineRule.Fills _ _ :=
    @LineRule.fills_words ["byte", "short", "ushort", "int", "uint"] (by decide) (by decide)
  have found := names.whole? .typeName text
  simp only [any_typeName] at found
  exact found

theorem whole?_paramAlias (text : List Char) :
    (Rule.all [Rule.part .paramAlias (Rule.all [Rule.word "@", Rule.several LineRule.named]),
        Rule.word "]", Rule.many Rule.any]).whole? text
      = ((bracketed? text).filter fun found => isAlias found.1).map fun found =>
          [(.paramAlias, found.1)] :=
  LineRule.fills_alias.whole? .paramAlias text

/-- The first word that fits the start of a text settles what the text can
be read as. -/
theorem read?_eq_grammar (text : List Char) :
    read? text = (LineRule.qualifier.whole? text).bind ofFound? := by
  rw [LineRule.qualifier]
  unfold read?
  cases database : after? "R[" text with
  | some rest =>
    obtain ⟨function, type, param⟩ := after?_of_database database
    rw [Rule.whole?_firstOf_of_rest (by simp [Rule.front?_firstOf_cons,
      Rule.front?_part_word_eq_none, function, type, param]), Rule.whole?_part_word, database,
      Option.bind_some, whole?_arguments]
    dsimp only
    cases onlyBracketed? rest with
    | none => rfl
    | some inside => rfl
  | none =>
    rw [Rule.whole?_firstOf_of_none (Rule.front?_part_word_eq_none _ _ database)]
    cases function : after? "Fn[" text with
    | some rest =>
      obtain ⟨type, param⟩ := after?_of_function function
      rw [Rule.whole?_firstOf_of_rest (by simp [Rule.front?_firstOf_cons,
        Rule.front?_part_word_eq_none, type, param]), Rule.whole?_part_word, function,
        Option.bind_some, whole?_arguments]
      dsimp only
      cases onlyBracketed? rest with
      | none => rfl
      | some inside => rfl
    | none =>
      rw [Rule.whole?_firstOf_of_none (Rule.front?_part_word_eq_none _ _ function)]
      cases type : after? "T[" text with
      | some rest =>
        have param := after?_of_type type
        rw [Rule.whole?_firstOf_of_rest (by simp [Rule.front?_firstOf_cons,
          Rule.front?_part_word_eq_none, param]), Rule.whole?_part_word, type,
          Option.bind_some, whole?_typeName]
        dsimp only
        cases bracketed? rest with
        | none => rfl
        | some found =>
          cases name : ForcedType.ofName? (String.ofList found.1) with
          | none => simp [name, Option.filter_some]
          | some type => simp [name, Option.filter_some, ofFound?]
      | none =>
        rw [Rule.whole?_firstOf_of_none (Rule.front?_part_word_eq_none _ _ type),
          Rule.whole?_firstOf_of_rest rfl, Rule.whole?_part_word]
        cases after? "P[" text with
        | some rest =>
          rw [Option.bind_some, whole?_paramAlias]
          dsimp only
          cases bracketed? rest with
          | none => rfl
          | some found =>
            cases name : isAlias found.1 with
            | false => simp [name, Option.filter_some]
            | true => simp [name, Option.filter_some, ofFound?]
        | none => rfl

end Qualifier

end PacketLayout
