/-
PacketLayout.Proofs.FieldLines — what each text is, read as a field line.

There are five ways. A text that starts with `pad-` asks for padding, or
for none that can be had. Of the others, those that start like a branch or
hold no colon are no field lines. What is left has a segment behind its
first colon, which is a unit or the cause of a failure. `Reads` says so
without the reader, and the reader gives what `Reads` says and nothing
else, so that every text is in one of the five cases and in no two.

Numbers are those that the digits write, of any length: `WritesNumber`
counts in natural numbers, where the reader counts in words.

* `decimal?_eq_some_iff`: a text is read as the number that it writes, if
  that is a word.
* `FieldLine.read_eq_iff`: a text is read as `Reads` says.
* `FieldLine.read_requalified`: other qualifiers make no field line fail.
* `FieldLine.read_classified`: the whole reader, with the line it is given
  to read.
* `FieldLine.read_qualified`: what the qualifiers of a line come to.
-/
import Mathlib.Data.List.Induction
import Mathlib.Data.Nat.Digits.Defs
import PacketLayout.BodyLine
import PacketLayout.Proofs.LineGrammar.Readers
import PacketLayout.Proofs.Qualifiers

namespace PacketLayout

/-! ## Numbers -/

namespace Text

variable {text digits : List Char} {n : Nat} {word : UInt64}

/-- The text writes the number in decimal: one or more ASCII digits, after
an optional plus sign. -/
def WritesNumber (text : List Char) (n : Nat) : Prop :=
  ∃ digits, (text = digits ∨ text = '+' :: digits) ∧ digits ≠ [] ∧
    (∀ digit ∈ digits, digit.isDigit = true) ∧
    n = Nat.ofDigits 10 (digits.reverse.map digitValue)

theorem decimalValue_eq_ofDigits (digits : List Char) :
    decimalValue digits = Nat.ofDigits 10 (digits.reverse.map digitValue) := by
  induction digits using List.reverseRecOn with
  | nil => rfl
  | append_singleton digits digit ih =>
    rw [decimalValue, List.foldl_append, List.foldl_cons, List.foldl_nil, ← decimalValue, ih,
      List.reverse_concat, List.map_cons, Nat.ofDigits_cons]
    omega

/-- The digits of a text that writes a number are those that the reader
takes: a plus sign is no digit. -/
theorem digits_of_writes (digital : ∀ digit ∈ digits, digit.isDigit = true)
    (written : text = digits ∨ text = '+' :: digits) :
    (after? "+" text).getD text = digits := by
  rcases written with rfl | rfl
  · have unsigned : after? "+" text = none := by
      rw [after?_eq_none_iff]
      rintro ⟨rest, rfl⟩
      exact absurd (digital '+' (by simp)) (by decide)
    rw [unsigned, Option.getD_none]
  · rw [show '+' :: digits = "+".toList ++ digits from rfl, after?_append, Option.getD_some]

/-- A text is read as the number that it writes, if that is a word. -/
theorem decimal?_eq_some_iff : decimal? text = some word ↔ WritesNumber text word.toNat := by
  unfold decimal?
  dsimp only
  constructor
  · intro read
    split at read
    · rename_i known
      have value := decimalWord?_eq_some_iff.mp read
      refine ⟨(after? "+" text).getD text, ?_, known.1, List.all_eq_true.mp known.2, ?_⟩
      · cases signed : after? "+" text with
        | none => exact .inl rfl
        | some rest => exact .inr (after?_eq_some_iff.mp signed)
      · rw [← decimalValue_eq_ofDigits, value]
    · cases read
  · rintro ⟨digits, written, some, digital, value⟩
    rw [digits_of_writes digital written, if_pos ⟨some, List.all_eq_true.mpr digital⟩,
      decimalWord?_eq_some_iff, value, decimalValue_eq_ofDigits]

/-- A number holds no colon. -/
theorem WritesNumber.free (h : WritesNumber text n) : ':' ∉ text := by
  obtain ⟨digits, written, -, digital, -⟩ := h
  have free : ':' ∉ digits := fun mem => absurd (digital ':' mem) (by decide)
  rcases written with rfl | rfl
  · exact free
  · simpa using free

/-- A number that is a word is read. -/
theorem WritesNumber.read (h : WritesNumber text n) (fits : n < UInt64.size) :
    decimal? text = some (UInt64.ofNat n) := by
  rw [decimal?_eq_some_iff, UInt64.toNat_ofNat_of_lt' fits]
  exact h

end Text

open Text

namespace FieldLine

variable {text rest name unit more : List Char} {qualifiers : List (List Char)} {n : Nat}
  {token : Token} {cause : Cause} {line : FieldLine}
  {outcome : Except Cause (Option FieldLine)}

/-! ## Padding -/

theorem maxPadding_lt_size : maxPadding < UInt64.size := by decide

theorem readPadding_of_small (number : WritesNumber (trim rest) n) (small : n ≤ maxPadding) :
    readPadding rest = .ok ⟨.padding n, .padding, []⟩ := by
  have fits : n < UInt64.size := Nat.lt_of_le_of_lt small maxPadding_lt_size
  rw [readPadding, number.read fits]
  dsimp only
  rw [UInt64.toNat_ofNat_of_lt' fits, if_pos small]

theorem readPadding_of_large (large : ∀ n, WritesNumber (trim rest) n → maxPadding < n) :
    readPadding rest = .error (.invalidPadding (String.ofList (trim rest))) := by
  unfold readPadding
  dsimp only
  split
  · rename_i word read
    rw [if_neg (Nat.not_le.mpr (large _ (decimal?_eq_some_iff.mp read)))]
  · rfl

/-! ## The five ways -/

/-- What a text is to be read as. The segments of a text are what its
colons separate. -/
inductive Reads : List Char → Except Cause (Option FieldLine) → Prop
  | padding {rest : List Char} {n : Nat} (number : WritesNumber (trim rest) n)
    (small : n ≤ maxPadding) :
    Reads ("pad-".toList ++ rest) (.ok (some ⟨.padding n, .padding, []⟩))
  | noPadding {rest : List Char}
    (large : ∀ n, WritesNumber (trim rest) n → maxPadding < n) :
    Reads ("pad-".toList ++ rest) (.error (.invalidPadding (String.ofList (trim rest))))
  | other {text : List Char} (unpadded : ¬ "pad-".toList <+: text)
    (other : "SubCate[".toList <+: text ∨ ':' ∉ text) :
    Reads text (.ok none)
  | noUnit {text name unit : List Char} {qualifiers : List (List Char)}
    (unpadded : ¬ "pad-".toList <+: text) (unbranched : ¬ "SubCate[".toList <+: text)
    (segments : text.splitOn ':' = name :: unit :: qualifiers)
    (unread : Token.read? (trim unit) = none) :
    Reads text (.error (.invalidToken (String.ofList (trim unit))))
  | unit {text name unit : List Char} {qualifiers : List (List Char)} {token : Token}
    {field : Field} {remarks : List Remark}
    (unpadded : ¬ "pad-".toList <+: text) (unbranched : ¬ "SubCate[".toList <+: text)
    (segments : text.splitOn ':' = name :: unit :: qualifiers)
    (read : Token.read? (trim unit) = some token)
    (qualified : Field.qualifyAll ⟨String.ofList (trim name), none, none, none⟩ qualifiers
      = (field, remarks)) :
    Reads text (.ok (some ⟨token, field, remarks⟩))

/-- No segment holds a colon. -/
theorem not_mem_of_mem_splitOn {segment : List Char} (mem : segment ∈ text.splitOn ':') :
    ':' ∉ segment := by
  rw [splitOn_eq_pieces] at mem
  rcases List.mem_cons.mp mem with rfl | later
  · exact (not_mem_pieces ':' text).1
  · exact (not_mem_pieces ':' text).2 segment later

/-- A text with a colon has two segments at least. -/
theorem exists_segments (colon : ':' ∈ text) :
    ∃ name unit qualifiers, text.splitOn ':' = name :: unit :: qualifiers := by
  rw [splitOn_eq_pieces]
  cases later : (pieces ':' text).2 with
  | nil => exact absurd colon (pieces_snd_eq_nil_iff.mp later)
  | cons unit qualifiers => exact ⟨_, unit, qualifiers, rfl⟩

/-- A text with two segments has a colon. -/
theorem colon_of_segments (segments : text.splitOn ':' = name :: unit :: qualifiers) :
    ':' ∈ text := by
  by_contra free
  rw [List.splitOn_eq_singleton free] at segments
  cases segments

/-- No text is without an answer. -/
theorem exists_reads (text : List Char) : ∃ outcome, Reads text outcome := by
  by_cases padded : "pad-".toList <+: text
  · obtain ⟨rest, rfl⟩ := padded
    by_cases asked : ∃ n, WritesNumber (trim rest) n ∧ n ≤ maxPadding
    · obtain ⟨n, number, small⟩ := asked
      exact ⟨_, .padding number small⟩
    · refine ⟨_, .noPadding fun n number => ?_⟩
      exact Nat.lt_of_not_le fun small => asked ⟨n, number, small⟩
  · by_cases other : "SubCate[".toList <+: text ∨ ':' ∉ text
    · exact ⟨_, .other padded other⟩
    · obtain ⟨unbranched, colon⟩ := not_or.mp other
      obtain ⟨name, unit, qualifiers, segments⟩ := exists_segments (not_not.mp colon)
      cases read : Token.read? (trim unit) with
      | none => exact ⟨_, .noUnit padded unbranched segments read⟩
      | some token => exact ⟨_, .unit padded unbranched segments read rfl⟩

/-- A text that is not read as padding, nor as a branch, is read segment by
segment. -/
theorem read_of_segments (unpadded : ¬ "pad-".toList <+: text)
    (unbranched : ¬ "SubCate[".toList <+: text)
    (segments : text.splitOn ':' = name :: unit :: qualifiers) :
    read text = (readParts name unit qualifiers).map some := by
  have unbranched' : ¬ startsWith "SubCate[" text = true := by
    rwa [startsWith_iff]
  rw [splitOn_eq_pieces] at segments
  obtain ⟨first, later⟩ := List.cons.inj segments
  have parts : pieces ':' text = (name, unit :: qualifiers) := Prod.ext first later
  rw [read, after?_eq_none_iff.mpr unpadded]
  dsimp only
  rw [if_neg unbranched', parts]

theorem Reads.eq (h : Reads text outcome) : read text = outcome := by
  cases h with
  | padding number small =>
    rw [read, after?_append]
    dsimp only
    rw [readPadding_of_small number small]
    rfl
  | noPadding large =>
    rw [read, after?_append]
    dsimp only
    rw [readPadding_of_large large]
    rfl
  | other unpadded other =>
    rw [read, after?_eq_none_iff.mpr unpadded]
    dsimp only
    by_cases branched : "SubCate[".toList <+: text
    · rw [if_pos (startsWith_iff.mpr branched)]
    · have unbranched : ¬ startsWith "SubCate[" text = true := by rwa [startsWith_iff]
      have free : ':' ∉ text := other.resolve_left branched
      rw [if_neg unbranched, pieces_of_not_mem free]
  | noUnit unpadded unbranched segments unread =>
    rw [read_of_segments unpadded unbranched segments, readParts, unread]
    rfl
  | unit unpadded unbranched segments found qualified =>
    rw [read_of_segments unpadded unbranched segments, readParts, found]
    dsimp only
    rw [qualified]
    rfl

/-- A text is read as `Reads` says. -/
theorem read_eq_iff : read text = outcome ↔ Reads text outcome := by
  constructor
  · rintro rfl
    obtain ⟨found, reads⟩ := exists_reads text
    rw [reads.eq]
    exact reads
  · exact Reads.eq

/-! ## Lines with a unit -/

theorem eq_intercalate_of_segments {segments : List (List Char)}
    (h : text.splitOn ':' = segments) : text = [':'].intercalate segments := by
  rw [← h, List.intercalate_splitOn]

/-- A word without a colon starts a text exactly if it starts its first
segment. -/
theorem prefix_iff_of_segments {word : List Char} (free : ':' ∉ word)
    (segments : text.splitOn ':' = name :: unit :: qualifiers) :
    word <+: text ↔ word <+: name := by
  have written := eq_intercalate_of_segments segments
  rw [List.intercalate_cons_cons, List.append_assoc, List.singleton_append] at written
  constructor
  · rintro ⟨rest, start⟩
    rw [written] at start
    rcases List.append_eq_append_iff.mp start with ⟨behind, first, -⟩ | ⟨behind, first, later⟩
    · exact ⟨behind, first.symm⟩
    · cases behind with
      | nil => exact ⟨[], by simp [first]⟩
      | cons c behind =>
        obtain ⟨rfl, -⟩ := List.cons.inj later
        exact absurd (by simp [first]) free
  · intro start
    rw [written]
    exact start.trans (List.prefix_append _ _)

/-- A text with a segment behind its name is no padding if it is read. -/
theorem unit_of_read (segments : text.splitOn ':' = name :: unit :: qualifiers)
    (found : read text = .ok (some line)) :
    ¬ "pad-".toList <+: text ∧ ¬ "SubCate[".toList <+: text ∧
      Token.read? (trim unit) = some line.token ∧
      Field.qualifyAll ⟨String.ofList (trim name), none, none, none⟩ qualifiers
        = (line.field, line.remarks) := by
  have reads := read_eq_iff.mp found
  cases reads with
  | padding number small =>
    have colon := colon_of_segments segments
    simp only [List.mem_append, show ':' ∉ "pad-".toList by decide, false_or] at colon
    exact absurd (mem_trim (by decide) colon) number.free
  | unit unpadded unbranched others read qualified =>
    rw [segments] at others
    cases others
    exact ⟨unpadded, unbranched, read, qualified⟩

/-- Texts that differ in their qualifiers only are field lines of the same
unit, if one of them is. -/
theorem read_requalified {other : List Char} {others : List (List Char)}
    (segments : text.splitOn ':' = name :: unit :: qualifiers)
    (found : read text = .ok (some line))
    (changed : other.splitOn ':' = name :: unit :: others) :
    read other = .ok (some ⟨line.token,
      (Field.qualifyAll ⟨String.ofList (trim name), none, none, none⟩ others).1,
      (Field.qualifyAll ⟨String.ofList (trim name), none, none, none⟩ others).2⟩) := by
  obtain ⟨unpadded, unbranched, known, -⟩ := unit_of_read segments found
  have starts : ∀ {word : List Char}, ':' ∉ word → ¬ word <+: text → ¬ word <+: other := by
    intro word free
    rw [prefix_iff_of_segments free segments, prefix_iff_of_segments free changed]
    exact id
  exact Reads.eq (.unit (starts (by decide) unpadded) (starts (by decide) unbranched) changed
    known rfl)

/-- One more qualifier is the last one. -/
theorem splitOn_qualifier (segments : text.splitOn ':' = name :: unit :: qualifiers)
    {segment : List Char} (free : ':' ∉ segment) :
    (text ++ ':' :: segment).splitOn ':' = name :: unit :: (qualifiers ++ [segment]) := by
  rw [List.splitOn_append_cons_self, segments, List.splitOn_eq_singleton free]
  rfl

end FieldLine

/-! ## At a line of a source -/

namespace BodyLine

variable {σ : Type} {site : Site} {cause : Cause} {line : FieldLine}

theorem readAt_of_error (failed : FieldLine.read site.raw.toList = .error cause) (state : σ) :
    (readAt site : Job σ BodyLine) state = ⟨.error (cause.atSite site), state, []⟩ := by
  rw [readAt, read, failed]
  rfl

theorem readAt_of_field (found : FieldLine.read site.raw.toList = .ok (some line)) (state : σ) :
    (readAt site : Job σ BodyLine) state
      = ⟨.ok (.field line), state, line.remarks.map fun remark => remark.entry site.line⟩ := by
  rw [readAt, read, found]
  exact congrArg (Outcome.mk _ _) (List.append_nil _)

end BodyLine

namespace FieldLine

open Qualifier

/-- Every text is read in the one way in which it can be read. Whether a
text with segments is a field line does not depend on its qualifiers, and
its name is its first segment. There are two segments where there is a
colon, and one argument in every bracket. A failure is that of the line
the text stands in, and a field line gives its remarks at the line's
number. -/
theorem read_classified :
    (∀ text outcome, read text = outcome ↔ Reads text outcome) ∧
    (∀ text other name unit qualifiers others line,
      text.splitOn ':' = name :: unit :: qualifiers → read text = .ok (some line) →
      other.splitOn ':' = name :: unit :: others →
      ∃ field remarks, read other = .ok (some ⟨line.token, field, remarks⟩) ∧
        field.name = String.ofList (trim name)) ∧
    (∀ text : List Char, 0 < (text.splitOn ':').length ∧
      (':' ∈ text ↔ 1 < (text.splitOn ':').length)) ∧
    (∀ inside, (arguments inside).1 :: (arguments inside).2
      = (inside.splitOn ',').map String.ofList) ∧
    ∀ (site : Site) {σ : Type} (state : σ),
      (∀ cause, read site.raw.toList = .error cause →
        (BodyLine.readAt site : Job σ BodyLine) state
          = ⟨.error ⟨cause, site⟩, state, []⟩) ∧
      ∀ line, read site.raw.toList = .ok (some line) →
        (BodyLine.readAt site : Job σ BodyLine) state
          = ⟨.ok (.field line), state,
              line.remarks.map fun remark => remark.entry site.line⟩ := by
  refine ⟨fun text outcome => read_eq_iff, ?_, fun text => ⟨?_, ?_⟩, arguments_eq,
    fun site σ state => ⟨fun cause failed => BodyLine.readAt_of_error failed state,
      fun line found => BodyLine.readAt_of_field found state⟩⟩
  · intro text other name unit qualifiers others line segments found changed
    exact ⟨_, _, read_requalified segments found changed, Field.name_qualifyAll _ _⟩
  · rw [length_splitOn]
    exact Nat.succ_pos _
  · rw [length_splitOn, ← List.count_pos_iff]
    omega

/-- Padding of 4096 bytes with a sign and zeros in front, and a number that a
word does not hold, whose last bits would be 2; a unit with qualifiers of
which one is wrong, also with other qualifiers; and a line whose unit is
none. -/
theorem read_classified_samples :
    Reads "pad- +0004096 ".toList (.ok (some ⟨.padding 4096, .padding, []⟩)) ∧
    Reads "pad-18446744073709551618".toList
      (.error (.invalidPadding "18446744073709551618")) ∧
    "Hero : $4:T[uint]:Q".toList.splitOn ':'
      = ["Hero ".toList, " $4".toList, "T[uint]".toList, "Q".toList] ∧
    read "Hero : $4:T[uint]:Q".toList
      = .ok (some ⟨.size 4, ⟨"Hero", some .uint, none, none⟩,
          [⟨.unknownQualifier "Q", "Q"⟩]⟩) ∧
    (∃ field remarks, read "Hero : $4::R[?]".toList = .ok (some ⟨.size 4, field, remarks⟩) ∧
      field.name = "Hero") ∧
    (BodyLine.readAt ⟨7, "X:$3"⟩ : Job Nat BodyLine) 0
      = ⟨.error ⟨.invalidToken "$3", ⟨7, "X:$3"⟩⟩, 0, []⟩ := by
  obtain ⟨ways, requalified, _, _, placed⟩ := read_classified
  have segments : "Hero : $4:T[uint]:Q".toList.splitOn ':'
      = ["Hero ".toList, " $4".toList, "T[uint]".toList, "Q".toList] := by decide
  have found : read "Hero : $4:T[uint]:Q".toList
      = .ok (some ⟨.size 4, ⟨"Hero", some .uint, none, none⟩,
          [⟨.unknownQualifier "Q", "Q"⟩]⟩) := by decide
  refine ⟨(ways _ _).mp (by decide), (ways _ _).mp (by decide), segments, found, ?_,
    (placed ⟨7, "X:$3"⟩ 0).1 _ (by decide)⟩
  exact requalified _ "Hero : $4::R[?]".toList _ _ _ ["".toList, "R[?]".toList] _ segments found
    (by decide)

/-- The qualifiers of a field line, one by one and all together.

Those that hold are written as `Tells` lists, and what is read of one is
what the grammar finds. The field has of each member what the last qualifier
that says something of it says, and each qualifier that does not hold is
reported once, in order. One more segment behind the line sets one member,
or leaves the field as it is and one remark. Neighbours that say something
of different members can change places. -/
theorem read_qualified {site : Site} {name unit : List Char} {qualifiers : List (List Char)}
    {line : FieldLine}
    (segments : site.raw.toList.splitOn ':' = name :: unit :: qualifiers)
    (found : read site.raw.toList = .ok (some line)) :
    (∀ text setting, setting? text = some setting ↔ Tells text setting) ∧
    line.field =
      ⟨String.ofList (trim name), ((settings qualifiers).filterMap Setting.type?).getLast?,
        ((settings qualifiers).filterMap Setting.function?).getLast?,
        ((settings qualifiers).filterMap Setting.param?).getLast?⟩ ∧
    line.remarks = (failing qualifiers).map remark ∧
    (∀ {σ : Type} (state : σ), (BodyLine.readAt site : Job σ BodyLine) state
      = ⟨.ok (.field line), state, (failing qualifiers).map fun text =>
          .warning site.line (complaint text) (some (String.ofList text))⟩) ∧
    (∀ segment, ':' ∉ segment →
      (∀ setting, Tells (ofSegment segment) setting →
        read (site.raw.toList ++ ':' :: segment)
          = .ok (some ⟨line.token, line.field.set setting, line.remarks⟩)) ∧
      ((∀ setting, ¬ Tells (ofSegment segment) setting) →
        read (site.raw.toList ++ ':' :: segment)
          = .ok (some ⟨line.token, line.field,
              line.remarks ++ [remark (ofSegment segment)]⟩))) ∧
    (∀ before first second after said other,
      qualifiers = before ++ first :: second :: after →
      Tells (ofSegment first) said → Tells (ofSegment second) other →
      said.member ≠ other.member →
      read ([':'].intercalate (name :: unit :: (before ++ second :: first :: after)))
        = .ok (some line)) ∧
    ∀ text,
      Qualifier.read? text = (LineRule.qualifier.whole? text).bind Qualifier.ofFound? := by
  obtain ⟨-, -, -, qualified⟩ := unit_of_read segments found
  have both := qualified
  rw [Field.qualifyAll_eq] at both
  obtain ⟨field, remarks⟩ := Prod.mk.inj both
  refine ⟨fun text setting => setting?_eq_some_iff, ?_, remarks.symm, fun state => ?_,
    fun segment free => ⟨fun setting tells => ?_, fun silent => ?_⟩, ?_,
    Qualifier.read?_eq_grammar⟩
  · rw [← field, Field.foldl_set]
    simp
  · rw [BodyLine.readAt_of_field found state, ← remarks, List.map_map]
    rfl
  · rw [read_requalified segments found (splitOn_qualifier segments free),
      Field.qualifyAll_concat_some (setting?_of_tells tells), qualified]
  · rw [read_requalified segments found (splitOn_qualifier segments free),
      Field.qualifyAll_concat_none (setting?_eq_none_iff.mpr silent), qualified]
  · rintro before first second after said other rfl tells tells' apart
    have free : ∀ segment ∈ name :: unit :: (before ++ second :: first :: after),
        ':' ∉ segment := by
      intro segment mem
      have old : segment ∈ site.raw.toList.splitOn ':' := by
        rw [segments]
        simp only [List.mem_cons, List.mem_append] at mem ⊢
        tauto
      exact not_mem_of_mem_splitOn old
    rw [read_requalified segments found (List.splitOn_intercalate ':' free (by simp)),
      Field.qualifyAll_exchange (setting?_of_tells tells) (setting?_of_tells tells') apart,
      qualified]

/-- Of a database and a function the last counts, the type that is none is
reported, and the alias, which has a text behind it and a comment, can
stand before the function. -/
theorem read_qualified_target :
    "Target:$4:R[ npc ,1]:T[long]:Fn[hero,x]:P[@goal]! // sent".toList.splitOn ':'
      = ["Target".toList, "$4".toList, "R[ npc ,1]".toList, "T[long]".toList,
          "Fn[hero,x]".toList, "P[@goal]! // sent".toList] ∧
    read "Target:$4:R[ npc ,1]:T[long]:Fn[hero,x]:P[@goal]! // sent".toList
      = .ok (some ⟨.size 4, ⟨"Target", none, some ["hero", "x"], some "@goal"⟩,
          [⟨.unreadQualifier .type, "T[long]"⟩]⟩) ∧
    Tells (ofSegment "R[ npc ,1]".toList) (.function ["db_NPC", "1"]) ∧
    (BodyLine.readAt ⟨5, "Target:$4:R[ npc ,1]:T[long]:Fn[hero,x]:P[@goal]! // sent"⟩ :
        Job Nat BodyLine) 0
      = ⟨.ok (.field ⟨.size 4, ⟨"Target", none, some ["hero", "x"], some "@goal"⟩,
          [⟨.unreadQualifier .type, "T[long]"⟩]⟩), 0,
          [.warning 5 (.unreadQualifier .type) (some "T[long]")]⟩ ∧
    read ([':'].intercalate ["Target".toList, "$4".toList, "R[ npc ,1]".toList,
        "T[long]".toList, "P[@goal]! // sent".toList, "Fn[hero,x]".toList])
      = .ok (some ⟨.size 4, ⟨"Target", none, some ["hero", "x"], some "@goal"⟩,
          [⟨.unreadQualifier .type, "T[long]"⟩]⟩) := by
  have segments : "Target:$4:R[ npc ,1]:T[long]:Fn[hero,x]:P[@goal]! // sent".toList.splitOn ':'
      = ["Target".toList, "$4".toList, "R[ npc ,1]".toList, "T[long]".toList,
          "Fn[hero,x]".toList, "P[@goal]! // sent".toList] := by decide
  have found : read "Target:$4:R[ npc ,1]:T[long]:Fn[hero,x]:P[@goal]! // sent".toList
      = .ok (some ⟨.size 4, ⟨"Target", none, some ["hero", "x"], some "@goal"⟩,
          [⟨.unreadQualifier .type, "T[long]"⟩]⟩) := by decide
  obtain ⟨telling, _, _, placed, _, exchanged, _⟩ :=
    @read_qualified ⟨5, "Target:$4:R[ npc ,1]:T[long]:Fn[hero,x]:P[@goal]! // sent"⟩ _ _ _ _
      segments found
  refine ⟨segments, found, (telling _ _).mp (by decide), ?_, ?_⟩
  · rw [placed 0]
    rfl
  · exact exchanged ["R[ npc ,1]".toList, "T[long]".toList] "Fn[hero,x]".toList
      "P[@goal]! // sent".toList [] (.function ["hero", "x"]) (.param "@goal") rfl
      ((telling _ _).mp (by decide)) ((telling _ _).mp (by decide)) (by decide)

end FieldLine

end PacketLayout
