/-
PacketLayout.Proofs.LineForms — how control lines and headers are written.

`ControlLine.Written` says how a control line is written. The header of a
fragment is the bracket of a reference, with or without the sign in front
of it, and the header of a packet has a bracket of its own kind with bytes
behind it. Each of these forms is fixed but for its blanks, which are spaces
and tabs, and for the names, descriptions and bytes, whose ends can be seen:
a name ends at the first closing bracket, bytes end at the first blank. So
the readers take every text that is written in a form, although the forms
share their starts, and no other text.

* `ControlLine.read?_eq_some_iff`, `readFragmentHeader?_eq_some_iff`,
  `readPacketHeader?_eq_some_iff`: the texts that each reader takes.
* `ControlLine.read?_render_iff`, `readPacketHeader?_render_iff`: what can be
  printed and read again.
* `lines_recognised`: all of it.
-/
import PacketLayout.Proofs.FragmentNames
import PacketLayout.Proofs.LineGrammar.Readers

namespace PacketLayout

open Text

variable {text blanks rest tail : List Char} {name : String}

/-! ## Words and blanks -/

/-- All blanks behind a sign are skipped, and nothing that is none. -/
theorem afterSign?_append (sign : String) (blank : blanks.all isSpace = true)
    (stops : ∀ c ∈ rest.head?, isSpace c = false) :
    afterSign? sign (sign.toList ++ (blanks ++ rest)) = some rest := by
  rw [afterSign?, after?_append, Option.map_some,
    List.dropWhile_append_of_pos (List.all_eq_true.mp blank)]
  cases rest with
  | nil => rfl
  | cons c more =>
    have other : isSpace c = false := stops c (by simp)
    simp [other]

theorem isLastWord_append (word : String) (ends : endsLine tail = true) :
    isLastWord word (word.toList ++ tail) = true := by
  rw [isLastWord, after?_append]
  exact ends

theorem readFragmentName?_append (free : ']' ∉ name.toList)
    (known : isFragmentName name.toList = true) (ends : endsLine tail = true) :
    readFragmentName? ("Fragment[".toList ++ (name.toList ++ ']' :: tail)) = some name :=
  readFragmentName?_eq_some_iff.mpr ⟨tail, rfl, free, known, ends⟩

/-! ## Control lines -/

namespace ControlLine

variable {control : ControlLine}

theorem Written.read? (h : Written control text) : read? text = some control := by
  cases h with
  | @reference blanks tail name free known blank ends =>
    rw [ControlLine.read?, afterSign?_append "+" blank (by simp [isSpace])]
    dsimp only
    rw [readFragmentName?_append free known ends]
  | @signed _ sign word blanks tail known blank ends =>
    simp only [signedWords, List.mem_cons, Prod.mk.injEq, List.not_mem_nil, or_false] at known
    -- what stands behind the sign is no bracket, and one word only
    rcases known with ⟨rfl, rfl, rfl⟩ | ⟨rfl, rfl, rfl⟩ | ⟨rfl, rfl, rfl⟩
    · have noName : readFragmentName? ("SubCate".toList ++ tail) = none := by
        simp [readFragmentName?, after?, afterChars?]
      rw [ControlLine.read?, afterSign?_append "+" blank (by simp [isSpace])]
      dsimp only
      rw [noName]
      dsimp only
      rw [if_pos (isLastWord_append _ ends)]
    · have noName : readFragmentName? ("REP".toList ++ tail) = none := by
        simp [readFragmentName?, after?, afterChars?]
      have noMark : ¬ isLastWord "SubCate" ("REP".toList ++ tail) = true := by
        simp [isLastWord, after?, afterChars?]
      rw [ControlLine.read?, afterSign?_append "+" blank (by simp [isSpace])]
      dsimp only
      rw [noName]
      dsimp only
      rw [if_neg noMark, if_pos (isLastWord_append _ ends)]
    · have noPlus : afterSign? "+" ("-".toList ++ (blanks ++ ("REP".toList ++ tail))) = none := by
        simp [afterSign?, after?, afterChars?]
      rw [ControlLine.read?, noPlus, afterSign?_append "-" blank (by simp [isSpace])]
      dsimp only
      rw [if_pos (isLastWord_append _ ends)]
  | @pack tail ends =>
    have unsigned : ∀ sign ∈ ["+", "-"], afterSign? sign ("pack".toList ++ tail) = none := by
      simp [afterSign?, after?, afterChars?]
    rw [ControlLine.read?, unsigned "+" (by simp), unsigned "-" (by simp)]
    dsimp only
    rw [if_pos (isLastWord_append _ ends)]

/-- The texts that are read as a control line. -/
theorem read?_eq_some_iff : ControlLine.read? text = some control ↔ Written control text :=
  ⟨written_of_read?, Written.read?⟩

/-- The plainest way to write a control line. -/
def render : ControlLine → String
  | .fragmentRef name => "+ Fragment[" ++ name ++ "]"
  | .placeholder => "+ SubCate"
  | .repeatStart => "+ REP"
  | .repeatEnd => "- REP"
  | .pack => "pack"

/-- A control line that is printed is read again, unless the name in it is
none. -/
theorem read?_render_iff : ControlLine.read? control.render.toList = some control ↔
    ∀ name, control = .fragmentRef name →
      ']' ∉ name.toList ∧ isFragmentName name.toList = true := by
  constructor
  · rintro found name rfl
    have written := written_of_read? found
    generalize (fragmentRef name).render.toList = text at written
    cases written with
    | reference _ free known => exact ⟨free, known⟩
    | signed known => simp [signedWords] at known
  · intro legal
    cases control with
    | fragmentRef name =>
      obtain ⟨free, known⟩ := legal name rfl
      exact read?_reference free known
    | placeholder => decide
    | repeatStart => decide
    | repeatEnd => decide
    | pack => decide

end ControlLine

/-! ## Headers of fragments -/

/-- How the header of a fragment is written: with a sign or without one. -/
inductive FragmentHeaderForm (name : String) : List Char → Prop
  | plain {tail : List Char} (free : ']' ∉ name.toList)
    (known : isFragmentName name.toList = true) (ends : endsLine tail = true) :
    FragmentHeaderForm name ("Fragment[".toList ++ (name.toList ++ ']' :: tail))
  | signed {blanks tail : List Char} (free : ']' ∉ name.toList)
    (known : isFragmentName name.toList = true) (blank : blanks.all isSpace = true)
    (ends : endsLine tail = true) :
    FragmentHeaderForm name
      ("+".toList ++ (blanks ++ ("Fragment[".toList ++ (name.toList ++ ']' :: tail))))

theorem readFragmentHeader?_eq_some_iff :
    readFragmentHeader? text = some name ↔ FragmentHeaderForm name text := by
  unfold readFragmentHeader?
  constructor
  · intro found
    obtain ⟨tail, split, free, known, ends⟩ := readFragmentName?_eq_some_iff.mp found
    cases signed : afterSign? "+" text with
    | none =>
      rw [signed, Option.getD_none] at split
      subst split
      exact .plain free known ends
    | some rest =>
      rw [signed, Option.getD_some] at split
      subst split
      obtain ⟨blanks, blank, rfl⟩ := exists_blanks_of_afterSign? signed
      exact .signed free known blank ends
  · intro form
    cases form with
    | @plain tail free known ends =>
      have unsigned : afterSign? "+" ("Fragment[".toList ++ (name.toList ++ ']' :: tail))
          = none := by
        simp [afterSign?, after?, afterChars?]
      rw [unsigned, Option.getD_none, readFragmentName?_append free known ends]
    | signed free known blank ends =>
      rw [afterSign?_append "+" blank (by simp [isSpace]), Option.getD_some,
        readFragmentName?_append free known ends]

/-- A header that is printed is read again, unless the name in it is none. -/
theorem readFragmentHeader?_render_iff :
    readFragmentHeader? ("Fragment[" ++ name ++ "]").toList = some name ↔
      ']' ∉ name.toList ∧ isFragmentName name.toList = true :=
  ⟨name_of_readFragmentHeader?, fun ⟨free, known⟩ => readFragmentHeader?_of_name free known⟩

/-! ## Headers of packets -/

namespace PacketHeader

/-- How the header of a packet is written. -/
inductive Written : PacketHeader → List Char → Prop
  | header {description : String} {bytes tail : List Char} (filled : description ≠ "")
    (free : ']' ∉ description.toList) (hex : isHexBytes bytes = true)
    (ends : endsLine tail = true) :
    Written ⟨description, upper (String.ofList bytes)⟩
      ("Packet[".toList ++ (description.toList ++ ']' :: ':' :: (bytes ++ tail)))

/-- The plainest way to write the header of a packet. -/
def render (header : PacketHeader) : String :=
  "Packet[" ++ header.description ++ "]:" ++ header.header

end PacketHeader

variable {header : PacketHeader}

theorem readPacketHeader?_eq_some_iff :
    readPacketHeader? text = some header ↔ header.Written text := by
  constructor
  · intro found
    unfold readPacketHeader? at found
    split at found
    · rename_i description rest split
      obtain ⟨inside, opened, closed⟩ := Option.bind_eq_some_iff.mp split
      obtain ⟨rfl, free⟩ := bracketed?_eq_some_iff.mp closed
      split at found
      · cases found
      · rename_i filled
        obtain ⟨bytes, read, rfl⟩ := Option.map_eq_some_iff.mp found
        obtain ⟨digits, tail, rfl, hex, ends, rfl⟩ := readPacketBytes?_eq_some_iff.mp read
        have written : String.ofList description ≠ "" := by simpa using filled
        have same : (String.ofList description).toList = description := String.toList_ofList
        have form := PacketHeader.Written.header written (by rwa [same]) hex ends
        rw [same] at form
        rwa [after?_eq_some_iff.mp opened]
    · cases found
  · intro written
    cases written with
    | @header description bytes tail filled free hex ends =>
      have some : ¬ description.toList.isEmpty = true := by simpa using filled
      have read : readPacketBytes? (bytes ++ tail) = .some (upper (String.ofList bytes)) :=
        readPacketBytes?_eq_some_iff.mpr ⟨bytes, tail, rfl, hex, ends, rfl⟩
      rw [readPacketHeader?, after?_append, Option.bind_some, bracketed?_append _ free]
      simp only [if_neg some, read, Option.map_some, String.ofList_toList]

theorem toList_upper (word : String) : (upper word).toList = word.toList.map Char.toUpper := by
  simp [upper]

/-- A header that is printed is read again just if it has a description and
bytes in capitals. -/
theorem readPacketHeader?_render_iff :
    readPacketHeader? header.render.toList = some header ↔
      header.description ≠ "" ∧ ']' ∉ header.description.toList ∧
        isHexBytes header.header.toList = true ∧ upper header.header = header.header := by
  have text : header.render.toList = "Packet[".toList
      ++ (header.description.toList ++ ']' :: ':' :: (header.header.toList ++ [])) := by
    simp [PacketHeader.render]
  rw [readPacketHeader?_eq_some_iff, text]
  constructor
  · intro written
    generalize whole : "Packet[".toList
      ++ (header.description.toList ++ ']' :: ':' :: (header.header.toList ++ [])) = all
      at written
    cases written with
    | @header description bytes tail filled free hex ends =>
      -- the bytes are as many as they are in capitals, so nothing follows them
      have rests : (upper (String.ofList bytes)).toList = bytes ++ tail := by
        simpa using whole
      have lengths := congrArg List.length rests
      rw [toList_upper, String.toList_ofList, List.length_map, List.length_append] at lengths
      obtain rfl : tail = [] := List.length_eq_zero_iff.mp (by omega)
      have same : upper (String.ofList bytes) = String.ofList bytes := by
        rw [← String.toList_inj, rests, List.append_nil, String.toList_ofList]
      exact ⟨filled, free, by rw [same, String.toList_ofList]; exact hex, by rw [same, same]⟩
  · rintro ⟨filled, free, hex, capital⟩
    have written := @PacketHeader.Written.header _ _ [] filled free hex rfl
    rwa [String.ofList_toList, capital] at written

/-! ## All of it -/

/-- What is recognised is what is written in the forms, and nothing else.

A text is read as a control line just if it is written as that one, and as
none just if it is written as none. The headers of fragments and packets are
recognised just in their forms. What is printed in the plainest way is read
again, for every name without white space and closing brackets, every
description without closing brackets and all bytes in capitals; other names,
descriptions and bytes are never read. And what is read is what the grammar
finds, with its choices ordered and its repetitions greedy. -/
theorem lines_recognised :
    (∀ text control, ControlLine.read? text = some control ↔ control.Written text) ∧
    (∀ text, ControlLine.read? text = none ↔ ∀ control : ControlLine, ¬ control.Written text) ∧
    (∀ text name, readFragmentHeader? text = some name ↔ FragmentHeaderForm name text) ∧
    (∀ text header, readPacketHeader? text = some header ↔ header.Written text) ∧
    (∀ control : ControlLine, ControlLine.read? control.render.toList = some control ↔
      ∀ name, control = .fragmentRef name →
        name ≠ "" ∧ ∀ c ∈ name.toList, c ≠ ']' ∧ isBlank c = false) ∧
    (∀ name : String, readFragmentHeader? ("Fragment[" ++ name ++ "]").toList = some name ↔
      name ≠ "" ∧ ∀ c ∈ name.toList, c ≠ ']' ∧ isBlank c = false) ∧
    (∀ header : PacketHeader, readPacketHeader? header.render.toList = some header ↔
      header.description ≠ "" ∧ ']' ∉ header.description.toList ∧
        isHexBytes header.header.toList = true ∧ upper header.header = header.header) ∧
    ∀ text,
      ControlLine.read? text = (LineRule.controlLine.whole? text).bind ControlLine.ofFound? ∧
      readFragmentHeader? text = (LineRule.fragmentHeader.whole? text).bind fragmentOfFound? ∧
      readPacketHeader? text
        = (LineRule.packetHeader.whole? text).bind PacketHeader.ofFound? := by
  have legal : ∀ name : String, ']' ∉ name.toList ∧ isFragmentName name.toList = true ↔
      name ≠ "" ∧ ∀ c ∈ name.toList, c ≠ ']' ∧ isBlank c = false := by
    intro name
    simp only [isFragmentName, Bool.and_eq_true, Bool.not_eq_true', List.isEmpty_eq_false_iff,
      List.any_eq_false, Bool.not_eq_true]
    constructor
    · rintro ⟨free, filled, dark⟩
      exact ⟨by simpa using filled, fun c mem => ⟨fun same => free (same ▸ mem), dark c mem⟩⟩
    · rintro ⟨filled, each⟩
      exact ⟨fun mem => (each _ mem).1 rfl, by simpa using filled, fun c mem => (each c mem).2⟩
  refine ⟨fun _ _ => ControlLine.read?_eq_some_iff, fun text => ?_,
    fun _ _ => readFragmentHeader?_eq_some_iff, fun _ _ => readPacketHeader?_eq_some_iff,
    fun control => ?_, fun name => ?_, fun _ => readPacketHeader?_render_iff,
    fun text => ⟨ControlLine.read?_eq_grammar text, readFragmentHeader?_eq_grammar text,
      readPacketHeader?_eq_grammar text⟩⟩
  · simp only [Option.eq_none_iff_forall_ne_some, ne_eq, ControlLine.read?_eq_some_iff]
  · simp only [ControlLine.read?_render_iff, legal]
  · rw [readFragmentHeader?_render_iff, legal]

/-- A word that goes on is no control line; a header that ends with a tab; a
name with a bracket in it, and half a byte. -/
theorem lines_recognised_samples :
    (∀ control : ControlLine, ¬ control.Written "packet".toList) ∧
    (⟨"Hop", "0A"⟩ : PacketHeader).Written "Packet[Hop]:0a\t".toList ∧
    readFragmentHeader? ("Fragment[" ++ "a]b" ++ "]").toList ≠ some "a]b" ∧
    readPacketHeader? (PacketHeader.render ⟨"Hop", "0"⟩).toList ≠ some ⟨"Hop", "0"⟩ := by
  obtain ⟨-, none, -, packets, -, names, headers, -⟩ := lines_recognised
  refine ⟨(none _).mp (by decide), (packets _ _).mp (by decide), ?_, ?_⟩
  · intro found
    have legal := ((names _).mp found).2 ']' (by decide)
    exact legal.1 rfl
  · intro found
    obtain ⟨-, -, half, -⟩ := (headers _).mp found
    exact absurd half (by decide)

end PacketLayout
