/-
PacketLayout.Proofs.FragmentNames — which fragments a body can refer to.

The header of a fragment and a reference to it share the form of a name:
characters that are no white space and no closing bracket. But a line of a
body is tried as a field line first, and what holds a colon has the form
of one. So a fragment with a colon in its name can be declared, and no
line refers to it.

* `readFragmentName?_eq_some_iff`: the texts that name a fragment.
* `ControlLine.Written`: how control lines are written.
* `BodyLine.read_control_iff`: a control line is read as one exactly if it
  has no colon.
* `BodyLine.reads_references`: the names that can be referred to are those
  that can be declared, but for the ones with a colon.
-/
import PacketLayout.BodyLine
import PacketLayout.DeclarationHeader

namespace PacketLayout

open Text

variable {text blanks : List Char} {name : String}

/-! ## Names -/

/-- The texts that name a fragment. -/
theorem readFragmentName?_eq_some_iff :
    readFragmentName? text = some name ↔
      ∃ tail, text = "Fragment[".toList ++ (name.toList ++ ']' :: tail) ∧ ']' ∉ name.toList ∧
        isFragmentName name.toList = true ∧ endsLine tail = true := by
  constructor
  · intro read
    unfold readFragmentName? at read
    split at read
    · rename_i inside tail found
      obtain ⟨rest, opened, closed⟩ := Option.bind_eq_some_iff.mp found
      obtain ⟨rfl, free⟩ := bracketed?_eq_some_iff.mp closed
      split at read
      · rename_i known
        have same : (String.ofList inside).toList = inside := String.toList_ofList
        rw [Bool.and_eq_true] at known
        cases read
        rw [same]
        exact ⟨tail, after?_eq_some_iff.mp opened, free, known⟩
      · cases read
    · cases read
  · rintro ⟨tail, rfl, free, known⟩
    rw [readFragmentName?, after?_append, Option.bind_some, bracketed?_append tail free]
    dsimp only
    rw [known.1, known.2]
    simp

/-- A sign, and the blanks behind it. -/
theorem exists_blanks_of_afterSign? {sign : String} {rest : List Char}
    (h : afterSign? sign text = some rest) :
    ∃ blanks, blanks.all isSpace = true ∧ text = sign.toList ++ (blanks ++ rest) := by
  obtain ⟨behind, signed, rfl⟩ := Option.map_eq_some_iff.mp h
  refine ⟨behind.takeWhile isSpace, List.all_takeWhile, ?_⟩
  rw [after?_eq_some_iff.mp signed, List.takeWhile_append_dropWhile]

theorem exists_tail_of_isLastWord {word : String} (h : isLastWord word text = true) :
    ∃ tail, text = word.toList ++ tail ∧ endsLine tail = true := by
  unfold isLastWord at h
  split at h
  · rename_i tail found
    exact ⟨tail, after?_eq_some_iff.mp found, h⟩
  · cases h

theorem colon_not_mem_blanks (h : blanks.all isSpace = true) : ':' ∉ blanks := fun mem =>
  absurd (List.all_eq_true.mp h ':' mem) (by decide)

/-- The header of a fragment has no sign if it starts with the word. -/
theorem readFragmentHeader?_bracketed (name : String) :
    readFragmentHeader? ("Fragment[" ++ name ++ "]").toList
      = readFragmentName? ("Fragment[" ++ name ++ "]").toList := by
  have unsigned : afterSign? "+" ("Fragment[" ++ name ++ "]").toList = none := by
    simp [afterSign?, after?, afterChars?]
  rw [readFragmentHeader?, unsigned, Option.getD_none]

/-- A name that stands in some header stands in the plain one. -/
theorem readFragmentHeader?_of_name (free : ']' ∉ name.toList)
    (known : isFragmentName name.toList = true) :
    readFragmentHeader? ("Fragment[" ++ name ++ "]").toList = some name := by
  rw [readFragmentHeader?_bracketed, readFragmentName?_eq_some_iff]
  exact ⟨[], by simp, free, known, rfl⟩

theorem name_of_readFragmentHeader? (h : readFragmentHeader? text = some name) :
    ']' ∉ name.toList ∧ isFragmentName name.toList = true := by
  obtain ⟨_, _, free, known, _⟩ := readFragmentName?_eq_some_iff.mp h
  exact ⟨free, known⟩

/-! ## Control lines -/

namespace ControlLine

/-- The control lines that are a sign and a word, with their signs and
words. -/
def signedWords : List (ControlLine × String × String) :=
  [(.placeholder, "+", "SubCate"), (.repeatStart, "+", "REP"), (.repeatEnd, "-", "REP")]

/-- How control lines are written. -/
inductive Written : ControlLine → List Char → Prop
  | reference {blanks tail : List Char} (name : String) (free : ']' ∉ name.toList)
    (known : isFragmentName name.toList = true) (blank : blanks.all isSpace = true)
    (ends : endsLine tail = true) :
    Written (.fragmentRef name)
      ("+".toList ++ (blanks ++ ("Fragment[".toList ++ (name.toList ++ ']' :: tail))))
  | signed {control : ControlLine} {sign word : String} {blanks tail : List Char}
    (known : (control, sign, word) ∈ signedWords) (blank : blanks.all isSpace = true)
    (ends : endsLine tail = true) :
    Written control (sign.toList ++ (blanks ++ (word.toList ++ tail)))
  | pack {tail : List Char} (ends : endsLine tail = true) : Written .pack ("pack".toList ++ tail)

variable {control : ControlLine}

theorem written_of_read? (h : read? text = some control) : Written control text := by
  unfold read? at h
  split at h
  · rename_i rest signed
    obtain ⟨blanks, blank, rfl⟩ := exists_blanks_of_afterSign? signed
    split at h
    · rename_i name named
      cases h
      obtain ⟨tail, rfl, free, known, ends⟩ := readFragmentName?_eq_some_iff.mp named
      exact .reference name free known blank ends
    · split at h
      · rename_i last
        cases h
        obtain ⟨tail, rfl, ends⟩ := exists_tail_of_isLastWord last
        exact .signed (by simp [signedWords]) blank ends
      · split at h
        · rename_i last
          cases h
          obtain ⟨tail, rfl, ends⟩ := exists_tail_of_isLastWord last
          exact .signed (by simp [signedWords]) blank ends
        · cases h
  · split at h
    · rename_i rest signed
      obtain ⟨blanks, blank, rfl⟩ := exists_blanks_of_afterSign? signed
      split at h
      · rename_i last
        cases h
        obtain ⟨tail, rfl, ends⟩ := exists_tail_of_isLastWord last
        exact .signed (by simp [signedWords]) blank ends
      · cases h
    · split at h
      · rename_i last
        cases h
        obtain ⟨tail, rfl, ends⟩ := exists_tail_of_isLastWord last
        exact .pack ends
      · cases h

/-- A control line starts neither like padding nor like a branch. -/
theorem Written.start (h : Written control text) :
    after? "pad-" text = none ∧ startsWith "SubCate[" text = false := by
  cases h with
  | reference => simp [startsWith, after?, afterChars?]
  | signed known =>
    simp only [signedWords, List.mem_cons, Prod.mk.injEq, List.not_mem_nil, or_false] at known
    rcases known with ⟨-, rfl, -⟩ | ⟨-, rfl, -⟩ | ⟨-, rfl, -⟩ <;>
      simp [startsWith, after?, afterChars?]
  | pack => simp [startsWith, after?, afterChars?]

/-- A colon in a control line is one in the name that it refers to. -/
theorem Written.colon (h : Written control text) :
    ':' ∈ text ↔ ∃ name : String, control = .fragmentRef name ∧ ':' ∈ name.toList := by
  cases h with
  | reference name _ _ blank ends =>
    have before := colon_not_mem_blanks blank
    have after := colon_not_mem_blanks ends
    simp [before, after]
  | signed known blank ends =>
    have before := colon_not_mem_blanks blank
    have after := colon_not_mem_blanks ends
    simp only [signedWords, List.mem_cons, Prod.mk.injEq, List.not_mem_nil, or_false] at known
    rcases known with ⟨rfl, rfl, rfl⟩ | ⟨rfl, rfl, rfl⟩ | ⟨rfl, rfl, rfl⟩ <;>
      simp [before, after]
  | pack ends =>
    have after := colon_not_mem_blanks ends
    simp [after]

/-- A reference to a name that can stand in a bracket. -/
theorem read?_reference (free : ']' ∉ name.toList) (known : isFragmentName name.toList = true) :
    read? ("+ Fragment[" ++ name ++ "]").toList = some (.fragmentRef name) := by
  have signed : afterSign? "+" ("+ Fragment[" ++ name ++ "]").toList
      = some ("Fragment[" ++ name ++ "]").toList := by
    simp [afterSign?, after?, afterChars?, isSpace]
  have named : readFragmentName? ("Fragment[" ++ name ++ "]").toList = some name :=
    readFragmentName?_eq_some_iff.mpr ⟨[], by simp, free, known, rfl⟩
  rw [read?, signed]
  dsimp only
  rw [named]

end ControlLine

/-! ## Lines of a body -/

/-- What holds a colon, and starts neither like padding nor like a branch,
is a field line or none that can be read. -/
theorem FieldLine.read_of_colon (pad : after? "pad-" text = none)
    (branch : startsWith "SubCate[" text = false) (colon : ':' ∈ text) :
    (∃ line, read text = .ok (some line)) ∨
      ∃ unit, read text = .error (.invalidToken unit) := by
  have parts : (pieces ':' text).2 ≠ [] := fun none =>
    pieces_snd_eq_nil_iff.mp none colon
  unfold read
  rw [pad, branch]
  dsimp only
  rw [if_neg (by simp)]
  split
  · rename_i none
    rw [none] at parts
    exact absurd rfl parts
  · rename_i first unit qualifiers _
    unfold readParts
    cases Token.read? (trim unit) with
    | none => exact .inr ⟨_, rfl⟩
    | some token => exact .inl ⟨_, rfl⟩

/-- Without a colon, it is no field line. -/
theorem FieldLine.read_of_no_colon (pad : after? "pad-" text = none)
    (branch : startsWith "SubCate[" text = false) (free : ':' ∉ text) :
    read text = .ok none := by
  unfold read
  rw [pad, branch, pieces_of_not_mem free]
  simp

namespace BodyLine

variable {control : ControlLine}

/-- A control line with a colon is taken for a field line. -/
theorem read_of_control_colon (h : ControlLine.read? text = some control) (colon : ':' ∈ text) :
    (∃ line, read text = .ok (.field line)) ∨
      ∃ unit, read text = .error (.invalidToken unit) := by
  obtain ⟨pad, branch⟩ := (ControlLine.written_of_read? h).start
  rcases FieldLine.read_of_colon pad branch colon with ⟨line, found⟩ | ⟨unit, failed⟩
  · exact .inl ⟨line, by rw [read, found]⟩
  · exact .inr ⟨unit, by rw [read, failed]⟩

/-- A control line is read as one exactly if it has no colon. -/
theorem read_control_iff (h : ControlLine.read? text = some control) :
    read text = .ok (.control control) ↔ ':' ∉ text := by
  constructor
  · intro found colon
    rcases read_of_control_colon h colon with ⟨line, other⟩ | ⟨unit, other⟩
    · simp [other] at found
    · simp [other] at found
  · intro free
    obtain ⟨pad, branch⟩ := (ControlLine.written_of_read? h).start
    rw [read, FieldLine.read_of_no_colon pad branch free]
    dsimp only
    rw [branch, h]
    simp

/-- Only a control line is read as one. -/
theorem read?_of_read_control (h : read text = .ok (.control control)) :
    ControlLine.read? text = some control := by
  unfold read at h
  split at h
  · cases h
  · cases h
  · split at h
    · cases header : BranchHeader.read text with
      | error cause => simp [header, Except.map] at h
      | ok found => simp [header, Except.map] at h
    · split at h
      · rename_i line found
        cases h
        exact found
      · cases h

/-- A line that is read as a control line gives no remarks. -/
theorem readAt_control_iff {σ : Type} {site : Site} {state : σ} :
    (readAt site : Job σ BodyLine) state = ⟨.ok (.control control), state, []⟩ ↔
      read site.raw.toList = .ok (.control control) := by
  unfold readAt
  cases found : read site.raw.toList with
  | error cause => simp [Job.fail]
  | ok line =>
    constructor
    · intro run
      have answer : (.ok line : Except Failure BodyLine) = .ok (.control control) :=
        congrArg Outcome.result run
      cases answer
      rfl
    · rintro same
      cases same
      rfl

/-- The fragments that a body can refer to are those that can be declared
under a name without a colon, and a reference to one of them is read
without a remark. Of all control lines, those without a colon are read as
such; the others are taken for field lines. -/
theorem reads_references :
    (∀ name : String, (∃ text, read text = .ok (.control (.fragmentRef name))) ↔
      (∃ text, readFragmentHeader? text = some name) ∧ ':' ∉ name.toList) ∧
    (∀ (name : String) (line : Nat) {σ : Type} (state : σ),
      readFragmentHeader? ("Fragment[" ++ name ++ "]").toList = some name →
      ((readAt ⟨line, "+ Fragment[" ++ name ++ "]"⟩ : Job σ BodyLine) state
          = ⟨.ok (.control (.fragmentRef name)), state, []⟩ ↔ ':' ∉ name.toList)) ∧
    ∀ text control, ControlLine.read? text = some control →
      (read text = .ok (.control control) ↔ ':' ∉ text) ∧
      (':' ∈ text → (∃ line, read text = .ok (.field line)) ∨
        ∃ unit, read text = .error (.invalidToken unit)) := by
  have plain : ∀ {name : String}, ']' ∉ name.toList → isFragmentName name.toList = true →
      (read ("+ Fragment[" ++ name ++ "]").toList = .ok (.control (.fragmentRef name)) ↔
        ':' ∉ name.toList) := by
    intro name free known
    rw [read_control_iff (ControlLine.read?_reference free known)]
    simp
  refine ⟨fun name => ⟨?_, ?_⟩, fun name line σ state header => ?_,
    fun text control found => ⟨read_control_iff found, read_of_control_colon found⟩⟩
  · rintro ⟨text, found⟩
    have control := read?_of_read_control found
    have written := ControlLine.written_of_read? control
    have colon := mt written.colon.mpr ((read_control_iff control).mp found)
    cases written with
    | reference _ free known => exact ⟨⟨_, readFragmentHeader?_of_name free known⟩,
        fun mem => colon ⟨name, rfl, mem⟩⟩
    | signed known => simp [ControlLine.signedWords] at known
  · rintro ⟨⟨text, header⟩, colon⟩
    obtain ⟨free, known⟩ := name_of_readFragmentHeader? header
    exact ⟨_, (plain free known).mpr colon⟩
  · obtain ⟨free, known⟩ := name_of_readFragmentHeader? header
    rw [readAt_control_iff]
    exact plain free known

/-- The fragment `a/b` is referred to, and a repeated group is begun. -/
theorem reads_references_samples :
    readFragmentHeader? "Fragment[a/b]".toList = some "a/b" ∧
    (readAt ⟨3, "+ Fragment[a/b]"⟩ : Job Nat BodyLine) 0
      = ⟨.ok (.control (.fragmentRef "a/b")), 0, []⟩ ∧
    ControlLine.read? "+\tREP ".toList = some .repeatStart ∧
    read "+\tREP ".toList = .ok (.control .repeatStart) ∧
    ControlLine.read? "+ Fragment[a:$1]".toList = some (.fragmentRef "a:$1") ∧
    ((∃ line, read "+ Fragment[a:$1]".toList = .ok (.field line)) ∨
      ∃ unit, read "+ Fragment[a:$1]".toList = .error (.invalidToken unit)) := by
  have header : readFragmentHeader? "Fragment[a/b]".toList = some "a/b" := by decide
  have group : ControlLine.read? "+\tREP ".toList = some .repeatStart := by decide
  have reference : ControlLine.read? "+ Fragment[a:$1]".toList = some (.fragmentRef "a:$1") := by
    decide
  obtain ⟨_, named, controls⟩ := reads_references
  exact ⟨header, (named "a/b" 3 0 header).mpr (by decide), group,
    (controls _ _ group).1.mpr (by decide), reference, (controls _ _ reference).2 (by decide)⟩

/-- The header of the fragment `a:b` and a reference to it are well written.
In a body the reference is taken for a field line whose unit is `b]`. -/
theorem reference_unread :
    readFragmentHeader? "Fragment[a:b]".toList = some "a:b" ∧
    ControlLine.read? "+ Fragment[a:b]".toList = some (.fragmentRef "a:b") ∧
    read "+ Fragment[a:b]".toList = .error (.invalidToken "b]") :=
  ⟨by decide, by decide, rfl⟩

end BodyLine

end PacketLayout
