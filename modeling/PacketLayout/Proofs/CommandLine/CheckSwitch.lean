/-
PacketLayout.Proofs.CommandLine.CheckSwitch — one switch more.

The arguments are read from left to right into what has been given so far,
and `--check` looks at nothing but itself there. So `--check` in front of
arguments that do not ask for it changes neither how they are read nor
whether they can be: what is asked for is the same, and only to check.

* `Given.read_checked`: what is given is given with the switch too.
* `Request.ofArguments_check`: `--check` in front of the arguments.
* `Request.ofArguments_lawful`: so this reader is one that the command can
  rely on.
-/
import Mathlib.Tactic.SplitIfs
import PacketLayout.CommandLine.Arguments

namespace PacketLayout.CommandLine

theorem asksToCheck_cons {argument : String} {rest : List String}
    (lacks : asksToCheck (argument :: rest) = false) (option : argument ≠ "--") :
    argument ≠ "--check" ∧ asksToCheck rest = false := by
  have kept : (argument :: rest).takeWhile (· != "--") = argument :: rest.takeWhile (· != "--") :=
    List.takeWhile_cons_of_pos (by simpa using option)
  rw [asksToCheck, kept, List.contains_cons, Bool.or_eq_false_iff] at lacks
  exact ⟨fun same => by simp [same] at lacks, lacks.2⟩

/-! ## What is given -/

/-- The same, and only to check. -/
def Given.checked (given : Given) : Given :=
  { given with check := true }

/-- The same, and only to check. -/
def Step.checked : Step → Step
  | .given more => .given more.checked
  | .granted request => .granted request.checked

namespace Given

variable {given : Given}

theorem directory_checked (text : String) :
    given.checked.directory text = (given.directory text).map checked := by
  unfold directory checked
  dsimp only
  split_ifs <;> rfl

theorem directories_checked (texts : List String) :
    given.checked.directories texts = (given.directories texts).map checked := by
  induction texts generalizing given with
  | nil => rfl
  | cons text rest ih =>
    rw [directories, directories, directory_checked]
    cases given.directory text with
    | error fault => rfl
    | ok more => exact ih

theorem file_checked (name value : String) :
    given.checked.file name value = (given.file name value).map checked := by
  unfold file checked
  dsimp only
  split_ifs <;> rfl

theorem switch_checked (option : String) (present : Bool) (set : Given) :
    switch option present set.checked = (switch option present set).map Step.checked := by
  cases present <;> rfl

/-- The other options do not look at the switch. -/
theorem flag_checked {name : String} (other : name ≠ "check") :
    given.checked.flag name = (given.flag name).map Step.checked := by
  unfold flag
  split
  · exact switch_checked _ _ { given with pretty := true }
  · exact absurd rfl other
  · exact switch_checked _ _ { given with denyWarnings := true }
  · exact switch_checked _ _ { given with verbose := true }
  · rfl
  · rfl
  · rfl

theorem ofLetter_ne_check {letter : Char} {name : String} (h : ofLetter letter = some name) :
    name ≠ "check" := by
  unfold ofLetter at h
  split at h <;> cases h <;> decide

theorem letters_checked (letters : List Char) :
    given.checked.letters letters = (given.letters letters).map Step.checked := by
  induction letters generalizing given with
  | nil => rfl
  | cons letter rest ih =>
    rw [Given.letters, Given.letters]
    cases found : ofLetter letter with
    | none => rfl
    | some name =>
      dsimp only
      rw [flag_checked (ofLetter_ne_check found)]
      cases given.flag name with
      | error fault => rfl
      | ok step =>
        cases step with
        | given more => exact ih
        | granted request => rfl

end Given

/-! ## Arguments -/

/-- Only the switch has the form of the switch. -/
theorem Argument.eq_of_ofString_check {text : String}
    (h : Argument.ofString text = .long "check" none) : text = "--check" := by
  unfold ofString at h
  split at h
  · cases h
  · rename_i rest _ whole
    unfold ofLong at h
    dsimp only at h
    split at h
    · rename_i none
      have name : String.ofList (rest.takeWhile (· != '=')) = "check" := by simpa using h
      have all := List.takeWhile_append_dropWhile (p := (· != '=')) (l := rest)
      rw [none, List.append_nil] at all
      rw [all] at name
      have letters : rest = "check".toList := by
        rw [← name, String.toList_ofList]
      refine String.toList_inj.mp ?_
      rw [whole, letters]
      rfl
    · simp at h
  · cases h
  · cases h
  · cases h

/-- And only `--` ends the options. -/
theorem Argument.ne_of_ofString {text : String} (h : Argument.ofString text ≠ .terminator) :
    text ≠ "--" := by
  rintro rfl
  exact h rfl

/-- What is given is given with the switch too. -/
theorem Given.read_checked {given : Given} {waiting : Option String} {arguments : List String}
    (lacks : asksToCheck arguments = false) :
    given.checked.read waiting arguments = (given.read waiting arguments).map Step.checked := by
  induction arguments generalizing given waiting with
  | nil => cases waiting <;> rfl
  | cons argument rest ih =>
    unfold Given.read
    cases waiting with
    | some name =>
      cases form : Argument.ofString argument with
      | plain text =>
        have later := asksToCheck_cons lacks (Argument.ne_of_ofString (by simp [form]))
        dsimp only
        rw [file_checked]
        cases given.file name text with
        | error fault => rfl
        | ok more => exact ih later.2
      | _ => rfl
    | none =>
      cases form : Argument.ofString argument with
      | terminator =>
        dsimp only
        rw [directories_checked]
        cases given.directories rest <;> rfl
      | plain text =>
        have later := asksToCheck_cons lacks (Argument.ne_of_ofString (by simp [form]))
        dsimp only
        rw [directory_checked]
        cases given.directory text with
        | error fault => rfl
        | ok more => exact ih later.2
      | short letters =>
        have later := asksToCheck_cons lacks (Argument.ne_of_ofString (by simp [form]))
        dsimp only
        rw [letters_checked]
        cases given.letters letters with
        | error fault => rfl
        | ok step =>
          cases step with
          | given more => exact ih later.2
          | granted request => rfl
      | long name value =>
        have later := asksToCheck_cons lacks (Argument.ne_of_ofString (by simp [form]))
        cases value with
        | some text =>
          dsimp only
          rw [file_checked]
          split_ifs
          · cases given.file name text with
            | error fault => rfl
            | ok more => exact ih later.2
          · rfl
          · rfl
        | none =>
          have other : name ≠ "check" := by
            rintro rfl
            exact later.1 (Argument.eq_of_ofString_check form)
          dsimp only
          rw [flag_checked other]
          split_ifs
          · exact ih later.2
          · cases given.flag name with
            | error fault => rfl
            | ok step =>
              cases step with
              | given more => exact ih later.2
              | granted request => rfl

/-! ## Requests -/

theorem Given.complete_checked (given : Given) (environment : Environment) :
    given.checked.complete environment
      = (given.complete environment).map fun options => { options with check := true } := by
  unfold complete checked
  dsimp only
  split <;> rfl

/-- With `--check` in front of arguments that do not ask for it, the same
is asked for, and only to check. -/
theorem Request.ofArguments_check {arguments : List String} (environment : Environment)
    (lacks : asksToCheck arguments = false) :
    ofArguments ("--check" :: arguments) environment
      = (ofArguments arguments environment).map checked := by
  have first : Given.read {} none ("--check" :: arguments)
      = (Given.read {} none arguments).map Step.checked :=
    Given.read_checked lacks
  unfold ofArguments
  rw [first]
  cases Given.read {} none arguments with
  | error fault => rfl
  | ok step =>
    cases step with
    | granted request => rfl
    | given given =>
      change (given.checked.complete environment).map Request.run
        = ((given.complete environment).map Request.run).map checked
      rw [Given.complete_checked]
      cases given.complete environment <;> rfl

theorem Request.ofArguments_lawful : ArgumentReader.Lawful ofArguments where
  check_ok := by
    intro arguments environment request lacks asked
    rw [ofArguments_check environment lacks, asked]
    rfl
  check_error := by
    intro arguments environment fault lacks asked
    rw [ofArguments_check environment lacks, asked]
    exact ⟨fault, rfl⟩

end PacketLayout.CommandLine
