/-
PacketLayout.Proofs.Renumbering.Assembly — packets under other line
numbers.

An `Assembly` is the one answer of compiling that has line numbers in it:
it remembers the placeholder, the group that is open, and the headers of
the branches. Assemblies that are the same up to a renumbering stay so
with every line, and in the end they give equal signatures.

* `SameAssembly.addLine`: one line of a packet.
* `SameAssembly.finish`: the end of a packet.
-/
import PacketLayout.Assembly
import PacketLayout.Proofs.Renumbering.Expansion

namespace PacketLayout

namespace Renumbering

variable {numbers : Renumbering} {σ : Type} {site other : Site}

/-! ## What has been collected of a packet -/

structure SameBranch (numbers : Renumbering) (branch branch' : Branch) : Prop where
  description : branch.description = branch'.description
  site : numbers.SameSite branch.site branch'.site
  signature : branch.signature = branch'.signature
  fields : branch.fields = branch'.fields

structure SameAssembly (numbers : Renumbering) (made made' : Assembly) : Prop where
  placeholder : Option.Rel numbers.pairs made.placeholder made'.placeholder
  packed : made.packed = made'.packed
  openRepeat : Option.Rel numbers.SameSite made.openRepeat made'.openRepeat
  main : made.main = made'.main
  before : made.before = made'.before
  after : made.after = made'.after
  branches : List.Forall₂ numbers.SameBranch made.branches made'.branches
  current : Option.Rel numbers.SameBranch made.current made'.current
  descriptions : made.descriptions = made'.descriptions
  discriminators : made.discriminators = made'.discriminators

/-- A step that may fail. -/
abbrev SameStep (numbers : Renumbering) :
    Except Failure Assembly → Except Failure Assembly → Prop :=
  Job.ResultsAlike numbers.SameFailure numbers.SameAssembly

theorem SameBranch.add {branch branch' : Branch} (h : numbers.SameBranch branch branch')
    (token : Token) (field : Field) :
    numbers.SameBranch (branch.add token field) (branch'.add token field) where
  description := h.description
  site := h.site
  signature := by simp only [Branch.add, h.signature]
  fields := by simp only [Branch.add, h.fields]

namespace SameAssembly

variable {made made' : Assembly}

theorem start : numbers.SameAssembly {} {} where
  placeholder := .none
  packed := rfl
  openRepeat := .none
  main := rfl
  before := rfl
  after := rfl
  branches := .nil
  current := .none
  descriptions := rfl
  discriminators := rfl

theorem outside (h : numbers.SameAssembly made made') : made.outside = made'.outside := by
  have opened := optionRel_isSome h.current
  rw [Assembly.outside, Assembly.outside, h.packed, ← Option.not_isSome, ← Option.not_isSome,
    opened]

theorem add (h : numbers.SameAssembly made made') (token : Token) (field : Field) :
    numbers.SameAssembly (made.add token field) (made'.add token field) := by
  unfold Assembly.add
  rcases optionRel_cases h.current with ⟨one, two⟩ | ⟨branch, branch', one, two, same⟩
  · simp only [one, two, ← optionRel_isSome h.placeholder]
    split
    · exact { h with main := by rw [h.main], after := by rw [h.after], current := .none }
    · exact { h with main := by rw [h.main], before := by rw [h.before], current := .none }
  · simp only [one, two]
    exact { h with current := .some (same.add token field) }

theorem splice (h : numbers.SameAssembly made made') (expansion : Expansion) :
    numbers.SameAssembly (made.splice expansion) (made'.splice expansion) := by
  unfold Assembly.splice
  exact { h with main := by rw [h.main], before := by rw [h.before] }

theorem addPlaceholder (h : numbers.SameAssembly made made')
    (here : numbers.SameSite site other) :
    numbers.SameStep (made.addPlaceholder site) (made'.addPlaceholder other) := by
  unfold Assembly.addPlaceholder
  simp only [← optionRel_isSome h.placeholder, ← optionRel_isSome h.current, ← h.packed]
  split
  · exact .error (here.blame _)
  · split
    · exact .error (here.blame _)
    · exact .ok { h with
        main := by rw [h.main]
        packed := rfl
        placeholder := .some here.line }

theorem pack (h : numbers.SameAssembly made made') :
    numbers.SameStep made.pack made'.pack := by
  have packed : numbers.SameAssembly { made with packed := true } { made' with packed := true } :=
    { h with packed := rfl }
  unfold Assembly.pack
  rcases optionRel_cases h.current with ⟨one, two⟩ | ⟨branch, branch', one, two, _⟩
  · rcases optionRel_cases h.openRepeat with ⟨free, free'⟩ | ⟨opened, opened', there, there', same⟩
    · simp only [one, two, free, free'] at packed ⊢
      exact .ok packed
    · simp only [one, two, there, there']
      exact .error (same.blame _)
  · simp only [one, two] at packed ⊢
    exact .ok packed

theorem startRepeat (h : numbers.SameAssembly made made') (here : numbers.SameSite site other) :
    numbers.SameStep (made.startRepeat site) (made'.startRepeat other) := by
  unfold Assembly.startRepeat
  simp only [← optionRel_isSome h.openRepeat, ← h.outside]
  split
  · exact .error (here.blame _)
  · split
    · exact .error (here.blame _)
    · exact .ok { h.add .repeatStart .placeholder with openRepeat := .some here }

theorem endRepeat (h : numbers.SameAssembly made made') (here : numbers.SameSite site other) :
    numbers.SameStep (made.endRepeat site) (made'.endRepeat other) := by
  unfold Assembly.endRepeat
  simp only [← Option.not_isSome, ← optionRel_isSome h.openRepeat, ← h.outside]
  split
  · exact .error (here.blame _)
  · split
    · exact .error (here.blame _)
    · exact .ok { h.add .repeatEnd .placeholder with openRepeat := .none }

/-! ## Branches -/

theorem signatures (h : numbers.SameAssembly made made') :
    made.branches.map Branch.signature = made'.branches.map Branch.signature := by
  rw [← List.forall₂_eq_eq_eq, List.forall₂_map_left_iff, List.forall₂_map_right_iff]
  exact h.branches.imp fun _ _ same => same.signature

/-- A signature is taken by a branch of the one if it is by a branch of
the other. -/
theorem taken (h : numbers.SameAssembly made made') (key : String) :
    (made.branches.any fun other => other.signature.render == key)
      = made'.branches.any fun other => other.signature.render == key := by
  have same := congrArg (List.any · fun signature => signature.render == key) h.signatures
  rwa [List.any_map, List.any_map] at same

theorem closeBranch (h : numbers.SameAssembly made made') :
    numbers.SameJob numbers.SameAssembly (made.closeBranch : Job σ Assembly)
      made'.closeBranch := by
  unfold Assembly.closeBranch
  rcases optionRel_cases h.current with ⟨one, two⟩ | ⟨branch, branch', one, two, same⟩
  · simp only [one, two]
    exact Job.alike_pure h
  · simp only [one, two, ← same.signature]
    split
    · rw [← same.site.raw]
      refine (Job.alike_report (.cons (sameEntry_warning same.site.line _ _) .nil)).bind
        fun _ _ _ => Job.alike_pure ?_
      exact { h with current := .none }
    · rw [← h.taken]
      split
      · exact Job.alike_fail (same.site.blame _)
      · refine Job.alike_pure ?_
        exact { h with current := .none, branches := List.rel_append h.branches (.cons same .nil) }

theorem noteDescription (h : numbers.SameAssembly made made')
    (here : numbers.SameSite site other) (description : String) :
    numbers.SameStep (made.noteDescription description site)
      (made'.noteDescription description other) := by
  unfold Assembly.noteDescription
  rw [← h.descriptions]
  split
  · exact .ok h
  · split
    · exact .error (here.blame _)
    · exact .ok { h with descriptions := rfl }

theorem startBranch (h : numbers.SameAssembly made made') {branch branch' : Branch}
    (same : numbers.SameBranch branch branch') (discriminator : Option String) :
    numbers.SameStep (made.startBranch branch discriminator)
      (made'.startBranch branch' discriminator) := by
  unfold Assembly.startBranch
  cases discriminator with
  | none => exact .ok { h with current := .some same }
  | some bytes =>
    simp only [← h.discriminators]
    split
    · exact .error (same.site.blame _)
    · exact .ok { h with
        discriminators := rfl
        current := .some (same.add (.hex bytes) .discriminator) }

theorem openBranch (h : numbers.SameAssembly made made') (here : numbers.SameSite site other)
    (header : BranchHeader) :
    numbers.SameJob numbers.SameAssembly (made.openBranch header site : Job σ Assembly)
      (made'.openBranch header other) := by
  unfold Assembly.openBranch
  rcases optionRel_cases h.openRepeat with ⟨one, two⟩ | ⟨opened, opened', one, two, same⟩
  · simp only [one, two]
    refine h.closeBranch.bind fun closed closed' h => ?_
    refine (Job.alike_ofExcept (h.noteDescription here _)).bind fun noted noted' h => ?_
    have branch : numbers.SameBranch { description := header.description, site }
        { description := header.description, site := other } := ⟨rfl, here, rfl, rfl⟩
    refine (Job.alike_ofExcept (h.startBranch branch _)).bind fun started started' h => ?_
    refine (Job.alike_report (.cons (sameEntry_info here.line _) .nil)).bind fun _ _ _ => ?_
    exact Job.alike_pure h
  · simp only [one, two]
    exact Job.alike_fail (same.blame _)

/-! ## All lines of a packet -/

theorem addLine {resolve resolve' : String → Site → Job σ Expansion}
    (resolves : numbers.SameResolution resolve resolve') (h : numbers.SameAssembly made made')
    (here : numbers.SameSite site other) :
    numbers.SameJob numbers.SameAssembly (made.addLine resolve site)
      (made'.addLine resolve' other) := by
  unfold Assembly.addLine
  refine (readAt_same here).bind ?_
  rintro line _ rfl
  cases line with
  | field line => exact Job.alike_pure (h.add _ _)
  | branch header => exact h.openBranch here header
  | unrecognized => exact Job.alike_fail (here.blame _)
  | control line =>
    cases line with
    | fragmentRef name =>
      refine (resolves name site other here).bind ?_
      rintro expansion _ rfl
      exact Job.alike_pure (h.splice expansion)
    | placeholder => exact Job.alike_ofExcept (h.addPlaceholder here)
    | repeatStart => exact Job.alike_ofExcept (h.startRepeat here)
    | repeatEnd => exact Job.alike_ofExcept (h.endRepeat here)
    | pack => exact Job.alike_ofExcept h.pack

theorem branchEntries (h : numbers.SameAssembly made made') :
    made.branchEntries = made'.branchEntries := by
  unfold Assembly.branchEntries
  refine List.rel_foldl (fun set set' same branch branch' alike => ?_) rfl h.branches
  have entry : made.entry branch = made'.entry branch' := by
    simp only [Assembly.entry, h.main, h.before, h.after, alike.signature, alike.description,
      alike.fields]
  rw [same, entry]

theorem ignoredBranches (h : numbers.SameAssembly made made') :
    List.Forall₂ numbers.SameEntry made.ignoredBranches made'.ignoredBranches := by
  unfold Assembly.ignoredBranches
  rcases optionRel_cases h.current with ⟨one, two⟩ | ⟨branch, branch', one, two, same⟩
  · simp only [one, two]
    exact .nil
  · simp only [one, two, ← same.site.raw]
    exact .cons (sameEntry_warning same.site.line _ _) .nil

theorem missingBranches (h : numbers.SameAssembly made made') {line line' : Nat}
    (pair : numbers.pairs line line') :
    List.Forall₂ numbers.SameEntry (made.missingBranches line) (made'.missingBranches line') := by
  have blank : made.branches.isEmpty = made'.branches.isEmpty := by
    have same := congrArg List.isEmpty h.signatures
    simpa only [List.isEmpty_map] using same
  unfold Assembly.missingBranches
  rw [← blank]
  split
  · exact .cons (sameEntry_warning pair _ _) .nil
  · exact .nil

theorem finish (h : numbers.SameAssembly made made') :
    numbers.SameJob Eq (made.finish : Job σ SignatureSet) made'.finish := by
  unfold Assembly.finish
  rcases optionRel_cases h.openRepeat with ⟨one, two⟩ | ⟨opened, opened', one, two, same⟩
  · rcases optionRel_cases h.placeholder with
      ⟨absent, absent'⟩ | ⟨line, line', marked, marked', pair⟩
    · simp only [one, two, absent, absent']
      refine (Job.alike_report h.ignoredBranches).bind fun _ _ _ => Job.alike_pure ?_
      rw [Assembly.mainEntry, Assembly.mainEntry, h.main, h.before]
    · simp only [one, two, marked, marked']
      refine h.closeBranch.bind fun closed closed' h => ?_
      refine (Job.alike_report (h.missingBranches pair)).bind fun _ _ _ => ?_
      exact Job.alike_pure h.branchEntries
  · simp only [one, two]
    exact Job.alike_fail (same.blame _)

end SameAssembly

end Renumbering

end PacketLayout
