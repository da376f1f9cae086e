/-
PacketLayout.Proofs.Expansion.Keeping — kept expansions change nothing.

What a resolution does to the kept expansions is said once, by `Grown`:
it keeps one expansion after another, and each is made of the lines of
its fragment with what was kept by then. So the kept expansions stand in
an order in which every fragment comes behind those it refers to, and an
induction along that order shows that each of them is what `expandGiven`
finds, on every path that meets none of the names kept since.

* `Grown.expandGiven_eq_ok`: what is kept is what would be found.
* `Grown.expandGiven_same`: keeping changes nothing of what is found, nor
  of what fails.
* `resolve_ends`: a resolution comes to what `expandGiven` finds, and
  whatever it keeps on the way, also if it fails, it keeps by `Grown`.
-/
import PacketLayout.Proofs.Expansion.Afresh
import PacketLayout.Proofs.JobRules

namespace PacketLayout

/-- What is kept for a declared fragment. -/
def remembered (fragments : OrderedMap Fragment) (known : Expansions) (name : String)
    (site : Site) : Except Failure Expansion :=
  match fragments.get? name, known.get? name with
  | some _, some expansion => .ok expansion
  | _, _ => .error ((Cause.undeclaredFragment name).atSite site)

theorem remembered_eq_ok_iff {fragments : OrderedMap Fragment} {known : Expansions}
    {name : String} {site : Site} {expansion : Expansion} :
    remembered fragments known name site = .ok expansion ↔
      (∃ fragment, fragments.get? name = some fragment) ∧ known.get? name = some expansion := by
  unfold remembered
  cases fragments.get? name with
  | none => simp
  | some fragment => cases known.get? name <;> simp

/-! ## What a resolution does to the kept expansions -/

/-- `known` comes from `given` by keeping expansions, one after another:
each is new, and is made of the lines of a fragment nobody else is
building, with what was kept by then. -/
inductive Grown (fragments : OrderedMap Fragment) (given : Expansions) : Expansions → Prop
  | refl : Grown fragments given given
  | keep {known : Expansions} {name : String} {fragment : Fragment} {expansion : Expansion}
      (before : Grown fragments given known) (new : known.get? name = none)
      (declared : fragments.get? name = some fragment) (idle : fragment.busy = false)
      (made : Expansion.ofLines (remembered fragments known) fragment.body.lines = .ok expansion) :
      Grown fragments given (known.insert name expansion)

namespace Grown

variable {fragments : OrderedMap Fragment} {given known later : Expansions}

theorem trans (first : Grown fragments given known) (second : Grown fragments known later) :
    Grown fragments given later := by
  induction second with
  | refl => exact first
  | keep _ new declared idle made ih => exact .keep ih new declared idle made

/-- What has been kept stays. -/
theorem get?_mono (grown : Grown fragments given known) {name : String}
    {expansion : Expansion} (h : given.get? name = some expansion) :
    known.get? name = some expansion := by
  induction grown with
  | refl => exact h
  | keep _ new _ _ _ ih =>
    rw [OrderedMap.get?_insert]
    split
    · rename_i same
      rw [← same, ih] at new
      cases new
    · exact ih

theorem remembered_mono (grown : Grown fragments given known) {name : String} {site place : Site}
    {expansion : Expansion} (h : remembered fragments given name site = .ok expansion) :
    remembered fragments known name place = .ok expansion := by
  obtain ⟨declared, kept⟩ := remembered_eq_ok_iff.mp h
  exact remembered_eq_ok_iff.mpr ⟨declared, grown.get?_mono kept⟩

theorem get?_eq_none (grown : Grown fragments given known) {name : String}
    (h : known.get? name = none) : given.get? name = none := by
  cases kept : given.get? name with
  | none => rfl
  | some expansion => rw [grown.get?_mono kept] at h; cases h

/-- What is kept for a declared fragment is what would be found, on every
path that meets none of the names kept since. -/
theorem expandGiven_eq_ok (grown : Grown fragments given known) {path : List String}
    (free : ∀ outer ∈ path, known.get? outer ≠ none → given.get? outer ≠ none)
    {name : String} {site : Site} {expansion : Expansion}
    (kept : remembered fragments known name site = .ok expansion) :
    expandGiven given fragments path name site = .ok expansion := by
  induction grown generalizing path name site expansion with
  | refl =>
    obtain ⟨⟨fragment, declared⟩, found⟩ := remembered_eq_ok_iff.mp kept
    simp only [expandGiven_eq, declared, found]
  | @keep known newest fragment whole before new declared idle made ih =>
    have inherited : ∀ outer ∈ path, known.get? outer ≠ none → given.get? outer ≠ none := by
      intro outer mem old
      refine free outer mem ?_
      rw [OrderedMap.get?_insert]
      split
      · simp
      · exact old
    obtain ⟨known', found⟩ := remembered_eq_ok_iff.mp kept
    rw [OrderedMap.get?_insert] at found
    split at found
    · -- the newest one: its lines only refer to what was kept before it
      rename_i same
      obtain rfl : whole = expansion := by simpa using found
      subst same
      have notGiven := before.get?_eq_none new
      have off : name ∉ path := fun mem =>
        free name mem (by simp [OrderedMap.get?_insert]) notGiven
      have longer : ∀ outer ∈ path ++ [name],
          known.get? outer ≠ none → given.get? outer ≠ none := by
        intro outer mem old
        rcases List.mem_append.mp mem with mem | mem
        · exact inherited outer mem old
        · obtain rfl : outer = name := by simpa using mem
          exact absurd new old
      have lines : Expansion.ofLines (expandGiven given fragments (path ++ [name]))
          fragment.body.lines = .ok whole :=
        Expansion.ofLines_imp (fun _ _ _ _ h => ih longer h) made
      simp only [expandGiven_eq, declared, notGiven, idle, Bool.false_eq_true, or_false,
        if_neg off, lines]
    · exact ih inherited (remembered_eq_ok_iff.mpr ⟨known', found⟩)

/-- What has been kept since changes nothing: the same is found, and the
same failure, on every path that meets none of the names kept since. -/
theorem expandGiven_same (grown : Grown fragments given known) {path : List String}
    (free : ∀ outer ∈ path, known.get? outer ≠ none → given.get? outer ≠ none) :
    expandGiven known fragments path = expandGiven given fragments path := by
  induction path using offPath_induction fragments.keys with
  | step path ih =>
    funext name site
    cases declared : fragments.get? name with
    | none => simp only [expandGiven_eq, declared]
    | some fragment =>
      cases kept : known.get? name with
      | some expansion =>
        have here : remembered fragments known name site = .ok expansion :=
          remembered_eq_ok_iff.mpr ⟨⟨fragment, declared⟩, kept⟩
        rw [grown.expandGiven_eq_ok free here]
        simp only [expandGiven_eq, declared, kept]
      | none =>
        have notGiven := grown.get?_eq_none kept
        by_cases again : name ∈ path ∨ fragment.busy = true
        · simp only [expandGiven_eq, declared, kept, notGiven, if_pos again]
        · have off : name ∉ path := fun mem => again (.inl mem)
          have longer : ∀ outer ∈ path ++ [name],
              known.get? outer ≠ none → given.get? outer ≠ none := by
            intro outer mem old
            rcases List.mem_append.mp mem with mem | mem
            · exact free outer mem old
            · obtain rfl : outer = name := by simpa using mem
              exact absurd kept old
          simp only [expandGiven_eq _ _ path, declared, kept, notGiven, if_neg again,
            ih name (OrderedMap.mem_keys_of_get? declared) off longer]

end Grown

/-! ## Resolution -/

theorem resolve_eq (fragments : OrderedMap Fragment) (path : List String) (name : String)
    (site : Site) :
    resolve fragments path name site
      = (match fragments.get? name with
        | none => Job.fail ((Cause.undeclaredFragment name).atSite site)
        | some fragment => do
          let known ← Job.get
          match known.get? name with
          | some expansion => pure expansion
          | none =>
            if name ∈ path ∨ fragment.busy = true then
              Job.fail ((Cause.fragmentCycle name (path ++ [name])).atSite site)
            else do
              Job.report [.info fragment.line (.fragmentStarted name)]
              let expansion ← fragment.body.lines.foldlM
                (Expansion.addLine (resolve fragments (path ++ [name]))) {}
              Job.report [.trace (.fragmentBuilt name expansion.signature.render)]
              let found ← Job.get
              Job.set (found.insert name expansion)
              pure expansion) := by
  rw [resolve]
  split
  · rename_i declared
    rw [declared]
  · rename_i fragment declared
    rw [declared]
    rfl

/-- What a resolution along `path` comes to, from the kept expansions
`known` to `after`: `find` says what is looked for, and `finish` what is
done with it. -/
structure Resolved (fragments : OrderedMap Fragment) (path : List String)
    (find : (String → Site → Except Failure Expansion) → Except Failure Expansion)
    (finish : Expansion → Expansion) (given known : Expansions)
    (found : Except Failure Expansion) (after : Expansions) : Prop where
  found : found = (find (expandGiven given fragments path)).map finish
  grown : Grown fragments known after
  /-- The names on the path are still being built. -/
  free : ∀ outer ∈ path, after.get? outer = none
  /-- All that was needed has been kept. -/
  kept : ∀ expansion, find (expandGiven given fragments path) = .ok expansion →
    find (remembered fragments after) = .ok expansion

namespace Resolved

variable {fragments : OrderedMap Fragment} {path : List String}
  {find : (String → Site → Except Failure Expansion) → Except Failure Expansion}
  {finish : Expansion → Expansion} {given known after : Expansions}

/-- Where no fragment is referred to, nothing is kept. -/
theorem still (free : ∀ outer ∈ path, known.get? outer = none)
    {result : Except Failure Expansion} (same : ∀ expand, find expand = result) :
    Resolved fragments path find finish given known (result.map finish) known :=
  ⟨by rw [same], .refl, free, fun expansion h => by rw [same] at h ⊢; exact h⟩

/-- What fails needs nothing kept. -/
theorem failed (grown : Grown fragments known after)
    (free : ∀ outer ∈ path, after.get? outer = none) {failure : Failure}
    (h : find (expandGiven given fragments path) = .error failure) :
    Resolved fragments path find finish given known (.error failure) after :=
  ⟨by rw [h]; rfl, grown, free, fun expansion found => by rw [h] at found; cases found⟩

/-- A failure is the one that is looked for. -/
theorem error_eq {failure : Failure}
    (h : Resolved fragments path find finish given known (.error failure) after) :
    find (expandGiven given fragments path) = .error failure := by
  have same := h.found
  cases found : find (expandGiven given fragments path) with
  | error other =>
    rw [found] at same
    cases same
    rfl
  | ok expansion =>
    rw [found] at same
    cases same

end Resolved

section Lines

variable {fragments : OrderedMap Fragment} {path : List String} {given : Expansions}

/-- A line of a fragment, where references along `path` are resolved as
they should be. -/
theorem addLine_ends
    (resolves : ∀ name site known, Grown fragments given known →
      (∀ outer ∈ path, known.get? outer = none) →
      (resolve fragments path name site).Ends known fun found after _ =>
        Resolved fragments path (fun expand => expand name site) id given known found after)
    (made : Expansion) (site : Site) {known : Expansions} (grown : Grown fragments given known)
    (free : ∀ outer ∈ path, known.get? outer = none) :
    (Expansion.addLine (resolve fragments path) made site).Ends known fun found after _ =>
      Resolved fragments path (fun expand => Expansion.ofLine expand site) made.append
        given known found after := by
  unfold Expansion.addLine BodyLine.readAt Expansion.ofLine
  cases BodyLine.read site.raw.toList with
  | error cause => exact .still free fun _ => rfl
  | ok line =>
    simp only [Job.ends_bind, Job.ends_report, Job.ends_pure]
    cases line with
    | field line => exact .still free fun _ => rfl
    | branch header => exact .still free fun _ => rfl
    | unrecognized => exact .still free fun _ => rfl
    | control line =>
      cases line with
      | fragmentRef name =>
        simp only [Job.ends_bind]
        refine (resolves name site known grown free).imp fun found after _ resolved => ?_
        obtain ⟨same, more, still, kept⟩ := resolved
        cases find : expandGiven given fragments path name site with
        | error failure =>
          rw [find] at same
          subst same
          exact .failed more still find
        | ok expansion =>
          rw [find] at same
          subst same
          exact ⟨by rw [find]; rfl, more, still, kept⟩
      | repeatStart => exact .still free fun _ => rfl
      | repeatEnd => exact .still free fun _ => rfl
      | placeholder => exact .still free fun _ => rfl
      | pack => exact .still free fun _ => rfl

/-- The lines of a fragment, one after another. -/
theorem foldlM_addLine_ends
    (resolves : ∀ name site known, Grown fragments given known →
      (∀ outer ∈ path, known.get? outer = none) →
      (resolve fragments path name site).Ends known fun found after _ =>
        Resolved fragments path (fun expand => expand name site) id given known found after)
    (lines : List Site) (made : Expansion) {known : Expansions}
    (grown : Grown fragments given known) (free : ∀ outer ∈ path, known.get? outer = none) :
    (lines.foldlM (Expansion.addLine (resolve fragments path)) made).Ends known
      fun found after _ =>
        Resolved fragments path (fun expand => Expansion.ofLines expand lines) made.append
          given known found after := by
  induction lines generalizing made known with
  | nil =>
    refine ⟨?_, .refl, free, fun _ h => h⟩
    simp [Except.map]
  | cons site rest ih =>
    rw [List.foldlM_cons, Job.ends_bind]
    refine (addLine_ends resolves made site grown free).imp fun found middle _ first => ?_
    obtain ⟨same, more, still, kept⟩ := first
    cases piece : Expansion.ofLine (expandGiven given fragments path) site with
    | error failure =>
      rw [piece] at same
      subst same
      exact .failed more still (Expansion.ofLines_cons_error piece)
    | ok part =>
      rw [piece] at same
      subst same
      refine (ih (made.append part) (grown.trans more) still).imp fun found after _ later => ?_
      obtain ⟨same, evenMore, stillFree, keptRest⟩ := later
      have keptPart : Expansion.ofLine (remembered fragments after) site = .ok part :=
        Expansion.ofLine_imp (fun _ _ h => evenMore.remembered_mono h) (kept part piece)
      refine ⟨?_, more.trans evenMore, stillFree, ?_⟩
      · rw [same, Expansion.ofLines_cons_ok piece]
        cases Expansion.ofLines (expandGiven given fragments path) rest with
        | error failure => rfl
        | ok others => simp [Except.map, Expansion.append_assoc]
      · intro expansion h
        obtain ⟨_, others, samePart, laterFound, rfl⟩ := Expansion.ofLines_cons_eq_ok h
        obtain rfl : part = _ := by simpa [piece] using samePart
        rw [Expansion.ofLines_cons_ok keptPart, keptRest others laterFound]
        rfl

end Lines

namespace Resolved

variable {fragments : OrderedMap Fragment} {path : List String} {given known after : Expansions}
  {name : String} {site : Site} {fragment : Fragment} {expansion : Expansion}

/-- What is kept already is found without anything new being kept. -/
theorem ofKept (grown : Grown fragments given known)
    (free : ∀ outer ∈ path, known.get? outer = none)
    (declared : fragments.get? name = some fragment) (old : known.get? name = some expansion) :
    Resolved fragments path (fun expand => expand name site) id given known (.ok expansion)
      known := by
  have kept : remembered fragments known name site = .ok expansion :=
    remembered_eq_ok_iff.mpr ⟨⟨fragment, declared⟩, old⟩
  have found : expandGiven given fragments path name site = .ok expansion :=
    grown.expandGiven_eq_ok (fun outer mem some => absurd (free outer mem) some) kept
  refine ⟨by rw [found]; rfl, .refl, free, fun other h => ?_⟩
  rw [found] at h
  cases h
  exact kept

/-- What has been built of the lines of a fragment is kept under its
name. -/
theorem built
    (lines : Resolved fragments (path ++ [name])
      (fun expand => Expansion.ofLines expand fragment.body.lines) ({} : Expansion).append
      given known (.ok expansion) after)
    (declared : fragments.get? name = some fragment) (idle : fragment.busy = false)
    (off : name ∉ path)
    (unfolded : expandGiven given fragments path name site
      = Expansion.ofLines (expandGiven given fragments (path ++ [name])) fragment.body.lines) :
    Resolved fragments path (fun expand => expand name site) id given known (.ok expansion)
      (after.insert name expansion) := by
  obtain ⟨same, grown, free, kept⟩ := lines
  have whole : Expansion.ofLines (expandGiven given fragments (path ++ [name]))
      fragment.body.lines = .ok expansion := by
    cases found : Expansion.ofLines (expandGiven given fragments (path ++ [name]))
        fragment.body.lines with
    | error failure =>
      rw [found] at same
      cases same
    | ok other =>
      rw [found] at same
      simpa [Except.map] using same.symm
  have new : after.get? name = none := free name (by simp)
  refine ⟨by rw [unfolded, whole]; rfl, .keep grown new declared idle (kept expansion whole),
    ?_, ?_⟩
  · intro outer mem
    have other : outer ≠ name := fun eq => off (eq ▸ mem)
    rw [OrderedMap.get?_insert, if_neg other]
    exact free outer (by simp [mem])
  · intro other h
    rw [unfolded, whole] at h
    cases h
    exact remembered_eq_ok_iff.mpr
      ⟨⟨fragment, declared⟩, by rw [OrderedMap.get?_insert, if_pos rfl]⟩

end Resolved

/-- A resolution comes to what would be found with the given expansions
alone, and keeps what it needed. -/
theorem resolve_ends {fragments : OrderedMap Fragment} {given : Expansions}
    (path : List String) (name : String) (site : Site) (known : Expansions)
    (grown : Grown fragments given known) (free : ∀ outer ∈ path, known.get? outer = none) :
    (resolve fragments path name site).Ends known fun found after _ =>
      Resolved fragments path (fun expand => expand name site) id given known found after := by
  induction path using offPath_induction fragments.keys generalizing name site known with
  | step path ih =>
    rw [resolve_eq]
    cases declared : fragments.get? name with
    | none =>
      exact .failed .refl free (by simp only [expandGiven_eq, declared])
    | some fragment =>
      simp only [Job.ends_bind, Job.ends_get]
      cases old : known.get? name with
      | some expansion => exact .ofKept grown free declared old
      | none =>
        have notGiven : given.get? name = none := grown.get?_eq_none old
        by_cases again : name ∈ path ∨ fragment.busy = true
        · simp only [if_pos again, Job.ends_fail]
          exact .failed .refl free
            (by simp only [expandGiven_eq, declared, notGiven, if_pos again])
        · -- the lines are built along the longer path, on which nothing is kept yet
          obtain ⟨off, idle⟩ := not_or.mp again
          have longer : ∀ outer ∈ path ++ [name], known.get? outer = none := by
            intro outer mem
            rcases List.mem_append.mp mem with mem | mem
            · exact free outer mem
            · obtain rfl : outer = name := by simpa using mem
              exact old
          have unfolded : expandGiven given fragments path name site
              = Expansion.ofLines (expandGiven given fragments (path ++ [name]))
                  fragment.body.lines := by
            simp only [expandGiven_eq, declared, notGiven, if_neg again]
          simp only [if_neg again, Job.ends_bind, Job.ends_report]
          refine (foldlM_addLine_ends
            (ih name (OrderedMap.mem_keys_of_get? declared) off) fragment.body.lines {}
            grown longer).imp fun found after _ lines => ?_
          cases found with
          | error failure =>
            exact .failed lines.grown (fun outer mem => lines.free outer (by simp [mem]))
              (unfolded.trans lines.error_eq)
          | ok expansion => exact .built lines declared (by simpa using idle) off unfolded

end PacketLayout
