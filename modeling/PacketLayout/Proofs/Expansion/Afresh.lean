/-
PacketLayout.Proofs.Expansion.Afresh — expansion without keeping
anything.

`expandAfresh` says what a fragment expands to by recursion on the
references alone: the pieces of its lines, one behind another, where the
piece of a reference is the expansion of the fragment it names. It knows
the path of names that are being expanded, and nothing else; the first
line that has no piece is the failure.

`expandGiven` is the same with some expansions given from the start, and
with the fragments that someone else is building. It is what a
resolution comes to that starts with kept expansions, whatever they are.

* `expandAfresh_eq`, `expandGiven_eq`: one step of the recursion.
* `expandGiven_empty`: with nothing given, and nobody else at work, both
  are the same.
* `ofLines_imp`: an expander that finds more keeps what was found.
-/
import PacketLayout.Expansion

namespace PacketLayout

namespace Expansion

/-- Expansions one behind another. -/
def concat (pieces : List Expansion) : Expansion :=
  ⟨pieces.flatMap Expansion.signature, pieces.flatMap Expansion.fields⟩

/-- The piece of one line of a fragment: a unit and its field, a mark of
a repeated group without a field, or what `expand` finds for a
reference. -/
def ofLine (expand : String → Site → Except Failure Expansion) (site : Site) :
    Except Failure Expansion :=
  match BodyLine.read site.raw.toList with
  | .error cause => .error (cause.atSite site)
  | .ok (.field line) => .ok ⟨[line.token], [line.field]⟩
  | .ok (.control (.fragmentRef name)) => expand name site
  | .ok (.control .repeatStart) => .ok ⟨[.repeatStart], []⟩
  | .ok (.control .repeatEnd) => .ok ⟨[.repeatEnd], []⟩
  | .ok _ => .error ((Cause.invalidCode .fragment).atSite site)

/-- The pieces of all lines, up to the first line that has none. -/
def ofLines (expand : String → Site → Except Failure Expansion) (lines : List Site) :
    Except Failure Expansion :=
  (lines.mapM (ofLine expand)).map concat

@[simp] theorem append_empty (made : Expansion) : made.append {} = made := by
  simp [append]

@[simp] theorem empty_append (made : Expansion) : append {} made = made := by
  simp [append]

theorem append_assoc (first second third : Expansion) :
    (first.append second).append third = first.append (second.append third) := by
  simp [append]

section OfLines

variable {expand wider : String → Site → Except Failure Expansion}

@[simp] theorem ofLines_nil : ofLines expand [] = .ok {} := rfl

theorem ofLines_cons_error {site : Site} {rest : List Site} {failure : Failure}
    (h : ofLine expand site = .error failure) :
    ofLines expand (site :: rest) = .error failure := by
  simp [ofLines, List.mapM_cons, h, bind, Except.bind, Except.map]

theorem ofLines_cons_ok {site : Site} {rest : List Site} {piece : Expansion}
    (h : ofLine expand site = .ok piece) :
    ofLines expand (site :: rest) = (ofLines expand rest).map piece.append := by
  simp only [ofLines, List.mapM_cons, h, bind, Except.bind]
  cases rest.mapM (ofLine expand) with
  | error failure => rfl
  | ok pieces => rfl

/-- A piece is found only by a line that has one, and behind it the
pieces of the rest. -/
theorem ofLines_cons_eq_ok {site : Site} {rest : List Site} {whole : Expansion}
    (h : ofLines expand (site :: rest) = .ok whole) :
    ∃ piece more, ofLine expand site = .ok piece ∧ ofLines expand rest = .ok more ∧
      whole = piece.append more := by
  cases first : ofLine expand site with
  | error failure => rw [ofLines_cons_error first] at h; cases h
  | ok piece =>
    rw [ofLines_cons_ok first] at h
    cases later : ofLines expand rest with
    | error failure => rw [later] at h; cases h
    | ok more =>
      rw [later] at h
      cases h
      exact ⟨piece, more, rfl, rfl, rfl⟩

theorem ofLine_imp {site : Site} {piece : Expansion}
    (imp : ∀ name found, expand name site = .ok found → wider name site = .ok found)
    (h : ofLine expand site = .ok piece) : ofLine wider site = .ok piece := by
  unfold ofLine at h ⊢
  split at h
  · cases h
  · exact h
  · exact imp _ _ h
  · exact h
  · exact h
  · cases h

/-- An expander that finds more keeps what was found. -/
theorem ofLines_imp {lines : List Site} {whole : Expansion}
    (imp : ∀ site ∈ lines, ∀ name found,
      expand name site = .ok found → wider name site = .ok found)
    (h : ofLines expand lines = .ok whole) : ofLines wider lines = .ok whole := by
  induction lines generalizing whole with
  | nil => exact h
  | cons site rest ih =>
    obtain ⟨piece, more, first, later, rfl⟩ := ofLines_cons_eq_ok h
    have firstWider := ofLine_imp (imp site (by simp)) first
    have laterWider := ih (fun place mem => imp place (by simp [mem])) later
    rw [ofLines_cons_ok firstWider, laterWider]
    rfl

end OfLines

end Expansion

/-! ## Afresh -/

set_option linter.unusedVariables false in
/-- The expansion of the fragment `name`, referred to at `site`, with
nothing kept. -/
def expandAfresh (fragments : OrderedMap Fragment) (path : List String) (name : String)
    (site : Site) : Except Failure Expansion :=
  match declared : fragments.get? name with
  | none => .error ((Cause.undeclaredFragment name).atSite site)
  | some fragment =>
    if again : name ∈ path then
      .error ((Cause.fragmentCycle name (path ++ [name])).atSite site)
    else
      Expansion.ofLines (fun inner place => expandAfresh fragments (path ++ [name]) inner place)
        fragment.body.lines
termination_by (offPath fragments.keys path).length
decreasing_by exact offPath_append_lt (OrderedMap.mem_keys_of_get? declared) again

theorem expandAfresh_eq (fragments : OrderedMap Fragment) (path : List String)
    (name : String) (site : Site) :
    expandAfresh fragments path name site
      = match fragments.get? name with
        | none => .error ((Cause.undeclaredFragment name).atSite site)
        | some fragment =>
          if name ∈ path then
            .error ((Cause.fragmentCycle name (path ++ [name])).atSite site)
          else Expansion.ofLines (expandAfresh fragments (path ++ [name])) fragment.body.lines := by
  rw [expandAfresh]
  split
  · rename_i declared
    rw [declared]
  · rename_i fragment declared
    rw [declared]
    by_cases again : name ∈ path
    · simp only [again, dite_true, if_true]
    · simp only [again, dite_false, if_false]

/-! ## With some expansions given -/

set_option linter.unusedVariables false in
/-- The expansion of the fragment `name`, referred to at `site`, where
some expansions are given and others may be at work. -/
def expandGiven (given : Expansions) (fragments : OrderedMap Fragment) (path : List String)
    (name : String) (site : Site) : Except Failure Expansion :=
  match declared : fragments.get? name with
  | none => .error ((Cause.undeclaredFragment name).atSite site)
  | some fragment =>
    match given.get? name with
    | some expansion => .ok expansion
    | none =>
      if again : name ∈ path ∨ fragment.busy = true then
        .error ((Cause.fragmentCycle name (path ++ [name])).atSite site)
      else
        Expansion.ofLines
          (fun inner place => expandGiven given fragments (path ++ [name]) inner place)
          fragment.body.lines
termination_by (offPath fragments.keys path).length
decreasing_by
  exact offPath_append_lt (OrderedMap.mem_keys_of_get? declared)
    fun mem => again (Or.inl mem)

theorem expandGiven_eq (given : Expansions) (fragments : OrderedMap Fragment)
    (path : List String) (name : String) (site : Site) :
    expandGiven given fragments path name site
      = match fragments.get? name with
        | none => .error ((Cause.undeclaredFragment name).atSite site)
        | some fragment =>
          match given.get? name with
          | some expansion => .ok expansion
          | none =>
            if name ∈ path ∨ fragment.busy = true then
              .error ((Cause.fragmentCycle name (path ++ [name])).atSite site)
            else
              Expansion.ofLines (expandGiven given fragments (path ++ [name]))
                fragment.body.lines := by
  rw [expandGiven]
  split
  · rename_i declared
    rw [declared]
  · rename_i fragment declared
    rw [declared]
    cases given.get? name with
    | some expansion => rfl
    | none =>
      by_cases again : name ∈ path ∨ fragment.busy = true
      · simp only [again, dite_true, if_true]
      · simp only [again, dite_false, if_false]

/-- The place of a reference matters only if the expansion is not
found. -/
theorem expandGiven_site {given : Expansions} {fragments : OrderedMap Fragment}
    {path : List String} {name : String} {site : Site} {found : Expansion} (other : Site)
    (h : expandGiven given fragments path name site = .ok found) :
    expandGiven given fragments path name other = .ok found := by
  rw [expandGiven_eq] at h ⊢
  cases declared : fragments.get? name with
  | none => simp [declared] at h
  | some fragment =>
    simp only [declared] at h ⊢
    cases kept : given.get? name with
    | some expansion => simpa only [kept] using h
    | none =>
      simp only [kept] at h ⊢
      split at h
      · cases h
      · rename_i fresh
        rw [if_neg fresh]
        exact h

/-- What holds of a path if it holds of every longer path of declared
names holds of every path: the names off the path run out. -/
theorem offPath_induction (names : List String) {motive : List String → Prop}
    (step : ∀ path, (∀ name ∈ names, name ∉ path → motive (path ++ [name])) → motive path)
    (path : List String) : motive path :=
  step path fun name _ _ => offPath_induction names step (path ++ [name])
termination_by (offPath names path).length
decreasing_by exact offPath_append_lt ‹_› ‹_›

/-- With nothing given, and nobody else at work, expansion is made
afresh. -/
theorem expandGiven_empty {fragments : OrderedMap Fragment}
    (idle : ∀ name fragment, fragments.get? name = some fragment → fragment.busy = false)
    (path : List String) :
    expandGiven ∅ fragments path = expandAfresh fragments path := by
  induction path using offPath_induction fragments.keys with
  | step path ih =>
    funext name site
    rw [expandGiven_eq, expandAfresh_eq]
    cases declared : fragments.get? name with
    | none => rfl
    | some fragment =>
      have notGiven : (∅ : Expansions).get? name = none := rfl
      simp only [notGiven, idle name fragment declared, Bool.false_eq_true, or_false]
      by_cases again : name ∈ path
      · rw [if_pos again, if_pos again]
      · rw [if_neg again, if_neg again,
          ih name (OrderedMap.mem_keys_of_get? declared) again]

end PacketLayout
