/-
PacketLayout.Expansion — putting fragments in the place of references.

A fragment's expansion is made line by line: a field line adds its unit
and its field, a mark of a repeated group adds a unit and no field, and
a reference adds the whole expansion of the fragment it names. Nothing
else may stand in a fragment.

Expansions are kept, so each fragment is built once. A fragment that is
referred to while it is being built would never be finished; `path`
holds the names of those being built, outermost first, and a reference
back to one of them is a failure that tells the way round.

## Why it ends

Each nested build adds to the path a declared name that is not on it.
The names off the path, `offPath`, are finitely many and become fewer
with each step inward. The kept expansions play no part in this.
-/
import PacketLayout.BodyLine
import PacketLayout.Registry

namespace PacketLayout

/-- The declared names that are not on the path. -/
def offPath (names path : List String) : List String :=
  names.filter fun name => !path.contains name

theorem offPath_append_lt {names path : List String} {name : String}
    (declared : name ∈ names) (free : name ∉ path) :
    (offPath names (path ++ [name])).length < (offPath names path).length := by
  have split : offPath names (path ++ [name])
      = (offPath names path).filter fun other => other != name := by
    simp only [offPath, List.filter_filter]
    apply List.filter_congr
    intro other _
    by_cases h : other = name <;> simp [h]
  rw [split]
  apply List.length_filter_lt_length_iff_exists.mpr
  exact ⟨name, by simpa [offPath] using ⟨declared, free⟩, by simp⟩

/-- One line of a fragment put behind what was made of the lines before
it; `resolve` finds the expansion of a fragment that is referred to. -/
def Expansion.addLine {σ : Type} (resolve : String → Site → Job σ Expansion)
    (made : Expansion) (site : Site) : Job σ Expansion := do
  match ← BodyLine.readAt site with
  | .field line => pure (made.append ⟨[line.token], [line.field]⟩)
  | .control (.fragmentRef name) => do
    let nested ← resolve name site
    pure (made.append nested)
  | .control .repeatStart => pure (made.append ⟨[.repeatStart], []⟩)
  | .control .repeatEnd => pure (made.append ⟨[.repeatEnd], []⟩)
  | _ => Job.fail ((Cause.invalidCode .fragment).atSite site)

set_option linter.unusedVariables false in
/-- The expansion of the fragment `name`, referred to at `site` while the
fragments on `path` are being built. -/
def resolve (fragments : OrderedMap Fragment) (path : List String) (name : String)
    (site : Site) : Job Expansions Expansion :=
  match declared : fragments.get? name with
  | none => Job.fail ((Cause.undeclaredFragment name).atSite site)
  | some fragment => do
    let known ← Job.get
    match known.get? name with
    | some expansion => pure expansion
    | none =>
      if again : name ∈ path ∨ fragment.busy = true then
        Job.fail ((Cause.fragmentCycle name (path ++ [name])).atSite site)
      else do
        Job.report [.info fragment.line (.fragmentStarted name)]
        let expansion ← fragment.body.lines.foldlM
          (Expansion.addLine fun inner place => resolve fragments (path ++ [name]) inner place) {}
        Job.report [.trace (.fragmentBuilt name expansion.signature.render)]
        let found ← Job.get
        Job.set (found.insert name expansion)
        pure expansion
termination_by (offPath fragments.keys path).length
decreasing_by
  exact offPath_append_lt (OrderedMap.mem_keys_of_get? declared)
    fun mem => again (Or.inl mem)

end PacketLayout
