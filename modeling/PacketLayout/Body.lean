/-
PacketLayout.Body — the numbered lines of a declaration.

A body holds its lines under their source line numbers, in ascending
order, whatever the order in which they are added. A number can be taken
once; a second line for it is refused and the body stays as it was.

* `add?_eq_none_iff`: a line is refused exactly when its number is taken.
* `mem_add?`: the lines after an addition.
-/
import PacketLayout.Failure

namespace PacketLayout

/-- Lines in ascending order of their numbers, no number twice. -/
structure Body where
  lines : List Site
  ascending : lines.Pairwise fun first second => first.line < second.line
  deriving DecidableEq

namespace Body

def empty : Body :=
  ⟨[], List.Pairwise.nil⟩

instance : Inhabited Body :=
  ⟨empty⟩

def size (body : Body) : Nat :=
  body.lines.length

/-- Puts a line in its place among ascending lines, unless its number is
taken. -/
def place? (site : Site) : List Site → Option (List Site)
  | [] => some [site]
  | first :: rest =>
    if site.line < first.line then some (site :: first :: rest)
    else if site.line = first.line then none
    else (place? site rest).map (first :: ·)

theorem mem_place? {site : Site} {lines placed : List Site}
    (h : place? site lines = some placed) (other : Site) :
    other ∈ placed ↔ other = site ∨ other ∈ lines := by
  induction lines generalizing placed with
  | nil =>
    obtain rfl : [site] = placed := by simpa [place?] using h
    simp
  | cons first rest ih =>
    unfold place? at h
    split at h
    · obtain rfl : site :: first :: rest = placed := by simpa using h
      simp
    · split at h
      · simp at h
      · obtain ⟨later, found, rfl⟩ := Option.map_eq_some_iff.mp h
        simp only [List.mem_cons, ih found]
        exact or_left_comm

theorem ascending_place? {site : Site} {lines placed : List Site}
    (ascending : lines.Pairwise fun first second => first.line < second.line)
    (h : place? site lines = some placed) :
    placed.Pairwise fun first second => first.line < second.line := by
  induction lines generalizing placed with
  | nil =>
    obtain rfl : [site] = placed := by simpa [place?] using h
    simp
  | cons first rest ih =>
    obtain ⟨below, sorted⟩ := List.pairwise_cons.mp ascending
    unfold place? at h
    split at h
    · rename_i before
      obtain rfl : site :: first :: rest = placed := by simpa using h
      refine List.pairwise_cons.mpr ⟨?_, ascending⟩
      intro other mem
      rcases List.mem_cons.mp mem with rfl | mem
      · exact before
      · exact Nat.lt_trans before (below other mem)
    · split at h
      · simp at h
      · obtain ⟨later, found, rfl⟩ := Option.map_eq_some_iff.mp h
        refine List.pairwise_cons.mpr ⟨?_, ih sorted found⟩
        intro other mem
        rcases (mem_place? found other).mp mem with rfl | mem
        · omega
        · exact below other mem

/-- Adds a line, unless its number is taken. -/
def add? (body : Body) (site : Site) : Option Body :=
  match h : place? site body.lines with
  | some placed => some ⟨placed, ascending_place? body.ascending h⟩
  | none => none

theorem lines_add? (body : Body) (site : Site) :
    (body.add? site).map Body.lines = place? site body.lines := by
  unfold add?
  split
  · rename_i placed h
    simp [h]
  · rename_i h
    simp [h]

/-- The lines after an addition are the line and those that were
there. -/
theorem mem_add? {body after : Body} {site : Site}
    (h : body.add? site = some after) (other : Site) :
    other ∈ after.lines ↔ other = site ∨ other ∈ body.lines := by
  have placed : place? site body.lines = some after.lines := by
    rw [← lines_add?, h]; rfl
  exact mem_place? placed other

theorem place?_eq_none_iff {site : Site} {lines : List Site}
    (ascending : lines.Pairwise fun first second => first.line < second.line) :
    place? site lines = none ↔ ∃ other ∈ lines, other.line = site.line := by
  induction lines with
  | nil => simp [place?]
  | cons first rest ih =>
    obtain ⟨below, sorted⟩ := List.pairwise_cons.mp ascending
    unfold place?
    split
    · rename_i before
      have free : ∀ other ∈ first :: rest, other.line ≠ site.line := by
        intro other mem
        rcases List.mem_cons.mp mem with rfl | mem
        · omega
        · have := below other mem
          omega
      simp only [reduceCtorEq, false_iff, not_exists, not_and]
      exact free
    · split
      · rename_i same
        simp [same]
      · rename_i other
        simp [ih sorted, Ne.symm other]

/-- A line is refused exactly when its number is taken. -/
theorem add?_eq_none_iff {body : Body} {site : Site} :
    body.add? site = none ↔ ∃ other ∈ body.lines, other.line = site.line := by
  rw [← place?_eq_none_iff body.ascending, ← lines_add?]
  simp

end Body

end PacketLayout
