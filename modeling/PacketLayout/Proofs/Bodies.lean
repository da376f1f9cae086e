/-
PacketLayout.Proofs.Bodies — what is read in a body, and bodies that take in
lines.

Under each number a body has one text or none, and this is all there is to
it: two bodies in which the same is read are the same. A line that is offered
to a body is read in it from then on, unless another one stood under its
number. So after many offers a body reads like its lines with all that was
offered behind them, each number at its first line, and the order of the
offers counts for nothing but which line of a number was the first.

A declaration takes in a line by an offer to its body. The headers and the
other bodies stay as they are.

* `Body.text?_foldl_accept`: what is read in a body after offers.
* `Body.foldl_accept_perm`: lines of different numbers may be offered in any
  order.
* `Declarations.addLine_of_body?`, `Declarations.addLine_of_body?_none`: what
  comes of a line, by the body that it is for.
-/
import Mathlib.Data.List.Nodup
import Mathlib.Data.List.Perm.Basic
import PacketLayout.Proofs.Declaring
import PacketLayout.Proofs.OrderedMapEntries

namespace PacketLayout

/-! ## Lines under their numbers -/

/-- The text of the first line with a number, if there is one. -/
def textUnder? (lines : List Site) (number : Nat) : Option String :=
  (lines.find? fun site => site.line == number).map Site.raw

theorem textUnder?_append (first second : List Site) (number : Nat) :
    textUnder? (first ++ second) number
      = (textUnder? first number).or (textUnder? second number) := by
  rw [textUnder?, List.find?_append, Option.map_or]
  rfl

theorem textUnder?_eq_none_iff {lines : List Site} {number : Nat} :
    textUnder? lines number = none ↔ ∀ site ∈ lines, site.line ≠ number := by
  simp [textUnder?]

/-- Where every number is there once, all lines can be read. -/
theorem textUnder?_eq_some_iff {lines : List Site} (distinct : (lines.map Site.line).Nodup)
    {number : Nat} {text : String} :
    textUnder? lines number = some text ↔ ⟨number, text⟩ ∈ lines := by
  induction lines with
  | nil => simp [textUnder?]
  | cons first rest ih =>
    obtain ⟨new, later⟩ := List.nodup_cons.mp distinct
    have split : textUnder? (first :: rest) number
        = if first.line = number then some first.raw else textUnder? rest number := by
      by_cases here : first.line = number <;> simp [textUnder?, here]
    rw [split, List.mem_cons]
    split
    · rename_i here
      have elsewhere : ⟨number, text⟩ ∉ rest := fun mem =>
        new (List.mem_map.mpr ⟨_, mem, here.symm⟩)
      constructor
      · intro same
        cases same
        exact .inl (by rw [← here])
      · rintro (rfl | mem)
        · rfl
        · exact absurd mem elsewhere
    · rename_i other
      rw [ih later]
      have apart : (⟨number, text⟩ : Site) ≠ first := fun same => other (same ▸ rfl)
      simp [apart]

/-- Then their order does not count. -/
theorem textUnder?_perm {lines others : List Site} (same : lines.Perm others)
    (distinct : (lines.map Site.line).Nodup) : textUnder? lines = textUnder? others := by
  funext number
  ext text
  rw [textUnder?_eq_some_iff distinct,
    textUnder?_eq_some_iff ((same.map Site.line).nodup_iff.mp distinct), same.mem_iff]

namespace Body

/-- The text of the line with a number, if there is one. -/
def text? (body : Body) : Nat → Option String :=
  textUnder? body.lines

theorem distinct (body : Body) : (body.lines.map Site.line).Nodup :=
  List.pairwise_map.mpr (body.ascending.imp Nat.ne_of_lt)

theorem text?_eq_some_iff {body : Body} {number : Nat} {text : String} :
    body.text? number = some text ↔ ⟨number, text⟩ ∈ body.lines :=
  textUnder?_eq_some_iff body.distinct

/-- A body is what can be read in it. -/
theorem eq_of_text? {body other : Body} (same : body.text? = other.text?) : body = other := by
  have mem : ∀ site, site ∈ body.lines ↔ site ∈ other.lines := fun site => by
    rw [← text?_eq_some_iff, ← text?_eq_some_iff, same]
  have perm : body.lines.Perm other.lines :=
    (List.perm_ext_iff_of_nodup (List.Nodup.of_map _ body.distinct)
      (List.Nodup.of_map _ other.distinct)).mpr mem
  have lines : body.lines = other.lines :=
    perm.eq_of_pairwise (fun _ _ _ _ below above => absurd below (Nat.lt_asymm above))
      body.ascending other.ascending
  cases body
  cases other
  cases lines
  rfl

variable {body longer : Body} {site : Site}

/-- The number of a line that is added was free. -/
theorem free_of_add? (added : body.add? site = some longer) :
    ∀ other ∈ body.lines, other.line ≠ site.line := by
  intro other mem taken
  rw [add?_eq_none_iff.mpr ⟨other, mem, taken⟩] at added
  cases added

/-- The body after a line has been offered to it: with the line, unless its
number is taken. -/
def accept (body : Body) (site : Site) : Body :=
  (body.add? site).getD body

theorem accept_of_add? (added : body.add? site = some longer) : body.accept site = longer := by
  rw [accept, added, Option.getD_some]

theorem accept_of_refused (refused : body.add? site = none) : body.accept site = body := by
  rw [accept, refused, Option.getD_none]

/-- A line that is accepted can be read under its number, unless another
one can. -/
theorem text?_accept (body : Body) (site : Site) (number : Nat) :
    (body.accept site).text? number = (body.text? number).or (textUnder? [site] number) := by
  cases added : body.add? site with
  | none =>
    obtain ⟨other, mem, taken⟩ := add?_eq_none_iff.mp added
    have read : body.text? site.line = some other.raw :=
      text?_eq_some_iff.mpr (taken ▸ mem)
    rw [accept_of_refused added]
    by_cases here : site.line = number
    · rw [← here, read]
      rfl
    · simp [textUnder?, here]
  | some longer =>
    have free : body.text? site.line = none :=
      textUnder?_eq_none_iff.mpr (free_of_add? added)
    rw [accept_of_add? added]
    ext text
    rw [text?_eq_some_iff, mem_add? added, Option.or_eq_some_iff, text?_eq_some_iff,
      textUnder?_eq_some_iff (by simp), List.mem_singleton, or_comm]
    refine or_congr_right ⟨fun here => ⟨?_, here⟩, And.right⟩
    rw [← here] at free
    exact free

/-- What can be read after many lines have been offered: the lines that were
there, and then those that were offered. -/
theorem text?_foldl_accept (sites : List Site) (body : Body) :
    (sites.foldl accept body).text? = textUnder? (body.lines ++ sites) := by
  induction sites generalizing body with
  | nil => simp [text?]
  | cons site rest ih =>
    funext number
    rw [List.foldl_cons, ih, textUnder?_append, textUnder?_append]
    change ((body.accept site).text? number).or _ = _
    rw [text?_accept, Option.or_assoc, ← textUnder?_append]
    rfl

/-- Lines of different numbers may be offered in any order. -/
theorem foldl_accept_perm {sites others : List Site} (same : sites.Perm others)
    (distinct : (sites.map Site.line).Nodup) (body : Body) :
    sites.foldl accept body = others.foldl accept body := by
  apply eq_of_text?
  funext number
  rw [text?_foldl_accept, text?_foldl_accept, textUnder?_append, textUnder?_append,
    textUnder?_perm same distinct]

end Body

/-! ## Bodies of declarations -/

namespace Declarations

variable {declared : Declarations}

/-- The body of a declaration, if there is one. -/
def body? (declared : Declarations) : Owner → Option Body
  | .fragment name => (declared.fragments.get? name).map Fragment.body
  | .packet header => (declared.packets.get? header).map Packet.body

/-- The same declarations with the same headers, and another body for
each. -/
def mapBodies (change : Owner → Body → Body) (declared : Declarations) : Declarations where
  fragments := declared.fragments.mapEntries fun name fragment =>
    { fragment with body := change (.fragment name) fragment.body }
  packets := declared.packets.mapEntries fun header packet =>
    { packet with body := change (.packet header) packet.body }

theorem body?_mapBodies (change : Owner → Body → Body) (declared : Declarations)
    (owner : Owner) :
    (declared.mapBodies change).body? owner = (declared.body? owner).map (change owner) := by
  cases owner with
  | fragment name =>
    unfold body? mapBodies
    simp only [OrderedMap.get?_mapEntries, Option.map_map]
    rfl
  | packet header =>
    unfold body? mapBodies
    simp only [OrderedMap.get?_mapEntries, Option.map_map]
    rfl

theorem mapBodies_congr {change other : Owner → Body → Body}
    (same : ∀ owner body, declared.body? owner = some body →
      change owner body = other owner body) :
    declared.mapBodies change = declared.mapBodies other := by
  unfold mapBodies
  congr 1
  · refine OrderedMap.mapEntries_congr fun name fragment there => ?_
    rw [same (.fragment name) fragment.body (by simp [body?, there])]
  · refine OrderedMap.mapEntries_congr fun header packet there => ?_
    rw [same (.packet header) packet.body (by simp [body?, there])]

theorem mapBodies_mapBodies (first second : Owner → Body → Body) (declared : Declarations) :
    (declared.mapBodies first).mapBodies second
      = declared.mapBodies fun owner body => second owner (first owner body) := by
  simp only [mapBodies, OrderedMap.mapEntries_mapEntries]

theorem mapBodies_same (declared : Declarations) :
    (declared.mapBodies fun _ body => body) = declared := by
  simp only [mapBodies, OrderedMap.mapEntries_same]

/-- The declarations after a line has been offered to the body of one of
them. -/
def accept (declared : Declarations) (owner : Owner) (site : Site) : Declarations :=
  declared.mapBodies fun other body => if other = owner then body.accept site else body

theorem body?_accept (declared : Declarations) (owner other : Owner) (site : Site) :
    (declared.accept owner site).body? other
      = (declared.body? other).map fun body =>
          if other = owner then body.accept site else body :=
  body?_mapBodies _ declared other

theorem accept_of_refused {owner : Owner} {site : Site}
    (refused : ∀ body, declared.body? owner = some body → body.add? site = none) :
    declared.accept owner site = declared := by
  have same : declared.accept owner site = declared.mapBodies fun _ body => body := by
    refine mapBodies_congr fun other body there => ?_
    split
    · rename_i here
      exact Body.accept_of_refused (refused body (here ▸ there))
    · rfl
  rw [same, mapBodies_same]

theorem accept_fragment {name : String} {fragment : Fragment} {site : Site}
    (there : declared.fragments.get? name = some fragment) :
    declared.accept (.fragment name) site = { declared with
      fragments := declared.fragments.insert name
        { fragment with body := fragment.body.accept site } } := by
  unfold accept mapBodies
  congr 1
  · rw [OrderedMap.insert_eq_mapEntries there fun old => { old with body := old.body.accept site }]
    refine OrderedMap.mapEntries_congr fun other _ _ => ?_
    by_cases here : other = name <;> simp [here]
  · simp only [reduceCtorEq, ↓reduceIte, OrderedMap.mapEntries_same]

theorem accept_packet {header : String} {packet : Packet} {site : Site}
    (there : declared.packets.get? header = some packet) :
    declared.accept (.packet header) site = { declared with
      packets := declared.packets.insert header
        { packet with body := packet.body.accept site } } := by
  unfold accept mapBodies
  congr 1
  · simp only [reduceCtorEq, ↓reduceIte, OrderedMap.mapEntries_same]
  · rw [OrderedMap.insert_eq_mapEntries there fun old => { old with body := old.body.accept site }]
    refine OrderedMap.mapEntries_congr fun other _ _ => ?_
    by_cases here : other = header <;> simp [here]

/-- A line for a declaration is accepted or refused by its body. -/
theorem addLine_of_body? {owner : Owner} {body : Body} (there : declared.body? owner = some body)
    (site : Site) :
    declared.addLine owner site
      = match body.add? site with
        | some _ => .ok (declared.accept owner site)
        | none => .error ((Cause.duplicateLine site.line).atSite site) := by
  cases owner with
  | fragment name =>
    obtain ⟨fragment, found, rfl⟩ := Option.map_eq_some_iff.mp there
    rw [accept_fragment found]
    cases added : fragment.body.add? site with
    | some longer =>
      rw [addLine_fragment found added, Body.accept_of_add? added]
    | none => simp [addLine, found, addToBody, added, Except.map]
  | packet header =>
    obtain ⟨packet, found, rfl⟩ := Option.map_eq_some_iff.mp there
    rw [accept_packet found]
    cases added : packet.body.add? site with
    | some longer =>
      rw [addLine_packet found added, Body.accept_of_add? added]
    | none => simp [addLine, found, addToBody, added, Except.map]

theorem addLine_of_body?_none {owner : Owner} (absent : declared.body? owner = none)
    (site : Site) : declared.addLine owner site = .error (Cause.noDeclaration.atSite site) := by
  cases owner with
  | fragment name =>
    have absent : declared.fragments.get? name = none := by simpa [body?] using absent
    simp [addLine, absent]
  | packet header =>
    have absent : declared.packets.get? header = none := by simpa [body?] using absent
    simp [addLine, absent]

end Declarations

end PacketLayout
