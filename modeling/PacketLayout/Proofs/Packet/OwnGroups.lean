/-
PacketLayout.Proofs.Packet.OwnGroups — the repeated groups of a packet's
own lines.

A fragment may bring marks of repeated groups into a packet that balance
nothing. Here only the marks are looked at that the lines of the packet
itself give. The rules for the lines speak of the main body and of each
branch on its own, and there every start is followed by its stop. In an
entry a branch stands in the gap of the main body, so groups can be nested
there, but only one in another, and only if the gap is inside a group.

* `alternating_of_chain`: between two walls the marks alternate.
* `alternating_main`, `alternating_branch`: the main body and the
  branches.
* `reaches_filled`: how deep a branch in the gap can stand.
* `compiled_own_groups`: the signatures of a compiled packet.
-/
import PacketLayout.Proofs.Packet.Compiled

namespace PacketLayout

open Outline RepeatMark Workspace

/-! ## Marks that alternate -/

namespace RepeatMark

variable {marks front back : List RepeatMark} {depth reached : Nat}

/-- Every start is followed by a stop, and nothing else is there. -/
inductive Alternating : List RepeatMark → Prop
  | nil : Alternating []
  | group {rest : List RepeatMark} (later : Alternating rest) :
      Alternating (.start :: .stop :: rest)

/-- Behind some of the marks `reached` groups are open, if `depth` are
before them. -/
def Reaches (depth : Nat) (marks : List RepeatMark) (reached : Nat) : Prop :=
  ∃ front, front <+: marks ∧ depth? depth front = some reached

theorem reaches_nil : Reaches depth [] reached ↔ reached = depth := by
  constructor
  · rintro ⟨front, shorter, open_⟩
    rw [List.prefix_nil.mp shorter] at open_
    exact (Option.some.inj open_).symm
  · rintro rfl
    exact ⟨[], List.prefix_rfl, rfl⟩

theorem reaches_cons {mark : RepeatMark} :
    Reaches depth (mark :: marks) reached ↔
      reached = depth ∨ ∃ behind, depth? depth [mark] = some behind ∧
        Reaches behind marks reached := by
  have step : ∀ front, depth? depth (mark :: front)
      = (depth? depth [mark]).bind fun behind => depth? behind front :=
    depth?_append depth [mark]
  constructor
  · rintro ⟨front, shorter, count⟩
    rcases List.prefix_cons_iff.mp shorter with rfl | ⟨rest, rfl, inside⟩
    · exact .inl (Option.some.inj count).symm
    · rw [step] at count
      obtain ⟨behind, first, count⟩ := Option.bind_eq_some_iff.mp count
      exact .inr ⟨behind, first, rest, inside, count⟩
  · rintro (rfl | ⟨behind, first, rest, shorter, count⟩)
    · exact ⟨[], List.nil_prefix, rfl⟩
    · refine ⟨mark :: rest, List.cons_prefix_cons.mpr ⟨rfl, shorter⟩, ?_⟩
      rw [step, first]
      exact count

theorem reaches_append :
    Reaches depth (front ++ back) reached ↔
      Reaches depth front reached ∨ ∃ behind, depth? depth front = some behind ∧
        Reaches behind back reached := by
  induction front generalizing depth with
  | nil =>
    rw [List.nil_append, reaches_nil]
    constructor
    · exact fun here => .inr ⟨depth, rfl, here⟩
    · rintro (rfl | ⟨behind, same, here⟩)
      · exact ⟨[], List.nil_prefix, rfl⟩
      · cases same
        exact here
  | cons mark rest ih =>
    have step : depth? depth (mark :: rest)
        = (depth? depth [mark]).bind fun behind => depth? behind rest :=
      depth?_append depth [mark] rest
    rw [List.cons_append, reaches_cons, reaches_cons, or_assoc, step]
    refine or_congr_right ?_
    constructor
    · rintro ⟨next, first, here⟩
      rcases ih.mp here with inside | ⟨behind, count, there⟩
      · exact .inl ⟨next, first, inside⟩
      · exact .inr ⟨behind, by rw [first]; exact count, there⟩
    · rintro (⟨next, first, here⟩ | ⟨behind, count, there⟩)
      · exact ⟨next, first, ih.mpr (.inl here)⟩
      · obtain ⟨next, first, count⟩ := Option.bind_eq_some_iff.mp count
        exact ⟨next, first, ih.mpr (.inr ⟨behind, count, there⟩)⟩

namespace Alternating

theorem depth?_eq (alternating : Alternating marks) : depth? depth marks = some depth := by
  induction alternating with
  | nil => rfl
  | group _ ih => exact ih

/-- Marks that alternate open one group at a time. -/
theorem reaches (alternating : Alternating marks) (here : Reaches depth marks reached) :
    reached = depth ∨ reached = depth + 1 := by
  induction alternating with
  | nil => exact .inl (reaches_nil.mp here)
  | group _ ih =>
    rcases reaches_cons.mp here with same | ⟨inner, first, here⟩
    · exact .inl same
    · cases first
      rcases reaches_cons.mp here with same | ⟨outer, second, here⟩
      · exact .inr same
      · cases second
        exact ih here

theorem append (first : Alternating front) (second : Alternating back) :
    Alternating (front ++ back) := by
  induction first with
  | nil => exact second
  | group _ ih => exact .group ih

/-- A cut through marks that alternate goes between two groups, or through
one of them. -/
theorem cut (alternating : Alternating (front ++ back)) :
    Alternating front ∧ Alternating back ∨
      ∃ earlier later, front = earlier ++ [.start] ∧ back = .stop :: later ∧
        Alternating earlier ∧ Alternating later := by
  generalize whole : front ++ back = marks at alternating
  induction alternating generalizing front with
  | nil =>
    obtain ⟨rfl, rfl⟩ := List.append_eq_nil_iff.mp whole
    exact .inl ⟨.nil, .nil⟩
  | @group rest more ih =>
    rcases front with _ | ⟨first, _ | ⟨second, front⟩⟩
    · obtain rfl : back = .start :: .stop :: rest := whole
      exact .inl ⟨.nil, .group more⟩
    · obtain ⟨rfl, rfl⟩ : first = .start ∧ back = .stop :: rest := by simpa using whole
      exact .inr ⟨[], rest, rfl, rfl, .nil, more⟩
    · obtain ⟨rfl, rfl, behind⟩ : first = .start ∧ second = .stop ∧ front ++ back = rest := by
        simpa using whole
      rcases ih behind with ⟨one, two⟩ | ⟨earlier, later, rfl, same, one, two⟩
      · exact .inl ⟨.group one, two⟩
      · exact .inr ⟨.start :: .stop :: earlier, later, rfl, same, .group one, two⟩

end Alternating

/-- What stands between the start of a group and its stop can open one more
group inside it. -/
theorem reaches_inside {earlier branch later : List RepeatMark} (before : Alternating earlier)
    (inside : Alternating branch) (after : Alternating later)
    (here : Reaches 0 ((earlier ++ [.start]) ++ branch ++ .stop :: later) reached) :
    reached ≤ 2 := by
  rw [List.append_assoc, List.append_assoc, reaches_append] at here
  rcases here with front | ⟨depth, count, here⟩
  · have first : reached = 0 ∨ reached = 1 := before.reaches front
    omega
  · cases before.depth?_eq.symm.trans count
    rcases reaches_cons.mp here with same | ⟨one, opened, here⟩
    · omega
    · cases opened
      change Reaches 1 (branch ++ .stop :: later) reached at here
      rw [reaches_append] at here
      rcases here with middle | ⟨depth, count, here⟩
      · have second : reached = 1 ∨ reached = 2 := inside.reaches middle
        omega
      · cases inside.depth?_eq.symm.trans count
        rcases reaches_cons.mp here with same | ⟨none, closed, here⟩
        · omega
        · cases closed
          have last : reached = 0 ∨ reached = 1 := after.reaches here
          omega

theorem balanced_inside {earlier branch later : List RepeatMark} (before : Alternating earlier)
    (inside : Alternating branch) (after : Alternating later) :
    Balanced ((earlier ++ [.start]) ++ branch ++ .stop :: later) := by
  rw [balanced_iff, List.append_assoc, List.append_assoc, depth?_append, before.depth?_eq]
  change depth? 1 (branch ++ .stop :: later) = some 0
  rw [depth?_append, inside.depth?_eq]
  exact after.depth?_eq

end RepeatMark

/-! ## Marks between walls -/

/-- The mark of a group that stands in a chain of marks and walls. -/
def Mark.repeatMark? : Mark → Option RepeatMark
  | .start => some .start
  | .stop => some .stop
  | .wall => none

theorem BodyLine.filterMap_mark? (wall : Bool) (line : BodyLine) :
    (line.mark? wall).toList.filterMap Mark.repeatMark? = line.repeatMark?.toList := by
  cases line with
  | control line =>
    cases line with
    | pack => cases wall <;> rfl
    | _ => rfl
  | _ => rfl

/-- Between two walls the marks of groups alternate. -/
theorem alternating_of_chain {marks : List Mark}
    (chain : (.wall :: (marks ++ [.wall])).IsChain Mark.Linked) :
    Alternating (marks.filterMap Mark.repeatMark?) := by
  -- where a group is open the next mark stops it, and elsewhere none does
  suffices both : ∀ marks : List Mark,
      (∀ before, before ≠ .start → (before :: (marks ++ [.wall])).IsChain Mark.Linked →
        Alternating (marks.filterMap Mark.repeatMark?)) ∧
      ((.start :: (marks ++ [.wall])).IsChain Mark.Linked →
        Alternating (.start :: marks.filterMap Mark.repeatMark?)) from
    (both marks).1 .wall (by simp) chain
  intro marks
  induction marks with
  | nil =>
    refine ⟨fun _ _ _ => .nil, fun chain => ?_⟩
    have linked := (List.isChain_cons_cons.mp chain).1
    simp [Mark.Linked] at linked
  | cons mark rest ih =>
    obtain ⟨outside, inside⟩ := ih
    refine ⟨fun before other chain => ?_, fun chain => ?_⟩
    · obtain ⟨linked, chain⟩ := List.isChain_cons_cons.mp chain
      cases mark with
      | start => exact inside chain
      | stop => exact absurd (linked.mpr rfl) other
      | wall => exact outside .wall (by simp) chain
    · obtain ⟨linked, chain⟩ := List.isChain_cons_cons.mp chain
      obtain rfl : mark = .stop := linked.mp rfl
      exact .group (outside .stop (by simp) chain)

/-! ## Marks of a packet's lines -/

/-- The marks of groups among units that the lines of the packet itself
produced. -/
def ownMarks (units : List TracedUnit) : List RepeatMark :=
  (units.filter fun unit => !unit.embedded).filterMap fun unit => unit.token.repeatMark?

theorem ownMarks_append (first second : List TracedUnit) :
    ownMarks (first ++ second) = ownMarks first ++ ownMarks second := by
  simp [ownMarks]

theorem ownMarks_of_embedded {units : List TracedUnit}
    (embedded : ∀ unit ∈ units, unit.embedded = true) : ownMarks units = [] := by
  have none : (units.filter fun unit => !unit.embedded) = [] :=
    List.filter_eq_nil_iff.mpr fun unit mem => by simp [embedded unit mem]
  rw [ownMarks, none]
  rfl

namespace Site

theorem embedded_of_traced {site : Site} {embedded : Bool} {unit : TracedUnit}
    (mem : unit ∈ site.traced embedded) : unit.embedded = embedded := by
  rcases traced_cases mem with ⟨line, _, rfl⟩ | ⟨bytes, rfl⟩ | ⟨_, same, _⟩
  · rfl
  · rfl
  · exact same

/-- A line gives the mark that it is. -/
theorem ownMarks_traced (site : Site) :
    ownMarks (site.traced false) = site.form.repeatMark?.toList := by
  have marks := site.repeatMarks_own
  unfold traced
  cases form : site.form with
  | field line =>
    rw [form] at marks
    exact marks
  | branch header => cases told : header.discriminator <;> simp [ownMarks, told, Token.repeatMark?,
      BodyLine.repeatMark?]
  | unrecognized => rfl
  | control line => cases line <;> rfl

end Site

theorem ownMarks_flatMap_traced (lines : List Site) :
    ownMarks (lines.flatMap (Site.traced false))
      = lines.flatMap fun site => site.form.repeatMark?.toList := by
  induction lines with
  | nil => rfl
  | cons site rest ih =>
    rw [List.flatMap_cons, List.flatMap_cons, ownMarks_append, site.ownMarks_traced, ih]

/-- The marks and walls of lines, with `pack` as a wall or not. -/
def Outline.walled (wall : Bool) (lines : List Site) : List Mark :=
  lines.flatMap fun site => (site.form.mark? wall).toList

theorem filterMap_walled (wall : Bool) (lines : List Site) :
    (walled wall lines).filterMap Mark.repeatMark?
      = lines.flatMap fun site => site.form.repeatMark?.toList := by
  rw [walled, List.filterMap_flatMap]
  exact List.flatMap_congr fun site _ => site.form.filterMap_mark? wall

/-- Behind the lines of a branch stands a wall. -/
theorem walled_dropWhile (lines : List Site) :
    ∃ more, walled false (lines.dropWhile fun site => !site.form.isHeader) ++ [.wall]
      = .wall :: more := by
  cases rest : lines.dropWhile fun site => !site.form.isHeader with
  | nil => exact ⟨[], rfl⟩
  | cons site later =>
    have header : site.form.isHeader = true := by
      have first := List.head?_dropWhile_not (fun site : Site => !site.form.isHeader) lines
      rw [rest] at first
      simpa using first
    cases form : site.form with
    | branch opened => exact ⟨walled false later ++ [.wall], by simp [walled, form, BodyLine.mark?]⟩
    | _ =>
      rw [form] at header
      cases header

/-- The part of a chain up to the next header ends at a wall. -/
theorem chain_takeWhile (before : Mark) {wall : Bool} {lines : List Site}
    (chain : (before :: (walled wall (lines.takeWhile fun site => !site.form.isHeader)
      ++ walled false (lines.dropWhile fun site => !site.form.isHeader) ++ [.wall])).IsChain
        Mark.Linked) :
    (before :: (walled wall (lines.takeWhile fun site => !site.form.isHeader) ++ [.wall])).IsChain
      Mark.Linked := by
  obtain ⟨more, behind⟩ := walled_dropWhile lines
  rw [List.append_assoc, behind] at chain
  exact chain.prefix ⟨more, by simp⟩

theorem walled_append (wall : Bool) (first second : List Site) :
    walled wall (first ++ second) = walled wall first ++ walled wall second :=
  List.flatMap_append

theorem marks_forms (lines : List Site) :
    marks (lines.map Site.form)
      = walled true (lines.takeWhile fun site => !site.form.isHeader)
        ++ walled false (lines.dropWhile fun site => !site.form.isHeader) := by
  simp only [marks, parted, List.takeWhile_map, List.dropWhile_map, List.flatMap_map, walled,
    Function.comp_def]

/-- The marks of each branch alternate. -/
theorem alternating_branch {lines : List Site}
    (chain : (walled false lines ++ [Mark.wall]).IsChain Mark.Linked) :
    ∀ branch ∈ branchTraces lines, Alternating (ownMarks branch) := by
  induction lines with
  | nil => exact fun _ none => nomatch none
  | cons site rest ih =>
    intro branch mem
    have split : walled false (site :: rest)
        = (site.form.mark? false).toList ++ walled false rest := List.flatMap_cons
    rw [split, List.append_assoc] at chain
    have behind := chain.suffix (List.suffix_append ..)
    cases header : site.form.isHeader with
    | false =>
      rw [branchTraces, if_neg (by simp [header])] at mem
      exact ih behind branch mem
    | true =>
      obtain ⟨opened, form⟩ : ∃ opened, site.form = .branch opened := by
        cases form : site.form with
        | branch opened => exact ⟨opened, rfl⟩
        | _ =>
          rw [form] at header
          cases header
      rw [branchTraces, if_pos header] at mem
      rcases List.mem_cons.mp mem with rfl | later
      · rw [form, ← List.takeWhile_append_dropWhile (p := fun site : Site => !site.form.isHeader)
          (l := rest), walled_append] at chain
        have marks := alternating_of_chain (chain_takeWhile .wall chain)
        rw [filterMap_walled] at marks
        rw [ownMarks_flatMap_traced, List.flatMap_cons, form]
        exact marks
      · exact ih behind branch later

theorem branchTraces_dropWhile (lines : List Site) :
    branchTraces (lines.dropWhile fun site => !site.form.isHeader) = branchTraces lines := by
  induction lines with
  | nil => rfl
  | cons site rest ih =>
    cases header : site.form.isHeader with
    | true => rw [List.dropWhile_cons_of_neg (by simp [header])]
    | false =>
      rw [List.dropWhile_cons_of_pos (by simp [header]), ih, branchTraces,
        if_neg (by simp [header])]

/-! ## Parts of a well-formed packet -/

section Parts

variable {trace : String → List TracedUnit} {lines : List Site}

theorem ownMarks_mainLineTrace {site : Site}
    (embedded : ∀ unit ∈ site.splicedTrace trace, unit.embedded = true) :
    ownMarks (mainLineTrace trace site).reduceOption = site.form.repeatMark?.toList := by
  unfold mainLineTrace
  cases place : site.form.isPlaceholder with
  | true =>
    have unmarked : site.form.repeatMark? = none := by
      cases form : site.form with
      | control line =>
        rw [form] at place
        cases line with
        | placeholder => rfl
        | _ => cases place
      | _ => rfl
    rw [unmarked]
    rfl
  | false =>
    have own : ((site.traced false ++ site.splicedTrace trace).map some).reduceOption
        = site.traced false ++ site.splicedTrace trace := by
      simp [List.reduceOption]
    rw [if_neg (by simp), own, ownMarks_append, site.ownMarks_traced,
      ownMarks_of_embedded embedded, List.append_nil]

theorem ownMarks_flatMap_reduceOption {units : Site → List (Option TracedUnit)}
    {marks : Site → List RepeatMark}
    (same : ∀ site ∈ lines, ownMarks (units site).reduceOption = marks site) :
    ownMarks (lines.flatMap units).reduceOption = lines.flatMap marks := by
  induction lines with
  | nil => rfl
  | cons site rest ih =>
    rw [List.flatMap_cons, List.flatMap_cons, List.reduceOption_append, ownMarks_append,
      same site (by simp), ih fun other mem => same other (by simp [mem])]

/-- The marks of the main body are those of the lines before the first
branch. -/
theorem ownMarks_mainTrace
    (embedded : ∀ site ∈ lines, ∀ unit ∈ site.splicedTrace trace, unit.embedded = true) :
    ownMarks (mainTrace trace lines).reduceOption
      = (lines.takeWhile fun site => !site.form.isHeader).flatMap fun site =>
          site.form.repeatMark?.toList := by
  have spliced : ∀ site ∈ lines.dropWhile (fun site => !site.form.isHeader),
      ownMarks ((site.splicedTrace trace).map some).reduceOption = [] := by
    intro site mem
    have all : ((site.splicedTrace trace).map some).reduceOption = site.splicedTrace trace := by
      simp [List.reduceOption]
    rw [all]
    exact ownMarks_of_embedded (embedded site (List.dropWhile_subset _ mem))
  rw [mainTrace, List.reduceOption_append, ownMarks_append,
    ownMarks_flatMap_reduceOption fun site mem =>
      ownMarks_mainLineTrace (embedded site (List.takeWhile_subset _ mem)),
    ownMarks_flatMap_reduceOption spliced]
  simp

variable (rules : WellFormed (lines.map Site.form))

include rules in
/-- The marks of the main body alternate. -/
theorem alternating_main
    (embedded : ∀ site ∈ lines, ∀ unit ∈ site.splicedTrace trace, unit.embedded = true) :
    Alternating (ownMarks (mainTrace trace lines).reduceOption) := by
  have chain := rules.groups
  rw [marks_forms] at chain
  rw [ownMarks_mainTrace embedded, ← filterMap_walled true]
  exact alternating_of_chain (chain_takeWhile .wall chain)

include rules in
/-- The marks of every branch alternate. -/
theorem alternating_branches : ∀ branch ∈ branchTraces lines, Alternating (ownMarks branch) := by
  have chain := rules.groups
  rw [marks_forms, List.append_assoc, ← List.cons_append] at chain
  rw [← branchTraces_dropWhile]
  exact alternating_branch (chain.suffix (List.suffix_append ..))

/-- The groups of an entry that the packet's own lines mark: they are
closed, and at most one stands in another. That happens only if the gap of
the main body stands between the start of a group and its stop, and the
branch in it has a group. -/
structure OwnGroups (trace : String → List TracedUnit) (lines : List Site)
    (units : List TracedUnit) : Prop where
  balanced : Balanced (ownMarks units)
  shallow : ∀ depth, Reaches 0 (ownMarks units) depth → depth ≤ 2
  nested : Reaches 0 (ownMarks units) 2 → ∃ front branch back,
    mainTrace trace lines = front.map some ++ none :: back.map some ∧
    branch ∈ branchTraces lines ∧ units = front ++ branch ++ back ∧
    (∃ earlier, ownMarks front = earlier ++ [.start]) ∧
    (∃ later, ownMarks back = .stop :: later) ∧ ownMarks branch ≠ []

/-- Marks that alternate do not nest. -/
theorem OwnGroups.of_alternating {units : List TracedUnit}
    (alternating : Alternating (ownMarks units)) : OwnGroups trace lines units where
  balanced := balanced_iff.mpr alternating.depth?_eq
  shallow depth here := by
    have flat : depth = 0 ∨ depth = 1 := alternating.reaches here
    omega
  nested deep := by
    have flat : 2 = 0 ∨ 2 = 1 := alternating.reaches deep
    omega

/-- A branch in the gap. -/
theorem OwnGroups.of_filled {front branch back : List TracedUnit}
    (main : mainTrace trace lines = front.map some ++ none :: back.map some)
    (around : Alternating (ownMarks front ++ ownMarks back)) (mem : branch ∈ branchTraces lines)
    (inside : Alternating (ownMarks branch)) :
    OwnGroups trace lines (front ++ branch ++ back) := by
  have marks : ownMarks (front ++ branch ++ back)
      = ownMarks front ++ ownMarks branch ++ ownMarks back := by
    rw [ownMarks_append, ownMarks_append]
  rcases around.cut with ⟨before, after⟩ | ⟨earlier, later, opened, closed, before, after⟩
  · refine .of_alternating ?_
    rw [marks]
    exact (before.append inside).append after
  · by_cases none : ownMarks branch = []
    · refine .of_alternating ?_
      rw [marks, none, List.append_nil]
      exact around
    · have whole : ownMarks (front ++ branch ++ back)
          = (earlier ++ [.start]) ++ ownMarks branch ++ .stop :: later := by
        rw [marks, opened, closed]
      refine ⟨?_, fun depth here => ?_, fun _ => ?_⟩
      · rw [whole]
        exact balanced_inside before inside after
      · rw [whole] at here
        exact reaches_inside before inside after here
      · exact ⟨front, branch, back, main, mem, rfl, ⟨earlier, opened⟩, ⟨later, closed⟩, none⟩

include rules in
/-- The groups of the entries of a well-formed packet. -/
theorem ownGroups_entryTraces
    (embedded : ∀ site ∈ lines, ∀ unit ∈ site.splicedTrace trace, unit.embedded = true) :
    ∀ units ∈ entryTraces trace lines, OwnGroups trace lines units := by
  have main := alternating_main rules embedded
  intro units mem
  unfold entryTraces at mem
  rw [← hasPlaceholder_forms] at mem
  cases seen : hasPlaceholder (lines.map Site.form) with
  | true =>
    rw [if_pos seen] at mem
    obtain ⟨branch, inside, rfl⟩ := List.mem_map.mp mem
    have written := (List.mem_filter.mp inside).1
    obtain ⟨front, back, split, _⟩ := mainTrace_of_placed trace rules.place seen
    have filled : fillGap (mainTrace trace lines) branch = front ++ branch ++ back := by
      simp [split, fillGap, List.flatMap_map]
    have parts : (mainTrace trace lines).reduceOption = front ++ back := by
      simp [split, List.reduceOption]
    rw [parts, ownMarks_append] at main
    rw [filled]
    exact .of_filled split main written (alternating_branches rules branch written)
  | false =>
    rw [if_neg (by simp [seen])] at mem
    obtain ⟨front, split, _⟩ := mainTrace_of_unplaced trace seen
    have filled : fillGap (mainTrace trace lines) [] = (mainTrace trace lines).reduceOption := by
      simp [split, fillGap, List.flatMap_map, List.reduceOption]
    rw [List.mem_singleton.mp mem, filled]
    exact .of_alternating main

end Parts

/-! ## Compiled packets -/

section Compiled

variable {workspace : Workspace} {operation : Operation} {header : String}

/-- All units that come from a fragment stand in one. -/
theorem TracesFragment.embedded {fragments : OrderedMap Fragment} {name : String}
    {units : List TracedUnit} (traces : TracesFragment fragments name units) :
    ∀ unit ∈ units, unit.embedded = true := by
  obtain ⟨_, _, _, _, lines⟩ := traces
  intro unit mem
  obtain ⟨site, produced⟩ := lines.mem mem
  exact Site.embedded_of_traced produced

theorem CompiledPacket.embedded_spliced (compiled : CompiledPacket workspace operation header) :
    ∀ site ∈ compiled.lines, ∀ unit ∈ site.splicedTrace compiled.trace,
      unit.embedded = true := by
  obtain ⟨_, _, lines⟩ := Assembly.assembled_eq_ok compiled.flattens compiled.plain
    compiled.assembled
  intro site mem unit inside
  unfold Site.splicedTrace at inside
  cases ref : site.form.reference? with
  | none =>
    rw [ref] at inside
    cases inside
  | some name =>
    rw [ref] at inside
    obtain ⟨part, found⟩ := (lines site mem).2
    rw [BodyLine.eq_of_reference ref] at found
    exact (compiled.traced name part (remembered_eq_ok_iff.mp found).2).1.embedded unit inside

/-- When a packet is compiled, by whatever operation and after whatever was
done before, the groups that its own lines mark are closed in the main
body, in every branch, and in every signature. In the first two no group
stands in another. -/
theorem compiled_own_groups (reached : Reached Operation.Any workspace)
    (fresh : workspace.results.packets.get? header = none) {set : SignatureSet}
    (kept : (workspace.perform operation).results.packets.get? header = some set) :
    ∃ compiled : CompiledPacket workspace operation header, compiled.set = set ∧
      set.keys = compiled.units.map (fun units => Signature.render (units.map TracedUnit.token)) ∧
      Alternating (ownMarks (mainTrace compiled.trace compiled.lines).reduceOption) ∧
      (∀ branch ∈ branchTraces compiled.lines, Alternating (ownMarks branch)) ∧
      ∀ units ∈ compiled.units, OwnGroups compiled.trace compiled.lines units := by
  obtain ⟨compiled, rfl⟩ := exists_compiledPacket reached fresh kept
  have rules : WellFormed (compiled.lines.map Site.form) := compiled.wellFormed
  have embedded := compiled.embedded_spliced
  refine ⟨compiled, rfl, ?_, alternating_main rules embedded, alternating_branches rules,
    ownGroups_entryTraces rules embedded⟩
  rw [compiled.keys, compiled.expanded, List.map_map]
  rfl

/-- The workspace that has loaded the packet with a group around the
placeholder, a group in the branch, and a group from a fragment. -/
def Workspace.nested : Workspace :=
  ({} : Workspace).perform (.load closedSource)

/-- In its signature the group of the branch stands in that of the main
body. -/
theorem compiled_own_groups_nested :
    Reached Operation.Any nested ∧
    nested.results.packets.get? "6F" = none ∧
    ∃ compiled : CompiledPacket nested .compileAll "6F",
      compiled.set.keys = ["[REPS] 01 [REPS] $1 [REPE] [REPE] [REPS] $2 [REPE]"] ∧
      (branchTraces compiled.lines).map ownMarks = [[.start, .stop]] ∧
      ∃ units, compiled.units = [units] ∧ OwnGroups compiled.trace compiled.lines units := by
  have reached : Reached Operation.Any nested := Reached.start.perform trivial
  have fresh : nested.results.packets.get? "6F" = none := by decide +kernel
  have shown : ((nested.perform .compileAll).results.packets.get? "6F").map OrderedMap.keys
      = some ["[REPS] 01 [REPS] $1 [REPE] [REPE] [REPS] $2 [REPE]"] := by decide +kernel
  have branches : ∀ packet ∈ nested.declared.packets.get? "6F",
      (branchTraces packet.body.lines).map ownMarks = [[.start, .stop]] := by decide +kernel
  obtain ⟨set, kept, keys⟩ := Option.map_eq_some_iff.mp shown
  obtain ⟨compiled, rfl, texts, _, _, groups⟩ := compiled_own_groups reached fresh kept
  obtain ⟨units, one⟩ : ∃ units, compiled.units = [units] := by
    rw [← List.length_eq_one_iff]
    have counted := congrArg List.length (texts.symm.trans keys)
    rwa [List.length_map] at counted
  exact ⟨reached, fresh, compiled, keys, branches compiled.packet compiled.declared, units, one,
    groups units (by simp [one])⟩

end Compiled

end PacketLayout
