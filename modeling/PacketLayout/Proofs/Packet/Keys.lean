/-
PacketLayout.Proofs.Packet.Keys — the signatures of a packet differ.

The branches of a packet are compared with each other before they are put
in the place of the placeholder, and the results are not compared again.
That is enough: the main body has exactly one mark, so all signatures of
a packet have the same units around their branch, and a branch that is
not blank can be read off the text of the whole.

* `Marked.take`: every accepted line keeps one mark in the main body, and
  none in a branch.
* `Marked.distinct_texts`: the texts of the signatures are distinct.
* `Marked.brace_not_mem`: none of them shows a mark.
-/
import PacketLayout.Proofs.Expansion.Plain
import PacketLayout.Proofs.Packet.Following

namespace PacketLayout

/-- The units have no mark, or one if it has been `seen`. -/
def OneMark : Bool → Signature → Prop
  | false, main => ∀ token ∈ main, token.Plain
  | true, main => ∃ front back, main = front ++ [.subCategory] ++ back ∧
    (∀ token ∈ front, token.Plain) ∧ ∀ token ∈ back, token.Plain

theorem OneMark.append {seen : Bool} {main more : Signature} (one : OneMark seen main)
    (plain : ∀ token ∈ more, token.Plain) : OneMark seen (main ++ more) := by
  cases seen with
  | false =>
    intro token mem
    rcases List.mem_append.mp mem with old | new
    · exact one token old
    · exact plain token new
  | true =>
    obtain ⟨front, back, rfl, inFront, inBack⟩ := one
    refine ⟨front, back ++ more, by simp, inFront, fun token mem => ?_⟩
    rcases List.mem_append.mp mem with old | new
    · exact inBack token old
    · exact plain token new

theorem OneMark.mark {main : Signature} (none : OneMark false main) :
    OneMark true (main ++ [.subCategory]) :=
  ⟨main, [], by simp, none, by simp⟩

/-- A branch in the place of the mark leaves no mark. -/
theorem OneMark.expand {main branch : Signature} (one : OneMark true main)
    (plain : ∀ token ∈ branch, token.Plain) :
    ∀ token ∈ Signature.expand main branch, token.Plain := by
  obtain ⟨front, back, rfl, inFront, inBack⟩ := one
  have hf : Token.subCategory ∉ front := fun mem => (inFront _ mem).ne_subCategory rfl
  have hb : Token.subCategory ∉ back := fun mem => (inBack _ mem).ne_subCategory rfl
  rw [Signature.expand_around branch hf hb]
  intro token mem
  simp only [List.mem_append] at mem
  rcases mem with (mem | mem) | mem
  · exact inFront token mem
  · exact plain token mem
  · exact inBack token mem

/-- The text of a branch can be read off the text of its signature. -/
theorem OneMark.render_expand_inj {main left right : Signature} (one : OneMark true main)
    (hl : left.isBlank = false) (hr : right.isBlank = false)
    (same : (Signature.expand main left).render = (Signature.expand main right).render) :
    left.render = right.render := by
  obtain ⟨front, back, rfl, inFront, inBack⟩ := one
  have hf : Token.subCategory ∉ front := fun mem => (inFront _ mem).ne_subCategory rfl
  have hb : Token.subCategory ∉ back := fun mem => (inBack _ mem).ne_subCategory rfl
  rw [Signature.expand_around left hf hb, Signature.expand_around right hf hb] at same
  exact Signature.render_around_inj hl hr same

/-- A finished branch has a text, and no mark. -/
structure Branch.Finished (branch : Branch) : Prop where
  filled : branch.signature.isBlank = false
  plain : ∀ token ∈ branch.signature, token.Plain

/-! ## Lines -/

/-- A line by itself gives no mark. -/
theorem Site.plain_own (site : Site) : site.form.own.Plain := by
  unfold Site.form
  split
  · rename_i line read
    exact BodyLine.plain_own read
  · exact Expansion.all_empty

theorem Site.plain_lead (site : Site) :
    ∀ header, site.form = .branch header → header.lead.Plain := by
  intro header form
  unfold Site.form at form
  split at form
  · rename_i line read
    exact BodyLine.plain_lead (form ▸ read)
  · cases form

theorem BodyLine.plain_of_part {expand : String → Site → Except Failure Expansion}
    (plain : ∀ name site found, expand name site = .ok found → found.Plain)
    {site : Site} {line : BodyLine} {part : Expansion}
    (h : line.part expand site = .ok part) : part.Plain := by
  unfold BodyLine.part at h
  split at h
  · exact plain _ _ _ h
  · cases h
    exact Expansion.all_empty

/-! ## What is collected -/

namespace Assembly

/-- Marks stand where they should, and the finished branches differ. -/
structure Marked (made : Assembly) : Prop where
  main : OneMark made.placeholder.isSome made.main
  current : ∀ branch, made.current = some branch → ∀ token ∈ branch.signature, token.Plain
  branches : ∀ branch ∈ made.branches, branch.Finished
  distinct : (made.branches.map fun branch => branch.signature.render).Nodup

namespace Marked

variable {made later : Assembly}

theorem start : Marked {} where
  main := by simp [OneMark]
  current _ here := nomatch here
  branches := by simp
  distinct := by simp

theorem add (marked : Marked made) {token : Token} (plain : token.Plain) (field : Field) :
    Marked (made.add token field) := by
  have one : ∀ other ∈ [token], other.Plain := by simpa using plain
  unfold Assembly.add
  cases opened : made.current with
  | some branch =>
    refine ⟨marked.main, fun other here => ?_, marked.branches, marked.distinct⟩
    cases here
    intro unit mem
    rcases List.mem_append.mp mem with old | new
    · exact marked.current branch opened unit old
    · exact one unit new
  | none =>
    cases behind : made.placeholder.isSome with
    | true =>
      exact ⟨marked.main.append one, fun _ here => (nomatch here), marked.branches,
        marked.distinct⟩
    | false =>
      exact ⟨marked.main.append one, fun _ here => (nomatch here), marked.branches,
        marked.distinct⟩

/-- Closing the open branch finishes it; its text is new. -/
theorem withClosed (marked : Marked made) (closable : made.Closable) :
    Marked made.withClosed := by
  cases opened : made.current with
  | none => rwa [withClosed_of_idle opened]
  | some branch =>
    cases blank : branch.signature.isBlank with
    | true =>
      rw [withClosed_of_blank opened blank]
      exact ⟨marked.main, fun _ here => (nomatch here), marked.branches, marked.distinct⟩
    | false =>
      rw [withClosed_of_filled opened blank]
      refine ⟨marked.main, fun _ here => (nomatch here), ?_, ?_⟩
      · intro other mem
        rcases List.mem_append.mp mem with old | new
        · exact marked.branches other old
        · obtain rfl : other = branch := by simpa using new
          exact ⟨blank, marked.current other opened⟩
      · rw [List.map_append, List.nodup_append]
        refine ⟨marked.distinct, by simp, fun text mem other here same => ?_⟩
        obtain ⟨old, inOld, rfl⟩ := List.mem_map.mp mem
        obtain rfl : other = branch.signature.render := by simpa using here
        exact closable branch opened blank old inOld same

theorem withOpened (marked : Marked made) {header : BranchHeader} (plain : header.lead.Plain)
    (site : Site) : Marked (made.withOpened header site) where
  main := marked.main
  current branch here := by
    cases here
    exact plain
  branches := marked.branches
  distinct := marked.distinct

/-- Every line that is accepted keeps the marks where they should be and
the finished branches distinct. -/
theorem take (marked : Marked made) {site : Site} {part : Expansion} {line : BodyLine}
    (own : line.own.Plain) (lead : ∀ header, line = .branch header → header.lead.Plain)
    (plain : part.Plain) (taken : made.take site part line = .ok later) : Marked later := by
  cases line with
  | field line =>
    cases taken
    exact marked.add (own line.token (by simp [BodyLine.own])) line.field
  | branch header =>
    obtain ⟨⟨_, closable, _⟩, rfl⟩ := opened_eq_ok_iff.mp taken
    exact (marked.withClosed closable).withOpened (lead header rfl) site
  | unrecognized => cases taken
  | control line =>
    cases line with
    | fragmentRef name =>
      cases taken
      exact ⟨marked.main.append plain, marked.current, marked.branches, marked.distinct⟩
    | placeholder =>
      obtain ⟨⟨unseen, _⟩, rfl⟩ := addPlaceholder_eq_ok_iff.mp taken
      have none := marked.main
      rw [unseen] at none
      exact ⟨none.mark, marked.current, marked.branches, marked.distinct⟩
    | repeatStart =>
      obtain ⟨_, rfl⟩ := startRepeat_eq_ok_iff.mp taken
      have added := marked.add Token.plain_repeatStart .placeholder
      exact ⟨added.main, added.current, added.branches, added.distinct⟩
    | repeatEnd =>
      obtain ⟨_, rfl⟩ := endRepeat_eq_ok_iff.mp taken
      have added := marked.add Token.plain_repeatEnd .placeholder
      exact ⟨added.main, added.current, added.branches, added.distinct⟩
    | pack =>
      obtain ⟨_, rfl⟩ := pack_eq_ok_iff.mp taken
      exact ⟨marked.main, marked.current, marked.branches, marked.distinct⟩

/-- The texts of the signatures are distinct: each shows its branch
between the same units. -/
theorem distinct_texts (marked : Marked made) (seen : made.placeholder.isSome = true) :
    ((made.branches.map made.entry).map Prod.fst).Nodup := by
  have one := marked.main
  rw [seen] at one
  have distinct := marked.distinct
  rw [List.Nodup, List.pairwise_map] at distinct
  rw [List.map_map, List.Nodup, List.pairwise_map]
  -- equal signatures would come from branches with equal texts
  refine distinct.imp_of_mem fun inLeft inRight differ same => differ ?_
  exact one.render_expand_inj (marked.branches _ inLeft).filled (marked.branches _ inRight).filled
    same

/-- No signature shows a mark. -/
theorem brace_not_mem (marked : Marked made) (seen : made.placeholder.isSome = true) :
    ∀ branch ∈ made.branches, '\x7b' ∉ (made.entry branch).1.toList := by
  have one := marked.main
  rw [seen] at one
  intro branch mem
  exact Signature.brace_not_mem_render (one.expand (marked.branches branch mem).plain)

end Marked

/-! ## Whole packets -/

variable {expand : String → Site → Except Failure Expansion}

/-- What has been collected of a packet has its marks where they should
be, if none comes from a fragment. -/
theorem marked_of_foldlM
    (plain : ∀ name site found, expand name site = .ok found → found.Plain)
    {lines : List Site} {made : Assembly} (h : lines.foldlM (step expand) {} = .ok made) :
    Marked made := by
  refine foldlM_step_induction (motive := fun _ made => Marked made) .start ?_ h
  intro done site made later marked accepted
  obtain ⟨part, found, taken⟩ := step_eq_ok_iff.mp accepted
  exact marked.take site.plain_own site.plain_lead (BodyLine.plain_of_part plain found) taken

end Assembly

end PacketLayout
