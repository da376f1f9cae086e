/-
PacketLayout.Proofs.Additions — lines may be added in any order.

The bodies of a workspace take in lines in any order and for any of its
declarations. An addition is answered by what stands under the number of the
line in its declaration, and it changes this and nothing else. So additions
for different places have nothing to do with each other: each has the answer
that it would have if it were the only one, and all of them leave the same
workspace, whichever comes first.

* `Workspace.addLine_cases`: all that can come of an addition.
* `Workspace.text?_addLines`: under each number stands what was there, or
  else what was the first to be added.
* `Workspace.workspace_addLines_perm`, `Workspace.answers_addLines`:
  additions for different places, in another order.
* `Workspace.additions_in_any_order`: all of it.
-/
import PacketLayout.Proofs.Bodies
import PacketLayout.Proofs.Retry

namespace PacketLayout

/-! ## Lines for declarations -/

/-- A line for the body of a declaration. -/
structure Addition where
  owner : Owner
  site : Site
  deriving DecidableEq

/-- What the line takes: a number in a declaration. -/
def Addition.slot (addition : Addition) : Owner × Nat :=
  (addition.owner, addition.site.line)

/-- The lines for one of the declarations. -/
def linesFor (owner : Owner) (additions : List Addition) : List Site :=
  (additions.filter fun addition => addition.owner = owner).map Addition.site

theorem linesFor_cons (owner : Owner) (addition : Addition) (rest : List Addition) :
    linesFor owner (addition :: rest)
      = if addition.owner = owner then addition.site :: linesFor owner rest
        else linesFor owner rest := by
  by_cases here : addition.owner = owner <;> simp [linesFor, here]

theorem foldl_linesFor_cons (owner : Owner) (addition : Addition) (rest : List Addition)
    (body : Body) :
    (linesFor owner (addition :: rest)).foldl Body.accept body
      = (linesFor owner rest).foldl Body.accept
          (if owner = addition.owner then body.accept addition.site else body) := by
  rw [linesFor_cons]
  by_cases here : addition.owner = owner
  · simp [here]
  · simp [here, Ne.symm here]

theorem linesFor_perm {additions others : List Addition} (same : additions.Perm others)
    (owner : Owner) : (linesFor owner additions).Perm (linesFor owner others) :=
  (same.filter _).map _

theorem distinct_linesFor {additions : List Addition}
    (distinct : (additions.map Addition.slot).Nodup) (owner : Owner) :
    ((linesFor owner additions).map Site.line).Nodup := by
  unfold linesFor
  have apart : (additions.filter fun addition => addition.owner = owner).Pairwise
      fun first second => first.slot ≠ second.slot :=
    (List.pairwise_map.mp distinct).filter _
  refine List.pairwise_map.mpr (List.pairwise_map.mpr (apart.imp_of_mem ?_))
  intro first second one two other same
  have hers : first.owner = owner := by simpa using (List.mem_filter.mp one).2
  have his : second.owner = owner := by simpa using (List.mem_filter.mp two).2
  exact other (Prod.ext (hers.trans his.symm) same)

/-- The text that was added first under a number of a declaration, of the
additions with their answers. -/
def firstAdded (answered : List (Addition × Except Failure Unit)) (owner : Owner)
    (number : Nat) : Option String :=
  (answered.find? fun (addition, answer) =>
    addition.slot = (owner, number) ∧ answer = .ok ()).map fun (addition, _) => addition.site.raw

theorem firstAdded_cons (addition : Addition) (answer : Except Failure Unit)
    (answered : List (Addition × Except Failure Unit)) (owner : Owner) (number : Nat) :
    firstAdded ((addition, answer) :: answered) owner number
      = if addition.slot = (owner, number) ∧ answer = .ok () then some addition.site.raw
        else firstAdded answered owner number := by
  by_cases here : addition.slot = (owner, number) ∧ answer = .ok () <;>
    simp [firstAdded, here]

namespace Workspace

/-! ## One addition -/

theorem addLine_eq (workspace : Workspace) (owner : Owner) (site : Site) :
    workspace.addLine owner site
      = match workspace.declared.addLine owner site with
        | .ok after => (.ok (), { workspace with declared := after })
        | .error failure => (.error failure, workspace) := by
  have run : (declareLine owner site).Ends workspace.declared fun result left entries =>
      (result, { workspace with declared := left, journal := workspace.journal ++ entries })
        = match workspace.declared.addLine owner site with
          | .ok after => (.ok (), { workspace with declared := after })
          | .error failure => (.error failure, workspace) := by
    unfold declareLine
    rw [ends_changeDeclarations]
    cases workspace.declared.addLine owner site <;> simp
  exact run

/-- All that can come of an addition. -/
theorem addLine_cases (workspace : Workspace) (owner : Owner) (site : Site) :
    (workspace.declared.body? owner = none ∧
      workspace.addLine owner site = (.error (Cause.noDeclaration.atSite site), workspace)) ∨
    ∃ body, workspace.declared.body? owner = some body ∧
      ((∃ other ∈ body.lines, other.line = site.line) ∧
        workspace.addLine owner site
          = (.error ((Cause.duplicateLine site.line).atSite site), workspace) ∨
      (∀ other ∈ body.lines, other.line ≠ site.line) ∧
        workspace.addLine owner site
          = (.ok (), { workspace with declared := workspace.declared.accept owner site })) := by
  rw [addLine_eq]
  cases there : workspace.declared.body? owner with
  | none => exact .inl ⟨rfl, by rw [Declarations.addLine_of_body?_none there]⟩
  | some body =>
    refine .inr ⟨body, rfl, ?_⟩
    rw [Declarations.addLine_of_body? there]
    cases added : body.add? site with
    | none => exact .inl ⟨Body.add?_eq_none_iff.mp added, rfl⟩
    | some longer => exact .inr ⟨Body.free_of_add? added, rfl⟩

/-- An addition is refused for its number just if the number is taken. -/
theorem addLine_duplicate_iff {workspace : Workspace} {owner : Owner} {site : Site} :
    (workspace.addLine owner site).1
        = .error ((Cause.duplicateLine site.line).atSite site) ↔
      ∃ body, workspace.declared.body? owner = some body ∧
        ∃ other ∈ body.lines, other.line = site.line := by
  rcases workspace.addLine_cases owner site with
    ⟨absent, run⟩ | ⟨body, there, ⟨taken, run⟩ | ⟨free, run⟩⟩
  · simp [run, absent, Cause.atSite]
  · simp only [run, there, Option.some.injEq, exists_eq_left', taken]
  · simpa [run, there] using free

/-- An addition is refused for its declaration just if there is none. -/
theorem addLine_missing_iff {workspace : Workspace} {owner : Owner} {site : Site} :
    (workspace.addLine owner site).1 = .error (Cause.noDeclaration.atSite site) ↔
      workspace.declared.body? owner = none := by
  rcases workspace.addLine_cases owner site with
    ⟨absent, run⟩ | ⟨body, there, ⟨_, run⟩ | ⟨_, run⟩⟩
  · simp [run, absent]
  · simp [run, there, Cause.atSite]
  · simp [run, there]

/-- It is refused for no other reason, and then nothing changes. -/
theorem addLine_refused {workspace : Workspace} {owner : Owner} {site : Site}
    {failure : Failure} (refused : (workspace.addLine owner site).1 = .error failure) :
    (failure = (Cause.duplicateLine site.line).atSite site ∨
      failure = Cause.noDeclaration.atSite site) ∧
    (workspace.addLine owner site).2 = workspace := by
  rcases workspace.addLine_cases owner site with
    ⟨_, run⟩ | ⟨_, _, ⟨_, run⟩ | ⟨_, run⟩⟩
  · rw [run] at refused ⊢
    cases refused
    exact ⟨.inr rfl, rfl⟩
  · rw [run] at refused ⊢
    cases refused
    exact ⟨.inl rfl, rfl⟩
  · rw [run] at refused
    cases refused

/-- The workspace that an addition leaves, whether it is made or not. -/
theorem workspace_addLine (workspace : Workspace) (owner : Owner) (site : Site) :
    (workspace.addLine owner site).2
      = { workspace with declared := workspace.declared.accept owner site } := by
  -- What is refused has been offered to no body, or to one that stays the same.
  rcases workspace.addLine_cases owner site with
    ⟨absent, run⟩ | ⟨body, there, ⟨taken, run⟩ | ⟨_, run⟩⟩
  · have same : workspace.declared.accept owner site = workspace.declared :=
      Declarations.accept_of_refused fun body there => by
        rw [absent] at there
        cases there
    rw [run, same]
  · have same : workspace.declared.accept owner site = workspace.declared :=
      Declarations.accept_of_refused fun other here => by
        obtain rfl : body = other := Option.some.inj (there.symm.trans here)
        exact Body.add?_eq_none_iff.mpr taken
    rw [run, same]
  · rw [run]

/-- An answer depends on what is under the number of the line in its
declaration. -/
theorem answer_addLine (workspace : Workspace) (owner : Owner) (site : Site) :
    (workspace.addLine owner site).1
      = match (workspace.declared.body? owner).map fun body => body.text? site.line with
        | none => .error (Cause.noDeclaration.atSite site)
        | some (some _) => .error ((Cause.duplicateLine site.line).atSite site)
        | some none => .ok () := by
  rcases workspace.addLine_cases owner site with
    ⟨absent, run⟩ | ⟨body, there, ⟨⟨other, mem, taken⟩, run⟩ | ⟨free, run⟩⟩
  · rw [run, absent]
    rfl
  · have read : body.text? site.line = some other.raw :=
      Body.text?_eq_some_iff.mpr (taken ▸ mem)
    rw [run, there, Option.map_some, read]
  · have read : body.text? site.line = none := textUnder?_eq_none_iff.mpr free
    rw [run, there, Option.map_some, read]

/-- What is under a number after an offer to the body of a declaration. -/
theorem text?_offered (addition : Addition) (owner : Owner) (body : Body) (number : Nat) :
    (if owner = addition.owner then body.accept addition.site else body).text? number
      = (body.text? number).or
          (if addition.slot = (owner, number) then some addition.site.raw else none) := by
  by_cases here : owner = addition.owner
  · subst here
    rw [if_pos rfl, Body.text?_accept]
    by_cases same : addition.site.line = number <;>
      simp [textUnder?, Addition.slot, same]
  · simp [here, Addition.slot, Ne.symm here]

/-! ## One addition after another -/

/-- Makes additions one after another, whatever comes of each, and notes the
answer beside it. -/
def addLines (workspace : Workspace) :
    List Addition → List (Addition × Except Failure Unit) × Workspace
  | [] => ([], workspace)
  | addition :: rest =>
    let (answer, next) := workspace.addLine addition.owner addition.site
    let (answered, last) := next.addLines rest
    ((addition, answer) :: answered, last)

theorem answers_addLines_cons (workspace : Workspace) (addition : Addition)
    (rest : List Addition) :
    (workspace.addLines (addition :: rest)).1
      = (addition, (workspace.addLine addition.owner addition.site).1)
        :: ((workspace.addLine addition.owner addition.site).2.addLines rest).1 := rfl

theorem workspace_addLines_cons (workspace : Workspace) (addition : Addition)
    (rest : List Addition) :
    (workspace.addLines (addition :: rest)).2
      = ((workspace.addLine addition.owner addition.site).2.addLines rest).2 := rfl

/-- After additions every body has been offered the lines for it, and nothing
else has changed. -/
theorem workspace_addLines (additions : List Addition) (workspace : Workspace) :
    (workspace.addLines additions).2 = { workspace with
      declared := workspace.declared.mapBodies fun owner body =>
        (linesFor owner additions).foldl Body.accept body } := by
  induction additions generalizing workspace with
  | nil =>
    change workspace
      = { workspace with declared := workspace.declared.mapBodies fun _ body => body }
    rw [Declarations.mapBodies_same]
  | cons addition rest ih =>
    rw [workspace_addLines_cons, workspace_addLine, ih]
    dsimp only
    rw [Declarations.accept, Declarations.mapBodies_mapBodies]
    congr 1
    exact Declarations.mapBodies_congr fun owner body _ => (foldl_linesFor_cons ..).symm

theorem body?_addLines (additions : List Addition) (workspace : Workspace) (owner : Owner) :
    (workspace.addLines additions).2.declared.body? owner
      = (workspace.declared.body? owner).map fun body =>
          (linesFor owner additions).foldl Body.accept body := by
  rw [workspace_addLines]
  exact Declarations.body?_mapBodies _ _ _

/-- Every line of a body was there, or else it was the first that was added
under its number. -/
theorem text?_addLines {owner : Owner} (additions : List Addition) {workspace : Workspace}
    {body : Body} (there : workspace.declared.body? owner = some body) (number : Nat) :
    ((linesFor owner additions).foldl Body.accept body).text? number
      = (body.text? number).or (firstAdded (workspace.addLines additions).1 owner number) := by
  induction additions generalizing workspace body with
  | nil => simp [linesFor, firstAdded, addLines]
  | cons addition rest ih =>
    have next : (workspace.addLine addition.owner addition.site).2.declared.body? owner
        = some (if owner = addition.owner then body.accept addition.site else body) := by
      rw [workspace_addLine]
      dsimp only
      rw [Declarations.body?_accept, there, Option.map_some]
    rw [foldl_linesFor_cons, ih next, text?_offered, answers_addLines_cons, firstAdded_cons,
      Option.or_assoc]
    -- What was there from the start stays, whatever the answer is. Else the
    -- number is free, and the first line for it is added.
    cases read : body.text? number with
    | some text => rfl
    | none =>
      by_cases slot : addition.slot = (owner, number)
      · obtain ⟨rfl, rfl⟩ := Prod.mk.inj slot
        have made : (workspace.addLine addition.owner addition.site).1 = .ok () := by
          rw [answer_addLine, there, Option.map_some, read]
        simp [slot, made]
      · simp [slot]

/-! ## Another order -/

/-- The answer to an addition does not depend on additions for other
places. -/
theorem answer_after (workspace : Workspace) {first addition : Addition}
    (apart : first.slot ≠ addition.slot) :
    ((workspace.addLine first.owner first.site).2.addLine addition.owner addition.site).1
      = (workspace.addLine addition.owner addition.site).1 := by
  rw [answer_addLine, answer_addLine, workspace_addLine]
  dsimp only
  rw [Declarations.body?_accept, Option.map_map]
  have elsewhere : first.slot ≠ (addition.owner, addition.site.line) := apart
  congr 2
  funext body
  rw [Function.comp_apply, text?_offered, if_neg elsewhere, Option.or_none]

/-- Additions for different places are answered as if each were the only
one. -/
theorem answers_addLines {additions : List Addition}
    (distinct : (additions.map Addition.slot).Nodup) (workspace : Workspace) :
    (workspace.addLines additions).1 = additions.map fun addition =>
      (addition, (workspace.addLine addition.owner addition.site).1) := by
  induction additions generalizing workspace with
  | nil => rfl
  | cons first rest ih =>
    obtain ⟨new, later⟩ := List.nodup_cons.mp distinct
    rw [answers_addLines_cons, ih later, List.map_cons]
    congr 1
    refine List.map_congr_left fun addition mem => ?_
    have apart : first.slot ≠ addition.slot := fun same =>
      new (List.mem_map.mpr ⟨addition, mem, same.symm⟩)
    rw [answer_after workspace apart]

theorem workspace_addLines_perm {additions others : List Addition}
    (same : additions.Perm others) (distinct : (additions.map Addition.slot).Nodup)
    (workspace : Workspace) :
    (workspace.addLines others).2 = (workspace.addLines additions).2 := by
  rw [workspace_addLines, workspace_addLines]
  congr 1
  refine Declarations.mapBodies_congr fun owner body _ => ?_
  exact (Body.foldl_accept_perm (linesFor_perm same owner)
    (distinct_linesFor distinct owner) body).symm

/-! ## All of it -/

/-- Lines may be added in any order.

An addition is refused for its number just if the number is taken in its
declaration, and for its declaration just if there is none; it is refused for
no other reason, and then it changes nothing. After any additions there are the
same declarations. The lines of each ascend, and under every number stands what
was there, or else what was the first to be added. Additions for different
places may change their order: each has the same answer, they leave the same
workspace, and what is compiled there comes to the same. -/
theorem additions_in_any_order (workspace : Workspace) :
    (∀ owner site,
      ((workspace.addLine owner site).1
          = .error ((Cause.duplicateLine site.line).atSite site) ↔
        ∃ body, workspace.declared.body? owner = some body ∧
          ∃ other ∈ body.lines, other.line = site.line) ∧
      ((workspace.addLine owner site).1 = .error (Cause.noDeclaration.atSite site) ↔
        workspace.declared.body? owner = none) ∧
      ∀ failure, (workspace.addLine owner site).1 = .error failure →
        (failure = (Cause.duplicateLine site.line).atSite site ∨
          failure = Cause.noDeclaration.atSite site) ∧
        (workspace.addLine owner site).2 = workspace) ∧
    (∀ additions owner, Option.Rel
      (fun body later =>
        (later.lines.Pairwise fun first second => first.line < second.line) ∧
        ∀ number, later.text? number
          = (body.text? number).or (firstAdded (workspace.addLines additions).1 owner number))
      (workspace.declared.body? owner)
      ((workspace.addLines additions).2.declared.body? owner)) ∧
    ∀ additions others, additions.Perm others → (additions.map Addition.slot).Nodup →
      (workspace.addLines others).1.Perm (workspace.addLines additions).1 ∧
      (workspace.addLines others).2 = (workspace.addLines additions).2 ∧
      ∀ call, (workspace.addLines others).2.compile call
        = (workspace.addLines additions).2.compile call := by
  refine ⟨?_, ?_, ?_⟩
  · intro owner site
    exact ⟨addLine_duplicate_iff, addLine_missing_iff, fun _ => addLine_refused⟩
  · intro additions owner
    rw [body?_addLines]
    cases there : workspace.declared.body? owner with
    | none => exact .none
    | some body => exact .some ⟨Body.ascending _, text?_addLines additions there⟩
  · intro additions others same distinct
    have left := workspace_addLines_perm same distinct workspace
    have alsoDistinct := (same.map Addition.slot).nodup_iff.mp distinct
    refine ⟨?_, left, fun call => by rw [left]⟩
    rw [answers_addLines distinct, answers_addLines alsoDistinct]
    exact same.symm.map _

/-- A fragment with one line, and a packet without lines. -/
def twoBodies : Workspace :=
  [.registerFragment "Point" ⟨1, "Fragment[Point]"⟩,
   .addLine (.fragment "Point") ⟨3, "y:$2"⟩,
   .registerPacket "Move" "01" ⟨5, "Packet[Move]:01"⟩].foldl perform {}

/-- Lines for the fragment and for the packet, and one for a packet that is
not there. The number 3 of the fragment is taken. -/
def mixedAdditions : List Addition :=
  [⟨.packet "01", ⟨18446744073709551615, "id:$4"⟩⟩,
   ⟨.fragment "Point", ⟨3, "z:$2"⟩⟩,
   ⟨.packet "01", ⟨3, "+ Fragment[Point]"⟩⟩,
   ⟨.packet "02", ⟨3, "a:$1"⟩⟩,
   ⟨.fragment "Point", ⟨2, "x:$2"⟩⟩]

/-- Backwards they come to the same, and the packet can be compiled. -/
theorem additions_in_any_order_backwards :
    mixedAdditions.Perm mixedAdditions.reverse ∧
    (mixedAdditions.map Addition.slot).Nodup ∧
    (twoBodies.addLines mixedAdditions.reverse).2 = (twoBodies.addLines mixedAdditions).2 ∧
    (twoBodies.addLines mixedAdditions).2.declared.body? (.fragment "Point")
      = some ⟨[⟨2, "x:$2"⟩, ⟨3, "y:$2"⟩], by decide⟩ ∧
    ((twoBodies.addLines mixedAdditions).2.addLine (.packet "01") ⟨3, "b:$1"⟩).1
      = .error ((Cause.duplicateLine 3).atSite ⟨3, "b:$1"⟩) ∧
    ((twoBodies.addLines mixedAdditions).2.addLine (.packet "01") ⟨3, "b:$1"⟩).2
      = (twoBodies.addLines mixedAdditions).2 ∧
    ((twoBodies.addLines mixedAdditions.reverse).2.compile (.packet "01")).1 = .ok () := by
  have perm : mixedAdditions.Perm mixedAdditions.reverse := mixedAdditions.reverse_perm.symm
  have distinct : (mixedAdditions.map Addition.slot).Nodup := by decide
  obtain ⟨_, _, orders⟩ := additions_in_any_order twoBodies
  obtain ⟨_, same, compiled⟩ := orders _ _ perm distinct
  obtain ⟨next, _, _⟩ := additions_in_any_order (twoBodies.addLines mixedAdditions).2
  obtain ⟨duplicate, _, refused⟩ := next (.packet "01") ⟨3, "b:$1"⟩
  have taken := duplicate.mpr
    ⟨⟨[⟨3, "+ Fragment[Point]"⟩, ⟨18446744073709551615, "id:$4"⟩], by decide⟩,
      by decide +kernel, _, List.mem_cons_self, rfl⟩
  refine ⟨perm, distinct, same, by decide +kernel, taken, (refused _ taken).2, ?_⟩
  rw [compiled]
  decide +kernel

end Workspace

end PacketLayout
