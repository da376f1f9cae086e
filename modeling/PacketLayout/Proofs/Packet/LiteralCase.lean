/-
PacketLayout.Proofs.Packet.LiteralCase — literal bytes in either case.

Literal bytes are kept as they are written, and so the same bytes may
stand in two keys in different spelling. Within one packet there are two
rules against keys that are alike: discriminators are compared in
capitals, and the texts of branches as they are. Neither compares what
the fields of two branches write in different spelling.

`capitalKey` puts the literal words of a key in capitals. What the keys
of a packet have in common drops out of the comparison, so two of them
are alike exactly if their branches are.

* `capitalKey_eq_iff`: keys are alike if their words are, one by one.
* `OneMark.capitalKey_expand_iff`: only the branch counts.
* `capitalKey_text_ne`: two branches that both have a discriminator are
  not alike.
* `Workspace.compiled_keys_capital`: which keys of a compiled packet can
  be alike.
-/
import PacketLayout.Proofs.Packet.Compiled

namespace PacketLayout

open Outline Signature Text

/-! ## Words in capitals -/

/-- Literal bytes with their letters in capitals; any other word as it
is. -/
def capitalWord (word : String) : String :=
  if isHexBytes word.toList then upper word else word

/-- The key with its literal words in capitals. -/
def capitalKey (key : String) : String :=
  " ".intercalate ((unitWords key).map fun word => capitalWord (String.ofList word))

/-- A word in capitals is a word again. -/
theorem capitalWord_word {word : String} (h : word ≠ "" ∧ ' ' ∉ word.toList) :
    capitalWord word ≠ "" ∧ ' ' ∉ (capitalWord word).toList := by
  unfold capitalWord
  split
  · constructor
    · simpa [upper] using h.1
    · intro mem
      simp only [upper, String.toList_ofList, List.mem_map] at mem
      obtain ⟨c, inside, same⟩ := mem
      rw [eq_of_toUpper_eq same (by decide)] at inside
      exact h.2 inside
  · exact h

namespace Signature

variable {signature first second : Signature}

/-- The texts that a signature shows, literal bytes in capitals. -/
def capitals (signature : Signature) : List String :=
  signature.texts.map capitalWord

theorem capitals_append (first second : Signature) :
    capitals (first ++ second) = capitals first ++ capitals second := by
  simp [capitals, texts_append]

theorem capitals_words (legible : ∀ token ∈ signature, token.Legible) :
    ∀ word ∈ signature.capitals, word ≠ "" ∧ ' ' ∉ word.toList := by
  intro word mem
  obtain ⟨text, shown, rfl⟩ := List.mem_map.mp mem
  exact capitalWord_word (texts_words legible text shown)

theorem capitalKey_render (legible : ∀ token ∈ signature, token.Legible) :
    capitalKey signature.render = " ".intercalate signature.capitals := by
  rw [capitalKey, unitWords_render legible, List.map_map, capitals]
  congr 1
  exact List.map_congr_left fun text _ => by simp

/-- Keys are alike if their words are, one by one. -/
theorem capitalKey_eq_iff (one : ∀ token ∈ first, token.Legible)
    (two : ∀ token ∈ second, token.Legible) :
    capitalKey first.render = capitalKey second.render ↔ first.capitals = second.capitals := by
  rw [capitalKey_render one, capitalKey_render two]
  constructor
  · intro same
    have words := congrArg unitWords same
    rw [unitWords_intercalate (capitals_words one), unitWords_intercalate (capitals_words two)]
      at words
    exact List.map_injective_iff.mpr (fun _ _ h => String.toList_inj.mp h) words
  · intro same
    rw [same]

end Signature

/-! ## Branches -/

/-- Two branches in the place of one mark: their keys are alike exactly if
the branches are. -/
theorem OneMark.capitalKey_expand_iff {main left right : Signature} (one : OneMark true main)
    (hl : ∀ token ∈ Signature.expand main left, token.Legible)
    (hr : ∀ token ∈ Signature.expand main right, token.Legible) :
    capitalKey (Signature.expand main left).render
        = capitalKey (Signature.expand main right).render ↔
      capitalKey left.render = capitalKey right.render := by
  obtain ⟨front, back, rfl, inFront, inBack⟩ := one
  have hf : Token.subCategory ∉ front := fun mem => (inFront _ mem).ne_subCategory rfl
  have hb : Token.subCategory ∉ back := fun mem => (inBack _ mem).ne_subCategory rfl
  rw [capitalKey_eq_iff hl hr]
  rw [expand_around left hf hb] at hl ⊢
  rw [expand_around right hf hb] at hr ⊢
  have inLeft : ∀ token ∈ left, token.Legible := by
    intro token mem
    exact hl token (by simp [mem])
  have inRight : ∀ token ∈ right, token.Legible := by
    intro token mem
    exact hr token (by simp [mem])
  rw [capitalKey_eq_iff inLeft inRight]
  simp only [capitals_append, List.append_left_inj, List.append_right_inj]

/-- The bytes that a branch is told by are its first word. -/
theorem WrittenBranch.capitals_content {branch : WrittenBranch}
    (legible : ∀ token ∈ branch.content.signature, token.Legible) {bytes : String}
    (told : branch.header.discriminator = some bytes) :
    ∃ rest, branch.content.signature.capitals = upper bytes :: rest := by
  have lead : branch.content.signature
      = [.hex bytes] ++ (Expansion.concat (branch.lines.map BodyLine.own)).signature := by
    simp only [content, BranchHeader.lead, told, Expansion.append]
  rw [lead] at legible ⊢
  have hex : isHexBytes bytes.toList = true := legible (.hex bytes) (by simp)
  have filled : bytes ≠ "" := by
    rintro rfl
    cases hex
  have first : capitals [.hex bytes] = [upper bytes] := by
    simp [capitals, texts, Token.isEmpty, Token.render, capitalWord, hex, filled]
  exact ⟨_, by rw [capitals_append, first, List.singleton_append]⟩

/-- Two branches that are told by bytes which differ in more than their
spelling are not alike. -/
theorem capitalKey_text_ne {left right : WrittenBranch}
    (hl : ∀ token ∈ left.content.signature, token.Legible)
    (hr : ∀ token ∈ right.content.signature, token.Legible) {bytes others : String}
    (told : left.header.discriminator = some bytes)
    (also : right.header.discriminator = some others) (differ : upper bytes ≠ upper others) :
    capitalKey left.text ≠ capitalKey right.text := by
  obtain ⟨behind, first⟩ := WrittenBranch.capitals_content hl told
  obtain ⟨after, second⟩ := WrittenBranch.capitals_content hr also
  intro same
  have words := (capitalKey_eq_iff hl hr).mp same
  rw [first, second, List.cons.injEq] at words
  exact differ words.1

/-- The headers of the branches, in order. -/
theorem Outline.headers_writtenBranches (lines : List BodyLine) :
    (writtenBranches lines).map WrittenBranch.header = lines.filterMap BodyLine.header? := by
  induction lines with
  | nil => rfl
  | cons first rest ih =>
    cases first with
    | branch header => simp [writtenBranches, BodyLine.header?, ih]
    | field line => exact ih
    | control line => exact ih
    | unrecognized => exact ih

/-- No two branches of a packet are told by bytes that differ in their
spelling only. -/
theorem WellFormed.pairwise_told {lines : List BodyLine} (wellFormed : WellFormed lines) :
    (writtenBranches lines).Pairwise fun one other =>
      ∀ bytes, one.header.discriminator = some bytes →
        ∀ others, other.header.discriminator = some others → upper bytes ≠ upper others := by
  have distinct := wellFormed.discriminators
  rw [Outline.discriminators, ← headers_writtenBranches, List.Nodup, List.pairwise_map,
    List.pairwise_filterMap, List.pairwise_map] at distinct
  exact distinct

/-! ## Compiled packets -/

/-- Every unit of a branch stands in its signature, if there is a place for
it. -/
theorem Signature.mem_expand {main branch : Signature} (place : Token.subCategory ∈ main)
    {token : Token} (mem : token ∈ branch) : token ∈ expand main branch :=
  List.mem_flatMap.mpr ⟨.subCategory, place, by simpa using mem⟩

namespace CompiledPacket

variable {workspace : Workspace} {operation : Operation} {header : String}
  (compiled : CompiledPacket workspace operation header)

/-- What the fragments come to. -/
def flat (name : String) : Expansion :=
  .ofTrace (compiled.trace name)

theorem entries_eq : compiled.set.entries = entries compiled.flat compiled.packet.forms :=
  (Assembly.assembled_eq_ok compiled.flattens compiled.plain compiled.assembled).1

/-- Without a placeholder there is one key. -/
theorem length_keys (unplaced : hasPlaceholder compiled.packet.forms = false) :
    compiled.set.keys.length = 1 := by
  rw [OrderedMap.keys, compiled.entries_eq, entries, unplaced]
  rfl

/-- With a placeholder there is one key for each branch that has a
text. -/
theorem keys_eq (placed : hasPlaceholder compiled.packet.forms = true) :
    compiled.set.keys = (filledBranches compiled.packet.forms).map fun branch =>
      (signature compiled.flat compiled.packet.forms branch).render := by
  rw [OrderedMap.keys, compiled.entries_eq, entries, placed, if_pos rfl, List.map_map]
  rfl

/-- The main body has one mark. -/
theorem oneMark (placed : hasPlaceholder compiled.packet.forms = true) :
    OneMark true (main compiled.flat compiled.packet.forms) := by
  have follows := Assembly.follows_of_foldlM compiled.flattens compiled.collected
  have one := (Assembly.marked_of_foldlM compiled.plain compiled.collected).main
  rw [follows.placeholder, follows.main] at one
  exact placed ▸ one

/-- The units of a branch in its place can be read. -/
theorem legible_signature (placed : hasPlaceholder compiled.packet.forms = true)
    {branch : WrittenBranch} (mem : branch ∈ filledBranches compiled.packet.forms) :
    ∀ token ∈ signature compiled.flat compiled.packet.forms branch, token.Legible := by
  have follows := Assembly.follows_of_foldlM compiled.flattens compiled.collected
  have expanded : compiled.made.expanded = signatures compiled.flat compiled.packet.forms :=
    follows.expanded
  have listed : signature compiled.flat compiled.packet.forms branch ∈ compiled.made.expanded := by
    rw [expanded, signatures, if_pos placed]
    exact List.mem_map.mpr ⟨branch, mem, rfl⟩
  intro token inside
  exact (compiled.readable _ listed token inside).1

/-- So can the units of the branch itself. -/
theorem legible_content (placed : hasPlaceholder compiled.packet.forms = true)
    {branch : WrittenBranch} (mem : branch ∈ filledBranches compiled.packet.forms) :
    ∀ token ∈ branch.content.signature, token.Legible := by
  obtain ⟨front, back, whole, _⟩ := compiled.oneMark placed
  have place : Token.subCategory ∈ main compiled.flat compiled.packet.forms := by
    simp [whole]
  intro token inside
  exact compiled.legible_signature placed mem token (mem_expand place inside)

/-- The texts of the branches are distinct. -/
theorem pairwise_texts (placed : hasPlaceholder compiled.packet.forms = true) :
    (filledBranches compiled.packet.forms).Pairwise fun one other => one.text ≠ other.text := by
  have distinct := compiled.wellFormed.texts
  rw [comparedBranches, if_pos placed, List.Nodup, List.pairwise_map] at distinct
  exact distinct

/-- Two keys are alike exactly if the branches are, and then not both
branches have a discriminator. -/
theorem pairwise_capitals (placed : hasPlaceholder compiled.packet.forms = true) :
    (filledBranches compiled.packet.forms).Pairwise fun one other =>
      let key (branch : WrittenBranch) :=
        (signature compiled.flat compiled.packet.forms branch).render
      (capitalKey (key one) = capitalKey (key other) ↔
        capitalKey one.text = capitalKey other.text) ∧
      (capitalKey one.text = capitalKey other.text →
        one.header.discriminator = none ∨ other.header.discriminator = none) := by
  have told : (filledBranches compiled.packet.forms).Pairwise _ :=
    compiled.wellFormed.pairwise_told.filter _
  apply told.imp_of_mem
  intro one other inOne inOther differ
  constructor
  · exact (compiled.oneMark placed).capitalKey_expand_iff
      (compiled.legible_signature placed inOne) (compiled.legible_signature placed inOther)
  · intro same
    cases first : one.header.discriminator with
    | none => exact .inl rfl
    | some bytes =>
      cases second : other.header.discriminator with
      | none => exact .inr rfl
      | some others =>
        have apart := differ bytes first others second
        exact absurd same (capitalKey_text_ne (compiled.legible_content placed inOne)
          (compiled.legible_content placed inOther) first second apart)

end CompiledPacket

namespace Workspace

variable {workspace : Workspace} {operation : Operation} {header : String} {packet : Packet}
  {set : SignatureSet}

/-- The keys of a packet, whenever it is compiled for the first time. One
without a placeholder has one key. Otherwise there is a key for each
branch that has a text; no two of these texts are the same, and two keys
are alike with literal bytes in capitals exactly if the texts of the
branches are, which takes a branch without a discriminator. So no two keys
are alike if all these branches have one. -/
theorem compiled_keys_capital (reached : Reached Operation.Any workspace)
    (declared : workspace.declared.packets.get? header = some packet)
    (fresh : workspace.results.packets.get? header = none)
    (kept : (workspace.perform operation).results.packets.get? header = some set) :
    (hasPlaceholder packet.forms = false → set.keys.length = 1) ∧
    (hasPlaceholder packet.forms = true →
      set.keys.length = (filledBranches packet.forms).length ∧
      (set.keys.zip (filledBranches packet.forms)).Pairwise (fun one other =>
        one.2.text ≠ other.2.text ∧
        (capitalKey one.1 = capitalKey other.1 ↔ capitalKey one.2.text = capitalKey other.2.text) ∧
        (capitalKey one.1 = capitalKey other.1 →
          one.2.header.discriminator = none ∨ other.2.header.discriminator = none)) ∧
      ((∀ branch ∈ filledBranches packet.forms, branch.header.discriminator ≠ none) →
        (set.keys.map capitalKey).Nodup)) := by
  obtain ⟨compiled, rfl⟩ := exists_compiledPacket reached fresh kept
  obtain rfl : packet = compiled.packet := by simpa [declared] using compiled.declared
  refine ⟨compiled.length_keys, ?_⟩
  intro placed
  rw [compiled.keys_eq placed]
  have texts := compiled.pairwise_texts placed
  have alike := compiled.pairwise_capitals placed
  refine ⟨List.length_map _, ?_, ?_⟩
  · have pairs {key : WrittenBranch → String} {branches : List WrittenBranch} :
        (branches.map key).zip branches = branches.map fun branch => (key branch, branch) := by
      simpa using (List.zip_map' : (branches.map key).zip (branches.map id) = _)
    rw [pairs, List.pairwise_map]
    apply (texts.and alike).imp
    rintro one other ⟨distinct, same, untold⟩
    exact ⟨distinct, same, fun keys => untold (same.mp keys)⟩
  · intro told
    rw [List.map_map, List.Nodup, List.pairwise_map]
    apply alike.imp_of_mem
    rintro one other inOne inOther ⟨same, untold⟩ keys
    rcases untold (same.mp keys) with none | none
    · exact told one inOne none
    · exact told other inOther none

/-- Two branches that write the same byte, one in small letters and one in
capitals, and two that are told by a byte. -/
def spelledSession : List Operation :=
  [.registerPacket "Spelled" "01" ⟨1, "Packet[Spelled]:01"⟩,
   .addLine (.packet "01") ⟨2, "+ SubCate"⟩,
   .addLine (.packet "01") ⟨3, "SubCate[small]"⟩,
   .addLine (.packet "01") ⟨4, "x:ab"⟩,
   .addLine (.packet "01") ⟨5, "SubCate[capital]"⟩,
   .addLine (.packet "01") ⟨6, "x:AB"⟩,
   .registerPacket "Told" "02" ⟨7, "Packet[Told]:02"⟩,
   .addLine (.packet "02") ⟨8, "+ SubCate"⟩,
   .addLine (.packet "02") ⟨9, "SubCate[one]:0a"⟩,
   .addLine (.packet "02") ⟨10, "SubCate[two]:0b"⟩]

def spelled : Workspace :=
  spelledSession.foldl perform {}

/-- The keys of the second packet are not alike. -/
theorem compiled_keys_capital_told :
    spelled.results.packets.get? "02" = none ∧
    ∃ set, (spelled.perform .compileAll).results.packets.get? "02" = some set ∧
      set.keys = ["0a", "0b"] ∧ (set.keys.map capitalKey).Nodup := by
  have reached : Reached Operation.Any spelled := Reached.start.session (session_any {} _)
  have fresh : spelled.results.packets.get? "02" = none := by decide +kernel
  have shown : ((spelled.perform .compileAll).results.packets.get? "02").map OrderedMap.keys
      = some ["0a", "0b"] := by decide +kernel
  obtain ⟨set, kept, keys⟩ := Option.map_eq_some_iff.mp shown
  have known : ∃ packet, spelled.declared.packets.get? "02" = some packet :=
    Option.isSome_iff_exists.mp (by decide +kernel)
  obtain ⟨packet, declared⟩ := known
  have rules : ∀ packet ∈ spelled.declared.packets.get? "02",
      hasPlaceholder packet.forms = true ∧
        ∀ branch ∈ filledBranches packet.forms, branch.header.discriminator ≠ none := by
    decide +kernel
  obtain ⟨placed, told⟩ := rules packet declared
  obtain ⟨_, _, differ⟩ := (compiled_keys_capital reached declared fresh kept).2 placed
  exact ⟨fresh, set, kept, keys, differ told⟩

/-- Those of the first one are: the packet is compiled, and its two keys
are the same byte. -/
theorem keys_alike_spelled :
    spelled.compileAll.1 = .ok () ∧
    (spelled.compileAll.2.results.packets.get? "01").map OrderedMap.keys = some ["ab", "AB"] ∧
    capitalKey "ab" = capitalKey "AB" := by
  decide +kernel

end Workspace

end PacketLayout
