/-
PacketLayout.Proofs.Qualifiers — what the qualifiers of a field come to.

A qualifier that holds says one thing of the field: its type, its alias or
its function. `Tells` lists how such qualifiers are written. Any other
qualifier leaves the field as it is, and one remark about itself. So
however many there are, the field has of each of the three what the last
qualifier to name it says, and the remarks are about those that do not
hold, in their order.

The four kinds are told apart by their first letters, so no qualifier is
of two kinds; but two kinds, a database and a function, say the same thing
of the field, and the last of either counts.

* `Qualifier.setting?_eq_some_iff`: the qualifiers that hold are those
  that `Tells` lists.
* `Field.qualifyAll_eq`: the field and the remarks that qualifiers give.
* `Field.foldl_set`: of each member the last setting counts.
* `Field.qualifyAll_exchange`: qualifiers that say something of different
  members can change places.
-/
import PacketLayout.Qualifier

namespace PacketLayout

open Text

/-! ## Settings -/

/-- The members of a field that a qualifier can set. -/
inductive Member where
  | type
  | param
  | function
  deriving DecidableEq

/-- What a qualifier that holds says of a field. -/
inductive Setting where
  | type (forced : ForcedType)
  | param (paramAlias : String)
  | function (call : List String)
  deriving DecidableEq

namespace Setting

def member : Setting → Member
  | .type _ => .type
  | .param _ => .param
  | .function _ => .function

def type? : Setting → Option ForcedType
  | .type forced => some forced
  | _ => none

def param? : Setting → Option String
  | .param paramAlias => some paramAlias
  | _ => none

def function? : Setting → Option (List String)
  | .function call => some call
  | _ => none

end Setting

namespace Field

variable {field : Field}

/-- The field with what a qualifier says of it. -/
def set (field : Field) : Setting → Field
  | .type forced => { field with forcedType := some forced }
  | .param paramAlias => { field with paramAlias := some paramAlias }
  | .function call => { field with function := some call }

/-- Settings of different members can change places. -/
theorem set_comm {first second : Setting} (apart : first.member ≠ second.member) :
    (field.set first).set second = (field.set second).set first := by
  cases first with
  | type forced =>
    cases second with
    | type other => exact absurd rfl apart
    | param paramAlias => rfl
    | function call => rfl
  | param paramAlias =>
    cases second with
    | type forced => rfl
    | param other => exact absurd rfl apart
    | function call => rfl
  | function call =>
    cases second with
    | type forced => rfl
    | param paramAlias => rfl
    | function other => exact absurd rfl apart

/-- A member that each setting replaces or keeps is what the last setting to
replace it says. -/
theorem foldl_set_last {α : Type} {of : Field → Option α} {pick : Setting → Option α}
    (each : ∀ field setting, of (set field setting) = (pick setting).or (of field))
    (settings : List Setting) (field : Field) :
    of (settings.foldl set field) = (settings.filterMap pick).getLast?.or (of field) := by
  induction settings generalizing field with
  | nil => rfl
  | cons setting rest ih =>
    rw [List.foldl_cons, ih, each]
    cases picked : pick setting with
    | none => rw [List.filterMap_cons_none picked, Option.none_or]
    | some value =>
      rw [List.filterMap_cons_some picked, List.getLast?_cons, Option.some_or]
      cases (rest.filterMap pick).getLast? with
      | none => rfl
      | some last => rfl

/-- Of each member the last setting counts. -/
theorem foldl_set (settings : List Setting) (field : Field) :
    settings.foldl set field =
      ⟨field.name, (settings.filterMap Setting.type?).getLast?.or field.forcedType,
        (settings.filterMap Setting.function?).getLast?.or field.function,
        (settings.filterMap Setting.param?).getLast?.or field.paramAlias⟩ := by
  have name : ∀ field : Field, (settings.foldl set field).name = field.name := by
    induction settings with
    | nil => exact fun _ => rfl
    | cons setting rest ih =>
      intro field
      rw [List.foldl_cons, ih]
      cases setting <;> rfl
  rw [← foldl_set_last (fun field setting => by cases setting <;> rfl) settings field,
    ← foldl_set_last (fun field setting => by cases setting <;> rfl) settings field,
    ← foldl_set_last (fun field setting => by cases setting <;> rfl) settings field, ← name field]

end Field

/-! ## How qualifiers are written -/

namespace Qualifier

variable {text inside rest : List Char} {setting : Setting}

/-- The qualifier that a segment of a line holds: what stands before its
comment, without the white space around it. -/
def ofSegment (segment : List Char) : List Char :=
  trim (beforeComment segment)

/-- The qualifiers that hold, and what each one says. A database is known by
its symbol, in any case and with white space around it. Behind the bracket
of a type or an alias may stand any text, behind the others none. -/
inductive Tells : List Char → Setting → Prop
  | reference {inside first : List Char} {others : List (List Char)} {db : ReferenceDb}
    (free : ']' ∉ inside) (arguments : inside.splitOn ',' = first :: others)
    (known : equalIgnoringCase (trimmed (String.ofList first)) db.symbol = true) :
    Tells ("R[".toList ++ (inside ++ [']'])) (.function (db.identifier :: others.map String.ofList))
  | function {inside : List Char} (free : ']' ∉ inside) :
    Tells ("Fn[".toList ++ (inside ++ [']'])) (.function ((inside.splitOn ',').map String.ofList))
  | type (forced : ForcedType) (tail : List Char) :
    Tells ("T[".toList ++ (forced.name.toList ++ ']' :: tail)) (.type forced)
  | param {name : List Char} (tail : List Char) (some : name ≠ []) (free : ']' ∉ name)
    (dark : ∀ c ∈ name, isBlank c = false) :
    Tells ("P[".toList ++ ('@' :: name ++ ']' :: tail)) (.param (String.ofList ('@' :: name)))

/-- What a qualifier says, if it holds. -/
def setting? (text : List Char) : Option Setting :=
  match read? text with
  | some (.reference symbol arguments) =>
    (ReferenceDb.ofSymbol? symbol).map fun db => .function (db.identifier :: arguments)
  | some (.function arguments) => some (.function arguments)
  | some (.type forced) => some (.type forced)
  | some (.param paramAlias) => some (.param paramAlias)
  | none => none

/-- What is wrong with a qualifier that does not hold. -/
def complaint (text : List Char) : Warning :=
  match read? text with
  | some (.reference symbol _) => .unknownDatabase symbol
  | _ => unread text

/-- The remark about a qualifier that does not hold. -/
def remark (text : List Char) : Remark :=
  ⟨complaint text, String.ofList text⟩

/-! ## Reading by the first letters -/

theorem onlyBracketed?_eq_some_iff {text : List Char} :
    onlyBracketed? text = some inside ↔ text = inside ++ [']'] ∧ ']' ∉ inside := by
  unfold onlyBracketed?
  rw [← bracketed?_eq_some_iff]
  constructor
  · intro only
    split at only
    · rename_i found split
      cases only
      exact split
    · cases only
  · intro split
    rw [split]

/-- The arguments in a bracket are what its commas separate, of which there
is always a first. -/
theorem arguments_eq (inside : List Char) :
    (arguments inside).1 :: (arguments inside).2 = (inside.splitOn ',').map String.ofList := by
  rw [splitOn_eq_pieces]
  rfl

theorem read?_reference (rest : List Char) :
    read? ("R[".toList ++ rest) = (onlyBracketed? rest).map fun inside =>
      .reference (arguments inside).1 (arguments inside).2 := by
  rw [read?, after?_append]

theorem read?_function (rest : List Char) :
    read? ("Fn[".toList ++ rest) = (onlyBracketed? rest).map fun inside =>
      .function ((arguments inside).1 :: (arguments inside).2) := by
  rw [read?, after?_append]
  rfl

theorem read?_type (rest : List Char) :
    read? ("T[".toList ++ rest) = match bracketed? rest with
      | some (inside, _) => (ForcedType.ofName? (String.ofList inside)).map .type
      | none => none := by
  rw [read?, after?_append]
  rfl

theorem read?_param (rest : List Char) :
    read? ("P[".toList ++ rest) = match bracketed? rest with
      | some (inside, _) =>
        if isAlias inside then some (.param (String.ofList inside)) else none
      | none => none := by
  rw [read?, after?_append]
  rfl

theorem isAlias_iff : isAlias text = true ↔
    ∃ name, text = '@' :: name ∧ name ≠ [] ∧ ∀ c ∈ name, isBlank c = false := by
  constructor
  · intro known
    unfold isAlias at known
    split at known
    · rename_i name
      exact ⟨name, rfl, by simpa using known⟩
    · cases known
  · rintro ⟨name, rfl, some, dark⟩
    simpa [isAlias] using ⟨some, dark⟩

/-- What is no qualifier of the four kinds is none at all. -/
theorem read?_cases {qualifier : Qualifier} (h : read? text = some qualifier) :
    (∃ rest, text = "R[".toList ++ rest) ∨ (∃ rest, text = "Fn[".toList ++ rest) ∨
      (∃ rest, text = "T[".toList ++ rest) ∨ ∃ rest, text = "P[".toList ++ rest := by
  unfold read? at h
  split at h
  · rename_i rest found
    exact .inl ⟨rest, after?_eq_some_iff.mp found⟩
  · split at h
    · rename_i rest found
      exact .inr (.inl ⟨rest, after?_eq_some_iff.mp found⟩)
    · split at h
      · rename_i rest found
        exact .inr (.inr (.inl ⟨rest, after?_eq_some_iff.mp found⟩))
      · split at h
        · rename_i rest found
          exact .inr (.inr (.inr ⟨rest, after?_eq_some_iff.mp found⟩))
        · cases h

/-! ## The qualifiers that hold -/

theorem setting?_of_tells (h : Tells text setting) : setting? text = some setting := by
  cases h with
  | reference free arguments known =>
    rename_i inside first others db
    have only := onlyBracketed?_eq_some_iff.mpr ⟨rfl, free⟩
    have split := arguments_eq inside
    rw [arguments, List.map_cons] at split
    obtain ⟨symbol, rest⟩ := List.cons.inj split
    rw [setting?, read?_reference, only, Option.map_some, symbol, rest]
    dsimp only
    rw [ReferenceDb.ofSymbol?_eq_some_iff.mpr known, Option.map_some]
  | function free =>
    have only := onlyBracketed?_eq_some_iff.mpr ⟨rfl, free⟩
    rw [setting?, read?_function, only, Option.map_some, arguments_eq]
  | type forced tail =>
    have free : ']' ∉ forced.name.toList := by cases forced <;> decide
    rw [setting?, read?_type, bracketed?_append tail free]
    dsimp only
    rw [String.ofList_toList, ForcedType.ofName?_name, Option.map_some]
  | param tail some free dark =>
    rename_i name
    have free' : ']' ∉ '@' :: name := by simpa using free
    rw [setting?, read?_param, bracketed?_append tail free']
    dsimp only
    rw [if_pos (isAlias_iff.mpr ⟨name, rfl, some, dark⟩)]

theorem tells_of_setting? (h : setting? text = some setting) : Tells text setting := by
  have read : ∃ qualifier, read? text = some qualifier := by
    cases found : read? text with
    | none => simp [setting?, found] at h
    | some qualifier => exact ⟨qualifier, rfl⟩
  unfold setting? at h
  obtain ⟨_, found⟩ := read
  rcases read?_cases found with ⟨rest, rfl⟩ | ⟨rest, rfl⟩ | ⟨rest, rfl⟩ | ⟨rest, rfl⟩
  · rw [read?_reference] at h
    cases only : onlyBracketed? rest with
    | none => simp [only] at h
    | some inside =>
      rw [only, Option.map_some] at h
      obtain ⟨db, known, rfl⟩ := Option.map_eq_some_iff.mp h
      obtain ⟨rfl, free⟩ := onlyBracketed?_eq_some_iff.mp only
      have split := splitOn_eq_pieces ',' inside
      exact .reference free split (ReferenceDb.ofSymbol?_eq_some_iff.mp known)
  · rw [read?_function] at h
    cases only : onlyBracketed? rest with
    | none => simp [only] at h
    | some inside =>
      rw [only, Option.map_some, arguments_eq] at h
      cases h
      obtain ⟨rfl, free⟩ := onlyBracketed?_eq_some_iff.mp only
      exact .function free
  · rw [read?_type] at h
    cases split : bracketed? rest with
    | none => simp [split] at h
    | some parts =>
      obtain ⟨inside, tail⟩ := parts
      cases known : ForcedType.ofName? (String.ofList inside) with
      | none => simp [split, known] at h
      | some forced =>
        rw [split] at h
        dsimp only at h
        rw [known, Option.map_some] at h
        cases h
        have name : inside = forced.name.toList := by
          rw [← ForcedType.ofName?_eq_some_iff.mp known, String.toList_ofList]
        obtain ⟨rfl, -⟩ := bracketed?_eq_some_iff.mp split
        rw [name]
        exact .type forced tail
  · rw [read?_param] at h
    cases split : bracketed? rest with
    | none => simp [split] at h
    | some parts =>
      obtain ⟨inside, tail⟩ := parts
      rw [split] at h
      dsimp only at h
      by_cases known : isAlias inside = true
      · rw [if_pos known] at h
        cases h
        obtain ⟨rfl, free⟩ := bracketed?_eq_some_iff.mp split
        obtain ⟨name, rfl, some, dark⟩ := isAlias_iff.mp known
        exact .param tail some (fun mem => free (List.mem_cons_of_mem _ mem)) dark
      · simp [if_neg known] at h

/-- The qualifiers that hold are those that `Tells` lists. -/
theorem setting?_eq_some_iff : setting? text = some setting ↔ Tells text setting :=
  ⟨tells_of_setting?, setting?_of_tells⟩

/-- What the segments of a line say, from left to right. -/
def settings (segments : List (List Char)) : List Setting :=
  (segments.map ofSegment).filterMap setting?

/-- The qualifiers of a line that do not hold, from left to right. -/
def failing (segments : List (List Char)) : List (List Char) :=
  (segments.map ofSegment).filter fun text => (setting? text).isNone

theorem setting?_eq_none_iff : setting? text = none ↔ ∀ setting, ¬ Tells text setting := by
  rw [Option.eq_none_iff_forall_not_mem]
  exact forall_congr' fun setting => not_congr setting?_eq_some_iff

/-! ## Any number of qualifiers -/

variable {segment : List Char} {segments : List (List Char)}

theorem settings_cons_some (said : setting? (ofSegment segment) = some setting) :
    settings (segment :: segments) = setting :: settings segments :=
  List.filterMap_cons_some said

theorem settings_cons_none (silent : setting? (ofSegment segment) = none) :
    settings (segment :: segments) = settings segments :=
  List.filterMap_cons_none silent

theorem failing_cons_some (said : setting? (ofSegment segment) = some setting) :
    failing (segment :: segments) = failing segments :=
  List.filter_cons_of_neg (by simp [said])

theorem failing_cons_none (silent : setting? (ofSegment segment) = none) :
    failing (segment :: segments) = ofSegment segment :: failing segments :=
  List.filter_cons_of_pos (by simp [silent])

theorem settings_append (first second : List (List Char)) :
    settings (first ++ second) = settings first ++ settings second := by
  rw [settings, List.map_append, List.filterMap_append]
  rfl

theorem failing_append (first second : List (List Char)) :
    failing (first ++ second) = failing first ++ failing second := by
  rw [failing, List.map_append, List.filter_append]
  rfl

end Qualifier

namespace Field

open Qualifier

variable {field : Field} {text : List Char}

theorem qualify_eq (field : Field) (text : List Char) :
    field.qualify text = match setting? text with
      | some setting => .ok (field.set setting)
      | none => .error (complaint text) := by
  unfold qualify setting? complaint
  cases read? text with
  | none => rfl
  | some qualifier =>
    cases qualifier with
    | reference symbol arguments =>
      dsimp only [Qualifier.apply]
      cases ReferenceDb.ofSymbol? symbol with
      | none => rfl
      | some db => rfl
    | function arguments => rfl
    | type forced => rfl
    | param paramAlias => rfl

/-- The settings of the segments are made in turn, and each qualifier that
does not hold is remarked on. -/
theorem qualifyAll_eq (field : Field) (segments : List (List Char)) :
    field.qualifyAll segments
      = ((settings segments).foldl set field, (failing segments).map remark) := by
  induction segments generalizing field with
  | nil => rfl
  | cons segment rest ih =>
    rw [qualifyAll, qualify_eq]
    cases said : setting? (ofSegment segment) with
    | some setting =>
      rw [settings_cons_some said, failing_cons_some said, List.foldl_cons, ← ih]
      rw [ofSegment] at said
      dsimp only
      rw [said]
    | none =>
      rw [settings_cons_none said, failing_cons_none said, List.map_cons]
      have later := ih field
      rw [ofSegment] at said
      dsimp only
      rw [said, later]
      rfl

/-- One more qualifier that holds sets its member. -/
theorem qualifyAll_concat_some {segment : List Char} {setting : Setting}
    (said : setting? (ofSegment segment) = some setting) (field : Field)
    (segments : List (List Char)) :
    field.qualifyAll (segments ++ [segment])
      = ((field.qualifyAll segments).1.set setting, (field.qualifyAll segments).2) := by
  rw [qualifyAll_eq, qualifyAll_eq, settings_append, failing_append, settings_cons_some said,
    failing_cons_some said, List.foldl_append]
  simp [settings, failing]

/-- One more qualifier that does not hold leaves a remark. -/
theorem qualifyAll_concat_none {segment : List Char}
    (silent : setting? (ofSegment segment) = none) (field : Field)
    (segments : List (List Char)) :
    field.qualifyAll (segments ++ [segment])
      = ((field.qualifyAll segments).1,
          (field.qualifyAll segments).2 ++ [remark (ofSegment segment)]) := by
  rw [qualifyAll_eq, qualifyAll_eq, settings_append, failing_append, settings_cons_none silent,
    failing_cons_none silent, List.foldl_append]
  simp [settings, failing]

/-- Neighbours that say something of different members can change places. -/
theorem qualifyAll_exchange {first second : List Char} {said other : Setting}
    (holds : setting? (ofSegment first) = some said)
    (holds' : setting? (ofSegment second) = some other) (apart : said.member ≠ other.member)
    (field : Field) (before after : List (List Char)) :
    field.qualifyAll (before ++ second :: first :: after)
      = field.qualifyAll (before ++ first :: second :: after) := by
  rw [qualifyAll_eq, qualifyAll_eq, settings_append, settings_append, failing_append,
    failing_append, settings_cons_some holds', settings_cons_some holds,
    settings_cons_some holds, settings_cons_some holds', failing_cons_some holds',
    failing_cons_some holds, failing_cons_some holds, failing_cons_some holds',
    List.foldl_append, List.foldl_append, List.foldl_cons, List.foldl_cons, List.foldl_cons,
    List.foldl_cons, set_comm apart]

theorem name_qualifyAll (field : Field) (segments : List (List Char)) :
    (field.qualifyAll segments).1.name = field.name := by
  rw [qualifyAll_eq, foldl_set]

end Field

end PacketLayout
