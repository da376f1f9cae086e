/-
PacketLayout.Proofs.OrderedMapEntries — maps from lists of entries.

* `entries_ofEntries`: entries under distinct names are all there, in
  their order.
* `mem_keys_ofEntries`: no other name is there.
* `get?_last`, `entries_insert_last`: the last entry is found and
  replaced under its name.
* `insert_eq_mapEntries`: a write to a name that is there changes the value
  where it stands.
* `Alike.get?`, `Alike.insert`: two maps of the same names, with values
  that belong together.
* `Continues.trans`, `Continues.insert_new`, `Continues.insert_old`: a map
  that has taken in more names, and perhaps other values.
* `Continues.filterMap_sublist`: what stays of a list that is made of the
  entries.
-/
import Mathlib.Data.List.Forall2
import PacketLayout.OrderedMap

namespace PacketLayout.OrderedMap

variable {α : Type}

/-- The entries written to a map one after another. -/
def insertAll (map : OrderedMap α) (entries : List (String × α)) : OrderedMap α :=
  entries.foldl (fun made entry => made.insert entry.1 entry.2) map

/-- The map that is made by writing the entries one after another. -/
def ofEntries (entries : List (String × α)) : OrderedMap α :=
  insertAll ∅ entries

theorem entries_insertAll {map : OrderedMap α} {entries : List (String × α)}
    (new : (map.keys ++ entries.map Prod.fst).Nodup) :
    (map.insertAll entries).entries = map.entries ++ entries := by
  induction entries generalizing map with
  | nil => simp [insertAll]
  | cons entry rest ih =>
    have free : entry.1 ∉ map.keys := by
      intro mem
      exact (List.nodup_append.mp new).2.2 _ mem _ (by simp) rfl
    have later : ((map.insert entry.1 entry.2).keys ++ rest.map Prod.fst).Nodup := by
      rw [keys_insert_of_not_mem entry.2 free, List.append_assoc]
      exact new
    change ((map.insert entry.1 entry.2).insertAll rest).entries = _
    rw [ih later, entries_insert_of_not_mem entry.2 free, List.append_assoc]
    rfl

/-- Entries under distinct names are all there, in their order. -/
theorem entries_ofEntries {entries : List (String × α)} (distinct : (entries.map Prod.fst).Nodup) :
    (ofEntries entries).entries = entries :=
  entries_insertAll distinct

/-- What a look-up finds is there. -/
theorem mem_entries_of_get? {map : OrderedMap α} {key : String} {value : α}
    (h : map.get? key = some value) : (key, value) ∈ map.entries := by
  obtain ⟨before, after, split, _⟩ := List.lookup_eq_some_iff.mp h
  simp [split]

theorem mem_values_of_get? {map : OrderedMap α} {key : String} {value : α}
    (h : map.get? key = some value) : value ∈ map.values :=
  List.mem_map.mpr ⟨(key, value), mem_entries_of_get? h, rfl⟩

/-- What is there is found. -/
theorem get?_of_mem_entries {map : OrderedMap α} {key : String} {value : α}
    (mem : (key, value) ∈ map.entries) : map.get? key = some value := by
  obtain ⟨front, back, split⟩ := List.append_of_mem mem
  have distinct := map.nodup
  rw [split, List.map_append, List.nodup_append] at distinct
  have absent : front.lookup key = none := by
    rw [← Option.not_isSome_iff_eq_none]
    exact fun found => distinct.2.2 key (lookup_isSome_iff.mp found) key (by simp) rfl
  rw [get?, split, List.lookup_append, absent]
  simp

/-! ## The last entry -/

section Last

variable {map : OrderedMap α} {front : List (String × α)} {key : String} {value : α}

theorem not_mem_front (split : map.entries = front ++ [(key, value)]) :
    key ∉ front.map Prod.fst := by
  have distinct := map.nodup
  rw [split, List.map_append, List.nodup_append] at distinct
  exact fun mem => distinct.2.2 key mem key (by simp) rfl

theorem get?_last (split : map.entries = front ++ [(key, value)]) :
    map.get? key = some value := by
  have absent : front.lookup key = none := by
    rw [← Option.not_isSome_iff_eq_none]
    exact fun found => not_mem_front split (lookup_isSome_iff.mp found)
  rw [get?, split, List.lookup_append, absent]
  simp

/-- A write to the last name replaces the last value. -/
theorem entries_insert_last (split : map.entries = front ++ [(key, value)]) (new : α) :
    (map.insert key new).entries = front ++ [(key, new)] := by
  rw [entries_insert_of_mem new (mem_keys_of_get? (get?_last split)), split, replace,
    List.map_append]
  have same := replace_of_not_mem new (not_mem_front split)
  rw [replace] at same
  simp [same]

end Last

/-! ## Names -/

/-- A write adds no name but its own. -/
theorem mem_keys_insert {map : OrderedMap α} {key other : String} {value : α}
    (h : other ∈ (map.insert key value).keys) : other = key ∨ other ∈ map.keys := by
  by_cases there : key ∈ map.keys
  · rw [keys_insert_of_mem value there] at h
    exact .inr h
  · rw [keys_insert_of_not_mem value there] at h
    rcases List.mem_append.mp h with old | new
    · exact .inr old
    · exact .inl (by simpa using new)

theorem mem_keys_insertAll {map : OrderedMap α} {entries : List (String × α)} {key : String}
    (h : key ∈ (map.insertAll entries).keys) :
    key ∈ map.keys ∨ key ∈ entries.map Prod.fst := by
  induction entries generalizing map with
  | nil => exact .inl h
  | cons entry rest ih =>
    have later : key ∈ ((map.insert entry.1 entry.2).insertAll rest).keys := h
    rcases ih later with old | new
    · rcases mem_keys_insert old with rfl | older
      · exact .inr (by simp)
      · exact .inl older
    · exact .inr (by simp [new])

/-- Only names of the entries are there. -/
theorem mem_keys_ofEntries {entries : List (String × α)} {key : String}
    (h : key ∈ (ofEntries entries).keys) : key ∈ entries.map Prod.fst := by
  rcases mem_keys_insertAll h with none | some
  · cases none
  · exact some

/-- A write adds no entry but its own. -/
theorem mem_entries_insert {map : OrderedMap α} {key : String} {value : α}
    {entry : String × α} (h : entry ∈ (map.insert key value).entries) :
    entry = (key, value) ∨ entry ∈ map.entries := by
  by_cases there : key ∈ map.keys
  · rw [entries_insert_of_mem value there, replace] at h
    obtain ⟨old, mem, rfl⟩ := List.mem_map.mp h
    split
    · exact .inl rfl
    · exact .inr mem
  · rw [entries_insert_of_not_mem value there] at h
    rcases List.mem_append.mp h with old | new
    · exact .inr old
    · exact .inl (List.mem_singleton.mp new)

/-! ## Values changed in place -/

/-- Every value changed, in the place where it stands. -/
def mapEntries (change : String → α → α) (map : OrderedMap α) : OrderedMap α :=
  ⟨map.entries.map fun entry => (entry.1, change entry.1 entry.2), by
    rw [List.map_map]
    exact map.nodup⟩

theorem get?_mapEntries (change : String → α → α) (map : OrderedMap α) (key : String) :
    (map.mapEntries change).get? key = (map.get? key).map (change key) := by
  change (map.entries.map fun entry => (entry.1, change entry.1 entry.2)).lookup key
    = (map.entries.lookup key).map (change key)
  induction map.entries with
  | nil => rfl
  | cons entry rest ih =>
    obtain ⟨name, value⟩ := entry
    by_cases here : key = name
    · simp [here]
    · have different : (key == name) = false := beq_eq_false_iff_ne.mpr here
      simpa only [List.map_cons, List.lookup_cons, different] using ih

theorem mapEntries_congr {map : OrderedMap α} {change other : String → α → α}
    (same : ∀ key value, map.get? key = some value → change key value = other key value) :
    map.mapEntries change = map.mapEntries other := by
  unfold mapEntries
  congr 1
  refine List.map_congr_left fun entry mem => ?_
  rw [same entry.1 entry.2 (get?_of_mem_entries mem)]

theorem mapEntries_mapEntries (first second : String → α → α) (map : OrderedMap α) :
    (map.mapEntries first).mapEntries second
      = map.mapEntries fun key value => second key (first key value) := by
  unfold mapEntries
  simp

theorem mapEntries_same (map : OrderedMap α) : (map.mapEntries fun _ value => value) = map := by
  unfold mapEntries
  simp

/-- A write to a name that is there changes the value under this name. -/
theorem insert_eq_mapEntries {map : OrderedMap α} {key : String} {old : α}
    (there : map.get? key = some old)
    (change : α → α) :
    map.insert key (change old)
      = map.mapEntries fun name value => if name = key then change value else value := by
  have entries : (map.insert key (change old)).entries
      = (map.mapEntries fun name value => if name = key then change value else value).entries := by
    rw [entries_insert_of_mem _ (mem_keys_of_get? there), replace, mapEntries]
    refine List.map_congr_left fun entry mem => ?_
    split
    · rename_i here
      have found := get?_of_mem_entries mem
      rw [here, there] at found
      cases found
      rw [here]
    · rfl
  cases same : map.insert key (change old)
  rw [same] at entries
  cases entries
  rfl

/-! ## Two maps of the same names -/

section Alike

variable {β : Type} {belong : α → β → Prop} {first : OrderedMap α} {second : OrderedMap β}

/-- The same names in the same order, with values that belong together. -/
def Alike (belong : α → β → Prop) (first : OrderedMap α) (second : OrderedMap β) : Prop :=
  List.Forall₂ (fun entry other => entry.1 = other.1 ∧ belong entry.2 other.2)
    first.entries second.entries

theorem Alike.keys (h : Alike belong first second) : first.keys = second.keys := by
  rw [OrderedMap.keys, OrderedMap.keys, ← List.forall₂_eq_eq_eq, List.forall₂_map_left_iff,
    List.forall₂_map_right_iff]
  exact h.imp fun _ _ same => same.1

theorem Alike.values (h : Alike belong first second) :
    List.Forall₂ belong first.values second.values := by
  rw [OrderedMap.values, OrderedMap.values, List.forall₂_map_left_iff,
    List.forall₂_map_right_iff]
  exact h.imp fun _ _ same => same.2

/-- A look-up finds values that belong together, or nothing in both. -/
theorem Alike.get? (h : Alike belong first second) (key : String) :
    Option.Rel belong (first.get? key) (second.get? key) := by
  unfold Alike at h
  unfold OrderedMap.get?
  generalize first.entries = entries, second.entries = others at h ⊢
  induction h with
  | nil => exact .none
  | @cons entry other _ _ same _ ih =>
    obtain ⟨name, value⟩ := entry
    obtain ⟨name', value'⟩ := other
    obtain ⟨rfl, here⟩ : name = name' ∧ belong value value' := same
    by_cases wanted : key = name
    · subst wanted
      rw [List.lookup_cons_self, List.lookup_cons_self]
      exact .some here
    · have different : (key == name) = false := beq_eq_false_iff_ne.mpr wanted
      simp only [List.lookup_cons, different]
      exact ih

/-- The maps stay alike when values that belong together are written. -/
theorem Alike.insert (h : Alike belong first second) (key : String) {value : α} {other : β}
    (here : belong value other) :
    Alike belong (first.insert key value) (second.insert key other) := by
  unfold Alike
  by_cases there : key ∈ first.keys
  · rw [entries_insert_of_mem value there, entries_insert_of_mem other (h.keys ▸ there),
      replace, replace]
    refine List.rel_map (fun entry entry' same => ?_) h
    obtain ⟨name, belongs⟩ := same
    rw [← name]
    split
    · exact ⟨rfl, here⟩
    · exact ⟨name, belongs⟩
  · rw [entries_insert_of_not_mem value there, entries_insert_of_not_mem other (h.keys ▸ there)]
    exact List.rel_append h (.cons ⟨rfl, here⟩ .nil)

end Alike

/-! ## A map that goes on -/

/-- The names of `before` are the first ones of `after`, in the same order,
and the values under them belong to those that were there. -/
structure Continues (belong : α → α → Prop) (before after : OrderedMap α) : Prop where
  keys : before.keys <+: after.keys
  get? : ∀ key value, before.get? key = some value →
    ∃ later, after.get? key = some later ∧ belong value later

namespace Continues

variable {belong : α → α → Prop} {before middle after : OrderedMap α} {key : String} {value : α}

theorem refl (same : ∀ value, belong value value) (map : OrderedMap α) :
    Continues belong map map :=
  ⟨List.prefix_rfl, fun _ value there => ⟨value, there, same value⟩⟩

theorem trans (through : ∀ {first second third}, belong first second → belong second third →
      belong first third)
    (older : Continues belong before middle) (newer : Continues belong middle after) :
    Continues belong before after := by
  refine ⟨older.keys.trans newer.keys, fun key value there => ?_⟩
  obtain ⟨next, here, one⟩ := older.get? key value there
  obtain ⟨last, still, two⟩ := newer.get? key next here
  exact ⟨last, still, through one two⟩

/-- A new name comes last. -/
theorem insert_new (same : ∀ value, belong value value) (free : before.get? key = none)
    (value : α) : Continues belong before (before.insert key value) := by
  refine ⟨?_, fun other old there => ⟨old, ?_, same old⟩⟩
  · rw [keys_insert_of_not_mem value (get?_eq_none_iff.mp free)]
    exact List.prefix_append _ _
  · have different : other ≠ key := by
      rintro rfl
      rw [free] at there
      cases there
    rw [get?_insert, if_neg different, there]

/-- A value is replaced by one that belongs to it. -/
theorem insert_old (same : ∀ value, belong value value) {old : α}
    (there : before.get? key = some old) (next : belong old value) :
    Continues belong before (before.insert key value) := by
  refine ⟨?_, fun other found here => ?_⟩
  · have same : (before.insert key value).keys = before.keys :=
      keys_insert_of_mem value (mem_keys_of_get? there)
    exact same ▸ List.prefix_rfl
  · rw [get?_insert]
    split
    · rename_i same
      obtain rfl : found = old := by simpa [same, there] using here.symm
      exact ⟨value, rfl, next⟩
    · exact ⟨found, here, same found⟩

end Continues

/-- What is made of the entries, read off the names. -/
theorem filterMap_entries {β : Type} (map : OrderedMap α) (f : String × α → Option β) :
    map.entries.filterMap f
      = map.keys.filterMap fun key => (map.get? key).bind fun value => f (key, value) := by
  rw [keys, List.filterMap_map]
  refine List.filterMap_congr fun entry mem => ?_
  rw [Function.comp_apply, get?_of_mem_entries mem, Option.bind_some]

/-- Where more is made of the items, what was made stays in its order. -/
theorem filterMap_sublist_filterMap {β γ : Type} {f g : β → Option γ}
    (keeps : ∀ item made, f item = some made → g item = some made) (items : List β) :
    (items.filterMap f).Sublist (items.filterMap g) := by
  induction items with
  | nil => exact .refl _
  | cons item rest ih =>
    cases made : f item with
    | none =>
      rw [List.filterMap_cons_none made]
      exact ih.trans ((List.sublist_cons_self item rest).filterMap g)
    | some result =>
      rw [List.filterMap_cons_some made, List.filterMap_cons_some (keeps item result made)]
      exact ih.cons_cons result

/-- What is made of an entry stays, in its order, if the same is made of
the later one. -/
theorem Continues.filterMap_sublist {β : Type} {belong : α → α → Prop}
    {before after : OrderedMap α} {f g : String × α → Option β}
    (h : Continues belong before after)
    (keeps : ∀ key value later made, belong value later → f (key, value) = some made →
      g (key, later) = some made) :
    (before.entries.filterMap f).Sublist (after.entries.filterMap g) := by
  obtain ⟨more, split⟩ := h.keys
  rw [filterMap_entries, filterMap_entries, ← split, List.filterMap_append]
  refine List.Sublist.trans (filterMap_sublist_filterMap ?_ _) (List.sublist_append_left _ _)
  intro key made here
  obtain ⟨value, there, one⟩ := Option.bind_eq_some_iff.mp here
  obtain ⟨later, still, next⟩ := h.get? key value there
  rw [still, Option.bind_some]
  exact keeps key value later made next one

end PacketLayout.OrderedMap
