/-
PacketLayout.OrderedMap — a map from names to values that keeps the
order in which its keys first came.

Declarations, signature sets and tables are all read back in the order
in which they were written down, so their container is a list of pairs
whose keys are distinct. Writing to a key that is there replaces its
value where it stands; writing to a new key puts it last.

* `get?_insert`: what a look-up finds after a write.
* `keys_insert_of_mem`, `keys_insert_of_not_mem`: a write to an old key
  leaves the key order alone, and a new key comes last.
-/
namespace PacketLayout

/-- Values under distinct names, in order of first insertion. -/
structure OrderedMap (α : Type) where
  entries : List (String × α)
  nodup : (entries.map Prod.fst).Nodup
  deriving DecidableEq

namespace OrderedMap

variable {α : Type}

def empty : OrderedMap α :=
  ⟨[], List.nodup_nil⟩

instance : Inhabited (OrderedMap α) :=
  ⟨empty⟩

instance : EmptyCollection (OrderedMap α) :=
  ⟨empty⟩

def keys (map : OrderedMap α) : List String :=
  map.entries.map Prod.fst

def values (map : OrderedMap α) : List α :=
  map.entries.map Prod.snd

def size (map : OrderedMap α) : Nat :=
  map.entries.length

def isEmpty (map : OrderedMap α) : Bool :=
  map.entries.isEmpty

def get? (map : OrderedMap α) (key : String) : Option α :=
  map.entries.lookup key

def contains (map : OrderedMap α) (key : String) : Bool :=
  (map.get? key).isSome

/-- Gives `value` to the pair with `key`, wherever it stands. -/
def replace (key : String) (value : α) (entries : List (String × α)) : List (String × α) :=
  entries.map fun entry => if entry.1 = key then (key, value) else entry

theorem replace_map_fst (key : String) (value : α) (entries : List (String × α)) :
    (replace key value entries).map Prod.fst = entries.map Prod.fst := by
  simp only [replace, List.map_map]
  apply List.map_congr_left
  intro entry _
  by_cases h : entry.1 = key
  · simp [h]
  · simp [h]

/-- Writes `value` under `key`: in place if the key is there, else last. -/
def insert (map : OrderedMap α) (key : String) (value : α) : OrderedMap α :=
  if h : key ∈ map.keys then
    ⟨replace key value map.entries, by
      rw [replace_map_fst]; exact map.nodup⟩
  else
    ⟨map.entries ++ [(key, value)], by
      rw [List.map_append, List.nodup_append]
      refine ⟨map.nodup, by simp, ?_⟩
      intro a ha b hb hab
      have hbk : b = key := by simpa using hb
      exact h (by rw [keys, ← hbk, ← hab]; exact ha)⟩

theorem entries_insert_of_mem {map : OrderedMap α} {key : String} (value : α)
    (h : key ∈ map.keys) :
    (map.insert key value).entries = replace key value map.entries := by
  simp [insert, h]

theorem entries_insert_of_not_mem {map : OrderedMap α} {key : String} (value : α)
    (h : key ∉ map.keys) :
    (map.insert key value).entries = map.entries ++ [(key, value)] := by
  simp [insert, h]

/-! ## Look-up -/

theorem lookup_isSome_iff {key : String} {entries : List (String × α)} :
    (entries.lookup key).isSome = true ↔ key ∈ entries.map Prod.fst := by
  induction entries with
  | nil => simp
  | cons entry rest ih =>
    by_cases h : key = entry.1
    · simp [h]
    · simp [h]

theorem contains_iff {map : OrderedMap α} {key : String} :
    map.contains key = true ↔ key ∈ map.keys :=
  lookup_isSome_iff

theorem get?_eq_none_iff {map : OrderedMap α} {key : String} :
    map.get? key = none ↔ key ∉ map.keys := by
  rw [← contains_iff, contains]
  cases map.get? key <;> simp

theorem mem_keys_of_get? {map : OrderedMap α} {key : String} {value : α}
    (h : map.get? key = some value) : key ∈ map.keys :=
  contains_iff.mp (by simp [contains, h])

@[simp] theorem get?_empty (key : String) : (empty : OrderedMap α).get? key = none := rfl

@[simp] theorem keys_empty : (empty : OrderedMap α).keys = [] := rfl

theorem replace_of_not_mem {key : String} (value : α) {entries : List (String × α)}
    (h : key ∉ entries.map Prod.fst) : replace key value entries = entries := by
  have same : ∀ entry ∈ entries,
      (if entry.1 = key then (key, value) else entry) = entry := by
    intro entry mem
    have other : entry.1 ≠ key := fun eq => h (List.mem_map.mpr ⟨entry, mem, eq⟩)
    simp [other]
  rw [replace, List.map_congr_left same, List.map_id']

theorem lookup_replace (key other : String) (value : α) (entries : List (String × α))
    (h : key ∈ entries.map Prod.fst) :
    (replace key value entries).lookup other
      = if other = key then some value else entries.lookup other := by
  induction entries with
  | nil => simp at h
  | cons entry rest ih =>
    obtain ⟨name, old⟩ := entry
    have step : replace key value ((name, old) :: rest)
        = (if name = key then (key, value) else (name, old)) :: replace key value rest := rfl
    rw [step]
    by_cases hn : name = key
    · subst hn
      by_cases ho : other = name
      · simp [ho]
      · have hb : (other == name) = false := beq_eq_false_iff_ne.mpr ho
        by_cases hr : name ∈ rest.map Prod.fst
        · simp [List.lookup_cons, ho, hb, ih hr]
        · simp [List.lookup_cons, ho, hb, replace_of_not_mem value hr]
    · have hr : key ∈ rest.map Prod.fst := by
        simpa [Ne.symm hn] using h
      by_cases ho : other = name
      · subst ho
        simp [hn]
      · have hb : (other == name) = false := beq_eq_false_iff_ne.mpr ho
        simp [List.lookup_cons, hn, hb, ih hr]

/-- What a look-up finds after a write. -/
theorem get?_insert (map : OrderedMap α) (key other : String) (value : α) :
    (map.insert key value).get? other
      = if other = key then some value else map.get? other := by
  by_cases h : key ∈ map.keys
  · rw [get?, entries_insert_of_mem value h]
    exact lookup_replace key other value map.entries h
  · rw [get?, entries_insert_of_not_mem value h, List.lookup_append]
    by_cases ho : other = key
    · subst ho
      have absent : map.entries.lookup other = none := get?_eq_none_iff.mpr h
      simp [absent]
    · have hb : (other == key) = false := beq_eq_false_iff_ne.mpr ho
      simp [get?, List.lookup_cons, ho, hb]

/-- A write loses no key. -/
theorem get?_insert_ne_none {map : OrderedMap α} {key other : String} {value : α}
    (h : map.get? other ≠ none) : (map.insert key value).get? other ≠ none := by
  rw [get?_insert]
  split
  · simp
  · exact h

/-! ## Key order -/

/-- A write to a key that is there leaves the keys as they are. -/
theorem keys_insert_of_mem {map : OrderedMap α} {key : String} (value : α)
    (h : key ∈ map.keys) : (map.insert key value).keys = map.keys := by
  rw [keys, entries_insert_of_mem value h, replace_map_fst, keys]

/-- A new key comes last. -/
theorem keys_insert_of_not_mem {map : OrderedMap α} {key : String} (value : α)
    (h : key ∉ map.keys) : (map.insert key value).keys = map.keys ++ [key] := by
  simp [keys, entries_insert_of_not_mem value h]

end OrderedMap

end PacketLayout
