/-!
# `TagTemplate.Dictionary`: values under text keys, in key order

A dictionary is a list of pairs whose keys increase. The order of texts is that
of their characters' code points, which is also the order of their UTF-8 bytes.
`insert` keeps the order and replaces the value of a key that is already there,
so `ofList` keeps the last value given for each key.
-/

set_option autoImplicit false

namespace TagTemplate

/-- Pairs of a key and a value, in the order of the keys. -/
abbrev Dictionary (α : Type) := List (String × α)

namespace Dictionary

variable {α : Type}

/-- Puts a value under a key, in place of the value that is there. -/
def insert (key : String) (value : α) : Dictionary α → Dictionary α
  | [] => [(key, value)]
  | (k, v) :: rest =>
    if key < k then (key, value) :: (k, v) :: rest
    else if key = k then (key, value) :: rest
    else (k, v) :: insert key value rest

/-- The value under a key. -/
def find? (key : String) : Dictionary α → Option α
  | [] => none
  | (k, v) :: rest => if key = k then some v else find? key rest

/-- The keys, in order. -/
def keys (entries : Dictionary α) : List String :=
  entries.map (·.1)

/-- The dictionary of a list of pairs; of pairs with one key the last counts. -/
def ofList (pairs : List (String × α)) : Dictionary α :=
  pairs.foldl (fun entries pair => insert pair.1 pair.2 entries) []

/-- A key that was just given a value has that value. -/
@[simp] theorem find?_insert_self (key : String) (value : α) (entries : Dictionary α) :
    find? key (insert key value entries) = some value := by
  fun_induction insert key value entries <;> simp_all [find?]

/-- Giving one key a value leaves the others alone. -/
theorem find?_insert_of_ne {key other : String} (value : α) (entries : Dictionary α)
    (h : other ≠ key) : find? other (insert key value entries) = find? other entries := by
  fun_induction insert key value entries <;> simp_all [find?]

/-- Giving a new key a value adds that key to the others. -/
theorem keys_insert_perm {key : String} (value : α) {entries : Dictionary α}
    (h : key ∉ keys entries) : (keys (insert key value entries)).Perm (key :: keys entries) := by
  induction entries with
  | nil => exact List.Perm.refl _
  | cons entry rest ih =>
    obtain ⟨k, v⟩ := entry
    simp only [keys, List.map_cons, List.mem_cons, not_or] at h
    unfold insert
    split
    · exact List.Perm.refl _
    · rw [if_neg h.1]
      exact ((ih h.2).cons k).trans (List.Perm.swap key k _)

end Dictionary

end TagTemplate
