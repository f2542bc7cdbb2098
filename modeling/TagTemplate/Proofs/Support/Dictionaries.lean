import TagTemplate.Dictionary

/-!
# `TagTemplate.Proofs.Support.Dictionaries`: the keys of a dictionary

A lookup finds nothing exactly under the keys that are not there (`find?_eq_none_iff`).

Every dictionary that is built by insertion has its keys in increasing order
(`sorted_ofList`), and a list of pairs in that order is its own dictionary
(`ofList_of_sorted`). Together they let a dictionary be written as a list of pairs
and be built again from it.
-/

set_option autoImplicit false

namespace TagTemplate.Dictionary

variable {α : Type} {key : String} {value : α} {entries : Dictionary α}

/-- The keys increase, so that no key is there twice. -/
def Sorted (entries : Dictionary α) : Prop :=
  entries.Pairwise fun a b => a.1 < b.1

/-- Nothing is found under a key that is not there. -/
theorem find?_eq_none_iff : find? key entries = none ↔ key ∉ keys entries := by
  induction entries with
  | nil => exact iff_of_true rfl List.not_mem_nil
  | cons entry rest ih =>
    obtain ⟨k, v⟩ := entry
    rw [find?, keys, List.map_cons, List.mem_cons, not_or]
    by_cases hkey : key = k
    · rw [if_pos hkey]
      exact iff_of_false (Option.some_ne_none v) fun h => h.1 hkey
    · rw [if_neg hkey, ih, keys]
      exact (and_iff_right hkey).symm

/-- An entry after an insertion is the inserted one or was there before. -/
theorem mem_of_mem_insert {entry : String × α} (h : entry ∈ insert key value entries) :
    entry = (key, value) ∨ entry ∈ entries := by
  fun_induction insert key value entries with
  -- The dictionary ends.
  | case1 => exact .inl (List.mem_singleton.mp h)
  -- The key comes before the first one.
  | case2 k v rest hlt => exact List.mem_cons.mp h
  -- The key is the first one.
  | case3 v rest hne => exact (List.mem_cons.mp h).imp id (List.mem_cons_of_mem _)
  -- The key comes after the first one.
  | case4 k v rest hlt hne ih =>
    rcases List.mem_cons.mp h with rfl | hrest
    · exact .inr List.mem_cons_self
    · exact (ih hrest).imp id (List.mem_cons_of_mem _)

/-- Insertion keeps the keys in order. -/
theorem sorted_insert (key : String) (value : α) (h : Sorted entries) :
    Sorted (insert key value entries) := by
  fun_induction insert key value entries with
  -- The dictionary ends.
  | case1 => exact List.pairwise_singleton _ _
  -- The key comes before the first one.
  | case2 k v rest hlt =>
    refine List.pairwise_cons.mpr ⟨fun entry hentry => ?_, h⟩
    rcases List.mem_cons.mp hentry with rfl | hrest
    · exact hlt
    · exact String.lt_trans hlt (List.rel_of_pairwise_cons h hrest)
  -- The key is the first one.
  | case3 v rest hne =>
    exact List.pairwise_cons.mpr (List.pairwise_cons.mp h)
  -- The key comes after the first one.
  | case4 k v rest hlt hne ih =>
    obtain ⟨hfirst, hrest⟩ := List.pairwise_cons.mp h
    refine List.pairwise_cons.mpr ⟨fun entry hentry => ?_, ih hrest⟩
    rcases mem_of_mem_insert hentry with rfl | hold
    · exact Std.lt_of_le_of_ne (String.not_lt.mp hlt) (Ne.symm hne)
    · exact hfirst entry hold

/-- A key after all others is inserted at the end. -/
theorem insert_eq_append (h : ∀ entry ∈ entries, entry.1 < key) (value : α) :
    insert key value entries = entries ++ [(key, value)] := by
  fun_induction insert key value entries with
  -- The dictionary ends.
  | case1 => rfl
  -- The key comes before the first one.
  | case2 k v rest hlt =>
    exact absurd (String.lt_trans hlt (h (k, v) List.mem_cons_self)) (String.lt_irrefl _)
  -- The key is the first one.
  | case3 v rest hne => exact absurd (h (key, v) List.mem_cons_self) (String.lt_irrefl _)
  -- The key comes after the first one.
  | case4 k v rest hlt hne ih =>
    rw [ih fun entry hentry => h entry (List.mem_cons_of_mem _ hentry), List.cons_append]

/-- Pairs in order are added to a dictionary before them one after the other. -/
theorem foldl_insert_eq_append {pairs : List (String × α)} (hpairs : Sorted pairs)
    (hbefore : ∀ entry ∈ entries, ∀ pair ∈ pairs, entry.1 < pair.1) :
    pairs.foldl (fun entries pair => insert pair.1 pair.2 entries) entries = entries ++ pairs := by
  induction pairs generalizing entries with
  | nil => exact (List.append_nil _).symm
  | cons pair pairs ih =>
    obtain ⟨hfirst, hrest⟩ := List.pairwise_cons.mp hpairs
    have hinsert := insert_eq_append
      (fun entry hentry => hbefore entry hentry pair List.mem_cons_self) pair.2
    rw [List.foldl_cons, hinsert, ih hrest, List.append_assoc, List.singleton_append]
    intro entry hentry other hother
    rcases List.mem_append.mp hentry with hentry | hentry
    · exact hbefore entry hentry other (List.mem_cons_of_mem _ hother)
    · obtain rfl := List.mem_singleton.mp hentry
      exact hfirst other hother

/-- Pairs in the order of their keys are a dictionary. -/
theorem ofList_of_sorted {pairs : List (String × α)} (h : Sorted pairs) : ofList pairs = pairs :=
  foldl_insert_eq_append h fun _ hentry => nomatch hentry

/-- Pairs that are added to a dictionary in order leave it in order, and each entry
afterwards is one of the pairs or was there before. -/
theorem sorted_foldl_insert {entries : Dictionary α} (pairs : List (String × α))
    (h : Sorted entries) :
    let after := pairs.foldl (fun entries pair => insert pair.1 pair.2 entries) entries
    Sorted after ∧ ∀ entry ∈ after, entry ∈ pairs ∨ entry ∈ entries := by
  induction pairs generalizing entries with
  | nil => exact ⟨h, fun entry hentry => .inr hentry⟩
  | cons pair pairs ih =>
    obtain ⟨hsorted, hmem⟩ := ih (sorted_insert pair.1 pair.2 h)
    refine ⟨hsorted, fun entry hentry => ?_⟩
    rcases hmem entry hentry with hpair | hafter
    · exact .inl (List.mem_cons_of_mem _ hpair)
    · rcases mem_of_mem_insert hafter with rfl | hold
      · exact .inl List.mem_cons_self
      · exact .inr hold

/-- The dictionary of a list of pairs has its keys in order. -/
theorem sorted_ofList (pairs : List (String × α)) : Sorted (ofList pairs) :=
  (sorted_foldl_insert pairs List.Pairwise.nil).1

/-- The entries of a dictionary are from its list of pairs. -/
theorem mem_of_mem_ofList {pairs : List (String × α)} {entry : String × α}
    (h : entry ∈ ofList pairs) : entry ∈ pairs :=
  ((sorted_foldl_insert pairs List.Pairwise.nil).2 entry h).resolve_right List.not_mem_nil

end TagTemplate.Dictionary
