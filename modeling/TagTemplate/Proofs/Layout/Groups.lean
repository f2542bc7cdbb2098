import TagTemplate.Layout.Region

/-!
# `TagTemplate.Proofs.Layout.Groups`: repeating tags by array

The layout groups the repeating tags by the array that they walk, in one pass over
the tags of the template. `Grouped` says what the groups are after some of the
tags: one for each array, with the tags of that array in their order. A tag that
repeats is added (`Grouped.addToGroup`), any other tag is passed over
(`Grouped.skip`).

So `iterateGroups` gives for each array its repeating tags in order
(`eq_filter_of_mem_iterateGroups`), and leaves no array out
(`filter_mem_iterateGroups`).
-/

set_option autoImplicit false

namespace TagTemplate.Proofs.Layout

open TagTemplate.Layout

variable {tags : List Tag}

/-- The tag repeats, for the array of the key. -/
def walks (key : String) (tag : Tag) : Bool :=
  tag.isIterate && tag.arrayKey? == some key

/-- A repeating tag repeats for the array of some key. -/
theorem exists_walks {tag : Tag} (h : tag.isIterate) : ∃ key, walks key tag := by
  cases hmarker : tag.marker with
  | none => simp [Expression.isIterate, hmarker] at h
  | some marker =>
    exact ⟨".".intercalate (tag.path.take (marker.segment + 1)), by
      simp [walks, h, Expression.arrayKey?, hmarker]⟩

/-- A tag that repeats for the array of a key repeats. -/
theorem isIterate_of_walks {tag : Tag} {key : String} (h : walks key tag) : tag.isIterate := by
  rw [walks, Bool.and_eq_true] at h
  exact h.1

/-- A tag repeats for one array only. -/
theorem key_eq_of_walks {tag : Tag} {key other : String} (h : walks key tag)
    (hother : walks other tag) : key = other := by
  simp only [walks, Bool.and_eq_true, beq_iff_eq] at h hother
  exact Option.some.inj (h.2.symm.trans hother.2)

/-- The groups after some of the tags: one for each array that these walk, and in
it the tags of the array in their order. -/
structure Grouped (done : List Placed) (groups : List (String × List Placed)) : Prop where
  keys : (groups.map (·.1)).Nodup
  members : ∀ group ∈ groups, group.2 = done.filter fun tag => walks group.1 tag.1
  complete : ∀ tag ∈ done, ∀ key, walks key tag.1 → key ∈ groups.map (·.1)

/-- A group after a tag is added is an old one of another key, or the group of
the key with the tag at its end. -/
theorem mem_addToGroup {key : String} {tag : Placed} {groups : List (String × List Placed)}
    (hkeys : (groups.map (·.1)).Nodup) {group : String × List Placed}
    (h : group ∈ addToGroup key tag groups) :
    (group ∈ groups ∧ group.1 ≠ key) ∨
      ∃ old, group = (key, old ++ [tag]) ∧
        ((key, old) ∈ groups ∨ key ∉ groups.map (·.1) ∧ old = []) := by
  induction groups with
  | nil =>
    obtain rfl := List.mem_singleton.mp h
    exact Or.inr ⟨[], rfl, Or.inr ⟨by simp, rfl⟩⟩
  | cons first groups ih =>
    obtain ⟨k, members⟩ := first
    rw [List.map_cons, List.nodup_cons] at hkeys
    obtain ⟨hnotMem, hkeys⟩ := hkeys
    simp only [addToGroup] at h
    split at h
    · -- The group of the key is the first one, and keys differ, so no other has it.
      rename_i hkey
      subst hkey
      rcases List.mem_cons.mp h with rfl | h
      · exact Or.inr ⟨members, rfl, Or.inl List.mem_cons_self⟩
      · exact Or.inl ⟨List.mem_cons_of_mem _ h,
          fun heq => hnotMem (List.mem_map.mpr ⟨group, h, heq⟩)⟩
    · rename_i hkey
      rcases List.mem_cons.mp h with rfl | h
      · exact Or.inl ⟨List.mem_cons_self, hkey⟩
      · rcases ih hkeys h with ⟨hmem, hne⟩ | ⟨old, rfl, hold⟩
        · exact Or.inl ⟨List.mem_cons_of_mem _ hmem, hne⟩
        · refine Or.inr ⟨old, rfl, hold.imp (List.mem_cons_of_mem _) ?_⟩
          rintro ⟨hnew, rfl⟩
          exact ⟨by simpa [Ne.symm hkey] using hnew, rfl⟩

/-- The keys after a tag is added are the old ones, and at the end the key of the
tag if it is new. -/
theorem keys_addToGroup (key : String) (tag : Placed) (groups : List (String × List Placed)) :
    (addToGroup key tag groups).map (·.1)
      = if key ∈ groups.map (·.1) then groups.map (·.1) else groups.map (·.1) ++ [key] := by
  induction groups with
  | nil => rfl
  | cons first groups ih =>
    obtain ⟨k, members⟩ := first
    simp only [addToGroup]
    by_cases hkey : k = key
    · simp [hkey]
    · simp only [if_neg hkey, List.map_cons, ih, List.mem_cons, Ne.symm hkey, false_or]
      split <;> simp

/-- Adding a repeating tag keeps the groups right. -/
theorem Grouped.addToGroup {done : List Placed} {groups : List (String × List Placed)}
    (h : Grouped done groups) {key : String} {tag : Placed} (htag : walks key tag.1) :
    Grouped (done ++ [tag]) (Layout.addToGroup key tag groups) where
  keys := by
    rw [keys_addToGroup]
    split
    · exact h.keys
    · rename_i hnew
      exact List.nodup_append.mpr ⟨h.keys, by simp, fun k hk k' hk' heq =>
        hnew (by rw [← List.mem_singleton.mp hk', ← heq]; exact hk)⟩
  members group hgroup := by
    rcases mem_addToGroup h.keys hgroup with ⟨hmem, hne⟩ | ⟨old, rfl, hold⟩
    · have hother : ¬ walks group.1 tag.1 := fun hw => hne (key_eq_of_walks hw htag)
      simp [h.members group hmem, hother]
    · -- The group of the key has the tags so far, which are none if the key is new.
      rcases hold with hmem | ⟨hnew, rfl⟩
      · have hold : old = done.filter fun other => walks key other.1 := h.members _ hmem
        simp [hold, htag]
      · have hnone : done.filter (fun other => walks key other.1) = [] :=
          List.filter_eq_nil_iff.mpr fun other hother hw => hnew (h.complete other hother key hw)
        simp [hnone, htag]
  complete other hother k hk := by
    rw [keys_addToGroup]
    rcases List.mem_append.mp hother with hold | hnew
    · have := h.complete other hold k hk
      split
      · exact this
      · exact List.mem_append_left _ this
    · obtain rfl := List.mem_singleton.mp hnew
      obtain rfl := key_eq_of_walks hk htag
      split
      · assumption
      · simp

/-- A tag that does not repeat leaves the groups right. -/
theorem Grouped.skip {done : List Placed} {groups : List (String × List Placed)}
    (h : Grouped done groups) {tag : Placed} (htag : ∀ key, ¬ walks key tag.1) :
    Grouped (done ++ [tag]) groups where
  keys := h.keys
  members group hgroup := by simp [h.members group hgroup, htag]
  complete other hother k hk := by
    rcases List.mem_append.mp hother with hold | hnew
    · exact h.complete other hold k hk
    · obtain rfl := List.mem_singleton.mp hnew
      exact absurd hk (htag k)

/-- A pass whose every step keeps the groups right gives right groups. The
induction is on the tags that are still to come. -/
theorem Grouped.foldl {step : List (String × List Placed) → Placed → List (String × List Placed)}
    (hstep : ∀ done groups tag, Grouped done groups → Grouped (done ++ [tag]) (step groups tag))
    (rest done : List Placed) (groups : List (String × List Placed)) (h : Grouped done groups) :
    Grouped (done ++ rest) (rest.foldl step groups) := by
  induction rest generalizing done groups with
  | nil => simpa using h
  | cons tag rest ih =>
    rw [List.foldl_cons, List.append_cons]
    exact ih (done ++ [tag]) _ (hstep done groups tag h)

/-- The groups of the tags of a template are right. -/
theorem exists_grouped (tags : List Tag) :
    ∃ groups, iterateGroups tags = groups.map (·.2) ∧ Grouped tags.zipIdx groups := by
  refine ⟨_, rfl, Grouped.foldl (fun done groups tag h => ?_) tags.zipIdx [] []
    ⟨List.nodup_nil, by simp, by simp⟩⟩
  split
  · rename_i key hkey
    split
    · rename_i hiterate
      exact h.addToGroup (by simp [walks, hiterate, hkey])
    · rename_i hiterate
      exact h.skip fun k => by simp [walks, hiterate]
  · rename_i hkey
    exact h.skip fun k => by simp [walks, hkey]

/-- A group has the repeating tags of one array. -/
theorem eq_filter_of_mem_iterateGroups {group : List Placed} (h : group ∈ iterateGroups tags) :
    ∃ key, group = tags.zipIdx.filter fun tag => walks key tag.1 := by
  obtain ⟨groups, heq, hgrouped⟩ := exists_grouped tags
  rw [heq] at h
  obtain ⟨⟨key, members⟩, hmem, rfl⟩ := List.mem_map.mp h
  exact ⟨key, hgrouped.members _ hmem⟩

/-- Each array that a tag repeats for has its group. -/
theorem filter_mem_iterateGroups {tag : Tag} (htag : tag ∈ tags) {key : String}
    (hkey : walks key tag) :
    tags.zipIdx.filter (fun tag => walks key tag.1) ∈ iterateGroups tags := by
  obtain ⟨groups, heq, hgrouped⟩ := exists_grouped tags
  obtain ⟨position, hposition⟩ := List.mem_iff_getElem?.mp htag
  have hplaced : (tag, position) ∈ tags.zipIdx := List.mem_zipIdx_iff_getElem?.mpr hposition
  obtain ⟨⟨k, members⟩, hmem, rfl⟩ := List.mem_map.mp (hgrouped.complete _ hplaced key hkey)
  rw [heq, ← hgrouped.members _ hmem]
  exact List.mem_map_of_mem hmem

end TagTemplate.Proofs.Layout
