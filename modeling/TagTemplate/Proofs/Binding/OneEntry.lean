import Mathlib.Data.List.Induction
import TagTemplate.Proofs.Binding.Entries

/-!
# `TagTemplate.Proofs.Binding.OneEntry`: one entry for each tag

The values of a template are kept in three dictionaries, by the kind of the tag.
`HasKeys` says that their keys are the identifiers of the tags of each kind; one
tag after the other keeps it (`HasKeys.addTag`), so that the values of a template
have it.

`oneEntryEach_resolve` puts this together with `HasTag.entries_resolve`: no
identifier is in two dictionaries, all tags have one, and what stands under it is
what the tag has in a template of its own. A look-up therefore never gives the
value of another tag.
-/

set_option autoImplicit false

namespace TagTemplate.Proofs.Binding

variable {data : Json}

/-! ### Keys -/

/-- A tag that neither repeats nor reduces. -/
def isPlain (tag : Tag) : Bool :=
  !tag.isIterate && !tag.isAggregate

/-- The identifiers of the tags of a kind. -/
def idsOf (kind : Tag → Bool) (tags : List Tag) : List String :=
  (tags.filter kind).map (·.id)

/-- The identifiers are the keys, each in the dictionary for its kind of tag. -/
structure HasKeys (r : Resolved) (tags : List Tag) : Prop where
  scalar : (Dictionary.keys r.scalar).Perm (idsOf isPlain tags)
  perElement : (Dictionary.keys r.perElement).Perm (idsOf (·.isIterate) tags)
  aggregated : (Dictionary.keys r.aggregated).Perm (idsOf (·.isAggregate) tags)

/-- The identifiers of a kind are among all. -/
theorem idsOf_subset (kind : Tag → Bool) (tags : List Tag) : idsOf kind tags ⊆ tags.map (·.id) :=
  List.map_subset _ (List.filter_subset_self tags)

/-- A tag of another kind adds no identifier. -/
theorem idsOf_concat_of_neg (kind : Tag → Bool) (tags : List Tag) (tag : Tag)
    (h : ¬ kind tag = true) : idsOf kind (tags ++ [tag]) = idsOf kind tags := by
  simp [idsOf, List.filter_append, h]

/-- A tag of the kind adds its identifier to the keys. -/
theorem perm_idsOf_concat {α : Type} {entries : Dictionary α} {kind : Tag → Bool}
    {tags : List Tag} {tag : Tag} (value : α)
    (hkeys : (Dictionary.keys entries).Perm (idsOf kind tags)) (hnew : tag.id ∉ tags.map (·.id))
    (hkind : kind tag = true) :
    (Dictionary.keys (Dictionary.insert tag.id value entries)).Perm
      (idsOf kind (tags ++ [tag])) := by
  have hkey : tag.id ∉ Dictionary.keys entries := fun hmem =>
    hnew (idsOf_subset kind tags (hkeys.subset hmem))
  have hids : idsOf kind (tags ++ [tag]) = idsOf kind tags ++ [tag.id] := by
    simp [idsOf, List.filter_append, hkind]
  rw [hids]
  exact (Dictionary.keys_insert_perm value hkey).trans
    ((hkeys.cons _).trans (List.perm_append_singleton _ _).symm)

/-- A tag with a new identifier adds it to the keys for its kind. The cases are the
kinds of tags; in each one dictionary grows and the others stay. -/
theorem HasKeys.addTag {r : Resolved} {tags : List Tag} (h : HasKeys r tags) {tag : Tag}
    (hnew : tag.id ∉ tags.map (·.id)) :
    HasKeys (Resolved.addTag data r tag) (tags ++ [tag]) := by
  have hplain := idsOf_concat_of_neg isPlain tags tag
  have hiterate := idsOf_concat_of_neg (·.isIterate) tags tag
  have haggregate := idsOf_concat_of_neg (·.isAggregate) tags tag
  obtain ⟨⟨path, marker, calls⟩, id, raw, span⟩ := tag
  rcases marker with _ | ⟨segment, position | _ | _⟩
  case none =>
    exact ⟨perm_idsOf_concat _ h.scalar hnew rfl, by rw [hiterate nofun]; exact h.perElement,
      by rw [haggregate nofun]; exact h.aggregated⟩
  case some.direct =>
    exact ⟨perm_idsOf_concat _ h.scalar hnew rfl, by rw [hiterate nofun]; exact h.perElement,
      by rw [haggregate nofun]; exact h.aggregated⟩
  case some.iterate =>
    exact ⟨by rw [hplain nofun]; exact h.scalar, perm_idsOf_concat _ h.perElement hnew rfl,
      by rw [haggregate nofun]; exact h.aggregated⟩
  case some.aggregate =>
    exact ⟨by rw [hplain nofun]; exact h.scalar, by rw [hiterate nofun]; exact h.perElement,
      perm_idsOf_concat _ h.aggregated hnew rfl⟩

/-- Tags with identifiers of their own make these the keys. -/
theorem hasKeys_foldl {tags : List Tag} (hids : (tags.map (·.id)).Nodup) :
    HasKeys (tags.foldl (Resolved.addTag data) Resolved.empty) tags := by
  induction tags using List.reverseRecOn with
  | nil => exact ⟨List.Perm.nil, List.Perm.nil, List.Perm.nil⟩
  | append_singleton tags tag ih =>
    rw [List.map_append, List.nodup_append] at hids
    obtain ⟨hbefore, -, hapart⟩ := hids
    rw [List.foldl_append]
    exact (ih hbefore).addTag fun hmem =>
      hapart _ hmem _ (List.mem_singleton_self tag.id) rfl

/-- Each tag is of one kind. -/
theorem idsOf_perm (tags : List Tag) :
    (idsOf isPlain tags ++ idsOf (·.isIterate) tags ++ idsOf (·.isAggregate) tags).Perm
      (tags.map (·.id)) := by
  induction tags with
  | nil => exact List.Perm.nil
  | cons tag tags ih =>
    obtain ⟨⟨path, marker, calls⟩, id, raw, span⟩ := tag
    rcases marker with _ | ⟨segment, position | _ | _⟩
    case none => exact ih.cons id
    case some.direct => exact ih.cons id
    case some.iterate =>
      refine List.Perm.trans ?_ (ih.cons id)
      exact List.perm_middle.append_right _
    case some.aggregate => exact List.perm_middle.trans (ih.cons id)

/-! ### Entries -/

/-- The single value of what a tag says, if it does not repeat. -/
def ownValue (e : Expression) (data : Json) : Value :=
  match e.marker with
  | some ⟨segment, .aggregate⟩ => e.aggregatedValue ⟨segment, .aggregate⟩ data
  | _ => e.scalarValue data

/-- The values of what a tag says, if it repeats. -/
def ownElements (e : Expression) (data : Json) : List Value :=
  match e.marker with
  | some marker => e.iteratedValues marker data
  | none => []

/-- The template with a single one of its tags. -/
def alone (t : ParsedTemplate) (tag : Tag) : ParsedTemplate :=
  { t with tags := [tag] }

/-- Each tag of a template has one entry, and the entry is its own. -/
structure OneEntryEach (t : ParsedTemplate) (data : Json) : Prop where
  /-- The keys of each dictionary are the identifiers of the tags of its kind. -/
  keys : HasKeys (t.resolve data) t.tags
  /-- No key is in two dictionaries, or twice in one. -/
  nodup : (Dictionary.keys (t.resolve data).scalar ++ Dictionary.keys (t.resolve data).perElement
    ++ Dictionary.keys (t.resolve data).aggregated).Nodup
  /-- The keys together are all identifiers. -/
  all : (Dictionary.keys (t.resolve data).scalar ++ Dictionary.keys (t.resolve data).perElement
    ++ Dictionary.keys (t.resolve data).aggregated).Perm (t.tags.map (·.id))
  /-- A tag has the entry that it has alone. -/
  entry : ∀ tag ∈ t.tags,
    entries (t.resolve data) tag.id = entries ((alone t tag).resolve data) tag.id
  /-- Looking up a tag that does not repeat gives its own value. -/
  single : ∀ tag ∈ t.tags, tag.isIterate = false →
    (t.resolve data).single tag.id = ownValue tag.toExpression data
  /-- Looking up an element of a tag that repeats gives the tag's own value for it. -/
  element : ∀ tag ∈ t.tags, tag.isIterate = true → ∀ position,
    (t.resolve data).element tag.id position
      = (ownElements tag.toExpression data).getD position .missing

/-- Looking up a single value reads the entries under the identifier. -/
theorem single_eq (r : Resolved) (id : String) :
    r.single id = ((entries r id).1.or (entries r id).2.2).getD .missing := rfl

/-- Looking up an element reads the entries under the identifier. -/
theorem element_eq (r : Resolved) (id : String) (position : Nat) :
    r.element id position = ((entries r id).2.1.getD []).getD position .missing := rfl

/-- Each tag of each parsed template has one entry for all data, and tags do not
change the entries of each other. -/
theorem oneEntryEach_resolve (t : Template) (data : Json) : OneEntryEach t.parse data := by
  have hids : (t.parse.tags.map (·.id)).Nodup := Template.nodup_ids_tagsFrom 0 0 _
  have hkeys : HasKeys (t.parse.resolve data) t.parse.tags := hasKeys_foldl hids
  have hall : (Dictionary.keys (t.parse.resolve data).scalar
      ++ Dictionary.keys (t.parse.resolve data).perElement
      ++ Dictionary.keys (t.parse.resolve data).aggregated).Perm (t.parse.tags.map (·.id)) :=
    ((hkeys.scalar.append hkeys.perElement).append hkeys.aggregated).trans (idsOf_perm _)
  have hentries : ∀ tag ∈ t.parse.tags,
      entries (t.parse.resolve data) tag.id = ownEntries tag.toExpression data := fun tag htag =>
    (hasTag_parse htag).entries_resolve data
  refine ⟨hkeys, hall.nodup_iff.mpr hids, hall, ?_, ?_, ?_⟩
  · intro tag htag
    have halone : HasTag (alone t.parse tag) tag tag.toExpression :=
      ⟨List.mem_singleton_self tag, rfl, List.pairwise_singleton _ _⟩
    rw [hentries tag htag, halone.entries_resolve data]
  · intro tag htag hsingle
    rw [single_eq, hentries tag htag]
    obtain ⟨⟨path, marker, calls⟩, id, raw, span⟩ := tag
    rcases marker with _ | ⟨segment, position | _ | _⟩
    · rfl
    · rfl
    · cases hsingle
    · rfl
  · intro tag htag hiterate position
    rw [element_eq, hentries tag htag]
    obtain ⟨⟨path, marker, calls⟩, id, raw, span⟩ := tag
    rcases marker with _ | ⟨segment, place | _ | _⟩
    · cases hiterate
    · cases hiterate
    · rfl
    · cases hiterate

end TagTemplate.Proofs.Binding
