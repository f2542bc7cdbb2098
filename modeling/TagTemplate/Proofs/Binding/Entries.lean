import TagTemplate.Binding.Evaluate
import TagTemplate.Proofs.Template.Tokenization

/-!
# `TagTemplate.Proofs.Binding.Entries`: the entry of each tag

`ParsedTemplate.resolve` goes through the tags and puts what it finds under
their identifiers. Where no two tags share an identifier, the entry of a tag
depends on what the tag says and on the data alone: not on the tags around it,
and not on the template (`HasTag.entries_resolve`). Parsed templates are so
(`hasTag_parse`).
-/

set_option autoImplicit false

namespace TagTemplate.Proofs.Binding

open TagTemplate.Proofs.Template

variable {data : Json} {e : Expression}

/-! ### Tags with identifiers of their own -/

/-- The template has the tag, which says `e`, and no two of its tags share an
identifier. -/
structure HasTag (t : ParsedTemplate) (tag : Tag) (e : Expression) : Prop where
  mem : tag ∈ t.tags
  expression : tag.toExpression = e
  nodup_ids : (t.tags.map (·.id)).Nodup

/-- A tag of a parsed template has its identifier alone. -/
theorem hasTag_parse {t : Template} {tag : Tag} (htag : tag ∈ t.parse.tags) :
    HasTag t.parse tag tag.toExpression :=
  ⟨htag, rfl, nodup_ids_tagsFrom 0 0 _⟩

/-- Everything that can be said by a tag is said by a tag of some template. -/
theorem exists_hasTag (e : Expression) : ∃ t tag, HasTag t tag e :=
  ⟨⟨"", "", .txt, [⟨e, "", "", ⟨0, 0⟩⟩], []⟩, ⟨e, "", "", ⟨0, 0⟩⟩, List.mem_singleton_self _, rfl,
    List.pairwise_singleton _ _⟩

/-! ### One tag after the other -/

/-- What stands under an identifier. -/
def entries (r : Resolved) (id : String) : Option Value × Option (List Value) × Option Value :=
  (Dictionary.find? id r.scalar, Dictionary.find? id r.perElement, Dictionary.find? id r.aggregated)

/-- A tag leaves the entries under other identifiers alone. -/
theorem entries_addTag_of_ne (r : Resolved) {tag : Tag} {id : String} (h : id ≠ tag.id) :
    entries (Resolved.addTag data r tag) id = entries r id := by
  obtain ⟨⟨path, marker, calls⟩, own, raw, span⟩ := tag
  rcases marker with _ | ⟨segment, _ | _ | _⟩ <;>
    simp only [entries, Resolved.addTag, Dictionary.find?_insert_of_ne _ _ h]

/-- Tags leave the entries under other identifiers alone. -/
theorem entries_foldl_of_notMem (r : Resolved) {tags : List Tag} {id : String}
    (h : id ∉ tags.map (·.id)) :
    entries (tags.foldl (Resolved.addTag data) r) id = entries r id := by
  induction tags generalizing r with
  | nil => rfl
  | cons tag tags ih =>
    rw [List.map_cons, List.mem_cons, not_or] at h
    rw [List.foldl_cons, ih _ h.2, entries_addTag_of_ne r h.1]

/-- The entries that what a tag says makes under the identifier of the tag: one
value, a list of values, or one value apart from the others. -/
def ownEntries (e : Expression) (data : Json) :
    Option Value × Option (List Value) × Option Value :=
  match e.marker with
  | none => (some (e.scalarValue data), none, none)
  | some marker =>
    match marker.index with
    | .direct _ => (some (e.scalarValue data), none, none)
    | .iterate => (none, some (e.iteratedValues marker data), none)
    | .aggregate => (none, none, some (e.aggregatedValue marker data))

/-- A tag whose identifier is new makes its own entries. -/
theorem entries_addTag_self {r : Resolved} {tag : Tag}
    (h : entries r tag.id = (none, none, none)) :
    entries (Resolved.addTag data r tag) tag.id = ownEntries tag.toExpression data := by
  obtain ⟨⟨path, marker, calls⟩, own, raw, span⟩ := tag
  simp only [entries, Prod.mk.injEq] at h
  rcases marker with _ | ⟨segment, _ | _ | _⟩ <;>
    simp [entries, ownEntries, Resolved.addTag, h]

/-- Among tags with identifiers of their own, each makes its own entries. -/
theorem entries_foldl_of_mem {r : Resolved} {tags : List Tag} (hids : (tags.map (·.id)).Nodup)
    (hnew : ∀ tag ∈ tags, entries r tag.id = (none, none, none)) {tag : Tag} (htag : tag ∈ tags) :
    entries (tags.foldl (Resolved.addTag data) r) tag.id = ownEntries tag.toExpression data := by
  induction tags generalizing r with
  | nil => cases htag
  | cons first tags ih =>
    rw [List.map_cons, List.nodup_cons] at hids
    rw [List.foldl_cons]
    rcases List.mem_cons.mp htag with rfl | htag
    · rw [entries_foldl_of_notMem _ hids.1]
      exact entries_addTag_self (hnew _ List.mem_cons_self)
    · refine ih hids.2 (fun other hother => ?_) htag
      have hne : other.id ≠ first.id := fun heq => hids.1 (heq ▸ List.mem_map_of_mem hother)
      rw [entries_addTag_of_ne r hne]
      exact hnew other (List.mem_cons_of_mem _ hother)

/-- The entries of a tag of a template are its own. -/
theorem HasTag.entries_resolve {t : ParsedTemplate} {tag : Tag} (h : HasTag t tag e)
    (data : Json) : entries (t.resolve data) tag.id = ownEntries e data := by
  obtain rfl := h.expression
  exact entries_foldl_of_mem h.nodup_ids (fun _ _ => rfl) h.mem

/-! ### The entries by kind of tag -/

/-- A tag that neither repeats nor reduces has one value. -/
theorem HasTag.find?_scalar {t : ParsedTemplate} {tag : Tag} (h : HasTag t tag e)
    (hiterate : e.isIterate = false) (haggregate : e.isAggregate = false) :
    Dictionary.find? tag.id (t.resolve data).scalar = some (e.scalarValue data) := by
  refine (congrArg Prod.fst (h.entries_resolve data)).trans ?_
  obtain ⟨path, marker, calls⟩ := e
  rcases marker with _ | ⟨segment, position | _ | _⟩
  · rfl
  · rfl
  · cases hiterate
  · cases haggregate

/-- A repeating tag has a list of values. -/
theorem HasTag.find?_perElement {t : ParsedTemplate} {tag : Tag} (h : HasTag t tag e)
    {segment : Nat} (hmarker : e.marker = some ⟨segment, .iterate⟩) :
    Dictionary.find? tag.id (t.resolve data).perElement
      = some (e.iteratedValues ⟨segment, .iterate⟩ data) := by
  refine (congrArg (fun entry => entry.2.1) (h.entries_resolve data)).trans ?_
  simp only [ownEntries, hmarker]

/-- A reducing tag has one value, apart from the others. -/
theorem HasTag.find?_aggregated {t : ParsedTemplate} {tag : Tag} (h : HasTag t tag e)
    {segment : Nat} (hmarker : e.marker = some ⟨segment, .aggregate⟩) :
    Dictionary.find? tag.id (t.resolve data).aggregated
      = some (e.aggregatedValue ⟨segment, .aggregate⟩ data) := by
  refine (congrArg (fun entry => entry.2.2) (h.entries_resolve data)).trans ?_
  simp only [ownEntries, hmarker]

end TagTemplate.Proofs.Binding
