import TagTemplate.Proofs.Json.Trees
import TagTemplate.Proofs.Support.Sequences
import TagTemplate.Record.Resolved

/-!
# `TagTemplate.Proofs.Record.Reading`: documents that read as a value

A document reads as a value if it can be written and a reader gives the value for it
(`Reads`). Such documents are put together: lists and dictionaries from documents of
their entries, records from documents of their fields. A record whose fields stand in
the order in which they are named gives back exactly those fields
(`fields?_record`), and each of them is read where it stands (`required?_self`,
`optional?_self`).
-/

set_option autoImplicit false

namespace TagTemplate.Proofs.Record

open TagTemplate.Json (Document)
open TagTemplate.Record
open TagTemplate.Proofs.Json TagTemplate.Proofs.Support

variable {α : Type}

/-- A document can be written, and a reader takes it for a value. -/
structure Reads (read? : Document → Option α) (d : Document) (a : α) : Prop where
  writable : Writable d
  read : read? d = some a

/-- The compact text of a document is read as its value. -/
theorem Reads.ofText? {read? : Document → Option α} {d : Document} {a : α}
    (h : Reads read? d a) : (Document.ofText? d.compact).bind read? = some a := by
  rw [ofText?_compact h.writable]
  exact h.read

/-! ### Writable documents -/

/-- An array can be written if each element can. -/
theorem elementsWritable_iff {ds : List Document} :
    ElementsWritable ds ↔ ∀ d ∈ ds, Writable d := by
  induction ds with
  | nil => simp [ElementsWritable]
  | cons d ds ih => rw [ElementsWritable, ih, List.forall_mem_cons]

/-- A record can be written if each field can. -/
theorem writable_record_iff {members : List (String × Document)} :
    Writable (.record members) ↔ ∀ member ∈ members, Writable member.2 := by
  show MembersWritable (members.map fun member => (some member.1, member.2)) ↔ _
  induction members with
  | nil => simp [MembersWritable]
  | cons member members ih =>
    rw [List.map_cons, MembersWritable, ih, List.forall_mem_cons]
    exact and_iff_right rfl

/-! ### Parts of records -/

/-- A pass that undoes a map gives the list back. -/
theorem mapM_map_eq_some {α β : Type} {f : β → Option α} {g : α → β} {xs : List α}
    (h : ∀ x ∈ xs, f (g x) = some x) : (xs.map g).mapM f = some xs := by
  have hread := mapM_eq_some_map (f := f ∘ g) (g := id) h
  rwa [← List.mapM_map, List.map_id] at hread

/-- A text is read as itself. -/
theorem reads_text (s : String) : Reads text? (.text s) s :=
  ⟨rfl, rfl⟩

/-- The number of a number document is that of its literal. -/
theorem number?_number (literal : String) :
    number? (.number literal) = literalNumber? literal := rfl

/-- A natural number of 64 bits is read as itself. -/
theorem reads_natural {n : Nat} (h : n ≤ Json.Numeral.coefficientLimit) :
    Reads natural? (.natural n) n := by
  have hliteral := literalNumber?_natural h
  refine ⟨isSome_of_literalNumber? hliteral, ?_⟩
  show natural? (.number (toString n)) = some n
  rw [natural?, number?_number, hliteral]
  simp

/-- A list is read from the documents of its elements. -/
theorem reads_list {read? : Document → Option α} {toDocument : α → Document} {as : List α}
    (h : ∀ a ∈ as, Reads read? (toDocument a) a) :
    Reads (list? read?) (.array (as.map toDocument)) as := by
  constructor
  · refine elementsWritable_iff.mpr fun d hd => ?_
    obtain ⟨a, ha, rfl⟩ := List.mem_map.mp hd
    exact (h a ha).writable
  · exact mapM_map_eq_some fun a ha => (h a ha).read

/-- The members of a record have texts for keys. -/
theorem members?_record (members : List (String × Document)) :
    members? (members.map fun member => (some member.1, member.2)) = some members :=
  mapM_map_eq_some fun _ _ => rfl

/-- A dictionary is read from the documents of its values. -/
theorem reads_dictionary {read? : Document → Option α} {toDocument : α → Document}
    {entries : Dictionary α} (hsorted : Dictionary.Sorted entries)
    (h : ∀ entry ∈ entries, Reads read? (toDocument entry.2) entry.2) :
    Reads (dictionary? read?) (Resolved.dictionaryDocument toDocument entries) entries := by
  constructor
  · refine writable_record_iff.mpr fun member hmember => ?_
    obtain ⟨entry, hentry, rfl⟩ := List.mem_map.mp hmember
    exact (h entry hentry).writable
  · simp only [Resolved.dictionaryDocument, Document.record, dictionary?, members?_record,
      Option.bind_eq_bind, Option.bind_some]
    rw [mapM_map_eq_some fun entry hentry => ?_]
    · exact congrArg some (Dictionary.ofList_of_sorted hsorted)
    · show (read? (toDocument entry.2)).map _ = _
      rw [(h entry hentry).read]
      rfl

/-! ### Records -/

/-- The fields of a record in their order are read. -/
@[simp]
theorem fields?_record {names : List String} {members : List (String × Document)}
    (hnames : members.map Prod.fst = names) (hnodup : names.Nodup) :
    fields? names (.record members) = some members := by
  have hknown : members.filter (fun field => names.contains field.1) = members := by
    refine List.filter_eq_self.mpr fun field hfield => ?_
    rw [List.contains_iff_mem, ← hnames]
    exact List.mem_map_of_mem hfield
  simp only [fields?, Document.record, members?_record, Option.bind_eq_bind, Option.bind_some,
    hknown]
  rw [if_pos (hnames ▸ hnodup)]

/-- The fields of a record that has no other members are read. -/
@[simp]
theorem exactFields?_record {names : List String} {members : List (String × Document)}
    (hnames : members.map Prod.fst = names) (hnodup : names.Nodup) :
    exactFields? names (.record members) = some members := by
  rw [← fields?_record hnames hnodup]
  have hall : ∀ member ∈ members.map fun member => (some member.1, member.2),
      names.any (fun name => member.1 == some name) = true := by
    intro member hmember
    obtain ⟨field, hfield, rfl⟩ := List.mem_map.mp hmember
    refine List.any_eq_true.mpr ⟨field.1, hnames ▸ List.mem_map_of_mem hfield, ?_⟩
    exact beq_self_eq_true _
  exact if_pos (List.all_eq_true.mpr hall)

section Fields

variable {name other : String} {d : Document} {fields : Fields} {read? : Document → Option α}
  {default : α}

/-- A field that must be given is read where it stands. -/
@[simp]
theorem required?_self : required? ((name, d) :: fields) name read? = read? d := by
  rw [required?, List.lookup_cons_self]
  rfl

/-- A field that must be given is read past another one. -/
@[simp]
theorem required?_of_ne (h : name ≠ other) :
    required? ((other, d) :: fields) name read? = required? fields name read? := by
  rw [required?, List.lookup_cons, beq_false_of_ne h]
  rfl

/-- A field with a default value is read where it stands. -/
@[simp]
theorem optional?_self : optional? ((name, d) :: fields) name default read? = read? d := by
  rw [optional?, List.lookup_cons_self]

/-- A field with a default value is read past another one. -/
@[simp]
theorem optional?_of_ne (h : name ≠ other) :
    optional? ((other, d) :: fields) name default read?
      = optional? fields name default read? := by
  rw [optional?, List.lookup_cons, beq_false_of_ne h]
  rfl

end Fields

end TagTemplate.Proofs.Record
