import TagTemplate.Template.Parsed

/-!
# `TagTemplate.Store`: parsed templates kept for later

A store keeps parsed templates under their identifiers, up to a capacity. A
template that is asked for is taken from the store or else parsed, and kept if
there is room. A full store keeps what it has until it is cleared.

The store counts the slots that are taken apart from the templates that it
keeps: a slot is taken before a template is put into the store, and given back
if the identifier turns out to have a template by then.
-/

set_option autoImplicit false

namespace TagTemplate

/-- The kept templates, the latest first, and how many may be kept. -/
structure Store where
  capacity : Nat
  entries : List (String × ParsedTemplate)
  /-- The number of slots that are taken. -/
  reserved : Nat

/-- What a store gives for a template. -/
structure Store.Found where
  template : ParsedTemplate
  /-- The template was in the store. -/
  hit : Bool
  deriving DecidableEq

namespace Store

/-- A store without templates. -/
def empty (capacity : Nat) : Store := ⟨capacity, [], 0⟩

/-- The number of kept templates. -/
def size (s : Store) : Nat :=
  s.entries.length

/-- No template is kept. -/
def isEmpty (s : Store) : Bool :=
  s.entries.isEmpty

/-- The kept template of an identifier. -/
def find? (s : Store) (id : String) : Option ParsedTemplate :=
  s.entries.lookup id

/-- The store with one more slot taken; `none` if all slots are taken. -/
def reserve? (s : Store) : Option Store :=
  if s.reserved < s.capacity then some { s with reserved := s.reserved + 1 } else none

/-- Puts a parsed template into a slot that was taken for it. If the identifier
has a template, that one counts and the slot is given back. -/
def keep (s : Store) (id : String) (parsed : ParsedTemplate) : ParsedTemplate × Store :=
  match s.find? id with
  | some kept => (kept, { s with reserved := s.reserved - 1 })
  | none => (parsed, { s with entries := (id, parsed) :: s.entries })

/-- The parsed form of a template, from the store or fresh, and the store
afterwards. -/
def get (s : Store) (t : Template) : Found × Store :=
  let id := t.id
  match s.find? id with
  | some parsed => (⟨parsed, true⟩, s)
  | none =>
    let parsed := t.parseWithId id
    match s.reserve? with
    | none => (⟨parsed, false⟩, s)
    | some s =>
      let (template, s) := s.keep id parsed
      (⟨template, false⟩, s)

/-- The store without its templates. -/
def clear (s : Store) : Store :=
  empty s.capacity

end Store

end TagTemplate
