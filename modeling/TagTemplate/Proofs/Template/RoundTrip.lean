import TagTemplate.Proofs.Template.OpenQuotes
import TagTemplate.Proofs.Template.WrittenCalls
import TagTemplate.Proofs.Template.WrittenPaths
import TagTemplate.Template.Parsed

/-!
# `TagTemplate.Proofs.Template.RoundTrip`: tags that were written

Reading undoes writing. The text between the braces of a tag in writing is read
as what the tag says (`ofText?_innerText`), and the scan for the end of the tag
goes over it whatever stands in its quotes (`crossed_innerText`).

`parse_writes` puts this into a template. Whatever stands around a tag in
writing, if no brace opens before it, it is the first tag of the parsed
template, with its own text and place.
-/

set_option autoImplicit false

namespace TagTemplate.Proofs.Template

open TagTemplate.Text TagTemplate.Template
open TagTemplate.Proofs.Support TagTemplate.Proofs.Text

/-! ### Tags -/

/-- The text does not end with white space. -/
def EndsVisibly (text : List Char) : Prop :=
  ∀ c ∈ text.getLast?, Unicode.isWhiteSpace c = false

/-- Nothing does not. -/
theorem endsVisibly_nil : EndsVisibly [] := fun _ hc => nomatch hc

/-- A text does not if another character is its last. -/
theorem endsVisibly_concat (text : List Char) {c : Char} (h : Unicode.isWhiteSpace c = false) :
    EndsVisibly (text ++ [c]) := by
  intro d hd
  rw [List.getLast?_concat] at hd
  rwa [← Option.some.inj hd]

/-- Two texts in a row do not if neither does. -/
theorem EndsVisibly.append {first second : List Char} (hfirst : EndsVisibly first)
    (hsecond : EndsVisibly second) : EndsVisibly (first ++ second) := by
  intro c hc
  rw [List.getLast?_append, Option.mem_def, Option.or_eq_some_iff] at hc
  rcases hc with hc | ⟨-, hc⟩
  · exact hsecond c hc
  · exact hfirst c hc

/-- The text between the braces begins and ends with other characters than white
space. -/
theorem trim_innerText {path : List String} {marker : Option Marker} {calls : List (List Char)}
    (hpath : WellFormedPath path marker) (hcalls : ∀ text ∈ calls, ∃ call, WritesCall call text) :
    trim (innerText path marker calls) = innerText path marker calls := by
  have hstart : Inert (pathText path marker) := hpath.inert_pathText
  refine trim_eq_self (fun c hc => ?_) ?_
  · obtain ⟨more, hmore⟩ := exists_intercalate_cons [':'] (pathText path marker) calls
    obtain ⟨rest, hrest⟩ := exists_pathText path marker
    rw [innerText, hmore, hrest] at hc
    rw [← Option.some.inj hc]
    decide
  · show EndsVisibly _
    refine intercalate_of_append endsVisibly_nil EndsVisibly.append (endsVisibly_concat [] (by decide))
      fun part hpart => ?_
    rcases List.mem_cons.mp hpart with rfl | hpart
    · exact fun c hc => isWhiteSpace_of_isInert (hstart c (List.mem_of_mem_getLast? hc))
    · obtain ⟨call, hcall⟩ := hcalls part hpart
      cases hcall with
      | call _ _ =>
        rw [← List.append_assoc]
        exact endsVisibly_concat _ (by decide)

/-- The text between the braces is read as it was written. -/
theorem ofText?_innerText {e : Expression} {calls : List (List Char)}
    (hpath : WellFormedPath e.path e.marker) (hcalls : List.Forall₂ WritesCall e.calls calls) :
    Expression.ofText? (innerText e.path e.marker calls) = .ok e := by
  have hwrites : ∀ text ∈ calls, ∃ call, WritesCall call text := fun text htext =>
    exists_of_mem_right hcalls htext
  have htrim := trim_innerText hpath hwrites
  refine ofText?_eq_ok_iff.mpr ⟨?_, pathText e.path e.marker, calls, ?_, ?_, ?_⟩
  · obtain ⟨rest, hrest⟩ := exists_pathText e.path e.marker
    obtain ⟨more, hmore⟩ := exists_intercalate_cons [':'] (pathText e.path e.marker) calls
    rw [htrim, innerText, hmore, hrest]
    exact List.cons_ne_nil _ _
  · rw [htrim]
    refine splitTopLevel?_intercalate (by decide) (List.cons_ne_nil _ _) fun part hpart => ?_
    rcases List.mem_cons.mp hpart with rfl | hpart
    · exact hpath.inert_pathText.closed.passedOver
    · obtain ⟨call, hcall⟩ := hwrites part hpart
      exact hcall.closed.passedOver
  · rw [hpath.inert_pathText.trim_eq]
    exact readPath?_pathText hpath
  · exact (hcalls.imp fun _ _ => readCall?_writes).flip

/-- The scan for the end of a tag goes over the text between the braces. -/
theorem crossed_innerText {path : List String} {marker : Option Marker}
    {calls : List (List Char)} (hpath : WellFormedPath path marker)
    (hcalls : ∀ text ∈ calls, ∃ call, WritesCall call text) :
    Crossed 0 (innerText path marker calls) := by
  refine intercalate_of_append closed_nil.crossed Crossed.append
    (crossed_character (by decide) (by decide)) fun part hpart => ?_
  rcases List.mem_cons.mp hpart with rfl | hpart
  · exact hpath.inert_pathText.closed.crossed
  · obtain ⟨call, hcall⟩ := hcalls part hpart
    exact hcall.closed.crossed

/-- A tag in writing is the piece that its opening brace starts, whatever follows. -/
theorem bracePiece_writes {e : Expression} {inner : List Char} (hcrossed : Crossed 0 inner)
    (hinner : Expression.ofText? inner = .ok e) (after : List Char) :
    bracePiece (inner ++ '}' :: after) (closing 0 none (inner ++ '}' :: after))
      = (.tag ('{' :: inner ++ ['}']) e, after) := by
  have hclosing : closing 0 none (inner ++ '}' :: after) = .closed inner.length := by
    rw [hcrossed, closing.eq_def]
    simp [isQuote, Closing.shift]
  have hpiece : Piece.ofInner inner = .tag ('{' :: inner ++ ['}']) e := by
    unfold Piece.ofInner
    rw [hinner]
  rw [hclosing]
  show (Piece.ofInner ((inner ++ '}' :: after).take inner.length),
    (inner ++ '}' :: after).drop (inner.length + 1)) = _
  rw [List.take_left, hpiece, List.drop_append]
  simp

/-- Plain text before a tag moves it on. -/
theorem tagsFrom_plainPiece (ordinal offset : Nat) (text : List Char) (ps : List Piece) :
    tagsFrom ordinal offset (plainPiece text ++ ps)
      = tagsFrom ordinal (offset + byteCount text) ps := by
  unfold plainPiece
  split
  · rename_i hnil
    rw [List.isEmpty_iff.mp hnil]
    rfl
  · rfl

/-- A tag in writing is the first tag of each template in which no brace opens
before it, with its own text and place. -/
theorem parse_writes {e : Expression} {text : List Char} (h : Writes e text)
    (before after : String) (hbefore : '{' ∉ before.toList) (format : Format) :
    (Template.parse ⟨before ++ String.ofList text ++ after, format⟩).tags.head? = some
      { e with
        id := tagId 0 (byteCount before.toList)
        raw := String.ofList text
        span := ⟨byteCount before.toList, byteCount before.toList + byteCount text⟩ } := by
  obtain ⟨hpath, calls, hcalls, rfl⟩ := h
  have hcrossed := crossed_innerText hpath fun text htext => exists_of_mem_right hcalls htext
  have hpiece := bracePiece_writes hcrossed (ofText?_innerText hpath hcalls) after.toList
  -- The content is plain text up to the brace, the piece of the tag, and any rest.
  show (tagsFrom 0 0 (pieces (before ++ String.ofList _ ++ after).toList)).head? = _
  rw [String.toList_append, String.toList_append, String.toList_ofList, List.append_assoc,
    List.cons_append, List.cons_append, List.append_assoc, List.singleton_append,
    pieces_brace _ hbefore, hpiece, tagsFrom_plainPiece, Nat.zero_add]
  rfl

/-- A tag with an index on the root and a parameter of each kind. -/
def eachKind : Expression :=
  ⟨["", "b"], some ⟨0, .direct 12⟩,
    [⟨"print", [.literal (.text "a\"\\\x7d"), .literal (.boolean true),
        .literal (.number (Binary64.ofNat 20)), .dynamic ["e5", "c"]]⟩,
      ⟨"trim", []⟩]⟩

/-- It, in writing. -/
def eachKindText : String :=
  "\x7bd[12].b:print(\"a\\\"\\\\\x7d\",true,2e1,.e5.c):trim()\x7d"

/-- It is the first tag behind a closing brace and before an opening one. -/
theorem parse_writes_eachKind :
    Writes eachKind eachKindText.toList ∧ '{' ∉ "\x7d ".toList ∧
      (Template.parse ⟨"\x7d " ++ String.ofList eachKindText.toList ++ " \x7b", .txt⟩).tags.head?
        = some
          { eachKind with
            id := tagId 0 2
            raw := String.ofList eachKindText.toList
            span := ⟨2, 49⟩ } := by
  have hparameters : List.Forall₂ WritesParameter
      [.literal (.text "a\"\\\x7d"), .literal (.boolean true),
        .literal (.number (Binary64.ofNat 20)), .dynamic ["e5", "c"]]
      ["\"a\\\"\\\\\x7d\"".toList, "true".toList, "2e1".toList, ".e5.c".toList] :=
    .cons (.text _) (.cons (.boolean true) (.cons (.number (by decide) (by decide +kernel))
      (.cons (.dynamic (by decide) (by decide)) .nil)))
  have hcalls : List.Forall₂ WritesCall eachKind.calls
      ["print(\"a\\\"\\\\\x7d\",true,2e1,.e5.c)".toList, "trim()".toList] :=
    .cons (.call (by decide) hparameters) (.cons (.call (by decide) .nil) .nil)
  have hpath : WellFormedPath eachKind.path eachKind.marker := by
    refine ⟨fun m hm => ?_, fun segment position h => ?_, fun position name h => ?_⟩
    · rw [← Option.some.inj hm]
      decide
    · cases h
      decide
    · match position with
      | 0 => exact .inr ⟨rfl, (Option.some.inj h).symm, _, rfl⟩
      | 1 => exact .inl (Option.some.inj h ▸ by decide)
      | _ + 2 => cases h
  have hwrites : Writes eachKind eachKindText.toList := ⟨hpath, _, hcalls, by decide⟩
  have hparse := parse_writes hwrites "\x7d " " \x7b" (by decide) .txt
  have hbefore : byteCount "\x7d ".toList = 2 := by decide
  have htext : byteCount eachKindText.toList = 47 := by decide
  rw [hbefore, htext] at hparse
  exact ⟨hwrites, by decide, hparse⟩

end TagTemplate.Proofs.Template
