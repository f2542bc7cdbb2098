import Mathlib.Data.List.Induction
import TagTemplate.Proofs.Store.Identity
import TagTemplate.Store

/-!
# `TagTemplate.Proofs.Store.History`: a store after any history

A store begins empty and takes steps: a template is asked for, or the store is
cleared. `run` carries out a list of steps.

What a store keeps is determined by what was asked for since the last clear: the
first different templates of that, as many as there is room for (`kept`). The
invariant `Keeps` links the entries and the count of taken slots to this list, and
`Keeps.get` shows what one request does. Since the entries are parsed templates
under their identifiers, a request is answered as if the template had been parsed.

`faithful_run` states this for every capacity and every list of steps without a
collision of the digest.
-/

set_option autoImplicit false

namespace TagTemplate.Proofs.Store

/-! ### Steps -/

/-- A step of a store. -/
inductive Step where
  /-- A template is asked for. -/
  | get (t : Template)
  | clear

/-- The store after a step. -/
def Step.apply (s : Store) : Step → Store
  | get t => (s.get t).2
  | clear => s.clear

/-- The store after some steps from an empty one. -/
def run (capacity : Nat) (steps : List Step) : Store :=
  steps.foldl Step.apply (Store.empty capacity)

/-- The templates that are asked for. -/
def asked (steps : List Step) : List Template :=
  steps.filterMap fun
    | .get t => some t
    | .clear => none

/-- The templates that were asked for since the last clear, after one more step. -/
def Step.record (ts : List Template) : Step → List Template
  | get t => ts ++ [t]
  | clear => []

/-- The templates that were asked for since the last clear, in order. -/
def recent (steps : List Step) : List Template :=
  steps.foldl Step.record []

/-- The first `capacity` different templates of a list. -/
def firsts (capacity : Nat) (ts : List Template) : List Template :=
  ts.eraseDups.take capacity

/-- The templates that a store keeps after some steps, the earliest first. -/
def kept (capacity : Nat) (steps : List Step) : List Template :=
  firsts capacity (recent steps)

/-! ### The first different templates -/

variable {capacity : Nat} {ts us : List Template} {t : Template} {s : Store}

/-- The first templates of a list are from the list. -/
theorem mem_of_mem_firsts (h : t ∈ firsts capacity ts) : t ∈ ts :=
  List.mem_eraseDups.mp (List.mem_of_mem_take h)

/-- There are no more than the capacity. -/
theorem length_firsts_le (capacity : Nat) (ts : List Template) :
    (firsts capacity ts).length ≤ capacity :=
  List.length_take_le _ _

/-- More templates after some add only different ones. -/
theorem eraseDups_append_prefix (ts us : List Template) :
    ts.eraseDups <+: (ts ++ us).eraseDups := by
  rw [List.eraseDups_append]
  exact List.prefix_append _ _

/-- Once there are as many as the capacity, the first templates stay. -/
theorem firsts_append_of_full (h : (firsts capacity ts).length = capacity) (us : List Template) :
    firsts capacity (ts ++ us) = firsts capacity ts := by
  obtain ⟨more, hmore⟩ := eraseDups_append_prefix ts us
  have hle : capacity ≤ ts.eraseDups.length := by
    rw [firsts, List.length_take] at h
    omega
  rw [firsts, firsts, ← hmore, List.take_append_of_le_length hle]

/-- A template that is among the first ones already is not added. -/
theorem firsts_concat_of_mem (h : t ∈ firsts capacity ts) :
    firsts capacity (ts ++ [t]) = firsts capacity ts := by
  have hmem : t ∈ ts := mem_of_mem_firsts h
  have hnone : [t].removeAll ts = [] := by simp [List.removeAll, hmem]
  rw [firsts, firsts, List.eraseDups_append, hnone, List.eraseDups_nil, List.append_nil]

/-- A new template is added while there is room. -/
theorem firsts_concat_of_notMem (hroom : (firsts capacity ts).length < capacity)
    (h : t ∉ firsts capacity ts) : firsts capacity (ts ++ [t]) = firsts capacity ts ++ [t] := by
  -- With room left all different templates are among the first ones.
  have hlt : ts.eraseDups.length < capacity := by
    rw [firsts, List.length_take] at hroom
    omega
  have hall : firsts capacity ts = ts.eraseDups := List.take_of_length_le (Nat.le_of_lt hlt)
  rw [hall, List.mem_eraseDups] at h
  have hnew : [t].removeAll ts = [t] := by simp [List.removeAll, h]
  have hone : [t].eraseDups = [t] := rfl
  rw [hall, firsts, List.eraseDups_append, hnew, hone]
  exact List.take_of_length_le (by rw [List.length_append, List.length_singleton]; omega)

/-! ### The invariant -/

/-- The entry of a template: its parsed form under its identifier. -/
def entry (t : Template) : String × ParsedTemplate :=
  (t.id, t.parse)

/-- Without a collision, looking an identifier up among entries finds the template
if it is there. -/
theorem lookup_map_entry (h : NoCollision (t :: ts)) :
    (ts.map entry).lookup t.id = if t ∈ ts then some t.parse else none := by
  induction ts with
  | nil => rfl
  | cons u ts ih =>
    have hrest : NoCollision (t :: ts) := h.subset (List.cons_subset_cons t (List.subset_cons_self u ts))
    rw [List.map_cons, List.lookup_cons, ih hrest]
    by_cases htu : t = u
    · subst htu
      simp [entry]
    · have hid : ¬ (t.id == u.id) = true := fun heq =>
        htu (h.eq_of_id (by simp) (by simp) (beq_iff_eq.mp heq))
      simp [entry, hid, htu]

/-- The store keeps the first different ones of the templates that were asked for,
and its taken slots are those of its entries. -/
structure Keeps (s : Store) (ts : List Template) : Prop where
  reserved : s.reserved = s.size
  entries : s.entries = (firsts s.capacity ts).reverse.map entry

/-- The number of entries is that of the kept templates. -/
theorem Keeps.size_eq (h : Keeps s ts) : s.size = (firsts s.capacity ts).length := by
  rw [Store.size, h.entries, List.length_map, List.length_reverse]

/-- A template is found if it is kept. -/
theorem Keeps.find? (h : Keeps s ts) (hcollision : NoCollision (t :: ts)) :
    s.find? t.id = if t ∈ firsts s.capacity ts then some t.parse else none := by
  have hkept : NoCollision (t :: (firsts s.capacity ts).reverse) :=
    hcollision.subset (List.cons_subset_cons t fun u hu =>
      mem_of_mem_firsts (List.mem_reverse.mp hu))
  rw [Store.find?, h.entries, lookup_map_entry hkept]
  simp only [List.mem_reverse]

/-- An empty store keeps nothing. -/
theorem keeps_empty (capacity : Nat) : Keeps (Store.empty capacity) [] where
  reserved := rfl
  entries := by simp [Store.empty, firsts]

/-- A request is answered with the parsed template, and is a hit if the template is
kept; the store keeps the template afterwards if it did before or has room. The
three cases are those of the request: found, no slot left, put into a slot. -/
theorem Keeps.get (h : Keeps s ts) (hcollision : NoCollision (t :: ts)) :
    (s.get t).1 = ⟨t.parse, decide (t ∈ firsts s.capacity ts)⟩ ∧
      (s.get t).2.capacity = s.capacity ∧ Keeps (s.get t).2 (ts ++ [t]) := by
  have hfind := h.find? hcollision
  by_cases hmem : t ∈ firsts s.capacity ts
  · rw [if_pos hmem] at hfind
    have hget : s.get t = (⟨t.parse, true⟩, s) := by simp only [Store.get, hfind]
    rw [hget, decide_eq_true hmem]
    exact ⟨rfl, rfl, h.reserved, by rw [firsts_concat_of_mem hmem]; exact h.entries⟩
  · rw [if_neg hmem] at hfind
    rw [decide_eq_false hmem]
    have hsize := h.size_eq
    by_cases hroom : s.reserved < s.capacity
    · -- Taking the slot leaves the entries alone, so the template is still not found.
      have hkeep : ({ s with reserved := s.reserved + 1 } : Store).keep t.id t.parse
          = (t.parse, ⟨s.capacity, entry t :: s.entries, s.reserved + 1⟩) := by
        have hnone : ({ s with reserved := s.reserved + 1 } : Store).find? t.id = none := hfind
        simp only [Store.keep, hnone, entry]
      have hget : s.get t
          = (⟨t.parse, false⟩, ⟨s.capacity, entry t :: s.entries, s.reserved + 1⟩) := by
        simp only [Store.get, hfind, Store.reserve?, if_pos hroom]
        exact congrArg (fun kept => ((⟨kept.1, false⟩ : Store.Found), kept.2)) hkeep
      rw [hget]
      refine ⟨rfl, rfl, ?_, ?_⟩
      · show s.reserved + 1 = s.entries.length + 1
        rw [h.reserved, Store.size]
      · have hlt : (firsts s.capacity ts).length < s.capacity := by
          rw [← hsize, ← h.reserved]
          exact hroom
        show entry t :: s.entries = (firsts s.capacity (ts ++ [t])).reverse.map entry
        rw [firsts_concat_of_notMem hlt hmem, List.reverse_append, List.reverse_singleton,
          List.singleton_append, List.map_cons, h.entries]
    · have hget : s.get t = (⟨t.parse, false⟩, s) := by
        simp only [Store.get, hfind, Store.reserve?, if_neg hroom]
        rfl
      have hfull : (firsts s.capacity ts).length = s.capacity := by
        have := length_firsts_le s.capacity ts
        rw [h.reserved, hsize] at hroom
        omega
      rw [hget]
      exact ⟨rfl, rfl, h.reserved, by rw [firsts_append_of_full hfull]; exact h.entries⟩

/-! ### Runs -/

/-- What was asked for since the last clear was asked for. -/
theorem recent_subset (steps : List Step) : recent steps ⊆ asked steps := by
  induction steps using List.reverseRecOn with
  | nil => exact List.Subset.refl _
  | append_singleton steps step ih =>
    rw [recent, List.foldl_append, asked, List.filterMap_append]
    cases step with
    | get t =>
      exact List.append_subset.mpr
        ⟨List.Subset.trans ih (List.subset_append_left _ _), List.subset_append_right _ _⟩
    | clear => exact List.nil_subset _

/-- A run has its capacity, and keeps the first different ones of the templates
that were asked for since the last clear. The induction adds a step at the end of
the run. -/
theorem keeps_run (capacity : Nat) {steps : List Step} (h : NoCollision (asked steps)) :
    (run capacity steps).capacity = capacity ∧ Keeps (run capacity steps) (recent steps) := by
  induction steps using List.reverseRecOn with
  | nil => exact ⟨rfl, keeps_empty capacity⟩
  | append_singleton steps step ih =>
    have hasked : asked (steps ++ [step]) = asked steps ++ asked [step] := List.filterMap_append ..
    rw [hasked] at h
    obtain ⟨hcapacity, hkeeps⟩ := ih (h.subset (List.subset_append_left _ _))
    rw [run, recent, List.foldl_append, List.foldl_append]
    cases step with
    | get t =>
      have hcollision : NoCollision (t :: recent steps) := by
        refine h.subset (List.cons_subset.mpr ⟨?_, ?_⟩)
        · exact List.mem_append_right _ (List.mem_singleton_self t)
        · exact List.Subset.trans (recent_subset steps) (List.subset_append_left _ _)
      obtain ⟨-, hsame, hnext⟩ := hkeeps.get hcollision
      exact ⟨hsame.trans hcapacity, hnext⟩
    | clear =>
      refine ⟨hcapacity, ?_⟩
      show Keeps (Store.empty _) []
      exact keeps_empty _

/-- Without a clear, what is asked for is added to what was asked for before. -/
theorem recent_append {steps more : List Step} (h : ∀ step ∈ more, step ≠ .clear) :
    recent (steps ++ more) = recent steps ++ asked more := by
  induction more using List.reverseRecOn with
  | nil => rw [List.append_nil]; exact (List.append_nil _).symm
  | append_singleton more step ih =>
    have hrest := ih fun other hother => h other (List.mem_append_left _ hother)
    cases step with
    | get t =>
      rw [← List.append_assoc, recent, List.foldl_append]
      show recent (steps ++ more) ++ [t] = _
      rw [hrest, asked, asked, List.filterMap_append, List.append_assoc]
      rfl
    | clear => exact absurd rfl (h .clear (List.mem_append_right _ (List.mem_singleton_self _)))

/-- A store is a faithful memory of a run. -/
structure Faithful (capacity : Nat) (steps : List Step) : Prop where
  /-- The taken slots are those of the entries, and never too many. -/
  reserved : (run capacity steps).reserved = (run capacity steps).size
  reserved_le : (run capacity steps).reserved ≤ capacity
  /-- The entries are the first different templates since the last clear. -/
  entries : (run capacity steps).entries = (kept capacity steps).reverse.map entry
  /-- Each request is answered with the parsed template, and is a hit if the template
  is kept at that time. -/
  get : ∀ before t after, steps = before ++ .get t :: after →
    ((run capacity before).get t).1 = ⟨t.parse, decide (t ∈ kept capacity before)⟩
  /-- A full store stays as it is until it is cleared. -/
  full : ∀ before after, steps = before ++ after → (run capacity before).size = capacity →
    (∀ step ∈ after, step ≠ .clear) → (run capacity steps).entries = (run capacity before).entries

/-- Different templates have different bytes, and where their digests differ too, a
store of any capacity is a faithful memory of any run. -/
theorem faithful_run (capacity : Nat) (steps : List Step) :
    (∀ t u : Template, t ≠ u → t.identityBytes ≠ u.identityBytes) ∧
      (NoCollision (asked steps) → Faithful capacity steps) := by
  refine ⟨fun t u hne heq => hne (identityBytes_injective heq), fun h => ?_⟩
  -- A prefix of the run asks for fewer templates.
  have hprefix : ∀ before after, steps = before ++ after →
      (run capacity before).capacity = capacity ∧ Keeps (run capacity before) (recent before) := by
    rintro before after rfl
    refine keeps_run capacity (h.subset ?_)
    rw [asked, asked, List.filterMap_append]
    exact List.subset_append_left _ _
  obtain ⟨hcapacity, hkeeps⟩ := hprefix steps [] (List.append_nil _).symm
  refine ⟨hkeeps.reserved, ?_, ?_, ?_, ?_⟩
  · rw [hkeeps.reserved, hkeeps.size_eq, hcapacity]
    exact length_firsts_le _ _
  · rw [hkeeps.entries, hcapacity, kept]
  · intro before t after hsteps
    obtain ⟨hcap, hbefore⟩ := hprefix before _ hsteps
    have hcollision : NoCollision (t :: recent before) := by
      refine h.subset (List.cons_subset.mpr ?_)
      rw [hsteps, asked, List.filterMap_append]
      exact ⟨List.mem_append_right _ List.mem_cons_self,
        List.Subset.trans (recent_subset before) (List.subset_append_left _ _)⟩
    rw [(hbefore.get hcollision).1, hcap, kept]
  · intro before after hsteps hfull hclear
    obtain ⟨hcap, hbefore⟩ := hprefix before _ hsteps
    have hlength : (firsts capacity (recent before)).length = capacity := by
      rw [← hcap, ← hbefore.size_eq, hfull, hcap]
    rw [hkeeps.entries, hbefore.entries, hcapacity, hcap, hsteps, recent_append hclear,
      firsts_append_of_full hlength]

/-- One text in two formats. -/
def oneText (format : Format) : Template := ⟨"\x7bd.x\x7d", format⟩

/-- The identifiers of both formats are different. -/
theorem noCollision_oneText : NoCollision [oneText .txt, oneText .html] := by
  have hids : (oneText .txt).id ≠ (oneText .html).id := by decide +kernel
  intro t ht u hu heq
  rcases List.mem_pair.mp ht with rfl | rfl <;> rcases List.mem_pair.mp hu with rfl | rfl
  · rfl
  · exact absurd heq hids
  · exact absurd heq.symm hids
  · rfl

/-- Both formats, one of them again, and after a clear the other one. -/
def oneTextSteps : List Step :=
  [.get (oneText .txt), .get (oneText .html), .get (oneText .txt), .clear, .get (oneText .html)]

/-- A store with one slot serves the first format until it is cleared, and the other
one afterwards. -/
theorem faithful_run_oneText :
    NoCollision (asked oneTextSteps) ∧
      ((run 1 (oneTextSteps.take 1)).get (oneText .html)).1 = ⟨(oneText .html).parse, false⟩ ∧
      ((run 1 (oneTextSteps.take 2)).get (oneText .txt)).1 = ⟨(oneText .txt).parse, true⟩ ∧
      (run 1 oneTextSteps).entries = [entry (oneText .html)] ∧
      (oneText .txt).identityBytes ≠ (oneText .html).identityBytes := by
  have hcollision : NoCollision (asked oneTextSteps) := noCollision_oneText.subset (by decide)
  obtain ⟨hbytes, hfaithful⟩ := faithful_run 1 oneTextSteps
  have h := hfaithful hcollision
  exact ⟨hcollision, h.get [.get (oneText .txt)] _ _ rfl,
    h.get [.get (oneText .txt), .get (oneText .html)] _ _ rfl, h.entries,
    hbytes _ _ (by decide)⟩

end TagTemplate.Proofs.Store
