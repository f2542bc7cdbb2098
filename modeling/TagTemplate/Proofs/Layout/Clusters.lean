import Mathlib.Logic.Relation
import TagTemplate.Proofs.Layout.Groups
import TagTemplate.Proofs.Template.Marks

/-!
# `TagTemplate.Proofs.Layout.Clusters`: repeating tags that stay together

Two repeating tags of one array *follow* each other if no further one of that
array stands between them (`Successive`). They are *joined* unless both a line
feed and some tag lie between them (`Joined`). A *cluster* runs from a first to
a last tag through joined tags, and cannot be made longer at either end
(`IsCluster`).

These notions speak of the tags of a template alone. The layout cuts the group of
each array instead, and `exists_clusters?` shows that the cut of a group is the
list of its clusters: each span is that of a cluster, and each repeating tag of
the array lies in one of them. At most one tag follows another
(`Successive.next_unique`, `Successive.prev_unique`), so a cluster is found from
any of its tags (`IsCluster.mem_of_cover`).
-/

set_option autoImplicit false

namespace TagTemplate.Proofs.Layout

open TagTemplate.Text TagTemplate.Layout
open TagTemplate.Proofs.Support TagTemplate.Proofs.Text TagTemplate.Proofs.Template

variable {content : List Char} {tags : List Tag}

/-! ### Clusters -/

/-- `a` and `b` repeat for one array and no further tag between them does. -/
structure Successive (tags : List Tag) (a : Tag) (between : List Tag) (b : Tag) : Prop where
  split : ∃ before after, tags = before ++ a :: (between ++ b :: after)
  sameArray : ∃ key, walks key a ∧ walks key b ∧ ∀ c ∈ between, ¬ walks key c

/-- Both a line feed and some tag lie between two tags. -/
def Separated (content : List Char) (a : Tag) (between : List Tag) (b : Tag) : Prop :=
  (∃ text, slice? content a.span.stop b.span.start = some text ∧ '\n' ∈ text) ∧ between ≠ []

/-- Two tags that follow each other in one cluster. -/
def Joined (content : List Char) (tags : List Tag) (a b : Tag) : Prop :=
  ∃ between, Successive tags a between b ∧ ¬ Separated content a between b

/-- Two tags of one cluster, the earlier first. -/
abbrev Linked (content : List Char) (tags : List Tag) : Tag → Tag → Prop :=
  Relation.ReflTransGen (Joined content tags)

/-- The cluster of a tag starts with the repeating tag `first`. -/
structure Opens (content : List Char) (tags : List Tag) (first tag : Tag) : Prop where
  mem : first ∈ tags
  iterate : first.isIterate
  noneBefore : ∀ tag, ¬ Joined content tags tag first
  linked : Linked content tags first tag

/-- The cluster from a first to a last tag. -/
structure IsCluster (content : List Char) (tags : List Tag) (first last : Tag) : Prop
    extends Opens content tags first last where
  noneAfter : ∀ tag, ¬ Joined content tags last tag

/-- At most one tag follows another of its array. -/
theorem Successive.next_unique (hnodup : tags.Nodup) {a b b' : Tag} {between between' : List Tag}
    (h : Successive tags a between b) (h' : Successive tags a between' b') :
    between = between' ∧ b = b' := by
  obtain ⟨⟨before, after, hsplit⟩, key, ha, hb, hnone⟩ := h
  obtain ⟨⟨before', after', hsplit'⟩, key', ha', hb', hnone'⟩ := h'
  obtain rfl := key_eq_of_walks ha ha'
  -- The list splits in one way at `a`, and what follows it at the first tag of the array.
  rw [hsplit] at hnodup hsplit'
  obtain ⟨-, hrest⟩ := eq_of_split_eq hnodup hsplit'
  obtain ⟨hbetween, hbeq, -⟩ := eq_of_first_eq hrest hb hb' hnone hnone'
  exact ⟨hbetween, hbeq⟩

/-- A tag follows at most one other of its array. -/
theorem Successive.prev_unique (hnodup : tags.Nodup) {a a' b : Tag} {between between' : List Tag}
    (h : Successive tags a between b) (h' : Successive tags a' between' b) :
    a = a' ∧ between = between' := by
  obtain ⟨⟨before, after, hsplit⟩, key, ha, hb, hnone⟩ := h
  obtain ⟨⟨before', after', hsplit'⟩, key', ha', hb', hnone'⟩ := h'
  obtain rfl := key_eq_of_walks hb hb'
  -- The list splits in one way at `b`, and what precedes it at the last tag of the array.
  rw [← List.cons_append, ← List.append_assoc] at hsplit hsplit'
  rw [hsplit] at hnodup hsplit'
  obtain ⟨hfirst, -⟩ := eq_of_split_eq hnodup hsplit'
  obtain ⟨-, haeq, hbetween⟩ := eq_of_last_eq hfirst ha ha' hnone hnone'
  exact ⟨haeq, hbetween⟩

/-! ### The cut of a group -/

/-- The span of the cluster from a first to a last tag. -/
def clusterSpan (cluster : Tag × Tag) : Span :=
  ⟨cluster.1.span.start, cluster.2.span.stop⟩

/-- Where the rest of a group is empty, no tag of its array follows. -/
theorem not_walks_of_filter_eq_nil {key : String} {post : List Tag} {position : Nat}
    (h : (post.zipIdx position).filter (fun tag => walks key tag.1) = []) {tag : Tag}
    (htag : tag ∈ post) : ¬ walks key tag := by
  intro hwalks
  obtain ⟨index, hindex⟩ := List.mem_iff_getElem?.mp htag
  have hmem : (tag, position + index) ∈ post.zipIdx position :=
    List.mem_zipIdx_iff_le_and_getElem?_sub.mpr ⟨by simp, by simpa using hindex⟩
  exact List.filter_eq_nil_iff.mp h _ hmem hwalks

/-- The tags of a group after a tag are found in the rest of the template. -/
theorem exists_next {key : String} {post : List Tag} {position next : Nat} {tag : Tag}
    {rest : List Placed}
    (h : (post.zipIdx position).filter (fun tag => walks key tag.1) = (tag, next) :: rest) :
    ∃ between after, post = between ++ tag :: after ∧ next = position + between.length ∧
      walks key tag ∧ (∀ c ∈ between, ¬ walks key c) ∧
      rest = (after.zipIdx (next + 1)).filter fun tag => walks key tag.1 := by
  obtain ⟨skipped, others, hsplit, hskipped, htag, hrest⟩ := List.filter_eq_cons_iff.mp h
  obtain ⟨between, following, rfl, hbetween, hfollowing⟩ := List.zipIdx_eq_append_iff.mp hsplit
  obtain ⟨tag', after, rfl, hcons, hafter⟩ := List.zipIdx_eq_cons_iff.mp hfollowing.symm
  obtain ⟨rfl, rfl⟩ := Prod.mk.injEq .. ▸ hcons
  refine ⟨between, after, rfl, rfl, htag, ?_, ?_⟩
  · intro c hc
    obtain ⟨index, hindex⟩ := List.mem_iff_getElem?.mp hc
    refine hskipped (c, position + index) ?_
    rw [hbetween]
    exact List.mem_zipIdx_iff_le_and_getElem?_sub.mpr ⟨by simp, by simpa using hindex⟩
  · rw [← hrest, hafter]

/-- Two tags of a group that fit a content are apart from each other by a slice of
it. -/
theorem exists_slice?_between (h : Fits content tags) {a b : Tag} {before between after : List Tag}
    (hsplit : tags = before ++ a :: (between ++ b :: after)) :
    ∃ text, slice? content a.span.stop b.span.start = some text := by
  have ha : a ∈ tags := by simp [hsplit]
  have hb : b ∈ tags := by simp [hsplit]
  have hpairwise := h.pairwise
  rw [hsplit, List.pairwise_append, List.pairwise_cons] at hpairwise
  exact exists_slice? (h.isBoundary ha).2 (h.isBoundary hb).1
    (hpairwise.2.1.1 b (by simp))

/-- No tag is joined to one after which no further tag of its array stands. -/
theorem not_joined_of_last (hfits : Fits content tags) {key : String} {before after : List Tag}
    {last : Tag} (hsplit : tags = before ++ last :: after) (hlast : walks key last)
    (hnone : ∀ tag ∈ after, ¬ walks key tag) (tag : Tag) : ¬ Joined content tags last tag := by
  rintro ⟨between, ⟨⟨before', after', hsplit'⟩, k, hk, htag, -⟩, -⟩
  obtain rfl := key_eq_of_walks hlast hk
  have hnodup := hfits.nodup
  rw [hsplit] at hnodup hsplit'
  obtain ⟨-, hafter⟩ := eq_of_split_eq hnodup hsplit'
  exact hnone tag (by simp [hafter]) htag

/-- No tag is joined to one before which no other tag of its array stands. -/
theorem not_joined_of_first (hfits : Fits content tags) {key : String} {before after : List Tag}
    {first : Tag} (hsplit : tags = before ++ first :: after) (hfirst : walks key first)
    (hnone : ∀ tag ∈ before, ¬ walks key tag) (tag : Tag) : ¬ Joined content tags tag first := by
  rintro ⟨between, ⟨⟨before', after', hsplit'⟩, k, htag, hk, -⟩, -⟩
  obtain rfl := key_eq_of_walks hfirst hk
  rw [← List.cons_append, ← List.append_assoc] at hsplit'
  have hnodup := hfits.nodup
  rw [hsplit] at hnodup hsplit'
  obtain ⟨heq, -⟩ := eq_of_split_eq hnodup hsplit'
  exact hnone tag (by simp [heq]) htag

/-- Between two tags that follow each other and are separated a cluster ends and
another starts. -/
theorem not_joined_of_separated (hfits : Fits content tags) {a b : Tag} {between : List Tag}
    (h : Successive tags a between b) (hseparated : Separated content a between b) :
    (∀ tag, ¬ Joined content tags a tag) ∧ ∀ tag, ¬ Joined content tags tag b := by
  constructor
  · rintro tag ⟨between', hnext, hnot⟩
    obtain ⟨rfl, rfl⟩ := h.next_unique hfits.nodup hnext
    exact hnot hseparated
  · rintro tag ⟨between', hprev, hnot⟩
    obtain ⟨rfl, rfl⟩ := h.prev_unique hfits.nodup hprev
    exact hnot hseparated

/-- Cutting what follows a tag of a group gives clusters. The first of them goes
on from the cluster so far, which starts with `first`, and each later tag of the
array lies in one of them. The induction is on the rest of the group. -/
theorem exists_clustersFrom? (hfits : Fits content tags) {key : String} (rest : List Placed)
    {before after : List Tag} {first last : Tag} (hsplit : tags = before ++ last :: after)
    (hlast : walks key last) (hopens : Opens content tags first last)
    (hrest : (after.zipIdx (before.length + 1)).filter (fun tag => walks key tag.1) = rest) :
    ∃ clusters : List (Tag × Tag),
      clustersFrom? content (clusterSpan (first, last)) before.length rest
        = some (clusters.map clusterSpan) ∧
      (∀ cluster ∈ clusters, IsCluster content tags cluster.1 cluster.2) ∧
      (∃ stop, (first, stop) ∈ clusters ∧ Linked content tags last stop) ∧
      ∀ tag ∈ after, walks key tag → ∃ cluster ∈ clusters,
        Linked content tags cluster.1 tag ∧ Linked content tags tag cluster.2 := by
  induction rest generalizing before after first last with
  | nil =>
    -- No tag of the array follows, so the cluster ends here.
    have hnone : ∀ tag ∈ after, ¬ walks key tag := fun tag => not_walks_of_filter_eq_nil hrest
    have hcluster : IsCluster content tags first last :=
      ⟨hopens, not_joined_of_last hfits hsplit hlast hnone⟩
    exact ⟨[(first, last)], rfl, by simpa using hcluster,
      ⟨last, by simp, Relation.ReflTransGen.refl⟩,
      fun tag htag hwalks => absurd hwalks (hnone tag htag)⟩
  | cons placed rest ih =>
    obtain ⟨tag, position⟩ := placed
    obtain ⟨between, later, rfl, rfl, htag, hbetween, hlater⟩ := exists_next hrest
    have hsuccessive : Successive tags last between tag :=
      ⟨⟨before, later, hsplit⟩, key, hlast, htag, hbetween⟩
    have hsplit' : tags = (before ++ last :: between) ++ tag :: later := by simp [hsplit]
    have hlength : before.length + 1 + between.length = (before ++ last :: between).length := by
      simp [Nat.add_assoc, Nat.add_comm 1]
    obtain ⟨text, htext⟩ := exists_slice?_between hfits hsplit
    -- The test of the cut: a line feed in the text between, and a gap in the positions.
    have hseparated : (text.contains '\n' && before.length + 1 < before.length + 1 + between.length)
        = true ↔ Separated content last between tag := by
      simp [Separated, htext, List.length_pos_iff]
    rw [hlength] at hlater hseparated ⊢
    simp only [clustersFrom?, clusterSpan, htext, Option.bind_eq_bind, Option.bind_some]
    split
    · -- The tag starts a new cluster, and the cluster so far ends.
      rename_i hcut
      obtain ⟨hnoneAfter, hnoneBefore⟩ :=
        not_joined_of_separated hfits hsuccessive (hseparated.mp hcut)
      obtain ⟨clusters, hclusters, hare, ⟨stop, hstop, htagStop⟩, hcover⟩ := ih hsplit' htag
        ⟨by simp [hsplit'], isIterate_of_walks htag, hnoneBefore, Relation.ReflTransGen.refl⟩
        hlater.symm
      have hclusters' : clustersFrom? content tag.span (before ++ last :: between).length rest
          = some (clusters.map clusterSpan) := hclusters
      refine ⟨(first, last) :: clusters, by rw [hclusters']; rfl, ?_,
        ⟨last, List.mem_cons_self, Relation.ReflTransGen.refl⟩, ?_⟩
      · intro cluster hcluster
        rcases List.mem_cons.mp hcluster with rfl | hcluster
        · exact ⟨hopens, hnoneAfter⟩
        · exact hare cluster hcluster
      · intro other hother hwalks
        rcases List.mem_append.mp hother with hother | hother
        · exact absurd hwalks (hbetween other hother)
        · rcases List.mem_cons.mp hother with rfl | hother
          · exact ⟨_, List.mem_cons_of_mem _ hstop, Relation.ReflTransGen.refl, htagStop⟩
          · obtain ⟨cluster, hcluster, hlinked⟩ := hcover other hother hwalks
            exact ⟨cluster, List.mem_cons_of_mem _ hcluster, hlinked⟩
    · -- The tag joins the cluster so far.
      rename_i hkeep
      have hjoined : Joined content tags last tag :=
        ⟨between, hsuccessive, fun hsep => hkeep (hseparated.mpr hsep)⟩
      have hlinked := hopens.linked.tail hjoined
      obtain ⟨clusters, hclusters, hare, ⟨stop, hstop, htagStop⟩, hcover⟩ := ih hsplit' htag
        { hopens with linked := hlinked } hlater.symm
      refine ⟨clusters, hclusters, hare, ⟨stop, hstop, htagStop.head hjoined⟩, ?_⟩
      intro other hother hwalks
      rcases List.mem_append.mp hother with hother | hother
      · exact absurd hwalks (hbetween other hother)
      · rcases List.mem_cons.mp hother with rfl | hother
        · exact ⟨_, hstop, hlinked, htagStop⟩
        · exact hcover other hother hwalks

/-- Cutting the group of an array gives its clusters: each of them is one, and
each tag of the array lies in one of them. -/
theorem exists_clusters? (hfits : Fits content tags) (key : String) :
    ∃ clusters : List (Tag × Tag),
      clusters? content (tags.zipIdx.filter fun tag => walks key tag.1)
        = some (clusters.map clusterSpan) ∧
      (∀ cluster ∈ clusters, IsCluster content tags cluster.1 cluster.2) ∧
      ∀ tag ∈ tags, walks key tag → ∃ cluster ∈ clusters,
        Linked content tags cluster.1 tag ∧ Linked content tags tag cluster.2 := by
  cases hgroup : tags.zipIdx.filter (fun tag => walks key tag.1) with
  | nil =>
    refine ⟨[], rfl, by simp, ?_⟩
    intro tag htag hwalks
    exact absurd hwalks (not_walks_of_filter_eq_nil hgroup htag)
  | cons placed rest =>
    obtain ⟨first, position⟩ := placed
    obtain ⟨before, after, hsplit, hposition, hfirst, hbefore, hrest⟩ := exists_next hgroup
    have hopens : Opens content tags first first :=
      ⟨by simp [hsplit], isIterate_of_walks hfirst, not_joined_of_first hfits hsplit hfirst hbefore,
        Relation.ReflTransGen.refl⟩
    obtain rfl : position = before.length := by simpa using hposition
    obtain ⟨clusters, hclusters, hare, ⟨stop, hstop, hfirstStop⟩, hcover⟩ :=
      exists_clustersFrom? hfits rest hsplit hfirst hopens hrest.symm
    refine ⟨clusters, hclusters, hare, ?_⟩
    intro tag htag hwalks
    rw [hsplit] at htag
    rcases List.mem_append.mp htag with htag | htag
    · exact absurd hwalks (hbefore tag htag)
    · rcases List.mem_cons.mp htag with rfl | htag
      · exact ⟨_, hstop, Relation.ReflTransGen.refl, hfirstStop⟩
      · exact hcover tag htag hwalks

/-! ### Where clusters lie -/

/-- Of two joined tags the earlier one ends before the later one begins. -/
theorem Joined.stop_le_start (hfits : Fits content tags) {a b : Tag}
    (h : Joined content tags a b) : b ∈ tags ∧ a.span.stop ≤ b.span.start := by
  obtain ⟨between, ⟨⟨before, after, hsplit⟩, -⟩, -⟩ := h
  have hpairwise := hfits.pairwise
  rw [hsplit, List.pairwise_append, List.pairwise_cons] at hpairwise
  exact ⟨by simp [hsplit], hpairwise.2.1.1 b (by simp)⟩

/-- Linked tags stand in the order of the content. -/
theorem Linked.le (hfits : Fits content tags) {a b : Tag} (ha : a ∈ tags)
    (h : Linked content tags a b) :
    b ∈ tags ∧ a.span.start ≤ b.span.start ∧ a.span.stop ≤ b.span.stop := by
  induction h with
  | refl => exact ⟨ha, Nat.le_refl _, Nat.le_refl _⟩
  | tail _ hjoined ih =>
    obtain ⟨hb, hstart, hstop⟩ := ih
    obtain ⟨hc, hle⟩ := hjoined.stop_le_start hfits
    have := hfits.start_lt_stop hb
    have := hfits.start_lt_stop hc
    exact ⟨hc, by omega, by omega⟩

/-- Every cluster is among those that the cut of its group finds. -/
theorem IsCluster.mem_of_cover (hfits : Fits content tags) {key : String} {first last : Tag}
    (h : IsCluster content tags first last) (hkey : walks key first)
    {clusters : List (Tag × Tag)}
    (hare : ∀ cluster ∈ clusters, IsCluster content tags cluster.1 cluster.2)
    (hcover : ∀ tag ∈ tags, walks key tag → ∃ cluster ∈ clusters,
      Linked content tags cluster.1 tag ∧ Linked content tags tag cluster.2) :
    (first, last) ∈ clusters := by
  obtain ⟨⟨a, b⟩, hcluster, hto, hfrom⟩ := hcover first h.mem hkey
  -- Nothing is joined to `first` from before, so the cluster found starts with it.
  obtain rfl : a = first := by
    rcases Relation.ReflTransGen.cases_tail hto with heq | ⟨c, -, hjoined⟩
    · exact heq.symm
    · exact absurd hjoined (h.noneBefore c)
  -- Joined tags follow in one way, and neither end goes on.
  have hunique : Relator.RightUnique (Joined content tags) := by
    rintro c d d' ⟨between, hd, -⟩ ⟨between', hd', -⟩
    exact (hd.next_unique hfits.nodup hd').2
  have hend : ∀ {c d : Tag}, (∀ tag, ¬ Joined content tags c tag) → Linked content tags c d →
      c = d := by
    intro c d hnone hlinked
    rcases Relation.ReflTransGen.cases_head hlinked with heq | ⟨e, hjoined, -⟩
    · exact heq
    · exact absurd hjoined (hnone e)
  obtain rfl : last = b := by
    rcases Relation.ReflTransGen.total_of_right_unique hunique h.linked hfrom with hlb | hbl
    · exact hend h.noneAfter hlb
    · exact (hend (hare _ hcluster).noneAfter hbl).symm
  exact hcluster

end TagTemplate.Proofs.Layout
