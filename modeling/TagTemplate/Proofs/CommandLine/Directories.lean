import TagTemplate.CommandLine.Directory
import TagTemplate.Proofs.Support.Sequences

/-!
# `TagTemplate.Proofs.CommandLine.Directories`: writing into a directory tree

A text is written to a file of a directory that is there already. So the tree has the same
directories afterwards (`isDirectory_put`), and each path leads to the same place as before
(`toOption_locate_put`). At the place of the file stands the text (`text?_of_write`), and at
all other places nothing has changed (`lookup_of_write`).

That the directories stay needs an induction along the way to the file: where a path goes on
to, a directory is (`isDirectory_walk`), and so is every directory above one
(`isDirectory_of_isPrefix`).

Only the reason why a path leads nowhere can change, since a file may stand in its way that
was not there before.
-/

set_option autoImplicit false

namespace TagTemplate.Proofs.CommandLine

open TagTemplate.CommandLine
open TagTemplate.Proofs.Support (except_bind_eq_ok except_toOption_bind)

variable {d d' : Directory} {path text : String} {place : List String}

/-! ### Directories of a tree -/

/-- The directories are those of the command and above, and those with a file below them. -/
theorem isDirectory_iff {names : List String} :
    d.isDirectory names = true ↔
      names <+: d.working ∨ ∃ file ∈ d.files, names <+: file.1 ∧ names.length < file.1.length := by
  simp only [Directory.isDirectory, Bool.or_eq_true, List.any_eq_true, Bool.and_eq_true,
    List.isPrefixOf_iff_prefix, decide_eq_true_eq]

/-- What lies above a directory is one. -/
theorem isDirectory_of_isPrefix {names above : List String} (h : above <+: names)
    (hnames : d.isDirectory names = true) : d.isDirectory above = true := by
  rcases isDirectory_iff.mp hnames with hworking | ⟨file, hfile, hbelow, hlength⟩
  · exact isDirectory_iff.mpr (.inl (h.trans hworking))
  · exact isDirectory_iff.mpr
      (.inr ⟨file, hfile, h.trans hbelow, Nat.lt_of_le_of_lt h.length_le hlength⟩)

/-- A path begins in a directory. -/
theorem isDirectory_start (names : List String) : d.isDirectory (d.start names) = true := by
  unfold Directory.start
  split
  · exact isDirectory_iff.mpr (.inl List.nil_prefix)
  · exact isDirectory_iff.mpr (.inl List.prefix_rfl)

/-- A way through directories ends in one. -/
theorem isDirectory_walk {names here there : List String} (h : d.walk here names = .ok there)
    (hhere : d.isDirectory here = true) : d.isDirectory there = true := by
  induction names generalizing here with
  | nil => exact Except.ok.inj h ▸ hhere
  | cons name names ih =>
    rw [Directory.walk] at h
    split at h
    · exact ih h hhere
    split at h
    · exact ih h (isDirectory_of_isPrefix (List.dropLast_prefix here) hhere)
    split at h
    · next hdown => exact ih h hdown
    · split at h <;> cases h

/-- The place of a file is in a directory and is none itself. -/
theorem exists_parent_of_locate (h : d.locate path = .ok place) :
    ∃ parent name, place = parent ++ [name] ∧ d.isDirectory parent = true ∧
      d.isDirectory place = false := by
  obtain ⟨parent, hparent, h⟩ := except_bind_eq_ok.mp h
  unfold Directory.filePlace at h
  split at h
  · cases h
  split at h
  · cases h
  · next hplace =>
    obtain rfl := Except.ok.inj h
    exact ⟨parent, _, rfl, isDirectory_walk hparent (isDirectory_start _),
      Bool.eq_false_iff.mpr hplace⟩

/-- A file is written at the place to which its path leads. -/
theorem locate_of_target (h : d.target path = .ok place) : d.locate path = .ok place := by
  unfold Directory.target at h
  dsimp only at h
  split at h
  · obtain ⟨_, -, h⟩ := except_bind_eq_ok.mp h
    cases h
  · exact h

/-! ### A file put at its place -/

/-- The tree with a file put at its place. -/
def put (d : Directory) (place : List String) (text : String) : Directory :=
  { d with files := (place, some text) :: d.files.filter fun file => file.1 != place }

/-- A text is written where a file may be written, and put at its place. -/
theorem write_eq_ok_iff : d.write path text = .ok d' ↔
    ∃ place, d.target path = .ok place ∧ d.unwritable place = none ∧ d' = put d place text := by
  unfold Directory.write
  rw [except_bind_eq_ok]
  refine exists_congr fun place => and_congr_right fun _ => ?_
  cases d.unwritable place with
  | none =>
    constructor
    · intro h
      exact ⟨rfl, (Except.ok.inj h).symm⟩
    · rintro ⟨-, rfl⟩
      rfl
  | some reason => exact iff_of_false (fun h => nomatch h) fun h => nomatch h.1

section Put

variable (h : d.locate path = .ok place) (text : String)
include h

/-- A file makes no directory that was not there, and takes none away. -/
theorem isDirectory_put (names : List String) :
    (put d place text).isDirectory names = d.isDirectory names := by
  obtain ⟨parent, name, hplace, hparent, -⟩ := exists_parent_of_locate h
  rw [Bool.eq_iff_iff]
  constructor
  · intro hnames
    rcases isDirectory_iff.mp hnames with hworking | ⟨file, hfile, hbelow, hlength⟩
    · exact isDirectory_iff.mpr (.inl hworking)
    rcases List.mem_cons.mp hfile with rfl | hold
    · -- A directory above the file is its parent or lies above that.
      rw [hplace] at hbelow hlength
      rcases List.prefix_concat_iff.mp hbelow with rfl | habove
      · exact absurd hlength (Nat.lt_irrefl _)
      · exact isDirectory_of_isPrefix habove hparent
    · exact isDirectory_iff.mpr (.inr ⟨file, (List.mem_filter.mp hold).1, hbelow, hlength⟩)
  · intro hnames
    rcases isDirectory_iff.mp hnames with hworking | ⟨file, hfile, hbelow, hlength⟩
    · exact isDirectory_iff.mpr (.inl hworking)
    -- A file at the same place is replaced by one with the same path.
    by_cases hsame : file.1 = place
    · rw [hsame] at hbelow hlength
      exact isDirectory_iff.mpr (.inr ⟨(place, some text), List.mem_cons_self, hbelow, hlength⟩)
    · refine isDirectory_iff.mpr (.inr ⟨file, List.mem_cons_of_mem _ ?_, hbelow, hlength⟩)
      exact List.mem_filter.mpr ⟨hfile, bne_iff_ne.mpr hsame⟩

/-- The ways through the directories are the same. -/
theorem toOption_walk_put (here names : List String) :
    ((put d place text).walk here names).toOption = (d.walk here names).toOption := by
  induction names generalizing here with
  | nil => rfl
  | cons name names ih =>
    simp only [Directory.walk, isDirectory_put h]
    split
    · exact ih here
    split
    · exact ih here.dropLast
    split
    · exact ih _
    -- Where there is no directory, the reason may be another one.
    · split <;> split <;> rfl

/-- Each path leads to the same place. -/
theorem toOption_locate_put (other : String) :
    ((put d place text).locate other).toOption = (d.locate other).toOption := by
  have hfile (parent : List String) (name : String) :
      (put d place text).filePlace parent name = d.filePlace parent name := by
    simp only [Directory.filePlace, isDirectory_put h]
  have hstart (names : List String) : (put d place text).start names = d.start names := rfl
  simp only [Directory.locate, except_toOption_bind, toOption_walk_put h, hfile, hstart]

end Put

/-- Without the file at a place, those at other places are found as before. -/
theorem lookup_filter_of_ne {other : List String} (h : other ≠ place)
    (files : List (List String × Option String)) :
    (files.filter fun file => file.1 != place).lookup other = files.lookup other := by
  induction files with
  | nil => rfl
  | cons file files ih =>
    by_cases hfile : file.1 = place
    · have hother : (other == file.1) = false := beq_eq_false_iff_ne.mpr (hfile ▸ h)
      rw [List.filter_cons_of_neg (by simpa using hfile), List.lookup_cons, hother]
      exact ih
    · rw [List.filter_cons_of_pos (by simpa using hfile), List.lookup_cons, List.lookup_cons, ih]

/-- At other places the files are the same. -/
theorem lookup_put_of_ne {other : List String} (h : other ≠ place) (text : String) :
    (put d place text).files.lookup other = d.files.lookup other := by
  have hother : (other == place) = false := beq_eq_false_iff_ne.mpr h
  rw [put, List.lookup_cons, hother]
  exact lookup_filter_of_ne h d.files

/-! ### Written files -/

/-- What is written is a file put at the place to which the path leads. -/
theorem exists_locate_of_write (h : d.write path text = .ok d') :
    ∃ place, d.locate path = .ok place ∧ d' = put d place text := by
  obtain ⟨place, hplace, -, hput⟩ := write_eq_ok_iff.mp h
  exact ⟨place, locate_of_target hplace, hput⟩

/-- A file that was written has the text. -/
theorem text?_of_write (h : d.write path text = .ok d') : d'.text? path = some text := by
  obtain ⟨place, hplace, rfl⟩ := exists_locate_of_write h
  rw [Directory.text?, toOption_locate_put hplace, hplace]
  show (put d place text).files.lookup place >>= id = some text
  rw [put, List.lookup_cons_self]
  rfl

/-- Nothing but the files of a tree is different after a file was written. -/
theorem eq_of_write (h : d.write path text = .ok d') : d' = { d with files := d'.files } := by
  obtain ⟨place, -, rfl⟩ := exists_locate_of_write h
  rfl

/-- A path leads after a file was written to where it led before. -/
theorem toOption_locate_of_write (h : d.write path text = .ok d') (other : String) :
    (d'.locate other).toOption = (d.locate other).toOption := by
  obtain ⟨place, hplace, rfl⟩ := exists_locate_of_write h
  exact toOption_locate_put hplace text other

/-- At other places than that of the written file nothing has changed. -/
theorem lookup_of_write (h : d.write path text = .ok d') {other : List String}
    (hother : d.locate path ≠ .ok other) : d'.files.lookup other = d.files.lookup other := by
  obtain ⟨place, hplace, rfl⟩ := exists_locate_of_write h
  have hne : other ≠ place := fun heq => hother (heq ▸ hplace)
  exact lookup_put_of_ne hne text

end TagTemplate.Proofs.CommandLine
