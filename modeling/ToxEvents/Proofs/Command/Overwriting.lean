import ToxEvents.Command.Disk
set_option autoImplicit false

namespace ToxEvents
open Wire

namespace Disk

variable {disk before after : Disk} {here there route other : Route} {node : Option DiskNode}
  {path part : String} {names : List String} {bytes : Bytes}

def Rooted (disk : Disk) (route : Route) : Prop :=
  ∀ other, other <+: route → other ≠ route → disk.node? other = some .directory

theorem rooted_nil (disk : Disk) : disk.Rooted [] :=
  fun _ above proper => absurd (List.prefix_nil.mp above) proper

theorem Rooted.concat (rooted : disk.Rooted here) (inside : disk.node? here = some .directory)
    (part : String) : disk.Rooted (here ++ [part]) := by
  intro other above proper
  have habove := (List.prefix_concat_iff.mp above).resolve_left proper
  by_cases hsame : other = here
  · rw [hsame, inside]
  · exact rooted other habove hsame

theorem Rooted.dropLast (rooted : disk.Rooted here) : disk.Rooted here.dropLast := by
  intro other above proper
  refine rooted other (above.trans (List.dropLast_prefix here)) ?_
  rintro rfl
  exact proper (above.eq_of_length_le (List.dropLast_prefix other).length_le)

theorem Rooted.follow (rooted : disk.Rooted here) (inside : disk.node? here = some .directory)
    (part : String) : disk.Rooted (follow here part) := by
  unfold Disk.follow
  split
  · exact rooted
  split
  · exact rooted.concat inside part
  split
  · exact rooted
  split
  · exact rooted.concat inside ".."
  · exact rooted.dropLast

theorem walk_cons_eq_ok_iff {place : Route × Option DiskNode} :
    disk.walk here (part :: names) = .ok place ↔ disk.node? here = some .directory ∧
      (Utf8.encode part.toList).length ≤ maxNameSize ∧
      disk.walk (follow here part) names = .ok place := by
  rw [walk]
  rcases disk.node? here with _ | ⟨bytes⟩ | _
  · simp
  · simp
  · by_cases hlong : maxNameSize < (Utf8.encode part.toList).length
    · simp [hlong, Nat.not_le_of_lt hlong]
    · simp [hlong, Nat.le_of_not_lt hlong]

theorem walk_rooted (rooted : disk.Rooted here)
    (walked : disk.walk here names = .ok (there, node)) :
    disk.Rooted there ∧ node = disk.node? there := by
  induction names generalizing here with
  | nil =>
    obtain ⟨rfl, rfl⟩ := Prod.mk.inj (Except.ok.inj walked)
    exact ⟨rooted, rfl⟩
  | cons part names ih =>
    obtain ⟨inside, -, hwalk⟩ := walk_cons_eq_ok_iff.mp walked
    exact ih (rooted.follow inside part) hwalk

/-- A slash at the end leads to a directory, if it leads anywhere. -/
theorem walk_dot (walked : disk.walk here (names ++ ["."]) = .ok (there, node)) :
    node = some .directory := by
  induction names generalizing here with
  | nil =>
    obtain ⟨inside, -, hwalk⟩ := walk_cons_eq_ok_iff.mp walked
    obtain ⟨rfl, rfl⟩ := Prod.mk.inj (Except.ok.inj hwalk)
    exact inside
  | cons part names ih => exact ih (walk_cons_eq_ok_iff.mp walked).2.2

theorem walk_of_elsewhere
    (elsewhere : ∀ other, other ≠ route → after.node? other = before.node? other)
    (outside : before.node? route ≠ some .directory)
    (walked : before.walk here names = .ok (there, node)) :
    after.walk here names = .ok (there, after.node? there) := by
  induction names generalizing here with
  | nil =>
    obtain ⟨rfl, rfl⟩ := Prod.mk.inj (Except.ok.inj walked)
    rfl
  | cons part names ih =>
    obtain ⟨inside, hshort, hwalk⟩ := walk_cons_eq_ok_iff.mp walked
    have hother : here ≠ route := fun same => outside (same ▸ inside)
    exact walk_cons_eq_ok_iff.mpr ⟨(elsewhere here hother).trans inside, hshort, ih hwalk⟩

theorem resolve_eq_ok_iff {choose : String → List String} {place : Route × Option DiskNode} :
    disk.resolve choose path = .ok place ↔
      (Char.ofNat 0 ∉ path.toList ∧ path.isEmpty = false ∧ path.utf8ByteSize ≤ maxPathSize) ∧
        disk.walk [] (choose path) = .ok place := by
  rw [resolve, String.contains_char_eq]
  simp only [decide_eq_true_eq]
  split
  case isTrue hnul => simp [hnul]
  split
  case isTrue hempty => simp [hempty]
  split
  case isTrue hlong => simp [Nat.not_le_of_lt hlong]
  case isFalse hnul hempty hshort => simp [hnul, hempty, Nat.le_of_not_lt hshort]

theorem lookup_filter (files : List (Route × Bytes)) (elsewhere : other ≠ route) :
    (files.filter (·.1 != route)).lookup other = files.lookup other := by
  induction files with
  | nil => rfl
  | cons file files ih =>
    obtain ⟨place, bytes⟩ := file
    by_cases hplace : place = route
    · have hother : (other == place) = false := beq_eq_false_iff_ne.mpr (hplace ▸ elsewhere)
      simp [hplace, List.lookup_cons, ih, hplace ▸ hother]
    · simp [hplace, List.lookup_cons, ih]

theorem node?_put (disk : Disk) (route : Route) (bytes : Bytes) :
    (disk.put route bytes).node? route = some (.file bytes) := by
  simp [node?, put]

theorem isBelow_iff : isBelow route other = true ↔ route <+: other := List.isPrefixOf_iff_prefix

theorem any_filter (files : List (Route × Bytes)) (beside : isBelow other route = false) :
    (files.filter (·.1 != route)).any (fun file => isBelow other file.1) =
      files.any fun file => isBelow other file.1 := by
  rw [List.any_filter]
  refine List.any_congr rfl fun file => ?_
  by_cases hplace : file.1 = route
  · simp [hplace, beside]
  · simp [hplace]

theorem node?_put_of_ne (rooted : disk.Rooted route) (bytes : Bytes) (elsewhere : other ≠ route) :
    (disk.put route bytes).node? other = disk.node? other := by
  have hlookup : (disk.put route bytes).files.lookup other = disk.files.lookup other := by
    have hother : (other == route) = false := beq_eq_false_iff_ne.mpr elsewhere
    simp [put, List.lookup_cons, lookup_filter disk.files elsewhere, hother]
  by_cases above : other <+: route
  · have hdirectory := rooted other above elsewhere
    rw [hdirectory]
    unfold node? at hdirectory ⊢
    rw [hlookup]
    split at hdirectory
    · cases hdirectory
    · have hbelow : (disk.put route bytes).files.any (fun file => isBelow other file.1) := by
        simp [put, isBelow_iff.mpr above]
      simp [hbelow]
  · have hbeside : isBelow other route = false := by
      rw [← Bool.not_eq_true, isBelow_iff]
      exact above
    have hany : (disk.put route bytes).files.any (fun file => isBelow other file.1) =
        disk.files.any fun file => isBelow other file.1 := by
      rw [put, List.any_cons, hbeside, Bool.false_or, any_filter disk.files hbeside]
    unfold node?
    rw [hlookup, hany]
    rfl

def Holds (disk : Disk) (path : String) (route : Route) (bytes : Bytes) : Prop :=
  disk.resolve partsToRead path = .ok (route, some (.file bytes))

theorem read_eq_ok_iff : disk.read path = .ok bytes ↔
    ∃ route, disk.Holds path route bytes ∧ disk.unreadable.contains route = false := by
  unfold read Holds
  rcases disk.resolve partsToRead path with e | ⟨route, _ | ⟨_ | _⟩⟩
  · simp
  · simp
  · by_cases locked : route ∈ disk.unreadable <;> simp [locked, and_assoc]
  · by_cases locked : route ∈ disk.unreadable <;> simp [locked]

theorem isFile_iff : disk.isFile path ↔ ∃ route bytes, disk.Holds path route bytes := by
  unfold isFile Holds
  rcases disk.resolve partsToRead path with e | ⟨route, _ | ⟨_ | _⟩⟩ <;> simp

/-- The one file at a place has new contents; the path leads to it, and led there before. -/
structure Overwritten (before after : Disk) (path : String) (bytes : Bytes) (route : Route) :
    Prop where
  written : after.Holds path route bytes
  target : before.resolve partsToRead path = .ok (route, before.node? route)
  overFile : before.node? route ≠ some .directory
  permitted : before.forbids route (before.node? route) = false
  elsewhere (other : Route) (ne : other ≠ route) : after.node? other = before.node? other
  /-- All other files are read by the same paths as before, and no others. -/
  kept (path : String) (place : Route) (contents : Bytes) (ne : place ≠ route) :
    after.Holds path place contents ↔ before.Holds path place contents
  listed : ∀ file ∈ before.changes after, file = (pathOf route, bytes)
  rights : after.unreadable = before.unreadable ∧ after.unwritable = before.unwritable

/-- Either nothing is written, or a file is put in a place where none or another one was. -/
theorem write_cases (disk : Disk) (path : String) (bytes : Bytes) :
    (∃ e, disk.write path bytes = (.error e, disk)) ∨
      ∃ route node, disk.resolve partsToWrite path = .ok (route, node) ∧
        node ≠ some .directory ∧ disk.forbids route node = false ∧
        disk.write path bytes = (.ok (), disk.put route bytes) := by
  unfold write
  rcases disk.resolve partsToWrite path with e | ⟨route, node⟩
  · exact .inl ⟨e, rfl⟩
  by_cases inside : node = some .directory
  · exact .inl ⟨_, if_pos inside⟩
  by_cases forbidden : disk.forbids route node
  · exact .inl ⟨_, (if_neg inside).trans (if_pos forbidden)⟩
  · exact .inr ⟨route, node, rfl, inside, Bool.eq_false_iff.mpr forbidden,
      (if_neg inside).trans (if_neg forbidden)⟩

theorem write_error {left : Disk} {e : DiskError}
    (failed : disk.write path bytes = (.error e, left)) :
    left = disk := by
  rcases disk.write_cases path bytes with ⟨other, hwrite⟩ | ⟨_, _, -, -, -, hwrite⟩
  · exact (Prod.mk.inj (failed.symm.trans hwrite)).2
  · cases (Prod.mk.inj (failed.symm.trans hwrite)).1

theorem Holds.of_elsewhere
    (elsewhere : ∀ other, other ≠ route → after.node? other = before.node? other)
    (outside : before.node? route ≠ some .directory) (ne : there ≠ route)
    (holds : before.Holds path there bytes) : after.Holds path there bytes := by
  obtain ⟨hfits, hwalk⟩ := resolve_eq_ok_iff.mp holds
  have hnode := (walk_rooted (rooted_nil before) hwalk).2
  have hafter := walk_of_elsewhere elsewhere outside hwalk
  rw [elsewhere there ne, ← hnode] at hafter
  exact resolve_eq_ok_iff.mpr ⟨hfits, hafter⟩

theorem changes_put (disk : Disk) (route : Route) (bytes : Bytes) :
    ∀ file ∈ disk.changes (disk.put route bytes), file = (pathOf route, bytes) := by
  intro file listed
  obtain ⟨entry, hentry, rfl⟩ := List.mem_map.mp listed
  obtain ⟨hput, hnew⟩ := List.mem_filter.mp hentry
  rcases List.mem_cons.mp hput with rfl | hkept
  · rfl
  · exact absurd (List.mem_filter.mp hkept).1 (by simpa using hnew)

theorem parts_eq_of_outside (walked : disk.walk here (partsToWrite path) = .ok (there, node))
    (outside : node ≠ some .directory) : partsToWrite path = partsToRead path := by
  unfold partsToWrite partsToRead at *
  split
  case isTrue hslash =>
    rw [if_pos hslash] at walked
    exact absurd (walk_dot walked) outside
  case isFalse => rfl

theorem overwritten_put (target : disk.resolve partsToRead path = .ok (route, disk.node? route))
    (overFile : disk.node? route ≠ some .directory)
    (permitted : disk.forbids route (disk.node? route) = false) (bytes : Bytes) :
    disk.Overwritten (disk.put route bytes) path bytes route := by
  obtain ⟨hfits, hwalk⟩ := resolve_eq_ok_iff.mp target
  have rooted := (walk_rooted (rooted_nil disk) hwalk).1
  have elsewhere (other : Route) (ne : other ≠ route) :
      (disk.put route bytes).node? other = disk.node? other :=
    node?_put_of_ne rooted bytes ne
  have hfile := node?_put disk route bytes
  have hafter := walk_of_elsewhere elsewhere overFile hwalk
  rw [hfile] at hafter
  refine ⟨resolve_eq_ok_iff.mpr ⟨hfits, hafter⟩, target, overFile, permitted, elsewhere,
    ?_, changes_put disk route bytes, rfl, rfl⟩
  intro path place contents ne
  refine ⟨Holds.of_elsewhere (fun other ne => (elsewhere other ne).symm) ?_ ne,
    Holds.of_elsewhere elsewhere overFile ne⟩
  rw [hfile]
  exact nofun

theorem overwritten_of_write (written : disk.write path bytes = (.ok (), after)) :
    ∃ route, disk.Overwritten after path bytes route := by
  obtain ⟨e, hwrite⟩ | ⟨route, node, hresolve, outside, permitted, hwrite⟩ :=
    disk.write_cases path bytes
  · cases (Prod.mk.inj (written.symm.trans hwrite)).1
  obtain rfl := (Prod.mk.inj (written.symm.trans hwrite)).2
  obtain ⟨hfits, hwalk⟩ := resolve_eq_ok_iff.mp hresolve
  obtain ⟨-, rfl⟩ := walk_rooted (rooted_nil disk) hwalk
  rw [parts_eq_of_outside hwalk outside] at hwalk
  exact ⟨route, overwritten_put (resolve_eq_ok_iff.mpr ⟨hfits, hwalk⟩) outside permitted bytes⟩

end Disk

end ToxEvents
