import ToxEvents.Replay.Report
import ToxEvents.Proofs.Replay.Tallying
import ToxEvents.Proofs.Text.Lines
set_option autoImplicit false

namespace ToxEvents

open Text

theorem CallFlag.feeds_name (flag : CallFlag) : feeds flag.name = 0 := by cases flag <;> decide

@[simp]
theorem CallFlags.feeds_described (a : CallFlags) : feeds a.described = 0 := by
  have hparts : ∀ part ∈ a.flags.map CallFlag.name ++
      (if a.rest = 0 then [] else ["0x" ++ hex a.rest.toNat]), feeds part = 0 := by
    intro part member
    rcases List.mem_append.mp member with member | member
    · obtain ⟨flag, -, rfl⟩ := List.mem_map.mp member
      exact flag.feeds_name
    · split at member
      · cases member
      · obtain rfl := List.mem_singleton.mp member
        simp +decide [hex]
  have htext : feeds a.text = 0 := feeds_intercalate (by decide) hparts
  unfold described
  split <;> simp +decide [htext]

theorem Seen.category_mem (seen : Seen) : seen.category ∈ categoryNames := by
  cases seen with
  | core entry => exact List.mem_append_left _ (List.mem_map_of_mem (CoreCategory.mem_all entry.1))
  | av entry => exact List.mem_append_right _ (List.mem_map_of_mem (AvCategory.mem_all entry.1))

theorem categoryNames_whole : ∀ name ∈ categoryNames, feeds name = 0 := by decide

namespace Report

variable {r : Report}

def front (r : Report) : List String := r.headLines ++ r.callStateLines ++ r.reusedLines

def table (r : Report) : List String := countLine "Category" "Events" :: rule :: r.countLines

theorem lines_eq (r : Report) : r.lines = r.front ++ "" :: (r.table ++ r.eventLines) := by
  simp [lines, front, table]

theorem rule_ne : rule ≠ "" := by
  intro blank
  have hlength : rule.length = 47 := by
    unfold rule
    rw [String.length_ofList, List.length_replicate]
  simp [blank] at hlength

theorem feeds_rule : feeds rule = 0 := by
  unfold rule
  rw [feeds_eq_zero_iff, String.toList_ofList]
  intro member
  exact absurd (List.eq_of_mem_replicate member) (by decide)

theorem feeds_countLine (name count : String) :
    feeds (countLine name count) = feeds name + feeds count := by
  have hblank : feeds " " = 0 := rfl
  simp [countLine, hblank]

theorem front_filled : ∀ line ∈ r.front, line ≠ "" := by
  have hstate : ∀ line ∈ r.callStateLines, line ≠ "" := by
    unfold callStateLines
    split <;> simp
  have hreused : ∀ line ∈ r.reusedLines, line ≠ "" := by
    unfold reusedLines
    split <;> simp
  simp only [front, List.forall_mem_append]
  refine ⟨⟨?_, hstate⟩, hreused⟩
  simp [headLines, rule_ne, toString]

theorem table_filled : ∀ line ∈ r.table, line ≠ "" := by
  simp [table, countLines, countLine, rule_ne]

theorem front_whole (dated : feeds r.generatedAt = 0) : ∀ line ∈ r.front, feeds line = 0 := by
  have hstate : ∀ line ∈ r.callStateLines, feeds line = 0 := by
    unfold callStateLines
    split <;> simp +decide [binary]
  have hreused : ∀ line ∈ r.reusedLines, feeds line = 0 := by
    unfold reusedLines
    split <;> simp +decide
  simp only [front, List.forall_mem_append]
  refine ⟨⟨?_, hstate⟩, hreused⟩
  simp [headLines, feeds_rule, dated]
  decide

theorem table_whole : ∀ line ∈ r.table, feeds line = 0 := by
  have hrows : ∀ line ∈ r.countLines, feeds line = 0 := by
    simp only [countLines, List.forall_mem_map, feeds_countLine]
    intro name member
    simp [categoryNames_whole name member]
  simp only [table, List.forall_mem_cons]
  exact ⟨by decide, feeds_rule, hrows⟩

def eventBlock (r : Report) : List String :=
  r.events.elim [] fun events =>
    "Events" :: rule :: events.flatMap fun event => pieces (eventLine event)

theorem flatMap_eventLines (r : Report) :
    r.eventLines.flatMap pieces = if r.events.isSome then "" :: r.eventBlock else [] := by
  have hheading : pieces "" = [""] ∧ pieces "Events" = ["Events"] := by decide
  unfold eventLines eventBlock
  cases r.events with
  | none => rfl
  | some events =>
    simp [hheading, pieces_of_feeds feeds_rule, List.flatMap_map]

theorem lines_text (dated : feeds r.generatedAt = 0) :
    Text.lines r.text =
      r.front ++ "" :: (r.table ++ if r.events.isSome then "" :: r.eventBlock else []) := by
  have hblank : pieces "" = [""] := by decide
  rw [text, lines_join, lines_eq, List.flatMap_append, List.flatMap_cons, List.flatMap_append,
    flatMap_pieces (front_whole dated), flatMap_pieces table_whole, flatMap_eventLines, hblank,
    List.singleton_append]

theorem block_table (dated : feeds r.generatedAt = 0) :
    block (behindBlock (Text.lines r.text)) = r.table := by
  rw [lines_text dated, behindBlock_append front_filled]
  split
  · exact block_append table_filled
  · rw [List.append_nil]
    exact block_of_filled table_filled

theorem behind_table (dated : feeds r.generatedAt = 0) :
    behindBlock (behindBlock (Text.lines r.text)) = r.eventBlock := by
  rw [lines_text dated, behindBlock_append front_filled]
  cases hevents : r.events with
  | none =>
    have hnone : r.eventBlock = [] := by
      unfold eventBlock
      rw [hevents]
      rfl
    rw [hnone, Option.isSome_none, if_neg (by decide), List.append_nil]
    exact behindBlock_of_filled table_filled
  | some events => exact behindBlock_append table_filled

end Report

end ToxEvents
