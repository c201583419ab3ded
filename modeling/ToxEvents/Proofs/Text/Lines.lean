import Mathlib.Data.List.TakeWhile
import ToxEvents.Calendar
set_option autoImplicit false

namespace ToxEvents

namespace Text

def pieces (text : String) : List String := (text.toList.splitOn '\n').map String.ofList

def lines (text : String) : List String := (pieces text).dropLast

def feeds (text : String) : Nat := text.toList.count '\n'

@[simp]
theorem feeds_append (a b : String) : feeds (a ++ b) = feeds a + feeds b := by
  simp [feeds, List.count_append]

theorem feeds_eq_zero_iff {a : String} : feeds a = 0 ↔ '\n' ∉ a.toList := List.count_eq_zero

theorem pieces_newline (a b : String) : pieces (a ++ "\n" ++ b) = pieces a ++ pieces b := by
  simp [pieces, List.splitOn_append_cons_self]

theorem pieces_of_feeds {a : String} (whole : feeds a = 0) : pieces a = [a] := by
  rw [pieces, List.splitOn_eq_singleton (feeds_eq_zero_iff.mp whole)]
  simp

theorem length_splitOn (text : List Char) :
    (text.splitOn '\n').length = text.count '\n' + 1 := by
  induction text with
  | nil => rfl
  | cons c text ih =>
    rw [List.splitOn_cons_eq_if_modifyHead, List.count_cons]
    split <;> simp [ih]

theorem length_pieces (a : String) : (pieces a).length = feeds a + 1 := by
  simp [pieces, feeds, length_splitOn]

theorem pieces_join (written : List String) :
    pieces (String.join (written.map (· ++ "\n"))) = written.flatMap pieces ++ [""] := by
  induction written with
  | nil => simp [pieces]
  | cons line written ih =>
    rw [List.map_cons, String.join_cons, pieces_newline, ih, List.flatMap_cons, List.append_assoc]

theorem lines_join (written : List String) :
    lines (String.join (written.map (· ++ "\n"))) = written.flatMap pieces := by
  rw [lines, pieces_join, List.dropLast_concat]

theorem flatMap_pieces {written : List String} (whole : ∀ line ∈ written, feeds line = 0) :
    written.flatMap pieces = written := by
  induction written with
  | nil => rfl
  | cons line written ih =>
    have hline := pieces_of_feeds (whole line (List.mem_cons_self ..))
    have hlater := ih fun other member => whole other (List.mem_cons_of_mem _ member)
    rw [List.flatMap_cons, hline, hlater, List.singleton_append]

theorem newline_not_mem_toDigits {base : Nat} (hbase : 1 < base) (n : Nat) :
    '\n' ∉ Nat.toDigits base n := by
  induction n using Nat.strongRecOn with
  | ind n ih =>
    rw [Nat.toDigits_eq_if hbase]
    split
    case isTrue => simp [Ne.symm (Nat.digitChar_ne '\n' rfl)]
    case isFalse hlarge =>
      have hless : n / base < n := Nat.div_lt_self (by omega) hbase
      simp [ih _ hless, Ne.symm (Nat.digitChar_ne '\n' rfl)]

@[simp]
theorem feeds_digits {base : Nat} (hbase : 1 < base) (n : Nat) :
    feeds (String.ofList (Nat.toDigits base n)) = 0 := by
  rw [feeds_eq_zero_iff, String.toList_ofList]
  exact newline_not_mem_toDigits hbase n

@[simp]
theorem feeds_repr (n : Nat) : feeds n.repr = 0 := by
  rw [Nat.repr_eq_ofList_toDigits]
  exact feeds_digits (by decide) n

@[simp]
theorem feeds_toString (text : String) : feeds (toString text) = feeds text := rfl

@[simp]
theorem feeds_padLeft (width : Nat) {fill : Char} (hfill : fill ≠ '\n') (text : String) :
    feeds (padLeft width fill text) = feeds text := by
  simp [padLeft, feeds, List.count_replicate, hfill]

@[simp]
theorem feeds_padRight (width : Nat) (text : String) :
    feeds (padRight width text) = feeds text := by
  simp [padRight, feeds, List.count_replicate]

theorem feeds_intercalate {mark : String} (hmark : feeds mark = 0) {texts : List String}
    (whole : ∀ text ∈ texts, feeds text = 0) : feeds (mark.intercalate texts) = 0 := by
  induction texts with
  | nil => rfl
  | cons text texts ih =>
    have htext := whole text (List.mem_cons_self ..)
    have hlater := ih fun other member => whole other (List.mem_cons_of_mem _ member)
    cases texts with
    | nil => simpa using htext
    | cons next texts =>
      rw [String.intercalate_cons_cons, feeds_append, feeds_append, htext, hmark, hlater]

def block (lines : List String) : List String := lines.takeWhile (· ≠ "")

def behindBlock (lines : List String) : List String := (lines.dropWhile (· ≠ "")).tail

variable {a b : List String}

theorem block_append (filled : ∀ line ∈ a, line ≠ "") : block (a ++ "" :: b) = a := by
  unfold block
  rw [List.takeWhile_append_of_pos fun line member => decide_eq_true (filled line member)]
  simp

theorem behindBlock_append (filled : ∀ line ∈ a, line ≠ "") : behindBlock (a ++ "" :: b) = b := by
  unfold behindBlock
  rw [List.dropWhile_append_of_pos fun line member => decide_eq_true (filled line member)]
  simp

theorem block_of_filled (filled : ∀ line ∈ a, line ≠ "") : block a = a :=
  List.takeWhile_eq_self_iff.mpr fun line member => decide_eq_true (filled line member)

theorem behindBlock_of_filled (filled : ∀ line ∈ a, line ≠ "") : behindBlock a = [] := by
  unfold behindBlock
  rw [List.dropWhile_eq_nil_iff.mpr fun line member => decide_eq_true (filled line member)]
  rfl

end Text

@[simp]
theorem Calendar.feeds_stamp (seconds : Nat) : Text.feeds (stamp seconds) = 0 := by
  simp +decide [stamp, digits]

end ToxEvents
