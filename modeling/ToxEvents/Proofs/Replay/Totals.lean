import ToxEvents.Proofs.Replay.Accounting
import ToxEvents.Proofs.Replay.FullCounts
import ToxEvents.Proofs.Replay.JsonReport
import ToxEvents.Proofs.Replay.TextReport
set_option autoImplicit false

namespace ToxEvents

theorem sum_map_raise {names : List String} (distinct : names.Nodup) {name : String}
    (member : name ∈ names) (f : String → Nat) :
    (names.map fun other => f other + if name = other then 1 else 0).sum =
      (names.map f).sum + 1 := by
  induction names with
  | nil => cases member
  | cons first names ih =>
    obtain ⟨hfresh, hdistinct⟩ := List.nodup_cons.mp distinct
    by_cases same : name = first
    · subst first
      have hothers : (names.map fun other => f other + if name = other then 1 else 0) =
          names.map f := by
        refine List.map_congr_left fun other hother => ?_
        have hne : name ≠ other := fun same => hfresh (same ▸ hother)
        simp [hne]
      simp only [List.map_cons, List.sum_cons, hothers, if_true]
      omega
    · have hlater := ih hdistinct ((List.mem_cons.mp member).resolve_left same)
      simp only [List.map_cons, List.sum_cons, hlater, if_neg same]
      omega

theorem sum_countP {α : Type} {f : α → String} {names : List String} (distinct : names.Nodup)
    {as : List α} (named : ∀ a ∈ as, f a ∈ names) :
    (names.map fun name => as.countP (f · = name)).sum = as.length := by
  -- One more raises the count of its own name and, as no name stands twice, of no other.
  induction as with
  | nil => simp
  | cons a as ih =>
    have hlater := ih fun b member => named b (List.mem_cons_of_mem a member)
    have hraise := sum_map_raise distinct (named a (List.mem_cons_self ..))
      fun name => as.countP (f · = name)
    simp only [List.countP_cons, decide_eq_true_eq, List.length_cons]
    omega

namespace Text

def words (line : String) : List String :=
  ((line.toList.splitOn ' ').filter (· ≠ [])).map String.ofList

theorem filter_splitOn_blanks (k : Nat) (text : List Char) :
    ((List.replicate k ' ' ++ text).splitOn ' ').filter (· ≠ []) =
      (text.splitOn ' ').filter (· ≠ []) := by
  induction k with
  | zero => rfl
  | succ k ih =>
    rw [List.replicate_succ, List.cons_append, List.splitOn_cons_eq_if_modifyHead,
      if_pos (beq_self_eq_true ' ')]
    exact ih

def Single (word : String) : Prop := word ≠ "" ∧ ' ' ∉ word.toList

instance (word : String) : Decidable (Single word) := inferInstanceAs (Decidable (_ ∧ _))

theorem Single.filter {word : String} (single : Single word) :
    (word.toList.splitOn ' ').filter (· ≠ []) = [word.toList] := by
  have hfilled : word.toList ≠ [] := fun empty => single.1 (String.toList_eq_nil_iff.mp empty)
  rw [List.splitOn_eq_singleton single.2]
  simp [hfilled]

theorem words_columns {line a b : String} {k : Nat}
    (columns : line.toList = a.toList ++ ' ' :: (List.replicate k ' ' ++ b.toList))
    (ha : Single a) (hb : Single b) : words line = [a, b] := by
  unfold words
  rw [columns, List.splitOn_append_cons_self, List.filter_append, filter_splitOn_blanks, ha.filter,
    hb.filter]
  simp

theorem toList_toString (n : Nat) : (toString n).toList = Nat.toDigits 10 n := toList_ofNat n

theorem single_toString (n : Nat) : Single (toString n) := by
  have hdigits := toList_toString n
  refine ⟨fun empty => ?_, fun member => ?_⟩
  · rw [empty] at hdigits
    exact Nat.toDigits_ne_nil hdigits.symm
  · rw [hdigits] at member
    exact absurd (List.all_eq_true.mp (all_isDigit n) ' ' member) (by decide)

end Text

namespace Report
open Text

/-- A name and a number, as a line of the table has them. -/
def row? (line : String) : Option (String × Nat) :=
  match words line with
  | [name, count] =>
    if count.toList.all Char.isDigit then some (name, ofDigits 10 count.toList) else none
  | _ => none

theorem toList_countLine (name count : String) : ∃ k, (countLine name count).toList =
    name.toList ++ ' ' :: (List.replicate k ' ' ++ count.toList) := by
  refine ⟨28 - name.length + (10 - count.length), ?_⟩
  rw [← List.cons_append, ← List.replicate_succ, Nat.add_right_comm, List.replicate_add]
  simp [countLine, padRight, padLeft, List.replicate_succ']

theorem row?_countLine {name : String} (single : Single name) (n : Nat) :
    row? (countLine name (toString n)) = some (name, n) := by
  obtain ⟨k, hcolumns⟩ := toList_countLine name (toString n)
  unfold row?
  rw [words_columns hcolumns single (single_toString n)]
  simp only [toList_toString, all_isDigit, ofDigits_toDigits, if_true]

theorem categoryNames_single : ∀ name ∈ categoryNames, Single name := by decide

/-- The rows of the table as the text has them, below its heading. -/
def rows (r : Report) : List String :=
  (block (behindBlock (Text.lines (r.render .txt)))).drop 2

theorem rows_eq {r : Report} (dated : feeds r.generatedAt = 0) : r.rows = r.countLines := by
  unfold rows
  rw [render, block_table dated]
  rfl

theorem map_row? (r : Report) :
    r.countLines.map row? = categoryNames.map fun name => some (name, r.countOf name) := by
  unfold countLines
  rw [List.map_map]
  exact List.map_congr_left fun name member => row?_countLine (categoryNames_single name member) _

/-- The report tells of all these records, in either form. -/
structure Complete (r : Report) (records : List (Nat × Seen)) : Prop where
  sorted : r.counts.Pairwise (·.1 < ·.1)
  names : (r.counts.map Prod.fst).Perm categoryNames
  counts : ∀ name ∈ categoryNames, r.counts.lookup name =
    some (records.countP (·.2.category = name))
  sum : (r.counts.map Prod.snd).sum = r.totalEvents
  total : r.totalEvents = records.length
  ascending : r.friends.Pairwise (· < ·)
  /-- The JSON form has the same counts, the same total and the same friends. -/
  json : ∃ told, Json.read? (r.render .json).toList = some told ∧
    (told.member? "counts").bind (Json.entries? Json.nat?) = some r.counts ∧
    (told.member? "total_events").bind Json.nat? = some r.totalEvents ∧
    (told.member? "friends").bind (Json.items? Json.word?) = some r.friends
  /-- The text has one row for each category, in the order of delivery, with the same count. -/
  rows : r.rows.map row? = categoryNames.map fun name => (r.counts.lookup name).map (name, ·)
  added : ((r.rows.filterMap row?).map Prod.snd).sum = r.totalEvents
  printed : (Text.lines (r.render .txt))[5]? = some s!"Total events:  {r.totalEvents}"

end Report

namespace Tally.Accounts
open CountTable Report

variable {keeps : Bool} {records : List (Nat × Seen)} {t : Tally}

theorem lookup_fullCounts (accounts : t.Accounts keeps records) (name : String) :
    (fullCounts t.counts).lookup name =
      if name ∈ categoryNames then some (records.countP (·.2.category = name)) else none := by
  have hcount := accounts.counts name
  rw [Report.lookup_fullCounts (nodup_names accounts.names), hcount]
  by_cases known : name ∈ categoryNames
  · simp only [known, if_true]
    split
    case isTrue hzero => rw [hzero, Option.none_or]
    case isFalse => rw [Option.some_or]
  · have hzero : records.countP (·.2.category = name) = 0 := by
      refine List.countP_eq_zero.mpr fun record _ same => ?_
      exact known (of_decide_eq_true same ▸ record.2.category_mem)
    simp [known, hzero]

theorem names_fullCounts (accounts : t.Accounts keeps records) :
    ((fullCounts t.counts).map Prod.fst).Perm categoryNames := by
  have hdistinct := nodup_names (pairwise_fullCounts t.counts)
  refine (List.perm_ext_iff_of_nodup hdistinct categoryNames_nodup).mpr fun name => ?_
  rw [mem_names_iff, accounts.lookup_fullCounts]
  split <;> simp [*]

theorem sum_categories (accounts : t.Accounts keeps records) :
    (categoryNames.map fun name => ((fullCounts t.counts).lookup name).getD 0).sum = t.total := by
  have hcounts : (categoryNames.map fun name => ((fullCounts t.counts).lookup name).getD 0) =
      categoryNames.map fun name => records.countP (·.2.category = name) := by
    refine List.map_congr_left fun name member => ?_
    rw [accounts.lookup_fullCounts, if_pos member, Option.getD_some]
  rw [hcounts, accounts.total]
  exact sum_countP categoryNames_nodup fun record _ => record.2.category_mem

theorem sum_fullCounts (accounts : t.Accounts keeps records) :
    ((fullCounts t.counts).map Prod.snd).sum = t.total := by
  have hdistinct := nodup_names (pairwise_fullCounts t.counts)
  rw [← map_lookup hdistinct, ← accounts.sum_categories]
  exact (accounts.names_fullCounts.map _).sum_nat

theorem complete (accounts : t.Accounts keeps records) {generatedAt : String}
    (dated : Text.feeds generatedAt = 0) (coreBatches avBatches reused : Nat) :
    (ofTally generatedAt t coreBatches avBatches reused).Complete records := by
  generalize made : ofTally generatedAt t coreBatches avBatches reused = r
  have hcounts : r.counts = fullCounts t.counts := by rw [← made]; rfl
  have hdated : Text.feeds r.generatedAt = 0 := by rw [← made]; exact dated
  have htotal : r.totalEvents = t.total := by rw [← made]; rfl
  have hrows : r.rows.map row? = categoryNames.map fun name => some (name, r.countOf name) := by
    rw [rows_eq hdated, map_row?]
  refine {
    sorted := hcounts ▸ pairwise_fullCounts t.counts
    names := hcounts ▸ accounts.names_fullCounts
    counts := ?counts
    sum := ?sum
    total := htotal.trans accounts.total
    ascending := ?ascending
    json := ?json
    rows := ?rows
    added := ?added
    printed := ?printed }
  case counts =>
    intro name member
    rw [hcounts, accounts.lookup_fullCounts, if_pos member]
  case sum => rw [hcounts, htotal, accounts.sum_fullCounts]
  case ascending =>
    rw [← made]
    exact accounts.ascending
  case json =>
    exact ⟨r.json, r.read?_json, Json.entries?_map Json.nat?_ofNat r.counts, rfl,
      Json.items?_map Json.word?_ofNat r.friends⟩
  case rows =>
    rw [hrows]
    refine List.map_congr_left fun name member => ?_
    rw [countOf, hcounts, accounts.lookup_fullCounts, if_pos member, Option.map_some,
      Option.getD_some]
  case added =>
    have hread : r.rows.filterMap row? = categoryNames.map fun name => (name, r.countOf name) := by
      calc r.rows.filterMap row?
        _ = (r.rows.map row?).filterMap id := by rw [List.filterMap_map, Function.id_comp]
        _ = categoryNames.map fun name => (name, r.countOf name) := by
          rw [hrows, List.filterMap_map, Function.id_comp, List.filterMap_eq_map']
    rw [hread, List.map_map, htotal, ← accounts.sum_categories, ← hcounts]
    rfl
  case printed =>
    rw [render, lines_text hdated]
    rfl

end Tally.Accounts

namespace Meeting

variable {β : Type}

/-- Whatever a listener is given from the start, batches and ticks in any order, the report on the
state tells of all records of the accepted batches and of nothing else. -/
theorem report_complete (hub : Hub β) (listener : Recorder) (keeps : Bool) (given : List Feed)
    (seconds coreBatches avBatches reused : Nat) :
    let start : Meeting β Recorder Tally := { hub, listener, state := Tally.start keeps }
    let m := start.fed given
    let r := Report.ofTally (Calendar.stamp seconds) m.state coreBatches avBatches reused
    categoryNames.length = 21 ∧ r.Complete (records (start.ledger given 0)) ∧
      r.friends = m.state.friends ∧
      ∀ n, n ∈ r.friends ↔
        ∃ record ∈ records (start.ledger given 0), record.2.friend? = some n := by
  intro start m r
  have hstart : start.state.Accounts keeps [] := .start keeps
  obtain ⟨-, haccounts⟩ := fed_accounts hstart given
  have hcomplete := haccounts.complete (Calendar.feeds_stamp seconds) coreBatches avBatches reused
  exact ⟨rfl, hcomplete, rfl, haccounts.friends⟩

end Meeting

end ToxEvents
