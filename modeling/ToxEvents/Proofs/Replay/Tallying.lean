import ToxEvents.Batch.Surfaces
import ToxEvents.Proofs.Replay.SortedTable
set_option autoImplicit false

namespace ToxEvents

theorem increment_eq_alter (name : String) (table : List (String × Nat)) :
    increment name table = CountTable.alter (fun n => n.getD 0 + 1) name table := by
  induction table with
  | nil => rfl
  | cons first rest ih =>
    obtain ⟨other, n⟩ := first
    rw [increment, CountTable.alter, ih]
    rfl

theorem pairwise_increment {table : List (String × Nat)} (sorted : table.Pairwise (·.1 < ·.1))
    (name : String) : (increment name table).Pairwise (·.1 < ·.1) := by
  rw [increment_eq_alter]
  exact CountTable.pairwise_alter sorted

theorem lookup_increment {table : List (String × Nat)} (sorted : table.Pairwise (·.1 < ·.1))
    (name key : String) : (increment name table).lookup key =
      if key = name then some ((table.lookup name).getD 0 + 1) else table.lookup key := by
  rw [increment_eq_alter]
  exact CountTable.lookup_alter sorted

theorem sum_increment (name : String) (table : List (String × Nat)) :
    ((increment name table).map Prod.snd).sum = (table.map Prod.snd).sum + 1 := by
  induction table with
  | nil => rfl
  | cons first rest ih =>
    obtain ⟨other, n⟩ := first
    unfold increment
    split
    case isTrue =>
      simp only [List.map_cons, List.sum_cons]
      omega
    case isFalse =>
      split
      case isTrue =>
        simp only [List.map_cons, List.sum_cons]
        omega
      case isFalse =>
        simp only [List.map_cons, List.sum_cons, ih]
        omega

theorem mem_includeFriend {n m : UInt32} {friends : List UInt32} :
    m ∈ includeFriend n friends ↔ m = n ∨ m ∈ friends := by
  induction friends with
  | nil => simp [includeFriend]
  | cons first rest ih =>
    unfold includeFriend
    split
    case isTrue same => simp [same]
    case isFalse =>
      split
      · simp
      · simp [ih, or_left_comm]

theorem pairwise_includeFriend {friends : List UInt32} (ascending : friends.Pairwise (· < ·))
    (n : UInt32) : (includeFriend n friends).Pairwise (· < ·) := by
  induction friends with
  | nil => exact List.pairwise_singleton _ _
  | cons first rest ih =>
    obtain ⟨hfirst, hrest⟩ := List.pairwise_cons.mp ascending
    unfold includeFriend
    split
    case isTrue => exact ascending
    case isFalse hne =>
      split
      case isTrue hlt =>
        refine .cons (fun m member => ?_) ascending
        rcases List.mem_cons.mp member with rfl | member
        · exact hlt
        · exact UInt32.lt_trans hlt (hfirst m member)
      case isFalse hge =>
        refine .cons (fun m member => ?_) (ih hrest)
        rcases mem_includeFriend.mp member with rfl | member
        · have hcases := UInt32.lt_or_eq_of_le (UInt32.not_lt.mp hge)
          exact hcases.resolve_right fun same => hne same.symm
        · exact hfirst m member

def CoreCategory.friendOf : (c : CoreCategory) → c.Rec → Option UInt32
  | .selfConnectionStatus, _ => none
  | .friendName, r => some r.friend
  | .friendStatusMessage, r => some r.friend
  | .friendStatus, r => some r.friend
  | .friendConnectionStatus, r => some r.friend
  | .friendTyping, r => some r.friend
  | .friendReadReceipt, r => some r.friend
  | .friendRequest, _ => none
  | .friendMessage, r => some r.friend
  | .fileControl, r => some r.friend
  | .fileChunkRequest, r => some r.friend
  | .fileOffer, r => some r.friend
  | .fileChunk, r => some r.friend
  | .friendLossyPacket, r => some r.friend
  | .friendLosslessPacket, r => some r.friend

def AvCategory.friendOf : (c : AvCategory) → c.Rec → UInt32
  | .call, r => r.friend
  | .callState, r => r.friend
  | .audioBitRate, r => r.friend
  | .videoBitRate, r => r.friend
  | .audioFrame, r => r.friend
  | .videoFrame, r => r.friend

inductive Seen where
  | core (entry : Entry CoreCategory)
  | av (entry : Entry AvCategory)

namespace Seen

def category : Seen → String
  | core entry => CoreCategory.name entry.1
  | av entry => AvCategory.name entry.1

def friend? : Seen → Option UInt32
  | core entry => CoreCategory.friendOf entry.1 entry.2
  | av entry => some (AvCategory.friendOf entry.1 entry.2)

def mask? : Seen → Option UInt32
  | av ⟨.callState, r⟩ => (CallFlags.ofCodes r.states).toOption.map CallFlags.mask
  | _ => none

end Seen

/-- The tally after a record. -/
def Tally.see (seen : Seen) (detail : String) (t : Tally) : Tally :=
  { t with
    counts := increment seen.category t.counts
    friends := seen.friend?.elim t.friends fun n => includeFriend n t.friends
    lastCallState := seen.mask?.or t.lastCallState
    events := t.events.map (·.push ⟨t.batch, seen.category, seen.friend?, detail⟩) }

/-- The tally tells of these records, each with the index of its batch, in this order. -/
structure Tally.Accounts (keeps : Bool) (records : List (Nat × Seen)) (t : Tally) : Prop where
  total : t.total = records.length
  counts : ∀ name, t.counts.lookup name =
    let n := records.countP (·.2.category = name)
    if n = 0 then none else some n
  names : t.counts.Pairwise (·.1 < ·.1)
  friends : ∀ n, n ∈ t.friends ↔ ∃ record ∈ records, record.2.friend? = some n
  ascending : t.friends.Pairwise (· < ·)
  lastCallState : t.lastCallState = (records.filterMap (·.2.mask?)).getLast?
  events : t.events.map (fun events => events.toList.map fun e => (e.batch, e.category, e.friend)) =
    if keeps then some (records.map fun record => (record.1, record.2.category, record.2.friend?))
    else none

namespace Tally.Accounts

variable {keeps : Bool} {records : List (Nat × Seen)} {t : Tally}

theorem start (keeps : Bool) : (Tally.start keeps).Accounts keeps [] where
  total := rfl
  counts name := rfl
  names := .nil
  friends n := by simp [Tally.start]
  ascending := .nil
  lastCallState := rfl
  events := by cases keeps <;> rfl

theorem nextBatch (accounts : t.Accounts keeps records) : t.nextBatch.Accounts keeps records :=
  { accounts with }

theorem see (accounts : t.Accounts keeps records) (seen : Seen) (detail : String) :
    (t.see seen detail).Accounts keeps (records ++ [(t.batch, seen)]) where
  total := by
    have htotal := accounts.total
    have hsum := sum_increment seen.category t.counts
    rw [Tally.total, ← List.sum_eq_foldr] at htotal ⊢
    rw [List.length_append, List.length_singleton]
    exact hsum.trans (congrArg (· + 1) htotal)
  counts name := by
    have hlookup := lookup_increment accounts.names seen.category name
    have hold := accounts.counts name
    have hcount : (records ++ [(t.batch, seen)]).countP (·.2.category = name) =
        records.countP (·.2.category = name) + if seen.category = name then 1 else 0 := by
      rw [List.countP_append, List.countP_singleton]
      simp only [decide_eq_true_eq]
    change (increment seen.category t.counts).lookup name = _
    rw [hlookup, hcount]
    by_cases hname : seen.category = name
    · rw [if_pos hname.symm, if_pos hname, hname, hold]
      dsimp only
      split
      case isTrue hzero => rw [hzero]; rfl
      case isFalse => rfl
    · rw [if_neg (Ne.symm hname), if_neg hname, hold]
      rfl
  names := pairwise_increment accounts.names seen.category
  friends n := by
    have hold := accounts.friends n
    change n ∈ seen.friend?.elim t.friends _ ↔ _
    cases hfriend : seen.friend? with
    | none => simp [hold, hfriend]
    | some m => simp [mem_includeFriend, hold, hfriend, or_and_right, exists_or, eq_comm, or_comm]
  ascending := by
    change (seen.friend?.elim t.friends _).Pairwise _
    cases seen.friend? with
    | none => exact accounts.ascending
    | some m => exact pairwise_includeFriend accounts.ascending m
  lastCallState := by
    change seen.mask?.or t.lastCallState = _
    rw [List.filterMap_append, List.getLast?_append, ← accounts.lastCallState]
    cases hmask : seen.mask? <;> simp [hmask]
  events := by
    have hold := accounts.events
    change (t.events.map _).map _ = _
    cases keeps with
    | false =>
      have hnone : t.events = none := Option.map_eq_none_iff.mp hold
      rw [hnone]
      rfl
    | true =>
      obtain ⟨events, hevents, hlist⟩ := Option.map_eq_some_iff.mp hold
      rw [hevents, if_pos rfl, List.map_append, ← hlist]
      simp

end Tally.Accounts

end ToxEvents
