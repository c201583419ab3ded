import ToxEvents.Proofs.Session.Tables
set_option autoImplicit false

namespace ToxEvents.Hub

variable {β : Type} {hub left : Hub β} {i j s a b : Nat} {due due' : Nat → Prop}

/-- A callback in a table releases no session or one that is open and holds its slot; it releases
none of the sessions in `due`. -/
structure Tenanted (due : Nat → Prop) (hub : Hub β) : Prop where
  holder : ∀ {i s a : Nat} {r : Registration}, (s, r) ∈ hub.entries i → r.callback.av? = some a →
    ∃ av, hub.AvOpen a av ∧ av.core = i ∧ av.slot = some s
  /-- Tables hold the callbacks of sessions in the order in which the sessions were made. -/
  ascending : ∀ i, ((hub.entries i).filterMap (·.2.callback.av?)).Pairwise (· < ·)
  absent : ∀ {i s a : Nat} {r : Registration}, due a → (s, r) ∈ hub.entries i →
    r.callback.av? ≠ some a

namespace Tenanted

theorem start : Tenanted Nobody ({} : Hub β) where
  holder member := by simp [entries] at member
  ascending i := by simp [entries]
  absent := False.elim

/-- Callbacks leave the tables, and those that stay are of sessions that keep their slots. -/
theorem thin (tenanted : Tenanted due hub) (entries : ∀ i, (left.entries i).Sublist (hub.entries i))
    (kept : ∀ {i s a : Nat} {r : Registration} {av : AvSession β}, (s, r) ∈ left.entries i →
      r.callback.av? = some a → hub.AvOpen a av →
      ∃ av', left.AvOpen a av' ∧ av'.core = av.core ∧ av'.slot = av.slot)
    (absent : ∀ {i s a : Nat} {r : Registration}, due' a → (s, r) ∈ left.entries i →
      r.callback.av? ≠ some a) : Tenanted due' left where
  holder member hr := by
    obtain ⟨av, hopen, hcore, hslot⟩ := tenanted.holder ((entries _).subset member) hr
    obtain ⟨av', hopen', hcore', hslot'⟩ := kept member hr hopen
    exact ⟨av', hopen', hcore'.trans hcore, hslot'.trans hslot⟩
  ascending i := (tenanted.ascending i).sublist ((entries i).filterMap _)
  absent := absent

theorem of_eq (tenanted : Tenanted due hub) (entries : ∀ i, left.entries i = hub.entries i)
    (avs : left.avs = hub.avs) : Tenanted due left := by
  refine tenanted.thin (fun i => entries i ▸ .refl _) ?_ fun h member => ?_
  · intro i s a r av member hr hopen
    exact ⟨av, ⟨avs ▸ hopen.1, hopen.2⟩, rfl, rfl⟩
  · rw [entries] at member
    exact tenanted.absent h member

theorem setAv (tenanted : Tenanted due hub) {av av' : AvSession β} (found : hub.avs[a]? = some av)
    (core : av'.core = av.core) (slot : av'.slot = av.slot)
    (released : av'.released = av.released) :
    Tenanted due (hub.setAv a av') := by
  refine tenanted.thin (fun i => .refl _) ?_ tenanted.absent
  intro i s b r av₀ member hr hopen
  by_cases hb : b = a
  · subst b
    obtain rfl := Option.some.inj (found.symm.trans hopen.1)
    have hlt := (List.getElem?_eq_some_iff.mp found).1
    exact ⟨av', ⟨List.getElem?_set_self hlt, released.trans hopen.2⟩, core, slot⟩
  · exact ⟨av₀, ⟨(List.getElem?_set_ne (Ne.symm hb)).trans hopen.1, hopen.2⟩, rfl, rfl⟩

theorem removeSlot (tenanted : Tenanted due hub) (j slot : Nat) :
    Tenanted due (hub.removeSlot j slot) := by
  have hsub (i : Nat) := sublist_entries_removeSlot i j slot hub
  refine tenanted.thin hsub ?_ fun h member => tenanted.absent h ((hsub _).subset member)
  intro i s a r av member hr hopen
  exact ⟨av, ⟨(congrArg (·[a]?) (avs_removeSlot j slot hub)).trans hopen.1, hopen.2⟩, rfl, rfl⟩

theorem add (tenanted : Tenanted Nobody hub) {r : Registration}
    (entries : ∀ j, left.entries j = hub.entries j ++ if j = i then [(s, r)] else [])
    (avs : ∀ {a : Nat} {av : AvSession β}, hub.AvOpen a av → left.AvOpen a av)
    (new : ∀ a, r.callback.av? = some a →
      hub.avs.length ≤ a ∧ ∃ av, left.AvOpen a av ∧ av.core = i ∧ av.slot = some s) :
    Tenanted Nobody left where
  holder {j s' a r'} member hr := by
    rw [entries] at member
    rcases List.mem_append.mp member with member | member
    · obtain ⟨av, hopen, hav⟩ := tenanted.holder member hr
      exact ⟨av, avs hopen, hav⟩
    · split at member
      case isTrue hj =>
        obtain ⟨rfl, rfl⟩ := Prod.mk.inj (List.mem_singleton.mp member)
        subst hj
        exact (new a hr).2
      case isFalse => cases member
  ascending j := by
    rw [entries, List.filterMap_append]
    refine List.pairwise_append.mpr ⟨tenanted.ascending j, ?_, fun b hb a ha => ?_⟩
    · split
      · cases hr : r.callback.av? <;> simp [hr]
      · exact .nil
    · obtain ⟨⟨s', r'⟩, member, hr'⟩ := List.mem_filterMap.mp hb
      obtain ⟨entry, member', hr⟩ := List.mem_filterMap.mp ha
      split at member'
      case isTrue hj =>
        rw [List.mem_singleton.mp member'] at hr
        obtain ⟨av, hopen, -⟩ := tenanted.holder member hr'
        exact Nat.lt_of_lt_of_le (List.getElem?_eq_some_iff.mp hopen.1).1 (new a hr).1
      case isFalse => cases member'
  absent := False.elim

theorem withAv (tenanted : Tenanted Nobody hub) {core : CoreSession β}
    {table : SlotTable Registration} (opened : hub.CoreOpen i core table) (name : String)
    (source : β) : Tenanted Nobody (hub.withAv name core table i source) := by
  refine tenanted.add (fun _ => entries_withAv opened name source) ?_ ?_
  · intro a av hopen
    have hlt := (List.getElem?_eq_some_iff.mp hopen.1).1
    exact ⟨(List.getElem?_append_left hlt).trans hopen.1, hopen.2⟩
  · intro a ha
    obtain rfl := Option.some.inj ha
    exact ⟨Nat.le_refl _, _, ⟨List.getElem?_concat_length, rfl⟩, rfl, rfl⟩

theorem wants (tenanted : Tenanted due hub) {entry : Nat × Registration}
    (member : entry ∈ hub.entries i) : hub.Wants entry.2.callback := by
  intro a ha closed
  obtain ⟨av, hopen, -⟩ := tenanted.holder member ha
  have hreleased := hopen.2
  rw [closed.shut av hopen.1] at hreleased
  cases hreleased

theorem turns (tenanted : Tenanted due left) (keeps : hub.Keeps left)
    (p : Nat × Registration → Bool)
    (entries : ∀ {i}, left.IsOpen i → left.entries i = (hub.entries i).filter p)
    (gone : ∀ {i}, ∀ entry ∈ hub.entries i, left.Wants entry.2.callback → p entry = true) :
    hub.Turns left where
  keeps := keeps
  entries {i} hopen := by
    refine ⟨[], ?_, by simp⟩
    rw [entries hopen, List.append_nil]
    refine List.filter_congr fun entry member => ?_
    rw [Bool.eq_iff_iff, decide_eq_true_iff]
    constructor
    · intro hp
      have member' : entry ∈ left.entries i := by
        rw [entries hopen]
        exact List.mem_filter.mpr ⟨member, hp⟩
      exact tenanted.wants member'
    · exact gone entry member

theorem turns_of_entries (tenanted : Tenanted due left) (keeps : hub.Keeps left)
    (entries : ∀ {i}, left.IsOpen i → left.entries i = hub.entries i) : hub.Turns left :=
  tenanted.turns keeps (fun _ => true) (fun hopen => by rw [entries hopen, List.filter_true])
    fun _ _ _ => rfl

theorem stay (tenanted : Tenanted due hub) (cores : left.cores = hub.cores)
    (avs : left.avs = hub.avs) : Tenanted due left ∧ hub.Turns left := by
  have hentries (i : Nat) : left.entries i = hub.entries i := by
    unfold Hub.entries
    rw [cores]
  have hleft := tenanted.of_eq hentries avs
  exact ⟨hleft, hleft.turns_of_entries (.of_eq cores avs) fun _ => hentries _⟩

theorem settle {third : Hub β} (turned : Tenanted due left ∧ hub.Turns left)
    (cores : third.cores = left.cores) (avs : third.avs = left.avs) :
    Tenanted due third ∧ hub.Turns third := by
  obtain ⟨hthird, hturns⟩ := turned.1.stay cores avs
  exact ⟨hthird, turned.2.trans hturns⟩

/-- When a core session begins to close, the sessions that it will release are in no other table. -/
theorem detach (tenanted : Tenanted due hub) {core : CoreSession β}
    {table : SlotTable Registration} (opened : hub.CoreOpen i core table) :
    Tenanted (Linked.Due table.live) (hub.detach i core table) ∧
      hub.Turns (hub.detach i core table) := by
  have hentries (j : Nat) : (hub.detach i core table).entries j =
      if j = i then [] else hub.entries j := entries_setCore opened.1
  have hsub (j : Nat) : ((hub.detach i core table).entries j).Sublist (hub.entries j) := by
    rw [hentries]
    split
    · exact List.nil_sublist _
    · exact .refl _
  have hdetached : Tenanted (Linked.Due table.live) (hub.detach i core table) := by
    refine tenanted.thin hsub (fun _ _ hopen => ⟨_, hopen, rfl, rfl⟩) ?_
    -- A session that is due has its callback in the table that is taken away, so in no other.
    intro j s a r ⟨r', live, hrelease⟩ member hr
    rw [SlotTable.live_eq, ← entries_of_open opened] at live
    obtain ⟨⟨s', r'⟩, member', rfl⟩ := List.mem_map.mp live
    obtain ⟨av, hav, rfl, -⟩ := tenanted.holder member' (Callback.av?_eq_some.mpr hrelease)
    obtain ⟨av', hav', rfl, -⟩ := tenanted.holder ((hsub j).subset member) hr
    obtain rfl := Option.some.inj (hav.1.symm.trans hav'.1)
    rw [hentries, if_pos rfl] at member
    cases member
  refine ⟨hdetached, hdetached.turns_of_entries (.detach opened) fun {j} hopen => ?_⟩
  rw [hentries, if_neg]
  rintro rfl
  obtain ⟨core', table', found, htable⟩ := hopen
  change (hub.cores.set j _)[j]? = some core' at found
  rw [List.getElem?_set_self (List.getElem?_eq_some_iff.mp opened.1).1] at found
  obtain rfl := Option.some.inj found
  cases htable

theorem turns_withAv (tenanted : Tenanted Nobody hub) {core : CoreSession β}
    {table : SlotTable Registration} (opened : hub.CoreOpen i core table) (name : String)
    (source : β) : hub.Turns (hub.withAv name core table i source) where
  keeps := (Keeps.register opened (.release hub.avs.length)).trans
    (.append [] _ (List.append_nil _).symm rfl)
  entries {j} _ := by
    have hnew := tenanted.withAv opened name source
    refine ⟨if j = i then [(table.slots.length, ⟨hub.registrations, .release hub.avs.length⟩)]
      else [], ?_, fun entry member => ⟨hub.avs.length, ?_, Nat.le_refl _⟩⟩
    · rw [entries_withAv opened]
      congr 1
      refine (List.filter_eq_self.mpr fun entry member => ?_).symm
      have member' : entry ∈ (hub.withAv name core table i source).entries j := by
        rw [entries_withAv opened]
        exact List.mem_append_left _ member
      exact decide_eq_true (hnew.wants member')
    · split at member
      case isTrue =>
        rw [List.mem_singleton.mp member]
      case isFalse => cases member

theorem setSource (tenanted : Tenanted due hub) {core : CoreSession β}
    {table : SlotTable Registration} (opened : hub.CoreOpen i core table) (backend : Backend β)
    (same : core.backend.Same backend) :
    Tenanted due (hub.setCore i { core with backend }) ∧
      hub.Turns (hub.setCore i { core with backend }) := by
  have hentries (j : Nat) : (hub.setCore i { core with backend }).entries j = hub.entries j := by
    rw [entries_setCore opened.1]
    split
    case isTrue same =>
      rw [same, entries_of_open opened, opened.2]
      rfl
    case isFalse => rfl
  have hset := tenanted.of_eq hentries rfl
  exact ⟨hset, hset.turns_of_entries (.setCore_of_open opened same) fun _ => hentries _⟩

theorem setBackend (tenanted : Tenanted due hub) {av : AvSession β} (found : hub.avs[a]? = some av)
    (backend : Backend β) (same : av.backend.Same backend) :
    Tenanted due (hub.setAv a { av with backend }) ∧
      hub.Turns (hub.setAv a { av with backend }) := by
  have hset : Tenanted due (hub.setAv a { av with backend }) := tenanted.setAv found rfl rfl rfl
  exact ⟨hset, hset.turns_of_entries (.setAv found ⟨same, rfl, fun h => h⟩) fun _ => rfl⟩

end Tenanted

variable [Source β]

/-- To close a session is to take its own callback out of the tables. -/
theorem entries_closeAv (linked : Linked due hub) (tenanted : Tenanted due' hub) (a i : Nat) :
    (hub.closeAv a).entries i = (hub.entries i).filter (·.2.callback.av? ≠ some a) := by
  have hself (absent : ∀ entry ∈ hub.entries i, entry.2.callback.av? ≠ some a) :
      hub.entries i = (hub.entries i).filter (·.2.callback.av? ≠ some a) :=
    (List.filter_eq_self.mpr fun entry member => decide_eq_true (absent entry member)).symm
  rcases hub.slot_cases a with idle | ⟨av, slot, found, held⟩
  -- Without a slot the session has no callback in any table.
  · rw [closeAv_of_idle idle, entries_releaseAv]
    refine hself fun entry member hr => ?_
    obtain ⟨av, hopen, -, hslot⟩ := tenanted.holder member hr
    rw [idle av hopen.1] at hslot
    cases hslot
  · rw [closeAv_of_held found held, entries_releaseAv, entries_removeSlot]
    change (if i = av.core then (hub.entries i).filter _ else hub.entries i) = _
    by_cases hi : i = av.core
    · subst i
      rw [if_pos rfl]
      refine List.filter_congr fun entry member => ?_
      have hiff : entry.1 = slot ↔ entry.2.callback.av? = some a := by
        constructor
        · rintro rfl
          obtain ⟨r, member', hr⟩ :=
            (linked.slot found held).mem_entries (isOpen_of_mem_entries member)
          rw [entries_inj member member']
          exact Callback.av?_eq_some.mpr hr
        · intro hr
          obtain ⟨av', hopen, -, hslot⟩ := tenanted.holder member hr
          obtain rfl := Option.some.inj (found.symm.trans hopen.1)
          exact Option.some.inj (hslot.symm.trans held)
      simp [hiff]
    · rw [if_neg hi]
      refine hself fun entry member hr => ?_
      obtain ⟨av', hopen, hcore, -⟩ := tenanted.holder member hr
      obtain rfl := Option.some.inj (found.symm.trans hopen.1)
      exact hi hcore.symm

namespace Tenanted

theorem releaseAv (tenanted : Tenanted due hub) (a : Nat)
    (absent : ∀ {i s : Nat} {r : Registration}, (s, r) ∈ hub.entries i → r.callback.av? ≠ some a) :
    Tenanted due (hub.releaseAv a) ∧ hub.Turns (hub.releaseAv a) := by
  have hentries (i : Nat) := entries_releaseAv i a hub
  have hreleased : Tenanted due (hub.releaseAv a) := by
    refine tenanted.thin (fun i => hentries i ▸ .refl _) ?_ ?_
    · intro i s b r av member hr hopen
      rw [hentries] at member
      have hb : b ≠ a := by
        rintro rfl
        exact absent member hr
      exact ⟨av, ⟨(avs_releaseAv_of_ne hb).trans hopen.1, hopen.2⟩, rfl, rfl⟩
    · intro i s b r hdue member
      rw [hentries] at member
      exact tenanted.absent hdue member
  exact ⟨hreleased, hreleased.turns_of_entries (.releaseAv hub a) fun _ => hentries _⟩

theorem closeAv (tenanted : Tenanted due hub) (linked : Linked due' hub) (a : Nat) :
    Tenanted due (hub.closeAv a) ∧ hub.Turns (hub.closeAv a) := by
  have hentries := entries_closeAv linked tenanted a
  have hsub (i : Nat) : ((hub.closeAv a).entries i).Sublist (hub.entries i) :=
    hentries i ▸ List.filter_sublist
  have hclosed : Tenanted due (hub.closeAv a) := by
    refine tenanted.thin hsub ?_ fun h member => tenanted.absent h ((hsub _).subset member)
    intro i s b r av member hr hopen
    rw [hentries] at member
    have hb : b ≠ a := by
      rintro rfl
      exact of_decide_eq_true (List.mem_filter.mp member).2 hr
    exact ⟨av, ⟨(avs_closeAv_of_ne hb).trans hopen.1, hopen.2⟩, rfl, rfl⟩
  refine ⟨hclosed, hclosed.turns (.closeAv hub a) _ (fun _ => hentries _) ?_⟩
  intro i entry member wanted
  rw [decide_eq_true_iff]
  intro ha
  obtain ⟨av, hopen, -⟩ := tenanted.holder member ha
  exact wanted a ha (avClosed_closeAv hopen.1)

theorem dropAv (tenanted : Tenanted due hub) (linked : Linked due' hub) (a : Nat) :
    Tenanted due (hub.dropAv a) ∧ hub.Turns (hub.dropAv a) := by
  rcases hub.dropAv_cases a with hdrop | ⟨av, found, hdrop⟩
  · rw [hdrop]
    exact tenanted.closeAv linked a
  · have hset : Tenanted due (hub.setAv a { av with dropped := true }) :=
      tenanted.setAv found rfl rfl rfl
    have hmarked : hub.Turns (hub.setAv a { av with dropped := true }) :=
      hset.turns_of_entries (.setAv found ⟨.refl _, rfl, fun h => h⟩) fun _ => rfl
    obtain ⟨hclosed, hturns⟩ := hset.closeAv (linked.setDropped found) a
    rw [hdrop]
    exact ⟨hclosed, hmarked.trans hturns⟩

theorem react (tenanted : Tenanted due hub) (linked : Linked due' hub) (reaction : Reaction Nat) :
    Tenanted due (hub.react reaction) ∧ hub.Turns (hub.react reaction) := by
  induction reaction generalizing hub with
  | none => exact tenanted.stay rfl rfl
  | close a => exact tenanted.closeAv linked a
  | drop a => exact tenanted.dropAv linked a
  | both first second ih₁ ih₂ =>
    obtain ⟨hfirst, hturns⟩ := ih₁ tenanted linked
    obtain ⟨hsecond, hturns'⟩ := ih₂ hfirst (linked.react first)
    exact ⟨hsecond, hturns.trans hturns'⟩

theorem call {r : Registration} {rs : List Registration}
    (tenanted : Tenanted (Linked.Due (r :: rs)) hub) (linked : Linked due' hub) :
    Tenanted (Linked.Due rs) (hub.call r).2 ∧ hub.Turns (hub.call r).2 := by
  have hlater : Tenanted (Linked.Due rs) hub :=
    { tenanted with
      absent := fun ⟨r', member, hr⟩ => tenanted.absent ⟨r', List.mem_cons_of_mem r member, hr⟩ }
  cases hcallback : r.callback with
  | release a =>
    have hinvoked : Tenanted (Linked.Due rs) { hub with invoked := hub.invoked.push r.id } ∧
        hub.Turns { hub with invoked := hub.invoked.push r.id } := hlater.stay rfl rfl
    obtain ⟨hreleased, hturns⟩ := hinvoked.1.releaseAv a
      (tenanted.absent ⟨r, List.mem_cons_self .., hcallback⟩)
    rw [call_of_release hcallback]
    exact ⟨hreleased, hinvoked.2.trans hturns⟩
  | user label count reaction =>
    let during : Hub β :=
      { hub with invoked := hub.invoked.push r.id }.witness (.ran label (count + 1))
    have hran : Tenanted (Linked.Due rs) during ∧ hub.Turns during := hlater.stay rfl rfl
    have hlinked : Linked due' during := { linked with }
    obtain ⟨hreacted, hturns⟩ := hran.1.react hlinked reaction
    rw [call_of_user hcallback]
    exact ⟨hreacted, hran.2.trans hturns⟩

theorem callEach {rs : List Registration} (tenanted : Tenanted (Linked.Due rs) hub)
    (linked : Linked (Linked.Due rs) hub) :
    Tenanted Nobody (hub.callEach rs) ∧ hub.Turns (hub.callEach rs) := by
  induction rs generalizing hub with
  | nil =>
    have hnobody : Tenanted Nobody hub := { tenanted with absent := False.elim }
    exact hnobody.stay rfl rfl
  | cons r rs ih =>
    obtain ⟨hcalled, hturns⟩ := tenanted.call linked
    obtain ⟨hlater, hturns'⟩ := ih hcalled linked.call
    exact ⟨hlater, hturns.trans hturns'⟩

theorem closeCore (tenanted : Tenanted Nobody hub) (linked : Linked Nobody hub) (i : Nat) :
    Tenanted Nobody (hub.closeCore i) ∧ hub.Turns (hub.closeCore i) := by
  rcases hub.core_cases i with ⟨core, table, opened⟩ | shut
  · obtain ⟨hdetached, hturns⟩ := tenanted.detach opened
    obtain ⟨hcalled, hturns'⟩ := hdetached.callEach (linked.detach opened)
    have hentries := entries_closeCore opened
    have hclosed := hcalled.of_eq hentries (avs_closeCore opened)
    have hlast := hclosed.turns_of_entries (.close_released opened) fun _ => hentries _
    exact ⟨hclosed, (hturns.trans hturns').trans hlast⟩
  · rw [closeCore_of_shut shut]
    exact tenanted.stay rfl rfl

theorem openCore (tenanted : Tenanted Nobody hub) (linked : Linked Nobody hub) (name : String)
    (source : β) : Tenanted Nobody (hub.openCore name source) ∧
      hub.Turns (hub.openCore name source) := by
  have hentries (i : Nat) : (hub.withCore name source).entries i = hub.entries i :=
    entries_append ⟨hub.backends, name, source⟩ rfl
  have hkeeps : hub.Keeps (hub.withCore name source) := .append _ [] rfl (List.append_nil _).symm
  have hnew : Tenanted Nobody (hub.withCore name source) := tenanted.of_eq hentries rfl
  have hturns := hnew.turns_of_entries hkeeps fun _ => hentries _
  rw [openCore_eq]
  cases hub.core? name with
  | none => exact ⟨hnew, hturns⟩
  | some old =>
    obtain ⟨hclosed, hturns'⟩ := hnew.closeCore (linked.appendCore _ rfl rfl rfl rfl) old
    exact ⟨hclosed, hturns.trans hturns'⟩

theorem openAv (tenanted : Tenanted Nobody hub) (linked : Linked Nobody hub) (name : String)
    (i : Nat) (source : β) : Tenanted Nobody (hub.openAv name i source).2 ∧
      hub.Turns (hub.openAv name i source).2 := by
  rcases hub.core_cases i with ⟨core, table, opened⟩ | shut
  · have hnew := tenanted.withAv opened name source
    have hturns := tenanted.turns_withAv opened name source
    rw [openAv_of_open opened]
    cases hub.av? name with
    | none => exact ⟨hnew, hturns⟩
    | some old =>
      obtain ⟨hdropped, hturns'⟩ := hnew.dropAv (linked.withAv opened name source) old
      exact ⟨hdropped, hturns.trans hturns'⟩
  · rw [openAv_of_shut shut]
    exact tenanted.stay rfl rfl

theorem tickCore (tenanted : Tenanted due hub) (i : Nat) :
    Tenanted due (hub.tickCore i).2 ∧ hub.Turns (hub.tickCore i).2 := by
  rcases hub.core_cases i with ⟨core, table, opened⟩ | shut
  · rw [tickCore_of_open opened]
    exact settle (tenanted.setSource opened (ticked core.backend) ⟨rfl, rfl⟩) rfl rfl
  · rw [tickCore_of_shut shut]
    exact tenanted.stay rfl rfl

theorem tickAv (tenanted : Tenanted due hub) (a : Nat) :
    Tenanted due (hub.tickAv a).2 ∧ hub.Turns (hub.tickAv a).2 := by
  rcases hub.av_cases a with ⟨av, opened⟩ | shut
  · rw [tickAv_of_open opened]
    exact settle (tenanted.setBackend opened.1 (ticked av.backend) ⟨rfl, rfl⟩) rfl rfl
  · rw [tickAv_of_shut shut]
    exact tenanted.stay rfl rfl

theorem changeCall (tenanted : Tenanted due hub) (a : Nat) (friend : FriendNumber)
    (flags : CallFlags) : Tenanted due (hub.changeCall a friend flags).2 ∧
      hub.Turns (hub.changeCall a friend flags).2 := by
  rcases hub.av_cases a with ⟨av, opened⟩ | shut
  · rw [changeCall_of_open opened]
    exact settle (tenanted.setBackend opened.1 { av.backend with
      source := (Source.changeCall friend flags.mask av.backend.source).2 } ⟨rfl, rfl⟩) rfl rfl
  · rw [changeCall_of_shut shut]
    exact tenanted.stay rfl rfl

end Tenanted

end ToxEvents.Hub
