import ToxEvents.Proofs.Session.Continuity
import ToxEvents.Proofs.Session.Move
set_option autoImplicit false

/-!
# Slots and who holds them

As long as every handle is given to the session that issued it, a slot that somebody holds keeps the
registration it was issued for: an audio and video session the callback that releases it, a handle
the callback it was given for. So an audio and video session that is open is in the table of an open
core session.
-/
namespace ToxEvents

theorem mem_of_lookup {α : Type} {name : String} {value : α} {table : List (String × α)}
    (held : table.lookup name = some value) : (name, value) ∈ table := by
  obtain ⟨before, after, hsplit, -⟩ := List.lookup_eq_some_iff.mp held
  rw [hsplit]
  exact List.mem_append_right _ (List.mem_cons_self ..)

def Callback.IsUser : Callback → Prop
  | release _ => False
  | user .. => True

def Handle.Means (handle : Handle) (r : Registration) : Prop :=
  r.id = handle.registration ∧ r.callback.IsUser

namespace Hub

variable {β : Type}

def IsOpen (i : Nat) (hub : Hub β) : Prop := ∃ core table, hub.CoreOpen i core table

/-- The slot has such a registration, for as long as the core session is open. -/
def Holds (i slot : Nat) (P : Registration → Prop) (hub : Hub β) : Prop :=
  i < hub.cores.length ∧
    ∀ core table, hub.CoreOpen i core table → ∃ r, (slot, r) ∈ table.entries ∧ P r

def Nobody : Nat → Prop := fun _ => False

/-- The sessions in `due` are about to be released. -/
structure Linked (due : Nat → Prop) (hub : Hub β) : Prop where
  slot : ∀ {a s : Nat} {av : AvSession β}, hub.avs[a]? = some av → av.slot = some s →
    hub.Holds av.core s fun r => r.callback = .release a
  handle : ∀ {name : String} {handle : Handle}, (name, handle) ∈ hub.handles →
    hub.Holds handle.issuer handle.slot handle.Means
  distinct : (hub.handles.map fun entry => entry.2.registration).Nodup
  handle_lt : ∀ entry ∈ hub.handles, entry.2.registration < hub.registrations
  unreleased : ∀ {a : Nat} {av : AvSession β}, hub.AvOpen a av →
    (av.slot.isSome ∧ hub.IsOpen av.core) ∨ due a

variable {hub : Hub β} {i j s slot : Nat} {P Q : Registration → Prop} {due : Nat → Prop}

theorem IsOpen.setCore (hopen : hub.IsOpen i) {core core' : CoreSession β}
    (found : hub.cores[j]? = some core) (opened : i = j → core'.onClose.isSome) :
    (hub.setCore j core').IsOpen i := by
  obtain ⟨session, table, found', htable⟩ := hopen
  by_cases hij : j = i
  · subst j
    obtain ⟨table', htable'⟩ := Option.isSome_iff_exists.mp (opened rfl)
    have hlt := (List.getElem?_eq_some_iff.mp found).1
    exact ⟨core', table', List.getElem?_set_self hlt, htable'⟩
  · exact ⟨session, table, (List.getElem?_set_ne hij).trans found', htable⟩

theorem IsOpen.append (hopen : hub.IsOpen i) {left : Hub β} (cores : List (CoreSession β))
    (appended : left.cores = hub.cores ++ cores) : left.IsOpen i := by
  obtain ⟨core, table, found, htable⟩ := hopen
  refine ⟨core, table, ?_, htable⟩
  rw [appended, List.getElem?_append_left (List.getElem?_eq_some_iff.mp found).1]
  exact found

namespace Holds

theorem append (holds : hub.Holds i s P) {left : Hub β} (cores : List (CoreSession β))
    (appended : left.cores = hub.cores ++ cores) : left.Holds i s P := by
  refine ⟨?_, fun core table opened => holds.2 core table ⟨?_, opened.2⟩⟩
  · rw [appended, List.length_append]
    exact Nat.lt_add_right _ holds.1
  · rw [← List.getElem?_append_left holds.1, ← appended]
    exact opened.1

theorem setCore (holds : hub.Holds i s P) {core core' : CoreSession β}
    (found : hub.cores[j]? = some core)
    (kept : ∀ table', core'.onClose = some table' → ∃ table, core.onClose = some table ∧
      ∀ r, (s, r) ∈ table.entries → P r → i = j → (s, r) ∈ table'.entries) :
    (hub.setCore j core').Holds i s P := by
  refine ⟨?_, fun session table' opened => ?_⟩
  · change i < (hub.cores.set j core').length
    rw [List.length_set]
    exact holds.1
  · obtain ⟨found', hopen⟩ := opened
    rcases getElem?_set_cases found' with ⟨rfl, rfl⟩ | ⟨-, found'⟩
    · obtain ⟨table, hopen', hkept⟩ := kept table' hopen
      obtain ⟨r, member, hr⟩ := holds.2 core table ⟨found, hopen'⟩
      exact ⟨r, hkept r member hr rfl, hr⟩
    · exact holds.2 session table' ⟨found', hopen⟩

/-- Taking a slot away is nothing to the holder of another. -/
theorem removeSlot (holds : hub.Holds i s P) (removed : hub.Holds j slot Q)
    (disjoint : ∀ r, P r → ¬ Q r) : (hub.removeSlot j slot).Holds i s P := by
  rcases hub.removeSlot_cases j slot with ⟨core, table, opened, hremove⟩ | ⟨records, hremove⟩
  · have hset :
        (hub.setCore j { core with onClose := some (table.remove slot).1 }).Holds i s P := by
      refine holds.setCore opened.1 fun table' htable' => ⟨table, opened.2, ?_⟩
      intro r member hr hij
      subst i
      obtain rfl := Option.some.inj htable'
      obtain ⟨r', member', hr'⟩ := removed.2 core table opened
      -- One slot has one registration, which cannot be both.
      have hne : s ≠ slot := by
        rintro rfl
        have hsame :=
          (SlotTable.mem_entries.mp member).symm.trans (SlotTable.mem_entries.mp member')
        obtain rfl := Option.some.inj (Option.some.inj hsame)
        exact disjoint r hr hr'
      rw [SlotTable.entries_remove, List.mem_filter]
      exact ⟨member, by simpa using hne⟩
    rw [hremove]
    exact hset
  · rw [hremove]
    exact holds

theorem register (holds : hub.Holds i s P) {core : CoreSession β}
    {table : SlotTable Registration} (opened : hub.CoreOpen j core table) (callback : Callback) :
    (hub.register core table j callback).Holds i s P := by
  have hissued : ({ hub with registrations := hub.registrations + 1 } : Hub β).Holds i s P := holds
  refine hissued.setCore opened.1 fun table' htable' => ⟨table, opened.2, ?_⟩
  rintro r member - -
  obtain rfl := Option.some.inj htable'
  rw [SlotTable.entries_add]
  exact List.mem_append_left _ member

theorem registered {core : CoreSession β} {table : SlotTable Registration}
    (opened : hub.CoreOpen i core table) {callback : Callback}
    (satisfied : P ⟨hub.registrations, callback⟩) :
    (hub.register core table i callback).Holds i table.slots.length P := by
  have hlt := (List.getElem?_eq_some_iff.mp opened.1).1
  refine ⟨?_, fun session table' opened' => ?_⟩
  · change i < (hub.cores.set i _).length
    rw [List.length_set]
    exact hlt
  · obtain ⟨found, hopen⟩ := opened'
    change (hub.cores.set i _)[i]? = some session at found
    rw [List.getElem?_set_self hlt] at found
    obtain rfl := Option.some.inj found
    obtain rfl := Option.some.inj hopen
    refine ⟨_, ?_, satisfied⟩
    rw [SlotTable.entries_add]
    exact List.mem_append_right _ (List.mem_singleton_self _)

end Holds

namespace Linked

theorem start : Linked Nobody ({} : Hub β) where
  slot found := by simp at found
  handle member := by cases member
  distinct := .nil
  handle_lt := by simp
  unreleased opened := by simp [AvOpen] at opened

theorem weaken (linked : Linked due hub) {due' : Nat → Prop}
    (weaker : ∀ {a av}, hub.AvOpen a av → due a → due' a) : Linked due' hub :=
  { linked with
    unreleased := fun opened => (linked.unreleased opened).imp_right (weaker opened) }

theorem transfer (linked : Linked due hub) {left : Hub β} (avs : left.avs = hub.avs)
    (handles : left.handles = hub.handles) (registrations : hub.registrations ≤ left.registrations)
    (slot : ∀ {a s : Nat} {av : AvSession β}, hub.avs[a]? = some av → av.slot = some s →
      left.Holds av.core s fun r => r.callback = .release a)
    (handle : ∀ {name : String} {handle : Handle}, (name, handle) ∈ hub.handles →
      left.Holds handle.issuer handle.slot handle.Means)
    (opened : ∀ {i}, hub.IsOpen i → left.IsOpen i) : Linked due left where
  slot found := slot (avs ▸ found)
  handle member := handle (handles ▸ member)
  distinct := handles ▸ linked.distinct
  handle_lt entry member := Nat.lt_of_lt_of_le (linked.handle_lt entry (handles ▸ member))
    registrations
  unreleased := fun ⟨found, hopen⟩ => (linked.unreleased ⟨avs ▸ found, hopen⟩).imp_left
    (And.imp_right opened)

theorem removeSlot (linked : Linked due hub) (removed : hub.Holds j slot Q)
    (avs : ∀ {a : Nat} {av : AvSession β}, hub.avs[a]? = some av → av.slot.isSome →
      ∀ r, r.callback = .release a → ¬ Q r)
    (handles : ∀ entry ∈ hub.handles, ∀ r, entry.2.Means r → ¬ Q r) :
    Linked due (hub.removeSlot j slot) := by
  have hframe : (hub.removeSlot j slot).avs = hub.avs ∧
      (hub.removeSlot j slot).handles = hub.handles ∧
      (hub.removeSlot j slot).registrations = hub.registrations ∧
      ∀ {i}, hub.IsOpen i → (hub.removeSlot j slot).IsOpen i := by
    rcases hub.removeSlot_cases j slot with ⟨core, table, opened, hremove⟩ | ⟨records, hremove⟩
    · rw [hremove]
      exact ⟨rfl, rfl, rfl, fun hopen => hopen.setCore opened.1 fun _ => rfl⟩
    · rw [hremove]
      exact ⟨rfl, rfl, rfl, fun hopen => hopen⟩
  obtain ⟨havs, hhandles, hregistrations, hopen⟩ := hframe
  refine linked.transfer havs hhandles (Nat.le_of_eq hregistrations.symm) ?_ ?_ hopen
  · intro a s av found hslot
    exact (linked.slot found hslot).removeSlot removed (avs found (by rw [hslot]; rfl))
  · intro name handle member
    exact (linked.handle member).removeSlot removed (handles _ member)

theorem setAv (linked : Linked due hub) {a : Nat} {av av' : AvSession β} {due' : Nat → Prop}
    (found : hub.avs[a]? = some av) (core : av'.core = av.core)
    (slot : ∀ s, av'.slot = some s → av.slot = some s)
    (unreleased : av'.released = false → (av'.slot.isSome ∧ hub.IsOpen av'.core) ∨ due' a)
    (others : ∀ b, b ≠ a → due b → due' b) : Linked due' (hub.setAv a av') :=
  { linked with
    slot := fun found' hslot => by
      rcases getElem?_set_cases found' with ⟨rfl, rfl⟩ | ⟨-, found'⟩
      · rw [core]
        exact linked.slot found (slot _ hslot)
      · exact linked.slot found' hslot
    unreleased := fun ⟨found', hopen⟩ => by
      rcases getElem?_set_cases found' with ⟨rfl, rfl⟩ | ⟨hb, found'⟩
      · exact unreleased hopen
      · exact (linked.unreleased ⟨found', hopen⟩).imp_right (others _ hb) }

theorem setDropped (linked : Linked due hub) {a : Nat} {av : AvSession β}
    (found : hub.avs[a]? = some av) : Linked due (hub.setAv a { av with dropped := true }) := by
  have hunreleased (hopen : av.released = false) := linked.unreleased ⟨found, hopen⟩
  exact linked.setAv found rfl (fun _ h => h) hunreleased fun _ _ h => h

theorem setBackend (linked : Linked due hub) {a : Nat} {av : AvSession β}
    (opened : hub.AvOpen a av) (backend : Backend β) :
    Linked due (hub.setAv a { av with backend }) := by
  have hunreleased := linked.unreleased opened
  exact linked.setAv opened.1 rfl (fun _ h => h) (fun _ => hunreleased) fun _ _ h => h

theorem register (linked : Linked due hub) {core : CoreSession β} {table : SlotTable Registration}
    (opened : hub.CoreOpen i core table) (callback : Callback) :
    Linked due (hub.register core table i callback) :=
  linked.transfer rfl rfl (Nat.le_succ _)
    (fun found hslot => (linked.slot found hslot).register opened callback)
    (fun member => (linked.handle member).register opened callback)
    fun hopen => hopen.setCore opened.1 fun _ => rfl

theorem addHandle (linked : Linked due hub) {handle : Handle} (name : String)
    (lt : handle.registration < hub.registrations)
    (new : ∀ entry ∈ hub.handles, entry.2.registration ≠ handle.registration)
    (holds : hub.Holds handle.issuer handle.slot handle.Means) :
    Linked due { hub with handles := rename name handle hub.handles } :=
  { linked with
    handle := fun member => by
      rcases List.mem_cons.mp member with same | member
      · obtain ⟨-, rfl⟩ := Prod.mk.inj same
        exact holds
      · exact linked.handle (List.mem_filter.mp member).1
    distinct := by
      refine List.nodup_cons.mpr ⟨fun member => ?_, ?_⟩
      · obtain ⟨entry, kept, same⟩ := List.mem_map.mp member
        exact new entry (List.mem_filter.mp kept).1 same
      · exact linked.distinct.sublist (List.filter_sublist.map _)
    handle_lt := fun entry member => by
      rcases List.mem_cons.mp member with rfl | member
      · exact lt
      · exact linked.handle_lt entry (List.mem_filter.mp member).1 }

theorem useHandle (linked : Linked due hub) {name : String} {handle : Handle}
    (held : hub.handles.lookup name = some handle) :
    Linked due ({ hub with handles := forget name hub.handles }.removeSlot
      handle.issuer handle.slot) := by
  have hmember := mem_of_lookup held
  have hforget : Linked due { hub with handles := forget name hub.handles } :=
    { linked with
      handle := fun member => linked.handle (List.mem_filter.mp member).1
      distinct := linked.distinct.sublist (List.filter_sublist.map _)
      handle_lt := fun entry member => linked.handle_lt entry (List.mem_filter.mp member).1 }
  refine hforget.removeSlot (linked.handle hmember) ?_ ?_
  · rintro a av - - r hrelease ⟨-, huser⟩
    rw [hrelease] at huser
    exact huser
  · rintro entry member r ⟨hid, -⟩ ⟨hid', -⟩
    obtain ⟨hentry, hname⟩ := List.mem_filter.mp member
    have hsame := List.inj_on_of_nodup_map linked.distinct hentry hmember (hid.symm.trans hid')
    simp [hsame] at hname

theorem appendCore (linked : Linked due hub) {left : Hub β} (cores : List (CoreSession β))
    (appended : left.cores = hub.cores ++ cores) (avs : left.avs = hub.avs)
    (handles : left.handles = hub.handles)
    (registrations : left.registrations = hub.registrations) :
    Linked due left :=
  linked.transfer avs handles (Nat.le_of_eq registrations.symm)
    (fun found hslot => (linked.slot found hslot).append cores appended)
    (fun member => (linked.handle member).append cores appended)
    fun hopen => hopen.append cores appended

theorem appendAv (linked : Linked due hub) {left : Hub β} {av : AvSession β}
    (cores : left.cores = hub.cores) (avs : left.avs = hub.avs ++ [av])
    (handles : left.handles = hub.handles) (registrations : left.registrations = hub.registrations)
    (slot : ∀ s, av.slot = some s →
      hub.Holds av.core s fun r => r.callback = .release hub.avs.length)
    (unreleased : av.slot.isSome ∧ hub.IsOpen av.core) : Linked due left := by
  have hcores : left.cores = hub.cores ++ [] := cores.trans (List.append_nil _).symm
  exact {
    slot := fun found hslot => by
      rw [avs] at found
      rcases getElem?_concat_cases found with found | ⟨rfl, rfl⟩
      · exact (linked.slot found hslot).append [] hcores
      · exact (slot _ hslot).append [] hcores
    handle := fun member => (linked.handle (handles ▸ member)).append [] hcores
    distinct := handles ▸ linked.distinct
    handle_lt := fun entry member => registrations ▸ linked.handle_lt entry (handles ▸ member)
    unreleased := fun ⟨found, hopen⟩ => by
      rw [avs] at found
      rcases getElem?_concat_cases found with found | ⟨rfl, rfl⟩
      · exact (linked.unreleased ⟨found, hopen⟩).imp_left
          (And.imp_right fun hopen => hopen.append [] hcores)
      · exact .inl (unreleased.imp_right fun hopen => hopen.append [] hcores) }

theorem withAv (linked : Linked due hub) {core : CoreSession β} {table : SlotTable Registration}
    (opened : hub.CoreOpen i core table) (name : String) (source : β) :
    Linked due (hub.withAv name core table i source) := by
  have hregistered := linked.register opened (.release hub.avs.length)
  have hholds : (hub.register core table i (.release hub.avs.length)).Holds i table.slots.length
      fun r => r.callback = .release hub.avs.length := .registered opened rfl
  have hopen : (hub.register core table i (.release hub.avs.length)).IsOpen i :=
    IsOpen.setCore ⟨core, table, opened⟩ opened.1 fun _ => rfl
  refine hregistered.appendAv rfl rfl rfl rfl ?_ ⟨rfl, hopen⟩
  rintro _ ⟨⟩
  exact hholds

theorem addCallback (linked : Linked due hub) {core : CoreSession β}
    {table : SlotTable Registration} (opened : hub.CoreOpen i core table) (name label : String)
    (count : Nat) (reaction : Reaction Nat) :
    let left := hub.register core table i (.user label count reaction)
    Linked due { left with
      handles := rename name ⟨table.slots.length, i, hub.registrations⟩ left.handles } := by
  intro left
  have hregistered : Linked due left := linked.register opened _
  refine hregistered.addHandle name (Nat.lt_succ_self _) ?_ (.registered opened ⟨rfl, trivial⟩)
  intro entry member
  exact Nat.ne_of_lt (linked.handle_lt entry member)

def Due (registrations : List Registration) (a : Nat) : Prop :=
  ∃ r ∈ registrations, r.callback = .release a

theorem detach (linked : Linked Nobody hub) {core : CoreSession β}
    {table : SlotTable Registration} (opened : hub.CoreOpen i core table) :
    Linked (Due table.live) (hub.detach i core table) := by
  have hholds {j s : Nat} {P : Registration → Prop} (holds : hub.Holds j s P) :
      (hub.setCore i { core with onClose := none }).Holds j s P :=
    holds.setCore opened.1 (by simp)
  exact {
    slot := fun found hslot => hholds (linked.slot found hslot)
    handle := fun member => hholds (linked.handle member)
    distinct := linked.distinct
    handle_lt := linked.handle_lt
    unreleased := fun {a av} hav => by
      obtain ⟨hslot, hopen⟩ := (linked.unreleased hav).resolve_right id
      by_cases hcore : av.core = i
      · obtain ⟨s, hslot⟩ := Option.isSome_iff_exists.mp hslot
        obtain ⟨r, member, hr⟩ := (linked.slot hav.1 hslot).2 core table (hcore ▸ opened)
        refine .inr ⟨r, ?_, hr⟩
        rw [SlotTable.live_eq]
        exact List.mem_map_of_mem member
      · exact .inl ⟨hslot, hopen.setCore opened.1 fun same => absurd same hcore⟩ }

theorem setSource (linked : Linked due hub) {core core' : CoreSession β}
    (found : hub.cores[i]? = some core) (same : core'.onClose = core.onClose) :
    Linked due (hub.setCore i core') := by
  have hholds {j s : Nat} {P : Registration → Prop} (holds : hub.Holds j s P) :
      (hub.setCore i core').Holds j s P :=
    holds.setCore found fun table' htable' => ⟨table', same ▸ htable', fun _ member _ _ => member⟩
  refine linked.transfer rfl rfl (Nat.le_refl _)
    (fun found hslot => hholds (linked.slot found hslot))
    (fun member => hholds (linked.handle member)) fun {j} hopen => hopen.setCore found ?_
  rintro rfl
  obtain ⟨session, table, found', htable⟩ := hopen
  obtain rfl := Option.some.inj (found.symm.trans found')
  rw [same, htable]
  rfl

variable [Source β]

theorem releaseAv (linked : Linked due hub) (a : Nat) {due' : Nat → Prop}
    (others : ∀ b, b ≠ a → due b → due' b) : Linked due' (hub.releaseAv a) := by
  rcases hub.av_cases a with ⟨av, opened⟩ | shut
  · have hset : Linked due'
        (hub.setAv a { av with backend := drained av.backend, released := true }) :=
      linked.setAv opened.1 rfl (fun _ h => h) (by simp) others
    rw [releaseAv_of_open opened]
    exact { hset with }
  · rw [releaseAv_of_shut shut]
    refine linked.weaken fun {b av} opened hdue => others b ?_ hdue
    rintro rfl
    have hreleased := opened.2
    rw [shut av opened.1] at hreleased
    cases hreleased

theorem closeAv (linked : Linked due hub) (a : Nat) : Linked due (hub.closeAv a) := by
  rcases hub.closeAv_cases a with hclose | ⟨av, s, found, hslot, hclose⟩
  · rw [hclose]
    exact linked.releaseAv a fun _ _ h => h
  · have hset : Linked (fun b => b = a ∨ due b) (hub.setAv a { av with slot := none }) :=
      linked.setAv found rfl (by simp) (fun _ => .inr (.inl rfl)) fun _ _ => .inr
    have hremoved : Linked (fun b => b = a ∨ due b)
        ((hub.setAv a { av with slot := none }).removeSlot av.core s) := by
      refine hset.removeSlot (linked.slot found hslot) ?_ ?_
      · intro b av' found' hsome r hrelease hrelease'
        rcases getElem?_set_cases found' with ⟨-, rfl⟩ | ⟨hb, -⟩
        · cases hsome
        · exact hb (Callback.release.inj (hrelease.symm.trans hrelease'))
      · rintro entry - r ⟨-, huser⟩ hrelease
        rw [hrelease] at huser
        exact huser
    rw [hclose]
    exact hremoved.releaseAv a fun b hb h => h.resolve_left hb

theorem dropAv (linked : Linked due hub) (a : Nat) : Linked due (hub.dropAv a) := by
  rcases hub.dropAv_cases a with hdrop | ⟨av, found, hdrop⟩
  · rw [hdrop]
    exact linked.closeAv a
  · rw [hdrop]
    exact (linked.setDropped found).closeAv a

theorem react (linked : Linked due hub) (reaction : Reaction Nat) :
    Linked due (hub.react reaction) := by
  refine react_of ?_ ?_ reaction linked
  · intro hub a linked
    exact linked.closeAv a
  · intro hub a linked
    exact linked.dropAv a

theorem call {r : Registration} {rs : List Registration} (linked : Linked (Due (r :: rs)) hub) :
    Linked (Due rs) (hub.call r).2 := by
  cases hcallback : r.callback with
  | release a =>
    have hinvoked : Linked (Due (r :: rs)) { hub with invoked := hub.invoked.push r.id } :=
      { linked with }
    rw [call_of_release hcallback]
    refine hinvoked.releaseAv a ?_
    rintro b hb ⟨r', member, hrelease⟩
    rcases List.mem_cons.mp member with rfl | member
    · exact absurd (Callback.release.inj (hrelease.symm.trans hcallback)) hb
    · exact ⟨r', member, hrelease⟩
  | user label count reaction =>
    have hweaker : Linked (Due rs) hub := by
      refine linked.weaken ?_
      rintro a av - ⟨r', member, hrelease⟩
      rcases List.mem_cons.mp member with rfl | member
      · rw [hcallback] at hrelease
        cases hrelease
      · exact ⟨r', member, hrelease⟩
    have hran : Linked (Due rs)
        (Hub.witness (.ran label (count + 1)) { hub with invoked := hub.invoked.push r.id }) :=
      { hweaker with }
    rw [call_of_user hcallback]
    exact hran.react reaction

theorem callEach {rs : List Registration} (linked : Linked (Due rs) hub) :
    Linked Nobody (hub.callEach rs) := by
  induction rs generalizing hub with
  | nil => exact linked.weaken fun _ ⟨r, member, _⟩ => by cases member
  | cons r rs ih => exact ih linked.call

theorem closeCore (linked : Linked Nobody hub) (i : Nat) :
    Linked Nobody (hub.closeCore i) := by
  rcases hub.core_cases i with ⟨core, table, opened⟩ | shut
  · obtain ⟨core', found, -, closed⟩ := Keeps.closing opened table.live
    have hcalled := (linked.detach opened).callEach
    have hset : Linked Nobody
        (((hub.detach i core table).callEach table.live).setCore i ⟨drained core.backend, none⟩) :=
      hcalled.setSource found closed.symm
    rw [closeCore_of_open opened]
    exact { hset with }
  · rw [closeCore_of_shut shut]
    exact linked

theorem openCore (linked : Linked Nobody hub) (name : String) (source : β) :
    Linked Nobody (hub.openCore name source) := by
  have hnew : Linked Nobody (hub.withCore name source) :=
    linked.appendCore _ rfl rfl rfl rfl
  rw [openCore_eq]
  cases hub.core? name with
  | none => exact hnew
  | some old => exact hnew.closeCore old

theorem openAv (linked : Linked due hub) (name : String) (i : Nat) (source : β) :
    Linked due (hub.openAv name i source).2 := by
  rcases hub.core_cases i with ⟨core, table, opened⟩ | shut
  · rw [openAv_of_open opened]
    cases hub.av? name with
    | none => exact linked.withAv opened name source
    | some old => exact (linked.withAv opened name source).dropAv old
  · rw [openAv_of_shut shut]
    exact { linked with }

theorem tickCore (linked : Linked due hub) (i : Nat) : Linked due (hub.tickCore i).2 := by
  rcases hub.core_cases i with ⟨core, table, opened⟩ | shut
  · have hset : Linked due (hub.setCore i { core with backend := ticked core.backend }) :=
      linked.setSource opened.1 rfl
    rw [tickCore_of_open opened]
    exact { hset with }
  · rw [tickCore_of_shut shut]
    exact linked

theorem tickAv (linked : Linked due hub) (a : Nat) : Linked due (hub.tickAv a).2 := by
  rcases hub.av_cases a with ⟨av, opened⟩ | shut
  · have hset := linked.setBackend opened (ticked av.backend)
    rw [tickAv_of_open opened]
    exact { hset with }
  · rw [tickAv_of_shut shut]
    exact linked

theorem changeCall (linked : Linked due hub) (a : Nat) (friend : FriendNumber)
    (flags : CallFlags) : Linked due (hub.changeCall a friend flags).2 := by
  rcases hub.av_cases a with ⟨av, opened⟩ | shut
  · have hset := linked.setBackend opened { av.backend with
      source := (Source.changeCall friend flags.mask av.backend.source).2 }
    rw [changeCall_of_open opened]
    exact { hset with }
  · rw [changeCall_of_shut shut]
    exact linked

theorem move {fair : Prop} {left : Hub β} (linked : Linked Nobody hub) (isFair : fair)
    (move : hub.Move fair left) : Linked Nobody left := by
  cases move with
  | stay => exact linked
  | openCore name source => exact linked.openCore name source
  | openAv name i source => exact linked.openAv name i source
  | tickCore i log => exact { linked.tickCore i with }
  | tickAv a log => exact { linked.tickAv a with }
  | closeCore coreNames i =>
    have hnames : Linked Nobody { hub with coreNames } := { linked with }
    exact hnames.closeCore i
  | closeAv a => exact linked.closeAv a
  | dropAv a => exact linked.dropAv a
  | @addCallback left handle i label reaction added =>
    rcases hub.core_cases i with ⟨core, table, opened⟩ | shut
    · rw [addCallback_of_open opened] at added
      obtain ⟨hhandle, rfl⟩ := Prod.mk.inj added
      obtain rfl := Except.ok.inj hhandle
      exact { linked.addCallback opened label label 0 reaction with }
    · rw [addCallback_of_shut shut] at added
      cases added
  | @removeCallback handle i label held issued =>
    obtain rfl := issued isFair
    exact linked.useHandle held
  | changeCall a friend flags => exact linked.changeCall a friend flags

end Linked

end Hub

end ToxEvents
