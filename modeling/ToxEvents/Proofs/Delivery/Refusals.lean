import ToxEvents.Proofs.Delivery.SingleFold
set_option autoImplicit false

namespace ToxEvents
open Wire

section
variable {ε σ α β : Type} {e : ε}

theorem foldlM_eq_error {step : σ → α → Except ε σ} {xs : List α} {state : σ}
    (failed : xs.foldlM step state = .error e) :
    ∃ before x after reached, xs = before ++ x :: after ∧
      before.foldlM step state = .ok reached ∧ step reached x = .error e := by
  induction xs generalizing state with
  | nil => cases failed
  | cons x xs ih =>
    rw [List.foldlM_cons] at failed
    cases hstep : step state x with
    | error e' =>
      rw [hstep] at failed
      cases failed
      exact ⟨[], x, xs, state, rfl, rfl, hstep⟩
    | ok next =>
      rw [hstep] at failed
      obtain ⟨before, y, after, reached, rfl, hbefore, hfails⟩ := ih failed
      refine ⟨x :: before, y, after, reached, rfl, ?_, hfails⟩
      rw [List.foldlM_cons, hstep]
      exact hbefore

theorem bind_eq_ok {first : Except ε α} {next : α → Except ε β} {b : β}
    (ended : first >>= next = .ok b) : ∃ a, first = .ok a ∧ next a = .ok b := by
  cases first with
  | error e => cases ended
  | ok a => exact ⟨a, rfl, ended⟩

theorem bind_eq_error {first : Except ε α} {next : α → Except ε β}
    (failed : first >>= next = .error e) :
    first = .error e ∨ ∃ a, first = .ok a ∧ next a = .error e := by
  cases first with
  | error e' => exact .inl (congrArg Except.error (Except.error.inj failed))
  | ok a => exact .inr ⟨a, rfl, failed⟩

theorem return_eq_error {first : Except ε α} {f : α → β}
    (failed : (do return f (← first) : Except ε β) = .error e) : first = .error e := by
  rcases bind_eq_error failed with hfirst | ⟨a, -, hreturn⟩
  · exact hfirst
  · cases hreturn

end

/-- The reasons that lie in a value of a record. -/
inductive Rejection.OfValue : Rejection → Prop
  | enumerator (title : String) (code : Int32) : OfValue (.unknownEnumerator title code)
  | key (expected actual : Nat) : OfValue (.keyLength expected actual)
  | samples (bytes : Nat) : OfValue (.oddSamples bytes)

def Rejection.IsShort (rejection : Rejection) : Prop :=
  ∃ plane required available, rejection = .planeTooSmall plane required available

variable {rejection : Rejection}

theorem Rejection.OfValue.not_isShort (own : rejection.OfValue) : ¬ rejection.IsShort := by
  rintro ⟨plane, required, available, rfl⟩
  cases own

theorem Enumeration.ofCode_error {ε : Type} [Enumeration ε] {code : Int32}
    (failed : (ofCode code : Except Rejection ε) = .error rejection) : rejection.OfValue := by
  unfold ofCode at failed
  split at failed
  · cases failed
  · cases failed
    exact .enumerator _ _

theorem CallFlags.ofCodes_error {codes : List Int32} (failed : ofCodes codes = .error rejection) :
    rejection.OfValue := by
  obtain ⟨_, code, _, _, -, -, hcode⟩ := foldlM_eq_error failed
  exact Enumeration.ofCode_error (return_eq_error hcode)

theorem CoreEvent.publicKey_error {bytes : Bytes} (failed : publicKey bytes = .error rejection) :
    rejection.OfValue := by
  unfold publicKey at failed
  split at failed
  · cases failed
  · cases failed
    exact .key _ _

theorem Samples.ofBytes_error {bytes : Bytes} (failed : ofBytes bytes = .error rejection) :
    rejection.OfValue := by
  unfold ofBytes at failed
  split at failed
  · cases failed
  · cases failed
    exact .samples _

theorem FrameBuffers.overwrite_eq_error_iff {plane : Plane} {source target : Bytes} :
    overwrite plane source target = .error rejection ↔ target.length < source.length ∧
      rejection = .planeTooSmall plane source.length target.length := by
  unfold overwrite
  by_cases short : target.length < source.length
  · rw [if_pos short, Except.error.injEq, and_iff_right short, eq_comm]
  · rw [if_neg short]
    exact iff_of_false nofun fun room => short room.1

theorem FrameBuffers.fill_error {offered : Option FrameBuffers} {wire : FrameBuffers}
    (failed : fill offered wire = .error rejection) : offered ≠ none ∧ rejection.IsShort := by
  cases offered with
  | none => cases failed
  | some buffers =>
    refine ⟨nofun, ?_⟩
    rcases bind_eq_error failed with hy | ⟨y, -, hrest⟩
    · exact ⟨_, _, _, (overwrite_eq_error_iff.mp hy).2⟩
    · rcases bind_eq_error hrest with hu | ⟨u, -, hrest⟩
      · exact ⟨_, _, _, (overwrite_eq_error_iff.mp hu).2⟩
      · exact ⟨_, _, _, (overwrite_eq_error_iff.mp (return_eq_error hrest)).2⟩

theorem CoreEvent.ofRecord_error {c : CoreCategory} {record : c.Rec}
    (failed : ofRecord c record = .error rejection) : rejection.OfValue := by
  cases c
  case selfConnectionStatus | friendStatus | friendConnectionStatus | friendMessage |
      fileControl =>
    exact Enumeration.ofCode_error (return_eq_error failed)
  case friendRequest => exact publicKey_error (return_eq_error failed)
  all_goals cases failed

theorem AvEvent.ofRecord_error {offered : Option FrameBuffers} {c : AvCategory} {record : c.Rec}
    (failed : ofRecord offered c record = .error rejection) :
    rejection.OfValue ∨ offered ≠ none ∧ rejection.IsShort := by
  cases c
  case callState => exact .inl (CallFlags.ofCodes_error (return_eq_error failed))
  case audioFrame => exact .inl (Samples.ofBytes_error (return_eq_error failed))
  case videoFrame => exact .inr (FrameBuffers.fill_error (return_eq_error failed))
  all_goals cases failed

theorem Handler.foldlM_error {C ε lam σ : Type} [DecidableEq C] [Surface C]
    {h : Handler C ε lam σ} {entries : List (Entry C)} {state : σ} {before left : lam}
    (failed : (entries.foldlM h.step state).run before = (.error rejection, left)) :
    ∃ entry ∈ entries, ∃ mid left, (h.translate entry).run mid = (.error rejection, left) := by
  obtain ⟨k, entry, reached, mid, found, -, hfails⟩ := exists_failsAt failed
  exact ⟨entry, List.mem_of_getElem? found, mid, left, translate_of_step_error hfails⟩

variable {lam σ : Type} {before left : lam} {state : σ}

theorem CoreListener.foldlM_error {listener : CoreListener lam σ}
    {entries : List (Entry CoreCategory)}
    (failed : (entries.foldlM listener.handler.step state).run before = (.error rejection, left)) :
    rejection.OfValue := by
  obtain ⟨entry, -, mid, left, htranslate⟩ := Handler.foldlM_error failed
  exact CoreEvent.ofRecord_error (congrArg Prod.fst htranslate)

theorem AvListener.foldlM_error {listener : AvListener lam σ} {entries : List (Entry AvCategory)}
    (failed : (entries.foldlM listener.handler.step state).run before = (.error rejection, left)) :
    rejection.OfValue ∨ rejection.IsShort := by
  obtain ⟨entry, -, mid, left, htranslate⟩ := Handler.foldlM_error failed
  have hrecord : AvEvent.ofRecord (listener.offer entry mid).1 entry.1 entry.2 =
      .error rejection := congrArg Prod.fst htranslate
  exact (AvEvent.ofRecord_error hrecord).imp_right And.right

end ToxEvents
