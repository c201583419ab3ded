import ToxEvents.Proofs.Delivery.Planes
set_option autoImplicit false

namespace ToxEvents
open Wire

namespace Samples

def upper (sample : Int16) : UInt8 := (sample.toUInt16 / 256).toUInt8

def lower (sample : Int16) : UInt8 := sample.toUInt16.toUInt8

def toBytes (samples : List Int16) : Bytes :=
  samples.flatMap fun sample => [upper sample, lower sample]

def signed (high low : UInt8) : Int :=
  if high < 0x80 then high.toNat * 256 + low.toNat else high.toNat * 256 + low.toNat - 0x10000

section
variable (high low : UInt8) (sample : Int16)

theorem toNat_ofPair : (ofPair high low).toUInt16.toNat = high.toNat * 256 + low.toNat := by
  have hhigh := high.toNat_lt
  have hlow := low.toNat_lt
  change (high.toUInt16 * 256 + low.toUInt16).toNat = _
  rw [UInt16.toNat_add, UInt16.toNat_mul, UInt8.toNat_toUInt16, UInt8.toNat_toUInt16]
  change (high.toNat * 256 % 2 ^ 16 + low.toNat) % 2 ^ 16 = _
  omega

theorem toInt_ofPair : (ofPair high low).toInt = signed high low := by
  have hnat : (ofPair high low).toBitVec.toNat = high.toNat * 256 + low.toNat :=
    toNat_ofPair high low
  have hhalf : high < 0x80 ↔ high.toNat < 0x80 := UInt8.lt_iff_toNat_lt
  have hlow := low.toNat_lt
  change (ofPair high low).toBitVec.toInt = _
  rw [BitVec.toInt_eq_toNat_cond, hnat]
  simp only [signed, hhalf]
  split <;> split <;> omega

theorem upper_ofPair : upper (ofPair high low) = high := by
  have hhigh := high.toNat_lt
  have hlow := low.toNat_lt
  apply UInt8.toNat_inj.mp
  rw [upper, UInt16.toNat_toUInt8, UInt16.toNat_div, toNat_ofPair]
  change (high.toNat * 256 + low.toNat) / 256 % 256 = _
  omega

theorem lower_ofPair : lower (ofPair high low) = low := by
  have hlow := low.toNat_lt
  apply UInt8.toNat_inj.mp
  rw [lower, UInt16.toNat_toUInt8, toNat_ofPair]
  omega

theorem ofPair_bytes : ofPair (upper sample) (lower sample) = sample := by
  have hlt := sample.toUInt16.toNat_lt
  have hnat : (ofPair (upper sample) (lower sample)).toUInt16.toNat = sample.toUInt16.toNat := by
    rw [toNat_ofPair, upper, lower, UInt16.toNat_toUInt8, UInt16.toNat_toUInt8, UInt16.toNat_div]
    change sample.toUInt16.toNat / 256 % 256 * 256 + _ = _
    omega
  exact Int16.toBitVec_inj.mp (congrArg UInt16.toBitVec (UInt16.toNat_inj.mp hnat))

end

theorem toBytes_cons (sample : Int16) (samples : List Int16) :
    toBytes (sample :: samples) = upper sample :: lower sample :: toBytes samples := rfl

theorem length_toBytes (samples : List Int16) : (toBytes samples).length = 2 * samples.length := by
  induction samples with
  | nil => rfl
  | cons sample samples ih => simp only [toBytes_cons, List.length_cons, ih]; omega

theorem pairs_toBytes (samples : List Int16) : pairs (toBytes samples) = samples := by
  induction samples with
  | nil => rfl
  | cons sample samples ih => rw [toBytes_cons, pairs, ofPair_bytes, ih]

theorem toBytes_pairs {bytes : Bytes} (even : bytes.length % 2 = 0) :
    toBytes (pairs bytes) = bytes := by
  fun_induction pairs bytes with
  | case1 high low rest ih =>
    have hrest : rest.length % 2 = 0 := by
      simp only [List.length_cons] at even
      omega
    rw [toBytes_cons, upper_ofPair, lower_ofPair, ih hrest]
  | case2 bytes short =>
    cases bytes with
    | nil => rfl
    | cons high bytes =>
      cases bytes with
      | nil => cases even
      | cons low rest => exact (short high low rest rfl).elim

theorem ofBytes_eq_ok_iff {bytes : Bytes} {samples : List Int16} :
    ofBytes bytes = .ok samples ↔ toBytes samples = bytes := by
  unfold ofBytes
  constructor
  · intro read
    split at read
    case isTrue even =>
      cases read
      exact toBytes_pairs even
    case isFalse => cases read
  · rintro rfl
    rw [if_pos (by rw [length_toBytes]; omega), pairs_toBytes]

example : ofBytes [0x00, 0x01, 0xFF, 0xFE, 0x80, 0x00] = .ok [1, -2, -32768] := by decide

theorem ofBytes_of_odd {bytes : Bytes} (odd : bytes.length % 2 = 1) :
    ofBytes bytes = .error (.oddSamples bytes.length) := if_neg (by omega)

theorem toBytes_getElem? {samples : List Int16} {i : Nat} {high low : UInt8}
    (first : (toBytes samples)[2 * i]? = some high)
    (second : (toBytes samples)[2 * i + 1]? = some low) : samples[i]? = some (ofPair high low) := by
  induction samples generalizing i with
  | nil => cases first
  | cons sample samples ih =>
    cases i with
    | zero =>
      obtain rfl : upper sample = high := Option.some.inj first
      obtain rfl : lower sample = low := Option.some.inj second
      exact congrArg some (ofPair_bytes sample).symm
    | succ i => exact ih first second

structure Spelled (bytes : Bytes) (samples : List Int16) : Prop where
  count : samples.length = bytes.length / 2
  value : ∀ {i high low}, bytes[2 * i]? = some high → bytes[2 * i + 1]? = some low →
    ∃ sample, samples[i]? = some sample ∧ sample.toInt = signed high low
  written : toBytes samples = bytes

theorem spelled_of_ofBytes {bytes : Bytes} {samples : List Int16}
    (read : ofBytes bytes = .ok samples) : Spelled bytes samples := by
  obtain rfl := ofBytes_eq_ok_iff.mp read
  refine ⟨?_, fun first second => ?_, rfl⟩
  · rw [length_toBytes]
    omega
  · exact ⟨_, toBytes_getElem? first second, toInt_ofPair _ _⟩

end Samples

section
variable {lam σ : Type} {listener : AvListener lam σ} {frame : Raw.AudioFrame}
  {entries : List (Entry AvCategory)} {calls : List (Invocation AvEvent σ)}
  {result : Except Rejection σ} {k : Nat}

def Raw.AudioFrame.event (frame : Raw.AudioFrame) (samples : List Int16) : AvEvent :=
  .audioFrame ⟨frame.friend⟩ samples ⟨frame.channels⟩ ⟨frame.rate⟩

/-- What becomes of the sound in a batch: a pass comes to the record at a place if all records
before it have been calls. -/
structure Sounded (entries : List (Entry AvCategory)) (calls : List (Invocation AvEvent σ))
    (result : Except Rejection σ) : Prop where
  /-- A payload of whole samples that the pass comes to is heard. -/
  heard : ∀ {k : Nat} {frame : Raw.AudioFrame}, entries[k]? = some ⟨.audioFrame, frame⟩ →
    k ≤ calls.length → frame.pcm.length % 2 = 0 →
      ∃ call samples, calls[k]? = some call ∧ call.event = frame.event samples ∧
        Samples.Spelled frame.pcm samples
  unchanged : ∀ {k : Nat} {frame : Raw.AudioFrame} {samples : List Int16},
    entries[k]? = some ⟨.audioFrame, frame⟩ → k ≤ calls.length →
    frame.pcm = Samples.toBytes samples →
      ∃ call, calls[k]? = some call ∧ call.event = frame.event samples
  /-- Nothing is heard but the sound of the record in its place. -/
  own : ∀ {k : Nat} {call : Invocation AvEvent σ}, calls[k]? = some call →
    call.event.category = .audioFrame → ∃ (frame : Raw.AudioFrame) (samples : List Int16),
      entries[k]? = some ⟨.audioFrame, frame⟩ ∧ call.event = frame.event samples ∧
        Samples.Spelled frame.pcm samples
  /-- A payload with a byte too many is not heard, and the pass ends with it or before it. -/
  odd : ∀ {k : Nat} {frame : Raw.AudioFrame}, entries[k]? = some ⟨.audioFrame, frame⟩ →
    frame.pcm.length % 2 = 1 →
    calls.length ≤ k ∧ (∃ rejection, result = .error rejection) ∧
      (calls.length = k → result = .error (.oddSamples frame.pcm.length))

theorem AvListener.translate_audioFrame (listener : AvListener lam σ) (frame : Raw.AudioFrame)
    (before : lam) :
    (listener.handler.translate ⟨.audioFrame, frame⟩).run before =
      (AvEvent.ofRecord none .audioFrame frame, before) := rfl

theorem AvEvent.ofRecord_audioFrame_eq_ok_iff {event : AvEvent} :
    ofRecord none .audioFrame frame = .ok event ↔
      ∃ samples, Samples.ofBytes frame.pcm = .ok samples ∧ event = frame.event samples :=
  return_eq_ok_iff

theorem Handler.Told.of_audioFrame (told : Told listener.handler entries calls result)
    (found : entries[k]? = some ⟨.audioFrame, frame⟩) :
    (∀ call, calls[k]? = some call →
      ∃ samples, Samples.ofBytes frame.pcm = .ok samples ∧ call.event = frame.event samples) ∧
    (calls.length = k → ∃ rejection, result = .error rejection ∧
      Samples.ofBytes frame.pcm = .error rejection) := by
  constructor
  · intro call hcall
    obtain ⟨entry, before, mid, hentry, htranslate⟩ := told.made hcall
    cases found.symm.trans hentry
    rw [listener.translate_audioFrame] at htranslate
    exact AvEvent.ofRecord_audioFrame_eq_ok_iff.mp (congrArg Prod.fst htranslate)
  · rintro rfl
    cases result with
    | ok last =>
      have hlt := (List.getElem?_eq_some_iff.mp found).1
      exact absurd (told.whole rfl) (Nat.ne_of_lt hlt)
    | error rejection =>
      obtain ⟨entry, before, left, hentry, htranslate⟩ := told.stopped rfl
      cases found.symm.trans hentry
      rw [listener.translate_audioFrame] at htranslate
      exact ⟨rejection, rfl, return_eq_error (congrArg Prod.fst htranslate)⟩

theorem Handler.Told.heard (told : Told listener.handler entries calls result)
    (found : entries[k]? = some ⟨.audioFrame, frame⟩) (reached : k ≤ calls.length)
    {samples : List Int16} (read : Samples.ofBytes frame.pcm = .ok samples) :
    ∃ call, calls[k]? = some call ∧ call.event = frame.event samples := by
  obtain ⟨hcalls, hended⟩ := told.of_audioFrame found
  rcases Nat.lt_or_eq_of_le reached with hlt | heq
  · obtain ⟨samples', hread, hevent⟩ := hcalls _ (List.getElem?_eq_getElem hlt)
    cases read.symm.trans hread
    exact ⟨_, List.getElem?_eq_getElem hlt, hevent⟩
  · obtain ⟨rejection, -, hfailed⟩ := hended heq.symm
    cases read.symm.trans hfailed

theorem Handler.Told.sounded (told : Told listener.handler entries calls result) :
    Sounded entries calls result where
  heard found reached even := by
    have read : Samples.ofBytes _ = .ok (Samples.pairs _) := if_pos even
    obtain ⟨call, hcall, hevent⟩ := told.heard found reached read
    exact ⟨call, _, hcall, hevent, Samples.spelled_of_ofBytes read⟩
  unchanged found reached written :=
    told.heard found reached (Samples.ofBytes_eq_ok_iff.mpr written.symm)
  own {k call} hcall category := by
    obtain ⟨⟨c, record⟩, before, mid, hentry, htranslate⟩ := told.made hcall
    obtain rfl : c = .audioFrame := (listener.handler.own htranslate).symm.trans category
    obtain ⟨samples, read, hevent⟩ := (told.of_audioFrame hentry).1 call hcall
    exact ⟨record, samples, hentry, hevent, Samples.spelled_of_ofBytes read⟩
  odd {k frame} found odd := by
    have refused := Samples.ofBytes_of_odd odd
    obtain ⟨hcalls, hended⟩ := told.of_audioFrame found
    have hlength : calls.length ≤ k := by
      by_contra reached
      obtain ⟨samples, read, -⟩ := hcalls _ (List.getElem?_eq_getElem (Nat.not_le.mp reached))
      cases refused.symm.trans read
    refine ⟨hlength, ?_, fun ended => ?_⟩
    · cases result with
      | ok last =>
        have hlt := (List.getElem?_eq_some_iff.mp found).1
        have hwhole := told.whole rfl
        omega
      | error rejection => exact ⟨rejection, rfl⟩
    · obtain ⟨rejection, hresult, hfailed⟩ := hended ended
      cases refused.symm.trans hfailed
      exact hresult

end

/-- Whatever a listener does, it hears the sound of a batch as it was sent. -/
theorem AvListener.samples_kept {lam σ : Type} (listener : AvListener lam σ) {bytes : Bytes}
    {batch : AvBatch} (decoded : Batch.decode AvCategory bytes = .ok batch) (state : σ)
    (stage : Stage lam) :
    let ended := (listener.receive (some bytes) state).outcome stage
    ∃ calls, (listener.traced.receive (some bytes) state).outcome
        ⟨⟨stage.listener, []⟩, stage.log⟩ = (ended.1, ⟨ended.2, calls⟩) ∧
      Sounded batch.toEntries calls ended.1 := by
  intro ended
  obtain ⟨calls, htraced, told⟩ := (Handler.singleFold_of_does listener.traces
    (listener.does_receive decoded state) (listener.traced.does_receive decoded state) stage).told
  exact ⟨calls, htraced, told.sounded⟩

/-- Two negative samples, a payload of three bytes, and a frame that is not delivered any more. -/
theorem AvListener.samples_kept_odd :
    let heard : Raw.AudioFrame :=
      { friend := 1, pcm := [0xFF, 0xFE, 0x80, 0x00], channels := 2, rate := 48000 }
    let batch : AvBatch := Batch.ofEntries
      [⟨.audioFrame, heard⟩, ⟨.audioFrame, { pcm := [1, 2, 3] }⟩, ⟨.videoFrame, {}⟩]
    let listener : AvListener Unit (List AvEvent) :=
      { onEvent := fun event before => pure (before ++ [event]), buffers := fun _ => pure none }
    let ended := (listener.receive (some batch.encode) []).outcome ⟨(), #[]⟩
    Batch.decode AvCategory batch.encode = .ok batch ∧ ended = (.error (.oddSamples 3), ()) ∧
      Samples.toBytes [-2, -32768] = heard.pcm ∧
      ∃ calls, (listener.traced.receive (some batch.encode) []).outcome ⟨⟨(), []⟩, #[]⟩ =
          (ended.1, ⟨ended.2, calls⟩) ∧
        calls.map (·.event) = [heard.event [-2, -32768]] ∧
        Sounded batch.toEntries calls ended.1 := by
  intro heard batch listener ended
  have decoded : Batch.decode AvCategory batch.encode = .ok batch :=
    Batch.decode_encode AvCategory.lawful batch (by decide +kernel)
  have hended : ended = (.error (.oddSamples 3), ()) := by decide +kernel
  obtain ⟨calls, htraced, sounded⟩ := listener.samples_kept decoded [] ⟨(), #[]⟩
  change (listener.traced.receive (some batch.encode) []).outcome ⟨⟨(), []⟩, #[]⟩ = _ at htraced
  refine ⟨decoded, hended, by decide, calls, htraced, ?_, sounded⟩
  have hcalls : ((listener.traced.receive (some batch.encode) []).outcome
      ⟨⟨(), []⟩, #[]⟩).2.calls.map (·.event) = [heard.event [-2, -32768]] := by decide +kernel
  rw [htraced] at hcalls
  exact hcalls

end ToxEvents
