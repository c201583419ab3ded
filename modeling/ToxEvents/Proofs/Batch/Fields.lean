import ToxEvents.Proofs.Batch.RoundTrip
import ToxEvents.Proofs.Wire.Tokens
set_option autoImplicit false

namespace ToxEvents
open Wire

section
open Raw

theorem CoreCategory.apart (c : CoreCategory) : c.schema.Apart := by
  cases c <;> constructor <;>
    simp [CoreCategory.schema, SelfConnectionStatus.schema, FriendName.schema,
      FriendStatusMessage.schema, Raw.FriendStatus.schema, FriendConnectionStatus.schema,
      FriendTyping.schema, FriendReadReceipt.schema, FriendRequest.schema, FriendMessage.schema,
      FileControl.schema, FileChunkRequest.schema, FileOffer.schema, FileChunk.schema,
      FriendLossyPacket.schema, FriendLosslessPacket.schema]

theorem AvCategory.apart (c : AvCategory) : c.schema.Apart := by
  cases c <;> constructor <;>
    simp [AvCategory.schema, Call.schema, Raw.CallState.schema, AudioBitRate.schema,
      VideoBitRate.schema, AudioFrame.schema, VideoFrame.schema]

end

/-- In every record of both surfaces a plain field has the value of its last occurrence, and the
list that of them all, whatever stands between them. -/
theorem records_read_by_tokens :
    (∀ c : CoreCategory, c.schema.ReadsTokens) ∧ (∀ c : AvCategory, c.schema.ReadsTokens) :=
  ⟨fun c => c.apart.readsTokens (CoreCategory.lawful.schema c),
    fun c => c.apart.readsTokens (AvCategory.lawful.schema c)⟩

/-- Varints of more bytes than they need, a friend number that is overridden by one with more than
32 bits, and a list in three parts around an unknown group. -/
theorem records_read_by_tokens_sample :
    let bytes : Bytes :=
      [0x08] ++ [0x81, 0x00] ++ ([0x10] ++ [0x05] ++ ([0x4B] ++ ([0x08] ++ ([0x00] ++ [0x4C])) ++
        ([0x12] ++ ([0x8B, 0x00] ++ ([0x07] ++
            [0xFF, 0xFF, 0xFF, 0xFF, 0xFF, 0xFF, 0xFF, 0xFF, 0xFF, 0x01])) ++
          ([0x08] ++ [0x83, 0x80, 0x80, 0x80, 0x10] ++ ([0x90, 0x00] ++ [0x06] ++ [])))))
    let tokens : List Token := [⟨1, .number 1⟩, ⟨2, .number 5⟩,
      ⟨2, .packed [7, 0xFFFFFFFFFFFFFFFF]⟩, ⟨1, .number 0x100000003⟩, ⟨2, .number 6⟩]
    AvCategory.callState.schema.Spells Key.depthLimit bytes tokens ∧
      AvCategory.callState.schema.decode bytes = .ok ⟨3, [5, 7, -1, 6]⟩ := by
  intro bytes tokens
  have hread {α : Type} {reader : Reader α} {form : Bytes → α → Prop}
      (recognizes : reader.Recognizes form) {bytes : Bytes} {x : α}
      (found : reader (.ofBytes bytes) = .ok (x, .ofBytes [])) : form bytes x := by
    obtain ⟨front, split, formed⟩ := (recognizes _ _ _).mp found
    have hfront : bytes = front := by simpa using split
    exact hfront ▸ formed
  have hnumber {bytes : Bytes} {n : UInt64}
      (found : Varint.read (.ofBytes bytes) = .ok (n, .ofBytes [])) : Varint.Form bytes n :=
    hread Varint.recognizes_read found
  have hkey {bytes : Bytes} {key : Key}
      (found : Key.read (.ofBytes bytes) = .ok (key, .ofBytes [])) : Key.Form bytes key :=
    hread Key.recognizes_read found
  have group : Key.ValueForm Key.depthLimit ⟨9, .startGroup⟩ ([0x08] ++ ([0x00] ++ [0x4C])) :=
    .field (hkey rfl) nofun ⟨0, hnumber rfl⟩ (.close (hkey rfl))
  have friend : Key.Form [0x08] ⟨1, .varint⟩ := hkey rfl
  have element : Key.Form [0x10] ⟨2, .varint⟩ := hkey rfl
  have paddedElement : Key.Form [0x90, 0x00] ⟨2, .varint⟩ := hkey rfl
  have list : Key.Form [0x12] ⟨2, .lengthDelimited⟩ := hkey rfl
  have opening : Key.Form [0x4B] ⟨9, .startGroup⟩ := hkey rfl
  have payload : Delimits ([0x8B, 0x00] ++ ([0x07] ++
      [0xFF, 0xFF, 0xFF, 0xFF, 0xFF, 0xFF, 0xFF, 0xFF, 0xFF, 0x01])) _ :=
    ⟨_, 11, rfl, hnumber rfl, rfl⟩
  have spells : AvCategory.callState.schema.Spells Key.depthLimit bytes tokens :=
    .own friend rfl (.number nofun (hnumber rfl)) <|
    .own element rfl (.number nofun (hnumber rfl)) <|
    .unknown opening rfl group <|
    .own list rfl (.packed rfl payload (.cons (hnumber rfl) (.single (hnumber rfl)))) <|
    .own friend rfl (.number nofun (hnumber rfl)) <|
    .own paddedElement rfl (.number nofun (hnumber rfl)) .nil
  refine ⟨spells, (records_read_by_tokens.2 .callState).alone _ _ |>.mpr ⟨_, spells, ?_⟩⟩
  rintro (_ | _ | _) field found <;> cases found
  · change (3 : UInt32) = Kind.told .uint32 (contents 1 tokens)
    subst tokens
    decide +kernel
  · change ([5, 7, -1, 6] : List Int32) = Kind.told .int32s (contents 2 tokens)
    subst tokens
    decide +kernel

end ToxEvents
