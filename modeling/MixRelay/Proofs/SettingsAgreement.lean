import MixRelay.Proofs.BlockRounding
import MixRelay.Proofs.FrameStreams
import MixRelay.Proofs.ReplyRounds

/-!
# Relays with the same framing agree on lengths

Valid settings leave room for the longest request that the relay is due, headers included. A relay with
no more relays behind it is due shorter requests, so with the same framing it takes all that arrives:
the requests of the relay before it and of its clients, and the replies that the last relay cuts.
-/
namespace MixRelay

namespace PayloadFraming
variable {f g : PayloadFraming} {kind : MessageKind} {n : Nat}

/-- Requests of a fixed length are establish and message requests. -/
theorem inbound?_eq_some (h : f.inbound? kind = some n) :
    kind = .establish ∧ n = f.establishLength ∨ kind = .message ∧ n = f.messageLength := by
  cases kind with
  | establish => exact .inl ⟨rfl, (Option.some.inj h).symm⟩
  | message => exact .inr ⟨rfl, (Option.some.inj h).symm⟩
  | release | batchSize | reply => cases h

/-- A relay closer to the end is due no longer requests. -/
theorem lengths_le (hunit : f.headerUnit = g.headerUnit) (hestablish : f.establishBase = g.establishBase)
    (hmessage : f.messageBase = g.messageBase) (hhops : f.furtherHops ≤ g.furtherHops) :
    f.establishLength ≤ g.establishLength ∧ f.messageLength ≤ g.messageLength := by
  have hheaders : f.headerUnit * f.remainingHops ≤ g.headerUnit * g.remainingHops := by
    rw [hunit]
    exact Nat.mul_le_mul_left _ (Nat.succ_le_succ hhops)
  rw [establishLength, establishLength, messageLength, messageLength, hestablish, hmessage]
  exact ⟨Nat.add_le_add_left hheaders _, Nat.add_le_add_left hheaders _⟩

end PayloadFraming

theorem Frame.length_mono {m n : Nat} (h : m ≤ n) : length m ≤ length n := by
  rw [length, length]
  omega

theorem Frame.le_length_self (n : Nat) : n ≤ length n := by
  rw [length]
  omega

/-- A frame with the payload is read by whoever has the keystream and takes frames up to a length: its
head is told, and what comes behind the head is left. -/
def Frame.AcceptedUpTo (maxLength : Nat) (kind : MessageKind) (payload : Bytes) : Prop :=
  ∀ (ks : HeaderKeystream) (field : UInt32) (rest : Bytes),
    readHead maxLength ks ((encode ks ⟨kind.code, field⟩ payload).1 ++ rest) =
      ⟨.ok ⟨kind, field, Bytes.fit headPayloadLength payload, length payload.length⟩,
        payload.drop headPayloadLength ++ rest, ks.advance⟩

theorem Frame.acceptedUpTo {maxLength : Nat} (hmax : maxLength < 2 ^ 32) {payload : Bytes}
    (h : length payload.length ≤ maxLength) (kind : MessageKind) : AcceptedUpTo maxLength kind payload := by
  intro ks field rest
  rw [encode_eq, List.append_assoc]
  exact readHead_head h (Nat.lt_of_le_of_lt h hmax) _

/-- A length within the limit is not the end of a client. -/
theorem ClientStream.announced_of_le {limits : StreamLimits} {n : Nat} (h : n ≤ limits.maxFrameLength)
    (c : ClientStream) : ∃ d, c.announced limits n = .ok d ∧
      (n = limits.framing.requestLength c.channel.established → d.stage = .payload n []) := by
  rw [announced, if_neg (Nat.not_lt.2 h)]
  split
  · exact ⟨_, rfl, fun _ => rfl⟩
  · rename_i hdue
    exact ⟨_, rfl, fun heq => absurd heq hdue⟩

/-- Where a block holds the reply header and the greatest reply a block, replies of the size that is
decided on are whole blocks within the greatest reply. -/
theorem ReplySizer.decide?_blocks {q : SizingSettings} (hb : 0 < q.blockSize)
    (hheader : q.headerLength ≤ q.blockSize) (hroom : q.blockSize ≤ q.maxReplyLength)
    (volumes : List Nat) :
    ∃ size, decide? q volumes = some size ∧ q.blockSize ∣ q.headerLength + size ∧
      q.blockSize ≤ q.headerLength + size ∧ q.headerLength + size ≤ q.maxReplyLength := by
  refine ⟨_, if_neg (Nat.pos_iff_ne_zero.1 hb), ?_⟩
  rw [Sizing.header_add_alignToBlocks _ _ _ hb hheader]
  exact ⟨Nat.dvd_mul_left _ _, Sizing.le_blocks _ _ _, Sizing.blocks_le_cap _ _ _ hb hroom⟩

namespace RelaySettings
variable {s t : RelaySettings}

/-- A relay with the same framing and no more relays behind it. -/
structure Precedes (s t : RelaySettings) : Prop where
  framing : t.framing = s.framing
  furtherHops : t.cascade.furtherHops ≤ s.cascade.furtherHops

theorem largestPayload_le (h : s.Precedes t) : t.largestPayload ≤ s.largestPayload := by
  obtain ⟨hestablish, hmessage⟩ := PayloadFraming.lengths_le
    (f := t.payloadFraming) (g := s.payloadFraming) (congrArg FramingSection.headerUnit h.framing)
    (congrArg FramingSection.establishBase h.framing) (congrArg FramingSection.messageBase h.framing)
    h.furtherHops
  rw [largestPayload, largestPayload, h.framing]
  omega

theorem length_le_largestPayload {kind : MessageKind} {n : Nat}
    (h : s.payloadFraming.inbound? kind = some n) : n ≤ s.largestPayload := by
  rw [largestPayload]
  rcases PayloadFraming.inbound?_eq_some h with ⟨-, rfl⟩ | ⟨-, rfl⟩ <;> omega

/-- What the valid settings of one relay say of frames to those behind it. -/
theorem length_le_maxFrameLength (hvalid : s.validate = .ok ()) (h : s.Precedes t) {n : Nat}
    (hn : n ≤ t.largestPayload) : Frame.length n ≤ t.framing.maxFrameLength := by
  rw [h.framing]
  exact Nat.le_trans (Frame.length_mono (Nat.le_trans hn (largestPayload_le h)))
    (length_le_maxFrameLength_of_validate hvalid)

theorem blockSize_of_validate (h : s.validate = .ok ()) : s.framing.blockSize = cipherBlockSize := by
  by_contra hblock
  rw [validate, numberFault?, if_pos hblock] at h
  cases h

/-- With valid settings a reply is whole cipher blocks, one at least, within the greatest reply. -/
theorem decide?_of_validate (hvalid : s.validate = .ok ()) (hword : s.framing.maxFrameLength < 2 ^ 32)
    (weight : Float) (volumes : List Nat) :
    ∃ size, ReplySizer.decide? { s.forSizing with weight := weight } volumes = some size ∧
      16 ∣ 4 + size ∧ 16 ≤ 4 + size ∧ 4 + size ≤ s.framing.maxReplyLength := by
  obtain ⟨hheader, hroom, -⟩ := fits_of_validate hvalid hword
  have hblock : s.forSizing.blockSize = 16 := blockSize_of_validate hvalid
  have hblocks := ReplySizer.decide?_blocks (q := { s.forSizing with weight := weight })
  rw [hblock, hheader] at hblocks
  rw [hblock] at hroom
  exact hblocks (Nat.succ_pos 15) (by decide) hroom volumes

/-- What relays with the framing of a valid one send each other is accepted. A frame with a request of
the length that is due is read, on an edge and from a client, and every reply that is cut has a length
for which the same holds. -/
theorem lengths_agree (hvalid : s.validate = .ok ()) (hword : s.framing.maxFrameLength < 2 ^ 32)
    (h : s.Precedes t) :
    (∀ kind payload, t.payloadFraming.inbound? kind = some payload.length →
      Frame.AcceptedUpTo t.framing.maxFrameLength kind payload ∧
      ∀ c : ClientStream, ∃ d,
        c.announced t.forListener.limits (Bytes.toNat ((Frame.encodeClient payload).take 4)) = .ok d ∧
        (payload.length = t.payloadFraming.requestLength c.channel.established →
          d.stage = .payload payload.length [])) ∧
    ∀ (weight : Float) (volumes : List Nat),
      ∃ size, ReplySizer.decide? { s.forSizing with weight := weight } volumes = some size ∧
        16 ∣ 4 + size ∧ 16 ≤ 4 + size ∧ 4 + size ≤ s.framing.maxReplyLength ∧
        ∀ chunk valid, chunk.length = size →
          Frame.AcceptedUpTo t.framing.maxFrameLength .reply (ReplyPayload.encode chunk valid) := by
  have hmax : t.framing.maxFrameLength < 2 ^ 32 := h.framing.symm ▸ hword
  constructor
  · intro kind payload hpayload
    have hlength : Frame.length payload.length ≤ t.framing.maxFrameLength :=
      length_le_maxFrameLength hvalid h (length_le_largestPayload hpayload)
    have hle : payload.length ≤ t.framing.maxFrameLength :=
      Nat.le_trans (Frame.le_length_self _) hlength
    have hn : Bytes.toNat ((Frame.encodeClient payload).take 4) = payload.length :=
      Bytes.toNat_ofWord_of_lt (Nat.lt_of_le_of_lt hle hmax)
    rw [hn]
    exact ⟨Frame.acceptedUpTo hmax hlength kind, ClientStream.announced_of_le hle⟩
  · intro weight volumes
    obtain ⟨size, hsize, hdvd, hone, hreply⟩ := decide?_of_validate hvalid hword weight volumes
    refine ⟨size, hsize, hdvd, hone, hreply, fun chunk valid hchunk => ?_⟩
    have hlargest : (ReplyPayload.encode chunk valid).length ≤ t.largestPayload := by
      rw [ReplyPayload.length_encode, hchunk, largestPayload, h.framing]
      exact Nat.le_trans hreply (Nat.le_max_right _ _)
    exact Frame.acceptedUpTo hmax (length_le_maxFrameLength hvalid h hlargest) .reply

/-- The first and the second of three relays. -/
def firstOfThree : RelaySettings := atPosition 0 2 (some "localhost:7301")

def secondOfThree : RelaySettings := atPosition 1 1 (some "localhost:7301")

/-- The second of three relays is due messages of 544 bytes, and takes them. -/
theorem secondOfThree_takes_message :
    firstOfThree.validate = .ok () ∧ firstOfThree.framing.maxFrameLength < 2 ^ 32 ∧
    firstOfThree.Precedes secondOfThree ∧
    Frame.AcceptedUpTo secondOfThree.framing.maxFrameLength .message (List.replicate 544 0) ∧
    ∃ size, ReplySizer.decide? { firstOfThree.forSizing with weight := 0.5 } [100, 300] = some size ∧
      16 ∣ 4 + size := by
  have hvalid : firstOfThree.validate = .ok () := by rfl
  have hword : firstOfThree.framing.maxFrameLength < 2 ^ 32 := by decide
  have hnext : firstOfThree.Precedes secondOfThree := ⟨rfl, by decide⟩
  obtain ⟨hrequests, hreplies⟩ := lengths_agree hvalid hword hnext
  obtain ⟨size, hsize, hdvd, -⟩ := hreplies 0.5 [100, 300]
  exact ⟨hvalid, hword, hnext, (hrequests .message _ (by rw [List.length_replicate]; rfl)).1, size,
    hsize, hdvd⟩

end RelaySettings
end MixRelay
