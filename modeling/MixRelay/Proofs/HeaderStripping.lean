import MixRelay.ExitDelivery
import MixRelay.Proofs.EdgeReception

/-!
# Headers stripped along the cascade

A request starts with one header for each relay. Each relay strips its own and the rest crosses to the
next one in a frame, where its length is the one that is due there, also if it is so short that the
frame pads it. Behind the last relay the destination gets what is left.
-/
namespace MixRelay

/-- An edge as a request crosses it: the relay that receives, the keystream that both ends have come
to, the channel's identifier on the edge, and what follows the request on the stream. -/
structure EdgeCrossing where
  settings : InboundSettings
  state : InboundState
  keystream : HeaderKeystream
  edge : ChannelId
  behind : Bytes

namespace EdgeCrossing

def frame (x : EdgeCrossing) (m : Message) : TypedFrame := ⟨m.kind, x.edge, m.payload⟩

/-- The stream that the receiver finds, the frame of a request in front. -/
def stream (x : EdgeCrossing) (m : Message) : Bytes :=
  (Frame.encode x.keystream (.ofChannel m.kind x.edge) m.payload).1 ++ x.behind

def receive (x : EdgeCrossing) (m : Message) : Reception InboundState :=
  x.state.receive x.settings x.keystream (x.stream m)

/-- The receiver is ready for a request of a kind: the first of a channel that it does not know, or one
of a channel that has sent none in the round. -/
def Admits (x : EdgeCrossing) : MessageKind → Prop
  | .establish => x.state.table.containsEdge x.edge = false
  | .message => ∃ c, x.state.channel? x.edge = some c ∧ c.requestClaimed = false
  | _ => False

/-- The receiver takes a request and hands on what it makes of it: nothing is refused or skipped. -/
structure Delivers (x : EdgeCrossing) (m handedOn : Message) : Prop where
  failure_eq : (x.receive m).failure = none
  handedOn_eq : (x.receive m).handedOn = [handedOn]
  faults_eq : (x.receive m).state.metrics.protocolFaults = x.state.metrics.protocolFaults
  skipped_eq : (x.receive m).state.metrics.skippedBytes = x.state.metrics.skippedBytes
  rest_eq : (x.receive m).rest = x.behind
  keystream_eq : (x.receive m).keystream = x.keystream.advance

variable {x : EdgeCrossing} {m : Message}

theorem leads (hmax : Frame.length m.payload.length ≤ x.settings.maxFrameLength)
    (hword : Frame.length m.payload.length < 2 ^ 32) :
    TypedFrame.Leads x.settings.maxFrameLength x.keystream (x.stream m) (x.frame m) x.behind := by
  have hread : Frame.readHead x.settings.maxFrameLength x.keystream
      (Frame.head x.keystream ⟨m.kind.code, x.edge⟩ m.payload ++
        (m.payload.drop Frame.headPayloadLength ++ x.behind)) = _ := Frame.readHead_head hmax hword _
  rwa [← List.append_assoc] at hread

/-- A request of the length that is due crosses the edge as it is. -/
theorem delivers (hadmits : x.Admits m.kind)
    (hdue : x.settings.framing.inbound? m.kind = some m.payload.length)
    (hmax : Frame.length m.payload.length ≤ x.settings.maxFrameLength)
    (hword : Frame.length m.payload.length < 2 ^ 32) :
    ∃ next, x.Delivers m next ∧ next.kind = m.kind ∧ next.payload = m.payload := by
  obtain ⟨t, handedOn, hreceive, hserves⟩ :=
    InboundState.receive_of_leads x.settings x.state (leads hmax hword)
  have hreception : x.receive m = ⟨none, t, handedOn, x.behind, x.keystream.advance⟩ := hreceive
  cases m with
  | establish c payload =>
    have hlength : payload.length = x.settings.framing.establishLength := (Option.some.inj hdue).symm
    have hfits := (x.frame (.establish c payload)).fits_of_length hlength
    have hpayload := (x.frame (.establish c payload)).padded_take hlength
    cases hserves with
    | refused n reason =>
      have hreason : x.state.table.containsEdge x.edge = true ∨ _ = false := reason
      rw [hadmits, hfits] at hreason
      exact hreason.elim nofun nofun
    | established n kind unknown fit =>
      rw [hpayload] at hreception
      refine ⟨.establish (x.state.registry.createFresh x.state.draws).1 payload, ?_, rfl, rfl⟩
      constructor <;> rw [hreception] <;> rfl
    | requested _ _ kind | opened _ kind | released _ _ kind | forgotten _ kind => cases kind
  | message c payload =>
    have hlength : payload.length = x.settings.framing.messageLength := (Option.some.inj hdue).symm
    have hfits := (x.frame (.message c payload)).fits_of_length hlength
    have hpayload := (x.frame (.message c payload)).padded_take hlength
    cases hserves with
    | refused n reason =>
      obtain ⟨channel, hknown, hfree⟩ := hadmits
      have hreason : channel.requestClaimed = true ∨ _ = false := reason channel hknown
      rw [hfree, hfits] at hreason
      exact hreason.elim nofun nofun
    | requested n channel kind known free fit =>
      rw [hpayload] at hreception
      refine ⟨.message channel.id payload, ?_, rfl, rfl⟩
      constructor <;> rw [hreception] <;> rfl
    | established _ kind | opened _ kind | released _ _ kind | forgotten _ kind => cases kind
  | release | batchSize | reply => exact hadmits.elim

end EdgeCrossing

/-- The way of a request through relays in a row: each relay strips its header and the rest crosses to
the next one. The messages are those that arrive at the relays and the one that leaves the last. -/
inductive Journey (unit : Nat) : Message → List EdgeCrossing → List Message → Message → Prop
  | ends (m : Message) : Journey unit m [] [m] (m.stripHeader unit)
  | crosses {m next left : Message} {x : EdgeCrossing} {crossings : List EdgeCrossing}
      {arrivals : List Message} (delivered : x.Delivers (m.stripHeader unit) next)
      (onward : Journey unit next crossings arrivals left) :
      Journey unit m (x :: crossings) (m :: arrivals) left

/-- The relays behind the crossings have the framing of the one before them, with one further hop less
each, and their requests fit into frames. -/
structure FramedAlong (f : PayloadFraming) (kind : MessageKind) (crossings : List EdgeCrossing) :
    Prop where
  hops_eq : f.furtherHops = crossings.length
  framing_eq (i : Nat) (x : EdgeCrossing) : crossings[i]? = some x →
    x.settings.framing = { f with furtherHops := f.furtherHops - (i + 1) }
  frames_fit : ∀ x ∈ crossings, ∀ n, x.settings.framing.inbound? kind = some n →
    Frame.length n ≤ x.settings.maxFrameLength ∧ Frame.length n < 2 ^ 32

namespace FramedAlong
variable {f : PayloadFraming} {kind : MessageKind} {x : EdgeCrossing} {crossings : List EdgeCrossing}

theorem head (h : FramedAlong f kind (x :: crossings)) :
    x.settings.framing = { f with furtherHops := f.furtherHops - 1 } := h.framing_eq 0 x rfl

theorem tail (h : FramedAlong f kind (x :: crossings)) :
    FramedAlong x.settings.framing kind crossings where
  hops_eq := by
    rw [h.head, h.hops_eq]
    rfl
  framing_eq i y hy := by
    have hhops : f.furtherHops - (i + 1 + 1) = f.furtherHops - 1 - (i + 1) := by omega
    rw [h.framing_eq (i + 1) y hy, h.head, hhops]
  frames_fit y hy := h.frames_fit y (List.mem_cons_of_mem x hy)

end FramedAlong

theorem Message.isRequest_eq {m n : Message} (h : m.kind = n.kind) : m.isRequest = n.isRequest := by
  cases m <;> cases n <;> first | rfl | cases h

theorem Message.payload_stripHeader {m : Message} (h : m.isRequest = true) (unit : Nat) :
    (m.stripHeader unit).payload = m.payload.drop unit := by
  cases m <;> first | rfl | cases h

/-- A request is delivered to the destination through the channel that sent it. -/
theorem Message.journal_step {m : Message} (h : m.isRequest = true) {r : ChannelRegistry}
    {id : ChannelId} {c : Channel} (hid : m.channel? = some id) (hc : r.find? id = some c)
    (calls : List DestinationCall) :
    (ExitDelivery.step .journal calls r m).1 = calls ++ [.deliver id m.payload] := by
  cases m with
  | establish d bytes | message d bytes =>
    obtain rfl : d = id := Option.some.inj hid
    simp only [ExitDelivery.step, ExitDelivery.request, hc, Destination.journal, payload,
      ChannelRegistry.find?_some_id hc]
  | release | batchSize | reply => cases h

/-- A request that arrives with the length that is due leaves with the one that is due. -/
theorem PayloadFraming.outbound?_strip {f : PayloadFraming} {m : Message} (hrequest : m.isRequest = true)
    (hdue : f.inbound? m.kind = some m.payload.length) :
    f.outbound? m.kind = some (m.stripHeader f.headerUnit).payload.length := by
  obtain ⟨base, hbase, hlength⟩ := Option.map_eq_some_iff.1 hdue
  rw [outbound?, hbase, m.payload_stripHeader hrequest, List.length_drop, ← hlength]
  simp [remainingHops, Nat.mul_add, ← Nat.add_assoc]

namespace Journey
variable {unit : Nat} {m left : Message} {crossings : List EdgeCrossing} {arrivals : List Message}

theorem length_arrivals (h : Journey unit m crossings arrivals left) :
    arrivals.length = crossings.length + 1 := by
  induction h with
  | ends m => rfl
  | crosses delivered onward ih => rw [List.length_cons, List.length_cons, ih]

end Journey

/-- What arrives at a relay of the row: the first message without the headers stripped before, with the
length that is due there. -/
structure Journey.Arrives (f : PayloadFraming) (m : Message) (i : Nat) (a : Message) : Prop where
  kind_eq : a.kind = m.kind
  payload_eq : a.payload = m.payload.drop (i * f.headerUnit)
  due : { f with furtherHops := f.furtherHops - i }.inbound? m.kind = some a.payload.length

theorem Journey.Arrives.start {f : PayloadFraming} {m : Message}
    (hdue : f.inbound? m.kind = some m.payload.length) : Arrives f m 0 m :=
  ⟨rfl, by rw [Nat.zero_mul, List.drop_zero], hdue⟩

/-- What arrives somewhere behind the next relay arrives one relay further behind this one. -/
theorem Journey.Arrives.later {f : PayloadFraming} {m next a : Message} {i : Nat}
    (hkind : next.kind = m.kind) (hpayload : next.payload = m.payload.drop f.headerUnit)
    (h : Arrives { f with furtherHops := f.furtherHops - 1 } next i a) : Arrives f m (i + 1) a where
  kind_eq := h.kind_eq.trans hkind
  payload_eq := by
    rw [h.payload_eq, hpayload, List.drop_drop, Nat.add_mul, Nat.one_mul, Nat.add_comm]
  due := by
    have hhops : f.furtherHops - (i + 1) = f.furtherHops - 1 - i := by omega
    rw [hhops, ← hkind]
    exact h.due

namespace FramedAlong
variable {f : PayloadFraming} {m : Message} {crossings : List EdgeCrossing}

/-- A request that is as long as the first relay has it comes through all relays. -/
theorem exists_journey (h : FramedAlong f m.kind crossings) (hrequest : m.isRequest = true)
    (hadmits : ∀ x ∈ crossings, x.Admits m.kind)
    (hdue : f.inbound? m.kind = some m.payload.length) :
    ∃ arrivals left, Journey f.headerUnit m crossings arrivals left ∧
      (∀ i a, arrivals[i]? = some a → Journey.Arrives f m i a) ∧
      left.kind = m.kind ∧ left.payload = m.payload.drop ((crossings.length + 1) * f.headerUnit) ∧
      f.base? m.kind = some left.payload.length := by
  induction crossings generalizing f m with
  | nil =>
    have hout := PayloadFraming.outbound?_strip hrequest hdue
    refine ⟨[m], m.stripHeader f.headerUnit, .ends m, ?_, m.kind_stripHeader _, ?_, ?_⟩
    · intro i a ha
      obtain ⟨rfl, rfl⟩ : i = 0 ∧ m = a := by simpa using List.getElem?_singleton.symm.trans ha
      exact .start hdue
    · rw [m.payload_stripHeader hrequest, List.length_nil, Nat.zero_add, Nat.one_mul]
    · rw [← hout, PayloadFraming.outbound?, h.hops_eq, List.length_nil, Nat.mul_zero]
      simp
  | cons x crossings ih =>
    have hout := PayloadFraming.outbound?_strip hrequest hdue
    have hhops : 0 < f.furtherHops := by
      rw [h.hops_eq]
      exact Nat.zero_lt_succ _
    have hinbound : x.settings.framing.inbound? (m.stripHeader f.headerUnit).kind =
        some (m.stripHeader f.headerUnit).payload.length := by
      rw [m.kind_stripHeader, h.head, ← f.outbound?_eq_inbound? hhops, hout]
    obtain ⟨hmax, hword⟩ := h.frames_fit x List.mem_cons_self _ (m.kind_stripHeader _ ▸ hinbound)
    have hready : x.Admits (m.stripHeader f.headerUnit).kind := by
      rw [m.kind_stripHeader]
      exact hadmits x List.mem_cons_self
    obtain ⟨next, hdelivers, hkind, hpayload⟩ := EdgeCrossing.delivers hready hinbound hmax hword
    rw [m.kind_stripHeader] at hkind
    rw [m.payload_stripHeader hrequest] at hpayload
    have hunit : x.settings.framing.headerUnit = f.headerUnit := by rw [h.head]
    have hnext : next.isRequest = true := (Message.isRequest_eq hkind).trans hrequest
    have hrest : FramedAlong x.settings.framing next.kind crossings := hkind ▸ h.tail
    have honward : x.settings.framing.inbound? next.kind = some next.payload.length := by
      rw [hkind, hpayload, ← m.payload_stripHeader hrequest, ← hinbound, m.kind_stripHeader]
    obtain ⟨arrivals, left, hjourney, harrive, hleft, hsubmitted, hbase⟩ := ih hrest hnext
      (fun y hy => hkind ▸ hadmits y (List.mem_cons_of_mem x hy)) honward
    rw [hunit] at hjourney hsubmitted
    refine ⟨m :: arrivals, left, .crosses hdelivers hjourney, ?_, hleft.trans hkind, ?_, ?_⟩
    · intro i a ha
      cases i with
      | zero =>
        obtain rfl : m = a := Option.some.inj ha
        exact .start hdue
      | succ i => exact .later hkind hpayload (h.head ▸ harrive i a ha)
    · rw [hsubmitted, hpayload, List.drop_drop, List.length_cons, Nat.add_mul (crossings.length + 1),
        Nat.one_mul, Nat.add_comm]
    · rw [← hbase, hkind, h.head]
      rfl

end FramedAlong
/-- Along relays of one framing, a request as long as the first relay has it arrives at each of them, in
the length that is due, without the headers stripped before. The destination gets what is behind all
headers, of the base length. -/
theorem headers_stripped {f : PayloadFraming} {m : Message} {crossings : List EdgeCrossing}
    (hframed : FramedAlong f m.kind crossings) (hrequest : m.isRequest = true)
    (hadmits : ∀ x ∈ crossings, x.Admits m.kind)
    (hdue : f.inbound? m.kind = some m.payload.length) :
    ∃ arrivals left, Journey f.headerUnit m crossings arrivals left ∧
      arrivals.length = crossings.length + 1 ∧
      (∀ i a, arrivals[i]? = some a → Journey.Arrives f m i a) ∧
      left.payload = m.payload.drop (arrivals.length * f.headerUnit) ∧
      f.base? m.kind = some left.payload.length ∧
      ∀ (calls : List DestinationCall) (r : ChannelRegistry) (id : ChannelId) (c : Channel),
        left.channel? = some id → r.find? id = some c →
        (ExitDelivery.step .journal calls r left).1 =
          calls ++ [.deliver id (m.payload.drop (arrivals.length * f.headerUnit))] := by
  obtain ⟨arrivals, left, hjourney, harrive, hkind, hpayload, hbase⟩ :=
    hframed.exists_journey hrequest hadmits hdue
  have hlength := hjourney.length_arrivals
  rw [← hlength] at hpayload
  refine ⟨arrivals, left, hjourney, hlength, harrive, hpayload, hbase, ?_⟩
  intro calls r id c hid hc
  rw [← hpayload]
  exact left.journal_step ((Message.isRequest_eq hkind).trans hrequest) hid hc calls

/-- Three relays behind one another; between the last two, a frame has to pad the seven bytes. -/
def shortHops : List EdgeCrossing :=
  let state : InboundState := ⟨.empty 64, .empty, .zero, .ofList [21]⟩
  let keystream : HeaderKeystream := ⟨⟨Block.ofNat 1, Block.ofNat 2⟩, .requests, 0⟩
  [⟨⟨⟨4, 3, 0, 1⟩, 64, false⟩, state, keystream, 5, [1]⟩,
    ⟨⟨⟨4, 3, 0, 0⟩, 64, true⟩, state, keystream, 6, []⟩]

def fifteenBytes : Message := .establish 9 [0, 1, 2, 3, 4, 5, 6, 7, 8, 9, 10, 11, 12, 13, 14]

theorem headers_stripped_shortHops :
    ∃ arrivals left, Journey 4 fifteenBytes shortHops arrivals left ∧ arrivals.length = 3 ∧
      (∀ a, arrivals[1]? = some a → a.payload = [4, 5, 6, 7, 8, 9, 10, 11, 12, 13, 14]) ∧
      (∀ a, arrivals[2]? = some a → a.payload = [8, 9, 10, 11, 12, 13, 14]) ∧
      left.payload = [12, 13, 14] := by
  have hframed : FramedAlong ⟨4, 3, 0, 2⟩ fifteenBytes.kind shortHops := by
    refine ⟨rfl, ?_, by decide⟩
    intro i x hx
    match i, hx with
    | 0, hx => exact Option.some.inj hx ▸ rfl
    | 1, hx => exact Option.some.inj hx ▸ rfl
  have hadmits : ∀ x ∈ shortHops, x.Admits fifteenBytes.kind :=
    List.forall_mem_cons.2 ⟨rfl, List.forall_mem_cons.2 ⟨rfl, nofun⟩⟩
  obtain ⟨arrivals, left, hjourney, hlength, harrive, hleft, -⟩ :=
    headers_stripped hframed rfl hadmits rfl
  have hthree : arrivals.length = 3 := hlength
  refine ⟨arrivals, left, hjourney, hthree, fun a ha => (harrive 1 a ha).payload_eq,
    fun a ha => (harrive 2 a ha).payload_eq, ?_⟩
  rw [hleft, hthree]
  rfl

end MixRelay
