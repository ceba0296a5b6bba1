import MixRelay.Proofs.EdgeReception
import MixRelay.Proofs.Runs

/-!
# Two relays and the edge between them

The near relay dials and sends requests; the far relay accepts, receives them, and sends replies back.
Frames are on their way in both directions while channels come and go. A connection that the near relay
has given up may still bring the far relay what was written to it, until the far relay accepts the next.
-/
namespace MixRelay

/-- Both ends, each with the channels of its relay, and the bytes between them: `line` on the
connection of the far relay, `waiting` on those that the near relay dialled and gave up before the far
relay accepted them, `fresh` on the one that it has dialled last, as long as that is not accepted, and
`back` on their way to the near relay. -/
structure RelayEdge where
  near : OutboundEdge
  nearChannels : ChannelRegistry
  far : InboundEdge
  farChannels : ChannelRegistry
  line : Bytes
  waiting : List Bytes
  fresh : Option Bytes
  back : Bytes

structure RelayEdgeSettings where
  maxFrameLength : Nat
  inbound : InboundSettings
  key : EdgeKey
  nearDraws : Draws
  farDraws : Draws
  proxyCapacity : Nat

/-- The near relay is handed a request, sends, fails to write after some bytes, receives, or sees its
connection end; bytes arrive at either end; the far relay receives, accepts, sees or makes its connection
end, is handed a reply, sends, or fails to write. Whatever else the relays do changes their channels. -/
inductive RelayEdgeEvent
  | request (message : Message)
  | send
  | tear (n : Nat)
  | deliver (n : Nat)
  | hear
  | accept
  | hangUp
  | drop
  | reply (message : Message)
  | answer
  | tearAnswer (n : Nat)
  | bring (n : Nat)
  | finish
  | receive
  | nearChannels (registry : ChannelRegistry)
  | farChannels (registry : ChannelRegistry)

/-- The request that the near relay is handed. -/
def RelayEdgeEvent.request? : RelayEdgeEvent → Option Message
  | .request m => some m
  | _ => none

namespace RelayEdge

def start (c : RelayEdgeSettings) : RelayEdge where
  near := .start c.maxFrameLength c.key c.nearDraws
  nearChannels := .empty c.proxyCapacity
  far := .start c.inbound c.key c.farDraws
  farChannels := .empty c.proxyCapacity
  line := []
  waiting := []
  fresh := some []
  back := []

/-- Bytes of the near relay go on the connection that it dialled last. -/
def write (bytes : Bytes) (s : RelayEdge) : RelayEdge :=
  match s.fresh with
  | some b => { s with fresh := some (b ++ bytes) }
  | none => { s with line := s.line ++ bytes }

/-- Bytes of the far relay are lost if the near relay has given their connection up. -/
def writeBack (bytes : Bytes) (s : RelayEdge) : RelayEdge :=
  if s.fresh.isNone && !s.near.ended then { s with back := s.back ++ bytes } else s

/-- The near relay has dialled again. -/
def redial (s : RelayEdge) : RelayEdge :=
  { s with waiting := s.waiting ++ s.fresh.toList, fresh := some [], back := [] }

/-- The oldest connection that the far relay has not accepted yet takes the place of its own. -/
def accept (s : RelayEdge) : RelayEdge :=
  match s.waiting, s.fresh with
  | bytes :: rest, _ => { s with far := s.far.accept, line := bytes, waiting := rest }
  | [], some bytes => { s with far := s.far.accept, line := bytes, fresh := none }
  | [], none => s

def send (s : RelayEdge) : RelayEdge :=
  match s.near.sendNext? with
  | none => s
  | some (bytes, e) => { s with near := e }.write bytes

/-- The frame in hand breaks off after at most `n` bytes, and stays in hand. -/
def tear (n : Nat) (s : RelayEdge) : RelayEdge :=
  match s.near.inHand with
  | none => s
  | some out =>
    let generation := s.near.connection.generation
    let (bytes, sender) := s.near.sender.encode generation out.frame
    ({ s with near := { s.near with sender := sender }.recover generation }.write
      (bytes.dropLast.take n)).redial

def hear (s : RelayEdge) : RelayEdge :=
  match s.far.receiveNext? s.farChannels with
  | none => s
  | some (_, e, r) => { s with far := e, farChannels := r }

def answer (s : RelayEdge) : RelayEdge :=
  match s.far.sendNext? with
  | none => s
  | some (bytes, e) => { s with far := e }.writeBack bytes

/-- The reply in hand breaks off after at most `n` bytes, and stays in hand. -/
def tearAnswer (n : Nat) (s : RelayEdge) : RelayEdge :=
  match s.far.inHand with
  | none => s
  | some frame =>
    if s.far.isConnected then
      let (bytes, sender) := s.far.sender.encode s.far.connection.generation frame
      { s with far := { s.far with sender := sender }.drop.2 }.writeBack (bytes.dropLast.take n)
    else s

def receive (s : RelayEdge) : RelayEdge :=
  match s.near.receiveNext? s.nearChannels with
  | none => s
  | some (_, e, r) =>
    let t := { s with near := e, nearChannels := r }
    if e.connection = s.near.connection then t else t.redial

def step (s : RelayEdge) : RelayEdgeEvent → RelayEdge
  | .request m => { s with near := { s.near with requests := s.near.requests ++ [m] } }
  | .send => s.send
  | .tear n => s.tear n
  | .deliver n => { s with far := s.far.arrive (s.line.take n), line := s.line.drop n }
  | .hear => s.hear
  | .accept => s.accept
  | .hangUp => if s.fresh.isSome then { s with far := s.far.finish, line := [] } else s
  | .drop => { s with far := s.far.drop.2 }
  | .reply m => { s with far := { s.far with replies := s.far.replies ++ [m] } }
  | .answer => s.answer
  | .tearAnswer n => s.tearAnswer n
  | .bring n => { s with near := s.near.arrive (s.back.take n), back := s.back.drop n }
  | .finish => { s with near := s.near.finish, back := [] }
  | .receive => s.receive
  | .nearChannels r => { s with nearChannels := r }
  | .farChannels r => { s with farChannels := r }

end RelayEdge

namespace EdgeCipher
variable {c : EdgeCipher} {key : EdgeKey} {d : Direction} {n : Nat}

/-- The cipher works under a key and in a direction, on connections up to a generation. -/
structure Follows (c : EdgeCipher) (key : EdgeKey) (d : Direction) (n : Nat) : Prop where
  generation_le : c.generation ≤ n
  key_eq : c.keystream.key = key
  direction_eq : c.keystream.direction = d

theorem follows_start (key : EdgeKey) (d : Direction) (n : Nat) : (start key d).Follows key d n :=
  ⟨Nat.zero_le n, rfl, rfl⟩

theorem Follows.mono (h : c.Follows key d n) {m : Nat} (hle : n ≤ m) : c.Follows key d m :=
  ⟨Nat.le_trans h.generation_le hle, h.key_eq, h.direction_eq⟩

/-- The next connection starts the keystream again. -/
theorem Follows.keystream_next (h : c.Follows key d n) :
    (c.forGeneration (n + 1)).keystream = .start key d := by
  have hne : c.generation ≠ n + 1 := by
    have hle := h.generation_le
    omega
  rw [forGeneration, if_neg hne, HeaderKeystream.reset, HeaderKeystream.start, ← h.key_eq,
    ← h.direction_eq]

theorem Follows.forGeneration (h : c.Follows key d n) : (c.forGeneration n).Follows key d n := by
  unfold EdgeCipher.forGeneration
  split
  · exact h
  · exact ⟨Nat.le_refl n, h.key_eq, h.direction_eq⟩

theorem Follows.advance (h : c.Follows key d n) :
    Follows ⟨(c.forGeneration n).keystream.advance, n⟩ key d n :=
  ⟨Nat.le_refl n, h.forGeneration.key_eq, h.forGeneration.direction_eq⟩

theorem encode_snd (c : EdgeCipher) (n : Nat) (frame : OutgoingFrame) :
    (c.encode n frame).2 = ⟨(c.forGeneration n).keystream.advance, n⟩ := by
  have hgeneration : (c.forGeneration n).generation = n := generation_forGeneration c n
  rw [encode, Frame.encode]
  dsimp only
  rw [hgeneration]

theorem encode_fst (c : EdgeCipher) (n : Nat) (frame : OutgoingFrame) :
    (c.encode n frame).1 =
      (Frame.encode (c.forGeneration n).keystream frame.header frame.payload).1 := rfl

end EdgeCipher

namespace EdgeConnection
variable {c : EdgeConnection}

theorem install_of_open (h : c.closed = false) :
    c.install.2.isConnected = true ∧ c.install.2.closed = false ∧
      c.install.2.generation = c.generation + 1 := by
  unfold install
  simp [h, isConnected]

end EdgeConnection

namespace OutboundEdge
variable {e : OutboundEdge}

/-- The keystream with which the next request is written. -/
def requestKeystream (e : OutboundEdge) : HeaderKeystream :=
  (e.sender.forGeneration e.connection.generation).keystream

/-- The edge once a frame is written. -/
def written (e : OutboundEdge) (out : OutboundFrame) : OutboundEdge :=
  let bytes := (Frame.encode e.requestKeystream out.frame.header out.frame.payload).1
  { e with
    sender := ⟨e.requestKeystream.advance, e.connection.generation⟩
    metrics := e.metrics.countSent bytes.length
    table := match out.released with
      | some id => e.table.dropLocal id
      | none => e.table
    inHand := none }

/-- The edge once a request is taken up. -/
def takenUp (e : OutboundEdge) (m : Message) (rest : List Message) : OutboundEdge :=
  { e with
    inHand := (frame? e.table e.draws m).1
    draws := (frame? e.table e.draws m).2.1
    table := (frame? e.table e.draws m).2.2
    requests := rest }

theorem sendNext?_of_inHand (hc : e.isConnected = true) {out : OutboundFrame}
    (h : e.inHand = some out) :
    e.sendNext? = some
      ((Frame.encode e.requestKeystream out.frame.header out.frame.payload).1, e.written out) := by
  unfold sendNext? written
  rw [h]
  dsimp only
  rw [if_pos hc, EdgeCipher.encode_snd, EdgeCipher.encode_fst]
  rfl

theorem sendNext?_of_requests {m : Message} {rest : List Message} (h : e.inHand = none)
    (hr : e.requests = m :: rest) : e.sendNext? = some ([], e.takenUp m rest) := by
  unfold sendNext? takenUp
  rw [h, hr]

theorem sendNext?_of_idle (h : e.inHand = none) (hr : e.requests = []) : e.sendNext? = none := by
  unfold sendNext?
  rw [h, hr]

end OutboundEdge

namespace InboundEdge
variable {e : InboundEdge}

/-- The keystream with which the next reply is written. -/
def replyKeystream (e : InboundEdge) : HeaderKeystream :=
  (e.sender.forGeneration e.connection.generation).keystream

def written (e : InboundEdge) (frame : OutgoingFrame) : InboundEdge :=
  let bytes := (Frame.encode e.replyKeystream frame.header frame.payload).1
  { e with
    sender := ⟨e.replyKeystream.advance, e.connection.generation⟩
    metrics := e.metrics.countSent bytes.length
    inHand := none }

def takenUp (e : InboundEdge) (m : Message) (rest : List Message) : InboundEdge :=
  { e with inHand := frame? e.table m, replies := rest }

theorem sendNext?_of_inHand (hc : e.isConnected = true) {frame : OutgoingFrame}
    (h : e.inHand = some frame) :
    e.sendNext? = some
      ((Frame.encode e.replyKeystream frame.header frame.payload).1, e.written frame) := by
  unfold sendNext? written
  rw [h]
  dsimp only
  rw [if_pos hc, EdgeCipher.encode_snd, EdgeCipher.encode_fst]
  rfl

theorem sendNext?_of_waits (hc : e.isConnected = false) {frame : OutgoingFrame}
    (h : e.inHand = some frame) : e.sendNext? = none := by
  unfold sendNext?
  rw [h]
  dsimp only
  rw [if_neg (by simp [hc])]

theorem sendNext?_of_replies {m : Message} {rest : List Message} (h : e.inHand = none)
    (hr : e.replies = m :: rest) : e.sendNext? = some ([], e.takenUp m rest) := by
  unfold sendNext? takenUp
  rw [h, hr]

theorem sendNext?_of_idle (h : e.inHand = none) (hr : e.replies = []) : e.sendNext? = none := by
  unfold sendNext?
  rw [h, hr]

end InboundEdge

/-- After a failure the near relay has another connection, and nothing of the old one. -/
theorem OutboundEdge.recover_of_open {e : OutboundEdge} (hc : e.isConnected = true)
    (hopen : e.connection.closed = false) :
    ∃ c metrics, e.recover e.connection.generation =
        { e with connection := c, metrics := metrics, unread := [], ended := false } ∧
      c.isConnected = true ∧ c.closed = false ∧ c.generation = e.connection.generation + 1 := by
  have hlive : e.connection.isConnected = true := hc
  have hdown : e.connection.takeDown.closed = false := by rw [EdgeConnection.closed_takeDown, hopen]
  obtain ⟨hconnected, hclosed, hgeneration⟩ := EdgeConnection.install_of_open hdown
  rw [EdgeConnection.generation_takeDown] at hgeneration
  refine ⟨e.connection.takeDown.install.2, e.metrics.countConnection, ?_, hconnected, hclosed, hgeneration⟩
  simp [recover, EdgeConnection.invalidate, hlive, dial]

namespace RelayEdge
variable {s : RelayEdge} {key : EdgeKey}

/-- What holds of connections and ciphers in every run. -/
structure Wired (key : EdgeKey) (s : RelayEdge) : Prop where
  live : s.near.isConnected = true
  nearOpen : s.near.connection.closed = false
  farOpen : s.far.connection.closed = false
  requestWriter : s.near.sender.Follows key .requests s.near.connection.generation
  requestReader : s.far.receiver.Follows key .requests s.far.connection.generation
  replyWriter : s.far.sender.Follows key .replies s.far.connection.generation
  replyReader : s.near.receiver.Follows key .replies s.near.connection.generation
  joined : s.fresh = none → s.waiting = []
  hungUp : s.far.ended = true → s.line = [] ∧ s.fresh ≠ none

theorem wired_start (c : RelayEdgeSettings) : (start c).Wired c.key where
  live := rfl
  nearOpen := rfl
  farOpen := rfl
  requestWriter := EdgeCipher.follows_start c.key .requests _
  requestReader := EdgeCipher.follows_start c.key .requests _
  replyWriter := EdgeCipher.follows_start c.key .replies _
  replyReader := EdgeCipher.follows_start c.key .replies _
  joined := nofun
  hungUp := nofun

theorem write_nil (s : RelayEdge) : s.write [] = s := by
  obtain ⟨near, nearChannels, far, farChannels, line, waiting, fresh, back⟩ := s
  cases fresh <;> simp [write]

@[simp] theorem near_write (s : RelayEdge) (bytes : Bytes) : (s.write bytes).near = s.near := by
  unfold write
  split <;> rfl

@[simp] theorem far_write (s : RelayEdge) (bytes : Bytes) : (s.write bytes).far = s.far := by
  unfold write
  split <;> rfl

@[simp] theorem farChannels_write (s : RelayEdge) (bytes : Bytes) :
    (s.write bytes).farChannels = s.farChannels := by
  unfold write
  split <;> rfl

@[simp] theorem near_writeBack (s : RelayEdge) (bytes : Bytes) :
    (s.writeBack bytes).near = s.near := by
  unfold writeBack
  split <;> rfl

@[simp] theorem far_writeBack (s : RelayEdge) (bytes : Bytes) : (s.writeBack bytes).far = s.far := by
  unfold writeBack
  split <;> rfl

@[simp] theorem farChannels_writeBack (s : RelayEdge) (bytes : Bytes) :
    (s.writeBack bytes).farChannels = s.farChannels := by
  unfold writeBack
  split <;> rfl

theorem writeBack_nil (s : RelayEdge) : s.writeBack [] = s := by
  unfold writeBack
  split
  · rw [List.append_nil]
  · rfl

theorem Wired.write (h : s.Wired key) (bytes : Bytes) : (s.write bytes).Wired key := by
  unfold RelayEdge.write
  split
  · exact { h with
      joined := nofun
      hungUp := fun hended => ⟨(h.hungUp hended).1, nofun⟩ }
  · rename_i hfresh
    exact { h with hungUp := fun hended => absurd hfresh (h.hungUp hended).2 }

theorem Wired.writeBack (h : s.Wired key) (bytes : Bytes) : (s.writeBack bytes).Wired key := by
  unfold RelayEdge.writeBack
  split
  · exact { h with }
  · exact h

theorem Wired.redial (h : s.Wired key) : s.redial.Wired key :=
  { h with
    joined := nofun
    hungUp := fun hended => ⟨(h.hungUp hended).1, nofun⟩ }

/-- The near relay dials once more. -/
theorem Wired.recover (h : s.Wired key) :
    { s with near := s.near.recover s.near.connection.generation }.Wired key := by
  obtain ⟨c, metrics, hrecover, hlive, hopen, hgeneration⟩ :=
    OutboundEdge.recover_of_open h.live h.nearOpen
  rw [hrecover]
  have hle : s.near.connection.generation ≤ c.generation := by omega
  exact { h with
    live := hlive
    nearOpen := hopen
    requestWriter := h.requestWriter.mono hle
    replyReader := h.replyReader.mono hle }

/-- The sender of the near relay idles, takes a request up, or writes the frame in hand. -/
theorem send_cases (hc : s.near.isConnected = true) :
    (s.near.inHand = none ∧ s.near.requests = [] ∧ s.send = s) ∨
      (∃ m rest, s.near.inHand = none ∧ s.near.requests = m :: rest ∧
        s.send = { s with near := s.near.takenUp m rest }) ∨
      ∃ out, s.near.inHand = some out ∧ s.send = { s with near := s.near.written out }.write
        (Frame.encode s.near.requestKeystream out.frame.header out.frame.payload).1 := by
  unfold RelayEdge.send
  cases hh : s.near.inHand with
  | none =>
    cases hr : s.near.requests with
    | nil =>
      rw [OutboundEdge.sendNext?_of_idle hh hr]
      exact .inl ⟨rfl, rfl, rfl⟩
    | cons m rest =>
      rw [OutboundEdge.sendNext?_of_requests hh hr]
      exact .inr (.inl ⟨m, rest, rfl, rfl, write_nil _⟩)
  | some out =>
    rw [OutboundEdge.sendNext?_of_inHand hc hh]
    exact .inr (.inr ⟨out, rfl, rfl⟩)

/-- The sender of the far relay idles, takes a reply up, or writes the frame in hand. -/
theorem answer_cases (s : RelayEdge) :
    s.answer = s ∨
      (∃ m rest, s.far.inHand = none ∧ s.far.replies = m :: rest ∧
        s.answer = { s with far := s.far.takenUp m rest }) ∨
      ∃ frame, s.far.isConnected = true ∧ s.far.inHand = some frame ∧
        s.answer = { s with far := s.far.written frame }.writeBack
          (Frame.encode s.far.replyKeystream frame.header frame.payload).1 := by
  unfold RelayEdge.answer
  cases hh : s.far.inHand with
  | none =>
    cases hr : s.far.replies with
    | nil =>
      rw [InboundEdge.sendNext?_of_idle hh hr]
      exact .inl rfl
    | cons m rest =>
      rw [InboundEdge.sendNext?_of_replies hh hr]
      exact .inr (.inl ⟨m, rest, rfl, rfl, writeBack_nil _⟩)
  | some frame =>
    cases hc : s.far.isConnected with
    | false =>
      rw [InboundEdge.sendNext?_of_waits hc hh]
      exact .inl rfl
    | true =>
      rw [InboundEdge.sendNext?_of_inHand hc hh]
      exact .inr (.inr ⟨frame, rfl, rfl, rfl⟩)

theorem Wired.send (h : s.Wired key) : s.send.Wired key := by
  rcases send_cases h.live with ⟨-, -, hidle⟩ | ⟨m, rest, -, -, htaken⟩ | ⟨out, -, hwritten⟩
  · rw [hidle]
    exact h
  · rw [htaken]
    exact { h with }
  · rw [hwritten]
    apply Wired.write
    exact { h with requestWriter := h.requestWriter.advance }

theorem Wired.answer (h : s.Wired key) : s.answer.Wired key := by
  rcases s.answer_cases with hidle | ⟨m, rest, -, -, htaken⟩ | ⟨frame, -, -, hwritten⟩
  · rw [hidle]
    exact h
  · rw [htaken]
    exact { h with }
  · rw [hwritten]
    apply Wired.writeBack
    exact { h with replyWriter := h.replyWriter.advance }

theorem Wired.tear (h : s.Wired key) (n : Nat) : (s.tear n).Wired key := by
  unfold RelayEdge.tear
  split
  · exact h
  · dsimp only
    apply Wired.redial
    apply Wired.write
    rw [EdgeCipher.encode_snd]
    exact Wired.recover (s := { s with near := { s.near with
      sender := ⟨s.near.requestKeystream.advance, s.near.connection.generation⟩ } })
      { h with requestWriter := h.requestWriter.advance }

theorem Wired.accept (h : s.Wired key) : s.accept.Wired key := by
  obtain ⟨hlive, hopen, hgeneration⟩ := EdgeConnection.install_of_open h.farOpen
  have hle : s.far.connection.generation ≤ s.far.accept.connection.generation := by
    rw [InboundEdge.accept]
    dsimp only
    omega
  have hreader := h.requestReader.mono hle
  have hwriter := h.replyWriter.mono hle
  unfold RelayEdge.accept
  split
  · rename_i hwaiting
    exact { h with
      farOpen := hopen
      requestReader := hreader
      replyWriter := hwriter
      joined := fun hjoined => absurd ((h.joined hjoined).symm.trans hwaiting) nofun
      hungUp := nofun }
  · rename_i hwaiting _
    exact { h with
      farOpen := hopen
      requestReader := hreader
      replyWriter := hwriter
      joined := fun _ => hwaiting
      hungUp := nofun }
  · exact h

/-- The far relay has no connection any more. -/
theorem Wired.drop (h : s.Wired key) : { s with far := s.far.drop.2 }.Wired key := by
  unfold InboundEdge.drop EdgeConnection.invalidate
  dsimp only
  split
  · exact { h with
      farOpen := (EdgeConnection.closed_takeDown _).trans h.farOpen
      requestReader := (EdgeConnection.generation_takeDown s.far.connection).symm ▸ h.requestReader
      replyWriter := (EdgeConnection.generation_takeDown s.far.connection).symm ▸ h.replyWriter }
  · exact { h with }

theorem Wired.tearAnswer (h : s.Wired key) (n : Nat) : (s.tearAnswer n).Wired key := by
  unfold RelayEdge.tearAnswer
  split
  · exact h
  · split
    · dsimp only
      apply Wired.writeBack
      rw [EdgeCipher.encode_snd]
      exact Wired.drop (s := { s with far := { s.far with
        sender := ⟨s.far.replyKeystream.advance, s.far.connection.generation⟩ } })
        { h with replyWriter := h.replyWriter.advance }
    · exact h

theorem Wired.hear (h : s.Wired key) : s.hear.Wired key := by
  unfold RelayEdge.hear
  split
  · exact h
  · rename_i handedOn e r hreceive
    obtain ⟨hsender, hended, hconnection, hreceiver⟩ := InboundEdge.receiveNext?_wires hreceive
    have hopen : e.connection.closed = false := by
      rcases hconnection with heq | heq <;> simp [heq, h.farOpen]
    have hgeneration : e.connection.generation = s.far.connection.generation := by
      rcases hconnection with heq | heq <;> simp [heq]
    have hreader : e.receiver.Follows key .requests s.far.connection.generation := by
      rcases hreceiver with heq | heq
      · rw [heq]
        exact ⟨Nat.le_refl _, h.requestReader.forGeneration.key_eq,
          h.requestReader.forGeneration.direction_eq⟩
      · rw [heq]
        exact h.requestReader.advance
    exact { h with
      farOpen := hopen
      requestReader := hgeneration.symm ▸ hreader
      replyWriter := by
        dsimp only
        rw [hsender, hgeneration]
        exact h.replyWriter
      hungUp := fun hends => h.hungUp (hended ▸ hends) }

/-- The near edge once its receiver has gone on in the stream. -/
def passed (s : RelayEdge) (ks : HeaderKeystream) (metrics : LinkMetrics) (rest : Bytes) :
    OutboundEdge :=
  { s.near with
    receiver := ⟨ks, s.near.connection.generation⟩
    metrics := metrics
    unread := rest }

theorem Wired.passed (h : s.Wired key) {ks : HeaderKeystream}
    (hks : ks = s.near.replyKeystream ∨ ks = s.near.replyKeystream.advance) (metrics : LinkMetrics)
    (rest : Bytes) : { s with near := s.passed ks metrics rest }.Wired key := by
  have hreader : EdgeCipher.Follows ⟨ks, s.near.connection.generation⟩ key .replies
      s.near.connection.generation := by
    rcases hks with rfl | rfl
    · exact ⟨Nat.le_refl _, h.replyReader.forGeneration.key_eq,
        h.replyReader.forGeneration.direction_eq⟩
    · exact h.replyReader.advance
  exact { h with replyReader := hreader }

/-- The near relay receives nothing, goes on in the stream, or dials again. -/
theorem receive_cases (h : s.Wired key) :
    s.receive = s ∨ ∃ ks metrics rest r,
      (ks = s.near.replyKeystream ∨ ks = s.near.replyKeystream.advance) ∧
      (s.receive = { s with near := s.passed ks metrics rest, nearChannels := r } ∨
        s.receive = { s with
          near := (s.passed ks metrics rest).recover s.near.connection.generation
          nearChannels := r }.redial) := by
  unfold RelayEdge.receive
  cases hreceive : s.near.receiveNext? s.nearChannels with
  | none => exact .inl rfl
  | some got =>
    obtain ⟨handedOn, e, r⟩ := got
    obtain ⟨ks, metrics, rest, hks, hedge⟩ := OutboundEdge.receiveNext?_wires hreceive
    refine .inr ⟨ks, metrics, rest, r, hks, ?_⟩
    dsimp only
    rcases hedge with rfl | rfl
    · rw [if_pos rfl]
      exact .inl rfl
    · have hpassed := h.passed hks metrics rest
      have hne := OutboundEdge.connection_recover_ne hpassed.live
      exact .inr (if_neg hne)

theorem Wired.receive (h : s.Wired key) : s.receive.Wired key := by
  rcases receive_cases h with hidle | ⟨ks, metrics, rest, r, hks, hpassed | hdialled⟩
  · rw [hidle]
    exact h
  · rw [hpassed]
    exact { h.passed hks metrics rest with }
  · rw [hdialled]
    apply Wired.redial
    exact { (h.passed hks metrics rest).recover with }

theorem Wired.step (h : s.Wired key) (e : RelayEdgeEvent) : (s.step e).Wired key := by
  cases e with
  | request | reply | nearChannels | farChannels => exact { h with }
  | send => exact h.send
  | tear n => exact h.tear n
  | deliver n =>
    rw [RelayEdge.step]
    unfold InboundEdge.arrive
    split
    · exact { h with hungUp := fun hended => ⟨by simp [h.hungUp hended], (h.hungUp hended).2⟩ }
    · exact { h with hungUp := fun hended => ⟨by simp [h.hungUp hended], (h.hungUp hended).2⟩ }
  | hear => exact h.hear
  | accept => exact h.accept
  | hangUp =>
    rw [RelayEdge.step]
    split
    · rename_i hsome
      have hfresh : s.fresh ≠ none := Option.isSome_iff_ne_none.1 hsome
      unfold InboundEdge.finish
      split
      · exact { h with hungUp := fun _ => ⟨rfl, hfresh⟩ }
      · exact { h with hungUp := fun _ => ⟨rfl, hfresh⟩ }
    · exact h
  | drop => exact h.drop
  | answer => exact h.answer
  | tearAnswer n => exact h.tearAnswer n
  | bring n =>
    rw [RelayEdge.step]
    unfold OutboundEdge.arrive
    split
    · exact { h with }
    · exact { h with }
  | finish =>
    rw [RelayEdge.step]
    unfold OutboundEdge.finish
    split
    · exact { h with }
    · exact { h with }
  | receive => exact h.receive

/-- Only its sender takes the requests of the near relay up, and gives identifiers. -/
theorem near_step (hw : s.Wired key) {e : RelayEdgeEvent} (he : e ≠ .send) :
    (s.step e).near.table = s.near.table ∧ (s.step e).near.draws = s.near.draws ∧
      (s.step e).near.inHand = s.near.inHand ∧
      (s.step e).near.requests = s.near.requests ++ e.request?.toList := by
  have hsame : s.near.requests = s.near.requests ++ [] := (List.append_nil _).symm
  cases e with
  | send => exact absurd rfl he
  | tear n =>
    rw [step, RelayEdge.tear]
    split
    · exact ⟨rfl, rfl, rfl, hsame⟩
    · dsimp only
      rw [EdgeCipher.encode_snd]
      obtain ⟨c, metrics, hrecover, -, -, -⟩ := OutboundEdge.recover_of_open
        (e := { s.near with
          sender := ⟨s.near.requestKeystream.advance, s.near.connection.generation⟩ }) hw.live hw.nearOpen
      rw [redial, near_write]
      exact hrecover ▸ ⟨rfl, rfl, rfl, hsame⟩
  | hear =>
    rw [step, RelayEdge.hear]
    split <;> exact ⟨rfl, rfl, rfl, hsame⟩
  | accept =>
    rw [step, RelayEdge.accept]
    split <;> exact ⟨rfl, rfl, rfl, hsame⟩
  | hangUp =>
    rw [step]
    split <;> exact ⟨rfl, rfl, rfl, hsame⟩
  | answer =>
    rw [step]
    rcases s.answer_cases with hidle | ⟨m, rest, -, -, htaken⟩ | ⟨frame, -, -, hwritten⟩
    · rw [hidle]
      exact ⟨rfl, rfl, rfl, hsame⟩
    · rw [htaken]
      exact ⟨rfl, rfl, rfl, hsame⟩
    · rw [hwritten, near_writeBack]
      exact ⟨rfl, rfl, rfl, hsame⟩
  | tearAnswer n =>
    rw [step, RelayEdge.tearAnswer]
    split
    · exact ⟨rfl, rfl, rfl, hsame⟩
    · split
      · dsimp only
        rw [near_writeBack]
        exact ⟨rfl, rfl, rfl, hsame⟩
      · exact ⟨rfl, rfl, rfl, hsame⟩
  | bring n =>
    rw [step]
    unfold OutboundEdge.arrive
    split <;> exact ⟨rfl, rfl, rfl, hsame⟩
  | finish =>
    rw [step]
    unfold OutboundEdge.finish
    split <;> exact ⟨rfl, rfl, rfl, hsame⟩
  | receive =>
    rw [step]
    rcases receive_cases hw with hidle | ⟨ks, metrics, rest, r, hks, hpassed | hdialled⟩
    · rw [hidle]
      exact ⟨rfl, rfl, rfl, hsame⟩
    · rw [hpassed]
      exact ⟨rfl, rfl, rfl, hsame⟩
    · have hp := hw.passed hks metrics rest
      obtain ⟨c, counted, hrecover, -, -, -⟩ := OutboundEdge.recover_of_open hp.live hp.nearOpen
      rw [hdialled, redial]
      exact hrecover ▸ ⟨rfl, rfl, rfl, hsame⟩
  | request m => exact ⟨rfl, rfl, rfl, rfl⟩
  | _ => exact ⟨rfl, rfl, rfl, hsame⟩

/-- Only its receiver changes the identifiers of the far relay and counts faults there. -/
theorem far_step (s : RelayEdge) {e : RelayEdgeEvent} (he : e ≠ .hear) :
    (s.step e).far.settings = s.far.settings ∧ (s.step e).far.table = s.far.table ∧
      (s.step e).far.draws = s.far.draws ∧
      (s.step e).far.metrics.protocolFaults = s.far.metrics.protocolFaults := by
  cases e with
  | hear => exact absurd rfl he
  | send =>
    rw [step, RelayEdge.send]
    split
    · exact ⟨rfl, rfl, rfl, rfl⟩
    · rw [far_write]
      exact ⟨rfl, rfl, rfl, rfl⟩
  | tear n =>
    rw [step, RelayEdge.tear]
    split
    · exact ⟨rfl, rfl, rfl, rfl⟩
    · dsimp only
      rw [redial, far_write]
      exact ⟨rfl, rfl, rfl, rfl⟩
  | deliver n =>
    rw [step]
    unfold InboundEdge.arrive
    split <;> exact ⟨rfl, rfl, rfl, rfl⟩
  | accept =>
    rw [step, RelayEdge.accept]
    split <;> exact ⟨rfl, rfl, rfl, rfl⟩
  | hangUp =>
    rw [step]
    split
    · unfold InboundEdge.finish
      split <;> exact ⟨rfl, rfl, rfl, rfl⟩
    · exact ⟨rfl, rfl, rfl, rfl⟩
  | answer =>
    rw [step]
    rcases s.answer_cases with hidle | ⟨m, rest, -, -, htaken⟩ | ⟨frame, -, -, hwritten⟩
    · rw [hidle]
      exact ⟨rfl, rfl, rfl, rfl⟩
    · rw [htaken]
      exact ⟨rfl, rfl, rfl, rfl⟩
    · rw [hwritten, far_writeBack]
      exact ⟨rfl, rfl, rfl, rfl⟩
  | tearAnswer n =>
    rw [step, RelayEdge.tearAnswer]
    split
    · exact ⟨rfl, rfl, rfl, rfl⟩
    · split
      · dsimp only
        rw [far_writeBack]
        exact ⟨rfl, rfl, rfl, rfl⟩
      · exact ⟨rfl, rfl, rfl, rfl⟩
  | receive =>
    rw [step, RelayEdge.receive]
    split
    · exact ⟨rfl, rfl, rfl, rfl⟩
    · dsimp only
      split <;> exact ⟨rfl, rfl, rfl, rfl⟩
  | _ => exact ⟨rfl, rfl, rfl, rfl⟩

/-- Only its receiver changes the channels of the far relay, as far as the edge is concerned. -/
theorem farChannels_step (s : RelayEdge) {e : RelayEdgeEvent} (he : e ≠ .hear)
    (hr : ∀ r, e ≠ .farChannels r) : (s.step e).farChannels = s.farChannels := by
  cases e with
  | hear => exact absurd rfl he
  | farChannels r => exact absurd rfl (hr r)
  | send =>
    rw [step, RelayEdge.send]
    split
    · rfl
    · rw [farChannels_write]
  | tear n =>
    rw [step, RelayEdge.tear]
    split
    · rfl
    · dsimp only
      rw [redial, farChannels_write]
  | accept =>
    rw [step, RelayEdge.accept]
    split <;> rfl
  | hangUp =>
    rw [step]
    split <;> rfl
  | answer =>
    rw [step, RelayEdge.answer]
    split
    · rfl
    · rw [farChannels_writeBack]
  | tearAnswer n =>
    rw [step, RelayEdge.tearAnswer]
    split
    · rfl
    · split
      · dsimp only
        rw [farChannels_writeBack]
      · rfl
  | receive =>
    rw [step, RelayEdge.receive]
    split
    · rfl
    · dsimp only
      split <;> rfl
  | _ => rfl

end RelayEdge
end MixRelay
