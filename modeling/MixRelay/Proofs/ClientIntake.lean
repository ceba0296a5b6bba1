import MixRelay.ClientListener
import MixRelay.Proofs.RegistryLookups

/-! # What the listener does to the registry

Reading from a client comes to a few small steps: a channel is looked up and stored back, claims its
free slot with a request, joins or leaves. `Intake` lists them with the messages they hand on, and
every action of the listener is a row of them. -/
namespace MixRelay

/-- The channel once its request of the round has been read. -/
def Channel.withRequest (c : Channel) : Channel := { c with requestClaimed := true, established := true }

/-- The channel that a request is from. -/
def Message.requester? : Message → Option ChannelId
  | .establish c _ | .message c _ => some c
  | _ => none

/-- The request that a payload of a channel makes. -/
def Channel.requestOf (c : Channel) (payload : Bytes) : Message :=
  if c.established then .message c.id payload else .establish c.id payload

/-- What becomes of a registry, and what is handed on, while clients are read. -/
inductive Intake : ChannelRegistry → List Message → ChannelRegistry → Prop
  | idle (r : ChannelRegistry) : Intake r [] r
  | store {r : ChannelRegistry} {c : Channel} (hc : r.find? c.id = some c) :
      Intake r [] (r.modify c.id fun _ => c)
  | request {r : ChannelRegistry} {c : Channel} (payload : Bytes) (hc : r.find? c.id = some c)
      (free : c.requestClaimed = false) :
      Intake r [c.requestOf payload] (r.modify c.id fun _ => c.withRequest)
  | leave (r : ChannelRegistry) (id : ChannelId) (released : Bool) :
      Intake r (if released then [.release id] else []) (r.discard id)
  | seq {r₁ r₂ r₃ : ChannelRegistry} {sent more : List Message} (first : Intake r₁ sent r₂)
      (second : Intake r₂ more r₃) : Intake r₁ (sent ++ more) r₃

namespace ClientStream

/-- How far a stream has come since it found its channel: it has read no request, or one into the
free slot, and then it stands between two frames. -/
def Since (channel : Channel) (c : ClientStream) : Prop :=
  (c.channel = channel ∧ c.requests = []) ∨
    (channel.requestClaimed = false ∧ c.stage = .length [] ∧ c.channel = channel.withRequest ∧
      ∃ payload, c.requests = [channel.requestOf payload])

theorem Since.mustPause {channel : Channel} {c : ClientStream}
    (h : c.stage = .length [] ∧ c.channel = channel.withRequest) : c.mustPause = true := by
  simp [ClientStream.mustPause, h.1, h.2, Channel.withRequest]

theorem Since.id_eq {channel : Channel} {c : ClientStream} (h : c.Since channel) :
    c.channel.id = channel.id := by
  rcases h with ⟨hc, -⟩ | ⟨-, -, hc, -⟩ <;> rw [hc]
  rfl

/-- A stream has read at most the request that its slot was free for. -/
theorem Since.slot {channel : Channel} {c : ClientStream} (h : c.Since channel) :
    c.requests.length + (if c.channel.requestClaimed then 0 else 1) ≤
      if channel.requestClaimed then 0 else 1 := by
  rcases h with ⟨hc, hq⟩ | ⟨hfree, -, hc, payload, hq⟩
  · refine Nat.le_of_eq ?_
    rw [hc, hq, List.length_nil, Nat.zero_add]
  · rw [hc, hq, hfree]
    exact Nat.le_refl 1

theorem Since.pause {channel : Channel} {c : ClientStream} (h : c.Since channel) :
    c.pause.Since channel := by
  unfold ClientStream.pause
  split
  · exact h
  · exact h

theorem since_complete {channel : Channel} {c : ClientStream} (hc : c.channel = channel)
    (hr : c.requests = []) (payload : Bytes) : (c.complete payload).Since channel := by
  subst hc
  cases hf : c.channel.requestClaimed with
  | true => exact .inl (by simp [complete, Channel.claimRequest, hf, hr])
  | false =>
    refine .inr ⟨hf, ?_, ?_, payload, ?_⟩ <;>
      simp [complete, Channel.claimRequest, hf, hr, Channel.establish, Channel.withRequest,
        Channel.requestOf]

/-- Up to the next pause, reading a byte is a step on the way. -/
theorem Since.read {limits : StreamLimits} {channel : Channel} {c d : ClientStream} {b : UInt8}
    (h : c.Since channel) (hp : c.mustPause = false) (hr : c.read limits b = .ok d) :
    d.Since channel := by
  rcases h with ⟨hc, hq⟩ | ⟨-, hs, hc, -⟩
  · unfold ClientStream.read at hr
    split at hr
    · split at hr
      · unfold announced at hr
        split at hr
        · cases hr
        split at hr
        · cases hr
          exact .inl ⟨hc, hq⟩
        · cases hr
          exact .inl ⟨hc, hq⟩
      · cases hr
        exact .inl ⟨hc, hq⟩
    · cases hr
    · cases hr
      exact since_complete hc hq _
    · cases hr
      exact .inl ⟨hc, hq⟩
    · cases hr
      exact .inl ⟨hc, hq⟩
  · rw [Since.mustPause ⟨hs, hc⟩] at hp
    cases hp

theorem Since.readAll {channel : Channel} {c : ClientStream} (h : c.Since channel)
    (limits : StreamLimits) (bytes : Bytes) : (c.readAll limits bytes).1.Since channel := by
  induction bytes generalizing c with
  | nil =>
    unfold ClientStream.readAll
    split
    · exact h.pause
    · exact h
  | cons b rest ih =>
    unfold ClientStream.readAll
    split
    · exact h.pause
    · rename_i hp
      split
      · exact h
      · rename_i d hr
        exact ih (h.read (by simpa using hp) hr)

/-- Storing the channel back is what a stream's reading comes to. -/
theorem Since.intake {channel : Channel} {c : ClientStream} {r : ChannelRegistry}
    (h : c.Since channel) (hf : r.find? channel.id = some channel) :
    Intake r c.requests (r.modify channel.id fun _ => c.channel) := by
  rcases h with ⟨hc, hq⟩ | ⟨hfree, -, hc, payload, hq⟩
  · rw [hc, hq]
    exact .store hf
  · rw [hc, hq]
    exact .request payload hf hfree

theorem readAll_cons {limits : StreamLimits} {c d : ClientStream} {b : UInt8}
    (hp : c.mustPause = false) (hr : c.read limits b = .ok d) (rest : Bytes) :
    c.readAll limits (b :: rest) = d.readAll limits rest := by
  rw [ClientStream.readAll, hp, hr]
  rfl

theorem readAll_payload {limits : StreamLimits} {c : ClientStream} {got payload : Bytes}
    (hs : c.stage = .payload payload.length got) (hp : payload ≠ []) (rest : Bytes) :
    c.readAll limits (payload ++ rest) = (c.complete (got.reverse ++ payload)).readAll limits rest := by
  induction payload generalizing c got with
  | nil => exact absurd rfl hp
  | cons b more ih =>
    have hm : c.mustPause = false := by simp [mustPause, hs]
    cases more with
    | nil =>
      refine readAll_cons hm ?_ rest
      simp [ClientStream.read, hs]
    | cons d more =>
      have hr : c.read limits b = .ok { c with stage := .payload (d :: more).length (b :: got) } := by
        simp [ClientStream.read, hs]
      rw [List.cons_append, readAll_cons hm hr, ih rfl (List.cons_ne_nil d more)]
      simp [complete]

/-- The four bytes of a length that is due lead to its payload. -/
theorem readAll_length {limits : StreamLimits} {c : ClientStream} {n : Nat}
    (hs : c.stage = .length []) (hfree : c.channel.requestClaimed = false)
    (hdue : n = limits.framing.requestLength c.channel.established)
    (hmax : n ≤ limits.maxFrameLength) (hword : n < 2 ^ 32) (rest : Bytes) :
    c.readAll limits (Bytes.ofWord n ++ rest) =
      { c with stage := .payload n [] }.readAll limits rest := by
  have hn := Bytes.toNat_ofWord_of_lt hword
  have hp : c.mustPause = false := by simp [mustPause, hfree]
  obtain ⟨w, x, y, z, hbytes⟩ : ∃ w x y z, Bytes.ofWord n = [w, x, y, z] := ⟨_, _, _, _, rfl⟩
  rw [hbytes] at hn ⊢
  simp only [List.cons_append, List.nil_append]
  rw [readAll_cons hp (by simp [ClientStream.read, hs]; rfl),
    readAll_cons (by simp [mustPause]) (by simp [ClientStream.read]; rfl),
    readAll_cons (by simp [mustPause]) (by simp [ClientStream.read]; rfl),
    readAll_cons (d := { c with stage := .payload n [] }) (by simp [mustPause])]
  simp [ClientStream.read, announced, hn, ← hdue, Nat.not_lt.2 hmax]

/-- A client that may send, and sends a frame of the length due, has its request read. -/
theorem readAll_frame {limits : StreamLimits} {c : ClientStream} {payload : Bytes}
    (hs : c.stage = .length []) (hfree : c.channel.requestClaimed = false)
    (hdue : payload.length = limits.framing.requestLength c.channel.established)
    (hpos : 0 < payload.length) (hmax : payload.length ≤ limits.maxFrameLength)
    (hword : payload.length < 2 ^ 32) :
    c.readAll limits (Frame.encodeClient payload) =
      ({ c with
        channel := c.channel.withRequest
        requests := c.requests ++ [c.channel.requestOf payload] }.pause, none, []) := by
  have hp : payload ≠ [] := List.ne_nil_of_length_pos hpos
  have hc : { c with stage := .payload payload.length [] }.complete payload =
      { c with
        channel := c.channel.withRequest
        requests := c.requests ++ [c.channel.requestOf payload] } := by
    simp [complete, Channel.claimRequest, hfree, hs, Channel.establish, Channel.withRequest,
      Channel.requestOf]
  have h := @readAll_payload limits { c with stage := .payload payload.length [] } [] payload rfl hp []
  rw [List.append_nil, List.reverse_nil, List.nil_append, hc] at h
  rw [Frame.encodeClient, readAll_length hs hfree hdue hmax hword, h, ClientStream.readAll]
  simp [mustPause, hs, Channel.withRequest]

end ClientStream

namespace ClientListener

theorem tearDown_intake (l : ClientListener) (c : ClientConnection) (reason : CloseReason) :
    Intake l.registry (l.tearDown c reason).1 (l.tearDown c reason).2.registry := by
  have h := Intake.leave l.registry c.channel (!(l.settings.isLast || reason == .stopped))
  cases hs : (l.settings.isLast || reason == .stopped) <;> simpa [tearDown, hs] using h

theorem readFrom_intake (l : ClientListener) (token : Nat) :
    Intake l.registry (l.readFrom token).1 (l.readFrom token).2.registry := by
  unfold readFrom
  split
  · exact .idle _
  · rename_i c hc
    split
    · exact .idle _
    · rename_i channel hf
      have hid := ChannelRegistry.find?_some_id hf
      have hsince : ClientStream.Since channel ⟨c.stage, c.paused, channel, [], 0, 0⟩ := .inl ⟨rfl, rfl⟩
      have hs := (hsince.readAll l.settings.limits c.unread).intake (by rwa [hid])
      rw [hid] at hs
      dsimp only
      split
      · exact hs
      · exact hs.seq (tearDown_intake (l.settle c _ _).2 _ _)

theorem arrive_intake (l : ClientListener) (token : Nat) (bytes : Bytes) (ended : Bool) :
    Intake l.registry (l.arrive token bytes ended).1 (l.arrive token bytes ended).2.registry := by
  unfold arrive
  split
  · exact .idle _
  · rename_i c _
    dsimp only
    split
    · exact .idle _
    · exact readFrom_intake
        (l.replace { c with unread := c.unread ++ bytes, ended := c.ended || ended }) token

theorem resumeOne_intake (l : ClientListener) (token : Nat) :
    Intake l.registry (l.resumeOne token).1 (l.resumeOne token).2.registry := by
  unfold resumeOne
  split
  · exact .idle _
  · rename_i c _
    exact readFrom_intake (l.replace { c with paused := false }) token

/-- Reading from a client that has not left, as far as its stream goes. -/
theorem readFrom_eq {l : ClientListener} {token : Nat} {c : ClientConnection} {channel : Channel}
    {s : ClientStream} {rest : Bytes} (hc : l.connection? token = some c)
    (hf : l.registry.find? c.channel = some channel) (he : c.ended = false)
    (hr : ClientStream.readAll l.settings.limits ⟨c.stage, c.paused, channel, [], 0, 0⟩ c.unread =
      (s, none, rest)) :
    l.readFrom token = (s.requests, (l.settle c s rest).2) := by
  simp only [readFrom, hc, hf, hr]
  simp [settle, he]

theorem connection?_replace {l : ClientListener} {token : Nat} {c d : ClientConnection}
    (h : l.connection? token = some c) (hd : d.token = token) :
    (l.replace d).connection? token = some d := by
  rw [connection?, List.find?_eq_some_iff_append] at h ⊢
  obtain ⟨hc, front, rest, hl, hfront⟩ := h
  refine ⟨by simpa using hd, front, rest.map fun e => if e.token = d.token then d else e, ?_, hfront⟩
  have hmap : front.map (fun e => if e.token = d.token then d else e) = front := by
    refine (List.map_congr_left fun e he => ?_).trans (List.map_id front)
    have hne : e.token ≠ token := by simpa using hfront e he
    exact if_neg (hd ▸ hne)
  simp only [replace, hl, List.map_append, hmap, List.map_cons]
  rw [if_pos (by simpa [hd] using hc)]

/-- The client of a channel is connected, stands between two frames, and has sent nothing ahead. -/
structure Ready (l : ClientListener) (token : Nat) (channel : Channel) : Prop where
  client : ∃ c, l.connection? token = some c ∧ c.token = token ∧ c.channel = channel.id ∧
    c.stage = .length [] ∧ c.unread = [] ∧ c.ended = false
  registered : l.registry.find? channel.id = some channel

theorem Ready.resumeOne {l : ClientListener} {token : Nat} {channel : Channel}
    (h : l.Ready token channel) (hfree : channel.requestClaimed = false) :
    (l.resumeOne token).1 = [] ∧ (l.resumeOne token).2.settings = l.settings ∧
      (l.resumeOne token).2.Ready token channel ∧
      ∃ c, (l.resumeOne token).2.connection? token = some c ∧ c.paused = false := by
  obtain ⟨⟨c, hc, ht, hid, hs, hu, he⟩, hf⟩ := h
  have hp := connection?_replace (d := { c with paused := false }) hc ht
  have hread : l.resumeOne token = ([], ((l.replace { c with paused := false }).settle
      { c with paused := false } ⟨c.stage, false, channel, [], 0, 0⟩ []).2) := by
    have hfound : (l.replace { c with paused := false }).registry.find? c.channel = some channel := by
      rw [← hf, ← hid]
      rfl
    simp only [ClientListener.resumeOne, hc]
    refine readFrom_eq (s := ⟨c.stage, false, channel, [], 0, 0⟩) hp hfound he ?_
    simp [hu, ClientStream.readAll, ClientStream.mustPause, hfree]
  have hq := connection?_replace (d := { c with stage := c.stage, paused := false, unread := [] }) hp ht
  rw [hread]
  refine ⟨rfl, rfl, ⟨⟨_, hq, ht, hid, hs, rfl, he⟩, ?_⟩, _, hq, rfl⟩
  simpa [settle, replace, hid] using ChannelRegistry.find?_modify hf rfl

/-- A client that is read again may send its next request at once. -/
theorem Ready.arrive {l : ClientListener} {token : Nat} {channel : Channel} {c : ClientConnection}
    (h : l.Ready token channel) (hc : l.connection? token = some c) (hp : c.paused = false)
    (hfree : channel.requestClaimed = false) {payload : Bytes}
    (hdue : payload.length = l.settings.limits.framing.requestLength channel.established)
    (hpos : 0 < payload.length) (hmax : payload.length ≤ l.settings.limits.maxFrameLength)
    (hword : payload.length < 2 ^ 32) :
    (l.arrive token (Frame.encodeClient payload) false).1 = [channel.requestOf payload] := by
  obtain ⟨⟨d, hd, ht, hid, hs, hu, he⟩, hf⟩ := h
  obtain rfl : c = d := Option.some.inj (hc.symm.trans hd)
  let d : ClientConnection :=
    { c with unread := c.unread ++ Frame.encodeClient payload, ended := c.ended || false }
  have hq : (l.replace d).connection? token = some d := connection?_replace hc ht
  have hr := ClientStream.readAll_frame (c := ⟨c.stage, c.paused, channel, [], 0, 0⟩) hs hfree hdue
    hpos hmax hword
  have hfound : (l.replace d).registry.find? d.channel = some channel := by
    rw [← hf, ← hid]
    rfl
  have hread : (l.replace d).readFrom token = _ :=
    readFrom_eq hq hfound (by simp [d, he]) (by simpa [d, hu, replace] using hr)
  have harrive : l.arrive token (Frame.encodeClient payload) false = (l.replace d).readFrom token := by
    simp only [ClientListener.arrive, hc]
    exact if_neg (by simp [hp])
  rw [harrive, hread]
  simp [ClientStream.pause, hp]

end ClientListener
end MixRelay
