import Espejismo.Crypto.Handshake.Agreement
import Espejismo.Mux.Native.Pair.Delivery
import Espejismo.Protocol.Request
import Espejismo.Transport.Copy.Trace
import Espejismo.Transport.Link.Progress

/-!
# Stack

The layers of a session put on each other.  The keys of a handshake make the encrypted
transport a byte pipe; over a byte pipe the multiplexer reads the frames that were written;
over a stream of the multiplexer the server reads the request that the client wrote.
-/

namespace Espejismo

open Binary List

/-- What a link with these keys is for those who only write to it and read from it. -/
def BytePipe (P : Platform) (wkeys rkeys : SessionKeys) (o : FrameOptions) : Prop :=
  ∀ (sizeA sizeB draw : Nat) (data : List UInt8) (events : Nat → LinkEvent),
    (data ≠ [] → 0 < sizeA ∧ 0 < sizeB) → (∀ n, (events n).Accepts) →
    let s := (Link.start wkeys rkeys o sizeA sizeB draw data).runs P events
    (∀ n, wkeys.txGeneration + ((s n).up.writer.sent.length + 3) < 2 ^ 64) →
    (∀ n, (s n).received <+: data ∧ ((s n).eof = true → (s n).received = data)) ∧
      (Fair o events → ∃ n, (s n).eof = true)

theorem bytePipe_of_mirrors (hke : SessionKeys.Mirrors wkeys rkeys) (ho : o.Usable)
    (hpa : o.maxPadding ≤ 262127) : BytePipe P wkeys rkeys o := by
  intro sizeA sizeB draw data events hsi hac s hro
  have hin := Link.runs_inv (Link.start_inv hke ho draw) ho hpa hac fun n => by
    have := hro n
    omega
  exact ⟨fun n => ⟨(hin n).received_isPrefix, (hin n).received_all⟩,
    fun hfa => exists_eof (fun _ => rfl) ho hac hin hfa hsi⟩

/-- **A session is a pair of byte pipes**: a compatible client and server come out of the
handshake with keys that join them in both directions. -/
theorem session_byte_pipes {e : Encounter P} (h : e.Compatible) (ho : o.Usable)
    (hpa : o.maxPadding ≤ 262127) :
    ∃ session clientKeys reply replay,
      (acceptHandshakeUsersInner e.users e.serverEnv).run (e.arrival []) =
        .ok session { input := [], output := reply, replay } ∧
      (connectHandshake e.client e.clientEnv).run
          { input := reply, output := [], replay := none } =
        .ok clientKeys { input := [], output := e.packet, replay := none } ∧
      BytePipe P clientKeys session.keys o ∧ BytePipe P session.keys clientKeys o := by
  obtain ⟨_, _, session, clientKeys, reply, replay, _, _, _, _, hap, _, _, hco,
    hfo, hba⟩ := h.agree [] []
  rw [append_nil] at hco
  exact ⟨session, clientKeys, reply, replay, hap, hco, bytePipe_of_mirrors hfo ho hpa,
    bytePipe_of_mirrors hba ho hpa⟩

theorem session_byte_pipes_sample : ∃ clientKeys serverKeys : SessionKeys,
    BytePipe (.reference .release) clientKeys serverKeys unpaddedOptions ∧
      BytePipe (.reference .release) serverKeys clientKeys unpaddedOptions := by
  obtain ⟨_, _, _, _, _, _, hpi⟩ := session_byte_pipes compatible_reference
    (o := unpaddedOptions) (fun hs => absurd hs (by decide)) (by decide)
  exact ⟨_, _, hpi⟩

namespace Mux

/-- Of a part of a stream of frames, the reader finds the frames that are there as a whole. -/
theorem readFrames_isPrefix (h : ∀ f ∈ frames, f.payload.length ≤ maxPayload)
    (hp : bytes <+: frames.flatMap Frame.encode) :
    ∃ got last, got <+: frames ∧
      readFrames (got.length + 1) bytes = got.map (.ok <| some ·) ++ [last] ∧
      (last = .ok none ∨ ∃ err, last = .error err) := by
  induction frames generalizing bytes with
  | nil =>
    obtain rfl := prefix_nil.mp hp
    exact ⟨[], _, nil_prefix, rfl, .inl rfl⟩
  | cons f frames ih =>
    have hf := h f (.head _)
    rw [flatMap_cons] at hp
    rcases Nat.lt_or_ge bytes.length f.encode.length with hlt | hle
    · obtain ⟨more, hcu⟩ := prefix_of_prefix_length_le hp (prefix_append ..) hlt.le
      have hmo : more ≠ [] := by
        rintro rfl
        simp [← hcu] at hlt
      by_cases hby : bytes = []
      · exact ⟨[], _, nil_prefix, by rw [hby]; rfl, .inl rfl⟩
      · obtain ⟨err, herr⟩ := readFrames_cut hf hcu.symm hby hmo
        exact ⟨[], _, nil_prefix, herr, .inr ⟨err, rfl⟩⟩
    · obtain ⟨rest, rfl⟩ := prefix_of_prefix_length_le (prefix_append ..) hp hle
      obtain ⟨got, last, hgo, hr, hla⟩ :=
        ih (fun g hg => h g (.tail _ hg)) ((prefix_append_right_inj _).mp hp)
      refine ⟨f :: got, last, by simpa using hgo, ?_, hla⟩
      rw [length_cons, readFrames, readFrame_encode hf]
      exact congrArg (.ok (some f) :: ·) hr

/-- What a link with these keys is for a session that writes frames to it. -/
def FramePipe (P : Platform) (wkeys rkeys : SessionKeys) (o : FrameOptions) : Prop :=
  ∀ (frames : List Frame) (sizeA sizeB draw : Nat) (events : Nat → LinkEvent),
    (∀ f ∈ frames, f.payload.length ≤ maxPayload) → 0 < sizeA ∧ 0 < sizeB →
    (∀ n, (events n).Accepts) → ∃ wire, writeFrames frames = .ok wire ∧
      let s := (Link.start wkeys rkeys o sizeA sizeB draw wire).runs P events
      (∀ n, wkeys.txGeneration + ((s n).up.writer.sent.length + 3) < 2 ^ 64) →
      (∀ n, ∃ got last, got <+: frames ∧
        readFrames (got.length + 1) (s n).received = got.map (.ok <| some ·) ++ [last] ∧
        (last = .ok none ∨ ∃ err, last = .error err)) ∧
      (Fair o events → ∃ n, readFrames (frames.length + 1) (s n).received =
        frames.map (.ok <| some ·) ++ [.ok none])

/-- **Frames go over a byte pipe**, whole and in order. -/
theorem frames_over_byte_pipe (hpp : BytePipe P wkeys rkeys o) : FramePipe P wkeys rkeys o := by
  intro frames sizeA sizeB draw events h hsi hac
  refine ⟨_, writeFrames_eq_ok h, fun hro => ?_⟩
  obtain ⟨hsa, hli⟩ := hpp sizeA sizeB draw _ events (fun _ => hsi) hac hro
  refine ⟨fun n => readFrames_isPrefix h (hsa n).1, fun hfa => ?_⟩
  obtain ⟨n, heo⟩ := hli hfa
  have hr := readFrames_encode h 1 []
  rw [append_nil, ← (hsa n).2 heo] at hr
  exact ⟨n, hr⟩

theorem frames_over_byte_pipe_sample :
    FramePipe (.reference .release) (sampleKeys .client) (sampleKeys .server) unpaddedOptions :=
  frames_over_byte_pipe (bytePipe_of_mirrors (mirrored_deriveKeys _ _ _ _).1
    (fun hs => absurd hs (by decide)) (by decide))

/-- One tunnelled connection: a stream between two sessions, the relay of the client
from the local connection to the stream and that of the server from the stream to the
target.  The order of the handlers is assumed, in `stream`: `handle_socks5_client_inner`
writes the request before it relays, `handle_mux_stream_inner` reads it before. -/
structure Tunnelled (P : Pair) (request got : TunnelRequest) (client server : Copy.Observed) :
    Prop where
  run : ∃ config, Machine.Reach Pair.step Machine.Any (Pair.connect config) P
  relays : Machine.Reach Copy.Observed.step Machine.Any {} client ∧
    Machine.Reach Copy.Observed.step Machine.Any {} server
  fits : request.Fits
  stream : ∃ (r r' : Ref) (near far : NativeStream),
    (P.session .client).handles[r]? = some near ∧ (P.session .server).handles[r']? = some far ∧
    near.id = far.id ∧
    -- the client writes the request and then relays; the server reads it and then relays
    near.written.flatten <+: request.write.bytes ++ Copy.writtenTo .b client.log ∧
    readTunnelRequest.run far.obtained = .ok got (Copy.readFrom .a server.log) ∧
    far.written.flatten <+: Copy.writtenTo .a server.log ∧
    Copy.readFrom .b client.log <+: near.obtained

theorem Pair.Sound.isPrefix (hP : Sound P) {st st' : NativeStream} {r r' : Ref}
    (hge : (P.session x).handles[r]? = some st)
    (hge' : (P.session x.peer).handles[r']? = some st') (hid : st'.id = st.id) :
    st.obtained <+: st'.written.flatten := by
  have hp := hP.obtained_isPrefix (stream_of_handle hP.linked hge)
  have hst' := stream_of_handle hP.linked hge'
  rw [hid] at hst'
  simpa [Endpoint.written, hst'] using hp

/-- What follows a request does not matter to its reader. -/
theorem readTunnelRequest_of_isPrefix (h : request.Fits)
    (hr : readTunnelRequest.run bytes = .ok got rest)
    (hp : bytes <+: request.write.bytes ++ body) : got = request ∧ rest <+: body := by
  obtain ⟨hgo, rfl⟩ := write_of_readTunnelRequest hr
  obtain ⟨more, hmo⟩ := hp
  have hwh := (readTunnelRequest_write body h).2
  rw [← hmo, append_assoc, (readTunnelRequest_write _ hgo).2] at hwh
  obtain ⟨rfl, rfl⟩ := EStateM.Result.ok.inj hwh
  exact ⟨rfl, prefix_append ..⟩

/-- **The tunnel is faithful**: the server connects as the client asked, and at every point
the target was given a prefix of what the local connection sent, and the local
connection a prefix of what the target sent. -/
theorem tunnel_faithful (h : Tunnelled P request got client server) :
    got = request ∧ Copy.writtenTo .b server.log <+: Copy.readFrom .a client.log ∧
      Copy.writtenTo .a client.log <+: Copy.readFrom .b server.log := by
  obtain ⟨config, hru⟩ := h.run
  obtain ⟨r, r', near, far, hne, hfr, hid, hak, hgo, hba, han⟩ := h.stream
  have hP := Pair.sound_of_reach hru
  have hrl {o : Copy.Observed} (ho : Machine.Reach Copy.Observed.step Machine.Any {} o)
      (side : Copy.Side) : Copy.writtenTo side.other o.log <+: Copy.readFrom side o.log :=
    ⟨_, ((Copy.sound_of_reach ho).readFrom_eq side).symm⟩
  have hfo : far.obtained <+: near.written.flatten := hP.isPrefix (x := .server) hfr hne hid
  have hrt : near.obtained <+: far.written.flatten := hP.isPrefix (x := .client) hne hfr hid.symm
  obtain ⟨hrq, hbo⟩ := readTunnelRequest_of_isPrefix h.fits hgo (hfo.trans hak)
  refine ⟨hrq, ?_, ?_⟩
  · exact ((hrl h.relays.2 .a).trans hbo).trans (hrl h.relays.1 .a)
  · calc Copy.writtenTo .a client.log
      _ <+: Copy.readFrom .b client.log := hrl h.relays.1 .b
      _ <+: near.obtained := han
      _ <+: far.written.flatten := hrt
      _ <+: Copy.writtenTo .a server.log := hba
      _ <+: Copy.readFrom .b server.log := hrl h.relays.2 .b

/-- The client's relay takes a byte from the local connection and writes it to the stream. -/
def oneByte : List Copy.Event := [.read .a [7], .metered none, .wrote 1]

theorem tunnel_faithful_one_byte : ∃ P request client server,
    Tunnelled P request request client server ∧ Copy.writtenTo .b server.log = [7] ∧
      Copy.writtenTo .b server.log <+: Copy.readFrom .a client.log := by
  have hrq : (TunnelRequest.tcpConnect ['a'] .bulk).Fits := ⟨by decide, by decide⟩
  obtain ⟨o, ho, hr, hwr⟩ := Machine.exists_of_run Copy.Observed.step Machine.Any {}
    (fun o => (Copy.readFrom .a o.log = [7] ∧ Copy.readFrom .b o.log = []) ∧
      Copy.writtenTo .b o.log = [7]) oneByte (by decide +kernel)
  obtain ⟨P, hrc, hse, hcl⟩ := Machine.exists_of_run Pair.step Machine.Any
    (Pair.connect fun _ => {})
    (fun P => (P.session .server).handles[0]?.map (fun st => (st.id, st.obtained, st.written)) =
        some (1, (TunnelRequest.tcpConnect ['a'] .bulk).write.bytes ++ [7], []) ∧
      (P.session .client).handles[0]?.map (fun st => (st.id, st.written.flatten)) =
        some (1, (TunnelRequest.tcpConnect ['a'] .bulk).write.bytes ++ [7]))
    (Pair.opening ++ Pair.sending ((TunnelRequest.tcpConnect ['a'] .bulk).write.bytes ++ [7]) ++
      [.act .server (.read 0 64)]) (by decide +kernel)
  obtain ⟨far, hfr, hst⟩ := Option.map_eq_some_iff.mp hse
  obtain ⟨near, hne, hst'⟩ := Option.map_eq_some_iff.mp hcl
  simp only [Prod.mk.injEq] at hst hst'
  have h : Tunnelled P (.tcpConnect ['a'] .bulk) (.tcpConnect ['a'] .bulk) o o :=
    ⟨⟨_, hrc⟩, ⟨ho, ho⟩, hrq, 0, 0, near, far, hne, hfr, hst'.1.trans hst.1.symm,
      by rw [hst'.2, hwr], by rw [hst.2.1, hr.1]; exact (readTunnelRequest_write _ hrq).2,
      by simp [hst.2.2], by simp [hr.2]⟩
  exact ⟨P, _, o, o, h, hwr, (tunnel_faithful h).2.1⟩

end Mux

end Espejismo
