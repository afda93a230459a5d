import Espejismo.Dns
import Espejismo.Egress.Ranges

/-!
# Server.Relay

Egress of a remote (`relay.rs`): the TCP connection and the UDP exchange that a
tunnel request asks for.
-/

namespace Espejismo

open Net List EStateM

/-! ## The program -/

inductive Attempt (T : Type) where
  | connected (stream : T)
  | failed (err : Error)
  | timedOut

/-- The network a remote relays to.  A connection attempt is also told how many
were made before it. -/
structure Network (T : Type) where
  resolver : Resolver
  connect : (made : Nat) → SocketAddr → Attempt T
  connectViaSocks4Proxy : EgressProxy → (authority : List Char) → Except Error T
  connectViaSocks5Proxy : EgressProxy → (authority : List Char) → Except Error T
  connectViaHttpProxy : EgressProxy → (authority : List Char) → Except Error T
  relayUdpViaSocks5Proxy :
    EgressProxy → (authority : List Char) → (payload : List UInt8) → Except Error (List UInt8)
  udpBind : (ipv4 : Bool) → Except Error Unit
  udpConnect : SocketAddr → Except Error Unit
  udpSend : SocketAddr → (payload : List UInt8) → Except Error Unit
  udpRecv : SocketAddr → Option (Except Error (List UInt8))

/-- What a remote has done on the network so far: the addresses it dialled and
the datagrams it sent, beside the cache of the resolver. -/
structure EgressIo where
  cache : DnsCache := {}
  dialled : List SocketAddr := []
  sent : List (SocketAddr × List UInt8) := []

def IpAddr.isIpv4 : IpAddr → Bool
  | .v4 .. => true
  | .v6 _ => false

section Program

variable {T : Type} (network : Network T) (egress : EgressPolicy)

def EgressIo.resolve (authority : List Char) : EStateM Error EgressIo (List SocketAddr) :=
  fun io => match (resolveSocketAddrs network.resolver authority).run io.cache with
    | .ok addrs cache => .ok addrs { io with cache }
    | .error e cache => .error e { io with cache }

/-- Each address gets one bounded attempt, until one connects. -/
def connectFirstAllowed : List SocketAddr → Option Error → EStateM Error EgressIo T
  | [], lastError => throw (lastError.getD (.msg "no resolved egress address"))
  | addr :: addrs, _ =>
    match egress.validateResolvedAddr addr with
    | .error err => connectFirstAllowed addrs (some err)
    | .ok () => do
      let made := (← get).dialled.length
      modify fun io => { io with dialled := io.dialled ++ [addr] }
      match network.connect made addr with
      | .timedOut =>
        let shown := String.ofList addr.display
        connectFirstAllowed addrs (some (.msg s!"connection to {shown} timed out"))
      | .connected stream => return stream
      | .failed err => connectFirstAllowed addrs (some err)

def withContext (text : String) (m : EStateM Error σ α) : EStateM Error σ α :=
  fun s => match m s with
    | .ok a s => .ok a s
    | .error _ s => .error (.msg text) s

def connectEgressTcpInner (authority : List Char) : EStateM Error EgressIo T := do
  withContext "egress policy rejected target"
    (MonadExcept.ofExcept (egress.validateAuthority authority))
  match ← MonadExcept.ofExcept egress.upstreamProxy with
  | some proxy =>
    match proxy.kind with
    | .socks4 | .socks4a => MonadExcept.ofExcept (network.connectViaSocks4Proxy proxy authority)
    | .socks5 => MonadExcept.ofExcept (network.connectViaSocks5Proxy proxy authority)
    | .http | .https => MonadExcept.ofExcept (network.connectViaHttpProxy proxy authority)
  | none =>
    let addrs ← EgressIo.resolve network authority
    let shown := String.ofList authority
    withContext s!"connect {shown}" (connectFirstAllowed network egress addrs none)

/-- The socket part of `relay_udp_datagram_inner`: one datagram to an address and
the one that answers. -/
def exchangeDatagram (target : SocketAddr) (payload : List UInt8) :
    EStateM Error EgressIo (List UInt8) := do
  MonadExcept.ofExcept (network.udpBind (IpAddr.isIpv4 target.ip))
  MonadExcept.ofExcept (network.udpConnect target)
  modify fun io => { io with sent := io.sent ++ [(target, payload)] }
  MonadExcept.ofExcept (network.udpSend target payload)
  match network.udpRecv target with
  | none => throw (.msg "deadline has elapsed")
  | some response => return (← MonadExcept.ofExcept response).take 65535

def relayUdpDatagramInner (authority : List Char) (payload : List UInt8) :
    EStateM Error EgressIo (List UInt8) := do
  withContext "egress policy rejected UDP target"
    (MonadExcept.ofExcept (egress.validateAuthority authority))
  match ← MonadExcept.ofExcept egress.upstreamProxy with
  | some proxy =>
    match proxy.kind with
    | .socks4 | .socks4a => throw (.msg
        "SOCKS4/SOCKS4a egress proxy does not support UDP; use socks5:// for UDP relay")
    | .socks5 => MonadExcept.ofExcept (network.relayUdpViaSocks5Proxy proxy authority payload)
    | .http | .https => throw (.msg
        "HTTP/HTTPS egress proxy does not support UDP; use socks5:// for UDP relay")
  | none =>
    let addrs ← EgressIo.resolve network authority
    match addrs.find? fun addr => (egress.validateResolvedAddr addr).isOk with
    | none => throw (.msg "no allowed UDP egress address")
    | some target => exchangeDatagram network target payload

end Program

/-! ## The specification -/

def EgressPolicy.allowed (policy : EgressPolicy) (addrs : List SocketAddr) : List SocketAddr :=
  addrs.filter fun addr => (policy.validateResolvedAddr addr).isOk

/-- Addresses are dialled in order until one connects; `tried` are those that
were. -/
inductive Dials (connect : Nat → SocketAddr → Attempt T) :
    (made : Nat) → (addrs tried : List SocketAddr) → (outcome : Option T) → Prop
  | exhausted {made} : Dials connect made [] [] none
  | connected {made addr addrs stream} (h : connect made addr = .connected stream) :
      Dials connect made (addr :: addrs) [addr] (some stream)
  | next {made addr addrs tried outcome} (h : ∀ stream, connect made addr ≠ .connected stream)
      (rest : Dials connect (made + 1) addrs tried outcome) :
      Dials connect made (addr :: addrs) (addr :: tried) outcome

structure UdpExchange (network : Network T) (target : SocketAddr) (payload reply : List UInt8) :
    Prop where
  bind : network.udpBind (IpAddr.isIpv4 target.ip) = .ok ()
  connect : network.udpConnect target = .ok ()
  send : network.udpSend target payload = .ok ()
  recv : network.udpRecv target = some (.ok reply)

def value? : EStateM.Result ε σ α → Option α
  | .ok a _ => some a
  | .error _ _ => none

def contacted (io io' : EgressIo) : List SocketAddr :=
  io'.dialled.drop io.dialled.length ++ (io'.sent.drop io.sent.length).map (·.1)

/-- A connection request keeps to the policy: the addresses allowed are dialled in
order, and none unless the policy takes the authority and it resolves. -/
def DialsAllowed (network : Network T) (policy : EgressPolicy) (authority : List Char)
    (io : EgressIo) : Prop :=
  let result := (connectEgressTcpInner network policy authority).run io
  (finalState result).sent = io.sent ∧
  match policy.validateAuthority authority, (EgressIo.resolve network authority).run io with
  | .ok (), .ok addrs _ =>
    ∃ tried, Dials network.connect io.dialled.length (policy.allowed addrs) tried
        (value? result) ∧ (finalState result).dialled = io.dialled ++ tried
  | _, _ => value? result = none ∧ (finalState result).dialled = io.dialled

/-- A datagram request keeps to the policy: the first address allowed gets the
datagram, and the request fails only without one or with the socket. -/
def SendsAllowed (network : Network T) (policy : EgressPolicy) (authority : List Char)
    (payload : List UInt8) (io : EgressIo) : Prop :=
  let result := (relayUdpDatagramInner network policy authority payload).run io
  (finalState result).dialled = io.dialled ∧
  match policy.validateAuthority authority, (EgressIo.resolve network authority).run io with
  | .ok (), .ok addrs _ =>
    match (policy.allowed addrs).head? with
    | none => value? result = none ∧ (finalState result).sent = io.sent
    | some target =>
      (∃ reply, UdpExchange network target payload reply ∧
        value? result = some (reply.take 65535) ∧
        (finalState result).sent = io.sent ++ [(target, payload)]) ∨
      ((¬∃ reply, UdpExchange network target payload reply) ∧ value? result = none ∧
        ((finalState result).sent = io.sent ∨
          (finalState result).sent = io.sent ++ [(target, payload)]))
  | _, _ => value? result = none ∧ (finalState result).sent = io.sent

/-- What holds of every address that a request for the authority contacts. -/
structure MayContact (network : Network T) (policy : EgressPolicy) (authority : List Char)
    (io : EgressIo) (addr : SocketAddr) : Prop where
  accepted : policy.validateAuthority authority = .ok ()
  answer : ∃ addrs, Answered network.resolver io.cache authority addrs ∧ addr ∈ addrs
  valid : policy.validateResolvedAddr addr = .ok ()
  notPrivate : policy.denyPrivateIps = true → ¬PrivateIp addr.ip
  unblocked : addr.port ∉ policy.blockPorts
  listed : policy.allowPorts = [] ∨ addr.port ∈ policy.allowPorts

/-! ## Its proof -/

section

variable {T : Type} {network : Network T} {policy : EgressPolicy} {authority : List Char}

variable {addr : SocketAddr} {addrs : List SocketAddr} {io : EgressIo}

theorem validateResolvedAddr_eq_ok (h : policy.validateResolvedAddr addr = .ok ()) :
    (policy.denyPrivateIps = true → ¬PrivateIp addr.ip) ∧ addr.port ∉ policy.blockPorts ∧
      (policy.allowPorts = [] ∨ addr.port ∈ policy.allowPorts) := by
  simp only [EgressPolicy.validateResolvedAddr, ensure_bind_eq_ok, ensure_eq_ok] at h
  obtain ⟨hip, hbl, haw⟩ := h
  refine ⟨fun hde hpr => ?_, by simpa using hbl, by simpa using haw⟩
  simp [hde, isPrivateOrSpecial_of_privateIp hpr] at hip

theorem mem_allowed :
    addr ∈ policy.allowed addrs ↔ addr ∈ addrs ∧ policy.validateResolvedAddr addr = .ok () := by
  rw [EgressPolicy.allowed, mem_filter]
  cases policy.validateResolvedAddr addr <;> simp [Except.toBool]

theorem Dials.subset (h : Dials connect made addrs tried outcome) : tried ⊆ addrs := by
  induction h with
  | exhausted | connected => simp
  | next h rest ih => exact cons_subset_cons _ ih

theorem run_connectFirstAllowed_cons (addr : SocketAddr) (addrs : List SocketAddr)
    (lastError : Option Error) (io : EgressIo) (h : policy.validateResolvedAddr addr = .ok ()) :
    (∃ stream, network.connect io.dialled.length addr = .connected stream ∧
      (connectFirstAllowed network policy (addr :: addrs) lastError).run io =
        .ok stream { io with dialled := io.dialled ++ [addr] }) ∨
    (∃ err, (∀ stream, network.connect io.dialled.length addr ≠ .connected stream) ∧
      (connectFirstAllowed network policy (addr :: addrs) lastError).run io =
        (connectFirstAllowed network policy addrs (some err)).run
          { io with dialled := io.dialled ++ [addr] }) := by
  cases hc : network.connect io.dialled.length addr with
  | connected stream =>
    refine .inl ⟨stream, rfl, ?_⟩
    simp only [connectFirstAllowed, h, run_bind, run_get, hc]
    rfl
  | failed err =>
    exact .inr ⟨err, by simp, by simp [connectFirstAllowed, h, hc]⟩
  | timedOut =>
    exact .inr ⟨_, by simp, by simp [connectFirstAllowed, h, hc]; rfl⟩

theorem connectFirstAllowed_spec (network : Network T) (policy : EgressPolicy)
    (addrs : List SocketAddr) (lastError : Option Error) (io : EgressIo) :
    ∃ tried, Dials network.connect io.dialled.length (policy.allowed addrs) tried
        (value? ((connectFirstAllowed network policy addrs lastError).run io)) ∧
      finalState ((connectFirstAllowed network policy addrs lastError).run io) =
        { io with dialled := io.dialled ++ tried } := by
  induction addrs generalizing lastError io with
  | nil =>
    refine ⟨[], .exhausted, ?_⟩
    rw [append_nil]
    rfl
  | cons addr addrs ih =>
    cases hv : policy.validateResolvedAddr addr with
    | error err =>
      have hal : policy.allowed (addr :: addrs) = policy.allowed addrs := by
        simp [EgressPolicy.allowed, hv, Except.toBool]
      simp only [connectFirstAllowed, hv, hal]
      exact ih (some err) io
    | ok =>
      have hal : policy.allowed (addr :: addrs) = addr :: policy.allowed addrs := by
        simp [EgressPolicy.allowed, hv, Except.toBool]
      rw [hal]
      obtain ⟨stream, hc, hru⟩ | ⟨err, hc, hru⟩ :=
        run_connectFirstAllowed_cons addr addrs lastError io hv
      · rw [hru]
        exact ⟨[addr], .connected hc, rfl⟩
      rw [hru]
      obtain ⟨tried, hd, hfi⟩ := ih (some err) { io with dialled := io.dialled ++ [addr] }
      rw [length_append] at hd
      refine ⟨addr :: tried, .next hc hd, ?_⟩
      rw [hfi, append_assoc]
      rfl

theorem target_cases (network : Network T) (policy : EgressPolicy) (authority : List Char)
    (io : EgressIo) :
    (∃ e, policy.validateAuthority authority = .error e) ∨
    policy.validateAuthority authority = .ok () ∧ ∃ cache,
      (∃ e, (EgressIo.resolve network authority).run io = .error e { io with cache }) ∨
      ∃ addrs, (EgressIo.resolve network authority).run io = .ok addrs { io with cache } := by
  cases policy.validateAuthority authority with
  | error e => exact .inl ⟨e, rfl⟩
  | ok =>
    refine .inr ⟨rfl, ?_⟩
    simp only [EgressIo.resolve, EStateM.run]
    cases resolveSocketAddrs network.resolver authority io.cache with
    | error e cache => exact ⟨cache, .inl ⟨e, rfl⟩⟩
    | ok addrs cache => exact ⟨cache, .inr ⟨addrs, rfl⟩⟩

theorem answered_of_resolve (h : (EgressIo.resolve network authority).run io = .ok addrs io₁) :
    Answered network.resolver io.cache authority addrs := by
  simp only [EgressIo.resolve, EStateM.run] at h
  split at h
  · next hre =>
    cases h
    exact answered_of_resolveSocketAddrs hre
  · cases h

theorem value?_withContext (text : String) (m : EStateM Error σ α) (s : σ) :
    value? ((withContext text m).run s) = value? (m.run s) := by
  simp only [withContext, EStateM.run]
  cases m s <;> rfl

theorem finalState_withContext (text : String) (m : EStateM Error σ α) (s : σ) :
    finalState ((withContext text m).run s) = finalState (m.run s) := by
  simp only [withContext, EStateM.run]
  cases m s <;> rfl

theorem upstreamProxy_eq_none (hp : policy.proxy = none) (hso5 : policy.socks5Proxy = none) :
    policy.upstreamProxy = .ok none := by
  simp [EgressConfig.upstreamProxy, hp, hso5]

theorem run_connectEgressTcpInner (hp : policy.upstreamProxy = .ok none) (io : EgressIo) :
    (connectEgressTcpInner network policy authority).run io =
      match policy.validateAuthority authority, (EgressIo.resolve network authority).run io with
      | .error _, _ => .error (.msg "egress policy rejected target") io
      | .ok (), .error e io => .error e io
      | .ok (), .ok addrs io =>
        (withContext ("connect " ++ String.ofList authority)
          (connectFirstAllowed network policy addrs none)).run io := by
  unfold connectEgressTcpInner
  cases hv : policy.validateAuthority authority with
  | error => rfl
  | ok =>
    rw [hp]
    change (EgressIo.resolve network authority >>= fun addrs => withContext _ _).run io = _
    rw [run_bind]
    cases (EgressIo.resolve network authority).run io <;> rfl

theorem run_relayUdpDatagramInner (hp : policy.upstreamProxy = .ok none)
    (payload : List UInt8) (io : EgressIo) :
    (relayUdpDatagramInner network policy authority payload).run io =
      match policy.validateAuthority authority, (EgressIo.resolve network authority).run io with
      | .error _, _ => .error (.msg "egress policy rejected UDP target") io
      | .ok (), .error e io => .error e io
      | .ok (), .ok addrs io =>
        match (policy.allowed addrs).head? with
        | none => .error (.msg "no allowed UDP egress address") io
        | some target => (exchangeDatagram network target payload).run io := by
  unfold relayUdpDatagramInner
  cases hv : policy.validateAuthority authority with
  | error => rfl
  | ok =>
    rw [hp]
    simp only [EgressPolicy.allowed, head?_filter]
    change (EgressIo.resolve network authority >>= fun addrs => _).run io = _
    rw [run_bind]
    cases (EgressIo.resolve network authority).run io with
    | error => rfl
    | ok addrs =>
      simp only
      cases addrs.find? fun addr => (policy.validateResolvedAddr addr).isOk <;> rfl

theorem exchangeDatagram_spec (network : Network T) (target : SocketAddr) (payload : List UInt8)
    (io : EgressIo) :
    (∃ reply, UdpExchange network target payload reply ∧
      (exchangeDatagram network target payload).run io =
        .ok (reply.take 65535) { io with sent := io.sent ++ [(target, payload)] }) ∨
    ((¬∃ reply, UdpExchange network target payload reply) ∧
      ∃ e io', (exchangeDatagram network target payload).run io = .error e io' ∧
        (io' = io ∨ io' = { io with sent := io.sent ++ [(target, payload)] })) := by
  unfold exchangeDatagram
  cases hbi : network.udpBind (IpAddr.isIpv4 target.ip) with
  | error e =>
    refine .inr ⟨?_, e, io, rfl, .inl rfl⟩
    rintro ⟨reply, h⟩
    cases hbi.symm.trans h.bind
  | ok =>
  cases hc : network.udpConnect target with
  | error e =>
    refine .inr ⟨?_, e, io, rfl, .inl rfl⟩
    rintro ⟨reply, h⟩
    cases hc.symm.trans h.connect
  | ok =>
  cases hsd : network.udpSend target payload with
  | error e =>
    refine .inr ⟨?_, e, _, rfl, .inr rfl⟩
    rintro ⟨reply, h⟩
    cases hsd.symm.trans h.send
  | ok =>
  cases hrc : network.udpRecv target with
  | none =>
    refine .inr ⟨?_, _, _, rfl, .inr rfl⟩
    rintro ⟨reply, h⟩
    cases hrc.symm.trans h.recv
  | some response =>
  cases response with
  | error e =>
    refine .inr ⟨?_, e, _, rfl, .inr rfl⟩
    rintro ⟨reply, h⟩
    cases hrc.symm.trans h.recv
  | ok reply => exact .inl ⟨reply, ⟨hbi, hc, hsd, hrc⟩, rfl⟩

theorem connectEgressTcpInner_dialsAllowed (hp : policy.upstreamProxy = .ok none)
    (io : EgressIo) : DialsAllowed network policy authority io := by
  unfold DialsAllowed
  intro result
  have hr : result = _ := run_connectEgressTcpInner hp io
  obtain ⟨e, hv⟩ | ⟨hv, cache, ⟨e, hre⟩ | ⟨addrs, hre⟩⟩ :=
    target_cases network policy authority io
  · rw [hv] at hr ⊢
    rw [hr]
    exact ⟨rfl, rfl, rfl⟩
  · rw [hv, hre] at hr ⊢
    rw [hr]
    exact ⟨rfl, rfl, rfl⟩
  · rw [hv, hre] at hr ⊢
    obtain ⟨tried, hd, hfi⟩ := connectFirstAllowed_spec network policy addrs none { io with cache }
    rw [hr, finalState_withContext, value?_withContext, hfi]
    exact ⟨rfl, tried, hd, rfl⟩

theorem relayUdpDatagramInner_sendsAllowed (hp : policy.upstreamProxy = .ok none)
    (payload : List UInt8) (io : EgressIo) : SendsAllowed network policy authority payload io := by
  unfold SendsAllowed
  intro result
  have hr : result = _ := run_relayUdpDatagramInner hp payload io
  obtain ⟨e, hv⟩ | ⟨hv, cache, ⟨e, hre⟩ | ⟨addrs, hre⟩⟩ :=
    target_cases network policy authority io
  · rw [hv] at hr ⊢
    rw [hr]
    exact ⟨rfl, rfl, rfl⟩
  · rw [hv, hre] at hr ⊢
    rw [hr]
    exact ⟨rfl, rfl, rfl⟩
  · rw [hv, hre] at hr ⊢
    cases hhe : (policy.allowed addrs).head? with
    | none =>
      simp only [hhe] at hr ⊢
      rw [hr]
      exact ⟨rfl, rfl, rfl⟩
    | some target =>
      simp only [hhe] at hr ⊢
      obtain ⟨reply, hrp, hru⟩ | ⟨hno, e, io', hru, hio⟩ :=
        exchangeDatagram_spec network target payload { io with cache }
      · rw [hr, hru]
        exact ⟨rfl, .inl ⟨reply, hrp, rfl, rfl⟩⟩
      rw [hr, hru]
      rcases hio with rfl | rfl
      · exact ⟨rfl, .inr ⟨hno, rfl, .inl rfl⟩⟩
      · exact ⟨rfl, .inr ⟨hno, rfl, .inr rfl⟩⟩

theorem MayContact.of_mem_allowed (hv : policy.validateAuthority authority = .ok ())
    (hre : (EgressIo.resolve network authority).run io = .ok addrs io₁)
    (h : addr ∈ policy.allowed addrs) : MayContact network policy authority io addr := by
  obtain ⟨hme, ha⟩ := mem_allowed.mp h
  obtain ⟨hpu, hun, hli⟩ := validateResolvedAddr_eq_ok ha
  exact ⟨hv, ⟨addrs, answered_of_resolve hre, hme⟩, ha, hpu, hun, hli⟩

theorem DialsAllowed.mayContact (h : DialsAllowed network policy authority io) (ha : addr ∈
      contacted io (finalState ((connectEgressTcpInner network policy authority).run io))) :
    MayContact network policy authority io addr := by
  obtain ⟨hs, h⟩ := h
  simp only [contacted, hs, drop_length, map_nil, append_nil] at ha
  split at h
  · next addrs io₁ hv hre =>
    obtain ⟨tried, hd, hdi⟩ := h
    rw [hdi, drop_left] at ha
    exact .of_mem_allowed hv hre (hd.subset ha)
  · rw [h.2, drop_length] at ha
    cases ha

theorem SendsAllowed.mayContact (h : SendsAllowed network policy authority payload io) (ha : addr ∈
      contacted io (finalState ((relayUdpDatagramInner network policy authority payload).run io))) :
    MayContact network policy authority io addr := by
  obtain ⟨hdi, h⟩ := h
  simp only [contacted, hdi, drop_length] at ha
  split at h
  · next addrs io₁ hv hre =>
    split at h
    · rw [h.2, drop_length] at ha
      cases ha
    · next target hhe =>
      have hme := mem_of_head? hhe
      obtain ⟨reply, -, -, hs⟩ | ⟨-, -, hs | hs⟩ := h
      · rw [hs, drop_left] at ha
        cases mem_singleton.mp ha
        exact .of_mem_allowed hv hre hme
      · rw [hs, drop_length] at ha
        cases ha
      · rw [hs, drop_left] at ha
        cases mem_singleton.mp ha
        exact .of_mem_allowed hv hre hme
  · rw [h.2, drop_length] at ha
    cases ha

end

/-- **Direct egress obeys the policy**, for a connection and for a datagram. -/
theorem direct_egress_obeys_policy {T : Type} (network : Network T) (policy : EgressPolicy)
    (hp : policy.proxy = none) (hso5 : policy.socks5Proxy = none) (authority : List Char)
    (payload : List UInt8) (io : EgressIo) :
    DialsAllowed network policy authority io ∧ SendsAllowed network policy authority payload io ∧
    (∀ addr ∈ contacted io (finalState ((connectEgressTcpInner network policy authority).run io)),
      MayContact network policy authority io addr) ∧
    (∀ addr ∈
        contacted io (finalState ((relayUdpDatagramInner network policy authority payload).run io)),
      MayContact network policy authority io addr) := by
  have hdr := upstreamProxy_eq_none hp hso5
  have hd : DialsAllowed network policy authority io := connectEgressTcpInner_dialsAllowed hdr io
  have hsn : SendsAllowed network policy authority payload io :=
    relayUdpDatagramInner_sendsAllowed hdr payload io
  exact ⟨hd, hsn, fun addr => hd.mayContact, fun addr => hsn.mayContact⟩

/-- A name that resolves to a private address, to one that refuses and to one
that connects, under a policy that closes the private ones. -/
def sampleNetwork : Network Unit where
  resolver := {
    lookup := fun _ _ => .found [⟨.v4 10 0 0 1, 443⟩, ⟨.v4 8 8 8 8, 443⟩, ⟨.v4 8 8 4 4, 443⟩]
    now := 0 }
  connect made _ := if made = 0 then .failed (.msg "refused") else .connected ()
  connectViaSocks4Proxy _ _ := .error .io
  connectViaSocks5Proxy _ _ := .error .io
  connectViaHttpProxy _ _ := .error .io
  relayUdpViaSocks5Proxy _ _ _ := .error .io
  udpBind _ := .ok ()
  udpConnect _ := .ok ()
  udpSend _ _ := .ok ()
  udpRecv _ := some (.ok [1])

theorem direct_egress_obeys_policy_sample :
    let policy : EgressPolicy := { denyPrivateIps := true, allowPorts := [443] }
    let authority := "dns.example:443".toList
    let io' := finalState ((connectEgressTcpInner sampleNetwork policy authority).run {})
    contacted {} io' = [⟨.v4 8 8 8 8, 443⟩, ⟨.v4 8 8 4 4, 443⟩] ∧
      ∀ addr ∈ contacted {} io', MayContact sampleNetwork policy authority {} addr :=
  ⟨by decide, (direct_egress_obeys_policy sampleNetwork
    { denyPrivateIps := true, allowPorts := [443] } rfl rfl "dns.example:443".toList [] {}).2.2.1⟩

end Espejismo
