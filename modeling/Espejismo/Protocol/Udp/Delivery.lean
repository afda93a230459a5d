import Espejismo.Data.Machine
import Espejismo.Protocol.Udp

/-!
# Protocol.Udp.Delivery

Two endpoints and a network that may lose, repeat and reorder their packets: a packet that
was produced can arrive at the other side at any later time, any number of times.
-/

namespace Espejismo.Udp

open Binary List

structure Net where
  sender : UdpReliability
  receiver : UdpReliability
  toReceiver : List UdpPacket := []
  toSender : List UdpPacket := []
  sent : List (List UInt8) := []
  delivered : List DeliveredDatagram := []

namespace Net

inductive Event where
  | send (payload : List UInt8) (now : Nat)
  | poll (now : Nat)
  | receive (i : Nat)
  | acknowledge (i : Nat)

def start (sessionId : UInt64) (retransmitAfter : Nat) : Net :=
  { sender := { sessionId, retransmitAfter }, receiver := { sessionId, retransmitAfter } }

def step (build : Build) (s : Net) : Event → Option Net
  | .send payload now =>
    some { s with
      sender := (s.sender.nextData payload now).2
      toReceiver := s.toReceiver ++ [(s.sender.nextData payload now).1]
      sent := s.sent ++ [payload] }
  | .poll now =>
    some { s with
      sender := (s.sender.dueRetransmissions now).2
      toReceiver := s.toReceiver ++ (s.sender.dueRetransmissions now).1 }
  | .receive i =>
    match s.toReceiver[i]?.map (s.receiver.handlePacket build) with
    | some (.ok ((delivered, ack), receiver)) =>
      some { s with receiver, toSender := s.toSender ++ [ack], delivered := s.delivered ++
        delivered }
    | _ => none
  | .acknowledge i =>
    match s.toSender[i]?.map (s.sender.handlePacket build) with
    | some (.ok ((_, ack), sender)) => some { s with sender, toReceiver := s.toReceiver ++ [ack] }
    | _ => none

def Within (s : Net) : Event → Prop
  | .send .. => s.sent.length + 1 < 2 ^ 32 - 1
  | _ => True

instance (s : Net) : (e : Event) → Decidable (s.Within e)
  | .send .. => inferInstanceAs (Decidable (_ < _))
  | .poll _ | .receive _ | .acknowledge _ => isTrue trivial

/-- The first `n` payloads, as the receiver hands them over. -/
def numbered (sent : List (List UInt8)) (n : Nat) : List DeliveredDatagram :=
  (sent.take n).mapIdx fun i payload => ⟨UInt32.ofNat (i + 1), payload⟩

def Numbers (sent : List (List UInt8)) (seq : UInt32) (payload : List UInt8) : Prop :=
  0 < seq.toNat ∧ sent[seq.toNat - 1]? = some payload

structure Inv (s : Net) : Prop where
  few : s.sent.length < 2 ^ 32 - 1
  next : s.sender.nextSeq.toNat = s.sent.length + 1
  data : ∀ p ∈ s.toReceiver, p.kind = .data → Numbers s.sent p.seq p.payload
  pending : ∀ q ∈ s.sender.pending, Numbers s.sent q.packet.seq q.packet.payload
  acks : ∀ p ∈ s.toSender, p.kind = .ack ∧ p.ack ≤ s.receiver.highestContiguousRx
  buffer : ∀ e ∈ s.receiver.receivedOutOfOrder, Numbers s.sent e.1 e.2
  highest : s.receiver.highestContiguousRx.toNat ≤ s.sent.length
  delivered : s.delivered = numbered s.sent s.receiver.highestContiguousRx.toNat
  kept : ∀ seq : UInt32, s.receiver.highestContiguousRx < seq → seq.toNat ≤ s.sent.length →
    ∃ q ∈ s.sender.pending, q.packet.seq = seq

variable {build : Build} {sent : List (List UInt8)} {s : Net}

theorem numbered_succ (h : sent[n]? = some payload) :
    numbered sent (n + 1) = numbered sent n ++ [⟨UInt32.ofNat (n + 1), payload⟩] := by
  obtain ⟨hl, rfl⟩ := List.getElem?_eq_some_iff.mp h
  rw [numbered, List.take_succ_eq_append_getElem hl, List.mapIdx_append, List.length_take,
    Nat.min_eq_left (Nat.le_of_lt hl)]
  simp [numbered]

theorem Numbers.mono (h : Numbers sent seq payload)
    (more : List (List UInt8)) : Numbers (sent ++ more) seq payload :=
  ⟨h.1, by rw [List.getElem?_append_left (List.getElem?_eq_some_iff.mp h.2).1]; exact h.2⟩

theorem drain_eq_ok (build : Build) (fuel : Nat) {buffer : List (UInt32 × List UInt8)}
    (hfe : sent.length < 2 ^ 32 - 1) (hhi : highest.toNat ≤ sent.length)
    (hb : ∀ e ∈ buffer, Numbers sent e.1 e.2) :
    ∃ delivered last rest, drain build fuel highest buffer = .ok (delivered, last, rest) ∧
      highest ≤ last ∧ last.toNat ≤ sent.length ∧ (∀ e ∈ rest, Numbers sent e.1 e.2) ∧
      numbered sent last.toNat = numbered sent highest.toNat ++ delivered := by
  induction fuel generalizing highest buffer with
  | zero => exact ⟨[], highest, buffer, rfl, UInt32.le_refl _, hhi, hb, by simp⟩
  | succ fuel ih =>
    have had : addUnsigned 32 build highest.toNat 1 = some (highest.toNat + 1) := by
      unfold addUnsigned
      rw [if_pos (by omega)]
    have hnx : (UInt32.ofNat (highest.toNat + 1)).toNat = highest.toNat + 1 :=
      UInt32.toNat_ofNat_of_lt' (by show _ < 4294967296; omega)
    simp only [drain, had, orPanic, bind, Except.bind]
    cases hfi : buffer.lookup (UInt32.ofNat (highest.toNat + 1)) with
    | none => exact ⟨[], highest, buffer, rfl, UInt32.le_refl _, hhi, hb, by simp⟩
    | some payload =>
      have hnu : Numbers sent (UInt32.ofNat (highest.toNat + 1)) payload := by
        obtain ⟨before, after, rfl, -⟩ := List.lookup_eq_some_iff.mp hfi
        exact hb (_, payload) (List.mem_append_right _ List.mem_cons_self)
      rw [Numbers, hnx, Nat.add_sub_cancel] at hnu
      obtain ⟨hl, -⟩ := List.getElem?_eq_some_iff.mp hnu.2
      obtain ⟨delivered, last, rest, hr, hle, hla, hrs, heq⟩ :=
        @ih (UInt32.ofNat (highest.toNat + 1))
          (buffer.filter (·.1 ≠ UInt32.ofNat (highest.toNat + 1)))
          (by omega) fun e he => hb e (List.mem_filter.mp he).1
      refine ⟨_, last, rest, by rw [hr]; rfl, ?_, hla, hrs, ?_⟩
      · rw [UInt32.le_iff_toNat_le] at hle ⊢
        omega
      · rw [heq, hnx, numbered_succ hnu.2, List.append_assoc]
        rfl

theorem Inv.receive_eq_ok (h : s.Inv) (build : Build) (hp : p ∈ s.toReceiver) :
    ∃ delivered r, (s.receiver.markAcked p.ack).receive build p = .ok (delivered, r) ∧
      s.receiver.highestContiguousRx ≤ r.highestContiguousRx ∧
      r.highestContiguousRx.toNat ≤ s.sent.length ∧
      (∀ e ∈ r.receivedOutOfOrder, Numbers s.sent e.1 e.2) ∧
      numbered s.sent r.highestContiguousRx.toNat = s.delivered ++ delivered := by
  unfold UdpReliability.receive
  rw [h.delivered]
  split
  · next hda =>
    have hb : ∀ e ∈ (s.receiver.markAcked p.ack).buffered p, Numbers s.sent e.1 e.2 := by
      intro e he
      unfold UdpReliability.buffered at he
      split at he
      · exact h.buffer e he
      · rcases mem_cons.mp he with rfl | he
        · exact h.data p hp hda.1
        · exact h.buffer e he
    obtain ⟨delivered, last, rest, hr, hle, hla, hrs, heq⟩ :=
      drain_eq_ok build (((s.receiver.markAcked p.ack).buffered p).length + 1) h.few h.highest hb
    refine ⟨delivered, { s.receiver.markAcked p.ack with
      highestContiguousRx := last, receivedOutOfOrder := rest }, ?_, hle, hla, hrs, heq⟩
    show Except.map _ (drain _ _ s.receiver.highestContiguousRx _) = _
    rw [hr]
    rfl
  · exact ⟨[], _, rfl, UInt32.le_refl _, h.highest, h.buffer, by simp [UdpReliability.markAcked]⟩

section Insert

variable {α : Type}

theorem self_mem_insertBy : a ∈ insertBy key a l := by
  induction l with
  | nil => simp [insertBy]
  | cons b l ih => grind [insertBy]

theorem mem_insertBy_of_ne (hx : x ∈ l) (hne : key x ≠ key a) : x ∈ insertBy key a l := by
  induction l with
  | nil => contradiction
  | cons b l ih => grind [insertBy]

end Insert

theorem toNat_max_succ {seq : UInt32} (hse : seq.toNat = n) (hn : n + 1 < 2 ^ 32) :
    (max (seq + 1) 1).toNat = n + 1 := by
  have hsu : (seq + 1).toNat = n + 1 := by
    rw [UInt32.toNat_add, hse]
    show (n + 1) % 2 ^ 32 = _
    omega
  show (if seq + 1 ≤ 1 then 1 else seq + 1).toNat = n + 1
  split
  next hle =>
    rw [UInt32.le_iff_toNat_le, hsu] at hle
    exact Nat.le_antisymm (Nat.le_add_left 1 n) hle
  next => exact hsu

theorem Inv.send (h : s.Inv) (payload : List UInt8) (now : Nat)
    (hro : s.sent.length + 1 < 2 ^ 32 - 1) (hs : s.step build (.send payload now) = some s') :
    s'.Inv := by
  cases hs
  have hnx := toNat_max_succ h.next (by omega)
  have hnw : Numbers (s.sent ++ [payload]) s.sender.nextSeq payload :=
    ⟨by have := h.next; omega, by simp [h.next]⟩
  refine ⟨by simpa using hro, hnx.trans (by simp), fun p hp hk => ?_, fun q hq => ?_, h.acks,
    fun e he => (h.buffer e he).mono _, ?_, ?_, fun seq hl hle => ?_⟩
  · rcases mem_append.mp hp with hp | hp
    · exact (h.data p hp hk).mono _
    · rw [mem_singleton.mp hp]
      exact hnw
  · rcases mem_insertBy hq with rfl | hq
    · exact hnw
    · exact (h.pending q hq).mono _
  · have := h.highest
    simp only [length_append]
    omega
  · have := h.highest
    show s.delivered = _
    rw [h.delivered, numbered, numbered, take_append_of_le_length this]
  · by_cases hse : seq = s.sender.nextSeq
    · exact ⟨_, self_mem_insertBy, hse.symm⟩
    have hne : seq.toNat ≠ s.sender.nextSeq.toNat := fun heq => hse (UInt32.toNat_inj.mp heq)
    rw [h.next] at hne
    simp only [length_append, length_singleton] at hle
    obtain ⟨q, hq, rfl⟩ := h.kept seq hl (by omega)
    exact ⟨q, mem_insertBy_of_ne hq hse, rfl⟩

theorem Inv.step (h : s.Inv) (event : Event) (hok : s.Within event)
    (hs : s.step build event = some s') : s'.Inv := by
  cases event with
  | send payload now => exact h.send payload now hok hs
  | poll =>
    cases hs
    refine ⟨h.few, h.next, fun p hp hk => ?_, fun q hq => ?_, h.acks, h.buffer, h.highest,
      h.delivered, fun seq hl hle => ?_⟩
    · rcases mem_append.mp hp with hp | hp
      · exact h.data p hp hk
      · obtain ⟨q, hq, rfl⟩ := mem_map.mp hp
        exact h.pending q (mem_filter.mp hq).1
    · obtain ⟨q, hme, rfl⟩ := mem_map.mp hq
      have := h.pending q hme
      split <;> exact this
    · obtain ⟨q, hq, rfl⟩ := h.kept seq hl hle
      refine ⟨_, mem_map_of_mem hq, ?_⟩
      split <;> rfl
  | receive i =>
    simp only [Net.step] at hs
    cases hp : s.toReceiver[i]? with
    | none => simp [hp] at hs
    | some =>
      obtain ⟨delivered, r, hr, hle, hla, hb, hd⟩ := h.receive_eq_ok build (mem_of_getElem? hp)
      simp only [hp, Option.map_some, UdpReliability.handlePacket, hr] at hs
      split at hs
      · next heq =>
        split at heq
        · cases heq
        cases heq
        cases hs
        refine ⟨h.few, h.next, h.data, h.pending, fun p hp => ?_, hb, hla,
          hd.symm, fun seq hl hse => h.kept seq (UInt32.lt_of_le_of_lt hle hl) hse⟩
        rcases mem_append.mp hp with hp | hp
        · exact ⟨(h.acks p hp).1, UInt32.le_trans (h.acks p hp).2 hle⟩
        · rw [mem_singleton.mp hp]
          exact ⟨rfl, UInt32.le_refl _⟩
      · contradiction
  | acknowledge i =>
    simp only [Net.step] at hs
    cases hp : s.toSender[i]? with
    | none => simp [hp] at hs
    | some p =>
      obtain ⟨hk, hac⟩ := h.acks p (mem_of_getElem? hp)
      have hr : (s.sender.markAcked p.ack).receive build p = .ok
          ([], s.sender.markAcked p.ack) := by
        simp [UdpReliability.receive, hk]
      simp only [hp, Option.map_some, UdpReliability.handlePacket, hr] at hs
      split at hs
      · next heq =>
        split at heq
        · cases heq
        cases heq
        cases hs
        refine ⟨h.few, h.next, fun p hp hda => ?_,
          fun q hq => h.pending q (mem_filter.mp hq).1, h.acks, h.buffer, h.highest,
          h.delivered, fun seq hl hle => ?_⟩
        · rcases mem_append.mp hp with hp | hp
          · exact h.data p hp hda
          · rw [mem_singleton.mp hp] at hda
            contradiction
        · obtain ⟨q, hq, rfl⟩ := h.kept seq hl hle
          refine ⟨q, mem_filter.mpr ⟨hq, ?_⟩, rfl⟩
          simpa using UInt32.lt_of_le_of_lt hac hl
      · contradiction

theorem inv_of_reach
    (h : Machine.Reach (step build) Within (start sessionId retransmitAfter) s) : s.Inv := by
  refine h.invariant ⟨by simp [start], rfl, ?_, ?_, ?_, ?_, by simp [start], rfl, ?_⟩
    fun _ event _ hs hok hst => hs.step event hok hst
  · simp [start]
  · simp [start]
  · simp [start]
  · simp [start]
  · intro seq hl hle
    exact absurd hl (Nat.not_lt.mpr hle)

theorem Inv.length_delivered (h : s.Inv) :
    s.delivered.length = s.receiver.highestContiguousRx.toNat := by
  rw [h.delivered, numbered, length_mapIdx, length_take, Nat.min_eq_left h.highest]

theorem toSender_receive (hs : s.step build (.receive i) = some s') :
    ∃ ack, s'.toSender = s.toSender ++ [ack] ∧ ack.kind = .ack ∧
      ack.ack = s'.receiver.highestContiguousRx := by
  simp only [Net.step] at hs
  split at hs
  · next heq =>
    obtain ⟨p, -, hr⟩ := Option.map_eq_some_iff.mp heq
    cases hs
    unfold UdpReliability.handlePacket at hr
    split at hr
    · cases hr
    · obtain ⟨_, -, heq⟩ := exists_of_map_eq_ok hr
      cases heq
      exact ⟨_, rfl, rfl, rfl⟩
  · cases hs

/-- **Exactly once, in order**: what was delivered is the front of what was sent, under its
own numbers; every acknowledgement of the receiver carries the number of payloads delivered
by then; a packet that is not pending any more was delivered. -/
theorem udp_delivers_in_order {sessionId : UInt64} {retransmitAfter : Nat}
    (h : Machine.Reach (step build) Within (start sessionId retransmitAfter) s) :
    s.delivered = numbered s.sent s.delivered.length ∧
    s.receiver.highestContiguousRx.toNat = s.delivered.length ∧
    s.delivered.length ≤ s.sent.length ∧
    (∀ i s', s.step build (.receive i) = some s' → ∃ ack, s'.toSender = s.toSender ++ [ack] ∧
      ack.kind = .ack ∧ ack.ack.toNat = s'.delivered.length) ∧
    ∀ seq : UInt32, 0 < seq.toNat → seq.toNat ≤ s.sent.length →
      (∀ q ∈ s.sender.pending, q.packet.seq ≠ seq) → seq.toNat ≤ s.delivered.length := by
  have hin := inv_of_reach h
  have hln := hin.length_delivered
  refine ⟨by rw [hln]; exact hin.delivered, hln.symm, hln ▸ hin.highest, ?_, ?_⟩
  · intro i s' hs
    obtain ⟨ack, hsn, hk, hac⟩ := toSender_receive hs
    exact ⟨ack, hsn, hk, by rw [hac, (hin.step (.receive i) trivial hs).length_delivered]⟩
  · intro seq hpo hle hgo
    rw [hln, ← UInt32.le_iff_toNat_le, ← UInt32.not_lt]
    intro hl
    obtain ⟨q, hq, heq⟩ := hin.kept seq hl hle
    exact hgo q hq heq

/-- Two payloads; the packet of the second one arrives first, and that of the first one
twice. -/
def outOfOrder : List Event :=
  [.send [104] 0, .send [105] 0, .receive 1, .receive 0, .receive 0, .acknowledge 1]

theorem udp_delivers_in_order_twice :
    ∃ s s' : Net, s.delivered = [⟨1, [104]⟩, ⟨2, [105]⟩] ∧ s.toSender.map (·.ack) = [0, 2, 2] ∧
      s.delivered = numbered s.sent s.delivered.length ∧ s.step .debug (.receive 1) = some s' ∧
      ∃ ack, s'.toSender = s.toSender ++ [ack] ∧ ack.kind = .ack ∧
        ack.ack.toNat = s'.delivered.length := by
  obtain ⟨s, hrc, hd, hak, hso⟩ := Machine.exists_of_run (step .debug) Within
    (start 7 0)
    (fun s => s.delivered = [⟨1, [104]⟩, ⟨2, [105]⟩] ∧ s.toSender.map (·.ack) = [0, 2, 2] ∧
      (s.step .debug (.receive 1)).isSome = true) outOfOrder (by decide)
  obtain ⟨s', hs⟩ := Option.isSome_iff_exists.mp hso
  have hor := udp_delivers_in_order hrc
  exact ⟨s, s', hd, hak, hor.1, hs, hor.2.2.2.1 1 s' hs⟩

/-- While fewer than `2 ^ 32 - 1` payloads are sent, every payload was delivered under its
number or its packet is pending, no packet is replaced, and no addition overflows. -/
theorem udp_safe_before_wrap {sessionId : UInt64} {retransmitAfter : Nat}
    (h : Machine.Reach (step build) Within (start sessionId retransmitAfter) s) :
    (∀ i payload, s.sent[i]? = some payload → ⟨UInt32.ofNat (i + 1), payload⟩ ∈ s.delivered ∨
      ∃ q ∈ s.sender.pending, q.packet.seq = UInt32.ofNat (i + 1) ∧ q.packet.payload = payload) ∧
    (∀ q ∈ s.sender.pending, q.packet.seq ≠ s.sender.nextSeq) ∧
    (∀ p ∈ s.toReceiver, s.receiver.handlePacket build p ≠ .error .panic) ∧
    ∀ p ∈ s.toSender, s.sender.handlePacket build p ≠ .error .panic := by
  have hin := inv_of_reach h
  refine ⟨fun i payload hi => ?_, fun q hq heq => ?_, fun p hp => ?_, fun p hp => ?_⟩
  · have hfe := hin.few
    have hl := (List.getElem?_eq_some_iff.mp hi).1
    have hse : (UInt32.ofNat (i + 1)).toNat = i + 1 :=
      UInt32.toNat_ofNat_of_lt' (by show _ < 4294967296; omega)
    by_cases hold : i < s.receiver.highestContiguousRx.toNat
    · refine .inl ?_
      rw [hin.delivered]
      exact mem_of_getElem? (i := i) (by simp [numbered, getElem?_mapIdx, hold, hi])
    · obtain ⟨q, hq, heq⟩ := hin.kept (UInt32.ofNat (i + 1))
        (by rw [UInt32.lt_iff_toNat_lt]; omega) (by omega)
      have hnu := (hin.pending q hq).2
      rw [heq, hse, Nat.add_sub_cancel, hi] at hnu
      exact .inr ⟨q, hq, heq, (Option.some.inj hnu).symm⟩
  · obtain ⟨hpo, hnu⟩ := hin.pending q hq
    have hl := (List.getElem?_eq_some_iff.mp hnu).1
    have := hin.next
    rw [heq] at hl hpo
    omega
  · obtain ⟨delivered, r, hr, -⟩ := hin.receive_eq_ok build hp
    unfold UdpReliability.handlePacket
    rw [hr]
    split <;> simp [Except.map]
  · simp only [UdpReliability.handlePacket, UdpReliability.receive, (hin.acks p hp).1]
    split <;> simp [Except.map]

theorem udp_safe_before_wrap_third :
    ∃ s : Net, s.delivered = [⟨1, [104]⟩, ⟨2, [105]⟩] ∧
      s.sender.pending.map (·.packet.seq) = [3] ∧
      ∀ i payload, s.sent[i]? = some payload → ⟨UInt32.ofNat (i + 1), payload⟩ ∈ s.delivered ∨
        ∃ q ∈ s.sender.pending, q.packet.seq = UInt32.ofNat (i + 1) ∧ q.packet.payload =
          payload := by
  obtain ⟨s, hrc, hd, hpe⟩ := Machine.exists_of_run (step .debug) Within (start 7 0)
    (fun s => s.delivered = [⟨1, [104]⟩, ⟨2, [105]⟩] ∧
      s.sender.pending.map (·.packet.seq) = [3])
    (outOfOrder ++ [.send [106] 0]) (by decide)
  exact ⟨s, hd, hpe, (udp_safe_before_wrap hrc).1⟩

def Single (s : Net) (_ : Event) : Prop := s.sender.pending.length ≤ 1

/-- The endpoints after `n` payloads, each delivered and acknowledged before the next. -/
def after (n : Nat) : UdpReliability × UdpReliability :=
  ({ sessionId := 7, nextSeq := UInt32.ofNat (n + 1), retransmitAfter := 0 },
    { sessionId := 7, highestContiguousRx := UInt32.ofNat n, retransmitAfter := 0 })

theorem receive_after (hn : n + 1 < 2 ^ 32) :
    (after n).2.handlePacket .debug ((after n).1.nextData [] 0).1 =
      if n + 2 < 2 ^ 32 then
        .ok (([⟨UInt32.ofNat (n + 1), []⟩],
          { kind := .ack, sessionId := 7, seq := 0, ack := UInt32.ofNat (n + 1), payload := [] }),
          (after (n + 1)).2)
      else .error .panic := by
  have hl : UInt32.ofNat n < UInt32.ofNat (n + 1) := by
    rw [UInt32.lt_iff_toNat_lt, UInt32.toNat_ofNat', UInt32.toNat_ofNat']
    omega
  have hnx : addUnsigned 32 .debug (UInt32.ofNat n).toNat 1 = some (n + 1) := by
    rw [UInt32.toNat_ofNat_of_lt' (by show _ < 4294967296; omega), addUnsigned, if_pos hn]
  have hla : addUnsigned 32 .debug (UInt32.ofNat (n + 1)).toNat 1 =
      if n + 2 < 2 ^ 32 then some (n + 2) else none := by
    rw [UInt32.toNat_ofNat_of_lt' (by show _ < 4294967296; omega), addUnsigned]
  have hlo : drain .debug 2 (UInt32.ofNat n) [(UInt32.ofNat (n + 1), [])] =
      if n + 2 < 2 ^ 32 then .ok ([⟨UInt32.ofNat (n + 1), []⟩], UInt32.ofNat (n + 1), [])
      else .error .panic := by
    simp only [drain, hnx, hla, orPanic, bind, Except.bind, lookup_cons_self]
    by_cases hmo : n + 2 < 2 ^ 32
    · simp only [if_pos hmo, List.filter, ne_eq]
      rfl
    · simp only [if_neg hmo]
  show (if (7 : UInt64) ≠ 7 then _ else _) = _
  show Except.map _ (if UdpPacketKind.data = .data ∧ UInt32.ofNat n < UInt32.ofNat (n + 1) then
    Except.map _ (drain .debug 2 (UInt32.ofNat n) [(UInt32.ofNat (n + 1), [])]) else _) = _
  rw [if_pos (And.intro (Eq.refl UdpPacketKind.data) hl), hlo]
  split <;> rfl

theorem exists_reach_after {n : Nat} (hn : n < 2 ^ 32 - 1) :
    ∃ s, Machine.Reach (step .debug) Single (start 7 0) s ∧ s.sender = (after n).1 ∧ s.receiver =
      (after n).2 := by
  induction n with
  | zero => exact ⟨_, .refl, rfl, rfl⟩
  | succ n ih =>
    obtain ⟨⟨sender, receiver, toReceiver, toSender, sent, delivered⟩, hs, rfl, rfl⟩ :=
      ih (by omega)
    have hre := receive_after (n := n) (by omega)
    rw [if_pos (by omega)] at hre
    have hsd := hs.next (e := .send [] 0) (Nat.zero_le 1) rfl
    have hrv := hsd.next (e := .receive toReceiver.length) (Nat.le_refl 1)
      (by simp only [step, getElem?_concat_length, Option.map_some, hre]; rfl)
    refine ⟨_, hrv.next (e := .acknowledge toSender.length) (Nat.le_refl 1)
      (by simp only [step, getElem?_concat_length]; rfl), ?_, rfl⟩
    have hnx : max (UInt32.ofNat (n + 1) + 1) 1 = UInt32.ofNat (n + 2) := by
      apply UInt32.toNat.inj
      rw [toNat_max_succ (UInt32.toNat_ofNat_of_lt' (by show _ < 4294967296; omega)) (by omega),
        UInt32.toNat_ofNat_of_lt' (by show _ < 4294967296; omega)]
    show UdpReliability.markAcked _ _ = _
    simp only [UdpReliability.markAcked, UdpReliability.nextData, after, insertBy, hnx,
      List.filter, UInt32.lt_irrefl, decide_false]

theorem udp_wrap_panics : ∃ s, Machine.Reach (step .debug) Single (start 7 0) s ∧
    ∃ p ∈ s.toReceiver, s.receiver.handlePacket .debug p = .error .panic := by
  obtain ⟨⟨sender, receiver, toReceiver, toSender, sent, delivered⟩, hs, rfl, rfl⟩ :=
    @exists_reach_after (2 ^ 32 - 2) (by simp)
  refine ⟨_, hs.next (e := .send [] 0) (Nat.zero_le 1) rfl, _, mem_append_right _ mem_cons_self, ?_⟩
  rw [receive_after (by simp), if_neg (by simp)]

end Net

end Espejismo.Udp
