import Espejismo.Protocol.Framing.Nonce
import Espejismo.Transport

/-!
# Transport.Nonce

No nonce reuse over the life of a session.  The upload pump owns the only
`FrameWriter` and the download pump only decrypts, so the frames of one end are
those of one writer, whose steps never repeat a (generation, sequence number).
-/

namespace Espejismo

open Binary List EStateM

/-! ## The upload pump -/

/-! ## The download pump -/

def OnlyDecrypts (log : List AeadCall) : Prop :=
  ∀ call ∈ log, ∃ key nonce cipher, call = .decrypt key nonce cipher

def KeepsDecrypting (x : Reading α) : Prop :=
  ∀ r, OnlyDecrypts r.aeadLog → OnlyDecrypts (finalState (x.run r)).aeadLog

namespace KeepsDecrypting

theorem bind (hx : KeepsDecrypting x)
    (hf : ∀ a, KeepsDecrypting (f a)) : KeepsDecrypting (x >>= f) := by
  intro r hr
  have hmi := hx r hr
  rw [run_bind]
  cases h : x.run r with
  | ok a r' =>
    rw [h] at hmi
    exact hf a r' hmi
  | error =>
    rw [h] at hmi
    exact hmi

theorem pure (a : α) : KeepsDecrypting (Pure.pure a : Reading α) := fun _ hr => hr

theorem throw (e : Error) : KeepsDecrypting (MonadExcept.throw e : Reading α) := fun _ hr => hr

theorem get : KeepsDecrypting (MonadState.get : Reading FrameReader) := fun _ hr => hr

theorem readBytes (n : Nat) : KeepsDecrypting (Espejismo.readBytes n) := by
  intro r hr
  simp only [Espejismo.readBytes, run_bind, run_get]
  cases takeExact n r.input <;> exact hr

theorem decryptNext (P : Platform) (encrypted : List UInt8) :
    KeepsDecrypting (Espejismo.decryptNext P encrypted) := by
  intro r hr
  have hlo : OnlyDecrypts (r.aeadLog ++
      [.decrypt r.keys.rxKey (sessionNonce r.rxSeq r.keys.nonceTag) encrypted]) := by
    intro call hca
    rcases mem_append.mp hca with hold | hne
    · exact hr call hold
    · exact ⟨_, _, _, mem_singleton.mp hne⟩
  simp only [Espejismo.decryptNext, run_bind, run_get]
  cases decrypt P r.keys.rxKey r.rxSeq r.keys.nonceTag encrypted <;> exact hlo

theorem advanceRxSeq (P : Platform) : KeepsDecrypting (Espejismo.advanceRxSeq P) := by
  intro r hr
  simp only [Espejismo.advanceRxSeq, run_bind, run_get]
  cases addU64 P.build r.rxSeq 1 <;> exact hr

theorem rotateRx (P : Platform) (ty : FrameType) : KeepsDecrypting (Espejismo.rotateRx P ty) := by
  intro r hr
  unfold Espejismo.rotateRx
  split
  · simp only [run_bind, run_get]
    cases r.keys.updateRx P <;> exact hr
  · exact hr

theorem readStealthOne (P : Platform) : KeepsDecrypting (Espejismo.readStealthOne P) := by
  refine get.bind fun r => ?_
  split
  · exact throw _
  refine (readBytes _).bind fun encrypted => (decryptNext P encrypted).bind fun plain =>
    (advanceRxSeq P).bind fun _ => ?_
  dsimp only
  split
  · exact throw _
  split
  · exact throw _
  split
  · exact throw _
  · split
    · exact throw _
    · exact (rotateRx P _).bind fun _ => pure _

theorem readOne (P : Platform) : KeepsDecrypting (Espejismo.readOne P) := by
  refine get.bind fun r => ?_
  split
  · exact readStealthOne P
  refine (readBytes 4).bind fun masked => ?_
  dsimp only
  split
  · exact throw _
  refine (readBytes _).bind fun encrypted => (decryptNext P encrypted).bind fun plain =>
    (advanceRxSeq P).bind fun _ => ?_
  split
  · exact throw _
  · split
    · exact throw _
    · exact (rotateRx P _).bind fun _ => pure _

end KeepsDecrypting

theorem Download.recv_onlyDecrypts (P : Platform) {d : Download}
    (h : OnlyDecrypts d.reader.aeadLog) : OnlyDecrypts (d.recv P).reader.aeadLog := by
  have hre := KeepsDecrypting.readOne P d.reader h
  unfold Download.recv
  split
  · exact h
  cases hru : (readOne P).run d.reader with
  | ok =>
    rw [hru] at hre
    dsimp only
    split <;> exact hre
  | error e =>
    rw [hru] at hre
    cases e <;> dsimp only
    case eof => split
                · exact hre
                · exact h
    all_goals exact hre

/-! ## Runs -/

section Run

variable (P : Platform)

theorem Endpoint.writer_step (e : Endpoint) (event : EndpointEvent) :
    (e.step P event).up.writer = e.up.writer ∨
      ∃ call, (e.step P event).up.writer = e.up.writer.after P call := by
  cases event with
  | upload event => exact e.up.writer_step P event
  | appWrite =>
    unfold Endpoint.step Upload.appWrite
    dsimp only
    split
    · exact .inl rfl
    · split <;> exact .inl rfl
  | _ => exact .inl rfl

theorem Endpoint.run_writerSteps (e : Endpoint) (events : List EndpointEvent) :
    WriterSteps P e.up.writer (e.run P events).up.writer := by
  induction events generalizing e with
  | nil => exact .refl
  | cons event events ih =>
    refine Relation.ReflTransGen.trans ?_ (ih (e.step P event))
    rcases e.writer_step P event with h | ⟨call, h⟩
    · rw [h]
    · rw [h]
      exact send_steps P call.1 call.2 e.up.writer

theorem Endpoint.step_onlyDecrypts {e : Endpoint} (event : EndpointEvent)
    (h : OnlyDecrypts e.down.reader.aeadLog) :
    OnlyDecrypts (e.step P event).down.reader.aeadLog := by
  cases event with
  | recv => exact Download.recv_onlyDecrypts P h
  | appWrite =>
    unfold Endpoint.step
    dsimp only
    split <;> exact h
  | _ => exact h

theorem Endpoint.run_onlyDecrypts {e : Endpoint} (events : List EndpointEvent)
    (h : OnlyDecrypts e.down.reader.aeadLog) :
    OnlyDecrypts (e.run P events).down.reader.aeadLog := by
  induction events generalizing e with
  | nil => exact h
  | cons event events ih => exact ih (e.step_onlyDecrypts P event h)

end Run

/-- **No nonce reuse**: in every run of a session, the frames handed to the
network are encrypted under pairwise distinct (generation, sequence number),
hence under distinct (key, nonce), and the download pump encrypts nothing. -/
theorem session_no_nonce_reuse (P : Platform) (keys : SessionKeys) (hks : keys.txGeneration = 0)
    (o : FrameOptions) (bufferSize draw : Nat) (events : List EndpointEvent)
    (hfe : ((Endpoint.spawn keys o bufferSize draw).run P events).up.writer.FewFrames)
    (hdi : ∀ g g', g ≤ ((Endpoint.spawn keys o bufferSize draw).run P
        events).up.writer.keys.txGeneration →
      g' ≤ ((Endpoint.spawn keys o bufferSize draw).run P events).up.writer.keys.txGeneration →
      txKeyAt P keys g = txKeyAt P keys g' → g = g') :
    let e := (Endpoint.spawn keys o bufferSize draw).run P events
    (e.up.writer.sent.Pairwise fun a b => (a.generation, a.seq) ≠ (b.generation, b.seq)) ∧
    (∀ a ∈ e.up.writer.sent, ∃ plain, P.aead.encrypt (txKeyAt P keys a.generation)
      (sessionNonce a.seq keys.nonceTag) plain = some a.ciphertext) ∧
    (e.up.writer.sent.Pairwise fun a b =>
      (txKeyAt P keys a.generation, sessionNonce a.seq keys.nonceTag) ≠
        (txKeyAt P keys b.generation, sessionNonce b.seq keys.nonceTag)) ∧
    OnlyDecrypts e.down.reader.aeadLog := by
  intro e
  have hsp : WriterSteps P (.new keys o) e.up.writer :=
    Endpoint.run_writerSteps P (.spawn keys o bufferSize draw) events
  have hst : e.up.writer.Stamped := hsp.stamped hfe (stamped_new keys o)
  have hke : e.up.writer.Keyed P keys := hsp.keyed (keyed_new P hks o)
  have hpa : e.up.writer.sent.Pairwise fun a b => (a.generation, a.seq) ≠ (b.generation, b.seq) :=
    pairwise_map.mp hst.nodup
  refine ⟨hpa, ?_, ?_, Endpoint.run_onlyDecrypts P events (by simp [OnlyDecrypts,
    Endpoint.spawn, Download.start, FrameReader.new])⟩
  · intro a ha
    obtain ⟨hky, hno, _, plain, hpl⟩ := hke.sent a ha
    exact ⟨plain, by rw [← hky, ← hno, hpl]⟩
  · refine hpa.imp_of_mem fun {a b} ha hb hab heq => hab ?_
    have hge : ∀ c ∈ e.up.writer.sent, c.generation ≤ e.up.writer.keys.txGeneration := by
      intro c hc
      have := hst.below (c.generation, c.seq) (mem_map.mpr ⟨c, hc, rfl⟩)
      unfold EpochLog.Before at this
      omega
    obtain ⟨hky, hno⟩ := Prod.mk.inj heq
    have hg := hdi _ _ (hge a ha) (hge b hb) hky
    have hs := sessionNonce_inj (hke.sent a ha).2.2.1 (hke.sent b hb).2.2.1 hno
    rw [hg, hs]

/-! A session that sends a byte, rotates its key and sends another byte, on the
reference platform. -/

def twoReads : List EndpointEvent :=
  [.appWrite [7], .upload (.read 0 1 .instant), .appWrite [8], .upload (.read 0 1 .instant)]

def rotatingOptions : FrameOptions := { unpaddedOptions with keyUpdateFrames := 1 }

def rotated : Endpoint :=
  (Endpoint.spawn (sampleKeys .client) rotatingOptions 1024 0).run (.reference .release) twoReads

theorem sent_rotated : rotated.up.writer.sent.map (·.ty) = [.data, .keyUpdate, .data] ∧
    rotated.up.writer.keys.txGeneration = 1 := by
  decide +kernel

theorem txKeyAt_sample :
    txKeyAt (.reference .release) (sampleKeys .client) 0 ≠
      txKeyAt (.reference .release) (sampleKeys .client) 1 := by
  decide +kernel

theorem session_no_nonce_reuse_sample :
    rotated.up.writer.sent.map (·.ty) = [.data, .keyUpdate, .data] ∧
    (rotated.up.writer.sent.Pairwise fun a b =>
      (txKeyAt (.reference .release) (sampleKeys .client) a.generation,
          sessionNonce a.seq (sampleKeys .client).nonceTag) ≠
        (txKeyAt (.reference .release) (sampleKeys .client) b.generation,
          sessionNonce b.seq (sampleKeys .client).nonceTag)) ∧
    OnlyDecrypts rotated.down.reader.aeadLog := by
  obtain ⟨hty, hge⟩ := sent_rotated
  have hfe : rotated.up.writer.FewFrames := by
    intro g
    have hle := congrArg List.length hty
    rw [length_map] at hle
    exact Nat.lt_of_le_of_lt countP_le_length (hle ▸ by decide)
  have hdi : ∀ g g', g ≤ 1 → g' ≤ 1 →
      txKeyAt (.reference .release) (sampleKeys .client) g =
        txKeyAt (.reference .release) (sampleKeys .client) g' → g = g' := by
    intro g g' hg hg' heq
    have h0 : g = 0 ∨ g = 1 := by omega
    have h1 : g' = 0 ∨ g' = 1 := by omega
    rcases h0 with rfl | rfl <;> rcases h1 with rfl | rfl
    · rfl
    · exact absurd heq txKeyAt_sample
    · exact absurd heq.symm txKeyAt_sample
    · rfl
  have hrs := session_no_nonce_reuse (.reference .release) (sampleKeys .client) rfl
    rotatingOptions 1024 0 twoReads hfe fun g g' hg hg' =>
      hdi g g' (Nat.le_trans hg (Nat.le_of_eq hge)) (Nat.le_trans hg' (Nat.le_of_eq hge))
  exact ⟨hty, hrs.2.2.1, hrs.2.2.2⟩

end Espejismo
