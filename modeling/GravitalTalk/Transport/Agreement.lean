import GravitalTalk.Transport.HandshakeRun

/-! What the two sides of a completed handshake agree on: everything that matters over a network
that only loses, repeats, delays and reorders; and over one that also rewrites hellos, what the
transcript holds and no more. -/
namespace GravitalTalk.Transport.Handshake
open Lib GravitalTalk.Core Transition

/-- The steps of a network that rewrites nothing. -/
def Unforged (_ : State) (label : Label) : Prop := label = .party

theorem unforged_party (st : State) : Unforged st .party := rfl

/-- The secrets of the run: those of the ServerHello the client went on with, and those of every
offer. -/
def State.secrets (st : State) (suite : Suite) : List Secrets :=
  (st.client.committed.map (st.client.secretsFor suite)).toList ++
    st.server.offers.map (Offer.secrets · suite)

structure CollisionFree (suite : Suite) (secrets : List Secrets) : Prop where
  client : ∀ a ∈ secrets, ∀ b ∈ secrets, a.clientTag suite = b.clientTag suite → a = b
  server : ∀ a ∈ secrets, ∀ b ∈ secrets, a.serverTag suite = b.serverTag suite → a = b

def tagInputs (suite : Suite) (secrets : Secrets) : List (SessionKey × Bytes × Bytes) :=
  [((secrets.keys suite).1, clientFin, secrets.transcript),
    ((secrets.keys suite).2, serverFin, secrets.transcript)]

/-- The tag is injective on what the run makes tags from. -/
def TagsInjective (suite : Suite) (secrets : List Secrets) : Prop :=
  Set.InjOn (fun input => deriveAuthTag suite input.1 input.2.1 input.2.2)
    {input | ∃ s ∈ secrets, input ∈ tagInputs suite s}

structure Agree (client server : Session) : Prop where
  sessionId : client.sessionId = server.sessionId
  codec : client.negotiatedCodec = server.negotiatedCodec
  inClient : client.negotiatedCodec ∈ client.config.supportedCodecs
  inServer : server.negotiatedCodec ∈ server.config.supportedCodecs
  toServer : client.encryptKey = server.decryptKey
  toClient : client.decryptKey = server.encryptKey

theorem chooseCodec_mem {config : Config} {preferred codec : UInt8}
    (h : Server.chooseCodec config preferred = .ok codec) : codec ∈ config.supportedCodecs := by
  unfold Server.chooseCodec at h
  split_ifs at h with hsupported
  · cases h
    exact List.contains_iff_mem.mp hsupported
  · cases hhead : config.supportedCodecs.head? with
    | none => simp [hhead] at h
    | some first =>
      simp only [hhead, Except.ok.injEq] at h
      exact h ▸ List.mem_of_head? hhead

section Facts
variable {w : World} {st : State} {serverHello : ServerHello} {offer : Offer}

theorem Inv.committed_mem (h : Inv w st) (hcommitted : st.log.committed = some serverHello) :
    w.clientSecrets serverHello ∈ st.secrets w.suite := by
  refine List.mem_append_left _ ?_
  have hsame : st.client.committed = some serverHello := h.client.committed.symm.trans hcommitted
  rw [hsame, ← h.client.secretsFor]
  exact List.mem_singleton_self _

theorem Inv.offer_mem (h : Inv w st) (hoffer : offer ∈ st.log.offers) :
    offer.secrets w.suite ∈ st.secrets w.suite :=
  List.mem_append_right _ (List.mem_map_of_mem (h.server.offers ▸ hoffer))

theorem Inv.settled (h : Inv w st) (hclient : st.client.pc = .returned (.ok serverHello)) :
    Settled w st.log st.client serverHello := by
  have hplace := h.client.place
  rw [hclient] at hplace
  exact hplace.1

theorem Inv.holding (h : Inv w st) (hserver : st.server.pc = .returned (.ok offer)) :
    Holding st.log st.server offer ∧ offer ∈ st.log.accepted := by
  have hplace := h.server.place
  rw [hserver] at hplace
  exact hplace.1

theorem Inv.keys_cross (h : Inv w st) (hclient : st.client.pc = .returned (.ok serverHello))
    (hserver : st.server.pc = .returned (.ok offer))
    (hsecrets : w.clientSecrets serverHello = offer.secrets w.suite) :
    st.client.session.encryptKey = st.server.session.decryptKey ∧
      st.client.session.decryptKey = st.server.session.encryptKey := by
  have hclientAt := h.client.place
  have hserverAt := h.server.place
  rw [hclient] at hclientAt
  rw [hserver] at hserverAt
  obtain ⟨-, hencrypt, hdecrypt⟩ := hclientAt
  obtain ⟨-, hencrypt', hdecrypt'⟩ := hserverAt
  rw [hencrypt, hdecrypt, hencrypt', hdecrypt', hsecrets]
  exact ⟨rfl, rfl⟩

/-- The offer the server returned with carries the tag of the client's KeyExchange. -/
theorem Inv.accepted_tag (h : Inv w st) (hclient : st.client.pc = .returned (.ok serverHello))
    (hserver : st.server.pc = .returned (.ok offer)) :
    (w.clientSecrets serverHello).clientTag w.suite = (offer.secrets w.suite).clientTag w.suite := by
  obtain ⟨-, haccepted⟩ := h.holding hserver
  obtain ⟨-, found, hfound, htag⟩ := h.server.acceptedOk offer haccepted
  rw [(h.settled hclient).committed] at hfound
  cases hfound
  exact htag

theorem Inv.codec_eq (h : Inv w st) (hhonest : w.honest) (hoffer : offer ∈ st.log.offers)
    (hcommitted : st.log.committed = some serverHello) :
    serverHello.codecAccepted = offer.serverHello.codecAccepted := by
  obtain ⟨found, hfound, rfl⟩ := (h.client.commit serverHello hcommitted).offered hhonest
  have hthis := h.server.offersOk offer hoffer
  have hthat := h.server.offersOk found hfound
  have hcodecs := hthat.codec.symm.trans (hthat.hello hhonest ▸ hthis.hello hhonest ▸ hthis.codec)
  exact Except.ok.inj hcodecs

end Facts

section Agreement
variable {setup : Setup} {start st : State}

/-- Two sides that returned `Ok` agree; and a client returns `Ok` only after the server has accepted
a KeyExchange for its transcript. -/
theorem handshake_agreement (hstart : Start start)
    (hrun : Reaches (Step setup) Unforged start st)
    (htags : CollisionFree setup.suite (st.secrets setup.suite)) :
    (∀ serverHello, st.client.pc = .returned (.ok serverHello) →
      ∃ offer ∈ st.server.accepted, (offer.secrets setup.suite).transcript =
        (st.client.secretsFor setup.suite serverHello).transcript) ∧
    (∀ serverHello offer, st.client.pc = .returned (.ok serverHello) →
      st.server.pc = .returned (.ok offer) → Agree st.client.session st.server.session) := by
  have hinv : Inv (start.world setup True) st :=
    inv_reaches hstart (fun _ _ hlabel _ => hlabel) hrun
  constructor
  · intro serverHello hclient
    have hsettled := hinv.settled hclient
    obtain ⟨offer, haccepted, htag⟩ := hsettled.confirmed
    have hoffered := (hinv.server.acceptedOk offer haccepted).offered
    have hsecrets := htags.server _ (hinv.offer_mem hoffered) _
      (hinv.committed_mem hsettled.committed) htag
    refine ⟨offer, hinv.server.accepted ▸ haccepted, ?_⟩
    exact congrArg Secrets.transcript (hsecrets.trans (hinv.client.secretsFor serverHello).symm)
  · intro serverHello offer hclient hserver
    have hsettled := hinv.settled hclient
    obtain ⟨hholding, haccepted⟩ := hinv.holding hserver
    have hsecrets := htags.client _ (hinv.committed_mem hsettled.committed) _
      (hinv.offer_mem hholding.offered) (hinv.accepted_tag hclient hserver)
    obtain ⟨-, -, hid⟩ := buildTranscript_inj (congrArg Secrets.transcript hsecrets)
    have hcodec := hinv.codec_eq trivial hholding.offered hsettled.committed
    obtain ⟨htoServer, htoClient⟩ := hinv.keys_cross hclient hserver hsecrets
    refine ⟨?_, ?_, ?_, ?_, htoServer, htoClient⟩
    · rw [hsettled.sessionId, hholding.sessionId, hid]
    · rw [hsettled.codec, hholding.codec, hcodec]
    · rw [hsettled.codec, hinv.client.config]
      exact (hinv.client.commit serverHello hsettled.committed).codec
    · rw [hholding.codec, hinv.server.config]
      exact chooseCodec_mem (hinv.server.offersOk offer hholding.offered).codec

end Agreement

private def mixed (n : Nat) (ikm info : Bytes) : Vector UInt8 n :=
  Vector.ofFn fun i => ikm.getD (i % ikm.length) 0 ^^^ info.getD (i % info.length) 0

/-- The shared secret is the sum of the two keys, without the top bit that X25519 ignores, and the
expansion mixes the key with the label. -/
private def mixSuite : Suite where
  publicKey secret := secret
  diffieHellman secret theirs :=
    Vector.ofFn fun i => (secret[i] ^^^ theirs[i]) &&& if i = 31 then 0x7F else 0xFF
  hkdf n _ ikm info := mixed n ikm info

private def mixSetup : Setup := ⟨mixSuite, .v4 0x0A000001 9000, .v4 0x0A000002 9000⟩

private def mixStart : State where
  client := ⟨Session.ofDefault, mixSetup.serverAddr, Vector.replicate 32 1, Vector.replicate 32 3,
    .sendHello 0, none⟩
  server := ⟨Session.ofDefault, .fixed mixSetup.clientAddr, .awaitHello, [], []⟩
  net := []

private def mixRand : Rand := ⟨Vector.replicate 32 2, Vector.replicate 32 4, 7⟩

private def plainHello : ClientHello := mixStart.client.hello mixSetup.suite

private def plainOffer : Offer := mixStart.offer mixSetup mixRand 1 plainHello

private theorem mixStart_start : Start mixStart := ⟨rfl, rfl, rfl, rfl, rfl, rfl⟩

private theorem plain_paired :
    Paired mixSetup mixRand 1 plainHello plainOffer.serverHello mixStart where
  start := mixStart_start
  mode := rfl
  peer := rfl
  clientMtu := by decide
  serverMtu := by decide
  isOpen := rfl
  heardNonce := rfl
  heardVersion := by decide
  codec := rfl
  shownNonce := rfl
  shownId := rfl
  shownVersion := by decide
  shownCodec := by decide
  commutes := by decide

private theorem secrets_same {allowed : State → Label → Prop} {st : State} {codec : UInt8}
    {heard : ClientHello} {shown : ServerHello} {clientPc : ClientPc} {serverPc : ServerPc}
    (hpaired : Paired mixSetup mixRand codec heard shown mixStart)
    (h : Stage mixSetup allowed mixStart st clientPc serverPc (some shown)
      [mixStart.offer mixSetup mixRand codec heard]) :
    ∀ a ∈ st.secrets mixSetup.suite, a = mixStart.client.secretsFor mixSetup.suite shown := by
  intro a ha
  rw [State.secrets, h.committed, h.offers] at ha
  rcases List.mem_append.mp ha with hclient | hserver
  · exact (List.mem_singleton.mp hclient).trans (h.secretsFor shown)
  · exact (List.mem_singleton.mp hserver).trans hpaired.secrets_eq.symm

theorem handshake_agreement_completed :
    ∃ st, Reaches (Step mixSetup) Unforged mixStart st ∧
      st.client.pc = .returned (.ok plainOffer.serverHello) ∧
      st.server.pc = .returned (.ok plainOffer) ∧ Agree st.client.session st.server.session ∧
      ∃ offer ∈ st.server.accepted, (offer.secrets mixSetup.suite).transcript =
        (st.client.secretsFor mixSetup.suite plainOffer.serverHello).transcript := by
  obtain ⟨st, h⟩ := plain_paired.completes unforged_party (.inl ⟨rfl, rfl⟩)
  have hsame := secrets_same plain_paired h
  have htags : CollisionFree mixSetup.suite (st.secrets mixSetup.suite) :=
    ⟨fun a ha b hb _ => (hsame a ha).trans (hsame b hb).symm,
      fun a ha b hb _ => (hsame a ha).trans (hsame b hb).symm⟩
  obtain ⟨haccepted, hagree⟩ := handshake_agreement mixStart_start h.run htags
  exact ⟨st, h.run, h.clientPc, h.serverPc, hagree _ _ h.clientPc h.serverPc,
    haccepted _ h.clientPc⟩

def Rewriting (_ : State) (_ : Label) : Prop := True

theorem rewriting_any (st : State) (label : Label) : Rewriting st label := trivial

section Binding
variable {setup : Setup} {start st : State} {serverHello : ServerHello} {offer : Offer}

/-- What two sides that returned `Ok` agree on, whatever became of their hellos. -/
theorem transcript_binds (hstart : Start start)
    (hrun : Reaches (Step setup) Rewriting start st)
    (htags : TagsInjective setup.suite (st.secrets setup.suite))
    (hclient : st.client.pc = .returned (.ok serverHello))
    (hserver : st.server.pc = .returned (.ok offer)) :
    offer.clientHello.clientNonce = (st.client.hello setup.suite).clientNonce ∧
      serverHello.serverNonce = offer.serverHello.serverNonce ∧
      serverHello.sessionId = offer.serverHello.sessionId ∧
      serverHello.protocolVersion = offer.serverHello.protocolVersion := by
  have hinv : Inv (start.world setup False) st :=
    inv_reaches hstart (fun _ _ _ hhonest => hhonest.elim) hrun
  have hsettled := hinv.settled hclient
  obtain ⟨hholding, -⟩ := hinv.holding hserver
  have hinputs := htags ⟨_, hinv.committed_mem hsettled.committed, List.mem_cons_self⟩
    ⟨_, hinv.offer_mem hholding.offered, List.mem_cons_self⟩ (hinv.accepted_tag hclient hserver)
  simp only [Prod.mk.injEq] at hinputs
  obtain ⟨hclientNonce, hserverNonce, hid⟩ := buildTranscript_inj hinputs.2.2
  refine ⟨hclientNonce.symm.trans hinv.client.nonce.symm, hserverNonce, hid, ?_⟩
  · rw [(hinv.client.commit serverHello hsettled.committed).version,
      (hinv.server.offersOk offer hholding.offered).version]

end Binding

private def topFlipped (key : Key32) : Key32 := key.set 31 (key[31] ^^^ 0x80)

private def changedHello : ClientHello where
  ephemeralPublicKey := topFlipped plainHello.ephemeralPublicKey
  clientNonce := plainHello.clientNonce
  protocolVersion := 9
  codecPreferred := 2
  sampleRate := 8000
  channels := 2
  frameDurationMs := 40
  maxBitrate := 1
  capabilityFlags := 5

private def changedOffer : Offer := mixStart.offer mixSetup mixRand 2 changedHello

private def changedServerHello : ServerHello where
  ephemeralPublicKey := topFlipped changedOffer.serverHello.ephemeralPublicKey
  serverNonce := changedOffer.serverHello.serverNonce
  sessionId := changedOffer.serverHello.sessionId
  protocolVersion := 1
  codecAccepted := 1
  sampleRate := 16000
  channels := 3
  frameDurationMs := 60
  maxBitrate := 7
  capabilityFlags := 9

/-- Nothing but the nonce is the same. -/
private def ClientHellosDiffer (heard sent : ClientHello) : Prop :=
  heard.ephemeralPublicKey ≠ sent.ephemeralPublicKey ∧
    heard.protocolVersion ≠ sent.protocolVersion ∧ heard.codecPreferred ≠ sent.codecPreferred ∧
    heard.sampleRate ≠ sent.sampleRate ∧ heard.channels ≠ sent.channels ∧
    heard.frameDurationMs ≠ sent.frameDurationMs ∧ heard.maxBitrate ≠ sent.maxBitrate ∧
    heard.capabilityFlags ≠ sent.capabilityFlags

/-- Nothing but the nonce, the session id and the version is the same. -/
private def ServerHellosDiffer (shown sent : ServerHello) : Prop :=
  shown.ephemeralPublicKey ≠ sent.ephemeralPublicKey ∧ shown.codecAccepted ≠ sent.codecAccepted ∧
    shown.sampleRate ≠ sent.sampleRate ∧ shown.channels ≠ sent.channels ∧
    shown.frameDurationMs ≠ sent.frameDurationMs ∧ shown.maxBitrate ≠ sent.maxBitrate ∧
    shown.capabilityFlags ≠ sent.capabilityFlags

private theorem changed_paired :
    Paired mixSetup mixRand 2 changedHello changedServerHello mixStart where
  start := mixStart_start
  mode := rfl
  peer := rfl
  clientMtu := by decide
  serverMtu := by decide
  isOpen := rfl
  heardNonce := rfl
  heardVersion := by decide
  codec := rfl
  shownNonce := rfl
  shownId := rfl
  shownVersion := by decide
  shownCodec := by decide
  commutes := by decide

private theorem tags_differ :
    let secrets := mixStart.client.secretsFor mixSetup.suite changedServerHello
    secrets.clientTag mixSetup.suite ≠ secrets.serverTag mixSetup.suite := by
  intro secrets h
  have hbyte := congrArg (fun tag : Tag => tag[3]) h
  revert hbyte
  decide +kernel

private theorem tagsInjective_same {suite : Suite} {list : List Secrets} {secrets : Secrets}
    (hsame : ∀ a ∈ list, a = secrets) (hdiffer : secrets.clientTag suite ≠ secrets.serverTag suite) :
    TagsInjective suite list := by
  rintro input ⟨a, ha, hinput⟩ input' ⟨b, hb, hinput'⟩ htags
  rw [hsame a ha, tagInputs, List.mem_pair] at hinput
  rw [hsame b hb, tagInputs, List.mem_pair] at hinput'
  rcases hinput with rfl | rfl <;> rcases hinput' with rfl | rfl
  · rfl
  · exact absurd htags hdiffer
  · exact absurd htags.symm hdiffer
  · rfl

private theorem changed_run :
    ∃ st, Stage mixSetup Rewriting mixStart st (.returned (.ok changedServerHello))
        (.returned (.ok changedOffer)) (some changedServerHello) [changedOffer] ∧
      TagsInjective mixSetup.suite (st.secrets mixSetup.suite) := by
  obtain ⟨st, h⟩ := changed_paired.completes (rewriting_any · .party)
    (.inr (rewriting_any · .rewrite))
  exact ⟨st, h, tagsInjective_same (secrets_same changed_paired h) tags_differ⟩

theorem transcript_binds_changed :
    changedHello.clientNonce = (mixStart.client.hello mixSetup.suite).clientNonce ∧
      changedServerHello.serverNonce = changedOffer.serverHello.serverNonce ∧
      changedServerHello.sessionId = changedOffer.serverHello.sessionId ∧
      changedServerHello.protocolVersion = changedOffer.serverHello.protocolVersion := by
  obtain ⟨st, h, htags⟩ := changed_run
  have hbound := transcript_binds mixStart_start h.run htags h.clientPc h.serverPc
  rwa [h.hello] at hbound

/-- Both calls return `Ok` with each other's keys, and no field of the hellos but the nonces, the
session id and the ServerHello's version is what the other side sent. -/
theorem rewritten_hellos_accepted :
    ∃ st, Reaches (Step mixSetup) Rewriting mixStart st ∧
      TagsInjective mixSetup.suite (st.secrets mixSetup.suite) ∧
      st.client.pc = .returned (.ok changedServerHello) ∧
      st.server.pc = .returned (.ok changedOffer) ∧
      (st.client.session.encryptKey = st.server.session.decryptKey ∧
        st.client.session.decryptKey = st.server.session.encryptKey) ∧
      ClientHellosDiffer changedOffer.clientHello (st.client.hello mixSetup.suite) ∧
      ServerHellosDiffer changedServerHello changedOffer.serverHello ∧
      st.client.session.negotiatedCodec ≠ st.server.session.negotiatedCodec := by
  obtain ⟨st, h, htags⟩ := changed_run
  have hinv : Inv (mixStart.world mixSetup False) st :=
    inv_reaches mixStart_start (fun _ _ _ hhonest => hhonest.elim) h.run
  refine ⟨st, h.run, htags, h.clientPc, h.serverPc,
    hinv.keys_cross h.clientPc h.serverPc changed_paired.secrets_eq, ?_, ?_, ?_⟩
  · rw [h.hello]
    unfold ClientHellosDiffer
    decide
  · unfold ServerHellosDiffer
    decide
  · rw [(hinv.settled h.clientPc).codec, (hinv.holding h.serverPc).1.codec]
    decide

end GravitalTalk.Transport.Handshake
