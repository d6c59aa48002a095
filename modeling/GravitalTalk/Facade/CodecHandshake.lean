import GravitalTalk.Facade.CodecSession
import GravitalTalk.Transport.Agreement

/-! The handshake of a codec session: that of the session inside, and then a look at the codec it has
negotiated. -/
namespace GravitalTalk.Codec

def CodecId.fromCode (code : UInt8) : CodecId :=
  if code = 0x01 then .pcm else if code = 0x02 then .opus else .other code

@[simp] theorem CodecId.code_fromCode (code : UInt8) : (fromCode code).code = code := by
  unfold fromCode
  split_ifs with hpcm hopus
  · exact hpcm.symm
  · exact hopus.symm
  · rfl

end GravitalTalk.Codec

namespace GravitalTalk.Facade
open Lib GravitalTalk.Core Codec Transport Handshake Transition

inductive HandshakeError where
  | inner (error : CodecSessionError)
  | codecMismatch (requested negotiated : CodecId)
  deriving DecidableEq, Repr

namespace CodecSession

/-- `handshake` from where the session's own has returned and left `inner`. -/
def handshake (codecId : CodecId) (result : Except TransportError Unit) (inner : Session) :
    Except HandshakeError Unit :=
  match result with
  | .error e => .error (.inner (.transport e))
  | .ok () =>
    let negotiated := CodecId.fromCode inner.negotiatedCodec
    if negotiated ≠ codecId then .error (.codecMismatch codecId negotiated)
    else .ok ()

/-- The codecs that a codec session can be made with. -/
def Available : CodecId → Prop
  | .other _ => False
  | _ => True

variable {ω : Type} [Encoder ω] {opus : Option (OpusCodec ω)} {config : Config} {codec : CodecId}
  {self : CodecSession (AnyCodec ω) (AnyCodec ω)}

theorem fromCode_eq_iff {codecId : CodecId} (h : Available codecId) (code : UInt8) :
    CodecId.fromCode code = codecId ↔ code = codecId.code := by
  constructor
  · rintro rfl
    exact (CodecId.code_fromCode code).symm
  · rintro rfl
    cases codecId with
    | pcm => rfl
    | opus => rfl
    | other code => exact absurd h id

theorem handshake_ok_iff {codecId : CodecId} (h : Available codecId) (inner : Session) :
    handshake codecId (.ok ()) inner = .ok () ↔ inner.negotiatedCodec = codecId.code := by
  rw [← fromCode_eq_iff h]
  unfold handshake
  by_cases hsame : CodecId.fromCode inner.negotiatedCodec = codecId
  · simp [hsame]
  · simp [hsame]

theorem new_available (h : CodecSession.new opus config codec = some (.ok self)) : Available codec := by
  cases codec with
  | pcm => trivial
  | opus => trivial
  | other code => simp [CodecSession.new, buildPair] at h

theorem new_config (h : CodecSession.new opus config codec = some (.ok self)) :
    self.inner.config = configFor config codec := by
  unfold CodecSession.new at h
  cases hpair : buildPair opus codec config.sampleRate config.channels config.frameDurationMs with
  | error e => simp [hpair] at h
  | ok pair =>
    simp only [hpair, Option.map_eq_some_iff] at h
    obtain ⟨inner, hinner, h⟩ := h
    injection h with h
    subst h
    exact session_new_config hinner

theorem code_mem_configFor (config : Config) (codec : CodecId) :
    codec.code ∈ (configFor config codec).supportedCodecs := by
  unfold configFor
  dsimp only
  split_ifs with hcontains
  · exact List.contains_iff_mem.mp hcontains
  · exact List.mem_cons_self

end CodecSession

section Negotiated
variable {setup : Setup} {start st : State} {serverHello : ServerHello} {offer : Offer}

theorem negotiated_eq (hstart : Start start) (hrun : Reaches (Step setup) Unforged start st)
    (hclient : st.client.pc = .returned (.ok serverHello))
    (hserver : st.server.pc = .returned (.ok offer)) :
    st.client.session.negotiatedCodec = st.server.session.negotiatedCodec ∧
      Server.chooseCodec start.server.session.config start.client.session.config.codecPreferred =
        .ok st.server.session.negotiatedCodec := by
  have hinv : Inv (start.world setup True) st :=
    inv_reaches hstart (fun _ _ hlabel _ => hlabel) hrun
  have hsettled := hinv.settled hclient
  obtain ⟨hholding, -⟩ := hinv.holding hserver
  have hoffer := hinv.server.offersOk offer hholding.offered
  constructor
  · rw [hsettled.codec, hholding.codec]
    exact hinv.codec_eq trivial hholding.offered hsettled.committed
  · have hchosen := hoffer.codec
    rw [hoffer.hello trivial] at hchosen
    rw [hholding.codec]
    exact hchosen

theorem chooseCodec_eq {config : Config} {preferred codec : UInt8}
    (h : Server.chooseCodec config preferred = .ok codec) :
    (preferred ∈ config.supportedCodecs ∧ codec = preferred) ∨
      preferred ∉ config.supportedCodecs ∧ config.supportedCodecs.head? = some codec := by
  unfold Server.chooseCodec at h
  split_ifs at h with hsupported
  · cases h
    exact .inl ⟨List.contains_iff_mem.mp hsupported, rfl⟩
  · refine .inr ⟨fun hmem => hsupported (List.contains_iff_mem.mpr hmem), ?_⟩
    cases hhead : config.supportedCodecs.head? with
    | none => simp [hhead] at h
    | some first =>
      simp only [hhead, Except.ok.injEq] at h
      rw [h]

end Negotiated

namespace CodecSession

section Ends
variable {ω : Type} [Encoder ω] {clientOpus serverOpus : Option (OpusCodec ω)}
  {clientConfig serverConfig : Config} {clientCodec serverCodec : CodecId}
  {client server : CodecSession (AnyCodec ω) (AnyCodec ω)}
  {setup : Setup} {start st : State} {serverHello : ServerHello} {offer : Offer}

/-- When the handshakes of the two sessions inside have succeeded: the client's codec session takes
it if the server can choose the client's codec, the server's if what is chosen is its own, and both
do only if they are made with the same codec. -/
theorem codec_handshake
    (hnewClient : CodecSession.new clientOpus clientConfig clientCodec = some (.ok client))
    (hnewServer : CodecSession.new serverOpus serverConfig serverCodec = some (.ok server))
    (hstart : Start start) (hclientConfig : start.client.session.config = client.inner.config)
    (hserverConfig : start.server.session.config = server.inner.config)
    (hrun : Reaches (Step setup) Unforged start st)
    (hclient : st.client.pc = .returned (.ok serverHello))
    (hserver : st.server.pc = .returned (.ok offer)) :
    (handshake clientCodec (.ok ()) st.client.session = .ok () ↔
      clientCodec.code ∈ server.inner.config.supportedCodecs) ∧
    (handshake serverCodec (.ok ()) st.server.session = .ok () ↔
      clientCodec = serverCodec ∨ (clientCodec.code ∉ server.inner.config.supportedCodecs ∧
        server.inner.config.supportedCodecs.head? = some serverCodec.code)) ∧
    (handshake clientCodec (.ok ()) st.client.session = .ok () ∧
      handshake serverCodec (.ok ()) st.server.session = .ok () ↔ clientCodec = serverCodec) := by
  have havailable := new_available hnewClient
  have hsame : ∀ code : UInt8, code = clientCodec.code → code = serverCodec.code →
      clientCodec = serverCodec := by
    intro code hcode hcode'
    exact ((fromCode_eq_iff havailable code).mpr hcode).symm.trans
      ((fromCode_eq_iff (new_available hnewServer) code).mpr hcode')
  have hown : serverCodec.code ∈ server.inner.config.supportedCodecs := by
    rw [new_config hnewServer]
    exact code_mem_configFor serverConfig serverCodec
  have hpreferred : start.client.session.config.codecPreferred = clientCodec.code := by
    rw [hclientConfig, new_config hnewClient]
    rfl
  obtain ⟨hnegotiated, hchosen⟩ := negotiated_eq hstart hrun hclient hserver
  rw [hpreferred, hserverConfig] at hchosen
  rw [handshake_ok_iff havailable, handshake_ok_iff (new_available hnewServer), hnegotiated]
  set code := st.server.session.negotiatedCodec
  rcases chooseCodec_eq hchosen with ⟨hmem, hcode⟩ | ⟨hmem, hhead⟩
  · have hiff : code = serverCodec.code ↔ clientCodec = serverCodec :=
      ⟨hsame code hcode, fun h => h ▸ hcode⟩
    refine ⟨iff_of_true hcode hmem, ?_, ?_⟩
    · rw [hiff]
      exact ⟨.inl, fun h => h.resolve_right fun h => h.1 hmem⟩
    · rw [hiff]
      exact ⟨And.right, fun h => ⟨hcode, h⟩⟩
  · have hne : code ≠ clientCodec.code := by
      intro hcode
      exact hmem (hcode ▸ List.mem_of_head? hhead)
    have hdistinct : clientCodec ≠ serverCodec := by
      rintro rfl
      exact hmem hown
    refine ⟨iff_of_false hne hmem, ?_, iff_of_false (fun h => hne h.1) hdistinct⟩
    rw [hhead, Option.some.injEq]
    exact ⟨fun h => .inr ⟨hmem, h⟩, fun h => (h.resolve_left hdistinct).2⟩

end Ends

-- A call between an Opus client and a PCM server, both of the default configuration, which lists
-- both codecs.
private def anyWrapper : OpusCodec PcmCodec where
  newEncoder sampleRate channels frameDurationMs := .ok ⟨sampleRate, channels, frameDurationMs⟩
  newDecoder sampleRate channels frameDurationMs := .ok ⟨sampleRate, channels, frameDurationMs⟩

private def evenSuite : Suite where
  publicKey secret := secret
  diffieHellman _ _ := Vector.replicate 32 0
  hkdf n _ _ _ := Vector.replicate n 0

private def callSetup : Setup := ⟨evenSuite, .v4 0x0A000001 9000, .v4 0x0A000002 9000⟩

private def callRand : Rand := ⟨Vector.replicate 32 2, Vector.replicate 32 4, 7⟩

private def callStart (client server : Session) : State where
  client := ⟨client, callSetup.serverAddr, Vector.replicate 32 1, Vector.replicate 32 3,
    .sendHello 0, none⟩
  server := ⟨server, .fixed callSetup.clientAddr, .awaitHello, [], []⟩
  net := []

private def callHello (client server : Session) : ClientHello :=
  (callStart client server).client.hello evenSuite

private def callOffer (client server : Session) : Offer :=
  (callStart client server).offer callSetup callRand 0x02 (callHello client server)

private theorem call_paired {client server : Session}
    (hclient : client.config = configFor Config.default .opus)
    (hserver : server.config = configFor Config.default .pcm) (hopen : server.closed = false) :
    Paired callSetup callRand 0x02 (callHello client server) (callOffer client server).serverHello
      (callStart client server) where
  start := ⟨rfl, rfl, rfl, rfl, rfl, rfl⟩
  mode := rfl
  peer := rfl
  clientMtu := by
    change 112 ≤ client.config.mtu
    rw [hclient]
    decide
  serverMtu := by
    change 112 ≤ server.config.mtu
    rw [hserver]
    decide
  isOpen := hopen
  heardNonce := rfl
  heardVersion := by
    change ¬protocolVersionMax < protocolVersionMin
    decide
  codec := by
    change Server.chooseCodec server.config client.config.codecPreferred = _
    rw [hclient, hserver]
    rfl
  shownNonce := rfl
  shownId := rfl
  shownVersion := by
    change min protocolVersionMax protocolVersionMax = protocolVersion
    decide
  shownCodec := by
    change 0x02 ∈ client.config.supportedCodecs
    rw [hclient]
    decide
  commutes := rfl

/-- The client takes the handshake to have succeeded, the server does not. -/
theorem codec_handshake_default :
    ∃ (client server : CodecSession (AnyCodec PcmCodec) (AnyCodec PcmCodec)) (st : State),
      CodecSession.new (some anyWrapper) Config.default .opus = some (.ok client) ∧
      CodecSession.new (some anyWrapper) Config.default .pcm = some (.ok server) ∧
      Reaches (Step callSetup) Unforged (callStart client.inner server.inner) st ∧
      handshake .opus (.ok ()) st.client.session = .ok () ∧
      handshake .pcm (.ok ()) st.server.session ≠ .ok () := by
  obtain ⟨client, hclient⟩ : ∃ self, CodecSession.new (some anyWrapper) Config.default .opus =
      some (.ok self) := ⟨_, rfl⟩
  obtain ⟨server, hserver, hopen⟩ : ∃ self, CodecSession.new (some anyWrapper) Config.default .pcm =
      some (.ok self) ∧ self.inner.closed = false := ⟨_, rfl, rfl⟩
  have hpaired := call_paired (new_config hclient) (new_config hserver) hopen
  obtain ⟨st, h⟩ := hpaired.completes unforged_party (.inl ⟨rfl, rfl⟩)
  obtain ⟨htakes, -, hboth⟩ :=
    codec_handshake hclient hserver hpaired.start rfl rfl h.run h.clientPc h.serverPc
  have hlisted : CodecId.opus.code ∈ server.inner.config.supportedCodecs := by
    rw [new_config hserver]
    decide
  have hok := htakes.mpr hlisted
  exact ⟨client, server, st, hclient, hserver, h.run, hok, fun hserverOk =>
    absurd (hboth.mp ⟨hok, hserverOk⟩) (by decide)⟩

end CodecSession

end GravitalTalk.Facade
