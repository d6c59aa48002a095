import GravitalTalk.Lib.Slots
import GravitalTalk.Lib.Text
import GravitalTalk.Transport.Session

/-! Discovery of peers in the local network: the text of an announcement, its parser, and the loop that
collects what was announced. -/
namespace GravitalTalk.Transport.Discovery
open Lib Text

structure PeerInfo where
  addr : SocketAddr
  sessionId : UInt32
  name : String
  deriving DecidableEq

/-- What `announce_lan` sends. -/
def announceText (udpPort : UInt16) (sessionId : UInt32) (name : String) : String :=
  "GT1 " ++ udpPort.toNat.repr ++ " " ++ sessionId.toNat.repr ++ " " ++ name

def asBytes (text : String) : Bytes := text.toUTF8.data.toList

def fromUtf8 (data : Bytes) : Option String := String.fromUTF8? ⟨data.toArray⟩

/-- The address of this host with another port: `SocketAddr::new(source.ip(), port)`. -/
def withPort (source : SocketAddr) (port : UInt16) : SocketAddr :=
  match source with
  | .v4 ip _ => .v4 ip port
  | .v6 ip _ _ _ => .v6 ip port 0 0

def parseAnnouncement (data : Bytes) (source : SocketAddr) : Option PeerInfo := do
  let text ← fromUtf8 data
  let s := trim text.toList
  if !"GT1 ".toList.isPrefixOf s then none
  else
    let parts := splitn ' ' 3 (s.drop 4)
    let port ← parts[0]?.bind (parseUnsigned (2 ^ 16))
    let sessionId ← parts[1]?.bind (parseUnsigned (2 ^ 32))
    let name := trim (parts[2]?.getD "unknown".toList)
    return ⟨withPort source (UInt16.ofNat port), UInt32.ofNat sessionId, String.ofList name⟩

/-- One turn of the loop of `discover_lan`: whether the deadline has passed, and what `recv_from`
returned, `none` for an error. -/
structure Turn where
  expired : Bool
  received : Option (Bytes × SocketAddr)

/-- The buffer of the loop has 512 bytes. -/
def receive (peers : List PeerInfo) (data : Bytes) (source : SocketAddr) : List PeerInfo :=
  match parseAnnouncement (data.take 512) source with
  | some info => if peers.any fun p => p.addr == info.addr then peers else peers ++ [info]
  | none => peers

def discoverLan (peers : List PeerInfo) : List Turn → List PeerInfo
  | [] => peers
  | turn :: turns =>
    if turn.expired then peers
    else
      match turn.received with
      | some (data, source) => discoverLan (receive peers data source) turns
      | none => peers

theorem fromUtf8_asBytes (text : String) : fromUtf8 (asBytes text) = some text := by
  have hvalid : (⟨(asBytes text).toArray⟩ : ByteArray).IsValidUTF8 := by
    simpa [asBytes] using text.isValidUTF8
  rw [fromUtf8, String.fromUTF8?, dif_pos hvalid]
  simp [asBytes, String.fromUTF8]

def announcedName (name : String) : String :=
  if trim name.toList = [] then "unknown" else String.ofList (trim name.toList)

theorem toList_announceText (udpPort : UInt16) (sessionId : UInt32) (name : String) :
    (announceText udpPort sessionId name).toList =
      "GT1 ".toList ++ (Nat.toDigits 10 udpPort.toNat ++ ' ' ::
        (Nat.toDigits 10 sessionId.toNat ++ ' ' :: name.toList)) := by
  simp [announceText, Nat.toList_repr]

theorem space_not_mem_toDigits (n : Nat) : ' ' ∉ Nat.toDigits 10 n := by
  intro h
  exact absurd (mem_toDigits_isDigit h) (by decide)

theorem trimEnd_append_toDigits (s : List Char) (n : Nat) :
    trimEnd (s ++ Nat.toDigits 10 n) = s ++ Nat.toDigits 10 n := by
  have hne : Nat.toDigits 10 n ≠ [] := Nat.toDigits_ne_nil
  have hself : trimEnd (Nat.toDigits 10 n) = Nat.toDigits 10 n := by
    apply trimEnd_eq_self hne
    exact not_isWhiteSpace_of_isDigit (mem_toDigits_isDigit (List.getLast_mem hne))
  rw [trimEnd_append_of_ne_nil (by rwa [hself]), hself]

theorem parseAnnouncement_of_parts {text : String} {rest : List Char} {port : UInt16}
    {sessionId : UInt32} {third : List (List Char)} (source : SocketAddr)
    (htrim : trim text.toList = "GT1 ".toList ++ rest)
    (hparts : splitn ' ' 3 rest =
      Nat.toDigits 10 port.toNat :: Nat.toDigits 10 sessionId.toNat :: third) :
    parseAnnouncement (asBytes text) source = some ⟨withPort source port, sessionId,
      String.ofList (trim (third[0]?.getD "unknown".toList))⟩ := by
  have htag : "GT1 ".toList.isPrefixOf ("GT1 ".toList ++ rest) = true :=
    List.isPrefixOf_iff_prefix.mpr (List.prefix_append _ _)
  have hdrop : ("GT1 ".toList ++ rest).drop 4 = rest := List.drop_left' rfl
  rw [parseAnnouncement, fromUtf8_asBytes]
  simp only [Option.bind_eq_bind, Option.bind_some, htrim, htag, hdrop, hparts, Bool.not_true,
    Bool.false_eq_true, if_false, List.getElem?_cons_zero, List.getElem?_cons_succ,
    parseUnsigned_toDigits port.toNat_lt, parseUnsigned_toDigits sessionId.toNat_lt,
    UInt16.ofNat_toNat, UInt32.ofNat_toNat]
  rfl

theorem parseAnnouncement_announceText (udpPort : UInt16) (sessionId : UInt32) (name : String)
    (source : SocketAddr) :
    parseAnnouncement (asBytes (announceText udpPort sessionId name)) source =
      some ⟨withPort source udpPort, sessionId, announcedName name⟩ := by
  have hstart : trim (announceText udpPort sessionId name).toList =
      trimEnd (announceText udpPort sessionId name).toList := by
    rw [trim, toList_announceText]
    exact congrArg trimEnd (trimStart_cons rfl)
  have hsplit : (announceText udpPort sessionId name).toList =
      ("GT1 ".toList ++ (Nat.toDigits 10 udpPort.toNat ++ [' ']) ++
        Nat.toDigits 10 sessionId.toNat) ++ ' ' :: name.toList := by
    simp [toList_announceText]
  have hport := space_not_mem_toDigits udpPort.toNat
  have hsession := space_not_mem_toDigits sessionId.toNat
  by_cases hname : trimEnd name.toList = []
  · have hspace : trimEnd (' ' :: name.toList) = [] := by
      rw [trimEnd, List.rdropWhile_eq_nil_iff] at hname ⊢
      intro c hc
      rcases List.mem_cons.mp hc with rfl | hc
      · rfl
      · exact hname c hc
    have htrim : trim (announceText udpPort sessionId name).toList =
        "GT1 ".toList ++ (Nat.toDigits 10 udpPort.toNat ++ ' ' ::
          Nat.toDigits 10 sessionId.toNat) := by
      rw [hstart, hsplit, trimEnd_append_of_nil hspace, trimEnd_append_toDigits]
      simp
    rw [parseAnnouncement_of_parts source htrim
      ((splitn_append 1 hport).trans (by rw [splitn_of_not_mem 1 hsession])), announcedName,
      if_pos (trim_eq_nil_iff.mpr hname)]
    rfl
  · have hend : trimEnd (' ' :: name.toList) = ' ' :: trimEnd name.toList :=
      trimEnd_append_of_ne_nil (s := [' ']) hname
    have htrim : trim (announceText udpPort sessionId name).toList =
        "GT1 ".toList ++ (Nat.toDigits 10 udpPort.toNat ++ ' ' ::
          (Nat.toDigits 10 sessionId.toNat ++ ' ' :: trimEnd name.toList)) := by
      have hne : trimEnd (' ' :: name.toList) ≠ [] := by
        rw [hend]
        exact List.cons_ne_nil _ _
      rw [hstart, hsplit, trimEnd_append_of_ne_nil hne, hend]
      simp
    rw [parseAnnouncement_of_parts source htrim
      ((splitn_append 1 hport).trans (by rw [splitn_append 0 hsession])), announcedName,
      if_neg fun h => hname (trim_eq_nil_iff.mp h)]
    simp only [splitn, List.getElem?_cons_zero, Option.getD_some, trim_trimEnd]

/-- The datagrams that come before the deadline or an error ends the loop. -/
def arrivals (turns : List Turn) : List (Bytes × SocketAddr) :=
  (turns.takeWhile fun turn => !turn.expired && turn.received.isSome).filterMap Turn.received

def announcements (datagrams : List (Bytes × SocketAddr)) : List PeerInfo :=
  datagrams.filterMap fun datagram => parseAnnouncement (datagram.1.take 512) datagram.2

theorem receive_eq (peers : List PeerInfo) (datagram : Bytes × SocketAddr) :
    receive peers datagram.1 datagram.2 =
      (announcements [datagram]).foldl (Slots.keepFirst PeerInfo.addr) peers := by
  unfold receive announcements
  cases hparse : parseAnnouncement (datagram.1.take 512) datagram.2 with
  | none => simp [hparse]
  | some info => simp [hparse, Slots.keepFirst]

theorem discoverLan_eq (peers : List PeerInfo) (turns : List Turn) :
    discoverLan peers turns =
      (announcements (arrivals turns)).foldl (Slots.keepFirst PeerInfo.addr) peers := by
  induction turns generalizing peers with
  | nil => rfl
  | cons turn turns ih =>
    obtain ⟨expired, received⟩ := turn
    cases expired with
    | true => rfl
    | false =>
      cases received with
      | none => rfl
      | some datagram =>
        have harrivals : arrivals (⟨false, some datagram⟩ :: turns) = datagram :: arrivals turns := by
          simp [arrivals]
        have happend : announcements (datagram :: arrivals turns) =
            announcements [datagram] ++ announcements (arrivals turns) := by
          rw [announcements, announcements, announcements, ← List.filterMap_append,
            List.singleton_append]
        rw [harrivals, happend, List.foldl_append, ← receive_eq, ← ih]
        rfl

/-- An announcement is read back by whoever receives it; and of the valid announcements that arrive
until the loop ends, the list has the first of every address, in their order, and no others. -/
theorem announcements_discovered :
    (∀ (udpPort : UInt16) (sessionId : UInt32) (name : String) (source : SocketAddr),
      parseAnnouncement (asBytes (announceText udpPort sessionId name)) source =
        some ⟨withPort source udpPort, sessionId, announcedName name⟩) ∧
    ∀ turns : List Turn,
      discoverLan [] turns =
        (announcements (arrivals turns)).eraseDupsBy (fun info earlier => info.addr == earlier.addr) ∧
      ((discoverLan [] turns).map PeerInfo.addr).Nodup ∧
      ∀ addr, (discoverLan [] turns).find? (fun info => info.addr == addr) =
        (announcements (arrivals turns)).find? fun info => info.addr == addr := by
  refine ⟨parseAnnouncement_announceText, fun turns => ?_⟩
  have hlist : discoverLan [] turns =
      (announcements (arrivals turns)).eraseDupsBy (Slots.sameKey PeerInfo.addr) := by
    rw [discoverLan_eq, Slots.foldl_keepFirst]
    simp
  refine ⟨hlist, ?_, fun addr => ?_⟩
  · rw [hlist]
    exact Slots.nodup_eraseDupsBy PeerInfo.addr _
  · rw [hlist]
    exact Slots.find?_eraseDupsBy PeerInfo.addr _ addr

end GravitalTalk.Transport.Discovery
