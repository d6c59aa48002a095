import Mathlib.Data.Finset.Card
import Mathlib.Data.Finset.Range
import GravitalTalk.Relay.Bridge

/-! What becomes of the messages handed to a WebSocket connection, of the connection's place in the
table and of the gauge that counts it. -/
namespace GravitalTalk.Relay.Bridge
open Lib GravitalTalk.Core Transport Transition

inductive Fate where
  | queued
  | written
  | failed
  /-- The receiver was dropped with it. -/
  | discarded
  deriving DecidableEq

structure Event where
  fate : Fate
  tx : Channel
  data : Bytes

def sendEvents (item : InFlight) (result : Option Nat) : List Event :=
  match item.target with
  | .udp _ => []
  | .webSocket tx => if result.isSome then [⟨.queued, tx, item.data⟩] else []

def events (st : State) (act : Act) (_ : State) : List Event :=
  match act with
  | .forwards tx result =>
    match st.reader tx with
    | .running (item :: _) => sendEvents item result
    | _ => []
  | .replies result =>
    match st.udp with
    | item :: _ => sendEvents item result
    | [] => []
  | .writes tx accepted =>
    match st.writer tx with
    | .running (data :: _) => [⟨if accepted then .written else .failed, tx, data⟩]
    | _ => []
  | .drops tx => (st.writer tx).queue.map (⟨.discarded, tx, ·⟩)
  | _ => []

abbrev Run := Logged State Event

def Runs (maxSessions maxPeers : Nat) (run : Run) : Prop :=
  Reaches (LogStep Step events) (fun _ _ => True) ⟨.init maxSessions maxPeers, []⟩ run

def messages (fate : Fate) (tx : Channel) (log : List Event) : List Bytes :=
  (log.filter fun e => e.fate = fate ∧ e.tx = tx).map (·.data)

theorem messages_append (fate : Fate) (tx : Channel) (log more : List Event) :
    messages fate tx (log ++ more) = messages fate tx log ++ messages fate tx more := by
  rw [messages, List.filter_append, List.map_append]
  rfl

theorem messages_of_ne {fate : Fate} {tx : Channel} {log : List Event} (h : ∀ e ∈ log, e.tx ≠ tx) :
    messages fate tx log = [] := by
  rw [messages, List.map_eq_nil_iff, List.filter_eq_nil_iff]
  intro e he
  simp [h e he]

/-- Nothing is lost before the sink refuses a message, and a writer that ends before had nobody left
to write for. -/
structure ChannelInv (st : State) (log : List Event) (tx : Channel) : Prop where
  order : messages .queued tx log = messages .written tx log ++ messages .failed tx log ++
    messages .discarded tx log ++ (st.writer tx).queue
  running : ∀ queue, st.writer tx = .running queue → messages .failed tx log = []
  kept : (st.writer tx).connected → messages .discarded tx log = []
  clean : messages .failed tx log = [] → messages .discarded tx log = [] ∧
    ((∃ queue, st.writer tx = .running queue) ∨ (st.writer tx).queue = [] ∧ ¬st.Held tx)

def State.open (st : State) : Finset Channel :=
  (Finset.range st.channels).filter fun tx => (st.writer tx).counted

structure Inv (st : State) (log : List Event) : Prop where
  channel : ∀ tx, ChannelInv st log tx
  fresh : ∀ tx, st.channels ≤ tx → st.writer tx = .ended ∧ messages .failed tx log = []
  gauge : st.wsConnections = Int64.ofNat st.open.card

section Channel
variable {st st' : State} {log more : List Event} {tx : Channel}

theorem ChannelInv.other (h : ChannelInv st log tx) (hwriter : st'.writer tx = st.writer tx)
    (hmore : ∀ fate, messages fate tx more = []) (hheld : st'.Held tx → st.Held tx) :
    ChannelInv st' (log ++ more) tx := by
  refine ⟨?_, ?_, ?_, ?_⟩ <;> simp only [messages_append, hmore, List.append_nil, hwriter]
  · exact h.order
  · exact h.running
  · exact h.kept
  · exact fun hfailed => (h.clean hfailed).imp_right (·.imp_right (·.imp_right (mt hheld)))

theorem messages_single (fate kind : Fate) (tx : Channel) (data : Bytes) :
    messages fate tx [⟨kind, tx, data⟩] = if kind = fate then [data] else [] := by
  by_cases h : kind = fate <;> simp [messages, h]

theorem Writer.push_queue {writer : Writer} (h : writer.connected) (data : Bytes) :
    (writer.push data).queue = writer.queue ++ [data] ∧ (writer.push data).connected := by
  cases writer <;> first | exact ⟨rfl, rfl⟩ | cases h

theorem ChannelInv.queued (h : ChannelInv st log tx) (hheld : st.Held tx) {data : Bytes}
    (hconnected : (st.writer tx).connected) (hwriter : st'.writer tx = (st.writer tx).push data) :
    ChannelInv st' (log ++ [⟨.queued, tx, data⟩]) tx := by
  obtain ⟨hqueue, hopen⟩ := Writer.push_queue hconnected data
  refine ⟨?_, ?_, ?_, ?_⟩ <;> simp only [messages_append, messages_single, hwriter]
  · simp [hqueue, h.order]
  · intro queue hrunning
    cases hbefore : st.writer tx with
    | running before => simpa using h.running before hbefore
    | _ =>
      rw [hbefore] at hrunning
      cases hrunning
  · intro _
    simpa using h.kept hconnected
  · intro hfailed
    obtain ⟨hdiscarded, ⟨queue, hrunning⟩ | ⟨-, hnot⟩⟩ := h.clean (by simpa using hfailed)
    · exact ⟨by simpa using hdiscarded, .inl ⟨queue ++ [data], by rw [hrunning]; rfl⟩⟩
    · exact absurd hheld hnot

theorem ChannelInv.taken (h : ChannelInv st log tx) {data : Bytes} {queue : List Bytes}
    (hrunning : st.writer tx = .running (data :: queue)) (accepted : Bool)
    (hwriter : st'.writer tx = if accepted then .running queue else .closing queue) :
    ChannelInv st' (log ++ [⟨if accepted then .written else .failed, tx, data⟩]) tx := by
  have horder := h.order
  have hfailed := h.running _ hrunning
  have hdiscarded : messages .discarded tx log = [] := h.kept (by rw [hrunning]; rfl)
  rw [hrunning, hfailed, hdiscarded] at horder
  cases accepted <;>
    refine ⟨?_, ?_, ?_, ?_⟩ <;>
    simp [messages_append, messages_single, hwriter, Writer.queue, horder, hfailed, hdiscarded]

theorem ChannelInv.drained (h : ChannelInv st log tx) (hrunning : st.writer tx = .running [])
    (hlast : ¬st.Held tx) (hheld : st'.Held tx → st.Held tx) (hwriter : st'.writer tx = .closing []) :
    ChannelInv st' log tx := by
  have hdiscarded : messages .discarded tx log = [] := h.kept (by rw [hrunning]; rfl)
  refine ⟨?_, ?_, ?_, ?_⟩
  · rw [h.order, hrunning, hwriter]
    rfl
  · intro queue hqueue
    cases hwriter.symm.trans hqueue
  · exact fun _ => hdiscarded
  · exact fun _ => ⟨hdiscarded, .inr ⟨by rw [hwriter]; rfl, mt hheld hlast⟩⟩

theorem ChannelInv.uncounted (h : ChannelInv st log tx) {queue : List Bytes}
    (hclosing : st.writer tx = .closing queue) (hheld : st'.Held tx → st.Held tx)
    (hwriter : st'.writer tx = .dropping queue) : ChannelInv st' log tx := by
  refine ⟨?_, ?_, ?_, ?_⟩
  · rw [h.order, hclosing, hwriter]
    rfl
  · intro queue hqueue
    cases hwriter.symm.trans hqueue
  · exact fun _ => h.kept (by rw [hclosing]; rfl)
  · intro hfailed
    obtain ⟨hdiscarded, ⟨queue, hrunning⟩ | ⟨hqueue, hnot⟩⟩ := h.clean hfailed
    · cases hclosing.symm.trans hrunning
    · rw [hclosing] at hqueue
      exact ⟨hdiscarded, .inr ⟨by rw [hwriter]; exact hqueue, mt hheld hnot⟩⟩

theorem messages_discarded (fate : Fate) (tx : Channel) (queue : List Bytes) :
    messages fate tx (queue.map (⟨.discarded, tx, ·⟩)) = if fate = .discarded then queue else [] := by
  induction queue with
  | nil => simp [messages]
  | cons data queue ih =>
    rw [List.map_cons, ← List.singleton_append, messages_append, messages_single, ih]
    cases fate <;> simp

theorem ChannelInv.dropped (h : ChannelInv st log tx) {queue : List Bytes}
    (hdropping : st.writer tx = .dropping queue) (hheld : st'.Held tx → st.Held tx)
    (hwriter : st'.writer tx = .ended) :
    ChannelInv st' (log ++ (st.writer tx).queue.map (⟨.discarded, tx, ·⟩)) tx := by
  have hqueue : (st.writer tx).queue = queue := by
    rw [hdropping]
    rfl
  have hnone : messages .discarded tx log = [] := h.kept (by rw [hdropping]; rfl)
  refine ⟨?_, ?_, ?_, ?_⟩ <;> simp only [messages_append, messages_discarded, hqueue, hwriter]
  · have horder := h.order
    rw [hqueue, hnone] at horder
    simp [horder, hnone, Writer.queue]
  · simp
  · simp [Writer.connected]
  · intro hfailed
    obtain ⟨-, ⟨queue, hrunning⟩ | ⟨hempty, hnot⟩⟩ := h.clean (by simpa using hfailed)
    · cases hdropping.symm.trans hrunning
    · rw [hqueue] at hempty
      exact ⟨by simp [hnone, hempty], .inr ⟨rfl, mt hheld hnot⟩⟩

theorem ChannelInv.accepted (h : ChannelInv st log tx) (hended : st.writer tx = .ended)
    (hfailed : messages .failed tx log = []) (hwriter : st'.writer tx = .running []) :
    ChannelInv st' log tx := by
  obtain ⟨hdiscarded, -⟩ := h.clean hfailed
  refine ⟨?_, fun _ _ => hfailed, fun _ => hdiscarded, fun _ => ⟨hdiscarded, .inl ⟨[], hwriter⟩⟩⟩
  rw [h.order, hended, hwriter]
  rfl

end Channel

section Steps
variable {st st' : State} {log : List Event}

theorem open_congr (hchannels : st'.channels = st.channels)
    (h : ∀ tx, (st'.writer tx).counted = (st.writer tx).counted) : st'.open = st.open := by
  simp only [State.open, hchannels, h]

theorem Inv.of_channels (h : Inv st log) {more : List Event}
    (hchannel : ∀ tx, ChannelInv st' (log ++ more) tx) (hchannels : st'.channels = st.channels)
    (hended : ∀ tx, st.writer tx = .ended → st'.writer tx = .ended ∧ messages .failed tx more = [])
    (hcounted : ∀ tx, (st'.writer tx).counted = (st.writer tx).counted)
    (hgauge : st'.wsConnections = st.wsConnections) : Inv st' (log ++ more) where
  channel := hchannel
  fresh tx htx := by
    obtain ⟨hbefore, hfailed⟩ := h.fresh tx (hchannels ▸ htx)
    obtain ⟨hafter, hmore⟩ := hended tx hbefore
    exact ⟨hafter, by rw [messages_append, hfailed, hmore, List.append_nil]⟩
  gauge := by
    rw [hgauge, h.gauge, open_congr hchannels hcounted]

theorem messages_nil (fate : Fate) (tx : Channel) : messages fate tx [] = [] := rfl

theorem Inv.quiet (h : Inv st log) (hwriter : st'.writer = st.writer)
    (hheld : ∀ tx, st'.Held tx → st.Held tx) (hchannels : st'.channels = st.channels)
    (hgauge : st'.wsConnections = st.wsConnections) : Inv st' (log ++ []) := by
  refine h.of_channels (fun tx => ?_) hchannels (fun tx hended => ?_) (fun tx => ?_) hgauge
  · exact (h.channel tx).other (by rw [hwriter]) (fun fate => messages_nil fate tx) (hheld tx)
  · exact ⟨by rw [hwriter, hended], messages_nil _ _⟩
  · rw [hwriter]

theorem Writer.counted_push (writer : Writer) (data : Bytes) :
    (writer.push data).counted = writer.counted := by
  cases writer <;> rfl

theorem Inv.settled (h : Inv st log) {item : InFlight} {result : Option Nat}
    (hresult : st.CanAnswer item result) (hitem : ∀ x, item.target = .webSocket x → st.Held x)
    (hwriter : st'.writer = (st.settle item result).writer)
    (hheld : ∀ tx, st'.Held tx → st.Held tx) (hchannels : st'.channels = st.channels)
    (hgauge : st'.wsConnections = st.wsConnections) :
    Inv st' (log ++ sendEvents item result) := by
  cases htarget : item.target with
  | udp addr =>
    simp only [State.settle, htarget] at hwriter
    rw [sendEvents, htarget]
    exact h.quiet hwriter hheld hchannels hgauge
  | webSocket x =>
    simp only [State.settle, htarget, State.setWriter] at hwriter
    simp only [State.CanAnswer, htarget] at hresult
    by_cases hopen : (st.writer x).connected
    · rw [if_pos hopen] at hresult
      have hevents : sendEvents item result = [⟨.queued, x, item.data⟩] := by
        rw [sendEvents, htarget, hresult]
        rfl
      rw [hevents]
      refine h.of_channels (fun tx => ?_) hchannels (fun tx hended => ?_) (fun tx => ?_) hgauge
      · by_cases htx : tx = x
        · subst htx
          exact (h.channel tx).queued (hitem tx htarget) hopen (by rw [hwriter]; simp)
        · exact (h.channel tx).other (by rw [hwriter]; simp [htx])
            (fun fate => messages_of_ne (by simp [Ne.symm htx])) (hheld tx)
      · have htx : tx ≠ x := by
          rintro rfl
          rw [hended] at hopen
          cases hopen
        exact ⟨by rw [hwriter]; simp [htx, hended], messages_of_ne (by simp [Ne.symm htx])⟩
      · rw [hwriter]
        by_cases htx : tx = x
        · subst htx
          simp [Writer.counted_push]
        · simp [htx]
    · rw [if_neg hopen] at hresult
      have hevents : sendEvents item result = [] := by
        rw [sendEvents, htarget, hresult]
        rfl
      have hsame : st'.writer = st.writer := by
        rw [hwriter]
        have hended : st.writer x = .ended := by
          cases hx : st.writer x <;> simp_all [Writer.connected]
        rw [hended, Writer.push, ← hended, Function.update_eq_self]
      rw [hevents]
      exact h.quiet hsame hheld hchannels hgauge

theorem Inv.others (h : Inv st log) {x : Channel} {writer : Writer} {more : List Event}
    (hwriter : st'.writer = (st.setWriter x writer).writer) (hmore : ∀ e ∈ more, e.tx = x)
    (hheld : ∀ tx, st'.Held tx → st.Held tx) (hx : ChannelInv st' (log ++ more) x)
    (tx : Channel) : ChannelInv st' (log ++ more) tx := by
  by_cases htx : tx = x
  · rw [htx]
    exact hx
  · refine (h.channel tx).other ?_ (fun fate => messages_of_ne fun e he heq => ?_) (hheld tx)
    · rw [hwriter, State.setWriter]
      exact Function.update_of_ne htx _ _
    · exact htx (heq ▸ hmore e he)

theorem ended_others {x : Channel} {writer : Writer} {more : List Event}
    (hwriter : st'.writer = (st.setWriter x writer).writer) (hmore : ∀ e ∈ more, e.tx = x)
    (hx : st.writer x ≠ .ended) (tx : Channel) (hended : st.writer tx = .ended) :
    st'.writer tx = .ended ∧ messages .failed tx more = [] := by
  have htx : tx ≠ x := fun heq => hx (heq ▸ hended)
  refine ⟨?_, messages_of_ne fun e he heq => htx (heq ▸ hmore e he)⟩
  rw [hwriter, State.setWriter, ← hended]
  exact Function.update_of_ne htx _ _

theorem counted_setWriter {x : Channel} {writer : Writer}
    (hwriter : st'.writer = (st.setWriter x writer).writer)
    (hcounted : writer.counted = (st.writer x).counted) (tx : Channel) :
    (st'.writer tx).counted = (st.writer tx).counted := by
  rw [hwriter, State.setWriter]
  by_cases htx : tx = x
  · rw [htx]
    simp [hcounted]
  · simp [htx]

theorem Inv.written (h : Inv st log) {x : Channel} {writer : Writer} {more : List Event}
    (hwriter : st'.writer = (st.setWriter x writer).writer) (hmore : ∀ e ∈ more, e.tx = x)
    (hx : ChannelInv st' (log ++ more) x) (hopen : st.writer x ≠ .ended)
    (hcounted : writer.counted = (st.writer x).counted)
    (hheld : ∀ tx, st'.Held tx → st.Held tx) (hchannels : st'.channels = st.channels)
    (hgauge : st'.wsConnections = st.wsConnections) : Inv st' (log ++ more) :=
  h.of_channels (h.others hwriter hmore hheld hx) hchannels (ended_others hwriter hmore hopen)
    (counted_setWriter hwriter hcounted) hgauge

theorem Inv.accepted (h : Inv st log)
    (hwriter : st'.writer = (st.setWriter st.channels (.running [])).writer)
    (hheld : ∀ tx, st'.Held tx → st.Held tx ∨ tx = st.channels)
    (hchannels : st'.channels = st.channels + 1)
    (hgauge : st'.wsConnections = st.wsConnections + 1) : Inv st' log := by
  obtain ⟨hended, hfailed⟩ := h.fresh st.channels le_rfl
  have hnew : st'.writer st.channels = .running [] := by
    rw [hwriter, State.setWriter]
    exact Function.update_self _ _ _
  have hothers : ∀ tx, tx ≠ st.channels → st'.writer tx = st.writer tx := by
    intro tx htx
    rw [hwriter, State.setWriter]
    exact Function.update_of_ne htx _ _
  refine ⟨fun tx => ?_, fun tx htx => ?_, ?_⟩
  · by_cases htx : tx = st.channels
    · rw [htx]
      exact (h.channel _).accepted hended hfailed hnew
    · have hsame := (h.channel tx).other (hothers tx htx) (fun fate => messages_nil fate tx)
        fun hafter => (hheld tx hafter).resolve_right htx
      rwa [List.append_nil] at hsame
  · have hlt : st.channels < tx := by omega
    obtain ⟨hbefore, hnone⟩ := h.fresh tx hlt.le
    exact ⟨(hothers tx hlt.ne').trans hbefore, hnone⟩
  · have hopen : st'.open = insert st.channels st.open := by
      ext tx
      by_cases htx : tx = st.channels
      · simp only [State.open, Finset.mem_insert, Finset.mem_filter, Finset.mem_range, htx, hnew,
          hchannels, true_or, iff_true]
        exact ⟨Nat.lt_succ_self _, rfl⟩
      · simp only [State.open, Finset.mem_insert, htx, false_or, Finset.mem_filter,
          Finset.mem_range, hothers tx htx, hchannels]
        constructor
        · rintro ⟨hlt, hcounted⟩
          exact ⟨Nat.lt_of_le_of_ne (Nat.le_of_lt_succ hlt) htx, hcounted⟩
        · rintro ⟨hlt, hcounted⟩
          exact ⟨Nat.lt_succ_of_lt hlt, hcounted⟩
    have hnot : st.channels ∉ st.open := by simp [State.open]
    rw [hgauge, h.gauge, hopen, Finset.card_insert_of_notMem hnot, Int64.ofNat_add]
    rfl

theorem Inv.uncounted (h : Inv st log) {x : Channel} {queue : List Bytes}
    (hclosing : st.writer x = .closing queue)
    (hwriter : st'.writer = (st.setWriter x (.dropping queue)).writer)
    (hheld : ∀ tx, st'.Held tx → st.Held tx) (hchannels : st'.channels = st.channels)
    (hgauge : st'.wsConnections = st.wsConnections - 1) : Inv st' log := by
  have hx : st'.writer x = .dropping queue := by
    rw [hwriter, State.setWriter]
    exact Function.update_self _ _ _
  have hnone : ∀ e ∈ ([] : List Event), e.tx = x := by simp
  have hmine : ChannelInv st' (log ++ []) x := by
    rw [List.append_nil]
    exact (h.channel x).uncounted hclosing (hheld x) hx
  have hchannel := h.others hwriter hnone hheld hmine
  rw [List.append_nil] at hchannel
  have hnot : st.writer x ≠ .ended := by simp [hclosing]
  refine ⟨hchannel, fun tx htx => ?_, ?_⟩
  · rw [hchannels] at htx
    obtain ⟨hbefore, hfailed⟩ := h.fresh tx htx
    exact ⟨(ended_others hwriter hnone hnot tx hbefore).1, hfailed⟩
  · have hopen : st'.open = st.open.erase x := by
      ext tx
      by_cases htx : tx = x
      · simp only [State.open, Finset.mem_erase, Finset.mem_filter, htx, hx, ne_eq, not_true,
          false_and, iff_false]
        rintro ⟨-, ⟨⟩⟩
      · have hsame : st'.writer tx = st.writer tx := by
          rw [hwriter, State.setWriter]
          exact Function.update_of_ne htx _ _
        simp [State.open, htx, hsame, hchannels]
    have hlt : x < st.channels := by
      by_contra hge
      exact hnot (h.fresh x (Nat.not_lt.mp hge)).1
    have hmem : x ∈ st.open :=
      Finset.mem_filter.mpr ⟨Finset.mem_range.mpr hlt, by rw [hclosing]; rfl⟩
    have hpos := Finset.card_pos.mpr ⟨x, hmem⟩
    rw [hgauge, h.gauge, hopen, Finset.card_erase_of_mem hmem]
    obtain ⟨n, hn⟩ : ∃ n, st.open.card = n + 1 := ⟨st.open.card - 1, by omega⟩
    rw [hn, Nat.add_sub_cancel, Int64.ofNat_add]
    exact Int64.add_sub_cancel _ _

theorem Inv.step {act : Act} (h : Inv st log) (hstep : Step st act st') :
    Inv st' (log ++ events st act st') := by
  have hheld : ∀ tx, st'.Held tx → st.Held tx ∨ act = .accepts ∧ tx = st.channels :=
    fun tx => held_step hstep
  cases hstep with
  | accepts =>
    change Inv _ (log ++ [])
    rw [List.append_nil]
    exact h.accepted rfl (fun tx hafter => (hheld tx hafter).imp_right And.right) rfl rfl
  | reads => exact h.quiet rfl (fun tx hafter => (hheld tx hafter).resolve_right (by simp)) rfl rfl
  | @forwards tx item pending result hreader hresult =>
    obtain ⟨-, -, -, hchannels, hgauge⟩ := st.settle_eq item result
    have hevents : ∀ after, events st (.forwards tx result) after = sendEvents item result := by
      intro after
      simp only [events, hreader]
    rw [hevents]
    refine h.settled hresult (fun x htarget => ?_) rfl
      (fun tx hafter => (hheld tx hafter).resolve_right (by simp)) hchannels hgauge
    exact .pending hreader List.mem_cons_self htarget
  | leaves => exact h.quiet rfl (fun tx hafter => (hheld tx hafter).resolve_right (by simp)) rfl rfl
  | fails => exact h.quiet rfl (fun tx hafter => (hheld tx hafter).resolve_right (by simp)) rfl rfl
  | joins => exact h.quiet rfl (fun tx hafter => (hheld tx hafter).resolve_right (by simp)) rfl rfl
  | @writes tx data queue accepted hwriter =>
    have hevents : ∀ after, events st (.writes tx accepted) after =
        [⟨if accepted then .written else .failed, tx, data⟩] := by
      intro after
      simp only [events, hwriter]
    rw [hevents]
    refine h.written rfl (by simp) ?_ (by simp [hwriter]) ?_
      (fun tx hafter => (hheld tx hafter).resolve_right (by simp)) rfl rfl
    · exact (h.channel tx).taken hwriter accepted (Function.update_self _ _ _)
    · rw [hwriter]
      cases accepted <;> rfl
  | @drains tx hwriter hlast =>
    refine h.written rfl (by simp [events]) ?_ (by simp [hwriter]) (by rw [hwriter]; rfl)
      (fun tx hafter => (hheld tx hafter).resolve_right (by simp)) rfl rfl
    change ChannelInv _ (log ++ []) tx
    rw [List.append_nil]
    exact (h.channel tx).drained hwriter hlast
      (fun hafter => (hheld tx hafter).resolve_right (by simp)) (Function.update_self _ _ _)
  | uncounts hwriter =>
    change Inv _ (log ++ [])
    rw [List.append_nil]
    exact h.uncounted hwriter rfl (fun tx hafter => (hheld tx hafter).resolve_right (by simp)) rfl rfl
  | @drops tx queue hwriter =>
    refine h.written rfl (by simp [events]) ?_ (by simp [hwriter]) (by rw [hwriter]; rfl)
      (fun tx hafter => (hheld tx hafter).resolve_right (by simp)) rfl rfl
    exact (h.channel tx).dropped hwriter
      (fun hafter => (hheld tx hafter).resolve_right (by simp)) (Function.update_self _ _ _)
  | receives =>
    exact h.quiet rfl (fun tx hafter => (hheld tx hafter).resolve_right (by simp)) rfl rfl
  | @replies item pending result hudp hresult =>
    obtain ⟨-, -, -, hchannels, hgauge⟩ := st.settle_eq item result
    have hevents : ∀ after, events st (.replies result) after = sendEvents item result := by
      intro after
      simp only [events, hudp]
    rw [hevents]
    refine h.settled hresult (fun x htarget => ?_) rfl
      (fun tx hafter => (hheld tx hafter).resolve_right (by simp)) hchannels hgauge
    exact .udp (hudp ▸ List.mem_cons_self) htarget
  | collects =>
    exact h.quiet rfl (fun tx hafter => (hheld tx hafter).resolve_right (by simp)) rfl rfl
  | rooms => exact h.quiet rfl (fun tx hafter => (hheld tx hafter).resolve_right (by simp)) rfl rfl

end Steps

theorem Inv.init (maxSessions maxPeers : Nat) : Inv (.init maxSessions maxPeers) [] where
  channel tx := by
    have hheld : ¬(State.init maxSessions maxPeers).Held tx := by
      intro h
      cases h with
      | reader h => cases h
      | peer h =>
        obtain ⟨entry, hentry, -⟩ := h
        simp [State.init, Router.new] at hentry
      | udp h => cases h
      | pending h => cases h
    exact ⟨rfl, fun _ _ => rfl, fun _ => rfl, fun _ => ⟨rfl, .inr ⟨rfl, hheld⟩⟩⟩
  fresh tx _ := ⟨rfl, rfl⟩
  gauge := rfl

theorem Inv.of_runs {maxSessions maxPeers : Nat} {run : Run} (h : Runs maxSessions maxPeers run) :
    Inv run.state run.log := by
  refine @Reaches.invariant _ _ _ _ (fun run : Run => Inv run.state run.log) _ _ h
    (Inv.init maxSessions maxPeers) ?_
  rintro u label v hu ⟨hstep⟩ -
  exact hu.step hstep

theorem Runs.silent {maxSessions maxPeers : Nat} {st st' : State} {act : Act}
    (h : Runs maxSessions maxPeers ⟨st, []⟩) (hstep : Step st act st')
    (hevents : events st act st' = []) : Runs maxSessions maxPeers ⟨st', []⟩ :=
  Reaches.tail h (.silent hstep hevents) trivial

/-- A connection leaves a session by a collection that finds it closed or the session idle. -/
theorem leaves_collected {st st' : State} {act : Act} (hstep : Step st act st') {k : UInt32}
    {tx : Channel} (hbefore : Registered st.router k (.webSocket tx))
    (hafter : ¬Registered st'.router k (.webSocket tx)) :
    ∃ maxAgeSecs now entry, act = .collects maxAgeSecs now ∧ st.router.routes[k]? = some entry ∧
      ((st.writer tx).connected = false ∨
        Duration.fromSecs maxAgeSecs.toNat ≤ Instant.elapsed entry.lastActivity now) := by
  cases hstep with
  | @reads sender env data =>
    exact absurd ((Ws.turnOf_turn st.router env data sender).stays k _ hbefore) hafter
  | @forwards sender item pending result =>
    obtain ⟨-, -, hroutes, -⟩ := st.settle_eq item result
    exact absurd ((registered_of_routes hroutes k _).mpr hbefore) hafter
  | @receives env datagram sender =>
    exact absurd ((Udp.turnOf_turn st.router env datagram sender).stays k _ hbefore) hafter
  | @replies item pending result =>
    obtain ⟨-, -, hroutes, -⟩ := st.settle_eq item result
    exact absurd ((registered_of_routes hroutes k _).mpr hbefore) hafter
  | rooms hop => exact absurd ((registered_of_routes (routes_rooms hop) k _).mpr hbefore) hafter
  | @collects maxAgeSecs now =>
    obtain ⟨entry, hentry, hmem⟩ := hbefore
    refine ⟨maxAgeSecs, now, entry, rfl, hentry, ?_⟩
    by_contra hstays
    obtain ⟨hopen, hage⟩ := not_or.mp hstays
    refine hafter ((registered_evictIdle _ _ _ _ _ _).mpr ⟨entry, hentry, hmem, ?_, by omega⟩)
    rintro _ ⟨⟩
    simpa using hopen
  | _ => exact absurd hbefore hafter

/-- Until its sink refuses a message, what a connection is handed is written in order or still
queued, and a connection that is in a session has its writer, counted, until the session is idle:
whatever has become of its reader. -/
theorem connections_accounted (maxSessions maxPeers : Nat) {run : Run}
    (h : Runs maxSessions maxPeers run) :
    run.state.wsConnections = Int64.ofNat run.state.open.card ∧
      ∀ tx, messages .queued tx run.log = messages .written tx run.log ++
          messages .failed tx run.log ++ messages .discarded tx run.log ++
            (run.state.writer tx).queue ∧
        (messages .failed tx run.log = [] → messages .discarded tx run.log = [] ∧
          ∀ k, Registered run.state.router k (.webSocket tx) → tx ∈ run.state.open ∧
            ∀ act st', Step run.state act st' → ¬Registered st'.router k (.webSocket tx) →
              ∃ maxAgeSecs now entry, act = .collects maxAgeSecs now ∧
                run.state.router.routes[k]? = some entry ∧
                Duration.fromSecs maxAgeSecs.toNat ≤ Instant.elapsed entry.lastActivity now) := by
  have hinv := Inv.of_runs h
  refine ⟨hinv.gauge, fun tx => ⟨(hinv.channel tx).order, fun hfailed => ?_⟩⟩
  obtain ⟨hdiscarded, hwriter⟩ := (hinv.channel tx).clean hfailed
  refine ⟨hdiscarded, fun k hpeer => ?_⟩
  obtain ⟨queue, hrunning⟩ : ∃ queue, run.state.writer tx = .running queue :=
    hwriter.resolve_right fun hlast => hlast.2 (.peer hpeer)
  have hlt : tx < run.state.channels := by
    by_contra hge
    have hended := (hinv.fresh tx (Nat.not_lt.mp hge)).1
    cases hrunning.symm.trans hended
  refine ⟨Finset.mem_filter.mpr ⟨Finset.mem_range.mpr hlt, by rw [hrunning]; rfl⟩, ?_⟩
  intro act st' hstep hleft
  obtain ⟨maxAgeSecs, now, entry, hact, hentry, hclosed | hidle⟩ := leaves_collected hstep hpeer hleft
  · rw [hrunning] at hclosed
    cases hclosed
  · exact ⟨maxAgeSecs, now, entry, hact, hentry, hidle⟩

theorem events_reads (st st' : State) (tx : Channel) (env : RelayEnv) (data : Bytes) :
    events st (.reads tx env data) st' = [] := rfl

private def oneTwo : RelayEnv := ⟨1, ⟨1, 1, 1, 1⟩, 1, fun data _ => some data.length, fun _ => true⟩

private def greeting : Bytes := Packet.bytes (PacketHeader.new MessageType.heartbeat.code 7 0 0) []

theorem turn_greeting (router : Router) (tx : Channel) (hnew : router.routes[(7 : UInt32)]? = none)
    (hroom : router.routes.size < router.maxSessions) :
    (Ws.turn router oneTwo greeting tx).2 = [] ∧
      Registered (Ws.turn router oneTwo greeting tx).1 7 (.webSocket tx) := by
  have hdecode : PacketView.decode greeting =
      .ok ⟨PacketHeader.new MessageType.heartbeat.code 7 0 0, []⟩ :=
    PacketView.decode_bytes _ _ rfl (by simp)
  have hcreated : (router.received greeting.length).route 7 (.webSocket tx) 1 =
      (((router.received greeting.length).store 7 ⟨[.webSocket tx], 1, none, none⟩).setActiveSessions,
        .registered) :=
    Router.route_created _ _ (by decide) hnew hroom
  have hturn : Ws.turn router oneTwo greeting tx =
      (((router.received greeting.length).store 7 ⟨[.webSocket tx], 1, none, none⟩).setActiveSessions,
        []) := by
    simp only [Ws.turn, hdecode]
    exact congrArg (fun result => (result.1, InFlight.toAll false greeting result.2.targets)) hcreated
  rw [hturn]
  refine ⟨rfl, (registered_store _ _ _ _ _).mpr ?_⟩
  rw [if_pos rfl]
  exact List.mem_singleton_self _

/-- A connection that has closed is a member still, and counted. -/
theorem connections_accounted_closed : ∃ run : Run, Runs 1 2 run ∧ run.state.reader 0 = .joining ∧
    Registered run.state.router 7 (.webSocket 0) ∧ 0 ∈ run.state.open ∧
      run.state.wsConnections = Int64.ofNat run.state.open.card := by
  have hstart : Runs 1 2 ⟨.init 1 2, []⟩ := .refl _
  obtain ⟨st, hrun, hrouter, hreader⟩ : ∃ st, Runs 1 2 ⟨st, []⟩ ∧
      st.router = (State.init 1 2).router ∧ st.reader 0 = .running [] :=
    ⟨_, hstart.silent .accepts rfl, rfl, by simp [State.setReader, State.setWriter, State.init]⟩
  obtain ⟨hnone, hpeer⟩ := turn_greeting st.router 0 (by simp [hrouter, State.init, Router.new])
    (by simp [hrouter, State.init, Router.new])
  have hstep := @Step.reads st 0 oneTwo greeting hreader
  have hquiet := fun st' => events_reads st st' 0 oneTwo greeting
  generalize Ws.turn st.router oneTwo greeting 0 = turned at hstep hnone hpeer
  obtain ⟨st, hrun, hpeer, hreader⟩ : ∃ st, Runs 1 2 ⟨st, []⟩ ∧
      Registered st.router 7 (.webSocket 0) ∧ st.reader 0 = .running [] :=
    ⟨_, hrun.silent hstep (hquiet _), hpeer, by simp [State.setReader, hnone]⟩
  have hclosed := hrun.silent (.leaves hreader) rfl
  obtain ⟨hgauge, hchannels⟩ := connections_accounted 1 2 hclosed
  obtain ⟨hopen, -⟩ := ((hchannels 0).2 rfl).2 7 hpeer
  exact ⟨_, hclosed, by simp [State.setReader], hpeer, hopen, hgauge⟩

end GravitalTalk.Relay.Bridge
