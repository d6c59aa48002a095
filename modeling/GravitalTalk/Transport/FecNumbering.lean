import GravitalTalk.Lib.Blocks
import GravitalTalk.Transport.Senders

/-! Where the numbers of the audio stream are while concurrent calls bring their frames to the encoder:
in the hands of one task each, or through, in groups that are blocks. -/
namespace GravitalTalk.Transport.Senders
open Lib GravitalTalk.Core Blocks

variable {Task : Type} [DecidableEq Task]

def Pc.unsent : Pc → Option UInt32
  | .audioTx _ _ n => some n
  | .audioStamp _ _ n _ => some n
  | .audioKey _ _ n _ _ _ => some n
  | .audioSend _ _ n _ _ => some n
  | _ => none

def Pc.waiting : Pc → Option (UInt32 × Bytes)
  | .fecPush payload _ n _ => some (n, payload)
  | _ => none

/-- A call has the number and has not pushed the frame. -/
def Pc.Holds (pc : Pc) (n : UInt32) : Prop :=
  pc.unsent = some n ∨ ∃ payload, pc.waiting = some (n, payload)

/-- Whatever a task has in hand in `pcs'` it has in `pcs`. -/
def Within (pcs' pcs : Task → Pc) : Prop :=
  ∀ t, (∀ n, (pcs' t).unsent = some n → (pcs t).unsent = some n) ∧
    ∀ frame, (pcs' t).waiting = some frame → (pcs t).waiting = some frame

section Hands
variable {pcs pcs' : Task → Pc} {t : Task} {n : UInt32}

omit [DecidableEq Task] in
theorem Within.holds (h : Within pcs' pcs) (hholds : (pcs' t).Holds n) : (pcs t).Holds n := by
  rcases hholds with hunsent | ⟨payload, hwaiting⟩
  · exact .inl ((h t).1 n hunsent)
  · exact .inr ⟨payload, (h t).2 _ hwaiting⟩

theorem waiting_update {pc : Pc} (h : pc.waiting = none) (t' : Task) (frame : UInt32 × Bytes)
    (hframe : (Function.update pcs t pc t').waiting = some frame) :
    (pcs t').waiting = some frame := by
  rw [Function.update_apply] at hframe
  split_ifs at hframe with heq
  · rw [h] at hframe
    cases hframe
  · exact hframe

theorem within_update {pc : Pc} (hunsent : ∀ n, pc.unsent = some n → (pcs t).unsent = some n)
    (hwaiting : pc.waiting = none) : Within (Function.update pcs t pc) pcs := by
  refine fun t' => ⟨fun n hn => ?_, waiting_update hwaiting t'⟩
  rw [Function.update_apply] at hn
  split_ifs at hn with heq
  · exact heq ▸ hunsent n hn
  · exact hn

def SameHands (pcs' pcs : Task → Pc) : Prop :=
  ∀ t, (pcs' t).unsent = (pcs t).unsent ∧ (pcs' t).waiting = (pcs t).waiting

omit [DecidableEq Task] in
theorem SameHands.refl (pcs : Task → Pc) : SameHands pcs pcs := fun _ => ⟨rfl, rfl⟩

omit [DecidableEq Task] in
theorem SameHands.within (h : SameHands pcs' pcs) : Within pcs' pcs :=
  fun t => ⟨fun _ hn => (h t).1 ▸ hn, fun _ hframe => (h t).2 ▸ hframe⟩

omit [DecidableEq Task] in
theorem SameHands.holds (h : SameHands pcs' pcs) : (pcs' t).Holds n ↔ (pcs t).Holds n := by
  rw [Pc.Holds, Pc.Holds, (h t).1, (h t).2]

theorem sameHands_update {pc : Pc} (hunsent : pc.unsent = (pcs t).unsent)
    (hwaiting : pc.waiting = (pcs t).waiting) : SameHands (Function.update pcs t pc) pcs := by
  intro t'
  rw [Function.update_apply]
  split_ifs with heq
  · rw [heq]
    exact ⟨hunsent, hwaiting⟩
  · exact ⟨rfl, rfl⟩

theorem holds_update {pc : Pc} {t' : Task} (h : (Function.update pcs t pc t').Holds n) :
    t' = t ∧ pc.Holds n ∨ t' ≠ t ∧ (pcs t').Holds n := by
  rw [Function.update_apply] at h
  split_ifs at h with heq
  · exact .inl ⟨heq, h⟩
  · exact .inr ⟨heq, h⟩

end Hands

def number (frame : UInt32 × Bytes) : Nat := frame.1.toNat

/-- The numbers given out are those below `taken`, each to one task, and each frame was sent once. -/
structure Numbering (pcs : Task → Pc) (next : UInt32) (taken : Nat) (sent : List (UInt32 × Bytes)) :
    Prop where
  counter : next = UInt32.ofNat taken
  held : ∀ t n, (pcs t).Holds n → n.toNat < taken
  apart : ∀ t t' n, (pcs t).Holds n → (pcs t').Holds n → t = t'
  unsent : ∀ t n, (pcs t).unsent = some n → n.toNat ∉ sent.map number
  waiting : ∀ t frame, (pcs t).waiting = some frame → frame ∈ sent
  sentOnce : (sent.map number).Nodup
  sentTaken : ∀ frame ∈ sent, number frame < taken

/-- The encoder has the frames of `group`, all from block `b`; the frames of the blocks before are
through, and every other number is still in some task's hands. -/
structure Grouping (pcs : Task → Pc) (enc : FecEncoder) (taken : Nat) (sent : List (UInt32 × Bytes))
    (b : Nat) (base : UInt32) (group : List (UInt32 × Bytes)) : Prop where
  apart : ∀ t n, (pcs t).Holds n → n.toNat ∉ group.map number
  sent : group ⊆ sent
  once : (group.map number).Nodup
  block : ∀ frame ∈ group, number frame / 4 = b
  start : group ≠ [] → base.toNat = 4 * b
  window : enc.window = fecWindow
  encoder : enc.Group base (group.map Prod.snd)
  reached : 4 * b ≤ taken
  ahead : ∀ t n, (pcs t).Holds n → 4 * b ≤ n.toNat
  complete : ∀ m < taken, 4 * b ≤ m → m ∉ group.map number →
    ∃ t n, (pcs t).Holds n ∧ n.toNat = m

section Steps
variable {pcs pcs' : Task → Pc} {next : UInt32} {taken : Nat} {sent : List (UInt32 × Bytes)}
  {t : Task} {n base : UInt32} {payload : Bytes} {group : List (UInt32 × Bytes)} {enc : FecEncoder}
  {b : Nat}

omit [DecidableEq Task] in
theorem Numbering.within (inv : Numbering pcs next taken sent) (h : Within pcs' pcs) :
    Numbering pcs' next taken sent where
  counter := inv.counter
  held t n hholds := inv.held t n (h.holds hholds)
  apart t t' n hholds hholds' := inv.apart t t' n (h.holds hholds) (h.holds hholds')
  unsent t n hunsent := inv.unsent t n ((h t).1 n hunsent)
  waiting t frame hwaiting := inv.waiting t frame ((h t).2 frame hwaiting)
  sentOnce := inv.sentOnce
  sentTaken := inv.sentTaken

theorem Numbering.takes (inv : Numbering pcs next taken sent) (hcount : taken + 1 < 2 ^ 32)
    {pc : Pc} (hunsent : pc.unsent = some next) (hwaiting : pc.waiting = none) :
    Numbering (Function.update pcs t pc) (next + 1) (taken + 1) sent := by
  have hnext : next.toNat = taken := by
    rw [inv.counter, UInt32.toNat_ofNat', Nat.mod_eq_of_lt (by omega)]
  have hheld : ∀ {t' n}, (Function.update pcs t pc t').Holds n →
      (t' = t ∧ n = next) ∨ ((pcs t').Holds n ∧ n.toNat < taken) := by
    intro t' n hholds
    rw [Function.update_apply] at hholds
    split_ifs at hholds with heq
    · rcases hholds with hholds | ⟨_, hholds⟩
      · rw [hunsent] at hholds
        exact .inl ⟨heq, (Option.some.inj hholds).symm⟩
      · rw [hwaiting] at hholds
        cases hholds
    · exact .inr ⟨hholds, inv.held t' n hholds⟩
  constructor
  case counter =>
    rw [inv.counter, UInt32.ofNat_add]
    rfl
  case held =>
    intro t' n hholds
    rcases hheld hholds with ⟨-, rfl⟩ | ⟨-, hlt⟩ <;> omega
  case apart =>
    intro t₁ t₂ n h₁ h₂
    rcases hheld h₁ with ⟨rfl, rfl⟩ | ⟨h₁, hlt₁⟩ <;> rcases hheld h₂ with ⟨rfl, hn⟩ | ⟨h₂, hlt₂⟩
    · rfl
    · omega
    · rw [hn] at hlt₁
      omega
    · exact inv.apart t₁ t₂ n h₁ h₂
  case unsent =>
    intro t' n hholds hmem
    rcases hheld (.inl hholds) with ⟨-, rfl⟩ | ⟨-, hlt⟩
    · obtain ⟨frame, hframe, hn⟩ := List.mem_map.mp hmem
      have := inv.sentTaken frame hframe
      omega
    · rw [Function.update_apply] at hholds
      split_ifs at hholds with heq
      · rw [hunsent] at hholds
        cases hholds
        omega
      · exact inv.unsent t' n hholds hmem
  case waiting =>
    exact fun t' frame hframe => inv.waiting t' frame (waiting_update hwaiting t' frame hframe)
  case sentOnce => exact inv.sentOnce
  case sentTaken => exact fun frame hframe => Nat.lt_succ_of_lt (inv.sentTaken frame hframe)

theorem Numbering.sends (inv : Numbering pcs next taken sent) (hunsent : (pcs t).unsent = some n)
    {pc : Pc} (hwaiting : pc.waiting = some (n, payload)) (hnone : pc.unsent = none) :
    Numbering (Function.update pcs t pc) next taken (sent ++ [(n, payload)]) := by
  have hholds : ∀ {t' m}, (Function.update pcs t pc t').Holds m → (pcs t').Holds m := by
    intro t' m hholds
    rw [Function.update_apply] at hholds
    split_ifs at hholds with heq
    · subst heq
      rcases hholds with hholds | ⟨_, hholds⟩
      · rw [hnone] at hholds
        cases hholds
      · rw [hwaiting] at hholds
        cases hholds
        exact .inl hunsent
    · exact hholds
  constructor
  case counter => exact inv.counter
  case held => exact fun t' m h => inv.held t' m (hholds h)
  case apart => exact fun t₁ t₂ m h₁ h₂ => inv.apart t₁ t₂ m (hholds h₁) (hholds h₂)
  case unsent =>
    intro t' m h hmem
    rw [Function.update_apply] at h
    split_ifs at h with heq
    · rw [hnone] at h
      cases h
    · rw [List.map_append, List.mem_append, List.map_singleton, List.mem_singleton] at hmem
      rcases hmem with hold | hnew
      · exact inv.unsent t' m h hold
      · have hm : m = n := UInt32.toNat_inj.mp hnew
        exact heq (inv.apart t' t m (.inl h) (.inl (hm ▸ hunsent)))
  case waiting =>
    intro t' frame h
    rw [Function.update_apply] at h
    split_ifs at h with heq
    · rw [hwaiting] at h
      cases h
      simp
    · exact List.mem_append_left _ (inv.waiting t' frame h)
  case sentOnce =>
    rw [List.map_append, List.map_singleton]
    exact List.Nodup.append inv.sentOnce (List.nodup_singleton _)
      (List.disjoint_singleton.mpr (inv.unsent t n hunsent))
  case sentTaken =>
    intro frame hframe
    rcases List.mem_append.mp hframe with hold | hnew
    · exact inv.sentTaken frame hold
    · cases List.mem_singleton.mp hnew
      exact inv.held t n (.inl hunsent)

omit [DecidableEq Task] in
theorem Grouping.same (inv : Grouping pcs enc taken sent b base group) (h : SameHands pcs' pcs) :
    Grouping pcs' enc taken sent b base group :=
  { inv with
    apart := fun t n hholds => inv.apart t n (h.holds.mp hholds)
    ahead := fun t n hholds => inv.ahead t n (h.holds.mp hholds)
    complete := fun m hm hle hnew => by
      obtain ⟨t, n, hholds, hn⟩ := inv.complete m hm hle hnew
      exact ⟨t, n, h.holds.mpr hholds, hn⟩ }

theorem Grouping.takes (inv : Grouping pcs enc taken sent b base group)
    (hpcs : Numbering pcs next taken sent) (hcount : taken + 1 < 2 ^ 32)
    (hnothing : ∀ n, ¬(pcs t).Holds n) {pc : Pc} (hunsent : pc.unsent = some next)
    (hwaiting : pc.waiting = none) :
    Grouping (Function.update pcs t pc) enc (taken + 1) sent b base group := by
  have hnext : next.toNat = taken := by
    rw [hpcs.counter, UInt32.toNat_ofNat', Nat.mod_eq_of_lt (by omega)]
  have hholds : ∀ n, pc.Holds n → n = next := by
    rintro n (hn | ⟨payload, hn⟩)
    · exact (Option.some.inj (hunsent.symm.trans hn)).symm
    · rw [hwaiting] at hn
      cases hn
  have hreached := inv.reached
  refine { inv with apart := ?_, reached := by omega, ahead := ?_, complete := ?_ }
  · intro t' n h
    obtain ⟨-, h⟩ | ⟨-, h⟩ := holds_update h
    · rw [hholds n h, hnext]
      intro hmem
      obtain ⟨frame, hframe, hn⟩ := List.mem_map.mp hmem
      exact absurd (hpcs.sentTaken frame (inv.sent hframe)) (by omega)
    · exact inv.apart t' n h
  · intro t' n h
    obtain ⟨-, h⟩ | ⟨-, h⟩ := holds_update h
    · rw [hholds n h, hnext]
      exact hreached
    · exact inv.ahead t' n h
  · intro m hm hle hnew
    obtain hlt | rfl := Nat.lt_succ_iff_lt_or_eq.mp hm
    · obtain ⟨t', n, h, hn⟩ := inv.complete m hlt hle hnew
      have hne : t' ≠ t := fun heq => hnothing n (heq ▸ h)
      exact ⟨t', n, by rwa [Function.update_of_ne hne], hn⟩
    · exact ⟨t, next, by rw [Function.update_self]; exact .inl hunsent, hnext⟩

theorem Grouping.sends (inv : Grouping pcs enc taken sent b base group)
    (hunsent : (pcs t).unsent = some n) (hnone : (pcs t).waiting = none) {pc : Pc}
    (hwaiting : pc.waiting = some (n, payload)) (hsent : pc.unsent = none) :
    Grouping (Function.update pcs t pc) enc taken (sent ++ [(n, payload)]) b base group := by
  have hholds : ∀ t' m, (Function.update pcs t pc t').Holds m ↔ (pcs t').Holds m := by
    intro t' m
    rw [Function.update_apply]
    split_ifs with heq
    · subst heq
      rw [Pc.Holds, Pc.Holds, hunsent, hnone, hwaiting, hsent]
      simp
    · rfl
  refine { inv with
    apart := fun t' m h => inv.apart t' m ((hholds t' m).mp h)
    sent := fun frame hframe => List.mem_append_left _ (inv.sent hframe)
    ahead := fun t' m h => inv.ahead t' m ((hholds t' m).mp h)
    complete := fun m hm hle hnew => ?_ }
  obtain ⟨t', m', h, hm'⟩ := inv.complete m hm hle hnew
  exact ⟨t', m', (hholds t' m').mpr h, hm'⟩

def BlockParity (sent : List (UInt32 × Bytes)) (parity : FecParity) : Prop :=
  let frames := block number 4 (parity.seqBase.toNat / 4) sent
  parity.seqBase.toNat % 4 = 0 ∧ frames.length = 4 ∧
    parity.payload = XorParity.parity (frames.map Prod.snd)

omit [DecidableEq Task] in
theorem Grouping.length_lt (inv : Grouping pcs enc taken sent b base group) : group.length < 4 := by
  have hlt := UInt8.lt_iff_toNat_lt.mp enc.count_lt
  rwa [inv.window, inv.encoder.count, List.length_map] at hlt

omit [DecidableEq Task] in
theorem Grouping.begins (inv : Grouping pcs enc taken sent b base group)
    (hfirst : group = [] → n.toNat = 4 * b) :
    ∃ base', enc.Group base' (group.map Prod.snd) ∧ base'.toNat = 4 * b ∧
      (group.map Prod.snd = [] → n = base') := by
  by_cases hempty : group = []
  · subst hempty
    exact ⟨n, ⟨inv.encoder.count, fun h => absurd rfl h, fun h => absurd rfl h⟩, hfirst rfl,
      fun _ => rfl⟩
  · exact ⟨base, inv.encoder, inv.start hempty, fun h => absurd (List.map_eq_nil_iff.mp h) hempty⟩

omit [DecidableEq Task] in
/-- A frame in turn is of the block that the encoder collects, and begins it if nothing else has. -/
theorem Grouping.joins (inv : Grouping pcs enc taken sent b base group)
    (hpcs : Numbering pcs next taken sent) (hholds : (pcs t).Holds n)
    (hturn : ∀ t' m, (pcs t').Holds m → m < n → m.toNat / 4 = n.toNat / 4 ∧ m.toNat % 4 ≠ 0) :
    n.toNat / 4 = b ∧ (group = [] → n.toNat = 4 * b) := by
  have hahead := inv.ahead t n hholds
  have htaken := hpcs.held t n hholds
  -- a number below that is in no group is in the hands of a task that the frame overtakes
  have hbelow : ∀ m, m < n.toNat → 4 * b ≤ m → m ∉ group.map number →
      m / 4 = n.toNat / 4 ∧ m % 4 ≠ 0 := by
    intro m hm hle hnew
    obtain ⟨t', m', h, rfl⟩ := inv.complete m (hm.trans htaken) hle hnew
    exact hturn t' m' h (UInt32.lt_iff_toNat_lt.mpr hm)
  constructor
  · by_contra hne
    obtain ⟨m, hblock, hmissing⟩ := @exists_missing _ number _ _ inv.length_lt b
    have hlt : m < n.toNat := by omega
    exact hne ((hbelow m hlt (by omega) hmissing).1.symm.trans hblock)
  · intro hempty
    subst hempty
    by_contra hne
    have hfirst := hbelow (4 * b) (by omega) le_rfl List.not_mem_nil
    omega

omit [DecidableEq Task] in
theorem Grouping.adds (inv : Grouping pcs enc taken sent b base group)
    (hpcs : Numbering pcs next taken sent) (hwaiting : (pcs t).waiting = some (n, payload))
    (hn : n.toNat / 4 = b) :
    ((group ++ [(n, payload)]).map number).Nodup ∧ group ++ [(n, payload)] ⊆ sent ∧
      ∀ frame ∈ group ++ [(n, payload)], number frame / 4 = b := by
  refine ⟨?_, fun frame hframe => ?_, fun frame hframe => ?_⟩
  · rw [List.map_append, List.map_singleton]
    exact List.Nodup.append inv.once (List.nodup_singleton _)
      (List.disjoint_singleton.mpr (inv.apart t n (.inr ⟨payload, hwaiting⟩)))
  · rcases List.mem_append.mp hframe with hold | hlast
    · exact inv.sent hold
    · cases List.mem_singleton.mp hlast
      exact hpcs.waiting t _ hwaiting
  · rcases List.mem_append.mp hframe with hold | hlast
    · exact inv.block frame hold
    · cases List.mem_singleton.mp hlast
      exact hn

/-- Once a task has let go of the frame it waited to push, the others hold what they held, and that
is what is still to come. -/
theorem Grouping.lets_go (inv : Grouping pcs enc taken sent b base group)
    (hpcs : Numbering pcs next taken sent) (hwaiting : (pcs t).waiting = some (n, payload))
    (hunsent : (pcs t).unsent = none) {pc : Pc} (hnothing : ∀ m, ¬pc.Holds m) :
    (∀ t' m, (Function.update pcs t pc t').Holds m →
      (pcs t').Holds m ∧ m.toNat ∉ (group ++ [(n, payload)]).map number) ∧
    ∀ m < taken, 4 * b ≤ m → m ∉ (group ++ [(n, payload)]).map number →
      ∃ t' m', (Function.update pcs t pc t').Holds m' ∧ m'.toNat = m := by
  simp only [List.map_append, List.mem_append, List.map_singleton, List.mem_singleton, not_or]
  refine ⟨fun t' m h => ?_, fun m hm hle hnew => ?_⟩
  · obtain ⟨-, h⟩ | ⟨hne, h⟩ := holds_update h
    · exact absurd h (hnothing m)
    · refine ⟨h, inv.apart t' m h, fun hlast => ?_⟩
      exact hne (hpcs.apart t' t m h (UInt32.toNat_inj.mp hlast ▸ .inr ⟨payload, hwaiting⟩))
  · obtain ⟨t', m', h, hm'⟩ := inv.complete m hm hle hnew.1
    have hne : t' ≠ t := by
      rintro rfl
      rcases h with h | ⟨_, h⟩
      · rw [hunsent] at h
        cases h
      · rw [hwaiting] at h
        cases h
        exact hnew.2 hm'.symm
    exact ⟨t', m', by rwa [Function.update_of_ne hne], hm'⟩

theorem Grouping.pushes (inv : Grouping pcs enc taken sent b base group)
    (hpcs : Numbering pcs next taken sent) (hwaiting : (pcs t).waiting = some (n, payload))
    (hunsent : (pcs t).unsent = none)
    (hturn : ∀ t' m, (pcs t').Holds m → m < n → m.toNat / 4 = n.toNat / 4 ∧ m.toNat % 4 ≠ 0)
    {pc : Pc} (hnothing : ∀ m, ¬pc.Holds m) :
    (∃ b' base' group',
      Grouping (Function.update pcs t pc) (enc.push n payload).2 taken sent b' base' group') ∧
      ∀ parity, (enc.push n payload).1 = some parity → BlockParity sent parity := by
  obtain ⟨hn, hfirst⟩ := inv.joins hpcs (.inr ⟨payload, hwaiting⟩) hturn
  obtain ⟨honce, hsent, hblock⟩ := inv.adds hpcs hwaiting hn
  obtain ⟨hother, hkept⟩ := inv.lets_go hpcs hwaiting hunsent hnothing
  obtain ⟨base', hencoder, hbase, hseq⟩ := inv.begins hfirst
  obtain ⟨hwindow, hpush⟩ := FecEncoder.push_spec hencoder hseq payload
  rw [inv.window, List.length_map, show fecWindow.toNat = 4 from rfl] at hpush
  rw [inv.window] at hwindow
  split_ifs at hpush with hshort
  · obtain ⟨hpushed, hgroup⟩ := hpush
    refine ⟨⟨b, base', group ++ [(n, payload)], ?_⟩, fun parity h => by rw [hpushed] at h; cases h⟩
    refine ⟨fun t' m h => (hother t' m h).2, hsent, honce, hblock, fun _ => hbase, hwindow, ?_,
      inv.reached, fun t' m h => inv.ahead t' m (hother t' m h).1, hkept⟩
    rw [List.map_append]
    exact hgroup
  · obtain ⟨hpushed, hgroup⟩ := hpush
    have hlen : (group ++ [(n, payload)]).length = 4 := by
      have hlt := inv.length_lt
      rw [List.length_append, List.length_singleton]
      omega
    have hfull : ∀ m, m / 4 = b → m ∈ (group ++ [(n, payload)]).map number :=
      fun m => mem_full (by decide) honce hblock hlen
    have hlast : 4 * b + 3 < taken := by
      obtain ⟨frame, hframe, hnumber⟩ := List.mem_map.mp (hfull (4 * b + 3) (by omega))
      exact hnumber ▸ hpcs.sentTaken frame (hsent hframe)
    refine ⟨⟨b + 1, 0, [], ?_⟩, fun parity h => ?_⟩
    · refine ⟨fun _ _ _ => List.not_mem_nil, List.nil_subset _, List.nodup_nil,
        fun _ hmem => absurd hmem List.not_mem_nil, fun h => absurd rfl h, hwindow, hgroup 0,
        by omega, fun t' m h => ?_, fun m hm hle _ => ?_⟩
      · obtain ⟨hbefore, hnew⟩ := hother t' m h
        have hahead := inv.ahead t' m hbefore
        by_contra hlt
        exact hnew (hfull m.toNat (by omega))
      · refine hkept m hm (by omega) fun hmem => ?_
        obtain ⟨frame, hframe, rfl⟩ := List.mem_map.mp hmem
        have hin := hblock frame hframe
        omega
    · rw [hpushed] at h
      cases h
      have hb : base'.toNat / 4 = b := by omega
      have hperm := perm_block (by decide) hpcs.sentOnce honce hsent (hb ▸ hblock) hlen
      have hmod : base'.toNat % 4 = 0 := by omega
      refine ⟨hmod, hperm.length_eq ▸ hlen, ?_⟩
      have hpayloads := XorParity.parity_perm (hperm.map Prod.snd)
      rwa [List.map_append] at hpayloads

end Steps

end GravitalTalk.Transport.Senders
