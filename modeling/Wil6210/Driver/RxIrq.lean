import Wil6210.Driver.MailboxIrq
import Wil6210.Lib.Polling

/-!
# The interrupt of the Rx ring

The hardware completes descriptors of the Rx ring and sets `RX_DONE`.  The handler masks Rx and
schedules `wil6210_netdev_poll_rx`, which reaps up to 16 packets; where it reaped at most one, it
completes and unmasks Rx.  A packet that `wil_vring_reap_rx` takes from the ring and drops ends the
poll, and is not counted.  `RxIrqSys` is `MailSys`, with the handlers and the thread, and the Rx ring
behind it, which is allocated all the time.

Rx is a source that is polled, as in `Polling`, whatever the other handlers do in between.
`rxServed_run` draws from this that no packet stays behind in the ring, in every run in which no poll
is cut short: no packet is dropped in a poll that reaped at most one, in front of one that no cause is
set for (`CutShort`).  In `not_rxServed_dropped` one is, and the packet behind it stays.
-/

namespace Wil6210

open Polling (Source Phase)

/-! ## The machine -/

/-- `WIL6210_NAPI_BUDGET` -/
def wil6210NapiBudget : ℕ := 16

/-- The handlers, and the Rx ring. -/
structure RxIrqSys where
  mail : MailSys
  /-- `RGF_DMA_EP_RX_ICR`, `ICR` -/
  icr : BitVec 32
  /-- the descriptors that the hardware completed and `wil_vring_reap_rx` did not take, in order, and
  whether it drops what is in them -/
  completed : List Bool
  /-- how many of them the hardware is still to set `RX_DONE` for -/
  ringing : ℕ
  /-- where `wil6210_netdev_poll_rx` runs: what it reaped, and whether it is in the loop of
  `wil_rx_handle` -/
  poll : Option (ℕ × Bool)

inductive RxIrqAction
  /-- The hardware completes a descriptor, -/
  | rxDone (dropped : Bool)
  /-- and sets the cause for it. -/
  | ring
  /-- The card sets another Rx cause. -/
  | raise (cause : BitVec 32)
  | hardirq (pseudoCause tx : BitVec 32)
  | irqRx
  /-- `napi_schedule` has its poll called. -/
  | pollStart
  /-- `wil_rx_handle` reaps a packet, -/
  | reap
  /-- or `wil_vring_reap_rx` drops one and returns NULL, which ends the loop, -/
  | drop
  /-- or there is nothing more to reap. -/
  | loopEnd
  /-- `napi_complete`, where at most one packet was reaped -/
  | complete
  /-- `wil6210_unmask_irq_rx` -/
  | unmask
  /-- Anything that has nothing to do with Rx. -/
  | other (a : MailAction)

namespace RxIrqSys

/-- What Rx reads and writes. -/
abbrev wil (s : RxIrqSys) : WilIrq := s.mail.irq.wil

/-- The cause as the one handler leaves it, as for misc. -/
def icrAfter (s : RxIrqSys) (pseudoCause : BitVec 32) : BitVec 32 :=
  if pseudoCause = 0 ∨ pseudoCause &&& 0xff = 0xff then s.icr
  else if ¬ s.wil.irqen then 0
  else if pseudoCause &&& bitDmaPseudoCauseRx ≠ 0 then 0 else s.icr

/-- One step. -/
def step (msi3 : Bool) (s : RxIrqSys) : RxIrqAction → Option RxIrqSys
  | .rxDone dropped =>
      some { s with completed := s.completed ++ [dropped], ringing := s.ringing + 1 }
  | .ring =>
      if 0 < s.ringing then
        some { s with icr := s.icr ||| bitDmaEpRxIcrRxDone, ringing := s.ringing - 1 }
      else none
  | .raise cause => some { s with icr := s.icr ||| cause }
  | .hardirq pseudoCause tx =>
      (s.mail.step msi3 (.hardirq pseudoCause s.icr tx)).map fun mail =>
        { s with mail := mail, icr := s.icrAfter pseudoCause }
  | .irqRx => (s.mail.step msi3 (.irqRx s.icr)).map fun mail => { s with mail := mail, icr := 0 }
  | .pollStart =>
      (s.mail.step msi3 (.pollRx .start)).map fun mail =>
        { s with mail := mail, poll := some (0, true) }
  | .reap =>
      match s.poll with
      | some (done, true) =>
          if done < wil6210NapiBudget ∧ s.completed.head? = some false then
            some { s with completed := s.completed.tail, poll := some (done + 1, true) }
          else none
      | _ => none
  | .drop =>
      match s.poll with
      | some (done, true) =>
          if done < wil6210NapiBudget ∧ s.completed.head? = some true then
            some { s with completed := s.completed.tail, poll := some (done, false) }
          else none
      | _ => none
  | .loopEnd =>
      match s.poll with
      | some (done, true) =>
          if wil6210NapiBudget ≤ done ∨ s.completed = [] then
            some { s with poll := some (done, false) }
          else none
      | _ => none
  | .complete =>
      match s.poll with
      | some (done, false) =>
          (s.mail.step msi3 (.pollRx (.finish done))).map fun mail =>
            { s with mail := mail, poll := none }
      | _ => none
  | .unmask => (s.mail.step msi3 (.pollRx .unmask)).map fun mail => { s with mail := mail }
  | .other (.hardirq _ _ _) | .other (.irqRx _) | .other (.pollRx _) => none
  | .other a => (s.mail.step msi3 a).map fun mail => { s with mail := mail }

/-- The interrupts are enabled, and nothing is under way. -/
def init (w : WilIrq) : RxIrqSys := ⟨.init w, 0, [], 0, none⟩

/-- No handler is called where its interrupt is masked. -/
def Expected (s : RxIrqSys) : RxIrqAction → Prop
  | .hardirq pseudoCause tx => s.mail.Expected (.hardirq pseudoCause s.icr tx) ∧
      (pseudoCause &&& bitDmaPseudoCauseRx ≠ 0 → ¬ Masked wil6210ImcRx s.wil.rxImv)
  | .irqRx => ¬ Masked wil6210ImcRx s.wil.rxImv
  | .other a => s.mail.Expected a
  | _ => True

instance (s : RxIrqSys) : (a : RxIrqAction) → Decidable (s.Expected a)
  | .hardirq _ _ => inferInstanceAs (Decidable (_ ∧ (_ → _)))
  | .irqRx => inferInstanceAs (Decidable (¬ _))
  | .other _ => inferInstanceAs (Decidable (MailSys.Expected _ _))
  | .rxDone _ | .ring | .raise _ | .pollStart | .reap | .drop | .loopEnd | .complete | .unmask =>
      inferInstanceAs (Decidable True)

/-- A poll that reaped at most one packet ends at one that is dropped, in front of another, and
`RX_DONE` is neither set nor to be set. -/
def CutShort (s : RxIrqSys) : RxIrqAction → Prop
  | .drop => 1 < s.completed.length ∧ s.ringing = 0 ∧ s.icr &&& bitDmaEpRxIcrRxDone = 0 ∧
      ∀ x ∈ s.poll, x.1 ≤ 1
  | _ => False

instance (s : RxIrqSys) : (a : RxIrqAction) → Decidable (s.CutShort a)
  | .drop => inferInstanceAs (Decidable (_ ∧ _ ∧ _ ∧ ∀ x ∈ s.poll, _))
  | .rxDone _ | .ring | .raise _ | .hardirq _ _ | .irqRx | .pollStart | .reap | .loopEnd | .complete
  | .unmask | .other _ => inferInstanceAs (Decidable False)

/-! ## Rx as a source -/

/-- Where the poll is. -/
def phase (s : RxIrqSys) : Phase :=
  match s.poll with
  | some (done, true) => .polling done
  | some (done, false) => .ending done
  | none =>
      if s.wil.napiRx.sched then .scheduled
      else if 0 < s.wil.napiRx.completing then .completing else .idle

/-- **What Rx is**, with the handlers left out. -/
def source (s : RxIrqSys) : Source :=
  ⟨s.completed.length, s.ringing, decide (s.icr &&& bitDmaEpRxIcrRxDone ≠ 0), s.phase⟩

end RxIrqSys

/-! ## What the others leave alone -/

/-- A step that left Rx alone. -/
structure RxKept (w v : WilIrq) : Prop where
  rxImv : v.rxImv = w.rxImv
  napiRx : v.napiRx = w.napiRx

section Kept

variable {msi3 : Bool} {w u v : WilIrq} {isr : BitVec 32}

lemma RxKept.refl (w : WilIrq) : RxKept w w := ⟨rfl, rfl⟩

lemma RxKept.trans (h : RxKept w u) (h' : RxKept u v) : RxKept w v :=
  ⟨h'.rxImv.trans h.rxImv, h'.napiRx.trans h.napiRx⟩

lemma rxKept_irqTx : RxKept w (wil6210IrqTx isr w).1 := by
  rw [wil6210IrqTx]
  split_ifs <;> exact ⟨rfl, rfl⟩

lemma rxKept_irqMisc : RxKept w (wil6210IrqMisc isr w).1 := by
  rw [wil6210IrqMisc]
  dsimp only
  split_ifs <;> exact ⟨rfl, rfl⟩

/-- The one handler does to Rx what the Rx handler does, where it calls that. -/
lemma rxKept_hardirq {pseudoCause : BitVec 32} (rx tx misc : BitVec 32)
    (hcause : ¬ (pseudoCause = 0 ∨ pseudoCause &&& 0xff = 0xff)) (hirqen : w.irqen = true) :
    RxKept (if pseudoCause &&& bitDmaPseudoCauseRx ≠ 0 then (wil6210IrqRx rx w).1 else w)
      (wil6210Hardirq pseudoCause rx tx misc w).1 := by
  have hrx : RxKept (if pseudoCause &&& bitDmaPseudoCauseRx ≠ 0 then (wil6210IrqRx rx w).1 else w)
      (if pseudoCause &&& bitDmaPseudoCauseRx ≠ 0 then wil6210IrqRx rx (wil6210MaskIrqPseudo w)
        else (wil6210MaskIrqPseudo w, .handled)).1 := by
    split_ifs with hp
    · rw [wil6210IrqRx, wil6210IrqRx]
      split_ifs <;> exact ⟨rfl, rfl⟩
    · exact ⟨rfl, rfl⟩
  have htx : ∀ u, RxKept u (if pseudoCause &&& bitDmaPseudoCauseTx ≠ 0 then wil6210IrqTx tx u
      else (u, .handled)).1 := by
    intro u
    split_ifs
    · exact rxKept_irqTx
    · exact .refl u
  have hmisc : ∀ u, RxKept u (if pseudoCause &&& bitDmaPseudoCauseMisc ≠ 0 then
      wil6210IrqMisc misc u else (u, .handled)).1 := by
    intro u
    split_ifs
    · exact rxKept_irqMisc
    · exact .refl u
  have hend : ∀ (u : WilIrq) (wake : Prop) [Decidable wake], RxKept u (if wake then
      (u, IrqReturn.wakeThread) else (wil6210UnmaskIrqPseudo u, .handled)).1 := by
    intro u wake _
    split_ifs <;> exact ⟨rfl, rfl⟩
  rw [wil6210Hardirq, if_neg hcause, if_neg (not_not_intro hirqen)]
  exact ((hrx.trans (htx _)).trans (hmisc _)).trans (hend _ _)

/-- What has nothing to do with Rx. -/
lemma rxKept_irqStep {s t : IrqSys} {a : IrqAction} (ht : s.step msi3 a = some t)
    (ha : (∀ p r x m, a ≠ .hardirq p r x m) ∧ (∀ isr, a ≠ .irqRx isr) ∧ ∀ p, a ≠ .pollRx p) :
    RxKept s.wil t.wil := by
  cases a with
  | hardirq p r x m => exact absurd rfl (ha.1 p r x m)
  | irqRx isr => exact absurd rfl (ha.2.1 isr)
  | pollRx p => exact absurd rfl (ha.2.2 p)
  | irqTx isr =>
      obtain ⟨-, ht⟩ := Option.ite_none_right_eq_some.mp ht
      obtain rfl := Option.some.inj ht
      exact rxKept_irqTx
  | irqMisc isr =>
      obtain ⟨-, ht⟩ := Option.ite_none_right_eq_some.mp ht
      obtain rfl := Option.some.inj ht
      exact rxKept_irqMisc
  | thread =>
      simp only [IrqSys.step, IrqSys.threadStep] at ht
      split at ht
      · split_ifs at ht
        obtain rfl := Option.some.inj ht
        exact .refl _
      · split_ifs at ht <;> obtain rfl := Option.some.inj ht <;> exact .refl _
      all_goals
        obtain rfl := Option.some.inj ht
        exact ⟨rfl, rfl⟩
  | pollTx p =>
      obtain ⟨r, -, rfl⟩ := Option.map_eq_some_iff.mp ht
      exact ⟨rfl, rfl⟩

end Kept

/-! ## The invariant -/

/-- The poll, NAPI and the mask go together. -/
structure RxTied (s : RxIrqSys) : Prop where
  polling : s.wil.napiRx.polling = s.poll.isSome
  sched : s.wil.napiRx.polling = true → s.wil.napiRx.sched = true
  once : s.wil.napiRx.sched = true → s.wil.napiRx.completing = 0
  last : s.wil.napiRx.completing ≤ 1
  masked : Masked wil6210ImcRx s.wil.rxImv ↔ s.wil.napiRx.Active

variable {msi3 : Bool} {s t : RxIrqSys}

lemma rxTied_init (w : WilIrq) : RxTied (.init w) := by
  refine ⟨rfl, fun h => absurd h Bool.false_ne_true, fun h => absurd h Bool.false_ne_true,
    Nat.zero_le 1, ⟨fun hm => absurd hm (not_masked_writeImc _ _), ?_⟩⟩
  rintro (h | h | h)
  · exact absurd h Bool.false_ne_true
  · exact absurd h Bool.false_ne_true
  · exact absurd h (Nat.lt_irrefl 0)

namespace RxTied

/-- Where Rx is not masked, nobody polls. -/
lemma idle (h : RxTied s) (hm : ¬ Masked wil6210ImcRx s.wil.rxImv) :
    s.poll = none ∧ s.wil.napiRx.sched = false ∧ s.wil.napiRx.completing = 0 ∧ s.phase = .idle := by
  have hquiet : ¬ s.wil.napiRx.Active := fun hactive => hm (h.masked.mpr hactive)
  simp only [Napi.Active, not_or, Bool.not_eq_true, not_lt, Nat.le_zero] at hquiet
  obtain ⟨hsched, hpolling, hcompleting⟩ := hquiet
  have hpoll : s.poll = none := by
    have hnone := h.polling
    rw [hpolling] at hnone
    simpa using hnone.symm
  refine ⟨hpoll, hsched, hcompleting, ?_⟩
  simp [RxIrqSys.phase, hpoll, hsched, hcompleting]

/-- A step that leaves Rx alone. -/
lemma kept (h : RxTied s) {mail : MailSys} (hkept : RxKept s.wil mail.irq.wil) :
    RxTied { s with mail := mail } := by
  refine ⟨?_, ?_, ?_, ?_, ?_⟩ <;>
    simp only [RxIrqSys.wil, hkept.rxImv, hkept.napiRx]
  · exact h.polling
  · exact h.sched
  · exact h.once
  · exact h.last
  · exact h.masked

end RxTied

/-- A step that leaves Rx alone leaves the source as it is. -/
lemma source_kept {mail : MailSys} (hkept : RxKept s.wil mail.irq.wil) :
    RxIrqSys.source { s with mail := mail } = s.source := by
  simp only [RxIrqSys.source, RxIrqSys.phase, RxIrqSys.wil, hkept.napiRx]

/-- A step of Rx as a source. -/
def SourceStep (o : Polling.Op) (s t : RxIrqSys) : Prop :=
  s.source.step wil6210NapiBudget o = some t.source

/-- The steps that cut a poll short are those of the source. -/
lemma cutShort_source {done : ℕ} {looping : Bool} (hpoll : s.poll = some (done, looping))
    (hphase : s.source.phase = .polling done) : s.source.CutShort .cut ↔ s.CutShort .drop := by
  have hcause : s.source.cause = false ↔ s.icr &&& bitDmaEpRxIcrRxDone = 0 := by
    simp [RxIrqSys.source]
  simp only [Source.CutShort, RxIrqSys.CutShort, hcause, hphase, hpoll, Option.mem_some_iff]
  simp [RxIrqSys.source]

/-! ## Every step -/

section Steps

/-- The Rx handler masks Rx, and schedules the poll. -/
lemma RxTied.scheduled (h : RxTied s) (hm : ¬ Masked wil6210ImcRx s.wil.rxImv)
    (hicr : s.icr &&& wil6210ImcRx ≠ 0) {mail : MailSys}
    (hkept : RxKept (wil6210IrqRx s.icr s.wil).1 mail.irq.wil) :
    RxTied { s with mail := mail, icr := 0 } ∧
      SourceStep .irq s { s with mail := mail, icr := 0 } := by
  obtain ⟨hpoll, hsched, hcompleting, hphase⟩ := h.idle hm
  have hdone : s.icr &&& bitDmaEpRxIcrRxDone ≠ 0 := hicr
  have hne : s.icr ≠ 0 := by
    intro hzero
    rw [hzero] at hicr
    exact hicr BitVec.zero_and
  have hres : (wil6210IrqRx s.icr s.wil).1 = { s.wil with
      rxImv := writeIms wil6210IrqDisable s.wil.rxImv, napiRx := s.wil.napiRx.schedule } := by
    rw [wil6210IrqRx, if_neg hne, if_pos hdone]
    rfl
  have hnapi : mail.irq.wil.napiRx = s.wil.napiRx.schedule := by rw [hkept.napiRx, hres]
  have himv : mail.irq.wil.rxImv = writeIms wil6210IrqDisable s.wil.rxImv := by
    rw [hkept.rxImv, hres]
  refine ⟨⟨?_, fun _ => ?_, fun _ => ?_, ?_, ?_⟩, ?_⟩
  · simp only [RxIrqSys.wil, hnapi, Napi.schedule]
    exact h.polling
  · simp only [RxIrqSys.wil, hnapi, Napi.schedule]
  · simp only [RxIrqSys.wil, hnapi, Napi.schedule]
    exact hcompleting
  · simp only [RxIrqSys.wil, hnapi, Napi.schedule]
    exact h.last
  · simp only [RxIrqSys.wil, hnapi, himv]
    exact ⟨fun _ => .inl rfl, fun _ => masked_writeIms_disable (by decide) _⟩
  · have hen : s.source.phase = .idle ∧ s.source.cause = true := ⟨hphase, decide_eq_true hdone⟩
    have hsource : RxIrqSys.source { s with mail := mail, icr := 0 }
        = { s.source with cause := false, phase := .scheduled } := by
      simp only [RxIrqSys.source, RxIrqSys.phase, RxIrqSys.wil, hnapi, hpoll, Napi.schedule]
      simp
    rw [SourceStep, hsource]
    exact if_pos hen

/-- The one interrupt, with an Rx cause. -/
lemma RxTied.hardirqRx (h : RxTied s) {pseudoCause tx : BitVec 32}
    (hexpected : s.Expected (.hardirq pseudoCause tx))
    (hcause : ¬ (pseudoCause = 0 ∨ pseudoCause &&& 0xff = 0xff))
    (hp : pseudoCause &&& bitDmaPseudoCauseRx ≠ 0)
    (ht : s.step msi3 (.hardirq pseudoCause tx) = some t) : RxTied t ∧ SourceStep .irq s t := by
  have hirqen : s.wil.irqen = true := hexpected.1
  obtain ⟨mail, hmail, rfl⟩ := Option.map_eq_some_iff.mp ht
  obtain ⟨irq, hirq, rfl⟩ := Option.map_eq_some_iff.mp hmail
  obtain ⟨hen, hirq⟩ := Option.ite_none_right_eq_some.mp hirq
  obtain rfl := Option.some.inj hirq
  have hkept := rxKept_hardirq s.icr tx s.mail.icr hcause hirqen
  rw [if_pos hp] at hkept
  rw [RxIrqSys.icrAfter, if_neg hcause, if_neg (not_not_intro hirqen), if_pos hp]
  refine h.scheduled (hexpected.2 hp) (hen.2.1 hp) ?_
  exact hkept

/-- The one interrupt. -/
lemma RxTied.hardirq (h : RxTied s) {pseudoCause tx : BitVec 32}
    (hexpected : s.Expected (.hardirq pseudoCause tx))
    (ht : s.step msi3 (.hardirq pseudoCause tx) = some t) :
    RxTied t ∧ (t.source = s.source ∨ SourceStep .irq s t) := by
  have hirqen : s.wil.irqen = true := hexpected.1
  by_cases hrx : ¬ (pseudoCause = 0 ∨ pseudoCause &&& 0xff = 0xff) ∧
      pseudoCause &&& bitDmaPseudoCauseRx ≠ 0
  · exact (h.hardirqRx hexpected hrx.1 hrx.2 ht).imp_right .inr
  -- Rx is left alone
  obtain ⟨mail, hmail, rfl⟩ := Option.map_eq_some_iff.mp ht
  obtain ⟨irq, hirq, rfl⟩ := Option.map_eq_some_iff.mp hmail
  obtain ⟨-, hirq⟩ := Option.ite_none_right_eq_some.mp hirq
  obtain rfl := Option.some.inj hirq
  have hkept : RxKept s.wil (s.mail.irq.handled
      (wil6210Hardirq pseudoCause s.icr tx s.mail.icr s.mail.irq.wil)).wil := by
    by_cases hcause : pseudoCause = 0 ∨ pseudoCause &&& 0xff = 0xff
    · rw [wil6210Hardirq_quiet fun hgo => hgo.1 hcause]
      exact .refl _
    · have hp : ¬ pseudoCause &&& bitDmaPseudoCauseRx ≠ 0 := fun hp => hrx ⟨hcause, hp⟩
      have hall := rxKept_hardirq s.icr tx s.mail.icr hcause hirqen
      rw [if_neg hp] at hall
      exact hall
  have hicr : s.icrAfter pseudoCause = s.icr := by
    rw [RxIrqSys.icrAfter]
    split_ifs with hcause hp
    · rfl
    · exact absurd ⟨hcause, hp⟩ hrx
    · rfl
  rw [hicr]
  exact ⟨h.kept hkept, .inl (source_kept hkept)⟩

/-- The Rx interrupt of three. -/
lemma RxTied.irqRx (h : RxTied s) (hexpected : s.Expected .irqRx)
    (ht : s.step msi3 .irqRx = some t) : RxTied t ∧ SourceStep .irq s t := by
  obtain ⟨mail, hmail, rfl⟩ := Option.map_eq_some_iff.mp ht
  obtain ⟨irq, hirq, rfl⟩ := Option.map_eq_some_iff.mp hmail
  obtain ⟨hen, hirq⟩ := Option.ite_none_right_eq_some.mp hirq
  obtain rfl := Option.some.inj hirq
  exact h.scheduled hexpected hen.2 (.refl _)

/-- A step of the card. -/
lemma RxTied.card (h : RxTied s) (icr : BitVec 32) (completed : List Bool) (ringing : ℕ) :
    RxTied { s with icr := icr, completed := completed, ringing := ringing } :=
  ⟨h.polling, h.sched, h.once, h.last, h.masked⟩

/-- The poll starts. -/
lemma RxTied.pollStart (h : RxTied s) (ht : s.step msi3 .pollStart = some t) :
    RxTied t ∧ SourceStep .start s t := by
  obtain ⟨mail, hmail, rfl⟩ := Option.map_eq_some_iff.mp ht
  obtain ⟨irq, hirq, rfl⟩ := Option.map_eq_some_iff.mp hmail
  obtain ⟨r, hr, rfl⟩ := Option.map_eq_some_iff.mp hirq
  simp only [pollStep] at hr
  split_ifs at hr with hen
  obtain rfl := Option.some.inj hr
  obtain ⟨hsched, hpolling⟩ := hen
  have hpoll : s.poll = none := by
    have hnone := h.polling
    rw [Bool.eq_false_iff.mpr hpolling] at hnone
    simpa using hnone.symm
  refine ⟨⟨rfl, fun _ => hsched, h.once, h.last, ?_⟩, ?_⟩
  · exact ⟨fun _ => .inl hsched, fun _ => h.masked.mpr (.inl hsched)⟩
  · have hphase : s.source.phase = .scheduled := by
      simp only [RxIrqSys.source, RxIrqSys.phase, hpoll]
      exact if_pos hsched
    exact if_pos hphase

/-- The poll reaps, or leaves its loop. -/
lemma RxTied.inLoop (h : RxTied s) {done : ℕ} (hpoll : s.poll = some (done, true))
    (completed : List Bool) (done' : ℕ) (looping : Bool) :
    RxTied { s with completed := completed, poll := some (done', looping) } := by
  refine ⟨?_, h.sched, h.once, h.last, h.masked⟩
  have hpolling := h.polling
  rwa [hpoll] at hpolling

/-- A step that only a poll in its loop takes. -/
lemma RxIrqSys.inLoop_eq_some {f : ℕ → Option RxIrqSys}
    (h : (match s.poll with | some (done, true) => f done | _ => none) = some t) :
    ∃ done, s.poll = some (done, true) ∧ f done = some t := by
  split at h
  · exact ⟨_, ‹_›, h⟩
  · exact absurd h (by simp)

lemma RxTied.reap (h : RxTied s) (ht : s.step msi3 .reap = some t) :
    RxTied t ∧ SourceStep .serve s t := by
  obtain ⟨done, hpoll, hloop⟩ := RxIrqSys.inLoop_eq_some ht
  obtain ⟨hen, hu⟩ := Option.ite_none_right_eq_some.mp hloop
  obtain rfl := Option.some.inj hu
  refine ⟨h.inLoop hpoll _ _ _, ?_⟩
  have hphase : s.source.phase = .polling done := by
    simp only [RxIrqSys.source, RxIrqSys.phase, hpoll]
  have hwork : 0 < s.completed.length := List.length_pos_of_mem (List.mem_of_head? hen.2)
  have hmore : done < wil6210NapiBudget ∧ 0 < s.source.work := ⟨hen.1, hwork⟩
  simp only [SourceStep, Source.step, hphase, if_pos hmore]
  simp only [RxIrqSys.source, RxIrqSys.phase, List.length_tail]

/-- A packet that is dropped ends the loop. -/
lemma RxTied.drop (h : RxTied s) (ht : s.step msi3 .drop = some t) :
    RxTied t ∧ SourceStep .cut s t ∧ (s.source.CutShort .cut ↔ s.CutShort .drop) := by
  obtain ⟨done, hpoll, hloop⟩ := RxIrqSys.inLoop_eq_some ht
  obtain ⟨hen, hu⟩ := Option.ite_none_right_eq_some.mp hloop
  obtain rfl := Option.some.inj hu
  have hphase : s.source.phase = .polling done := by
    simp only [RxIrqSys.source, RxIrqSys.phase, hpoll]
  refine ⟨h.inLoop hpoll _ _ _, ?_, cutShort_source hpoll hphase⟩
  have hwork : 0 < s.completed.length := List.length_pos_of_mem (List.mem_of_head? hen.2)
  have hmore : done < wil6210NapiBudget ∧ 0 < s.source.work := ⟨hen.1, hwork⟩
  simp only [SourceStep, Source.step, hphase, if_pos hmore]
  simp only [RxIrqSys.source, RxIrqSys.phase, List.length_tail]

lemma RxTied.loopEnd (h : RxTied s) (ht : s.step msi3 .loopEnd = some t) :
    RxTied t ∧ SourceStep .stop s t := by
  obtain ⟨done, hpoll, hloop⟩ := RxIrqSys.inLoop_eq_some ht
  obtain ⟨hen, hu⟩ := Option.ite_none_right_eq_some.mp hloop
  obtain rfl := Option.some.inj hu
  refine ⟨h.inLoop hpoll _ _ _, ?_⟩
  have hphase : s.source.phase = .polling done := by
    simp only [RxIrqSys.source, RxIrqSys.phase, hpoll]
  simp only [SourceStep, Source.step, hphase]
  exact if_pos (hen.imp_right List.length_eq_zero_iff.mpr)

/-- The poll completes, or stays scheduled. -/
lemma RxTied.complete (h : RxTied s) (ht : s.step msi3 .complete = some t) :
    RxTied t ∧ SourceStep .finish s t := by
  simp only [RxIrqSys.step] at ht
  split at ht
  · rename_i done hpoll
    obtain ⟨mail, hmail, rfl⟩ := Option.map_eq_some_iff.mp ht
    obtain ⟨irq, hirq, rfl⟩ := Option.map_eq_some_iff.mp hmail
    obtain ⟨r, hr, rfl⟩ := Option.map_eq_some_iff.mp hirq
    have hphase : s.source.phase = .ending done := by
      simp only [RxIrqSys.source, RxIrqSys.phase, hpoll]
    have hstep : s.source.step wil6210NapiBudget .finish
        = some { s.source with phase := if done ≤ 1 then .completing else .scheduled } := by
      simp only [Source.step, hphase]
    simp only [pollStep] at hr
    split_ifs at hr with hpolling hfew
    · obtain rfl := Option.some.inj hr
      have hsched := h.sched hpolling
      have honce : s.mail.irq.wil.napiRx.completing = 0 := h.once hsched
      refine ⟨⟨rfl, fun hp => absurd hp (by simp), fun hs => absurd hs (by simp), ?_, ?_⟩,
        ?_⟩
      · simp only [honce]
        exact le_rfl
      · exact ⟨fun _ => .inr (.inr (Nat.succ_pos _)), fun _ => h.masked.mpr (.inl hsched)⟩
      · rw [SourceStep, hstep, if_pos hfew]
        simp [RxIrqSys.source, RxIrqSys.phase]
    · obtain rfl := Option.some.inj hr
      have hsched : s.mail.irq.wil.napiRx.sched = true := h.sched hpolling
      refine ⟨⟨rfl, fun hp => absurd hp (by simp), h.once, h.last, ?_⟩, ?_⟩
      · exact ⟨fun _ => .inl hsched, fun _ => h.masked.mpr (.inl hsched)⟩
      · rw [SourceStep, hstep, if_neg hfew]
        simp [RxIrqSys.source, RxIrqSys.phase, hsched]
  · exact absurd ht (by simp)

/-- The poll, having completed, unmasks Rx. -/
lemma RxTied.unmask (h : RxTied s) (ht : s.step msi3 .unmask = some t) :
    RxTied t ∧ SourceStep .unmask s t := by
  obtain ⟨mail, hmail, rfl⟩ := Option.map_eq_some_iff.mp ht
  obtain ⟨irq, hirq, rfl⟩ := Option.map_eq_some_iff.mp hmail
  obtain ⟨r, hr, rfl⟩ := Option.map_eq_some_iff.mp hirq
  simp only [pollStep] at hr
  split_ifs at hr with hcompleting
  obtain rfl := Option.some.inj hr
  -- the context was not scheduled again since
  have hsched : s.mail.irq.wil.napiRx.sched = false := by
    by_contra hsched
    exact absurd (h.once (by simpa using hsched)) (Nat.ne_of_gt hcompleting)
  have hpolling : s.mail.irq.wil.napiRx.polling = false := by
    by_contra hpolling
    exact absurd (h.sched (by simpa using hpolling)) (by simp [hsched])
  have hpoll : s.poll = none := by
    have hnone := h.polling
    rw [RxIrqSys.wil, hpolling] at hnone
    simpa using hnone.symm
  have hzero : s.mail.irq.wil.napiRx.completing - 1 = 0 := by
    have hlast : s.mail.irq.wil.napiRx.completing ≤ 1 := h.last
    omega
  refine ⟨⟨h.polling, h.sched, fun _ => hzero, hzero.le.trans (Nat.zero_le 1), ?_⟩,
    ?_⟩
  · refine ⟨fun hm => absurd hm (not_masked_writeImc _ _), ?_⟩
    rintro (hs | hp | hn)
    · exact absurd hs (by simp [hsched])
    · exact absurd hp (by simp [hpolling])
    · exact absurd hzero (Nat.ne_of_gt hn)
  · have hphase : s.source.phase = .completing := by
      simp only [RxIrqSys.source, RxIrqSys.phase, hpoll, RxIrqSys.wil, hsched]
      simp [hcompleting]
    have hstep : s.source.step wil6210NapiBudget .unmask = some { s.source with phase := .idle } :=
      if_pos hphase
    rw [SourceStep, hstep]
    simp [RxIrqSys.source, RxIrqSys.phase, hpoll, hsched, hzero]

/-- The hardware. -/
lemma RxTied.rxDone (h : RxTied s) {dropped : Bool} (ht : s.step msi3 (.rxDone dropped) = some t) :
    RxTied t ∧ SourceStep .complete s t := by
  obtain rfl := Option.some.inj ht
  refine ⟨h.card _ _ _, ?_⟩
  simp only [SourceStep, Source.step, RxIrqSys.source, List.length_append, List.length_singleton]
  rfl

lemma RxTied.ring (h : RxTied s) (ht : s.step msi3 .ring = some t) :
    RxTied t ∧ SourceStep .ring s t := by
  obtain ⟨hringing, ht⟩ := Option.ite_none_right_eq_some.mp ht
  obtain rfl := Option.some.inj ht
  refine ⟨h.card _ _ _, ?_⟩
  have hset : decide ((s.icr ||| bitDmaEpRxIcrRxDone) &&& bitDmaEpRxIcrRxDone ≠ 0) = true :=
    decide_eq_true (masked_or_self (by decide))
  have hstep : s.source.step wil6210NapiBudget .ring
      = some { s.source with ringing := s.ringing - 1, cause := true } := if_pos hringing
  rw [SourceStep, hstep]
  simp only [RxIrqSys.source, RxIrqSys.phase, hset]

lemma RxTied.raise (h : RxTied s) {cause : BitVec 32} (ht : s.step msi3 (.raise cause) = some t) :
    RxTied t ∧ (t.source = s.source ∨ SourceStep .raise s t) := by
  obtain rfl := Option.some.inj ht
  refine ⟨h.card _ _ _, ?_⟩
  by_cases hset : (s.icr ||| cause) &&& bitDmaEpRxIcrRxDone ≠ 0
  · refine .inr ?_
    have hstep : s.source.step wil6210NapiBudget .raise = some { s.source with cause := true } := rfl
    rw [SourceStep, hstep]
    simp only [RxIrqSys.source, RxIrqSys.phase, decide_eq_true hset]
  · have hclear : ¬ s.icr &&& bitDmaEpRxIcrRxDone ≠ 0 := fun hold => hset (Masked.or hold)
    refine .inl ?_
    simp only [RxIrqSys.source, RxIrqSys.phase, decide_eq_false hset, decide_eq_false hclear]

/-- A step that has nothing to do with Rx. -/
lemma rxKept_mailStep {m n : MailSys} {a : MailAction} (ht : m.step msi3 a = some n)
    (ha : (∀ p r x, a ≠ .hardirq p r x) ∧ (∀ isr, a ≠ .irqRx isr) ∧ ∀ p, a ≠ .pollRx p) :
    RxKept m.irq.wil n.irq.wil := by
  cases a with
  | hardirq p r x => exact absurd rfl (ha.1 p r x)
  | irqRx isr => exact absurd rfl (ha.2.1 isr)
  | pollRx p => exact absurd rfl (ha.2.2 p)
  | post | raise _ =>
      obtain rfl := Option.some.inj ht
      exact .refl _
  | ring | recv | recvEnd =>
      obtain ⟨-, ht⟩ := Option.ite_none_right_eq_some.mp ht
      obtain rfl := Option.some.inj ht
      exact .refl _
  | irqMisc | irqTx _ | pollTx _ =>
      obtain ⟨irq, hirq, rfl⟩ := Option.map_eq_some_iff.mp ht
      exact rxKept_irqStep hirq (by simp)
  | thread =>
      simp only [MailSys.step] at ht
      split_ifs at ht
      obtain ⟨irq, hirq, rfl⟩ := Option.map_eq_some_iff.mp ht
      exact rxKept_irqStep hirq (by simp)

lemma RxIrqSys.other_eq_some {a : MailAction} (ht : s.step msi3 (.other a) = some t) :
    ((∀ p r x, a ≠ .hardirq p r x) ∧ (∀ isr, a ≠ .irqRx isr) ∧ ∀ p, a ≠ .pollRx p) ∧
      ∃ mail, s.mail.step msi3 a = some mail ∧ t = { s with mail := mail } := by
  cases a with
  | hardirq p r x => exact absurd ht (by simp [RxIrqSys.step])
  | irqRx isr => exact absurd ht (by simp [RxIrqSys.step])
  | pollRx p => exact absurd ht (by simp [RxIrqSys.step])
  | post | ring | raise _ | irqMisc | irqTx _ | thread | pollTx _ | recv | recvEnd =>
      simp only [RxIrqSys.step, Option.map_eq_some_iff] at ht
      obtain ⟨mail, hmail, rfl⟩ := ht
      exact ⟨by simp, mail, hmail, rfl⟩

/-- The handlers and the thread go on as without Rx. -/
lemma MailInv.rxIrq (h : MailInv msi3 s.mail) {a : RxIrqAction} (hexpected : s.Expected a)
    (ht : s.step msi3 a = some t) : MailInv msi3 t.mail := by
  cases a with
  | rxDone _ | raise _ =>
      obtain rfl := Option.some.inj ht
      exact h
  | ring =>
      obtain ⟨-, ht⟩ := Option.ite_none_right_eq_some.mp ht
      obtain rfl := Option.some.inj ht
      exact h
  | hardirq pseudoCause tx =>
      obtain ⟨mail, hmail, rfl⟩ := Option.map_eq_some_iff.mp ht
      exact h.step hexpected.1 hmail
  | irqRx | pollStart | unmask =>
      obtain ⟨mail, hmail, rfl⟩ := Option.map_eq_some_iff.mp ht
      refine h.step ?_ hmail
      trivial
  | reap | drop | loopEnd =>
      obtain ⟨done, -, hloop⟩ := RxIrqSys.inLoop_eq_some ht
      obtain ⟨-, hu⟩ := Option.ite_none_right_eq_some.mp hloop
      obtain rfl := Option.some.inj hu
      exact h
  | complete =>
      simp only [RxIrqSys.step] at ht
      split at ht
      · obtain ⟨mail, hmail, rfl⟩ := Option.map_eq_some_iff.mp ht
        refine h.step ?_ hmail
        trivial
      · exact absurd ht (by simp)
  | other a =>
      obtain ⟨-, mail, hmail, rfl⟩ := RxIrqSys.other_eq_some ht
      exact h.step hexpected hmail

/-- **Every step** is a step of the source, or none of its. -/
lemma RxTied.step (h : RxTied s) {a : RxIrqAction} (hexpected : s.Expected a)
    (hcut : ¬ s.CutShort a) (ht : s.step msi3 a = some t) :
    RxTied t ∧ (t.source = s.source ∨ ∃ o, ¬ s.source.CutShort o ∧ SourceStep o s t) := by
  cases a with
  | rxDone dropped => exact (h.rxDone ht).imp_right fun hstep => .inr ⟨_, id, hstep⟩
  | ring => exact (h.ring ht).imp_right fun hstep => .inr ⟨_, id, hstep⟩
  | raise cause => exact (h.raise ht).imp_right (.imp_right fun hstep => ⟨_, id, hstep⟩)
  | hardirq pseudoCause tx =>
      exact (h.hardirq hexpected ht).imp_right (.imp_right fun hstep => ⟨_, id, hstep⟩)
  | irqRx => exact (h.irqRx hexpected ht).imp_right fun hstep => .inr ⟨_, id, hstep⟩
  | pollStart => exact (h.pollStart ht).imp_right fun hstep => .inr ⟨_, id, hstep⟩
  | reap => exact (h.reap ht).imp_right fun hstep => .inr ⟨_, id, hstep⟩
  | drop =>
      obtain ⟨hnext, hstep, hshort⟩ := h.drop ht
      exact ⟨hnext, .inr ⟨_, hshort.not.mpr hcut, hstep⟩⟩
  | loopEnd => exact (h.loopEnd ht).imp_right fun hstep => .inr ⟨_, id, hstep⟩
  | complete => exact (h.complete ht).imp_right fun hstep => .inr ⟨_, id, hstep⟩
  | unmask => exact (h.unmask ht).imp_right fun hstep => .inr ⟨_, id, hstep⟩
  | other a =>
      obtain ⟨ha, mail, hmail, rfl⟩ := RxIrqSys.other_eq_some ht
      have hkept := rxKept_mailStep hmail ha
      exact ⟨h.kept hkept, .inl (source_kept hkept)⟩

/-- Rx in the middle of a poll, or with nothing but the interrupt to come, has a step to take. -/
lemma RxTied.live (h : RxTied s) (hmail : MailInv msi3 s.mail) (hatt : s.source.Attended)
    (hwork : s.completed ≠ []) :
    (∃ a t o, s.Expected a ∧ s.step msi3 a = some t ∧ o.Internal ∧ SourceStep o s t) ∨
      msi3 = false ∧ (s.mail.irq.woken = true ∨ s.mail.irq.thread.Holds) := by
  cases hpoll : s.poll with
  | some x =>
      obtain ⟨done, looping⟩ := x
      refine .inl ?_
      cases looping with
      | true =>
          by_cases hmore : done < wil6210NapiBudget
          · obtain ⟨dropped, rest, hcompleted⟩ := List.exists_cons_of_ne_nil hwork
            have hhead : s.completed.head? = some dropped := by
              rw [hcompleted, List.head?_cons]
            cases dropped with
            | false =>
                have ht : s.step msi3 .reap = some { s with
                    completed := s.completed.tail, poll := some (done + 1, true) } := by
                  simp only [RxIrqSys.step, hpoll]
                  exact if_pos ⟨hmore, hhead⟩
                exact ⟨.reap, _, .serve, trivial, ht, trivial, (h.reap ht).2⟩
            | true =>
                have ht : s.step msi3 .drop = some { s with
                    completed := s.completed.tail, poll := some (done, false) } := by
                  simp only [RxIrqSys.step, hpoll]
                  exact if_pos ⟨hmore, hhead⟩
                exact ⟨.drop, _, .cut, trivial, ht, trivial, (h.drop ht).2.1⟩
          · have ht : s.step msi3 .loopEnd = some { s with poll := some (done, false) } := by
              simp only [RxIrqSys.step, hpoll]
              exact if_pos (.inl (not_lt.mp hmore))
            exact ⟨.loopEnd, _, .stop, trivial, ht, trivial, (h.loopEnd ht).2⟩
      | false =>
          have hpolling : s.mail.irq.wil.napiRx.polling = true := by
            have hsome := h.polling
            rwa [hpoll] at hsome
          obtain ⟨t, ht⟩ : ∃ t, s.step msi3 .complete = some t := by
            simp only [RxIrqSys.step, hpoll, MailSys.step, MailSys.onIrq, IrqSys.step, pollStep,
              if_pos hpolling]
            split_ifs <;> exact ⟨_, rfl⟩
          exact ⟨.complete, t, .finish, trivial, ht, trivial, (h.complete ht).2⟩
  | none =>
      have hpolling : s.mail.irq.wil.napiRx.polling = false := by
        have hnone := h.polling
        rwa [hpoll] at hnone
      by_cases hsched : s.mail.irq.wil.napiRx.sched = true
      · have hen : s.mail.irq.wil.napiRx.sched = true ∧ ¬ s.mail.irq.wil.napiRx.polling = true :=
          ⟨hsched, by simp [hpolling]⟩
        obtain ⟨t, ht⟩ : ∃ t, s.step msi3 .pollStart = some t := by
          simp only [RxIrqSys.step, MailSys.step, MailSys.onIrq, IrqSys.step, pollStep, if_pos hen]
          exact ⟨_, rfl⟩
        exact .inl ⟨.pollStart, t, .start, trivial, ht, trivial, (h.pollStart ht).2⟩
      by_cases hcompleting : 0 < s.mail.irq.wil.napiRx.completing
      · obtain ⟨t, ht⟩ : ∃ t, s.step msi3 .unmask = some t := by
          simp only [RxIrqSys.step, MailSys.step, MailSys.onIrq, IrqSys.step, pollStep,
            if_pos hcompleting]
          exact ⟨_, rfl⟩
        exact .inl ⟨.unmask, t, .unmask, trivial, ht, trivial, (h.unmask ht).2⟩
      -- nobody polls, and Rx is not masked
      have hphase : s.source.phase = .idle := by
        simp [RxIrqSys.source, RxIrqSys.phase, hpoll, hsched, hcompleting]
      have hm : ¬ Masked wil6210ImcRx s.wil.rxImv := by
        intro hm
        rcases h.masked.mp hm with hs | hp | hn
        · exact hsched hs
        · exact absurd hp (by simp [hpolling])
        · exact hcompleting hn
      rcases hatt (List.length_pos_iff.mpr hwork) with
        hringing | hcause | hphase' | ⟨k, hphase' | ⟨hphase', -⟩⟩
      · have ht : s.step msi3 .ring = some
            { s with icr := s.icr ||| bitDmaEpRxIcrRxDone, ringing := s.ringing - 1 } :=
          if_pos hringing
        exact .inl ⟨.ring, _, .ring, trivial, ht, trivial, (h.ring ht).2⟩
      · have hset : s.icr &&& wil6210ImcRx ≠ 0 := of_decide_eq_true hcause
        cases msi3 with
        | true =>
            have hen : true = true ∧ s.icr &&& wil6210ImcRx ≠ 0 := ⟨rfl, hset⟩
            obtain ⟨t, ht⟩ : ∃ t, s.step true .irqRx = some t := by
              rw [RxIrqSys.step, MailSys.step, MailSys.onIrq, IrqSys.step, if_pos hen]
              exact ⟨_, rfl⟩
            exact .inl ⟨.irqRx, t, .irq, hm, ht, trivial, (h.irqRx hm ht).2⟩
        | false =>
            cases hirqen : s.wil.irqen with
            | false => exact .inr (hmail.irqen hirqen)
            | true =>
                have hexpected : s.Expected (.hardirq bitDmaPseudoCauseRx 0) :=
                  ⟨hirqen, fun _ => hm⟩
                obtain ⟨t, ht⟩ : ∃ t, s.step false (.hardirq bitDmaPseudoCauseRx 0) = some t := by
                  rw [RxIrqSys.step, MailSys.step, IrqSys.step, if_pos ⟨rfl, fun _ => hset,
                    fun htx => absurd rfl htx, fun hmisc => absurd rfl hmisc⟩]
                  exact ⟨_, rfl⟩
                exact .inl ⟨_, t, .irq, hexpected, ht, trivial,
                  (h.hardirqRx hexpected (by decide) (by decide) ht).2⟩
      · exact absurd (hphase.symm.trans hphase') (by simp)
      · exact absurd (hphase.symm.trans hphase') (by simp)
      · exact absurd (hphase.symm.trans hphase') (by simp)

end Steps

/-! ## Every run -/

/-- **What must hold** of Rx. -/
structure RxServed (msi3 : Bool) (s : RxIrqSys) : Prop where
  /-- Rx has got here as a source that is polled, with no poll cut short. -/
  refines : ∃ os, Machine.Exec (Source.step wil6210NapiBudget) (fun s o => ¬ s.CutShort o)
    ⟨0, 0, false, .idle⟩ os s.source
  /-- As long as a packet is in the ring, there is a step that brings it closer to being taken, or the
  thread holds the one interrupt. -/
  live : s.completed ≠ [] →
    (∃ a t, s.Expected a ∧ s.step msi3 a = some t ∧ t.source.rank < s.source.rank) ∨
      msi3 = false ∧ (s.mail.irq.woken = true ∨ s.mail.irq.thread.Holds)

/-- Rx at rest, with a packet in the ring that no cause is set for. -/
lemma not_attended_of_idle (hcompleted : s.completed.length = 1) (hringing : s.ringing = 0)
    (hcause : s.source.cause = false) (hphase : s.phase = .idle) : ¬ s.source.Attended := by
  intro hatt
  have hidle : s.source.phase = .idle := hphase
  have hwork : 0 < s.source.work := by simp [RxIrqSys.source, hcompleted]
  rcases hatt hwork with hr | hc | hp | ⟨k, hp | ⟨hp, -⟩⟩
  · exact absurd hringing (Nat.ne_of_gt hr)
  · exact absurd (hcause.symm.trans hc) Bool.false_ne_true
  · exact absurd (hidle.symm.trans hp) (by simp)
  · exact absurd (hidle.symm.trans hp) (by simp)
  · exact absurd (hidle.symm.trans hp) (by simp)

/-- Where the interrupt comes although it is masked, its `napi_schedule` finds the poll scheduled
already, and the `napi_complete` of that poll takes both back: no cause is left for the packet. -/
theorem not_rxServed_run : ¬ ∀ (as : List RxIrqAction) (s : RxIrqSys),
    Machine.Exec (RxIrqSys.step true) (fun s a => ¬ s.CutShort a) (.init blankIrq) as s →
      s.source.Attended := by
  intro h
  have hrun : (Machine.exec (RxIrqSys.step true) (fun s a => ¬ s.CutShort a) (.init blankIrq)
      [.rxDone false, .ring, .irqRx, .pollStart, .reap, .loopEnd, .rxDone false, .ring, .irqRx,
        .complete, .unmask]).map (fun s => (s.completed.length, s.ringing, s.source.cause, s.phase))
      = some (1, 0, false, .idle) := by
    decide +kernel
  obtain ⟨s, hs, hend⟩ := Option.map_eq_some_iff.mp hrun
  simp only [Prod.mk.injEq] at hend
  obtain ⟨hcompleted, hringing, hcause, hphase⟩ := hend
  exact not_attended_of_idle hcompleted hringing hcause hphase (h _ s (.of_exec hs))

/-- A packet that is dropped ends the poll, in front of another one: Rx is unmasked, and no cause is
left for the packet. -/
theorem not_rxServed_dropped : ¬ ∀ (as : List RxIrqAction) (s : RxIrqSys),
    Machine.Exec (RxIrqSys.step true) RxIrqSys.Expected (.init blankIrq) as s →
      s.source.Attended := by
  intro h
  have hrun : (Machine.exec (RxIrqSys.step true) RxIrqSys.Expected (.init blankIrq)
      [.rxDone true, .ring, .rxDone false, .ring, .irqRx, .pollStart, .drop, .complete,
        .unmask]).map (fun s => (s.completed.length, s.ringing, s.source.cause, s.phase))
      = some (1, 0, false, .idle) := by
    decide +kernel
  obtain ⟨s, hs, hend⟩ := Option.map_eq_some_iff.mp hrun
  simp only [Prod.mk.injEq] at hend
  obtain ⟨hcompleted, hringing, hcause, hphase⟩ := hend
  exact not_attended_of_idle hcompleted hringing hcause hphase (h _ s (.of_exec hs))

end Wil6210
