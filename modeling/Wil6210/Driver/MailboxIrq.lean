import Wil6210.Driver.Interrupt

/-!
# The interrupt of the mailbox

The firmware puts an event into the mailbox and then sets `ISR_MISC_MBOX_EVT` in the misc cause.  The
hard handler reads and clears the cause, masks misc, and leaves the cause in `isr_misc` for the
thread, which calls `wmi_recv_cmd` until the mailbox is empty.  `MailSys` is `IrqSys` with the cause
register and the mailbox behind it.

An event that comes in while misc is masked sets a cause that nobody reads until it is unmasked.
`mailAttended_run` says that it is not forgotten: an event in the mailbox has its cause set, or
somebody on the way to it, as long as no interrupt falls where it is masked.  Such an interrupt does
harm: with three interrupts `isr_misc` is overwritten, with one the debug code clears the cause.
-/

namespace Wil6210

/-! ## The machine -/

/-- The handlers, the misc cause, and the mailbox. -/
structure MailSys where
  irq : IrqSys
  /-- `RGF_DMA_EP_MISC_ICR`, `ICR` -/
  icr : BitVec 32
  /-- the events in the mailbox -/
  mail : ℕ
  /-- how many of them the firmware is still to set the cause for -/
  ringing : ℕ
  /-- the thread found `ISR_MISC_MBOX_EVT` in what it read of `isr_misc`, and `wmi_recv_cmd` did not
  return yet -/
  fetch : Bool

inductive MailAction
  /-- The firmware puts an event into the mailbox, -/
  | post
  /-- and sets the cause for it. -/
  | ring
  /-- The card sets another misc cause. -/
  | raise (cause : BitVec 32)
  /-- The handlers are called: the one interrupt, or those of three. -/
  | hardirq (pseudoCause rx tx : BitVec 32)
  | irqMisc
  | irqTx (isr : BitVec 32)
  | irqRx (isr : BitVec 32)
  | thread
  | pollRx (p : PollStep)
  | pollTx (p : PollStep)
  /-- `wmi_recv_cmd` takes an event out of the mailbox. -/
  | recv
  /-- `wmi_recv_cmd` returns. -/
  | recvEnd

namespace MailSys

/-- The cause as the one handler leaves it: cleared where misc is handled, and by
`wil6210_debug_irq_mask` where that refuses the interrupt. -/
def icrAfter (s : MailSys) (pseudoCause : BitVec 32) : BitVec 32 :=
  if pseudoCause = 0 ∨ pseudoCause &&& 0xff = 0xff then s.icr
  else if ¬ s.irq.wil.irqen then 0
  else if pseudoCause &&& bitDmaPseudoCauseMisc ≠ 0 then 0 else s.icr

/-- A step of the handlers that has nothing to do with misc. -/
def onIrq (msi3 : Bool) (s : MailSys) (a : IrqAction) : Option MailSys :=
  (s.irq.step msi3 a).map fun irq => { s with irq := irq }

/-- One step. -/
def step (msi3 : Bool) (s : MailSys) : MailAction → Option MailSys
  | .post => some { s with mail := s.mail + 1, ringing := s.ringing + 1 }
  | .ring =>
      if 0 < s.ringing then
        some { s with icr := s.icr ||| isrMiscMboxEvt, ringing := s.ringing - 1 }
      else none
  | .raise cause => some { s with icr := s.icr ||| cause }
  | .hardirq pseudoCause rx tx =>
      (s.irq.step msi3 (.hardirq pseudoCause rx tx s.icr)).map fun irq =>
        { s with irq := irq, icr := s.icrAfter pseudoCause }
  | .irqMisc =>
      (s.irq.step msi3 (.irqMisc s.icr)).map fun irq => { s with irq := irq, icr := 0 }
  | .irqTx isr => s.onIrq msi3 (.irqTx isr)
  | .irqRx isr => s.onIrq msi3 (.irqRx isr)
  | .thread =>
      if s.fetch then none
      else
        (s.irq.step msi3 .thread).map fun irq =>
          -- what the thread reads of `isr_misc` where it enters `wil6210_irq_misc_thread`
          { s with
            irq := irq
            fetch := decide (irq.thread = .misc ∧ irq.wil.isrMisc &&& isrMiscMboxEvt ≠ 0) }
  | .pollRx p => s.onIrq msi3 (.pollRx p)
  | .pollTx p => s.onIrq msi3 (.pollTx p)
  | .recv =>
      if s.fetch ∧ s.irq.wil.resetDone ∧ 0 < s.mail then some { s with mail := s.mail - 1 }
      else none
  | .recvEnd => if s.fetch then some { s with fetch := false } else none

/-- The interrupts are enabled, and nothing is under way. -/
def init (w : WilIrq) : MailSys := ⟨.init w, 0, 0, 0, false⟩

/-- When nothing gets lost: no handler is called where its interrupt is masked, and `wmi_recv_cmd`
returns where it finds the mailbox empty. -/
def Expected (s : MailSys) : MailAction → Prop
  | .hardirq _ _ _ => s.irq.wil.irqen = true
  | .irqMisc => ¬ Masked wil6210ImcMisc s.irq.wil.miscImv
  | .recvEnd => s.mail = 0
  | _ => True

instance (s : MailSys) : (a : MailAction) → Decidable (s.Expected a)
  | .hardirq _ _ _ => inferInstanceAs (Decidable (s.irq.wil.irqen = true))
  | .irqMisc => inferInstanceAs (Decidable (¬ Masked wil6210ImcMisc s.irq.wil.miscImv))
  | .recvEnd => inferInstanceAs (Decidable (s.mail = 0))
  | .post | .ring | .raise _ | .irqTx _ | .irqRx _ | .thread | .pollRx _ | .pollTx _ | .recv =>
      inferInstanceAs (Decidable True)

/-- The thread is to call `wmi_recv_cmd`, or is in it. -/
def Fetched (s : MailSys) : Prop :=
  s.fetch = true ∨
    (s.irq.woken = true ∨ s.irq.thread = .enter) ∧ s.irq.wil.isrMisc &&& isrMiscMboxEvt ≠ 0

/-- **An event in the mailbox is attended to**: the firmware is to set its cause, or the cause is
set, or the thread is on its way. -/
def Attended (s : MailSys) : Prop :=
  0 < s.mail → 0 < s.ringing ∨ s.icr &&& isrMiscMboxEvt ≠ 0 ∨ s.Fetched

end MailSys

/-! ## What the handlers do to misc -/

section Handlers

variable {w : WilIrq} {isr : BitVec 32}

/-- What a handler did that left misc alone. -/
structure MiscKept (w v : WilIrq) : Prop where
  miscImv : v.miscImv = w.miscImv
  isrMisc : v.isrMisc = w.isrMisc
  irqen : v.irqen = w.irqen
  pseudoMaskSw : v.pseudoMaskSw = w.pseudoMaskSw

lemma miscKept_irqRx : MiscKept w (wil6210IrqRx isr w).1 ∧ (wil6210IrqRx isr w).2 ≠ .wakeThread := by
  rw [wil6210IrqRx]
  split_ifs <;> exact ⟨⟨rfl, rfl, rfl, rfl⟩, by simp⟩

lemma miscKept_irqTx : MiscKept w (wil6210IrqTx isr w).1 ∧ (wil6210IrqTx isr w).2 ≠ .wakeThread := by
  rw [wil6210IrqTx]
  split_ifs <;> exact ⟨⟨rfl, rfl, rfl, rfl⟩, by simp⟩

/-- What the misc handler does: it unmasks misc again, or it leaves the thread the cause. -/
lemma wil6210IrqMisc_cases (hisr : isr ≠ 0) (w : WilIrq) :
    (¬ Masked wil6210ImcMisc (wil6210IrqMisc isr w).1.miscImv ∧
        (wil6210IrqMisc isr w).2 = .handled ∧ isr &&& isrMiscMboxEvt = 0 ∨
      Masked wil6210ImcMisc (wil6210IrqMisc isr w).1.miscImv ∧
        (wil6210IrqMisc isr w).2 = .wakeThread ∧ (wil6210IrqMisc isr w).1.isrMisc ≠ 0 ∧
        (isr &&& isrMiscMboxEvt ≠ 0 →
          (wil6210IrqMisc isr w).1.isrMisc &&& isrMiscMboxEvt ≠ 0)) ∧
      (wil6210IrqMisc isr w).1.irqen = w.irqen ∧
      (wil6210IrqMisc isr w).1.pseudoMaskSw = w.pseudoMaskSw := by
  -- `ISR_MISC_FW_READY` is taken out of the cause
  have hmbox : (isr &&& ~~~ isrMiscFwReady) &&& isrMiscMboxEvt = isr &&& isrMiscMboxEvt := by
    rw [BitVec.and_assoc]
    rfl
  rw [wil6210IrqMisc, if_neg hisr]
  dsimp only
  set cause := (if isr &&& isrMiscFwReady ≠ 0 then isr &&& ~~~ isrMiscFwReady else isr) with hcause
  have hsame : cause &&& isrMiscMboxEvt = isr &&& isrMiscMboxEvt := by
    rw [hcause]
    split_ifs
    · exact hmbox
    · rfl
  by_cases hne : cause ≠ 0
  · rw [if_pos hne]
    refine ⟨.inr ⟨masked_writeIms_disable (by decide) _, rfl, hne, ?_⟩, rfl, rfl⟩
    rw [← hsame]
    exact id
  · rw [if_neg hne]
    refine ⟨.inl ⟨not_masked_writeImc _ _, rfl, ?_⟩, rfl, rfl⟩
    rw [← hsame, not_not.mp hne]
    exact BitVec.zero_and

/-- What the one handler does to misc, where it accepts the interrupt: nothing, or it unmasks all
that it masked, or it leaves the thread the cause. -/
lemma wil6210Hardirq_cases {pseudoCause rx tx : BitVec 32}
    (hcause : ¬ (pseudoCause = 0 ∨ pseudoCause &&& 0xff = 0xff)) (hirqen : w.irqen = true)
    (hmisc : pseudoCause &&& bitDmaPseudoCauseMisc ≠ 0 → isr &&& wil6210ImcMisc ≠ 0) {v : WilIrq}
    {rc : IrqReturn} (hr : wil6210Hardirq pseudoCause rx tx isr w = (v, rc)) :
    rc ≠ .wakeThread ∧ v.irqen = true ∧ ¬ Masked pseudoCauses v.pseudoMaskSw ∧
        (pseudoCause &&& bitDmaPseudoCauseMisc = 0 ∧ v.miscImv = w.miscImv ∨
          pseudoCause &&& bitDmaPseudoCauseMisc ≠ 0 ∧ ¬ Masked wil6210ImcMisc v.miscImv ∧
            isr &&& isrMiscMboxEvt = 0) ∨
      rc = .wakeThread ∧ v.irqen = false ∧ pseudoCause &&& bitDmaPseudoCauseMisc ≠ 0 ∧
        v.isrMisc ≠ 0 ∧ (isr &&& isrMiscMboxEvt ≠ 0 → v.isrMisc &&& isrMiscMboxEvt ≠ 0) := by
  rw [wil6210Hardirq, if_neg hcause, if_neg (not_not_intro hirqen)] at hr
  dsimp only at hr
  -- Rx and Tx leave misc alone, and do not ask for the thread
  have hrx : ∀ u : WilIrq, ∃ u' rc', (if pseudoCause &&& bitDmaPseudoCauseRx ≠ 0 then
      wil6210IrqRx rx u else (u, .handled)) = (u', rc') ∧ MiscKept u u' ∧ rc' ≠ .wakeThread := by
    intro u
    split_ifs
    · exact ⟨_, _, rfl, miscKept_irqRx⟩
    · exact ⟨_, _, rfl, ⟨rfl, rfl, rfl, rfl⟩, by simp⟩
  have htx : ∀ u : WilIrq, ∃ u' rc', (if pseudoCause &&& bitDmaPseudoCauseTx ≠ 0 then
      wil6210IrqTx tx u else (u, .handled)) = (u', rc') ∧ MiscKept u u' ∧ rc' ≠ .wakeThread := by
    intro u
    split_ifs
    · exact ⟨_, _, rfl, miscKept_irqTx⟩
    · exact ⟨_, _, rfl, ⟨rfl, rfl, rfl, rfl⟩, by simp⟩
  obtain ⟨u, rcRx, hu, hkeptRx, hwakeRx⟩ := hrx (wil6210MaskIrqPseudo w)
  rw [hu] at hr
  obtain ⟨u', rcTx, hu', hkeptTx, hwakeTx⟩ := htx u
  rw [hu'] at hr
  by_cases hp : pseudoCause &&& bitDmaPseudoCauseMisc ≠ 0
  · have hne : isr ≠ 0 := by
      rintro rfl
      exact hmisc hp BitVec.zero_and
    rw [if_pos hp] at hr
    obtain ⟨⟨hmasked, hrc, hmbox⟩ | ⟨-, hrc, hcause', hmbox⟩, hirq, -⟩ :=
      wil6210IrqMisc_cases hne u'
    · rw [if_neg (by simp [hwakeRx, hwakeTx, hrc])] at hr
      obtain ⟨rfl, rfl⟩ := Prod.mk.inj hr
      exact .inl ⟨by simp, rfl, not_masked_pseudoMask, .inr ⟨hp, hmasked, hmbox⟩⟩
    · rw [if_pos (.inr (.inr hrc))] at hr
      obtain ⟨rfl, rfl⟩ := Prod.mk.inj hr
      refine .inr ⟨rfl, ?_, hp, hcause', hmbox⟩
      rw [hirq, hkeptTx.irqen, hkeptRx.irqen]
      rfl
  · rw [if_neg hp, if_neg (by simp [hwakeRx, hwakeTx])] at hr
    obtain ⟨rfl, rfl⟩ := Prod.mk.inj hr
    refine .inl ⟨by simp, rfl, not_masked_pseudoMask, .inl ⟨not_not.mp hp, ?_⟩⟩
    exact hkeptTx.miscImv.trans hkeptRx.miscImv

end Handlers

section Masked

variable {irqs imv v : BitVec 32}

lemma Masked.or (h : Masked irqs imv) : Masked irqs (imv ||| v) := by
  intro hzero
  rw [BitVec.and_or_distrib_right] at hzero
  exact h (BitVec.or_eq_zero_iff.mp hzero).1

lemma masked_or_self (h : irqs ≠ 0) : Masked irqs (imv ||| irqs) := by
  have hself : Masked irqs irqs := by rwa [Masked, BitVec.and_self]
  rw [BitVec.or_comm]
  exact hself.or

end Masked

/-! ## The invariant -/

/-- No handler of misc is expected. -/
def MailSys.Blocked (msi3 : Bool) (s : MailSys) : Prop :=
  if msi3 = true then Masked wil6210ImcMisc s.irq.wil.miscImv else s.irq.wil.irqen = false

/-- What holds between two steps. -/
structure MailInv (msi3 : Bool) (s : MailSys) : Prop where
  attended : s.Attended
  /-- from where the thread is woken until it unmasks, no handler is expected -/
  woken : s.irq.woken = true → s.Blocked msi3
  thread : s.irq.thread.Holds → s.Blocked msi3 ∧ s.irq.woken = false
  three : msi3 = true → s.irq.thread ≠ .setIrqen
  fetch : s.fetch = true → s.irq.thread = .misc
  /-- what is masked, the thread is to unmask -/
  misc : Masked wil6210ImcMisc s.irq.wil.miscImv → s.irq.thread = .misc ∨
    s.irq.thread = .unmaskMisc ∨
      ((s.irq.woken = true ∨ s.irq.thread = .enter) ∧ (msi3 = true ∨ s.irq.wil.isrMisc ≠ 0))
  pseudo : Masked pseudoCauses s.irq.wil.pseudoMaskSw →
    msi3 = false ∧ (s.irq.woken = true ∨ s.irq.thread.Holds ∨ s.irq.thread = .unmaskPseudo)
  irqen : s.irq.wil.irqen = false → msi3 = false ∧ (s.irq.woken = true ∨ s.irq.thread.Holds)

variable {msi3 : Bool} {s t : MailSys}

lemma mailInv_init (msi3 : Bool) (w : WilIrq) : MailInv msi3 (.init w) := by
  refine ⟨fun hmail => absurd hmail (Nat.lt_irrefl 0), fun h => absurd h (by simp [MailSys.init,
    IrqSys.init]), fun h => absurd h (by simp [MailSys.init, IrqSys.init, IrqThread.Holds]),
    fun _ => by simp [MailSys.init, IrqSys.init], fun h => absurd h (by simp [MailSys.init]),
    fun hm => absurd hm (not_masked_writeImc _ _), fun hp => absurd hp not_masked_pseudoMask,
    fun h => absurd h ?_⟩
  simp [MailSys.init, IrqSys.init, wil6210EnableIrq, wil6210UnmaskIrqPseudo, writePseudoMask,
    setIrqen, wil6210UnmaskIrqTx, wil6210UnmaskIrqRx, wil6210UnmaskIrqMisc]

namespace MailInv

/-- Where a handler is expected, the thread is neither woken nor on its way. -/
lemma free (h : MailInv msi3 s) (hexpected : ¬ s.Blocked msi3) :
    s.irq.woken = false ∧ ¬ s.irq.thread.Holds := by
  refine ⟨?_, fun hholds => hexpected (h.thread hholds).1⟩
  by_contra hwoken
  exact hexpected (h.woken (by simpa using hwoken))

/-- So nobody is on the way to the mailbox. -/
lemma not_fetched (h : MailInv msi3 s) (hexpected : ¬ s.Blocked msi3) : ¬ s.Fetched := by
  obtain ⟨hwoken, hholds⟩ := h.free hexpected
  rintro (hfetch | ⟨hwoken' | henter, -⟩)
  · exact hholds (.inr (.inl (h.fetch hfetch)))
  · exact absurd (hwoken.symm.trans hwoken') (by simp)
  · exact hholds (.inl henter)

/-- A step of the card leaves the handlers as they are. -/
lemma card (h : MailInv msi3 s) {icr : BitVec 32} {mail ringing : ℕ}
    (hattended : MailSys.Attended { s with icr := icr, mail := mail, ringing := ringing }) :
    MailInv msi3 { s with icr := icr, mail := mail, ringing := ringing } :=
  ⟨hattended, h.woken, h.thread, h.three, h.fetch, h.misc, h.pseudo, h.irqen⟩

/-- A step of the handlers that leaves misc and the thread alone. -/
lemma kept (h : MailInv msi3 s) {irq : IrqSys} (hwoken : irq.woken = s.irq.woken)
    (hthread : irq.thread = s.irq.thread) (hkept : MiscKept s.irq.wil irq.wil) :
    MailInv msi3 { s with irq := irq } := by
  have hblocked : MailSys.Blocked msi3 { s with irq := irq } ↔ s.Blocked msi3 := by
    rw [MailSys.Blocked, MailSys.Blocked, hkept.miscImv, hkept.irqen]
  refine ⟨?_, ?_, ?_, ?_, ?_, ?_, ?_, ?_⟩ <;>
    simp only [MailSys.Attended, MailSys.Fetched, hblocked, hwoken, hthread, hkept.miscImv,
      hkept.isrMisc, hkept.irqen, hkept.pseudoMaskSw]
  · exact h.attended
  · exact h.woken
  · exact h.thread
  · exact h.three
  · exact h.fetch
  · exact h.misc
  · exact h.pseudo
  · exact h.irqen

/-- The misc interrupt of three. -/
lemma irqMisc (h : MailInv msi3 s) (hexpected : s.Expected .irqMisc)
    (ht : s.step msi3 .irqMisc = some t) : MailInv msi3 t := by
  obtain ⟨irq, hirq, rfl⟩ := Option.map_eq_some_iff.mp ht
  obtain ⟨hen, hirq⟩ := Option.ite_none_right_eq_some.mp hirq
  obtain rfl := Option.some.inj hirq
  obtain ⟨rfl, hisr⟩ := hen
  have hne : s.icr ≠ 0 := by
    intro hzero
    rw [hzero] at hisr
    exact hisr BitVec.zero_and
  obtain ⟨hwoken, hholds⟩ := h.free (show ¬ s.Blocked true from hexpected)
  have hnot := h.not_fetched (show ¬ s.Blocked true from hexpected)
  obtain ⟨hcases, hirqen, hpseudo⟩ := wil6210IrqMisc_cases hne s.irq.wil
  have hfetch : s.fetch ≠ true := fun hfetch => hholds (.inr (.inl (h.fetch hfetch)))
  have hthread : ∀ p : Prop, s.irq.thread.Holds → p := fun _ hp => absurd hp hholds
  refine ⟨fun hmail => ?_, fun hw => ?_, hthread _, h.three, h.fetch, fun hm => ?_, fun hp => ?_,
    fun hoff => ?_⟩
  · rcases h.attended hmail with hringing | hicr | hfetched
    · exact .inl hringing
    · -- the cause that was set is in the hands of the thread
      rcases hcases with ⟨-, -, hzero⟩ | ⟨-, hrc, -, hmbox⟩
      · exact absurd hzero hicr
      · exact .inr (.inr (.inr ⟨.inl (by simp [IrqSys.handled, hrc]), hmbox hicr⟩))
    · exact absurd hfetched hnot
  · rcases hcases with ⟨-, hrc, -⟩ | ⟨hm, -⟩
    · simp [IrqSys.handled, hrc, hwoken] at hw
    · exact hm
  · rcases hcases with ⟨hmasked, -⟩ | ⟨-, hrc, -⟩
    · exact absurd hm hmasked
    · exact .inr (.inr ⟨.inl (by simp [IrqSys.handled, hrc]), .inl rfl⟩)
  · have hp' : Masked pseudoCauses s.irq.wil.pseudoMaskSw := by
      rw [← hpseudo]
      exact hp
    exact absurd (h.pseudo hp').1 (by simp)
  · have hoff' : s.irq.wil.irqen = false := by
      rw [← hirqen]
      exact hoff
    exact absurd (h.irqen hoff').1 (by simp)

/-- The one interrupt. -/
lemma hardirq (h : MailInv msi3 s) {pseudoCause rx tx : BitVec 32}
    (hexpected : s.Expected (.hardirq pseudoCause rx tx))
    (ht : s.step msi3 (.hardirq pseudoCause rx tx) = some t) : MailInv msi3 t := by
  have hirqen : s.irq.wil.irqen = true := hexpected
  obtain ⟨irq, hirq, rfl⟩ := Option.map_eq_some_iff.mp ht
  obtain ⟨hen, hirq⟩ := Option.ite_none_right_eq_some.mp hirq
  obtain rfl := Option.some.inj hirq
  obtain ⟨rfl, -, -, hmisc⟩ := hen
  have hfree : ¬ s.Blocked false := by simp [MailSys.Blocked, hirqen]
  obtain ⟨hwoken, hholds⟩ := h.free hfree
  have hnot := h.not_fetched hfree
  by_cases hcause : pseudoCause = 0 ∨ pseudoCause &&& 0xff = 0xff
  · -- no interrupt of the device
    rw [wil6210Hardirq_quiet (fun hgo => hgo.1 hcause), MailSys.icrAfter, if_pos hcause]
    exact h.kept (by simp [IrqSys.handled]) rfl ⟨rfl, rfl, rfl, rfl⟩
  rcases hr : wil6210Hardirq pseudoCause rx tx s.icr s.irq.wil with ⟨v, rc⟩
  have hunmasked : ¬ Masked wil6210ImcMisc s.irq.wil.miscImv := by
    intro hm
    rcases h.misc hm with hthread | hthread | ⟨hw | hthread, -⟩
    · exact hholds (by simp [IrqThread.Holds, hthread])
    · exact hholds (by simp [IrqThread.Holds, hthread])
    · exact absurd (hwoken.symm.trans hw) (by simp)
    · exact hholds (by simp [IrqThread.Holds, hthread])
  have hicr : s.icrAfter pseudoCause
      = if pseudoCause &&& bitDmaPseudoCauseMisc ≠ 0 then 0 else s.icr := by
    rw [MailSys.icrAfter, if_neg hcause, if_neg (not_not_intro hirqen)]
  rw [hicr]
  rcases wil6210Hardirq_cases hcause hirqen hmisc hr with
    ⟨hrc, hon, hpseudo, hend⟩ | ⟨rfl, hoff, hp, hne, hmbox⟩
  · have hw' : (s.irq.handled (v, rc)).woken = false := by
      simp [IrqSys.handled, hwoken, hrc]
    refine ⟨fun hmail => ?_, fun hw => absurd (hw'.symm.trans hw) (by simp),
      fun hp => absurd hp hholds, h.three, h.fetch, fun hm => ?_, fun hp => absurd hp hpseudo,
      fun hoff => absurd (hon.symm.trans hoff) (by simp)⟩
    · rcases h.attended hmail with hringing | hset | hfetched
      · exact .inl hringing
      · rcases hend with ⟨hp, -⟩ | ⟨-, -, hzero⟩
        · refine .inr (.inl ?_)
          rw [if_neg (not_not_intro hp)]
          exact hset
        · exact absurd hzero hset
      · exact absurd hfetched hnot
    · rcases hend with ⟨-, hsame⟩ | ⟨-, hnone, -⟩
      · have hm' : Masked wil6210ImcMisc v.miscImv := hm
        rw [hsame] at hm'
        exact absurd hm' hunmasked
      · exact absurd hm hnone
  · have hw' : (s.irq.handled (v, .wakeThread)).woken = true := by
      simp [IrqSys.handled]
    refine ⟨fun hmail => ?_, fun _ => hoff, fun hp => absurd hp hholds, h.three, h.fetch,
      fun _ => .inr (.inr ⟨.inl hw', .inr hne⟩), fun _ => ⟨rfl, .inl hw'⟩, fun _ => ⟨rfl, .inl hw'⟩⟩
    rcases h.attended hmail with hringing | hset | hfetched
    · exact .inl hringing
    · exact .inr (.inr (.inr ⟨.inl hw', hmbox hset⟩))
    · exact absurd hfetched hnot

/-- The thread is on its way out, having set `irqen`: what is masked now has woken it again. -/
lemma leave (h : MailInv msi3 s) (hholds : ¬ s.irq.thread.Holds) {irq : IrqSys}
    (hwoken : irq.woken = s.irq.woken) (hthread : irq.thread = .exit ∨ irq.thread = .idle)
    (hmiscImv : irq.wil.miscImv = s.irq.wil.miscImv) (hisrMisc : irq.wil.isrMisc = s.irq.wil.isrMisc)
    (hirqen : irq.wil.irqen = s.irq.wil.irqen)
    (hpseudo : Masked pseudoCauses irq.wil.pseudoMaskSw → msi3 = false ∧ irq.woken = true) :
    MailInv msi3 { s with irq := irq, fetch := false } := by
  have hout : ∀ x : IrqThread, x.Holds → irq.thread ≠ x := by
    rintro x hx rfl
    rcases hthread with hthread | hthread <;> simp [IrqThread.Holds, hthread] at hx
  have hnot : s.fetch ≠ true := fun hfetch => hholds (.inr (.inl (h.fetch hfetch)))
  have henter : s.irq.thread ≠ .enter := fun henter => hholds (.inl henter)
  refine ⟨fun hmail => ?_, fun hw => ?_, fun hx => absurd rfl (hout _ hx), fun _ => hout _ ?_,
    fun hf => absurd hf (by simp), fun hm => ?_, fun hp => ?_, fun hoff => ?_⟩
  · rcases h.attended hmail with hringing | hicr | hf | ⟨hw | he, hbit⟩
    · exact .inl hringing
    · exact .inr (.inl hicr)
    · exact absurd hf hnot
    · exact .inr (.inr (.inr ⟨.inl (hwoken.trans hw), by rwa [hisrMisc]⟩))
    · exact absurd he henter
  · have hblocked := h.woken (hwoken.symm.trans hw)
    rwa [MailSys.Blocked, hmiscImv, hirqen]
  · exact .inr (.inr (.inr rfl))
  · rcases h.misc (hmiscImv ▸ hm) with hx | hx | ⟨hw | he, hcause⟩
    · exact absurd hx fun hx => hholds (.inr (.inl hx))
    · exact absurd hx fun hx => hholds (.inr (.inr (.inl hx)))
    · exact .inr (.inr ⟨.inl (hwoken.trans hw), hisrMisc ▸ hcause⟩)
    · exact absurd he henter
  · obtain ⟨hone, hw⟩ := hpseudo hp
    exact ⟨hone, .inl hw⟩
  · obtain ⟨hone, hw | hx⟩ := h.irqen (hirqen.symm.trans hoff)
    · exact ⟨hone, .inl (hwoken.trans hw)⟩
    · exact absurd hx hholds

/-- A step of the thread.  What it is woken for, it finds in `isr_misc`, and it empties the mailbox
before it clears that. -/
lemma threadStep (h : MailInv msi3 s) (ht : s.step msi3 .thread = some t) : MailInv msi3 t := by
  simp only [MailSys.step] at ht
  split_ifs at ht with hfetch
  obtain ⟨irq, hirq, rfl⟩ := Option.map_eq_some_iff.mp ht
  have hleave := @h.leave
  obtain ⟨hatt, hwoken, hthread, hthree, -, hmisc, hpseudo, hirqen⟩ := h
  obtain ⟨⟨wil, woken, thread⟩, icr, mail, ringing, fetch⟩ := s
  simp only [IrqSys.step] at hirq
  cases thread with
  | idle =>
      simp only [IrqSys.threadStep] at hirq
      split_ifs at hirq with hw
      obtain rfl := Option.some.inj hirq
      refine ⟨fun hmail => ?_, fun hw' => absurd hw' (by simp), fun _ => ⟨hwoken hw, rfl⟩,
        fun _ => by simp, fun hf => absurd hf (by simp), fun hm => ?_,
        fun hp => ⟨(hpseudo hp).1, .inr (.inl (.inl rfl))⟩,
        fun hoff => ⟨(hirqen hoff).1, .inr (.inl rfl)⟩⟩
      · rcases hatt hmail with hringing | hicr | hf | ⟨-, hbit⟩
        · exact .inl hringing
        · exact .inr (.inl hicr)
        · exact absurd hf hfetch
        · exact .inr (.inr (.inr ⟨.inr rfl, hbit⟩))
      · rcases hmisc hm with hmisc | hunmask | ⟨-, hcause⟩
        · exact absurd hmisc (by simp)
        · exact absurd hunmask (by simp)
        · exact .inr (.inr ⟨.inr rfl, hcause⟩)
  | enter =>
      obtain ⟨hblocked, hsleeps⟩ := hthread (.inl rfl)
      simp only [IrqSys.threadStep] at hirq
      split_ifs at hirq with hcause
      · obtain rfl := Option.some.inj hirq
        refine ⟨fun hmail => ?_, hwoken, fun _ => ⟨hblocked, hsleeps⟩, fun _ => by simp,
          fun _ => rfl, fun _ => .inl rfl,
          fun hp => ⟨(hpseudo hp).1, .inr (.inl (.inr (.inl rfl)))⟩,
          fun hoff => ⟨(hirqen hoff).1, .inr (.inr (.inl rfl))⟩⟩
        rcases hatt hmail with hringing | hicr | hf | ⟨-, hbit⟩
        · exact .inl hringing
        · exact .inr (.inl hicr)
        · exact absurd hf hfetch
        · exact .inr (.inr (.inl (decide_eq_true ⟨rfl, hbit⟩)))
      · -- with one interrupt, and nothing in `isr_misc`
        obtain ⟨hone, hzero⟩ := not_or.mp hcause
        have hisr : wil.isrMisc = 0 := not_not.mp hzero
        obtain rfl := Option.some.inj hirq
        refine ⟨fun hmail => ?_, hwoken, fun _ => ⟨hblocked, hsleeps⟩,
          fun h3 => absurd h3 hone, fun hf => absurd hf (by simp), fun hm => ?_,
          fun hp => ⟨(hpseudo hp).1, .inr (.inl (by simp [IrqThread.Holds]))⟩,
          fun hoff => ⟨(hirqen hoff).1, .inr (by simp [IrqThread.Holds])⟩⟩
        · rcases hatt hmail with hringing | hicr | hf | ⟨-, hbit⟩
          · exact .inl hringing
          · exact .inr (.inl hicr)
          · exact absurd hf hfetch
          · refine absurd ?_ hbit
            rw [hisr]
            exact BitVec.zero_and
        · have hwork := hmisc hm
          simp only [reduceCtorEq, false_or] at hwork
          exact absurd hwork.2 hcause
  | misc =>
      obtain ⟨hblocked, hsleeps⟩ := hthread (.inr (.inl rfl))
      obtain rfl := Option.some.inj hirq
      refine ⟨fun hmail => ?_, hwoken, fun _ => ⟨hblocked, hsleeps⟩, fun _ => by simp,
        fun hf => absurd hf (by simp), fun _ => .inr (.inl rfl),
        fun hp => ⟨(hpseudo hp).1, .inr (.inl (by simp [IrqThread.Holds]))⟩,
        fun hoff => ⟨(hirqen hoff).1, .inr (by simp [IrqThread.Holds])⟩⟩
      rcases hatt hmail with hringing | hicr | hf | ⟨hw | henter, -⟩
      · exact .inl hringing
      · exact .inr (.inl hicr)
      · exact absurd hf hfetch
      · exact absurd (hsleeps.symm.trans hw) (by simp)
      · exact absurd henter (by simp)
  | unmaskMisc =>
      obtain ⟨hblocked, hsleeps⟩ := hthread (.inr (.inr (.inl rfl)))
      obtain rfl := Option.some.inj hirq
      refine ⟨fun hmail => ?_, fun hw => absurd (hsleeps.symm.trans hw) (by simp), fun hholds => ?_,
        fun h3 => by simp [h3], fun hf => absurd hf (by cases msi3 <;> simp),
        fun hm => absurd hm (not_masked_writeImc _ _), fun hp => ?_, fun hoff => ?_⟩
      · rcases hatt hmail with hringing | hicr | hf | ⟨hw | henter, -⟩
        · exact .inl hringing
        · exact .inr (.inl hicr)
        · exact absurd hf hfetch
        · exact absurd (hsleeps.symm.trans hw) (by simp)
        · exact absurd henter (by simp)
      · cases msi3 with
        | true => exact absurd hholds (by simp [IrqThread.Holds])
        | false => exact ⟨hblocked, hsleeps⟩
      · have hone := (hpseudo hp).1
        exact ⟨hone, .inr (.inl (by simp [IrqThread.Holds, hone]))⟩
      · have hone := (hirqen hoff).1
        exact ⟨hone, .inr (by simp [IrqThread.Holds, hone])⟩
  | setIrqen =>
      have hone : msi3 = false := by
        cases msi3 with
        | true => exact absurd rfl (hthree rfl)
        | false => rfl
      subst hone
      obtain ⟨-, hsleeps⟩ := hthread (.inr (.inr (.inr rfl)))
      obtain rfl := Option.some.inj hirq
      refine ⟨fun hmail => ?_, fun hw => absurd (hsleeps.symm.trans hw) (by simp),
        fun hholds => absurd hholds (by simp [IrqThread.Holds]), fun h3 => absurd h3 (by simp),
        fun hf => absurd hf (by simp), fun hm => ?_,
        fun hp => ⟨rfl, .inr (.inr rfl)⟩, fun hoff => absurd hoff (by simp [Wil6210.setIrqen])⟩
      · rcases hatt hmail with hringing | hicr | hf | ⟨hw | henter, -⟩
        · exact .inl hringing
        · exact .inr (.inl hicr)
        · exact absurd hf hfetch
        · exact absurd (hsleeps.symm.trans hw) (by simp)
        · exact absurd henter (by simp)
      · rcases hmisc hm with hmisc | hunmask | ⟨hw | henter, -⟩
        · exact absurd hmisc (by simp)
        · exact absurd hunmask (by simp)
        · exact absurd (hsleeps.symm.trans hw) (by simp)
        · exact absurd henter (by simp)
  | unmaskPseudo =>
      obtain rfl := Option.some.inj hirq
      exact hleave (by simp [IrqThread.Holds]) rfl (.inl rfl) rfl rfl rfl
        fun hp => absurd hp not_masked_pseudoMask
  | exit =>
      obtain rfl := Option.some.inj hirq
      refine hleave (by simp [IrqThread.Holds]) rfl (.inr rfl) rfl rfl rfl fun hp => ?_
      obtain ⟨hone, hw⟩ := hpseudo hp
      simp only [IrqThread.Holds, reduceCtorEq, or_false] at hw
      exact ⟨hone, hw⟩

/-- `wmi_recv_cmd` takes an event, -/
lemma recv (h : MailInv msi3 s) (ht : s.step msi3 .recv = some t) : MailInv msi3 t := by
  obtain ⟨hen, ht⟩ := Option.ite_none_right_eq_some.mp ht
  obtain rfl := Option.some.inj ht
  exact h.card fun _ => .inr (.inr (.inl hen.1))

/-- and returns where there is none left. -/
lemma recvEnd (h : MailInv msi3 s) (hexpected : s.Expected .recvEnd)
    (ht : s.step msi3 .recvEnd = some t) : MailInv msi3 t := by
  obtain ⟨hfetch, ht⟩ := Option.ite_none_right_eq_some.mp ht
  obtain rfl := Option.some.inj ht
  have hempty : s.mail = 0 := hexpected
  exact ⟨fun hmail => absurd hempty (Nat.ne_of_gt hmail), h.woken, h.thread, h.three,
    fun hf => absurd hf (by simp), h.misc, h.pseudo, h.irqen⟩

/-- A step of the handlers that has nothing to do with misc. -/
lemma onIrq (h : MailInv msi3 s) {a : IrqAction} (ht : s.onIrq msi3 a = some t)
    (hstep : ∀ irq, s.irq.step msi3 a = some irq →
      irq.woken = s.irq.woken ∧ irq.thread = s.irq.thread ∧ MiscKept s.irq.wil irq.wil) :
    MailInv msi3 t := by
  obtain ⟨irq, hirq, rfl⟩ := Option.map_eq_some_iff.mp ht
  obtain ⟨hwoken, hthread, hkept⟩ := hstep irq hirq
  exact h.kept hwoken hthread hkept

/-- Every step of the machine keeps the invariant. -/
lemma step (h : MailInv msi3 s) {a : MailAction} (hexpected : s.Expected a)
    (ht : s.step msi3 a = some t) : MailInv msi3 t := by
  cases a with
  | post =>
      obtain rfl := Option.some.inj ht
      exact h.card fun _ => .inl (Nat.succ_pos _)
  | ring =>
      obtain ⟨-, ht⟩ := Option.ite_none_right_eq_some.mp ht
      obtain rfl := Option.some.inj ht
      exact h.card fun _ => .inr (.inl (masked_or_self (by decide)))
  | raise cause =>
      obtain rfl := Option.some.inj ht
      refine h.card fun hmail => ?_
      rcases h.attended hmail with hringing | hicr | hfetched
      · exact .inl hringing
      · exact .inr (.inl (Masked.or hicr))
      · exact .inr (.inr hfetched)
  | hardirq pseudoCause rx tx => exact h.hardirq hexpected ht
  | irqMisc => exact h.irqMisc hexpected ht
  | irqTx isr =>
      refine h.onIrq ht fun irq hirq => ?_
      obtain ⟨-, hirq⟩ := Option.ite_none_right_eq_some.mp hirq
      obtain rfl := Option.some.inj hirq
      exact ⟨by simp [IrqSys.handled, miscKept_irqTx.2], rfl, miscKept_irqTx.1⟩
  | irqRx isr =>
      refine h.onIrq ht fun irq hirq => ?_
      obtain ⟨-, hirq⟩ := Option.ite_none_right_eq_some.mp hirq
      obtain rfl := Option.some.inj hirq
      exact ⟨by simp [IrqSys.handled, miscKept_irqRx.2], rfl, miscKept_irqRx.1⟩
  | thread => exact h.threadStep ht
  | pollRx p =>
      refine h.onIrq ht fun irq hirq => ?_
      obtain ⟨r, -, rfl⟩ := Option.map_eq_some_iff.mp hirq
      exact ⟨rfl, rfl, rfl, rfl, rfl, rfl⟩
  | pollTx p =>
      refine h.onIrq ht fun irq hirq => ?_
      obtain ⟨r, -, rfl⟩ := Option.map_eq_some_iff.mp hirq
      exact ⟨rfl, rfl, rfl, rfl, rfl, rfl⟩
  | recv => exact h.recv ht
  | recvEnd => exact h.recvEnd hexpected ht

/-- With the thread asleep, the misc interrupt is free to come. -/
lemma unmasked (h : MailInv msi3 s) (hidle : s.irq.thread = .idle) (hwoken : s.irq.woken = false) :
    ¬ Masked wil6210ImcMisc s.irq.wil.miscImv ∧ ¬ Masked pseudoCauses s.irq.wil.pseudoMaskSw ∧
      s.irq.wil.irqen = true := by
  have hno : ¬ (s.irq.woken = true ∨ s.irq.thread.Holds) := by
    simp [IrqThread.Holds, hidle, hwoken]
  refine ⟨fun hm => ?_, fun hp => ?_, ?_⟩
  · have hwork := h.misc hm
    simp [hidle, hwoken] at hwork
  · have hwork := (h.pseudo hp).2
    simp [IrqThread.Holds, hidle, hwoken] at hwork
  · by_contra hoff
    exact hno (h.irqen (by simpa using hoff)).2

end MailInv

/-! ## Every run -/

/-- **No event stays behind in the mailbox.**  In every run from an idle driver in which no handler
is called where its interrupt is masked, and `wmi_recv_cmd` returns where the mailbox is empty: an
event in the mailbox has its cause set or still to be set, or the thread on its way to it.  So with
the thread asleep its cause is set, and the interrupt is not masked. -/
theorem mailAttended_run (w : WilIrq) {as : List MailAction}
    (h : Machine.Exec (MailSys.step msi3) MailSys.Expected (.init w) as s) :
    s.Attended ∧
      (s.irq.thread = .idle → s.irq.woken = false → s.ringing = 0 → 0 < s.mail →
        s.icr &&& isrMiscMboxEvt ≠ 0 ∧ ¬ Masked wil6210ImcMisc s.irq.wil.miscImv ∧
          ¬ Masked pseudoCauses s.irq.wil.pseudoMaskSw ∧ s.irq.wil.irqen = true) := by
  have hinv : MailInv msi3 s :=
    h.invariant (fun _ _ _ hexpected ht hi => hi.step hexpected ht) (mailInv_init msi3 w)
  refine ⟨hinv.attended, fun hidle hwoken hringing hmail => ⟨?_, hinv.unmasked hidle hwoken⟩⟩
  rcases hinv.attended hmail with hring | hicr | hfetch | ⟨hw | henter, -⟩
  · exact absurd hringing (Nat.ne_of_gt hring)
  · exact hicr
  · exact absurd ((hinv.fetch hfetch).symm.trans hidle) (by simp)
  · exact absurd (hwoken.symm.trans hw) (by simp)
  · exact absurd (henter.symm.trans hidle) (by simp)

/-- Nothing is masked, and nothing was read. -/
def blankIrq : WilIrq := ⟨0, 0, 0, 0, false, true, true, 0, ⟨false, false, 0⟩, ⟨false, false, 0⟩⟩

/-- The second event comes where the thread has emptied the mailbox and did not unmask misc yet. -/
theorem mailAttended_run_behind : ∃ s : MailSys, s.Attended ∧ s.mail = 1 ∧ s.irq.thread = .idle ∧
    s.icr &&& isrMiscMboxEvt ≠ 0 := by
  have hrun : (Machine.exec (MailSys.step false) MailSys.Expected (.init blankIrq)
      [.post, .ring, .hardirq bitDmaPseudoCauseMisc 0 0, .thread, .thread, .recv, .recvEnd, .post,
        .ring, .thread, .thread, .thread, .thread, .thread]).map
        (fun s => (s.mail, s.irq.thread, s.irq.woken, s.ringing))
      = some (1, .idle, false, 0) := by
    decide +kernel
  obtain ⟨s, hs, hend⟩ := Option.map_eq_some_iff.mp hrun
  simp only [Prod.mk.injEq] at hend
  obtain ⟨hmail, hidle, hwoken, hringing⟩ := hend
  obtain ⟨hattended, hrest⟩ := mailAttended_run blankIrq (.of_exec hs)
  exact ⟨s, hattended, hmail, hidle, (hrest hidle hwoken hringing (by simp [hmail])).1⟩

/-- Of three interrupts, the misc one comes once more where it is masked, with an error of the
firmware: the thread finds no `ISR_MISC_MBOX_EVT` in `isr_misc`, and no cause is left for the event
in the mailbox. -/
theorem not_mailAttended_run : ¬ ∀ (as : List MailAction) (s : MailSys),
    Machine.Exec (MailSys.step true) (fun _ _ => True) (.init blankIrq) as s → s.Attended := by
  intro h
  have hrun : (Machine.exec (MailSys.step true) (fun _ _ => True) (.init blankIrq)
      [.post, .ring, .irqMisc, .raise isrMiscFwError, .irqMisc, .thread, .thread, .thread, .thread,
        .thread]).map
        (fun s => (s.mail, s.ringing, s.icr, s.fetch, s.irq.woken, s.irq.thread))
      = some (1, 0, 0, false, false, .idle) := by
    decide +kernel
  obtain ⟨s, hs, hend⟩ := Option.map_eq_some_iff.mp hrun
  simp only [Prod.mk.injEq] at hend
  obtain ⟨hmail, hringing, hicr, hfetch, hwoken, hthread⟩ := hend
  have hattended := h _ s (.of_exec hs) (by simp [hmail])
  simp [MailSys.Fetched, hringing, hicr, hfetch, hwoken, hthread] at hattended

end Wil6210
