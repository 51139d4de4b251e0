import Wil6210.Lib.Machine

/-!
# Interrupts

The card has three interrupt sources with a mask register each, and a pseudo cause over them with a
mask of its own.  A hard handler masks its source; who unmasks it again is another matter: for Rx
and Tx the NAPI poll, for misc the threaded handler, for the pseudo cause the hard handler itself
or, where that asked for the thread, the thread.

A hard handler is one step here.  The thread and the polls take a step for each access that a hard
handler can see, so that an interrupt may fall between any two of them, and it may fall there with
its source masked as well: the source speaks of a bug in the hardware that does this.

`irqAttended_run` says that every masked source has somebody to unmask it, as long as no Tx
interrupt comes without `TX_DONE` while no Tx poll is under way.  The driver unmasks a second Tx
bit, and for an interrupt with that bit alone it masks Tx and schedules nothing.
-/

namespace Wil6210

/-! ## Registers -/

/-- `WIL6210_IRQ_DISABLE` -/
def wil6210IrqDisable : BitVec 32 := 0xFFFFFFFF

/-- `BIT_DMA_EP_RX_ICR_RX_DONE` -/
def bitDmaEpRxIcrRxDone : BitVec 32 := 1 <<< 0

/-- `BIT_DMA_EP_TX_ICR_TX_DONE` -/
def bitDmaEpTxIcrTxDone : BitVec 32 := 1 <<< 0

/-- `BIT_DMA_EP_TX_ICR_TX_DONE_N(n)` -/
def bitDmaEpTxIcrTxDoneN (n : ℕ) : BitVec 32 := 1 <<< (n + 1)

/-- `BIT_DMA_EP_MISC_ICR_FW_INT(n)` -/
def bitDmaEpMiscIcrFwInt (n : ℕ) : BitVec 32 := 1 <<< (28 + n)

def isrMiscFwReady : BitVec 32 := bitDmaEpMiscIcrFwInt 0

def isrMiscMboxEvt : BitVec 32 := bitDmaEpMiscIcrFwInt 1

def isrMiscFwError : BitVec 32 := bitDmaEpMiscIcrFwInt 3

/-- `WIL6210_IMC_RX` -/
def wil6210ImcRx : BitVec 32 := bitDmaEpRxIcrRxDone

/-- `WIL6210_IMC_TX` -/
def wil6210ImcTx : BitVec 32 := bitDmaEpTxIcrTxDone ||| bitDmaEpTxIcrTxDoneN 0

/-- `WIL6210_IMC_MISC` -/
def wil6210ImcMisc : BitVec 32 := isrMiscFwReady ||| isrMiscMboxEvt ||| isrMiscFwError

def bitDmaPseudoCauseRx : BitVec 32 := 1 <<< 0

def bitDmaPseudoCauseTx : BitVec 32 := 1 <<< 1

def bitDmaPseudoCauseMisc : BitVec 32 := 1 <<< 2

/-- The three bits of the pseudo cause. -/
def pseudoCauses : BitVec 32 := bitDmaPseudoCauseRx ||| bitDmaPseudoCauseTx ||| bitDmaPseudoCauseMisc

/-- `WIL6210_IRQ_PSEUDO_MASK` -/
def wil6210IrqPseudoMask : BitVec 32 := ~~~ pseudoCauses

/-- A write to `IMS` sets bits of the mask. -/
def writeIms (v imv : BitVec 32) : BitVec 32 := imv ||| v

/-- A write to `IMC` clears bits of the mask. -/
def writeImc (v imv : BitVec 32) : BitVec 32 := imv &&& ~~~ v

/-- One of the interrupts `irqs` is masked. -/
def Masked (irqs imv : BitVec 32) : Prop := imv &&& irqs ≠ 0

instance (irqs imv : BitVec 32) : Decidable (Masked irqs imv) :=
  inferInstanceAs (Decidable (_ ≠ _))

lemma not_masked_writeImc (v imv : BitVec 32) : ¬ Masked v (writeImc v imv) := by
  have hnone : ~~~ v &&& v = 0 := by
    ext i
    simp
  rw [Masked, writeImc, not_ne_iff, BitVec.and_assoc, hnone]
  exact BitVec.and_zero

lemma masked_writeIms_disable {irqs : BitVec 32} (h : irqs ≠ 0) (imv : BitVec 32) :
    Masked irqs (writeIms wil6210IrqDisable imv) := by
  have hones : imv ||| wil6210IrqDisable = BitVec.allOnes 32 := BitVec.or_allOnes
  rwa [Masked, writeIms, hones, BitVec.allOnes_and]

lemma not_masked_pseudoMask : ¬ Masked pseudoCauses wil6210IrqPseudoMask := by
  decide

/-! ## NAPI -/

/-- A NAPI context. -/
structure Napi where
  /-- `NAPI_STATE_SCHED` -/
  sched : Bool
  /-- the poll function is running and did not complete -/
  polling : Bool
  /-- poll functions that called `napi_complete` and are still to unmask the source; a second one
  may start while the first is on its way -/
  completing : ℕ
deriving DecidableEq, Repr

/-- `napi_schedule` -/
def Napi.schedule (n : Napi) : Napi := { n with sched := true }

/-- The poll is scheduled or running. -/
def Napi.Active (n : Napi) : Prop := n.sched = true ∨ n.polling = true ∨ 0 < n.completing

instance (n : Napi) : Decidable n.Active := inferInstanceAs (Decidable (_ ∨ _ ∨ _))

/-- The steps of a poll: it starts where the context is scheduled; it has handled `done` packets;
having completed, it unmasks the source and returns. -/
inductive PollStep
  | start
  | finish (done : ℕ)
  | unmask

/-- A poll function and the mask `imv` of its source, whose interrupts are `imc`: `napi_complete`
and the unmasking behind it only where at most one packet was handled. -/
def pollStep (imc imv : BitVec 32) (n : Napi) : PollStep → Option (BitVec 32 × Napi)
  | .start => if n.sched ∧ ¬ n.polling then some (imv, { n with polling := true }) else none
  | .finish done =>
      if n.polling then
        if done ≤ 1 then
          some (imv, { sched := false, polling := false, completing := n.completing + 1 })
        else some (imv, { n with polling := false })
      else none
  | .unmask =>
      if 0 < n.completing then
        some (writeImc imc imv, { n with completing := n.completing - 1 })
      else none

/-! ## The handlers -/

/-- `irqreturn_t` -/
inductive IrqReturn
  | none
  | handled
  | wakeThread
deriving DecidableEq, Repr

/-- What the handlers read and write: the mask registers and the fields of `wil6210_priv`. -/
structure WilIrq where
  rxImv : BitVec 32
  txImv : BitVec 32
  miscImv : BitVec 32
  /-- `DMA_PSEUDO_CAUSE_MASK_SW` -/
  pseudoMaskSw : BitVec 32
  /-- `wil_status_irqen` -/
  irqen : Bool
  /-- `wil_status_fwready` -/
  fwready : Bool
  /-- `wil_status_reset_done` -/
  resetDone : Bool
  /-- `isr_misc` -/
  isrMisc : BitVec 32
  napiRx : Napi
  napiTx : Napi

def wil6210MaskIrqTx (w : WilIrq) : WilIrq :=
  { w with txImv := writeIms wil6210IrqDisable w.txImv }

def wil6210MaskIrqRx (w : WilIrq) : WilIrq :=
  { w with rxImv := writeIms wil6210IrqDisable w.rxImv }

def wil6210MaskIrqMisc (w : WilIrq) : WilIrq :=
  { w with miscImv := writeIms wil6210IrqDisable w.miscImv }

def wil6210MaskIrqPseudo (w : WilIrq) : WilIrq :=
  { w with pseudoMaskSw := wil6210IrqDisable, irqen := false }

def wil6210UnmaskIrqTx (w : WilIrq) : WilIrq :=
  { w with txImv := writeImc wil6210ImcTx w.txImv }

def wil6210UnmaskIrqRx (w : WilIrq) : WilIrq :=
  { w with rxImv := writeImc wil6210ImcRx w.rxImv }

def wil6210UnmaskIrqMisc (w : WilIrq) : WilIrq :=
  { w with miscImv := writeImc wil6210ImcMisc w.miscImv }

/-- The `set_bit` of `wil6210_unmask_irq_pseudo`. -/
def setIrqen (w : WilIrq) : WilIrq := { w with irqen := true }

/-- The register write of `wil6210_unmask_irq_pseudo`. -/
def writePseudoMask (w : WilIrq) : WilIrq := { w with pseudoMaskSw := wil6210IrqPseudoMask }

def wil6210UnmaskIrqPseudo (w : WilIrq) : WilIrq := writePseudoMask (setIrqen w)

/-- `wil6210_enable_irq` -/
def wil6210EnableIrq (w : WilIrq) : WilIrq :=
  wil6210UnmaskIrqMisc (wil6210UnmaskIrqRx (wil6210UnmaskIrqTx (wil6210UnmaskIrqPseudo w)))

/-- `wil6210_irq_rx`, having read the cause `isr`. -/
def wil6210IrqRx (isr : BitVec 32) (w : WilIrq) : WilIrq × IrqReturn :=
  if isr = 0 then (w, .none)
  else
    let w := wil6210MaskIrqRx w
    if isr &&& bitDmaEpRxIcrRxDone ≠ 0 then
      ({ w with napiRx := w.napiRx.schedule }, .handled)
    else (w, .handled)

/-- `wil6210_irq_tx`, having read the cause `isr`. -/
def wil6210IrqTx (isr : BitVec 32) (w : WilIrq) : WilIrq × IrqReturn :=
  if isr = 0 then (w, .none)
  else
    let w := wil6210MaskIrqTx w
    if isr &&& bitDmaEpTxIcrTxDone ≠ 0 then
      ({ w with napiTx := w.napiTx.schedule }, .handled)
    else (w, .handled)

/-- `wil6210_irq_misc`, having read the cause `isr`. -/
def wil6210IrqMisc (isr : BitVec 32) (w : WilIrq) : WilIrq × IrqReturn :=
  if isr = 0 then (w, .none)
  else
    let w := wil6210MaskIrqMisc w
    let w := { w with fwready := if isr &&& isrMiscFwError ≠ 0 then false else w.fwready }
    let w := { w with resetDone := if isr &&& isrMiscFwReady ≠ 0 then true else w.resetDone }
    let isr := if isr &&& isrMiscFwReady ≠ 0 then isr &&& ~~~ isrMiscFwReady else isr
    let w := { w with isrMisc := isr }
    if isr ≠ 0 then (w, .wakeThread) else (wil6210UnmaskIrqMisc w, .handled)

/-- `wil6210_hardirq`, having read the cause `pseudoCause`; `rx`, `tx` and `misc` are what the three
handlers read, where they are called.  `wil6210_debug_irq_mask` refuses where `irqen` is clear. -/
def wil6210Hardirq (pseudoCause rx tx misc : BitVec 32) (w : WilIrq) : WilIrq × IrqReturn :=
  if pseudoCause = 0 ∨ pseudoCause &&& 0xff = 0xff then (w, .none)
  else if ¬ w.irqen then (w, .none)
  else
    let w := wil6210MaskIrqPseudo w
    let r := if pseudoCause &&& bitDmaPseudoCauseRx ≠ 0 then wil6210IrqRx rx w else (w, .handled)
    let t := if pseudoCause &&& bitDmaPseudoCauseTx ≠ 0 then wil6210IrqTx tx r.1
      else (r.1, .handled)
    let m := if pseudoCause &&& bitDmaPseudoCauseMisc ≠ 0 then wil6210IrqMisc misc t.1
      else (t.1, .handled)
    if r.2 = .wakeThread ∨ t.2 = .wakeThread ∨ m.2 = .wakeThread then (m.1, .wakeThread)
    else (wil6210UnmaskIrqPseudo m.1, .handled)

/-! ## The machine -/

/-- Where the threaded handler is: about to read `isr_misc`, in the body of
`wil6210_irq_misc_thread`, about to unmask misc, about to set `irqen`, about to unmask the pseudo
cause, about to return. -/
inductive IrqThread
  | idle
  | enter
  | misc
  | unmaskMisc
  | setIrqen
  | unmaskPseudo
  | exit
deriving DecidableEq, Repr

/-- The driver with its threaded handler; `woken` where a hard handler asked for it. -/
structure IrqSys where
  wil : WilIrq
  woken : Bool
  thread : IrqThread

inductive IrqAction
  | hardirq (pseudoCause rx tx misc : BitVec 32)
  | irqTx (isr : BitVec 32)
  | irqRx (isr : BitVec 32)
  | irqMisc (isr : BitVec 32)
  | thread
  | pollRx (p : PollStep)
  | pollTx (p : PollStep)

/-- A hard handler returned to the kernel. -/
def IrqSys.handled (s : IrqSys) (r : WilIrq × IrqReturn) : IrqSys :=
  { s with wil := r.1, woken := s.woken ∨ r.2 = .wakeThread }

/-- The next step of the thread: `wil6210_irq_misc_thread` with three interrupts,
`wil6210_thread_irq` with one. -/
def IrqSys.threadStep (msi3 : Bool) (s : IrqSys) : Option IrqSys :=
  match s.thread with
  | .idle => if s.woken then some { s with woken := false, thread := .enter } else none
  | .enter =>
      if msi3 ∨ s.wil.isrMisc ≠ 0 then some { s with thread := .misc }
      else some { s with thread := .setIrqen }
  | .misc => some { s with wil := { s.wil with isrMisc := 0 }, thread := .unmaskMisc }
  | .unmaskMisc => some { s with
      wil := wil6210UnmaskIrqMisc s.wil
      thread := if msi3 then .exit else .setIrqen }
  | .setIrqen => some { s with wil := setIrqen s.wil, thread := .unmaskPseudo }
  | .unmaskPseudo => some { s with wil := writePseudoMask s.wil, thread := .exit }
  | .exit => some { s with thread := .idle }

/-- One step, with three interrupts or with one.  An interrupt has a bit that the driver unmasks in
every cause that is read. -/
def IrqSys.step (msi3 : Bool) (s : IrqSys) : IrqAction → Option IrqSys
  | .hardirq pseudoCause rx tx misc =>
      if msi3 = false ∧
          (pseudoCause &&& bitDmaPseudoCauseRx ≠ 0 → rx &&& wil6210ImcRx ≠ 0) ∧
          (pseudoCause &&& bitDmaPseudoCauseTx ≠ 0 → tx &&& wil6210ImcTx ≠ 0) ∧
          (pseudoCause &&& bitDmaPseudoCauseMisc ≠ 0 → misc &&& wil6210ImcMisc ≠ 0) then
        some (s.handled (wil6210Hardirq pseudoCause rx tx misc s.wil))
      else none
  | .irqTx isr =>
      if msi3 = true ∧ isr &&& wil6210ImcTx ≠ 0 then some (s.handled (wil6210IrqTx isr s.wil))
      else none
  | .irqRx isr =>
      if msi3 = true ∧ isr &&& wil6210ImcRx ≠ 0 then some (s.handled (wil6210IrqRx isr s.wil))
      else none
  | .irqMisc isr =>
      if msi3 = true ∧ isr &&& wil6210ImcMisc ≠ 0 then some (s.handled (wil6210IrqMisc isr s.wil))
      else none
  | .thread => s.threadStep msi3
  | .pollRx p => (pollStep wil6210ImcRx s.wil.rxImv s.wil.napiRx p).map fun r =>
      { s with wil := { s.wil with rxImv := r.1, napiRx := r.2 } }
  | .pollTx p => (pollStep wil6210ImcTx s.wil.txImv s.wil.napiTx p).map fun r =>
      { s with wil := { s.wil with txImv := r.1, napiTx := r.2 } }

/-- `wil6210_enable_irq` was called, and nothing is under way. -/
def IrqSys.init (w : WilIrq) : IrqSys :=
  ⟨wil6210EnableIrq { w with
      isrMisc := 0, napiRx := ⟨false, false, 0⟩, napiTx := ⟨false, false, 0⟩ },
    false, .idle⟩

/-- **Every masked source has somebody to unmask it.** -/
structure IrqAttended (s : IrqSys) : Prop where
  rx : Masked wil6210ImcRx s.wil.rxImv → s.wil.napiRx.Active
  tx : Masked wil6210ImcTx s.wil.txImv → s.wil.napiTx.Active
  misc : Masked wil6210ImcMisc s.wil.miscImv → s.woken = true ∨ s.thread ≠ .idle
  pseudo : Masked pseudoCauses s.wil.pseudoMaskSw → s.woken = true ∨ s.thread ≠ .idle

/-- The cause that `wil6210_irq_tx` reads in the step `a`, where it is called. -/
def IrqSys.txCause (s : IrqSys) : IrqAction → Option (BitVec 32)
  | .hardirq pseudoCause _ tx _ =>
      if pseudoCause &&& 0xff ≠ 0xff ∧ s.wil.irqen ∧ pseudoCause &&& bitDmaPseudoCauseTx ≠ 0 then
        some tx
      else none
  | .irqTx isr => some isr
  | _ => none

/-- **When Tx stays attended**: the cause says `TX_DONE`, or a Tx poll is under way. -/
def TxDonePolled (s : IrqSys) (a : IrqAction) : Prop :=
  ∀ isr ∈ s.txCause a, isr &&& bitDmaEpTxIcrTxDone ≠ 0 ∨ s.wil.napiTx.Active

instance (s : IrqSys) (a : IrqAction) : Decidable (TxDonePolled s a) :=
  decidable_of_iff ((s.txCause a).all fun isr =>
      decide (isr &&& bitDmaEpTxIcrTxDone ≠ 0 ∨ s.wil.napiTx.Active)) <| by
    simp only [Option.all_eq_true, decide_eq_true_iff, TxDonePolled, Option.mem_def]

/-! ## A source and its poll -/

/-- A masked source is attended, and a poll runs on a scheduled context. -/
structure SourceInv (imc imv : BitVec 32) (n : Napi) : Prop where
  attended : Masked imc imv → n.Active
  sched : n.polling = true → n.sched = true

section Source

variable {imc imv : BitVec 32} {n : Napi}

lemma SourceInv.of_schedule : SourceInv imc imv n.schedule :=
  ⟨fun _ => Or.inl rfl, fun _ => rfl⟩

/-- A poll that completes goes on to unmask the source. -/
lemma SourceInv.pollStep (h : SourceInv imc imv n) {p : PollStep} {r : BitVec 32 × Napi}
    (hr : pollStep imc imv n p = some r) : SourceInv imc r.1 r.2 := by
  cases p with
  | start =>
      simp only [Wil6210.pollStep] at hr
      split_ifs at hr with hsched
      obtain rfl := Option.some.inj hr
      exact ⟨fun _ => Or.inl hsched.1, fun _ => hsched.1⟩
  | finish done =>
      simp only [Wil6210.pollStep] at hr
      split_ifs at hr with hpolling hdone
      · obtain rfl := Option.some.inj hr
        exact ⟨fun _ => Or.inr (Or.inr (Nat.succ_pos _)), fun hp => hp⟩
      · obtain rfl := Option.some.inj hr
        exact ⟨fun _ => Or.inl (h.sched hpolling), fun hp => absurd hp (by simp)⟩
  | unmask =>
      simp only [Wil6210.pollStep] at hr
      split_ifs at hr
      obtain rfl := Option.some.inj hr
      exact ⟨fun hm => absurd hm (not_masked_writeImc imc imv), h.sched⟩

end Source

/-! ## What a hard handler does -/

variable {w : WilIrq}

/-- `wil6210_irq_rx`, called where `p` holds, touches Rx alone and leaves it attended: the one bit
that the driver unmasks is the one that schedules the poll. -/
lemma wil6210IrqRx_spec (p : Prop) [Decidable p] {isr : BitVec 32}
    (hisr : p → isr &&& wil6210ImcRx ≠ 0) (h : SourceInv wil6210ImcRx w.rxImv w.napiRx) :
    ∃ imv n rc, (if p then wil6210IrqRx isr w else (w, .handled))
        = ({ w with rxImv := imv, napiRx := n }, rc) ∧
      rc ≠ .wakeThread ∧ SourceInv wil6210ImcRx imv n := by
  split_ifs with hp
  · have hdone : isr &&& bitDmaEpRxIcrRxDone ≠ 0 := hisr hp
    have hne : isr ≠ 0 := by
      rintro rfl
      exact hdone BitVec.zero_and
    rw [wil6210IrqRx, if_neg hne, if_pos hdone]
    exact ⟨_, _, _, rfl, by simp, .of_schedule⟩
  · exact ⟨_, _, _, rfl, by simp, h⟩

/-- `wil6210_irq_tx`, called where `p` holds, touches Tx alone; it leaves Tx attended where the
cause says `TX_DONE` or a poll was under way. -/
lemma wil6210IrqTx_spec (p : Prop) [Decidable p] {isr : BitVec 32}
    (hisr : p → isr &&& wil6210ImcTx ≠ 0) (h : SourceInv wil6210ImcTx w.txImv w.napiTx) :
    ∃ imv n rc, (if p then wil6210IrqTx isr w else (w, .handled))
        = ({ w with txImv := imv, napiTx := n }, rc) ∧
      rc ≠ .wakeThread ∧ (n.polling = true → n.sched = true) ∧
      ((Masked wil6210ImcTx imv → n.Active) ↔
        (p → isr &&& bitDmaEpTxIcrTxDone ≠ 0 ∨ w.napiTx.Active)) := by
  split_ifs with hp
  · have hne : isr ≠ 0 := by
      rintro rfl
      exact hisr hp BitVec.zero_and
    have hmasked : Masked wil6210ImcTx (writeIms wil6210IrqDisable w.txImv) :=
      masked_writeIms_disable (by decide) w.txImv
    rw [wil6210IrqTx, if_neg hne]
    split_ifs with hdone
    · exact ⟨_, _, _, rfl, by simp, fun _ => rfl, fun _ _ => Or.inl hdone, fun _ _ => Or.inl rfl⟩
    · refine ⟨_, _, _, rfl, by simp, h.sched, fun hact _ => Or.inr (hact hmasked), fun hact _ => ?_⟩
      exact (hact hp).resolve_left hdone
  · exact ⟨_, _, _, rfl, by simp, h.sched, fun _ hp' => absurd hp' hp, fun _ => h.attended⟩

/-- `wil6210_irq_misc`, called where `p` holds, touches misc alone; if it leaves misc masked then it
asks for the thread, and tells it the cause. -/
lemma wil6210IrqMisc_spec (p : Prop) [Decidable p] {isr : BitVec 32}
    (hisr : p → isr &&& wil6210ImcMisc ≠ 0) (w : WilIrq) :
    ∃ imv cause fwready resetDone rc, (if p then wil6210IrqMisc isr w else (w, .handled))
        = ({ w with
            miscImv := imv, isrMisc := cause, fwready := fwready, resetDone := resetDone }, rc) ∧
      (Masked wil6210ImcMisc imv → rc = .wakeThread ∧ cause ≠ 0 ∨
        ¬ p ∧ Masked wil6210ImcMisc w.miscImv ∧ cause = w.isrMisc) := by
  split_ifs with hp
  · have hne : isr ≠ 0 := by
      rintro rfl
      exact hisr hp BitVec.zero_and
    rw [wil6210IrqMisc, if_neg hne]
    dsimp only
    generalize (if isr &&& isrMiscFwReady ≠ 0 then isr &&& ~~~ isrMiscFwReady else isr) = cause
    by_cases hcause : cause = 0
    · rw [if_neg (not_ne_iff.mpr hcause)]
      exact ⟨_, _, _, _, _, rfl, fun hm => absurd hm (not_masked_writeImc _ _)⟩
    · rw [if_pos hcause]
      exact ⟨_, _, _, _, _, rfl, fun _ => Or.inl ⟨rfl, hcause⟩⟩
  · exact ⟨_, _, _, _, _, rfl, fun hm => Or.inr ⟨hp, hm, rfl⟩⟩

/-- `wil6210_hardirq`, where it does not refuse and misc is unmasked: what it leaves masked, it asks
the thread for. -/
lemma wil6210Hardirq_spec {pseudoCause rx tx misc : BitVec 32}
    (hcause : ¬ (pseudoCause = 0 ∨ pseudoCause &&& 0xff = 0xff)) (hirqen : w.irqen = true)
    (hrx : pseudoCause &&& bitDmaPseudoCauseRx ≠ 0 → rx &&& wil6210ImcRx ≠ 0)
    (htx : pseudoCause &&& bitDmaPseudoCauseTx ≠ 0 → tx &&& wil6210ImcTx ≠ 0)
    (hmisc : pseudoCause &&& bitDmaPseudoCauseMisc ≠ 0 → misc &&& wil6210ImcMisc ≠ 0)
    (hr : SourceInv wil6210ImcRx w.rxImv w.napiRx) (ht : SourceInv wil6210ImcTx w.txImv w.napiTx)
    (hm : ¬ Masked wil6210ImcMisc w.miscImv) :
    ∃ v rc, wil6210Hardirq pseudoCause rx tx misc w = (v, rc) ∧
      SourceInv wil6210ImcRx v.rxImv v.napiRx ∧
      (v.napiTx.polling = true → v.napiTx.sched = true) ∧
      ((Masked wil6210ImcTx v.txImv → v.napiTx.Active) ↔
        (pseudoCause &&& bitDmaPseudoCauseTx ≠ 0 →
          tx &&& bitDmaEpTxIcrTxDone ≠ 0 ∨ w.napiTx.Active)) ∧
      (Masked wil6210ImcMisc v.miscImv → rc = .wakeThread ∧ v.isrMisc ≠ 0) ∧
      (Masked pseudoCauses v.pseudoMaskSw → rc = .wakeThread) ∧
      (rc = .wakeThread → v.irqen = false) := by
  rw [wil6210Hardirq, if_neg hcause, if_neg (by simp [hirqen])]
  dsimp only
  obtain ⟨rxImv, napiRx, rcRx, heqRx, hwakeRx, hinvRx⟩ := wil6210IrqRx_spec
    (pseudoCause &&& bitDmaPseudoCauseRx ≠ 0) hrx (w := wil6210MaskIrqPseudo w) hr
  rw [heqRx]
  obtain ⟨txImv, napiTx, rcTx, heqTx, hwakeTx, hschedTx, hinvTx⟩ := wil6210IrqTx_spec
    (pseudoCause &&& bitDmaPseudoCauseTx ≠ 0) htx
    (w := { wil6210MaskIrqPseudo w with rxImv := rxImv, napiRx := napiRx }) ht
  rw [heqTx]
  obtain ⟨miscImv, cause, fwready, resetDone, rcMisc, heqMisc, hinvMisc⟩ := wil6210IrqMisc_spec
    (pseudoCause &&& bitDmaPseudoCauseMisc ≠ 0) hmisc
    { wil6210MaskIrqPseudo w with
      rxImv := rxImv, napiRx := napiRx, txImv := txImv, napiTx := napiTx }
  rw [heqMisc]
  have hleft : Masked wil6210ImcMisc miscImv → rcMisc = .wakeThread ∧ cause ≠ 0 := by
    intro hmasked
    exact (hinvMisc hmasked).resolve_right fun hsame => hm hsame.2.1
  by_cases hwake : rcMisc = .wakeThread
  · rw [if_pos (Or.inr (Or.inr hwake))]
    exact ⟨_, _, rfl, hinvRx, hschedTx, hinvTx, fun h => ⟨rfl, (hleft h).2⟩, fun _ => rfl,
      fun _ => rfl⟩
  · rw [if_neg (by simp [hwakeRx, hwakeTx, hwake])]
    refine ⟨_, _, rfl, hinvRx, hschedTx, hinvTx, fun h => absurd (hleft h).1 hwake, fun h => ?_,
      fun h => by simp at h⟩
    exact absurd h not_masked_pseudoMask

/-! ## Every step -/

/-- The thread was entered and did not set `irqen` yet. -/
def IrqThread.Holds (t : IrqThread) : Prop :=
  t = .enter ∨ t = .misc ∨ t = .unmaskMisc ∨ t = .setIrqen

/-- Between two steps: if misc is masked then the thread is to unmask it, and with one interrupt
the cause it goes by is there.  With three interrupts nobody masks the pseudo cause; with one, it is
the thread that unmasks it, and until `irqen` is set no hard handler gets through. -/
structure IrqInv (msi3 : Bool) (s : IrqSys) : Prop where
  rx : SourceInv wil6210ImcRx s.wil.rxImv s.wil.napiRx
  tx : SourceInv wil6210ImcTx s.wil.txImv s.wil.napiTx
  misc : Masked wil6210ImcMisc s.wil.miscImv → s.thread = .misc ∨ s.thread = .unmaskMisc ∨
    ((s.woken = true ∨ s.thread = .enter) ∧ (msi3 = true ∨ s.wil.isrMisc ≠ 0))
  pseudo : Masked pseudoCauses s.wil.pseudoMaskSw →
    msi3 = false ∧ (s.woken = true ∨ s.thread.Holds ∨ s.thread = .unmaskPseudo)
  irqen : msi3 = false → s.woken = true ∨ s.thread.Holds → s.wil.irqen = false
  asleep : msi3 = false → s.thread.Holds → s.woken = false

variable {msi3 : Bool} {s t : IrqSys}

lemma IrqInv.attended (h : IrqInv msi3 s) : IrqAttended s := by
  refine ⟨h.rx.attended, h.tx.attended, fun hm => ?_, fun hp => ?_⟩
  · rcases h.misc hm with hthread | hthread | ⟨hwoken | hthread, -⟩
    · exact Or.inr (by simp [hthread])
    · exact Or.inr (by simp [hthread])
    · exact Or.inl hwoken
    · exact Or.inr (by simp [hthread])
  · rcases (h.pseudo hp).2 with hwoken | hthread | hthread
    · exact Or.inl hwoken
    · rcases hthread with hthread | hthread | hthread | hthread <;> exact Or.inr (by simp [hthread])
    · exact Or.inr (by simp [hthread])

/-- A masked misc cause that the thread is not at has woken the thread. -/
lemma IrqInv.misc_woken (h : IrqInv msi3 s) (hmisc : s.thread ≠ .misc)
    (hunmask : s.thread ≠ .unmaskMisc) (henter : s.thread ≠ .enter)
    (hm : Masked wil6210ImcMisc s.wil.miscImv) :
    s.woken = true ∧ (msi3 = true ∨ s.wil.isrMisc ≠ 0) := by
  rcases h.misc hm with hthread | hthread | ⟨hwoken | hthread, hcause⟩
  · exact absurd hthread hmisc
  · exact absurd hthread hunmask
  · exact ⟨hwoken, hcause⟩
  · exact absurd hthread henter

/-- A step of the thread. -/
lemma IrqInv.threadStep (h : IrqInv msi3 s) (ht : s.threadStep msi3 = some t) : IrqInv msi3 t := by
  have hawait := h.misc_woken
  obtain ⟨hrx, htx, hmisc, hpseudo, hirqen, hasleep⟩ := h
  obtain ⟨wil, woken, thread⟩ := s
  cases thread with
  | idle =>
      simp only [IrqSys.threadStep] at ht
      split_ifs at ht with hwoken
      obtain rfl := Option.some.inj ht
      refine ⟨hrx, htx, fun hm => ?_, fun hp => ⟨(hpseudo hp).1, Or.inr (Or.inl (Or.inl rfl))⟩,
        fun h1 _ => hirqen h1 (Or.inl hwoken), fun _ _ => rfl⟩
      obtain ⟨-, hcause⟩ := hawait (by simp) (by simp) (by simp) hm
      exact Or.inr (Or.inr ⟨Or.inr rfl, hcause⟩)
  | enter =>
      simp only [IrqSys.threadStep] at ht
      split_ifs at ht with hcause
      · obtain rfl := Option.some.inj ht
        exact ⟨hrx, htx, fun _ => Or.inl rfl,
          fun hp => ⟨(hpseudo hp).1, Or.inr (Or.inl (Or.inr (Or.inl rfl)))⟩,
          fun h1 _ => hirqen h1 (Or.inr (Or.inl rfl)), fun h1 _ => hasleep h1 (Or.inl rfl)⟩
      · obtain rfl := Option.some.inj ht
        refine ⟨hrx, htx, fun hm => ?_,
          fun hp => ⟨(hpseudo hp).1, Or.inr (Or.inl (by simp [IrqThread.Holds]))⟩,
          fun h1 _ => hirqen h1 (Or.inr (Or.inl rfl)), fun h1 _ => hasleep h1 (Or.inl rfl)⟩
        -- with nothing to do for misc, misc is not masked
        have hwork := hmisc hm
        simp only [reduceCtorEq, false_or] at hwork
        exact absurd hwork.2 hcause
  | misc =>
      obtain rfl := Option.some.inj ht
      exact ⟨hrx, htx, fun _ => Or.inr (Or.inl rfl),
        fun hp => ⟨(hpseudo hp).1, Or.inr (Or.inl (by simp [IrqThread.Holds]))⟩,
        fun h1 _ => hirqen h1 (by simp [IrqThread.Holds]),
        fun h1 _ => hasleep h1 (by simp [IrqThread.Holds])⟩
  | unmaskMisc =>
      obtain rfl := Option.some.inj ht
      refine ⟨hrx, htx, fun hm => absurd hm (not_masked_writeImc _ _), fun hp => ?_,
        fun h1 _ => hirqen h1 (by simp [IrqThread.Holds]),
        fun h1 _ => hasleep h1 (by simp [IrqThread.Holds])⟩
      have h1 := (hpseudo hp).1
      exact ⟨h1, Or.inr (Or.inl (by simp [IrqThread.Holds, h1]))⟩
  | setIrqen =>
      obtain rfl := Option.some.inj ht
      refine ⟨hrx, htx, fun hm => ?_, fun hp => ⟨(hpseudo hp).1, Or.inr (Or.inr rfl)⟩,
        fun h1 hheld => ?_, fun _ hheld => ?_⟩
      · obtain ⟨hwoken, hcause⟩ := hawait (by simp) (by simp) (by simp) hm
        exact Or.inr (Or.inr ⟨Or.inl hwoken, hcause⟩)
      · have hsleeps := hasleep h1 (by simp [IrqThread.Holds])
        simp only [IrqThread.Holds, reduceCtorEq, or_false] at hheld hsleeps
        rw [hsleeps] at hheld
        exact absurd hheld (by simp)
      · exact absurd hheld (by simp [IrqThread.Holds])
  | unmaskPseudo =>
      obtain rfl := Option.some.inj ht
      refine ⟨hrx, htx, fun hm => ?_, fun hp => absurd hp not_masked_pseudoMask, fun h1 hheld => ?_,
        fun _ hheld => absurd hheld (by simp [IrqThread.Holds])⟩
      · obtain ⟨hwoken, hcause⟩ := hawait (by simp) (by simp) (by simp) hm
        exact Or.inr (Or.inr ⟨Or.inl hwoken, hcause⟩)
      · simp only [IrqThread.Holds, reduceCtorEq, or_false] at hheld
        exact hirqen h1 (Or.inl hheld)
  | exit =>
      obtain rfl := Option.some.inj ht
      refine ⟨hrx, htx, fun hm => ?_, fun hp => ⟨(hpseudo hp).1, ?_⟩, fun h1 hheld => ?_,
        fun _ hheld => absurd hheld (by simp [IrqThread.Holds])⟩
      · obtain ⟨hwoken, hcause⟩ := hawait (by simp) (by simp) (by simp) hm
        exact Or.inr (Or.inr ⟨Or.inl hwoken, hcause⟩)
      · have hwoken := (hpseudo hp).2
        simp only [IrqThread.Holds, reduceCtorEq, or_false] at hwoken
        exact Or.inl hwoken
      · simp only [IrqThread.Holds, reduceCtorEq, or_false] at hheld
        exact hirqen h1 (Or.inl hheld)

/-- While `irqen` is set the thread does not hold it and is not to come, and misc is not masked. -/
lemma IrqInv.free (h : IrqInv msi3 s) (h1 : msi3 = false) (hirqen : s.wil.irqen = true) :
    ¬ s.woken = true ∧ ¬ s.thread.Holds ∧ ¬ Masked wil6210ImcMisc s.wil.miscImv := by
  have hheld : ¬ (s.woken = true ∨ s.thread.Holds) := fun hheld => by
    have hclear := h.irqen h1 hheld
    rw [hirqen] at hclear
    exact absurd hclear (by simp)
  obtain ⟨hsleeps, hfree⟩ := not_or.mp hheld
  refine ⟨hsleeps, hfree, fun hm => ?_⟩
  rcases h.misc hm with hthread | hthread | ⟨hwoken | hthread, -⟩
  · exact hfree (by simp [IrqThread.Holds, hthread])
  · exact hfree (by simp [IrqThread.Holds, hthread])
  · exact hsleeps hwoken
  · exact hfree (by simp [IrqThread.Holds, hthread])

section Hardirq

variable {pseudoCause rx tx misc : BitVec 32}

/-- A handler that finds no cause of the device, or `irqen` clear, does nothing. -/
lemma wil6210Hardirq_quiet {w : WilIrq}
    (hquiet : ¬ (¬ (pseudoCause = 0 ∨ pseudoCause &&& 0xff = 0xff) ∧ w.irqen = true)) :
    wil6210Hardirq pseudoCause rx tx misc w = (w, .none) := by
  rw [wil6210Hardirq]
  by_cases hcause : pseudoCause = 0 ∨ pseudoCause &&& 0xff = 0xff
  · rw [if_pos hcause]
  · rw [if_neg hcause, if_pos fun hirqen => hquiet ⟨hcause, hirqen⟩]

lemma txDonePolled_quiet
    (hquiet : ¬ (¬ (pseudoCause = 0 ∨ pseudoCause &&& 0xff = 0xff) ∧ s.wil.irqen = true)) :
    TxDonePolled s (.hardirq pseudoCause rx tx misc) := by
  intro isr hisr
  simp only [IrqSys.txCause] at hisr
  split_ifs at hisr with hcalled
  · obtain ⟨hff, hirqen, hbit⟩ := hcalled
    refine absurd ⟨?_, hirqen⟩ hquiet
    rintro (rfl | hall)
    · exact hbit BitVec.zero_and
    · exact hff hall
  · exact absurd hisr (by simp)

/-- The condition, where the handlers of the causes are called. -/
lemma txDonePolled_hardirq_iff (hcause : ¬ (pseudoCause = 0 ∨ pseudoCause &&& 0xff = 0xff))
    (hirqen : s.wil.irqen = true) : TxDonePolled s (.hardirq pseudoCause rx tx misc) ↔
      (pseudoCause &&& bitDmaPseudoCauseTx ≠ 0 →
        tx &&& bitDmaEpTxIcrTxDone ≠ 0 ∨ s.wil.napiTx.Active) := by
  have hff : pseudoCause &&& 0xff ≠ 0xff := fun hff => hcause (Or.inr hff)
  by_cases hp : pseudoCause &&& bitDmaPseudoCauseTx ≠ 0
  · have hcalled : s.txCause (.hardirq pseudoCause rx tx misc) = some tx :=
      if_pos ⟨hff, hirqen, hp⟩
    rw [TxDonePolled, hcalled, forall_prop_of_true hp]
    simp only [Option.mem_def, Option.some.injEq, forall_eq']
  · have hquiet : s.txCause (.hardirq pseudoCause rx tx misc) = none :=
      if_neg fun hcalled => hp hcalled.2.2
    rw [TxDonePolled, hquiet]
    exact ⟨fun _ hp' => absurd hp' hp, fun _ isr hisr => absurd hisr (by simp)⟩

/-- The one interrupt. -/
lemma IrqInv.hardirq (h : IrqInv msi3 s)
    (ht : s.step msi3 (.hardirq pseudoCause rx tx misc) = some t) :
    (IrqAttended t ↔ TxDonePolled s (.hardirq pseudoCause rx tx misc)) ∧
      (TxDonePolled s (.hardirq pseudoCause rx tx misc) → IrqInv msi3 t) := by
  obtain ⟨hen, ht⟩ := Option.ite_none_right_eq_some.mp ht
  obtain rfl := Option.some.inj ht
  obtain ⟨h1, hrx, htx, hmisc⟩ := hen
  by_cases hgo : ¬ (pseudoCause = 0 ∨ pseudoCause &&& 0xff = 0xff) ∧ s.wil.irqen = true
  · obtain ⟨hcause, hirqen⟩ := hgo
    obtain ⟨hsleeps, hfree, hm⟩ := h.free h1 hirqen
    obtain ⟨v, rc, hres, hvrx, hvsched, hvtx, hvmisc, hvpseudo, hvirqen⟩ :=
      wil6210Hardirq_spec hcause hirqen hrx htx hmisc h.rx h.tx hm
    rw [← txDonePolled_hardirq_iff hcause hirqen] at hvtx
    have hinv : TxDonePolled s (.hardirq pseudoCause rx tx misc) →
        IrqInv msi3 (s.handled (wil6210Hardirq pseudoCause rx tx misc s.wil)) := by
      intro hdone
      rw [hres]
      refine ⟨hvrx, ⟨hvtx.mpr hdone, hvsched⟩, fun hmasked => ?_, fun hmasked => ?_,
        fun _ hwoken => ?_, fun _ hthread => absurd hthread hfree⟩
      · obtain ⟨hwake, hne⟩ := hvmisc hmasked
        exact Or.inr (Or.inr ⟨Or.inl (by simp [IrqSys.handled, hwake]), Or.inr hne⟩)
      · exact ⟨h1, Or.inl (by simp [IrqSys.handled, hvpseudo hmasked])⟩
      · refine hvirqen ?_
        have hor := hwoken.resolve_right hfree
        simpa [IrqSys.handled, hsleeps] using hor
    refine ⟨⟨fun hatt => ?_, fun hdone => (hinv hdone).attended⟩, hinv⟩
    have htxAtt := hatt.tx
    rw [hres] at htxAtt
    exact hvtx.mp htxAtt
  · have hinv : IrqInv msi3 (s.handled (wil6210Hardirq pseudoCause rx tx misc s.wil)) := by
      rw [wil6210Hardirq_quiet hgo, show s.handled (s.wil, .none) = s by simp [IrqSys.handled]]
      exact h
    have hcond : TxDonePolled s (.hardirq pseudoCause rx tx misc) := txDonePolled_quiet hgo
    exact ⟨⟨fun _ => hcond, fun _ => hinv.attended⟩, fun _ => hinv⟩

end Hardirq

/-- The Tx interrupt of three. -/
lemma IrqInv.irqTx (h : IrqInv msi3 s) {isr : BitVec 32}
    (ht : s.step msi3 (.irqTx isr) = some t) :
    (IrqAttended t ↔ TxDonePolled s (.irqTx isr)) ∧
      (TxDonePolled s (.irqTx isr) → IrqInv msi3 t) := by
  obtain ⟨hen, ht⟩ := Option.ite_none_right_eq_some.mp ht
  obtain rfl := Option.some.inj ht
  obtain ⟨imv, n, rc, hres, hwake, hsched, htx⟩ :=
    wil6210IrqTx_spec True (fun _ => hen.2) h.tx
  rw [if_pos trivial] at hres
  have hcond : TxDonePolled s (.irqTx isr) ↔
      isr &&& bitDmaEpTxIcrTxDone ≠ 0 ∨ s.wil.napiTx.Active := by
    simp [TxDonePolled, IrqSys.txCause]
  rw [forall_prop_of_true trivial, ← hcond] at htx
  have hsys : s.handled (wil6210IrqTx isr s.wil)
      = { s with wil := { s.wil with txImv := imv, napiTx := n } } := by
    simp [hres, IrqSys.handled, hwake]
  rw [hsys]
  have hinv : TxDonePolled s (.irqTx isr) →
      IrqInv msi3 { s with wil := { s.wil with txImv := imv, napiTx := n } } := fun hdone =>
    ⟨h.rx, ⟨htx.mpr hdone, hsched⟩, h.misc, h.pseudo, h.irqen, h.asleep⟩
  exact ⟨⟨fun hatt => htx.mp hatt.tx, fun hdone => (hinv hdone).attended⟩, hinv⟩

/-- The Rx interrupt of three. -/
lemma IrqInv.irqRx (h : IrqInv msi3 s) {isr : BitVec 32}
    (ht : s.step msi3 (.irqRx isr) = some t) : IrqInv msi3 t := by
  obtain ⟨hen, ht⟩ := Option.ite_none_right_eq_some.mp ht
  obtain rfl := Option.some.inj ht
  obtain ⟨imv, n, rc, hres, hwake, hrx⟩ := wil6210IrqRx_spec True (fun _ => hen.2) h.rx
  rw [if_pos trivial] at hres
  have hsys : s.handled (wil6210IrqRx isr s.wil)
      = { s with wil := { s.wil with rxImv := imv, napiRx := n } } := by
    simp [hres, IrqSys.handled, hwake]
  rw [hsys]
  exact ⟨hrx, h.tx, h.misc, h.pseudo, h.irqen, h.asleep⟩

/-- The misc interrupt of three. -/
lemma IrqInv.irqMisc (h : IrqInv msi3 s) {isr : BitVec 32}
    (ht : s.step msi3 (.irqMisc isr) = some t) : IrqInv msi3 t := by
  obtain ⟨hen, ht⟩ := Option.ite_none_right_eq_some.mp ht
  obtain rfl := Option.some.inj ht
  obtain ⟨h3, hisr⟩ := hen
  obtain ⟨imv, cause, fwready, resetDone, rc, hres, hleft⟩ :=
    wil6210IrqMisc_spec True (fun _ => hisr) s.wil
  rw [if_pos trivial] at hres
  rw [hres]
  have h1 : ¬ msi3 = false := by simp [h3]
  refine ⟨h.rx, h.tx, fun hm => ?_, fun hp => absurd (h.pseudo hp).1 h1,
    fun hone => absurd hone h1, fun hone => absurd hone h1⟩
  obtain ⟨hwake, hne⟩ := (hleft hm).resolve_right fun hno => hno.1 trivial
  exact Or.inr (Or.inr ⟨Or.inl (by simp [IrqSys.handled, hwake]), Or.inl h3⟩)

/-- **One step**: all sources stay attended exactly where the condition is met. -/
theorem IrqInv.step (h : IrqInv msi3 s) {a : IrqAction} (ht : s.step msi3 a = some t) :
    (IrqAttended t ↔ TxDonePolled s a) ∧ (TxDonePolled s a → IrqInv msi3 t) := by
  have hother : s.txCause a = none → IrqInv msi3 t →
      (IrqAttended t ↔ TxDonePolled s a) ∧ (TxDonePolled s a → IrqInv msi3 t) := by
    intro hnone hinv
    have hcond : TxDonePolled s a := fun isr hisr => absurd hisr (by simp [hnone])
    exact ⟨⟨fun _ => hcond, fun _ => hinv.attended⟩, fun _ => hinv⟩
  cases a with
  | hardirq pseudoCause rx tx misc => exact h.hardirq ht
  | irqTx isr => exact h.irqTx ht
  | irqRx isr => exact hother rfl (h.irqRx ht)
  | irqMisc isr => exact hother rfl (h.irqMisc ht)
  | thread => exact hother rfl (h.threadStep ht)
  | pollRx p =>
      obtain ⟨r, hr, rfl⟩ := Option.map_eq_some_iff.mp ht
      exact hother rfl ⟨h.rx.pollStep hr, h.tx, h.misc, h.pseudo, h.irqen, h.asleep⟩
  | pollTx p =>
      obtain ⟨r, hr, rfl⟩ := Option.map_eq_some_iff.mp ht
      exact hother rfl ⟨h.rx, h.tx.pollStep hr, h.misc, h.pseudo, h.irqen, h.asleep⟩

lemma IrqInv.init (msi3 : Bool) (w : WilIrq) : IrqInv msi3 (IrqSys.init w) := by
  refine ⟨⟨fun hm => absurd hm (not_masked_writeImc _ _), fun hp => hp⟩,
    ⟨fun hm => absurd hm (not_masked_writeImc _ _), fun hp => hp⟩,
    fun hm => absurd hm (not_masked_writeImc _ _), fun hp => absurd hp not_masked_pseudoMask,
    fun _ hheld => ?_, fun _ _ => rfl⟩
  exact absurd hheld (by simp [IrqSys.init, IrqThread.Holds])

/-- **No interrupt source stays masked with nobody to unmask it**, with one interrupt and with
three, where every Tx interrupt says `TX_DONE` or finds a Tx poll under way. -/
theorem irqAttended_run {msi3 : Bool} {w : WilIrq} {as : List IrqAction} {t : IrqSys}
    (h : Machine.Exec (IrqSys.step msi3) TxDonePolled (IrqSys.init w) as t) : IrqAttended t := by
  have hinv : IrqInv msi3 t :=
    h.invariant (fun _ _ _ hG ht hi => (hi.step ht).2 hG) (.init msi3 w)
  exact hinv.attended

/-- The registers as they are out of reset. -/
def irqReset : WilIrq :=
  ⟨wil6210IrqDisable, wil6210IrqDisable, wil6210IrqDisable, wil6210IrqDisable, false, false, false,
    0, ⟨false, false, 0⟩, ⟨false, false, 0⟩⟩

/-- One interrupt for all three sources, and then the Tx poll up to its unmasking, the thread in
the middle of its work. -/
theorem irqAttended_run_all :
    ∃ t : IrqSys, IrqAttended t ∧ t.thread = .misc ∧ Masked wil6210ImcTx t.wil.txImv ∧
      Masked wil6210ImcMisc t.wil.miscImv := by
  let as : List IrqAction := [.hardirq 7 1 3 isrMiscMboxEvt, .pollTx .start, .thread,
    .pollTx (.finish 1), .thread]
  have hrun : (Machine.exec (IrqSys.step false) TxDonePolled (IrqSys.init irqReset) as).map
      (fun t => (t.thread, decide (Masked wil6210ImcTx t.wil.txImv),
        decide (Masked wil6210ImcMisc t.wil.miscImv))) = some (.misc, true, true) := by
    decide +kernel
  obtain ⟨t, ht, hend⟩ := Option.map_eq_some_iff.mp hrun
  simp only [Prod.mk.injEq, decide_eq_true_iff] at hend
  exact ⟨t, irqAttended_run (.of_exec ht), hend⟩

/-- A Tx interrupt with the second Tx bit alone: Tx is masked, and no poll is scheduled. -/
theorem not_irqAttended_run :
    ¬ ∀ (msi3 : Bool) (w : WilIrq) (as : List IrqAction) (t : IrqSys),
      Machine.Exec (IrqSys.step msi3) (fun _ _ => True) (IrqSys.init w) as t → IrqAttended t := by
  intro h
  have hrun : (Machine.exec (IrqSys.step false) (fun _ _ => True) (IrqSys.init irqReset)
      [.hardirq bitDmaPseudoCauseTx 0 (bitDmaEpTxIcrTxDoneN 0) 0]).map
      (fun t => (decide (Masked wil6210ImcTx t.wil.txImv), decide t.wil.napiTx.Active))
        = some (true, false) := by
    decide +kernel
  obtain ⟨t, ht, hend⟩ := Option.map_eq_some_iff.mp hrun
  simp only [Prod.mk.injEq, decide_eq_true_iff, decide_eq_false_iff_not] at hend
  exact hend.2 ((h _ _ _ t (.of_exec ht)).tx hend.1)

end Wil6210
