import Wil6210.Tx.RingSafety

/-!
# A ring with its history

`wil_tx_vring`, the hardware and `wil_tx_complete` on one ring, with the packets that were posted
and the trace of all that was done.  The hardware marks any posted descriptor at any time, in any
order.

`LoggedInv` is what every step keeps, and `wilTxComplete_slots` says what a cleanup does to the
contexts and to the statistics: it clears the slots that it releases and no others, and accounts
each of them.
-/

namespace Wil6210

open Circular (slots mem_slots mem_slots_succ)

/-! ## The machine -/

/-- The ring, the counts of descriptors posted and released, the packets posted, and the trace. -/
structure LoggedTx where
  tx : TxState
  posted : ℕ
  released : ℕ
  skbs : List TxSkb
  log : List TxEvent

inductive LoggedAction
  /-- A call of `wil_tx_vring`. -/
  | xmit (q : TxRequest)
  /-- The hardware marks the descriptor at position `k`. -/
  | hwMark (k error : ℕ)
  /-- A call of `wil_tx_complete`. -/
  | complete

namespace LoggedTx

/-- One step of the driver or of the hardware. -/
def step (s : LoggedTx) : LoggedAction → Option LoggedTx
  | .xmit q =>
      let r := wilTxVring s.tx q
      some { s with
        tx := r.1
        posted := s.posted + (if r.2.2 = 0 then q.nrFrags + 1 else 0)
        skbs := s.skbs ++ (if r.2.2 = 0 then [q.skb] else [])
        log := s.log ++ r.2.1 }
  | .hwMark k error =>
      if s.released ≤ k ∧ k < s.posted then
        some { s with tx := { s.tx with vring := s.tx.vring.writeBack (k % s.tx.vring.size) error } }
      else none
  | .complete =>
      let r := wilTxComplete s.tx
      some { s with tx := r.1, released := s.released + r.2.2, log := s.log ++ r.2.1 }

/-- A ring of `size` descriptors fresh from `wil_vring_alloc`; the rest of the state is arbitrary. -/
def init (tx : TxState) (size : ℕ) : LoggedTx :=
  { tx := { tx with vring := (wilVringAlloc true { tx.vring with size := size }).1 }
    posted := 0
    released := 0
    skbs := []
    log := [] }

end LoggedTx

/-! ## What a cleanup does to contexts and statistics -/

/-- The statistics with the packet in the slot of position `k` accounted. -/
def Vring.accounted (v : Vring) (t : TxStats) (k : ℕ) : TxStats :=
  match v.ctx (k % v.size) with
  | none => t
  | some skb => t.account (v.desc (k % v.size)) skb

/-- **What a cleanup does** to every context and to the statistics. -/
lemma wilTxComplete_slots {s : TxState} {released passed posted : ℕ} (hva : s.vring.va = true)
    (h : RingAt s.vring released passed posted) :
    (∀ i, (wilTxComplete s).1.vring.ctx i
        = if i ∈ slots s.vring.size released (wilTxComplete s).2.2 then none else s.vring.ctx i) ∧
      (wilTxComplete s).1.ndevStats
        = (List.range' released (wilTxComplete s).2.2).foldl s.vring.accounted s.ndevStats ∧
      (wilTxComplete s).1.staStats
        = (List.range' released (wilTxComplete s).2.2).foldl s.vring.accounted s.staStats := by
  obtain ⟨r, k, c, -, -, -, -, hc, ⟨hctx, hndev, hsta⟩, hcall, -⟩ := wilTxComplete_rule hva h
    (P := fun k c =>
      (∀ i, c.state.vring.ctx i
        = if i ∈ slots s.vring.size released (k - released) then none else s.vring.ctx i) ∧
      c.state.ndevStats = (List.range' released (k - released)).foldl s.vring.accounted s.ndevStats ∧
      c.state.staStats = (List.range' released (k - released)).foldl s.vring.accounted s.staStats)
    ⟨by simp [slots], by simp, by simp⟩
    (fun k c d hk hkp hc ⟨hctx, hndev, hsta⟩ hpass => by
      obtain ⟨skb, hskb⟩ := h.held k hk hkp
      obtain ⟨hdesc, hctxk⟩ := hc.frame k le_rfl hkp
      simp only [txCompleteSlot, hctxk, hskb, hdesc] at hpass
      split_ifs at hpass
      obtain rfl := Option.some.inj hpass
      have hnext : k + 1 - released = k - released + 1 := by omega
      have hpos : released + (k - released) = k := by omega
      refine ⟨fun i => ?_, ?_, ?_⟩
      · simp only [txClearSlot, Vring.setDesc, Vring.setCtx, Function.update_apply, hctx, hnext,
          mem_slots_succ, hpos]
        by_cases hi : i = k % s.vring.size <;> simp [hi]
      all_goals
        rw [hnext, List.range'_concat, List.foldl_append, Nat.one_mul, hpos]
        simp [Vring.accounted, hskb, hndev, hsta])
  rw [hcall]
  rw [← hc.done] at hctx hndev hsta
  exact ⟨hctx, hndev, hsta⟩

/-! ## The invariant -/

/-- What holds between two steps. -/
structure LoggedInv (s : LoggedTx) : Prop where
  va : s.tx.vring.va = true
  ring : RingAt s.tx.vring s.released s.posted s.posted
  refs : ∀ p, taken p s.log
    = dropped p s.log + heldRefs s.tx.vring p s.released (s.posted - s.released)

variable {s t : LoggedTx}

lemma loggedInv_init (tx : TxState) {size : ℕ} (hsize : 0 < size) :
    LoggedInv (LoggedTx.init tx size) := by
  have h := ringInv_init tx hsize
  exact ⟨h.va, h.ring, h.refs⟩

/-- The hardware may be done with all that is posted. -/
lemma RingAt.pass_all {v : Vring} {released passed posted : ℕ}
    (h : RingAt v released passed posted) : RingAt v released posted posted :=
  ⟨h.swtail, h.swhead, h.released_le.trans h.passed_le, le_rfl, h.room,
    fun _ hk hkp => absurd hkp (Nat.not_lt.mpr hk), h.held⟩

lemma LoggedInv.swhead_lt (h : LoggedInv s) : s.tx.vring.swhead < s.tx.vring.size := by
  rw [h.ring.swhead]
  exact Nat.mod_lt _ h.ring.size_pos

/-- The slots in use, by position. -/
lemma LoggedInv.postedSlots_eq (h : LoggedInv s) : s.tx.vring.postedSlots
    = slots s.tx.vring.size s.released (s.posted - s.released) := by
  rw [Vring.postedSlots, h.ring.used_eq, h.ring.swtail, Circular.slots_mod]

/-- **Every step keeps the invariant.** -/
theorem LoggedInv.step (h : LoggedInv s) {a : LoggedAction} (ht : s.step a = some t) :
    LoggedInv t := by
  -- the ring machine, whose hardware is done with all that is posted
  have hring : RingInv ⟨s.tx, s.posted, s.posted, s.released, s.log⟩ := ⟨h.va, h.ring, h.refs⟩
  cases a with
  | xmit q =>
      obtain rfl := Option.some.inj ht
      have hnext := hring.xmit q rfl
      exact ⟨hnext.va, hnext.ring.pass_all, hnext.refs⟩
  | hwMark k error =>
      simp only [LoggedTx.step] at ht
      split_ifs at ht with hk
      obtain rfl := Option.some.inj ht
      exact ⟨h.va, h.ring.writeBack hk.1 hk.2 error, h.refs⟩
  | complete =>
      obtain rfl := Option.some.inj ht
      have hnext := hring.complete rfl
      exact ⟨hnext.va, hnext.ring, hnext.refs⟩

end Wil6210
