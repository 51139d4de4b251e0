import Wil6210.Kernel

/-!
# The Rx reorder buffer

`rx_reorder.c`, function by function.  A block-ack session (`struct wil_tid_ampdu_rx`) holds the
frames that arrived ahead of `head_seq_num`; a frame with sequence number `seq` is kept in slot
`(seq - ssn) mod 4096 mod buf_size`.

The 16-bit fields are naturals; a C expression that is stored in a `u16` goes through `u16`, and
`& SEQ_MASK` is `% SEQ_MODULO`.  What the functions do to the outside world is a list of
`RxEvent`s in program order.  One record stands for one advance of `head_seq_num` together with
the frame handed to the network stack in that advance, so counting the advances and reading off
what was delivered at each are the same traversal of the trace.

`reorder_time` is written and never read, and is left out.
-/

namespace Wil6210

/-! ## Frames -/

/-- `struct vring_rx_desc`, as far as the reorder path reads it: dword 0 of the MAC part. -/
structure VringRxDesc where
  macD0 : ℕ
  deriving DecidableEq, Repr

def wilRxdescTid (d : VringRxDesc) : ℕ := wilGetBits d.macD0 0 3
def wilRxdescCid (d : VringRxDesc) : ℕ := wilGetBits d.macD0 4 6
def wilRxdescSeq (d : VringRxDesc) : ℕ := wilGetBits d.macD0 16 27

/-- A received `struct sk_buff`: its bytes, and the Rx descriptor that `wil_vring_reap_rx` copied
into `skb->cb`. -/
structure RxSkb where
  rxdesc : VringRxDesc
  data : List UInt8
  deriving DecidableEq, Repr

/-- The sequence number of a frame. -/
def RxSkb.seq (skb : RxSkb) : ℕ := wilRxdescSeq skb.rxdesc

/-- What the receive path does with frames and with the head of a session. -/
inductive RxEvent
  /-- `head_seq_num` advanced by one; the frame is the one given to `wil_netif_rx_any`, if any. -/
  | headInc (skb : Option RxSkb)
  /-- `wil_netif_rx_any` with no session involved. -/
  | netifRx (skb : RxSkb)
  /-- `dev_kfree_skb` of a frame with an out of date sequence number. -/
  | kfreeStale (skb : RxSkb)
  /-- `dev_kfree_skb` in the "already stored this frame" branch. -/
  | kfreeDup (skb : RxSkb)
  deriving DecidableEq, Repr

/-! ## Sequence numbers -/

/-- `seq_sub`: the difference as C computes it, in `int`, and then `& SEQ_MASK`. -/
def seqSub (sq1 sq2 : ℕ) : ℕ := (((sq1 : ℤ) - sq2) % 0x1000).toNat

/-- `seq_inc` -/
def seqInc (sq : ℕ) : ℕ := (sq + 1) % 0x1000

/-- `seq_less`: the difference is more than half of the sequence space. -/
def seqLess (sq1 sq2 : ℕ) : Prop := 0x800 < seqSub sq1 sq2

instance (sq1 sq2 : ℕ) : Decidable (seqLess sq1 sq2) := inferInstanceAs (Decidable (_ < _))

/-! ## Sessions -/

/-- `struct wil_tid_ampdu_rx` -/
structure WilTidAmpduRx where
  reorderBuf : List (Option RxSkb)
  headSeqNum : ℕ
  storedMpduNum : ℕ
  ssn : ℕ
  bufSize : ℕ
  ssnLastDrop : ℕ
  deriving DecidableEq, Repr

/-- `r->reorder_buf[index]` -/
def WilTidAmpduRx.slot (r : WilTidAmpduRx) (index : ℕ) : Option RxSkb :=
  r.reorderBuf.getD index none

/-- `reorder_index` -/
def reorderIndex (r : WilTidAmpduRx) (seq : ℕ) : ℕ := seqSub seq r.ssn % r.bufSize

/-- The frames a session holds. -/
def WilTidAmpduRx.occupied (r : WilTidAmpduRx) : ℕ := r.reorderBuf.countP Option.isSome

/-- `wil_release_reorder_frame` -/
def wilReleaseReorderFrame (r : WilTidAmpduRx) (index : ℕ) : WilTidAmpduRx × RxEvent :=
  match r.slot index with
  | none => ({ r with headSeqNum := seqInc r.headSeqNum }, .headInc none)
  | some skb =>
      ({ r with
          storedMpduNum := u16 (r.storedMpduNum + 0xffff)
          reorderBuf := r.reorderBuf.set index none
          headSeqNum := seqInc r.headSeqNum }, .headInc (some skb))

@[simp] lemma wilReleaseReorderFrame_head (r : WilTidAmpduRx) (index : ℕ) :
    (wilReleaseReorderFrame r index).1.headSeqNum = seqInc r.headSeqNum := by
  simp only [wilReleaseReorderFrame]; split <;> rfl

@[simp] lemma wilReleaseReorderFrame_ssn (r : WilTidAmpduRx) (index : ℕ) :
    (wilReleaseReorderFrame r index).1.ssn = r.ssn := by
  simp only [wilReleaseReorderFrame]; split <;> rfl

@[simp] lemma wilReleaseReorderFrame_bufSize (r : WilTidAmpduRx) (index : ℕ) :
    (wilReleaseReorderFrame r index).1.bufSize = r.bufSize := by
  simp only [wilReleaseReorderFrame]; split <;> rfl

/-- Whatever the slot held, it is empty afterwards and the other slots are untouched. -/
lemma wilReleaseReorderFrame_buf (r : WilTidAmpduRx) (index : ℕ) :
    (wilReleaseReorderFrame r index).1.reorderBuf = r.reorderBuf.set index none := by
  simp only [wilReleaseReorderFrame]
  split
  · next h =>
      refine (List.ext_getElem? fun i => ?_)
      rw [List.getElem?_set]
      split_ifs with hi hlt
      · subst hi
        simpa [WilTidAmpduRx.slot, List.getD_eq_getElem?_getD, List.getElem?_eq_getElem hlt] using h
      · subst hi; simpa using hlt
      · rfl
  · rfl

/-- Each pass of the window advance loop shortens the distance to `hseq` by one. -/
lemma seqSub_seqInc_lt {h hseq : ℕ} (hlt : seqLess h hseq) :
    seqSub hseq (seqInc h) < seqSub hseq h := by
  simp only [seqLess, seqSub, seqInc] at *; omega

/-- Emptying an occupied slot leaves one occupied slot less. -/
lemma countP_set_none {l : List (Option RxSkb)} {i : ℕ} (h : (l.getD i none).isSome) :
    (l.set i none).countP Option.isSome + 1 = l.countP Option.isSome := by
  induction l generalizing i with
  | nil => simp at h
  | cons o l ih =>
      cases i with
      | zero =>
          simp only [List.getD_cons_zero] at h
          simp [h]
      | succ i =>
          simp only [List.getD_cons_succ] at h
          simp only [List.set_cons_succ, List.countP_cons]
          have := ih h
          omega

lemma occupied_wilReleaseReorderFrame {r : WilTidAmpduRx} {index : ℕ}
    (h : (r.slot index).isSome) :
    (wilReleaseReorderFrame r index).1.occupied + 1 = r.occupied := by
  rw [WilTidAmpduRx.occupied, wilReleaseReorderFrame_buf]
  exact countP_set_none h

/-- `wil_release_reorder_frames`: advance the head to `hseq`, delivering what is stored on the
way. -/
def wilReleaseReorderFrames (r : WilTidAmpduRx) (hseq : ℕ) : WilTidAmpduRx × List RxEvent :=
  if _h : seqLess r.headSeqNum hseq then
    let p := wilReleaseReorderFrame r (reorderIndex r r.headSeqNum)
    let q := wilReleaseReorderFrames p.1 hseq
    (q.1, p.2 :: q.2)
  else (r, [])
  termination_by seqSub hseq r.headSeqNum
  decreasing_by
    rw [wilReleaseReorderFrame_head]
    exact seqSub_seqInc_lt _h

/-- `wil_reorder_release`: deliver from the head as long as the head slot is occupied. -/
def wilReorderRelease (r : WilTidAmpduRx) : WilTidAmpduRx × List RxEvent :=
  if _h : (r.slot (reorderIndex r r.headSeqNum)).isSome then
    let p := wilReleaseReorderFrame r (reorderIndex r r.headSeqNum)
    let q := wilReorderRelease p.1
    (q.1, p.2 :: q.2)
  else (r, [])
  termination_by r.occupied
  decreasing_by
    have := occupied_wilReleaseReorderFrame _h
    omega

/-- The part of `wil_rx_reorder` behind the window advance: the frame is in the window of `r`. -/
def wilRxReorderStore (r : WilTidAmpduRx) (skb : RxSkb) : WilTidAmpduRx × List RxEvent :=
  let seq := wilRxdescSeq skb.rxdesc
  let index := reorderIndex r seq
  -- check if we already stored this frame
  if (r.slot index).isSome then (r, [.kfreeDup skb])
  -- in the right order and nothing else is stored: process it directly
  else if seq = r.headSeqNum ∧ r.storedMpduNum = 0 then
    ({ r with headSeqNum := seqInc r.headSeqNum }, [.headInc (some skb)])
  -- put the frame in the reordering buffer
  else
    wilReorderRelease
      { r with
        reorderBuf := r.reorderBuf.set index (some skb)
        storedMpduNum := u16 (r.storedMpduNum + 1) }

/-- `wil_rx_reorder` on the session it looked up; `none` is a NULL `tid_rx` entry. -/
def wilRxReorder (r : Option WilTidAmpduRx) (skb : RxSkb) :
    Option WilTidAmpduRx × List RxEvent :=
  match r with
  | none => (none, [.netifRx skb])
  | some r =>
      let seq := wilRxdescSeq skb.rxdesc
      -- frame with out of date sequence number
      if seqLess seq r.headSeqNum then
        (some { r with ssnLastDrop := seq }, [.kfreeStale skb])
      -- the frame exceeds the buffering window: release some previous frames
      else if ¬ seqLess seq (u16 (r.headSeqNum + r.bufSize)) then
        let p := wilReleaseReorderFrames r (seqInc (seqSub seq r.bufSize))
        let q := wilRxReorderStore p.1 skb
        (some q.1, p.2 ++ q.2)
      else
        let q := wilRxReorderStore r skb
        (some q.1, q.2)

/-- `wil_tid_ampdu_rx_alloc`; `allocOk` is the outcome of the three allocations. -/
def wilTidAmpduRxAlloc (allocOk : Bool) (size ssn : ℕ) : Option WilTidAmpduRx :=
  if allocOk then
    some {
      reorderBuf := List.replicate size none
      headSeqNum := u16 ssn
      storedMpduNum := 0
      ssn := u16 ssn
      bufSize := u16 size
      ssnLastDrop := 0 }
  else none

/-- `wil_tid_ampdu_rx_free`: hand what is still stored to the stack, then free the session. -/
def wilTidAmpduRxFree (r : Option WilTidAmpduRx) : List RxEvent :=
  match r with
  | none => []
  | some r => (wilReleaseReorderFrames r (u16 (r.headSeqNum + r.bufSize))).2

end Wil6210
