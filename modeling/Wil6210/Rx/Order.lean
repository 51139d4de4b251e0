import Wil6210.Lib.Machine
import Wil6210.Rx.Advance

/-!
# Reordering restores the order

For a window size of at least 2 that divides 4096, every frame that `wil_rx_reorder` hands to the
stack is delivered by an advance of the head, at the head position with its own sequence number,
and after every call the head slot is empty.

One call goes through at most one window advance and one of three ways to dispose of the frame.
After a window advance the new frame is the last one of the window, so its slot is the one the
advance emptied last (`slot_after_advance`): the duplicate branch, which would leave the head slot
unexamined, cannot be taken there.
-/

namespace Wil6210

variable {r : WilTidAmpduRx} {skb : RxSkb} {H : ℕ}

/-! ## One call -/

/-- `wil_rx_reorder`, with the passes of its window advance counted. -/
lemma wilRxReorder_some (r : WilTidAmpduRx) (skb : RxSkb) :
    wilRxReorder (some r) skb
      = if seqLess skb.seq r.headSeqNum then
          (some { r with ssnLastDrop := skb.seq }, [.kfreeStale skb])
        else if ¬ seqLess skb.seq (u16 (r.headSeqNum + r.bufSize)) then
          let p := advanceN (releaseCount r (seqInc (seqSub skb.seq r.bufSize))) r
          (some (wilRxReorderStore p.1 skb).1, p.2 ++ (wilRxReorderStore p.1 skb).2)
        else (some (wilRxReorderStore r skb).1, (wilRxReorderStore r skb).2) := by
  simp only [wilRxReorder, ← wilReleaseReorderFrames_eq]
  rfl

/-- `wil_rx_reorder` behind the window advance. -/
lemma wilRxReorderStore_eq (r : WilTidAmpduRx) (skb : RxSkb) :
    wilRxReorderStore r skb
      = if (r.slot (reorderIndex r skb.seq)).isSome then (r, [.kfreeDup skb])
        else if skb.seq = r.headSeqNum ∧ r.storedMpduNum = 0 then
          ({ r with headSeqNum := seqInc r.headSeqNum }, [.headInc (some skb)])
        else wilReorderRelease (storeFrame r skb) := rfl

/-- A frame of the window is neither out of date nor beyond the window. -/
lemma seqLess_of_window {seq head size : ℕ} (hwin : seqSub seq head < size)
    (hsize : size < 2048) :
    ¬ seqLess seq head ∧ seqLess seq (u16 (head + size)) := by
  simp only [seqLess, seqSub, u16] at *
  omega

/-- Inside the window a call disposes of the frame at once. -/
lemma wilRxReorder_of_window (hwin : seqSub skb.seq r.headSeqNum < r.bufSize)
    (hsize : r.bufSize < 2048) :
    wilRxReorder (some r) skb
      = (some (wilRxReorderStore r skb).1, (wilRxReorderStore r skb).2) := by
  obtain ⟨hstale, hin⟩ := seqLess_of_window hwin hsize
  rw [wilRxReorder_some, if_neg hstale, if_neg (not_not_intro hin)]

/-- **What a call does.**  It drops the frame as out of date, or it advances the head `k` times and
then disposes of the frame, which is in the window of the advanced session.  If it advances at
all, the frame is one window ahead of the last position passed. -/
theorem wilRxReorder_cases (hhead : r.headSeqNum < 4096) (hlo : 2 ≤ r.bufSize)
    (hhi : r.bufSize ≤ 4096) (skb : RxSkb) :
    (seqLess skb.seq r.headSeqNum ∧ wilRxReorder (some r) skb
        = (some { r with ssnLastDrop := skb.seq }, [.kfreeStale skb])) ∨
      ∃ k, wilRxReorder (some r) skb = (some (wilRxReorderStore (advanceN k r).1 skb).1,
          (advanceN k r).2 ++ (wilRxReorderStore (advanceN k r).1 skb).2) ∧
        seqSub skb.seq (advanceN k r).1.headSeqNum < r.bufSize ∧
        (k = 0 ∨ ∃ m < 2047, k = m + 1 ∧ (r.headSeqNum + m + r.bufSize) % 4096 = skb.seq) := by
  have hseq := skb.seq_lt
  rw [wilRxReorder_some]
  split_ifs with hstale hjump
  · exact .inl ⟨hstale, rfl⟩
  · refine .inr ⟨0, rfl, ?_, .inl rfl⟩
    show seqSub skb.seq r.headSeqNum < r.bufSize
    simp only [seqLess, seqSub, u16] at *
    omega
  · refine .inr ⟨releaseCount r (seqInc (seqSub skb.seq r.bufSize)), rfl, ?_, ?_⟩
    · rw [advanceN_head hhead, releaseCount]
      split_ifs with hlt <;> simp only [seqLess, seqSub, seqInc, u16] at * <;> omega
    · rw [releaseCount]
      split_ifs with hlt
      · obtain ⟨hone, hmax⟩ := seqLess_iff_seqSub.mp hlt
        refine .inr ⟨seqSub (seqInc (seqSub skb.seq r.bufSize)) r.headSeqNum - 1, by omega,
          by omega, ?_⟩
        simp only [seqSub, seqInc] at *
        omega
      · exact .inl rfl

/-- After an advance the slot of the new frame is the one emptied last. -/
lemma slot_after_advance (h : WindowInv r) (hdvd : r.bufSize ∣ 4096) {m : ℕ}
    (hm : (r.headSeqNum + m + r.bufSize) % 4096 = skb.seq) :
    (advanceN (m + 1) r).1.slot (reorderIndex r skb.seq) = none := by
  have hsame : reorderIndex r skb.seq = reorderIndex r ((r.headSeqNum + m) % 4096) := by
    refine Serial.slot_eq_of_emod_eq (by norm_num) hdvd ?_
    have hdvd' : (r.bufSize : ℤ) ∣ 4096 := by exact_mod_cast hdvd
    rw [← hm, Int.natCast_mod, Int.natCast_mod]
    push_cast
    rw [Int.emod_emod_of_dvd _ hdvd', Int.emod_emod_of_dvd _ hdvd', Int.add_emod_right]
  rw [hsame]
  exact slot_advanceN_succ h m

/-- What a call establishes: a session with an empty head slot, an orderly trace, and a head that
moved as far as the trace says. -/
structure OrderedCall (r : WilTidAmpduRx) (H : ℕ) (p : WilTidAmpduRx × List RxEvent) : Prop where
  inv : WindowInv p.1
  headEmpty : HeadEmpty p.1
  bufSize_eq : p.1.bufSize = r.bufSize
  ssn_eq : p.1.ssn = r.ssn
  orderly : Orderly H p.2
  head_eq : p.1.headSeqNum = headAfter H p.2 % 4096

/-- **The frame is in the window**: duplicate, direct delivery, or store and release. -/
theorem orderedCall_store (h : WindowInv r) (hdvd : r.bufSize ∣ 4096)
    (hH : r.headSeqNum = H % 4096) (hwin : seqSub skb.seq r.headSeqNum < r.bufSize)
    (hgood : HeadEmpty r ∨ r.slot (reorderIndex r skb.seq) = none) :
    OrderedCall r H (wilRxReorderStore r skb) := by
  rw [wilRxReorderStore_eq]
  split_ifs with hdup hdirect
  · -- nothing changes, and the head slot was empty before
    have hempty : HeadEmpty r := by
      rcases hgood with hg | hg
      · exact hg
      · simp [hg] at hdup
    exact ⟨h, hempty, rfl, rfl, trivial, hH⟩
  · obtain ⟨hinv, hall⟩ := h.direct hdirect.2
    refine ⟨hinv, hall _, rfl, rfl, ⟨hdirect.1.trans hH, trivial⟩, ?_⟩
    simp only [headAfter, seqInc, hH]
    omega
  · have hslot : r.slot (reorderIndex r skb.seq) = none := by
      simpa using hdup
    have hinv := h.storeFrame hslot hwin
    obtain ⟨n, heq, hempty, -⟩ := wilReorderRelease_eq (storeFrame r skb)
    rw [heq]
    refine ⟨hinv.advanceN n, hempty, by simp [storeFrame], by simp [storeFrame],
      hinv.orderly_advanceN hdvd hH n, ?_⟩
    rw [headAfter_advanceN, advanceN_head hinv.head_lt]
    simp only [storeFrame, hH]
    omega

/-- **One call of `wil_rx_reorder` on a session.** -/
theorem orderedCall (h : WindowInv r) (hempty : HeadEmpty r) (hdvd : r.bufSize ∣ 4096)
    (hlo : 2 ≤ r.bufSize) (hH : r.headSeqNum = H % 4096) (skb : RxSkb) :
    ∃ r', (wilRxReorder (some r) skb).1 = some r' ∧
      OrderedCall r H (r', (wilRxReorder (some r) skb).2) := by
  rcases wilRxReorder_cases h.head_lt hlo (Nat.le_of_dvd (by norm_num) hdvd) skb with
    ⟨-, heq⟩ | ⟨k, heq, hwin, hk⟩
  · rw [heq]
    exact ⟨_, rfl, ⟨⟨h.bufSize_pos, h.bufSize_lt, h.length_eq, h.head_lt, h.ssn_lt, h.stored_eq,
      h.slot_index⟩, h.window⟩, hempty, rfl, rfl, trivial, hH⟩
  · have hH' : (advanceN k r).1.headSeqNum = (H + k) % 4096 := by
      rw [advanceN_head h.head_lt, hH]
      omega
    have hgood : HeadEmpty (advanceN k r).1 ∨
        (advanceN k r).1.slot (reorderIndex (advanceN k r).1 skb.seq) = none := by
      rcases hk with rfl | ⟨m, -, rfl, hm⟩
      · exact .inl hempty
      · rw [reorderIndex_advanceN]
        exact .inr (slot_after_advance h hdvd hm)
    have hcall : OrderedCall (advanceN k r).1 (H + k)
        (wilRxReorderStore (advanceN k r).1 skb) :=
      orderedCall_store (h.advanceN k) (by simpa using hdvd) hH' (by simpa using hwin) hgood
    rw [heq]
    refine ⟨_, rfl, hcall.inv, hcall.headEmpty, by simpa using hcall.bufSize_eq,
      by simpa using hcall.ssn_eq, ?_, ?_⟩
    · refine (orderly_append _ _ _).mpr ⟨h.orderly_advanceN hdvd hH k, ?_⟩
      rw [headAfter_advanceN]
      exact hcall.orderly
    · rw [headAfter_append, headAfter_advanceN]
      exact hcall.head_eq

/-! ## Runs -/

/-- A run keeps what a call keeps. -/
theorem orderedCall_run (hdvd : r.bufSize ∣ 4096) (hlo : 2 ≤ r.bufSize) (frames : List RxSkb) :
    ∀ {s : WilTidAmpduRx} {H : ℕ}, WindowInv s → HeadEmpty s → s.bufSize = r.bufSize →
      s.ssn = r.ssn → s.headSeqNum = H % 4096 →
      ∃ s', (Machine.run wilRxReorder (some s) frames).1 = some s' ∧
        OrderedCall r H (s', (Machine.run wilRxReorder (some s) frames).2) := by
  induction frames with
  | nil =>
      rintro s H hinv hempty hbuf hssn hH
      exact ⟨s, rfl, hinv, hempty, hbuf, hssn, trivial, hH⟩
  | cons skb frames ih =>
      rintro s H hinv hempty hbuf hssn hH
      obtain ⟨t, ht, hcall⟩ := orderedCall hinv hempty (hbuf ▸ hdvd) (hbuf ▸ hlo) hH skb
      obtain ⟨s', hs', hrest⟩ := ih hcall.inv hcall.headEmpty (hcall.bufSize_eq.trans hbuf)
        (hcall.ssn_eq.trans hssn) hcall.head_eq
      rw [Machine.run_cons, ht]
      refine ⟨s', hs', hrest.inv, hrest.headEmpty, hrest.bufSize_eq, hrest.ssn_eq, ?_, ?_⟩
      · exact (orderly_append _ _ _).mpr ⟨hcall.orderly, hrest.orderly⟩
      · rw [headAfter_append]
        exact hrest.head_eq

/-- **Order, and no duplication.**  Whatever frames arrive, in whatever order: frames are delivered
by advances of the head only, each delivered frame has the sequence number of the head count at
which it is delivered, the counts are strictly increasing, the head is the residue of the count,
and its slot is empty when the call returns. -/
theorem wilRxReorder_in_order {size ssn : ℕ} {r : WilTidAmpduRx} (hlo : 2 ≤ size)
    (hdvd : size ∣ 4096) (hssn : ssn < 4096) (hr : wilTidAmpduRxAlloc true size ssn = some r)
    (frames : List RxSkb) :
    let es := (Machine.run wilRxReorder (some r) frames).2
    (∀ skb, .netifRx skb ∉ es) ∧
      (∀ d ∈ deliveries ssn es, d.2.seq = d.1 % 4096) ∧
      (deliveries ssn es).Pairwise (fun a b => a.1 < b.1) ∧
      ∃ r', (Machine.run wilRxReorder (some r) frames).1 = some r' ∧
        r'.headSeqNum = headAfter ssn es % 4096 ∧ HeadEmpty r' := by
  have hle : size ≤ 4096 := Nat.le_of_dvd (by norm_num) hdvd
  obtain ⟨hinv, hbuf, hs, hhead, -⟩ := windowInv_alloc (by omega) (by omega) hssn hr
  have hempty : HeadEmpty r := slot_alloc hr _
  have hH : r.headSeqNum = ssn % 4096 := by rw [hhead, Nat.mod_eq_of_lt hssn]
  obtain ⟨r', hr', hcall⟩ :=
    orderedCall_run (hbuf ▸ hdvd) (hbuf ▸ hlo) frames hinv hempty rfl rfl hH
  exact ⟨fun skb => hcall.orderly.netifRx_notMem, hcall.orderly.seq_eq, hcall.orderly.increasing,
    r', hr', hcall.head_eq, hcall.headEmpty⟩

/-- A window of 16 across the wrap: a gap, a jump past the window, and a late frame. -/
theorem wilRxReorder_in_order_wrap :
    ∃ r, wilTidAmpduRxAlloc true 16 4090 = some r ∧
      (deliveries 4090 (Machine.run wilRxReorder (some r)
        ([4091, 4090, 2, 30, 4095].map seqFrame)).2).Pairwise (fun a b => a.1 < b.1) :=
  ⟨_, rfl, (wilRxReorder_in_order (by norm_num) (by norm_num) (by norm_num) rfl _).2.2.1⟩

end Wil6210
