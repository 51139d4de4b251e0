import Wil6210.Tx.RingSafety

/-!
# What a cleanup leaves in the ring

The second loop of `wil_tx_complete` runs up to `swtail_to_rel`, the last marked descriptor, and not
past it.  So where the hardware marks in order, every cleanup leaves one marked descriptor in the
ring, with its buffer (`wilTxComplete_short`): the ring does not become empty again once something
was posted, until the ring is freed.
-/

namespace Wil6210

variable {s : TxSys} {done : ℕ}

/-- The hardware is done with the descriptors in front of position `done`: of those in the ring,
these are marked and the others are not. -/
structure InOrder (s : TxSys) (done : ℕ) : Prop where
  released_le : s.released ≤ done
  le_posted : done ≤ s.posted
  marked : ∀ k, s.released ≤ k → k < s.posted →
    ((s.tx.vring.desc (k % s.tx.vring.size)).du ↔ k < done)

/-- A cleanup puts `swtail` behind the last marked descriptor; where all are marked it empties the
ring, and every reference that was taken has been dropped. -/
structure Reclaimed (s : TxSys) (done : ℕ) : Prop where
  swtail : (wilTxComplete s.tx).1.vring.swtail = done % s.tx.vring.size
  empty : done = s.posted → wilVringIsEmpty (wilTxComplete s.tx).1.vring ∧
    ∀ p, taken p (s.log ++ (wilTxComplete s.tx).2.1)
      = dropped p (s.log ++ (wilTxComplete s.tx).2.1)

/-- Marks in order: the last one is in front of `done`, if there is any. -/
lemma InOrder.last_eq (h : InOrder s done) {r : ℕ}
    (hr : LastMarked s.tx.vring s.released s.posted r) : r = max s.released (done - 1) := by
  have hle := h.released_le
  have hposted := h.le_posted
  have hfirst := hr.le
  have hupper : r = s.released ∨ r < done := by
    rcases hr.marked with rfl | ⟨hlt, hdu⟩
    · exact .inl rfl
    · exact .inr ((h.marked r hr.le hlt).mp hdu)
  have hlower : done ≤ r + 1 := by
    by_contra hlt
    exact hr.rest (r + 1) (Nat.lt_succ_self r) (by omega)
      ((h.marked (r + 1) (by omega) (by omega)).mpr (by omega))
  omega

/-- **A cleanup of a ring that is marked in order** releases what is in front of the last marked
descriptor. -/
theorem txCompletion_inOrder (hinv : RingInv s) (h : InOrder s done) :
    TxCompletion s.tx s.released s.passed s.posted (done - 1 - s.released) := by
  obtain ⟨r, n, hlast, hn, hle, -, hend⟩ := txCompletion_stop hinv.va hinv.ring
  have hr := h.last_eq hlast
  have hposted := h.le_posted
  have hreach : s.released + n = r := by
    rcases hend with heq | hstall
    · exact heq
    · by_contra hne
      exact hstall.2 ((h.marked _ (Nat.le_add_right _ _) (by omega)).mpr (by omega))
  have hcount : n = done - 1 - s.released := by omega
  exact hcount ▸ hn

/-- Where something is marked, the tail comes to the last marked descriptor, which stays. -/
theorem wilTxComplete_short (hinv : RingInv s) (h : InOrder s done) (hdone : s.released < done) :
    (wilTxComplete s.tx).1.vring.swtail = (done - 1) % s.tx.vring.size ∧
      ((wilTxComplete s.tx).1.vring.desc ((done - 1) % s.tx.vring.size)).du ∧
      ∃ skb, (wilTxComplete s.tx).1.vring.ctx ((done - 1) % s.tx.vring.size) = some skb := by
  have hn := txCompletion_inOrder hinv h
  have hposted := h.le_posted
  have hlast : s.released + (done - 1 - s.released) = done - 1 := by omega
  obtain ⟨hdesc, hctx⟩ := hn.frame (done - 1) (by omega) (by omega)
  refine ⟨by rw [hn.swtail, hlast], ?_, ?_⟩
  · rw [hdesc]
    exact (h.marked (done - 1) (by omega) (by omega)).mpr (by omega)
  · rw [hctx]
    exact hinv.ring.held (done - 1) (by omega) (by omega)

/-- **When a cleanup reclaims all that the hardware is done with**: only where that is nothing. -/
theorem reclaimed_iff {size : ℕ} (hsize : 0 < size) {tx : TxState} {as : List TxAction}
    (hrun : Machine.Exec TxSys.step (fun _ _ => True) (TxSys.init tx size) as s)
    (h : InOrder s done) : Reclaimed s done ↔ done = s.released := by
  have hinv : RingInv s :=
    hrun.invariant (fun _ _ _ _ ht hi => hi.step ht) (ringInv_init tx hsize)
  have hroom := hinv.ring.room
  have hposted := h.le_posted
  constructor
  · intro hrec
    by_contra hne
    have hdone : s.released < done := lt_of_le_of_ne h.released_le (Ne.symm hne)
    have hslot := (wilTxComplete_short hinv h hdone).1.symm.trans hrec.swtail
    exact Circular.ne_of_window (by omega) (by omega) hslot
  · rintro rfl
    have hn := txCompletion_inOrder hinv h
    rw [show s.released - 1 - s.released = 0 by omega] at hn
    refine ⟨hn.swtail, fun hempty => ⟨?_, fun p => ?_⟩⟩
    · rw [wilVringIsEmpty, hn.swhead, hn.swtail, hinv.ring.swhead, ← hempty, Nat.add_zero]
    · rw [taken_append, dropped_append, hn.taken, hn.dropped, hinv.refs p, ← hempty, Nat.sub_self]
      rfl

/-- One packet is posted, and the hardware is not done with it. -/
theorem reclaimed_posted : ∃ s : TxSys, s.posted = 1 ∧ Reclaimed s 0 := by
  have hrun : (Machine.exec TxSys.step (fun _ _ => True) (TxSys.init blankTx 4)
      [.xmit onePiece]).map (fun s => (s.posted, s.released, s.tx.vring.size,
        decide (s.tx.vring.desc 0).du)) = some (1, 0, 4, false) := by
    decide +kernel
  obtain ⟨s, hs, hend⟩ := Option.map_eq_some_iff.mp hrun
  simp only [Prod.mk.injEq, decide_eq_false_iff_not] at hend
  obtain ⟨hposted, hreleased, hsize, hdu⟩ := hend
  have hinorder : InOrder s 0 := by
    refine ⟨hreleased.le, Nat.zero_le _, fun k hk hk' => ?_⟩
    have hzero : k = 0 := by omega
    subst hzero
    simpa [hsize] using hdu
  exact ⟨s, hposted,
    (reclaimed_iff (by norm_num) (Machine.Exec.of_exec hs) hinorder).mpr hreleased.symm⟩

/-- One packet is posted, and the hardware is done with it: the cleanup leaves it where it is. -/
theorem not_reclaimed :
    ¬ ∀ (size : ℕ) (tx : TxState) (as : List TxAction) (s : TxSys) (done : ℕ), 0 < size →
      Machine.Exec TxSys.step (fun _ _ => True) (TxSys.init tx size) as s → InOrder s done →
        Reclaimed s done := by
  intro h
  have hrun : (Machine.exec TxSys.step (fun _ _ => True) (TxSys.init blankTx 4)
      [.xmit onePiece, .hwPass true 0]).map (fun s => (s.posted, s.released, s.tx.vring.size,
        decide (s.tx.vring.desc 0).du, (wilTxComplete s.tx).1.vring.swtail))
        = some (1, 0, 4, true, 0) := by
    decide +kernel
  obtain ⟨s, hs, hend⟩ := Option.map_eq_some_iff.mp hrun
  simp only [Prod.mk.injEq, decide_eq_true_eq] at hend
  obtain ⟨hposted, hreleased, hsize, hdu, htail⟩ := hend
  have hinorder : InOrder s 1 := by
    refine ⟨by omega, by omega, fun k hk hk' => ?_⟩
    have hzero : k = 0 := by omega
    subst hzero
    simpa [hsize] using hdu
  have hrec := (h 4 blankTx _ s 1 (by norm_num) (.of_exec hs) hinorder).swtail
  rw [htail, hsize] at hrec
  exact absurd hrec (by decide)

end Wil6210
