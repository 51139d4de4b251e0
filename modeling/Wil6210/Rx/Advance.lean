import Wil6210.Rx.Window

/-!
# Both release loops advance the head

`wil_release_reorder_frames` and `wil_reorder_release` run the same body, one release at the head
slot, and differ only in when they stop.  So both are `advanceN n` for some `n`: the distance to
`hseq` for the first (`wilReleaseReorderFrames_eq`), the length of the run of occupied slots for
the second (`wilReorderRelease_eq`).  What holds of the loops is proved once, about `advanceN`.

The trace is read with an unbounded head count `H`, of which `head_seq_num` is the residue:
`headAfter` counts the advances and `deliveries` pairs every delivered frame with the count at
which it was delivered.
-/

namespace Wil6210

/-! ## Reading a trace -/

/-- The head count after a trace that starts at count `H`. -/
def headAfter : ℕ → List RxEvent → ℕ
  | H, [] => H
  | H, .headInc _ :: es => headAfter (H + 1) es
  | H, _ :: es => headAfter H es

/-- The frames given to `wil_netif_rx_any`, each with the head count just before the advance that
delivered it. -/
def deliveries : ℕ → List RxEvent → List (ℕ × RxSkb)
  | _, [] => []
  | H, .headInc none :: es => deliveries (H + 1) es
  | H, .headInc (some skb) :: es => (H, skb) :: deliveries (H + 1) es
  | H, .netifRx skb :: es => (H, skb) :: deliveries H es
  | H, .kfreeStale _ :: es => deliveries H es
  | H, .kfreeDup _ :: es => deliveries H es

/-- Every delivery is made by an advance of the head, and at its own position. -/
def Orderly : ℕ → List RxEvent → Prop
  | _, [] => True
  | H, .headInc none :: es => Orderly (H + 1) es
  | H, .headInc (some skb) :: es => skb.seq = H % 4096 ∧ Orderly (H + 1) es
  | _, .netifRx _ :: _ => False
  | H, .kfreeStale _ :: es => Orderly H es
  | H, .kfreeDup _ :: es => Orderly H es

/-- The frames given to `wil_netif_rx_any`, in order. -/
def handedOver (es : List RxEvent) : List RxSkb :=
  es.filterMap fun
    | .headInc o => o
    | .netifRx skb => some skb
    | .kfreeStale _ => none
    | .kfreeDup _ => none

@[simp] lemma handedOver_append (es fs : List RxEvent) :
    handedOver (es ++ fs) = handedOver es ++ handedOver fs := by
  simp [handedOver]

lemma headAfter_append (es fs : List RxEvent) :
    ∀ H, headAfter H (es ++ fs) = headAfter (headAfter H es) fs := by
  induction es with
  | nil => intro H; rfl
  | cons e es ih =>
      intro H
      cases e <;> simp [headAfter, ih]

lemma orderly_append (es fs : List RxEvent) :
    ∀ H, Orderly H (es ++ fs) ↔ Orderly H es ∧ Orderly (headAfter H es) fs := by
  induction es with
  | nil => intro H; simp [Orderly, headAfter]
  | cons e es ih =>
      intro H
      rcases e with (_ | skb) | skb | skb | skb <;> simp [Orderly, headAfter, ih, and_assoc]

lemma le_of_mem_deliveries {es : List RxEvent} :
    ∀ {H : ℕ} {d : ℕ × RxSkb}, d ∈ deliveries H es → H ≤ d.1 := by
  induction es with
  | nil => rintro H d hd; simp [deliveries] at hd
  | cons e es ih =>
      rintro H d hd
      rcases e with (_ | skb) | skb | skb | skb <;> simp only [deliveries, List.mem_cons] at hd
      · exact le_trans (Nat.le_succ H) (ih hd)
      · rcases hd with rfl | hd
        · exact le_refl _
        · exact le_trans (Nat.le_succ H) (ih hd)
      · rcases hd with rfl | hd
        · exact le_refl _
        · exact ih hd
      · exact ih hd
      · exact ih hd

/-- An orderly trace delivers every frame at its own position. -/
lemma Orderly.seq_eq {es : List RxEvent} :
    ∀ {H : ℕ}, Orderly H es → ∀ d ∈ deliveries H es, d.2.seq = d.1 % 4096 := by
  induction es with
  | nil => rintro H - d hd; simp [deliveries] at hd
  | cons e es ih =>
      rintro H ho d hd
      rcases e with (_ | skb) | skb | skb | skb <;>
        simp only [deliveries, Orderly, List.mem_cons] at hd ho
      · exact ih ho d hd
      · rcases hd with rfl | hd
        · exact ho.1
        · exact ih ho.2 d hd
      · exact ih ho d hd
      · exact ih ho d hd

/-- In an orderly trace nothing is delivered without an advance of the head. -/
lemma Orderly.netifRx_notMem {es : List RxEvent} {skb : RxSkb} :
    ∀ {H : ℕ}, Orderly H es → .netifRx skb ∉ es := by
  induction es with
  | nil => intro H _; simp
  | cons e es ih =>
      intro H ho hmem
      rcases List.mem_cons.mp hmem with rfl | htail
      · exact ho
      · rcases e with (_ | skb) | skb | skb | skb <;> simp only [Orderly] at ho
        · exact ih ho htail
        · exact ih ho.2 htail
        · exact ih ho htail
        · exact ih ho htail

/-- An orderly trace never delivers two frames at one position. -/
lemma Orderly.increasing {es : List RxEvent} :
    ∀ {H : ℕ}, Orderly H es → (deliveries H es).Pairwise (fun a b => a.1 < b.1) := by
  induction es with
  | nil => rintro H -; simp [deliveries]
  | cons e es ih =>
      rintro H ho
      rcases e with (_ | skb) | skb | skb | skb <;> simp only [deliveries, Orderly] at ho ⊢
      · exact ih ho
      · refine List.pairwise_cons.mpr ⟨fun d hd => ?_, ih ho.2⟩
        exact lt_of_lt_of_le (Nat.lt_succ_self H) (le_of_mem_deliveries hd)
      · exact ih ho
      · exact ih ho

/-! ## The common loop body -/

/-- One pass of either loop. -/
def advance (r : WilTidAmpduRx) : WilTidAmpduRx × RxEvent :=
  wilReleaseReorderFrame r (reorderIndex r r.headSeqNum)

/-- `n` passes. -/
def advanceN : ℕ → WilTidAmpduRx → WilTidAmpduRx × List RxEvent
  | 0, r => (r, [])
  | n + 1, r =>
      let p := advance r
      let q := advanceN n p.1
      (q.1, p.2 :: q.2)

lemma advanceN_succ (n : ℕ) (r : WilTidAmpduRx) :
    advanceN (n + 1) r
      = ((advanceN n (advance r).1).1, (advance r).2 :: (advanceN n (advance r).1).2) := rfl

lemma advanceN_succ' (n : ℕ) (r : WilTidAmpduRx) :
    advanceN (n + 1) r
      = ((advance (advanceN n r).1).1, (advanceN n r).2 ++ [(advance (advanceN n r).1).2]) := by
  induction n generalizing r with
  | zero => rfl
  | succ n ih => rw [advanceN_succ, ih, advanceN_succ]; rfl

lemma seqLess_iff_seqSub {h hseq : ℕ} :
    seqLess h hseq ↔ 1 ≤ seqSub hseq h ∧ seqSub hseq h ≤ 2047 := by
  simp only [seqLess, seqSub]
  omega

/-- How many times the window advance loop runs. -/
def releaseCount (r : WilTidAmpduRx) (hseq : ℕ) : ℕ :=
  if seqLess r.headSeqNum hseq then seqSub hseq r.headSeqNum else 0

/-- **`wil_release_reorder_frames` is that many passes.** -/
theorem wilReleaseReorderFrames_eq (r : WilTidAmpduRx) (hseq : ℕ) :
    wilReleaseReorderFrames r hseq = advanceN (releaseCount r hseq) r := by
  induction r using wilReleaseReorderFrames.induct hseq with
  | case1 r hlt p ih =>
      have hcount : releaseCount r hseq = releaseCount (advance r).1 hseq + 1 := by
        simp only [releaseCount, advance, wilReleaseReorderFrame_head, if_pos hlt]
        split_ifs with h2 <;> simp only [seqLess, seqSub, seqInc] at * <;> omega
      have hrest : wilReleaseReorderFrames (advance r).1 hseq
          = advanceN (releaseCount (advance r).1 hseq) (advance r).1 := ih
      rw [wilReleaseReorderFrames, dif_pos hlt, hcount, advanceN_succ, ← hrest]
      rfl
  | case2 r hlt =>
      rw [wilReleaseReorderFrames, dif_neg hlt, releaseCount, if_neg hlt]
      rfl

/-- **`wil_reorder_release` is some number of passes, each over an occupied slot, and stops at an
empty one.** -/
theorem wilReorderRelease_eq (r : WilTidAmpduRx) :
    ∃ n, wilReorderRelease r = advanceN n r ∧ HeadEmpty (advanceN n r).1 ∧
      ∀ m < n, ¬ HeadEmpty (advanceN m r).1 := by
  induction r using wilReorderRelease.induct with
  | case1 r hocc p ih =>
      obtain ⟨n, heq, hempty, hall⟩ := ih
      have hrest : wilReorderRelease (advance r).1 = advanceN n (advance r).1 := heq
      refine ⟨n + 1, ?_, hempty, ?_⟩
      · rw [wilReorderRelease, dif_pos hocc, advanceN_succ, ← hrest]
        rfl
      · rintro (_ | m) hm
        · intro hn
          rw [show (advanceN 0 r).1 = r from rfl, HeadEmpty] at hn
          rw [hn] at hocc
          exact absurd hocc (by simp)
        · exact hall m (by omega)
  | case2 r hocc =>
      refine ⟨0, ?_, ?_, fun m hm => absurd hm (by omega)⟩
      · rw [wilReorderRelease, dif_neg hocc]; rfl
      · exact Option.not_isSome_iff_eq_none.mp hocc

/-! ## What any number of passes preserves -/

section AdvanceN

variable {r : WilTidAmpduRx}

@[simp] lemma advanceN_ssn (n : ℕ) (r : WilTidAmpduRx) : (advanceN n r).1.ssn = r.ssn := by
  induction n generalizing r with
  | zero => rfl
  | succ n ih => rw [advanceN_succ]; simp [ih, advance]

@[simp] lemma advanceN_bufSize (n : ℕ) (r : WilTidAmpduRx) :
    (advanceN n r).1.bufSize = r.bufSize := by
  induction n generalizing r with
  | zero => rfl
  | succ n ih => rw [advanceN_succ]; simp [ih, advance]

@[simp] lemma reorderIndex_advanceN (n seq : ℕ) (r : WilTidAmpduRx) :
    reorderIndex (advanceN n r).1 seq = reorderIndex r seq := by
  simp [reorderIndex]

lemma advanceN_head (hr : r.headSeqNum < 4096) (n : ℕ) :
    (advanceN n r).1.headSeqNum = (r.headSeqNum + n) % 4096 := by
  induction n with
  | zero => exact (Nat.mod_eq_of_lt hr).symm
  | succ n ih =>
      rw [advanceN_succ', advance, wilReleaseReorderFrame_head, ih, seqInc]
      omega

lemma SlotInv.advanceN (h : SlotInv r) (n : ℕ) : SlotInv (advanceN n r).1 := by
  induction n generalizing r with
  | zero => exact h
  | succ n ih => exact ih h.release

lemma WindowInv.advanceN (h : WindowInv r) (n : ℕ) : WindowInv (Wil6210.advanceN n r).1 := by
  induction n generalizing r with
  | zero => exact h
  | succ n ih => exact ih h.release

/-- An empty slot stays empty. -/
lemma slot_advanceN_of_none (h : SlotInv r) {i : ℕ} (hi : r.slot i = none) (n : ℕ) :
    (Wil6210.advanceN n r).1.slot i = none := by
  induction n generalizing r with
  | zero => exact hi
  | succ n ih =>
      refine ih h.release ?_
      rw [advance, slot_release h]
      split_ifs
      · rfl
      · exact hi

lemma advance_headInc (r : WilTidAmpduRx) : ∃ o, (advance r).2 = .headInc o := by
  simp only [advance, wilReleaseReorderFrame]
  split
  · exact ⟨none, rfl⟩
  · exact ⟨some _, rfl⟩

lemma headAfter_advanceN (n H : ℕ) (r : WilTidAmpduRx) :
    headAfter H (advanceN n r).2 = H + n := by
  induction n generalizing r H with
  | zero => rfl
  | succ n ih =>
      obtain ⟨o, ho⟩ := advance_headInc r
      rw [advanceN_succ]
      simp only [ho, headAfter, ih]
      omega

/-- **The passes deliver in order**, when `buf_size` divides 4096. -/
theorem WindowInv.orderly_advanceN (h : WindowInv r) (hdvd : r.bufSize ∣ 4096) {H : ℕ}
    (hH : r.headSeqNum = H % 4096) (n : ℕ) : Orderly H (Wil6210.advanceN n r).2 := by
  induction n generalizing r H with
  | zero => exact trivial
  | succ n ih =>
      have hH' : (advance r).1.headSeqNum = (H + 1) % 4096 := by
        rw [advance, wilReleaseReorderFrame_head, hH, seqInc]
        omega
      have hrest := ih (r := (advance r).1) h.release (by simpa [advance] using hdvd) hH'
      rw [advanceN_succ]
      cases hs : r.slot (reorderIndex r r.headSeqNum) with
      | none =>
          have he : (advance r).2 = .headInc none := by simp [advance, wilReleaseReorderFrame, hs]
          rw [he]
          exact hrest
      | some skb =>
          have he : (advance r).2 = .headInc (some skb) := by
            simp [advance, wilReleaseReorderFrame, hs]
          rw [he]
          exact ⟨(h.head_slot hdvd hs).trans hH, hrest⟩

/-- The slot of the last position passed is empty. -/
lemma slot_advanceN_succ (h : WindowInv r) (n : ℕ) :
    (advanceN (n + 1) r).1.slot (reorderIndex r ((r.headSeqNum + n) % 4096)) = none := by
  have hinv := h.advanceN n
  have hslot := slot_release hinv.toSlotInv (reorderIndex r ((r.headSeqNum + n) % 4096))
  rw [advanceN_succ']
  rw [advanceN_head h.head_lt, reorderIndex_advanceN, if_pos rfl] at hslot
  simpa [advance, advanceN_head h.head_lt] using hslot

end AdvanceN

end Wil6210
