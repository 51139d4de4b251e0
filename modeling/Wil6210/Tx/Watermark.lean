import Wil6210.Tx.Cleanup
import Wil6210.Tx.TsoPost

/-!
# When the queues are stopped and woken

`wil_tx_vring` and `wil_tx_vring_tso` stop the queues where less than an eighth of the ring is left,
before they do anything else, and `wil_tx_complete` wakes them where, at its end, more than a
quarter is free.  Nothing else that the three do touches the queues (`queueEvents_wilTxVring`,
`queueEvents_wilTxVringTso`, `queueEvents_wilTxComplete`).

A ring that stops the queues is near full, and stays so until a cleanup wakes them: posting only
moves the head (`Advanced`), and a cleanup moves the tail to some place up to the head
(`wilTxComplete_tail`).  Where every descriptor of the ring is marked, the cleanup frees all but
one of them (`wilTxComplete_wakes`).
-/

namespace Wil6210

/-! ## Stops and wakes in a trace -/

/-- Stops or wakes the queues. -/
def TxEvent.onQueues : TxEvent → Bool
  | .stopAllQueues | .wakeAllQueues => true
  | _ => false

/-- The stops and wakes of a trace. -/
def queueEvents (es : List TxEvent) : List TxEvent := es.filter TxEvent.onQueues

variable {v w : Vring} {s : TxState}

@[simp] lemma queueEvents_nil : queueEvents [] = [] := rfl

@[simp] lemma queueEvents_append (es fs : List TxEvent) :
    queueEvents (es ++ fs) = queueEvents es ++ queueEvents fs :=
  List.filter_append _ _

@[simp] lemma queueEvents_cons (e : TxEvent) (es : List TxEvent) :
    queueEvents (e :: es) = if e.onQueues then e :: queueEvents es else queueEvents es :=
  List.filter_cons

@[simp] lemma queueEvents_txStop (v : Vring) : queueEvents (txStop v) = txStop v := by
  simp only [txStop]
  split_ifs <;> rfl

@[simp] lemma queueEvents_txWake (v : Vring) : queueEvents (txWake v) = txWake v := by
  simp only [txWake]
  split_ifs <;> rfl

@[simp] lemma onQueues_dmaUnmap (cb : WilSkbCb) (i : ℕ) (d : VringTxDesc) :
    (dmaUnmap cb i d).onQueues = false := by
  simp only [dmaUnmap]
  split_ifs <;> rfl

@[simp] lemma onQueues_release (i : ℕ) : (TxEvent.release i).onQueues = false := rfl

@[simp] lemma onQueues_kfreeSkb (skb : TxSkb) : (TxEvent.kfreeSkb skb).onQueues = false := rfl

@[simp] lemma onQueues_iowriteHwtail (hwtail swhead : ℕ) :
    (TxEvent.iowriteHwtail hwtail swhead).onQueues = false := rfl

/-! ## Posting -/

/-- A call moved the head, to some slot, or left it, and kept the rest of the registers. -/
structure Advanced (v w : Vring) : Prop where
  va : w.va = v.va
  size : w.size = v.size
  swtail : w.swtail = v.swtail
  swhead_lt : v.swhead < v.size → w.swhead < v.size

lemma Advanced.refl (v : Vring) : Advanced v v := ⟨rfl, rfl, rfl, id⟩

lemma SameRing.advanced (h : SameRing v w) : Advanced v w :=
  ⟨h.va, h.size, h.swtail, fun hlt => h.swhead ▸ hlt⟩

lemma SameRing.advance (h : SameRing v w) (n : ℕ) : Advanced v (wilVringAdvanceHead w n) := by
  refine ⟨h.va, h.size, h.swtail, fun hlt => ?_⟩
  show (w.swhead + n) % w.size < v.size
  rw [h.size]
  exact Nat.mod_lt _ (by omega)

lemma queueEvents_onRing {es : List TxEvent} (h : ∀ e ∈ es, e.onRing) : queueEvents es = [] := by
  refine List.filter_eq_nil_iff.mpr fun e he => ?_
  have hring := h e he
  cases e <;> simp_all [TxEvent.onRing, TxEvent.onQueues]

/-- A call that posts stops the queues, or leaves them. -/
lemma CallEvents.queueEvents {es : List TxEvent} (h : CallEvents v es) :
    queueEvents es = txStop v := by
  obtain ⟨fs, hfs, rfl | ⟨swhead, rfl⟩⟩ := h
  · simp [queueEvents_onRing hfs]
  · simp [queueEvents_onRing hfs]

/-- **What `wil_tx_vring` does to the queues.** -/
theorem queueEvents_wilTxVring (s : TxState) (q : TxRequest) :
    queueEvents (wilTxVring s q).2.1 = txStop s.vring :=
  (wilTxVring_events s q).queueEvents

lemma advanced_wilTxVring (q : TxRequest) (hhead : s.vring.swhead < s.vring.size) :
    Advanced s.vring (wilTxVring s q).1.vring := by
  obtain ⟨n, hn⟩ := txPosting s q hhead
  refine ⟨hn.va, hn.size, hn.swtail, fun hlt => ?_⟩
  by_cases hrc : (wilTxVring s q).2.2 = 0
  · rw [(hn.success hrc).2.1]
    exact Nat.mod_lt _ (by omega)
  · rw [(hn.failure hrc).1]
    exact hlt

/-! ## Posting a packet for segmentation -/

/-- **What `wil_tx_vring_tso` does** to the ends of the ring and to the queues. -/
theorem wilTxVringTso_spec (s : TxState) (q : TsoRequest) :
    Advanced s.vring (wilTxVringTso s q).1.vring ∧
      queueEvents (wilTxVringTso s q).2.1 = txStop s.vring := by
  refine ⟨?_, (wilTxVringTso_events s q).queueEvents⟩
  simp only [wilTxVringTso]
  split_ifs
  · exact .refl _
  · exact .refl _
  · cases q.dma.single 0 q.hdrlen with
    | none => exact .refl _
    | some pa =>
        have hpieces : (tsoPieces q s.vring pa).1.Local s.vring := .pieces pa
        dsimp only
        split <;> rename_i t hend <;> rw [hend] at hpieces
        · have hundone := (txDmaError_undoes t.cb q.skb (s.vring.swhead + 1) t.descsUsed t.vring).1
          rw [← tsoDmaError_eq] at hundone
          exact (hpieces.same.trans hundone).advanced
        · have hlast : (t.endChunk q).Local s.vring := hpieces.endChunk
          exact SameRing.advance ((hlast.same.trans (SameRing.setDesc _ _ _)).trans
            (SameRing.setDesc _ _ _)) _

/-! ## Cleaning up -/

/-- Every descriptor between the tail and the head is marked. -/
def Vring.AllDone (v : Vring) : Prop :=
  ∀ k, v.swtail ≤ k → k < v.swtail + v.used → (v.desc (k % v.size)).du

/-- The first loop finds some descriptor up to the head; where all are marked, the last one. -/
lemma swtailToRel_spec (hhead : v.swhead < v.size) (htail : v.swtail < v.size) :
    ∃ r, v.swtail ≤ r ∧ r ≤ v.swtail + v.used ∧ swtailToRel v = r % v.size ∧
      (v.AllDone → v.swtail + v.used ≤ r + 1) := by
  obtain ⟨hused, htailmod, hheadmod⟩ := Vring.head_mod hhead htail
  have hq : v.swtail + v.used < v.swtail + v.size := by omega
  have hloop := Circular.loop_rule (p := v.swtail) (q := v.swtail + v.used)
    (f := fun i rel => some (if (v.desc i).du then i else rel))
    (P := fun k rel => ∃ r, v.swtail ≤ r ∧ r ≤ k ∧ rel = r % v.size ∧ (v.AllDone → k ≤ r + 1))
    (n := v.size) (s := v.swtail) (Nat.le_add_right _ _) hq (by omega)
    ⟨v.swtail, le_rfl, le_rfl, htailmod.symm, fun _ => Nat.le_succ _⟩
    (by
      rintro k rel rel' hk hkq ⟨r, hr, hrk, rfl, hlast⟩ hpass
      simp only [Option.some.injEq] at hpass
      split_ifs at hpass with hdu
      · exact ⟨k, hk, Nat.le_succ k, hpass.symm, fun _ => le_rfl⟩
      · exact ⟨r, hr, hrk.trans (Nat.le_succ k), hpass.symm,
          fun hdone => absurd (hdone k hk hkq) hdu⟩)
  obtain ⟨k, -, hkq, -, ⟨r, hr, hrk, hrel, hlast⟩, hend⟩ := hloop
  rw [hheadmod, htailmod] at hrel hend
  have hkend : k = v.swtail + v.used := hend.resolve_right (by simp)
  exact ⟨r, hr, hrk.trans hkq, hrel, fun hdone => hkend ▸ hlast hdone⟩

/-- The second loop, at position `k`: the ends of the ring, what is not cleared, and the queues. -/
structure Clearing (v : Vring) (k : ℕ) (c : TxCleanup) : Prop where
  same : SameRing v c.state.vring
  frame : ∀ j, k ≤ j → j < v.swtail + v.used →
    c.state.vring.desc (j % v.size) = v.desc (j % v.size)
  quiet : queueEvents c.events = []

lemma Clearing.step {k : ℕ} {c d : TxCleanup} (h : Clearing v k c) (hused : v.used < v.size)
    (hk : v.swtail ≤ k) (hpass : txCompleteSlot (k % v.size) c = some d) :
    Clearing v (k + 1) d := by
  have hframe : ∀ j, k + 1 ≤ j → j < v.swtail + v.used →
      (txClearSlot (k % v.size) c.state.vring).desc (j % v.size) = v.desc (j % v.size) := by
    intro j hj hjq
    have hne : j % v.size ≠ k % v.size :=
      (Circular.ne_of_window (by omega) (by omega)).symm
    simpa [txClearSlot, Vring.setCtx, Vring.setDesc, hne] using h.frame j (by omega) hjq
  have hsame : SameRing v (txClearSlot (k % v.size) c.state.vring) :=
    (h.same.trans (SameRing.setCtx _ _ _)).trans (SameRing.setDesc _ _ _)
  simp only [txCompleteSlot] at hpass
  split_ifs at hpass
  split at hpass <;> obtain rfl := Option.some.inj hpass
  · exact ⟨hsame, hframe, by simp [h.quiet]⟩
  · exact ⟨hsame, hframe, by simp [h.quiet]⟩

/-- What a call of `wil_tx_complete` does to the ends of the ring and to the queues: the tail comes
to position `k`, and where every descriptor is marked to the last one at least. -/
structure TailMoved (s : TxState) (k : ℕ) : Prop where
  le : s.vring.swtail ≤ k
  le_head : k ≤ s.vring.swtail + s.vring.used
  va : (wilTxComplete s).1.vring.va = s.vring.va
  size : (wilTxComplete s).1.vring.size = s.vring.size
  swhead : (wilTxComplete s).1.vring.swhead = s.vring.swhead
  swtail : (wilTxComplete s).1.vring.swtail = k % s.vring.size
  queues : queueEvents (wilTxComplete s).2.1 = txWake (wilTxComplete s).1.vring
  all : s.vring.AllDone → s.vring.swtail + s.vring.used ≤ k + 1

/-- **What `wil_tx_complete` does** to the ends of the ring and to the queues. -/
theorem wilTxComplete_tail (hva : s.vring.va = true) (hhead : s.vring.swhead < s.vring.size)
    (htail : s.vring.swtail < s.vring.size) : ∃ k, TailMoved s k := by
  obtain ⟨hused, htailmod, -⟩ := Vring.head_mod hhead htail
  obtain ⟨r, hr, hrq, hrel, hlast⟩ := swtailToRel_spec hhead htail
  obtain ⟨k, hk, hkr, hi, hc, hend⟩ := Circular.loop_rule (P := Clearing s.vring)
    (f := txCompleteSlot) (n := s.vring.size) (s := ⟨s, 0, []⟩) hr
    (show r < s.vring.swtail + s.vring.size by omega) (by omega)
    ⟨SameRing.refl _, fun _ _ _ => rfl, rfl⟩
    (fun k c d hk _ hc hpass => hc.step hused hk hpass)
  rw [htailmod, ← hrel] at hi hc hend
  set p := Circular.loop s.vring.size (swtailToRel s.vring) txCompleteSlot s.vring.size
    s.vring.swtail ⟨s, 0, []⟩ with hp
  have hcall : wilTxComplete s =
      ({ p.2.state with vring := { p.2.state.vring with swtail := p.1 } },
        p.2.events ++ txWake { p.2.state.vring with swtail := p.1 }, p.2.done) := by
    simp [wilTxComplete, hva, ← hp]
  refine ⟨k, hk, by omega, ?_, ?_, ?_, ?_, ?_, fun hdone => ?_⟩
  · rw [hcall]
    exact hc.same.va
  · rw [hcall]
    exact hc.same.size
  · rw [hcall]
    exact hc.same.swhead
  · rw [hcall]
    exact hi
  · rw [hcall]
    simp [hc.quiet]
  · have hlt := hlast hdone
    rcases hend with rfl | hbreak
    · exact hlt
    · -- where all is marked the loop does not break
      by_contra hshort
      have hdu := hdone k hk (by omega)
      rw [← hc.frame k le_rfl (by omega)] at hdu
      simp only [txCompleteSlot] at hbreak
      split_ifs at hbreak with heop
      · exact heop.2 hdu
      · split at hbreak <;> exact absurd hbreak (by simp)

/-- What the cleanup leaves in use. -/
lemma TailMoved.used {k : ℕ} (h : TailMoved s k) (hhead : s.vring.swhead < s.vring.size)
    (htail : s.vring.swtail < s.vring.size) :
    (wilTxComplete s).1.vring.used = s.vring.swtail + s.vring.used - k := by
  obtain ⟨hused, -, hheadmod⟩ := Vring.head_mod hhead htail
  have hle := h.le
  rw [Vring.used, h.size, h.swhead, h.swtail, ← hheadmod]
  exact Circular.dist_mod h.le_head (by omega)

/-! ## The marks -/

/-- So many descriptors that less than a quarter of the ring is left. -/
def Vring.nearFull (v : Vring) : ℕ := v.size - 1 - v.size / 4

lemma nearFull_congr (h : w.size = v.size) : w.nearFull = v.nearFull := by
  rw [Vring.nearFull, Vring.nearFull, h]

/-- A ring that stops the queues is near full. -/
lemma nearFull_le_of_stop (h : TxEvent.stopAllQueues ∈ txStop v) : v.nearFull ≤ v.used := by
  rw [txStop] at h
  split_ifs at h with hlow
  · unfold wilVringAvailTx at hlow
    unfold Vring.nearFull
    omega
  · exact absurd h (by simp)

/-- A cleanup that does not wake the queues leaves the ring near full. -/
lemma nearFull_le_of_not_wake (h : txWake v = []) : v.nearFull ≤ v.used := by
  rw [txWake] at h
  split_ifs at h with hhigh
  unfold wilVringAvailTx at hhigh
  unfold Vring.nearFull
  omega

/-- **A cleanup wakes the queues** where the hardware is done with all that is in the ring. -/
theorem wilTxComplete_wakes (hva : s.vring.va = true) (hhead : s.vring.swhead < s.vring.size)
    (htail : s.vring.swtail < s.vring.size) (hsize : 3 ≤ s.vring.size) (h : s.vring.AllDone) :
    queueEvents (wilTxComplete s).2.1 = [.wakeAllQueues] := by
  obtain ⟨k, hk⟩ := wilTxComplete_tail hva hhead htail
  have hused := hk.used hhead htail
  have hlast := hk.all h
  rw [hk.queues, txWake, wilVringAvailTx, hk.size, hused, if_pos (by omega)]

end Wil6210
