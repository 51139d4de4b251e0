import Wil6210.Tx.Logged
import Wil6210.Tx.Undo

/-!
# Stale contexts

`ctx[i]` is set by `wil_tx_vring` and cleared by `wil_tx_complete`.  The loop behind `dma_error`
drops the references of the slots it goes back over, and leaves their contexts: behind the head of
the ring they point to a buffer that the ring has no reference to.  Whoever follows `ctx[i]`, as the
dump of a descriptor in debugfs does, may come to a buffer that is gone.

`noStale_iff` says of every run when this does not happen: exactly where no call comes to
`dma_error`.
-/

namespace Wil6210

open Circular (slots mem_slots)

/-- The buffer that `wil_txdesc_debugfs_show` dumps for descriptor `dbgTxdescIndex` of a Tx ring, and
how many bytes of it. -/
def wilTxdescDebugfsShow (v : Vring) (dbgTxdescIndex : ℕ) : Option (TxSkb × ℕ) :=
  if ¬ v.va then none
  else if dbgTxdescIndex < v.size then
    match v.ctx dbgTxdescIndex with
    | none => none
    | some skb =>
        let len := (v.desc dbgTxdescIndex).length
        some (skb, if len ≠ skb.headlen then min len skb.headlen else len)
  else none

/-- **What must hold** in every state: contexts are set exactly in the slots of `[swtail, swhead)`,
and what is dumped of a slot is a buffer with a reference. -/
structure NoStale (s : LoggedTx) : Prop where
  ctx_iff : ∀ i < s.tx.vring.size, s.tx.vring.ctx i ≠ none ↔ i ∈ s.tx.vring.postedSlots
  shown : ∀ i skb len, wilTxdescDebugfsShow s.tx.vring i = some (skb, len) →
    dropped (· == skb) s.log < taken (· == skb) s.log

/-- No fragment of a packet that is sent fails to be mapped behind others. -/
def MapsAll (s : LoggedTx) : LoggedAction → Prop
  | .xmit q => ¬ q.DmaError s.tx.vring
  | _ => True

instance (s : LoggedTx) (a : LoggedAction) : Decidable (MapsAll s a) :=
  match a with
  | .xmit q => inferInstanceAs (Decidable (¬ q.DmaError s.tx.vring))
  | .hwMark _ _ | .complete => inferInstanceAs (Decidable True)

variable {s t : LoggedTx}

/-- A slot in use holds a buffer, with a reference. -/
lemma LoggedInv.held_of_mem (h : LoggedInv s) {i : ℕ} (hi : i ∈ s.tx.vring.postedSlots) :
    ∃ skb, s.tx.vring.ctx i = some skb ∧ dropped (· == skb) s.log < taken (· == skb) s.log := by
  rw [h.postedSlots_eq] at hi
  obtain ⟨k, hk, hkp, rfl⟩ := mem_slots.mp hi
  obtain ⟨skb, hskb⟩ := h.ring.held k hk (by omega)
  refine ⟨skb, hskb, ?_⟩
  have hheld : 0 < heldRefs s.tx.vring (· == skb) s.released (s.posted - s.released) :=
    List.countP_pos_iff.mpr ⟨k, List.mem_range'_1.mpr ⟨hk, hkp⟩, by simp [hskb]⟩
  rw [h.refs]
  omega

/-- It is enough that no other slot has a context. -/
lemma LoggedInv.clean_iff (h : LoggedInv s) : NoStale s ↔
    ∀ i < s.tx.vring.size, i ∉ s.tx.vring.postedSlots → s.tx.vring.ctx i = none := by
  constructor
  · intro hstale i hi hout
    by_contra hctx
    exact hout ((hstale.ctx_iff i hi).mp hctx)
  · intro hnone
    have hposted : ∀ i < s.tx.vring.size, s.tx.vring.ctx i ≠ none →
        i ∈ s.tx.vring.postedSlots := fun i hi hctx => by
      by_contra hout
      exact hctx (hnone i hi hout)
    refine ⟨fun i hi => ⟨hposted i hi, fun hmem => ?_⟩, fun i skb len hshow => ?_⟩
    · obtain ⟨skb, hskb, -⟩ := h.held_of_mem hmem
      simp [hskb]
    · rw [wilTxdescDebugfsShow] at hshow
      split_ifs at hshow with hva hi
      cases hctx : s.tx.vring.ctx i with
      | none =>
          rw [hctx] at hshow
          exact absurd hshow (by simp)
      | some skb' =>
          rw [hctx] at hshow
          obtain rfl : skb' = skb := congrArg Prod.fst (Option.some.inj hshow)
          obtain ⟨skb, hskb, href⟩ := h.held_of_mem (hposted i hi (by simp [hctx]))
          obtain rfl := Option.some.inj (hctx.symm.trans hskb)
          exact href

/-- A call that fails and does not come to `dma_error` leaves the ring. -/
lemma wilTxVring_kept {s : TxState} {q : TxRequest} (herror : ¬ q.DmaError s.vring)
    (hrc : (wilTxVring s q).2.2 ≠ 0) : (wilTxVring s q).1.vring = s.vring := by
  rw [TxRequest.DmaError] at herror
  rw [wilTxVring] at hrc ⊢
  by_cases hroom : wilVringAvailTx s.vring < 1 + q.nrFrags
  · rw [if_pos hroom]
  · rw [if_neg hroom] at hrc ⊢
    cases hmap : q.dmaMap 0 with
    | none => rfl
    | some pa =>
        have hfails : (txPieces q pa s.vring).1.2.2 = q.failsAt := txFrags_failsAt _ _ _ _ _ _
        have hnone : q.failsAt = none := by
          by_contra hsome
          exact herror ⟨hroom, by simp [hmap], hsome⟩
        simp only [hmap, hfails, hnone] at hrc
        exact absurd rfl hrc

/-- Packets that can be mapped leave no stale contexts. -/
lemma LoggedInv.xmit_noStale (h : LoggedInv s) (hs : NoStale s) {q : TxRequest}
    (ht : s.step (.xmit q) = some t) (hmaps : ¬ q.DmaError s.tx.vring) : NoStale t := by
  have hinv := h.step ht
  rw [hinv.clean_iff]
  rw [h.clean_iff] at hs
  obtain ⟨n, hn⟩ := txPosting s.tx q h.swhead_lt
  obtain rfl := Option.some.inj ht
  intro i hi hout
  by_cases hrc : (wilTxVring s.tx q).2.2 = 0
  · have hnew := (hn.success hrc).1
    rw [hinv.postedSlots_eq] at hout
    simp only [hn.size, if_pos hrc, ← hnew] at hi hout
    have hle := h.ring.released_le
    -- neither a slot that was in use nor one that was posted
    have hfresh : i ∉ slots s.tx.vring.size s.tx.vring.swhead n := by
      rw [h.ring.swhead, Circular.slots_mod]
      intro hmem
      obtain ⟨k, hk, hkn, heq⟩ := mem_slots.mp hmem
      exact hout (mem_slots.mpr ⟨k, by omega, by omega, heq⟩)
    have hold : i ∉ s.tx.vring.postedSlots := by
      rw [h.postedSlots_eq]
      intro hmem
      obtain ⟨k, hk, hkp, heq⟩ := mem_slots.mp hmem
      exact hout (mem_slots.mpr ⟨k, hk, by omega, heq⟩)
    exact (hn.frame i hfresh).2.trans (hs i hi hold)
  · have hkept := wilTxVring_kept hmaps hrc
    simp only [hkept] at hi hout ⊢
    exact hs i hi hout

/-- One whose fragment cannot be mapped leaves its linear part behind the head. -/
lemma LoggedInv.xmit_stale (h : LoggedInv s) {q : TxRequest}
    (ht : s.step (.xmit q) = some t) (herror : q.DmaError s.tx.vring) : ¬ NoStale t := by
  intro hstale
  obtain ⟨n, hn⟩ := txPosting s.tx q h.swhead_lt
  have hinv := h.step ht
  obtain ⟨pa, m, -, -, -, hpost, hrc, hring, -⟩ := wilTxVring_dmaError h.swhead_lt herror
  have hrc' : (wilTxVring s.tx q).2.2 ≠ 0 := by
    rw [hrc]
    decide
  obtain rfl := Option.some.inj ht
  have hctx : (wilTxVring s.tx q).1.vring.ctx s.tx.vring.swhead = some q.skb := by
    rw [hring, (txDmaError_undoes _ _ _ _ _).2.1]
    exact (hpost.fresh _ (mem_slots.mpr ⟨_, le_rfl, by omega, Nat.mod_eq_of_lt h.swhead_lt⟩)).2
  have hmem := (hstale.ctx_iff s.tx.vring.swhead (by
    show _ < (wilTxVring s.tx q).1.vring.size
    rw [hn.size]
    exact h.swhead_lt)).mp (by simp [hctx])
  rw [hinv.postedSlots_eq] at hmem
  simp only [hn.size, if_neg hrc', Nat.add_zero] at hmem
  obtain ⟨k, hk, hkp, heq⟩ := mem_slots.mp hmem
  have hroom := h.ring.room
  rw [h.ring.swhead] at heq
  exact Circular.ne_of_window (show k < s.posted by omega) (by omega) heq

/-- A step leaves no stale contexts exactly where it maps all that it begins to map. -/
lemma LoggedInv.step_noStale_iff (h : LoggedInv s) (hs : NoStale s) {a : LoggedAction}
    (ht : s.step a = some t) : NoStale t ↔ MapsAll s a := by
  have hinv := h.step ht
  cases a with
  | xmit q =>
      by_cases herror : q.DmaError s.tx.vring
      · exact iff_of_false (h.xmit_stale ht herror) (not_not.mpr herror)
      · exact iff_of_true (h.xmit_noStale hs ht herror) herror
  | hwMark k error =>
      refine iff_of_true ?_ trivial
      simp only [LoggedTx.step] at ht
      split_ifs at ht with hk
      obtain rfl := Option.some.inj ht
      rw [hinv.clean_iff]
      exact h.clean_iff.mp hs
  | complete =>
      refine iff_of_true ?_ trivial
      obtain ⟨n, hn⟩ := txCompletion h.va h.ring
      obtain ⟨hctx, -, -⟩ := wilTxComplete_slots h.va h.ring
      obtain rfl := Option.some.inj ht
      rw [hinv.clean_iff]
      rw [h.clean_iff] at hs
      intro i hi hout
      rw [hinv.postedSlots_eq] at hout
      simp only [hn.size, hn.done] at hi hout
      rw [hctx, hn.done]
      split_ifs with hreleased
      · rfl
      · refine hs i hi fun hmem => ?_
        rw [h.postedSlots_eq] at hmem
        obtain ⟨k, hk, hkp, heq⟩ := mem_slots.mp hmem
        rcases Nat.lt_or_ge k (s.released + n) with hlt | hge
        · exact hreleased (mem_slots.mpr ⟨k, hk, hlt, heq⟩)
        · exact hout (mem_slots.mpr ⟨k, hge, by omega, heq⟩)

lemma noStale_init (tx : TxState) {size : ℕ} (hsize : 0 < size) :
    NoStale (LoggedTx.init tx size) := by
  rw [(loggedInv_init tx hsize).clean_iff]
  exact fun _ _ _ => rfl

/-- **When contexts do not go stale.**  In every run from an empty ring, all states on the way are
free of stale contexts exactly where no call of `wil_tx_vring` comes to `dma_error`. -/
theorem noStale_iff {size : ℕ} (hsize : 0 < size) {tx : TxState} {as : List LoggedAction}
    (hrun : Machine.Exec LoggedTx.step (fun _ _ => True) (LoggedTx.init tx size) as s) :
    (∀ bs t, bs <+: as →
        Machine.Exec LoggedTx.step (fun _ _ => True) (LoggedTx.init tx size) bs t → NoStale t) ↔
      Machine.Exec LoggedTx.step MapsAll (LoggedTx.init tx size) as s :=
  Machine.Exec.always_iff (I := LoggedInv) (fun _ _ _ ht h => h.step ht)
    (fun _ _ _ ht h hs => h.step_noStale_iff hs ht) (loggedInv_init tx hsize)
    (noStale_init tx hsize) hrun

/-- A packet of two pieces, of which the first `m` can be mapped. -/
private def twoPieces (m : ℕ) : TxRequest :=
  ⟨⟨7, 100, 60, [40], false, 0, 0, 0, 0, 0⟩, 0, false, fun f => if f < m then some 4096 else none⟩

/-- On a ring of four: a packet of two pieces, one without a mapping, one of one piece, two marks and
a cleanup. -/
theorem noStale_four :
    ∃ s : LoggedTx, NoStale s ∧ (s.posted, s.released) = (3, 1) := by
  have hrun : (Machine.exec LoggedTx.step MapsAll (LoggedTx.init blankTx 4)
      [.xmit (twoPieces 2), .xmit (twoPieces 0), .xmit onePiece, .hwMark 0 0, .hwMark 1 0,
        .complete]).map (fun s => (s.posted, s.released)) = some (3, 1) := by
    decide +kernel
  obtain ⟨s, hs, hcounts⟩ := Option.map_eq_some_iff.mp hrun
  have hmaps := Machine.Exec.of_exec hs
  have hexec : Machine.Exec LoggedTx.step (fun _ _ => True) (LoggedTx.init blankTx 4) _ s :=
    hmaps.weaken fun _ _ _ => trivial
  exact ⟨s, (noStale_iff (by norm_num) hexec).mpr hmaps _ s (List.prefix_refl _) hexec, hcounts⟩

/-- The fragment of the first packet cannot be mapped: slot 0 is not in use, and its context is
set. -/
theorem not_noStale :
    ¬ ∀ (size : ℕ) (tx : TxState) (as : List LoggedAction) (s : LoggedTx), 0 < size →
      Machine.Exec LoggedTx.step (fun _ _ => True) (LoggedTx.init tx size) as s → NoStale s := by
  intro h
  have hrun : (Machine.exec LoggedTx.step (fun _ _ => True) (LoggedTx.init blankTx 4)
      [.xmit (twoPieces 1)]).map (fun s => (s.tx.vring.size, (s.tx.vring.ctx 0).isSome,
        s.tx.vring.postedSlots)) = some (4, true, []) := by
    decide +kernel
  obtain ⟨s, hs, hend⟩ := Option.map_eq_some_iff.mp hrun
  simp only [Prod.mk.injEq] at hend
  obtain ⟨hsize, hctx, hslots⟩ := hend
  have hstale := h 4 blankTx _ s (by norm_num) (.of_exec hs)
  have hmem := (hstale.ctx_iff 0 (by omega)).mp (by
    intro hnone
    rw [hnone] at hctx
    exact absurd hctx (by simp))
  rw [hslots] at hmem
  exact absurd hmem (by simp)

end Wil6210
