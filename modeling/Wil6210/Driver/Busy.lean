import Wil6210.Driver.Xmit

/-!
# `NETDEV_TX_BUSY`

The stack keeps a packet that is answered with `NETDEV_TX_BUSY` and submits it again, so such a call
should have done nothing.  It returns that where the ring for the packet has no room
(`XmitSkb.NoRoom`).  For a packet to one station this is the first thing that is looked at.  For any
other, `wil_tx_bcast` has by then replaced the destination address and posted copies on the other
rings; `busyQuiet_iff` says when it has not, and `postedOnce` what follows for the attempts at one
packet.
-/

namespace Wil6210

variable {w u : Wil} {q : XmitRequest} {i : RingId} {l : List RingId}

/-! ## What is asked of such a call -/

/-- The head of ring `i` has moved: descriptors were posted on it. -/
def PostsOn (w : Wil) (q : XmitRequest) (i : RingId) : Prop :=
  ((wilStartXmit w q).wil.vringTx i).swhead ≠ (w.vringTx i).swhead

instance (w : Wil) (q : XmitRequest) (i : RingId) : Decidable (PostsOn w q i) :=
  inferInstanceAs (Decidable (_ ≠ _))

/-- A call that answers `NETDEV_TX_BUSY` leaves the packet as it is, and posts nothing. -/
def BusyQuiet (w : Wil) (q : XmitRequest) : Prop :=
  (wilStartXmit w q).ret = .netdevTxBusy →
    (wilStartXmit w q).skb = q.skb ∧ ∀ i, ¬ PostsOn w q i

/-- Attempts at one packet: each but the last is answered with `NETDEV_TX_BUSY`, and the next one
has the packet as the driver left it.  Meanwhile anything may happen to the driver. -/
def Retries : List (Wil × XmitRequest) → Prop
  | [] | [_] => True
  | c :: d :: cs =>
      (wilStartXmit c.1 c.2).ret = .netdevTxBusy ∧ d.2.skb = (wilStartXmit c.1 c.2).skb ∧
        Retries (d :: cs)

/-- The packet is posted at most once on each ring, and was the same in every attempt. -/
def PostedOnce (calls : List (Wil × XmitRequest)) : Prop :=
  (∀ i, (calls.countP fun c => PostsOn c.1 c.2 i) ≤ 1) ∧
    ∀ c ∈ calls, ∀ d ∈ calls, c.2.skb = d.2.skb

/-! ## When it is not so -/

/-- `wil_tx_vring`, or `wil_tx_vring_tso`, returns `-ENOMEM`. -/
def XmitSkb.NoRoom (skb : XmitSkb) (v : Vring) : Prop :=
  wilVringAvailTx v < if skb.gsoSize ≠ 0 then skb.frags.length * 3 + 1 else 1 + skb.frags.length

/-- `wil_set_da_for_vring` replaces the address of the packet by another one. -/
def Readdressed (w : Wil) (q : XmitRequest) (i : RingId) : Prop :=
  bcastToUcast w = true ∧ ∃ h : w.owner i < 8, (w.sta ⟨w.owner i, h⟩).addr ≠ q.skb.hDest

/-- A copy can be made, mapped and posted on ring `i`. -/
def CopyFits (w : Wil) (q : XmitRequest) (i : RingId) : Prop :=
  (w.vringTx i).va = true ∧ (q.skbCopy i).isSome ∧ 1 ≤ wilVringAvailTx (w.vringTx i) ∧
    ((q.copyDma i).single 0 q.skb.len).isSome

/-- The first ring has no room for the packet, after its address was replaced or a copy was posted
on another ring. -/
def BusyHarms (w : Wil) (q : XmitRequest) : Prop :=
  GoesToBcast w q ∧ ∃ i, wilFindFirstTxVring w = some i ∧ q.skb.NoRoom (w.vringTx i) ∧
    (Readdressed w q i ∨ ∃ j ∈ ringsBehind i, CopyFits w q j)

/-! ## Posting -/

/-- `wil_tx_vring` gives up before anything else where there is no room, and only there it returns
`-ENOMEM`. -/
lemma wilTxVring_nomem (s : TxState) (q : TxRequest) :
    (wilVringAvailTx s.vring < 1 + q.nrFrags →
        wilTxVring s q = (s, txStop s.vring, eNomem)) ∧
      ((wilTxVring s q).2.2 = eNomem → wilVringAvailTx s.vring < 1 + q.nrFrags) := by
  have hne : eInval ≠ eNomem := by decide
  refine ⟨fun h => by simp [wilTxVring, h], fun h => ?_⟩
  by_contra hroom
  simp only [wilTxVring, if_neg hroom] at h
  cases hmap : q.dmaMap 0 with
  | none =>
      rw [hmap] at h
      exact hne h
  | some pa =>
      rw [hmap] at h
      cases hend : (txPieces q pa s.vring).1.2.2 with
      | some f =>
          simp only [hend] at h
          exact hne h
      | none =>
          simp only [hend] at h
          exact absurd h (show (0 : ℤ) ≠ eNomem by decide)

/-- So does `wil_tx_vring_tso`. -/
lemma wilTxVringTso_nomem (s : TxState) (q : TsoRequest) :
    (wilVringAvailTx s.vring < q.nrFrags * 3 + 1 →
        wilTxVringTso s q = (s, txStop s.vring, eNomem)) ∧
      ((wilTxVringTso s q).2.2 = eNomem → wilVringAvailTx s.vring < q.nrFrags * 3 + 1) := by
  have hne : eInval ≠ eNomem := by decide
  refine ⟨fun h => by simp [wilTxVringTso, h], fun h => ?_⟩
  by_contra hroom
  simp only [wilTxVringTso, if_neg hroom] at h
  split_ifs at h
  · exact hne h
  · cases hmap : q.dma.single 0 q.hdrlen with
    | none =>
        rw [hmap] at h
        exact hne h
    | some pa =>
        rw [hmap] at h
        dsimp only at h
        split at h
        · exact hne h
        · exact absurd h (show (0 : ℤ) ≠ eNomem by decide)

lemma setTx_txState (w : Wil) (i : RingId) : w.setTx i (w.txState i) = w := by
  simp [Wil.setTx, Wil.txState]

/-- On ring `i`. -/
lemma txVring_nomem (w : Wil) (i : RingId) (skb : XmitSkb) (hwCsum : Bool) (dma : DmaMapping) :
    ((w.txVring i skb hwCsum dma).2.2 = eNomem ↔
        wilVringAvailTx (w.vringTx i) < 1 + skb.frags.length) ∧
      (wilVringAvailTx (w.vringTx i) < 1 + skb.frags.length →
        (w.txVring i skb hwCsum dma).1 = w) := by
  refine ⟨⟨fun h => (wilTxVring_nomem (w.txState i) _).2 h, fun h => ?_⟩, fun h => ?_⟩
  · simp only [Wil.txVring]
    rw [(wilTxVring_nomem (w.txState i) _).1]
    exact h
  · simp only [Wil.txVring]
    rw [(wilTxVring_nomem (w.txState i) _).1]
    · exact setTx_txState w i
    · exact h

lemma txVringTso_nomem (w : Wil) (i : RingId) (skb : XmitSkb) (dma : DmaMapping) :
    ((w.txVringTso i skb dma).2.2 = eNomem ↔
        wilVringAvailTx (w.vringTx i) < skb.frags.length * 3 + 1) ∧
      (wilVringAvailTx (w.vringTx i) < skb.frags.length * 3 + 1 →
        (w.txVringTso i skb dma).1 = w) := by
  refine ⟨⟨fun h => (wilTxVringTso_nomem (w.txState i) _).2 h, fun h => ?_⟩, fun h => ?_⟩
  · simp only [Wil.txVringTso]
    rw [(wilTxVringTso_nomem (w.txState i) _).1]
    exact h
  · simp only [Wil.txVringTso]
    rw [(wilTxVringTso_nomem (w.txState i) _).1]
    · exact setTx_txState w i
    · exact h

/-- `NETDEV_TX_BUSY` stands for `-ENOMEM`, and then nothing more is done. -/
lemma xmitReturn_busy (w : Wil) (skb : XmitSkb) (es : List XmitEvent) (rc : ℤ) :
    ((xmitReturn w skb es rc).ret = .netdevTxBusy ↔ rc = eNomem) ∧
      (rc = eNomem → (xmitReturn w skb es rc).wil = w ∧ (xmitReturn w skb es rc).skb = skb) := by
  simp only [xmitReturn]
  split_ifs with hzero hnomem
  · simp [hzero, eNomem]
  · simp [hnomem]
  · simp [xmitDropErr, xmitDrop, hnomem]

/-- **The ring for the packet**: `NETDEV_TX_BUSY` where it has no room, and then nothing is done. -/
lemma xmitOn_busy (w : Wil) (q : XmitRequest) (i : RingId) (skb : XmitSkb) (es : List XmitEvent) :
    ((xmitOn w q i skb es).ret = .netdevTxBusy ↔ skb.NoRoom (w.vringTx i)) ∧
      (skb.NoRoom (w.vringTx i) →
        (xmitOn w q i skb es).wil = w ∧ (xmitOn w q i skb es).skb = skb) := by
  simp only [xmitOn, XmitSkb.NoRoom]
  split_ifs with hgso
  · obtain ⟨hnomem, hsame⟩ := txVringTso_nomem w i skb q.dma
    obtain ⟨hbusy, hquiet⟩ := xmitReturn_busy (w.txVringTso i skb q.dma).1 skb
      (es ++ (w.txVringTso i skb q.dma).2.1) (w.txVringTso i skb q.dma).2.2
    refine ⟨hbusy.trans hnomem, fun h => ?_⟩
    obtain ⟨hwil, hskb⟩ := hquiet (hnomem.mpr h)
    exact ⟨hwil.trans (hsame h), hskb⟩
  · obtain ⟨hnomem, hsame⟩ := txVring_nomem w i skb q.hwCsum q.dma
    obtain ⟨hbusy, hquiet⟩ := xmitReturn_busy (w.txVring i skb q.hwCsum q.dma).1 skb
      (es ++ (w.txVring i skb q.hwCsum q.dma).2.1) (w.txVring i skb q.hwCsum q.dma).2.2
    refine ⟨hbusy.trans hnomem, fun h => ?_⟩
    obtain ⟨hwil, hskb⟩ := hquiet (hnomem.mpr h)
    exact ⟨hwil.trans (hsame h), hskb⟩

/-! ## Copies -/

/-- A packet of one piece moves the head by one where there is room and it can be mapped. -/
lemma swhead_wilTxVring {s : TxState} {q : TxRequest} (hfrags : q.skb.frags = []) :
    (wilTxVring s q).1.vring.swhead
      = if 1 ≤ wilVringAvailTx s.vring ∧ (q.dmaMap 0).isSome then
          (s.vring.swhead + 1) % s.vring.size
        else s.vring.swhead := by
  have hcount : q.nrFrags = 0 := by rw [TxRequest.nrFrags, hfrags, List.length_nil]
  by_cases hroom : wilVringAvailTx s.vring < 1
  · simp [wilTxVring, hcount, hroom, Nat.not_le.mpr hroom]
  · cases hmap : q.dmaMap 0 with
    | none => simp [wilTxVring, hcount, hroom, hmap]
    | some pa =>
        have hfits : 1 ≤ wilVringAvailTx s.vring := Nat.not_lt.mp hroom
        have hsome : wilVringAvailTx s.vring ≠ 0 := by omega
        simp [wilTxVring, hcount, hfits, hsome, hmap, txPieces, hfrags, txFrags, txSegment,
          wilVringAdvanceHead, Vring.setDesc, Vring.setCtx]

/-- A pass of the loop of `wil_tx_bcast` moves the head where a copy fits. -/
lemma swhead_txBcastCopy (q : XmitRequest) {skb : XmitSkb} (hlen : skb.len = q.skb.len) (w : Wil)
    (i : RingId) : ((txBcastCopy q skb w i).1.vringTx i).swhead ≠ (w.vringTx i).swhead ↔
      CopyFits w q i := by
  rw [txBcastCopy, CopyFits]
  by_cases hva : (w.vringTx i).va = true
  · rw [if_pos hva]
    cases hcopy : q.skbCopy i with
    | none => simp
    | some id =>
        dsimp only
        have hlinear : ∀ skb2 : XmitSkb, skb2.frags = [] → skb2.headlen = q.skb.len →
            (((w.txVring i skb2 q.hwCsum (q.copyDma i)).1.vringTx i).swhead ≠ (w.vringTx i).swhead ↔
              1 ≤ wilVringAvailTx (w.vringTx i) ∧
                ((q.copyDma i).single 0 q.skb.len).isSome) := by
          intro skb2 hfrags hheadlen
          simp only [Wil.txVring, Wil.setTx, Function.update_self]
          rw [swhead_wilTxVring hfrags]
          simp only [hheadlen, Wil.txState]
          split_ifs with hfits
          · refine iff_of_true ?_ hfits
            have hsize : 2 ≤ (w.vringTx i).size := by
              have := hfits.1
              rw [wilVringAvailTx] at this
              omega
            intro hsame
            have hlt := Nat.mod_lt ((w.vringTx i).swhead + 1) (show 0 < (w.vringTx i).size by omega)
            rw [hsame] at hlt
            have hwindow : (w.vringTx i).swhead % (w.vringTx i).size
                ≠ ((w.vringTx i).swhead + 1) % (w.vringTx i).size :=
              Circular.ne_of_window (Nat.lt_succ_self _) (by omega)
            rw [Nat.mod_eq_of_lt hlt] at hwindow
            exact hwindow hsame.symm
          · exact iff_of_false (fun h => h rfl) hfits
        rw [hlinear _ ?_ ?_]
        · simp [hva]
        · split_ifs
          · rw [wilSetDaForVring]
            split_ifs <;> rfl
          · rfl
        · split_ifs
          · rw [wilSetDaForVring]
            split_ifs <;> exact hlen
          · exact hlen
  · rw [if_neg hva]
    simp [hva]

/-- **The loop of `wil_tx_bcast`** posts on the rings where a copy fits. -/
lemma swhead_run (q : XmitRequest) {skb : XmitSkb} (hlen : skb.len = q.skb.len)
    (hnodup : l.Nodup) : ∀ w, ∀ i ∈ l,
      ((Machine.run (txBcastCopy q skb) w l).1.vringTx i).swhead ≠ (w.vringTx i).swhead ↔
        CopyFits w q i := by
  induction l with
  | nil => simp
  | cons j l ih =>
      intro w i hi
      obtain ⟨hj, hl⟩ := List.nodup_cons.mp hnodup
      rw [Machine.run_cons]
      rcases List.mem_cons.mp hi with rfl | hmem
      · dsimp only
        rw [(posting_run q skb hl _).frame i hj]
        exact swhead_txBcastCopy q hlen w i
      · have hij : i ∉ [j] := fun h => hj (List.mem_singleton.mp h ▸ hmem)
        have hframe := (posting_txBcastCopy q skb w j).frame i hij
        have hrest := ih hl (txBcastCopy q skb w j).1 i hmem
        rw [hframe] at hrest
        rw [hrest, CopyFits, CopyFits, hframe]

/-! ## The whole call -/

/-- The packet as `wil_tx_bcast` leaves it for ring `i`. -/
def bcastSkb (w : Wil) (q : XmitRequest) (i : RingId) : XmitSkb :=
  if bcastToUcast w then wilSetDaForVring w q.skb i else q.skb

/-- Only its address may be another one. -/
lemma bcastSkb_eq (w : Wil) (q : XmitRequest) (i : RingId) :
    ∃ mac, bcastSkb w q i = { q.skb with hDest := mac } ∧
      (mac = q.skb.hDest ↔ ¬ Readdressed w q i) := by
  rw [bcastSkb, Readdressed]
  split_ifs with hucast
  · rw [wilSetDaForVring]
    split_ifs with howner
    · exact ⟨_, rfl, by simp [hucast, howner]⟩
    · exact ⟨_, rfl, by simp [howner]⟩
  · exact ⟨_, rfl, by simp [hucast]⟩

lemma bcastSkb_eq_iff (w : Wil) (q : XmitRequest) (i : RingId) :
    bcastSkb w q i = q.skb ↔ ¬ Readdressed w q i := by
  obtain ⟨mac, hskb, hmac⟩ := bcastSkb_eq w q i
  rw [hskb, ← hmac]
  constructor
  · exact fun h => congrArg XmitSkb.hDest h
  · rintro rfl
    rfl

/-- What `wil_start_xmit` does with such a packet. -/
lemma wilStartXmit_bcast (h : GoesToBcast w q) : wilStartXmit w q =
    match wilFindFirstTxVring w with
    | none => xmitDropErr w q.skb []
    | some i =>
        xmitOn (Machine.run (txBcastCopy q (bcastSkb w q i)) w (ringsBehind i)).1 q i
          (bcastSkb w q i) (Machine.run (txBcastCopy q (bcastSkb w q i)) w (ringsBehind i)).2 := by
  obtain ⟨-, hcall⟩ | ⟨hnot, -⟩ := wilStartXmit_cases w q
  · rw [hcall]
    unfold wilTxBcast
    cases wilFindFirstTxVring w with
    | none => rfl
    | some i => rfl
  · exact absurd h hnot

/-- Other packets are looked at first. -/
lemma busyQuiet_of_not_bcast (h : ¬ GoesToBcast w q) : BusyQuiet w q := by
  have hsame : (wilStartXmit w q).wil = w ∧ (wilStartXmit w q).skb = q.skb → BusyQuiet w q := by
    rintro ⟨hwil, hskb⟩ -
    refine ⟨hskb, fun i => ?_⟩
    rw [PostsOn, hwil]
    exact fun hne => hne rfl
  intro hret
  refine hsame ?_ hret
  obtain ⟨hbcast, -⟩ | ⟨-, hcall | hcall | ⟨i, -, -, hcall⟩⟩ := wilStartXmit_cases w q
  · exact absurd hbcast h
  · rw [hcall]
    exact ⟨rfl, rfl⟩
  · rw [hcall] at hret ⊢
    obtain ⟨hbusy, hquiet⟩ := xmitReturn_busy w q.skb (wmiTxEapol w q).2 (wmiTxEapol w q).1
    exact hquiet (hbusy.mp hret)
  · rw [hcall] at hret ⊢
    obtain ⟨hbusy, hquiet⟩ := xmitOn_busy w q i q.skb []
    exact hquiet (hbusy.mp hret)

/-- **When an answer of `NETDEV_TX_BUSY` means that nothing happened.** -/
theorem busyQuiet_iff (w : Wil) (q : XmitRequest) : BusyQuiet w q ↔ ¬ BusyHarms w q := by
  by_cases hbcast : GoesToBcast w q
  · simp only [BusyQuiet, PostsOn, wilStartXmit_bcast hbcast, BusyHarms, hbcast, true_and]
    cases hfirst : wilFindFirstTxVring w with
    | none => simp [xmitDropErr, xmitDrop]
    | some i =>
        dsimp only
        obtain ⟨mac, hskb, -⟩ := bcastSkb_eq w q i
        have hnodup : (ringsBehind i).Nodup := (List.nodup_finRange 24).filter _
        have hi : i ∉ ringsBehind i := by simp [ringsBehind]
        have hposting := posting_run q (bcastSkb w q i) hnodup w
        have hlen : (bcastSkb w q i).len = q.skb.len := by
          rw [hskb]
        have hheads := swhead_run q hlen hnodup w
        generalize hrun : Machine.run (txBcastCopy q (bcastSkb w q i)) w (ringsBehind i) = r
          at hposting hheads ⊢
        have hfull : (bcastSkb w q i).NoRoom (r.1.vringTx i) ↔ q.skb.NoRoom (w.vringTx i) := by
          rw [hposting.frame i hi, hskb]
          rfl
        obtain ⟨hbusy, hquiet⟩ := xmitOn_busy r.1 q i (bcastSkb w q i) r.2
        rw [hfull] at hbusy hquiet
        -- what the call did is what the loop and `wil_set_da_for_vring` did
        have hdone : (∀ j, ¬ (r.1.vringTx j).swhead ≠ (w.vringTx j).swhead) ↔
            ¬ ∃ j ∈ ringsBehind i, CopyFits w q j := by
          constructor
          · rintro hnone ⟨j, hj, hfits⟩
            exact hnone j ((hheads j hj).mpr hfits)
          · intro hnone j hmoved
            by_cases hj : j ∈ ringsBehind i
            · exact hnone ⟨j, hj, (hheads j hj).mp hmoved⟩
            · rw [hposting.frame j hj] at hmoved
              exact hmoved rfl
        simp only [Option.some.injEq, exists_eq_left']
        constructor
        · rintro hcall ⟨hroom, hharm⟩
          obtain ⟨hwil, hsame⟩ := hquiet hroom
          obtain ⟨hkept, hnone⟩ := hcall (hbusy.mpr hroom)
          rw [hsame, bcastSkb_eq_iff] at hkept
          rw [hwil, hdone] at hnone
          exact hharm.elim hkept hnone
        · intro hnot hret
          have hroom := hbusy.mp hret
          obtain ⟨hwil, hsame⟩ := hquiet hroom
          rw [hsame, bcastSkb_eq_iff, hwil, hdone]
          exact ⟨fun h => hnot ⟨hroom, .inl h⟩, fun h => hnot ⟨hroom, .inr h⟩⟩
  · exact iff_of_true (busyQuiet_of_not_bcast hbcast) fun h => hbcast h.1

/-- Quiet attempts post the packet at most once on each ring. -/
lemma postedOnce_of_quiet {calls : List (Wil × XmitRequest)} (hretries : Retries calls)
    (hquiet : ∀ c ∈ calls, BusyQuiet c.1 c.2) : PostedOnce calls := by
  induction calls with
  | nil => exact ⟨fun i => by simp, fun c hc => absurd hc (by simp)⟩
  | cons c calls ih =>
      cases calls with
      | nil =>
          refine ⟨fun i => ?_, fun c' hc' d hd => ?_⟩
          · exact List.countP_le_length
          · rw [List.mem_singleton] at hc' hd
            rw [hc', hd]
      | cons d cs =>
          obtain ⟨hbusy, hskb, hrest⟩ := hretries
          obtain ⟨hkept, hnone⟩ := hquiet c List.mem_cons_self hbusy
          obtain ⟨honce, hsame⟩ := ih hrest fun e he => hquiet e (List.mem_cons_of_mem c he)
          rw [hkept] at hskb
          have hfirst : ∀ e ∈ c :: d :: cs, e.2.skb = d.2.skb := by
            intro e he
            rcases List.mem_cons.mp he with rfl | he
            · exact hskb.symm
            · exact hsame e he d List.mem_cons_self
          refine ⟨fun i => ?_, fun e he f hf => (hfirst e he).trans (hfirst f hf).symm⟩
          rw [List.countP_cons_of_neg (by simpa using hnone i)]
          exact honce i

/-- **Attempts at a packet.**  An answer of `NETDEV_TX_BUSY` means that nothing happened where the
call does no harm, and only there; attempts that do no harm post the packet at most once on each
ring, as it was in the first of them. -/
theorem wilStartXmit_busy (calls : List (Wil × XmitRequest)) (hretries : Retries calls) :
    (∀ c ∈ calls, BusyQuiet c.1 c.2 ↔ ¬ BusyHarms c.1 c.2) ∧
      ((∀ c ∈ calls, ¬ BusyHarms c.1 c.2) → PostedOnce calls) :=
  ⟨fun c _ => busyQuiet_iff c.1 c.2, fun hnone => postedOnce_of_quiet hretries fun c hc =>
    (busyQuiet_iff c.1 c.2).mpr (hnone c hc)⟩

/-- A ring of four descriptors with `used` of them in use. -/
private def ringOfFour (used : ℕ) : Vring :=
  ⟨true, fun _ => ⟨0, 0, 0, 0, 0, 0, 0, 0, 0, 0, 0⟩, 4, 0, used, 0, fun _ => none⟩

/-- An access point with two rings, the first of which has no room. -/
private def twoRings : Wil :=
  { wilPrivInit .ap none with
    fwConnected := true
    vringTx := fun i =>
      if i = 0 then ringOfFour 3
      else if i = 1 then ringOfFour 0
      else (wilPrivInit .ap none).vringTx i }

/-- A broadcast packet of one piece; a copy of it is at address `9`. -/
def bcastRequest (copies : Bool) : XmitRequest where
  skb := ⟨⟨7, 60, 60, [], false, 0x0800, 0, 0, 0, 0⟩, 0xffffffffffff, 0⟩
  fwready := true
  hwCsum := false
  dma := ⟨fun _ _ => some 4096, fun _ _ _ => some 8192⟩
  kzallocOk := true
  wmiSend := 0
  skbCopy := fun _ => if copies then some 9 else none
  copyDma := fun _ => ⟨fun _ _ => some 4096, fun _ _ _ => some 8192⟩

/-- A station, with so many descriptors of each ring in use. -/
private def stationWil (used : ℕ) : Wil :=
  { wilPrivInit .station none with fwConnected := true, vringTx := fun _ => ringOfFour used }

/-- A station has no room and no memory for copies, and then sends the packet. -/
theorem wilStartXmit_busy_station :
    PostedOnce [(stationWil 3, bcastRequest false), (stationWil 0, bcastRequest false)] := by
  have hretries :
      Retries [(stationWil 3, bcastRequest false), (stationWil 0, bcastRequest false)] :=
    ⟨by decide +kernel, rfl, trivial⟩
  refine (wilStartXmit_busy _ hretries).2 fun c hc => ?_
  have hkept : ∀ (w : Wil) (i : RingId), w.iftype = .station →
      ¬ Readdressed w (bcastRequest false) i := by
    intro w i hstation h
    simp [Readdressed, bcastToUcast, hstation] at h
  have hnone : ∀ (w : Wil) (j : RingId), ¬ CopyFits w (bcastRequest false) j :=
    fun w j h => absurd h.2.1 Bool.false_ne_true
  rw [List.mem_pair] at hc
  rcases hc with rfl | rfl
  all_goals
    rintro ⟨-, i, -, -, hreaddressed | ⟨j, -, hfits⟩⟩
    · exact hkept _ i rfl hreaddressed
    · exact hnone _ j hfits

/-- An access point has no room for a packet on its first ring, and posts the copy for the second
one all the same. -/
theorem not_wilStartXmit_busy :
    ¬ ∀ calls : List (Wil × XmitRequest), Retries calls →
      (∀ c ∈ calls, BusyQuiet c.1 c.2) ∧ PostedOnce calls := by
  intro h
  have hbusy : (wilStartXmit twoRings (bcastRequest true)).ret = .netdevTxBusy := by
    decide +kernel
  have hposts : PostsOn twoRings (bcastRequest true) 1 := by
    decide +kernel
  exact ((h [(twoRings, bcastRequest true)] trivial).1 _ List.mem_cons_self hbusy).2 1 hposts

end Wil6210
