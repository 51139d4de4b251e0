import Wil6210.Driver.ConnectRun

/-!
# The ring index of the connect worker

`wil_find_free_vring` answers `-EINVAL` where no ring is free, and `wil_connect_worker` goes on with
that as a ring index.  A ring is only freed by a disconnect that processes its station: a CONNECT
for a CID that has a ring already gets another one, and a reset, a stop of the interface and the
connect timeout free nothing, because they disconnect "all" with a NULL address.

So a CID may collect rings.  As long as every CID stays within a quota and the quotas sum to at
most 24, the worker finds a free ring (`ringIndexOk_of_quota`).  25 CONNECTs for one CID, with the
worker after each of them, use all rings up (`not_ringIndexOk`).
-/

namespace Wil6210

/-! ## Resets -/

/-- `wil_reset`, up to its flushes: `wil6210_disconnect(wil, NULL)` and `wil->status = 0`. -/
def wilResetBegin (s : Wil) : Wil :=
  { (wil6210Disconnect s none).1 with fwConnected := false, dontscan := false }

/-- The init after reset. -/
def wilResetInit (s : Wil) : Wil := { s with pendingConnectCid := none }

/-- Where `wil_reset` is. -/
inductive ResetPhase
  | idle
  /-- in `flush_workqueue(wil->wmi_wq_conn)` -/
  | flushing
  | flushed
  deriving DecidableEq, Repr

/-- The connects with their worker, and the thread that resets the interface. -/
structure LinkSys where
  conn : ConnSys
  reset : ResetPhase

inductive LinkAction
  | conn (a : ConnAction)
  /-- `wil_disconnect_worker`, and the disconnect of `__wil_down` -/
  | disconnectAll
  | reset
  /-- The queue of the connect worker is empty. -/
  | flush
  | init

/-- One step. -/
def LinkSys.step (s : LinkSys) : LinkAction → Option LinkSys
  | .conn a => (s.conn.step a).map fun conn => { s with conn := conn }
  | .disconnectAll =>
      some { s with conn := { s.conn with wil := (wil6210Disconnect s.conn.wil none).1 } }
  | .reset =>
      if s.reset = .idle then
        some ⟨{ s.conn with wil := wilResetBegin s.conn.wil }, .flushing⟩
      else none
  | .flush =>
      if s.reset = .flushing ∧ s.conn.worker = .idle ∧ s.conn.queued = false then
        some { s with reset := .flushed }
      else none
  | .init =>
      if s.reset = .flushed then
        some ⟨{ s.conn with wil := wilResetInit s.conn.wil }, .idle⟩
      else none

/-- Nothing connected yet. -/
def LinkSys.init (iftype : Iftype) (devAddr : Option MacAddr) : LinkSys :=
  ⟨ConnSys.init iftype devAddr, .idle⟩

/-- The worker has not gone on with `-EINVAL` as its ring index. -/
def RingIndexOk (s : LinkSys) : Prop := ∀ cid, s.conn.worker ≠ .outOfBounds cid

/-! ## Counting rings -/

/-- How many allocated rings are mapped to the station. -/
def Wil.rings (s : Wil) (c : Cid) : ℕ :=
  (Finset.univ.filter fun i => s.owner i = c.val ∧ (s.vringTx i).va = true).card

section Rings

variable {s t : Wil} {c : Cid}

/-- A step that allocates no ring and maps none leaves no station with more rings. -/
lemma Wil.rings_le (howner : t.owner = s.owner)
    (hva : ∀ i, (t.vringTx i).va = true → (s.vringTx i).va = true) (c : Cid) :
    t.rings c ≤ s.rings c := by
  refine Finset.card_le_card fun i hi => ?_
  simp only [Finset.mem_filter, Finset.mem_univ, true_and] at hi ⊢
  exact ⟨howner ▸ hi.1, hva i hi.2⟩

/-- Every allocated ring is some station's. -/
lemma Wil.sum_rings (howned : ∀ i, s.owner i < 8) :
    ∑ c, s.rings c = (Finset.univ.filter fun i => (s.vringTx i).va = true).card := by
  rw [Finset.card_eq_sum_card_fiberwise
    (f := fun i => (⟨s.owner i, howned i⟩ : Cid)) (t := Finset.univ) (by simp)]
  refine Finset.sum_congr rfl fun c _ => ?_
  rw [Wil.rings, Finset.filter_filter]
  congr 1
  ext i
  simp [Fin.ext_iff, and_comm]

/-- As long as the stations together have fewer than 24 rings, one is free. -/
lemma wilFindFreeVring_of_sum (howned : ∀ i, s.owner i < 8) (hsum : ∑ c, s.rings c < 24) :
    ∃ id, wilFindFreeVring s = some id := by
  cases hfind : wilFindFreeVring s with
  | some id => exact ⟨id, rfl⟩
  | none =>
      rw [Wil.sum_rings howned,
        Finset.filter_true_of_mem fun i _ => wilFindFreeVring_none hfind i] at hsum
      simp at hsum

/-- The ring that the worker allocates is one more for its own station, and none for another. -/
lemma rings_wilVringInitTxBegin (s : Wil) (id : RingId) (size : ℕ) (cid : Cid) (tid : ℕ)
    (allocOk : Bool) (c : Cid) :
    (wilVringInitTxBegin s id size cid tid allocOk).1.rings c
      ≤ s.rings c + if c = cid then 1 else 0 := by
  rcases wilVringInitTxBegin_cases s id size cid tid allocOk with
    ⟨-, -, hring, hmap⟩ | ⟨-, hring, hmap⟩
  · by_cases hc : c = cid
    · rw [if_pos hc]
      refine (Finset.card_le_card (fun i hi => ?_)).trans (Finset.card_insert_le id _)
      simp only [Finset.mem_filter, Finset.mem_univ, true_and, hring, hmap] at hi
      simp only [Finset.mem_insert, Finset.mem_filter, Finset.mem_univ, true_and]
      by_cases hid : i = id
      · exact .inl hid
      · exact .inr (by simpa [hid] using hi)
    · rw [if_neg hc, Nat.add_zero]
      refine Finset.card_le_card fun i hi => ?_
      simp only [Finset.mem_filter, Finset.mem_univ, true_and, hring, hmap] at hi ⊢
      by_cases hid : i = id
      · rw [if_pos hid] at hi
        exact absurd (Fin.ext hi.1.symm) hc
      · simpa [hid] using hi
  · exact (Wil.rings_le hmap (fun i hi => hring i ▸ hi) c).trans (Nat.le_add_right _ _)

end Rings

/-! ## Quotas -/

/-- Every accepted CONNECT comes for a CID with fewer rings than its quota, or while the worker is
at work on a connection (and then clears the CID that the event has just set). -/
def WithinQuota (q : Cid → ℕ) (s : LinkSys) : LinkAction → Prop
  | .conn (.connect evt len) => ∀ cid, connectAccepts s.conn.wil evt len = some cid →
      s.conn.worker.holds = none → s.conn.wil.rings cid < q cid
  | _ => True

/-- Every station is within its quota, and has room for the ring that is on its way to it. -/
structure QuotaInv (q : Cid → ℕ) (s : ConnSys) : Prop where
  bounded : ∀ c, s.wil.rings c ≤ q c
  owned : ∀ i, s.wil.owner i < 8
  started : ∀ c tid i, s.worker = .started c tid i → s.wil.rings c < q c
  pending : ∀ c, s.wil.pendingConnectCid = some c → s.worker.holds = none → s.wil.rings c < q c
  index : ∀ c, s.worker ≠ .outOfBounds c

section Quota

variable {q : Cid → ℕ} {s t : ConnSys}

lemma quotaInv_init (iftype : Iftype) (devAddr : Option MacAddr) :
    QuotaInv q (ConnSys.init iftype devAddr) := by
  have hrings : ∀ c, (ConnSys.init iftype devAddr).wil.rings c = 0 := by
    intro c
    simp [ConnSys.init, wilPrivInit, Wil.rings]
  refine ⟨fun c => by simp [hrings], ?_, ?_, ?_, ?_⟩ <;>
    simp [ConnSys.init, wilPrivInit, Wil.owner]

/-- What frees rings, or leaves them, keeps the invariant, as long as the worker is where it was
and no connection becomes pending. -/
lemma QuotaInv.frees (h : QuotaInv q s) (hworker : t.worker = s.worker)
    (howner : t.wil.owner = s.wil.owner)
    (hva : ∀ i, (t.wil.vringTx i).va = true → (s.wil.vringTx i).va = true)
    (hpend : ∀ c, t.wil.pendingConnectCid = some c → s.wil.pendingConnectCid = some c) :
    QuotaInv q t := by
  have hle := Wil.rings_le howner hva
  refine ⟨fun c => (hle c).trans (h.bounded c), fun i => howner ▸ h.owned i, ?_, ?_, ?_⟩
  · intro c tid i hw
    exact (hle c).trans_lt (h.started c tid i (hworker ▸ hw))
  · intro c hc hholds
    exact (hle c).trans_lt (h.pending c (hpend c hc) (hworker ▸ hholds))
  · intro c
    exact hworker ▸ h.index c

lemma QuotaInv.connect (h : QuotaInv q s) {evt : WmiConnectEvent} {len : ℕ}
    (hroom : ∀ cid, connectAccepts s.wil evt len = some cid → s.worker.holds = none →
      s.wil.rings cid < q cid)
    (ht : s.step (.connect evt len) = some t) : QuotaInv q t := by
  obtain ⟨-, rfl⟩ | ⟨cid, haccept, rfl⟩ := ConnSys.step_connect ht
  · exact h
  · obtain ⟨hpend, -, -, hring, hmap⟩ := wmiEvtConnect_accepted evt len cid haccept
    have hle : ∀ c, (wmiEvtConnect s.wil evt len).1.rings c ≤ s.wil.rings c :=
      Wil.rings_le hmap fun i hi => hring ▸ hi
    refine ⟨fun c => (hle c).trans (h.bounded c), fun i => hmap ▸ h.owned i, ?_, ?_, h.index⟩
    · intro c tid i hw
      exact (hle c).trans_lt (h.started c tid i hw)
    · intro c hc hholds
      obtain rfl := Option.some.inj (hpend.symm.trans hc)
      exact (hle cid).trans_lt (hroom cid haccept hholds)

/-- **The worker finds a ring**: the pending station is below its quota, the others are within
theirs. -/
lemma QuotaInv.start (h : QuotaInv q s) (hsum : ∑ c, q c ≤ 24)
    (ht : s.step .start = some t) : QuotaInv q t := by
  obtain ⟨-, hidle, rfl⟩ := ConnSys.step_start ht
  have hholds : s.worker.holds = none := by rw [hidle]; rfl
  cases hpend : s.wil.pendingConnectCid with
  | none =>
      have hstart : startedAt s.wil = .idle := by simp [startedAt, hpend]
      exact ⟨h.bounded, h.owned, by simp [hstart], by simp [hpend], by simp [hstart]⟩
  | some cid =>
      have hlt : s.wil.rings cid < q cid := h.pending cid hpend hholds
      have htotal : ∑ c, s.wil.rings c < 24 :=
        (Finset.sum_lt_sum (fun c _ => h.bounded c) ⟨cid, Finset.mem_univ cid, hlt⟩).trans_le hsum
      obtain ⟨id, hid⟩ := wilFindFreeVring_of_sum h.owned htotal
      have hstart : startedAt s.wil = .started cid (s.wil.tidToUse &&& 0xf) id := by
        simp [startedAt, hpend, hid]
      refine ⟨h.bounded, h.owned, ?_, by simp [hpend], by simp [hstart]⟩
      intro c tid i hw
      obtain ⟨rfl, -, -⟩ := Worker.started.inj (hstart.symm.trans hw)
      exact hlt

lemma QuotaInv.alloc (h : QuotaInv q s) {ok : Bool} (ht : s.step (.alloc ok) = some t) :
    QuotaInv q t := by
  obtain ⟨cid, tid, id, hw, ht⟩ := ConnSys.step_alloc ht
  have hbounded : ∀ c,
      (wilVringInitTxBegin s.wil id wil6210TxRingSize cid tid ok).1.rings c ≤ q c := by
    intro c
    have hle := rings_wilVringInitTxBegin s.wil id wil6210TxRingSize cid tid ok c
    by_cases hc : c = cid
    · rw [if_pos hc] at hle
      have hlt := h.started cid tid id hw
      rw [← hc] at hlt
      omega
    · rw [if_neg hc] at hle
      exact hle.trans (h.bounded c)
  have howned : ∀ i,
      (wilVringInitTxBegin s.wil id wil6210TxRingSize cid tid ok).1.owner i < 8 := by
    intro i
    rcases wilVringInitTxBegin_cases s.wil id wil6210TxRingSize cid tid ok with
      ⟨-, -, -, hmap⟩ | ⟨-, -, hmap⟩
    · rw [hmap]
      split_ifs
      · exact cid.isLt
      · exact h.owned i
    · exact hmap ▸ h.owned i
  split_ifs at ht with hrc <;> subst ht
  · exact ⟨hbounded, howned, by simp, by simp [Worker.holds], by simp⟩
  · exact ⟨hbounded, howned, by simp, by simp [Worker.holds], by simp⟩

lemma QuotaInv.reply (h : QuotaInv q s) {r : VringCfgReply} (ht : s.step (.reply r) = some t) :
    QuotaInv q t := by
  obtain ⟨cid, id, hw, rfl⟩ := ConnSys.step_reply ht
  have hle : ∀ c, (wilVringInitTxEnd s.wil id r).1.rings c ≤ s.wil.rings c := by
    refine Wil.rings_le (owner_wilVringInitTxEnd id r s.wil) fun i hi => ?_
    rcases wilVringInitTxEnd_cases s.wil id r with ⟨-, hring⟩ | ⟨-, hring⟩
    · exact hring i ▸ hi
    · rw [hring] at hi
      split_ifs at hi
      exact hi
  refine ⟨fun c => (hle c).trans (h.bounded c), fun i => ?_, by simp, by simp [Worker.holds],
    by simp⟩
  rw [owner_wilVringInitTxEnd]
  exact h.owned i

lemma QuotaInv.clear (h : QuotaInv q s) (ht : s.step .clear = some t) : QuotaInv q t := by
  obtain ⟨cid, rc, hw, rfl⟩ := ConnSys.step_clear ht
  exact ⟨h.bounded, h.owned, by simp, by simp, by simp⟩

lemma QuotaInv.finish (h : QuotaInv q s) (ht : s.step .finish = some t) : QuotaInv q t := by
  obtain ⟨cid, rc, hw, rfl⟩ := ConnSys.step_finish ht
  refine ⟨h.bounded, h.owned, by simp, ?_, by simp⟩
  intro c hc _
  exact h.pending c hc (by rw [hw]; rfl)

/-- Every step of the connects keeps the invariant. -/
lemma QuotaInv.connStep (h : QuotaInv q s) (hsum : ∑ c, q c ≤ 24) {a : ConnAction}
    (hroom : ∀ evt len, a = .connect evt len → ∀ cid,
      connectAccepts s.wil evt len = some cid → s.worker.holds = none → s.wil.rings cid < q cid)
    (ht : s.step a = some t) : QuotaInv q t := by
  cases a with
  | connect evt len => exact h.connect (hroom evt len rfl) ht
  | disconnect bssid =>
      obtain rfl := Option.some.inj ht
      obtain ⟨hpend, -, -, hring, hmap⟩ := wmiEvtDisconnect_spec s.wil bssid
      refine h.frees rfl hmap (fun i hi => ?_) (fun c hc => hpend ▸ hc)
      simp only [hring] at hi
      split_ifs at hi
      exact hi
  | start => exact h.start hsum ht
  | alloc ok => exact h.alloc ht
  | reply r => exact h.reply ht
  | clear => exact h.clear ht
  | finish => exact h.finish ht
  | traffic w =>
      obtain rfl := Option.some.inj ht
      exact h.frees rfl rfl (fun _ hi => hi) (fun _ hc => hc)

end Quota

/-! ## The worker stays in bounds -/

/-- A disconnect of "all" frees no ring. -/
lemma wil6210Disconnect_null (s : Wil) :
    (wil6210Disconnect s none).1.vringTx = s.vringTx ∧
      (wil6210Disconnect s none).1.owner = s.owner ∧
      (wil6210Disconnect s none).1.pendingConnectCid = s.pendingConnectCid := by
  simp [wil6210Disconnect, disconnectStations]

/-- **Every step keeps the invariant.** -/
theorem QuotaInv.step {q : Cid → ℕ} {s t : LinkSys} (h : QuotaInv q s.conn)
    (hsum : ∑ c, q c ≤ 24) {a : LinkAction} (hquota : WithinQuota q s a)
    (ht : s.step a = some t) : QuotaInv q t.conn := by
  obtain ⟨hring, hmap, hpend⟩ := wil6210Disconnect_null s.conn.wil
  cases a with
  | conn a =>
      obtain ⟨conn, hconn, rfl⟩ := Option.map_eq_some_iff.mp ht
      refine h.connStep hsum ?_ hconn
      rintro evt len rfl
      exact hquota
  | disconnectAll =>
      obtain rfl := Option.some.inj ht
      exact h.frees rfl hmap (fun i hi => hring ▸ hi) (fun c hc => hpend ▸ hc)
  | reset =>
      obtain ⟨-, ht⟩ := Option.ite_none_right_eq_some.mp ht
      obtain rfl := Option.some.inj ht
      exact h.frees rfl hmap (fun i hi => hring ▸ hi) (fun c hc => hpend ▸ hc)
  | flush =>
      obtain ⟨-, ht⟩ := Option.ite_none_right_eq_some.mp ht
      obtain rfl := Option.some.inj ht
      exact h
  | init =>
      obtain ⟨-, ht⟩ := Option.ite_none_right_eq_some.mp ht
      obtain rfl := Option.some.inj ht
      exact h.frees rfl rfl (fun _ hi => hi) (by simp [wilResetInit])

/-- **The ring index is in bounds, where every CID stays within its quota.**  The quotas are any
that sum to the number of rings; three for each CID will do. -/
theorem ringIndexOk_of_quota {q : Cid → ℕ} (hsum : ∑ c, q c ≤ 24) {iftype : Iftype}
    {devAddr : Option MacAddr} {as : List LinkAction} {s : LinkSys}
    (h : Machine.Exec LinkSys.step (WithinQuota q) (LinkSys.init iftype devAddr) as s) :
    RingIndexOk s := by
  have hinv : QuotaInv q s.conn := h.invariant (I := fun s => QuotaInv q s.conn)
    (fun _ _ _ hquota ht hi => hi.step hsum hquota ht) (quotaInv_init iftype devAddr)
  exact hinv.index

/-- A CONNECT of the station with address `mac`, and a run of the worker that configures a ring. -/
def connectRound (mac : MacAddr) (cid : ℕ) : List LinkAction :=
  [bareConnect mac cid, .start, .alloc true, .reply ⟨0, 0, 0⟩, .clear, .finish].map .conn

instance (q : Cid → ℕ) (s : LinkSys) : (a : LinkAction) → Decidable (WithinQuota q s a)
  | .conn (.connect _ _) => inferInstanceAs (Decidable (∀ _, _ → _ → _))
  | .conn (.disconnect _) | .conn .start | .conn (.alloc _) | .conn (.reply _) | .conn .clear
  | .conn .finish | .conn (.traffic _) | .disconnectAll | .reset | .flush | .init =>
      inferInstanceAs (Decidable True)

/-- A station connects twice, with a reset in between; another one connects. -/
theorem ringIndexOk_of_quota_three :
    ∃ s, Machine.Exec LinkSys.step (WithinQuota fun _ => 3) (LinkSys.init .ap (some 1))
        (connectRound 2 0 ++ [.reset, .flush, .init] ++ connectRound 2 0 ++ connectRound 3 1) s ∧
      s.conn.wil.rings 0 = 2 ∧ s.conn.wil.rings 1 = 1 ∧ RingIndexOk s := by
  have hrun : (Machine.exec LinkSys.step (WithinQuota fun _ => 3) (LinkSys.init .ap (some 1))
      (connectRound 2 0 ++ [.reset, .flush, .init] ++ connectRound 2 0 ++ connectRound 3 1)).map
        (fun s => (s.conn.wil.rings 0, s.conn.wil.rings 1)) = some (2, 1) := by
    decide +kernel
  obtain ⟨s, hs, hend⟩ := Option.map_eq_some_iff.mp hrun
  obtain ⟨h0, h1⟩ := Prod.mk.inj hend
  have hexec := Machine.Exec.of_exec hs
  exact ⟨s, hexec, h0, h1, ringIndexOk_of_quota (by decide) hexec⟩

/-- 24 CONNECTs for one CID take all rings; the worker after the 25th goes on with `-EINVAL`. -/
theorem not_ringIndexOk :
    ¬ ∀ (iftype : Iftype) (devAddr : Option MacAddr) (as : List LinkAction) (s : LinkSys),
      Machine.Exec LinkSys.step (fun _ _ => True) (LinkSys.init iftype devAddr) as s →
        RingIndexOk s := by
  intro h
  let as : List LinkAction := (List.replicate 24 (connectRound 2 0)).flatten ++
    [LinkAction.conn (bareConnect 2 0), .conn .start]
  have hrun : (Machine.exec LinkSys.step (fun _ _ => True) (LinkSys.init .ap (some 1)) as).map
      (fun s => s.conn.worker) = some (.outOfBounds 0) := by
    decide +kernel
  obtain ⟨s, hs, hend⟩ := Option.map_eq_some_iff.mp hrun
  exact h _ _ as s (.of_exec hs) 0 hend

end Wil6210
