import Wil6210.Driver.Connect

/-!
# Connects and their worker, interleaved

`ConnSys` is the driver with `connect_worker` in steps, so that events fall between them: its work
item is queued or not, and the worker is somewhere in its body (`Worker`).  Two histories are kept
for every CID, of the events it saw and of its ring configuration, and nothing reads them.

`queue_work` on a queued item does nothing, and on a running one queues it again.  Events are
handled one at a time and at any point of the worker; in the driver a DISCONNECT that has to tell
the firmware also waits for `wmi_mutex`, so some of these interleavings do not occur.  Whatever
else the driver does meanwhile (`traffic`) leaves the stations' addresses and status, the
allocation of the rings, their mapping and `pending_connect_cid` alone.

All events share `pending_connect_cid`.  `connect_settled` is what remains true: if every
accepted CONNECT comes while no connection is pending, every station that was connected is, in the
end, connected with its own ring, or unused because its ring could not be configured.  A CONNECT
that comes while another one is pending is lost, or loses the other one (`not_connect_settled`).
-/

namespace Wil6210

/-! ## The machine -/

/-- Where `wil_connect_worker` is. -/
inductive Worker
  | idle
  /-- it has read the CID, the TID and the free ring -/
  | started (cid : Cid) (tid : ℕ) (id : RingId)
  /-- it waits for the firmware to configure the ring -/
  | waiting (cid : Cid) (id : RingId)
  /-- `wil_vring_init_tx` has returned -/
  | configured (cid : Cid) (rc : ℤ)
  /-- `pending_connect_cid` is cleared -/
  | cleared (cid : Cid) (rc : ℤ)
  /-- no ring was free, and it went on with the index `-EINVAL` -/
  | outOfBounds (cid : Cid)
  deriving DecidableEq, Repr

/-- The CID the worker holds, as long as it has not cleared `pending_connect_cid`. -/
def Worker.holds : Worker → Option Cid
  | .idle => none
  | .started cid _ _ => some cid
  | .waiting cid _ => some cid
  | .configured cid _ => some cid
  | .cleared _ _ => none
  | .outOfBounds cid => some cid

/-- The last event that a station saw. -/
inductive LastEvent
  | connect
  | disconnect
  deriving DecidableEq, Repr

structure ConnSys where
  wil : Wil
  queued : Bool
  worker : Worker
  last : Cid → Option LastEvent
  /-- whether the ring was configured, since the last CONNECT -/
  config : Cid → Option Bool

inductive ConnAction
  | connect (evt : WmiConnectEvent) (len : ℕ)
  | disconnect (bssid : MacAddr)
  /-- The workqueue starts the worker. -/
  | start
  | alloc (ok : Bool)
  | reply (r : VringCfgReply)
  | clear
  | finish
  | traffic (w : Wil)

/-- One step. -/
def ConnSys.step (s : ConnSys) : ConnAction → Option ConnSys
  | .connect evt len =>
      match connectAccepts s.wil evt len with
      | none => some s
      | some cid =>
          some { s with
            wil := (wmiEvtConnect s.wil evt len).1
            queued := true
            last := Function.update s.last cid (some .connect)
            config := Function.update s.config cid none }
  | .disconnect bssid =>
      some { s with
        wil := (wmiEvtDisconnect s.wil bssid).1
        last := fun c => if c ∈ disconnectCids s.wil bssid then some .disconnect else s.last c }
  | .start =>
      if s.queued ∧ s.worker = .idle then
        match s.wil.pendingConnectCid with
        | none => some { s with queued := false }
        | some cid =>
            match wilFindFreeVring s.wil with
            | none => some { s with queued := false, worker := .outOfBounds cid }
            | some id =>
                some { s with
                  queued := false
                  worker := .started cid (s.wil.tidToUse &&& 0xf) id }
      else none
  | .alloc ok =>
      match s.worker with
      | .started cid tid id =>
          let p := wilVringInitTxBegin s.wil id wil6210TxRingSize cid tid ok
          if p.2.1 = 0 then some { s with wil := p.1, worker := .waiting cid id }
          else
            some { s with
              wil := p.1
              worker := .configured cid p.2.1
              config := Function.update s.config cid (some false) }
      | _ => none
  | .reply r =>
      match s.worker with
      | .waiting cid id =>
          let p := wilVringInitTxEnd s.wil id r
          some { s with
            wil := p.1
            worker := .configured cid p.2.1
            config := Function.update s.config cid (some (p.2.1 = 0)) }
      | _ => none
  | .clear =>
      match s.worker with
      | .configured cid rc =>
          some { s with
            wil := { s.wil with pendingConnectCid := none }
            worker := .cleared cid rc }
      | _ => none
  | .finish =>
      match s.worker with
      | .cleared cid rc =>
          some { s with wil := (connectFinish s.wil cid rc).1, worker := .idle }
      | _ => none
  | .traffic w => some { s with wil := s.wil.traffic w }

/-- Nothing connected yet. -/
def ConnSys.init (iftype : Iftype) (devAddr : Option MacAddr) : ConnSys where
  wil := wilPrivInit iftype devAddr
  queued := false
  worker := .idle
  last _ := none
  config _ := none

/-- No connect work is pending or running. -/
def ConnSys.Quiet (s : ConnSys) : Prop := s.worker = .idle ∧ s.queued = false

variable {s t : ConnSys}

/-! ## What a step does -/

/-- Where the workqueue leaves the worker that it starts. -/
def startedAt (wil : Wil) : Worker :=
  match wil.pendingConnectCid with
  | none => .idle
  | some cid =>
      match wilFindFreeVring wil with
      | none => .outOfBounds cid
      | some id => .started cid (wil.tidToUse &&& 0xf) id

/-- The worker takes the pending connection. -/
@[simp]
lemma holds_startedAt (wil : Wil) : (startedAt wil).holds = wil.pendingConnectCid := by
  unfold startedAt
  cases wil.pendingConnectCid with
  | none => rfl
  | some cid => cases wilFindFreeVring wil <;> rfl

/-- No ring is configured yet. -/
lemma startedAt_cases (wil : Wil) :
    startedAt wil = .idle ∨ (∃ cid, startedAt wil = .outOfBounds cid) ∨
      ∃ cid tid id, startedAt wil = .started cid tid id := by
  unfold startedAt
  cases wil.pendingConnectCid with
  | none => exact .inl rfl
  | some cid =>
      cases wilFindFreeVring wil with
      | none => exact .inr (.inl ⟨cid, rfl⟩)
      | some id => exact .inr (.inr ⟨cid, _, id, rfl⟩)

@[simp]
lemma startedAt_ne_waiting (wil : Wil) (c : Cid) (i : RingId) :
    startedAt wil ≠ .waiting c i := by
  rcases startedAt_cases wil with h | ⟨cid, h⟩ | ⟨cid, tid, id, h⟩ <;> simp [h]

@[simp]
lemma startedAt_ne_configured (wil : Wil) (c : Cid) (rc : ℤ) :
    startedAt wil ≠ .configured c rc := by
  rcases startedAt_cases wil with h | ⟨cid, h⟩ | ⟨cid, tid, id, h⟩ <;> simp [h]

@[simp]
lemma startedAt_ne_cleared (wil : Wil) (c : Cid) (rc : ℤ) :
    startedAt wil ≠ .cleared c rc := by
  rcases startedAt_cases wil with h | ⟨cid, h⟩ | ⟨cid, tid, id, h⟩ <;> simp [h]

namespace ConnSys

lemma step_connect {evt : WmiConnectEvent} {len : ℕ}
    (ht : s.step (.connect evt len) = some t) :
    (connectAccepts s.wil evt len = none ∧ t = s) ∨
      ∃ cid, connectAccepts s.wil evt len = some cid ∧
        t = { s with
          wil := (wmiEvtConnect s.wil evt len).1
          queued := true
          last := Function.update s.last cid (some .connect)
          config := Function.update s.config cid none } := by
  cases haccept : connectAccepts s.wil evt len with
  | none =>
      simp only [ConnSys.step, haccept, Option.some.injEq] at ht
      exact .inl ⟨rfl, ht.symm⟩
  | some cid =>
      simp only [ConnSys.step, haccept, Option.some.injEq] at ht
      exact .inr ⟨cid, rfl, ht.symm⟩

lemma step_start (ht : s.step .start = some t) :
    s.queued = true ∧ s.worker = .idle ∧
      t = { s with queued := false, worker := startedAt s.wil } := by
  obtain ⟨hready, ht⟩ := Option.ite_none_right_eq_some.mp ht
  obtain ⟨hq, hidle⟩ := hready
  refine ⟨hq, hidle, ?_⟩
  cases hpend : s.wil.pendingConnectCid with
  | none =>
      simp only [hpend, Option.some.injEq] at ht
      simp [← ht, startedAt, hpend, hidle]
  | some cid =>
      cases hfree : wilFindFreeVring s.wil with
      | none =>
          simp only [hpend, hfree, Option.some.injEq] at ht
          simp [← ht, startedAt, hpend, hfree]
      | some id =>
          simp only [hpend, hfree, Option.some.injEq] at ht
          simp [← ht, startedAt, hpend, hfree]

lemma step_alloc {ok : Bool} (ht : s.step (.alloc ok) = some t) :
    ∃ cid tid id, s.worker = .started cid tid id ∧
      t = if (wilVringInitTxBegin s.wil id wil6210TxRingSize cid tid ok).2.1 = 0 then
          { s with
            wil := (wilVringInitTxBegin s.wil id wil6210TxRingSize cid tid ok).1
            worker := .waiting cid id }
        else
          { s with
            wil := (wilVringInitTxBegin s.wil id wil6210TxRingSize cid tid ok).1
            worker :=
              .configured cid (wilVringInitTxBegin s.wil id wil6210TxRingSize cid tid ok).2.1
            config := Function.update s.config cid (some false) } := by
  cases hw : s.worker with
  | started cid tid id =>
      refine ⟨cid, tid, id, rfl, ?_⟩
      simp only [ConnSys.step, hw] at ht
      split_ifs at ht with hrc <;> obtain rfl := Option.some.inj ht
      · rw [if_pos hrc]
      · rw [if_neg hrc]
  | _ => simp [ConnSys.step, hw] at ht

lemma step_reply {r : VringCfgReply} (ht : s.step (.reply r) = some t) :
    ∃ cid id, s.worker = .waiting cid id ∧
      t = { s with
        wil := (wilVringInitTxEnd s.wil id r).1
        worker := .configured cid (wilVringInitTxEnd s.wil id r).2.1
        config := Function.update s.config cid
          (some ((wilVringInitTxEnd s.wil id r).2.1 = 0)) } := by
  cases hw : s.worker with
  | waiting cid id =>
      simp only [ConnSys.step, hw, Option.some.injEq] at ht
      exact ⟨cid, id, rfl, ht.symm⟩
  | _ => simp [ConnSys.step, hw] at ht

lemma step_clear (ht : s.step .clear = some t) :
    ∃ cid rc, s.worker = .configured cid rc ∧
      t = { s with
        wil := { s.wil with pendingConnectCid := none }
        worker := .cleared cid rc } := by
  cases hw : s.worker with
  | configured cid rc =>
      simp only [ConnSys.step, hw, Option.some.injEq] at ht
      exact ⟨cid, rc, rfl, ht.symm⟩
  | _ => simp [ConnSys.step, hw] at ht

lemma step_finish (ht : s.step .finish = some t) :
    ∃ cid rc, s.worker = .cleared cid rc ∧
      t = { s with wil := (connectFinish s.wil cid rc).1, worker := .idle } := by
  cases hw : s.worker with
  | cleared cid rc =>
      simp only [ConnSys.step, hw, Option.some.injEq] at ht
      exact ⟨cid, rc, rfl, ht.symm⟩
  | _ => simp [ConnSys.step, hw] at ht

end ConnSys

/-- **The steps in a row are `wil_connect_worker`.** -/
theorem connectSteps_eq (hq : s.queued = true) (hidle : s.worker = .idle) (allocOk : Bool)
    (reply : VringCfgReply) {cid : Cid} {id : RingId}
    (hpend : s.wil.pendingConnectCid = some cid) (hfree : wilFindFreeVring s.wil = some id) :
    ∃ as t, Machine.Exec ConnSys.step (fun _ _ => True) s as t ∧ t.worker = .idle ∧
      (wilConnectWorker s.wil allocOk reply).map Prod.fst = some t.wil := by
  set tid := s.wil.tidToUse &&& 0xf with htid
  set p := wilVringInitTxBegin s.wil id wil6210TxRingSize cid tid allocOk with hp
  have hstart : s.step .start
      = some { s with queued := false, worker := .started cid tid id } := by
    simp [ConnSys.step, hq, hidle, hpend, hfree, htid]
  by_cases hrc : p.2.1 = 0
  · have halloc : ConnSys.step { s with queued := false, worker := .started cid tid id }
        (.alloc allocOk)
        = some { s with queued := false, wil := p.1, worker := .waiting cid id } := by
      simp [ConnSys.step, ← hp, hrc]
    refine ⟨[.start, .alloc allocOk, .reply reply, .clear, .finish], _,
      ⟨trivial, _, hstart, trivial, _, halloc, trivial, _, rfl, trivial, _, rfl, trivial, _, rfl,
        rfl⟩, rfl, ?_⟩
    simp [wilConnectWorker, hpend, hfree, wilVringInitTx, ← htid, ← hp, hrc]
  · have halloc : ConnSys.step { s with queued := false, worker := .started cid tid id }
        (.alloc allocOk)
        = some { s with
            queued := false
            wil := p.1
            worker := .configured cid p.2.1
            config := Function.update s.config cid (some false) } := by
      simp [ConnSys.step, ← hp, hrc]
    refine ⟨[.start, .alloc allocOk, .clear, .finish], _,
      ⟨trivial, _, hstart, trivial, _, halloc, trivial, _, rfl, trivial, _, rfl, rfl⟩, rfl, ?_⟩
    simp [wilConnectWorker, hpend, hfree, wilVringInitTx, ← htid, ← hp, hrc]

/-! ## The invariant -/

/-- How a connect ends: connected with a ring of its own, or unused with a failed configuration. -/
def Settled (s : ConnSys) (c : Cid) : Prop :=
  ((s.wil.sta c).status = .connected ∧ s.wil.HasRing c) ∨
    ((s.wil.sta c).status = .unused ∧ s.config c = some false)

/-- The return code that the worker carries is that of the ring configuration. -/
def Outcome (s : ConnSys) (c : Cid) (rc : ℤ) : Prop :=
  s.config c = some (decide (rc = 0)) ∧ (rc = 0 → s.wil.HasRing c)

structure ConnInv (s : ConnSys) : Prop where
  /-- A pending connection is held by the worker, or waits for it. -/
  waits : ∀ c, s.wil.pendingConnectCid = some c →
    s.worker.holds = some c ∨ (s.queued = true ∧ s.worker.holds = none)
  held : ∀ c, s.worker.holds = some c → s.wil.pendingConnectCid = some c
  mapped : ∀ c i, s.worker = .waiting c i → s.wil.owner i = c.val
  ring : ∀ c i, s.worker = .waiting c i → s.last c = some .connect →
    (s.wil.vringTx i).va = true
  configured : ∀ c rc, s.worker = .configured c rc → s.last c = some .connect → Outcome s c rc
  cleared : ∀ c rc, s.worker = .cleared c rc → s.last c = some .connect →
    s.wil.pendingConnectCid ≠ some c → Outcome s c rc
  settled : ∀ c, s.last c = some .connect → s.wil.pendingConnectCid ≠ some c →
    (∀ rc, s.worker ≠ .cleared c rc) → Settled s c
  connPending : ∀ c, (s.wil.sta c).status = .connPending → s.last c = some .connect

lemma connInv_init (iftype : Iftype) (devAddr : Option MacAddr) :
    ConnInv (ConnSys.init iftype devAddr) := by
  refine ⟨?_, ?_, ?_, ?_, ?_, ?_, ?_, ?_⟩ <;> simp [ConnSys.init, wilPrivInit, Worker.holds]

/-- Every accepted CONNECT comes while no connection is pending. -/
def OneAtATime (s : ConnSys) : ConnAction → Prop
  | .connect evt len =>
      connectAccepts s.wil evt len ≠ none → s.wil.pendingConnectCid = none
  | _ => True

instance (s : ConnSys) : (a : ConnAction) → Decidable (OneAtATime s a)
  | .connect _ _ => inferInstanceAs (Decidable (_ → _))
  | .disconnect _ | .start | .alloc _ | .reply _ | .clear | .finish | .traffic _ =>
      inferInstanceAs (Decidable True)

lemma ConnInv.connect (h : ConnInv s) {evt : WmiConnectEvent} {len : ℕ}
    (hone : OneAtATime s (.connect evt len)) (ht : s.step (.connect evt len) = some t) :
    ConnInv t := by
  obtain ⟨-, rfl⟩ | ⟨cid, haccept, rfl⟩ := ConnSys.step_connect ht
  · exact h
  · have hnone : s.wil.pendingConnectCid = none := hone (by simp [haccept])
    obtain ⟨hpend, hstatus, -, hring, hmap⟩ := wmiEvtConnect_accepted evt len cid haccept
    have hrings : ∀ c, s.wil.HasRing c → (wmiEvtConnect s.wil evt len).1.HasRing c := by
      rintro c ⟨i, howner, hva⟩
      exact ⟨i, by rw [hmap, howner], by rw [hring, hva]⟩
    have hfree : s.worker.holds = none := by
      cases hw : s.worker.holds with
      | none => rfl
      | some c => simpa [hnone] using h.held c hw
    refine ⟨?_, ?_, ?_, ?_, ?_, ?_, ?_, ?_⟩
    · intro c _
      exact .inr ⟨rfl, hfree⟩
    · intro c hc
      exact absurd (hfree.symm.trans hc) (by simp)
    · intro c i hw
      simp [Worker.holds, show s.worker = _ from hw] at hfree
    · intro c i hw
      simp [Worker.holds, show s.worker = _ from hw] at hfree
    · intro c rc hw
      simp [Worker.holds, show s.worker = _ from hw] at hfree
    · intro c rc hw hlast hne
      have hc : c ≠ cid := by
        rintro rfl
        exact hne hpend
      simp only [Function.update_apply, if_neg hc] at hlast
      obtain ⟨hcfg, hhas⟩ := h.cleared c rc hw hlast (by simp [hnone])
      exact ⟨by simpa [hc] using hcfg, fun hrc => hrings c (hhas hrc)⟩
    · intro c hlast hne hw
      have hc : c ≠ cid := by
        rintro rfl
        exact hne hpend
      simp only [Function.update_apply, if_neg hc] at hlast
      rcases h.settled c hlast (by simp [hnone]) hw with ⟨hst, hhas⟩ | ⟨hst, hcfg⟩
      · exact .inl ⟨by rw [hstatus, if_neg hc, hst], hrings c hhas⟩
      · exact .inr ⟨by rw [hstatus, if_neg hc, hst], by simpa [hc] using hcfg⟩
    · intro c hst
      simp only [hstatus] at hst
      by_cases hc : c = cid
      · simp [hc]
      · rw [if_neg hc] at hst
        simpa [hc] using h.connPending c hst

lemma ConnInv.disconnect (h : ConnInv s) {bssid : MacAddr}
    (ht : s.step (.disconnect bssid) = some t) : ConnInv t := by
  simp only [ConnSys.step, Option.some.injEq] at ht
  obtain ⟨hpend, hstatus, -, hring, hmap⟩ := wmiEvtDisconnect_spec s.wil bssid
  have hlast : ∀ c, (if c ∈ disconnectCids s.wil bssid then some LastEvent.disconnect
      else s.last c) = some .connect →
      c ∉ disconnectCids s.wil bssid ∧ s.last c = some .connect := by
    intro c hc
    split_ifs at hc with hmem
    · exact absurd hc (by simp)
    · exact ⟨hmem, hc⟩
  subst ht
  refine ⟨?_, ?_, ?_, ?_, ?_, ?_, ?_, ?_⟩
  · intro c hc
    exact h.waits c (hpend ▸ hc)
  · intro c hc
    exact hpend.trans (h.held c hc)
  · intro c i hw
    rw [hmap]
    exact h.mapped c i hw
  · intro c i hw hc
    obtain ⟨hmem, hc⟩ := hlast c hc
    rw [hring, if_neg, h.ring c i hw hc]
    rintro ⟨d, hd, heq⟩
    exact hmem (Fin.ext ((h.mapped c i hw).symm.trans heq) ▸ hd)
  · intro c rc hw hc
    obtain ⟨hmem, hc⟩ := hlast c hc
    obtain ⟨hcfg, hhas⟩ := h.configured c rc hw hc
    exact ⟨hcfg, fun hrc => (hhas hrc).disconnect hmem⟩
  · intro c rc hw hc hne
    obtain ⟨hmem, hc⟩ := hlast c hc
    obtain ⟨hcfg, hhas⟩ := h.cleared c rc hw hc (hpend ▸ hne)
    exact ⟨hcfg, fun hrc => (hhas hrc).disconnect hmem⟩
  · intro c hc hne hw
    obtain ⟨hmem, hc⟩ := hlast c hc
    rcases h.settled c hc (hpend ▸ hne) hw with ⟨hst, hhas⟩ | ⟨hst, hcfg⟩
    · exact .inl ⟨by rw [hstatus, if_neg hmem, hst], hhas.disconnect hmem⟩
    · exact .inr ⟨by rw [hstatus, if_neg hmem, hst], hcfg⟩
  · intro c hst
    simp only [hstatus] at hst
    split_ifs at hst with hmem
    simpa [hmem] using h.connPending c hst

lemma ConnInv.start (h : ConnInv s) (ht : s.step .start = some t) : ConnInv t := by
  obtain ⟨-, hidle, rfl⟩ := ConnSys.step_start ht
  refine ⟨?_, ?_, by simp, by simp, by simp, by simp, ?_, h.connPending⟩
  · intro c hc
    exact .inl ((holds_startedAt s.wil).trans hc)
  · intro c hc
    exact (holds_startedAt s.wil).symm.trans hc
  · intro c hc hne _
    exact h.settled c hc hne (by simp [hidle])

lemma ConnInv.alloc (h : ConnInv s) {ok : Bool} (ht : s.step (.alloc ok) = some t) :
    ConnInv t := by
  obtain ⟨cid, tid, id, hw, ht⟩ := ConnSys.step_alloc ht
  have hpend : s.wil.pendingConnectCid = some cid := h.held cid (by simp [hw, Worker.holds])
  have hne : ∀ c, s.wil.pendingConnectCid ≠ some c → c ≠ cid := by
    rintro c hc rfl
    exact hc hpend
  rcases wilVringInitTxBegin_cases s.wil id wil6210TxRingSize cid tid ok with
    ⟨hrc, hfree, hring, hmap⟩ | ⟨hrc, hring, hmap⟩
  · rw [if_pos hrc] at ht
    subst ht
    refine ⟨?_, ?_, ?_, ?_, by simp, by simp, ?_, ?_⟩
    · intro c hc
      rw [pendingConnectCid_wilVringInitTxBegin] at hc
      exact .inl (hpend.symm.trans hc)
    · intro c hc
      rw [pendingConnectCid_wilVringInitTxBegin]
      exact hpend.trans hc
    · intro c i heq
      obtain ⟨rfl, rfl⟩ := Worker.waiting.inj heq
      rw [hmap, if_pos rfl]
    · intro c i heq _
      obtain ⟨rfl, rfl⟩ := Worker.waiting.inj heq
      rw [hring, if_pos rfl]
    · intro c hc hpc _
      rw [pendingConnectCid_wilVringInitTxBegin] at hpc
      rcases h.settled c hc hpc (by simp [hw]) with ⟨hst, hhas⟩ | ⟨hst, hcfg⟩
      · exact .inl ⟨by rw [sta_wilVringInitTxBegin, hst], hhas.allocate id _ _ _ _⟩
      · exact .inr ⟨by rw [sta_wilVringInitTxBegin, hst], hcfg⟩
    · intro c hst
      rw [sta_wilVringInitTxBegin] at hst
      exact h.connPending c hst
  · rw [if_neg hrc] at ht
    subst ht
    refine ⟨?_, ?_, by simp, by simp, ?_, by simp, ?_, ?_⟩
    · intro c hc
      rw [pendingConnectCid_wilVringInitTxBegin] at hc
      exact .inl (hpend.symm.trans hc)
    · intro c hc
      rw [pendingConnectCid_wilVringInitTxBegin]
      exact hpend.trans hc
    · intro c rc heq _
      obtain ⟨rfl, rfl⟩ := Worker.configured.inj heq
      exact ⟨by simp [hrc], fun h0 => absurd h0 hrc⟩
    · intro c hc hpc _
      rw [pendingConnectCid_wilVringInitTxBegin] at hpc
      rcases h.settled c hc hpc (by simp [hw]) with ⟨hst, hhas⟩ | ⟨hst, hcfg⟩
      · exact .inl ⟨by rw [sta_wilVringInitTxBegin, hst], hhas.allocate id _ _ _ _⟩
      · exact .inr ⟨by rw [sta_wilVringInitTxBegin, hst], by simpa [hne c hpc] using hcfg⟩
    · intro c hst
      rw [sta_wilVringInitTxBegin] at hst
      exact h.connPending c hst

lemma ConnInv.reply (h : ConnInv s) {r : VringCfgReply} (ht : s.step (.reply r) = some t) :
    ConnInv t := by
  obtain ⟨cid, id, hw, rfl⟩ := ConnSys.step_reply ht
  have hpend : s.wil.pendingConnectCid = some cid := h.held cid (by simp [hw, Worker.holds])
  have hne : ∀ c, s.wil.pendingConnectCid ≠ some c → c ≠ cid := by
    rintro c hc rfl
    exact hc hpend
  have howner := h.mapped cid id hw
  refine ⟨?_, ?_, by simp, by simp, ?_, by simp, ?_, ?_⟩
  · intro c hc
    rw [pendingConnectCid_wilVringInitTxEnd] at hc
    exact .inl (hpend.symm.trans hc)
  · intro c hc
    rw [pendingConnectCid_wilVringInitTxEnd]
    exact hpend.trans hc
  · intro c rc heq hc
    obtain ⟨rfl, rfl⟩ := Worker.configured.inj heq
    refine ⟨by simp, fun hrc => ?_⟩
    rcases wilVringInitTxEnd_cases s.wil id r with ⟨-, hring⟩ | ⟨hfail, -⟩
    · exact ⟨id, by rw [owner_wilVringInitTxEnd, howner],
        by rw [hring, h.ring cid id hw hc]⟩
    · exact absurd hrc hfail
  · intro c hc hpc _
    rw [pendingConnectCid_wilVringInitTxEnd] at hpc
    have hc' := hne c hpc
    rcases h.settled c hc hpc (by simp [hw]) with ⟨hst, hhas⟩ | ⟨hst, hcfg⟩
    · refine .inl ⟨by rw [sta_wilVringInitTxEnd, hst], hhas.configure ?_ r⟩
      rw [howner]
      exact fun heq => hc' (Fin.ext heq.symm)
    · exact .inr ⟨by rw [sta_wilVringInitTxEnd, hst], by simpa [hc'] using hcfg⟩
  · intro c hst
    rw [sta_wilVringInitTxEnd] at hst
    exact h.connPending c hst

lemma ConnInv.clear (h : ConnInv s) (ht : s.step .clear = some t) : ConnInv t := by
  obtain ⟨cid, rc, hw, rfl⟩ := ConnSys.step_clear ht
  have hpend : s.wil.pendingConnectCid = some cid := h.held cid (by simp [hw, Worker.holds])
  refine ⟨by simp, by simp [Worker.holds], by simp, by simp, by simp, ?_, ?_, h.connPending⟩
  · intro c rc' heq hc _
    obtain ⟨rfl, rfl⟩ := Worker.cleared.inj heq
    exact h.configured cid rc hw hc
  · intro c hc _ hcl
    have hne : s.wil.pendingConnectCid ≠ some c := by
      rw [hpend]
      rintro heq
      obtain rfl := Option.some.inj heq
      exact hcl rc rfl
    exact h.settled c hc hne (by simp [hw])

lemma ConnInv.finish (h : ConnInv s) (ht : s.step .finish = some t) : ConnInv t := by
  obtain ⟨cid, rc, hw, rfl⟩ := ConnSys.step_finish ht
  refine ⟨?_, by simp [Worker.holds], by simp, by simp, by simp, by simp, ?_, ?_⟩
  · intro c hc
    rcases h.waits c hc with hh | ⟨hq, -⟩
    · simp [hw, Worker.holds] at hh
    · exact .inr ⟨hq, rfl⟩
  · intro c hc hpc _
    by_cases hcid : c = cid
    · subst hcid
      obtain ⟨hcfg, hhas⟩ := h.cleared c rc hw hc hpc
      by_cases hrc : rc = 0
      · exact .inl ⟨by simp [hrc], hhas hrc⟩
      · exact .inr ⟨by simp [hrc], by simpa [hrc] using hcfg⟩
    · have hne : ∀ rc', s.worker ≠ .cleared c rc' := by
        intro rc' heq
        rw [hw] at heq
        exact hcid (Worker.cleared.inj heq).1.symm
      rcases h.settled c hc hpc hne with ⟨hst, hhas⟩ | ⟨hst, hcfg⟩
      · exact .inl ⟨by simp [hcid, hst], hhas⟩
      · exact .inr ⟨by simp [hcid, hst], hcfg⟩
  · intro c hst
    rw [status_connectFinish] at hst
    split_ifs at hst
    exact h.connPending c hst

lemma ConnInv.traffic (h : ConnInv s) {w : Wil} (ht : s.step (.traffic w) = some t) :
    ConnInv t := by
  obtain rfl := Option.some.inj ht
  exact ⟨h.waits, h.held, h.mapped, h.ring, h.configured, h.cleared, h.settled, h.connPending⟩

/-- **Every step keeps the invariant.** -/
theorem ConnInv.step (h : ConnInv s) {a : ConnAction} (hone : OneAtATime s a)
    (ht : s.step a = some t) : ConnInv t := by
  cases a with
  | connect evt len => exact h.connect hone ht
  | disconnect bssid => exact h.disconnect ht
  | start => exact h.start ht
  | alloc ok => exact h.alloc ht
  | reply r => exact h.reply ht
  | clear => exact h.clear ht
  | finish => exact h.finish ht
  | traffic w => exact h.traffic ht

/-! ## No connect is lost -/

/-- **No connect is lost, where they come one at a time.**  Once no connect work is pending or
running, every station whose last event is a CONNECT is connected with a ring of its own, or
unused because its ring could not be configured; none is left pending. -/
theorem connect_settled {iftype : Iftype} {devAddr : Option MacAddr} {as : List ConnAction}
    (h : Machine.Exec ConnSys.step OneAtATime (ConnSys.init iftype devAddr) as s)
    (hquiet : s.Quiet) :
    (∀ c, s.last c = some .connect → Settled s c) ∧
      ∀ c, (s.wil.sta c).status ≠ .connPending := by
  have hinv : ConnInv s := h.invariant (fun _ _ _ hG ht hi => hi.step hG ht)
    (connInv_init iftype devAddr)
  obtain ⟨hidle, hqueue⟩ := hquiet
  have hnone : ∀ c, s.wil.pendingConnectCid ≠ some c := by
    intro c hc
    rcases hinv.waits c hc with hh | ⟨hq, -⟩
    · simp [hidle, Worker.holds] at hh
    · simp [hqueue] at hq
  have hsettled : ∀ c, s.last c = some .connect → Settled s c :=
    fun c hc => hinv.settled c hc (hnone c) (by simp [hidle])
  refine ⟨hsettled, fun c hst => ?_⟩
  rcases hsettled c (hinv.connPending c hst) with ⟨h', -⟩ | ⟨h', -⟩ <;>
    simp [hst] at h'

/-- A CONNECT of the station with address `mac`, without information elements. -/
def bareConnect (mac : MacAddr) (cid : ℕ) : ConnAction :=
  .connect ⟨mac, 0, 0, 0, cid, []⟩ sizeofWmiConnectEvent

/-- Two stations, one after the other; the ring of the second cannot be configured. -/
theorem connect_settled_two :
    ∃ s : ConnSys, s.Quiet ∧ (∀ c, s.last c = some .connect → Settled s c) ∧
      s.last 0 = some .connect ∧ s.last 1 = some .connect := by
  let as : List ConnAction := [bareConnect 2 0, .start, .alloc true, .reply ⟨0, 0, 0⟩, .clear,
    .finish, bareConnect 3 1, .start, .alloc true, .reply ⟨eTime, 0, 0⟩, .clear, .finish]
  have hrun : (Machine.exec ConnSys.step OneAtATime (ConnSys.init .ap (some 1)) as).map
      (fun s => (s.worker, s.queued, s.last 0, s.last 1))
      = some (.idle, false, some .connect, some .connect) := by
    decide +kernel
  obtain ⟨s, hs, hend⟩ := Option.map_eq_some_iff.mp hrun
  simp only [Prod.mk.injEq] at hend
  obtain ⟨hidle, hqueued, h0, h1⟩ := hend
  exact ⟨s, ⟨hidle, hqueued⟩, (connect_settled (.of_exec hs) ⟨hidle, hqueued⟩).1, h0, h1⟩

/-- Two CONNECTs before the worker starts: the first station stays pending. -/
theorem not_connect_settled :
    ¬ ∀ (iftype : Iftype) (devAddr : Option MacAddr) (as : List ConnAction) (s : ConnSys),
      Machine.Exec ConnSys.step (fun _ _ => True) (ConnSys.init iftype devAddr) as s → s.Quiet →
      (∀ c, s.last c = some .connect → Settled s c) ∧
        ∀ c, (s.wil.sta c).status ≠ .connPending := by
  intro h
  let as : List ConnAction := [bareConnect 2 0, bareConnect 3 1, .start, .alloc true,
    .reply ⟨0, 0, 0⟩, .clear, .finish]
  have hrun : (Machine.exec ConnSys.step (fun _ _ => True) (ConnSys.init .ap (some 1)) as).map
      (fun s => (s.worker, s.queued, (s.wil.sta 0).status))
      = some (.idle, false, .connPending) := by
    decide +kernel
  obtain ⟨s, hs, hend⟩ := Option.map_eq_some_iff.mp hrun
  simp only [Prod.mk.injEq] at hend
  obtain ⟨hidle, hqueued, hstatus⟩ := hend
  exact (h _ _ as s (.of_exec hs) ⟨hidle, hqueued⟩).2 0 hstatus

end Wil6210
