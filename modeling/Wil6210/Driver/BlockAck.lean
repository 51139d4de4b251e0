import Wil6210.Driver.ConnectRun
import Wil6210.Rx.Order

/-!
# Block-ack sessions

A reorder session is made in two places: `wil_back_handle` makes one when the peer asks for it (an
ADDBA request), and `wmi_evt_ba_status` remakes all sessions of a station when the firmware reports
an agreement on one of its rings.  Received frames find their session through the CID and the TID
of their descriptor.

`wil_back_handle` waits for the firmware between its checks and what it applies, so it is also in
two halves, `wilBackHandleBegin` and `wilBackHandleEnd`, and `BackSys` has the worker wait while
other events are handled.

The event path refuses a window of zero frames, the request path does not.  `sessionsSized_run`
says that this is the only way to a session of size zero, by which `reorder_index` would divide.
-/

namespace Wil6210

/-! ## ADDBA requests -/

/-- `struct wil_pending_back`: an ADDBA request as the peer sent it. -/
structure WilPendingBack where
  cidxtid : UInt8
  dialogToken : UInt8
  baParamSet : UInt16
  baTimeout : UInt16
  baSeqCtrl : UInt16
  deriving DecidableEq, Repr

/-- `parse_cidxtid`: the CID, and the TID. -/
def parseCidxtid (cidxtid : UInt8) : ℕ × Fin 16 :=
  (cidxtid.toNat &&& 0xf, Fin.ofNat 16 ((cidxtid.toNat >>> 4) &&& 0xf))

/-- `mk_cidxtid` -/
def mkCidxtid (cid tid : ℕ) : ℕ := ((tid &&& 0xf) <<< 4) ||| (cid &&& 0xf)

/-- `struct wmi_rcp_addba_resp_cmd` -/
structure WmiRcpAddbaRespCmd where
  cidxtid : ℕ
  dialogToken : ℕ
  statusCode : ℕ
  baParamSet : ℕ
  baTimeout : ℕ
  deriving DecidableEq, Repr

/-- What `wmi_rcp_addba_resp` sends. -/
def wmiRcpAddbaResp (cid tid token status : ℕ) (amsdu : Bool) (aggWsize timeout : ℕ) :
    WmiRcpAddbaRespCmd where
  cidxtid := mkCidxtid cid tid
  dialogToken := token
  statusCode := status
  -- always establish immediate BACK - bit 1
  baParamSet := u16 ((if amsdu then 1 else 0) ||| 2 ||| (tid <<< 2) ||| (aggWsize <<< 6))
  baTimeout := timeout

/-- The outcome of `wmi_rcp_addba_resp`: the return code of `wmi_call`, and the status of the
reply. -/
structure AddbaReply where
  rc : ℤ
  status : ℕ
  deriving DecidableEq, Repr

/-- What `wmi_rcp_addba_resp` returns. -/
def AddbaReply.result (r : AddbaReply) : ℤ :=
  if r.rc ≠ 0 then r.rc else if r.status ≠ 0 then eInval else 0

/-- `WIL_GET_BITS(ba_param_set, 6, 15)`: the window that the peer asks for. -/
def WilPendingBack.reqAggWsize (req : WilPendingBack) : ℕ := wilGetBits req.baParamSet.toNat 6 15

/-- The window after the policy of `wil_back_handle`. -/
def WilPendingBack.aggWsize (req : WilPendingBack) : ℕ := min 16 req.reqAggWsize

/-- `wil_back_handle` while it waits for the firmware. -/
structure BackWait where
  cid : Cid
  tid : Fin 16
  req : WilPendingBack
  deriving DecidableEq, Repr

/-- `wil_back_handle`, up to its WMI call; `none` where it returns. -/
def wilBackHandleBegin (s : Wil) (req : WilPendingBack) :
    Option (BackWait × WmiRcpAddbaRespCmd) :=
  let cidTid := parseCidxtid req.cidxtid
  -- sanity checks
  if h : cidTid.1 < 8 then
    if (s.sta ⟨cidTid.1, h⟩).status ≠ .connected then none
    else
      some (⟨⟨cidTid.1, h⟩, cidTid.2, req⟩,
        wmiRcpAddbaResp cidTid.1 cidTid.2 req.dialogToken.toNat 0 false req.aggWsize
          req.baTimeout.toNat)
  else none

/-- `s` with the session of a CID and a TID replaced. -/
def Wil.setTidRx (s : Wil) (cid : Cid) (tid : Fin 16) (r : Option WilTidAmpduRx) : Wil :=
  { s with
    sta := Function.update s.sta cid
      { s.sta cid with tidRx := Function.update (s.sta cid).tidRx tid r } }

/-- `wil_back_handle`, from the return of its WMI call. -/
def wilBackHandleEnd (s : Wil) (w : BackWait) (reply : AddbaReply) (allocOk : Bool) :
    Wil × List DrvEvent :=
  if reply.result ≠ 0 then (s, [])
  else
    (s.setTidRx w.cid w.tid
        (wilTidAmpduRxAlloc allocOk w.req.aggWsize (w.req.baSeqCtrl.toNat >>> 4)),
      (wilTidAmpduRxFree ((s.sta w.cid).tidRx w.tid)).map DrvEvent.rx)

/-- `wil_back_handle`: the state, the response it sends, and what it does otherwise. -/
def wilBackHandle (s : Wil) (req : WilPendingBack) (reply : AddbaReply) (allocOk : Bool) :
    Wil × Option WmiRcpAddbaRespCmd × List DrvEvent :=
  match wilBackHandleBegin s req with
  | none => (s, none, [])
  | some (w, cmd) =>
      let p := wilBackHandleEnd s w reply allocOk
      (p.1, some cmd, p.2)

/-- **The two halves in a row are `wil_back_handle`**, where it gets to the WMI call. -/
lemma wilBackHandle_of_begin {s : Wil} {req : WilPendingBack} {w : BackWait}
    {cmd : WmiRcpAddbaRespCmd} (hbegin : wilBackHandleBegin s req = some (w, cmd))
    (reply : AddbaReply) (allocOk : Bool) :
    wilBackHandle s req reply allocOk
      = ((wilBackHandleEnd s w reply allocOk).1, some cmd,
          (wilBackHandleEnd s w reply allocOk).2) := by
  rw [wilBackHandle, hbegin]

/-! ## BA status events -/

/-- `struct wmi_vring_ba_status_event` -/
structure WmiVringBaStatusEvent where
  status : UInt16
  ringid : UInt8
  aggWsize : UInt8
  baTimeout : UInt16
  deriving DecidableEq, Repr

/-- `status == WMI_BA_AGREED && agg_wsize`: there is an agreement on a window. -/
def WmiVringBaStatusEvent.agreed (evt : WmiVringBaStatusEvent) : Bool :=
  evt.status = 0 ∧ evt.aggWsize ≠ 0

/-- The checks of `wmi_evt_ba_status`: the ring and the CID it is mapped to. -/
def baStatusAccepts (s : Wil) (evt : WmiVringBaStatusEvent) : Option (RingId × Cid) :=
  if h : evt.ringid.toNat < 24 then
    if hc : s.owner ⟨evt.ringid.toNat, h⟩ < 8 then
      if (s.sta ⟨s.owner ⟨evt.ringid.toNat, h⟩, hc⟩).status = .unused then none
      else some (⟨evt.ringid.toNat, h⟩, ⟨s.owner ⟨evt.ringid.toNat, h⟩, hc⟩)
    else none
  else none

/-- `wmi_evt_ba_status`; `allocOk` is the outcome of the allocation for each TID.  Its loop visits
every TID once. -/
def wmiEvtBaStatus (s : Wil) (evt : WmiVringBaStatusEvent) (allocOk : Fin 16 → Bool) :
    Wil × List DrvEvent :=
  match baStatusAccepts s evt with
  | none => (s, [])
  | some (ringid, cid) =>
      ({ s with
          sta := Function.update s.sta cid
            { s.sta cid with
              tidRx := fun i =>
                if evt.agreed then wilTidAmpduRxAlloc (allocOk i) evt.aggWsize.toNat 0 else none }
          vringTxData := Function.update s.vringTxData ringid
            ⟨evt.aggWsize.toNat, evt.baTimeout.toNat⟩ },
        (List.finRange 16).flatMap fun i =>
          (wilTidAmpduRxFree ((s.sta cid).tidRx i)).map DrvEvent.rx)

/-! ## Received frames -/

lemma wilRxdescCid_lt (d : VringRxDesc) : wilRxdescCid d < 8 :=
  lt_of_le_of_lt Nat.and_le_right (by decide)

lemma wilRxdescTid_lt (d : VringRxDesc) : wilRxdescTid d < 16 :=
  lt_of_le_of_lt Nat.and_le_right (by decide)

/-- The station a frame is from. -/
def RxSkb.cid (skb : RxSkb) : Cid := ⟨wilRxdescCid skb.rxdesc, wilRxdescCid_lt _⟩

/-- The TID of a frame. -/
def RxSkb.tid (skb : RxSkb) : Fin 16 := ⟨wilRxdescTid skb.rxdesc, wilRxdescTid_lt _⟩

/-- `wil_rx_reorder`, with the lookup of the session. -/
def wilRxReorderSta (s : Wil) (skb : RxSkb) : Wil × List DrvEvent :=
  let p := wilRxReorder ((s.sta skb.cid).tidRx skb.tid) skb
  (s.setTidRx skb.cid skb.tid p.1, p.2.map DrvEvent.rx)

/-! ## What happens to the sessions -/

section Lemmas

variable {s : Wil} (cid c : Cid) (tid i : Fin 16)

@[simp] lemma tidRx_setTidRx (r : Option WilTidAmpduRx) :
    ((s.setTidRx cid tid r).sta c).tidRx i
      = if c = cid ∧ i = tid then r else (s.sta c).tidRx i := by
  by_cases hc : c = cid
  · subst hc
    by_cases hi : i = tid <;> simp [Wil.setTidRx, hi]
  · simp [Wil.setTidRx, hc]

lemma tidRx_wmiEvtConnect (evt : WmiConnectEvent) (len : ℕ) :
    ((wmiEvtConnect s evt len).1.sta c).tidRx i = (s.sta c).tidRx i := by
  simp only [wmiEvtConnect]
  cases connectAccepts s evt len with
  | none => rfl
  | some cid =>
      by_cases hc : c = cid
      · subst hc
        simp
      · simp [hc]

/-- Taking stations down leaves a session as it is, or frees it. -/
lemma tidRx_disconnect_run (cids : List Cid) :
    ((Machine.run wilDisconnectCid s cids).1.sta c).tidRx i
      = if c ∈ cids then none else (s.sta c).tidRx i := by
  induction cids generalizing s with
  | nil => simp
  | cons cid cids ih =>
      rw [Machine.run_cons, ih, tidRx_wilDisconnectCid]
      by_cases hc : c = cid <;> simp [hc]

lemma tidRx_wmiEvtDisconnect (bssid : MacAddr) :
    ((wmiEvtDisconnect s bssid).1.sta c).tidRx i
      = if c ∈ disconnectCids s bssid then none else (s.sta c).tidRx i := by
  set t : Wil := { s with sinfoGen := s.sinfoGen + 1 } with ht
  have hcids : disconnectCids t bssid = disconnectCids s bssid := rfl
  rw [wmiEvtDisconnect, ← ht, wil6210Disconnect]
  simp only [sta_disconnectLink, disconnectStations_run, tidRx_disconnect_run, hcids]
  rfl

lemma tidRx_connectFinish (rc : ℤ) :
    ((connectFinish s cid rc).1.sta c).tidRx i = (s.sta c).tidRx i := by
  by_cases hc : c = cid
  · subst hc
    simp [connectFinish]
  · simp [connectFinish, hc]

end Lemmas

/-! ## Window sizes -/

/-- Every session has room for a frame: `reorder_index` can divide by its size. -/
def SessionsSized (s : Wil) : Prop :=
  ∀ cid tid r, (s.sta cid).tidRx tid = some r → 1 ≤ r.bufSize

lemma bufSize_wilReorderRelease (r : WilTidAmpduRx) :
    (wilReorderRelease r).1.bufSize = r.bufSize := by
  obtain ⟨n, heq, -, -⟩ := wilReorderRelease_eq r
  rw [heq, advanceN_bufSize]

lemma bufSize_wilRxReorderStore (r : WilTidAmpduRx) (skb : RxSkb) :
    (wilRxReorderStore r skb).1.bufSize = r.bufSize := by
  rw [wilRxReorderStore_eq]
  split_ifs
  · rfl
  · rfl
  · rw [bufSize_wilReorderRelease]
    rfl

/-- A frame leaves the size of its session as it is. -/
lemma bufSize_wilRxReorder (r : Option WilTidAmpduRx) (skb : RxSkb) :
    (wilRxReorder r skb).1.map WilTidAmpduRx.bufSize = r.map WilTidAmpduRx.bufSize := by
  cases r with
  | none => rfl
  | some r =>
      rw [wilRxReorder_some]
      split_ifs
      · rfl
      · simp [bufSize_wilRxReorderStore]
      · simp [bufSize_wilRxReorderStore]

lemma bufSize_wilTidAmpduRxAlloc {size ssn : ℕ} {r : WilTidAmpduRx} {ok : Bool}
    (h : wilTidAmpduRxAlloc ok size ssn = some r) : ok = true ∧ r.bufSize = u16 size := by
  cases ok with
  | false => simp [wilTidAmpduRxAlloc] at h
  | true =>
      simp only [wilTidAmpduRxAlloc, if_true, Option.some.injEq] at h
      exact ⟨rfl, by rw [← h]⟩

variable {s : Wil}

/-- **The event path makes no session of size zero.** -/
theorem SessionsSized.baStatus (h : SessionsSized s) (evt : WmiVringBaStatusEvent)
    (allocOk : Fin 16 → Bool) : SessionsSized (wmiEvtBaStatus s evt allocOk).1 := by
  rintro c i r hr
  simp only [wmiEvtBaStatus] at hr
  split at hr
  · exact h c i r hr
  · rename_i ringid cid _
    by_cases hc : c = cid
    · subst hc
      simp only [Function.update_self] at hr
      split_ifs at hr with hagreed
      obtain ⟨-, hsize⟩ := bufSize_wilTidAmpduRxAlloc hr
      have hne : evt.aggWsize.toNat ≠ 0 := by
        have hne' : evt.aggWsize ≠ 0 := (of_decide_eq_true hagreed).2
        simpa [← UInt8.toNat_inj] using hne'
      have hlt := evt.aggWsize.toNat_lt
      rw [hsize, u16]
      omega
    · simp only [Function.update_of_ne hc] at hr
      exact h c i r hr

/-- Received frames keep the sizes. -/
theorem SessionsSized.rx (h : SessionsSized s) (skb : RxSkb) :
    SessionsSized (wilRxReorderSta s skb).1 := by
  rintro c i r hr
  rw [wilRxReorderSta, tidRx_setTidRx] at hr
  split_ifs at hr with hci
  · have hsize := bufSize_wilRxReorder ((s.sta skb.cid).tidRx skb.tid) skb
    rw [hr, Option.map_some] at hsize
    obtain ⟨r', hr', heq⟩ := Option.map_eq_some_iff.mp hsize.symm
    rw [← heq]
    exact h _ _ _ hr'
  · exact h c i r hr

/-- **The request path makes a session of the size that the policy allows**, also of size zero. -/
theorem sessionsSized_wilBackHandleEnd_iff (h : SessionsSized s) (w : BackWait) (reply : AddbaReply)
    (allocOk : Bool) :
    SessionsSized (wilBackHandleEnd s w reply allocOk).1 ↔
      (reply.result = 0 → allocOk = true → w.req.reqAggWsize ≠ 0) := by
  have hpolicy : u16 w.req.aggWsize = w.req.aggWsize := by
    simp only [u16, WilPendingBack.aggWsize]
    omega
  have hzero : w.req.aggWsize ≠ 0 ↔ w.req.reqAggWsize ≠ 0 := by
    simp only [WilPendingBack.aggWsize]
    omega
  simp only [wilBackHandleEnd]
  split_ifs with hrc
  · exact ⟨fun _ hrc' => absurd hrc' hrc, fun _ => h⟩
  · constructor
    · rintro hsized - rfl
      have hsize := hsized w.cid w.tid _ (by simp [wilTidAmpduRxAlloc]; rfl)
      simp only [hpolicy] at hsize
      exact hzero.mp (by omega)
    · rintro hreq c i r hr
      rw [tidRx_setTidRx] at hr
      split_ifs at hr with hci
      · obtain ⟨hok, hsize⟩ := bufSize_wilTidAmpduRxAlloc hr
        rw [hsize, hpolicy]
        exact Nat.one_le_iff_ne_zero.mpr (hzero.mpr (hreq (by simpa using hrc) hok))
      · exact h c i r hr

/-! ## The machine -/

/-- The driver with its two workers: `connect_worker`, and the one that handles ADDBA requests. -/
structure BackSys where
  conn : ConnSys
  /-- `back_pending` -/
  pending : List WilPendingBack
  /-- where `wil_back_handle` waits for the firmware -/
  waiting : Option BackWait

inductive BackAction
  /-- A CONNECT, a DISCONNECT, or a step of `connect_worker`. -/
  | conn (a : ConnAction)
  /-- `wil_rcp_addba_request`; `allocOk` is the outcome of its allocation. -/
  | addbaRequest (req : WilPendingBack) (allocOk : Bool)
  /-- `wil_back_worker` takes the next request. -/
  | back
  | backReply (reply : AddbaReply) (allocOk : Bool)
  | baStatus (evt : WmiVringBaStatusEvent) (allocOk : Fin 16 → Bool)
  | rx (skb : RxSkb)

/-- One step. -/
def BackSys.step (s : BackSys) : BackAction → Option BackSys
  -- traffic is here in its own actions
  | .conn (.traffic _) => none
  | .conn a => (s.conn.step a).map fun conn => { s with conn := conn }
  | .addbaRequest req allocOk =>
      some { s with pending := if allocOk then s.pending ++ [req] else s.pending }
  | .back =>
      match s.waiting, s.pending with
      | none, req :: rest =>
          some { s with
            pending := rest
            waiting := (wilBackHandleBegin s.conn.wil req).map Prod.fst }
      | _, _ => none
  | .backReply reply allocOk =>
      match s.waiting with
      | none => none
      | some w =>
          some { s with
            conn := { s.conn with wil := (wilBackHandleEnd s.conn.wil w reply allocOk).1 }
            waiting := none }
  | .baStatus evt allocOk =>
      some { s with conn := { s.conn with wil := (wmiEvtBaStatus s.conn.wil evt allocOk).1 } }
  | .rx skb => some { s with conn := { s.conn with wil := (wilRxReorderSta s.conn.wil skb).1 } }

lemma BackSys.step_conn {s t : BackSys} {a : ConnAction} (ht : s.step (.conn a) = some t) :
    (∀ w, a ≠ .traffic w) ∧ ∃ conn, s.conn.step a = some conn ∧ t = { s with conn := conn } := by
  cases a with
  | traffic w => simp [BackSys.step] at ht
  | _ =>
      simp only [BackSys.step, Option.map_eq_some_iff] at ht
      obtain ⟨conn, hconn, rfl⟩ := ht
      exact ⟨by simp, conn, hconn, rfl⟩

lemma BackSys.step_back {s t : BackSys} (ht : s.step .back = some t) :
    ∃ req rest, s.waiting = none ∧ s.pending = req :: rest ∧
      t = { s with
        pending := rest
        waiting := (wilBackHandleBegin s.conn.wil req).map Prod.fst } := by
  simp only [BackSys.step] at ht
  split at ht <;> simp only [Option.some.injEq, reduceCtorEq] at ht
  rename_i req rest hidle hpending
  exact ⟨req, rest, hidle, hpending, ht.symm⟩

lemma BackSys.step_backReply {s t : BackSys} {reply : AddbaReply} {allocOk : Bool}
    (ht : s.step (.backReply reply allocOk) = some t) :
    ∃ w, s.waiting = some w ∧
      t = { s with
        conn := { s.conn with wil := (wilBackHandleEnd s.conn.wil w reply allocOk).1 }
        waiting := none } := by
  cases hw : s.waiting with
  | none => simp [BackSys.step, hw] at ht
  | some w =>
      simp only [BackSys.step, hw, Option.some.injEq] at ht
      exact ⟨w, rfl, ht.symm⟩

/-- Nothing connected, no request pending. -/
def BackSys.init (iftype : Iftype) (devAddr : Option MacAddr) : BackSys :=
  ⟨ConnSys.init iftype devAddr, [], none⟩

/-- **When the sizes stay right**: every request that is applied asks for a window. -/
def AddbaSized (s : BackSys) : BackAction → Prop
  | .backReply reply allocOk =>
      ∀ w ∈ s.waiting, reply.result = 0 → allocOk = true → w.req.reqAggWsize ≠ 0
  | _ => True

instance (s : BackSys) : (a : BackAction) → Decidable (AddbaSized s a)
  | .backReply reply allocOk => inferInstanceAs (Decidable (∀ w ∈ s.waiting,
      reply.result = 0 → allocOk = true → w.req.reqAggWsize ≠ 0))
  | .conn _ | .addbaRequest _ _ | .back | .baStatus _ _ | .rx _ => inferInstanceAs (Decidable True)

/-- Connects and their worker make no session. -/
lemma tidRx_of_conn {c c' : ConnSys} {a : ConnAction} (htraffic : ∀ w, a ≠ .traffic w)
    (hc : c.step a = some c') {i : Cid} {tid : Fin 16} {r : WilTidAmpduRx}
    (hr : (c'.wil.sta i).tidRx tid = some r) : (c.wil.sta i).tidRx tid = some r := by
  cases a with
  | connect evt len =>
      obtain ⟨-, rfl⟩ | ⟨cid, -, rfl⟩ := ConnSys.step_connect hc
      · exact hr
      · rwa [tidRx_wmiEvtConnect] at hr
  | disconnect bssid =>
      obtain rfl := Option.some.inj hc
      rw [tidRx_wmiEvtDisconnect] at hr
      split_ifs at hr
      exact hr
  | start =>
      obtain ⟨-, -, rfl⟩ := ConnSys.step_start hc
      exact hr
  | alloc ok =>
      obtain ⟨cid, tid, id, -, hc⟩ := ConnSys.step_alloc hc
      split_ifs at hc <;> subst hc <;> rwa [sta_wilVringInitTxBegin] at hr
  | reply rep =>
      obtain ⟨cid, id, -, rfl⟩ := ConnSys.step_reply hc
      rwa [sta_wilVringInitTxEnd] at hr
  | clear =>
      obtain ⟨cid, rc, -, rfl⟩ := ConnSys.step_clear hc
      exact hr
  | finish =>
      obtain ⟨cid, rc, -, rfl⟩ := ConnSys.step_finish hc
      rwa [tidRx_connectFinish] at hr
  | traffic w => exact absurd rfl (htraffic w)

/-- So the sizes stay right. -/
lemma SessionsSized.conn {c c' : ConnSys} (h : SessionsSized c.wil) {a : ConnAction}
    (htraffic : ∀ w, a ≠ .traffic w) (hc : c.step a = some c') : SessionsSized c'.wil :=
  fun i tid r hr => h i tid r (tidRx_of_conn htraffic hc hr)

variable {t : BackSys}

/-- **One step**: the sizes stay right exactly where the condition is met. -/
theorem sessionsSized_step_iff {s : BackSys} (h : SessionsSized s.conn.wil) {a : BackAction}
    (ht : s.step a = some t) : SessionsSized t.conn.wil ↔ AddbaSized s a := by
  cases a with
  | conn a =>
      obtain ⟨htraffic, c', hc', rfl⟩ := BackSys.step_conn ht
      exact ⟨fun _ => trivial, fun _ => h.conn htraffic hc'⟩
  | addbaRequest req allocOk =>
      obtain rfl := Option.some.inj ht
      exact ⟨fun _ => trivial, fun _ => h⟩
  | back =>
      obtain ⟨req, rest, -, -, rfl⟩ := BackSys.step_back ht
      exact ⟨fun _ => trivial, fun _ => h⟩
  | backReply reply allocOk =>
      obtain ⟨w, hw, rfl⟩ := BackSys.step_backReply ht
      rw [sessionsSized_wilBackHandleEnd_iff h]
      simp [AddbaSized, hw]
  | baStatus evt allocOk =>
      obtain rfl := Option.some.inj ht
      exact ⟨fun _ => trivial, fun _ => h.baStatus evt allocOk⟩
  | rx skb =>
      obtain rfl := Option.some.inj ht
      exact ⟨fun _ => trivial, fun _ => h.rx skb⟩

/-- **No session of size zero, where every request that is applied asks for a window.**  Whatever
else the peer asks for, whatever the firmware reports and whatever is received: in every state,
every session has room for a frame. -/
theorem sessionsSized_run {iftype : Iftype} {devAddr : Option MacAddr} {as : List BackAction}
    (h : Machine.Exec BackSys.step AddbaSized (BackSys.init iftype devAddr) as t) :
    SessionsSized t.conn.wil := by
  refine h.invariant (I := fun s => SessionsSized s.conn.wil)
    (fun s a u hG hu hs => (sessionsSized_step_iff hs hu).mpr hG) ?_
  rintro c i r hr
  simp [BackSys.init, ConnSys.init, wilPrivInit] at hr

/-- A station connects and asks for a block-ack session with this `ba_param_set`. -/
def askForSession (baParamSet : UInt16) : List BackAction :=
  [.conn (bareConnect 2 0), .conn .start, .conn (.alloc true), .conn (.reply ⟨0, 0, 0⟩),
    .conn .clear, .conn .finish, .addbaRequest ⟨0x30, 1, baParamSet, 0, 0⟩ true, .back,
    .backReply ⟨0, 0⟩ true]

/-- A window of 64 frames, on CID 0 and TID 3: the session has the 16 of the policy. -/
theorem sessionsSized_run_sixteen :
    ∃ s : BackSys, SessionsSized s.conn.wil ∧
      ((s.conn.wil.sta 0).tidRx 3).map WilTidAmpduRx.bufSize = some 16 := by
  have hrun : (Machine.exec BackSys.step AddbaSized (BackSys.init .ap (some 1))
      (askForSession 0x1002)).map
        (fun s => ((s.conn.wil.sta 0).tidRx 3).map WilTidAmpduRx.bufSize) = some (some 16) := by
    decide +kernel
  obtain ⟨s, hs, hend⟩ := Option.map_eq_some_iff.mp hrun
  exact ⟨s, sessionsSized_run (.of_exec hs), hend⟩

/-- A buffer-size field of zero makes a session of size zero. -/
theorem not_sessionsSized_run :
    ¬ ∀ (iftype : Iftype) (devAddr : Option MacAddr) (as : List BackAction) (s : BackSys),
      Machine.Exec BackSys.step (fun _ _ => True) (BackSys.init iftype devAddr) as s →
      SessionsSized s.conn.wil := by
  intro h
  have hrun : (Machine.exec BackSys.step (fun _ _ => True) (BackSys.init .ap (some 1))
      (askForSession 0x0002)).map
        (fun s => ((s.conn.wil.sta 0).tidRx 3).map WilTidAmpduRx.bufSize) = some (some 0) := by
    decide +kernel
  obtain ⟨s, hs, hend⟩ := Option.map_eq_some_iff.mp hrun
  obtain ⟨r, hr, hsize⟩ := Option.map_eq_some_iff.mp hend
  have := h _ _ _ s (.of_exec hs) 0 3 r hr
  omega

end Wil6210
