import Wil6210.Driver.Disconnect

/-!
# Connecting a station

A WMI_CONNECT event marks its station as pending, stores the CID in `pending_connect_cid` and
queues `connect_worker`.  The worker, on a queue of its own, takes the CID from there, allocates
the first free ring, configures it by a WMI call, clears `pending_connect_cid` and only then sets
the status of the station.

`wil_connect_worker` is one function of the source.  Other handlers run while it waits for the
firmware, so `ConnSys` also has it in five steps (`started`, `waiting`, `configured`, `cleared`,
done); `connectSteps_eq` says that the steps in a row are the function.
-/

namespace Wil6210

/-! ## The events -/

/-- `struct wmi_connect_event` -/
structure WmiConnectEvent where
  bssid : MacAddr
  beaconIeLen : ℕ
  assocReqLen : ℕ
  assocRespLen : ℕ
  cid : ℕ
  assocInfo : List UInt8

/-- `sizeof(struct wmi_connect_event)` -/
def sizeofWmiConnectEvent : ℕ := 23

/-- The checks of `wmi_evt_connect`; the CID of an accepted event. -/
def connectAccepts (s : Wil) (evt : WmiConnectEvent) (len : ℕ) : Option Cid :=
  if len < sizeofWmiConnectEvent then none
  else if len ≠ sizeofWmiConnectEvent + evt.beaconIeLen + evt.assocReqLen + evt.assocRespLen then
    none
  else if h : evt.cid < 8 then
    if (s.iftype = .station ∨ s.iftype = .p2pClient) ∧ s.smeState ≠ .connecting then none
    else some ⟨evt.cid, h⟩
  else none

/-- Information elements behind `offset` fixed bytes, `none` where there are none. -/
def assocIe (evt : WmiConnectEvent) (start len offset : ℕ) : Option (List UInt8) :=
  if len ≤ offset then none else some ((evt.assocInfo.drop (start + offset)).take (len - offset))

/-- What `wmi_evt_connect` tells cfg80211, and the generation it leaves. -/
def connectReport (s : Wil) (evt : WmiConnectEvent) : ℕ × List DrvEvent :=
  let reqIe := assocIe evt evt.beaconIeLen evt.assocReqLen 4
  let respIe := assocIe evt (evt.beaconIeLen + evt.assocReqLen) evt.assocRespLen 6
  match s.iftype with
  | .station | .p2pClient =>
      (s.sinfoGen, [.delTimerSync, .cfg80211ConnectResult (some evt.bssid) reqIe respIe true])
  | .ap | .p2pGo => (s.sinfoGen + 1, [.cfg80211NewSta evt.bssid s.sinfoGen reqIe])
  | _ => (s.sinfoGen, [])

/-- `wmi_evt_connect` -/
def wmiEvtConnect (s : Wil) (evt : WmiConnectEvent) (len : ℕ) : Wil × List DrvEvent :=
  match connectAccepts s evt len with
  | none => (s, [])
  | some cid =>
      let r := connectReport s evt
      ({ s with
          sinfoGen := r.1
          fwConnected := true
          sta := Function.update s.sta cid
            { s.sta cid with addr := evt.bssid, status := .connPending }
          pendingConnectCid := some cid },
        r.2 ++ [.queueConnectWorker])

/-- `wmi_evt_disconnect` -/
def wmiEvtDisconnect (s : Wil) (bssid : MacAddr) : Wil × List DrvEvent :=
  wil6210Disconnect { s with sinfoGen := s.sinfoGen + 1 } (some bssid)

/-- The stations that a disconnect from `bssid` processes. -/
def disconnectCids (s : Wil) (bssid : MacAddr) : List Cid :=
  match wilFindCid s bssid with
  | some cid => [cid]
  | none => if s.devAddr = some bssid then List.finRange 8 else []

lemma disconnectCids_found {s : Wil} {bssid : MacAddr} {cid : Cid}
    (h : wilFindCid s bssid = some cid) : disconnectCids s bssid = [cid] := by
  delta disconnectCids
  rw [h]

lemma disconnectCids_unknown {s : Wil} {bssid : MacAddr} (h : wilFindCid s bssid = none) :
    disconnectCids s bssid = if s.devAddr = some bssid then List.finRange 8 else [] := by
  delta disconnectCids
  rw [h]

/-! ## The worker -/

/-- The outcome of the WMI call that configures a ring: the return code of `wmi_call`, and the
status and the tail pointer of the reply. -/
structure VringCfgReply where
  rc : ℤ
  status : ℕ
  txVringTailPtr : ℕ
  deriving DecidableEq, Repr

/-- `wil_vring_init_tx`, up to its WMI call. -/
def wilVringInitTxBegin (s : Wil) (id : RingId) (size cid tid : ℕ) (allocOk : Bool) :
    Wil × ℤ × List DrvEvent :=
  if (s.vringTx id).va then (s, eInval, [])
  else
    let r := wilVringAlloc allocOk { s.vringTx id with size := size }
    let s := { s with
      vringTxData := Function.update s.vringTxData id ⟨0, 0⟩
      vringTx := Function.update s.vringTx id r.1 }
    if r.2 ≠ 0 then (s, r.2, [])
    else
      ({ s with vring2cidTid := Function.update s.vring2cidTid id (cid, tid) }, 0,
        [.wmiVringCfg id size cid tid])

/-- `wil_vring_init_tx`, from the return of its WMI call. -/
def wilVringInitTxEnd (s : Wil) (id : RingId) (reply : VringCfgReply) :
    Wil × ℤ × List DrvEvent :=
  let r := wilVringFree s.cb (s.vringTx id)
  let free := { s with vringTx := Function.update s.vringTx id r.1 }
  if reply.rc ≠ 0 then (free, reply.rc, r.2.map DrvEvent.tx)
  -- WMI_FW_STATUS_SUCCESS
  else if reply.status ≠ 0 then (free, eInval, r.2.map DrvEvent.tx)
  else
    ({ s with
        vringTx := Function.update s.vringTx id
          { s.vringTx id with hwtail := reply.txVringTailPtr } }, 0, [])

/-- `wil_vring_init_tx` -/
def wilVringInitTx (s : Wil) (id : RingId) (size cid tid : ℕ) (allocOk : Bool)
    (reply : VringCfgReply) : Wil × ℤ × List DrvEvent :=
  let p := wilVringInitTxBegin s id size cid tid allocOk
  if p.2.1 ≠ 0 then p
  else
    let q := wilVringInitTxEnd p.1 id reply
    (q.1, q.2.1, p.2.2 ++ q.2.2)

/-- `WIL6210_TX_RING_SIZE` -/
def wil6210TxRingSize : ℕ := 512

/-- The last lines of `wil_connect_worker`. -/
def connectFinish (s : Wil) (cid : Cid) (rc : ℤ) : Wil × List DrvEvent :=
  ({ s with
      sta := Function.update s.sta cid
        { s.sta cid with status := if rc = 0 then .connected else .unused } },
    if rc = 0 then [.linkOn] else [])

/-- `wil_connect_worker`; `none` where it goes on with the ring index `-EINVAL`. -/
def wilConnectWorker (s : Wil) (allocOk : Bool) (reply : VringCfgReply) :
    Option (Wil × List DrvEvent) :=
  match s.pendingConnectCid with
  | none => some (s, [])
  | some cid =>
      match wilFindFreeVring s with
      | none => none
      | some id =>
          let p := wilVringInitTx s id wil6210TxRingSize cid (s.tidToUse &&& 0xf) allocOk reply
          let q := connectFinish { p.1 with pendingConnectCid := none } cid p.2.1
          some (q.1, p.2.2 ++ q.2)

/-! ## What each of them does -/

section Lemmas

variable {s : Wil} (evt : WmiConnectEvent) (len : ℕ) (bssid : MacAddr) (c cid : Cid)
  (i id : RingId) (allocOk : Bool) (reply : VringCfgReply) (rc : ℤ)

/-- An accepted CONNECT writes the station and `pending_connect_cid`. -/
lemma wmiEvtConnect_accepted (h : connectAccepts s evt len = some cid) :
    (wmiEvtConnect s evt len).1.pendingConnectCid = some cid ∧
      (∀ c, ((wmiEvtConnect s evt len).1.sta c).status
        = if c = cid then .connPending else (s.sta c).status) ∧
      (∀ c, ((wmiEvtConnect s evt len).1.sta c).addr
        = if c = cid then evt.bssid else (s.sta c).addr) ∧
      (wmiEvtConnect s evt len).1.vringTx = s.vringTx ∧
      (wmiEvtConnect s evt len).1.owner = s.owner := by
  simp only [wmiEvtConnect, h, Function.update_apply]
  refine ⟨trivial, ?_, ?_, trivial, rfl⟩
  · intro c
    split_ifs <;> rfl
  · intro c
    split_ifs <;> rfl

/-- Taking stations down is the loop over those that the address names. -/
lemma disconnectStations_run :
    disconnectStations s (some bssid)
      = Machine.run wilDisconnectCid s (disconnectCids s bssid) := by
  simp only [disconnectStations, Option.bind_some, Option.isSome_some, and_true]
  cases hfind : wilFindCid s bssid with
  | some cid => simp [disconnectCids_found hfind, Machine.run_cons]
  | none =>
      rw [disconnectCids_unknown hfind]
      by_cases hdev : s.devAddr = some bssid
      · simp [hdev]
      · simp [hdev]

/-- A DISCONNECT takes down the stations it processes, with their rings, and no other. -/
lemma wmiEvtDisconnect_spec (s : Wil) (bssid : MacAddr) :
    (wmiEvtDisconnect s bssid).1.pendingConnectCid = s.pendingConnectCid ∧
      (∀ c, ((wmiEvtDisconnect s bssid).1.sta c).status
        = if c ∈ disconnectCids s bssid then .unused else (s.sta c).status) ∧
      (∀ c, ((wmiEvtDisconnect s bssid).1.sta c).addr = (s.sta c).addr) ∧
      (∀ i, ((wmiEvtDisconnect s bssid).1.vringTx i).va
        = if ∃ c ∈ disconnectCids s bssid, s.owner i = c.val then false
          else (s.vringTx i).va) ∧
      (wmiEvtDisconnect s bssid).1.owner = s.owner := by
  set t : Wil := { s with sinfoGen := s.sinfoGen + 1 } with ht
  have hcids : disconnectCids t bssid = disconnectCids s bssid := rfl
  simp only [wmiEvtDisconnect, ← ht, wil6210Disconnect, sta_disconnectLink, vringTx_disconnectLink,
    owner_disconnectLink, pendingConnectCid_disconnectLink, disconnectStations_run, hcids,
    status_run, addr_run, va_run, owner_run, pendingConnectCid_run]
  refine ⟨rfl, fun c => rfl, fun c => rfl, fun i => rfl, rfl⟩

/-- The first half of `wil_vring_init_tx` allocates a free ring and maps it, or changes no ring. -/
lemma wilVringInitTxBegin_cases (s : Wil) (id : RingId) (size cid tid : ℕ) (allocOk : Bool) :
    ((wilVringInitTxBegin s id size cid tid allocOk).2.1 = 0 ∧ (s.vringTx id).va = false ∧
      (∀ i, ((wilVringInitTxBegin s id size cid tid allocOk).1.vringTx i).va
        = if i = id then true else (s.vringTx i).va) ∧
      ∀ i, (wilVringInitTxBegin s id size cid tid allocOk).1.owner i
        = if i = id then cid else s.owner i) ∨
    ((wilVringInitTxBegin s id size cid tid allocOk).2.1 ≠ 0 ∧
      (∀ i, ((wilVringInitTxBegin s id size cid tid allocOk).1.vringTx i).va
        = (s.vringTx i).va) ∧
      (wilVringInitTxBegin s id size cid tid allocOk).1.owner = s.owner) := by
  by_cases hva : (s.vringTx id).va = true
  · right
    simp only [wilVringInitTxBegin, hva, if_true]
    exact ⟨by decide, fun _ => trivial, trivial⟩
  · have hfree : (s.vringTx id).va = false := by simpa using hva
    cases allocOk with
    | true =>
        left
        refine ⟨by simp [wilVringInitTxBegin, hfree, wilVringAlloc], hfree, ?_, ?_⟩
        · intro i
          by_cases hi : i = id <;> simp [wilVringInitTxBegin, hfree, wilVringAlloc, hi]
        · intro i
          by_cases hi : i = id <;> simp [wilVringInitTxBegin, hfree, wilVringAlloc, Wil.owner, hi]
    | false =>
        right
        refine ⟨by simp [wilVringInitTxBegin, hfree, wilVringAlloc, eNomem], ?_, ?_⟩
        · intro i
          by_cases hi : i = id <;> simp [wilVringInitTxBegin, hfree, wilVringAlloc, eNomem, hi]
        · funext i
          simp [wilVringInitTxBegin, hfree, wilVringAlloc, eNomem, Wil.owner]

@[simp] lemma sta_wilVringInitTxBegin (s : Wil) (size cid tid : ℕ) :
    (wilVringInitTxBegin s id size cid tid allocOk).1.sta = s.sta := by
  simp only [wilVringInitTxBegin]
  split_ifs <;> rfl

@[simp] lemma pendingConnectCid_wilVringInitTxBegin (s : Wil) (size cid tid : ℕ) :
    (wilVringInitTxBegin s id size cid tid allocOk).1.pendingConnectCid
      = s.pendingConnectCid := by
  simp only [wilVringInitTxBegin]
  split_ifs <;> rfl

/-- The second half keeps the ring, or frees it. -/
lemma wilVringInitTxEnd_cases (s : Wil) (id : RingId) (reply : VringCfgReply) :
    ((wilVringInitTxEnd s id reply).2.1 = 0 ∧
      ∀ i, ((wilVringInitTxEnd s id reply).1.vringTx i).va = (s.vringTx i).va) ∨
    ((wilVringInitTxEnd s id reply).2.1 ≠ 0 ∧
      ∀ i, ((wilVringInitTxEnd s id reply).1.vringTx i).va
        = if i = id then false else (s.vringTx i).va) := by
  have hfree : ∀ i, (Function.update s.vringTx id (wilVringFree s.cb (s.vringTx id)).1 i).va
      = if i = id then false else (s.vringTx i).va := by
    intro i
    rw [Function.update_apply]
    split_ifs <;> rfl
  simp only [wilVringInitTxEnd]
  split_ifs with hrc hstatus
  · exact .inr ⟨hrc, hfree⟩
  · exact .inr ⟨show eInval ≠ 0 by decide, hfree⟩
  · left
    refine ⟨rfl, fun i => ?_⟩
    show (Function.update s.vringTx id _ i).va = _
    rw [Function.update_apply]
    split_ifs with hi
    · rw [hi]
    · rfl

@[simp] lemma owner_wilVringInitTxEnd (s : Wil) :
    (wilVringInitTxEnd s id reply).1.owner = s.owner := by
  simp only [wilVringInitTxEnd]
  split_ifs <;> rfl

@[simp] lemma sta_wilVringInitTxEnd (s : Wil) :
    (wilVringInitTxEnd s id reply).1.sta = s.sta := by
  simp only [wilVringInitTxEnd]
  split_ifs <;> rfl

@[simp] lemma pendingConnectCid_wilVringInitTxEnd (s : Wil) :
    (wilVringInitTxEnd s id reply).1.pendingConnectCid = s.pendingConnectCid := by
  simp only [wilVringInitTxEnd]
  split_ifs <;> rfl

@[simp] lemma status_connectFinish (s : Wil) :
    ((connectFinish s cid rc).1.sta c).status
      = if c = cid then (if rc = 0 then .connected else .unused) else (s.sta c).status := by
  simp only [connectFinish, Function.update_apply]
  by_cases hc : c = cid <;> simp [hc]

@[simp] lemma addr_connectFinish (s : Wil) :
    ((connectFinish s cid rc).1.sta c).addr = (s.sta c).addr := by
  simp only [connectFinish, Function.update_apply]
  by_cases hc : c = cid <;> simp [hc]

end Lemmas

/-! ## Rings of their own -/

/-- An allocated ring is mapped to the station. -/
def Wil.HasRing (s : Wil) (c : Cid) : Prop := ∃ i, s.owner i = c.val ∧ (s.vringTx i).va = true

variable {s : Wil} {c : Cid}

/-- A disconnect leaves the rings of the other stations. -/
lemma Wil.HasRing.disconnect {bssid : MacAddr} (h : s.HasRing c)
    (hc : c ∉ disconnectCids s bssid) : (wmiEvtDisconnect s bssid).1.HasRing c := by
  obtain ⟨i, howner, hva⟩ := h
  obtain ⟨-, -, -, hring, hmap⟩ := wmiEvtDisconnect_spec s bssid
  refine ⟨i, by rw [hmap, howner], ?_⟩
  rw [hring, if_neg, hva]
  rintro ⟨d, hd, heq⟩
  exact hc (Fin.ext (howner.symm.trans heq) ▸ hd)

/-- Allocating a ring takes none away. -/
lemma Wil.HasRing.allocate (h : s.HasRing c) (id : RingId) (size cid tid : ℕ) (allocOk : Bool) :
    (wilVringInitTxBegin s id size cid tid allocOk).1.HasRing c := by
  obtain ⟨i, howner, hva⟩ := h
  rcases wilVringInitTxBegin_cases s id size cid tid allocOk with
    ⟨-, hfree, hring, hmap⟩ | ⟨-, hring, hmap⟩
  · have hi : i ≠ id := by
      rintro rfl
      simp [hfree] at hva
    exact ⟨i, by rw [hmap, if_neg hi, howner], by rw [hring, if_neg hi, hva]⟩
  · exact ⟨i, by rw [hmap, howner], by rw [hring, hva]⟩

/-- The end of a configuration leaves the rings of the other stations. -/
lemma Wil.HasRing.configure (h : s.HasRing c) {id : RingId} (hid : s.owner id ≠ c.val)
    (reply : VringCfgReply) : (wilVringInitTxEnd s id reply).1.HasRing c := by
  obtain ⟨i, howner, hva⟩ := h
  have hi : i ≠ id := by
    rintro rfl
    exact hid howner
  refine ⟨i, by rw [owner_wilVringInitTxEnd, howner], ?_⟩
  rcases wilVringInitTxEnd_cases s id reply with ⟨-, hring⟩ | ⟨-, hring⟩
  · rw [hring, hva]
  · rw [hring, if_neg hi, hva]

end Wil6210
