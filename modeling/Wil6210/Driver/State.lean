import Wil6210.Lib.Machine
import Wil6210.Rx.Reorder
import Wil6210.Tx.Vring

/-!
# Stations and their rings

The part of `struct wil6210_priv` that says which stations are there and which Tx ring carries
whose frames, with the functions of `main.c` and `txrx.c` that look stations and rings up and that
take a station down.

The tables have the lengths of the source, `WIL6210_MAX_CID` stations of `WIL_STA_TID_NUM` sessions
each and `WIL6210_MAX_TX_RINGS` rings.  An index that a lookup found, or did not find, is an
`Option`; `pending_connect_cid`, which is a CID or `-1`, likewise.  What a function does to the
outside world is a list of `DrvEvent`s in program order.
-/

namespace Wil6210

/-! ## The tables -/

/-- A MAC address. -/
abbrev MacAddr := BitVec 48

/-- A connection ID below `WIL6210_MAX_CID`. -/
abbrev Cid := Fin 8

/-- A ring index below `WIL6210_MAX_TX_RINGS`. -/
abbrev RingId := Fin 24

/-- `enum wil_sta_status` -/
inductive WilStaStatus
  | unused
  | connPending
  | connected
  deriving DecidableEq, Repr

/-- `struct wil_net_stats` -/
structure WilNetStats where
  rxPackets : ℕ
  txPackets : ℕ
  rxBytes : ℕ
  txBytes : ℕ
  txErrors : ℕ
  rxDropped : ℕ
  lastMcsRx : ℕ
  deriving DecidableEq, Repr

/-- `struct wil_sta_info` -/
structure WilStaInfo where
  addr : MacAddr
  status : WilStaStatus
  stats : WilNetStats
  tidRx : Fin 16 → Option WilTidAmpduRx

/-- `struct vring_tx_data` -/
structure VringTxData where
  aggWsize : ℕ
  aggTimeout : ℕ
  deriving DecidableEq, Repr

/-- `enum nl80211_iftype`, the types the driver tells apart. -/
inductive Iftype
  | station
  | p2pClient
  | ap
  | p2pGo
  | monitor
  | other
  deriving DecidableEq, Repr

/-- `wdev->sme_state` -/
inductive SmeState
  | idle
  | connecting
  | connected
  deriving DecidableEq, Repr

/-- `struct wil6210_priv`, with the fields of its `net_device` and `wireless_dev` that the driver
reads: `devAddr` is `ndev->dev_addr`. -/
structure Wil where
  sta : Cid → WilStaInfo
  vringTx : RingId → Vring
  vringTxData : RingId → VringTxData
  /-- `vring2cid_tid`: the CID and the TID of each ring -/
  vring2cidTid : RingId → ℕ × ℕ
  pendingConnectCid : Option Cid
  tidToUse : ℕ
  fwConnected : Bool
  dontscan : Bool
  sinfoGen : ℕ
  iftype : Iftype
  smeState : SmeState
  devAddr : Option MacAddr
  /-- the `skb->cb` of every buffer -/
  cb : ℕ → WilSkbCb

/-- `vring2cid_tid[i][0]` -/
def Wil.owner (s : Wil) (i : RingId) : ℕ := (s.vring2cidTid i).1

/-- What the driver does outside of its tables. -/
inductive DrvEvent
  | rx (e : RxEvent)
  | tx (e : TxEvent)
  | wmiDisconnectSta (mac : MacAddr) (reason : ℕ)
  | wmiVringCfg (ringid : RingId) (size cid tid : ℕ)
  | linkOn
  | linkOff
  | delTimerSync
  | cfg80211Disconnected
  | cfg80211ConnectResult (bssid : Option MacAddr) (reqIe respIe : Option (List UInt8)) (ok : Bool)
  | cfg80211NewSta (bssid : MacAddr) (generation : ℕ) (reqIe : Option (List UInt8))
  | cfg80211DelSta (bssid : MacAddr)
  | queueConnectWorker

/-- The state after `wil_priv_init`: all tables are zero and no connection is pending. -/
def wilPrivInit (iftype : Iftype) (devAddr : Option MacAddr) : Wil where
  sta _ := ⟨0, .unused, ⟨0, 0, 0, 0, 0, 0, 0⟩, fun _ => none⟩
  vringTx _ := ⟨false, fun _ => ⟨0, 0, 0, 0, 0, 0, 0, 0, 0, 0, 0⟩, 0, 0, 0, 0, fun _ => none⟩
  vringTxData _ := ⟨0, 0⟩
  vring2cidTid _ := (0, 0)
  pendingConnectCid := none
  tidToUse := 0
  fwConnected := false
  dontscan := false
  sinfoGen := 0
  iftype := iftype
  smeState := .idle
  devAddr := devAddr
  cb _ := ⟨0, 0⟩

/-- Everything of `w`, with the stations' addresses and status, the allocation and mapping of the
rings, and `pending_connect_cid` of `s`. -/
def Wil.traffic (s w : Wil) : Wil :=
  { w with
    sta := fun c => { w.sta c with addr := (s.sta c).addr, status := (s.sta c).status }
    vringTx := fun i => { w.vringTx i with va := (s.vringTx i).va }
    vring2cidTid := s.vring2cidTid
    pendingConnectCid := s.pendingConnectCid }

/-! ## Looking up -/

/-- `wil_find_cid`: the first station in use with this address. -/
def wilFindCid (s : Wil) (mac : MacAddr) : Option Cid :=
  Fin.find? fun i => (s.sta i).status ≠ .unused ∧ (s.sta i).addr = mac

/-- `wil_find_free_vring`; `none` is `-EINVAL`. -/
def wilFindFreeVring (s : Wil) : Option RingId :=
  Fin.find? fun i => !(s.vringTx i).va

/-- `wil_find_tx_vring` for a frame to `hDest`: the first ring that is mapped to the CID of the
station, if that ring is allocated. -/
def wilFindTxVring (s : Wil) (hDest : MacAddr) : Option RingId :=
  match wilFindCid s hDest with
  | none => none
  | some cid =>
      match Fin.find? fun i => s.owner i = cid.val with
      | none => none
      | some i => if (s.vringTx i).va then some i else none

/-! ## Taking a station down -/

/-- `wil_vring_fini_tx` -/
def wilVringFiniTx (s : Wil) (id : RingId) : Vring × List TxEvent :=
  if (s.vringTx id).va then wilVringFree s.cb (s.vringTx id) else (s.vringTx id, [])

/-- `WLAN_REASON_DEAUTH_LEAVING` -/
def wlanReasonDeauthLeaving : ℕ := 3

/-- `wil_disconnect_cid`.  Each of its two loops visits every entry of a table once. -/
def wilDisconnectCid (s : Wil) (cid : Cid) : Wil × List DrvEvent :=
  let sta := s.sta cid
  let deauth := if sta.status ≠ .unused then
    [DrvEvent.wmiDisconnectSta sta.addr wlanReasonDeauthLeaving] else []
  let sessions := (List.finRange 16).flatMap fun i =>
    (wilTidAmpduRxFree (sta.tidRx i)).map DrvEvent.rx
  let rings := (List.finRange 24).flatMap fun i =>
    if s.owner i = cid.val then (wilVringFiniTx s i).2.map DrvEvent.tx else []
  ({ s with
      sta := Function.update s.sta cid
        { sta with status := .unused, tidRx := fun _ => none, stats := ⟨0, 0, 0, 0, 0, 0, 0⟩ }
      vringTx := fun i => if s.owner i = cid.val then (wilVringFiniTx s i).1 else s.vringTx i },
    deauth ++ sessions ++ rings)

/-- The first half of `_wil6210_disconnect`: the stations. -/
def disconnectStations (s : Wil) (bssid : Option MacAddr) : Wil × List DrvEvent :=
  match bssid.bind (wilFindCid s) with
  -- disconnect 1 peer
  | some cid => wilDisconnectCid s cid
  -- disconnect all, behind the test of the own address
  | none =>
      if s.devAddr.isSome ∧ bssid.isSome then
        if s.devAddr = bssid then Machine.run wilDisconnectCid s (List.finRange 8) else (s, [])
      else (s, [])

/-- The link state, the second half of `_wil6210_disconnect`. -/
def disconnectLink (s : Wil) (bssid : Option MacAddr) : Wil × List DrvEvent :=
  match s.iftype with
  | .station | .p2pClient =>
      ({ s with fwConnected := false, dontscan := false },
        .linkOff ::
          match s.smeState with
          | .connected => [.cfg80211Disconnected]
          | .connecting => [.cfg80211ConnectResult bssid none none false]
          | .idle => [])
  | _ =>
      (s, match bssid with
        | some mac => [.cfg80211DelSta mac]
        | none => [])

/-- `wil6210_disconnect`: stop the connect timer and run `_wil6210_disconnect`. -/
def wil6210Disconnect (s : Wil) (bssid : Option MacAddr) : Wil × List DrvEvent :=
  let p := disconnectStations s bssid
  let q := disconnectLink p.1 bssid
  (q.1, .delTimerSync :: p.2 ++ q.2)

/-! ## What the functions leave alone -/

section Lemmas

variable (s : Wil) (cid c : Cid) (i : RingId) (bssid : Option MacAddr)

@[simp] lemma va_wilVringFiniTx : (wilVringFiniTx s i).1.va = false := by
  simp only [wilVringFiniTx]
  split_ifs with h
  · rfl
  · simpa using h

@[simp] lemma va_wilDisconnectCid :
    ((wilDisconnectCid s cid).1.vringTx i).va
      = if s.owner i = cid.val then false else (s.vringTx i).va := by
  simp only [wilDisconnectCid]
  split_ifs <;> simp

@[simp] lemma owner_wilDisconnectCid : (wilDisconnectCid s cid).1.owner = s.owner := rfl

@[simp] lemma status_wilDisconnectCid :
    ((wilDisconnectCid s cid).1.sta c).status = if c = cid then .unused else (s.sta c).status := by
  simp only [wilDisconnectCid, Function.update_apply]
  split_ifs <;> rfl

@[simp] lemma addr_wilDisconnectCid :
    ((wilDisconnectCid s cid).1.sta c).addr = (s.sta c).addr := by
  simp only [wilDisconnectCid, Function.update_apply]
  split_ifs with h
  · rw [h]
  · rfl

@[simp] lemma tidRx_wilDisconnectCid :
    ((wilDisconnectCid s cid).1.sta c).tidRx
      = if c = cid then fun _ => none else (s.sta c).tidRx := by
  simp only [wilDisconnectCid, Function.update_apply]
  split_ifs <;> rfl

@[simp] lemma pendingConnectCid_wilDisconnectCid :
    (wilDisconnectCid s cid).1.pendingConnectCid = s.pendingConnectCid := rfl

@[simp] lemma status_run (cids : List Cid) :
    ((Machine.run wilDisconnectCid s cids).1.sta c).status
      = if c ∈ cids then .unused else (s.sta c).status := by
  induction cids generalizing s with
  | nil => simp
  | cons cid cids ih =>
      rw [Machine.run_cons, ih, status_wilDisconnectCid]
      by_cases hc : c = cid <;> simp [hc]

@[simp] lemma addr_run (cids : List Cid) :
    ((Machine.run wilDisconnectCid s cids).1.sta c).addr = (s.sta c).addr := by
  induction cids generalizing s with
  | nil => simp
  | cons cid cids ih => rw [Machine.run_cons, ih, addr_wilDisconnectCid]

@[simp] lemma owner_run (cids : List Cid) :
    (Machine.run wilDisconnectCid s cids).1.owner = s.owner := by
  induction cids generalizing s with
  | nil => simp
  | cons cid cids ih => rw [Machine.run_cons, ih, owner_wilDisconnectCid]

@[simp] lemma pendingConnectCid_run (cids : List Cid) :
    (Machine.run wilDisconnectCid s cids).1.pendingConnectCid = s.pendingConnectCid := by
  induction cids generalizing s with
  | nil => simp
  | cons cid cids ih => rw [Machine.run_cons, ih, pendingConnectCid_wilDisconnectCid]

@[simp] lemma va_run (cids : List Cid) :
    ((Machine.run wilDisconnectCid s cids).1.vringTx i).va
      = if ∃ cid ∈ cids, s.owner i = cid.val then false else (s.vringTx i).va := by
  induction cids generalizing s with
  | nil => simp
  | cons cid cids ih =>
      rw [Machine.run_cons, ih, va_wilDisconnectCid, owner_wilDisconnectCid]
      by_cases hc : s.owner i = cid.val <;> simp [hc]

@[simp] lemma sta_disconnectLink : (disconnectLink s bssid).1.sta = s.sta := by
  simp only [disconnectLink]
  split <;> rfl

@[simp] lemma vringTx_disconnectLink : (disconnectLink s bssid).1.vringTx = s.vringTx := by
  simp only [disconnectLink]
  split <;> rfl

@[simp] lemma owner_disconnectLink : (disconnectLink s bssid).1.owner = s.owner := by
  simp only [disconnectLink]
  split <;> rfl

@[simp] lemma pendingConnectCid_disconnectLink :
    (disconnectLink s bssid).1.pendingConnectCid = s.pendingConnectCid := by
  simp only [disconnectLink]
  split <;> rfl

end Lemmas

/-! ## What the lookups find -/

lemma wilFindCid_spec {s : Wil} {mac : MacAddr} {c : Cid} (h : wilFindCid s mac = some c) :
    (s.sta c).status ≠ .unused ∧ (s.sta c).addr = mac := by
  simpa using Fin.eq_true_of_find?_eq_some h

lemma wilFindCid_none {s : Wil} {mac : MacAddr} (h : wilFindCid s mac = none) (c : Cid) :
    (s.sta c).status ≠ .unused → (s.sta c).addr ≠ mac := by
  simpa using Fin.eq_false_of_find?_eq_none h c

lemma wilFindTxVring_eq_some {s : Wil} {mac : MacAddr} {i : RingId} :
    wilFindTxVring s mac = some i ↔ ∃ c, wilFindCid s mac = some c ∧
      Fin.find? (fun i => decide (s.owner i = c.val)) = some i ∧ (s.vringTx i).va = true := by
  delta wilFindTxVring
  cases wilFindCid s mac with
  | none => simp
  | some c =>
      simp only [Option.some.injEq, exists_eq_left']
      cases Fin.find? fun i => decide (s.owner i = c.val) with
      | none => simp
      | some j =>
          simp only [Option.ite_none_right_eq_some, Option.some.injEq]
          constructor
          · rintro ⟨hva, rfl⟩
            exact ⟨rfl, hva⟩
          · rintro ⟨rfl, hva⟩
            exact ⟨hva, rfl⟩

lemma wilFindFreeVring_spec {s : Wil} {i : RingId} (h : wilFindFreeVring s = some i) :
    (s.vringTx i).va = false ∧ ∀ j < i, (s.vringTx j).va = true := by
  simpa using Fin.find?_eq_some_iff.mp h

lemma wilFindFreeVring_none {s : Wil} (h : wilFindFreeVring s = none) (i : RingId) :
    (s.vringTx i).va = true := by
  simpa using Fin.eq_false_of_find?_eq_none h i

end Wil6210
