import Wil6210.Kernel
import Wil6210.Lib.Machine
import Wil6210.Driver.State

/-!
# Scans, connects and remain-on-channel

The operations that cfg80211 calls for a scan, a connect and a remain-on-channel, the work item that
ends a remain-on-channel, and what the WMI events, a reset and a stop of the interface do to the
same fields.

cfg80211 calls one operation at a time (it holds the rtnl), and each of them waits for the firmware
between its WMI commands; `CfgOp` is where it waits.  The work item, the events, the connect timeout
and a reset by debugfs do not wait for the rtnl, so they fall between these steps.  `wil->mutex` is
held by a remain-on-channel start, by the work item and by a stop of the interface.

A scan request is known by the number of its call.  What the operations tell cfg80211 is kept in
`log`, and what a scan call returned in `returned`; nothing reads them.
-/

namespace Wil6210

/-! ## Requests -/

/-- `struct ieee80211_channel` -/
structure Ieee80211Channel where
  centerFreq : ℕ
  hwValue : ℕ
  deriving DecidableEq, Repr

/-- `struct cfg80211_scan_request` -/
structure Cfg80211ScanRequest where
  ssids : List (List UInt8)
  channels : List Ieee80211Channel
  ie : List UInt8
  deriving DecidableEq, Repr

/-- `p2p_ssid`: "DIRECT-" -/
def p2pSsid : List UInt8 := [0x44, 0x49, 0x52, 0x45, 0x43, 0x54, 0x2d]

/-- `wil_scan_is_p2p_search` -/
def wilScanIsP2pSearch (request : Cfg80211ScanRequest) : Bool :=
  match request.ssids, request.channels with
  | [ssid], [channel] => channel.centerFreq = 60480 ∧ ssid = p2pSsid
  | _, _ => false

/-- The channel list of `WMI_START_SCAN_CMDID`: 0-based, of the first four channels of the request,
without those at unknown frequencies. -/
def startScanChannels (request : Cfg80211ScanRequest) : List ℕ :=
  ((request.channels.take 4).filter fun channel => channel.hwValue ≠ 0).map fun channel =>
    channel.hwValue - 1

/-- The DMG type in the capability field of a BSS. -/
inductive DmgType
  | ap
  | pbss
  | ibss
  | unsupported
  deriving DecidableEq, Repr

/-- `WLAN_CAPABILITY_DMG_TYPE_MASK`: the DMG type in a capability field. -/
def DmgType.ofCapability (capability : ℕ) : DmgType :=
  match capability % 4 with
  | 3 => .ap
  | 2 => .pbss
  | 1 => .ibss
  | _ => .unsupported

/-- `struct cfg80211_bss` -/
structure Cfg80211Bss where
  bssid : MacAddr
  ssid : Option (List UInt8)
  capability : ℕ
  hwValue : ℕ
  deriving DecidableEq, Repr

def Cfg80211Bss.dmgType (bss : Cfg80211Bss) : DmgType := .ofCapability bss.capability

/-- `struct cfg80211_connect_params`, with the BSS that `cfg80211_get_bss` finds for it; `rsn` is
whether there is an RSN element in `ie`. -/
structure Cfg80211ConnectParams where
  bss : Option Cfg80211Bss
  ie : List UInt8
  rsn : Bool
  deriving DecidableEq, Repr

/-- `WLAN_CAPABILITY_ESS` -/
def wlanCapabilityEss : ℕ := 1

/-- **What `cfg80211_get_bss` finds**: `wil_cfg80211_connect` passes it `WLAN_CAPABILITY_ESS` as the
mask and as the value, so that a BSS it finds has this bit in its capability field. -/
def Cfg80211ConnectParams.EssFound (sme : Cfg80211ConnectParams) : Prop :=
  ∀ bss ∈ sme.bss, bss.capability &&& wlanCapabilityEss = wlanCapabilityEss

instance (sme : Cfg80211ConnectParams) : Decidable sme.EssFound :=
  inferInstanceAs (Decidable (∀ bss ∈ sme.bss, _ = _))

/-- The bit is the lower one of the DMG type: an AP, or an IBSS, which the driver connects to. -/
lemma Cfg80211ConnectParams.EssFound.dmgType_ne {sme : Cfg80211ConnectParams} (h : sme.EssFound)
    {bss : Cfg80211Bss} (hbss : bss ∈ sme.bss) : bss.dmgType ≠ .unsupported := by
  have hess : bss.capability % 2 = 1 := (Nat.and_one_is_mod _).symm.trans (h bss hbss)
  have htype : bss.capability % 4 = 1 ∨ bss.capability % 4 = 3 := by omega
  rw [Cfg80211Bss.dmgType, DmgType.ofCapability]
  rcases htype with hibss | hap
  · rw [hibss]
    exact DmgType.noConfusion
  · rw [hap]
    exact DmgType.noConfusion

/-- `conn.network_type` -/
inductive WmiNetworkType
  | infra
  | p2p
  deriving DecidableEq, Repr

/-- `struct wmi_connect_cmd`; `secure` is for the auth modes and the pairwise cipher. -/
structure WmiConnectCmd where
  networkType : WmiNetworkType
  secure : Bool
  ssid : List UInt8
  channel : ℕ
  bssid : MacAddr
  deriving DecidableEq, Repr

/-- `WMI_MAX_IE_LEN` -/
def wmiMaxIeLen : ℕ := 1024

/-! ## The state -/

/-- `struct wil_roc` -/
structure WilRoc where
  cookie : ℕ
  mgmtTxCookie : ℕ
  deriving DecidableEq, Repr

/-- `struct wil6210_priv`, the fields that the operations here share. -/
structure CfgWil where
  iftype : Iftype
  scanRequest : Option ℕ
  /-- `wil_status_dontscan` -/
  dontscan : Bool
  roc : WilRoc
  rocCounter : ℕ
  deriving DecidableEq, Repr

/-- What cfg80211 is told. -/
inductive CfgEvent
  | scanDone (request : ℕ) (aborted : Bool)
  | readyOnChannel (cookie : ℕ)
  | remainOnChannelExpired (cookie : ℕ)
  | mgmtTxStatus (cookie : ℕ) (ack : Bool)
  deriving DecidableEq, Repr

/-- The interface types that scan. -/
def Iftype.client : Iftype → Bool
  | .station | .p2pClient => true
  | _ => false

/-! ## WMI functions with a part in `dontscan` -/

/-- `wmi_p2p_cfg`, up to its `wmi_send`; `none` is `-EAGAIN`. -/
def wmiP2pCfg (w : CfgWil) : Option CfgWil :=
  if w.scanRequest.isSome then none else some { w with dontscan := true }

/-- `wmi_stop_discovery`, from the return of its `wmi_call`. -/
def wmiStopDiscovery (w : CfgWil) : CfgWil := { w with dontscan := false }

/-- `_wil6210_disconnect`, as far as these fields go. -/
def cfgDisconnect (w : CfgWil) : CfgWil :=
  if w.iftype.client then { w with dontscan := false } else w

/-! ## The scan call -/

/-- The tests at the head of `wil_cfg80211_scan`; 0 where they pass. -/
def scanCheck (w : CfgWil) : ℤ :=
  if w.scanRequest.isSome then eAgain
  else if ¬ w.iftype.client then eOpnotsupp
  else if w.dontscan then eBusy
  else 0

/-- The return codes of the WMI functions that a scan call uses. -/
structure ScanOutcome where
  startScan : ℤ
  p2pCfg : ℤ
  setSsid : ℤ
  setIe : ℤ
  startSearch : ℤ
  stopDiscovery : ℤ

/-- The return code of a P2P search behind `wmi_p2p_cfg`. -/
def searchRc (request : Cfg80211ScanRequest) (o : ScanOutcome) : ℤ :=
  if o.setSsid ≠ 0 then o.setSsid
  else if request.ie ≠ [] ∧ o.setIe ≠ 0 then o.setIe
  else o.startSearch

/-- `wil_p2p_scan`.  The second argument of `cfg80211_scan_done` is `!rc`. -/
def wilP2pScan (w : CfgWil) (id : ℕ) (request : Cfg80211ScanRequest) (o : ScanOutcome) :
    CfgWil × ℤ × List CfgEvent :=
  match wmiP2pCfg w with
  | none => (w, eAgain, [.scanDone id false])
  | some w =>
      if o.p2pCfg ≠ 0 then (w, o.p2pCfg, [.scanDone id false])
      else
        let rc := searchRc request o
        (wmiStopDiscovery w, rc, [.scanDone id (rc = 0)])

/-- `wil_cfg80211_scan` -/
def wilCfg80211Scan (w : CfgWil) (id : ℕ) (request : Cfg80211ScanRequest) (o : ScanOutcome) :
    CfgWil × ℤ × List CfgEvent :=
  if scanCheck w ≠ 0 then (w, scanCheck w, [])
  else if wilScanIsP2pSearch request then wilP2pScan w id request o
  else ({ w with scanRequest := some id }, o.startScan, [])

/-- `wmi_evt_scan_complete` -/
def wmiEvtScanComplete (w : CfgWil) (status : ℕ) : CfgWil × List CfgEvent :=
  match w.scanRequest with
  | some id => ({ w with scanRequest := none }, [.scanDone id (status ≠ 0)])
  | none => (w, [])

/-- `__wil_down`, as far as these fields go. -/
def cfgDown (w : CfgWil) : CfgWil × List CfgEvent :=
  match w.scanRequest with
  | some id => (cfgDisconnect { w with scanRequest := none }, [.scanDone id true])
  | none => (cfgDisconnect w, [])

/-! ## The connect call -/

/-- `WMI_CONNECT_CMDID` for a BSS, or the return code of a connect that sends none.  The driver
returns 0 for an unsupported BSS type. -/
def connectCmd (usePcpForAp : Bool) (sme : Cfg80211ConnectParams) (bss : Cfg80211Bss)
    (ssid : List UInt8) : Except ℤ WmiConnectCmd :=
  if bss.dmgType = .unsupported then .error 0
  else if bss.hwValue = 0 then .error eOpnotsupp
  else
    .ok ⟨if bss.dmgType = .ap ∧ ¬ usePcpForAp then .infra else .p2p, sme.rsn, ssid.take 32,
      bss.hwValue - 1, bss.bssid⟩

/-! ## Remain on channel -/

/-- The cookies that `wil_prepare_roc` gives out; `buf` is the address of the frame, if any. -/
def rocPrepare (w : CfgWil) (buf : Option ℕ) : CfgWil :=
  let n := (w.rocCounter + 1) % 2 ^ 64
  { w with
    rocCounter := if n = 0 then 1 else n
    roc := ⟨if n = 0 then 1 else n, buf.getD 0⟩ }

/-- The end of `wil_prepare_roc`, behind `wil_start_roc`. -/
def rocFinish (w : CfgWil) (rc : ℤ) : CfgWil × List CfgEvent :=
  let tx := if w.roc.mgmtTxCookie ≠ 0 then [CfgEvent.mgmtTxStatus w.roc.mgmtTxCookie (rc = 0)]
    else []
  if rc = 0 then
    (w, tx ++ if w.roc.mgmtTxCookie = 0 then [.readyOnChannel w.roc.cookie] else [])
  else ({ w with roc := ⟨0, 0⟩ }, tx)

@[simp] lemma dontscan_rocFinish (w : CfgWil) (rc : ℤ) :
    (rocFinish w rc).1.dontscan = w.dontscan := by
  rw [rocFinish]
  split_ifs <;> rfl

/-- `wil_roc_cancel_work`, from the return of the `wmi_call` in `wmi_stop_discovery`. -/
def rocCancelled (w : CfgWil) : CfgWil × List CfgEvent :=
  ({ wmiStopDiscovery w with roc := ⟨0, 0⟩ },
    if w.roc.mgmtTxCookie = 0 then [.remainOnChannelExpired w.roc.cookie] else [])

/-! ## The machine -/

/-- The command of `wil_p2p_scan` that is on its way; `stop` carries the return code. -/
inductive SearchStage
  | p2pCfg
  | setSsid
  | setIe
  | startSearch
  | stop (rc : ℤ)
  deriving DecidableEq, Repr

/-- The command of `wil_start_roc` that is on its way; `stop` carries the return code. -/
inductive RocStage
  | p2pCfg
  | setSsid
  | startListen
  | stop (rc : ℤ)
  deriving DecidableEq, Repr

/-- Where the operation that cfg80211 called is. -/
inductive CfgOp
  | idle
  | startScan (id : ℕ) (channels : List ℕ)
  | search (id : ℕ) (request : Cfg80211ScanRequest) (stage : SearchStage)
  | delCipherKey (sme : Cfg80211ConnectParams) (bss : Cfg80211Bss) (ssid : List UInt8)
  | setAppie (sme : Cfg80211ConnectParams) (bss : Cfg80211Bss) (ssid : List UInt8)
  | connect (cmd : WmiConnectCmd)
  | roc (stage : RocStage)
  /-- in the `flush_delayed_work` of `wil_cancel_roc` -/
  | cancelRoc
  deriving DecidableEq, Repr

/-- `roc->work` -/
inductive RocWork
  | idle
  | queued
  /-- it holds `wil->mutex` and waits in `wmi_stop_discovery` -/
  | running
  deriving DecidableEq, Repr

/-- What a scan call returned, and `wil->scan_request` before and after it. -/
structure ScanReturn where
  rc : ℤ
  before : Option ℕ
  after : Option ℕ
  deriving DecidableEq, Repr

structure CfgSys where
  wil : CfgWil
  op : CfgOp
  work : RocWork
  /-- the number of scan calls so far -/
  calls : ℕ
  /-- `wil->scan_request` at the start of the last scan call -/
  entry : Option ℕ
  returned : ℕ → Option ScanReturn
  log : List CfgEvent
  /-- `WMI_CONNECT` was sent, and no disconnect or reset ran since -/
  attempt : Bool

inductive CfgAction
  | scan (request : Cfg80211ScanRequest)
  | connect (sme : Cfg80211ConnectParams)
  | remainOnChannel (buf : Option ℕ)
  | cancelRoc
  /-- `wil_cancel_roc` returns. -/
  | cancelled
  | changeIface (iftype : Iftype)
  /-- The WMI function that the operation waits for returns `rc`. -/
  | reply (rc : ℤ)
  /-- The timer of the work item expires, or is flushed. -/
  | rocTimer
  | rocCancelled
  | scanComplete (status : ℕ)
  | down
  /-- A DISCONNECT event, the connect timeout, or the removal of a station. -/
  | disconnect
  | reset

/-- The scan call returns. -/
def CfgSys.scanReturn (s : CfgSys) (id : ℕ) (rc : ℤ) : CfgSys :=
  { s with
    op := .idle
    returned := Function.update s.returned id (some ⟨rc, s.entry, s.wil.scanRequest⟩) }

/-- The end of `wil_p2p_scan`. -/
def CfgSys.searchOut (s : CfgSys) (id : ℕ) (rc : ℤ) : CfgSys :=
  { s with log := s.log ++ [CfgEvent.scanDone id (rc = 0)] }.scanReturn id rc

/-- `wil_cfg80211_scan`, up to its first command. -/
def CfgSys.scan (s : CfgSys) (request : Cfg80211ScanRequest) : CfgSys :=
  let t := { s with calls := s.calls + 1, entry := s.wil.scanRequest }
  if scanCheck s.wil ≠ 0 then t.scanReturn s.calls (scanCheck s.wil)
  else if wilScanIsP2pSearch request then
    match wmiP2pCfg s.wil with
    | none => t.searchOut s.calls eAgain
    | some w => { t with wil := w, op := .search s.calls request .p2pCfg }
  else
    { t with
      wil := { s.wil with scanRequest := some s.calls }
      op := .startScan s.calls (startScanChannels request) }

/-- `wil_p2p_scan`, from the return of one command to the next one. -/
def CfgSys.searchReply (s : CfgSys) (id : ℕ) (request : Cfg80211ScanRequest) (rc : ℤ) :
    SearchStage → CfgSys
  | .p2pCfg =>
      if rc ≠ 0 then s.searchOut id rc else { s with op := .search id request .setSsid }
  | .setSsid =>
      if rc ≠ 0 then { s with op := .search id request (.stop rc) }
      else if request.ie ≠ [] then { s with op := .search id request .setIe }
      else { s with op := .search id request .startSearch }
  | .setIe =>
      if rc ≠ 0 then { s with op := .search id request (.stop rc) }
      else { s with op := .search id request .startSearch }
  | .startSearch => { s with op := .search id request (.stop rc) }
  | .stop rc' => { s with wil := wmiStopDiscovery s.wil }.searchOut id rc'

/-- The last part of `wil_cfg80211_connect`: set `dontscan` and send. -/
def CfgSys.connectSend (s : CfgSys) (usePcpForAp : Bool) (sme : Cfg80211ConnectParams)
    (bss : Cfg80211Bss) (ssid : List UInt8) : CfgSys :=
  match connectCmd usePcpForAp sme bss ssid with
  | .error _ => { s with op := .idle }
  | .ok cmd => { s with wil := { s.wil with dontscan := true }, op := .connect cmd }

/-- `wil_cfg80211_connect`, up to its first command. -/
def CfgSys.connect (s : CfgSys) (usePcpForAp : Bool) (sme : Cfg80211ConnectParams) : CfgSys :=
  match sme.bss with
  -- -ENOENT
  | none => s
  | some bss =>
      match bss.ssid with
      -- -ENOENT
      | none => s
      | some ssid =>
          if ¬ sme.rsn then s.connectSend usePcpForAp sme bss ssid
          -- -ERANGE
          else if wmiMaxIeLen < sme.ie.length then s
          else { s with op := .delCipherKey sme bss ssid }

/-- `wil_prepare_roc` returns. -/
def CfgSys.rocOut (s : CfgSys) (rc : ℤ) : CfgSys :=
  { s with wil := (rocFinish s.wil rc).1, op := .idle, log := s.log ++ (rocFinish s.wil rc).2 }

/-- `wil_prepare_roc`, up to its first command. -/
def CfgSys.remainOnChannel (s : CfgSys) (buf : Option ℕ) : CfgSys :=
  -- -EBUSY
  if s.wil.roc.cookie ≠ 0 then s
  else
    let t := { s with wil := rocPrepare s.wil buf }
    match wmiP2pCfg t.wil with
    | none => t.rocOut eAgain
    | some w => { t with wil := w, op := .roc .p2pCfg }

/-- `wil_start_roc`, from the return of one command to the next one. -/
def CfgSys.rocReply (s : CfgSys) (rc : ℤ) : RocStage → CfgSys
  | .p2pCfg => if rc ≠ 0 then s.rocOut rc else { s with op := .roc .setSsid }
  | .setSsid => if rc ≠ 0 then { s with op := .roc (.stop rc) } else { s with op := .roc .startListen }
  | .startListen =>
      if rc ≠ 0 then { s with op := .roc (.stop rc) } else { s with work := .queued }.rocOut 0
  | .stop rc' => { s with wil := wmiStopDiscovery s.wil }.rocOut rc'

/-- The operation goes on. -/
def CfgSys.reply (s : CfgSys) (usePcpForAp : Bool) (rc : ℤ) : Option CfgSys :=
  match s.op with
  | .idle | .cancelRoc => none
  | .startScan id _ => some (s.scanReturn id rc)
  | .search id request stage => some (s.searchReply id request rc stage)
  | .delCipherKey sme bss ssid =>
      if rc ≠ 0 then some { s with op := .idle } else some { s with op := .setAppie sme bss ssid }
  | .setAppie sme bss ssid =>
      if rc ≠ 0 then some { s with op := .idle }
      else some (s.connectSend usePcpForAp sme bss ssid)
  | .connect _ => some { s with op := .idle, attempt := s.attempt ∨ rc = 0 }
  | .roc stage => some (s.rocReply rc stage)

/-- The operation holds `wil->mutex`. -/
def CfgOp.locks : CfgOp → Bool
  | .roc _ => true
  | _ => false

/-- One step. -/
def CfgSys.step (usePcpForAp : Bool) (s : CfgSys) : CfgAction → Option CfgSys
  | .scan request => if s.op = .idle then some (s.scan request) else none
  | .connect sme => if s.op = .idle then some (s.connect usePcpForAp sme) else none
  | .remainOnChannel buf =>
      if s.op = .idle ∧ s.work ≠ .running then some (s.remainOnChannel buf) else none
  | .cancelRoc => if s.op = .idle then some { s with op := .cancelRoc } else none
  | .cancelled =>
      if s.op = .cancelRoc ∧ s.work = .idle then some { s with op := .idle } else none
  | .changeIface iftype =>
      if s.op = .idle ∧ iftype ≠ .other then some { s with wil := { s.wil with iftype := iftype } }
      else none
  | .reply rc => s.reply usePcpForAp rc
  | .rocTimer =>
      if s.work = .queued ∧ s.op.locks = false then some { s with work := .running } else none
  | .rocCancelled =>
      if s.work = .running then
        some { s with
          wil := (rocCancelled s.wil).1
          work := .idle
          log := s.log ++ (rocCancelled s.wil).2 }
      else none
  | .scanComplete status =>
      some { s with
        wil := (wmiEvtScanComplete s.wil status).1
        log := s.log ++ (wmiEvtScanComplete s.wil status).2 }
  | .down =>
      if s.op = .idle ∧ s.work ≠ .running then
        some { s with
          wil := (cfgDown s.wil).1
          log := s.log ++ (cfgDown s.wil).2
          attempt := false }
      else none
  | .disconnect => some { s with wil := cfgDisconnect s.wil, attempt := false }
  | .reset => some { s with wil := { s.wil with dontscan := false }, attempt := false }

/-- Nothing has happened yet. -/
def CfgSys.init (iftype : Iftype) : CfgSys where
  wil := ⟨iftype, none, false, ⟨0, 0⟩, 0⟩
  op := .idle
  work := .idle
  calls := 0
  entry := none
  returned _ := none
  log := []
  attempt := false

variable {s t : CfgSys} {usePcpForAp : Bool}

/-- **What a step does**, and when it can be taken. -/
lemma CfgSys.step_cases {a : CfgAction} (ht : s.step usePcpForAp a = some t) :
    match a with
    | .scan request => s.op = .idle ∧ t = s.scan request
    | .connect sme => s.op = .idle ∧ t = s.connect usePcpForAp sme
    | .remainOnChannel buf => (s.op = .idle ∧ s.work ≠ .running) ∧ t = s.remainOnChannel buf
    | .cancelRoc => s.op = .idle ∧ t = { s with op := .cancelRoc }
    | .cancelled => (s.op = .cancelRoc ∧ s.work = .idle) ∧ t = { s with op := .idle }
    | .changeIface iftype =>
        (s.op = .idle ∧ iftype ≠ .other) ∧ t = { s with wil := { s.wil with iftype := iftype } }
    | .reply rc => s.reply usePcpForAp rc = some t
    | .rocTimer => (s.work = .queued ∧ s.op.locks = false) ∧ t = { s with work := .running }
    | .rocCancelled => s.work = .running ∧ t = { s with
        wil := (rocCancelled s.wil).1
        work := .idle
        log := s.log ++ (rocCancelled s.wil).2 }
    | .scanComplete status => t = { s with
        wil := (wmiEvtScanComplete s.wil status).1
        log := s.log ++ (wmiEvtScanComplete s.wil status).2 }
    | .down => (s.op = .idle ∧ s.work ≠ .running) ∧ t = { s with
        wil := (cfgDown s.wil).1
        log := s.log ++ (cfgDown s.wil).2
        attempt := false }
    | .disconnect => t = { s with wil := cfgDisconnect s.wil, attempt := false }
    | .reset => t = { s with wil := { s.wil with dontscan := false }, attempt := false } := by
  cases a with
  | reply rc => exact ht
  | scanComplete status => exact (Option.some.inj ht).symm
  | disconnect => exact (Option.some.inj ht).symm
  | reset => exact (Option.some.inj ht).symm
  | _ =>
      obtain ⟨hready, ht⟩ := Option.ite_none_right_eq_some.mp ht
      exact ⟨hready, (Option.some.inj ht).symm⟩

/-! ## The steps in a row are the call -/

section Search

variable (id : ℕ) (request : Cfg80211ScanRequest) (o : ScanOutcome)

variable (usePcpForAp) in
/-- Behind `wmi_p2p_cfg`, the search reaches `out_stop` with its return code. -/
lemma searchSteps_stop (hop : s.op = .search id request .setSsid) :
    ∃ as, Machine.Exec (CfgSys.step usePcpForAp) (fun _ _ => True) s as
      { s with op := .search id request (.stop (searchRc request o)) } := by
  have hnext : ∀ u : CfgSys, ∀ stage rc, u.op = .search id request stage →
      u.step usePcpForAp (.reply rc) = some (u.searchReply id request rc stage) := by
    intro u stage rc hu
    simp [CfgSys.step, CfgSys.reply, hu]
  by_cases hssid : o.setSsid = 0
  · by_cases hie : request.ie = []
    · refine ⟨[.reply o.setSsid, .reply o.startSearch],
        ⟨trivial, _, hnext _ _ _ hop, trivial, _, hnext _ .startSearch _ ?_, ?_⟩⟩ <;>
        simp [CfgSys.searchReply, searchRc, hssid, hie, Machine.Exec]
    · by_cases hset : o.setIe = 0
      · refine ⟨[.reply o.setSsid, .reply o.setIe, .reply o.startSearch],
          ⟨trivial, _, hnext _ _ _ hop, trivial, _, hnext _ .setIe _ ?_, trivial, _,
            hnext _ .startSearch _ ?_, ?_⟩⟩ <;>
          simp [CfgSys.searchReply, searchRc, hssid, hie, hset, Machine.Exec]
      · refine ⟨[.reply o.setSsid, .reply o.setIe],
          ⟨trivial, _, hnext _ _ _ hop, trivial, _, hnext _ .setIe _ ?_, ?_⟩⟩ <;>
          simp [CfgSys.searchReply, searchRc, hssid, hie, hset, Machine.Exec]
  · refine ⟨[.reply o.setSsid], ⟨trivial, _, hnext _ _ _ hop, ?_⟩⟩
    simp [CfgSys.searchReply, searchRc, hssid, Machine.Exec]

variable (usePcpForAp) in
/-- **The steps of a search in a row are `wil_p2p_scan`.** -/
lemma searchSteps_eq {w : CfgWil} (hcfg : wmiP2pCfg w = some s.wil)
    (hop : s.op = .search id request .p2pCfg) :
    ∃ as t, Machine.Exec (CfgSys.step usePcpForAp) (fun _ _ => True) s as t ∧ t.op = .idle ∧
      t.wil = (wilP2pScan w id request o).1 ∧
      (t.returned id).map ScanReturn.rc = some (wilP2pScan w id request o).2.1 ∧
      t.log = s.log ++ (wilP2pScan w id request o).2.2 := by
  have hfirst : s.step usePcpForAp (.reply o.p2pCfg)
      = some (s.searchReply id request o.p2pCfg .p2pCfg) := by
    simp [CfgSys.step, CfgSys.reply, hop]
  by_cases hp : o.p2pCfg = 0
  · obtain ⟨as, hstop⟩ := searchSteps_stop usePcpForAp
      (s := { s with op := .search id request .setSsid }) id request o rfl
    refine ⟨.reply o.p2pCfg :: (as ++ [.reply o.stopDiscovery]), _,
      ⟨trivial, { s with op := .search id request .setSsid }, ?_,
        hstop.append ⟨trivial, _, rfl, rfl⟩⟩, ?_⟩
    · simpa [CfgSys.searchReply, hp] using hfirst
    · simp [CfgSys.searchReply, CfgSys.searchOut, CfgSys.scanReturn, wilP2pScan, hcfg, hp]
  · refine ⟨[.reply o.p2pCfg], _, ⟨trivial, _, hfirst, rfl⟩, ?_⟩
    simp [CfgSys.searchReply, hp, CfgSys.searchOut, CfgSys.scanReturn, wilP2pScan, hcfg]

/-- **The steps of a scan call in a row are `wil_cfg80211_scan`.** -/
theorem scanSteps_eq (hidle : s.op = .idle) :
    ∃ as t, Machine.Exec (CfgSys.step usePcpForAp) (fun _ _ => True) s (.scan request :: as) t ∧
      t.op = .idle ∧ t.wil = (wilCfg80211Scan s.wil s.calls request o).1 ∧
      (t.returned s.calls).map ScanReturn.rc
        = some (wilCfg80211Scan s.wil s.calls request o).2.1 ∧
      t.log = s.log ++ (wilCfg80211Scan s.wil s.calls request o).2.2 := by
  have hstep : s.step usePcpForAp (.scan request) = some (s.scan request) := by
    simp [CfgSys.step, hidle]
  by_cases hcheck : scanCheck s.wil = 0
  · cases hsearch : wilScanIsP2pSearch request with
    | false =>
        refine ⟨[.reply o.startScan], (s.scan request).scanReturn s.calls o.startScan,
          ⟨trivial, _, hstep, trivial, _, ?_, rfl⟩, ?_⟩
        · simp [CfgSys.scan, CfgSys.step, CfgSys.reply, hcheck, hsearch]
        · simp [CfgSys.scan, CfgSys.scanReturn, wilCfg80211Scan, hcheck, hsearch]
    | true =>
        cases hcfg : wmiP2pCfg s.wil with
        | none =>
            refine ⟨[], _, ⟨trivial, _, hstep, rfl⟩, ?_⟩
            simp [CfgSys.scan, CfgSys.searchOut, CfgSys.scanReturn, wilCfg80211Scan, wilP2pScan,
              hcheck, hsearch, hcfg, eAgain]
        | some w =>
            have hscan : s.scan request = { s with
                calls := s.calls + 1
                entry := s.wil.scanRequest
                wil := w
                op := .search s.calls request .p2pCfg } := by
              simp [CfgSys.scan, hcheck, hsearch, hcfg]
            obtain ⟨as, t, hexec, hend⟩ := searchSteps_eq usePcpForAp
              (s := s.scan request) s.calls request o (w := s.wil) (by rw [hscan, hcfg])
              (by rw [hscan])
            refine ⟨as, t, ⟨trivial, _, hstep, hexec⟩, ?_⟩
            simpa [wilCfg80211Scan, hcheck, hsearch, hscan] using hend
  · refine ⟨[], _, ⟨trivial, _, hstep, rfl⟩, ?_⟩
    simp [CfgSys.scan, CfgSys.scanReturn, wilCfg80211Scan, hcheck]

end Search

end Wil6210
