import Wil6210.Driver.State
import Wil6210.Lib.Parse
import Wil6210.Wmi.Call

/-!
# The bytes of an event

`wmi_event_handle`, the handlers of `wmi_evt_handlers`, and what the callers of `wmi_call` read of
their replies, as programs that read a message.  A handler is given a pointer to the data behind the
header and `len`, which most of them do not look at.  A caller reads its fields from a buffer to
which the first bytes of the event were copied.

Offsets are those of the packed structures of `wmi.h`.  A field that only a debug message shows is
read, too.  What a handler passes on is a list of `EventUse`s.
-/

namespace Wil6210

/-! ## What is read and passed on -/

/-- Who waits in `wmi_call` with a buffer for the reply. -/
inductive ReplyReader
  | pcpStart
  | getSsid
  | getChannel
  | startListen
  | startSearch
  | rxChainAdd
  | mgmtTx
  | getTemperature (tM tR : Bool)
  | rcpAddbaResp
  | vringInitTx
  | cidFillSinfo
  deriving DecidableEq, Repr

/-- A running `wmi_call`: with a buffer, or without one. -/
inductive WmiWait
  | reply (r : ReplyReader)
  | noBuffer (replyId : ℕ)
  deriving DecidableEq, Repr

/-- What the handlers go by besides the event.  Channels are looked up and the elements of a frame
searched by cfg80211. -/
structure EventEnv where
  /-- `wil->scan_request` -/
  scanRequest : Bool
  /-- `ieee80211_get_channel` finds the channel with this number. -/
  getChannel : ℕ → Bool
  /-- `cfg80211_find_ie(WLAN_EID_RSN, ..)` -/
  findRsnIe : List UInt8 → Bool
  usePcpForAp : Bool
  iftype : Iftype
  smeState : SmeState
  /-- the outcome of `alloc_skb` -/
  allocSkb : Bool
  wait : Option WmiWait

/-- What is done with the contents of an event. -/
inductive EventUse
  | ready (swVersion nMids : ℕ) (mac : List UInt8)
  | fwReady
  | informBss (bssid : List UInt8) (tsf cap bi : ℕ) (ie : List UInt8) (signal : ℕ)
  | rxMgmt (signal : ℕ) (frame : List UInt8)
  | scanDone (aborted : Bool)
  | connectResult (bssid : List UInt8) (reqIe respIe : Option (List UInt8))
  | newSta (bssid : List UInt8) (reqIe : Option (List UInt8))
  | pendingSta (cid : ℕ) (addr : List UInt8)
  | disconnect (bssid : List UInt8)
  | stats (tsf snr bfMcs myRxSector myTxSector peerRxSector peerTxSector : ℕ)
  | eapol (srcMac frame : List UInt8)
  | carrierOn
  | carrierOff
  | baStatus (ringid status aggWsize baTimeout : ℕ)
  | rcpAddbaRequest (cidxtid dialogToken baParamSet baTimeout baSeqCtrl : ℕ)
  deriving DecidableEq, Repr

open Parse (num bytes touch)

/-! ## The handlers -/

/-- `wmi_evt_ready`; the address is used where the device has none. -/
def wmiEvtReady : Parse (List EventUse) := do
  let swVersion ← num 0 4
  let nMids ← num 15 1
  let mac ← bytes 8 6
  pure [.ready swVersion nMids mac]

/-- `wmi_evt_fw_ready` -/
def wmiEvtFwReady : Parse (List EventUse) := pure [.fwReady]

/-- `ieee80211_is_beacon` or `ieee80211_is_probe_resp` -/
def isBeaconOrProbeResp (fc : ℕ) : Prop := fc &&& 0xfc = 0x80 ∨ fc &&& 0xfc = 0x50

instance (fc : ℕ) : Decidable (isBeaconOrProbeResp fc) := inferInstanceAs (Decidable (_ ∨ _))

/-- `sizeof(struct wmi_rx_mgmt_info)` -/
def sizeofRxMgmtInfo : ℕ := 16

/-- `offsetof(struct ieee80211_mgmt, u.beacon.variable)` -/
def offsetofBeaconVariable : ℕ := 36

/-- `d_len - offsetof(..)`, a `size_t` -/
def beaconIeLen (dLen : ℕ) : ℕ := (2 ^ 64 + dLen - offsetofBeaconVariable) % 2 ^ 64

/-- The beacon branch of `wmi_evt_rx_mgmt`. -/
def rxMgmtBeacon (env : EventEnv) (dLen signal : ℕ) : Parse (List EventUse) := do
  let frame := sizeofRxMgmtInfo
  let tsf ← num (frame + 24) 8
  let cap ← num (frame + 34) 2
  let bi ← num (frame + 32) 2
  let ie ← bytes (frame + offsetofBeaconVariable) (beaconIeLen dLen)
  -- `WLAN_CAPABILITY_PRIVACY`, `WLAN_CAPABILITY_ESS`
  let cap := if env.findRsnIe ie then cap ||| bit 4 else cap
  let cap := if env.usePcpForAp then cap ||| bit 0 else cap
  let bssid ← bytes (frame + 16) 6
  pure [.informBss bssid tsf cap bi ie signal]

/-- `wmi_evt_rx_mgmt` -/
def wmiEvtRxMgmt (env : EventEnv) : Parse (List EventUse) := do
  let channel ← num 15 1
  let signal ← num 3 1
  let fc ← num sizeofRxMgmtInfo 2
  let dLen ← num 8 4
  -- status, mcs, snr, stype, qid, mid and cid
  touch [⟨6, 2⟩, ⟨0, 1⟩, ⟨1, 1⟩, ⟨4, 2⟩, ⟨12, 1⟩, ⟨13, 1⟩, ⟨14, 1⟩]
  if ¬ env.getChannel (channel + 1) then pure []
  else if isBeaconOrProbeResp fc then rxMgmtBeacon env dLen signal
  else do
    let frame ← bytes sizeofRxMgmtInfo dLen
    pure [.rxMgmt signal frame]

/-- `wmi_evt_scan_complete` -/
def wmiEvtScanCompleteData (env : EventEnv) : Parse (List EventUse) :=
  if env.scanRequest then do
    let status ← num 0 4
    pure [.scanDone (status ≠ 0)]
  else pure []

/-- Information elements behind `offset` fixed bytes, `none` where there are none. -/
def assocIeBytes (start len offset : ℕ) : Parse (Option (List UInt8)) :=
  if len ≤ offset then pure none
  else do
    let ie ← bytes (start + offset) (len - offset)
    pure (some ie)

/-- `wmi_evt_connect`, from its checks on. -/
def connectUse (env : EventEnv) (beaconIeLen assocReqLen assocRespLen cid : ℕ) :
    Parse (List EventUse) := do
  let assocInfo := 23
  let bssid ← bytes 2 6
  match env.iftype with
  | .station | .p2pClient =>
      if env.smeState ≠ .connecting then pure []
      else do
        let reqIe ← assocIeBytes (assocInfo + beaconIeLen) assocReqLen 4
        let respIe ← assocIeBytes (assocInfo + beaconIeLen + assocReqLen) assocRespLen 6
        pure [.connectResult bssid reqIe respIe, .pendingSta cid bssid]
  | .ap | .p2pGo => do
      let reqIe ← assocIeBytes (assocInfo + beaconIeLen) assocReqLen 4
      pure [.newSta bssid reqIe, .pendingSta cid bssid]
  | _ => pure [.pendingSta cid bssid]

/-- `wmi_evt_connect` -/
def wmiEvtConnectData (env : EventEnv) (len : ℕ) : Parse (List EventUse) := do
  let sizeofEvt := 23
  if len < sizeofEvt then pure []
  else
    let beaconIeLen ← num 16 1
    let assocReqLen ← num 17 1
    let assocRespLen ← num 18 1
    if len ≠ sizeofEvt + beaconIeLen + assocReqLen + assocRespLen then pure []
    else
      let cid ← num 19 1
      -- `WIL6210_MAX_CID`
      if 8 ≤ cid then pure []
      else
        -- channel, and the dump of `assoc_info`
        touch [⟨0, 1⟩, ⟨sizeofEvt, len - sizeofEvt⟩]
        connectUse env beaconIeLen assocReqLen assocRespLen cid

/-- `wmi_evt_disconnect` -/
def wmiEvtDisconnectData : Parse (List EventUse) := do
  -- protocol_reason_status and disconnect_reason
  touch [⟨0, 2⟩, ⟨8, 1⟩]
  let bssid ← bytes 2 6
  pure [.disconnect bssid]

/-- `sizeof(struct wmi_notify_req_done_event)` -/
def sizeofNotifyReqDone : ℕ := 44

/-- `wmi_evt_notify` -/
def wmiEvtNotify (len : ℕ) : Parse (List EventUse) := do
  if len < sizeofNotifyReqDone then pure []
  else
    let tsf ← num 4 8
    let snr ← num 12 4
    let bfMcs ← num 28 2
    let myRxSector ← num 30 2
    let myTxSector ← num 32 2
    let peerRxSector ← num 34 2
    let peerTxSector ← num 36 2
    -- status, sqi, tx_tpt, tx_goodput and rx_goodput
    touch [⟨0, 4⟩, ⟨40, 1⟩, ⟨16, 4⟩, ⟨20, 4⟩, ⟨24, 4⟩]
    pure [.stats tsf snr bfMcs myRxSector myTxSector peerRxSector peerTxSector]

/-- `wmi_evt_eapol_rx` -/
def wmiEvtEapolRx (env : EventEnv) : Parse (List EventUse) := do
  let eapolLen ← num 6 2
  let srcMac ← bytes 0 6
  if 196 < eapolLen then pure []
  else if ¬ env.allocSkb then pure []
  else do
    let eapol ← bytes 8 eapolLen
    pure [.eapol srcMac eapol]

/-- `wmi_evt_linkup` -/
def wmiEvtLinkup : Parse (List EventUse) := do
  touch [⟨0, 1⟩]
  pure [.carrierOn]

/-- `wmi_evt_linkdown` -/
def wmiEvtLinkdown : Parse (List EventUse) := do
  touch [⟨0, 1⟩, ⟨4, 4⟩]
  pure [.carrierOff]

/-- `wmi_evt_ba_status` -/
def wmiEvtBaStatusData : Parse (List EventUse) := do
  let ringid ← num 4 1
  let status ← num 0 2
  let aggWsize ← num 5 1
  let baTimeout ← num 6 2
  pure [.baStatus ringid status aggWsize baTimeout]

/-- `wmi_evt_rcp_addba_req` -/
def wmiEvtRcpAddbaReq : Parse (List EventUse) := do
  let cidxtid ← num 0 1
  let dialogToken ← num 1 1
  let baParamSet ← num 2 2
  let baTimeout ← num 4 2
  let baSeqCtrl ← num 6 2
  pure [.rcpAddbaRequest cidxtid dialogToken baParamSet baTimeout baSeqCtrl]

/-- The handlers. -/
inductive WmiEvtHandler
  | ready
  | fwReady
  | rxMgmt
  | scanComplete
  | connect
  | disconnect
  | notify
  | eapolRx
  | linkup
  | linkdown
  | baStatus
  | rcpAddbaReq
  deriving DecidableEq, Repr

/-- `handler(wil, id, d, len)` -/
def WmiEvtHandler.parse (env : EventEnv) (len : ℕ) : WmiEvtHandler → Parse (List EventUse)
  | .ready => wmiEvtReady
  | .fwReady => wmiEvtFwReady
  | .rxMgmt => wmiEvtRxMgmt env
  | .scanComplete => wmiEvtScanCompleteData env
  | .connect => wmiEvtConnectData env len
  | .disconnect => wmiEvtDisconnectData
  | .notify => wmiEvtNotify len
  | .eapolRx => wmiEvtEapolRx env
  | .linkup => wmiEvtLinkup
  | .linkdown => wmiEvtLinkdown
  | .baStatus => wmiEvtBaStatusData
  | .rcpAddbaReq => wmiEvtRcpAddbaReq

/-- `wmi_evt_handlers` -/
def wmiEvtHandlers : List (ℕ × WmiEvtHandler) :=
  [(0x1001, .ready), (wmiFwReadyEventid, .fwReady), (0x1840, .rxMgmt), (0x100a, .scanComplete),
    (0x1002, .connect), (0x1003, .disconnect), (0x1863, .notify), (0x9002, .eapolRx),
    (0x1860, .linkup), (0x1861, .linkdown), (0x1823, .baStatus), (0x1824, .rcpAddbaReq)]

/-- `wmi_evt_call_handler` -/
def wmiEvtCallHandlerData (env : EventEnv) (id len : ℕ) : Parse (List EventUse) :=
  match wmiEvtHandlers.lookup id with
  | none => pure []
  | some handler => handler.parse env len

/-! ## Replies -/

namespace ReplyReader

/-- `reply_id` -/
def replyId : ReplyReader → ℕ
  | pcpStart => 0x1918
  | getSsid => 0x1828
  | getChannel => 0x182a
  | startListen => 0x1914
  | startSearch => 0x1915
  | rxChainAdd => 0x1820
  | mgmtTx => 0x182b
  | getTemperature _ _ => 0x180e
  | rcpAddbaResp => 0x1825
  | vringInitTx => 0x1821
  | cidFillSinfo => 0x1863

/-- `reply_size`: the header and the structure behind it. -/
def replySize : ReplyReader → ℕ
  | pcpStart | getChannel | startListen | startSearch | mgmtTx | rcpAddbaResp => 12
  | getSsid => 44
  | rxChainAdd | getTemperature _ _ | vringInitTx => 16
  | cidFillSinfo => 8 + sizeofNotifyReqDone

/-- A caller that looks at the status only. -/
def statusRc (start size success : ℕ) : Parse ℤ := do
  let status ← num start size
  pure (if status ≠ success then eInval else 0)

/-- What a caller reads of its reply, from the return of `wmi_call` with 0 on; the result is its
return code. -/
def parse : ReplyReader → Parse ℤ
  | pcpStart => statusRc 8 1 0
  | startListen => statusRc 8 1 0
  | startSearch => statusRc 8 1 0
  | mgmtTx => statusRc 8 1 0
  | rcpAddbaResp => statusRc 10 2 0
  | getSsid => do
      let len ← num 8 4
      if 32 < len then pure eInval
      else do
        let _ ← bytes 12 len
        pure 0
  | getChannel => do
      let channel ← num 8 1
      pure (if 3 < channel then eInval else 0)
  | rxChainAdd => do
      let _ ← num 8 4
      statusRc 12 4 1
  | getTemperature tM tR => do
      if tM then touch [⟨8, 4⟩] else pure ()
      if tR then touch [⟨12, 4⟩] else pure ()
      pure 0
  | vringInitTx => do
      let status ← num 9 1
      if status ≠ 0 then pure eInval
      else do
        let _ ← num 12 4
        pure 0
  | cidFillSinfo => do
      touch [⟨36, 2⟩, ⟨12, 8⟩, ⟨8, 4⟩, ⟨20, 4⟩, ⟨48, 1⟩, ⟨24, 4⟩, ⟨28, 4⟩, ⟨32, 4⟩, ⟨38, 2⟩, ⟨40, 2⟩,
        ⟨42, 2⟩, ⟨44, 2⟩]
      pure 0

end ReplyReader

/-! ## An event -/

/-- `wil->reply_id` -/
def WmiWait.replyId : WmiWait → ℕ
  | .reply r => r.replyId
  | .noBuffer replyId => replyId

/-- The call that waits for the event. -/
def EventEnv.awaits (env : EventEnv) (id : ℕ) : Option WmiWait :=
  env.wait.filter fun w => w.replyId != 0 && w.replyId == id

/-- `wmi_event_handle`, for an event of this type with `len` bytes. -/
def wmiEventHandleData (env : EventEnv) (type len : ℕ) : Parse (List EventUse) := do
  if type = wilMboxHdrTypeWmi ∧ sizeofMboxHdrWmi ≤ len then
    let id ← num 2 2
    let handler := (wmiEvtCallHandlerData env id (len - sizeofMboxHdrWmi)).shift sizeofMboxHdrWmi
    match env.awaits id with
    | some (.reply r) =>
        touch [⟨0, min len r.replySize⟩]
        pure []
    | some (.noBuffer _) => handler
    | none => handler
  else
    touch [⟨0, len⟩]
    pure []

/-- The memory an event lies in, with these bytes behind it. -/
def WmiEvent.mem (e : WmiEvent) (behind : ℕ → UInt8) (i : ℕ) : UInt8 :=
  if h : i < e.bytes.length then e.bytes[i] else behind i

/-- The buffer of a caller, to which the event was copied; what it held before is `old`. -/
def ReplyReader.buffer (r : ReplyReader) (e : WmiEvent) (old : ℕ → UInt8) (i : ℕ) : UInt8 :=
  if i < min e.len r.replySize then e.mem old i else old i

end Wil6210
