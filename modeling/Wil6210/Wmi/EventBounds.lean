import Wil6210.Wmi.Events

/-!
# Events within their bounds

Of twelve handlers, two compare `len` with the size of their event, and `wmi_evt_connect` with the
lengths of its three parts, too.  The others read as many bytes as they want: an event that is
shorter is read to its end and beyond, and so is the reply of a `wmi_call`, of which only as much is
copied as the event has.  The lengths that are embedded in an event are bounded by nothing, or by a
constant.

`WmiEvtHandler.Fits` and `ReplyReader.Fits` say how long an event has to be, and
`eventInBounds_iff` that this is exactly what is needed.
-/

namespace Wil6210

open ByteMemory (field field_lt)

variable {env : EventEnv} {e : WmiEvent} {n a size : ℕ} {m : ℕ → UInt8}

/-! ## Handlers -/

/-- A handler stays within `len` bytes: they hold its event, with all that the event says it has. -/
def WmiEvtHandler.Fits (env : EventEnv) (len : ℕ) (m : ℕ → UInt8) : WmiEvtHandler → Prop
  | .ready => 16 ≤ len
  | .fwReady => True
  | .rxMgmt => 18 ≤ len ∧ (env.getChannel (field m 15 1 + 1) →
      (isBeaconOrProbeResp (field m 16 2) → 36 ≤ field m 8 4) ∧ 16 + field m 8 4 ≤ len)
  | .scanComplete => env.scanRequest → 4 ≤ len
  | .connect => True
  | .disconnect => 9 ≤ len
  | .notify => True
  | .eapolRx => 8 ≤ len ∧ (field m 6 2 ≤ 196 → env.allocSkb → 8 + field m 6 2 ≤ len)
  | .linkup => 1 ≤ len
  | .linkdown => 8 ≤ len
  | .baStatus => 8 ≤ len
  | .rcpAddbaReq => 8 ≤ len

/-- The elements of a beacon end where the frame does, unless their length wraps. -/
lemma within_rxMgmtBeacon {dLen signal : ℕ} (hn : n < 2 ^ 16) (hd : dLen < 2 ^ 32) :
    (rxMgmtBeacon env dLen signal).Within n m ↔ 36 ≤ dLen ∧ 16 + dLen ≤ n := by
  simp only [rxMgmtBeacon, sizeofRxMgmtInfo, offsetofBeaconVariable, Parse.within_num_bind,
    Parse.within_bytes_bind, Parse.within_pure, Extent.in_iff, and_true, beaconIeLen]
  by_cases hlen : 36 ≤ dLen
  · rw [show 2 ^ 64 + dLen - 36 = dLen - 36 + 2 ^ 64 by omega, Nat.add_mod_right,
      Nat.mod_eq_of_lt (by omega)]
    omega
  · -- the length wraps
    rw [Nat.mod_eq_of_lt (by omega)]
    omega

lemma within_wmiEvtRxMgmt (hn : n < 2 ^ 16) :
    (wmiEvtRxMgmt env).Within n m ↔ WmiEvtHandler.rxMgmt.Fits env n m := by
  have hbeacon : (rxMgmtBeacon env (field m 8 4) (field m 3 1)).Within n m ↔
      36 ≤ field m 8 4 ∧ 16 + field m 8 4 ≤ n :=
    within_rxMgmtBeacon hn (field_lt m 8 4)
  simp only [wmiEvtRxMgmt, sizeofRxMgmtInfo, WmiEvtHandler.Fits, Parse.within_num_bind,
    Parse.within_touch_cons, Parse.within_touch_nil, Parse.within_ite, Parse.within_bytes_bind,
    Parse.within_pure, Extent.in_iff, hbeacon, and_true]
  by_cases hchannel : env.getChannel (field m 15 1 + 1) = true
  · by_cases hfc : isBeaconOrProbeResp (field m 16 2)
    · simp [hchannel, hfc]
      omega
    · simp [hchannel, hfc]
      omega
  · simp [hchannel]
    omega

/-- What `wmi_evt_connect` accepts has its three parts. -/
lemma within_connectUse {beaconIeLen assocReqLen assocRespLen cid : ℕ}
    (hn : n = 23 + beaconIeLen + assocReqLen + assocRespLen) :
    (connectUse env beaconIeLen assocReqLen assocRespLen cid).Within n m := by
  have hie : ∀ start len offset (f : Option (List UInt8) → Parse (List EventUse)),
      start + len ≤ n → (∀ ie, (f ie).Within n m) →
        (assocIeBytes start len offset >>= f).Within n m := by
    intro start len offset f hle hf
    rw [Parse.within_bind]
    refine ⟨?_, hf _⟩
    rw [assocIeBytes]
    split_ifs with hlen
    · trivial
    · rw [Parse.within_bytes_bind, Extent.in_iff]
      exact ⟨.inr (show start + offset + (len - offset) ≤ n by omega), trivial⟩
  rw [connectUse, Parse.within_bytes_bind, Extent.in_iff]
  refine ⟨.inr (show 2 + 6 ≤ n by omega), ?_⟩
  have hstation : ((if env.smeState ≠ .connecting then pure []
      else do
        let reqIe ← assocIeBytes (23 + beaconIeLen) assocReqLen 4
        let respIe ← assocIeBytes (23 + beaconIeLen + assocReqLen) assocRespLen 6
        pure [.connectResult (ByteMemory.read m 2 6) reqIe respIe,
          .pendingSta cid (ByteMemory.read m 2 6)]) : Parse (List EventUse)).Within n m := by
    split_ifs
    · trivial
    · exact hie _ _ _ _ (by omega) fun _ => hie _ _ _ _ (by omega) fun _ => trivial
  cases env.iftype with
  | station => exact hstation
  | p2pClient => exact hstation
  | ap => exact hie _ _ _ _ (by omega) fun _ => trivial
  | p2pGo => exact hie _ _ _ _ (by omega) fun _ => trivial
  | monitor => trivial
  | other => trivial

lemma within_wmiEvtConnectData : (wmiEvtConnectData env n).Within n m := by
  rw [wmiEvtConnectData]
  split_ifs with hshort
  · trivial
  · simp only [Parse.within_num_bind, Extent.in_iff]
    refine ⟨.inr (by omega), .inr (by omega), .inr (by omega), ?_⟩
    split_ifs with hlen
    · trivial
    · rw [Parse.within_num_bind, Extent.in_iff]
      refine ⟨.inr (show 19 + 1 ≤ n by omega), ?_⟩
      split_ifs
      · trivial
      · rw [Parse.within_touch_cons, Parse.within_touch_cons, Parse.within_touch_nil,
          Extent.in_iff, Extent.in_iff]
        refine ⟨.inr (show 0 + 1 ≤ n by omega), .inr (show 23 + (n - 23) ≤ n by omega),
          within_connectUse (not_not.mp hlen)⟩

lemma within_wmiEvtEapolRx :
    (wmiEvtEapolRx env).Within n m ↔ WmiEvtHandler.eapolRx.Fits env n m := by
  simp only [wmiEvtEapolRx, WmiEvtHandler.Fits, Parse.within_num_bind, Parse.within_bytes_bind,
    Parse.within_ite, Parse.within_pure, Extent.in_iff, and_true]
  by_cases hlen : 196 < field m 6 2
  · simp [hlen, Nat.not_le.mpr hlen]
    omega
  · cases halloc : env.allocSkb <;> simp [hlen, Nat.not_lt.mp hlen] <;> omega

/-- **What a handler needs.**  On any memory, it stays within `len` bytes exactly where its event
fits. -/
theorem WmiEvtHandler.within_iff (hn : n < 2 ^ 16) (handler : WmiEvtHandler) :
    (handler.parse env n).Within n m ↔ handler.Fits env n m := by
  cases handler with
  | rxMgmt => exact within_wmiEvtRxMgmt hn
  | connect => exact iff_of_true within_wmiEvtConnectData trivial
  | eapolRx => exact within_wmiEvtEapolRx
  | fwReady => exact iff_of_true trivial trivial
  | scanComplete =>
      simp only [parse, wmiEvtScanCompleteData, Fits]
      split_ifs with hscan
      · simp [hscan, Extent.in_iff]
      · simp [hscan]
  | notify =>
      refine iff_of_true ?_ trivial
      have hsizeof : sizeofNotifyReqDone = 44 := rfl
      simp only [parse, wmiEvtNotify, Parse.within_ite, Parse.within_num_bind,
        Parse.within_touch_cons, Parse.within_touch_nil, Parse.within_pure,
        Extent.in_iff, and_true]
      split_ifs
      simp only [false_or]
      omega
  | ready =>
      simp only [parse, wmiEvtReady, Fits, Parse.within_num_bind, Parse.within_bytes_bind,
        Parse.within_pure, Extent.in_iff, and_true]
      omega
  | disconnect =>
      simp only [parse, wmiEvtDisconnectData, Fits, Parse.within_touch_cons,
        Parse.within_touch_nil, Parse.within_bytes_bind, Parse.within_pure, Extent.in_iff, and_true]
      omega
  | linkup =>
      simp only [parse, wmiEvtLinkup, Fits, Parse.within_touch_cons, Parse.within_touch_nil,
        Parse.within_pure, Extent.in_iff, and_true]
      omega
  | linkdown =>
      simp only [parse, wmiEvtLinkdown, Fits, Parse.within_touch_cons, Parse.within_touch_nil,
        Parse.within_pure, Extent.in_iff, and_true]
      omega
  | baStatus =>
      simp only [parse, wmiEvtBaStatusData, Fits, Parse.within_num_bind, Parse.within_pure,
        Extent.in_iff, and_true]
      omega
  | rcpAddbaReq =>
      simp only [parse, wmiEvtRcpAddbaReq, Fits, Parse.within_num_bind, Parse.within_pure,
        Extent.in_iff, and_true]
      omega

/-! ## Replies -/

/-- The event of a reply holds all that its caller reads. -/
def ReplyReader.Fits (len : ℕ) (m : ℕ → UInt8) : ReplyReader → Prop
  | pcpStart => 9 ≤ len
  | startListen => 9 ≤ len
  | startSearch => 9 ≤ len
  | mgmtTx => 9 ≤ len
  | getChannel => 9 ≤ len
  | rcpAddbaResp => 12 ≤ len
  | getSsid => 12 ≤ len ∧ (field m 8 4 ≤ 32 → 12 + field m 8 4 ≤ len)
  | rxChainAdd => 16 ≤ len
  | getTemperature tM tR => (tM → 12 ≤ len) ∧ (tR → 16 ≤ len)
  | vringInitTx => 10 ≤ len ∧ (field m 9 1 = 0 → 16 ≤ len)
  | cidFillSinfo => 49 ≤ len

lemma within_statusRc {start success : ℕ} (hsize : 0 < size) :
    (ReplyReader.statusRc start size success).Within n m ↔ start + size ≤ n := by
  simp only [ReplyReader.statusRc, Parse.within_num_bind, Parse.within_pure, Extent.in_iff,
    and_true]
  omega

/-- **What a caller needs** of its reply. -/
theorem ReplyReader.within_iff (r : ReplyReader) : r.parse.Within n m ↔ r.Fits n m := by
  cases r with
  | pcpStart => exact within_statusRc Nat.one_pos
  | startListen => exact within_statusRc Nat.one_pos
  | startSearch => exact within_statusRc Nat.one_pos
  | mgmtTx => exact within_statusRc Nat.one_pos
  | rcpAddbaResp => exact within_statusRc Nat.two_pos
  | getChannel => simp [parse, Fits, Extent.in_iff]
  | getSsid =>
      simp only [parse, Fits, Parse.within_num_bind, Parse.within_ite, Parse.within_bytes_bind,
        Parse.within_pure, Extent.in_iff, and_true]
      split_ifs <;> simp only [false_or, and_true] <;> omega
  | rxChainAdd =>
      simp only [parse, Fits, Parse.within_num_bind, within_statusRc (show 0 < 4 by omega),
        Extent.in_iff]
      omega
  | getTemperature tM tR =>
      cases tM <;> cases tR <;>
        simp [parse, Fits, Parse.within_bind, Extent.in_iff, Parse.touch, Parse.Within]
  | vringInitTx =>
      simp only [parse, Fits, Parse.within_num_bind, Parse.within_ite, Parse.within_pure,
        Extent.in_iff, and_true]
      split_ifs <;> simp only [false_or, and_true] <;> omega
  | cidFillSinfo =>
      simp only [parse, Fits, Parse.within_touch_cons, Parse.within_touch_nil,
        Parse.within_pure, Extent.in_iff, and_true]
      omega

/-- An event that fills the buffer is long enough. -/
lemma ReplyReader.fits_of_replySize_le {r : ReplyReader} (h : r.replySize ≤ n) : r.Fits n m := by
  cases r <;> simp only [replySize, Fits, sizeofNotifyReqDone] at h ⊢ <;> omega

/-! ## Every event -/

/-- The bytes of an event, with zeros behind them. -/
def WmiEvent.data (e : WmiEvent) (i : ℕ) : UInt8 := e.bytes.getD i 0

/-- **What must hold** of an event: what `wmi_event_handle` and the handler read of it is among its
`hdr.len` bytes, and so is what the caller that waits for it reads of its reply.  The memory behind
the event, and what the buffer held before, is `behind`. -/
structure EventInBounds (env : EventEnv) (e : WmiEvent) (behind : ℕ → UInt8) : Prop where
  handled : (wmiEventHandleData env e.type e.len).Within e.len (e.mem behind)
  reply : ∀ r, e.isWmi → env.awaits e.id = some (.reply r) →
    r.parse.Within e.len (r.buffer e behind)

/-- An event is as long as its reader needs it to be. -/
def EventFits (env : EventEnv) (e : WmiEvent) : Prop :=
  e.isWmi →
    match env.awaits e.id with
    | some (.reply r) => r.Fits e.len e.data
    | _ => ∀ handler, wmiEvtHandlers.lookup e.id = some handler →
        handler.Fits env (e.len - sizeofMboxHdrWmi) fun i => e.data (sizeofMboxHdrWmi + i)

lemma mem_eq_data (behind : ℕ → UInt8) {i : ℕ} (hi : i < e.len) : e.mem behind i = e.data i := by
  have hi' : i < e.bytes.length := hi
  simp [WmiEvent.mem, WmiEvent.data, hi']

/-- The id that `wmi_event_handle` reads. -/
lemma field_id (behind : ℕ → UInt8) (h : sizeofMboxHdrWmi ≤ e.len) :
    field (e.mem behind) 2 2 = e.id := by
  have hlen : 8 ≤ e.len := h
  have hread : ByteMemory.read (e.mem behind) 2 2 = [e.bytes.getD 2 0, e.bytes.getD 3 0] := by
    have hlow := mem_eq_data behind (show 2 < e.len by omega)
    have hhigh := mem_eq_data behind (show 3 < e.len by omega)
    rw [ByteMemory.read]
    simp [List.range_succ, hlow, hhigh, WmiEvent.data]
  rw [field, hread]
  simp [ByteMemory.leNat, WmiEvent.id]

/-- What the handler needs of the event. -/
lemma within_wmiEvtCallHandlerData (behind : ℕ → UInt8) (hlen : e.len < 2 ^ 16)
    (h : sizeofMboxHdrWmi ≤ e.len) :
    ((wmiEvtCallHandlerData env e.id (e.len - sizeofMboxHdrWmi)).shift sizeofMboxHdrWmi).Within
        e.len (e.mem behind) ↔
      ∀ handler, wmiEvtHandlers.lookup e.id = some handler →
        handler.Fits env (e.len - sizeofMboxHdrWmi) fun i => e.data (sizeofMboxHdrWmi + i) := by
  have hdata : ∀ i < e.len - sizeofMboxHdrWmi,
      e.mem behind (sizeofMboxHdrWmi + i) = e.data (sizeofMboxHdrWmi + i) :=
    fun i hi => mem_eq_data behind (by omega)
  rw [Parse.within_shift h, Parse.within_congr hdata, wmiEvtCallHandlerData]
  cases hlookup : wmiEvtHandlers.lookup e.id with
  | none => exact iff_of_true trivial fun _ h => absurd h (by simp)
  | some handler =>
      rw [handler.within_iff (by omega)]
      exact ⟨fun hfits _ heq => Option.some.inj heq ▸ hfits, fun hfits => hfits handler rfl⟩

/-- What a caller needs of the event that it waits for. -/
lemma within_buffer (r : ReplyReader) (behind : ℕ → UInt8) :
    r.parse.Within e.len (r.buffer e behind) ↔ r.Fits e.len e.data := by
  rcases Nat.le_total r.replySize e.len with hfull | hshort
  · rw [r.within_iff]
    exact iff_of_true (ReplyReader.fits_of_replySize_le hfull)
      (ReplyReader.fits_of_replySize_le hfull)
  · have hdata : ∀ i < e.len, r.buffer e behind i = e.data i := by
      intro i hi
      rw [ReplyReader.buffer, if_pos (by omega), mem_eq_data behind hi]
    rw [Parse.within_congr hdata, r.within_iff]

/-- **When events are parsed within their bounds.**  Whatever lies behind an event: exactly where it
is as long as its reader needs it to be. -/
theorem eventInBounds_iff (env : EventEnv) (e : WmiEvent) (behind : ℕ → UInt8)
    (hlen : e.len < 2 ^ 16) : EventInBounds env e behind ↔ EventFits env e := by
  by_cases hwmi : e.isWmi = true
  · have hparts : e.type = wilMboxHdrTypeWmi ∧ sizeofMboxHdrWmi ≤ e.len := by
      simpa [WmiEvent.isWmi] using hwmi
    have hid : Extent.In ⟨2, 2⟩ e.len :=
      Extent.in_iff.mpr (.inr (show 4 ≤ e.len from le_trans (by decide) hparts.2))
    -- up to the handler, or the copy
    have hhandled : (wmiEventHandleData env e.type e.len).Within e.len (e.mem behind) ↔
        match env.awaits e.id with
        | some (.reply _) => True
        | _ => ∀ handler, wmiEvtHandlers.lookup e.id = some handler →
            handler.Fits env (e.len - sizeofMboxHdrWmi)
              fun i => e.data (sizeofMboxHdrWmi + i) := by
      rw [wmiEventHandleData, if_pos hparts, Parse.within_num_bind, field_id behind hparts.2,
        and_iff_right hid]
      cases env.awaits e.id with
      | none => exact within_wmiEvtCallHandlerData behind hlen hparts.2
      | some w =>
          cases w with
          | noBuffer id => exact within_wmiEvtCallHandlerData behind hlen hparts.2
          | reply r =>
              refine iff_of_true ⟨Extent.in_iff.mpr (.inr ?_), trivial⟩ trivial
              exact (Nat.zero_add _).le.trans (Nat.min_le_left _ _)
    rw [EventFits]
    constructor
    · rintro ⟨hhandle, hreply⟩ -
      rw [hhandled] at hhandle
      cases hwait : env.awaits e.id with
      | none => simpa [hwait] using hhandle
      | some w =>
          cases w with
          | noBuffer id => simpa [hwait] using hhandle
          | reply r => exact (within_buffer r behind).mp (hreply r hwmi hwait)
    · intro hfits
      have hfits := hfits hwmi
      refine ⟨hhandled.mpr ?_, fun r _ hwait => ?_⟩
      · cases hwait : env.awaits e.id with
        | none => simpa [hwait] using hfits
        | some w =>
            cases w with
            | noBuffer id => simpa [hwait] using hfits
            | reply r => trivial
      · rw [hwait] at hfits
        exact (within_buffer r behind).mpr hfits
  · -- the bytes of an event that is not a WMI event are dumped
    refine iff_of_true ⟨?_, fun _ h => absurd h hwmi⟩ fun h => absurd h hwmi
    have hparts : ¬ (e.type = wilMboxHdrTypeWmi ∧ sizeofMboxHdrWmi ≤ e.len) := by
      simpa [WmiEvent.isWmi] using hwmi
    rw [wmiEventHandleData, if_neg hparts]
    exact ⟨Extent.in_iff.mpr (.inr (Nat.zero_add _).le), trivial⟩

/-- An event within its bounds is handled in one way, whatever lies behind it. -/
theorem eventInBounds_run {behind behind' : ℕ → UInt8} (h : EventInBounds env e behind) :
    (wmiEventHandleData env e.type e.len).run (e.mem behind)
      = (wmiEventHandleData env e.type e.len).run (e.mem behind') :=
  Parse.run_congr h.handled fun _ hi => (mem_eq_data _ hi).trans (mem_eq_data _ hi).symm

/-- An access point on which no call waits. -/
private def apEnv : EventEnv :=
  ⟨false, fun ch => ch ≤ 3, fun _ => false, true, .ap, .idle, true, none⟩

/-- An EAPOL event that says that its frame has `len` bytes. -/
private def eapolEvent (len : UInt8) (frame : List UInt8) : WmiEvent :=
  ⟨0, [0, 0, 0x02, 0x90, 0, 0, 0, 0, 2, 0, 0, 0, 0, 1, len, 0] ++ frame⟩

/-- A frame of two bytes that are there. -/
theorem eventInBounds_eapol : EventInBounds apEnv (eapolEvent 2 [1, 0]) fun _ => 0 := by
  refine (eventInBounds_iff _ _ _ (by decide)).mpr fun _ handler hlookup => ?_
  have hid : (eapolEvent 2 [1, 0]).id = 0x9002 := by decide
  rw [hid] at hlookup
  obtain rfl := Option.some.inj (hlookup.symm.trans (show _ = some .eapolRx by decide))
  have hfield : field (fun i => (eapolEvent 2 [1, 0]).data (sizeofMboxHdrWmi + i)) 6 2 = 2 := by
    decide
  exact ⟨by decide, fun _ _ => by rw [hfield]; decide⟩

/-- A frame of 100 bytes, none of which is there: what lies behind the event is received. -/
theorem not_eventInBounds : ¬ ∀ (env : EventEnv) (e : WmiEvent) (behind : ℕ → UInt8), e.isWmi →
    e.len < 2 ^ 16 → EventInBounds env e behind := by
  intro h
  have hhandled := (h apEnv (eapolEvent 100 []) (fun _ => 0) (by decide) (by decide)).handled
  rw [wmiEventHandleData, if_pos (by decide), Parse.within_num_bind, field_id _ (by decide)]
    at hhandled
  have hfits := (within_wmiEvtCallHandlerData _ (by decide) (by decide)).mp hhandled.2 .eapolRx
    (by decide)
  exact absurd (hfits.2 (by decide) rfl) (by decide)

end Wil6210
