import Wil6210.Driver.Cfg80211

/-!
# No scan after a connection attempt

The firmware does not support a scan after a connection attempt, so the connect sets
`wil_status_dontscan` and a disconnect or a reset clears it.  The same bit says that a P2P listen or
search is on, and `wmi_stop_discovery` clears it whoever has set it.

So the end of a remain-on-channel takes the bit away from a connection attempt, and the next scan is
sent to the firmware (`not_noScan`).  Where none ends at such a time the bit stays (`noScan_run`).  A
P2P search is no danger: it tests the bit as any scan does.
-/

namespace Wil6210

/-- A command of a scan call, ordinary or P2P, is on its way. -/
def CfgOp.scans : CfgOp → Bool
  | .startScan _ _ => true
  | .search _ _ _ => true
  | _ => false

/-- `WMI_CONNECT` is on its way. -/
def CfgOp.connecting : CfgOp → Bool
  | .connect _ => true
  | _ => false

/-- A remain-on-channel that failed to start waits in `wmi_stop_discovery`. -/
def CfgOp.stopsRoc : CfgOp → Bool
  | .roc (.stop _) => true
  | _ => false

/-- Since `WMI_CONNECT` was sent, and up to the next disconnect or reset, `dontscan` is set, and no
scan call is behind its tests. -/
def NoScan (s : CfgSys) : Prop :=
  s.attempt = true → s.wil.dontscan = true ∧ s.op.scans = false

/-- `wmi_stop_discovery` does not return, from the work item or from a remain-on-channel that failed
to start, in a connection attempt; and neither it nor a disconnect nor a reset falls between the
`set_bit` of a connect and the return of its `wmi_send`. -/
def Undisturbed (s : CfgSys) : CfgAction → Prop
  | .reply _ => s.op.stopsRoc = true → s.attempt = false
  | .rocCancelled => s.attempt = false ∧ s.op.connecting = false
  | .disconnect | .reset => s.op.connecting = false
  | _ => True

structure NoScanInv (s : CfgSys) : Prop where
  noScan : NoScan s
  connecting : s.op.connecting = true → s.wil.dontscan = true

section Steps

variable {s t : CfgSys} {usePcpForAp : Bool}

/-- In an attempt, a scan is refused by its tests. -/
lemma scanCheck_ne {w : CfgWil} (h : w.dontscan = true) : scanCheck w ≠ 0 := by
  simp only [scanCheck, h, if_true]
  split_ifs <;> decide

/-- A step that ends in an operation without a part in the bit, or in none. -/
lemma NoScanInv.other (h : NoScanInv s) (hattempt : t.attempt = s.attempt)
    (hdontscan : s.wil.dontscan = true → t.wil.dontscan = true) (hscans : t.op.scans = false)
    (hconnecting : t.op.connecting = false) : NoScanInv t := by
  refine ⟨fun ha => ⟨hdontscan (h.noScan (hattempt ▸ ha)).1, hscans⟩, fun hc => ?_⟩
  simp [hconnecting] at hc

/-- `wmi_stop_discovery` returns to an operation, outside of an attempt. -/
lemma NoScanInv.stop (hattempt : t.attempt = false) (hconnecting : t.op.connecting = false) :
    NoScanInv t :=
  ⟨fun ha => by simp [hattempt] at ha, fun hc => by simp [hconnecting] at hc⟩

lemma NoScanInv.scan (h : NoScanInv s) (request : Cfg80211ScanRequest) :
    NoScanInv (s.scan request) := by
  have hattempt : (s.scan request).attempt = s.attempt := by
    simp only [CfgSys.scan]
    split_ifs
    · rfl
    · cases wmiP2pCfg s.wil <;> rfl
    · rfl
  have hconnecting : (s.scan request).op.connecting = false := by
    simp only [CfgSys.scan]
    split_ifs
    · rfl
    · cases wmiP2pCfg s.wil <;> rfl
    · rfl
  refine ⟨fun ha => ?_, fun hc => by simp [hconnecting] at hc⟩
  obtain ⟨hdontscan, -⟩ := h.noScan (hattempt ▸ ha)
  simp only [CfgSys.scan, scanCheck_ne hdontscan, ne_eq, not_false_eq_true, if_true]
  exact ⟨hdontscan, rfl⟩

lemma NoScanInv.connectSend (h : NoScanInv s) (sme : Cfg80211ConnectParams) (bss : Cfg80211Bss)
    (ssid : List UInt8) : NoScanInv (s.connectSend usePcpForAp sme bss ssid) := by
  simp only [CfgSys.connectSend]
  split
  · exact h.other rfl id rfl rfl
  · exact ⟨fun _ => ⟨rfl, rfl⟩, fun _ => rfl⟩

lemma NoScanInv.connect (h : NoScanInv s) (sme : Cfg80211ConnectParams) :
    NoScanInv (s.connect usePcpForAp sme) := by
  simp only [CfgSys.connect]
  split
  · exact h
  · split
    · exact h
    · split_ifs
      · exact h
      · exact h.other rfl id rfl rfl
      · exact h.connectSend _ _ _

lemma NoScanInv.rocOut (h : NoScanInv s) (rc : ℤ) : NoScanInv (s.rocOut rc) :=
  h.other rfl (fun hd => (dontscan_rocFinish s.wil rc).trans hd) rfl rfl

lemma NoScanInv.remainOnChannel (h : NoScanInv s) (hop : s.op = .idle) (buf : Option ℕ) :
    NoScanInv (s.remainOnChannel buf) := by
  have hprepare : NoScanInv { s with wil := rocPrepare s.wil buf } :=
    h.other rfl id (by rw [hop]; rfl) (by rw [hop]; rfl)
  simp only [CfgSys.remainOnChannel]
  split_ifs
  · exact h
  · cases hcfg : wmiP2pCfg (rocPrepare s.wil buf) with
    | none => exact hprepare.rocOut eAgain
    | some w =>
        have hw : w.dontscan = true := by
          simp only [wmiP2pCfg] at hcfg
          split_ifs at hcfg
          obtain rfl := Option.some.inj hcfg
          rfl
        exact h.other rfl (fun _ => hw) rfl rfl

/-- A search is no danger to an attempt: there is none while it runs. -/
lemma NoScanInv.searchReply (h : NoScanInv s) {id : ℕ} {request : Cfg80211ScanRequest}
    {stage : SearchStage} (hop : s.op = .search id request stage) (rc : ℤ) :
    NoScanInv (s.searchReply id request rc stage) := by
  have hattempt : s.attempt = false := by
    cases ha : s.attempt with
    | false => rfl
    | true =>
        have hscans := (h.noScan ha).2
        simp [hop, CfgOp.scans] at hscans
  cases stage with
  | p2pCfg =>
      simp only [CfgSys.searchReply]
      split_ifs
      · exact .stop hattempt rfl
      · exact .stop hattempt rfl
  | setSsid =>
      simp only [CfgSys.searchReply]
      split_ifs
      · exact .stop hattempt rfl
      · exact .stop hattempt rfl
      · exact .stop hattempt rfl
  | setIe =>
      simp only [CfgSys.searchReply]
      split_ifs
      · exact .stop hattempt rfl
      · exact .stop hattempt rfl
  | startSearch => exact .stop hattempt rfl
  | stop rc' => exact .stop hattempt rfl

lemma NoScanInv.rocReply (h : NoScanInv s) {stage : RocStage} (hop : s.op = .roc stage)
    (hquiet : s.op.stopsRoc = true → s.attempt = false) (rc : ℤ) :
    NoScanInv (s.rocReply rc stage) := by
  cases stage with
  | p2pCfg =>
      simp only [CfgSys.rocReply]
      split_ifs
      · exact h.rocOut rc
      · exact h.other rfl id rfl rfl
  | setSsid =>
      simp only [CfgSys.rocReply]
      split_ifs
      · exact h.other rfl id rfl rfl
      · exact h.other rfl id rfl rfl
  | startListen =>
      have hqueued : NoScanInv { s with work := .queued } :=
        h.other rfl id (by rw [hop]; rfl) (by rw [hop]; rfl)
      simp only [CfgSys.rocReply]
      split_ifs
      · exact h.other rfl id rfl rfl
      · exact hqueued.rocOut 0
  | stop rc' => exact .stop (hquiet (by rw [hop]; rfl)) rfl

/-- The operation goes on. -/
lemma NoScanInv.reply (h : NoScanInv s) {rc : ℤ}
    (hquiet : s.op.stopsRoc = true → s.attempt = false)
    (ht : s.reply usePcpForAp rc = some t) : NoScanInv t := by
  cases hop : s.op with
  | idle => simp [CfgSys.reply, hop] at ht
  | cancelRoc => simp [CfgSys.reply, hop] at ht
  | startScan id channels =>
      simp only [CfgSys.reply, hop, Option.some.injEq] at ht
      subst ht
      exact h.other rfl (fun hd => hd) rfl rfl
  | search id request stage =>
      simp only [CfgSys.reply, hop, Option.some.injEq] at ht
      subst ht
      exact h.searchReply hop rc
  | delCipherKey sme bss ssid =>
      simp only [CfgSys.reply, hop] at ht
      split_ifs at ht <;> obtain rfl := Option.some.inj ht
      · exact h.other rfl id rfl rfl
      · exact h.other rfl id rfl rfl
  | setAppie sme bss ssid =>
      simp only [CfgSys.reply, hop] at ht
      split_ifs at ht <;> obtain rfl := Option.some.inj ht
      · exact h.other rfl id rfl rfl
      · exact h.connectSend sme bss ssid
  | connect cmd =>
      have hdontscan := h.connecting (by rw [hop]; rfl)
      simp only [CfgSys.reply, hop, Option.some.injEq] at ht
      subst ht
      exact ⟨fun _ => ⟨hdontscan, rfl⟩, fun _ => hdontscan⟩
  | roc stage =>
      simp only [CfgSys.reply, hop, Option.some.injEq] at ht
      subst ht
      exact h.rocReply hop hquiet rc

/-- **Every step keeps the invariant.** -/
theorem NoScanInv.step (h : NoScanInv s) {a : CfgAction} (hquiet : Undisturbed s a)
    (ht : s.step usePcpForAp a = some t) : NoScanInv t := by
  cases a with
  | reply rc => exact h.reply hquiet ht
  | scan request =>
      obtain ⟨-, rfl⟩ := CfgSys.step_cases ht
      exact h.scan request
  | connect sme =>
      obtain ⟨-, rfl⟩ := CfgSys.step_cases ht
      exact h.connect sme
  | remainOnChannel buf =>
      obtain ⟨hready, rfl⟩ := CfgSys.step_cases ht
      exact h.remainOnChannel hready.1 buf
  | cancelRoc =>
      obtain ⟨-, rfl⟩ := CfgSys.step_cases ht
      exact h.other rfl id rfl rfl
  | cancelled =>
      obtain ⟨-, rfl⟩ := CfgSys.step_cases ht
      exact h.other rfl id rfl rfl
  | changeIface iftype =>
      obtain ⟨-, rfl⟩ := CfgSys.step_cases ht
      exact ⟨h.noScan, h.connecting⟩
  | rocTimer =>
      obtain ⟨-, rfl⟩ := CfgSys.step_cases ht
      exact ⟨h.noScan, h.connecting⟩
  | rocCancelled =>
      obtain ⟨-, rfl⟩ := CfgSys.step_cases ht
      exact .stop hquiet.1 hquiet.2
  | scanComplete status =>
      obtain rfl := Option.some.inj ht
      have hsame : (wmiEvtScanComplete s.wil status).1.dontscan = s.wil.dontscan := by
        simp only [wmiEvtScanComplete]
        cases s.wil.scanRequest <;> rfl
      exact ⟨fun ha => hsame.symm ▸ h.noScan ha, fun hc => hsame.trans (h.connecting hc)⟩
  | down =>
      obtain ⟨hready, rfl⟩ := CfgSys.step_cases ht
      exact .stop rfl (by rw [show s.op = _ from hready.1]; rfl)
  | disconnect =>
      obtain rfl := Option.some.inj ht
      exact .stop rfl hquiet
  | reset =>
      obtain rfl := Option.some.inj ht
      exact .stop rfl hquiet

end Steps

/-- **No scan after a connection attempt**, where no remain-on-channel ends in it, and nothing clears
`dontscan` while a connect is being sent. -/
theorem noScan_run {iftype : Iftype} {usePcpForAp : Bool} {as : List CfgAction} {s : CfgSys}
    (h : Machine.Exec (CfgSys.step usePcpForAp) Undisturbed (CfgSys.init iftype) as s) :
    NoScan s := by
  have hinit : NoScanInv (CfgSys.init iftype) :=
    ⟨fun ha => absurd ha (by simp [CfgSys.init]), fun hc => absurd hc (by simp [CfgSys.init,
      CfgOp.connecting])⟩
  exact (h.invariant (fun _ _ _ hG ht hi => hi.step hG ht) hinit).noScan

instance (s : CfgSys) : (a : CfgAction) → Decidable (Undisturbed s a)
  | .reply _ => inferInstanceAs (Decidable (_ → _))
  | .rocCancelled => inferInstanceAs (Decidable (_ ∧ _))
  | .disconnect | .reset => inferInstanceAs (Decidable (_ = _))
  | .scan _ | .connect _ | .remainOnChannel _ | .cancelRoc | .cancelled | .changeIface _
  | .rocTimer | .scanComplete _ | .down => inferInstanceAs (Decidable True)

/-- A connect to an open network. -/
def openConnect : Cfg80211ConnectParams := ⟨some ⟨2, some [0x61], 3, 1⟩, [], false⟩

/-- A request for a scan of channel 2. -/
def scanRequestTwo : Cfg80211ScanRequest := ⟨[[]], [⟨60480, 2⟩], []⟩

/-- A remain-on-channel starts and ends, a connect is sent, and a scan is refused. -/
theorem noScan_run_refused :
    ∃ s : CfgSys, s.attempt = true ∧ NoScan s ∧ (s.returned 0).map ScanReturn.rc = some eBusy := by
  let as : List CfgAction := [.remainOnChannel none, .reply 0, .reply 0, .reply 0, .rocTimer,
    .rocCancelled, .connect openConnect, .reply 0, .scan scanRequestTwo]
  have hrun : (Machine.exec (CfgSys.step false) Undisturbed (CfgSys.init .station) as).map
      (fun s => (s.attempt, (s.returned 0).map ScanReturn.rc)) = some (true, some eBusy) := by
    decide +kernel
  obtain ⟨s, hs, hend⟩ := Option.map_eq_some_iff.mp hrun
  obtain ⟨hattempt, hret⟩ := Prod.mk.inj hend
  exact ⟨s, hattempt, noScan_run (.of_exec hs), hret⟩

/-- The timer of a remain-on-channel expires in an attempt; the next scan is sent. -/
theorem not_noScan :
    ¬ ∀ (iftype : Iftype) (usePcpForAp : Bool) (as : List CfgAction) (s : CfgSys),
      iftype.client = true →
      Machine.Exec (CfgSys.step usePcpForAp) (fun _ _ => True) (CfgSys.init iftype) as s →
        NoScan s := by
  intro h
  let as : List CfgAction := [.remainOnChannel none, .reply 0, .reply 0, .reply 0,
    .connect openConnect, .reply 0, .rocTimer, .rocCancelled, .scan scanRequestTwo]
  have hrun : (Machine.exec (CfgSys.step false) (fun _ _ => True) (CfgSys.init .station) as).map
      (fun s => (s.attempt, s.op)) = some (true, .startScan 0 [1]) := by
    decide +kernel
  obtain ⟨s, hs, hend⟩ := Option.map_eq_some_iff.mp hrun
  obtain ⟨hattempt, hop⟩ := Prod.mk.inj hend
  have hscans := (h .station _ as s rfl (.of_exec hs) hattempt).2
  simp [hop, CfgOp.scans] at hscans

end Wil6210
