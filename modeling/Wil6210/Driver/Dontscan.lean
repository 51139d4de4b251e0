import Wil6210.Driver.ConnectCall
import Wil6210.Driver.Roc

/-!
# A failed call and scanning

`wil_status_dontscan` is set before the command that a connect, a remain-on-channel or a P2P search
is about, and keeps scans out from then on.  A call that fails is to leave the bit as it found it.

`dontscanKept_iff` is what each of the three does.  A failure of the command itself leaves the bit
set, and where a later command fails `wmi_stop_discovery` clears it, whatever it was.
-/

namespace Wil6210

/-- A call of one of the three, with what the WMI functions return to it. -/
inductive LockingCall
  | connect (sme : Cfg80211ConnectParams) (o : ConnectOutcome)
  | prepareRoc (req : RocRequest) (o : RocOutcome)
  | p2pScan (id : ℕ) (request : Cfg80211ScanRequest) (o : ScanOutcome)

/-- The state after the call, and its return code. -/
def LockingCall.run (usePcpForAp : Bool) (w : CfgWil) : LockingCall → CfgWil × ℤ
  | .connect sme o =>
      let p := wilCfg80211Connect usePcpForAp w sme o
      (p.1, p.2.1)
  | .prepareRoc req o =>
      let p := wilPrepareRoc w req o
      (p.1, p.2.1)
  | .p2pScan id request o =>
      let p := wilP2pScan w id request o
      (p.1, p.2.1)

/-- **What must hold**: a call that fails leaves the bit as it was. -/
def DontscanKept (usePcpForAp : Bool) (w : CfgWil) (call : LockingCall) : Prop :=
  (call.run usePcpForAp w).2 ≠ 0 → (call.run usePcpForAp w).1.dontscan = w.dontscan

/-- The bit is set already where the command behind `set_bit` fails, and clear where a later one
does. -/
def DontscanFits (w : CfgWil) : LockingCall → Prop
  | .connect sme o =>
      ∀ bss, ReachesBss sme o bss → bss.dmgType ≠ .unsupported → bss.hwValue ≠ 0 →
        o.connect ≠ 0 → w.dontscan = true
  | .prepareRoc req o =>
      req.cookie = true → w.roc.cookie = 0 → w.scanRequest = none →
        (o.p2pCfg ≠ 0 → w.dontscan = true) ∧
          (o.p2pCfg = 0 → o.setSsid ≠ 0 ∨ o.startListen ≠ 0 → w.dontscan = false)
  | .p2pScan _ request o =>
      w.scanRequest = none → (o.p2pCfg ≠ 0 → w.dontscan = true) ∧
        (o.p2pCfg = 0 → o.setSsid ≠ 0 ∨ (request.ie ≠ [] ∧ o.setIe ≠ 0) ∨ o.startSearch ≠ 0 →
          w.dontscan = false)

variable {usePcpForAp : Bool} {w : CfgWil}

/-! ## The three calls -/

/-- A connect sets the bit right before `WMI_CONNECT`. -/
lemma dontscanKept_connect (usePcpForAp : Bool) (w : CfgWil) (sme : Cfg80211ConnectParams)
    (o : ConnectOutcome) :
    DontscanKept usePcpForAp w (.connect sme o) ↔ DontscanFits w (.connect sme o) := by
  rw [DontscanKept, DontscanFits, LockingCall.run]
  rcases wilCfg80211Connect_cases usePcpForAp w sme o with
    ⟨rc, es, -, hnever, heq⟩ | ⟨bss, ssid, es, hreach, -, heq⟩
  · rw [heq]
    exact ⟨fun _ bss hbss => absurd hbss (hnever bss), fun _ _ => rfl⟩
  · have honly : ∀ b, ReachesBss sme o b → b = bss := fun b hb =>
      Option.some.inj (hb.1.symm.trans hreach.1)
    rw [heq]
    by_cases hdmg : bss.dmgType = .unsupported
    · rw [connectTail, connectCmd, if_pos hdmg]
      exact ⟨fun _ b hb hne => absurd (honly b hb ▸ hdmg) hne, fun _ _ => rfl⟩
    · by_cases hch : bss.hwValue = 0
      · rw [connectTail, connectCmd, if_neg hdmg, if_pos hch]
        exact ⟨fun _ b hb _ hne => absurd (honly b hb ▸ hch) hne, fun _ _ => rfl⟩
      · rw [connectTail, connectCmd, if_neg hdmg, if_neg hch]
        exact ⟨fun h _ _ _ _ hrc => (h hrc).symm, fun h hrc => (h bss hreach hdmg hch hrc).symm⟩

/-- `wmi_p2p_cfg` sets the bit where no scan is under way. -/
lemma wmiP2pCfg_eq (w : CfgWil) (hnone : w.scanRequest = none) :
    wmiP2pCfg w = some { w with dontscan := true } := by
  rw [wmiP2pCfg, hnone]
  rfl

/-- A remain-on-channel sets the bit in its first command, and clears it at `out_stop`. -/
lemma dontscanKept_prepareRoc (usePcpForAp : Bool) (w : CfgWil) (req : RocRequest)
    (o : RocOutcome) :
    DontscanKept usePcpForAp w (.prepareRoc req o) ↔ DontscanFits w (.prepareRoc req o) := by
  rw [DontscanKept, DontscanFits, LockingCall.run, wilPrepareRoc]
  by_cases hcookie : req.cookie = false
  · rw [if_pos hcookie]
    exact ⟨fun _ hroom => absurd (hroom.symm.trans hcookie) (by simp), fun _ _ => rfl⟩
  · rw [if_neg hcookie]
    by_cases hbusy : w.roc.cookie = 0
    · rw [if_neg (not_not.mpr hbusy)]
      cases hscan : w.scanRequest with
      | some id =>
          have hcfg : wmiP2pCfg (rocPrepare w (some req.buf)) = none := by
            rw [wmiP2pCfg, rocPrepare, hscan]
            rfl
          simp only [wilStartRoc, hcfg, dontscan_rocFinish]
          exact ⟨fun _ _ _ h => absurd h (by simp), fun _ _ => rfl⟩
      | none =>
          have hcfg := wmiP2pCfg_eq (rocPrepare w (some req.buf)) hscan
          simp only [wilStartRoc, hcfg, rocCommands]
          by_cases hp : o.p2pCfg = 0
          · by_cases hssid : o.setSsid = 0
            · by_cases hlisten : o.startListen = 0
              · simp [hp, hssid, hlisten]
              · simp [hp, hssid, hlisten, wmiStopDiscovery, hcookie, hbusy,
                  eq_comm (a := false)]
            · simp [hp, hssid, wmiStopDiscovery, hcookie, hbusy, eq_comm (a := false)]
          · simp [hp, hcookie, hbusy, eq_comm (a := true)]
    · rw [if_pos hbusy]
      exact ⟨fun _ _ h => absurd h hbusy, fun _ _ => rfl⟩

/-- When a search fails behind its first command. -/
lemma searchRc_ne_zero_iff (request : Cfg80211ScanRequest) (o : ScanOutcome) :
    searchRc request o ≠ 0
      ↔ o.setSsid ≠ 0 ∨ (request.ie ≠ [] ∧ o.setIe ≠ 0) ∨ o.startSearch ≠ 0 := by
  rw [searchRc]
  split_ifs with hssid hie
  · exact iff_of_true hssid (Or.inl hssid)
  · exact iff_of_true hie.2 (Or.inr (Or.inl hie))
  · simp [hssid, hie]

/-- So does a P2P search. -/
lemma dontscanKept_p2pScan (usePcpForAp : Bool) (w : CfgWil) (id : ℕ)
    (request : Cfg80211ScanRequest) (o : ScanOutcome) :
    DontscanKept usePcpForAp w (.p2pScan id request o)
      ↔ DontscanFits w (.p2pScan id request o) := by
  rw [DontscanKept, DontscanFits, LockingCall.run, wilP2pScan]
  cases hscan : w.scanRequest with
  | some id =>
      have hcfg : wmiP2pCfg w = none := by
        rw [wmiP2pCfg, hscan]
        rfl
      simp [hcfg]
  | none =>
      rw [wmiP2pCfg_eq w hscan]
      by_cases hp : o.p2pCfg = 0
      · simp [hp, wmiStopDiscovery, searchRc_ne_zero_iff, eq_comm (a := false)]
      · simp [hp, eq_comm (a := true)]

/-- **When a failed call keeps the bit**: if and only if the bit is set already where the command
behind `set_bit` fails, and clear where a later one does. -/
theorem dontscanKept_iff (usePcpForAp : Bool) (w : CfgWil) (call : LockingCall) :
    DontscanKept usePcpForAp w call ↔ DontscanFits w call := by
  cases call with
  | connect sme o => exact dontscanKept_connect usePcpForAp w sme o
  | prepareRoc req o => exact dontscanKept_prepareRoc usePcpForAp w req o
  | p2pScan id request o => exact dontscanKept_p2pScan usePcpForAp w id request o

/-- `WMI_CONNECT` for an open BSS is not sent, and scans are kept out all the same. -/
theorem not_dontscanKept : ¬ ∀ (usePcpForAp : Bool) (w : CfgWil) (call : LockingCall),
    DontscanKept usePcpForAp w call := by
  intro h
  have hkept := h false (CfgSys.init .station).wil
    (.connect ⟨some ⟨0x1, some [], 3, 2⟩, [], false⟩ ⟨0, 0, eBusy⟩)
  exact absurd (hkept (by decide)) (by decide)

end Wil6210
