import Wil6210.Driver.Cfg80211

/-!
# What a connect call returns

`wil_cfg80211_connect` as one function of the request and of what the WMI functions return.
`connectCall_steps` says that it is what the steps of `Driver/Cfg80211` come to.

A call that returns 0 makes cfg80211 wait for a connect result.  It comes with the CONNECT event,
or else with the connect timer (`wilDisconnectWorker_reports`), so the call must have sent
`WMI_CONNECT` and armed the timer.  An unsupported type of BSS is the one exit that is taken with the
return code of an earlier success (`connectUnderWay_iff`), and `cfg80211_get_bss` is asked for no
such BSS: `wilCfg80211Connect_underWay`.
-/

namespace Wil6210

/-- `-ENOENT` -/
def eNoent : ℤ := -2

/-- The return codes of the WMI functions that a connect call uses. -/
structure ConnectOutcome where
  delCipherKey : ℤ
  setIe : ℤ
  connect : ℤ
  deriving DecidableEq, Repr

/-- What a connect call does outside of the driver's state: its commands, each with what came of it,
and the timer. -/
inductive ConnectEvent
  | delCipherKey (bssid : MacAddr) (rc : ℤ)
  | setIe (ie : List UInt8) (rc : ℤ)
  | connect (cmd : WmiConnectCmd) (rc : ℤ)
  /-- `connect_timer` is armed, in milliseconds. -/
  | modTimer (msec : ℕ)
  deriving DecidableEq, Repr

/-- `wil_cfg80211_connect`, from the choice of the network type on. -/
def connectTail (usePcpForAp : Bool) (w : CfgWil) (sme : Cfg80211ConnectParams) (bss : Cfg80211Bss)
    (ssid : List UInt8) (rc : ℤ) : CfgWil × ℤ × List ConnectEvent :=
  match connectCmd usePcpForAp sme bss ssid with
  | .error rc => (w, rc, [])
  | .ok cmd =>
      ({ w with dontscan := true }, rc,
        .connect cmd rc :: if rc = 0 then [.modTimer 2000] else [])

/-- `wil_cfg80211_connect` -/
def wilCfg80211Connect (usePcpForAp : Bool) (w : CfgWil) (sme : Cfg80211ConnectParams)
    (o : ConnectOutcome) : CfgWil × ℤ × List ConnectEvent :=
  match sme.bss with
  | none => (w, eNoent, [])
  | some bss =>
      match bss.ssid with
      | none => (w, eNoent, [])
      | some ssid =>
          if ¬ sme.rsn then connectTail usePcpForAp w sme bss ssid o.connect
          else if wmiMaxIeLen < sme.ie.length then (w, eRange, [])
          else
            let del := ConnectEvent.delCipherKey bss.bssid o.delCipherKey
            if o.delCipherKey ≠ 0 then (w, o.delCipherKey, [del])
            else
              let setIe := ConnectEvent.setIe sme.ie o.setIe
              if o.setIe ≠ 0 then (w, o.setIe, [del, setIe])
              else
                let p := connectTail usePcpForAp w sme bss ssid o.connect
                (p.1, p.2.1, [del, setIe] ++ p.2.2)

/-- `wil_disconnect_worker`, which the connect timer schedules: `_wil6210_disconnect` for no
address. -/
def wilDisconnectWorker (s : Wil) : Wil × List DrvEvent :=
  let p := disconnectStations s none
  let q := disconnectLink p.1 none
  (q.1, p.2 ++ q.2)

/-- **The timeout is reported**, where cfg80211 still waits. -/
theorem wilDisconnectWorker_reports {s : Wil} (hclient : s.iftype.client = true)
    (hsme : s.smeState = .connecting) :
    .cfg80211ConnectResult none none none false ∈ (wilDisconnectWorker s).2 := by
  have hnone : disconnectStations s none = (s, []) := by
    simp [disconnectStations]
  rw [wilDisconnectWorker, hnone, List.nil_append, disconnectLink]
  cases htype : s.iftype with
  | station | p2pClient => simp [hsme]
  | _ => simp [htype, Iftype.client] at hclient

/-! ## The steps in a row are the call -/

section Steps

variable {s : CfgSys} {usePcpForAp : Bool} {sme : Cfg80211ConnectParams} {bss : Cfg80211Bss}
  {ssid : List UInt8}

/-- The last part of a connect call is `connectTail`. -/
lemma connectTail_steps (s : CfgSys) (usePcpForAp : Bool) (sme : Cfg80211ConnectParams)
    (bss : Cfg80211Bss) (ssid : List UInt8) (rc : ℤ) :
    ∃ as t, Machine.Exec (CfgSys.step usePcpForAp) (fun _ _ => True)
        (s.connectSend usePcpForAp sme bss ssid) as t ∧ t.op = .idle ∧
      t.wil = (connectTail usePcpForAp s.wil sme bss ssid rc).1 := by
  cases hcmd : connectCmd usePcpForAp sme bss ssid with
  | error e =>
      refine ⟨[], _, rfl, ?_⟩
      simp [CfgSys.connectSend, connectTail, hcmd]
  | ok cmd =>
      have hsend : s.connectSend usePcpForAp sme bss ssid
          = { s with wil := { s.wil with dontscan := true }, op := .connect cmd } := by
        simp [CfgSys.connectSend, hcmd]
      refine ⟨[.reply rc], { s with
        wil := { s.wil with dontscan := true }
        op := .idle
        attempt := s.attempt ∨ rc = 0 }, ⟨trivial, _, ?_, rfl⟩, rfl, ?_⟩
      · rw [hsend]
        rfl
      · simp [connectTail, hcmd]

/-- **The steps of a connect call in a row are `wil_cfg80211_connect`.** -/
theorem connectCall_steps (hidle : s.op = .idle) (o : ConnectOutcome) :
    ∃ as t, Machine.Exec (CfgSys.step usePcpForAp) (fun _ _ => True) s (.connect sme :: as) t ∧
      t.op = .idle ∧ t.wil = (wilCfg80211Connect usePcpForAp s.wil sme o).1 := by
  have hstep : s.step usePcpForAp (.connect sme) = some (s.connect usePcpForAp sme) := by
    simp [CfgSys.step, hidle]
  suffices hrest : ∃ as t, Machine.Exec (CfgSys.step usePcpForAp) (fun _ _ => True)
      (s.connect usePcpForAp sme) as t ∧ t.op = .idle ∧
      t.wil = (wilCfg80211Connect usePcpForAp s.wil sme o).1 by
    obtain ⟨as, t, hexec, hend⟩ := hrest
    exact ⟨as, t, ⟨trivial, _, hstep, hexec⟩, hend⟩
  rw [CfgSys.connect, wilCfg80211Connect]
  cases hbss : sme.bss with
  | none => exact ⟨[], s, rfl, hidle, rfl⟩
  | some bss =>
      cases hssid : bss.ssid with
      | none => simpa only [hssid] using ⟨[], s, rfl, hidle, rfl⟩
      | some ssid =>
          simp only [hssid]
          by_cases hrsn : sme.rsn = true
          · rw [if_neg (not_not.mpr hrsn), if_neg (not_not.mpr hrsn)]
            by_cases hlen : wmiMaxIeLen < sme.ie.length
            · rw [if_pos hlen, if_pos hlen]
              exact ⟨[], s, rfl, hidle, rfl⟩
            · rw [if_neg hlen, if_neg hlen]
              by_cases hdel : o.delCipherKey = 0
              · by_cases hset : o.setIe = 0
                · obtain ⟨as, t, hexec, hend⟩ := connectTail_steps
                    { s with op := .setAppie sme bss ssid } usePcpForAp sme bss ssid o.connect
                  refine ⟨.reply 0 :: .reply 0 :: as, t,
                    ⟨trivial, _, rfl, trivial, _, rfl, hexec⟩, ?_⟩
                  simpa [hdel, hset] using hend
                · refine ⟨[.reply 0, .reply o.setIe], { s with op := .idle },
                    ⟨trivial, _, rfl, trivial, _, ?_, rfl⟩, rfl, ?_⟩
                  · simp [CfgSys.step, CfgSys.reply, hset]
                  · simp [hdel, hset]
              · refine ⟨[.reply o.delCipherKey], { s with op := .idle },
                  ⟨trivial, _, ?_, rfl⟩, rfl, ?_⟩
                · simp [CfgSys.step, CfgSys.reply, hdel]
                · simp [hdel]
          · rw [if_pos hrsn, if_pos hrsn]
            exact connectTail_steps s usePcpForAp sme bss ssid o.connect

end Steps

/-! ## When the connect is under way -/

/-- What must hold of a connect call: where it returns 0, `WMI_CONNECT` was sent with success and the
connect timer was armed. -/
structure ConnectUnderWay (p : CfgWil × ℤ × List ConnectEvent) : Prop where
  sent : p.2.1 = 0 → ∃ cmd, .connect cmd 0 ∈ p.2.2
  armed : p.2.1 = 0 → .modTimer 2000 ∈ p.2.2

/-- The call gets to the choice of the network type for this BSS: it is found, with an SSID, and the
commands for a secure association succeed. -/
def ReachesBss (sme : Cfg80211ConnectParams) (o : ConnectOutcome) (bss : Cfg80211Bss) : Prop :=
  sme.bss = some bss ∧ bss.ssid.isSome ∧
    (sme.rsn = true → sme.ie.length ≤ wmiMaxIeLen ∧ o.delCipherKey = 0 ∧ o.setIe = 0)

/-- From the choice of the network type on, only an unsupported type is left with 0 returned and
nothing sent. -/
lemma connectUnderWay_connectTail (usePcpForAp : Bool) (w : CfgWil) (sme : Cfg80211ConnectParams)
    (bss : Cfg80211Bss) (ssid : List UInt8) (rc : ℤ) (es : List ConnectEvent)
    (hes : ∀ cmd, .connect cmd 0 ∉ es) :
    ConnectUnderWay ((connectTail usePcpForAp w sme bss ssid rc).1,
        (connectTail usePcpForAp w sme bss ssid rc).2.1,
        es ++ (connectTail usePcpForAp w sme bss ssid rc).2.2)
      ↔ bss.dmgType ≠ .unsupported := by
  by_cases hdmg : bss.dmgType = .unsupported
  · have htail : connectTail usePcpForAp w sme bss ssid rc = (w, 0, []) := by
      rw [connectTail, connectCmd, if_pos hdmg]
    rw [htail, List.append_nil]
    refine iff_of_false (fun h => ?_) (not_not.mpr hdmg)
    obtain ⟨cmd, hmem⟩ := h.sent rfl
    exact hes cmd hmem
  · refine iff_of_true ?_ hdmg
    by_cases hch : bss.hwValue = 0
    · have htail : connectTail usePcpForAp w sme bss ssid rc = (w, eOpnotsupp, []) := by
        rw [connectTail, connectCmd, if_neg hdmg, if_pos hch]
      rw [htail]
      exact ⟨fun h => absurd h (by simp [eOpnotsupp]), fun h => absurd h (by simp [eOpnotsupp])⟩
    · rw [connectTail, connectCmd, if_neg hdmg, if_neg hch]
      refine ⟨fun h => ?_, fun h => ?_⟩
      · obtain rfl : rc = 0 := h
        exact ⟨_, List.mem_append_right _ List.mem_cons_self⟩
      · obtain rfl : rc = 0 := h
        exact List.mem_append_right _ (List.mem_cons_of_mem _ (List.mem_singleton.mpr rfl))

/-- A connect call fails before it gets to a BSS, or goes on with the one it found. -/
lemma wilCfg80211Connect_cases (usePcpForAp : Bool) (w : CfgWil) (sme : Cfg80211ConnectParams)
    (o : ConnectOutcome) :
    (∃ rc es, rc ≠ 0 ∧ (∀ bss, ¬ ReachesBss sme o bss) ∧
        wilCfg80211Connect usePcpForAp w sme o = (w, rc, es)) ∨
      ∃ bss ssid es, ReachesBss sme o bss ∧ (∀ cmd, .connect cmd 0 ∉ es) ∧
        wilCfg80211Connect usePcpForAp w sme o
          = ((connectTail usePcpForAp w sme bss ssid o.connect).1,
              (connectTail usePcpForAp w sme bss ssid o.connect).2.1,
              es ++ (connectTail usePcpForAp w sme bss ssid o.connect).2.2) := by
  rw [wilCfg80211Connect]
  cases hbss : sme.bss with
  | none =>
      exact Or.inl ⟨eNoent, [], by decide, fun b hb => by simp [ReachesBss, hbss] at hb, rfl⟩
  | some bss =>
      have hbss' : ∀ b, ReachesBss sme o b → b = bss := fun b hb =>
        (Option.some.inj (hbss.symm.trans hb.1)).symm
      cases hssid : bss.ssid with
      | none =>
          simp only [hssid]
          refine Or.inl ⟨eNoent, [], by decide, fun b hb => ?_, rfl⟩
          obtain rfl := hbss' b hb
          simp [ReachesBss, hssid] at hb
      | some ssid =>
          simp only [hssid]
          by_cases hrsn : sme.rsn = true
          · rw [if_neg (not_not.mpr hrsn)]
            by_cases hlen : wmiMaxIeLen < sme.ie.length
            · rw [if_pos hlen]
              exact Or.inl ⟨eRange, [], by decide,
                fun b hb => absurd (hb.2.2 hrsn).1 (by omega), rfl⟩
            · rw [if_neg hlen]
              by_cases hdel : o.delCipherKey = 0
              · by_cases hset : o.setIe = 0
                · rw [if_neg (not_not.mpr hdel), if_neg (not_not.mpr hset)]
                  exact Or.inr ⟨bss, ssid, _,
                    ⟨hbss, by simp [hssid], fun _ => ⟨by omega, hdel, hset⟩⟩, by simp, rfl⟩
                · rw [if_neg (not_not.mpr hdel), if_pos hset]
                  exact Or.inl ⟨o.setIe, _, hset, fun b hb => hset (hb.2.2 hrsn).2.2, rfl⟩
              · rw [if_pos hdel]
                exact Or.inl ⟨o.delCipherKey, _, hdel, fun b hb => hdel (hb.2.2 hrsn).2.1, rfl⟩
          · rw [if_pos hrsn]
            exact Or.inr ⟨bss, ssid, [], ⟨hbss, by simp [hssid], fun h => absurd h hrsn⟩, by simp,
              rfl⟩

/-- **When a connect call keeps its word**: if and only if it does not get to a BSS of an unsupported
DMG type. -/
theorem connectUnderWay_iff (usePcpForAp : Bool) (w : CfgWil) (sme : Cfg80211ConnectParams)
    (o : ConnectOutcome) : ConnectUnderWay (wilCfg80211Connect usePcpForAp w sme o) ↔
      ∀ bss, ReachesBss sme o bss → bss.dmgType ≠ .unsupported := by
  rcases wilCfg80211Connect_cases usePcpForAp w sme o with
    ⟨rc, es, hrc, hnever, heq⟩ | ⟨bss, ssid, es, hreach, hes, heq⟩
  · rw [heq]
    exact ⟨fun _ bss hbss => absurd hbss (hnever bss),
      fun _ => ⟨fun h => absurd h hrc, fun h => absurd h hrc⟩⟩
  · rw [heq, connectUnderWay_connectTail usePcpForAp w sme bss ssid o.connect es hes]
    refine ⟨fun h b hb => ?_, fun h => h bss hreach⟩
    obtain rfl : bss = b := Option.some.inj (hreach.1.symm.trans hb.1)
    exact h

/-- **A connect call that returns 0 is under way**, whatever the request, the BSS that is found for
it, and the outcomes of the WMI commands. -/
theorem wilCfg80211Connect_underWay (usePcpForAp : Bool) (w : CfgWil) (sme : Cfg80211ConnectParams)
    (o : ConnectOutcome) (hfound : sme.EssFound) :
    ConnectUnderWay (wilCfg80211Connect usePcpForAp w sme o) :=
  (connectUnderWay_iff usePcpForAp w sme o).mpr fun _ hreach => hfound.dmgType_ne hreach.1

/-- A secure association with a BSS of the wrong type, which the driver connects to as to a PCP. -/
theorem wilCfg80211Connect_underWay_ibss :
    ConnectUnderWay (wilCfg80211Connect false (CfgSys.init .station).wil
        ⟨some ⟨0x1, some [0x61], 0x11, 2⟩, [0x30, 0], true⟩ ⟨0, 0, 0⟩) ∧
      wilCfg80211Connect false (CfgSys.init .station).wil
        ⟨some ⟨0x1, some [0x61], 0x11, 2⟩, [0x30, 0], true⟩ ⟨0, 0, 0⟩
        = ({ (CfgSys.init .station).wil with dontscan := true }, 0,
            [.delCipherKey 0x1 0, .setIe [0x30, 0] 0, .connect ⟨.p2p, true, [0x61], 1, 0x1⟩ 0,
              .modTimer 2000]) :=
  ⟨wilCfg80211Connect_underWay false _ _ _ (by decide), by decide +kernel⟩

end Wil6210
