import Wil6210.Driver.Sessions

/-!
# The answer to an ADDBA request

`wil_back_handle` tells the peer what it agrees to (`wmi_rcp_addba_resp`), waits for the firmware,
and then replaces the session.  `addba_agreed` says that the response and the session agree, for
every request and in every state: the peer is told the window that the session has.

Other events fall between the two halves, so the state `u` in which the session is replaced may be
another one than the state `s` in which the request was checked.
-/

namespace Wil6210

/-! ## The bits -/

/-- A CID and a TID, packed again as they came. -/
lemma mkCidxtid_parseCidxtid (cidxtid : UInt8) :
    mkCidxtid (parseCidxtid cidxtid).1 (parseCidxtid cidxtid).2 = cidxtid.toNat := by
  have hall : ∀ x : Fin 256, mkCidxtid (x.val &&& 0xf)
      (Fin.ofNat 16 ((x.val >>> 4) &&& 0xf)).val = x.val := by
    decide +kernel
  exact hall ⟨cidxtid.toNat, cidxtid.toNat_lt⟩

/-- The parameter set of a response, field by field. -/
lemma wilGetBits_addbaResp (cid token status timeout : ℕ) (tid : Fin 16) {aggWsize : ℕ}
    (hsize : aggWsize ≤ 16) :
    let cmd := wmiRcpAddbaResp cid tid token status false aggWsize timeout
    wilGetBits cmd.baParamSet 2 5 = tid ∧ wilGetBits cmd.baParamSet 1 1 = 1 ∧
      wilGetBits cmd.baParamSet 6 15 = aggWsize := by
  have hall : ∀ (i : Fin 16) (n : Fin 17),
      wilGetBits (u16 (0 ||| 2 ||| (i.val <<< 2) ||| (n.val <<< 6))) 2 5 = i ∧
        wilGetBits (u16 (0 ||| 2 ||| (i.val <<< 2) ||| (n.val <<< 6))) 1 1 = 1 ∧
        wilGetBits (u16 (0 ||| 2 ||| (i.val <<< 2) ||| (n.val <<< 6))) 6 15 = n := by
    decide +kernel
  exact hall tid ⟨aggWsize, Nat.lt_succ_of_le hsize⟩

/-! ## The outcome -/

/-- The CID of a request is that of a connected station. -/
def WilPendingBack.Connected (s : Wil) (req : WilPendingBack) : Prop :=
  ∃ cid : Cid, cid.val = req.cidxtid.toNat &&& 0xf ∧ (s.sta cid).status = .connected

/-- What the peer is told. -/
structure AddbaAnswered (req : WilPendingBack) (w : BackWait) (cmd : WmiRcpAddbaRespCmd) :
    Prop where
  req_eq : w.req = req
  cid_eq : w.cid.val = req.cidxtid.toNat &&& 0xf
  tid_eq : w.tid.val = req.cidxtid.toNat >>> 4
  cidxtid_eq : cmd.cidxtid = req.cidxtid.toNat
  token_eq : cmd.dialogToken = req.dialogToken.toNat
  status_eq : cmd.statusCode = 0
  tid_bits : wilGetBits cmd.baParamSet 2 5 = w.tid
  immediate : wilGetBits cmd.baParamSet 1 1 = 1
  window : wilGetBits cmd.baParamSet 6 15 = min 16 (wilGetBits req.baParamSet.toNat 6 15)

/-- What the driver then enforces: from `u`, the session of the CID and the TID is replaced. -/
structure AddbaApplied (u : Wil) (req : WilPendingBack) (w : BackWait)
    (p : Wil × List DrvEvent) : Prop where
  session : ∃ r, (p.1.sta w.cid).tidRx w.tid = some r ∧
    r.bufSize = min 16 (wilGetBits req.baParamSet.toNat 6 15) ∧
    r.headSeqNum = req.baSeqCtrl.toNat / 16 ∧ r.ssn = req.baSeqCtrl.toNat / 16
  /-- The frames of the replaced session are handed over, each once. -/
  delivered : (handedOver (rxEvents p.2)).Perm (sessionFrames ((u.sta w.cid).tidRx w.tid)) ∧
    freed (rxEvents p.2) = []
  others : ∀ c i, ¬ (c = w.cid ∧ i = w.tid) → (p.1.sta c).tidRx i = (u.sta c).tidRx i

variable {s u : Wil} {req : WilPendingBack} {w : BackWait} {cmd : WmiRcpAddbaRespCmd}

/-- The first half asks the firmware where the station is connected. -/
lemma wilBackHandleBegin_cases (s : Wil) (req : WilPendingBack) :
    (¬ req.Connected s ∧ wilBackHandleBegin s req = none) ∨
      ∃ w cmd, wilBackHandleBegin s req = some (w, cmd) ∧ AddbaAnswered req w cmd := by
  have hcid : (parseCidxtid req.cidxtid).1 = req.cidxtid.toNat &&& 0xf := rfl
  rw [wilBackHandleBegin]
  split_ifs with hlt hstatus
  · refine .inl ⟨?_, rfl⟩
    rintro ⟨cid, heq, hconnected⟩
    exact hstatus ((Fin.ext heq : cid = ⟨_, hlt⟩) ▸ hconnected)
  · right
    have hsize : req.aggWsize ≤ 16 := Nat.min_le_left _ _
    obtain ⟨htid, himm, hwin⟩ := wilGetBits_addbaResp (parseCidxtid req.cidxtid).1
      req.dialogToken.toNat 0 req.baTimeout.toNat (parseCidxtid req.cidxtid).2 hsize
    have hshift : (parseCidxtid req.cidxtid).2.val = req.cidxtid.toNat >>> 4 := by
      have hbyte := req.cidxtid.toNat_lt
      have hlow : req.cidxtid.toNat >>> 4 &&& 0xf = req.cidxtid.toNat >>> 4 := by
        rw [show (0xf : ℕ) = 2 ^ 4 - 1 from rfl, Nat.and_two_pow_sub_one_eq_mod,
          Nat.shiftRight_eq_div_pow]
        omega
      show (req.cidxtid.toNat >>> 4 &&& 0xf) % 16 = _
      rw [hlow, Nat.shiftRight_eq_div_pow]
      omega
    exact ⟨_, _, rfl, rfl, rfl, hshift, mkCidxtid_parseCidxtid _, rfl, rfl, htid, himm, hwin⟩
  · refine .inl ⟨?_, rfl⟩
    rintro ⟨cid, heq, -⟩
    exact hlt (hcid ▸ heq ▸ cid.isLt)

/-- The second half, where the firmware accepts. -/
lemma wilBackHandleEnd_applied (h : SessionsOk u) (w : BackWait) {reply : AddbaReply}
    (hreply : reply.result = 0) : AddbaApplied u w.req w (wilBackHandleEnd u w reply true) := by
  have hend : wilBackHandleEnd u w reply true = (u.setTidRx w.cid w.tid
      (wilTidAmpduRxAlloc true w.req.aggWsize (w.req.baSeqCtrl.toNat >>> 4)),
      (wilTidAmpduRxFree ((u.sta w.cid).tidRx w.tid)).map DrvEvent.rx) := by
    rw [wilBackHandleEnd, if_neg (not_not.mpr hreply)]
  have hssn : u16 (w.req.baSeqCtrl.toNat >>> 4) = w.req.baSeqCtrl.toNat / 16 := by
    have hlt := w.req.ssn_lt
    rw [u16, Nat.mod_eq_of_lt (by omega), Nat.shiftRight_eq_div_pow]
  have hsize : u16 w.req.aggWsize = w.req.aggWsize :=
    Nat.mod_eq_of_lt (lt_of_le_of_lt (Nat.min_le_left _ _) (by decide))
  rw [hend]
  refine ⟨?_, ?_, fun c i hci => ?_⟩
  · rw [tidRx_setTidRx, if_pos ⟨rfl, rfl⟩]
    exact ⟨_, rfl, hsize, hssn, hssn⟩
  · rw [rxEvents_map_rx]
    exact h.flushed w.cid w.tid
  · rw [tidRx_setTidRx, if_neg hci]

/-- **What an ADDBA request comes to.**  In every state `s` in which `wil_back_handle` takes it up,
and in every state `u` in which the firmware answers: the station is not connected, and nothing is
done; or the peer is told the TID, immediate acknowledgment and the window, and then either the
firmware rejects the response, and nothing is done, or the session is replaced by one with that
window. -/
theorem addba_agreed {iftype : Iftype} {devAddr : Option MacAddr} {s u : BackSys}
    {as bs : List BackAction}
    (hs : Machine.Exec BackSys.step (fun _ _ => True) (BackSys.init iftype devAddr) as s)
    (hu : Machine.Exec BackSys.step (fun _ _ => True) s bs u) (req : WilPendingBack)
    (reply : AddbaReply) :
    (¬ req.Connected s.conn.wil ∧ wilBackHandleBegin s.conn.wil req = none ∧
      wilBackHandle s.conn.wil req reply true = (s.conn.wil, none, [])) ∨
    ∃ w cmd, wilBackHandleBegin s.conn.wil req = some (w, cmd) ∧
      wilBackHandle s.conn.wil req reply true
        = ((wilBackHandleEnd s.conn.wil w reply true).1, some cmd,
            (wilBackHandleEnd s.conn.wil w reply true).2) ∧
      AddbaAnswered req w cmd ∧
      ((reply.result ≠ 0 ∧ wilBackHandleEnd u.conn.wil w reply true = (u.conn.wil, [])) ∨
        (reply.result = 0 ∧
          AddbaApplied u.conn.wil req w (wilBackHandleEnd u.conn.wil w reply true))) := by
  have hsessions : SessionsOk u.conn.wil :=
    sessionsOk_run (sessionsOk_run (sessionsOk_init iftype devAddr) hs) hu
  rcases wilBackHandleBegin_cases s.conn.wil req with ⟨hout, hnone⟩ | ⟨w, cmd, hbegin, hanswer⟩
  · exact .inl ⟨hout, hnone, by rw [wilBackHandle, hnone]⟩
  · refine .inr ⟨w, cmd, hbegin, wilBackHandle_of_begin hbegin reply true, hanswer, ?_⟩
    by_cases hreply : reply.result = 0
    · obtain rfl := hanswer.req_eq
      exact .inr ⟨hreply, wilBackHandleEnd_applied hsessions w hreply⟩
    · exact .inl ⟨hreply, by rw [wilBackHandleEnd, if_pos hreply]⟩

/-- A session of 16 frames holds a frame when the peer asks for one of 2. -/
theorem addba_agreed_again :
    ∃ (s : BackSys) (w : BackWait) (cmd : WmiRcpAddbaRespCmd),
      wilBackHandleBegin s.conn.wil ⟨0x30, 2, 0x0082, 0, 0x100⟩ = some (w, cmd) ∧
        wilGetBits cmd.baParamSet 6 15 = 2 ∧
        (handedOver (rxEvents (wilBackHandleEnd s.conn.wil w ⟨0, 0⟩ true).2)).length = 1 := by
  have hrun : (Machine.exec BackSys.step (fun _ _ => True) (BackSys.init .ap (some 1))
      (askForSession 0x1002 ++ [.rx ⟨⟨3 ||| (1 <<< 16)⟩, []⟩])).map
        (fun s => ((wilBackHandleBegin s.conn.wil ⟨0x30, 2, 0x0082, 0, 0x100⟩).map Prod.fst,
          (sessionFrames ((s.conn.wil.sta 0).tidRx 3)).length))
      = some (some ⟨0, 3, ⟨0x30, 2, 0x0082, 0, 0x100⟩⟩, 1) := by
    decide +kernel
  obtain ⟨s, hs, hend⟩ := Option.map_eq_some_iff.mp hrun
  simp only [Prod.mk.injEq] at hend
  obtain ⟨hwait, hlength⟩ := hend
  have hstay : Machine.Exec BackSys.step (fun _ _ => True) s [] s := rfl
  rcases addba_agreed (.of_exec hs) hstay ⟨0x30, 2, 0x0082, 0, 0x100⟩ ⟨0, 0⟩ with
    ⟨-, hnone, -⟩ | ⟨w, cmd, hbegin, -, hanswer, ⟨hbad, -⟩ | ⟨-, happlied⟩⟩
  · rw [hnone] at hwait
    exact absurd hwait (by simp)
  · exact absurd rfl hbad
  · refine ⟨s, w, cmd, hbegin, hanswer.window, ?_⟩
    rw [hbegin] at hwait
    obtain rfl : w = _ := Option.some.inj hwait
    rw [happlied.delivered.1.length_eq, hlength]

end Wil6210
