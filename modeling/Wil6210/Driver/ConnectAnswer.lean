import Wil6210.Driver.ConnectCall
import Wil6210.Driver.Connect
import Wil6210.Lib.Machine

/-!
# How a connect call is answered

A connect call that returns 0 is answered later: by the CONNECT event, where the driver disconnects,
or by `disconnect_worker`, which `connect_timer` queues after two seconds.  `AnswerSys` is
the driver, in client mode, with the timer and the work item; whatever else it does leaves
`sme_state` alone (`other`).

`connectAnswered_run` says that each call is answered, and once, where cfg80211 takes an answer up
before the driver makes the next one.  It does not say that the answer is meant for the call:
`wil6210_disconnect` stops the timer, and not the work that the timer has queued
(`not_timely_run`).

A call is one step.  Left out is an earlier timer that runs out inside it, where cfg80211 has set
`sme_state` and the call has not come to `mod_timer`.
-/

namespace Wil6210

/-! ## The machine -/

structure AnswerSys where
  wil : Wil
  /-- what the connect call reads and writes besides -/
  cfg : CfgWil
  /-- `connect_timer` is armed. -/
  timer : Bool
  /-- `disconnect_worker` is queued. -/
  work : Bool
  /-- A connect call returned 0, and cfg80211 did not give up. -/
  asked : Bool
  /-- the connect results that were reported since -/
  results : ℕ

inductive AnswerAction
  /-- cfg80211 calls `wil_cfg80211_connect`. -/
  | call (usePcpForAp : Bool) (sme : Cfg80211ConnectParams) (o : ConnectOutcome)
  /-- cfg80211 disconnects while it waits, and calls `wil_cfg80211_disconnect`. -/
  | giveUp
  /-- cfg80211 takes up what was reported to it. -/
  | took (st : SmeState)
  | connect (evt : WmiConnectEvent) (len : ℕ)
  | disconnect (bssid : MacAddr)
  /-- `wil_cfg80211_del_station` -/
  | delStation (mac : MacAddr)
  /-- What `__wil_down` does to the connection. -/
  | down
  /-- What `wil_reset` does to it; it cancels the work. -/
  | reset
  /-- `wil_connect_timer_fn` -/
  | timeout
  | disconnectWorker
  | other (w : Wil)

/-- The event answers a connect call. -/
def DrvEvent.answers : DrvEvent → Bool
  | .cfg80211ConnectResult _ _ _ _ => true
  | _ => false

/-- The event stops the timer. -/
def DrvEvent.stopsTimer : DrvEvent → Bool
  | .delTimerSync => true
  | _ => false

namespace AnswerSys

/-- The driver did this. -/
def did (s : AnswerSys) (p : Wil × List DrvEvent) : AnswerSys :=
  { s with
    wil := p.1
    timer := s.timer && !p.2.any DrvEvent.stopsTimer
    results := s.results + p.2.countP DrvEvent.answers }

/-- A connect call; cfg80211 is connecting, and takes that back where the call fails. -/
def call (s : AnswerSys) (usePcpForAp : Bool) (sme : Cfg80211ConnectParams) (o : ConnectOutcome) :
    AnswerSys :=
  let p := wilCfg80211Connect usePcpForAp
    { s.cfg with iftype := s.wil.iftype, dontscan := s.wil.dontscan } sme o
  if p.2.1 = 0 then
    { wil := { s.wil with dontscan := p.1.dontscan, smeState := .connecting }
      cfg := p.1
      timer := s.timer || decide (.modTimer 2000 ∈ p.2.2)
      work := s.work
      asked := true
      results := 0 }
  else { s with wil := { s.wil with dontscan := p.1.dontscan }, cfg := p.1 }

/-- One step. -/
def step (s : AnswerSys) : AnswerAction → Option AnswerSys
  | .call usePcpForAp sme o =>
      if s.wil.smeState = .idle then some (s.call usePcpForAp sme o) else none
  | .giveUp =>
      if s.wil.smeState = .connecting then
        some { s with wil := { s.wil with smeState := .idle }, asked := false }
      else none
  | .took st => some { s with wil := { s.wil with smeState := st } }
  | .connect evt len => some (s.did (wmiEvtConnect s.wil evt len))
  | .disconnect bssid => some (s.did (wmiEvtDisconnect s.wil bssid))
  | .delStation mac => some (s.did (wil6210Disconnect s.wil (some mac)))
  | .down => some (s.did (wil6210Disconnect s.wil none))
  | .reset => some ({ s with work := false }.did (wil6210Disconnect s.wil none))
  | .timeout => if s.timer then some { s with timer := false, work := true } else none
  | .disconnectWorker =>
      if s.work then some ({ s with work := false }.did (wilDisconnectWorker s.wil)) else none
  | .other w =>
      if w.iftype = s.wil.iftype ∧ w.smeState = s.wil.smeState then some { s with wil := w }
      else none

/-- Nothing was asked for. -/
def init (iftype : Iftype) (devAddr : Option MacAddr) (cfg : CfgWil) : AnswerSys :=
  ⟨wilPrivInit iftype devAddr, cfg, false, false, false, 0⟩

/-- What was reported is taken up. -/
def TakenUp (s : AnswerSys) : Prop := 0 < s.results → s.wil.smeState ≠ .connecting

/-- **What cfg80211 keeps to**: it leaves the state in which it waits only for an answer, or because
it gives up, and it takes up an answer before the next one is made.  The BSS of a call is what
`cfg80211_get_bss` finds. -/
def Kept (s : AnswerSys) : AnswerAction → Prop
  | .call _ sme _ => sme.EssFound
  | .took st => st ≠ .connecting ∧ (s.asked = true → 0 < s.results)
  | .connect _ _ | .disconnect _ | .delStation _ | .down | .reset | .disconnectWorker => s.TakenUp
  | .giveUp | .timeout | .other _ => True

instance (s : AnswerSys) : Decidable s.TakenUp := inferInstanceAs (Decidable (_ → _))

instance (s : AnswerSys) : (a : AnswerAction) → Decidable (s.Kept a)
  | .call _ sme _ => inferInstanceAs (Decidable sme.EssFound)
  | .took _ => inferInstanceAs (Decidable (_ ∧ (_ → _)))
  | .connect _ _ | .disconnect _ | .delStation _ | .down | .reset | .disconnectWorker =>
      inferInstanceAs (Decidable s.TakenUp)
  | .giveUp | .timeout | .other _ => inferInstanceAs (Decidable True)

/-- No timeout of an earlier call is on its way where a call is made. -/
def Fresh (s : AnswerSys) : AnswerAction → Prop
  | .call _ _ _ => s.work = false
  | _ => True

instance (s : AnswerSys) : (a : AnswerAction) → Decidable (s.Fresh a)
  | .call _ _ _ => inferInstanceAs (Decidable (_ = _))
  | .giveUp | .took _ | .connect _ _ | .disconnect _ | .delStation _ | .down | .reset
  | .timeout | .disconnectWorker | .other _ => inferInstanceAs (Decidable True)

end AnswerSys

/-! ## What the functions report -/

section Reports

variable {w : Wil}

/-- Neither an answer, nor does it stop the timer. -/
def DrvEvent.Aside (e : DrvEvent) : Prop := e.answers = false ∧ e.stopsTimer = false

lemma aside_wilDisconnectCid (w : Wil) (cid : Cid) : ∀ e ∈ (wilDisconnectCid w cid).2, e.Aside := by
  intro e he
  simp only [wilDisconnectCid, List.mem_append, List.mem_flatMap, List.mem_map] at he
  rcases he with (he | ⟨i, -, r, -, rfl⟩) | ⟨i, -, he⟩
  · split_ifs at he
    · obtain rfl := List.mem_singleton.mp he
      exact ⟨rfl, rfl⟩
    · exact absurd he List.not_mem_nil
  · exact ⟨rfl, rfl⟩
  · split_ifs at he
    · obtain ⟨r, -, rfl⟩ := List.mem_map.mp he
      exact ⟨rfl, rfl⟩
    · exact absurd he List.not_mem_nil

/-- Taking stations down answers nothing. -/
lemma aside_disconnectStations (w : Wil) (bssid : Option MacAddr) :
    (∀ e ∈ (disconnectStations w bssid).2, e.Aside) ∧
      (disconnectStations w bssid).1.iftype = w.iftype ∧
      (disconnectStations w bssid).1.smeState = w.smeState := by
  have hrun : ∀ (cids : List Cid) (w : Wil),
      (∀ e ∈ (Machine.run wilDisconnectCid w cids).2, e.Aside) ∧
        (Machine.run wilDisconnectCid w cids).1.iftype = w.iftype ∧
        (Machine.run wilDisconnectCid w cids).1.smeState = w.smeState := by
    intro cids
    induction cids with
    | nil => exact fun w => ⟨fun e he => absurd he List.not_mem_nil, rfl, rfl⟩
    | cons cid cids ih =>
        intro w
        obtain ⟨haside, htype, hsme⟩ := ih (wilDisconnectCid w cid).1
        rw [Machine.run_cons]
        refine ⟨fun e he => ?_, htype, hsme⟩
        rcases List.mem_append.mp he with he | he
        · exact aside_wilDisconnectCid w cid e he
        · exact haside e he
  simp only [disconnectStations]
  cases bssid.bind (wilFindCid w) with
  | some cid => exact ⟨aside_wilDisconnectCid w cid, rfl, rfl⟩
  | none =>
      dsimp only
      split_ifs
      · exact hrun _ w
      · exact ⟨fun e he => absurd he List.not_mem_nil, rfl, rfl⟩
      · exact ⟨fun e he => absurd he List.not_mem_nil, rfl, rfl⟩

lemma countP_aside {es : List DrvEvent} (h : ∀ e ∈ es, e.Aside) :
    es.countP DrvEvent.answers = 0 ∧ es.any DrvEvent.stopsTimer = false := by
  refine ⟨List.countP_eq_zero.mpr fun e he => ?_, List.any_eq_false.mpr fun e he => ?_⟩
  · simp [(h e he).1]
  · simp [(h e he).2]

/-- In client mode the link state is an answer where cfg80211 waits for one. -/
lemma disconnectLink_answers (hclient : w.iftype.client = true) (bssid : Option MacAddr) :
    (disconnectLink w bssid).1.iftype = w.iftype ∧
      (disconnectLink w bssid).1.smeState = w.smeState ∧
      (disconnectLink w bssid).2.countP DrvEvent.answers
        = (if w.smeState = .connecting then 1 else 0) ∧
      (disconnectLink w bssid).2.any DrvEvent.stopsTimer = false := by
  cases htype : w.iftype <;> rw [htype] at hclient <;>
    first
    | exact absurd hclient Bool.false_ne_true
    | cases hsme : w.smeState <;> simp [disconnectLink, htype, hsme, DrvEvent.answers,
        DrvEvent.stopsTimer]

/-- `wil6210_disconnect` stops the timer, and answers where cfg80211 waits. -/
lemma wil6210Disconnect_answers (hclient : w.iftype.client = true) (bssid : Option MacAddr) :
    (wil6210Disconnect w bssid).1.iftype = w.iftype ∧
      (wil6210Disconnect w bssid).1.smeState = w.smeState ∧
      (wil6210Disconnect w bssid).2.countP DrvEvent.answers
        = (if w.smeState = .connecting then 1 else 0) ∧
      (wil6210Disconnect w bssid).2.any DrvEvent.stopsTimer = true := by
  obtain ⟨haside, htype, hsme⟩ := aside_disconnectStations w bssid
  obtain ⟨htype', hsme', hcount, -⟩ := disconnectLink_answers
    (w := (disconnectStations w bssid).1) (by rw [htype]; exact hclient) bssid
  refine ⟨htype'.trans htype, hsme'.trans hsme, ?_, rfl⟩
  simp only [wil6210Disconnect, List.cons_append, List.countP_cons, List.countP_append, hcount,
    (countP_aside haside).1, hsme]
  simp [DrvEvent.answers]

/-- So does `disconnect_worker`, without the timer. -/
lemma wilDisconnectWorker_answers (hclient : w.iftype.client = true) :
    (wilDisconnectWorker w).1.iftype = w.iftype ∧ (wilDisconnectWorker w).1.smeState = w.smeState ∧
      (wilDisconnectWorker w).2.countP DrvEvent.answers
        = (if w.smeState = .connecting then 1 else 0) ∧
      (wilDisconnectWorker w).2.any DrvEvent.stopsTimer = false := by
  obtain ⟨haside, htype, hsme⟩ := aside_disconnectStations w none
  obtain ⟨htype', hsme', hcount, hstop⟩ :=
    disconnectLink_answers (w := (disconnectStations w none).1) (by rw [htype]; exact hclient) none
  refine ⟨htype'.trans htype, hsme'.trans hsme, ?_, ?_⟩
  · simp only [wilDisconnectWorker, List.countP_append, hcount, (countP_aside haside).1, hsme,
      Nat.zero_add]
  · simp only [wilDisconnectWorker, List.any_append, hstop, (countP_aside haside).2, Bool.or_false]

/-- A CONNECT event is an answer, or is not accepted. -/
lemma wmiEvtConnect_answers (hclient : w.iftype.client = true) (evt : WmiConnectEvent) (len : ℕ) :
    (wmiEvtConnect w evt len).1.iftype = w.iftype ∧
      (wmiEvtConnect w evt len).1.smeState = w.smeState ∧
      ((wmiEvtConnect w evt len).2 = [] ∨
        w.smeState = .connecting ∧ (wmiEvtConnect w evt len).2.countP DrvEvent.answers = 1 ∧
          (wmiEvtConnect w evt len).2.any DrvEvent.stopsTimer = true) := by
  rw [wmiEvtConnect]
  cases haccept : connectAccepts w evt len with
  | none => exact ⟨rfl, rfl, .inl rfl⟩
  | some cid =>
      refine ⟨rfl, rfl, .inr ?_⟩
      have hsme : w.smeState = .connecting := by
        by_contra hno
        have hmode : w.iftype = .station ∨ w.iftype = .p2pClient := by
          cases htype : w.iftype <;> rw [htype] at hclient <;> simp [Iftype.client] at hclient ⊢
        rw [connectAccepts] at haccept
        split_ifs at haccept with _ _ _ hwait
        exact hwait ⟨hmode, hno⟩
      refine ⟨hsme, ?_⟩
      cases htype : w.iftype <;> rw [htype] at hclient <;>
        first
        | exact absurd hclient Bool.false_ne_true
        | simp only [connectReport, htype]
          exact ⟨rfl, rfl⟩

/-- What a connect call that returns 0 has done: it armed the timer. -/
lemma wilCfg80211Connect_armed {usePcpForAp : Bool} {cfg : CfgWil} {sme : Cfg80211ConnectParams}
    {o : ConnectOutcome} (hfound : sme.EssFound)
    (hrc : (wilCfg80211Connect usePcpForAp cfg sme o).2.1 = 0) :
    .modTimer 2000 ∈ (wilCfg80211Connect usePcpForAp cfg sme o).2.2 := by
  rcases wilCfg80211Connect_cases usePcpForAp cfg sme o with
    ⟨rc, es, hne, -, heq⟩ | ⟨bss, ssid, es, hreach, hes, heq⟩
  · rw [heq] at hrc
    exact absurd hrc hne
  · rw [heq] at hrc ⊢
    exact ((connectUnderWay_connectTail usePcpForAp cfg sme bss ssid o.connect es hes).mpr
      (hfound.dmgType_ne hreach.1)).armed hrc

end Reports

/-! ## The invariant -/

/-- A call is under way where cfg80211 waits, and then the timer or the work will answer it. -/
structure AnswerInv (s : AnswerSys) : Prop where
  client : s.wil.iftype.client = true
  asking : s.wil.smeState = .connecting → s.asked = true
  waits : s.asked = true → s.results = 0 →
    s.wil.smeState = .connecting ∧ (s.timer = true ∨ s.work = true)
  once : s.results ≤ 1

/-- A timeout on its way is that of the call under way. -/
def AnswerSys.OwnTimeout (s : AnswerSys) : Prop :=
  s.asked = true → s.work = true → s.timer = false

section Steps

open AnswerSys

variable {s t : AnswerSys} {p : Wil × List DrvEvent}

/-- What the driver reports, where what it reported before was taken up. -/
lemma AnswerInv.did (h : AnswerInv s) (htaken : s.TakenUp) (htype : p.1.iftype = s.wil.iftype)
    (hsme : p.1.smeState = s.wil.smeState)
    (hcount : p.2 = [] ∨ p.2.countP DrvEvent.answers
      = if s.wil.smeState = .connecting then 1 else 0) : AnswerInv (s.did p) := by
  have hclient : p.1.iftype.client = true := by
    rw [htype]
    exact h.client
  have hasking : p.1.smeState = .connecting → s.asked = true := by
    rw [hsme]
    exact h.asking
  rcases hcount with hnil | hcount
  · refine ⟨hclient, hasking, fun hasked hresults => ?_, ?_⟩
    · simp only [AnswerSys.did, hnil, List.countP_nil, Nat.add_zero] at hresults
      simp only [AnswerSys.did, hnil, List.any_nil, Bool.not_false, Bool.and_true, hsme]
      exact h.waits hasked hresults
    · simp only [AnswerSys.did, hnil, List.countP_nil, Nat.add_zero]
      exact h.once
  by_cases hwait : s.wil.smeState = .connecting
  · -- the answer
    have hzero : s.results = 0 := Nat.eq_zero_of_not_pos fun hpos => htaken hpos hwait
    rw [if_pos hwait] at hcount
    refine ⟨hclient, hasking, fun _ hresults => ?_, ?_⟩
    · simp only [AnswerSys.did, hcount] at hresults
      exact absurd hresults (Nat.succ_ne_zero _)
    · simp only [AnswerSys.did, hcount, hzero]
      exact le_refl 1
  · rw [if_neg hwait] at hcount
    refine ⟨hclient, hasking, fun hasked hresults => ?_, ?_⟩
    · simp only [AnswerSys.did, hcount, Nat.add_zero] at hresults
      exact absurd (h.waits hasked hresults).1 hwait
    · simp only [AnswerSys.did, hcount, Nat.add_zero]
      exact h.once

/-- A connect call. -/
lemma AnswerInv.call (h : AnswerInv s) {usePcpForAp : Bool} {sme : Cfg80211ConnectParams}
    {o : ConnectOutcome} (hidle : s.wil.smeState = .idle)
    (hfound : sme.EssFound) :
    AnswerInv (s.call usePcpForAp sme o) := by
  rw [AnswerSys.call]
  dsimp only
  split_ifs with hrc
  · have harmed := wilCfg80211Connect_armed hfound hrc
    refine ⟨h.client, fun _ => rfl, fun _ _ => ⟨rfl, .inl ?_⟩, Nat.zero_le 1⟩
    simp only [harmed, decide_true, Bool.or_true]
  · refine ⟨h.client, fun hwait => ?_, fun hasked hresults => ?_, h.once⟩
    · exact h.asking hwait
    · exact absurd ((h.waits hasked hresults).1.symm.trans hidle) (by decide)

/-- **Every step keeps the invariant**, where cfg80211 keeps to its part. -/
lemma answerInv_step {a : AnswerAction} (h : AnswerInv s) (hkept : s.Kept a)
    (ht : s.step a = some t) : AnswerInv t := by
  cases a with
  | call usePcpForAp sme o =>
      obtain ⟨hidle, ht⟩ := Option.ite_none_right_eq_some.mp ht
      obtain rfl := Option.some.inj ht
      exact h.call hidle hkept
  | giveUp =>
      obtain ⟨-, ht⟩ := Option.ite_none_right_eq_some.mp ht
      obtain rfl := Option.some.inj ht
      exact ⟨h.client, fun hwait => SmeState.noConfusion hwait,
        fun hasked => absurd hasked Bool.false_ne_true, h.once⟩
  | took st =>
      obtain rfl := Option.some.inj ht
      refine ⟨h.client, fun hwait => absurd hwait hkept.1, fun hasked hresults => ?_, h.once⟩
      exact absurd hresults (hkept.2 hasked).ne'
  | connect evt len =>
      obtain rfl := Option.some.inj ht
      obtain ⟨htype, hsme, hreport⟩ := wmiEvtConnect_answers h.client evt len
      refine h.did hkept htype hsme (hreport.imp_right ?_)
      rintro ⟨hwait, hcount, -⟩
      rw [hcount, if_pos hwait]
  | disconnect bssid =>
      obtain rfl := Option.some.inj ht
      obtain ⟨htype, hsme, hcount, -⟩ := wil6210Disconnect_answers
        (w := { s.wil with sinfoGen := s.wil.sinfoGen + 1 }) h.client (some bssid)
      exact h.did hkept htype hsme (.inr hcount)
  | delStation mac =>
      obtain rfl := Option.some.inj ht
      obtain ⟨htype, hsme, hcount, -⟩ := wil6210Disconnect_answers h.client (some mac)
      exact h.did hkept htype hsme (.inr hcount)
  | down =>
      obtain rfl := Option.some.inj ht
      obtain ⟨htype, hsme, hcount, -⟩ := wil6210Disconnect_answers h.client none
      exact h.did hkept htype hsme (.inr hcount)
  | reset =>
      obtain rfl := Option.some.inj ht
      obtain ⟨htype, hsme, hcount, hstop⟩ := wil6210Disconnect_answers h.client none
      have hdid := h.did hkept htype hsme (.inr hcount)
      -- the work is cancelled; there is no timer to queue it again
      refine ⟨hdid.client, hdid.asking, fun hasked hresults => ?_, hdid.once⟩
      have hwait := (h.waits hasked (Nat.eq_zero_of_add_eq_zero_right hresults)).1
      simp only [AnswerSys.did, hcount, if_pos hwait] at hresults
      exact absurd hresults (Nat.succ_ne_zero _)
  | timeout =>
      obtain ⟨-, ht⟩ := Option.ite_none_right_eq_some.mp ht
      obtain rfl := Option.some.inj ht
      exact ⟨h.client, h.asking,
        fun hasked hresults => ⟨(h.waits hasked hresults).1, .inr rfl⟩, h.once⟩
  | disconnectWorker =>
      obtain ⟨-, ht⟩ := Option.ite_none_right_eq_some.mp ht
      obtain rfl := Option.some.inj ht
      obtain ⟨htype, hsme, hcount, -⟩ := wilDisconnectWorker_answers h.client
      have hdid := h.did hkept htype hsme (.inr hcount)
      refine ⟨hdid.client, hdid.asking, fun hasked hresults => ?_, hdid.once⟩
      have hwait := (h.waits hasked (Nat.eq_zero_of_add_eq_zero_right hresults)).1
      simp only [AnswerSys.did, hcount, if_pos hwait] at hresults
      exact absurd hresults (Nat.succ_ne_zero _)
  | other w =>
      obtain ⟨hsame, ht⟩ := Option.ite_none_right_eq_some.mp ht
      obtain rfl := Option.some.inj ht
      refine ⟨?_, fun hwait => h.asking (hsame.2.symm.trans hwait), fun hasked hresults => ?_,
        h.once⟩
      · simp only [hsame.1]
        exact h.client
      · simp only [hsame.2]
        exact h.waits hasked hresults

/-- Every step keeps the timeouts apart, where none is on its way at a call. -/
lemma ownTimeout_step {a : AnswerAction} (h : s.OwnTimeout) (hfresh : s.Fresh a)
    (ht : s.step a = some t) : t.OwnTimeout := by
  cases a with
  | call usePcpForAp sme o =>
      simp only [step, AnswerSys.call] at ht
      split_ifs at ht <;> obtain rfl := Option.some.inj ht
      · exact fun _ hwork => absurd (hfresh.symm.trans hwork) Bool.false_ne_true
      · exact h
  | giveUp =>
      obtain ⟨-, ht⟩ := Option.ite_none_right_eq_some.mp ht
      obtain rfl := Option.some.inj ht
      exact fun hasked => absurd hasked Bool.false_ne_true
  | took st =>
      obtain rfl := Option.some.inj ht
      exact h
  | connect | disconnect | delStation | down =>
      obtain rfl := Option.some.inj ht
      intro hasked hwork
      simp only [AnswerSys.did, h hasked hwork, Bool.false_and]
  | reset =>
      obtain rfl := Option.some.inj ht
      exact fun _ hwork => absurd hwork Bool.false_ne_true
  | timeout =>
      obtain ⟨-, ht⟩ := Option.ite_none_right_eq_some.mp ht
      obtain rfl := Option.some.inj ht
      exact fun _ _ => rfl
  | disconnectWorker =>
      obtain ⟨-, ht⟩ := Option.ite_none_right_eq_some.mp ht
      obtain rfl := Option.some.inj ht
      exact fun _ hwork => absurd hwork Bool.false_ne_true
  | other w =>
      obtain ⟨-, ht⟩ := Option.ite_none_right_eq_some.mp ht
      obtain rfl := Option.some.inj ht
      exact h

/-- A step reports an answer where cfg80211 waits for one. -/
lemma connecting_of_answer {a : AnswerAction} (h : AnswerInv s) (ht : s.step a = some t)
    (hmore : s.results < t.results) : s.wil.smeState = .connecting := by
  have hdid : ∀ p : Wil × List DrvEvent, s.results < s.results + p.2.countP DrvEvent.answers →
      p.2.countP DrvEvent.answers = (if s.wil.smeState = .connecting then 1 else 0) →
      s.wil.smeState = .connecting := by
    intro p hlt hcount
    by_contra hno
    rw [hcount, if_neg hno] at hlt
    exact absurd hlt (Nat.lt_irrefl _)
  cases a with
  | call usePcpForAp sme o =>
      simp only [step, AnswerSys.call] at ht
      split_ifs at ht <;> obtain rfl := Option.some.inj ht
      · exact absurd hmore (Nat.not_lt_zero _)
      · exact absurd hmore (Nat.lt_irrefl _)
  | took st =>
      obtain rfl := Option.some.inj ht
      exact absurd hmore (Nat.lt_irrefl _)
  | giveUp | timeout | other =>
      obtain ⟨-, ht⟩ := Option.ite_none_right_eq_some.mp ht
      obtain rfl := Option.some.inj ht
      exact absurd hmore (Nat.lt_irrefl _)
  | connect evt len =>
      obtain rfl := Option.some.inj ht
      obtain ⟨-, -, hnil | ⟨hwait, -⟩⟩ := wmiEvtConnect_answers h.client evt len
      · simp only [AnswerSys.did, hnil, List.countP_nil, Nat.add_zero] at hmore
        exact absurd hmore (Nat.lt_irrefl _)
      · exact hwait
  | disconnect bssid =>
      obtain rfl := Option.some.inj ht
      exact hdid _ hmore (wil6210Disconnect_answers
        (w := { s.wil with sinfoGen := s.wil.sinfoGen + 1 }) h.client (some bssid)).2.2.1
  | delStation mac =>
      obtain rfl := Option.some.inj ht
      exact hdid _ hmore (wil6210Disconnect_answers h.client (some mac)).2.2.1
  | down | reset =>
      obtain rfl := Option.some.inj ht
      exact hdid _ hmore (wil6210Disconnect_answers h.client none).2.2.1
  | disconnectWorker =>
      obtain ⟨-, ht⟩ := Option.ite_none_right_eq_some.mp ht
      obtain rfl := Option.some.inj ht
      exact hdid _ hmore (wilDisconnectWorker_answers h.client).2.2.1

/-- The work alone answers, where it is queued. -/
lemma AnswerInv.worker (h : AnswerInv s) (hresults : s.results = 0)
    (hwait : s.wil.smeState = .connecting) (hwork : s.work = true) :
    ∃ t, Machine.Exec step Kept s [.disconnectWorker] t ∧ t.results = 1 := by
  have htaken : s.Kept .disconnectWorker := fun hpos => absurd hresults hpos.ne'
  refine ⟨_, ⟨htaken, _, if_pos hwork, rfl⟩, ?_⟩
  have hcount := (wilDisconnectWorker_answers h.client).2.2.1
  simp only [AnswerSys.did, hcount, if_pos hwait, hresults]

end Steps

/-! ## Every run -/

namespace AnswerSys

/-- What is said of every state on the way. -/
structure Answered (s : AnswerSys) : Prop where
  /-- There is no second answer. -/
  once : s.results ≤ 1
  /-- There is no answer without a call. -/
  asked : ∀ a t, s.step a = some t → s.results < t.results → s.asked = true
  /-- The timer and the work answer, if nobody else does. -/
  progress : s.asked = true → s.results = 0 → ∃ as t, Machine.Exec step Kept s as t ∧
    (as = [.disconnectWorker] ∨ as = [.timeout, .disconnectWorker]) ∧ t.results = 1

/-- The work does not answer a call whose time has not run out. -/
def Timely (s : AnswerSys) : Prop :=
  ∀ t, s.step .disconnectWorker = some t → s.results < t.results → s.timer = false

end AnswerSys

section Runs

open AnswerSys

variable {iftype : Iftype} {devAddr : Option MacAddr} {cfg : CfgWil} {as : List AnswerAction}
  {s : AnswerSys}

lemma answerInv_init (hclient : iftype.client = true) : AnswerInv (.init iftype devAddr cfg) :=
  ⟨hclient, fun hwait => SmeState.noConfusion hwait,
    fun hasked => absurd hasked Bool.false_ne_true, Nat.zero_le 1⟩

/-- **Every connect call is answered, and once.**  In every run in client mode in which cfg80211
keeps to its part, a call that returned 0 gets its answer by the timer and its work at the latest,
it gets no second one, and there is no answer without a call.  Where besides no call is made with an
earlier timeout on its way, no call is answered by the timeout of another. -/
theorem connectAnswered_run (hclient : iftype.client = true)
    (h : Machine.Exec step Kept (.init iftype devAddr cfg) as s) :
    s.Answered ∧ (Machine.Exec step Fresh (.init iftype devAddr cfg) as s → s.Timely) := by
  have hinv : AnswerInv s :=
    h.invariant (fun _ _ _ hkept ht hi => answerInv_step hi hkept ht) (answerInv_init hclient)
  refine ⟨⟨hinv.once, fun a t ht hmore => hinv.asking (connecting_of_answer hinv ht hmore),
    fun hasked hresults => ?_⟩, fun hfresh t ht hmore => ?_⟩
  · obtain ⟨hwait, htimer | hwork⟩ := hinv.waits hasked hresults
    · have hout : s.step .timeout = some { s with timer := false, work := true } := if_pos htimer
      have hinv' := answerInv_step hinv (a := .timeout) trivial hout
      obtain ⟨t, hexec, hone⟩ := hinv'.worker hresults hwait rfl
      exact ⟨[.timeout, .disconnectWorker], t, ⟨trivial, _, hout, hexec⟩, .inr rfl, hone⟩
    · obtain ⟨t, hexec, hone⟩ := hinv.worker hresults hwait hwork
      exact ⟨[.disconnectWorker], t, hexec, .inl rfl, hone⟩
  · have hown : s.OwnTimeout := hfresh.invariant
      (fun _ _ _ hfresh ht hi => ownTimeout_step hi hfresh ht)
      (fun hasked => absurd hasked Bool.false_ne_true)
    have hwork : s.work = true := by
      by_contra hno
      rw [step, if_neg hno] at ht
      exact absurd ht (Option.some_ne_none t).symm
    exact hown (hinv.asking (connecting_of_answer hinv ht hmore)) hwork

/-- A call for an AP. -/
def openBss : Cfg80211ConnectParams := ⟨some ⟨0x1, some [], 3, 2⟩, [], false⟩

/-- The first call times out, and so does the second, after the answer was taken up. -/
theorem connectAnswered_run_timeout : ∃ s : AnswerSys, s.Answered ∧ s.Timely ∧ s.asked = true ∧
    s.results = 0 ∧ s.work = true := by
  have hrun : (Machine.exec step (fun s a => s.Kept a ∧ s.Fresh a)
      (.init .station none (CfgSys.init .station).wil)
      [.call false openBss ⟨0, 0, 0⟩, .timeout, .disconnectWorker, .took .idle,
        .call false openBss ⟨0, 0, 0⟩, .timeout]).map (fun s => (s.asked, s.results, s.work))
      = some (true, 0, true) := by
    decide +kernel
  obtain ⟨s, hs, hend⟩ := Option.map_eq_some_iff.mp hrun
  simp only [Prod.mk.injEq] at hend
  have hexec := Machine.Exec.of_exec hs
  obtain ⟨hanswered, htimely⟩ := connectAnswered_run rfl (hexec.weaken fun _ _ h => h.1)
  exact ⟨s, hanswered, htimely (hexec.weaken fun _ _ h => h.2), hend⟩

/-- The timer has run out when the DISCONNECT event comes.  The event answers the first call, and
leaves the work queued, which answers the second call at once. -/
theorem not_timely_run : ¬ ∀ (as : List AnswerAction) (s : AnswerSys),
    Machine.Exec step Kept (.init .station none (CfgSys.init .station).wil) as s → s.Timely := by
  intro h
  have hrun : (Machine.exec step Kept (.init .station none (CfgSys.init .station).wil)
      [.call false openBss ⟨0, 0, 0⟩, .timeout, .disconnect 0x1, .took .idle,
        .call false openBss ⟨0, 0, 0⟩]).map
        (fun s => (s.timer, s.results, (s.step .disconnectWorker).map results))
      = some (true, 0, some 1) := by
    decide +kernel
  obtain ⟨s, hs, hend⟩ := Option.map_eq_some_iff.mp hrun
  simp only [Prod.mk.injEq] at hend
  obtain ⟨htimer, hresults, hworker⟩ := hend
  obtain ⟨t, ht, hone⟩ := Option.map_eq_some_iff.mp hworker
  have hstopped := h _ s (.of_exec hs) t ht (by rw [hresults, hone]; exact Nat.zero_lt_one)
  exact absurd (htimer.symm.trans hstopped) Bool.true_eq_false.mp

end Runs

end Wil6210
