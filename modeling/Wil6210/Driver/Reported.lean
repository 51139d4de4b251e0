import Wil6210.Driver.ConnectRun

/-!
# What cfg80211 was told

The driver reports a peer up where the CONNECT event is handled, and the worker finds out later
whether the ring can be configured.  `ReportSys` is `ConnSys` with the peers that were reported up
and not down since, as cfg80211 sees them.

`viewsAgree_run` says when both views agree: none of the steps takes a reported peer out of the
table of stations without a report.  Four of them can.  The worker does where `wil_vring_init_tx`
fails, which a DISCONNECT event would have reported; a CONNECT event does where its CID is taken; a
DISCONNECT event does in station mode while cfg80211 is not connected, and with the own address.
-/

namespace Wil6210

/-! ## Reports -/

/-- The peers that cfg80211 takes to be connected, after an event.  `cfg80211_disconnected` names
no peer: in station mode there is one connection. -/
def reportUp (up : List MacAddr) : DrvEvent → List MacAddr
  | .cfg80211ConnectResult (some bssid) _ _ true => bssid :: up
  | .cfg80211NewSta bssid _ _ => bssid :: up
  | .cfg80211Disconnected => []
  | .cfg80211DelSta bssid => up.filter (· ≠ bssid)
  | _ => up

/-- The event reports nothing. -/
def DrvEvent.Silent (e : DrvEvent) : Prop := ∀ up, reportUp up e = up

lemma foldl_reportUp_silent {es : List DrvEvent} (h : ∀ e ∈ es, e.Silent) (up : List MacAddr) :
    es.foldl reportUp up = up := by
  induction es with
  | nil => rfl
  | cons e es ih =>
      rw [List.foldl_cons, h e List.mem_cons_self]
      exact ih fun d hd => h d (List.mem_cons_of_mem _ hd)

lemma silent_wilDisconnectCid (s : Wil) (cid : Cid) :
    ∀ e ∈ (wilDisconnectCid s cid).2, e.Silent := by
  intro e he
  simp only [wilDisconnectCid, List.mem_append, List.mem_flatMap, List.mem_map] at he
  rcases he with (he | ⟨i, -, r, -, rfl⟩) | ⟨i, -, he⟩
  · split_ifs at he with hused
    · obtain rfl := List.mem_singleton.mp he
      exact fun _ => rfl
    · exact absurd he (by simp)
  · exact fun _ => rfl
  · split_ifs at he with howner
    · obtain ⟨r, -, rfl⟩ := List.mem_map.mp he
      exact fun _ => rfl
    · exact absurd he (by simp)

lemma silent_run (s : Wil) (cids : List Cid) :
    ∀ e ∈ (Machine.run wilDisconnectCid s cids).2, e.Silent := by
  induction cids generalizing s with
  | nil => simp
  | cons cid cids ih =>
      intro e he
      rw [Machine.run_cons] at he
      rcases List.mem_append.mp he with he | he
      · exact silent_wilDisconnectCid s cid e he
      · exact ih _ e he

/-- Taking stations down reports nothing, and leaves the mode and the state of cfg80211. -/
lemma disconnectStations_silent (s : Wil) (bssid : Option MacAddr) :
    (∀ e ∈ (disconnectStations s bssid).2, e.Silent) ∧
      (disconnectStations s bssid).1.iftype = s.iftype ∧
      (disconnectStations s bssid).1.smeState = s.smeState := by
  simp only [disconnectStations]
  cases bssid.bind (wilFindCid s) with
  | some cid => exact ⟨silent_wilDisconnectCid s cid, rfl, rfl⟩
  | none =>
      dsimp only
      split_ifs with hboth hown
      · exact ⟨silent_run s _, Machine.run_invariant (I := fun t : Wil =>
          t.iftype = s.iftype ∧ t.smeState = s.smeState) (fun _ _ h => h) ⟨rfl, rfl⟩ _⟩
      · exact ⟨by simp, rfl, rfl⟩
      · exact ⟨by simp, rfl, rfl⟩

/-- The modes in which the driver has one connection. -/
def Wil.StationMode (s : Wil) : Prop := s.iftype = .station ∨ s.iftype = .p2pClient

instance (s : Wil) : Decidable s.StationMode := inferInstanceAs (Decidable (_ ∨ _))

lemma reported_disconnectLink (s : Wil) (bssid : MacAddr) (up : List MacAddr) :
    (disconnectLink s (some bssid)).2.foldl reportUp up
      = if s.StationMode then (if s.smeState = .connected then [] else up)
        else up.filter (· ≠ bssid) := by
  cases hmode : s.iftype <;> cases hsme : s.smeState <;>
    simp [disconnectLink, Wil.StationMode, hmode, hsme, reportUp]

/-- What a DISCONNECT event reports. -/
lemma reported_wmiEvtDisconnect (s : Wil) (bssid : MacAddr) (up : List MacAddr) :
    (wmiEvtDisconnect s bssid).2.foldl reportUp up
      = if s.StationMode then (if s.smeState = .connected then [] else up)
        else up.filter (· ≠ bssid) := by
  obtain ⟨hsilent, hmode, hsme⟩ :=
    disconnectStations_silent { s with sinfoGen := s.sinfoGen + 1 } (some bssid)
  simp only [wmiEvtDisconnect, wil6210Disconnect, List.cons_append, List.foldl_cons,
    List.foldl_append]
  rw [show reportUp up .delTimerSync = up from rfl, foldl_reportUp_silent hsilent,
    reported_disconnectLink]
  simp only [Wil.StationMode, hmode, hsme]
  rfl

/-- What an accepted CONNECT event reports. -/
lemma reported_wmiEvtConnect {s : Wil} {evt : WmiConnectEvent} {len : ℕ} {cid : Cid}
    (h : connectAccepts s evt len = some cid) (up : List MacAddr) :
    (wmiEvtConnect s evt len).2.foldl reportUp up = evt.bssid :: up ∨
      (wmiEvtConnect s evt len).2.foldl reportUp up = up := by
  simp only [wmiEvtConnect, h, connectReport]
  cases s.iftype
  case monitor => exact Or.inr rfl
  case other => exact Or.inr rfl
  all_goals exact Or.inl rfl

/-! ## The machine -/

/-- The driver, and the peers reported up and not down since. -/
structure ReportSys where
  conn : ConnSys
  up : List MacAddr

/-- What the driver does outside of its tables in one step. -/
def ConnSys.events (s : ConnSys) : ConnAction → List DrvEvent
  | .connect evt len => (wmiEvtConnect s.wil evt len).2
  | .disconnect bssid => (wmiEvtDisconnect s.wil bssid).2
  | .alloc ok =>
      match s.worker with
      | .started cid tid id => (wilVringInitTxBegin s.wil id wil6210TxRingSize cid tid ok).2.2
      | _ => []
  | .reply r =>
      match s.worker with
      | .waiting _ id => (wilVringInitTxEnd s.wil id r).2.2
      | _ => []
  | .finish =>
      match s.worker with
      | .cleared cid rc => (connectFinish s.wil cid rc).2
      | _ => []
  | .start | .clear | .traffic _ => []

/-- The step leaves the mode of the interface. -/
def ConnAction.KeepsMode (s : Wil) : ConnAction → Prop
  | .traffic w => w.iftype = s.iftype
  | _ => True

instance (s : Wil) : (a : ConnAction) → Decidable (a.KeepsMode s)
  | .traffic w => inferInstanceAs (Decidable (w.iftype = s.iftype))
  | .connect _ _ | .disconnect _ | .start | .alloc _ | .reply _ | .clear | .finish =>
      inferInstanceAs (Decidable True)

/-- One step, in one mode. -/
def ReportSys.step (s : ReportSys) (a : ConnAction) : Option ReportSys :=
  if a.KeepsMode s.conn.wil then
    (s.conn.step a).map fun t => ⟨t, (s.conn.events a).foldl reportUp s.up⟩
  else none

def ReportSys.init (iftype : Iftype) (devAddr : Option MacAddr) : ReportSys :=
  ⟨ConnSys.init iftype devAddr, []⟩

/-- A station in use has this address. -/
def Wil.Knows (s : Wil) (mac : MacAddr) : Prop :=
  ∃ c, (s.sta c).status ≠ .unused ∧ (s.sta c).addr = mac

instance (s : Wil) (mac : MacAddr) : Decidable (s.Knows mac) := inferInstanceAs (Decidable (∃ _, _))

/-- **Every peer that was reported up is a station in use.** -/
def ViewsAgree (s : ReportSys) : Prop := ∀ mac ∈ s.up, s.conn.wil.Knows mac

/-- The station may leave the table unreported: it is not in use, or its peer is not up, or the
table has its peer at another CID too. -/
def ReportSys.Dispensable (s : ReportSys) (cid : Cid) : Prop :=
  (s.conn.wil.sta cid).status = .unused ∨ (s.conn.wil.sta cid).addr ∉ s.up ∨
    ∃ c ≠ cid, (s.conn.wil.sta c).status ≠ .unused ∧
      (s.conn.wil.sta c).addr = (s.conn.wil.sta cid).addr

instance (s : ReportSys) (cid : Cid) : Decidable (s.Dispensable cid) :=
  inferInstanceAs (Decidable (_ ∨ _ ∨ _))

/-- The station whose ring could not be configured, which the worker is about to take down. -/
def Worker.failed : Worker → Option Cid
  | .cleared cid rc => if rc = 0 then none else some cid
  | _ => none

/-- **When no peer is lost unreported.** -/
def ReportsKept (s : ReportSys) : ConnAction → Prop
  | .connect evt len => ∀ cid, connectAccepts s.conn.wil evt len = some cid →
      (s.conn.wil.sta cid).addr = evt.bssid ∨ s.Dispensable cid
  | .disconnect bssid =>
      (∀ cid, wilFindCid s.conn.wil bssid = some cid → s.conn.wil.StationMode →
        s.conn.wil.smeState = .connected ∨ s.Dispensable cid) ∧
      (wilFindCid s.conn.wil bssid = none → s.conn.wil.devAddr = some bssid →
        if s.conn.wil.StationMode then s.conn.wil.smeState = .connected ∨ s.up = []
        else ∀ mac ∈ s.up, mac = bssid)
  | .finish => ∀ cid, s.conn.worker.failed = some cid → s.Dispensable cid
  | .start | .alloc _ | .reply _ | .clear | .traffic _ => True

instance (s : ReportSys) : (a : ConnAction) → Decidable (ReportsKept s a)
  | .connect _ _ => inferInstanceAs (Decidable (∀ _, _))
  | .disconnect _ => inferInstanceAs (Decidable (_ ∧ _))
  | .finish => inferInstanceAs (Decidable (∀ _, _))
  | .start | .alloc _ | .reply _ | .clear | .traffic _ => inferInstanceAs (Decidable True)

/-! ## Every step -/

variable {s t : ReportSys}

lemma ReportSys.step_cases {a : ConnAction} (ht : s.step a = some t) :
    s.conn.step a = some t.conn ∧ t.up = (s.conn.events a).foldl reportUp s.up := by
  rw [ReportSys.step] at ht
  split_ifs at ht
  obtain ⟨u, hu, rfl⟩ := Option.map_eq_some_iff.mp ht
  exact ⟨hu, rfl⟩

/-- A step that takes the station `cid` down and reports nothing. -/
lemma viewsAgree_iff_dispensable (h : ViewsAgree s) {cid : Cid}
    (hstatus : ∀ c, (t.conn.wil.sta c).status
      = if c = cid then .unused else (s.conn.wil.sta c).status)
    (haddr : ∀ c, (t.conn.wil.sta c).addr = (s.conn.wil.sta c).addr) (hup : t.up = s.up) :
    ViewsAgree t ↔ s.Dispensable cid := by
  constructor
  · intro hagree
    by_cases hmem : (s.conn.wil.sta cid).addr ∈ s.up
    · obtain ⟨c, hc, heq⟩ := hagree _ (hup ▸ hmem)
      rw [hstatus] at hc
      by_cases hcid : c = cid
      · exact absurd (if_pos hcid) hc
      · rw [if_neg hcid] at hc
        exact Or.inr (Or.inr ⟨c, hcid, hc, (haddr c).symm.trans heq⟩)
    · exact Or.inr (Or.inl hmem)
  · intro hfree mac hmac
    rw [hup] at hmac
    obtain ⟨c, hc, heq⟩ := h mac hmac
    by_cases hcid : c = cid
    · subst hcid
      rcases hfree with hunused | hdown | ⟨d, hd, hused, hsame⟩
      · exact absurd hunused hc
      · exact absurd (heq ▸ hmac) hdown
      · exact ⟨d, by rw [hstatus, if_neg hd]; exact hused, by rw [haddr, hsame, heq]⟩
    · exact ⟨c, by rw [hstatus, if_neg hcid]; exact hc, by rw [haddr, heq]⟩

/-- A step that leaves the stations and reports nothing. -/
lemma ViewsAgree.of_same (h : ViewsAgree s)
    (hstatus : ∀ c, (t.conn.wil.sta c).status = (s.conn.wil.sta c).status)
    (haddr : ∀ c, (t.conn.wil.sta c).addr = (s.conn.wil.sta c).addr)
    (hup : ∀ mac ∈ t.up, mac ∈ s.up) : ViewsAgree t := by
  intro mac hmac
  obtain ⟨c, hc, heq⟩ := h mac (hup mac hmac)
  exact ⟨c, by rw [hstatus]; exact hc, by rw [haddr, heq]⟩

/-- A CONNECT event. -/
lemma ViewsAgree.connect_iff (h : ViewsAgree s) {evt : WmiConnectEvent} {len : ℕ}
    (ht : s.step (.connect evt len) = some t) :
    ViewsAgree t ↔ ReportsKept s (.connect evt len) := by
  obtain ⟨hconn, hup⟩ := ReportSys.step_cases ht
  rcases ConnSys.step_connect hconn with ⟨haccept, hconn⟩ | ⟨cid, haccept, hconn⟩
  · simp only [ConnSys.events, wmiEvtConnect, haccept, List.foldl_nil] at hup
    exact ⟨fun _ cid hcid => absurd (haccept.symm.trans hcid) (by simp), fun _ =>
      h.of_same (fun c => by rw [hconn]) (fun c => by rw [hconn]) (fun mac hmac => hup ▸ hmac)⟩
  · obtain ⟨-, hstatus, haddr, -, -⟩ := wmiEvtConnect_accepted evt len cid haccept
    rw [show (wmiEvtConnect s.conn.wil evt len).1 = t.conn.wil by rw [hconn]] at hstatus haddr
    have hnew : ∀ mac ∈ t.up, mac = evt.bssid ∨ mac ∈ s.up := by
      intro mac hmac
      rw [hup] at hmac
      rcases reported_wmiEvtConnect haccept s.up with hrep | hrep
      · exact List.mem_cons.mp (hrep ▸ hmac)
      · exact Or.inr (hrep ▸ hmac)
    have hkeeps : ∀ mac ∈ s.up, mac ∈ t.up := by
      intro mac hmac
      rw [hup]
      rcases reported_wmiEvtConnect haccept s.up with hrep | hrep
      · exact hrep ▸ List.mem_cons_of_mem _ hmac
      · rwa [ConnSys.events, hrep]
    constructor
    · intro hagree cid' hcid'
      obtain rfl := Option.some.inj (haccept.symm.trans hcid')
      by_cases hmem : (s.conn.wil.sta cid).addr ∈ s.up
      · obtain ⟨c, hc, heq⟩ := hagree _ (hkeeps _ hmem)
        rw [hstatus] at hc
        rw [haddr] at heq
        by_cases hcid : c = cid
        · exact Or.inl (by rw [← heq, if_pos hcid])
        · rw [if_neg hcid] at hc heq
          exact Or.inr (Or.inr (Or.inr ⟨c, hcid, hc, heq⟩))
      · exact Or.inr (Or.inr (Or.inl hmem))
    · intro hkept mac hmac
      by_cases hmacNew : mac = evt.bssid
      · exact ⟨cid, by rw [hstatus, if_pos rfl]; simp, by rw [haddr, if_pos rfl, hmacNew]⟩
      · have hold := (hnew mac hmac).resolve_left hmacNew
        obtain ⟨c, hc, heq⟩ := h mac hold
        by_cases hcid : c = cid
        · subst hcid
          rcases hkept c haccept with hsame | hunused | hdown | ⟨d, hd, hused, hsame⟩
          · exact absurd (heq.symm.trans hsame) hmacNew
          · exact absurd hunused hc
          · exact absurd (heq ▸ hold) hdown
          · exact ⟨d, by rw [hstatus, if_neg hd]; exact hused,
              by rw [haddr, if_neg hd, hsame, heq]⟩
        · exact ⟨c, by rw [hstatus, if_neg hcid]; exact hc, by rw [haddr, if_neg hcid, heq]⟩

/-- A DISCONNECT event. -/
lemma ViewsAgree.disconnect_iff (h : ViewsAgree s) {bssid : MacAddr}
    (ht : s.step (.disconnect bssid) = some t) :
    ViewsAgree t ↔ ReportsKept s (.disconnect bssid) := by
  obtain ⟨hconn, hup⟩ := ReportSys.step_cases ht
  obtain ⟨-, hstatus, haddr, -, -⟩ := wmiEvtDisconnect_spec s.conn.wil bssid
  simp only [ConnSys.step, Option.some.injEq] at hconn
  rw [show (wmiEvtDisconnect s.conn.wil bssid).1 = t.conn.wil by rw [← hconn]] at hstatus haddr
  simp only [ConnSys.events, reported_wmiEvtDisconnect] at hup
  have hclear : t.up = [] → ViewsAgree t := fun hnil mac hmac => absurd (hnil ▸ hmac) (by simp)
  cases hfind : wilFindCid s.conn.wil bssid with
  | some cid =>
      obtain ⟨-, hbssid⟩ := wilFindCid_spec hfind
      simp only [disconnectCids_found hfind, List.mem_singleton] at hstatus
      have hkept : ReportsKept s (.disconnect bssid) ↔ (s.conn.wil.StationMode →
          s.conn.wil.smeState = .connected ∨ s.Dispensable cid) := by
        simp [ReportsKept, hfind]
      rw [hkept]
      by_cases hmode : s.conn.wil.StationMode
      · by_cases hsme : s.conn.wil.smeState = .connected
        · rw [if_pos hmode, if_pos hsme] at hup
          exact ⟨fun _ _ => Or.inl hsme, fun _ => hclear hup⟩
        · rw [if_pos hmode, if_neg hsme] at hup
          rw [viewsAgree_iff_dispensable h hstatus haddr hup]
          exact ⟨fun hfree _ => Or.inr hfree, fun hfree => (hfree hmode).resolve_left hsme⟩
      · rw [if_neg hmode] at hup
        refine ⟨fun _ hm => absurd hm hmode, fun _ mac hmac => ?_⟩
        rw [hup, List.mem_filter, decide_eq_true_iff] at hmac
        obtain ⟨c, hc, heq⟩ := h mac hmac.1
        have hcid : c ≠ cid := by
          rintro rfl
          exact hmac.2 (heq.symm.trans hbssid)
        exact ⟨c, by rw [hstatus, if_neg hcid]; exact hc, by rw [haddr, heq]⟩
  | none =>
      have hkept : ReportsKept s (.disconnect bssid) ↔ (s.conn.wil.devAddr = some bssid →
          if s.conn.wil.StationMode then s.conn.wil.smeState = .connected ∨ s.up = []
          else ∀ mac ∈ s.up, mac = bssid) := by
        simp [ReportsKept, hfind]
      rw [hkept]
      by_cases hown : s.conn.wil.devAddr = some bssid
      · simp only [disconnectCids_unknown hfind, if_pos hown, List.mem_finRange, if_true] at hstatus
        have hempty : ViewsAgree t ↔ t.up = [] := by
          refine ⟨fun hagree => List.eq_nil_iff_forall_not_mem.mpr fun mac hmac => ?_, hclear⟩
          obtain ⟨c, hc, -⟩ := hagree mac hmac
          exact hc (hstatus c)
        rw [hempty, forall_prop_of_true hown, hup]
        split_ifs with hmode hsme
        · simp [hsme]
        · simp [hsme]
        · simp [List.filter_eq_nil_iff]
      · simp only [disconnectCids_unknown hfind, if_neg hown, List.not_mem_nil, if_false] at hstatus
        refine ⟨fun _ hdev => absurd hdev hown, fun _ => h.of_same hstatus haddr fun mac hmac => ?_⟩
        rw [hup] at hmac
        split_ifs at hmac with hmode hsme
        · exact absurd hmac (by simp)
        · exact hmac
        · exact (List.mem_filter.mp hmac).1

/-- The end of the worker. -/
lemma ViewsAgree.finish_iff (h : ViewsAgree s) (ht : s.step .finish = some t) :
    ViewsAgree t ↔ ReportsKept s .finish := by
  obtain ⟨hconn, hup⟩ := ReportSys.step_cases ht
  obtain ⟨cid, rc, hw, hconn⟩ := ConnSys.step_finish hconn
  have hwil : t.conn.wil = (connectFinish s.conn.wil cid rc).1 := by rw [hconn]
  have hsilent : t.up = s.up := by
    rw [hup]
    simp only [ConnSys.events, hw, connectFinish]
    split_ifs <;> rfl
  have haddr : ∀ c, (t.conn.wil.sta c).addr = (s.conn.wil.sta c).addr := by
    intro c
    rw [hwil, addr_connectFinish]
  by_cases hrc : rc = 0
  · have hkept : ReportsKept s .finish := by
      intro cid' hfailed
      simp [hw, Worker.failed, hrc] at hfailed
    refine ⟨fun _ => hkept, fun _ mac hmac => ?_⟩
    obtain ⟨c, hc, heq⟩ := h mac (hsilent ▸ hmac)
    refine ⟨c, ?_, by rw [haddr, heq]⟩
    rw [hwil, status_connectFinish, if_pos hrc]
    split_ifs
    · simp
    · exact hc
  · have hkept : ReportsKept s .finish ↔ s.Dispensable cid := by
      simp [ReportsKept, hw, Worker.failed, hrc]
    rw [hkept]
    refine viewsAgree_iff_dispensable h (fun c => ?_) haddr hsilent
    rw [hwil, status_connectFinish, if_neg hrc]

/-- The other steps leave the addresses and the status of the stations, and report nothing. -/
lemma ConnSys.step_other {u v : ConnSys} {a : ConnAction} (hv : u.step a = some v)
    (hconnect : ∀ evt len, a ≠ .connect evt len) (hdisconnect : ∀ bssid, a ≠ .disconnect bssid)
    (hfinish : a ≠ .finish) :
    (∀ c, (v.wil.sta c).status = (u.wil.sta c).status ∧ (v.wil.sta c).addr = (u.wil.sta c).addr) ∧
      ∀ e ∈ u.events a, e.Silent := by
  cases a with
  | connect evt len => exact absurd rfl (hconnect evt len)
  | disconnect bssid => exact absurd rfl (hdisconnect bssid)
  | finish => exact absurd rfl hfinish
  | start =>
      refine ⟨fun c => ?_, by simp [ConnSys.events]⟩
      obtain ⟨-, -, rfl⟩ := ConnSys.step_start hv
      exact ⟨rfl, rfl⟩
  | alloc ok =>
      obtain ⟨cid, tid, id, hw, hv⟩ := ConnSys.step_alloc hv
      refine ⟨fun c => ?_, ?_⟩
      · split_ifs at hv <;> simp [hv]
      · simp only [ConnSys.events, hw, wilVringInitTxBegin]
        intro e he
        split_ifs at he
        · exact absurd he (by simp)
        · exact absurd he (by simp)
        · obtain rfl := List.mem_singleton.mp he
          exact fun _ => rfl
  | reply r =>
      obtain ⟨cid, id, hw, rfl⟩ := ConnSys.step_reply hv
      refine ⟨fun c => by simp, ?_⟩
      simp only [ConnSys.events, hw, wilVringInitTxEnd]
      intro e he
      split_ifs at he
      · obtain ⟨x, -, rfl⟩ := List.mem_map.mp he
        exact fun _ => rfl
      · obtain ⟨x, -, rfl⟩ := List.mem_map.mp he
        exact fun _ => rfl
      · exact absurd he (by simp)
  | clear =>
      obtain ⟨cid, rc, hw, rfl⟩ := ConnSys.step_clear hv
      exact ⟨fun c => ⟨rfl, rfl⟩, by simp [ConnSys.events]⟩
  | traffic w =>
      obtain rfl := Option.some.inj hv
      exact ⟨fun c => ⟨rfl, rfl⟩, by simp [ConnSys.events]⟩

/-- **One step**: the views go on agreeing exactly where the condition is met. -/
theorem ViewsAgree.step_iff (h : ViewsAgree s) {a : ConnAction} (ht : s.step a = some t) :
    ViewsAgree t ↔ ReportsKept s a := by
  have hother : (∀ evt len, a ≠ .connect evt len) → (∀ bssid, a ≠ .disconnect bssid) →
      a ≠ .finish → ViewsAgree t := by
    intro hconnect hdisconnect hfinish
    obtain ⟨hconn, hup⟩ := ReportSys.step_cases ht
    obtain ⟨hsta, hsilent⟩ := ConnSys.step_other hconn hconnect hdisconnect hfinish
    rw [foldl_reportUp_silent hsilent] at hup
    exact h.of_same (fun c => (hsta c).1) (fun c => (hsta c).2) fun mac hmac => hup ▸ hmac
  cases a with
  | connect evt len => exact h.connect_iff ht
  | disconnect bssid => exact h.disconnect_iff ht
  | finish => exact h.finish_iff ht
  | start | alloc ok | reply r | clear | traffic w =>
      exact ⟨fun _ => trivial, fun _ => hother (by simp) (by simp) (by simp)⟩

/-! ## Every run -/

/-- **The two views of a connection agree**, where no step takes a reported peer out of the table
of stations without a report: in every state, whether connect work is pending or not, every peer
that was reported up and not down since is a station in use. -/
theorem viewsAgree_run {iftype : Iftype} {devAddr : Option MacAddr} {as : List ConnAction}
    (h : Machine.Exec ReportSys.step ReportsKept (ReportSys.init iftype devAddr) as s) :
    ViewsAgree s :=
  h.invariant (fun _ _ _ hG ht hi => (hi.step_iff ht).mpr hG)
    (show ViewsAgree (ReportSys.init iftype devAddr) from fun mac hmac => absurd hmac (by
      simp [ReportSys.init]))

/-- An AP with two stations; the first leaves, and comes back at the CID of the second, which has
left meanwhile. -/
theorem viewsAgree_run_twice :
    ∃ s : ReportSys, ViewsAgree s ∧ s.conn.Quiet ∧ s.up = [2] ∧
      (s.conn.wil.sta 1).status = .connected := by
  let worker : List ConnAction := [.start, .alloc true, .reply ⟨0, 0, 0⟩, .clear, .finish]
  let as : List ConnAction := bareConnect 2 0 :: worker ++ bareConnect 3 1 :: worker ++
    .disconnect 2 :: .disconnect 3 :: bareConnect 2 1 :: worker
  have hrun : (Machine.exec ReportSys.step ReportsKept (ReportSys.init .ap (some 1)) as).map
      (fun s => (s.conn.worker, s.conn.queued, s.up, (s.conn.wil.sta 1).status))
      = some (.idle, false, [2], .connected) := by
    decide +kernel
  obtain ⟨s, hs, hend⟩ := Option.map_eq_some_iff.mp hrun
  simp only [Prod.mk.injEq] at hend
  exact ⟨s, viewsAgree_run (.of_exec hs), ⟨hend.1, hend.2.1⟩, hend.2.2⟩

/-- The ring of a new station cannot be allocated: the worker sets it unused, and cfg80211 is not
told. -/
theorem not_viewsAgree_run :
    ¬ ∀ (iftype : Iftype) (devAddr : Option MacAddr) (as : List ConnAction) (s : ReportSys),
      Machine.Exec ReportSys.step (fun _ _ => True) (ReportSys.init iftype devAddr) as s →
      s.conn.Quiet → ViewsAgree s := by
  intro h
  let as : List ConnAction := [bareConnect 2 0, .start, .alloc false, .clear, .finish]
  have hrun : (Machine.exec ReportSys.step (fun _ _ => True) (ReportSys.init .ap (some 1)) as).map
      (fun s => (s.conn.worker, s.conn.queued, s.up, decide (s.conn.wil.Knows 2)))
      = some (.idle, false, [2], false) := by
    decide +kernel
  obtain ⟨s, hs, hend⟩ := Option.map_eq_some_iff.mp hrun
  simp only [Prod.mk.injEq, decide_eq_false_iff_not] at hend
  obtain ⟨hidle, hqueued, hup, hunknown⟩ := hend
  exact hunknown (h _ _ as s (.of_exec hs) ⟨hidle, hqueued⟩ 2 (by simp [hup]))

end Wil6210
