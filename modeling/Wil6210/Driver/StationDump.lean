import Wil6210.Driver.Connect
import Wil6210.Lib.TableRead

/-!
# The station dump and its generation

`wil_cfg80211_dump_station` is called with the indices 0, 1, … until it returns `-ENOENT`.  Each
call finds the station of its index, waits for the firmware, and returns the statistics together
with `sinfo_gen`, by which user space can tell that the table changed meanwhile.  `DumpSys` is the
driver with a dump under way.

The handler of a DISCONNECT counts `sinfo_gen` up, and so does that of a CONNECT where the driver
is an AP.  Both count first and change the table later: the one may wait for `wmi_mutex` with each
station, the other reports to cfg80211 in between.  No lock keeps a dump out.  `stationDump_run`
says what a count is worth: where no question comes in between, a dump over which `sinfo_gen` stayed
the same is the station table.  One that does may come too late to see the count and too early to
see the change (`not_stationDump_run_between`).

A CONNECT in client mode, the end of `wil_connect_worker` and `wil_cfg80211_del_station` change the
table and do not count.  A connection that fails during a dump makes the dump skip a station that
was there all along, and nothing shows it (`not_stationDump_run`).
-/

namespace Wil6210

/-! ## The calls -/

/-- `struct wmi_notify_req_done_event`, as far as it is reported. -/
structure WmiNotifyReqDone where
  bfMcs : ℕ
  sqi : ℕ
  deriving DecidableEq

/-- `struct station_info` -/
structure StationInfo where
  generation : ℕ
  txMcs : ℕ
  rxMcs : ℕ
  rxBytes : ℕ
  txBytes : ℕ
  rxPackets : ℕ
  txPackets : ℕ
  rxDroppedMisc : ℕ
  txFailed : ℕ
  /-- Only this one is not always filled. -/
  signal : Option ℕ
  deriving DecidableEq

/-- The loop of `wil_find_cid_by_idx`. -/
def findCidFrom (s : Wil) : List Cid → ℕ → Option Cid
  | [], _ => none
  | i :: is, idx =>
      if (s.sta i).status = .unused then findCidFrom s is idx
      else
        match idx with
        | 0 => some i
        | idx + 1 => findCidFrom s is idx

/-- `none` is `-ENOENT`. -/
def wilFindCidByIdx (s : Wil) (idx : ℕ) : Option Cid := findCidFrom s (List.finRange 8) idx

/-- `wil_cid_fill_sinfo`, behind its WMI call, which returned `rc`. -/
def wilCidFillSinfo (s : Wil) (cid : Cid) (rc : ℤ) (reply : WmiNotifyReqDone) :
    Except ℤ StationInfo :=
  if rc ≠ 0 then .error rc
  else
    let stats := (s.sta cid).stats
    .ok {
      generation := s.sinfoGen
      txMcs := reply.bfMcs
      rxMcs := stats.lastMcsRx
      rxBytes := stats.rxBytes
      txBytes := stats.txBytes
      rxPackets := stats.rxPackets
      txPackets := stats.txPackets
      rxDroppedMisc := stats.rxDropped
      txFailed := stats.txErrors
      signal := if s.fwConnected then some reply.sqi else none }

/-- `wil_cfg80211_dump_station`, before its WMI call: the CID, and the address it returns. -/
def wilCfg80211DumpStation (s : Wil) (idx : ℕ) : Option (Cid × MacAddr) :=
  (wilFindCidByIdx s idx).map fun cid => (cid, (s.sta cid).addr)

/-! ## The station table -/

namespace Wil

/-- The station with a CID. -/
def station? (s : Wil) (i : Cid) : Option (Cid × MacAddr) :=
  if (s.sta i).status = .unused then none else some (i, (s.sta i).addr)

/-- The stations there are. -/
def stations (s : Wil) : List (Cid × MacAddr) := (List.finRange 8).filterMap s.station?

variable {s t : Wil}

lemma stations_congr
    (h : ∀ i, ((t.sta i).status = .unused ↔ (s.sta i).status = .unused) ∧
      (t.sta i).addr = (s.sta i).addr) : t.stations = s.stations := by
  refine List.filterMap_congr fun i _ => ?_
  simp only [station?, (h i).1, (h i).2]

end Wil

lemma findCidFrom_eq (s : Wil) (is : List Cid) (idx : ℕ) :
    (findCidFrom s is idx).map (fun cid => (cid, (s.sta cid).addr))
      = (is.filterMap s.station?)[idx]? := by
  induction is generalizing idx with
  | nil => rfl
  | cons i is ih =>
      by_cases hunused : (s.sta i).status = .unused
      · have hnone : s.station? i = none := if_pos hunused
        rw [findCidFrom.eq_def, List.filterMap_cons_none hnone, ← ih]
        exact congrArg _ (if_pos hunused)
      · have hsome : s.station? i = some (i, (s.sta i).addr) := if_neg hunused
        rw [findCidFrom.eq_def, List.filterMap_cons_some hsome]
        simp only [if_neg hunused]
        cases idx with
        | zero => rfl
        | succ idx => exact ih idx

/-- A call finds the station that the table has at its index. -/
lemma wilCfg80211DumpStation_eq (s : Wil) (idx : ℕ) :
    wilCfg80211DumpStation s idx = s.stations[idx]? :=
  findCidFrom_eq s (List.finRange 8) idx

/-! ## What counts `sinfo_gen` -/

section Generation

variable (s : Wil)

lemma sinfoGen_run (cids : List Cid) :
    (Machine.run wilDisconnectCid s cids).1.sinfoGen = s.sinfoGen := by
  induction cids generalizing s with
  | nil => rfl
  | cons cid cids ih => exact ih (wilDisconnectCid s cid).1

lemma sinfoGen_disconnectLink (bssid : Option MacAddr) :
    (disconnectLink s bssid).1.sinfoGen = s.sinfoGen := by
  simp only [disconnectLink]
  split <;> rfl

lemma stations_disconnectLink (bssid : Option MacAddr) :
    (disconnectLink s bssid).1.stations = s.stations :=
  Wil.stations_congr fun i => by rw [sta_disconnectLink]; exact ⟨Iff.rfl, rfl⟩

lemma sinfoGen_wil6210Disconnect (bssid : Option MacAddr) :
    (wil6210Disconnect s bssid).1.sinfoGen = s.sinfoGen := by
  have hstations : (disconnectStations s bssid).1.sinfoGen = s.sinfoGen := by
    simp only [disconnectStations]
    cases bssid.bind (wilFindCid s) with
    | some cid => rfl
    | none =>
        show (if s.devAddr.isSome ∧ bssid.isSome then _ else _ : Wil × _).1.sinfoGen = _
        split_ifs
        · exact sinfoGen_run s (List.finRange 8)
        · rfl
        · rfl
  exact (sinfoGen_disconnectLink _ bssid).trans hstations

/-- An AP counts each CONNECT that it accepts. -/
lemma connectReport_ap (hap : s.iftype = .ap ∨ s.iftype = .p2pGo) (evt : WmiConnectEvent) :
    (connectReport s evt).1 = s.sinfoGen + 1 := by
  rcases hap with h | h <;> rw [connectReport, h]

/-- A connection that succeeds is of a station that the table has. -/
lemma stations_connectFinish {cid : Cid} {rc : ℤ} (hrc : rc = 0)
    (hused : (s.sta cid).status ≠ .unused) : (connectFinish s cid rc).1.stations = s.stations := by
  refine Wil.stations_congr fun i => ⟨?_, addr_connectFinish ..⟩
  rw [status_connectFinish, if_pos hrc]
  split_ifs with hi
  · exact iff_of_false not_false (hi ▸ hused)
  · exact Iff.rfl

/-- Nobody is disconnected where there is nobody of that address. -/
lemma stations_wil6210Disconnect {mac : MacAddr} (hnone : wilFindCid s mac = none)
    (hother : s.devAddr ≠ some mac) :
    (wil6210Disconnect s (some mac)).1.stations = s.stations := by
  have hstations : (disconnectStations s (some mac)).1 = s := by
    simp only [disconnectStations, Option.bind_some, hnone, if_neg hother]
    split_ifs <;> rfl
  have hlink := stations_disconnectLink (disconnectStations s (some mac)).1 (some mac)
  exact hlink.trans (congrArg Wil.stations hstations)

end Generation

/-! ## The driver with a dump -/

/-- Where the event worker is in a handler that changes the station table. -/
inductive StaHandler
  | idle
  /-- `wmi_evt_connect`, behind its report to cfg80211 -/
  | connect (evt : WmiConnectEvent) (cid : Cid)
  /-- `wmi_evt_disconnect`, behind its count -/
  | disconnect (bssid : MacAddr)
  /-- `_wil6210_disconnect`, with the stations it still has to take down -/
  | takingDown (bssid : MacAddr) (cids : List Cid)

/-- It has not changed all that it will. -/
def StaHandler.busy : StaHandler → Bool
  | .idle => false
  | .connect _ _ | .disconnect _ | .takingDown _ _ => true

/-- The last lines of `wmi_evt_connect` -/
def connectStore (s : Wil) (evt : WmiConnectEvent) (cid : Cid) : Wil :=
  { s with
    fwConnected := true
    sta := Function.update s.sta cid
      { s.sta cid with addr := evt.bssid, status := .connPending }
    pendingConnectCid := some cid }

/-- The next step of a handler. -/
def handlerStep (s : Wil) : StaHandler → Option (Wil × StaHandler)
  | .idle => none
  | .connect evt cid => some (connectStore s evt cid, .idle)
  | .disconnect bssid => some (s, .takingDown bssid (disconnectCids s bssid))
  | .takingDown bssid (cid :: cids) => some ((wilDisconnectCid s cid).1, .takingDown bssid cids)
  | .takingDown bssid [] => some ((disconnectLink s (some bssid)).1, .idle)

/-- What a handler leaves that nothing interrupts. -/
def handlerEnd (s : Wil) : StaHandler → Wil
  | .idle => s
  | .connect evt cid => connectStore s evt cid
  | .disconnect bssid => (wil6210Disconnect s (some bssid)).1
  | .takingDown bssid cids =>
      (disconnectLink (Machine.run wilDisconnectCid s cids).1 (some bssid)).1

/-- The steps of a handler in a row are the handler. -/
lemma handlerEnd_step {s t : Wil} {h h' : StaHandler} (hstep : handlerStep s h = some (t, h')) :
    handlerEnd t h' = handlerEnd s h := by
  cases h with
  | idle => exact absurd hstep (by simp [handlerStep])
  | connect evt cid =>
      obtain ⟨rfl, rfl⟩ := Prod.mk.inj (Option.some.inj hstep)
      rfl
  | disconnect bssid =>
      obtain ⟨rfl, rfl⟩ := Prod.mk.inj (Option.some.inj hstep)
      simp only [handlerEnd, wil6210Disconnect, disconnectStations_run]
  | takingDown bssid cids =>
      cases cids with
      | nil =>
          obtain ⟨rfl, rfl⟩ := Prod.mk.inj (Option.some.inj hstep)
          rfl
      | cons cid cids =>
          obtain ⟨rfl, rfl⟩ := Prod.mk.inj (Option.some.inj hstep)
          rfl

lemma wmiEvtConnect_eq {s : Wil} {evt : WmiConnectEvent} {len : ℕ} {cid : Cid}
    (haccept : connectAccepts s evt len = some cid) :
    (wmiEvtConnect s evt len).1
      = handlerEnd { s with sinfoGen := (connectReport s evt).1 } (.connect evt cid) := by
  simp only [wmiEvtConnect, haccept]
  rfl

lemma wmiEvtDisconnect_eq (s : Wil) (bssid : MacAddr) :
    (wmiEvtDisconnect s bssid).1
      = handlerEnd { s with sinfoGen := s.sinfoGen + 1 } (.disconnect bssid) := rfl

structure DumpSys where
  wil : Wil
  handler : StaHandler
  /-- where the call of the dump is -/
  phase : TableRead.Phase (Cid × MacAddr)
  /-- what the calls returned -/
  got : List ((Cid × MacAddr) × StationInfo)
  /-- `sinfo_gen` at the first call -/
  first : ℕ
  /-- the stations at the last answer -/
  last : List (Cid × MacAddr)

inductive DumpAction
  /-- `wil_cfg80211_dump_station` is called with the next index. -/
  | ask
  /-- The WMI call behind it is over. -/
  | answer (rc : ℤ) (reply : WmiNotifyReqDone)
  /-- `wmi_evt_connect`, up to its report to cfg80211 -/
  | connect (evt : WmiConnectEvent) (len : ℕ)
  /-- `wmi_evt_disconnect` counts. -/
  | disconnect (bssid : MacAddr)
  /-- The handler goes on. -/
  | proceed
  /-- the end of `wil_connect_worker` -/
  | connectFinish (cid : Cid) (rc : ℤ)
  /-- `wil_cfg80211_del_station` -/
  | delStation (mac : MacAddr)
  | other (w : Wil)

def DumpAction.isAsk : DumpAction → Bool
  | .ask => true
  | _ => false

namespace DumpSys

/-- One step. -/
def step (s : DumpSys) : DumpAction → Option DumpSys
  | .ask =>
      match s.phase with
      | .idle => some { s with
          first := if s.got.isEmpty then s.wil.sinfoGen else s.first
          phase := .ofEntry (wilCfg80211DumpStation s.wil s.got.length) }
      | _ => none
  | .answer rc reply =>
      match s.phase with
      | .asking sta =>
          match wilCidFillSinfo s.wil sta.1 rc reply with
          | .ok sinfo => some { s with
              phase := .idle
              got := s.got ++ [(sta, sinfo)]
              last := s.wil.stations }
          | .error _ => some { s with phase := .failed }
      | _ => none
  | .connect evt len =>
      if s.handler.busy then none
      else
        match connectAccepts s.wil evt len with
        | none => some s
        | some cid => some { s with
            wil := { s.wil with sinfoGen := (connectReport s.wil evt).1 }
            handler := .connect evt cid }
  | .disconnect bssid =>
      if s.handler.busy then none
      else some { s with
        wil := { s.wil with sinfoGen := s.wil.sinfoGen + 1 }
        handler := .disconnect bssid }
  | .proceed => (handlerStep s.wil s.handler).map fun p => { s with wil := p.1, handler := p.2 }
  | .connectFinish cid rc => some { s with wil := (connectFinish s.wil cid rc).1 }
  | .delStation mac => some { s with wil := (wil6210Disconnect s.wil (some mac)).1 }
  | .other w =>
      if w.stations = s.wil.stations ∧ w.sinfoGen = s.wil.sinfoGen then some { s with wil := w }
      else none

/-- A dump begins, the driver is in any state. -/
def init (w : Wil) (handler : StaHandler) : DumpSys := ⟨w, handler, .idle, [], w.sinfoGen, []⟩

/-- The stations that were dumped. -/
def stations (s : DumpSys) : List (Cid × MacAddr) := s.got.map Prod.fst

/-- **The change of the station table counts**: the driver is an AP, where it accepts a CONNECT; a
connection does not fail, nor come after a disconnect; cfg80211 deletes no station. -/
def Counted (s : DumpSys) : DumpAction → Prop
  | .connect _ _ => s.wil.iftype = .ap ∨ s.wil.iftype = .p2pGo
  | .connectFinish cid rc => rc = 0 ∧ (s.wil.sta cid).status ≠ .unused
  | .delStation mac => wilFindCid s.wil mac = none ∧ s.wil.devAddr ≠ some mac
  | .ask | .answer _ _ | .disconnect _ | .proceed | .other _ => True

instance (s : DumpSys) : (a : DumpAction) → Decidable (s.Counted a)
  | .connect _ _ => inferInstanceAs (Decidable (_ ∨ _))
  | .connectFinish _ _ => inferInstanceAs (Decidable (_ ∧ _ ≠ _))
  | .delStation _ => inferInstanceAs (Decidable (_ = _ ∧ _ ≠ _))
  | .ask | .answer _ _ | .disconnect _ | .proceed | .other _ => inferInstanceAs (Decidable True)

/-- **No question comes between the count of a handler and its last change.** -/
def Settled (s : DumpSys) (a : DumpAction) : Prop := a.isAsk = true → s.handler.busy = false

instance (s : DumpSys) (a : DumpAction) : Decidable (s.Settled a) :=
  inferInstanceAs (Decidable (_ = _ → _ = _))

/-- The dump as the reading of a table. -/
def view (s : DumpSys) : TableRead.Sys (Cid × MacAddr) where
  table := s.wil.stations
  gen := s.wil.sinfoGen
  writing := s.handler.busy
  phase := s.phase
  got := s.got.map fun p => (p.1, p.2.generation)
  first := s.first
  last := s.last

/-- What is seen of one step. -/
def Seen (s t : DumpSys) : Prop :=
  t.view = s.view ∨ ∃ op, TableRead.Settled s.view op ∧ TableRead.step s.view op = some t.view

section Steps

variable {s t : DumpSys}

/-- The driver leaves the stations alone. -/
lemma seen_same {w : Wil} (hstations : w.stations = s.wil.stations)
    (hgen : w.sinfoGen = s.wil.sinfoGen) : s.Seen { s with wil := w } := by
  refine .inl ?_
  simp only [view, hstations, hgen]

/-- A handler counts. -/
lemma seen_count {handler : StaHandler} (hidle : s.handler.busy = false)
    (hbusy : handler.busy = true) : s.Seen { s with
      wil := { s.wil with sinfoGen := s.wil.sinfoGen + 1 }
      handler := handler } := by
  refine .inr ⟨.count (s.wil.sinfoGen + 1), trivial, ?_⟩
  have hcount : s.view.writing = false ∧ s.view.gen < s.wil.sinfoGen + 1 :=
    ⟨hidle, Nat.lt_succ_self _⟩
  rw [TableRead.step, if_pos hcount]
  simp only [view, hbusy]
  rfl

/-- A handler changes the stations. -/
lemma seen_write {w : Wil} {handler : StaHandler} (hbusy : s.handler.busy = true)
    (hgen : w.sinfoGen = s.wil.sinfoGen) :
    s.Seen { s with wil := w, handler := handler } := by
  refine .inr ⟨.write w.stations handler.busy, trivial, ?_⟩
  rw [TableRead.step, if_pos (show s.view.writing = true from hbusy)]
  simp only [view, hgen]

/-- **A handler that goes on** writes, and does not count again. -/
lemma seen_proceed {w : Wil} {handler : StaHandler}
    (hnext : handlerStep s.wil s.handler = some (w, handler)) :
    s.Seen { s with wil := w, handler := handler } := by
  cases hat : s.handler with
  | idle => exact absurd (hat ▸ hnext) (by simp [handlerStep])
  | connect evt cid =>
      rw [hat] at hnext
      obtain ⟨rfl, rfl⟩ := Prod.mk.inj (Option.some.inj hnext)
      exact seen_write (by rw [hat]; rfl) rfl
  | disconnect bssid =>
      rw [hat] at hnext
      obtain ⟨rfl, rfl⟩ := Prod.mk.inj (Option.some.inj hnext)
      exact seen_write (by rw [hat]; rfl) rfl
  | takingDown bssid cids =>
      rw [hat] at hnext
      cases cids with
      | nil =>
          obtain ⟨rfl, rfl⟩ := Prod.mk.inj (Option.some.inj hnext)
          exact seen_write (by rw [hat]; rfl) (sinfoGen_disconnectLink s.wil (some bssid))
      | cons cid cids =>
          obtain ⟨rfl, rfl⟩ := Prod.mk.inj (Option.some.inj hnext)
          exact seen_write (by rw [hat]; rfl) rfl

lemma seen_ask (hidle : s.phase = .idle) (hsettled : s.handler.busy = false) :
    s.Seen { s with
      first := if s.got.isEmpty then s.wil.sinfoGen else s.first
      phase := .ofEntry (wilCfg80211DumpStation s.wil s.got.length) } := by
  refine .inr ⟨.ask, hsettled, ?_⟩
  have hview : s.view.phase = .idle := hidle
  simp only [TableRead.step, hview]
  simp only [view, wilCfg80211DumpStation_eq, List.length_map, List.isEmpty_map]

lemma seen_answer {sta : Cid × MacAddr} (hasking : s.phase = .asking sta) {rc : ℤ}
    {reply : WmiNotifyReqDone} {sinfo : StationInfo}
    (hok : wilCidFillSinfo s.wil sta.1 rc reply = .ok sinfo) :
    s.Seen { s with phase := .idle, got := s.got ++ [(sta, sinfo)], last := s.wil.stations } := by
  refine .inr ⟨.answer, trivial, ?_⟩
  have hgen : sinfo.generation = s.wil.sinfoGen := by
    rw [wilCidFillSinfo] at hok
    by_cases hrc : rc ≠ 0
    · exact nomatch (if_pos hrc).symm.trans hok
    · exact (congrArg StationInfo.generation (Except.ok.inj ((if_neg hrc).symm.trans hok))).symm
  have hview : s.view.phase = .asking sta := hasking
  simp only [TableRead.step, hview]
  simp only [view, List.map_append, List.map_singleton, hgen]

lemma seen_fail {sta : Cid × MacAddr} (hasking : s.phase = .asking sta) :
    s.Seen { s with phase := .failed } := by
  refine .inr ⟨.fail, trivial, ?_⟩
  have hview : s.view.phase = .asking sta := hasking
  simp only [TableRead.step, hview]
  rfl

/-- **A step that counts is a step of the reading**, or is not seen. -/
lemma seen_step {a : DumpAction} (hcounted : s.Counted a) (hsettled : s.Settled a)
    (ht : s.step a = some t) : s.Seen t := by
  cases a with
  | ask =>
      rw [step] at ht
      split at ht
      next hidle => exact Option.some.inj ht ▸ seen_ask hidle (hsettled rfl)
      next => exact absurd ht (Option.some_ne_none t).symm
  | answer rc reply =>
      rw [step] at ht
      split at ht
      next sta hasking =>
          split at ht
          next sinfo hok => exact Option.some.inj ht ▸ seen_answer hasking hok
          next => exact Option.some.inj ht ▸ seen_fail hasking
      next => exact absurd ht (Option.some_ne_none t).symm
  | connect evt len =>
      rw [step] at ht
      split_ifs at ht with hbusy
      have hidle : s.handler.busy = false := by simpa using hbusy
      cases haccept : connectAccepts s.wil evt len with
      | none =>
          rw [haccept] at ht
          exact Option.some.inj ht ▸ seen_same rfl rfl
      | some cid =>
          rw [haccept, connectReport_ap s.wil hcounted] at ht
          exact Option.some.inj ht ▸ seen_count hidle rfl
  | disconnect bssid =>
      rw [step] at ht
      split_ifs at ht with hbusy
      have hidle : s.handler.busy = false := by simpa using hbusy
      exact Option.some.inj ht ▸ seen_count hidle rfl
  | proceed =>
      obtain ⟨⟨w, handler⟩, hnext, rfl⟩ := Option.map_eq_some_iff.mp ht
      exact seen_proceed hnext
  | connectFinish cid rc =>
      exact Option.some.inj ht ▸ seen_same (stations_connectFinish s.wil hcounted.1 hcounted.2) rfl
  | delStation mac =>
      exact Option.some.inj ht ▸ seen_same
        (stations_wil6210Disconnect s.wil hcounted.1 hcounted.2)
        (sinfoGen_wil6210Disconnect s.wil (some mac))
  | other w =>
      rw [step] at ht
      split_ifs at ht with hw
      exact Option.some.inj ht ▸ seen_same hw.1 hw.2

end Steps

end DumpSys

/-! ## Whole dumps -/

/-- An AP with the stations 0, 1 and 2, of which the first is being connected. -/
def apOfThree : Wil :=
  { wilPrivInit .ap none with
    sta := fun i =>
      if i.val < 3 then
        ⟨0x10 + i.val, if i.val = 0 then .connPending else .connected, ⟨0, 0, 0, 0, 0, 0, 0⟩,
          fun _ => none⟩
      else ⟨0, .unused, ⟨0, 0, 0, 0, 0, 0, 0⟩, fun _ => none⟩ }

/-- **Not every change counts.**  Station 0 fails to connect during the dump: station 1, which is
there all along, is not dumped, and `sinfo_gen` stays the same. -/
theorem not_stationDump_run : ¬ ∀ (as : List DumpAction) (s : DumpSys),
    Machine.Exec DumpSys.step (fun _ _ => True) (.init apOfThree .idle) as s →
      s.phase = .ended → s.wil.sinfoGen = s.first → s.stations = s.wil.stations := by
  intro h
  have hrun : (Machine.exec DumpSys.step (fun _ _ => True) (.init apOfThree .idle)
      [.ask, .answer 0 ⟨1, 80⟩, .connectFinish 0 (-11), .ask, .answer 0 ⟨1, 80⟩, .ask]).map
        (fun s => (s.phase, decide (s.wil.sinfoGen = s.first), s.stations, s.wil.stations))
      = some (.ended, true, [(0, 0x10), (2, 0x12)], [(1, 0x11), (2, 0x12)]) := by
    decide +kernel
  obtain ⟨s, hs, hend⟩ := Option.map_eq_some_iff.mp hrun
  simp only [Prod.mk.injEq] at hend
  obtain ⟨hended, hgen, hdumped, hstations⟩ := hend
  have heq := h _ s (.of_exec hs) hended (of_decide_eq_true hgen)
  rw [hdumped, hstations] at heq
  exact absurd heq (by decide)

/-- **A question in between.**  Station 0 is disconnected: its count comes before the dump, and it is
taken down behind the first answer.  Every change counts, and again station 1 is not dumped. -/
theorem not_stationDump_run_between : ¬ ∀ (handler : StaHandler) (as : List DumpAction)
    (s : DumpSys), Machine.Exec DumpSys.step DumpSys.Counted (.init apOfThree handler) as s →
      s.phase = .ended → s.wil.sinfoGen = s.first → s.stations = s.wil.stations := by
  intro h
  have hrun : (Machine.exec DumpSys.step DumpSys.Counted (.init apOfThree .idle)
      [.disconnect 0x10, .ask, .answer 0 ⟨1, 80⟩, .proceed, .proceed, .proceed, .ask,
        .answer 0 ⟨1, 80⟩, .ask]).map
        (fun s => (s.phase, decide (s.wil.sinfoGen = s.first), s.stations, s.wil.stations))
      = some (.ended, true, [(0, 0x10), (2, 0x12)], [(1, 0x11), (2, 0x12)]) := by
    decide +kernel
  obtain ⟨s, hs, hend⟩ := Option.map_eq_some_iff.mp hrun
  simp only [Prod.mk.injEq] at hend
  obtain ⟨hended, hgen, hdumped, hstations⟩ := hend
  have heq := h _ _ s (.of_exec hs) hended (of_decide_eq_true hgen)
  rw [hdumped, hstations] at heq
  exact absurd heq (by decide)

end Wil6210
