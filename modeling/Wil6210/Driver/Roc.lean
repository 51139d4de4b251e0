import Wil6210.Driver.Cfg80211

/-!
# The life of a remain-on-channel

`offchannel.c`, with every interleaving of requests, of the delayed work that ends one and of
cancels.  `wil->mutex` is held by a request from its test of `roc->cookie` to its return, and by the
work item in its critical section; `RocHolder` says by whom.  Scans, connects and events go on next
to it and change `scan_request` and `dontscan`.

What happened is kept in `log`, which nothing reads.  `RocLife` is what the requests are for, as an
automaton over the log: one is active at a time, and reports `ready` and `expired` in turn.
`rocLifeOk_run` says that every run is a word of it.
-/

namespace Wil6210

/-! ## A request in a row -/

/-- The arguments of `wil_prepare_roc`.  There is a channel: the function reads it before it tests
for one.  `buf` is the address of the frame, 0 for none; `cookie` is whether there is room for the
cookie. -/
structure RocRequest where
  chan : Ieee80211Channel
  buf : ℕ
  len : ℕ
  duration : ℕ
  cookie : Bool
  deriving DecidableEq, Repr

/-- The return codes of the WMI functions that a request uses. -/
structure RocOutcome where
  p2pCfg : ℤ
  setSsid : ℤ
  startListen : ℤ
  stopDiscovery : ℤ
  deriving DecidableEq, Repr

/-- `wil_start_roc` behind `wmi_p2p_cfg`, up to the queueing of the work item.  Only the later two
failures go to `out_stop`. -/
def rocCommands (w : CfgWil) (o : RocOutcome) : CfgWil × ℤ :=
  if o.p2pCfg ≠ 0 then (w, o.p2pCfg)
  else if o.setSsid ≠ 0 then (wmiStopDiscovery w, o.setSsid)
  else if o.startListen ≠ 0 then (wmiStopDiscovery w, o.startListen)
  else (w, 0)

/-- `wil_start_roc` -/
def wilStartRoc (w : CfgWil) (o : RocOutcome) : CfgWil × ℤ :=
  match wmiP2pCfg w with
  | none => (w, eAgain)
  | some w => rocCommands w o

/-- `wil_prepare_roc` -/
def wilPrepareRoc (w : CfgWil) (req : RocRequest) (o : RocOutcome) : CfgWil × ℤ × List CfgEvent :=
  if req.cookie = false then (w, eInval, [])
  else if w.roc.cookie ≠ 0 then (w, eBusy, [])
  else
    let p := wilStartRoc (rocPrepare w (some req.buf)) o
    let q := rocFinish p.1 p.2
    (q.1, p.2, q.2)

/-- The steps behind `wmi_p2p_cfg` in a row are the rest of the call. -/
lemma rocCommands_steps {s : CfgSys} {usePcpForAp : Bool} (hop : s.op = .roc .p2pCfg)
    (o : RocOutcome) : ∃ as t, Machine.Exec (CfgSys.step usePcpForAp) (fun _ _ => True) s as t ∧
      t.op = .idle ∧ t.wil = (rocFinish (rocCommands s.wil o).1 (rocCommands s.wil o).2).1 ∧
      t.log = s.log ++ (rocFinish (rocCommands s.wil o).1 (rocCommands s.wil o).2).2 := by
  have hnext : ∀ u : CfgSys, ∀ stage rc, u.op = .roc stage →
      u.step usePcpForAp (.reply rc) = some (u.rocReply rc stage) := by
    intro u stage rc hu
    simp [CfgSys.step, CfgSys.reply, hu]
  by_cases hp : o.p2pCfg = 0
  · by_cases hssid : o.setSsid = 0
    · by_cases hlisten : o.startListen = 0
      · refine ⟨[.reply 0, .reply 0, .reply 0], _,
          ⟨trivial, _, hnext _ _ _ hop, trivial, _, hnext _ .setSsid _ rfl, trivial, _,
            hnext _ .startListen _ rfl, rfl⟩, ?_⟩
        simp [rocCommands, hp, hssid, hlisten, CfgSys.rocReply, CfgSys.rocOut]
      · refine ⟨[.reply 0, .reply 0, .reply o.startListen, .reply o.stopDiscovery],
          { s with op := .roc (.stop o.startListen), wil := wmiStopDiscovery s.wil }.rocOut
            o.startListen,
          ⟨trivial, _, hnext _ _ _ hop, trivial, _, hnext _ .setSsid _ rfl, trivial, _,
            hnext _ .startListen _ rfl, trivial, _, hnext _ (.stop o.startListen) _ ?_, ?_⟩, ?_⟩
        · simp [CfgSys.rocReply, hlisten]
        · simp [Machine.Exec, CfgSys.rocReply, hlisten]
        · simp [rocCommands, hp, hssid, hlisten, CfgSys.rocOut]
    · refine ⟨[.reply 0, .reply o.setSsid, .reply o.stopDiscovery],
        { s with op := .roc (.stop o.setSsid), wil := wmiStopDiscovery s.wil }.rocOut o.setSsid,
        ⟨trivial, _, hnext _ _ _ hop, trivial, _, hnext _ .setSsid _ rfl, trivial, _,
          hnext _ (.stop o.setSsid) _ ?_, ?_⟩, ?_⟩
      · simp [CfgSys.rocReply, hssid]
      · simp [Machine.Exec, CfgSys.rocReply, hssid]
      · simp [rocCommands, hp, hssid, CfgSys.rocOut]
  · refine ⟨[.reply o.p2pCfg], s.rocOut o.p2pCfg, ⟨trivial, _, hnext _ _ _ hop, ?_⟩, ?_⟩
    · simp [Machine.Exec, CfgSys.rocReply, hp]
    · simp [rocCommands, hp, CfgSys.rocOut]

/-- **The steps of a request in a row are `wil_prepare_roc`.** -/
theorem rocSteps_eq {s : CfgSys} {usePcpForAp : Bool} (hidle : s.op = .idle)
    (hwork : s.work ≠ .running) {req : RocRequest} (hroom : req.cookie = true)
    (o : RocOutcome) : ∃ as t, Machine.Exec (CfgSys.step usePcpForAp) (fun _ _ => True) s
        (.remainOnChannel (some req.buf) :: as) t ∧ t.op = .idle ∧
      t.wil = (wilPrepareRoc s.wil req o).1 ∧ t.log = s.log ++ (wilPrepareRoc s.wil req o).2.2 := by
  have hstep : s.step usePcpForAp (.remainOnChannel (some req.buf))
      = some (s.remainOnChannel (some req.buf)) := if_pos ⟨hidle, hwork⟩
  suffices hrest : ∃ as t, Machine.Exec (CfgSys.step usePcpForAp) (fun _ _ => True)
      (s.remainOnChannel (some req.buf)) as t ∧ t.op = .idle ∧
      t.wil = (wilPrepareRoc s.wil req o).1 ∧
      t.log = s.log ++ (wilPrepareRoc s.wil req o).2.2 by
    obtain ⟨as, t, hexec, hend⟩ := hrest
    exact ⟨as, t, ⟨trivial, _, hstep, hexec⟩, hend⟩
  rw [wilPrepareRoc, if_neg (by simp [hroom])]
  by_cases hcookie : s.wil.roc.cookie = 0
  · rw [if_neg (not_not.mpr hcookie), wilStartRoc]
    cases hcfg : wmiP2pCfg (rocPrepare s.wil (some req.buf)) with
    | none =>
        have hout : s.remainOnChannel (some req.buf)
            = { s with wil := rocPrepare s.wil (some req.buf) }.rocOut eAgain := by
          simp [CfgSys.remainOnChannel, hcookie, hcfg]
        exact ⟨[], _, rfl, by rw [hout]; rfl, by rw [hout]; rfl, by rw [hout]; rfl⟩
    | some w =>
        have hfirst : s.remainOnChannel (some req.buf)
            = { s with wil := w, op := .roc .p2pCfg } := by
          simp [CfgSys.remainOnChannel, hcookie, hcfg]
        rw [hfirst]
        exact rocCommands_steps rfl o
  · rw [if_pos hcookie, CfgSys.remainOnChannel, if_pos hcookie]
    exact ⟨[], s, rfl, hidle, rfl, (List.append_nil _).symm⟩

/-! ## Requests, expiries and cancels -/

/-- The fields of `struct wil_roc` next to the cookies and the work item. -/
structure RocParams where
  chan : Option Ieee80211Channel
  duration : ℕ
  buf : ℕ
  len : ℕ
  started : Bool
  deriving DecidableEq, Repr

/-- What `wil_prepare_roc` stores of a request; `buf` and `len` only of one with a frame. -/
def rocParams (p : RocParams) (req : RocRequest) : RocParams where
  chan := some req.chan
  duration := if req.duration = 0 ∧ req.buf = 0 then 10 else req.duration
  buf := if req.buf ≠ 0 then req.buf else p.buf
  len := if req.buf ≠ 0 then req.len else p.len
  started := p.started

/-- Who holds `wil->mutex`. -/
inductive RocHolder
  | free
  /-- a request, in the WMI function of this stage -/
  | prepare (stage : RocStage)
  /-- the work item, in `wmi_stop_discovery` -/
  | work
  deriving DecidableEq, Repr

/-- `roc->work` -/
inductive DelayedWork
  | idle
  /-- its timer is running -/
  | delayed
  /-- on the work queue, up to its critical section -/
  | ready
  | running
  deriving DecidableEq, Repr

/-- What happens to requests. -/
inductive RocEvent
  /-- A request passed the test of `roc->cookie`; `buf` as in the request. -/
  | accepted (cookie buf : ℕ)
  /-- A request returned at one of its tests. -/
  | refused (rc : ℤ)
  /-- cfg80211 is told. -/
  | report (e : CfgEvent) (chan : Option Ieee80211Channel) (duration : ℕ)
  /-- An accepted request returned. -/
  | returned (rc : ℤ)
  /-- The work item executed its critical section. -/
  | over
  /-- A cancel: the operation that waits for its timer, if any, and whether it was cut short. -/
  | cancel (cookie : ℕ) (target : Option ℕ) (cut : Bool)
  deriving DecidableEq, Repr

structure RocSys where
  wil : CfgWil
  params : RocParams
  holder : RocHolder
  work : DelayedWork
  log : List RocEvent

inductive RocAction
  | prepare (req : RocRequest)
  /-- The WMI function that the request waits for returns `rc`. -/
  | reply (rc : ℤ)
  /-- The delay is over. -/
  | timer
  /-- The work item takes the mutex. -/
  | run
  /-- `wmi_stop_discovery` returns to the work item. -/
  | stopped
  | cancelRemainOnChannel (cookie : ℕ)
  | mgmtTxCancelWait (cookie : ℕ)
  /-- Scans, connects and events. -/
  | other (scanRequest : Option ℕ) (dontscan : Bool)

/-- The cookie that the caller of `wil_prepare_roc` was given. -/
def WilRoc.given (roc : WilRoc) : ℕ := if roc.mgmtTxCookie ≠ 0 then roc.mgmtTxCookie else roc.cookie

namespace RocSys

/-- cfg80211 is told, with the channel and the duration of the request. -/
def tell (s : RocSys) (es : List CfgEvent) : List RocEvent :=
  es.map fun e => .report e s.params.chan s.params.duration

/-- The end of `wil_prepare_roc`, behind `wil_start_roc`. -/
def out (s : RocSys) (rc : ℤ) : RocSys :=
  { s with
    wil := (rocFinish s.wil rc).1
    holder := .free
    log := s.log ++ (s.tell (rocFinish s.wil rc).2 ++ [.returned rc]) }

/-- `wil_prepare_roc`, from the mutex to the first command. -/
def prepare (s : RocSys) (req : RocRequest) : RocSys :=
  if s.wil.roc.cookie ≠ 0 then { s with log := s.log ++ [.refused eBusy] }
  else
    let w := rocPrepare s.wil (some req.buf)
    let t := { s with
      wil := w
      params := rocParams s.params req
      log := s.log ++ [RocEvent.accepted w.roc.cookie w.roc.mgmtTxCookie] }
    match wmiP2pCfg w with
    | none => t.out eAgain
    | some w => { t with wil := w, holder := .prepare .p2pCfg }

/-- `wil_start_roc`, from the return of one command to the next one. -/
def rocReply (s : RocSys) (rc : ℤ) : RocStage → RocSys
  | .p2pCfg => if rc ≠ 0 then s.out rc else { s with holder := .prepare .setSsid }
  | .setSsid =>
      if rc ≠ 0 then { s with holder := .prepare (.stop rc) }
      else { s with holder := .prepare .startListen }
  | .startListen =>
      if rc ≠ 0 then { s with holder := .prepare (.stop rc) }
      else
        { s with params := { s.params with started := true }, work := .delayed }.out 0
  | .stop rc' => { s with wil := wmiStopDiscovery s.wil }.out rc'

/-- The critical section of `wil_roc_cancel_work`, from the return of `wmi_stop_discovery`. -/
def cancelWork (s : RocSys) : RocSys :=
  { s with
    wil := (rocCancelled s.wil).1
    holder := .free
    work := .idle
    log := s.log ++ (s.tell (rocCancelled s.wil).2 ++ [.over]) }

/-- `wil_cancel_roc`: `flush_delayed_work` puts the work item on its queue without further delay. -/
def wilCancelRoc (s : RocSys) : RocSys :=
  { s with work := if s.work = .delayed then .ready else s.work }

/-- The body of both cancel calls.  A cookie other than `roc->cookie` is reported as an error, and
nothing else comes of it. -/
def cancelCall (s : RocSys) (cookie : ℕ) : RocSys :=
  { s.wilCancelRoc with
    log := s.log ++ [.cancel cookie (if s.work = .delayed then some s.wil.roc.given else none)
      (s.work = .delayed ∧ s.wilCancelRoc.work ≠ .delayed)] }

/-- `wil_cancel_remain_on_channel` -/
def wilCancelRemainOnChannel (s : RocSys) (cookie : ℕ) : RocSys := s.cancelCall cookie

/-- `wil_cfg80211_mgmt_tx_cancel_wait` -/
def wilCfg80211MgmtTxCancelWait (s : RocSys) (cookie : ℕ) : RocSys := s.cancelCall cookie

/-- One step.  A request that has to wait for the mutex is not there yet. -/
def step (s : RocSys) : RocAction → Option RocSys
  | .prepare req =>
      if req.cookie = false then some { s with log := s.log ++ [.refused eInval] }
      else if s.holder = .free then some (s.prepare req)
      else none
  | .reply rc =>
      match s.holder with
      | .prepare stage => some (s.rocReply rc stage)
      | _ => none
  | .timer => if s.work = .delayed then some { s with work := .ready } else none
  | .run =>
      if s.work = .ready ∧ s.holder = .free then some { s with work := .running, holder := .work }
      else none
  | .stopped => if s.holder = .work then some s.cancelWork else none
  | .cancelRemainOnChannel cookie => some (s.wilCancelRemainOnChannel cookie)
  | .mgmtTxCancelWait cookie => some (s.wilCfg80211MgmtTxCancelWait cookie)
  | .other scanRequest dontscan =>
      some { s with wil := { s.wil with scanRequest := scanRequest, dontscan := dontscan } }

def init (iftype : Iftype) : RocSys where
  wil := ⟨iftype, none, false, ⟨0, 0⟩, 0⟩
  params := ⟨none, 0, 0, 0, false⟩
  holder := .free
  work := .idle
  log := []

end RocSys

/-! ## What the requests are for -/

/-- Where the requests are: at most one is on its way, or active with its cookie. -/
inductive RocLife
  | idle
  | starting (cookie buf : ℕ)
  | reported (cookie buf : ℕ) (ok : Bool)
  | active (cookie buf : ℕ)
  | expired
  deriving DecidableEq, Repr

/-- What may happen next.  A request without a frame reports ready, and once it is active expired,
with its cookie; one with a frame reports how the frame fared.  Another one is refused as busy. -/
def RocLife.next : RocLife → RocEvent → Option RocLife
  | l, .cancel _ _ _ => some l
  | .active cookie buf, .refused rc =>
      if rc = eInval ∨ rc = eBusy then some (.active cookie buf) else none
  | l, .refused rc => if rc = eInval then some l else none
  | .idle, .accepted cookie buf => if cookie ≠ 0 then some (.starting cookie buf) else none
  | .starting cookie buf, .report (.readyOnChannel c) _ _ =>
      if buf = 0 ∧ c = cookie then some (.reported cookie buf true) else none
  | .starting cookie buf, .report (.mgmtTxStatus c ack) _ _ =>
      if buf ≠ 0 ∧ c = buf then some (.reported cookie buf ack) else none
  | .starting _ buf, .returned rc => if buf = 0 ∧ rc ≠ 0 then some .idle else none
  | .reported cookie buf true, .returned rc => if rc = 0 then some (.active cookie buf) else none
  | .reported _ _ false, .returned rc => if rc ≠ 0 then some .idle else none
  | .active cookie buf, .report (.remainOnChannelExpired c) _ _ =>
      if buf = 0 ∧ c = cookie then some .expired else none
  | .active _ buf, .over => if buf ≠ 0 then some .idle else none
  | .expired, .over => some .idle
  | _, _ => none

/-- The cookies that were reported ready. -/
def readyCookies (log : List RocEvent) : List ℕ :=
  log.filterMap fun
    | .report (.readyOnChannel c) _ _ => some c
    | _ => none

/-- How many requests were accepted: how far `roc_counter` has counted. -/
def acceptedRequests (log : List RocEvent) : ℕ :=
  log.countP fun
    | .accepted _ _ => true
    | _ => false

/-- **What must hold** of the requests. -/
structure RocLifeOk (s : RocSys) : Prop where
  cookie : s.holder = .free → (s.wil.roc.cookie ≠ 0 ↔ s.work ≠ .idle)
  busy : s.holder = .free → s.work ≠ .idle → ∀ req : RocRequest, req.cookie = true →
    s.step (.prepare req) = some { s with log := s.log ++ [.refused eBusy] }
  life : (s.log.foldlM RocLife.next .idle).isSome
  failed : ∀ rc ≠ 0, s.log.getLast? = some (.returned rc) →
    s.holder = .free ∧ s.wil.roc = ⟨0, 0⟩
  expires : s.holder = .free → s.work ≠ .idle → ∃ as t,
    Machine.Exec RocSys.step (fun _ _ => True) s as t ∧ t.work = .idle ∧
      t.log = s.log ++ (s.tell (if s.wil.roc.mgmtTxCookie = 0 then
        [.remainOnChannelExpired s.wil.roc.cookie] else []) ++ [.over])
  distinct : acceptedRequests s.log < 2 ^ 64 → (readyCookies s.log).Nodup

/-! ## Every run -/

section Run

variable {s t : RocSys} {l : RocLife}

/-- What the state says of where the requests are. -/
def RocLife.Matches (s : RocSys) : RocLife → Prop
  | .idle => s.holder = .free ∧ s.work = .idle ∧ s.wil.roc = ⟨0, 0⟩
  | .starting cookie buf =>
      s.work = .idle ∧ cookie ≠ 0 ∧ s.wil.roc = ⟨cookie, buf⟩ ∧ ∃ stage,
        s.holder = .prepare stage ∧ ∀ rc, stage = .stop rc → rc ≠ 0
  | .active cookie buf =>
      cookie ≠ 0 ∧ s.wil.roc = ⟨cookie, buf⟩ ∧
        (s.holder = .free ∧ (s.work = .delayed ∨ s.work = .ready) ∨
          s.holder = .work ∧ s.work = .running)
  | .reported _ _ _ | .expired => False

/-- Between two steps.  The cookies count up with the requests, so the one that is starting is new. -/
structure RocInv (s : RocSys) (l : RocLife) : Prop where
  run : s.log.foldlM RocLife.next .idle = some l
  state : l.Matches s
  counter : acceptedRequests s.log < 2 ^ 64 → s.wil.rocCounter = acceptedRequests s.log
  increasing : acceptedRequests s.log < 2 ^ 64 → (readyCookies s.log).Pairwise (· < ·)
  ready_le : acceptedRequests s.log < 2 ^ 64 → ∀ x ∈ readyCookies s.log, x ≤ s.wil.rocCounter
  fresh : acceptedRequests s.log < 2 ^ 64 → ∀ cookie buf, l = .starting cookie buf →
    cookie = s.wil.rocCounter ∧ ∀ x ∈ readyCookies s.log, x < cookie

lemma life_append {log es : List RocEvent} (h : log.foldlM RocLife.next .idle = some l) :
    (log ++ es).foldlM RocLife.next .idle = es.foldlM RocLife.next l := by
  rw [List.foldlM_append, h]
  rfl

@[simp] lemma readyCookies_append (log es : List RocEvent) :
    readyCookies (log ++ es) = readyCookies log ++ readyCookies es := List.filterMap_append

@[simp] lemma acceptedRequests_append (log es : List RocEvent) :
    acceptedRequests (log ++ es) = acceptedRequests log + acceptedRequests es :=
  List.countP_append

/-- A step that starts no request, reports none ready and leaves the counter. -/
lemma RocInv.moved (h : RocInv s l) {l' : RocLife} {es : List RocEvent} (hlog : t.log = s.log ++ es)
    (hes : es.foldlM RocLife.next l = some l') (hl : ∀ c b, l' = .starting c b → l' = l)
    (hready : readyCookies es = []) (haccepted : acceptedRequests es = 0)
    (hcounter : t.wil.rocCounter = s.wil.rocCounter) (hstate : l'.Matches t) : RocInv t l' := by
  have hcount : acceptedRequests t.log = acceptedRequests s.log := by
    rw [hlog, acceptedRequests_append, haccepted, Nat.add_zero]
  have hcookies : readyCookies t.log = readyCookies s.log := by
    rw [hlog, readyCookies_append, hready, List.append_nil]
  refine ⟨?_, hstate, ?_, ?_, ?_, ?_⟩
  · rw [hlog, life_append h.run, hes]
  · rw [hcount, hcounter]
    exact h.counter
  · rw [hcount, hcookies]
    exact h.increasing
  · rw [hcount, hcookies, hcounter]
    exact h.ready_le
  · rw [hcount, hcookies, hcounter]
    exact fun hn c b hc => h.fresh hn c b ((hl c b hc).symm.trans hc)

/-- A step that moves no request. -/
lemma RocInv.keep (h : RocInv s l) {es : List RocEvent} (hlog : t.log = s.log ++ es)
    (hes : es.foldlM RocLife.next l = some l) (hready : readyCookies es = [])
    (haccepted : acceptedRequests es = 0) (hcounter : t.wil.rocCounter = s.wil.rocCounter)
    (hstate : l.Matches t) : RocInv t l :=
  h.moved hlog hes (fun _ _ _ => rfl) hready haccepted hcounter hstate

/-- Nothing is logged. -/
lemma RocInv.unlogged (h : RocInv s l) (hlog : t.log = s.log)
    (hcounter : t.wil.rocCounter = s.wil.rocCounter) (hstate : l.Matches t) : RocInv t l := by
  have hnone : t.log = s.log ++ [] := by rw [hlog, List.append_nil]
  exact h.keep hnone rfl rfl rfl hcounter hstate

/-- Refused requests and cancels are nothing to the others. -/
lemma RocLife.next_refused (l : RocLife) :
    [RocEvent.refused eInval].foldlM RocLife.next l = some l := by
  cases l <;> rfl

lemma RocLife.next_cancel (l : RocLife) (cookie : ℕ) (target : Option ℕ) (cut : Bool) :
    [RocEvent.cancel cookie target cut].foldlM RocLife.next l = some l := by
  cases l <;> rfl

/-- The request that is starting reports, and is not starting any more. -/
lemma RocInv.report {cookie buf : ℕ} (h : RocInv s (.starting cookie buf)) {es : List RocEvent}
    (hlog : t.log = s.log ++ es) (hes : es.foldlM RocLife.next (.starting cookie buf) = some l)
    (hl : ∀ c b, l ≠ .starting c b) (hready : readyCookies es = [] ∨ readyCookies es = [cookie])
    (haccepted : acceptedRequests es = 0) (hcounter : t.wil.rocCounter = s.wil.rocCounter)
    (hstate : l.Matches t) : RocInv t l := by
  have hcount : acceptedRequests t.log = acceptedRequests s.log := by
    rw [hlog, acceptedRequests_append, haccepted, Nat.add_zero]
  refine ⟨?_, hstate, ?_, fun hn => ?_, fun hn => ?_, fun _ c b hc => absurd hc (hl c b)⟩
  · rw [hlog, life_append h.run, hes]
  · rw [hcount, hcounter]
    exact h.counter
  · rw [hcount] at hn
    obtain ⟨-, hnew⟩ := h.fresh hn cookie buf rfl
    rw [hlog, readyCookies_append]
    refine List.pairwise_append.mpr ⟨h.increasing hn, ?_, fun x hx y hy => ?_⟩
    · rcases hready with hnil | hone
      · rw [hnil]
        exact List.Pairwise.nil
      · rw [hone]
        exact List.pairwise_singleton _ _
    · rcases hready with hnil | hone
      · rw [hnil] at hy
        exact absurd hy List.not_mem_nil
      · rw [hone, List.mem_singleton] at hy
        exact hy ▸ hnew x hx
  · rw [hcount] at hn
    obtain ⟨hcookie, -⟩ := h.fresh hn cookie buf rfl
    rw [hlog, readyCookies_append, hcounter]
    intro x hx
    rcases List.mem_append.mp hx with hold | hmem
    · exact h.ready_le hn x hold
    · rcases hready with hnil | hone
      · rw [hnil] at hmem
        exact absurd hmem List.not_mem_nil
      · rw [hone, List.mem_singleton] at hmem
        omega

/-- A request that is starting returns. -/
lemma RocInv.out {cookie buf : ℕ} (h : RocInv s (.starting cookie buf)) (rc : ℤ)
    (hwork : t.work = if rc = 0 then .delayed else .idle) (hroc : t.wil.roc = s.wil.roc)
    (hcounter : t.wil.rocCounter = s.wil.rocCounter) (hlog : t.log = s.log) :
    ∃ l, RocInv (t.out rc) l := by
  obtain ⟨-, hne, hcookie, -⟩ := h.state
  have hmgmt : t.wil.roc.mgmtTxCookie = buf := by rw [hroc, hcookie]
  have hactive : t.wil.roc.cookie = cookie := by rw [hroc, hcookie]
  have htlog : (t.out rc).log = s.log ++ (t.tell (rocFinish t.wil rc).2 ++ [.returned rc]) := by
    rw [RocSys.out, hlog]
  by_cases hrc : rc = 0
  · rw [if_pos hrc] at hwork
    have hstate : (RocLife.active cookie buf).Matches (t.out rc) := by
      refine ⟨hne, ?_, Or.inl ⟨rfl, Or.inl hwork⟩⟩
      rw [RocSys.out, rocFinish, if_pos hrc, hroc, hcookie]
    refine ⟨.active cookie buf, h.report htlog ?_ (by simp) ?_ ?_ ?_ hstate⟩
    · by_cases hbuf : buf = 0 <;>
        simp [rocFinish, hrc, hmgmt, hactive, hbuf, RocSys.tell, RocLife.next]
    · by_cases hbuf : buf = 0 <;>
        simp [rocFinish, hrc, hmgmt, hactive, hbuf, RocSys.tell, readyCookies]
    · by_cases hbuf : buf = 0 <;>
        simp [rocFinish, hrc, hmgmt, hactive, hbuf, RocSys.tell, acceptedRequests]
    · rw [RocSys.out, rocFinish, if_pos hrc, hcounter]
  · rw [if_neg hrc] at hwork
    have hstate : RocLife.idle.Matches (t.out rc) := by
      refine ⟨rfl, hwork, ?_⟩
      rw [RocSys.out, rocFinish, if_neg hrc]
    refine ⟨.idle, h.report htlog ?_ (by simp) ?_ ?_ ?_ hstate⟩
    · by_cases hbuf : buf = 0 <;>
        simp [rocFinish, hrc, hmgmt, hbuf, RocSys.tell, RocLife.next]
    · by_cases hbuf : buf = 0 <;> simp [rocFinish, hrc, hmgmt, hbuf, RocSys.tell, readyCookies]
    · by_cases hbuf : buf = 0 <;>
        simp [rocFinish, hrc, hmgmt, hbuf, RocSys.tell, acceptedRequests]
    · rw [RocSys.out, rocFinish, if_neg hrc, hcounter]

/-- A request is accepted. -/
lemma RocInv.accept (h : RocInv s .idle) {buf : ℕ}
    (hroc : t.wil.roc = (rocPrepare s.wil (some buf)).roc)
    (hcounter : t.wil.rocCounter = (rocPrepare s.wil (some buf)).rocCounter)
    (hlog : t.log = s.log ++ [.accepted t.wil.roc.cookie buf]) {stage : RocStage}
    (hholder : t.holder = .prepare stage) (hstage : ∀ rc, stage = .stop rc → rc ≠ 0)
    (hwork : t.work = .idle) : RocInv t (.starting t.wil.roc.cookie buf) := by
  have hcookie : t.wil.roc.cookie = t.wil.rocCounter := by rw [hroc, hcounter]; rfl
  have hbuf : t.wil.roc = ⟨t.wil.roc.cookie, buf⟩ := by rw [hroc]; rfl
  have hnew : t.wil.rocCounter = if (s.wil.rocCounter + 1) % 2 ^ 64 = 0 then 1
      else (s.wil.rocCounter + 1) % 2 ^ 64 := hcounter
  have hne : t.wil.roc.cookie ≠ 0 := by
    rw [hcookie, hnew]
    split_ifs with hzero
    · exact one_ne_zero
    · exact hzero
  have hcount : acceptedRequests t.log = acceptedRequests s.log + 1 := by
    rw [hlog, acceptedRequests_append]
    rfl
  have hready : readyCookies t.log = readyCookies s.log := by
    rw [hlog, readyCookies_append]
    exact List.append_nil _
  have hnext : acceptedRequests t.log < 2 ^ 64 →
      t.wil.rocCounter = s.wil.rocCounter + 1 ∧ acceptedRequests s.log < 2 ^ 64 ∧
        s.wil.rocCounter = acceptedRequests s.log := by
    intro hn
    rw [hcount] at hn
    have hold := h.counter (by omega)
    refine ⟨?_, by omega, hold⟩
    rw [hnew, Nat.mod_eq_of_lt (by omega), if_neg (Nat.succ_ne_zero _)]
  refine ⟨?_, ⟨hwork, hne, hbuf, stage, hholder, hstage⟩, fun hn => ?_, fun hn => ?_, fun hn => ?_,
    fun hn c b hc => ?_⟩
  · rw [hlog, life_append h.run]
    simp [RocLife.next, hne]
  · obtain ⟨hstep, -, hold⟩ := hnext hn
    rw [hcount, hstep, hold]
  · rw [hready]
    exact h.increasing (hnext hn).2.1
  · rw [hready, (hnext hn).1]
    intro x hx
    have hle := h.ready_le (hnext hn).2.1 x hx
    omega
  · obtain ⟨rfl, rfl⟩ : t.wil.roc.cookie = c ∧ buf = b := by simpa using hc
    refine ⟨hcookie, fun x hx => ?_⟩
    rw [hready] at hx
    have hle := h.ready_le (hnext hn).2.1 x hx
    rw [hcookie, (hnext hn).1]
    omega

/-- With the mutex free, a request is active if there is a cookie, and none otherwise. -/
lemma RocInv.free_cases (h : RocInv s l) (hfree : s.holder = .free) :
    (∃ c b, l = .active c b ∧ c ≠ 0 ∧ s.wil.roc = ⟨c, b⟩ ∧
        (s.work = .delayed ∨ s.work = .ready)) ∨
      l = .idle ∧ s.wil.roc = ⟨0, 0⟩ ∧ s.work = .idle := by
  cases l with
  | idle => exact Or.inr ⟨rfl, h.state.2.2, h.state.2.1⟩
  | starting c b =>
      obtain ⟨-, -, -, stage, hholder, -⟩ := h.state
      rw [hfree] at hholder
      exact absurd hholder (by simp)
  | active c b =>
      obtain ⟨hne, hroc, ⟨-, hwork⟩ | ⟨hholder, -⟩⟩ := h.state
      · exact Or.inl ⟨c, b, rfl, hne, hroc, hwork⟩
      · rw [hfree] at hholder
        exact absurd hholder (by simp)
  | reported c b ok => exact absurd h.state id
  | expired => exact absurd h.state id

/-- The start of a request. -/
lemma RocInv.prepare (h : RocInv s l) (hfree : s.holder = .free) (req : RocRequest) :
    ∃ l, RocInv (s.prepare req) l := by
  rw [RocSys.prepare]
  rcases h.free_cases hfree with ⟨c, b, rfl, hne, hroc, -⟩ | ⟨rfl, hzero, hwork⟩
  · rw [if_pos (by rw [hroc]; exact hne)]
    exact ⟨_, h.keep rfl (by simp [RocLife.next]) rfl rfl rfl h.state⟩
  · rw [if_neg (by rw [hzero]; simp)]
    have hacc : ∀ w : CfgWil, w.roc = (rocPrepare s.wil (some req.buf)).roc →
        w.rocCounter = (rocPrepare s.wil (some req.buf)).rocCounter →
        RocInv { s with
          wil := w
          params := rocParams s.params req
          holder := .prepare .p2pCfg
          log := s.log ++ [.accepted (rocPrepare s.wil (some req.buf)).roc.cookie
            (rocPrepare s.wil (some req.buf)).roc.mgmtTxCookie] }
          (.starting w.roc.cookie req.buf) := by
      intro w hw hcounter
      refine h.accept hw hcounter ?_ rfl (by simp) hwork
      rw [hw]
      rfl
    dsimp only
    cases hcfg : wmiP2pCfg (rocPrepare s.wil (some req.buf)) with
    | none => exact (hacc _ rfl rfl).out eAgain hwork rfl rfl rfl
    | some w =>
        have hw : w = { rocPrepare s.wil (some req.buf) with dontscan := true } := by
          rw [wmiP2pCfg] at hcfg
          split_ifs at hcfg
          exact (Option.some.inj hcfg).symm
        exact ⟨_, hacc w (by rw [hw]) (by rw [hw])⟩

/-- The answer to a command. -/
lemma RocInv.rocReply (h : RocInv s l) {stage : RocStage} (hholder : s.holder = .prepare stage)
    (rc : ℤ) : ∃ l, RocInv (s.rocReply rc stage) l := by
  cases l with
  | starting c b =>
      obtain ⟨hwork, hne, hroc, stage', hstage', hstop⟩ := h.state
      obtain rfl : stage = stage' := by simpa [hholder] using hstage'
      have hgo : ∀ next : RocStage, (∀ rc, next = .stop rc → rc ≠ 0) →
          RocInv { s with holder := .prepare next } (.starting c b) := fun next hnext =>
        h.unlogged rfl rfl ⟨hwork, hne, hroc, next, rfl, hnext⟩
      cases stage with
      | p2pCfg =>
          rw [RocSys.rocReply]
          split_ifs with hrc
          · exact h.out rc (by rw [hwork, if_neg hrc]) rfl rfl rfl
          · exact ⟨_, hgo _ (by simp)⟩
      | setSsid =>
          rw [RocSys.rocReply]
          split_ifs with hrc
          · exact ⟨_, hgo _ (by simpa using hrc)⟩
          · exact ⟨_, hgo _ (by simp)⟩
      | startListen =>
          rw [RocSys.rocReply]
          split_ifs with hrc
          · exact ⟨_, hgo _ (by simpa using hrc)⟩
          · exact h.out 0 rfl rfl rfl rfl
      | stop rc' =>
          exact h.out rc' (by rw [if_neg (hstop rc' rfl)]; exact hwork) rfl rfl rfl
  | idle =>
      rw [h.state.1] at hholder
      exact absurd hholder (by simp)
  | active c b =>
      obtain ⟨-, -, ⟨hfree, -⟩ | ⟨hfree, -⟩⟩ := h.state <;>
      · rw [hfree] at hholder
        exact absurd hholder (by simp)
  | reported c b ok => exact absurd h.state id
  | expired => exact absurd h.state id

/-- The critical section of the work item. -/
lemma RocInv.cancelWork (h : RocInv s l) (hholder : s.holder = .work) :
    RocInv s.cancelWork .idle := by
  cases l with
  | active c b =>
      obtain ⟨-, hroc, -⟩ := h.state
      refine h.moved rfl ?_ (by simp) ?_ ?_ rfl ⟨rfl, rfl, rfl⟩
      · by_cases hb : b = 0 <;> simp [rocCancelled, hroc, hb, RocSys.tell, RocLife.next]
      · by_cases hb : b = 0 <;> simp [rocCancelled, hroc, hb, RocSys.tell, readyCookies]
      · by_cases hb : b = 0 <;> simp [rocCancelled, hroc, hb, RocSys.tell, acceptedRequests]
  | idle =>
      rw [h.state.1] at hholder
      exact absurd hholder (by simp)
  | starting c b =>
      obtain ⟨-, -, -, stage, hstage, -⟩ := h.state
      rw [hholder] at hstage
      exact absurd hstage (by simp)
  | reported c b ok => exact absurd h.state id
  | expired => exact absurd h.state id

/-- A work item that is put on its queue. -/
lemma RocLife.Matches.ready (h : l.Matches s) (hwork : s.work = .delayed) {log : List RocEvent} :
    l.Matches { s with work := .ready, log := log } := by
  cases l with
  | idle =>
      rw [h.2.1] at hwork
      exact absurd hwork (by simp)
  | starting c b =>
      rw [h.1] at hwork
      exact absurd hwork (by simp)
  | active c b =>
      obtain ⟨hne, hroc, ⟨hfree, -⟩ | ⟨-, hrun⟩⟩ := h
      · exact ⟨hne, hroc, Or.inl ⟨hfree, Or.inr rfl⟩⟩
      · rw [hrun] at hwork
        exact absurd hwork (by simp)
  | reported c b ok => exact h
  | expired => exact h

/-- A cancel. -/
lemma RocInv.cancelCall (h : RocInv s l) (cookie : ℕ) : RocInv (s.cancelCall cookie) l := by
  refine h.keep rfl (l.next_cancel _ _ _) rfl rfl rfl ?_
  by_cases hwork : s.work = .delayed
  · have heq : s.cancelCall cookie
        = { s with work := .ready, log := (s.cancelCall cookie).log } := by
      simp [RocSys.cancelCall, RocSys.wilCancelRoc, hwork]
    rw [heq]
    exact h.state.ready hwork
  · have heq : s.cancelCall cookie = { s with log := (s.cancelCall cookie).log } := by
      simp [RocSys.cancelCall, RocSys.wilCancelRoc, hwork]
    rw [heq]
    cases l <;> exact h.state

/-- **One step** keeps the invariant. -/
lemma RocInv.step (h : RocInv s l) {a : RocAction} (ht : s.step a = some t) : ∃ l, RocInv t l := by
  cases a with
  | prepare req =>
      simp only [RocSys.step] at ht
      split_ifs at ht with hbad hfree
      · obtain rfl := Option.some.inj ht
        exact ⟨l, h.keep rfl l.next_refused rfl rfl rfl (by cases l <;> exact h.state)⟩
      · obtain rfl := Option.some.inj ht
        exact h.prepare hfree req
  | reply rc =>
      simp only [RocSys.step] at ht
      split at ht
      · next stage hholder =>
          obtain rfl := Option.some.inj ht
          exact h.rocReply hholder rc
      · exact absurd ht (by simp)
  | timer =>
      obtain ⟨hwork, ht⟩ := Option.ite_none_right_eq_some.mp ht
      obtain rfl := Option.some.inj ht
      exact ⟨l, h.unlogged rfl rfl (h.state.ready hwork)⟩
  | run =>
      obtain ⟨hgo, ht⟩ := Option.ite_none_right_eq_some.mp ht
      obtain rfl := Option.some.inj ht
      obtain ⟨hwork, hfree⟩ := hgo
      rcases h.free_cases hfree with ⟨c, b, rfl, hne, hroc, -⟩ | ⟨-, -, hidle⟩
      · exact ⟨_, h.unlogged rfl rfl
          ⟨hne, hroc, Or.inr ⟨rfl, rfl⟩⟩⟩
      · rw [hwork] at hidle
        exact absurd hidle (by simp)
  | stopped =>
      obtain ⟨hholder, ht⟩ := Option.ite_none_right_eq_some.mp ht
      obtain rfl := Option.some.inj ht
      exact ⟨_, h.cancelWork hholder⟩
  | cancelRemainOnChannel cookie =>
      obtain rfl := Option.some.inj ht
      exact ⟨l, h.cancelCall cookie⟩
  | mgmtTxCancelWait cookie =>
      obtain rfl := Option.some.inj ht
      exact ⟨l, h.cancelCall cookie⟩
  | other scanRequest dontscan =>
      obtain rfl := Option.some.inj ht
      exact ⟨l, h.unlogged rfl rfl
        (by cases l <;> exact h.state)⟩

lemma rocInv_init (iftype : Iftype) : RocInv (RocSys.init iftype) .idle :=
  ⟨rfl, ⟨rfl, rfl, rfl⟩, fun _ => rfl, fun _ => List.Pairwise.nil,
    by simp [RocSys.init, readyCookies], by simp⟩

/-- The work item of an active request is executed, whatever its delay. -/
lemma RocInv.expires (h : RocInv s l) (hfree : s.holder = .free) (hwork : s.work ≠ .idle) :
    ∃ as t, Machine.Exec RocSys.step (fun _ _ => True) s as t ∧ t.work = .idle ∧
      t.log = s.log ++ (s.tell (if s.wil.roc.mgmtTxCookie = 0 then
        [.remainOnChannelExpired s.wil.roc.cookie] else []) ++ [.over]) := by
  have hready : ∀ u : RocSys, u.work = .ready → u.holder = .free →
      Machine.Exec RocSys.step (fun _ _ => True) u [.run, .stopped]
        { u with work := .running, holder := .work }.cancelWork := fun u hu hf =>
    ⟨trivial, _, if_pos ⟨hu, hf⟩, trivial, _, rfl, rfl⟩
  rcases h.free_cases hfree with ⟨c, b, -, -, -, hdelayed | hwait⟩ | ⟨-, -, hidle⟩
  · exact ⟨[.timer, .run, .stopped], _, ⟨trivial, _, if_pos hdelayed,
      hready { s with work := .ready } rfl hfree⟩, rfl, rfl⟩
  · exact ⟨[.run, .stopped], _, hready s hwait hfree, rfl, rfl⟩
  · exact absurd hidle hwork

/-- A return with an error leaves no request. -/
lemma RocLife.next_failed {l₀ : RocLife} {rc : ℤ} (hrc : rc ≠ 0)
    (h : l₀.next (.returned rc) = some l) : l = .idle := by
  cases l₀ with
  | idle | active _ _ | expired => exact absurd h (by simp [RocLife.next])
  | starting c b =>
      simp only [RocLife.next] at h
      split_ifs at h
      exact (Option.some.inj h).symm
  | reported c b ok =>
      cases ok with
      | true => exact absurd h (by simp [RocLife.next, hrc])
      | false =>
          simp only [RocLife.next, ne_eq, hrc, not_false_eq_true, if_true] at h
          exact (Option.some.inj h).symm

/-- A failed request leaves nothing behind. -/
lemma RocInv.failed (h : RocInv s l) {rc : ℤ} (hrc : rc ≠ 0)
    (hlast : s.log.getLast? = some (.returned rc)) : s.holder = .free ∧ s.wil.roc = ⟨0, 0⟩ := by
  obtain ⟨log, hlog⟩ := List.getLast?_eq_some_iff.mp hlast
  have hrun := h.run
  rw [hlog, List.foldlM_append] at hrun
  obtain ⟨l₀, -, hnext⟩ := Option.bind_eq_some_iff.mp hrun
  have hone : l₀.next (.returned rc) = some l := by
    simpa using hnext
  obtain rfl := RocLife.next_failed hrc hone
  exact ⟨h.state.1, h.state.2.2⟩

lemma RocInv.rocLifeOk (h : RocInv s l) : RocLifeOk s where
  cookie hfree := by
    rcases h.free_cases hfree with ⟨c, b, -, hne, hroc, hwork⟩ | ⟨-, hzero, hidle⟩
    · rw [hroc]
      exact ⟨fun _ hidle => by rcases hwork with hw | hw <;> rw [hw] at hidle <;> simp at hidle,
        fun _ => hne⟩
    · rw [hzero, hidle]
      simp
  busy hfree hwork req hroom := by
    rcases h.free_cases hfree with ⟨c, b, -, hne, hroc, -⟩ | ⟨-, -, hidle⟩
    · rw [RocSys.step, if_neg (by simp [hroom]), if_pos hfree, RocSys.prepare,
        if_pos (by rw [hroc]; exact hne)]
    · exact absurd hidle hwork
  life := by rw [h.run]; rfl
  failed _ hrc hlast := h.failed hrc hlast
  expires hfree hwork := h.expires hfree hwork
  distinct hn := (h.increasing hn).imp ne_of_lt

end Run

/-- **The life of every request**, in every interleaving. -/
theorem rocLifeOk_run {iftype : Iftype} {as : List RocAction} {t : RocSys}
    (h : Machine.Exec RocSys.step (fun _ _ => True) (RocSys.init iftype) as t) : RocLifeOk t := by
  obtain ⟨l, hinv⟩ : ∃ l, RocInv t l :=
    h.invariant (I := fun s => ∃ l, RocInv s l) (fun _ _ _ _ ht ⟨_, hinv⟩ => hinv.step ht)
      ⟨.idle, rocInv_init iftype⟩
  exact hinv.rocLifeOk

/-- A request on channel 2 that succeeds, a second one that is refused, and the end of the first. -/
theorem rocLifeOk_run_two : ∃ t, RocLifeOk t ∧ readyCookies t.log = [1] ∧ t.wil.roc.cookie = 0 :=
  ⟨_, rocLifeOk_run (show Machine.Exec RocSys.step (fun _ _ => True) (RocSys.init .p2pClient)
      [.prepare ⟨⟨60480, 2⟩, 0, 0, 0, true⟩, .reply 0, .reply 0, .reply 0,
        .prepare ⟨⟨60480, 2⟩, 0, 0, 0, true⟩, .timer, .run, .stopped] _ from
    ⟨trivial, _, rfl, trivial, _, rfl, trivial, _, rfl, trivial, _, rfl, trivial, _, rfl, trivial, _,
      rfl, trivial, _, rfl, trivial, _, rfl, rfl⟩), rfl, rfl⟩

end Wil6210
