import Wil6210.Driver.BlockAck
import Wil6210.Lib.WorkQueue

/-!
# What a reset leaves running

`wil_reset` masks the interrupts, empties the list of WMI events, and flushes the three workqueues
before it resets the target: that of `connect_worker`, that of the events, that of the ADDBA
requests.  `ResetSys` is the path of an event, from the threaded interrupt handler through the event
worker to the two workers behind it, with a reset on its way at any time.

The queues are flushed one after the other, and an event that is handled meanwhile queues work
behind the back of the flush.  For the ADDBA requests the order is right, their queue is flushed
after that of the events.  `connect_worker` is flushed before.  `resetQuiet_run` says what is so of
every run in which no CONNECT is accepted in between: nothing is left running, and no connection is
made across a reset.

`wmi_event_flush` takes no lock: it walks the list as the event worker does.  Here it is one step,
and so is what it would race with.
-/

namespace Wil6210

open WorkQueue (Queue Work)

/-! ## The machine -/

/-- A WMI event, by what its handler queues. -/
inductive WmiItem
  /-- `wmi_evt_connect` queues `connect_worker`, where it accepts the event. -/
  | connect
  /-- `wmi_evt_rcp_addba_req` -/
  | rcpAddbaReq (req : WilPendingBack)
  | other
  deriving DecidableEq

/-- Where `wil_reset` is. -/
inductive ResetPc
  /-- No reset is under way. -/
  | none
  /-- behind `wil6210_disable_irq` -/
  | masked
  /-- behind `wmi_event_flush` -/
  | flushed
  /-- in `flush_workqueue(wil->wmi_wq_conn)` -/
  | waitConn
  /-- in `flush_workqueue(wil->wmi_wq)` -/
  | waitWmi
  /-- in `flush_workqueue(wil->back_wq)` -/
  | waitBack
  /-- behind `wil_target_reset` -/
  | reset
  deriving DecidableEq

/-- The statement of `wil_reset` that comes next, counted. -/
def ResetPc.stage : ResetPc → ℕ
  | .none => 0
  | .masked => 1
  | .flushed => 2
  | .waitConn => 3
  | .waitWmi => 4
  | .waitBack => 5
  | .reset => 6

/-- The interrupts, the three queues and the reset. -/
structure ResetSys where
  irqen : Bool
  /-- the threaded handler was woken, and has not returned from `wmi_recv_cmd` -/
  thread : Bool
  wmi : Queue WmiItem
  /-- the event in the worker's hands is still to be handled -/
  todo : Bool
  conn : Work
  /-- `pending_connect_cid`, as the number of resets at the CONNECT that set it -/
  pendingConnect : Option ℕ
  /-- what `connect_worker` read of it -/
  connecting : Option ℕ
  back : Queue WilPendingBack
  pc : ResetPc
  /-- how often the target was reset -/
  epoch : ℕ
  /-- the connections made: the resets at the CONNECT, and those when the station is connected -/
  made : List (ℕ × ℕ)

inductive ResetAction
  /-- A hard handler wakes the threaded one, which calls `wmi_recv_cmd`. -/
  | threadStart
  /-- `wmi_recv_cmd` adds an event to `pending_wmi_ev`, -/
  | recv (evt : WmiItem)
  /-- and queues `wmi_event_worker`. -/
  | recvQueue
  | threadEnd
  /-- `wmi_event_worker` is taken up, takes an event, or returns. -/
  | wmiStart
  | wmiTake
  | wmiStop
  /-- A handler: it accepts its event, or could allocate its request. -/
  | handle (ok : Bool)
  /-- `wil_rcp_addba_request` queues `back_worker`. -/
  | backQueue
  /-- The handler is done. -/
  | wmiDone
  /-- `connect_worker`, and the outcome of its `wil_vring_init_tx` -/
  | connStart
  | connFinish (ok : Bool)
  /-- `back_worker` is taken up, takes a request, is done with it, or returns. -/
  | backStart
  | backTake
  | backDone
  | backStop
  /-- The statements of `wil_reset`. -/
  | disableIrq
  | eventFlush
  | flushConn
  | flushWmi
  | flushBack
  | targetReset
  | enableIrq

namespace ResetSys

/-- A step of the event queue. -/
def onWmi (s : ResetSys) (o : WorkQueue.Op WmiItem) : Option ResetSys :=
  (s.wmi.step o).map fun q => { s with wmi := q }

/-- A step of the queue of ADDBA requests. -/
def onBack (s : ResetSys) (o : WorkQueue.Op WilPendingBack) : Option ResetSys :=
  (s.back.step o).map fun q => { s with back := q }

/-- What a handler does. -/
def handleItem (s : ResetSys) (ok : Bool) : WmiItem → Option ResetSys
  | .connect =>
      if ok then some { s with conn := s.conn.queue, pendingConnect := some s.epoch } else some s
  | .rcpAddbaReq req => if ok then s.onBack (.add req) else some s
  | .other => some s

/-- One step. -/
def step (s : ResetSys) : ResetAction → Option ResetSys
  | .threadStart => if s.irqen ∧ ¬ s.thread then some { s with thread := true } else none
  | .recv evt => if s.thread ∧ s.wmi.posting = 0 then s.onWmi (.add evt) else none
  | .recvQueue => s.onWmi .queue
  | .threadEnd => if s.thread ∧ s.wmi.posting = 0 then some { s with thread := false } else none
  | .wmiStart => s.onWmi .start
  | .wmiTake => { s with todo := true }.onWmi .take
  | .wmiStop => s.onWmi .stop
  | .handle ok =>
      match s.wmi.current with
      | some evt => if s.todo then { s with todo := false }.handleItem ok evt else none
      | none => none
  | .backQueue => s.onBack .queue
  | .wmiDone => if ¬ s.todo ∧ s.back.posting = 0 then s.onWmi .done else none
  | .connStart => s.conn.start.map fun w => { s with conn := w, connecting := s.pendingConnect }
  | .connFinish ok =>
      s.conn.finish.map fun w =>
        match s.connecting with
        | none => { s with conn := w }
        | some e =>
            { s with
              conn := w
              connecting := none
              pendingConnect := none
              made := if ok then s.made ++ [(e, s.epoch)] else s.made }
  | .backStart => s.onBack .start
  | .backTake => s.onBack .take
  | .backDone => s.onBack .done
  | .backStop => s.onBack .stop
  | .disableIrq => if s.pc = .none then some { s with irqen := false, pc := .masked } else none
  | .eventFlush => if s.pc = .masked then { s with pc := .flushed }.onWmi .drop else none
  | .flushConn =>
      if s.pc = .flushed then some { s with conn := s.conn.barrier, pc := .waitConn } else none
  | .flushWmi =>
      if s.pc = .waitConn ∧ s.conn.ahead = 0 then { s with pc := .waitWmi }.onWmi .flush else none
  | .flushBack =>
      if s.pc = .waitWmi ∧ s.wmi.work.ahead = 0 then { s with pc := .waitBack }.onBack .flush
      else none
  | .targetReset =>
      if s.pc = .waitBack ∧ s.back.work.ahead = 0 then
        some { s with pc := .reset, epoch := s.epoch + 1, pendingConnect := none }
      else none
  | .enableIrq => if s.pc = .reset then some { s with irqen := true, pc := .none } else none

/-- After `wil_priv_init`. -/
def init : ResetSys :=
  ⟨true, false, .init, false, .init, none, none, .init, .none, 0, []⟩

/-- When the order of the flushes does no harm: no interrupt is being handled where `wil_reset` masks
them, and no CONNECT is accepted from the flush of `connect_worker` on. -/
def Apart (s : ResetSys) : ResetAction → Prop
  | .disableIrq => s.thread = false
  | .handle ok => ok = true → s.wmi.current = some .connect → s.pc.stage < 3
  | _ => True

instance (s : ResetSys) : (a : ResetAction) → Decidable (s.Apart a)
  | .disableIrq => inferInstanceAs (Decidable (s.thread = false))
  | .handle ok =>
      inferInstanceAs (Decidable (ok = true → s.wmi.current = some .connect → s.pc.stage < 3))
  | .threadStart | .recv _ | .recvQueue | .threadEnd | .wmiStart | .wmiTake | .wmiStop | .backQueue
  | .wmiDone | .connStart | .connFinish _ | .backStart | .backTake | .backDone | .backStop
  | .eventFlush | .flushConn | .flushWmi | .flushBack | .targetReset | .enableIrq =>
      inferInstanceAs (Decidable True)

end ResetSys

/-! ## What the reset comes to -/

/-- What is so of the queues, by the statement that `wil_reset` has come to. -/
structure ResetStage (s : ResetSys) : Prop where
  masked : 1 ≤ s.pc.stage → s.irqen = false ∧ s.thread = false
  emptied : 2 ≤ s.pc.stage → s.wmi.pending = []
  connCovered : s.pc.stage = 3 → s.conn.Covered
  connIdle : 4 ≤ s.pc.stage → s.conn.Idle
  wmiCovered : s.pc.stage = 4 → s.wmi.work.Covered
  wmiIdle : 5 ≤ s.pc.stage → s.wmi.work.Idle
  backCovered : s.pc.stage = 5 → s.back.work.Covered
  backIdle : 6 ≤ s.pc.stage → s.back.work.Idle

/-- What holds between two steps. -/
structure ResetInv (s : ResetSys) : Prop where
  wmi : s.wmi.Sound
  back : s.back.Sound
  /-- only the interrupt handler is about to queue the event worker -/
  posting_wmi : 0 < s.wmi.posting → s.thread = true
  /-- only the handler of an event is about to queue the ADDBA worker -/
  posting_back : 0 < s.back.posting → s.wmi.current.isSome
  stage : ResetStage s
  /-- the CONNECT that `connect_worker` is to answer or answers came since the last reset -/
  pending : ∀ e ∈ s.pendingConnect, e = s.epoch
  connecting : ∀ e ∈ s.connecting, e = s.epoch ∧ s.conn.running = true
  made : ∀ p ∈ s.made, p.1 = p.2

section Steps

variable {s t : ResetSys}

lemma ResetSys.onWmi_eq_some {o : WorkQueue.Op WmiItem} (h : s.onWmi o = some t) :
    ∃ q, s.wmi.step o = some q ∧ t = { s with wmi := q } := by
  obtain ⟨q, hq, rfl⟩ := Option.map_eq_some_iff.mp h
  exact ⟨q, hq, rfl⟩

lemma ResetSys.onBack_eq_some {o : WorkQueue.Op WilPendingBack} (h : s.onBack o = some t) :
    ∃ q, s.back.step o = some q ∧ t = { s with back := q } := by
  obtain ⟨q, hq, rfl⟩ := Option.map_eq_some_iff.mp h
  exact ⟨q, hq, rfl⟩

lemma ResetSys.step_connFinish {ok : Bool} (h : s.step (.connFinish ok) = some t) :
    ∃ w, s.conn.finish = some w ∧ (s.connecting = none ∧ t = { s with conn := w } ∨
      ∃ e, s.connecting = some e ∧ t = { s with
        conn := w
        connecting := none
        pendingConnect := none
        made := if ok then s.made ++ [(e, s.epoch)] else s.made }) := by
  obtain ⟨w, hw, rfl⟩ := Option.map_eq_some_iff.mp h
  refine ⟨w, hw, ?_⟩
  cases hconn : s.connecting with
  | none =>
      refine .inl ⟨rfl, ?_⟩
      rw [← hconn]
      simp only [hconn]
  | some e => exact .inr ⟨e, rfl, rfl⟩

/-- Where no reset is under way, there is nothing to say. -/
lemma ResetStage.of_none (h : s.pc.stage = 0) : ResetStage s := by
  constructor <;> intro hstage <;> omega

namespace ResetInv

lemma posting_wmi_eq (h : ResetInv s) (hthread : s.thread = false) : s.wmi.posting = 0 := by
  by_contra hne
  exact absurd ((h.posting_wmi (Nat.pos_of_ne_zero hne)).symm.trans hthread) (by simp)

lemma posting_back_eq (h : ResetInv s) (hcurrent : s.wmi.current = none) : s.back.posting = 0 := by
  by_contra hne
  have hsome := h.posting_back (Nat.pos_of_ne_zero hne)
  rw [hcurrent] at hsome
  exact absurd hsome (by simp)

/-- While an event is in its hands, the event worker is not idle. -/
lemma stage_lt (h : ResetInv s) (hcurrent : s.wmi.current.isSome) : s.pc.stage < 5 := by
  by_contra hstage
  have hidle := h.wmi.current_of_idle (h.stage.wmiIdle (by omega))
  rw [hidle] at hcurrent
  exact absurd hcurrent (by simp)

/-- Whether the event was handled makes no difference here. -/
lemma onTodo (h : ResetInv s) (b : Bool) : ResetInv { s with todo := b } :=
  ⟨h.wmi, h.back, h.posting_wmi, h.posting_back, ⟨h.stage.masked, h.stage.emptied,
    h.stage.connCovered, h.stage.connIdle, h.stage.wmiCovered, h.stage.wmiIdle,
    h.stage.backCovered, h.stage.backIdle⟩, h.pending, h.connecting, h.made⟩

/-- A step of the event worker, or the interrupt handler that queues it. -/
lemma onWmi (h : ResetInv s) {o : WorkQueue.Op WmiItem} (ho : o.Internal)
    (ht : s.onWmi o = some t)
    (hcurrent : ∀ q, s.wmi.step o = some q → 0 < s.back.posting → q.current.isSome) :
    ResetInv t := by
  obtain ⟨q, hq, rfl⟩ := ResetSys.onWmi_eq_some ht
  obtain ⟨hposting, hpending, hcovered, hidle⟩ := Queue.internal_keeps ho hq
  have hzero : 1 ≤ s.pc.stage → s.wmi.posting = 0 := fun hstage =>
    h.posting_wmi_eq (h.stage.masked hstage).2
  refine ⟨h.wmi.step hq, h.back, fun hpos => h.posting_wmi (lt_of_lt_of_le hpos hposting),
    hcurrent q hq, ⟨h.stage.masked, ?_, h.stage.connCovered, h.stage.connIdle, ?_, ?_,
      h.stage.backCovered, h.stage.backIdle⟩, h.pending, h.connecting, h.made⟩
  · intro hstage
    exact hpending (h.stage.emptied hstage)
  · intro hstage
    have hpc : s.pc.stage = 4 := hstage
    exact hcovered (hzero (by omega)) (h.stage.wmiCovered hpc)
  · intro hstage
    have hpc : 5 ≤ s.pc.stage := hstage
    exact hidle (hzero (by omega)) (h.stage.wmiIdle hpc)

/-- A step of the ADDBA worker, or the handler that queues it. -/
lemma onBack (h : ResetInv s) {o : WorkQueue.Op WilPendingBack} (ho : o.Internal)
    (ht : s.onBack o = some t) : ResetInv t := by
  obtain ⟨q, hq, rfl⟩ := ResetSys.onBack_eq_some ht
  obtain ⟨hposting, -, hcovered, hidle⟩ := Queue.internal_keeps ho hq
  have hzero : 5 ≤ s.pc.stage → s.back.posting = 0 := fun hstage =>
    h.posting_back_eq (h.wmi.current_of_idle (h.stage.wmiIdle hstage))
  refine ⟨h.wmi, h.back.step hq, h.posting_wmi, fun hpos => h.posting_back
    (lt_of_lt_of_le hpos hposting), ⟨h.stage.masked, h.stage.emptied, h.stage.connCovered,
      h.stage.connIdle, h.stage.wmiCovered, h.stage.wmiIdle, ?_, ?_⟩, h.pending, h.connecting,
    h.made⟩
  · intro hstage
    have hpc : s.pc.stage = 5 := hstage
    exact hcovered (hzero (by omega)) (h.stage.backCovered hpc)
  · intro hstage
    have hpc : 6 ≤ s.pc.stage := hstage
    exact hidle (hzero (by omega)) (h.stage.backIdle hpc)

/-- The interrupt handler comes and goes. -/
lemma onThread (h : ResetInv s) (b : Bool) (hb : b = true → s.irqen = true)
    (hposting : b = false → s.wmi.posting = 0) : ResetInv { s with thread := b } := by
  refine ⟨h.wmi, h.back, fun hpos => ?_, h.posting_back, ⟨fun hstage => ?_, h.stage.emptied,
    h.stage.connCovered, h.stage.connIdle, h.stage.wmiCovered, h.stage.wmiIdle,
    h.stage.backCovered, h.stage.backIdle⟩, h.pending, h.connecting, h.made⟩
  · by_contra hfalse
    exact absurd (hposting (by simpa using hfalse)) hpos.ne'
  · obtain ⟨hirqen, -⟩ := h.stage.masked hstage
    refine ⟨hirqen, ?_⟩
    by_contra htrue
    exact absurd ((hb (by simpa using htrue)).symm.trans hirqen) (by simp)

/-- An event is added. -/
lemma recv (h : ResetInv s) {evt : WmiItem} (ht : s.step (.recv evt) = some t) : ResetInv t := by
  obtain ⟨hthread, ht⟩ := Option.ite_none_right_eq_some.mp ht
  obtain ⟨q, hq, rfl⟩ := ResetSys.onWmi_eq_some ht
  have hsound := h.wmi.step hq
  obtain rfl := Option.some.inj hq
  have hstage : s.pc.stage = 0 := by
    by_contra hne
    have hoff := (h.stage.masked (by omega)).2
    exact absurd (hthread.1.symm.trans hoff) (by simp)
  exact ⟨hsound, h.back, fun _ => hthread.1, h.posting_back, .of_none hstage, h.pending,
    h.connecting, h.made⟩

/-- A handler. -/
lemma handle (h : ResetInv s) {ok : Bool} (hapart : s.Apart (.handle ok))
    (ht : s.step (.handle ok) = some t) : ResetInv t := by
  simp only [ResetSys.step] at ht
  split at ht
  · rename_i evt hevt
    split_ifs at ht
    have hlt := h.stage_lt (by rw [hevt]; rfl)
    have hdone := h.onTodo false
    cases evt with
    | other => exact Option.some.inj ht ▸ hdone
    | connect =>
        cases ok with
        | false => exact Option.some.inj ht ▸ hdone
        | true =>
            have hstage := hapart rfl hevt
            obtain rfl := Option.some.inj ht
            refine ⟨h.wmi, h.back, h.posting_wmi, h.posting_back, ⟨h.stage.masked,
              h.stage.emptied, fun h3 => ?_, fun h4 => ?_, h.stage.wmiCovered, h.stage.wmiIdle,
              h.stage.backCovered, h.stage.backIdle⟩, fun e he => ?_, h.connecting, h.made⟩
            · have hpc : s.pc.stage = 3 := h3
              omega
            · have hpc : 4 ≤ s.pc.stage := h4
              omega
            · exact (Option.mem_some_iff.mp he).symm
    | rcpAddbaReq req =>
        cases ok with
        | false => exact Option.some.inj ht ▸ hdone
        | true =>
            obtain ⟨q, hq, rfl⟩ := ResetSys.onBack_eq_some (o := .add req) ht
            have hsound := h.back.step hq
            obtain rfl := Option.some.inj hq
            refine ⟨h.wmi, hsound, h.posting_wmi, fun _ => ?_, ⟨h.stage.masked, h.stage.emptied,
              h.stage.connCovered, h.stage.connIdle, h.stage.wmiCovered, h.stage.wmiIdle,
              fun h5 => ?_, fun h6 => ?_⟩, h.pending, h.connecting, h.made⟩
            · show s.wmi.current.isSome
              rw [hevt]
              rfl
            · have hpc : s.pc.stage = 5 := h5
              omega
            · have hpc : 6 ≤ s.pc.stage := h6
              omega
  · exact absurd ht (by simp)

/-- `connect_worker` is taken up. -/
lemma connStart (h : ResetInv s) (ht : s.step .connStart = some t) : ResetInv t := by
  obtain ⟨w, hw, rfl⟩ := Option.map_eq_some_iff.mp ht
  refine ⟨h.wmi, h.back, h.posting_wmi, h.posting_back, ⟨h.stage.masked, h.stage.emptied,
    fun h3 => (h.stage.connCovered h3).start hw, fun h4 => ?_, h.stage.wmiCovered,
    h.stage.wmiIdle, h.stage.backCovered, h.stage.backIdle⟩, h.pending, fun e he => ?_, h.made⟩
  · have hidle := (h.stage.connIdle h4).start
    rw [hidle] at hw
    exact absurd hw (by simp)
  · obtain ⟨-, -, rfl⟩ := Work.start_eq_some hw
    exact ⟨h.pending e he, rfl⟩

/-- It is done: a connection that it makes is one of the present. -/
lemma connFinish (h : ResetInv s) {ok : Bool} (ht : s.step (.connFinish ok) = some t) :
    ResetInv t := by
  obtain ⟨w, hw, hend⟩ := ResetSys.step_connFinish ht
  have hcovered : s.pc.stage = 3 → w.Covered := fun h3 => (h.stage.connCovered h3).finish hw
  have hidle : 4 ≤ s.pc.stage → w.Idle := by
    intro h4
    rw [(h.stage.connIdle h4).finish] at hw
    exact absurd hw (by simp)
  have hstage : ResetStage { s with conn := w } :=
    ⟨h.stage.masked, h.stage.emptied, hcovered, hidle, h.stage.wmiCovered, h.stage.wmiIdle,
      h.stage.backCovered, h.stage.backIdle⟩
  rcases hend with ⟨hconn, rfl⟩ | ⟨e, hconn, rfl⟩
  · refine ⟨h.wmi, h.back, h.posting_wmi, h.posting_back, hstage, h.pending, fun e he => ?_, h.made⟩
    have hsome : s.connecting = some e := he
    exact absurd (hconn.symm.trans hsome) (by simp)
  · obtain ⟨rfl, -⟩ := h.connecting e hconn
    refine ⟨h.wmi, h.back, h.posting_wmi, h.posting_back, ⟨hstage.masked, hstage.emptied,
      hstage.connCovered, hstage.connIdle, hstage.wmiCovered, hstage.wmiIdle, hstage.backCovered,
      hstage.backIdle⟩, fun e he => absurd he (by simp), fun e he => absurd he (by simp),
      fun p hp => ?_⟩
    cases ok with
    | false => exact h.made p hp
    | true =>
        rcases List.mem_append.mp hp with hp | hp
        · exact h.made p hp
        · obtain rfl := List.mem_singleton.mp hp
          rfl

/-- The interrupts are masked. -/
lemma disableIrq (h : ResetInv s) (hapart : s.Apart .disableIrq)
    (ht : s.step .disableIrq = some t) : ResetInv t := by
  obtain ⟨-, ht⟩ := Option.ite_none_right_eq_some.mp ht
  obtain rfl := Option.some.inj ht
  refine ⟨h.wmi, h.back, h.posting_wmi, h.posting_back, ⟨fun _ => ⟨rfl, hapart⟩, ?_, ?_, ?_, ?_, ?_,
    ?_, ?_⟩, h.pending, h.connecting, h.made⟩ <;>
  · intro hstage
    simp [ResetPc.stage] at hstage

/-- The list of events is emptied. -/
lemma eventFlush (h : ResetInv s) (ht : s.step .eventFlush = some t) : ResetInv t := by
  obtain ⟨hpc, ht⟩ := Option.ite_none_right_eq_some.mp ht
  obtain ⟨q, hq, rfl⟩ := ResetSys.onWmi_eq_some ht
  have hsound := h.wmi.step hq
  obtain rfl := Option.some.inj hq
  refine ⟨hsound, h.back, h.posting_wmi, h.posting_back, ⟨fun _ => ?_, fun _ => rfl, ?_, ?_, ?_, ?_,
    ?_, ?_⟩, h.pending, h.connecting, h.made⟩
  · exact h.stage.masked (by rw [hpc]; decide)
  all_goals
    intro hstage
    simp [ResetPc.stage] at hstage

/-- The flush of `connect_worker` begins. -/
lemma flushConn (h : ResetInv s) (ht : s.step .flushConn = some t) : ResetInv t := by
  obtain ⟨hpc, ht⟩ := Option.ite_none_right_eq_some.mp ht
  obtain rfl := Option.some.inj ht
  refine ⟨h.wmi, h.back, h.posting_wmi, h.posting_back, ⟨fun _ => ?_, fun _ => ?_,
    fun _ => Work.covered_barrier _, ?_, ?_, ?_, ?_, ?_⟩, h.pending, h.connecting, h.made⟩
  · exact h.stage.masked (by rw [hpc]; decide)
  · exact h.stage.emptied (by rw [hpc]; decide)
  all_goals
    intro hstage
    simp [ResetPc.stage] at hstage

/-- It ends, and that of the event worker begins. -/
lemma flushWmi (h : ResetInv s) (ht : s.step .flushWmi = some t) : ResetInv t := by
  obtain ⟨⟨hpc, hahead⟩, ht⟩ := Option.ite_none_right_eq_some.mp ht
  obtain ⟨q, hq, rfl⟩ := ResetSys.onWmi_eq_some ht
  have hsound := h.wmi.step hq
  obtain rfl := Option.some.inj hq
  refine ⟨hsound, h.back, h.posting_wmi, h.posting_back, ⟨fun _ => ?_, fun _ => ?_, ?_, fun _ => ?_,
    fun _ => Work.covered_barrier _, ?_, ?_, ?_⟩, h.pending, h.connecting, h.made⟩
  · exact h.stage.masked (by rw [hpc]; decide)
  · exact h.stage.emptied (by rw [hpc]; decide)
  · intro hstage
    simp [ResetPc.stage] at hstage
  · exact (h.stage.connCovered (by rw [hpc]; rfl)).idle hahead
  all_goals
    intro hstage
    simp [ResetPc.stage] at hstage

/-- It ends, and that of the ADDBA worker begins. -/
lemma flushBack (h : ResetInv s) (ht : s.step .flushBack = some t) : ResetInv t := by
  obtain ⟨⟨hpc, hahead⟩, ht⟩ := Option.ite_none_right_eq_some.mp ht
  obtain ⟨q, hq, rfl⟩ := ResetSys.onBack_eq_some ht
  have hsound := h.back.step hq
  obtain rfl := Option.some.inj hq
  refine ⟨h.wmi, hsound, h.posting_wmi, h.posting_back, ⟨fun _ => ?_, fun _ => ?_, ?_, fun _ => ?_,
    ?_, fun _ => ?_, fun _ => Work.covered_barrier _, ?_⟩, h.pending, h.connecting, h.made⟩
  · exact h.stage.masked (by rw [hpc]; decide)
  · exact h.stage.emptied (by rw [hpc]; decide)
  · intro hstage
    simp [ResetPc.stage] at hstage
  · exact h.stage.connIdle (by rw [hpc]; decide)
  · intro hstage
    simp [ResetPc.stage] at hstage
  · exact (h.stage.wmiCovered (by rw [hpc]; rfl)).idle hahead
  · intro hstage
    simp [ResetPc.stage] at hstage

/-- **The target is reset**: `connect_worker` answers no CONNECT from before. -/
lemma targetReset (h : ResetInv s) (ht : s.step .targetReset = some t) : ResetInv t := by
  obtain ⟨⟨hpc, hahead⟩, ht⟩ := Option.ite_none_right_eq_some.mp ht
  have hconn := h.stage.connIdle (by rw [hpc]; decide)
  obtain rfl := Option.some.inj ht
  refine ⟨h.wmi, h.back, h.posting_wmi, h.posting_back, ⟨fun _ => ?_, fun _ => ?_, ?_, fun _ => ?_,
    ?_, fun _ => ?_, ?_, fun _ => ?_⟩, fun e he => absurd he (by simp), fun e he => ?_, h.made⟩
  · exact h.stage.masked (by rw [hpc]; decide)
  · exact h.stage.emptied (by rw [hpc]; decide)
  · intro hstage
    simp [ResetPc.stage] at hstage
  · exact hconn
  · intro hstage
    simp [ResetPc.stage] at hstage
  · exact h.stage.wmiIdle (by rw [hpc]; decide)
  · intro hstage
    simp [ResetPc.stage] at hstage
  · exact (h.stage.backCovered (by rw [hpc]; rfl)).idle hahead
  · exact absurd ((h.connecting e he).2.symm.trans hconn.2) (by simp)

/-- **Every step keeps the invariant**, where the order of the flushes does no harm. -/
theorem step (h : ResetInv s) {a : ResetAction} (hapart : s.Apart a) (ht : s.step a = some t) :
    ResetInv t := by
  cases a with
  | threadStart =>
      obtain ⟨hcond, ht⟩ := Option.ite_none_right_eq_some.mp ht
      obtain rfl := Option.some.inj ht
      exact h.onThread true (fun _ => hcond.1) fun hfalse => absurd hfalse (by simp)
  | recv evt => exact h.recv ht
  | recvQueue =>
      refine h.onWmi (o := .queue) trivial ht fun q hq hpos => ?_
      obtain ⟨-, rfl⟩ := Queue.step_queue hq
      exact h.posting_back hpos
  | threadEnd =>
      obtain ⟨hcond, ht⟩ := Option.ite_none_right_eq_some.mp ht
      obtain rfl := Option.some.inj ht
      exact h.onThread false (fun htrue => absurd htrue (by simp)) fun _ => hcond.2
  | wmiStart =>
      refine h.onWmi (o := .start) trivial ht fun q hq hpos => ?_
      obtain ⟨w, -, rfl⟩ := Queue.step_start hq
      exact h.posting_back hpos
  | wmiTake =>
      refine (h.onTodo true).onWmi (o := .take) trivial ht fun q hq _ => ?_
      obtain ⟨evt, rest, -, -, -, rfl⟩ := Queue.step_take hq
      rfl
  | wmiStop =>
      refine h.onWmi (o := .stop) trivial ht fun q hq hpos => ?_
      obtain ⟨-, -, w, -, rfl⟩ := Queue.step_stop hq
      exact h.posting_back hpos
  | handle ok => exact h.handle hapart ht
  | backQueue => exact h.onBack (o := .queue) trivial ht
  | wmiDone =>
      obtain ⟨hcond, ht⟩ := Option.ite_none_right_eq_some.mp ht
      exact h.onWmi (o := .done) trivial ht fun q hq hpos => absurd hcond.2 hpos.ne'
  | connStart => exact h.connStart ht
  | connFinish ok => exact h.connFinish ht
  | backStart => exact h.onBack (o := .start) trivial ht
  | backTake => exact h.onBack (o := .take) trivial ht
  | backDone => exact h.onBack (o := .done) trivial ht
  | backStop => exact h.onBack (o := .stop) trivial ht
  | disableIrq => exact h.disableIrq hapart ht
  | eventFlush => exact h.eventFlush ht
  | flushConn => exact h.flushConn ht
  | flushWmi => exact h.flushWmi ht
  | flushBack => exact h.flushBack ht
  | targetReset => exact h.targetReset ht
  | enableIrq =>
      obtain ⟨-, ht⟩ := Option.ite_none_right_eq_some.mp ht
      obtain rfl := Option.some.inj ht
      exact ⟨h.wmi, h.back, h.posting_wmi, h.posting_back, .of_none rfl, h.pending, h.connecting,
        h.made⟩

end ResetInv

end Steps

/-! ## Quiet behind the flushes -/

variable {s : ResetSys}

/-- **What must hold** of the queues and of the connections. -/
structure ResetQuiet (s : ResetSys) : Prop where
  /-- Where the target was reset, no event is on the list or in the worker's hands, and nobody is
  about to look for one. -/
  events : s.pc = .reset → s.wmi.pending = [] ∧ s.wmi.current = none ∧ s.wmi.Resting
  /-- The same of the ADDBA requests, -/
  requests : s.pc = .reset → s.back.pending = [] ∧ s.back.current = none ∧ s.back.Resting
  /-- and `connect_worker` neither is queued nor runs. -/
  conn : s.pc = .reset → s.conn.Idle
  /-- A station is connected after as many resets as its CONNECT came after. -/
  made : ∀ p ∈ s.made, p.1 = p.2

lemma resetInv_init : ResetInv ResetSys.init :=
  ⟨Queue.sound_init, Queue.sound_init, fun hpos => absurd hpos (by simp [ResetSys.init, Queue.init]),
    fun hpos => absurd hpos (by simp [ResetSys.init, Queue.init]), .of_none rfl,
    fun e he => absurd he (by simp [ResetSys.init]),
    fun e he => absurd he (by simp [ResetSys.init]), fun p hp => absurd hp List.not_mem_nil⟩

/-- **Behind the flushes of a reset nothing is left running**, and no connection is made across it:
in every run in which no interrupt is being handled where `wil_reset` masks them, and no CONNECT is
accepted from the flush of `connect_worker` on. -/
theorem resetQuiet_run {as : List ResetAction}
    (h : Machine.Exec ResetSys.step ResetSys.Apart ResetSys.init as s) : ResetQuiet s := by
  have hinv : ResetInv s :=
    h.invariant (fun _ _ _ hapart ht hi => hi.step hapart ht) resetInv_init
  have hwmi : s.pc = .reset → s.wmi.Resting := by
    intro hpc
    refine ⟨hinv.posting_wmi_eq ?_, hinv.stage.wmiIdle (by rw [hpc]; decide)⟩
    exact (hinv.stage.masked (by rw [hpc]; decide)).2
  refine ⟨fun hpc => ?_, fun hpc => ?_, fun hpc => hinv.stage.connIdle (by rw [hpc]; decide),
    hinv.made⟩
  · obtain ⟨hpending, hcurrent, -⟩ := hinv.wmi.rest (hwmi hpc)
    exact ⟨hpending, hcurrent, hwmi hpc⟩
  · -- the event worker is at rest, so nobody is about to queue the other one
    have hback : s.back.Resting := by
      refine ⟨hinv.posting_back_eq ?_, hinv.stage.backIdle (by rw [hpc]; decide)⟩
      exact (hinv.wmi.rest (hwmi hpc)).2.1
    obtain ⟨hpending, hcurrent, -⟩ := hinv.back.rest hback
    exact ⟨hpending, hcurrent, hback⟩

/-- Two events come, and the worker has the first in its hands where the reset flushes the list. -/
def resetOver (evt : WmiItem) (flushed : List ResetAction) : List ResetAction :=
  [.threadStart, .recv evt, .recvQueue, .recv .other, .recvQueue, .threadEnd, .wmiStart, .wmiTake,
    .disableIrq, .eventFlush, .flushConn, .flushWmi] ++ flushed

/-- An ADDBA request that is accepted in the middle of the flushes is handled before the target is
reset. -/
theorem resetQuiet_run_addba : ∃ s : ResetSys, ResetQuiet s ∧ s.pc = .reset ∧
    s.wmi.gone.map Prod.snd = [true, false] ∧ s.back.taken.length = 1 := by
  have hrun : (Machine.exec ResetSys.step ResetSys.Apart ResetSys.init
      (resetOver (.rcpAddbaReq ⟨0x30, 1, 0x1002, 0, 0⟩) [.handle true, .backQueue, .wmiDone, .wmiStop,
        .flushBack, .backStart, .backTake, .backDone, .backStop, .targetReset])).map
        (fun s => (decide (s.pc = .reset), s.wmi.gone.map Prod.snd, s.back.taken.length))
      = some (true, [true, false], 1) := by
    decide +kernel
  obtain ⟨s, hs, hend⟩ := Option.map_eq_some_iff.mp hrun
  simp only [Prod.mk.injEq, decide_eq_true_eq] at hend
  exact ⟨s, resetQuiet_run (.of_exec hs), hend⟩

/-- A CONNECT that is accepted there is answered behind the reset: the station is connected to a
firmware that knows nothing of it. -/
theorem not_resetQuiet_run : ¬ ∀ (as : List ResetAction) (s : ResetSys),
    Machine.Exec ResetSys.step (fun _ _ => True) ResetSys.init as s → ResetQuiet s := by
  intro h
  have hrun : (Machine.exec ResetSys.step (fun _ _ => True) ResetSys.init
      (resetOver .connect [.handle true, .connStart, .wmiDone, .wmiStop, .flushBack,
        .targetReset, .enableIrq, .connFinish true])).map ResetSys.made
      = some [(0, 1)] := by
    decide +kernel
  obtain ⟨s, hs, hend⟩ := Option.map_eq_some_iff.mp hrun
  have hmade := (h _ s (.of_exec hs)).made (0, 1) (hend ▸ List.mem_singleton_self _)
  exact absurd hmade (by decide)

end Wil6210
