import Wil6210.Driver.BlockAck
import Wil6210.Lib.WorkQueue

/-!
# The queue of ADDBA requests

`wil_rcp_addba_request` runs in the event worker.  It adds a request to `back_pending` and, with
`back_mutex` released again, queues `back_worker`.  `wil_back_worker` takes one request after the
other, asks the firmware to answer it, and returns where it finds the list empty.  `BackQueue` is
`BackSys` with this queue, and with the responses that were sent.

`backQueue_served` says what the peers can rely on: the requests are handled in the order they came
in, each once, and none is left behind when the worker rests.  `backQueue_refines` ties the queue to
`BackSys`, where a request is taken at any time.

`wil_back_flush`, which the driver calls where it is taken down, walks the list without
`back_mutex`.  Here it is one step.
-/

namespace Wil6210

open WorkQueue (Queue)

/-! ## The machine -/

/-- The driver, the queue of `back_worker`, where `wil_back_handle` waits, and the requests that were
handled, each with the response that was sent. -/
structure BackQueue where
  conn : ConnSys
  queue : Queue WilPendingBack
  waiting : Option BackWait
  answers : List (WilPendingBack × Option WmiRcpAddbaRespCmd)

inductive BackQueueAction
  /-- A CONNECT, a DISCONNECT, or a step of `connect_worker`. -/
  | conn (a : ConnAction)
  | baStatus (evt : WmiVringBaStatusEvent) (allocOk : Fin 16 → Bool)
  | rx (skb : RxSkb)
  /-- `wil_rcp_addba_request`, up to where it releases `back_mutex`. -/
  | addbaRequest (req : WilPendingBack) (allocOk : Bool)
  /-- its `queue_work` -/
  | queueWork
  /-- `back_worker` is taken up. -/
  | start
  /-- `next_back`, and `wil_back_handle` up to its WMI call; or the worker returns. -/
  | next
  /-- `wil_back_handle`, from the return of its WMI call. -/
  | reply (reply : AddbaReply) (allocOk : Bool)
  /-- `wil_back_flush` -/
  | flush

namespace BackQueue

/-- A step of the queue. -/
def work (s : BackQueue) (o : WorkQueue.Op WilPendingBack) : Option BackQueue :=
  (s.queue.step o).map fun q => { s with queue := q }

/-- The worker takes a request up, and handles it as far as the firmware is asked. -/
def begin (s : BackQueue) (req : WilPendingBack) : Option BackQueue :=
  (s.work .take).bind fun t =>
    match wilBackHandleBegin s.conn.wil req with
    | none => { t with answers := t.answers ++ [(req, none)] }.work .done
    | some (w, cmd) => some { t with waiting := some w, answers := t.answers ++ [(req, some cmd)] }

/-- One step. -/
def step (s : BackQueue) : BackQueueAction → Option BackQueue
  | .conn (.traffic _) => none
  | .conn a => (s.conn.step a).map fun conn => { s with conn := conn }
  | .baStatus evt allocOk =>
      some { s with conn := { s.conn with wil := (wmiEvtBaStatus s.conn.wil evt allocOk).1 } }
  | .rx skb => some { s with conn := { s.conn with wil := (wilRxReorderSta s.conn.wil skb).1 } }
  | .addbaRequest req allocOk => if allocOk then s.work (.add req) else some s
  | .queueWork => s.work .queue
  | .start => s.work .start
  | .next =>
      match s.waiting, s.queue.pending with
      | none, req :: _ => s.begin req
      | none, [] => s.work .stop
      | some _, _ => none
  | .reply reply allocOk =>
      match s.waiting with
      | none => none
      | some w =>
          { s with
            conn := { s.conn with wil := (wilBackHandleEnd s.conn.wil w reply allocOk).1 }
            waiting := none }.work .done
  | .flush => s.work .drop

/-- Nothing connected, nothing pending. -/
def init (iftype : Iftype) (devAddr : Option MacAddr) : BackQueue :=
  ⟨ConnSys.init iftype devAddr, .init, none, []⟩

/-- What `BackSys` sees of it. -/
def toBack (s : BackQueue) : BackSys := ⟨s.conn, s.queue.pending, s.waiting⟩

end BackQueue

/-- The steps of the worker, and those that queue it. -/
def BackQueueAction.Internal : BackQueueAction → Prop
  | .queueWork | .start | .next | .reply _ _ => True
  | .conn _ | .baStatus _ _ | .rx _ | .addbaRequest _ _ | .flush => False

/-- The request that is accepted. -/
def BackQueueAction.accepted : BackQueueAction → Option WilPendingBack
  | .addbaRequest req true => some req
  | _ => none

/-- The response to a request: its CID and TID and its token back, status 0, and a window that is no
larger than what was asked for. -/
def WilPendingBack.response (req : WilPendingBack) : WmiRcpAddbaRespCmd :=
  wmiRcpAddbaResp (parseCidxtid req.cidxtid).1 (parseCidxtid req.cidxtid).2 req.dialogToken.toNat 0
    false req.aggWsize req.baTimeout.toNat

/-! ## The steps -/

section Steps

variable {s t : BackQueue}

lemma BackQueue.work_eq_some {o : WorkQueue.Op WilPendingBack} (h : s.work o = some t) :
    ∃ q, s.queue.step o = some q ∧ t = { s with queue := q } := by
  obtain ⟨q, hq, rfl⟩ := Option.map_eq_some_iff.mp h
  exact ⟨q, hq, rfl⟩

/-- The response that is sent is the one to the request. -/
lemma cmd_wilBackHandleBegin {u : Wil} {req : WilPendingBack} {w : BackWait}
    {cmd : WmiRcpAddbaRespCmd} (h : wilBackHandleBegin u req = some (w, cmd)) :
    cmd = req.response := by
  simp only [wilBackHandleBegin] at h
  split_ifs at h
  exact (Prod.mk.inj (Option.some.inj h)).2.symm

/-- A request that is taken up: it is refused at once, or its response is sent. -/
lemma BackQueue.begin_cases {req : WilPendingBack} {rest : List WilPendingBack}
    (hpending : s.queue.pending = req :: rest) (h : s.begin req = some t) :
    s.queue.work.running = true ∧ s.queue.current = none ∧
      ((wilBackHandleBegin s.conn.wil req = none ∧
        t = { s with
          queue := { s.queue with
            pending := rest
            current := none
            gone := s.queue.gone ++ [(req, true)] }
          answers := s.answers ++ [(req, none)] }) ∨
      ∃ w, (wilBackHandleBegin s.conn.wil req).map Prod.fst = some w ∧
        t = { s with
          queue := { s.queue with
            pending := rest
            current := some req
            gone := s.queue.gone ++ [(req, true)] }
          waiting := some w
          answers := s.answers ++ [(req, some req.response)] }) := by
  obtain ⟨u, hu, hend⟩ := Option.bind_eq_some_iff.mp h
  obtain ⟨q, hq, rfl⟩ := BackQueue.work_eq_some hu
  obtain ⟨a, rest', hpending', hrunning, hcurrent, rfl⟩ := Queue.step_take hq
  obtain ⟨rfl, rfl⟩ := List.cons.inj (hpending.symm.trans hpending')
  refine ⟨hrunning, hcurrent, ?_⟩
  cases hbegin : wilBackHandleBegin s.conn.wil req with
  | none =>
      simp only [hbegin] at hend
      obtain ⟨q, hq, rfl⟩ := BackQueue.work_eq_some hend
      obtain ⟨-, rfl⟩ := Queue.step_done hq
      exact .inl ⟨rfl, rfl⟩
  | some p =>
      simp only [hbegin] at hend
      obtain rfl := Option.some.inj hend
      refine .inr ⟨p.1, rfl, ?_⟩
      rw [cmd_wilBackHandleBegin hbegin]

lemma BackQueue.step_conn {a : ConnAction} (h : s.step (.conn a) = some t) :
    (∀ w, a ≠ .traffic w) ∧ ∃ conn, s.conn.step a = some conn ∧ t = { s with conn := conn } := by
  cases a with
  | traffic w => exact absurd h (by simp [BackQueue.step])
  | _ =>
      simp only [BackQueue.step, Option.map_eq_some_iff] at h
      obtain ⟨conn, hconn, rfl⟩ := h
      exact ⟨by simp, conn, hconn, rfl⟩

/-- The worker takes the next request, or returns. -/
lemma BackQueue.step_next (h : s.step .next = some t) : s.waiting = none ∧
    ((∃ req rest, s.queue.pending = req :: rest ∧ s.begin req = some t) ∨
      s.queue.pending = [] ∧ s.work .stop = some t) := by
  simp only [BackQueue.step] at h
  split at h
  · rename_i req rest hwaiting hpending
    exact ⟨hwaiting, .inl ⟨req, rest, hpending, h⟩⟩
  · rename_i hwaiting hpending
    exact ⟨hwaiting, .inr ⟨hpending, h⟩⟩
  · exact absurd h (by simp)

lemma BackQueue.step_reply {reply : AddbaReply} {allocOk : Bool}
    (h : s.step (.reply reply allocOk) = some t) : ∃ w, s.waiting = some w ∧
      t = { s with
        conn := { s.conn with wil := (wilBackHandleEnd s.conn.wil w reply allocOk).1 }
        waiting := none
        queue := { s.queue with current := none } } ∧ s.queue.current.isSome = true := by
  simp only [BackQueue.step] at h
  split at h
  · exact absurd h (by simp)
  · rename_i w hw
    obtain ⟨q, hq, rfl⟩ := BackQueue.work_eq_some h
    obtain ⟨hsome, rfl⟩ := Queue.step_done hq
    exact ⟨w, hw, rfl, hsome⟩

end Steps

/-! ## The invariant -/

/-- What holds between two steps. -/
structure BackQueueInv (s : BackQueue) : Prop where
  sound : s.queue.Sound
  /-- the worker waits for the firmware while it has a request in its hands -/
  waiting : s.waiting.isSome = s.queue.current.isSome
  answers : s.answers.map Prod.fst = s.queue.taken
  response : ∀ x ∈ s.answers, ∀ cmd ∈ x.2, cmd = x.1.response

variable {s t : BackQueue}

lemma backQueueInv_init (iftype : Iftype) (devAddr : Option MacAddr) :
    BackQueueInv (BackQueue.init iftype devAddr) :=
  ⟨Queue.sound_init, rfl, rfl, fun _ hx => absurd hx List.not_mem_nil⟩

lemma taken_concat (q : Queue WilPendingBack) (req : WilPendingBack) :
    ((q.gone ++ [(req, true)]).filter Prod.snd).map Prod.fst = q.taken ++ [req] := by
  rw [List.filter_append, List.map_append]
  rfl

namespace BackQueueInv

/-- A step of the queue that takes no request. -/
lemma work (h : BackQueueInv s) {o : WorkQueue.Op WilPendingBack} (ht : s.work o = some t)
    (htaken : ∀ q, s.queue.step o = some q → q.taken = s.queue.taken)
    (hcurrent : ∀ q, s.queue.step o = some q → q.current = s.queue.current) : BackQueueInv t := by
  obtain ⟨q, hq, rfl⟩ := BackQueue.work_eq_some ht
  refine ⟨h.sound.step hq, ?_, ?_, h.response⟩
  · rw [hcurrent q hq]
    exact h.waiting
  · rw [htaken q hq]
    exact h.answers

/-- **Every step keeps the invariant.** -/
theorem step (h : BackQueueInv s) {a : BackQueueAction} (ht : s.step a = some t) :
    BackQueueInv t := by
  cases a with
  | conn a =>
      obtain ⟨-, conn, -, rfl⟩ := BackQueue.step_conn ht
      exact ⟨h.sound, h.waiting, h.answers, h.response⟩
  | baStatus evt allocOk =>
      obtain rfl := Option.some.inj ht
      exact ⟨h.sound, h.waiting, h.answers, h.response⟩
  | rx skb =>
      obtain rfl := Option.some.inj ht
      exact ⟨h.sound, h.waiting, h.answers, h.response⟩
  | addbaRequest req allocOk =>
      rw [BackQueue.step] at ht
      split_ifs at ht
      · exact h.work ht (fun q hq => (Option.some.inj hq) ▸ rfl) fun q hq =>
          (Option.some.inj hq) ▸ rfl
      · exact Option.some.inj ht ▸ h
  | queueWork =>
      exact h.work ht (fun q hq => (Queue.step_queue hq).2 ▸ rfl) fun q hq =>
        (Queue.step_queue hq).2 ▸ rfl
  | start =>
      refine h.work ht (fun q hq => ?_) fun q hq => ?_ <;>
      · obtain ⟨w, -, rfl⟩ := Queue.step_start hq
        rfl
  | flush =>
      refine h.work ht (fun q hq => ?_) fun q hq => (Option.some.inj hq) ▸ rfl
      obtain rfl := Option.some.inj hq
      simp [Queue.taken]
  | next =>
      obtain ⟨hwaiting, ⟨req, rest, hpending, hbegin⟩ | ⟨-, hstop⟩⟩ := BackQueue.step_next ht
      · obtain ⟨u, hu, -⟩ := Option.bind_eq_some_iff.mp hbegin
        obtain ⟨q, hq, -⟩ := BackQueue.work_eq_some hu
        have hsound := h.sound.step hq
        obtain ⟨a, rest', hpending', -, -, rfl⟩ := Queue.step_take hq
        obtain ⟨rfl, rfl⟩ := List.cons.inj (hpending.symm.trans hpending')
        obtain ⟨-, hcurrent, ⟨-, rfl⟩ | ⟨w, -, rfl⟩⟩ := BackQueue.begin_cases hpending hbegin
        · have hwait := h.waiting
          rw [hcurrent] at hwait
          refine ⟨hsound.step (o := .done) rfl, hwait, ?_, ?_⟩
          · rw [List.map_append, h.answers]
            exact (taken_concat _ _).symm
          · intro x hx cmd hcmd
            rcases List.mem_append.mp hx with hx | hx
            · exact h.response x hx cmd hcmd
            · obtain rfl := List.mem_singleton.mp hx
              exact absurd hcmd (by simp)
        · refine ⟨hsound, rfl, ?_, ?_⟩
          · rw [List.map_append, h.answers]
            exact (taken_concat _ _).symm
          · intro x hx cmd hcmd
            rcases List.mem_append.mp hx with hx | hx
            · exact h.response x hx cmd hcmd
            · obtain rfl := List.mem_singleton.mp hx
              exact (Option.mem_some_iff.mp hcmd).symm
      · refine h.work hstop (fun q hq => ?_) fun q hq => ?_ <;>
        · obtain ⟨-, -, w, -, rfl⟩ := Queue.step_stop hq
          rfl
  | reply reply allocOk =>
      obtain ⟨w, -, rfl, hsome⟩ := BackQueue.step_reply ht
      have hdone : s.queue.step .done = some { s.queue with current := none } := if_pos hsome
      exact ⟨h.sound.step hdone, rfl, h.answers, h.response⟩

/-- Every step of the worker leaves less to do. -/
lemma rank_lt {a : BackQueueAction} (ha : a.Internal) (ht : s.step a = some t) :
    t.queue.rank < s.queue.rank := by
  have hwork : ∀ (u v : BackQueue) (o : WorkQueue.Op WilPendingBack), o.Internal →
      u.work o = some v → v.queue.rank < u.queue.rank := by
    intro u v o ho hv
    obtain ⟨q, hq, rfl⟩ := BackQueue.work_eq_some hv
    exact Queue.rank_lt ho hq
  cases a with
  | queueWork => exact hwork s t .queue trivial ht
  | start => exact hwork s t .start trivial ht
  | next =>
      obtain ⟨hwaiting, ⟨req, rest, hpending, hbegin⟩ | ⟨-, hstop⟩⟩ := BackQueue.step_next ht
      · obtain ⟨u, hu, hend⟩ := Option.bind_eq_some_iff.mp hbegin
        have htake := hwork s u .take trivial hu
        cases hcase : wilBackHandleBegin s.conn.wil req with
        | none =>
            simp only [hcase] at hend
            exact (hwork _ t .done trivial hend).trans htake
        | some p =>
            simp only [hcase] at hend
            obtain rfl := Option.some.inj hend
            exact htake
      · exact hwork s t .stop trivial hstop
  | reply reply allocOk =>
      obtain ⟨w, -, rfl, hsome⟩ := BackQueue.step_reply ht
      have hdone : s.queue.step .done = some { s.queue with current := none } := if_pos hsome
      exact Queue.rank_lt (o := .done) trivial hdone
  | _ => exact absurd ha id

/-- A worker that can take no step rests. -/
lemma resting (h : BackQueueInv s) (hnone : ∀ a : BackQueueAction, a.Internal → s.step a = none) :
    s.queue.Resting := by
  have hwaiting : s.waiting = none := by
    by_contra hne
    obtain ⟨w, hw⟩ := Option.ne_none_iff_exists'.mp hne
    have hreply := hnone (.reply ⟨0, 0⟩ true) trivial
    have hcurrent : s.queue.current.isSome = true := by
      rw [← h.waiting, hw]
      rfl
    simp [BackQueue.step, hw, BackQueue.work, Queue.step, hcurrent] at hreply
  have hcurrent : s.queue.current = none := by
    have hsome := h.waiting
    rw [hwaiting] at hsome
    exact Option.isNone_iff_eq_none.mp (by simpa using hsome.symm)
  have hnext := hnone .next trivial
  refine Queue.resting_of_settled fun o ho => ?_
  cases o with
  | queue => exact Option.map_eq_none_iff.mp (hnone .queueWork trivial)
  | start => exact Option.map_eq_none_iff.mp (hnone .start trivial)
  | take =>
      cases hpending : s.queue.pending with
      | nil => simp [Queue.step, hpending]
      | cons req rest =>
          by_contra htake
          obtain ⟨q, hq⟩ := Option.ne_none_iff_exists'.mp htake
          simp only [BackQueue.step, hwaiting, hpending, BackQueue.begin, BackQueue.work, hq,
            Option.map_some, Option.bind_some] at hnext
          obtain ⟨a, rest', -, -, -, rfl⟩ := Queue.step_take hq
          split at hnext <;> simp [Queue.step] at hnext
  | done => simp [Queue.step, hcurrent]
  | stop =>
      cases hpending : s.queue.pending with
      | nil =>
          simp only [BackQueue.step, hwaiting, hpending] at hnext
          exact Option.map_eq_none_iff.mp hnext
      | cons req rest => simp [Queue.step, hpending]
  | _ => exact absurd ho id

end BackQueueInv

/-! ## What the peers can rely on -/

/-- The requests that a run accepts. -/
def addbaAccepted (as : List BackQueueAction) : List WilPendingBack :=
  as.filterMap BackQueueAction.accepted

/-- **What must hold** after the actions `as`. -/
structure BackServed (as : List BackQueueAction) (s : BackQueue) : Prop where
  /-- The requests leave the queue in the order they were accepted, each once. -/
  order : s.queue.gone.map Prod.fst ++ s.queue.pending = addbaAccepted as
  /-- Those that were not flushed were handled, each once and in that order. -/
  handled : s.answers.map Prod.fst = (s.queue.gone.filter Prod.snd).map Prod.fst
  /-- A response is the one to its request. -/
  response : ∀ x ∈ s.answers, ∀ cmd ∈ x.2, cmd = x.1.response
  /-- The worker comes to rest, however the firmware answers. -/
  ends : ∀ bs t, Machine.Exec BackQueue.step (fun _ a => a.Internal) s bs t →
    bs.length ≤ s.queue.rank
  /-- It rests only where nothing is left. -/
  rests : (∀ a : BackQueueAction, a.Internal → s.step a = none) →
    s.queue.gone.map Prod.fst = addbaAccepted as ∧ s.waiting = none

/-- What a step adds to the list. -/
lemma added_step {a : BackQueueAction} (h : s.step a = some t) :
    t.queue.added = s.queue.added ++ a.accepted.toList := by
  have hwork : ∀ (u v : BackQueue) (o : WorkQueue.Op WilPendingBack), (∀ req, o ≠ .add req) →
      u.work o = some v → v.queue.added = u.queue.added := by
    intro u v o ho hv
    obtain ⟨q, hq, rfl⟩ := BackQueue.work_eq_some hv
    cases o with
    | add req => exact absurd rfl (ho req)
    | queue => exact (Queue.step_queue hq).2 ▸ rfl
    | start =>
        obtain ⟨w, -, rfl⟩ := Queue.step_start hq
        rfl
    | take =>
        obtain ⟨b, rest, -, -, -, rfl⟩ := Queue.step_take hq
        rfl
    | done => exact (Queue.step_done hq).2 ▸ rfl
    | stop =>
        obtain ⟨-, -, w, -, rfl⟩ := Queue.step_stop hq
        rfl
    | drop => exact (Option.some.inj hq) ▸ rfl
    | flush => exact (Option.some.inj hq) ▸ rfl
  cases a with
  | addbaRequest req allocOk =>
      cases allocOk with
      | false => exact (Option.some.inj h) ▸ (List.append_nil _).symm
      | true =>
          obtain ⟨q, hq, rfl⟩ := BackQueue.work_eq_some (o := .add req) h
          exact (Option.some.inj hq) ▸ rfl
  | conn a =>
      obtain ⟨-, conn, -, rfl⟩ := BackQueue.step_conn h
      exact (List.append_nil _).symm
  | baStatus evt allocOk => exact (Option.some.inj h) ▸ (List.append_nil _).symm
  | rx skb => exact (Option.some.inj h) ▸ (List.append_nil _).symm
  | queueWork => exact (hwork s t .queue (by simp) h).trans (List.append_nil _).symm
  | start => exact (hwork s t .start (by simp) h).trans (List.append_nil _).symm
  | flush => exact (hwork s t .drop (by simp) h).trans (List.append_nil _).symm
  | next =>
      obtain ⟨-, ⟨req, rest, hpending, hbegin⟩ | ⟨-, hstop⟩⟩ := BackQueue.step_next h
      · obtain ⟨-, -, ⟨-, rfl⟩ | ⟨w, -, rfl⟩⟩ := BackQueue.begin_cases hpending hbegin
        · exact (List.append_nil _).symm
        · exact (List.append_nil _).symm
      · exact (hwork s t .stop (by simp) hstop).trans (List.append_nil _).symm
  | reply reply allocOk =>
      obtain ⟨w, -, rfl, -⟩ := BackQueue.step_reply h
      exact (List.append_nil _).symm

lemma added_run {as : List BackQueueAction}
    (h : Machine.Exec BackQueue.step (fun _ _ => True) s as t) :
    t.queue.added = s.queue.added ++ addbaAccepted as := by
  induction as generalizing s with
  | nil =>
      obtain rfl : s = t := h
      exact (List.append_nil _).symm
  | cons a as ih =>
      obtain ⟨-, u, hu, hrest⟩ := h
      rw [ih hrest, added_step hu, List.append_assoc, addbaAccepted, addbaAccepted,
        List.filterMap_cons]
      cases a.accepted <;> rfl

/-- A run of the worker is no longer than what there is to do. -/
lemma length_le_rank {bs : List BackQueueAction}
    (h : Machine.Exec BackQueue.step (fun _ a => a.Internal) s bs t) :
    bs.length ≤ s.queue.rank := by
  induction bs generalizing s with
  | nil => exact Nat.zero_le _
  | cons b bs ih =>
      obtain ⟨hb, u, hu, hrest⟩ := h
      exact Nat.succ_le_of_lt (lt_of_le_of_lt (ih hrest) (BackQueueInv.rank_lt hb hu))

/-- **The requests are served.**  Whatever comes in while the worker runs or waits, whatever the
firmware answers and whenever the list is flushed: the requests are handled in order, each once, with
the response that they ask for, and none is forgotten. -/
theorem backQueue_served {iftype : Iftype} {devAddr : Option MacAddr} {as : List BackQueueAction}
    (h : Machine.Exec BackQueue.step (fun _ _ => True) (BackQueue.init iftype devAddr) as s) :
    BackServed as s := by
  have hinv : BackQueueInv s :=
    h.invariant (fun _ _ _ _ ht hi => hi.step ht) (backQueueInv_init iftype devAddr)
  have hadded : s.queue.added = addbaAccepted as := added_run h
  refine ⟨hinv.sound.order.trans hadded, hinv.answers, hinv.response, fun bs t => length_le_rank,
    fun hnone => ?_⟩
  obtain ⟨-, hcurrent, hgone⟩ := hinv.sound.rest (hinv.resting hnone)
  refine ⟨hgone.trans hadded, ?_⟩
  have hwaiting := hinv.waiting
  rw [hcurrent] at hwaiting
  exact Option.isNone_iff_eq_none.mp (by simpa using hwaiting)

/-- A station connects and asks twice, the second time for a CID that is not connected; the worker
is queued once for both. -/
def askTwice : List BackQueueAction :=
  [.conn (bareConnect 2 0), .conn .start, .conn (.alloc true), .conn (.reply ⟨0, 0, 0⟩),
    .conn .clear, .conn .finish, .addbaRequest ⟨0x30, 1, 0x1002, 0, 0⟩ true, .queueWork,
    .addbaRequest ⟨0x35, 2, 0x1002, 0, 0⟩ true, .queueWork, .start, .next, .reply ⟨0, 0⟩ true, .next,
    .next]

/-- The first request is answered, and the second one is not. -/
theorem backQueue_served_two : ∃ s : BackQueue, BackServed askTwice s ∧ s.queue.Resting ∧
    s.answers.map (fun x => (x.1.dialogToken, x.2.isSome)) = [(1, true), (2, false)] := by
  have hrun : (Machine.exec BackQueue.step (fun _ _ => True) (BackQueue.init .ap (some 1))
      askTwice).map (fun s => (decide s.queue.Resting,
        s.answers.map fun x => (x.1.dialogToken, x.2.isSome)))
      = some (true, [(1, true), (2, false)]) := by
    decide +kernel
  obtain ⟨s, hs, hend⟩ := Option.map_eq_some_iff.mp hrun
  obtain ⟨hrest, hanswers⟩ := Prod.mk.inj hend
  exact ⟨s, backQueue_served (.of_exec hs), of_decide_eq_true hrest, hanswers⟩

/-! ## What the queue is of `BackSys` -/

/-- The list is not flushed. -/
def NoFlush (_ : BackQueue) : BackQueueAction → Prop
  | .flush => False
  | _ => True

/-- One step is one of `BackSys`, or nothing to it. -/
lemma toBack_step {a : BackQueueAction} (ha : NoFlush s a) (h : s.step a = some t) :
    t.toBack = s.toBack ∨ ∃ b, s.toBack.step b = some t.toBack := by
  have hwork : ∀ o : WorkQueue.Op WilPendingBack, s.work o = some t →
      (∀ q, s.queue.step o = some q → q.pending = s.queue.pending) → t.toBack = s.toBack := by
    intro o ho hpending
    obtain ⟨q, hq, rfl⟩ := BackQueue.work_eq_some ho
    rw [BackQueue.toBack, hpending q hq]
    rfl
  cases a with
  | conn a =>
      obtain ⟨htraffic, conn, hconn, rfl⟩ := BackQueue.step_conn h
      refine .inr ⟨.conn a, ?_⟩
      cases a with
      | traffic w => exact absurd rfl (htraffic w)
      | _ => simp only [BackSys.step, BackQueue.toBack, hconn, Option.map_some]
  | baStatus evt allocOk => exact .inr ⟨.baStatus evt allocOk, (Option.some.inj h) ▸ rfl⟩
  | rx skb => exact .inr ⟨.rx skb, (Option.some.inj h) ▸ rfl⟩
  | addbaRequest req allocOk =>
      cases allocOk with
      | false => exact .inl ((Option.some.inj h) ▸ rfl)
      | true =>
          obtain ⟨q, hq, rfl⟩ := BackQueue.work_eq_some (o := .add req) h
          exact .inr ⟨.addbaRequest req true, (Option.some.inj hq) ▸ rfl⟩
  | queueWork => exact .inl (hwork .queue h fun q hq => (Queue.step_queue hq).2 ▸ rfl)
  | start =>
      refine .inl (hwork .start h fun q hq => ?_)
      obtain ⟨w, -, rfl⟩ := Queue.step_start hq
      rfl
  | next =>
      obtain ⟨hwaiting, ⟨req, rest, hpending, hbegin⟩ | ⟨-, hstop⟩⟩ := BackQueue.step_next h
      · refine .inr ⟨.back, ?_⟩
        simp only [BackSys.step, BackQueue.toBack, hwaiting, hpending]
        obtain ⟨-, -, ⟨hnone, rfl⟩ | ⟨w, hw, rfl⟩⟩ := BackQueue.begin_cases hpending hbegin
        · rw [hnone, Option.map_none, hwaiting]
        · rw [hw]
      · refine .inl (hwork .stop hstop fun q hq => ?_)
        obtain ⟨-, -, w, -, rfl⟩ := Queue.step_stop hq
        rfl
  | reply reply allocOk =>
      obtain ⟨w, hw, rfl, -⟩ := BackQueue.step_reply h
      refine .inr ⟨.backReply reply allocOk, ?_⟩
      simp only [BackSys.step, BackQueue.toBack, hw]
  | flush => exact absurd ha id

/-- **The queue refines `BackSys`**: what holds of the states that `BackSys` comes to, holds of those
that the driver comes to with its worker and its queue. -/
theorem backQueue_refines {as : List BackQueueAction}
    (h : Machine.Exec BackQueue.step NoFlush s as t) :
    ∃ bs, Machine.Exec BackSys.step (fun _ _ => True) s.toBack bs t.toBack := by
  induction as generalizing s with
  | nil => exact ⟨[], congrArg BackQueue.toBack h⟩
  | cons a as ih =>
      obtain ⟨ha, u, hu, hrest⟩ := h
      obtain ⟨bs, hbs⟩ := ih hrest
      rcases toBack_step ha hu with hsame | ⟨b, hb⟩
      · exact ⟨bs, hsame ▸ hbs⟩
      · exact ⟨b :: bs, trivial, u.toBack, hb, hbs⟩

end Wil6210
