import Wil6210.Wmi.Success

/-!
# Replies that get through

`wmi_call` sends its command before it publishes what it waits for, so the worker can compare the
reply with an id that is not there yet.  It then takes the reply for an unsolicited event, and the
call times out (`not_wmiCall_delivered`).  The same holds of the buffer and of its size: the reply
goes to a handler, or no byte of it is copied.  `wmiCall_delivered` is what remains true: if the
worker looks at the reply of a call only after the call has published what it looks at, then a
reply that is handled before the timeout makes the call succeed and is in its buffer.
-/

namespace Wil6210

variable {s t : WmiSys}

/-! ## The law and its condition -/

/-- The bytes of `e` were copied to the reply buffer, if there is one. -/
def WmiCall.Copied (f : WmiCall) (e : WmiEvent) : Prop :=
  f.args.reply.isSome = true → ∃ b ∈ f.copies, Holds f.args b e

lemma WmiCall.Copied.mono {f f' : WmiCall} {e : WmiEvent} (h : f.Copied e)
    (hargs : f'.args = f.args) (hcopies : ∀ b ∈ f.copies, b ∈ f'.copies) : f'.Copied e := by
  intro hreply
  obtain ⟨b, hb, hholds⟩ := h (hargs ▸ hreply)
  exact ⟨b, hcopies b hb, hargs ▸ hholds⟩

/-- An event with the awaited id that was handled in time was copied, and the call succeeds.  The
reply buffer has its bytes, or those of an event with the awaited id that was copied later. -/
def WmiCall.Delivered (f : WmiCall) : Prop :=
  ∀ e ∈ f.inTime, e.id = f.args.replyId → f.rc = 0 ∧ f.Copied e ∧ f.Served

/-- The next step of the worker compares the id of the reply with that of the call `f`, which has
sent its command and has not set the id yet. -/
def WmiSys.missesReply (s : WmiSys) (f : WmiCall) : Bool :=
  match s.worker, s.pending, f.pc with
  | .idle, e :: _, .sent => e.isWmi && e.id == f.args.replyId
  | _, _, _ => false

/-- The worker looks at the reply of a call after the call has set what the worker looks at. -/
def PublishedFirst (s : WmiSys) : WmiAction → Prop
  | .worker => ∀ f ∈ s.call, s.missesReply f = false ∧ s.readsEarly f = false
  | _ => True

instance (s : WmiSys) : (a : WmiAction) → Decidable (PublishedFirst s a)
  | .worker => inferInstanceAs (Decidable (∀ f ∈ s.call, _))
  | .call _ _ | .caller | .timeout | .send | .waitFwReady | .recv _ =>
      inferInstanceAs (Decidable True)

/-! ## The invariant -/

/-- A reply that was handled in time has left a completion for the call to take. -/
structure Awaiting (s : WmiSys) (f : WmiCall) : Prop where
  rc : f.pc.waits = true → f.rc = 0
  /-- The worker is still in an event it took before the command was sent. -/
  stale : ∀ e, s.worker.event? = some (e, false) → f.inTime = []
  completing : f.pc.waits = true → ∀ e, s.worker = .completing e true → f.Copied e ∧ f.Served
  done : f.pc.waits = true → ∀ e ∈ f.inTime, e.id = f.args.replyId → 0 < s.done
  ended : f.pc.waits = false → ∀ e ∈ f.inTime, e.id = f.args.replyId → f.rc = 0
  served : ∀ e ∈ f.inTime, e.id = f.args.replyId → f.Copied e ∧ f.Served

namespace Awaiting

variable {f : WmiCall} {e : WmiEvent}

/-- Completions do not go away, and the call is left alone. -/
lemma of_done (h : Awaiting s f) (hdone : s.done ≤ t.done)
    (hstale : ∀ e, t.worker.event? = some (e, false) → f.inTime = [])
    (hcompleting : f.pc.waits = true → ∀ e, t.worker = .completing e true →
      f.Copied e ∧ f.Served) : Awaiting t f :=
  ⟨h.rc, hstale, hcompleting, fun hwaits e he hid => (h.done hwaits e he hid).trans_le hdone,
    h.ended, h.served⟩

/-- The caller goes on, and waits if it did before. -/
lemma advance (h : Awaiting s f) (hworker : t.worker = s.worker) (hdone : t.done = s.done)
    {pc : CallPc} (hwaits : pc.waits = f.pc.waits) : Awaiting t { f with pc := pc } := by
  have hmono : ∀ e, f.Copied e ∧ f.Served →
      WmiCall.Copied { f with pc := pc } e ∧ WmiCall.Served { f with pc := pc } :=
    fun e hs => ⟨hs.1, hs.2.mono rfl rfl fun _ => id⟩
  refine ⟨fun hw => h.rc (hwaits ▸ hw), fun e he => h.stale e (hworker ▸ he), fun hw e he => ?_,
    fun hw e he hid => ?_, fun hw => h.ended (hwaits ▸ hw), fun e he hid => ?_⟩
  · exact hmono e (h.completing (hwaits ▸ hw) e (hworker ▸ he))
  · rw [hdone]
    exact h.done (hwaits ▸ hw) e he hid
  · exact hmono e (h.served e he hid)

/-- An event that is not awaited by a call that waits. -/
lemma unsolicited (h : Awaiting s f) (hdone : s.done ≤ t.done) (hw : t.worker = .idle)
    (hne : f.pc.waits = true → e.id ≠ f.args.replyId) : Awaiting t ((f.handle e).finish e) := by
  have hold : ∀ e' ∈ ((f.handle e).finish e).inTime,
      e'.id = ((f.handle e).finish e).args.replyId → e' ∈ f.inTime ∧ e'.id = f.args.replyId := by
    intro e' he' hid'
    rw [WmiCall.args_finish, WmiCall.args_handle] at hid'
    rcases (WmiCall.mem_inTime_finish _ e e').mp he' with ⟨hwaits, rfl⟩ | he'
    · exact absurd hid' (hne hwaits)
    · exact ⟨he', hid'⟩
  refine ⟨by simpa using h.rc, by simp [hw, EventWorker.event?], by simp [hw], ?_, ?_, ?_⟩
  · intro hwaits e' he' hid'
    obtain ⟨he', hid'⟩ := hold e' he' hid'
    exact (h.done (by simpa using hwaits) e' he' hid').trans_le hdone
  · intro hwaits e' he' hid'
    obtain ⟨he', hid'⟩ := hold e' he' hid'
    simpa using h.ended (by simpa using hwaits) e' he' hid'
  · intro e' he' hid'
    obtain ⟨he', hid'⟩ := hold e' he' hid'
    obtain ⟨hcopied, hserved⟩ := h.served e' he' hid'
    exact ⟨hcopied.mono (by simp) (by simp), (hserved.handle e).finish e⟩

/-- An awaited event that goes to its handler: the call has no buffer, if it still waits. -/
lemma toHandler (h : Awaiting s f) (hdone : s.done ≤ t.done) (hw : t.worker = .completing e true)
    (hid : e.id = f.args.replyId) (hnone : f.pc.waits = true → f.args.reply.isSome = false) :
    Awaiting t (f.handle e) := by
  refine ⟨h.rc, by simp [hw, EventWorker.event?], fun hwaits e' he' => ?_,
    fun hwaits e' he' hid' => (h.done hwaits e' he' hid').trans_le hdone, h.ended,
    fun e' he' hid' => ⟨(h.served e' he' hid').1, (h.served e' he' hid').2.handle e⟩⟩
  obtain rfl : e = e' := by simpa [hw] using he'
  have hreply : ¬ (f.handle e).args.reply.isSome = true := by simp [hnone hwaits]
  exact ⟨fun hsome => absurd hsome hreply, e, List.mem_cons_self, hid,
    fun hsome => absurd hsome hreply⟩

/-- An awaited event that is copied whole. -/
lemma copied (h : Awaiting s f) (hdone : s.done ≤ t.done) (hw : t.worker = .completing e true)
    (hid : e.id = f.args.replyId) :
    Awaiting t ((f.copy e f.args.replySize).handle e) := by
  have hserved : ((f.copy e f.args.replySize).handle e).Served :=
    ⟨e, List.mem_cons_self, hid, fun _ => WmiCall.holds_copy f e⟩
  refine ⟨h.rc, by simp [hw, EventWorker.event?], fun _ e' he' => ?_,
    fun hwaits e' he' hid' => (h.done hwaits e' he' hid').trans_le hdone, h.ended,
    fun e' he' hid' => ⟨?_, hserved⟩⟩
  · obtain rfl : e = e' := by simpa [hw] using he'
    exact ⟨fun _ => ⟨_, List.mem_cons_self, WmiCall.holds_copy f e⟩, hserved⟩
  · exact (h.served e' he' hid').1.mono rfl fun b hb => List.mem_cons_of_mem _ hb

/-- An event of an earlier call overwrites the buffer, before any reply was handled in time. -/
lemma copied_stale (h : Awaiting s f) (hw : t.worker = .completing e false)
    (hnone : f.inTime = []) (size : ℕ) : Awaiting t (f.copy e size) := by
  refine ⟨h.rc, fun _ _ => hnone, by simp [hw], ?_, ?_, ?_⟩ <;> simp [WmiCall.copy, hnone]

/-- The worker completes an awaited event. -/
lemma complete (h : Awaiting s f) (hw : s.worker = .completing e true)
    (hidle : t.worker = .idle) (hdone : 0 < t.done) : Awaiting t (f.finish e) := by
  refine ⟨by simpa using h.rc, by simp [hidle, EventWorker.event?], by simp [hidle],
    fun _ _ _ _ => hdone, fun hwaits e' he' hid' => ?_, fun e' he' hid' => ?_⟩
  · have hwaits' : f.pc.waits = false := by simpa using hwaits
    have hold : e' ∈ f.inTime := by simpa [hwaits'] using he'
    simpa using h.ended hwaits' e' hold (by simpa using hid')
  · have hs : f.Copied e' ∧ f.Served := by
      rcases (WmiCall.mem_inTime_finish f e e').mp he' with ⟨hwaits, rfl⟩ | hold
      · exact h.completing hwaits e' hw
      · exact h.served e' hold (by simpa using hid')
    exact ⟨hs.1.mono (by simp) (by simp), hs.2.finish e⟩

end Awaiting

/-- An event that nobody awaits while its call waits was looked at before the id was set. -/
lemma Published.ne_of_unsolicited {f : WmiCall} {e : WmiEvent} {rest : List WmiEvent}
    (h : Published s f) (hw : s.worker = .idle) (hp : s.pending = e :: rest)
    (htype : e.isWmi = true) (hid : s.awaits e = false) (hmiss : s.missesReply f = false)
    (hwaits : f.pc.waits = true) : e.id ≠ f.args.replyId := by
  intro heq
  have hout : f.pc.idOut ≠ true := by
    intro hout
    exact absurd (((h.awaits_iff e).mpr ⟨hout, heq⟩).symm.trans hid) (by simp)
  have hsent : f.pc = .sent := by
    cases hpc : f.pc <;> simp_all [CallPc.waits, CallPc.idOut]
  simp [WmiSys.missesReply, hw, hp, hsent, htype, heq] at hmiss

structure ReplyInv (s : WmiSys) : Prop extends WmiInv s where
  awaiting : ∀ f, s.call = some f → Awaiting s f
  returned : ∀ f ∈ s.returns, f.Delivered

lemma replyInv_init : ReplyInv WmiSys.init :=
  ⟨WmiInv.init, by simp [WmiSys.init], by simp [WmiSys.init]⟩

namespace ReplyInv

lemma of_call {f : WmiCall} (hinv : WmiInv t) (hf : t.call = some f) (h : Awaiting t f)
    (hret : ∀ f ∈ t.returns, f.Delivered) : ReplyInv t := by
  refine ⟨hinv, fun f' hf' => ?_, hret⟩
  rw [hf] at hf'
  exact Option.some.inj hf' ▸ h

lemma call (h : ReplyInv s) {args : CallArgs} {rc : ℤ} (ht : s.step (.call args rc) = some t) :
    ReplyInv t := by
  have hinv := h.toWmiInv.step ht
  simp only [WmiSys.step] at ht
  split_ifs at ht with hready hrc
  · obtain rfl := Option.some.inj ht
    refine of_call hinv rfl ⟨?_, ?_, ?_, ?_, ?_, ?_⟩ h.returned
    · simp [WmiCall.ofSend]
    · simp [WmiCall.ofSend]
    · intro _ e hw
      have hdisown := EventWorker.event?_disown s.worker
      rw [show s.worker.disown = _ from hw] at hdisown
      cases hev : s.worker.event? <;> simp [EventWorker.event?] at hdisown
    · simp [WmiCall.ofSend]
    · simp [WmiCall.ofSend]
    · simp [WmiCall.ofSend]
  · obtain rfl := Option.some.inj ht
    refine ⟨hinv, fun f hf => ?_, ?_⟩
    · exact absurd hf (by simp [hready.1])
    · intro f hf
      rcases List.mem_cons.mp hf with rfl | hf
      · simp [WmiCall.Delivered, WmiCall.ofSend]
      · exact h.returned f hf

lemma callerStep (h : ReplyInv s) {f : WmiCall} (hf : s.call = some f)
    (ht : s.callerStep f = some t) : ReplyInv t := by
  have hinv := h.toWmiInv.callerStep hf ht
  obtain ⟨hrc, hstale, -, -, hended, hserved⟩ := h.awaiting f hf
  cases hpc : f.pc <;>
    simp only [WmiSys.callerStep, hpc, Option.some.injEq, Option.ite_none_right_eq_some] at ht
  case bufCleared =>
    subst ht
    refine ⟨hinv, by simp, ?_⟩
    intro f' hf'
    rcases List.mem_cons.mp hf' with rfl | hf'
    · exact fun e he hid => ⟨hended (by simp [hpc, CallPc.waits]) e he hid, hserved e he hid⟩
    · exact h.returned f' hf'
  case waiting =>
    obtain ⟨hpos, rfl⟩ := ht
    have hzero := hrc (by simp [hpc, CallPc.waits])
    exact of_call hinv rfl ⟨by simp [CallPc.waits], hstale, by simp [CallPc.waits],
      by simp [CallPc.waits], fun _ _ _ _ => hzero,
      fun e he hid => ⟨(hserved e he hid).1, (hserved e he hid).2.mono rfl rfl fun _ => id⟩⟩
      h.returned
  all_goals
    subst ht
    refine of_call hinv rfl ((h.awaiting f hf).advance ?_ ?_ ?_) h.returned
    · rfl
    · rfl
    · rw [hpc]
      rfl

lemma timeout (h : ReplyInv s) (ht : s.step .timeout = some t) : ReplyInv t := by
  have hinv := h.toWmiInv.step ht
  obtain ⟨f, hf, ht⟩ := Option.bind_eq_some_iff.mp ht
  obtain ⟨-, hstale, -, hdone, -, -⟩ := h.awaiting f hf
  split_ifs at ht with hwait
  -- a reply in time has left a completion, so the wait would not have ended
  have hnone : ∀ e ∈ f.inTime, e.id ≠ f.args.replyId := by
    intro e he hid
    have hpos := hdone (by simp [hwait.1, CallPc.waits]) e he hid
    omega
  obtain rfl := Option.some.inj ht
  refine of_call hinv rfl ⟨?_, hstale, ?_, ?_, ?_, ?_⟩ h.returned
  · simp [CallPc.waits]
  · simp [CallPc.waits]
  · simp [CallPc.waits]
  · exact fun _ e he hid => absurd hid (hnone e he)
  · exact fun e he hid => absurd hid (hnone e he)

lemma worker (h : ReplyInv s) (hG : PublishedFirst s .worker) (ht : s.workerStep = some t) :
    ReplyInv t := by
  have hinv := h.toWmiInv.worker ht
  have hstep := WmiSys.workerStep_cases ht
  have hret : ∀ f ∈ t.returns, f.Delivered := hstep.returns_eq ▸ h.returned
  cases hcall : s.call with
  | none => exact ⟨hinv, by simp [hstep.call_eq_none hcall], hret⟩
  | some f =>
      have hpub := h.running f hcall
      have hawait := h.awaiting f hcall
      obtain ⟨hmiss, hearly⟩ := hG f hcall
      cases hstep with
      | skip hw hp htype =>
          exact of_call hinv hcall (hawait.of_done le_rfl hawait.stale hawait.completing) hret
      | @matched e rest hw hp htype hid =>
          exact of_call hinv hcall
            (hawait.of_done le_rfl (by simp [EventWorker.event?, hcall]) (by simp)) hret
      | @unsolicited e rest hw hp htype hid =>
          exact of_call hinv (WmiSys.call_note_some (by simpa using hcall) _ _)
            (hawait.unsolicited (WmiSys.done_le_wmiEvtCallHandler { s with pending := rest } e)
              (by simpa using hw)
              (hpub.ne_of_unsolicited hw hp htype hid hmiss)) hret
      | @toCopy e mine hw hbuf =>
          refine of_call hinv hcall (hawait.of_done le_rfl ?_ (by simp)) hret
          simpa [hw, EventWorker.event?] using hawait.stale
      | @toHandler e mine hw hbuf =>
          have hdone : s.done ≤ _ :=
            WmiSys.done_le_wmiEvtCallHandler { s with worker := .completing e mine } e
          refine of_call hinv (WmiSys.call_note_some (by simpa using hcall) _ _) ?_ hret
          cases mine with
          | false =>
              refine hawait.of_done hdone ?_ (by simp)
              simpa [hw, EventWorker.event?] using hawait.stale
          | true =>
              exact hawait.toHandler hdone (by simp) (hpub.mine e (by rw [hw]; rfl)).1
                fun hwaits => hpub.no_reply hw hbuf hwaits hearly
      | @copied e mine hw hbuf =>
          refine of_call hinv (WmiSys.call_note_some (WmiSys.call_copyReply hcall e) _ _) ?_ hret
          cases mine with
          | false => exact hawait.copied_stale rfl (hawait.stale e (by rw [hw]; rfl)) _
          | true =>
              rw [show s.replySize = _ from hpub.size_of_copying hw hbuf fun _ => hearly]
              exact hawait.copied le_rfl rfl (hpub.mine e (by rw [hw]; rfl)).1
      | @nothing e mine hw hbuf =>
          refine of_call hinv hcall (hawait.of_done le_rfl ?_ fun hwaits e' he' => ?_) hret
          · simpa [hw, EventWorker.event?] using hawait.stale
          · obtain ⟨rfl, rfl⟩ : e = e' ∧ mine = true := by simpa using he'
            exact absurd ((hpub.buf_of_waits hw hwaits).symm.trans hbuf) (by simp)
      | fault hw hbuf =>
          exact of_call hinv hcall
            (hawait.of_done le_rfl (by simp [EventWorker.event?]) (by simp)) hret
      | @complete e mine hw =>
          refine of_call hinv (WmiSys.call_note_some hcall _ _) ?_ hret
          cases mine with
          | false =>
              exact hawait.of_done (Nat.le_succ _) (by simp [EventWorker.event?]) (by simp)
          | true => exact hawait.complete hw rfl (Nat.succ_pos _)

lemma step {a : WmiAction} (h : ReplyInv s) (hG : PublishedFirst s a)
    (ht : s.step a = some t) : ReplyInv t := by
  cases a with
  | call args rc => exact h.call ht
  | caller =>
      obtain ⟨f, hf, ht⟩ := Option.bind_eq_some_iff.mp ht
      exact h.callerStep hf ht
  | timeout => exact h.timeout ht
  | send =>
      simp only [WmiSys.step, Option.ite_none_right_eq_some] at ht
      exact Option.some.inj ht.2 ▸ h
  | waitFwReady =>
      have hinv := h.toWmiInv.step ht
      simp only [WmiSys.step, Option.ite_none_right_eq_some] at ht
      obtain ⟨⟨hnone, -⟩, ht⟩ := ht
      obtain rfl := Option.some.inj ht
      exact ⟨hinv, by simp [hnone], h.returned⟩
  | recv e =>
      have hinv := h.toWmiInv.step ht
      obtain rfl := Option.some.inj ht
      refine ⟨hinv, fun f hf => ?_, h.returned⟩
      obtain ⟨hrc, hstale, hcompleting, hdone, hended, hserved⟩ := h.awaiting f hf
      exact ⟨hrc, hstale, hcompleting, hdone, hended, hserved⟩
  | worker => exact h.worker hG ht

end ReplyInv

/-! ## The result -/

/-- **A reply that is handled before the timeout is not lost**: the call returns zero, and the bytes
of the reply were copied to its buffer. -/
theorem wmiCall_delivered {as : List WmiAction}
    (h : Machine.Exec WmiSys.step PublishedFirst .init as s) :
    ∀ f ∈ s.returns, f.Delivered :=
  (h.invariant (fun _ _ _ hG ht hs => ReplyInv.step hs hG ht) replyInv_init).returned

/-- A reply that comes while its call publishes what it waits for. -/
theorem wmiCall_delivered_echo :
    ∃ s : WmiSys, s.returns.map (fun f => (f.inTime, f.buffer)) = [([echoRspEvent], [0, 0, 3])] ∧
      ∀ f ∈ s.returns, f.Delivered := by
  let as : List WmiAction := [.call (echoArgs (some [0, 0, 0])) 0, .recv echoRspEvent,
    .caller, .worker, .caller, .worker, .caller, .worker, .worker, .caller, .caller, .caller,
    .caller]
  have hrun : (Machine.exec WmiSys.step PublishedFirst .init (boot ++ as)).map
      (fun s => s.returns.map fun f => (f.inTime, f.buffer))
      = some [([echoRspEvent], [0, 0, 3])] := by
    decide +kernel
  obtain ⟨s, hs, hend⟩ := Option.map_eq_some_iff.mp hrun
  exact ⟨s, hend, wmiCall_delivered (.of_exec hs)⟩

/-- The reply is handled before the call has set `reply_id`, and the call times out. -/
theorem not_wmiCall_delivered :
    ¬ ∀ (as : List WmiAction) (s : WmiSys),
      Machine.Exec WmiSys.step (fun _ _ => True) .init as s →
      ∀ f ∈ s.returns, f.Delivered := by
  intro h
  let as : List WmiAction := [.call (echoArgs none) 0, .recv echoRspEvent, .worker,
    .caller, .caller, .caller, .timeout, .caller, .caller, .caller]
  have hrun : (Machine.exec WmiSys.step (fun _ _ => True) .init (boot ++ as)).map
      (fun s => s.returns.map fun f => (f.args, f.rc, f.inTime))
      = some [(echoArgs none, eTime, [echoRspEvent])] := by
    decide +kernel
  obtain ⟨s, hs, hend⟩ := Option.map_eq_some_iff.mp hrun
  obtain ⟨f, hf, hcall⟩ := List.map_eq_singleton_iff.mp hend
  obtain ⟨hargs, hrc, htime⟩ : f.args = echoArgs none ∧ f.rc = eTime ∧ f.inTime = [echoRspEvent] :=
    by simpa using hcall
  have hdelivered := h _ s (.of_exec hs) f (by rw [hf]; exact List.mem_singleton_self f)
  have hzero := (hdelivered echoRspEvent (by simp [htime]) (by rw [hargs]; decide)).1
  rw [hrc] at hzero
  exact absurd hzero (by decide)

end Wil6210
