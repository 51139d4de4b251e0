import Wil6210.Wmi.Call

/-!
# Calls that succeed

A call that returns zero has taken a completion, and nothing says whose it was: `wmi_ready` is
not re-armed when a call starts, and FW_READY completes it too.  A reply that the firmware sends
twice is enough for the next call to succeed with no reply (`not_wmiCall_served`).
`wmiCall_served` is what remains true: a success is the success of this call, if no completion is
left over or under way when its command is sent, FW_READY does not come while it waits, and its
reply does not overtake the publication of its buffer.
-/

namespace Wil6210

variable {s t : WmiSys}

/-! ## The law and its condition -/

namespace WmiCall

/-- An event with the awaited id was handled, and the reply buffer, if there is one, holds it. -/
def Served (f : WmiCall) : Prop :=
  ∃ e ∈ f.handled, e.id = f.args.replyId ∧
    (f.args.reply.isSome = true → Holds f.args f.buffer e)

lemma Served.mono {f f' : WmiCall} (h : f.Served) (hargs : f'.args = f.args)
    (hbuffer : f'.buffer = f.buffer) (hhandled : ∀ e ∈ f.handled, e ∈ f'.handled) :
    f'.Served := by
  obtain ⟨e, he, hid, hholds⟩ := h
  refine ⟨e, hhandled e he, ?_, ?_⟩
  · rw [hargs, hid]
  · rw [hargs, hbuffer]
    exact hholds

lemma Served.handle {f : WmiCall} (h : f.Served) (e : WmiEvent) : (f.handle e).Served :=
  h.mono rfl rfl fun _ he => List.mem_cons_of_mem _ he

lemma Served.finish {f : WmiCall} (h : f.Served) (e : WmiEvent) : (f.finish e).Served :=
  h.mono (by simp) (by simp) (by simp)

end WmiCall

/-- The next step of the worker runs the handler of FW_READY. -/
def WmiSys.atFwReady (s : WmiSys) : Bool :=
  match s.worker, s.pending with
  | .idle, e :: _ => e.isWmi && !s.awaits e && e.id == wmiFwReadyEventid
  | .matched e _, _ => !s.replyBuf && e.id == wmiFwReadyEventid
  | _, _ => false

/-- No completion is left over, or under way, when the command of a call is sent.  While the call
waits, FW_READY is not handled and its reply is not looked at too early. -/
def FreshCompletion (s : WmiSys) : WmiAction → Prop
  | .call _ rc => rc = 0 → s.done = 0 ∧ s.worker.event? = none
  | .worker => ∀ f ∈ s.call, f.pc.waits = true → s.atFwReady = false ∧ s.readsEarly f = false
  | _ => True

instance (s : WmiSys) : (a : WmiAction) → Decidable (FreshCompletion s a)
  | .call _ _ => inferInstanceAs (Decidable (_ → _ ∧ _))
  | .worker => inferInstanceAs (Decidable (∀ f ∈ s.call, _))
  | .caller | .timeout | .send | .waitFwReady | .recv _ => inferInstanceAs (Decidable True)

/-! ## The invariant -/

/-- Completions are those of the running call, and it has been served when there is one. -/
structure Answered (s : WmiSys) (f : WmiCall) : Prop where
  mine : ∀ e b, s.worker.event? = some (e, b) → b = true
  done : f.pc.waits = true → 0 < s.done → f.Served
  completing : f.pc.waits = true → ∀ e b, s.worker = .completing e b → f.Served
  ended : f.pc.waits = false → f.rc = 0 → f.Served

/-- The caller goes on, and waits if it did before. -/
lemma Answered.advance {f : WmiCall} (h : Answered s f) (hworker : t.worker = s.worker)
    (hdone : t.done = s.done) {pc : CallPc} (hwaits : pc.waits = f.pc.waits) :
    Answered t { f with pc := pc } := by
  have hmono : f.Served → WmiCall.Served { f with pc := pc } :=
    fun hs => hs.mono rfl rfl fun _ => id
  refine ⟨fun e b he => h.mine e b (hworker ▸ he), fun hw hpos => ?_, fun hw e b he => ?_,
    fun hw hzero => ?_⟩
  · exact hmono (h.done (hwaits ▸ hw) (hdone ▸ hpos))
  · exact hmono (h.completing (hwaits ▸ hw) e b (hworker ▸ he))
  · exact hmono (h.ended (hwaits ▸ hw) hzero)

structure SuccessInv (s : WmiSys) : Prop extends WmiInv s where
  answered : ∀ f, s.call = some f → Answered s f
  returned : ∀ f ∈ s.returns, f.rc = 0 → f.Served

lemma successInv_init : SuccessInv WmiSys.init :=
  ⟨WmiInv.init, by simp [WmiSys.init], by simp [WmiSys.init]⟩

namespace SuccessInv

lemma of_call {f : WmiCall} (hinv : WmiInv t) (hf : t.call = some f) (h : Answered t f)
    (hret : ∀ f ∈ t.returns, f.rc = 0 → f.Served) : SuccessInv t := by
  refine ⟨hinv, fun f' hf' => ?_, hret⟩
  rw [hf] at hf'
  exact Option.some.inj hf' ▸ h

lemma call (h : SuccessInv s) {args : CallArgs} {rc : ℤ}
    (hG : FreshCompletion s (.call args rc)) (ht : s.step (.call args rc) = some t) :
    SuccessInv t := by
  have hinv := h.toWmiInv.step ht
  simp only [WmiSys.step] at ht
  split_ifs at ht with hready hrc
  · obtain rfl := Option.some.inj ht
    obtain ⟨hdone, hidle⟩ := hG hrc
    refine of_call hinv rfl ⟨?_, ?_, ?_, ?_⟩ h.returned
    · simp [EventWorker.event?_disown, hidle]
    · simp [hdone]
    · intro _ e b hw
      have := EventWorker.event?_disown s.worker
      rw [hidle, show s.worker.disown = _ from hw] at this
      exact absurd this (by simp [EventWorker.event?])
    · simp [WmiCall.ofSend, CallPc.waits]
  · obtain rfl := Option.some.inj ht
    refine ⟨hinv, fun f hf => ?_, ?_⟩
    · exact absurd hf (by simp [hready.1])
    · intro f hf hzero
      rcases List.mem_cons.mp hf with rfl | hf
      · exact absurd hzero hrc
      · exact h.returned f hf hzero

lemma callerStep (h : SuccessInv s) {f : WmiCall} (hf : s.call = some f)
    (ht : s.callerStep f = some t) : SuccessInv t := by
  have hinv := h.toWmiInv.callerStep hf ht
  obtain ⟨hmine, hdone, -, hended⟩ := h.answered f hf
  cases hpc : f.pc <;>
    simp only [WmiSys.callerStep, hpc, Option.some.injEq, Option.ite_none_right_eq_some] at ht
  case bufCleared =>
    subst ht
    refine ⟨hinv, by simp, ?_⟩
    intro f' hf' hzero
    rcases List.mem_cons.mp hf' with rfl | hf'
    · exact hended (by simp [hpc, CallPc.waits]) hzero
    · exact h.returned f' hf' hzero
  case waiting =>
    obtain ⟨hpos, rfl⟩ := ht
    have hserved := hdone (by simp [hpc, CallPc.waits]) hpos
    refine of_call hinv rfl ⟨hmine, ?_, ?_, ?_⟩ h.returned
    · simp [CallPc.waits]
    · simp [CallPc.waits]
    · exact fun _ _ => hserved.mono rfl rfl fun _ => id
  all_goals
    subst ht
    refine of_call hinv rfl ((h.answered f hf).advance ?_ ?_ ?_) h.returned
    · rfl
    · rfl
    · rw [hpc]
      rfl

lemma timeout (h : SuccessInv s) (ht : s.step .timeout = some t) : SuccessInv t := by
  have hinv := h.toWmiInv.step ht
  obtain ⟨f, hf, ht⟩ := Option.bind_eq_some_iff.mp ht
  split_ifs at ht
  obtain rfl := Option.some.inj ht
  refine of_call hinv rfl ⟨(h.answered f hf).mine, ?_, ?_, ?_⟩ h.returned
  · simp [CallPc.waits]
  · simp [CallPc.waits]
  · simp [eTime]

lemma worker (h : SuccessInv s) (hG : FreshCompletion s .worker) (ht : s.workerStep = some t) :
    SuccessInv t := by
  have hinv := h.toWmiInv.worker ht
  have hstep := WmiSys.workerStep_cases ht
  have hret : ∀ f ∈ t.returns, f.rc = 0 → f.Served := hstep.returns_eq ▸ h.returned
  cases hcall : s.call with
  | none => exact ⟨hinv, by simp [hstep.call_eq_none hcall], hret⟩
  | some f =>
      have hans := h.answered f hcall
      have hpub := h.running f hcall
      have hquiet : f.pc.waits = true → s.atFwReady = false ∧ s.readsEarly f = false :=
        hG f hcall
      cases hstep with
      | skip hw hp htype =>
          exact of_call hinv hcall ⟨hans.mine, hans.done, hans.completing, hans.ended⟩ hret
      | @matched e rest hw hp htype hid =>
          exact of_call hinv hcall ⟨by simp [EventWorker.event?, hcall], hans.done, by simp,
            hans.ended⟩ hret
      | @unsolicited e rest hw hp htype hid =>
          refine of_call hinv (WmiSys.call_note_some (by simpa using hcall) _ _)
            ⟨by simpa using hans.mine, fun hwaits hpos => ?_, by simp [hw], fun hwaits hzero => ?_⟩
            hret
          · -- FW_READY would have completed
            have hwaits' : f.pc.waits = true := by simpa using hwaits
            have hready := (hquiet hwaits').1
            have hne : e.id ≠ wmiFwReadyEventid := by
              simpa [WmiSys.atFwReady, hw, hp, htype, hid] using hready
            rw [WmiSys.done_note, WmiSys.done_wmiEvtCallHandler, if_neg hne] at hpos
            exact ((hans.done hwaits' hpos).handle e).finish e
          · exact ((hans.ended (by simpa using hwaits) (by simpa using hzero)).handle e).finish e
      | @toCopy e mine hw hbuf =>
          refine of_call hinv hcall ⟨?_, hans.done, by simp, hans.ended⟩ hret
          simpa [hw, EventWorker.event?] using hans.mine
      | @toHandler e mine hw hbuf =>
          obtain rfl : mine = true := hans.mine e mine (by rw [hw]; rfl)
          have hserved : f.pc.waits = true → (f.handle e).Served := by
            intro hwaits
            refine ⟨e, List.mem_cons_self, (hpub.mine e (by rw [hw]; rfl)).1, fun hreply => ?_⟩
            have hnone := hpub.no_reply hw hbuf hwaits (hquiet hwaits).2
            exact absurd (hnone.symm.trans hreply) (by simp)
          refine of_call hinv (WmiSys.call_note_some (by simpa using hcall) _ _)
            ⟨by simp [EventWorker.event?], fun hwaits _ => hserved hwaits,
              fun hwaits _ _ _ => hserved hwaits, fun hwaits hzero => ?_⟩ hret
          exact (hans.ended hwaits hzero).handle e
      | @copied e mine hw hbuf =>
          obtain rfl : mine = true := hans.mine e mine (by rw [hw]; rfl)
          have hsize := hpub.size_of_copying hw hbuf fun hwaits => (hquiet hwaits).2
          have hserved : ((f.copy e s.replySize).handle e).Served :=
            ⟨e, List.mem_cons_self, (hpub.mine e (by rw [hw]; rfl)).1,
              fun _ => hsize ▸ WmiCall.holds_copy f e⟩
          exact of_call hinv (WmiSys.call_note_some (WmiSys.call_copyReply hcall e) _ _)
            ⟨by simp [WmiSys.copyReply, EventWorker.event?], fun _ _ => hserved,
              fun _ _ _ _ => hserved, fun _ _ => hserved⟩ hret
      | @nothing e mine hw hbuf =>
          obtain rfl : mine = true := hans.mine e mine (by rw [hw]; rfl)
          refine of_call hinv hcall
            ⟨by simp [EventWorker.event?], hans.done, fun hwaits _ _ _ => ?_, hans.ended⟩ hret
          exact absurd ((hpub.buf_of_waits hw hwaits).symm.trans hbuf) (by simp)
      | fault hw hbuf =>
          exact of_call hinv hcall
            ⟨by simp [EventWorker.event?], hans.done, by simp, hans.ended⟩ hret
      | @complete e mine hw =>
          obtain rfl : mine = true := hans.mine e mine (by rw [hw]; rfl)
          refine of_call hinv (WmiSys.call_note_some hcall _ _)
            ⟨by simp [EventWorker.event?], fun hwaits _ => ?_, by simp, fun hwaits hzero => ?_⟩
            hret
          · exact (hans.completing (by simpa using hwaits) e true hw).finish e
          · exact (hans.ended (by simpa using hwaits) (by simpa using hzero)).finish e

lemma step {a : WmiAction} (h : SuccessInv s) (hG : FreshCompletion s a)
    (ht : s.step a = some t) : SuccessInv t := by
  cases a with
  | call args rc => exact h.call hG ht
  | caller =>
      obtain ⟨f, hf, ht⟩ := Option.bind_eq_some_iff.mp ht
      exact h.callerStep hf ht
  | timeout => exact h.timeout ht
  | send =>
      simp only [WmiSys.step, Option.ite_none_right_eq_some] at ht
      exact Option.some.inj ht.2 ▸ h
  | waitFwReady =>
      have hinv := h.toWmiInv.step ht
      simp only [WmiSys.step, Option.ite_none_right_eq_some] at ht
      obtain ⟨⟨hnone, -⟩, ht⟩ := ht
      obtain rfl := Option.some.inj ht
      exact ⟨hinv, by simp [hnone], h.returned⟩
  | recv e =>
      have hinv := h.toWmiInv.step ht
      obtain rfl := Option.some.inj ht
      refine ⟨hinv, fun f hf => ?_, h.returned⟩
      exact ⟨(h.answered f hf).mine, (h.answered f hf).done, (h.answered f hf).completing,
        (h.answered f hf).ended⟩
  | worker => exact h.worker hG ht

end SuccessInv

/-! ## The result -/

/-- **A call that returns zero got its reply**: after its command was sent an event with its id was
handled, and the reply buffer, if there is one, holds the bytes of that event. -/
theorem wmiCall_served {as : List WmiAction}
    (h : Machine.Exec WmiSys.step FreshCompletion .init as s) :
    ∀ f ∈ s.returns, f.rc = 0 → f.Served :=
  (h.invariant (fun _ _ _ hG ht hs => SuccessInv.step hs hG ht) successInv_init).returned

/-- FW_READY, as the firmware sends it. -/
def fwReadyEvent : WmiEvent := ⟨wilMboxHdrTypeWmi, [0, 0, 0x01, 0x18, 0, 0, 0, 0]⟩

/-- `WMI_ECHO_RSP_EVENTID`, with one byte more than the header. -/
def echoRspEvent : WmiEvent := ⟨wilMboxHdrTypeWmi, [0, 0, 0x03, 0x18, 0, 0, 0, 0, 7]⟩

/-- The steps by which the firmware reports ready, and `wil_reset` returns. -/
def boot : List WmiAction := [.recv fwReadyEvent, .worker, .waitFwReady]

/-- A call that waits for `echoRspEvent`. -/
def echoArgs (reply : Option (List UInt8)) : CallArgs := ⟨0x1803, reply, by decide⟩

/-- A call whose reply comes while it waits. -/
theorem wmiCall_served_echo :
    ∃ s : WmiSys, s.returns.map (·.rc) = [0] ∧ ∀ f ∈ s.returns, f.rc = 0 → f.Served := by
  let as : List WmiAction := [.call (echoArgs (some [0, 0, 0])) 0, .caller, .caller,
    .caller, .recv echoRspEvent, .worker, .worker, .worker, .worker, .caller, .caller, .caller,
    .caller]
  have hrun : (Machine.exec WmiSys.step FreshCompletion .init (boot ++ as)).map
      (fun s => s.returns.map (·.rc)) = some [0] := by
    decide +kernel
  obtain ⟨s, hs, hrc⟩ := Option.map_eq_some_iff.mp hrun
  exact ⟨s, hrc, wmiCall_served (.of_exec hs)⟩

/-- The reply of a call comes twice, and the next call succeeds at once: nothing was handled since
its command was sent. -/
theorem not_wmiCall_served :
    ¬ ∀ (as : List WmiAction) (s : WmiSys),
      Machine.Exec WmiSys.step (fun _ _ => True) .init as s →
      ∀ f ∈ s.returns, f.rc = 0 → f.Served := by
  intro h
  let call : List WmiAction := [.call (echoArgs none) 0, .caller, .caller, .caller]
  let back : List WmiAction := [.caller, .caller, .caller, .caller]
  let twice : List WmiAction := [.recv echoRspEvent, .recv echoRspEvent]
  let as := [boot, call, twice, List.replicate 6 .worker, back, call, back].flatten
  have hrun : (Machine.exec WmiSys.step (fun _ _ => True) .init as).map
      (fun s => s.returns.head?.map fun f => (f.rc, f.handled)) = some (some (0, [])) := by
    decide +kernel
  obtain ⟨s, hs, hlast⟩ := Option.map_eq_some_iff.mp hrun
  obtain ⟨f, hf, hend⟩ := Option.map_eq_some_iff.mp hlast
  obtain ⟨hrc, hnone⟩ := Prod.mk.inj hend
  obtain ⟨e, he, -⟩ := h as s (.of_exec hs) f (List.mem_of_mem_head? hf) hrc
  rw [hnone] at he
  exact absurd he (by simp)

end Wil6210
