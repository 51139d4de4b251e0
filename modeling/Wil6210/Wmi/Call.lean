import Wil6210.Kernel
import Wil6210.Lib.Machine

/-!
# WMI calls

`wmi_call` sends a command to the firmware, publishes in `wil6210_priv` the id of the event it
waits for and the buffer its reply goes to, and waits for the completion `wmi_ready`.  The worker
takes the received events from a list one after another, and compares the id of each with what is
published: an awaited event is copied to the buffer, or goes to its handler when there is no
buffer, and `wmi_ready` is completed.  Nothing orders the three assignments of the call with the
reads of the worker, and `wmi_ready` counts.

The model has one step for each access of the two threads to a shared field.  A call is serialised
with the others by `wmi_mutex`, so at most one runs; the worker is alone on its queue.  The fields
`handled`, `inTime` and `copies` of a call are histories, and no step reads them.
-/

namespace Wil6210

/-! ## Events -/

/-- `WIL_MBOX_HDR_TYPE_WMI` -/
def wilMboxHdrTypeWmi : ℕ := 0

/-- `sizeof(struct wil6210_mbox_hdr_wmi)` -/
def sizeofMboxHdrWmi : ℕ := 8

/-- `WMI_FW_READY_EVENTID` -/
def wmiFwReadyEventid : ℕ := 0x1801

/-- An entry of `pending_wmi_ev`: the type in the header of the mailbox, and the `hdr.len` bytes
that follow the header. -/
structure WmiEvent where
  type : ℕ
  bytes : List UInt8
deriving DecidableEq, Repr

namespace WmiEvent

/-- `hdr->len` -/
def len (e : WmiEvent) : ℕ := e.bytes.length

/-- The event has the header of a WMI event, so it has an id. -/
def isWmi (e : WmiEvent) : Bool := e.type == wilMboxHdrTypeWmi && sizeofMboxHdrWmi ≤ e.len

/-- `le16_to_cpu(wmi->id)`, after the two reserved bytes. -/
def id (e : WmiEvent) : ℕ := (e.bytes.getD 2 0).toNat + 256 * (e.bytes.getD 3 0).toNat

end WmiEvent

/-- `memcpy` of the first `n` bytes of `src`. -/
def memcpy (dst src : List UInt8) (n : ℕ) : List UInt8 := src.take n ++ dst.drop n

lemma take_memcpy {dst src : List UInt8} {n : ℕ} (hn : n ≤ src.length) :
    (memcpy dst src n).take n = src.take n := by
  have hlen : (src.take n).length = n := by simpa using hn
  simp [memcpy, hlen]

/-! ## A call -/

/-- What a caller waits for.  The id is that of an event, and a caller that gives a buffer gives
its size. -/
structure CallArgs where
  replyId : ℕ
  reply : Option (List UInt8)
  pos : 0 < replyId
deriving DecidableEq, Repr

/-- `reply_size` -/
def CallArgs.replySize (a : CallArgs) : ℕ := (a.reply.getD []).length

/-- Where `wmi_call` is: what it did last. -/
inductive CallPc where
  | sent
  | idSet
  | bufSet
  /-- `reply_size` is set, and the call waits. -/
  | waiting
  | woken
  | idCleared
  | bufCleared
deriving DecidableEq, Repr

namespace CallPc

/-- The wait has not ended. -/
def waits : CallPc → Bool
  | sent | idSet | bufSet | waiting => true
  | woken | idCleared | bufCleared => false

def idOut : CallPc → Bool
  | idSet | bufSet | waiting | woken => true
  | sent | idCleared | bufCleared => false

def bufOut : CallPc → Bool
  | bufSet | waiting | woken | idCleared => true
  | sent | idSet | bufCleared => false

def sizeOut : CallPc → Bool
  | waiting | woken | idCleared | bufCleared => true
  | sent | idSet | bufSet => false

end CallPc

/-- A running `wmi_call`, and what is left of it when it has returned. -/
structure WmiCall where
  args : CallArgs
  pc : CallPc
  rc : ℤ
  /-- The contents of the reply buffer. -/
  buffer : List UInt8
  /-- The events that were copied or given to their handler since the command was sent. -/
  handled : List WmiEvent
  /-- The events whose `wmi_event_handle` ran between the command and the end of the wait. -/
  inTime : List WmiEvent
  /-- The contents of the reply buffer after each copy. -/
  copies : List (List UInt8)
deriving DecidableEq, Repr

namespace WmiCall

/-- `__wmi_send` has returned `rc`. -/
def ofSend (args : CallArgs) (rc : ℤ) : WmiCall where
  args := args
  pc := .sent
  rc := rc
  buffer := args.reply.getD []
  handled := []
  inTime := []
  copies := []

/-- Note that `e` was copied or given to its handler. -/
def handle (f : WmiCall) (e : WmiEvent) : WmiCall := { f with handled := e :: f.handled }

/-- Note that `wmi_event_handle` returned from `e`. -/
def finish (f : WmiCall) (e : WmiEvent) : WmiCall :=
  if f.pc.waits then { f with inTime := e :: f.inTime } else f

/-- The copy of the first `size` bytes of `e`, or all of them, to the reply buffer. -/
def copy (f : WmiCall) (e : WmiEvent) (size : ℕ) : WmiCall :=
  let b := memcpy f.buffer e.bytes (min e.len size)
  { f with buffer := b, copies := b :: f.copies }

/-- The reply buffer holds the bytes of `e`, up to its length. -/
def Holds (a : CallArgs) (buffer : List UInt8) (e : WmiEvent) : Prop :=
  buffer.take (min e.len a.replySize) = e.bytes.take (min e.len a.replySize)

instance (a : CallArgs) (buffer : List UInt8) (e : WmiEvent) : Decidable (Holds a buffer e) :=
  inferInstanceAs (Decidable (_ = _))

lemma holds_copy (f : WmiCall) (e : WmiEvent) :
    Holds f.args (f.copy e f.args.replySize).buffer e :=
  take_memcpy (min_le_left _ _)

@[simp] lemma args_handle (f : WmiCall) (e : WmiEvent) : (f.handle e).args = f.args := rfl

@[simp] lemma pc_handle (f : WmiCall) (e : WmiEvent) : (f.handle e).pc = f.pc := rfl

@[simp] lemma rc_handle (f : WmiCall) (e : WmiEvent) : (f.handle e).rc = f.rc := rfl

@[simp] lemma copies_handle (f : WmiCall) (e : WmiEvent) : (f.handle e).copies = f.copies := rfl

@[simp] lemma args_finish (f : WmiCall) (e : WmiEvent) : (f.finish e).args = f.args := by
  simp only [finish]; split_ifs <;> rfl

@[simp] lemma pc_finish (f : WmiCall) (e : WmiEvent) : (f.finish e).pc = f.pc := by
  simp only [finish]; split_ifs <;> rfl

@[simp] lemma rc_finish (f : WmiCall) (e : WmiEvent) : (f.finish e).rc = f.rc := by
  simp only [finish]; split_ifs <;> rfl

@[simp] lemma buffer_finish (f : WmiCall) (e : WmiEvent) : (f.finish e).buffer = f.buffer := by
  simp only [finish]; split_ifs <;> rfl

@[simp] lemma handled_finish (f : WmiCall) (e : WmiEvent) :
    (f.finish e).handled = f.handled := by
  simp only [finish]; split_ifs <;> rfl

@[simp] lemma copies_finish (f : WmiCall) (e : WmiEvent) : (f.finish e).copies = f.copies := by
  simp only [finish]; split_ifs <;> rfl

@[simp] lemma mem_inTime_finish (f : WmiCall) (e e' : WmiEvent) :
    e' ∈ (f.finish e).inTime ↔ f.pc.waits = true ∧ e' = e ∨ e' ∈ f.inTime := by
  simp only [finish]; split_ifs with h <;> simp [h]

end WmiCall

/-! ## The system -/

/-- Where `wmi_event_handle` is in an event.  The event is `mine` if it was compared with what
the running call awaits after the command of that call was sent. -/
inductive EventWorker where
  | idle
  /-- The event is awaited; next is `if (wil->reply_buf)`. -/
  | matched (e : WmiEvent) (mine : Bool)
  | copying (e : WmiEvent) (mine : Bool)
  | completing (e : WmiEvent) (mine : Bool)
  /-- The copy went to `NULL`. -/
  | faulted
deriving DecidableEq, Repr

namespace EventWorker

/-- The event that is being handled. -/
def event? : EventWorker → Option (WmiEvent × Bool)
  | idle | faulted => none
  | matched e mine | copying e mine | completing e mine => some (e, mine)

/-- Another call starts. -/
def disown : EventWorker → EventWorker
  | idle => idle
  | matched e _ => matched e false
  | copying e _ => copying e false
  | completing e _ => completing e false
  | faulted => faulted

lemma event?_disown (w : EventWorker) : w.disown.event? = w.event?.map fun p => (p.1, false) := by
  cases w <;> rfl

end EventWorker

/-- The part of `wil6210_priv` that calls and events share, and the threads. -/
structure WmiSys where
  replyId : ℕ
  /-- `reply_buf` is not `NULL`; it then points to the buffer of the running call. -/
  replyBuf : Bool
  replySize : ℕ
  /-- `wmi_ready.done` -/
  done : ℕ
  /-- `wil_status_fwready` -/
  fwReady : Bool
  /-- `pending_wmi_ev` -/
  pending : List WmiEvent
  worker : EventWorker
  /-- The call that holds `wmi_mutex` and has sent its command. -/
  call : Option WmiCall
  /-- The calls that have returned, the last one first. -/
  returns : List WmiCall
deriving DecidableEq, Repr

inductive WmiAction where
  /-- `wmi_call` takes the mutex, and `__wmi_send` returns `rc`: zero only if the firmware is
  ready. -/
  | call (args : CallArgs) (rc : ℤ)
  /-- The next step of the running call. -/
  | caller
  /-- The wait of the running call ends without a completion. -/
  | timeout
  /-- A whole `wmi_send`. -/
  | send
  /-- `wil_wait_for_fw_ready` takes its completion. -/
  | waitFwReady
  /-- `wmi_recv_cmd` adds an event to the pending list. -/
  | recv (e : WmiEvent)
  /-- The next step of `wmi_event_worker`. -/
  | worker
deriving DecidableEq, Repr

namespace WmiSys

/-- The firmware was started, and has not reported yet. -/
def init : WmiSys where
  replyId := 0
  replyBuf := false
  replySize := 0
  done := 0
  fwReady := false
  pending := []
  worker := .idle
  call := none
  returns := []

/-- The next step of the call `f`. -/
def callerStep (s : WmiSys) (f : WmiCall) : Option WmiSys :=
  match f.pc with
  | .sent => some { s with replyId := f.args.replyId, call := some { f with pc := .idSet } }
  | .idSet =>
      some { s with replyBuf := f.args.reply.isSome, call := some { f with pc := .bufSet } }
  | .bufSet =>
      some { s with replySize := f.args.replySize, call := some { f with pc := .waiting } }
  | .waiting =>
      if 0 < s.done then
        some { s with done := s.done - 1, call := some { f with pc := .woken } }
      else none
  | .woken => some { s with replyId := 0, call := some { f with pc := .idCleared } }
  | .idCleared => some { s with replyBuf := false, call := some { f with pc := .bufCleared } }
  | .bufCleared => some { s with replySize := 0, call := none, returns := f :: s.returns }

/-- `wmi_evt_call_handler`; of the handlers, that of FW_READY completes `wmi_ready`. -/
def wmiEvtCallHandler (s : WmiSys) (e : WmiEvent) : WmiSys :=
  if e.id = wmiFwReadyEventid then { s with fwReady := true, done := s.done + 1 } else s

/-- Someone waits for the event. -/
def awaits (s : WmiSys) (e : WmiEvent) : Bool := s.replyId != 0 && s.replyId == e.id

/-- Note something about the running call, if the event at hand is its own. -/
def note (s : WmiSys) (mine : Bool) (g : WmiCall → WmiCall) : WmiSys :=
  { s with call := if mine then s.call.map g else s.call }

/-- `memcpy(wil->reply_buf, wmi, min(len, wil->reply_size))` -/
def copyReply (s : WmiSys) (e : WmiEvent) : WmiSys :=
  { s with call := s.call.map fun f => f.copy e s.replySize }

/-- `wmi_event_handle`, up to the test of `reply_id`, and the whole of it for an event that nobody
awaits. -/
def wmiEventHandle (s : WmiSys) (e : WmiEvent) : WmiSys :=
  if e.isWmi then
    if s.awaits e then { s with worker := .matched e s.call.isSome }
    else (s.wmiEvtCallHandler e).note true fun f => (f.handle e).finish e
  else s

/-- The next step of the worker. -/
def workerStep (s : WmiSys) : Option WmiSys :=
  match s.worker with
  | .idle =>
      match s.pending with
      | [] => none
      | e :: rest => some ({ s with pending := rest }.wmiEventHandle e)
  | .matched e mine =>
      if s.replyBuf then some { s with worker := .copying e mine }
      else some (({ s with worker := .completing e mine }.wmiEvtCallHandler e).note mine
        (·.handle e))
  | .copying e mine =>
      if s.replyBuf then
        some (({ s with worker := .completing e mine }.copyReply e).note mine (·.handle e))
      -- `memcpy` to `NULL` does nothing only if no byte is copied
      else if min e.len s.replySize = 0 then some { s with worker := .completing e mine }
      else some { s with worker := .faulted }
  | .completing e mine =>
      some ({ s with done := s.done + 1, worker := .idle }.note mine (·.finish e))
  | .faulted => none

def step (s : WmiSys) : WmiAction → Option WmiSys
  | .call args rc =>
      if s.call = none ∧ (rc = 0 → s.fwReady = true) then
        if rc = 0 then
          some { s with call := some (.ofSend args 0), worker := s.worker.disown }
        else some { s with returns := .ofSend args rc :: s.returns }
      else none
  | .caller => s.call.bind s.callerStep
  | .timeout =>
      s.call.bind fun f =>
        if f.pc = .waiting ∧ s.done = 0 then
          some { s with call := some { f with pc := .woken, rc := eTime } }
        else none
  | .send => if s.call = none then some s else none
  | .waitFwReady =>
      if s.call = none ∧ 0 < s.done then some { s with done := s.done - 1 } else none
  | .recv e => some { s with pending := s.pending ++ [e] }
  | .worker => s.workerStep

variable {s t : WmiSys} {f f' : WmiCall}

@[simp] lemma replyId_note (mine : Bool) (g : WmiCall → WmiCall) :
    (s.note mine g).replyId = s.replyId := rfl

@[simp] lemma replyBuf_note (mine : Bool) (g : WmiCall → WmiCall) :
    (s.note mine g).replyBuf = s.replyBuf := rfl

@[simp] lemma replySize_note (mine : Bool) (g : WmiCall → WmiCall) :
    (s.note mine g).replySize = s.replySize := rfl

@[simp] lemma done_note (mine : Bool) (g : WmiCall → WmiCall) :
    (s.note mine g).done = s.done := rfl

@[simp] lemma worker_note (mine : Bool) (g : WmiCall → WmiCall) :
    (s.note mine g).worker = s.worker := rfl

@[simp] lemma returns_note (mine : Bool) (g : WmiCall → WmiCall) :
    (s.note mine g).returns = s.returns := rfl

lemma call_note_none (hs : s.call = none) (mine : Bool) (g : WmiCall → WmiCall) :
    (s.note mine g).call = none := by
  simp [note, hs]

lemma call_note_some (hs : s.call = some f) (mine : Bool) (g : WmiCall → WmiCall) :
    (s.note mine g).call = some (if mine then g f else f) := by
  cases mine <;> simp [note, hs]

lemma call_copyReply (hs : s.call = some f) (e : WmiEvent) :
    (s.copyReply e).call = some (f.copy e s.replySize) := by
  simp [copyReply, hs]

/-- The handlers leave the fields of a call alone. -/
lemma wmiEvtCallHandler_eq (s : WmiSys) (e : WmiEvent) :
    s.wmiEvtCallHandler e = s ∨
      e.id = wmiFwReadyEventid ∧
        s.wmiEvtCallHandler e = { s with fwReady := true, done := s.done + 1 } := by
  simp only [wmiEvtCallHandler]
  split_ifs with h
  · exact .inr ⟨h, rfl⟩
  · exact .inl rfl

@[simp] lemma replyId_wmiEvtCallHandler (s : WmiSys) (e : WmiEvent) :
    (s.wmiEvtCallHandler e).replyId = s.replyId := by
  rcases wmiEvtCallHandler_eq s e with h | ⟨-, h⟩ <;> rw [h]

@[simp] lemma replyBuf_wmiEvtCallHandler (s : WmiSys) (e : WmiEvent) :
    (s.wmiEvtCallHandler e).replyBuf = s.replyBuf := by
  rcases wmiEvtCallHandler_eq s e with h | ⟨-, h⟩ <;> rw [h]

@[simp] lemma replySize_wmiEvtCallHandler (s : WmiSys) (e : WmiEvent) :
    (s.wmiEvtCallHandler e).replySize = s.replySize := by
  rcases wmiEvtCallHandler_eq s e with h | ⟨-, h⟩ <;> rw [h]

@[simp] lemma worker_wmiEvtCallHandler (s : WmiSys) (e : WmiEvent) :
    (s.wmiEvtCallHandler e).worker = s.worker := by
  rcases wmiEvtCallHandler_eq s e with h | ⟨-, h⟩ <;> rw [h]

@[simp] lemma call_wmiEvtCallHandler (s : WmiSys) (e : WmiEvent) :
    (s.wmiEvtCallHandler e).call = s.call := by
  rcases wmiEvtCallHandler_eq s e with h | ⟨-, h⟩ <;> rw [h]

@[simp] lemma returns_wmiEvtCallHandler (s : WmiSys) (e : WmiEvent) :
    (s.wmiEvtCallHandler e).returns = s.returns := by
  rcases wmiEvtCallHandler_eq s e with h | ⟨-, h⟩ <;> rw [h]

lemma done_wmiEvtCallHandler (s : WmiSys) (e : WmiEvent) :
    (s.wmiEvtCallHandler e).done
      = if e.id = wmiFwReadyEventid then s.done + 1 else s.done := by
  simp only [wmiEvtCallHandler]
  split_ifs <;> rfl

lemma done_le_wmiEvtCallHandler (s : WmiSys) (e : WmiEvent) :
    s.done ≤ (s.wmiEvtCallHandler e).done := by
  rw [done_wmiEvtCallHandler]
  split_ifs
  · exact Nat.le_succ _
  · exact le_rfl

/-! ### The steps of the worker -/

/-- What a step of the worker can do. -/
inductive WorkerStep (s : WmiSys) : WmiSys → Prop
  /-- The event has an unknown type. -/
  | skip {e rest} (hw : s.worker = .idle) (hp : s.pending = e :: rest) (htype : e.isWmi = false) :
      WorkerStep s { s with pending := rest }
  | matched {e rest} (hw : s.worker = .idle) (hp : s.pending = e :: rest)
      (htype : e.isWmi = true) (hid : s.awaits e = true) :
      WorkerStep s { s with pending := rest, worker := .matched e s.call.isSome }
  | unsolicited {e rest} (hw : s.worker = .idle) (hp : s.pending = e :: rest)
      (htype : e.isWmi = true) (hid : s.awaits e = false) :
      WorkerStep s (({ s with pending := rest }.wmiEvtCallHandler e).note true
        fun f => (f.handle e).finish e)
  | toCopy {e mine} (hw : s.worker = .matched e mine) (hbuf : s.replyBuf = true) :
      WorkerStep s { s with worker := .copying e mine }
  | toHandler {e mine} (hw : s.worker = .matched e mine) (hbuf : s.replyBuf = false) :
      WorkerStep s (({ s with worker := .completing e mine }.wmiEvtCallHandler e).note mine
        (·.handle e))
  | copied {e mine} (hw : s.worker = .copying e mine) (hbuf : s.replyBuf = true) :
      WorkerStep s (({ s with worker := .completing e mine }.copyReply e).note mine (·.handle e))
  /-- The buffer is gone, and there is nothing to copy. -/
  | nothing {e mine} (hw : s.worker = .copying e mine) (hbuf : s.replyBuf = false) :
      WorkerStep s { s with worker := .completing e mine }
  | fault {e mine} (hw : s.worker = .copying e mine) (hbuf : s.replyBuf = false) :
      WorkerStep s { s with worker := .faulted }
  | complete {e mine} (hw : s.worker = .completing e mine) :
      WorkerStep s ({ s with done := s.done + 1, worker := .idle }.note mine (·.finish e))

lemma workerStep_cases (h : s.workerStep = some t) : WorkerStep s t := by
  simp only [workerStep] at h
  split at h
  · rename_i hw
    split at h
    · exact absurd h (by simp)
    · rename_i e rest hp
      obtain rfl := Option.some.inj h
      simp only [wmiEventHandle]
      split_ifs with htype hid
      · exact .matched hw hp htype hid
      · exact .unsolicited hw hp htype (by simpa [awaits] using hid)
      · exact .skip hw hp (by simpa using htype)
  · rename_i e mine hw
    split_ifs at h with hbuf
    · exact Option.some.inj h ▸ .toCopy hw hbuf
    · exact Option.some.inj h ▸ .toHandler hw (by simpa using hbuf)
  · rename_i e mine hw
    split_ifs at h with hbuf hnone
    · exact Option.some.inj h ▸ .copied hw hbuf
    · exact Option.some.inj h ▸ .nothing hw (by simpa using hbuf)
    · exact Option.some.inj h ▸ .fault hw (by simpa using hbuf)
  · rename_i e mine hw
    exact Option.some.inj h ▸ .complete hw
  · exact absurd h (by simp)

lemma WorkerStep.returns_eq (h : WorkerStep s t) : t.returns = s.returns := by
  cases h <;> simp [copyReply]

lemma WorkerStep.call_eq_none (h : WorkerStep s t) (hs : s.call = none) : t.call = none := by
  cases h <;> simp [note, copyReply, hs]

end WmiSys

/-! ## What the fields of a call hold at each of its steps -/

/-- The fields hold what the call `f` has published so far.  An event that was matched since its
command was sent has the id that it published, and one that is copied found its buffer. -/
structure Published (s : WmiSys) (f : WmiCall) : Prop where
  id : s.replyId = if f.pc.idOut then f.args.replyId else 0
  buf : s.replyBuf = (f.pc.bufOut && f.args.reply.isSome)
  size : s.replySize = if f.pc.sizeOut then f.args.replySize else 0
  mine : ∀ e, s.worker.event? = some (e, true) → e.id = f.args.replyId ∧ f.pc ≠ .sent
  copying : ∀ e, s.worker = .copying e true →
    f.args.reply.isSome = true ∧ f.pc ≠ .sent ∧ f.pc ≠ .idSet

structure WmiInv (s : WmiSys) : Prop where
  idle : s.call = none → s.replyId = 0 ∧ s.replyBuf = false ∧ s.replySize = 0
  running : ∀ f, s.call = some f → Published s f

variable {s t : WmiSys}

/-- An event is found to be awaited if it is the one the running call has published. -/
lemma Published.awaits_iff {f : WmiCall} (h : Published s f) (e : WmiEvent) :
    s.awaits e = true ↔ f.pc.idOut = true ∧ e.id = f.args.replyId := by
  have hpos := f.args.pos
  simp only [WmiSys.awaits, h.id, Bool.and_eq_true, bne_iff_ne, ne_eq, beq_iff_eq]
  split_ifs with hout
  · exact ⟨fun ⟨_, hid⟩ => ⟨hout, hid.symm⟩, fun ⟨_, hid⟩ => ⟨by omega, hid.symm⟩⟩
  · simp [hout]

namespace WmiInv

lemma init : WmiInv WmiSys.init :=
  ⟨fun _ => ⟨rfl, rfl, rfl⟩, by simp [WmiSys.init]⟩

lemma of_call {f : WmiCall} (hf : t.call = some f) (h : Published t f) : WmiInv t := by
  refine ⟨fun hn => ?_, fun f' hf' => ?_⟩
  · rw [hf] at hn
    exact absurd hn (by simp)
  · rw [hf] at hf'
    exact Option.some.inj hf' ▸ h

/-- A step that leaves alone what is published. -/
lemma of_published (h : WmiInv s) (hid : t.replyId = s.replyId) (hbuf : t.replyBuf = s.replyBuf)
    (hsize : t.replySize = s.replySize) (hnone : s.call = none → t.call = none)
    (hsome : ∀ f, s.call = some f → Published s f →
      ∃ f', t.call = some f' ∧ f'.args = f.args ∧ f'.pc = f.pc ∧
        (∀ e, t.worker.event? = some (e, true) → e.id = f.args.replyId ∧ f.pc ≠ .sent) ∧
        ∀ e, t.worker = .copying e true →
          f.args.reply.isSome = true ∧ f.pc ≠ .sent ∧ f.pc ≠ .idSet) :
    WmiInv t := by
  cases hcall : s.call with
  | none =>
      refine ⟨fun _ => ?_, fun f' hf' => ?_⟩
      · rw [hid, hbuf, hsize]
        exact h.idle hcall
      · rw [hnone hcall] at hf'
        exact absurd hf' (by simp)
  | some f =>
      have hpub := h.running f hcall
      obtain ⟨f', hf', hargs, hpc, hmine, hcopying⟩ := hsome f hcall hpub
      refine of_call hf' ⟨?_, ?_, ?_, ?_, ?_⟩
      · rw [hid, hargs, hpc, hpub.id]
      · rw [hbuf, hargs, hpc, hpub.buf]
      · rw [hsize, hargs, hpc, hpub.size]
      · rw [hargs, hpc]
        exact hmine
      · rw [hargs, hpc]
        exact hcopying

lemma callerStep (h : WmiInv s) {f : WmiCall} (hf : s.call = some f)
    (ht : s.callerStep f = some t) : WmiInv t := by
  obtain ⟨hid, hbuf, hsize, hmine, hcopying⟩ := h.running f hf
  cases hpc : f.pc <;>
    simp only [WmiSys.callerStep, hpc, Option.some.injEq, Option.ite_none_right_eq_some] at ht
  case bufCleared =>
    subst ht
    refine ⟨fun _ => ⟨?_, ?_, rfl⟩, by simp⟩
    · simpa [hpc, CallPc.idOut] using hid
    · simpa [hpc, CallPc.bufOut] using hbuf
  case waiting =>
    obtain ⟨-, rfl⟩ := ht
    refine of_call rfl ⟨?_, ?_, ?_, ?_, ?_⟩ <;>
      simp_all [CallPc.idOut, CallPc.bufOut, CallPc.sizeOut]
  all_goals
    subst ht
    refine of_call rfl ⟨?_, ?_, ?_, ?_, ?_⟩ <;>
      simp_all [CallPc.idOut, CallPc.bufOut, CallPc.sizeOut]

lemma call (h : WmiInv s) {args : CallArgs} {rc : ℤ} (ht : s.step (.call args rc) = some t) :
    WmiInv t := by
  simp only [WmiSys.step] at ht
  split_ifs at ht with hready hrc
  · obtain rfl := Option.some.inj ht
    obtain ⟨hid, hbuf, hsize⟩ := h.idle hready.1
    refine of_call rfl ⟨hid, hbuf, hsize, ?_, ?_⟩
    · simp [EventWorker.event?_disown]
    · cases hw : s.worker <;> simp [EventWorker.disown]
  · obtain rfl := Option.some.inj ht
    exact h.of_published rfl rfl rfl id fun f hf hpub =>
      ⟨f, hf, rfl, rfl, hpub.mine, hpub.copying⟩

lemma timeout (h : WmiInv s) (ht : s.step .timeout = some t) : WmiInv t := by
  obtain ⟨f, hf, ht⟩ := Option.bind_eq_some_iff.mp ht
  obtain ⟨hid, hbuf, hsize, hmine, hcopying⟩ := h.running f hf
  split_ifs at ht with hwait
  obtain rfl := Option.some.inj ht
  refine of_call rfl ⟨?_, ?_, ?_, ?_, ?_⟩ <;>
    simp_all [CallPc.idOut, CallPc.bufOut, CallPc.sizeOut]

lemma worker (h : WmiInv s) (ht : s.workerStep = some t) : WmiInv t := by
  have hstep := WmiSys.workerStep_cases ht
  cases hstep with
  | skip hw hp htype =>
      exact h.of_published rfl rfl rfl id fun f hf hpub =>
        ⟨f, hf, rfl, rfl, hpub.mine, hpub.copying⟩
  | @matched e rest hw hp htype hid =>
      refine h.of_published rfl rfl rfl id fun f hf hpub => ⟨f, hf, rfl, rfl, ?_, by simp⟩
      obtain ⟨hout, heq⟩ := (hpub.awaits_iff e).mp hid
      intro e' he'
      obtain ⟨rfl, -⟩ := Prod.mk.inj (Option.some.inj he')
      refine ⟨heq, fun hpc => ?_⟩
      simp [hpc, CallPc.idOut] at hout
  | @unsolicited e rest hw hp htype hid =>
      refine h.of_published (by simp) (by simp) (by simp)
        (fun hn => WmiSys.call_note_none (by simpa using hn) _ _) fun f hf hpub =>
        ⟨(f.handle e).finish e, WmiSys.call_note_some (by simpa using hf) _ _, by simp, by simp,
          ?_, ?_⟩
      · simpa using hpub.mine
      · simpa using hpub.copying
  | @toCopy e mine hw hbuf =>
      refine h.of_published rfl rfl rfl id fun f hf hpub => ⟨f, hf, rfl, rfl, ?_, fun _ _ => ?_⟩
      · simpa [hw, EventWorker.event?] using hpub.mine
      · have hout := hpub.buf
        rw [hbuf, eq_comm, Bool.and_eq_true] at hout
        refine ⟨hout.2, ?_, ?_⟩ <;> (intro hpc; simp [hpc, CallPc.bufOut] at hout)
  | @toHandler e mine hw hbuf =>
      refine h.of_published (by simp) (by simp) (by simp)
        (fun hn => WmiSys.call_note_none (by simpa using hn) _ _) fun f hf hpub =>
        ⟨_, WmiSys.call_note_some (by simpa using hf) _ _, ?_, ?_, ?_, by simp⟩
      · split_ifs <;> rfl
      · split_ifs <;> rfl
      · simpa [hw, EventWorker.event?] using hpub.mine
  | @copied e mine hw hbuf =>
      refine h.of_published rfl rfl rfl
        (fun hn => WmiSys.call_note_none (by simp [WmiSys.copyReply, hn]) _ _) fun f hf hpub =>
        ⟨_, WmiSys.call_note_some (WmiSys.call_copyReply hf e) _ _, ?_, ?_, ?_,
          by simp [WmiSys.copyReply]⟩
      · split_ifs <;> rfl
      · split_ifs <;> rfl
      · simpa [hw, EventWorker.event?, WmiSys.copyReply] using hpub.mine
  | @nothing e mine hw hbuf =>
      refine h.of_published rfl rfl rfl id fun f hf hpub => ⟨f, hf, rfl, rfl, ?_, by simp⟩
      simpa [hw, EventWorker.event?] using hpub.mine
  | fault hw hbuf =>
      exact h.of_published rfl rfl rfl id fun f hf hpub =>
        ⟨f, hf, rfl, rfl, by simp [EventWorker.event?], by simp⟩
  | @complete e mine hw =>
      refine h.of_published rfl rfl rfl (fun hn => WmiSys.call_note_none hn _ _)
        fun f hf hpub =>
          ⟨_, WmiSys.call_note_some hf _ _, ?_, ?_, by simp [EventWorker.event?], by simp⟩
      · split_ifs <;> simp
      · split_ifs <;> simp

/-- Whatever happens, the fields hold what the running call has published. -/
theorem step {a : WmiAction} (h : WmiInv s) (ht : s.step a = some t) : WmiInv t := by
  cases a with
  | call args rc => exact h.call ht
  | caller =>
      obtain ⟨f, hf, ht⟩ := Option.bind_eq_some_iff.mp ht
      exact h.callerStep hf ht
  | timeout => exact h.timeout ht
  | send =>
      simp only [WmiSys.step, Option.ite_none_right_eq_some] at ht
      exact Option.some.inj ht.2 ▸ h
  | waitFwReady =>
      simp only [WmiSys.step, Option.ite_none_right_eq_some] at ht
      obtain rfl := Option.some.inj ht.2
      exact h.of_published rfl rfl rfl id fun f hf hpub =>
        ⟨f, hf, rfl, rfl, hpub.mine, hpub.copying⟩
  | recv e =>
      obtain rfl := Option.some.inj ht
      exact h.of_published rfl rfl rfl id fun f hf hpub =>
        ⟨f, hf, rfl, rfl, hpub.mine, hpub.copying⟩
  | worker => exact h.worker ht

end WmiInv

/-! ## Reads that come too early -/

/-- The next step of the worker tests `reply_buf`, or copies `reply_size` bytes, for an event of
the running call, which has a buffer and has not set the field yet. -/
def WmiSys.readsEarly (s : WmiSys) (f : WmiCall) : Bool :=
  match s.worker, f.pc with
  | .matched _ true, .idSet => f.args.reply.isSome
  | .copying _ true, .bufSet => true
  | _, _ => false

/-- An event that does not find the buffer of a call that waits, and was not too early for it, is
for a call without a buffer. -/
lemma Published.no_reply {f : WmiCall} {e : WmiEvent} (h : Published s f)
    (hw : s.worker = .matched e true) (hbuf : s.replyBuf = false) (hwaits : f.pc.waits = true)
    (hearly : s.readsEarly f = false) : f.args.reply.isSome = false := by
  have hbuf' : (f.pc.bufOut && f.args.reply.isSome) = false := h.buf ▸ hbuf
  cases hpc : f.pc with
  | sent => exact absurd hpc (h.mine e (by rw [hw]; rfl)).2
  | idSet => simpa [WmiSys.readsEarly, hw, hpc] using hearly
  | bufSet | waiting => simpa [hpc, CallPc.bufOut] using hbuf'
  | woken | idCleared | bufCleared => simp [hpc, CallPc.waits] at hwaits

/-- An event of a call that waits and is to be copied still finds the buffer. -/
lemma Published.buf_of_waits {f : WmiCall} {e : WmiEvent} (h : Published s f)
    (hw : s.worker = .copying e true) (hwaits : f.pc.waits = true) : s.replyBuf = true := by
  obtain ⟨hreply, hsent, hid⟩ := h.copying e hw
  rw [h.buf, hreply]
  cases hpc : f.pc with
  | sent => exact absurd hpc hsent
  | idSet => exact absurd hpc hid
  | bufSet | waiting => rfl
  | woken | idCleared | bufCleared => simp [hpc, CallPc.waits] at hwaits

/-- An event that is copied and was not too early is copied whole. -/
lemma Published.size_of_copying {f : WmiCall} {e : WmiEvent} (h : Published s f)
    (hw : s.worker = .copying e true) (hbuf : s.replyBuf = true)
    (hearly : f.pc.waits = true → s.readsEarly f = false) : s.replySize = f.args.replySize := by
  obtain ⟨-, hsent, hid⟩ := h.copying e hw
  have hbuf' : (f.pc.bufOut && f.args.reply.isSome) = true := h.buf ▸ hbuf
  rw [h.size]
  cases hpc : f.pc with
  | sent => exact absurd hpc hsent
  | idSet => exact absurd hpc hid
  | bufSet => simp [WmiSys.readsEarly, hw, hpc, CallPc.waits] at hearly
  | waiting | woken | idCleared => rfl
  | bufCleared => simp [hpc, CallPc.bufOut] at hbuf'

end Wil6210
