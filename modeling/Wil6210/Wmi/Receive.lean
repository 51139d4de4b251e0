import Wil6210.Lib.Machine
import Wil6210.Wmi.Mailbox

/-!
# Receiving an event

An event goes through two queues.  The firmware fills the buffer of a free descriptor of the Rx
ring, sets `sync` and advances `head`.  `wmi_recv_cmd`, on the interrupt thread, takes the events
from the ring: it copies each to a piece of memory of its own, clears `sync`, advances `tail`, adds
the copy to `pending_wmi_ev` and queues the worker.  `wmi_event_worker` takes them from there one
by one and hands them to `wmi_event_handle`.

All three take a step for each access to what they share, in any interleaving, and an allocation
may fail in any pass of the loop of `wmi_recv_cmd`, which ends the run.  There is no reset.

`eventPath_fifo` says that nothing is lost, doubled or reordered on this way, and that each later
run of `wmi_recv_cmd` in which no allocation fails takes all that waits in the mailbox.  Between
`list_add_tail` and `queue_work` an event waits with nobody to take it.  A firmware that fills every
descriptor of the ring is not heard any more: `head` has come round to `tail`, and the ring reads as
empty.
-/

namespace Wil6210

open ByteMemory Circular

/-! ## Events -/

/-- `offsetof(struct wil6210_mbox_ctl, rx.tail)`, from `csr` -/
def mboxRxTail : ℕ := hostMbox + 24

/-- `offsetof(struct wil6210_mbox_ctl, rx.head)`, from `csr` -/
def mboxRxHead : ℕ := hostMbox + 28

lemma mboxRxTail_ctl : hostMbox ≤ mboxRxTail ∧ mboxRxTail + 4 ≤ hostMbox + sizeofMboxCtl :=
  ⟨Nat.le_add_right _ _, Nat.add_le_add_left (show 24 + 4 ≤ sizeofMboxCtl by decide) hostMbox⟩

lemma mboxRxHead_ctl : hostMbox ≤ mboxRxHead ∧ mboxRxHead + 4 ≤ hostMbox + sizeofMboxCtl :=
  ⟨Nat.le_add_right _ _, Nat.add_le_add_left (show 28 + 4 ≤ sizeofMboxCtl by decide) hostMbox⟩

/-- What the firmware posts: the fields of `struct wil6210_mbox_hdr` but for `len`, and the
payload. -/
structure FwEvent where
  seq : ℕ
  type : ℕ
  flags : UInt8
  reserved : UInt8
  payload : List UInt8
  deriving DecidableEq

/-- The header and the payload. -/
def FwEvent.bytes (e : FwEvent) : List UInt8 :=
  le16 e.seq ++ le16 e.payload.length ++ le16 e.type ++ [e.flags, e.reserved] ++ e.payload

/-- `le16_to_cpu(hdr.len)` -/
def hdrLen (hdr : List UInt8) : ℕ := (hdr.getD 2 0).toNat + 256 * (hdr.getD 3 0).toNat

lemma FwEvent.length_bytes (e : FwEvent) : e.bytes.length = sizeofMboxHdr + e.payload.length := by
  simp [bytes, le16, sizeofMboxHdr]
  omega

/-- The header says how long the payload is. -/
lemma FwEvent.hdrLen_take (e : FwEvent) (h : e.payload.length < 65536) :
    hdrLen (e.bytes.take sizeofMboxHdr) = e.payload.length := by
  simp only [hdrLen, bytes, le16, sizeofMboxHdr, List.cons_append, List.nil_append,
    List.take_succ_cons, List.getD_cons_succ, List.getD_cons_zero, UInt8.toNat_ofNat']
  omega

/-! ## The machine -/

/-- What `wmi_recv_cmd` and the worker share; an entry of `pending_wmi_ev` is the header and the
payload of its event. -/
structure WmiRx where
  mem : ℕ → UInt8
  /-- `wil_status_reset_done` -/
  resetDone : Bool
  /-- `mbox_ctl.rx` -/
  rx : MboxRing
  /-- `pending_wmi_ev` -/
  pending : List (List UInt8)

/-- Where `wmi_recv_cmd` is: about to read `head`, or the descriptor at `tail`, or the header of the
event at `addr`; about to allocate; about to copy the payload from `src`; about to clear `sync`, to
advance `tail`, to add the event to the list, to queue the worker. -/
inductive RecvPc
  | head
  | desc
  | hdr (addr : ℕ)
  | alloc (src : ℕ) (hdr : List UInt8)
  | copy (src : ℕ) (hdr : List UInt8)
  | clear (evt : List UInt8)
  | tail (evt : List UInt8)
  | add (evt : List UInt8)
  | queue
  deriving DecidableEq

/-- Where `wmi_event_worker` is. -/
inductive RecvWorker
  | idle
  | running
  | handling (evt : List UInt8)
  deriving DecidableEq

/-- Where the firmware is with its next event. -/
inductive FwPost
  | idle
  | filled (e : FwEvent)
  | synced
  deriving DecidableEq

structure RecvSys where
  wil : WmiRx
  recv : Option RecvPc
  /-- the work item is on its queue -/
  queued : Bool
  worker : RecvWorker
  fw : FwPost
  /-- the events whose `sync` was set, in order -/
  posted : List FwEvent
  /-- what `wmi_event_handle` was given, in order -/
  dispatched : List (List UInt8)

inductive RecvAction
  /-- The interrupt thread calls `wmi_recv_cmd`. -/
  | recvStart
  /-- The next step of `wmi_recv_cmd`, with the outcome of `kmalloc` where it allocates. -/
  | recv (kmallocOk : Bool)
  | workerStart
  | worker
  | fwFill (e : FwEvent)
  | fwSync
  | fwAdvance

namespace RecvSys

/-- One step of `wmi_recv_cmd`. -/
def recvStep (s : RecvSys) (kmallocOk : Bool) : RecvPc → RecvSys
  | .head =>
      let head := read32 s.wil.mem mboxRxHead
      { s with
        wil := { s.wil with rx := { s.wil.rx with head := head } }
        recv := if s.wil.rx.tail = head then none else some .desc }
  | .desc =>
      let off := hostaddr s.wil.rx.tail
      { s with
        recv := if read32 s.wil.mem off = 0 then none
          else some (.hdr (read32 s.wil.mem (off + 4))) }
  | .hdr addr =>
      { s with
        recv := match wmiBuffer addr with
          | none => none
          | some src => some (.alloc (src + sizeofMboxHdr) (read s.wil.mem src sizeofMboxHdr)) }
  | .alloc src hdr => { s with recv := if kmallocOk then some (.copy src hdr) else none }
  | .copy src hdr => { s with recv := some (.clear (hdr ++ read s.wil.mem src (hdrLen hdr))) }
  | .clear evt =>
      { s with
        wil := { s.wil with mem := write32 s.wil.mem (hostaddr s.wil.rx.tail) 0 }
        recv := some (.tail evt) }
  | .tail evt =>
      let tail := s.wil.rx.next s.wil.rx.tail
      { s with
        wil := { s.wil with
          rx := { s.wil.rx with tail := tail }
          mem := write32 s.wil.mem mboxRxTail tail }
        recv := some (.add evt) }
  | .add evt =>
      { s with
        wil := { s.wil with pending := s.wil.pending ++ [evt] }
        recv := some .queue }
  | .queue => { s with queued := true, recv := some .head }

/-- One step of `wmi_event_worker`: `next_wmi_ev`, or `wmi_event_handle`. -/
def workerStep (s : RecvSys) : Option RecvSys :=
  match s.worker with
  | .idle => none
  | .running =>
      match s.wil.pending with
      | [] => some { s with worker := .idle }
      | evt :: rest =>
          some { s with wil := { s.wil with pending := rest }, worker := .handling evt }
  | .handling evt => some { s with dispatched := s.dispatched ++ [evt], worker := .running }

/-- One step. -/
def step (s : RecvSys) : RecvAction → Option RecvSys
  | .recvStart =>
      if s.recv.isNone then
        some { s with recv := if s.wil.resetDone then some .head else none }
      else none
  | .recv kmallocOk => s.recv.map (s.recvStep kmallocOk)
  | .workerStart =>
      match s.worker with
      | .idle => if s.queued then some { s with queued := false, worker := .running } else none
      | _ => none
  | .worker => s.workerStep
  | .fwFill e =>
      match s.fw with
      | .idle =>
          let off := hostaddr (read32 s.wil.mem mboxRxHead)
          if e.bytes.length ≤ s.wil.rx.entrySize ∧ read32 s.wil.mem off = 0 then
            (wmiBuffer (read32 s.wil.mem (off + 4))).map fun dst =>
              { s with
                wil := { s.wil with mem := write s.wil.mem dst e.bytes }
                fw := .filled e }
          else none
      | _ => none
  | .fwSync =>
      match s.fw with
      | .filled e =>
          some { s with
            wil := { s.wil with
              mem := write32 s.wil.mem (hostaddr (read32 s.wil.mem mboxRxHead)) 1 }
            fw := .synced
            posted := s.posted ++ [e] }
      | _ => none
  | .fwAdvance =>
      match s.fw with
      | .synced =>
          some { s with
            wil := { s.wil with
              mem := write32 s.wil.mem mboxRxHead
                (s.wil.rx.next (read32 s.wil.mem mboxRxHead)) }
            fw := .idle }
      | _ => none

variable {s u : RecvSys}

lemma step_recvStart (hu : s.step .recvStart = some u) :
    s.recv = none ∧ u = { s with recv := if s.wil.resetDone then some .head else none } := by
  rw [step] at hu
  by_cases hfree : s.recv.isNone = true
  · rw [if_pos hfree] at hu
    exact ⟨Option.isNone_iff_eq_none.mp hfree, (Option.some.inj hu).symm⟩
  · rw [if_neg hfree] at hu
    exact absurd hu (by simp)

lemma step_workerStart (hu : s.step .workerStart = some u) :
    s.worker = .idle ∧ s.queued = true ∧ u = { s with queued := false, worker := .running } := by
  cases hw : s.worker with
  | idle =>
      simp only [step, hw] at hu
      split_ifs at hu with hqueued
      exact ⟨rfl, hqueued, (Option.some.inj hu).symm⟩
  | _ => simp [step, hw] at hu

/-- The worker finds the list empty, takes an event, or hands over the one it has taken. -/
lemma step_worker (hu : s.step .worker = some u) :
    (s.worker = .running ∧ s.wil.pending = [] ∧ u = { s with worker := .idle }) ∨
      (∃ evt rest, s.worker = .running ∧ s.wil.pending = evt :: rest ∧
        u = { s with wil := { s.wil with pending := rest }, worker := .handling evt }) ∨
      ∃ evt, s.worker = .handling evt ∧
        u = { s with dispatched := s.dispatched ++ [evt], worker := .running } := by
  cases hw : s.worker with
  | idle => simp [step, workerStep, hw] at hu
  | running =>
      cases hpending : s.wil.pending with
      | nil =>
          simp only [step, workerStep, hw, hpending, Option.some.injEq] at hu
          exact .inl ⟨rfl, rfl, hu.symm⟩
      | cons evt rest =>
          simp only [step, workerStep, hw, hpending, Option.some.injEq] at hu
          exact .inr (.inl ⟨evt, rest, rfl, rfl, hu.symm⟩)
  | handling evt =>
      simp only [step, workerStep, hw, Option.some.injEq] at hu
      exact .inr (.inr ⟨evt, rfl, hu.symm⟩)

/-- Only `wmi_recv_cmd` moves in itself. -/
lemma recv_step {a : RecvAction} (hu : s.step a = some u) :
    u.recv = s.recv ∨ s.recv = none ∨ ∃ ok, a = .recv ok := by
  cases a with
  | recvStart => exact .inr (.inl (step_recvStart hu).1)
  | recv ok => exact .inr (.inr ⟨ok, rfl⟩)
  | workerStart =>
      obtain ⟨-, -, rfl⟩ := step_workerStart hu
      exact .inl rfl
  | worker =>
      obtain ⟨-, -, rfl⟩ | ⟨evt, rest, -, -, rfl⟩ | ⟨evt, -, rfl⟩ := step_worker hu <;>
        exact .inl rfl
  | fwFill e =>
      simp only [step] at hu
      split at hu
      · split_ifs at hu
        obtain ⟨dst, -, rfl⟩ := Option.map_eq_some_iff.mp hu
        exact .inl rfl
      · exact absurd hu (by simp)
  | fwSync | fwAdvance =>
      simp only [step] at hu
      split at hu
      · obtain rfl := Option.some.inj hu
        exact .inl rfl
      · exact absurd hu (by simp)

end RecvSys

/-- The events that the worker has taken and not handed over. -/
def RecvWorker.events : RecvWorker → List (List UInt8)
  | .handling evt => [evt]
  | .idle | .running => []

/-- The events that `wmi_recv_cmd` has taken from the mailbox and not put on the list. -/
def RecvPc.events : RecvPc → List (List UInt8)
  | .tail evt | .add evt => [evt]
  | _ => []

/-- The events that were taken from the mailbox, in the order in which they are handed over. -/
def RecvSys.taken (s : RecvSys) : List (List UInt8) :=
  s.dispatched ++ s.worker.events ++ s.wil.pending ++ (s.recv.map RecvPc.events).getD []

/-- How many events the firmware posted and advanced `head` over. -/
def RecvSys.visible (s : RecvSys) : ℕ :=
  match s.fw with
  | .synced => s.posted.length - 1
  | .idle | .filled _ => s.posted.length

/-- A call of `wmi_recv_cmd`, made in `s`, has returned in `t`.  Anything goes on next to it, and
none of its allocations failed. -/
structure RecvSys.RecvCall (s : RecvSys) (as : List RecvAction) (t : RecvSys) : Prop where
  run : ∃ u, s.step .recvStart = some u ∧
    Machine.Exec RecvSys.step (fun v a => v.recv ≠ none ∧ a ≠ .recv false) u as t
  returned : t.recv = none

/-- A step of the driver in which no allocation fails. -/
def RecvAction.Delivers : RecvAction → Prop
  | .recvStart | .recv true | .workerStart | .worker => True
  | .recv false | .fwFill _ | .fwSync | .fwAdvance => False

/-- The ring is empty, at any place, and nothing is on its way. -/
structure EventStart (r : MboxArea) (buf : ℕ → ℕ) (start : ℕ) (s : RecvSys) : Prop where
  layout : MboxLayout r buf
  area : s.wil.rx.toMboxArea = r
  tail : s.wil.rx.tail = r.slot start
  head : read32 s.wil.mem mboxRxHead = r.slot start
  sync : ∀ k < r.slots, read32 s.wil.mem (r.desc k) = 0
  addrs : ∀ k < r.slots, wmiBuffer (read32 s.wil.mem (r.desc k + 4)) = some (buf k)
  resetDone : s.wil.resetDone = true
  idle : s.recv = none ∧ s.worker = .idle ∧ s.fw = .idle
  fresh : s.posted = [] ∧ s.dispatched = [] ∧ s.wil.pending = []

/-- **The event path is a FIFO**, in a state reached from an empty ring at position `start`: what
was dispatched is a prefix of what was posted, and what was taken from the mailbox is a longer one;
every event that was not taken is in its buffer, with its `sync` set; the worker is queued or
running where an event is pending, or is about to be queued, and has handed over all that was taken
where it comes to rest.  Every call of `wmi_recv_cmd` in which no allocation fails has, as it
returns, taken all that the firmware has advanced `head` over, but where that is every descriptor of
the ring; and where the mailbox has a free descriptor, the driver alone can deliver all that is in
it. -/
structure EventPathOk (r : MboxArea) (buf : ℕ → ℕ) (start : ℕ) (s : RecvSys) : Prop where
  fifo : s.dispatched <+: s.posted.map FwEvent.bytes
  taken : s.taken <+: s.posted.map FwEvent.bytes
  kept : ∀ j (hj : j < s.posted.length), s.taken.length ≤ j →
    read s.wil.mem (buf ((start + j) % r.slots)) s.posted[j].bytes.length = s.posted[j].bytes ∧
      read32 s.wil.mem (r.desc ((start + j) % r.slots)) ≠ 0
  watched : s.wil.pending ≠ [] →
    s.queued = true ∨ s.worker ≠ .idle ∨ s.recv = some .queue
  handed : s.recv = none → s.queued = false → s.worker = .idle → s.dispatched = s.taken
  returned : ∀ as t, s.RecvCall as t → t.visible < t.taken.length + r.slots →
    t.taken = (t.posted.take t.visible).map FwEvent.bytes
  delivered : s.recv = none → s.posted.length < s.taken.length + r.slots →
    ∃ as t, Machine.Exec RecvSys.step (fun _ a => a.Delivers) s as t ∧ t.recv = none ∧
      t.dispatched = (s.posted.take s.visible).map FwEvent.bytes

/-! ## The invariant -/

/-- Whether `tail` is still at the event whose `sync` was cleared last. -/
def RecvPc.behind : RecvPc → ℕ
  | .tail _ => 1
  | _ => 0

/-- Whether `head` is still at the event whose `sync` was set last. -/
def FwPost.ahead : FwPost → ℕ
  | .synced => 1
  | .idle | .filled _ => 0

/-- What `wmi_recv_cmd` knows of the event at position `c`, where `head` is at position `h`. -/
def RecvPhase (r : MboxArea) (buf : ℕ → ℕ) (start : ℕ) (posted : List FwEvent) (h c : ℕ) :
    RecvPc → Prop
  | .desc => c < h
  | .hdr addr => c < h ∧ wmiBuffer addr = some (buf (c % r.slots))
  | .alloc src hdr | .copy src hdr => c < h ∧ src = buf (c % r.slots) + sizeofMboxHdr ∧
      ∃ e, posted[c - start]? = some e ∧ hdr = e.bytes.take sizeofMboxHdr
  | .clear evt => c < h ∧ ∃ e, posted[c - start]? = some e ∧ evt = e.bytes
  | .head | .tail _ | .add _ | .queue => True

/-- The event that the firmware has filled in is in the buffer of the next position, which is
free. -/
def FwPhase (r : MboxArea) (buf : ℕ → ℕ) (mem : ℕ → UInt8) (p c : ℕ) : FwPost → Prop
  | .filled e => p < c + r.slots ∧ e.bytes.length ≤ r.entrySize ∧
      read mem (buf (p % r.slots)) e.bytes.length = e.bytes
  | .idle | .synced => True

/-- With `head` at position `h`, `tail` at position `t`, and `sync` set from position `c` on. -/
structure RecvInv (r : MboxArea) (buf : ℕ → ℕ) (start : ℕ) (s : RecvSys) (h c t : ℕ) : Prop where
  area : s.wil.rx.toMboxArea = r
  head_pos : h + s.fw.ahead = start + s.posted.length
  tail_pos : t + (s.recv.map RecvPc.behind).getD 0 = c
  tail : s.wil.rx.tail = r.slot t
  le_head : c ≤ h
  room : start + s.posted.length ≤ c + r.slots
  mem : MboxMem r buf start (s.posted.map FwEvent.bytes) mboxRxHead h c s.wil.mem
  start_le : start ≤ c
  taken : s.taken = (s.posted.map FwEvent.bytes).take (c - start)
  watched : s.wil.pending ≠ [] →
    s.queued = true ∨ s.worker ≠ .idle ∨ s.recv = some .queue
  phase : ∀ pc, s.recv = some pc → RecvPhase r buf start s.posted h c pc
  fwPhase : FwPhase r buf s.wil.mem (start + s.posted.length) c s.fw
  resetDone : s.wil.resetDone = true

section Invariant

variable {r : MboxArea} {buf : ℕ → ℕ} {start h c t : ℕ} {s u : RecvSys}

lemma recvInv_start (hs : EventStart r buf start s) : RecvInv r buf start s start start start := by
  obtain ⟨hrecv, hworker, hfw⟩ := hs.idle
  obtain ⟨hposted, hdispatched, hpending⟩ := hs.fresh
  refine ⟨hs.area, by simp [hfw, hposted, FwPost.ahead], by simp [hrecv], hs.tail,
    le_rfl, by simp [hposted], ?_, le_rfl, ?_, by simp [hpending], by simp [hrecv], ?_,
    hs.resetDone⟩
  · refine ⟨hs.head, fun k hk _ => ?_, hs.addrs, ?_, by simp [hposted]⟩
    · show read32 s.wil.mem (r.desc (k % r.slots)) ≠ 0 ↔ _
      rw [hs.sync _ (hs.layout.mod_lt k), hposted]
      simpa using hk
    · intro j hj
      simp [hposted] at hj
  · simp [RecvSys.taken, hdispatched, hpending, hworker, hrecv, hposted, RecvWorker.events]
  · simp [hfw, FwPhase]

/-- Before a run of `wmi_recv_cmd` comes to `queue_work`, the worker is awake or queued. -/
lemma RecvInv.awake (H : RecvInv r buf start s h c t) (hqueue : s.recv ≠ some .queue)
    (hne : s.wil.pending ≠ []) : s.queued = true ∨ s.worker ≠ .idle := by
  rcases H.watched hne with hq | hw | hr
  · exact Or.inl hq
  · exact Or.inr hw
  · exact absurd hr hqueue

/-- The event at position `c`, where there is one. -/
lemma RecvInv.event (H : RecvInv r buf start s h c t) (L : MboxLayout r buf) (hlt : c < h) :
    ∃ e, s.posted[c - start]? = some e ∧
      read s.wil.mem (buf (c % r.slots)) e.bytes.length = e.bytes ∧
      e.payload.length < 65536 := by
  have hpos := H.head_pos
  have hstart := H.start_le
  have hj : c - start < s.posted.length := by omega
  refine ⟨s.posted[c - start], List.getElem?_eq_getElem hj, ?_, ?_⟩
  · have hheld := H.mem.held (c - start) (by simpa using hj) (by omega)
    rw [Nat.add_sub_cancel' hstart] at hheld
    simpa using hheld
  · have hfits := H.mem.fits _ (List.mem_map_of_mem (List.getElem_mem hj))
    have hentry := L.entry_lt
    rw [FwEvent.length_bytes] at hfits
    omega

/-- A step of `wmi_recv_cmd` that reads. -/
lemma RecvInv.goto (H : RecvInv r buf start s h c t) {pc : RecvPc} (hpc : s.recv = some pc)
    (hold : pc.events = [] ∧ pc.behind = 0 ∧ pc ≠ .queue) {v : Option RecvPc}
    (hnew : ∀ pc, v = some pc →
      pc.events = [] ∧ pc.behind = 0 ∧ RecvPhase r buf start s.posted h c pc) :
    RecvInv r buf start { s with recv := v } h c t := by
  obtain ⟨hevents, hbehind, hqueue⟩ := hold
  have hv : (v.map RecvPc.events).getD [] = [] ∧ (v.map RecvPc.behind).getD 0 = 0 := by
    cases v with
    | none => exact ⟨rfl, rfl⟩
    | some pc' => exact ⟨(hnew pc' rfl).1, (hnew pc' rfl).2.1⟩
  have htail := H.tail_pos
  have htaken := H.taken
  simp only [RecvSys.taken, hpc, Option.map_some, Option.getD_some, hevents, hbehind] at htail htaken
  refine ⟨H.area, H.head_pos, ?_, H.tail, H.le_head, H.room, H.mem, H.start_le, ?_, fun hne => ?_,
    fun pc' hpc' => (hnew pc' hpc').2.2, H.fwPhase, H.resetDone⟩
  · rw [hv.2]
    exact htail
  · simp only [RecvSys.taken, hv.1]
    exact htaken
  · exact (H.awake (by simpa [hpc] using hqueue) hne).imp_right Or.inl

/-- `head` is read: the run ends where it is `tail`. -/
lemma RecvInv.readHead (H : RecvInv r buf start s h c t) (hpc : s.recv = some .head)
    (ok : Bool) : RecvInv r buf start (s.recvStep ok .head) h c t := by
  have hgoto := H.goto hpc ⟨rfl, rfl, by simp⟩
    (v := if s.wil.rx.tail = read32 s.wil.mem mboxRxHead then none else some .desc) (by
      intro pc' hpc'
      split_ifs at hpc' with hend
      obtain rfl := Option.some.inj hpc'
      refine ⟨rfl, rfl, lt_of_le_of_ne H.le_head ?_⟩
      rintro rfl
      have htail := H.tail_pos
      simp only [hpc, Option.map_some, Option.getD_some, RecvPc.behind, Nat.add_zero] at htail
      rw [H.tail, H.mem.pointer, htail] at hend
      exact hend rfl)
  exact ⟨hgoto.area, hgoto.head_pos, hgoto.tail_pos, hgoto.tail, hgoto.le_head, hgoto.room,
    hgoto.mem, hgoto.start_le, hgoto.taken, hgoto.watched, hgoto.phase, hgoto.fwPhase,
    hgoto.resetDone⟩

/-- The descriptor at `tail` is that of the event at position `c`. -/
lemma RecvInv.tail_eq (H : RecvInv r buf start s h c t) (L : MboxLayout r buf) {pc : RecvPc}
    (hpc : s.recv = some pc) (hbehind : pc.behind = 0) :
    t = c ∧ hostaddr s.wil.rx.tail = r.desc (c % r.slots) := by
  have htail := H.tail_pos
  simp only [hpc, Option.map_some, Option.getD_some, hbehind, Nat.add_zero] at htail
  exact ⟨htail, by rw [H.tail, L.hostaddr_slot, htail]⟩

/-- The descriptor is read: its `sync` is set. -/
lemma RecvInv.readDesc (H : RecvInv r buf start s h c t) (L : MboxLayout r buf)
    (hpc : s.recv = some .desc) (ok : Bool) :
    RecvInv r buf start (s.recvStep ok .desc) h c t := by
  have hlt : c < h := H.phase _ hpc
  refine H.goto hpc ⟨rfl, rfl, by simp⟩ fun pc' hpc' => ?_
  split_ifs at hpc' with hsync
  obtain rfl := Option.some.inj hpc'
  refine ⟨rfl, rfl, hlt, ?_⟩
  rw [(H.tail_eq L hpc rfl).2]
  exact H.mem.addrs _ (L.mod_lt c)

/-- The header is read. -/
lemma RecvInv.readHdr (H : RecvInv r buf start s h c t) (L : MboxLayout r buf) {addr : ℕ}
    (hpc : s.recv = some (.hdr addr)) (ok : Bool) :
    RecvInv r buf start (s.recvStep ok (.hdr addr)) h c t := by
  obtain ⟨hlt, haddr⟩ : c < h ∧ wmiBuffer addr = some (buf (c % r.slots)) := H.phase _ hpc
  obtain ⟨e, he, hread, -⟩ := H.event L hlt
  refine H.goto hpc ⟨rfl, rfl, by simp⟩ fun pc' hpc' => ?_
  rw [haddr] at hpc'
  obtain rfl := Option.some.inj hpc'
  refine ⟨rfl, rfl, hlt, rfl, e, he, ?_⟩
  rw [← hread, FwEvent.length_bytes, read_add]
  exact (List.take_left' (length_read _ _ _)).symm

/-- Memory is allocated, or not. -/
lemma RecvInv.alloc (H : RecvInv r buf start s h c t) {src : ℕ} {hdr : List UInt8}
    (hpc : s.recv = some (.alloc src hdr)) (ok : Bool) :
    RecvInv r buf start (s.recvStep ok (.alloc src hdr)) h c t := by
  have hphase := H.phase _ hpc
  refine H.goto hpc ⟨rfl, rfl, by simp⟩ fun pc' hpc' => ?_
  split_ifs at hpc' with hok
  obtain rfl := Option.some.inj hpc'
  exact ⟨rfl, rfl, hphase⟩

/-- The event is copied, as the firmware wrote it. -/
lemma RecvInv.copy (H : RecvInv r buf start s h c t) (L : MboxLayout r buf) {src : ℕ}
    {hdr : List UInt8} (hpc : s.recv = some (.copy src hdr)) (ok : Bool) :
    RecvInv r buf start (s.recvStep ok (.copy src hdr)) h c t := by
  obtain ⟨hlt, rfl, e, he, rfl⟩ := H.phase _ hpc
  obtain ⟨e', he', hread, hlen⟩ := H.event L hlt
  obtain rfl := Option.some.inj (he.symm.trans he')
  refine H.goto hpc ⟨rfl, rfl, by simp⟩ fun pc' hpc' => ?_
  obtain rfl := Option.some.inj hpc'
  refine ⟨rfl, rfl, hlt, e, he, ?_⟩
  rw [FwEvent.hdrLen_take _ hlen]
  have hsplit := hread
  rw [FwEvent.length_bytes, read_add] at hsplit
  have htake : e.bytes.take sizeofMboxHdr
      = read s.wil.mem (buf (c % r.slots)) sizeofMboxHdr := by
    rw [← hsplit]
    exact List.take_left' (length_read _ _ _)
  rw [htake, hsplit]

/-- What the firmware has filled in is not touched by a write that is apart from its buffer. -/
lemma FwPhase.write {mem : ℕ → UInt8} {p : ℕ} {fw : FwPost} (hf : FwPhase r buf mem p c fw) {c' : ℕ}
    (hc : c ≤ c') {off : ℕ} {bs : List UInt8}
    (happart : Apart off bs.length (buf (p % r.slots)) r.entrySize) :
    FwPhase r buf (ByteMemory.write mem off bs) p c' fw := by
  cases fw with
  | idle => trivial
  | synced => trivial
  | filled e =>
      obtain ⟨hroom, hfits, hread⟩ := hf
      refine ⟨by omega, hfits, ?_⟩
      rw [read_write_apart]
      · exact hread
      · unfold Apart at *
        omega

/-- `sync` is cleared, at the offset `off` of the descriptor: the event is taken. -/
lemma RecvInv.setClear (H : RecvInv r buf start s h c t) (L : MboxLayout r buf) {evt : List UInt8}
    (hpc : s.recv = some (.clear evt)) {off : ℕ} (hoff : off = r.desc (c % r.slots)) :
    RecvInv r buf start { s with
      wil := { s.wil with mem := write32 s.wil.mem off 0 }
      recv := some (.tail evt) } h (c + 1) t := by
  obtain ⟨hlt, e, he, rfl⟩ := H.phase _ hpc
  have htail := H.tail_pos
  have hstart := H.start_le
  have hroom := H.room
  have htaken := H.taken
  simp only [hpc, Option.map_some, Option.getD_some, RecvPc.behind, Nat.add_zero] at htail
  have hmem := H.mem.clear L mboxRxHead_ctl (by simpa using hroom)
  have happart := (H.mem.write_sync L mboxRxHead_ctl (L.mod_lt c) 0).2.2.2 _
    (L.mod_lt (start + s.posted.length))
  have hroom' : start + s.posted.length ≤ c + 1 + r.slots := by omega
  rw [← hoff] at hmem happart
  refine ⟨H.area, H.head_pos, ?_, H.tail, hlt, hroom', hmem, by omega, ?_, fun hne => ?_,
    fun pc' hpc' => ?_, H.fwPhase.write (Nat.le_succ c) happart, H.resetDone⟩
  · exact congrArg (· + 1) htail
  · rw [Nat.succ_sub hstart, List.take_add_one, ← htaken]
    simp [RecvSys.taken, hpc, RecvPc.events, he]
  · exact (H.awake (by simp [hpc]) hne).imp_right Or.inl
  · obtain rfl := Option.some.inj hpc'
    trivial

/-- `sync` is cleared. -/
lemma RecvInv.clear (H : RecvInv r buf start s h c t) (L : MboxLayout r buf) {evt : List UInt8}
    (hpc : s.recv = some (.clear evt)) (ok : Bool) :
    RecvInv r buf start (s.recvStep ok (.clear evt)) h (c + 1) t :=
  H.setClear L hpc (H.tail_eq L hpc rfl).2

/-- `tail` is written, at the offset `off`. -/
lemma RecvInv.setTail (H : RecvInv r buf start s h c t) {evt : List UInt8}
    (hpc : s.recv = some (.tail evt)) {mem : ℕ → UInt8} {tail : ℕ} (htail : tail = r.slot (t + 1))
    (hmem : MboxMem r buf start (s.posted.map FwEvent.bytes) mboxRxHead h c mem)
    (hfw : FwPhase r buf mem (start + s.posted.length) c s.fw) :
    RecvInv r buf start { s with
      wil := { s.wil with rx := { s.wil.rx with tail := tail }, mem := mem }
      recv := some (.add evt) } h c (t + 1) := by
  have hpos := H.tail_pos
  have htaken := H.taken
  simp only [hpc, Option.map_some, Option.getD_some, RecvPc.behind] at hpos
  refine ⟨H.area, H.head_pos, hpos, htail, H.le_head, H.room, hmem, H.start_le, ?_, fun hne => ?_,
    fun pc' hpc' => ?_, hfw, H.resetDone⟩
  · rw [← htaken]
    simp [RecvSys.taken, hpc, RecvPc.events]
  · exact (H.awake (by simp [hpc]) hne).imp_right Or.inl
  · obtain rfl := Option.some.inj hpc'
    trivial

/-- `tail` advances. -/
lemma RecvInv.tailStep (H : RecvInv r buf start s h c t) (L : MboxLayout r buf) {evt : List UInt8}
    (hpc : s.recv = some (.tail evt)) (ok : Bool) :
    RecvInv r buf start (s.recvStep ok (.tail evt)) h c (t + 1) := by
  have hnext : s.wil.rx.next s.wil.rx.tail = r.slot (t + 1) := by
    rw [show s.wil.rx.toMboxArea = r from H.area, H.tail, L.next_slot]
  have hpointer : read32 (write32 s.wil.mem mboxRxTail (s.wil.rx.next s.wil.rx.tail)) mboxRxHead
      = r.slot h := by
    have happart : Apart mboxRxTail (le32 (s.wil.rx.next s.wil.rx.tail)).length mboxRxHead 4 :=
      Or.inl (Nat.add_le_add_left (show 24 + 4 ≤ 28 by decide) hostMbox)
    rw [write32, read32_write_apart happart]
    exact H.mem.pointer
  refine H.setTail hpc hnext (H.mem.write_ctl L mboxRxTail_ctl.1 mboxRxTail_ctl.2 rfl hpointer)
    (H.fwPhase.write le_rfl ?_)
  have := L.bufs_ctl _ (L.mod_lt (start + s.posted.length))
  have := mboxRxTail_ctl
  unfold Apart at *
  rw [length_le32]
  omega

/-- The event is added to the list, and the worker is still to be queued. -/
lemma RecvInv.add (H : RecvInv r buf start s h c t) {evt : List UInt8}
    (hpc : s.recv = some (.add evt)) (ok : Bool) :
    RecvInv r buf start (s.recvStep ok (.add evt)) h c t := by
  have hpos := H.tail_pos
  have htaken := H.taken
  simp only [hpc, Option.map_some, Option.getD_some, RecvPc.behind] at hpos
  refine ⟨H.area, H.head_pos, hpos, H.tail, H.le_head, H.room, H.mem, H.start_le, ?_,
    fun _ => Or.inr (Or.inr rfl), fun pc' hpc' => ?_, H.fwPhase, H.resetDone⟩
  · refine Eq.trans ?_ htaken
    simp [RecvSys.taken, RecvSys.recvStep, hpc, RecvPc.events]
  · obtain rfl := Option.some.inj hpc'
    trivial

/-- The worker is queued. -/
lemma RecvInv.queue (H : RecvInv r buf start s h c t) (hpc : s.recv = some .queue) (ok : Bool) :
    RecvInv r buf start (s.recvStep ok .queue) h c t := by
  have hpos := H.tail_pos
  have htaken := H.taken
  simp only [hpc, Option.map_some, Option.getD_some, RecvPc.behind] at hpos
  refine ⟨H.area, H.head_pos, hpos, H.tail, H.le_head, H.room, H.mem, H.start_le, ?_,
    fun _ => Or.inl rfl, fun pc' hpc' => ?_, H.fwPhase, H.resetDone⟩
  · refine Eq.trans ?_ htaken
    simp [RecvSys.taken, RecvSys.recvStep, hpc, RecvPc.events]
  · obtain rfl := Option.some.inj hpc'
    trivial

/-- **A step of `wmi_recv_cmd`.** -/
lemma RecvInv.recvStep (H : RecvInv r buf start s h c t) (L : MboxLayout r buf) {pc : RecvPc}
    (hpc : s.recv = some pc) (ok : Bool) :
    ∃ c' t', RecvInv r buf start (s.recvStep ok pc) h c' t' := by
  cases pc with
  | head => exact ⟨c, t, H.readHead hpc ok⟩
  | desc => exact ⟨c, t, H.readDesc L hpc ok⟩
  | hdr addr => exact ⟨c, t, H.readHdr L hpc ok⟩
  | alloc src hdr => exact ⟨c, t, H.alloc hpc ok⟩
  | copy src hdr => exact ⟨c, t, H.copy L hpc ok⟩
  | clear evt => exact ⟨c + 1, t, H.clear L hpc ok⟩
  | tail evt => exact ⟨c, t + 1, H.tailStep L hpc ok⟩
  | add evt => exact ⟨c, t, H.add hpc ok⟩
  | queue => exact ⟨c, t, H.queue hpc ok⟩

/-- The worker starts, or takes a step. -/
lemma RecvInv.worker (H : RecvInv r buf start s h c t)
    (hu : s.step .workerStart = some u ∨ s.step .worker = some u) :
    RecvInv r buf start u h c t := by
  have htaken := H.taken
  have hwatched := H.watched
  simp only [RecvSys.taken] at htaken
  rcases hu with hu | hu
  · obtain ⟨hw, -, rfl⟩ := RecvSys.step_workerStart hu
    refine ⟨H.area, H.head_pos, H.tail_pos, H.tail, H.le_head, H.room, H.mem, H.start_le, ?_,
      fun _ => Or.inr (Or.inl (by simp)), H.phase, H.fwPhase, H.resetDone⟩
    rw [hw] at htaken
    exact htaken
  · obtain ⟨hw, hpending, rfl⟩ | ⟨evt, rest, hw, hpending, rfl⟩ | ⟨evt, hw, rfl⟩ :=
      RecvSys.step_worker hu
    · rw [hw] at htaken
      exact ⟨H.area, H.head_pos, H.tail_pos, H.tail, H.le_head, H.room, H.mem, H.start_le,
        htaken, fun hne => absurd hpending hne, H.phase, H.fwPhase, H.resetDone⟩
    · refine ⟨H.area, H.head_pos, H.tail_pos, H.tail, H.le_head, H.room, H.mem, H.start_le, ?_,
        fun _ => Or.inr (Or.inl (by simp)), H.phase, H.fwPhase, H.resetDone⟩
      rw [← htaken, hw, hpending]
      simp [RecvSys.taken, RecvWorker.events]
    · refine ⟨H.area, H.head_pos, H.tail_pos, H.tail, H.le_head, H.room, H.mem, H.start_le, ?_,
        fun _ => Or.inr (Or.inl (by simp)), H.phase, H.fwPhase, H.resetDone⟩
      rw [← htaken, hw]
      simp [RecvSys.taken, RecvWorker.events]

/-- What `wmi_recv_cmd` knows stays true where the firmware goes on. -/
lemma RecvPhase.mono {posted posted' : List FwEvent} {h' : ℕ} {pc : RecvPc}
    (hp : RecvPhase r buf start posted h c pc) (hh : h ≤ h') (hposted : posted <+: posted') :
    RecvPhase r buf start posted' h' c pc := by
  have hkeep : ∀ {j : ℕ} {e : FwEvent}, posted[j]? = some e → posted'[j]? = some e := by
    intro j e he
    obtain ⟨more, rfl⟩ := hposted
    obtain ⟨hj, rfl⟩ := List.getElem?_eq_some_iff.mp he
    rw [List.getElem?_append_left hj, List.getElem?_eq_getElem hj]
  cases pc with
  | desc => exact hp.trans_le hh
  | hdr addr => exact ⟨hp.1.trans_le hh, hp.2⟩
  | alloc src hdr | copy src hdr =>
      obtain ⟨hlt, hsrc, e, he, hhdr⟩ := hp
      exact ⟨hlt.trans_le hh, hsrc, e, hkeep he, hhdr⟩
  | clear evt =>
      obtain ⟨hlt, e, he, hevt⟩ := hp
      exact ⟨hlt.trans_le hh, e, hkeep he, hevt⟩
  | head | tail _ | add _ | queue => trivial

/-- A descriptor that is read as free, at the next position, is free. -/
lemma RecvInv.free (H : RecvInv r buf start s h c t) (L : MboxLayout r buf)
    (hsync : read32 s.wil.mem (r.desc ((start + s.posted.length) % r.slots)) = 0) :
    start + s.posted.length < c + r.slots := by
  by_contra hfull
  have hpos := H.head_pos
  have hle := H.le_head
  have hslots := L.slots_pos
  have heq : start + s.posted.length = c + r.slots := by
    have := H.room
    omega
  have hmark := H.mem.marked c le_rfl (by omega)
  rw [heq, Nat.add_mod_right] at hsync
  simp only [List.length_map] at hmark
  exact absurd hsync (hmark.mpr (by omega))

/-- The firmware fills a buffer. -/
lemma RecvInv.fwFill (H : RecvInv r buf start s h c t) (L : MboxLayout r buf) {e : FwEvent}
    (hu : s.step (.fwFill e) = some u) : RecvInv r buf start u h c t := by
  simp only [RecvSys.step] at hu
  split at hu
  · rename_i hfw
    split_ifs at hu with hready
    obtain ⟨hfits, hsync⟩ := hready
    obtain ⟨dst, hdst, rfl⟩ := Option.map_eq_some_iff.mp hu
    have hpos : h = start + s.posted.length := by simpa [hfw, FwPost.ahead] using H.head_pos
    rw [H.mem.pointer, L.hostaddr_slot, hpos] at hsync hdst
    have hroom := H.free L hsync
    rw [H.mem.addrs _ (L.mod_lt _)] at hdst
    obtain rfl := Option.some.inj hdst
    rw [show s.wil.rx.entrySize = r.entrySize from congrArg MboxArea.entrySize H.area] at hfits
    refine ⟨H.area, by simpa [FwPost.ahead] using hpos, H.tail_pos, H.tail, H.le_head, H.room, ?_,
      H.start_le, H.taken, H.watched, H.phase, ⟨hroom, hfits, read_write _ _ _⟩, H.resetDone⟩
    refine H.mem.write_buf L mboxRxHead_ctl ?_ ?_ ?_ <;> rw [List.length_map]
    · exact hroom
    · exact Nat.add_le_add_left hfits _
  · exact absurd hu (by simp)

/-- The firmware sets `sync`, at the offset `off`: the event is posted. -/
lemma RecvInv.setSync (H : RecvInv r buf start s h c t) (L : MboxLayout r buf) {e : FwEvent}
    (hfw : s.fw = .filled e) {off : ℕ}
    (hoff : off = r.desc ((start + s.posted.length) % r.slots)) :
    RecvInv r buf start { s with
      wil := { s.wil with mem := write32 s.wil.mem off 1 }
      fw := .synced
      posted := s.posted ++ [e] } h c t := by
  have hphase := H.fwPhase
  simp only [hfw, FwPhase] at hphase
  obtain ⟨hroom, hfits, hread⟩ := hphase
  have hpos := H.head_pos
  have hle := H.le_head
  have hstart := H.start_le
  simp only [hfw, FwPost.ahead, Nat.add_zero] at hpos
  have hmem : MboxMem r buf start ((s.posted ++ [e]).map FwEvent.bytes) mboxRxHead h c
      (write32 s.wil.mem off 1) := by
    rw [hoff, List.map_append, List.map_singleton, ← List.length_map (f := FwEvent.bytes)]
    refine H.mem.mark L mboxRxHead_ctl ?_ ?_ hfits ?_ <;> rw [List.length_map]
    · omega
    · exact hroom
    · exact hread
  have hlen : (s.posted ++ [e]).length = s.posted.length + 1 := by simp
  refine ⟨H.area, ?_, H.tail_pos, H.tail, hle, ?_, hmem, hstart, ?_, H.watched,
    fun pc hpc => (H.phase pc hpc).mono le_rfl (List.prefix_append _ _), trivial, H.resetDone⟩
  · rw [hlen]
    simp only [FwPost.ahead]
    omega
  · rw [hlen]
    omega
  · rw [List.map_append, List.take_append_of_le_length (by simp; omega)]
    exact H.taken

/-- The firmware sets `sync`. -/
lemma RecvInv.fwSync (H : RecvInv r buf start s h c t) (L : MboxLayout r buf)
    (hu : s.step .fwSync = some u) : RecvInv r buf start u h c t := by
  simp only [RecvSys.step] at hu
  split at hu
  · rename_i e hfw
    obtain rfl := Option.some.inj hu
    have hpos : h = start + s.posted.length := by simpa [hfw, FwPost.ahead] using H.head_pos
    refine H.setSync L hfw ?_
    rw [H.mem.pointer, L.hostaddr_slot, hpos]
  · exact absurd hu (by simp)

/-- `head` is written. -/
lemma RecvInv.setHead (H : RecvInv r buf start s h c t) (L : MboxLayout r buf)
    (hfw : s.fw = .synced) {next : ℕ} (hnext : next = r.slot (h + 1)) :
    RecvInv r buf start { s with
      wil := { s.wil with mem := write32 s.wil.mem mboxRxHead next }
      fw := .idle } (h + 1) c t := by
  have hpos := H.head_pos
  simp only [hfw, FwPost.ahead] at hpos
  refine ⟨H.area, by simpa [FwPost.ahead] using hpos, H.tail_pos, H.tail,
    H.le_head.trans (Nat.le_succ h), H.room,
    H.mem.write_ctl L mboxRxHead_ctl.1 mboxRxHead_ctl.2 rfl ?_, H.start_le, H.taken, H.watched,
    fun pc hpc => (H.phase pc hpc).mono (Nat.le_succ h) List.prefix_rfl, trivial, H.resetDone⟩
  subst hnext
  exact read32_write32 _ _ (L.slot_lt _)

/-- The firmware advances `head`. -/
lemma RecvInv.fwAdvance (H : RecvInv r buf start s h c t) (L : MboxLayout r buf)
    (hu : s.step .fwAdvance = some u) : RecvInv r buf start u (h + 1) c t := by
  simp only [RecvSys.step] at hu
  split at hu
  · rename_i hfw
    obtain rfl := Option.some.inj hu
    refine H.setHead L hfw ?_
    rw [show s.wil.rx.toMboxArea = r from H.area, H.mem.pointer, L.next_slot]
  · exact absurd hu (by simp)

/-- `wmi_recv_cmd` is called. -/
lemma RecvInv.recvStart (H : RecvInv r buf start s h c t)
    (hu : s.step .recvStart = some u) :
    u = { s with recv := some .head } ∧ RecvInv r buf start u h c t := by
  obtain ⟨hnone, rfl⟩ := RecvSys.step_recvStart hu
  rw [if_pos H.resetDone]
  have hpos := H.tail_pos
  have htaken := H.taken
  simp only [RecvSys.taken, hnone, Option.map_none, Option.getD_none] at hpos htaken
  refine ⟨rfl, H.area, H.head_pos, hpos, H.tail, H.le_head, H.room, H.mem, H.start_le, htaken,
    fun hne => ?_, fun pc hpc => ?_, H.fwPhase, H.resetDone⟩
  · exact (H.awake (by simp [hnone]) hne).imp_right Or.inl
  · obtain rfl := Option.some.inj hpc
    trivial

/-! ## Every run -/

/-- **Every step keeps the invariant.** -/
theorem RecvInv.step (L : MboxLayout r buf) (H : RecvInv r buf start s h c t) {a : RecvAction}
    (hu : s.step a = some u) : ∃ h' c' t', RecvInv r buf start u h' c' t' := by
  cases a with
  | recvStart => exact ⟨h, c, t, (H.recvStart hu).2⟩
  | recv ok =>
      obtain ⟨pc, hpc, rfl⟩ := Option.map_eq_some_iff.mp hu
      obtain ⟨c', t', H'⟩ := H.recvStep L hpc ok
      exact ⟨h, c', t', H'⟩
  | workerStart => exact ⟨h, c, t, H.worker (Or.inl hu)⟩
  | worker => exact ⟨h, c, t, H.worker (Or.inr hu)⟩
  | fwFill e => exact ⟨h, c, t, H.fwFill L hu⟩
  | fwSync => exact ⟨h, c, t, H.fwSync L hu⟩
  | fwAdvance => exact ⟨h + 1, c, t, H.fwAdvance L hu⟩

/-! ## Delivery -/

/-- The driver alone can go from `s` to `u`, with no allocation that fails. -/
def RecvSys.Drives (s u : RecvSys) : Prop :=
  ∃ as, Machine.Exec RecvSys.step (fun _ a => a.Delivers) s as u

lemma RecvSys.Drives.refl (s : RecvSys) : s.Drives s := ⟨[], rfl⟩

lemma RecvSys.Drives.trans {v : RecvSys} (hsu : s.Drives u) (huv : u.Drives v) : s.Drives v := by
  obtain ⟨as, has⟩ := hsu
  obtain ⟨bs, hbs⟩ := huv
  exact ⟨as ++ bs, has.append hbs⟩

lemma RecvSys.Drives.step {a : RecvAction} (ha : a.Delivers) (hu : s.step a = some u) :
    s.Drives u :=
  ⟨[a], ha, u, hu, rfl⟩

lemma RecvSys.drives_recv {pc : RecvPc} (hpc : s.recv = some pc) :
    s.Drives (s.recvStep true pc) :=
  .step (a := .recv true) trivial (by simp [RecvSys.step, hpc])

lemma RecvSys.recvStep_kept (s : RecvSys) (ok : Bool) (pc : RecvPc) :
    (s.recvStep ok pc).posted = s.posted ∧ (s.recvStep ok pc).fw = s.fw := by
  have hkept : ∀ (wil : WmiRx) (recv : Option RecvPc) (queued : Bool),
      { s with wil := wil, recv := recv, queued := queued }.posted = s.posted ∧
        { s with wil := wil, recv := recv, queued := queued }.fw = s.fw :=
    fun _ _ _ => ⟨rfl, rfl⟩
  cases pc <;> exact hkept _ _ _

/-- The driver leaves what the firmware did. -/
lemma RecvSys.Drives.kept (hsu : s.Drives u) : u.posted = s.posted ∧ u.fw = s.fw := by
  obtain ⟨as, has⟩ := hsu
  refine has.invariant (I := fun v => v.posted = s.posted ∧ v.fw = s.fw) ?_ ⟨rfl, rfl⟩
  rintro v a w ha hw ⟨hposted, hfw⟩
  rw [← hposted, ← hfw]
  cases a with
  | recvStart =>
      obtain ⟨-, rfl⟩ := RecvSys.step_recvStart hw
      exact ⟨rfl, rfl⟩
  | recv ok =>
      obtain ⟨pc, -, rfl⟩ := Option.map_eq_some_iff.mp hw
      exact v.recvStep_kept ok pc
  | workerStart =>
      obtain ⟨-, -, rfl⟩ := RecvSys.step_workerStart hw
      exact ⟨rfl, rfl⟩
  | worker =>
      obtain ⟨-, -, rfl⟩ | ⟨evt, rest, -, -, rfl⟩ | ⟨evt, -, rfl⟩ := RecvSys.step_worker hw <;>
        exact ⟨rfl, rfl⟩
  | fwFill e => exact ha.elim
  | fwSync => exact ha.elim
  | fwAdvance => exact ha.elim

/-- The mailbox is not empty. -/
lemma RecvInv.reads (H : RecvInv r buf start s h c t) (L : MboxLayout r buf)
    (hpc : s.recv = some .head) (hlt : c < h) (hroom : start + s.posted.length < c + r.slots) :
    ∃ u, s.Drives u ∧ RecvInv r buf start u h c t ∧ u.recv = some .desc := by
  have hpos := H.head_pos
  obtain ⟨rfl, hoff⟩ := H.tail_eq L hpc rfl
  refine ⟨_, RecvSys.drives_recv hpc, H.readHead hpc true, if_neg ?_⟩
  rw [H.tail, H.mem.pointer]
  exact MboxArea.slot_ne hlt (by omega)

/-- The descriptor that `wmi_recv_cmd` is about to read has its `sync` set. -/
lemma RecvInv.sync_ne (H : RecvInv r buf start s h c t) (L : MboxLayout r buf)
    (hpc : s.recv = some .desc) : read32 s.wil.mem (hostaddr s.wil.rx.tail) ≠ 0 := by
  have hlt : c < h := H.phase _ hpc
  have hpos := H.head_pos
  have hslots := L.slots_pos
  rw [(H.tail_eq L hpc rfl).2]
  refine (H.mem.marked c le_rfl (by omega)).mpr ?_
  rw [List.length_map]
  omega

/-- The event is there: `wmi_recv_cmd` comes to the copy. -/
lemma RecvInv.allocates (H : RecvInv r buf start s h c t) (L : MboxLayout r buf)
    (hpc : s.recv = some .desc) :
    ∃ u src hdr, s.Drives u ∧ RecvInv r buf start u h c t ∧ u.recv = some (.copy src hdr) := by
  have hsync := H.sync_ne L hpc
  have H1 := H.readDesc L hpc true
  have hhdr : (s.recvStep true .desc).recv
      = some (.hdr (read32 s.wil.mem (hostaddr s.wil.rx.tail + 4))) := if_neg hsync
  have hsu := RecvSys.drives_recv hpc
  generalize read32 s.wil.mem (hostaddr s.wil.rx.tail + 4) = addr at hhdr
  generalize s.recvStep true .desc = v at *
  obtain ⟨-, haddr⟩ := H1.phase _ hhdr
  have H2 := H1.readHdr L hhdr true
  have halloc : (v.recvStep true (.hdr addr)).recv
      = some (.alloc (buf (c % r.slots) + sizeofMboxHdr)
        (read v.wil.mem (buf (c % r.slots)) sizeofMboxHdr)) := by
    simp [RecvSys.recvStep, haddr]
  exact ⟨_, _, _, (hsu.trans (RecvSys.drives_recv hhdr)).trans (RecvSys.drives_recv halloc),
    H2.alloc halloc true, rfl⟩

/-- From the copy on, the event comes to the list. -/
lemma RecvInv.takes (H : RecvInv r buf start s h c t) (L : MboxLayout r buf) {src : ℕ}
    {hdr : List UInt8} (hpc : s.recv = some (.copy src hdr)) :
    ∃ u, s.Drives u ∧ RecvInv r buf start u h (c + 1) (c + 1) ∧ u.recv = some .head := by
  obtain ⟨rfl, -⟩ := H.tail_eq L hpc rfl
  have H1 := H.copy L hpc true
  have hclear : (s.recvStep true (.copy src hdr)).recv
      = some (.clear (hdr ++ read s.wil.mem src (hdrLen hdr))) := rfl
  have hsu := RecvSys.drives_recv hpc
  generalize hdr ++ read s.wil.mem src (hdrLen hdr) = evt at hclear
  generalize s.recvStep true (.copy src hdr) = s1 at *
  have H2 := H1.clear L hclear true
  have htail : (s1.recvStep true (.clear evt)).recv = some (.tail evt) := rfl
  have hsu1 := hsu.trans (RecvSys.drives_recv hclear)
  generalize s1.recvStep true (.clear evt) = s2 at *
  have H3 := H2.tailStep L htail true
  have hadd : (s2.recvStep true (.tail evt)).recv = some (.add evt) := rfl
  have hsu2 := hsu1.trans (RecvSys.drives_recv htail)
  generalize s2.recvStep true (.tail evt) = s3 at *
  have H4 := H3.add hadd true
  have hqueue : (s3.recvStep true (.add evt)).recv = some .queue := rfl
  have hsu3 := hsu2.trans (RecvSys.drives_recv hadd)
  exact ⟨_, hsu3.trans (RecvSys.drives_recv hqueue), H4.queue hqueue true, rfl⟩

/-- `wmi_recv_cmd` empties the mailbox. -/
lemma RecvInv.drain (H : RecvInv r buf start s h c t) (L : MboxLayout r buf)
    (hpc : s.recv = some .head) (hroom : start + s.posted.length < c + r.slots) :
    ∃ u t', s.Drives u ∧ RecvInv r buf start u h h t' ∧ u.recv = none := by
  obtain ⟨n, hn⟩ := Nat.exists_eq_add_of_le H.le_head
  induction n generalizing s c t with
  | zero =>
      obtain rfl : h = c := hn
      obtain ⟨rfl, -⟩ := H.tail_eq L hpc rfl
      have hempty : s.wil.rx.tail = read32 s.wil.mem mboxRxHead := by
        rw [H.tail, H.mem.pointer]
      exact ⟨_, _, RecvSys.drives_recv hpc, H.readHead hpc true, if_pos hempty⟩
  | succ n ih =>
      obtain ⟨u, hsu, Hu, hdesc⟩ := H.reads L hpc (by omega) hroom
      obtain ⟨v, src, hdr, huv, Hv, hcopy⟩ := Hu.allocates L hdesc
      obtain ⟨w, hvw, Hw, hhead⟩ := Hv.takes L hcopy
      have hsw := (hsu.trans huv).trans hvw
      obtain ⟨x, t', hwx, Hx, hnone⟩ := ih Hw hhead (by rw [hsw.kept.1]; omega) (by omega)
      exact ⟨x, t', hsw.trans hwx, Hx, hnone⟩

/-- The worker, while it runs, hands over all that is pending. -/
lemma RecvSys.drives_pending (hw : s.worker = .running) :
    ∃ u, s.Drives u ∧ u.recv = s.recv ∧ u.dispatched = s.dispatched ++ s.wil.pending := by
  generalize hpending : s.wil.pending = evts
  induction evts generalizing s with
  | nil => exact ⟨s, .refl s, rfl, by simp⟩
  | cons evt rest ih =>
      have htake : s.Drives { s with
          wil := { s.wil with pending := rest }, worker := .handling evt } :=
        .step (a := .worker) trivial (by simp [RecvSys.step, RecvSys.workerStep, hw, hpending])
      have hhand : RecvSys.Drives { s with
            wil := { s.wil with pending := rest }, worker := .handling evt }
          { s with
            wil := { s.wil with pending := rest }
            worker := .running
            dispatched := s.dispatched ++ [evt] } :=
        .step (a := .worker) trivial rfl
      obtain ⟨u, hu, hrecv, hdispatched⟩ := ih (s := { s with
        wil := { s.wil with pending := rest }
        worker := .running
        dispatched := s.dispatched ++ [evt] }) rfl rfl
      exact ⟨u, (htake.trans hhand).trans hu, hrecv, by simp [hdispatched]⟩

/-- Where no run of `wmi_recv_cmd` is on its way, the worker hands over all that was taken. -/
lemma RecvInv.handOver (H : RecvInv r buf start s h c t) (hnone : s.recv = none) :
    ∃ u, s.Drives u ∧ u.recv = none ∧ u.dispatched = s.taken := by
  cases hw : s.worker with
  | idle =>
      by_cases hempty : s.wil.pending = []
      · refine ⟨s, .refl s, hnone, ?_⟩
        simp [RecvSys.taken, hw, hempty, hnone, RecvWorker.events]
      · have hqueued : s.queued = true :=
          (H.awake (by simp [hnone]) hempty).resolve_right (absurd hw)
        have hstart : s.Drives { s with queued := false, worker := .running } :=
          .step (a := .workerStart) trivial (by simp [RecvSys.step, hw, hqueued])
        obtain ⟨u, hu, hrecv, hdispatched⟩ :=
          RecvSys.drives_pending (s := { s with queued := false, worker := .running }) rfl
        refine ⟨u, hstart.trans hu, hrecv.trans hnone, ?_⟩
        simp [hdispatched, RecvSys.taken, hw, hnone, RecvWorker.events]
  | running =>
      obtain ⟨u, hu, hrecv, hdispatched⟩ := RecvSys.drives_pending hw
      refine ⟨u, hu, hrecv.trans hnone, ?_⟩
      simp [hdispatched, RecvSys.taken, hw, hnone, RecvWorker.events]
  | handling evt =>
      have hhand : s.Drives { s with
          worker := .running, dispatched := s.dispatched ++ [evt] } :=
        .step (a := .worker) trivial (by simp [RecvSys.step, RecvSys.workerStep, hw])
      obtain ⟨u, hu, hrecv, hdispatched⟩ := RecvSys.drives_pending
        (s := { s with worker := .running, dispatched := s.dispatched ++ [evt] }) rfl
      refine ⟨u, hhand.trans hu, hrecv.trans hnone, ?_⟩
      simp [hdispatched, RecvSys.taken, hw, hnone, RecvWorker.events]

lemma RecvInv.visible (H : RecvInv r buf start s h c t) : s.visible = h - start := by
  have hpos := H.head_pos
  unfold RecvSys.visible
  split <;> rename_i hfw <;> simp only [hfw, FwPost.ahead] at hpos <;> omega

lemma RecvInv.length_taken (H : RecvInv r buf start s h c t) : s.taken.length = c - start := by
  have hpos := H.head_pos
  have hle := H.le_head
  rw [H.taken, List.length_take, List.length_map]
  omega

/-- Where no allocation fails, `wmi_recv_cmd` returns at the end of the events, or of a full
ring. -/
lemma RecvInv.returns (H : RecvInv r buf start s h c t) (L : MboxLayout r buf) {pc : RecvPc}
    (hpc : s.recv = some pc) (hnone : (s.recvStep true pc).recv = none) :
    pc = .head ∧ (h = c ∨ c + r.slots ≤ h) := by
  cases pc with
  | head =>
      obtain ⟨rfl, -⟩ := H.tail_eq L hpc rfl
      have hend : s.wil.rx.tail = read32 s.wil.mem mboxRxHead := by
        by_contra hmore
        exact absurd ((if_neg hmore).symm.trans hnone) (Option.some_ne_none _)
      rw [H.tail, H.mem.pointer] at hend
      refine ⟨rfl, ?_⟩
      by_contra hno
      obtain ⟨hne, hroom⟩ := not_or.mp hno
      exact MboxArea.slot_ne (lt_of_le_of_ne H.le_head (Ne.symm hne)) (not_le.mp hroom) hend
  | desc =>
      exact absurd ((if_neg (H.sync_ne L hpc)).symm.trans hnone) (Option.some_ne_none _)
  | hdr addr =>
      obtain ⟨-, haddr⟩ : c < h ∧ wmiBuffer addr = some (buf (c % r.slots)) := H.phase _ hpc
      simp only [RecvSys.recvStep, haddr] at hnone
      exact absurd hnone (Option.some_ne_none _)
  | alloc | copy | clear | tail | add | queue => exact absurd hnone (Option.some_ne_none _)

/-- **A call that returns has taken all there was**: nothing but its last step makes it return. -/
lemma RecvInv.call {as : List RecvAction} (H : RecvInv r buf start s h c t) (L : MboxLayout r buf)
    (hcall : s.RecvCall as u) (hroom : u.visible < u.taken.length + r.slots) :
    u.taken = (u.posted.take u.visible).map FwEvent.bytes := by
  obtain ⟨v, hv, hrun⟩ := hcall.run
  obtain ⟨rfl, Hv⟩ := H.recvStart hv
  have hinv : (∃ h c t, RecvInv r buf start u h c t) ∧ (u.recv = none →
      u.visible < u.taken.length + r.slots →
        u.taken = (u.posted.take u.visible).map FwEvent.bytes) := by
    refine hrun.invariant (I := fun w => (∃ h c t, RecvInv r buf start w h c t) ∧
      (w.recv = none → w.visible < w.taken.length + r.slots →
        w.taken = (w.posted.take w.visible).map FwEvent.bytes))
      ?_ ⟨⟨h, c, t, Hv⟩, fun hnone => absurd hnone (Option.some_ne_none _)⟩
    rintro w a x ⟨hbusy, ha⟩ hx ⟨⟨h, c, t, Hw⟩, -⟩
    refine ⟨Hw.step L hx, fun hnone hfree => ?_⟩
    rcases RecvSys.recv_step hx with hsame | hidle | ⟨ok, rfl⟩
    · exact absurd (hsame.symm.trans hnone) hbusy
    · exact absurd hidle hbusy
    · obtain rfl : ok = true := by
        cases ok
        · exact absurd rfl ha
        · rfl
      obtain ⟨pc, hpc, rfl⟩ := Option.map_eq_some_iff.mp hx
      obtain ⟨rfl, hend⟩ := Hw.returns L hpc hnone
      have Hx := Hw.readHead hpc true
      have hstart := Hw.start_le
      rw [Hx.visible, Hx.length_taken] at hfree
      obtain rfl : h = c := hend.resolve_right (by omega)
      rw [Hx.taken, Hx.visible, List.map_take]
  exact hinv.2 hcall.returned hroom

lemma RecvInv.ok (H : RecvInv r buf start s h c t) (L : MboxLayout r buf) :
    EventPathOk r buf start s := by
  have hlen := H.length_taken
  have hpos := H.head_pos
  have hle := H.le_head
  have hstart := H.start_le
  have hprefix : s.taken <+: s.posted.map FwEvent.bytes := H.taken ▸ List.take_prefix _ _
  refine ⟨?_, hprefix, fun j hj htaken => ⟨?_, ?_⟩, H.watched, fun hnone hqueued hidle => ?_,
    fun as u hcall => H.call L hcall, fun hnone hroom => ?_⟩
  · refine List.IsPrefix.trans ?_ hprefix
    simp only [RecvSys.taken, List.append_assoc]
    exact List.prefix_append _ _
  · have hheld := H.mem.held j (by simpa using hj) (by omega)
    simp only [List.getElem_map] at hheld
    exact hheld
  · have hroom := H.room
    refine (H.mem.marked (start + j) (by omega) (by omega)).mpr ?_
    rw [List.length_map]
    omega
  · have hempty : s.wil.pending = [] := by
      by_contra hne
      rcases H.awake (by simp [hnone]) hne with hq | hw
      · exact absurd (hqueued.symm.trans hq) Bool.false_ne_true
      · exact hw hidle
    simp [RecvSys.taken, hnone, hidle, hempty, RecvWorker.events]
  · have hcall : s.step .recvStart = some { s with recv := some .head } := by
      simp [RecvSys.step, hnone, H.resetDone]
    obtain ⟨v, t', hdrain, Hv, hvnone⟩ :=
      (H.recvStart hcall).2.drain L rfl (show start + s.posted.length < c + r.slots by omega)
    obtain ⟨u, hhand, hunone, hdispatched⟩ := Hv.handOver hvnone
    obtain ⟨as, has⟩ := ((RecvSys.Drives.step (a := .recvStart) trivial hcall).trans hdrain).trans
      hhand
    refine ⟨as, u, has, hunone, ?_⟩
    rw [hdispatched, Hv.taken, hdrain.kept.1, H.visible, List.map_take]

end Invariant

/-- **The event path is a loss-free FIFO**: from an empty mailbox, anywhere in the memory of the
card, in every interleaving of the firmware, of runs of `wmi_recv_cmd` in which any allocation may
fail, and of runs of the worker. -/
theorem eventPath_fifo {r : MboxArea} {buf : ℕ → ℕ} {start : ℕ} {s t : RecvSys}
    {as : List RecvAction} (hs : EventStart r buf start s)
    (h : Machine.Exec RecvSys.step (fun _ _ => True) s as t) : EventPathOk r buf start t := by
  have hinv : ∃ h c p, RecvInv r buf start t h c p :=
    h.invariant (I := fun u => ∃ h c p, RecvInv r buf start u h c p)
      (fun _ _ _ _ hu ⟨_, _, _, hi⟩ => hi.step hs.layout hu) ⟨start, start, start, recvInv_start hs⟩
  obtain ⟨_, _, _, hi⟩ := hinv
  exact hi.ok hs.layout

/-- A ring of two descriptors. -/
def eventsTwo : MboxArea := ⟨0x880500, 16, 16⟩

/-- Its buffers. -/
def eventsTwoBuf (k : ℕ) : ℕ := 0x80100 + 16 * k

/-- The ring, empty, with both of its pointers at the second descriptor. -/
def eventsTwoEmpty : RecvSys where
  wil := ⟨write32 (write32 (write32 (write32 (fun _ => 0) 0x504 0x800100) 0x50c 0x800110)
    mboxRxTail 0x880508) mboxRxHead 0x880508, true, ⟨eventsTwo, 0x880508, 0x880508⟩, []⟩
  recv := none
  queued := false
  worker := .idle
  fw := .idle
  posted := []
  dispatched := []

lemma eventsTwoEmpty_start : EventStart eventsTwo eventsTwoBuf 1 eventsTwoEmpty := by
  refine ⟨?_, rfl, rfl, ?_, ?_, ?_, rfl, ⟨rfl, rfl, rfl⟩, rfl, rfl, rfl⟩
  · constructor <;> decide
  all_goals decide +kernel

/-- The firmware posts an event. -/
def postEvent (e : FwEvent) : List RecvAction := [.fwFill e, .fwSync, .fwAdvance]

/-- The allocation for the second event fails; the next run takes it, and the worker, which the
first event has queued, hands over both. -/
theorem eventPath_fifo_two :
    ∃ t : RecvSys, EventPathOk eventsTwo eventsTwoBuf 1 t ∧ t.posted.length = 2 ∧
      t.dispatched = [[1, 0, 2, 0, 0, 0, 0, 0, 7, 7], [2, 0, 0, 0, 0, 0, 0, 0]] := by
  let as : List RecvAction := [
    postEvent ⟨1, 0, 0, 0, [7, 7]⟩, [.recvStart], List.replicate 8 (.recv true),
    postEvent ⟨2, 0, 0, 0, []⟩,
    [.recv true, .recv true, .recv true, .recv true, .recv false, .workerStart, .recvStart],
    List.replicate 10 (.recv true), List.replicate 5 .worker].flatten
  have hrun : (Machine.exec RecvSys.step (fun _ _ => True) eventsTwoEmpty as).map
      (fun t => (t.posted.length, t.dispatched))
      = some (2, [[1, 0, 2, 0, 0, 0, 0, 0, 7, 7], [2, 0, 0, 0, 0, 0, 0, 0]]) := by
    decide +kernel
  obtain ⟨t, ht, hend⟩ := Option.map_eq_some_iff.mp hrun
  simp only [Prod.mk.injEq] at hend
  exact ⟨t, eventPath_fifo eventsTwoEmpty_start (.of_exec ht), hend⟩

/-- The mailbox reads as empty though it is full, and nothing is on its way. -/
structure RecvSys.Wedged (s : RecvSys) : Prop where
  empty : s.wil.rx.tail = read32 s.wil.mem mboxRxHead
  full : read32 s.wil.mem (hostaddr (read32 s.wil.mem mboxRxHead)) ≠ 0
  recv : s.recv = none ∨ s.recv = some .head
  worker : s.worker = .idle ∨ s.worker = .running
  fw : s.fw = .idle
  pending : s.wil.pending = []
  dispatched : s.dispatched = []

/-- Such a mailbox stays as it is. -/
lemma RecvSys.Wedged.step {s u : RecvSys} (H : s.Wedged) {a : RecvAction}
    (hu : s.step a = some u) : u.Wedged := by
  cases a with
  | recvStart =>
      obtain ⟨-, rfl⟩ := RecvSys.step_recvStart hu
      refine ⟨H.empty, H.full, ?_, H.worker, H.fw, H.pending, H.dispatched⟩
      dsimp only
      split_ifs
      · exact Or.inr rfl
      · exact Or.inl rfl
  | recv ok =>
      obtain ⟨pc, hpc, rfl⟩ := Option.map_eq_some_iff.mp hu
      obtain hnone | hhead := H.recv
      · exact absurd (hnone.symm.trans hpc) (by simp)
      · obtain rfl := Option.some.inj (hhead.symm.trans hpc)
        exact ⟨H.empty, H.full, Or.inl (if_pos H.empty), H.worker, H.fw, H.pending, H.dispatched⟩
  | workerStart =>
      obtain ⟨-, -, rfl⟩ := RecvSys.step_workerStart hu
      exact ⟨H.empty, H.full, H.recv, Or.inr rfl, H.fw, H.pending, H.dispatched⟩
  | worker =>
      obtain ⟨-, -, rfl⟩ | ⟨evt, rest, -, hpending, -⟩ | ⟨evt, hw, -⟩ := RecvSys.step_worker hu
      · exact ⟨H.empty, H.full, H.recv, Or.inl rfl, H.fw, H.pending, H.dispatched⟩
      · exact absurd (H.pending.symm.trans hpending) (by simp)
      · rcases H.worker with hidle | hrun
        · exact absurd (hidle.symm.trans hw) (by simp)
        · exact absurd (hrun.symm.trans hw) (by simp)
  | fwFill e =>
      simp only [RecvSys.step, H.fw] at hu
      rw [if_neg fun hready => H.full hready.2] at hu
      exact absurd hu (by simp)
  | fwSync | fwAdvance => simp [RecvSys.step, H.fw] at hu

/-- An event is pending and the worker is neither queued nor running, just after `list_add_tail`;
and a firmware that has filled both descriptors is not heard any more. -/
theorem not_eventPath_fifo :
    (∃ s as t, EventStart eventsTwo eventsTwoBuf 1 s ∧
      Machine.Exec RecvSys.step (fun _ _ => True) s as t ∧
      t.wil.pending ≠ [] ∧ t.queued = false ∧ t.worker = .idle) ∧
    ∃ s as t, EventStart eventsTwo eventsTwoBuf 1 s ∧
      Machine.Exec RecvSys.step (fun _ _ => True) s as t ∧ t.posted.length = 2 ∧
      ∀ bs u, Machine.Exec RecvSys.step (fun _ _ => True) t bs u → u.dispatched = [] := by
  constructor
  · let as : List RecvAction := postEvent ⟨1, 0, 0, 0, [7, 7]⟩ ++
      .recvStart :: List.replicate 8 (.recv true)
    have hrun : (Machine.exec RecvSys.step (fun _ _ => True) eventsTwoEmpty as).map
        (fun t => (t.wil.pending, t.queued, t.worker))
        = some ([[1, 0, 2, 0, 0, 0, 0, 0, 7, 7]], false, .idle) := by
      decide +kernel
    obtain ⟨t, ht, hend⟩ := Option.map_eq_some_iff.mp hrun
    simp only [Prod.mk.injEq] at hend
    obtain ⟨hpending, hqueued, hidle⟩ := hend
    exact ⟨_, as, t, eventsTwoEmpty_start, .of_exec ht, by simp [hpending], hqueued, hidle⟩
  · let as : List RecvAction := postEvent ⟨1, 0, 0, 0, [7, 7]⟩ ++ postEvent ⟨2, 0, 0, 0, []⟩
    have hrun : (Machine.exec RecvSys.step (fun _ _ => True) eventsTwoEmpty as).map
        (fun t => (t.posted.length, t.wil.rx.tail, read32 t.wil.mem mboxRxHead,
          read32 t.wil.mem (hostaddr (read32 t.wil.mem mboxRxHead)),
          decide (t.recv = none ∧ t.worker = .idle ∧ t.fw = .idle ∧ t.wil.pending = [] ∧
            t.dispatched = [])))
        = some (2, 0x880508, 0x880508, 1, true) := by
      decide +kernel
    obtain ⟨t, ht, hend⟩ := Option.map_eq_some_iff.mp hrun
    simp only [Prod.mk.injEq, decide_eq_true_eq] at hend
    obtain ⟨hposted, htail, hhead, hsync, hrecv, hworker, hfw, hpending, hdispatched⟩ := hend
    have hwedged : t.Wedged := ⟨htail.trans hhead.symm, by simp [hsync], Or.inl hrecv,
      Or.inl hworker, hfw, hpending, hdispatched⟩
    refine ⟨_, as, t, eventsTwoEmpty_start, .of_exec ht, hposted, fun bs u hu => ?_⟩
    exact (hu.invariant (fun _ _ _ _ hstep H => H.step hstep) hwedged).dispatched

end Wil6210
