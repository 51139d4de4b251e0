import Wil6210.Wmi.Call
import Wil6210.Wmi.Mailbox

/-!
# Sending a command

`__wmi_send` runs under `wmi_mutex`, one call at a time, while the firmware empties the ring.  Its
accesses to the memory of the card are one step each, and so are those of the firmware: it reads
the buffer of the descriptor at `tail` where `sync` is 1, clears `sync`, and then advances `tail`.
The interrupt that `__wmi_send` raises at its end is left out, as the firmware may run at any time.

`mailbox_fifo` is what the two together amount to.  The commands that the firmware reads are a
prefix of those that were sent, byte for byte and with consecutive numbers; no command is
overwritten before it is read; and a call that fails leaves no trace.
-/

namespace Wil6210

open ByteMemory Circular

/-! ## Commands -/

/-- `offsetof(struct wil6210_mbox_ctl, tx.tail)`, from `csr` -/
def mboxTxTail : ℕ := hostMbox + 8

/-- `offsetof(struct wil6210_mbox_ctl, tx.head)`, from `csr` -/
def mboxTxHead : ℕ := hostMbox + 12

lemma mboxTxTail_ctl : hostMbox ≤ mboxTxTail ∧ mboxTxTail + 4 ≤ hostMbox + sizeofMboxCtl :=
  ⟨Nat.le_add_right _ _, Nat.add_le_add_left (show 8 + 4 ≤ sizeofMboxCtl by decide) hostMbox⟩

lemma mboxTxHead_ctl : hostMbox ≤ mboxTxHead ∧ mboxTxHead + 4 ≤ hostMbox + sizeofMboxCtl :=
  ⟨Nat.le_add_right _ _, Nat.add_le_add_left (show 12 + 4 ≤ sizeofMboxCtl by decide) hostMbox⟩

/-- The arguments of `__wmi_send`; `buf` is the host's memory from the payload on, of which the
copy loop also reads what is behind the payload, up to a full word. -/
structure WmiCmd where
  id : ℕ
  buf : ℕ → UInt8
  len : ℕ

namespace WmiCmd

/-- `sizeof(cmd)`, both headers. -/
def sizeofCmd : ℕ := sizeofMboxHdr + sizeofMboxHdrWmi

/-- `cmd`: `seq`, `len`, `type`, `flags` and `reserved`, and then `reserved0`, `id`, `info1` and
`reserved1`. -/
def hdr (c : WmiCmd) (seq : ℕ) : List UInt8 :=
  le16 seq ++ le16 (u16 (sizeofMboxHdrWmi + c.len)) ++ le16 wilMboxHdrTypeWmi ++ [0, 0] ++
    ([0, 0] ++ le16 c.id ++ le16 0 ++ [0, 0])

/-- The bytes of a command: the headers and the payload. -/
def bytes (c : WmiCmd) (seq : ℕ) : List UInt8 := c.hdr seq ++ (List.range c.len).map c.buf

/-- The words that the two calls of `wil_memcpy_toio_32` write, as one stream of bytes. -/
def stream (c : WmiCmd) (seq : ℕ) : ℕ → UInt8 := fun j =>
  if j < sizeofCmd then (c.hdr seq).getD j 0 else c.buf (j - sizeofCmd)

/-- How many words they write: one for each four bytes begun. -/
def words (c : WmiCmd) : ℕ := (sizeofCmd + 3) / 4 + (c.len + 3) / 4

variable (c : WmiCmd) (seq : ℕ)

@[simp] lemma length_hdr : (c.hdr seq).length = sizeofCmd := rfl

lemma map_stream : (List.range (sizeofCmd + c.len)).map (c.stream seq) = c.bytes seq := by
  have hhdr : (List.range sizeofCmd).map (c.stream seq) = c.hdr seq := rfl
  have hbuf : ((List.range c.len).map (sizeofCmd + ·)).map (c.stream seq)
      = (List.range c.len).map c.buf := by
    rw [List.map_map]
    refine List.map_congr_left fun i _ => ?_
    rw [Function.comp_apply, stream, if_neg (by omega), Nat.add_sub_cancel_left]
  rw [List.range_add, List.map_append, hhdr, hbuf, bytes]

lemma length_bytes : (c.bytes seq).length = sizeofCmd + c.len := by
  rw [bytes, List.length_append, length_hdr, List.length_map, List.length_range]

/-- The words that are written are the bytes of the command, and fit where it fits. -/
lemma words_le {entrySize : ℕ} (hdvd : 4 ∣ entrySize) (hfits : sizeofCmd + c.len ≤ entrySize) :
    4 * c.words ≤ entrySize ∧ sizeofCmd + c.len ≤ 4 * c.words := by
  obtain ⟨e, he⟩ := hdvd
  simp only [words, sizeofCmd, sizeofMboxHdr, sizeofMboxHdrWmi] at *
  omega

/-- The header says how long the command is. -/
lemma read_len {mem : ℕ → UInt8} {a : ℕ} (hfits : sizeofCmd + c.len < 65536)
    (h : read mem a (sizeofCmd + c.len) = c.bytes seq) :
    sizeofMboxHdr + read16 mem (a + 2) = sizeofCmd + c.len := by
  have hlen : u16 (sizeofMboxHdrWmi + c.len) = sizeofMboxHdrWmi + c.len := by
    simp only [sizeofCmd, sizeofMboxHdr, sizeofMboxHdrWmi] at *
    exact Nat.mod_eq_of_lt (by omega)
  have hbyte : ∀ i, i < sizeofCmd + c.len → some (mem (a + i)) = (c.bytes seq)[i]? := by
    intro i hi
    rw [← h, List.getElem?_eq_getElem (by simpa using hi), getElem_read]
  have h2 := hbyte 2 (by simp [sizeofCmd, sizeofMboxHdr]; omega)
  have h3 := hbyte 3 (by simp [sizeofCmd, sizeofMboxHdr]; omega)
  simp only [bytes, hdr, hlen, le16, List.cons_append, List.nil_append, List.getElem?_cons_succ,
    List.getElem?_cons_zero, Option.some.injEq] at h2 h3
  rw [read16, Nat.add_assoc a 2 1, h2, h3]
  simp only [sizeofCmd, sizeofMboxHdr, sizeofMboxHdrWmi, UInt8.toNat_ofNat'] at *
  omega

end WmiCmd

/-- The bytes of commands that are numbered from `seq + 1` on. -/
def numbered (seq : ℕ) (cmds : List WmiCmd) : List (List UInt8) :=
  cmds.mapIdx fun j c => c.bytes (u16 (seq + 1 + j))

@[simp] lemma length_numbered (seq : ℕ) (cmds : List WmiCmd) :
    (numbered seq cmds).length = cmds.length :=
  List.length_mapIdx

lemma numbered_concat (seq : ℕ) (cmds : List WmiCmd) (c : WmiCmd) :
    numbered seq (cmds ++ [c]) = numbered seq cmds ++ [c.bytes (u16 (seq + 1 + cmds.length))] := by
  rw [numbered, List.mapIdx_append]
  simp [numbered]

/-! ## The machine -/

/-- What `__wmi_send` reads and writes; `mem` is the memory of the card. -/
structure WmiTx where
  mem : ℕ → UInt8
  /-- `wil_status_fwready` -/
  fwready : Bool
  wmiSeq : ℕ
  /-- `mbox_ctl.tx` -/
  tx : MboxRing

/-- Where `__wmi_send` is: about to read the descriptor at `head`, with so many reads left; about
to read `tail`, likewise, having read the address `addr` in the descriptor; about to write word `i`
to the buffer `dst`, or `sync` when all are written; about to advance `head`. -/
inductive SendPc
  | head (retry : ℕ)
  | tail (retry addr : ℕ)
  | copy (dst i : ℕ)
  | advance

/-- What is known of the last call: its return code, `head` and `wmi_seq` when it began, and the
offsets it wrote to. -/
structure SendCall where
  rc : ℤ
  head : ℕ
  seq : ℕ
  writes : List ℕ

/-- Where the firmware is: between two commands, behind its read, behind its clear. -/
inductive FwStage
  | idle
  | read
  | cleared
  deriving DecidableEq

structure SendSys where
  wil : WmiTx
  /-- the call that holds `wmi_mutex` -/
  send : Option (WmiCmd × SendPc)
  fw : FwStage
  call : SendCall
  /-- the commands whose `sync` was set, in order -/
  sent : List WmiCmd
  /-- the commands whose call returned zero, in order -/
  returned : List WmiCmd
  /-- what the firmware read, in order -/
  consumed : List (List UInt8)

inductive SendAction
  | call (cmd : WmiCmd)
  /-- The next step of `__wmi_send`. -/
  | send
  | fwRead
  | fwClear
  | fwAdvance
  /-- The firmware becomes ready, or stops being so. -/
  | setFwready (ready : Bool)

namespace SendSys

/-- `return rc` -/
def ret (s : SendSys) (rc : ℤ) : SendSys := { s with send := none, call := { s.call with rc := rc } }

/-- A write to the memory of the card by `__wmi_send`. -/
def poke (s : SendSys) (off : ℕ) (bs : List UInt8) : SendSys :=
  { s with
    wil := { s.wil with mem := write s.wil.mem off bs }
    call := { s.call with writes := off :: s.call.writes } }

/-- `__wmi_send`, up to its first access to the memory of the card. -/
def begin (s : SendSys) (cmd : WmiCmd) : SendSys :=
  let s := { s with call := ⟨0, s.wil.tx.head, s.wil.wmiSeq, []⟩ }
  if WmiCmd.sizeofCmd + cmd.len > s.wil.tx.entrySize then s.ret eRange
  else if ¬ s.wil.fwready then s.ret eAgain
  else if (wmiAddr s.wil.tx.head).isNone then s.ret eInval
  else { s with send := some (cmd, .head 5) }

/-- The read of the descriptor at `head`, in the loop "read Tx head till it is not busy". -/
def readHead (s : SendSys) (cmd : WmiCmd) (retry : ℕ) : SendSys :=
  let off := hostaddr s.wil.tx.head
  if read32 s.wil.mem off = 0 then
    { s with send := some (cmd, .tail 5 (read32 s.wil.mem (off + 4))) }
  else if retry ≤ 1 then s.ret eBusy
  else { s with send := some (cmd, .head (retry - 1)) }

/-- The read of `tail`, in the loop "wait till FW finish with previous command", and the end of the
loop up to the first write. -/
def readTail (s : SendSys) (cmd : WmiCmd) (retry addr : ℕ) : SendSys :=
  let tail := read32 s.wil.mem mboxTxTail
  let s := { s with wil := { s.wil with tx := { s.wil.tx with tail := tail } } }
  if s.wil.tx.next s.wil.tx.head ≠ tail then
    match wmiBuffer addr with
    | none => s.ret eInval
    | some dst =>
        { s with
          wil := { s.wil with wmiSeq := u16 (s.wil.wmiSeq + 1) }
          send := some (cmd, .copy dst 0) }
  else if retry ≤ 1 then s.ret eBusy
  else { s with send := some (cmd, .tail (retry - 1) addr) }

/-- A word of the command, or "mark entry as full". -/
def copyWord (s : SendSys) (cmd : WmiCmd) (dst i : ℕ) : SendSys :=
  if i < cmd.words then
    { s.poke (dst + 4 * i) (word (cmd.stream s.wil.wmiSeq) i) with
      send := some (cmd, .copy dst (i + 1)) }
  else
    { s.poke (hostaddr s.wil.tx.head) (le32 1) with
      send := some (cmd, .advance)
      sent := s.sent ++ [cmd] }

/-- "advance next ptr", to the address `next`. -/
def writeHead (s : SendSys) (cmd : WmiCmd) (next : ℕ) : SendSys :=
  let s := s.poke mboxTxHead (le32 next)
  { s with
    wil := { s.wil with tx := { s.wil.tx with head := next } }
    send := none
    call := { s.call with rc := 0 }
    returned := s.returned ++ [cmd] }

/-- One step.  The mutex lets a call in when no other is on its way. -/
def step (s : SendSys) : SendAction → Option SendSys
  | .call cmd => if s.send.isNone then some (s.begin cmd) else none
  | .send =>
      match s.send with
      | none => none
      | some (cmd, .head retry) => some (s.readHead cmd retry)
      | some (cmd, .tail retry addr) => some (s.readTail cmd retry addr)
      | some (cmd, .copy dst i) => some (s.copyWord cmd dst i)
      | some (cmd, .advance) => some (s.writeHead cmd (s.wil.tx.next s.wil.tx.head))
  | .fwRead =>
      let off := hostaddr (read32 s.wil.mem mboxTxTail)
      if s.fw = .idle ∧ read32 s.wil.mem off = 1 then
        (wmiBuffer (read32 s.wil.mem (off + 4))).map fun src =>
          { s with
            fw := .read
            consumed := s.consumed ++
              [read s.wil.mem src (sizeofMboxHdr + read16 s.wil.mem (src + 2))] }
      else none
  | .fwClear =>
      if s.fw = .read then
        some { s with
          fw := .cleared
          wil := { s.wil with
            mem := write32 s.wil.mem (hostaddr (read32 s.wil.mem mboxTxTail)) 0 } }
      else none
  | .fwAdvance =>
      if s.fw = .cleared then
        some { s with
          fw := .idle
          wil := { s.wil with
            mem := write32 s.wil.mem mboxTxTail
              (s.wil.tx.next (read32 s.wil.mem mboxTxTail)) } }
      else none
  | .setFwready ready => some { s with wil := { s.wil with fwready := ready } }

end SendSys

/-- The ring is empty, at any place, and no call is on its way. -/
structure MailboxStart (r : MboxArea) (buf : ℕ → ℕ) (start seq : ℕ) (s : SendSys) : Prop where
  layout : MboxLayout r buf
  area : s.wil.tx.toMboxArea = r
  head : s.wil.tx.head = r.slot start
  tail : read32 s.wil.mem mboxTxTail = r.slot start
  sync : ∀ k < r.slots, read32 s.wil.mem (r.desc k) = 0
  addrs : ∀ k < r.slots, wmiBuffer (read32 s.wil.mem (r.desc k + 4)) = some (buf k)
  seq : s.wil.wmiSeq = u16 seq
  idle : s.send = none ∧ s.fw = .idle ∧ s.call.rc = 0 ∧ s.call.writes = []
  fresh : s.sent = [] ∧ s.returned = [] ∧ s.consumed = []

/-- **The mailbox is a FIFO**, in a state reached from an empty ring at position `start`: what the
firmware read is a prefix of what was sent; all that was sent was returned from, but for a command
whose call is about to return; every command that was not read is in its buffer; a call writes to
the buffer and the `sync` of its own descriptor and to `head`; a call that failed wrote nothing and
left `head` and `wmi_seq`. -/
structure MailboxOk (r : MboxArea) (buf : ℕ → ℕ) (start seq : ℕ) (s : SendSys) : Prop where
  fifo : s.consumed <+: numbered seq s.sent
  returned : s.sent = s.returned ∨
    ∃ cmd, s.sent = s.returned ++ [cmd] ∧ s.send = some (cmd, .advance)
  unread : ∀ j (hj : j < s.sent.length), s.consumed.length ≤ j →
    read s.wil.mem (buf ((start + j) % r.slots)) (WmiCmd.sizeofCmd + s.sent[j].len)
      = s.sent[j].bytes (u16 (seq + 1 + j))
  inSlot : ∀ off ∈ s.call.writes, off = mboxTxHead ∨ ∃ k < r.slots,
    s.call.head = r.base + 8 * k ∧
      (off = r.desc k ∨ buf k ≤ off ∧ off + 4 ≤ buf k + r.entrySize)
  failed : s.send = none → s.call.rc ≠ 0 →
    s.call.writes = [] ∧ s.wil.tx.head = s.call.head ∧ s.wil.wmiSeq = s.call.seq

/-! ## The invariant -/

/-- Whether `sync` of the command that was read last is still set. -/
def FwStage.held : FwStage → ℕ
  | .read => 1
  | .idle | .cleared => 0

/-- Whether `tail` is still at the command that was read last. -/
def FwStage.behind : FwStage → ℕ
  | .read | .cleared => 1
  | .idle => 0

/-- All commands that were sent were returned from, and `head` and `wmi_seq` count them. -/
structure SendSys.Clean (r : MboxArea) (start seq : ℕ) (s : SendSys) : Prop where
  returned : s.returned = s.sent
  head : s.wil.tx.head = r.slot (start + s.sent.length)
  seq : s.wil.wmiSeq = u16 (seq + s.sent.length)

/-- The last call has left no trace. -/
def SendSys.Untouched (s : SendSys) : Prop :=
  s.call.writes = [] ∧ s.wil.tx.head = s.call.head ∧ s.wil.wmiSeq = s.call.seq

/-- What holds of the call that is on its way.  While it copies, the buffer of the next position
holds the words written so far, and a descriptor stays free behind it. -/
def SendPhase (r : MboxArea) (buf : ℕ → ℕ) (start seq : ℕ) (s : SendSys) (t : ℕ) : Prop :=
  match s.send with
  | none => s.Clean r start seq ∧ (s.call.rc ≠ 0 → s.Untouched)
  | some (cmd, pc) => WmiCmd.sizeofCmd + cmd.len ≤ r.entrySize ∧
      match pc with
      | .head _ => s.Clean r start seq ∧ s.Untouched
      | .tail _ addr => s.Clean r start seq ∧ s.Untouched ∧
          wmiBuffer addr = some (buf ((start + s.sent.length) % r.slots))
      | .copy dst i => s.returned = s.sent ∧ s.wil.tx.head = r.slot (start + s.sent.length) ∧
          s.call.head = r.slot (start + s.sent.length) ∧
          s.wil.wmiSeq = u16 (seq + 1 + s.sent.length) ∧
          dst = buf ((start + s.sent.length) % r.slots) ∧
          start + s.sent.length + 1 < t + r.slots ∧ i ≤ cmd.words ∧
          ByteMemory.Holds s.wil.mem dst (cmd.stream s.wil.wmiSeq) (4 * i)
      | .advance => s.sent = s.returned ++ [cmd] ∧
          s.wil.tx.head = r.slot (start + s.returned.length) ∧
          s.wil.wmiSeq = u16 (seq + s.sent.length)

/-- With `tail` at position `t`, and `sync` set from position `c` on. -/
structure SendInv (r : MboxArea) (buf : ℕ → ℕ) (start seq : ℕ) (s : SendSys) (t c : ℕ) : Prop where
  area : s.wil.tx.toMboxArea = r
  read_pos : c + s.fw.held = start + s.consumed.length
  tail_pos : t + s.fw.behind = start + s.consumed.length
  room : start + s.sent.length < t + r.slots
  mem : MboxMem r buf start (numbered seq s.sent) mboxTxTail t c s.wil.mem
  fifo : s.consumed <+: numbered seq s.sent
  inSlot : ∀ off ∈ s.call.writes, off = mboxTxHead ∨ ∃ k < r.slots,
    s.call.head = r.base + 8 * k ∧
      (off = r.desc k ∨ buf k ≤ off ∧ off + 4 ≤ buf k + r.entrySize)
  phase : SendPhase r buf start seq s t

section Invariant

variable {r : MboxArea} {buf : ℕ → ℕ} {start seq t c : ℕ} {s u : SendSys}

lemma SendInv.tail_le (h : SendInv r buf start seq s t c) : t ≤ c := by
  have := h.read_pos
  have := h.tail_pos
  cases hfw : s.fw <;> simp only [hfw, FwStage.held, FwStage.behind] at * <;> omega

lemma SendInv.consumed_le (h : SendInv r buf start seq s t c) :
    s.consumed.length ≤ s.sent.length := by
  simpa using h.fifo.length_le

/-- The bytes of a command that was not read. -/
lemma SendInv.read_eq (h : SendInv r buf start seq s t c) {j : ℕ} (hj : j < s.sent.length)
    (hc : c ≤ start + j) :
    read s.wil.mem (buf ((start + j) % r.slots)) (WmiCmd.sizeofCmd + s.sent[j].len)
      = s.sent[j].bytes (u16 (seq + 1 + j)) := by
  simpa [numbered, WmiCmd.length_bytes] using h.mem.held j (by simpa using hj) hc

lemma SendInv.fits (h : SendInv r buf start seq s t c) {j : ℕ} (hj : j < s.sent.length) :
    WmiCmd.sizeofCmd + s.sent[j].len ≤ r.entrySize := by
  have hmem : s.sent[j].bytes (u16 (seq + 1 + j)) ∈ numbered seq s.sent :=
    List.mem_mapIdx.mpr ⟨j, hj, rfl⟩
  simpa [WmiCmd.length_bytes] using h.mem.fits _ hmem

lemma sendInv_start (h : MailboxStart r buf start seq s) :
    SendInv r buf start seq s start start := by
  obtain ⟨hsend, hfw, hrc, hwrites⟩ := h.idle
  obtain ⟨hsent, hreturned, hconsumed⟩ := h.fresh
  have hslots := h.layout.slots_pos
  refine ⟨h.area, by simp [hfw, hconsumed, FwStage.held], by simp [hfw, hconsumed, FwStage.behind],
    by simp [hsent, hslots], ?_, by simp [hconsumed], ?_, ?_⟩
  · refine ⟨h.tail, fun k hk' _ => ?_, h.addrs, ?_, by simp [hsent, numbered]⟩
    · show read32 s.wil.mem (r.desc (k % r.slots)) ≠ 0 ↔ _
      rw [h.sync _ (h.layout.mod_lt k), hsent]
      simpa [numbered] using hk'
    · intro j hj
      simp [hsent] at hj
  · simp [hwrites]
  · simp only [SendPhase, hsend]
    exact ⟨⟨by rw [hreturned, hsent], by simp [hsent, h.head], by simp [hsent, h.seq]⟩,
      fun hne => absurd hrc hne⟩

/-- The call returns an error, and left no trace. -/
lemma SendInv.ret (h : SendInv r buf start seq s t c) (hclean : s.Clean r start seq)
    (huntouched : s.Untouched) (rc : ℤ) : SendInv r buf start seq (s.ret rc) t c :=
  ⟨h.area, h.read_pos, h.tail_pos, h.room, h.mem, h.fifo, h.inSlot,
    ⟨⟨hclean.returned, hclean.head, hclean.seq⟩, fun _ => huntouched⟩⟩

/-- A call begins. -/
lemma SendInv.begin (h : SendInv r buf start seq s t c) (hsend : s.send = none) (cmd : WmiCmd) :
    SendInv r buf start seq (s.begin cmd) t c := by
  have hphase := h.phase
  simp only [SendPhase, hsend] at hphase
  have hclean := hphase.1
  set v : SendSys := { s with call := ⟨0, s.wil.tx.head, s.wil.wmiSeq, []⟩ } with hv
  have hcleanv : v.Clean r start seq := ⟨hclean.returned, hclean.head, hclean.seq⟩
  have hinv : SendInv r buf start seq v t c := by
    refine ⟨h.area, h.read_pos, h.tail_pos, h.room, h.mem, h.fifo, by simp [hv], ?_⟩
    simp only [SendPhase, hv, hsend]
    exact ⟨⟨hclean.returned, hclean.head, hclean.seq⟩, fun hne => absurd rfl hne⟩
  have huntouched : v.Untouched := ⟨rfl, rfl, rfl⟩
  simp only [SendSys.begin, ← hv]
  split_ifs with hsize hready hhead
  · exact hinv.ret hcleanv huntouched _
  · exact hinv.ret hcleanv huntouched _
  · have hentry : s.wil.tx.entrySize = r.entrySize := by rw [← h.area]
    exact ⟨hinv.area, hinv.read_pos, hinv.tail_pos, hinv.room, hinv.mem, hinv.fifo, hinv.inSlot,
      by omega, ⟨hclean.returned, hclean.head, hclean.seq⟩, huntouched⟩
  · exact hinv.ret hcleanv huntouched _

/-- The read of the descriptor at `head`. -/
lemma SendInv.readHead (h : SendInv r buf start seq s t c) (L : MboxLayout r buf) {cmd : WmiCmd}
    {retry : ℕ} (hsend : s.send = some (cmd, .head retry)) :
    SendInv r buf start seq (s.readHead cmd retry) t c := by
  have hphase := h.phase
  simp only [SendPhase, hsend] at hphase
  obtain ⟨hfits, hclean, huntouched⟩ := hphase
  have hcleanv : ∀ v : Option (WmiCmd × SendPc), ({ s with send := v }).Clean r start seq :=
    fun v => ⟨hclean.returned, hclean.head, hclean.seq⟩
  simp only [SendSys.readHead]
  split_ifs with hsync hretry
  · refine ⟨h.area, h.read_pos, h.tail_pos, h.room, h.mem, h.fifo, h.inSlot, hfits, hcleanv _,
      huntouched, ?_⟩
    rw [hclean.head, L.hostaddr_slot]
    exact h.mem.addrs _ (L.mod_lt _)
  · exact h.ret hclean huntouched _
  · exact ⟨h.area, h.read_pos, h.tail_pos, h.room, h.mem, h.fifo, h.inSlot, hfits, hcleanv _,
      huntouched⟩

/-- The read of `tail`: where it is not the next descriptor, there is room for the command. -/
lemma SendInv.readTail (h : SendInv r buf start seq s t c) (L : MboxLayout r buf) {cmd : WmiCmd}
    {retry addr : ℕ} (hsend : s.send = some (cmd, .tail retry addr)) :
    SendInv r buf start seq (s.readTail cmd retry addr) t c := by
  have hphase := h.phase
  simp only [SendPhase, hsend] at hphase
  obtain ⟨hfits, hclean, huntouched, haddr⟩ := hphase
  set v : SendSys := { s with
    wil := { s.wil with tx := { s.wil.tx with tail := read32 s.wil.mem mboxTxTail } } } with hv
  have hcleanv : v.Clean r start seq := ⟨hclean.returned, hclean.head, hclean.seq⟩
  have huntouchedv : v.Untouched := huntouched
  have hinv : SendInv r buf start seq v t c := by
    refine ⟨h.area, h.read_pos, h.tail_pos, h.room, h.mem, h.fifo, h.inSlot, ?_⟩
    simp only [SendPhase, hv, hsend]
    exact ⟨hfits, ⟨hclean.returned, hclean.head, hclean.seq⟩, huntouched, haddr⟩
  have hnext : v.wil.tx.next v.wil.tx.head = r.slot (start + s.sent.length + 1) := by
    rw [show v.wil.tx.toMboxArea = r from h.area, hcleanv.head]
    exact L.next_slot _
  simp only [SendSys.readTail, ← hv]
  split_ifs with hfull hretry
  · rw [haddr]
    have hroom : start + s.sent.length + 1 < t + r.slots := by
      refine lt_of_le_of_ne h.room fun heq => hfull ?_
      rw [hnext, heq, MboxArea.slot_add, h.mem.pointer]
    refine ⟨h.area, h.read_pos, h.tail_pos, h.room, h.mem, h.fifo, h.inSlot, hfits,
      hclean.returned, hclean.head, ?_, ?_, rfl, hroom, Nat.zero_le _, holds_zero _ _ _⟩
    · exact huntouched.2.1.symm.trans hclean.head
    · have hseq := hclean.seq
      simp only [hseq, u16]
      omega
  · exact hinv.ret hcleanv huntouchedv _
  · exact ⟨h.area, h.read_pos, h.tail_pos, h.room, h.mem, h.fifo, h.inSlot, hfits,
      ⟨hclean.returned, hclean.head, hclean.seq⟩, huntouched, haddr⟩

/-- A word is copied. -/
lemma SendInv.copy (h : SendInv r buf start seq s t c) (L : MboxLayout r buf) {cmd : WmiCmd}
    {dst i : ℕ} (hsend : s.send = some (cmd, .copy dst i)) (hi : i < cmd.words) :
    SendInv r buf start seq { s.poke (dst + 4 * i) (word (cmd.stream s.wil.wmiSeq) i) with
      send := some (cmd, .copy dst (i + 1)) } t c := by
  have hphase := h.phase
  simp only [SendPhase, hsend] at hphase
  obtain ⟨hfits, hreturned, hhead, hcall, hseq, rfl, hroom, -, hheld⟩ := hphase
  have htc := h.tail_le
  have hwords := cmd.words_le L.entry_dvd hfits
  have hmem : MboxMem r buf start (numbered seq s.sent) mboxTxTail t c
      (write s.wil.mem (buf ((start + s.sent.length) % r.slots) + 4 * i)
        (word (cmd.stream s.wil.wmiSeq) i)) := by
    refine h.mem.write_buf L mboxTxTail_ctl ?_ ?_ ?_ <;> rw [length_numbered]
    · omega
    · omega
    · rw [length_word]
      omega
  refine ⟨h.area, h.read_pos, h.tail_pos, h.room, hmem, h.fifo, ?_, hfits, hreturned, hhead,
    hcall, hseq, rfl, hroom, hi, hheld.write_word⟩
  intro off hoff
  rcases List.mem_cons.mp hoff with rfl | hoff
  · exact Or.inr ⟨_, L.mod_lt _, hcall, Or.inr ⟨by omega, by omega⟩⟩
  · exact h.inSlot off hoff

/-- `sync` is set, at the offset `off` of the descriptor. -/
lemma SendInv.mark (h : SendInv r buf start seq s t c) (L : MboxLayout r buf) {cmd : WmiCmd}
    {dst i off : ℕ} (hsend : s.send = some (cmd, .copy dst i)) (hi : cmd.words ≤ i)
    (hoff : off = r.desc ((start + s.sent.length) % r.slots)) :
    SendInv r buf start seq { s.poke off (le32 1) with
      send := some (cmd, .advance)
      sent := s.sent ++ [cmd] } t c := by
  have hphase := h.phase
  simp only [SendPhase, hsend] at hphase
  obtain ⟨hfits, hreturned, hhead, hcall, hseq, rfl, hroom, -, hheld⟩ := hphase
  have htc := h.tail_le
  have hwords := cmd.words_le L.entry_dvd hfits
  rw [hseq] at hheld
  have hmem : MboxMem r buf start (numbered seq (s.sent ++ [cmd])) mboxTxTail t c
      (write32 s.wil.mem off 1) := by
    have hread := h.read_pos
    have hle := h.consumed_le
    rw [numbered_concat, hoff, ← length_numbered seq s.sent]
    refine h.mem.mark L mboxTxTail_ctl ?_ ?_ ?_ ?_
    · rw [length_numbered]
      omega
    · rw [length_numbered]
      omega
    · rwa [WmiCmd.length_bytes]
    · rw [WmiCmd.length_bytes, length_numbered, ← WmiCmd.map_stream]
      exact (hheld.mono (by omega)).read_eq
  refine ⟨h.area, h.read_pos, h.tail_pos, ?_, hmem, ?_, ?_, hfits, ?_, ?_, ?_⟩
  · simpa [← Nat.add_assoc] using hroom
  · refine h.fifo.trans ?_
    rw [numbered_concat]
    exact List.prefix_append _ _
  · intro o ho
    rcases List.mem_cons.mp ho with rfl | ho
    · exact Or.inr ⟨_, L.mod_lt _, hcall, Or.inl hoff⟩
    · exact h.inSlot o ho
  · exact congrArg (· ++ [cmd]) hreturned.symm
  · exact hhead.trans (by rw [← hreturned]; rfl)
  · refine hseq.trans ?_
    simp only [List.length_append, List.length_singleton]
    rw [show seq + 1 + s.sent.length = seq + (s.sent.length + 1) by omega]

/-- A word is copied, or `sync` is set. -/
lemma SendInv.copyWord (h : SendInv r buf start seq s t c) (L : MboxLayout r buf) {cmd : WmiCmd}
    {dst i : ℕ} (hsend : s.send = some (cmd, .copy dst i)) :
    SendInv r buf start seq (s.copyWord cmd dst i) t c := by
  have hphase := h.phase
  simp only [SendPhase, hsend] at hphase
  have hhead := hphase.2.2.1
  rw [SendSys.copyWord]
  by_cases hmore : i < cmd.words
  · rw [if_pos hmore]
    exact h.copy L hsend hmore
  · rw [if_neg hmore]
    exact h.mark L hsend (Nat.le_of_not_lt hmore) (by rw [hhead, L.hostaddr_slot])

/-- `head` advances, and the call returns. -/
lemma SendInv.writeHead (h : SendInv r buf start seq s t c) (L : MboxLayout r buf) {cmd : WmiCmd}
    {next : ℕ} (hsend : s.send = some (cmd, .advance))
    (hnext : next = r.slot (start + s.sent.length)) :
    SendInv r buf start seq (s.writeHead cmd next) t c := by
  have hphase := h.phase
  simp only [SendPhase, hsend] at hphase
  obtain ⟨-, hsent, -, hseq⟩ := hphase
  have htail : read32 (write s.wil.mem mboxTxHead (le32 next)) mboxTxTail = r.slot t := by
    have happart : Apart mboxTxHead (le32 next).length mboxTxTail 4 :=
      Or.inr (Nat.add_le_add_left (show 8 + 4 ≤ 12 by decide) hostMbox)
    rw [read32_write_apart happart]
    exact h.mem.pointer
  refine ⟨h.area, h.read_pos, h.tail_pos, h.room,
    h.mem.write_ctl L mboxTxHead_ctl.1 mboxTxHead_ctl.2 rfl htail, h.fifo, ?_,
    ⟨hsent.symm, hnext, hseq⟩, fun hne => absurd rfl hne⟩
  intro o ho
  rcases List.mem_cons.mp ho with rfl | ho
  · exact Or.inl rfl
  · exact h.inSlot o ho

/-! ## The firmware -/

/-- The call does not see what the firmware does, unless it is copying. -/
lemma SendPhase.of_fw {mem : ℕ → UInt8} {fw : FwStage} {consumed : List (List UInt8)} {t' : ℕ}
    (h : SendPhase r buf start seq s t) (htt : t ≤ t')
    (hmem : ∀ (f : ℕ → UInt8) (n : ℕ), n ≤ r.entrySize →
      ByteMemory.Holds s.wil.mem (buf ((start + s.sent.length) % r.slots)) f n →
      ByteMemory.Holds mem (buf ((start + s.sent.length) % r.slots)) f n) (L : MboxLayout r buf) :
    SendPhase r buf start seq
      { s with wil := { s.wil with mem := mem }, fw := fw, consumed := consumed } t' := by
  rcases hsend : s.send with _ | ⟨cmd, retry | ⟨retry, addr⟩ | ⟨dst, i⟩ | _⟩ <;>
    simp only [SendPhase, hsend] at h ⊢
  · exact ⟨⟨h.1.returned, h.1.head, h.1.seq⟩, h.2⟩
  · exact ⟨h.1, ⟨h.2.1.returned, h.2.1.head, h.2.1.seq⟩, h.2.2⟩
  · exact ⟨h.1, ⟨h.2.1.returned, h.2.1.head, h.2.1.seq⟩, h.2.2⟩
  · obtain ⟨hfits, hreturned, hhead, hcall, hseq, rfl, hroom, hi, hheld⟩ := h
    have hwords := (cmd.words_le L.entry_dvd hfits).1
    exact ⟨hfits, hreturned, hhead, hcall, hseq, rfl, by omega, hi, hmem _ _ (by omega) hheld⟩
  · exact h

/-- A step of the firmware. -/
lemma SendInv.of_fw (h : SendInv r buf start seq s t c) (L : MboxLayout r buf)
    {mem : ℕ → UInt8} {fw : FwStage} {consumed : List (List UInt8)} {t' c' : ℕ}
    (hread : c' + fw.held = start + consumed.length)
    (htail : t' + fw.behind = start + consumed.length) (htt : t ≤ t')
    (hmem : MboxMem r buf start (numbered seq s.sent) mboxTxTail t' c' mem)
    (hfifo : consumed <+: numbered seq s.sent)
    (hbuf : ∀ (f : ℕ → UInt8) (n : ℕ), n ≤ r.entrySize →
      ByteMemory.Holds s.wil.mem (buf ((start + s.sent.length) % r.slots)) f n →
      ByteMemory.Holds mem (buf ((start + s.sent.length) % r.slots)) f n) :
    SendInv r buf start seq
      { s with wil := { s.wil with mem := mem }, fw := fw, consumed := consumed } t' c' :=
  ⟨h.area, hread, htail, lt_of_lt_of_le h.room (Nat.add_le_add_right htt _), hmem, hfifo, h.inSlot,
    h.phase.of_fw htt hbuf L⟩

/-- Between two commands, the descriptor at `tail` has its `sync` set where a command waits. -/
lemma SendInv.sync_tail (h : SendInv r buf start seq s t c) (L : MboxLayout r buf)
    (hfw : s.fw = .idle)
    (hsync : read32 s.wil.mem (hostaddr (read32 s.wil.mem mboxTxTail)) = 1) :
    t = start + s.consumed.length ∧ c = start + s.consumed.length ∧
      s.consumed.length < s.sent.length := by
  have hread := h.read_pos
  have htail := h.tail_pos
  simp only [hfw, FwStage.held, FwStage.behind, Nat.add_zero] at hread htail
  rw [h.mem.pointer, L.hostaddr_slot, htail, ← hread] at hsync
  have hslots := L.slots_pos
  have hne : read32 s.wil.mem (r.desc (c % r.slots)) ≠ 0 := by
    rw [hsync]
    decide
  have hlt := (h.mem.marked c le_rfl (by omega)).mp hne
  rw [length_numbered] at hlt
  exact ⟨htail, hread, by omega⟩

lemma prefix_concat {α : Type*} {l m : List α} (h : l <+: m) (hlt : l.length < m.length) :
    l ++ [m[l.length]] <+: m := by
  obtain ⟨k, rfl⟩ := h
  cases k with
  | nil => simp at hlt
  | cons x k => exact ⟨k, by simp⟩

/-- The firmware reads the next command. -/
lemma SendInv.fwRead (h : SendInv r buf start seq s t c) (L : MboxLayout r buf)
    (hu : s.step .fwRead = some u) : SendInv r buf start seq u t c := by
  obtain ⟨hready, hu⟩ := Option.ite_none_right_eq_some.mp hu
  obtain ⟨hfw, hsync⟩ := hready
  obtain ⟨rfl, rfl, hlt⟩ := h.sync_tail L hfw hsync
  obtain ⟨src, hsrc, rfl⟩ := Option.map_eq_some_iff.mp hu
  rw [h.mem.pointer, L.hostaddr_slot, h.mem.addrs _ (L.mod_lt _)] at hsrc
  obtain rfl := Option.some.inj hsrc
  have hbytes := h.read_eq hlt le_rfl
  have hfits := h.fits hlt
  rw [WmiCmd.read_len _ _ (lt_of_le_of_lt hfits L.entry_lt) hbytes, hbytes]
  refine h.of_fw L ?_ ?_ le_rfl h.mem ?_ fun _ _ _ hheld => hheld
  · simp [FwStage.held, Nat.add_assoc]
  · simp [FwStage.behind, Nat.add_assoc]
  · have hnext : s.consumed.length < (numbered seq s.sent).length := by
      simpa using hlt
    simpa [numbered] using prefix_concat h.fifo hnext

/-- The firmware clears `sync`. -/
lemma SendInv.fwClear (h : SendInv r buf start seq s t c) (L : MboxLayout r buf)
    (hu : s.step .fwClear = some u) : SendInv r buf start seq u t (c + 1) := by
  obtain ⟨hfw, hu⟩ := Option.ite_none_right_eq_some.mp hu
  obtain rfl := Option.some.inj hu
  have hread := h.read_pos
  have htail := h.tail_pos
  have hroom := h.room
  simp only [hfw, FwStage.held, FwStage.behind] at hread htail
  obtain rfl : t = c := by omega
  rw [h.mem.pointer, L.hostaddr_slot]
  refine h.of_fw L ?_ ?_ le_rfl (h.mem.clear L mboxTxTail_ctl ?_) h.fifo ?_
  · simpa [FwStage.held] using hread
  · simpa [FwStage.behind] using htail
  · rw [length_numbered]
    omega
  · intro f n hn hheld
    refine hheld.write_apart ?_
    have := (h.mem.write_sync L mboxTxTail_ctl (L.mod_lt t) 0).2.2.2 _
      (L.mod_lt (start + s.sent.length))
    unfold Apart at *
    rw [length_le32]
    omega

/-- The firmware advances `tail`. -/
lemma SendInv.fwAdvance (h : SendInv r buf start seq s t c) (L : MboxLayout r buf)
    (hu : s.step .fwAdvance = some u) : SendInv r buf start seq u (t + 1) c := by
  obtain ⟨hfw, hu⟩ := Option.ite_none_right_eq_some.mp hu
  obtain rfl := Option.some.inj hu
  have hread := h.read_pos
  have htail := h.tail_pos
  have hroom := h.room
  simp only [hfw, FwStage.held, FwStage.behind] at hread htail
  have hnext : s.wil.tx.next (read32 s.wil.mem mboxTxTail) = r.slot (t + 1) := by
    rw [show s.wil.tx.toMboxArea = r from h.area, h.mem.pointer, L.next_slot]
  rw [hnext]
  refine h.of_fw L ?_ ?_ (Nat.le_succ t)
    (h.mem.write_ctl L mboxTxTail_ctl.1 mboxTxTail_ctl.2 rfl ?_) h.fifo ?_
  · simpa [FwStage.held] using hread
  · simpa [FwStage.behind] using htail
  · exact read32_write32 _ _ (L.slot_lt _)
  · intro f n hn hheld
    refine hheld.write_apart ?_
    have := L.bufs_ctl _ (L.mod_lt (start + s.sent.length))
    unfold Apart mboxTxTail sizeofMboxCtl at *
    rw [length_le32]
    omega

/-! ## Every run -/

/-- **Every step keeps the invariant.** -/
theorem SendInv.step (L : MboxLayout r buf) (h : SendInv r buf start seq s t c) {a : SendAction}
    (hu : s.step a = some u) : ∃ t' c', SendInv r buf start seq u t' c' := by
  cases a with
  | call cmd =>
      obtain ⟨hfree, hu⟩ := Option.ite_none_right_eq_some.mp hu
      obtain rfl := Option.some.inj hu
      exact ⟨t, c, h.begin (Option.isNone_iff_eq_none.mp hfree) cmd⟩
  | send =>
      rcases hsend : s.send with _ | ⟨cmd, retry | ⟨retry, addr⟩ | ⟨dst, i⟩ | _⟩ <;>
        simp only [SendSys.step, hsend, reduceCtorEq, Option.some.injEq] at hu
      · exact ⟨t, c, hu ▸ h.readHead L hsend⟩
      · exact ⟨t, c, hu ▸ h.readTail L hsend⟩
      · exact ⟨t, c, hu ▸ h.copyWord L hsend⟩
      · have hphase := h.phase
        simp only [SendPhase, hsend] at hphase
        obtain ⟨-, hsent, hhead, -⟩ := hphase
        have hnext : s.wil.tx.next s.wil.tx.head = r.slot (start + s.sent.length) := by
          rw [show s.wil.tx.toMboxArea = r from h.area, hhead, L.next_slot, hsent]
          simp [Nat.add_assoc]
        exact ⟨t, c, hu ▸ h.writeHead L hsend hnext⟩
  | fwRead => exact ⟨t, c, h.fwRead L hu⟩
  | fwClear => exact ⟨t, c + 1, h.fwClear L hu⟩
  | fwAdvance => exact ⟨t + 1, c, h.fwAdvance L hu⟩
  | setFwready ready =>
      obtain rfl := Option.some.inj hu
      refine ⟨t, c, h.area, h.read_pos, h.tail_pos, h.room, h.mem, h.fifo, h.inSlot, ?_⟩
      have hphase := h.phase
      rcases hsend : s.send with _ | ⟨cmd, retry | ⟨retry, addr⟩ | ⟨dst, i⟩ | _⟩ <;>
        simp only [SendPhase, hsend] at hphase ⊢
      · exact ⟨⟨hphase.1.returned, hphase.1.head, hphase.1.seq⟩, hphase.2⟩
      · exact ⟨hphase.1, ⟨hphase.2.1.returned, hphase.2.1.head, hphase.2.1.seq⟩, hphase.2.2⟩
      · exact ⟨hphase.1, ⟨hphase.2.1.returned, hphase.2.1.head, hphase.2.1.seq⟩, hphase.2.2⟩
      · exact hphase
      · exact hphase

lemma SendInv.ok (h : SendInv r buf start seq s t c) :
    MailboxOk r buf start seq s := by
  refine ⟨h.fifo, ?_, fun j hj hread => ?_, h.inSlot, fun hsend hne => ?_⟩
  · have hphase := h.phase
    rcases hsend : s.send with _ | ⟨cmd, retry | ⟨retry, addr⟩ | ⟨dst, i⟩ | _⟩ <;>
      simp only [SendPhase, hsend] at hphase
    · exact Or.inl hphase.1.returned.symm
    · exact Or.inl hphase.2.1.returned.symm
    · exact Or.inl hphase.2.1.returned.symm
    · exact Or.inl hphase.2.1.symm
    · exact Or.inr ⟨cmd, hphase.2.1, rfl⟩
  · exact h.read_eq hj (by have := h.read_pos; omega)
  · have hphase := h.phase
    simp only [SendPhase, hsend] at hphase
    exact hphase.2 hne

end Invariant

/-- **The mailbox is a loss-free FIFO with atomic failures**: from an empty ring, anywhere in the
memory of the card and with any sequence number, in every interleaving of calls of `__wmi_send`
with the steps of the firmware. -/
theorem mailbox_fifo {r : MboxArea} {buf : ℕ → ℕ} {start seq : ℕ} {s t : SendSys}
    {as : List SendAction} (hs : MailboxStart r buf start seq s)
    (h : Machine.Exec SendSys.step (fun _ _ => True) s as t) : MailboxOk r buf start seq t := by
  have hinv : ∃ p c, SendInv r buf start seq t p c :=
    h.invariant (I := fun u => ∃ p c, SendInv r buf start seq u p c)
      (fun _ _ _ _ hu ⟨_, _, hi⟩ => hi.step hs.layout hu) ⟨start, start, sendInv_start hs⟩
  obtain ⟨p, c, hi⟩ := hinv
  exact hi.ok

/-- A ring of two descriptors. -/
def mboxTwo : MboxArea := ⟨0x880400, 32, 16⟩

/-- Its buffers. -/
def mboxTwoBuf (k : ℕ) : ℕ := 0x80000 + 32 * k

/-- The ring, empty, with both of its pointers at the second descriptor. -/
def mboxTwoEmpty : SendSys where
  wil := ⟨write32 (write32 (write32 (fun _ => 0) 0x404 0x800000) 0x40c 0x800020)
    mboxTxTail 0x880408, true, 65535, ⟨mboxTwo, 0x880408, 0x880408⟩⟩
  send := none
  fw := .idle
  call := ⟨0, 0, 0, []⟩
  sent := []
  returned := []
  consumed := []

lemma mboxTwo_layout : MboxLayout mboxTwo mboxTwoBuf := by
  constructor <;> decide

lemma mboxTwoEmpty_start : MailboxStart mboxTwo mboxTwoBuf 1 65535 mboxTwoEmpty := by
  refine ⟨mboxTwo_layout, rfl, ?_, ?_, ?_, ?_, ?_, ⟨rfl, rfl, rfl, rfl⟩, rfl, rfl, rfl⟩ <;>
    decide +kernel

/-- A command of five bytes; the next one waits for the firmware, which has just read the first. -/
theorem mailbox_fifo_two :
    ∃ t : SendSys, MailboxOk mboxTwo mboxTwoBuf 1 65535 t ∧ t.sent.length = 2 ∧
      t.consumed = [[0, 0, 13, 0, 0, 0, 0, 0, 0, 0, 1, 8, 0, 0, 0, 0, 7, 7, 7, 7, 7]] := by
  let cmd : WmiCmd := ⟨0x801, fun _ => 7, 5⟩
  let as : List SendAction := [[.call cmd], List.replicate 10 .send,
    [.fwRead, .call ⟨0x802, fun _ => 8, 0⟩, .send, .send, .fwClear, .send, .fwAdvance],
    List.replicate 7 .send].flatten
  have hrun : (Machine.exec SendSys.step (fun _ _ => True) mboxTwoEmpty as).map
      (fun t => (t.sent.length, t.consumed))
      = some (2, [[0, 0, 13, 0, 0, 0, 0, 0, 0, 0, 1, 8, 0, 0, 0, 0, 7, 7, 7, 7, 7]]) := by
    decide +kernel
  obtain ⟨t, ht, hend⟩ := Option.map_eq_some_iff.mp hrun
  simp only [Prod.mk.injEq] at hend
  exact ⟨t, mailbox_fifo mboxTwoEmpty_start (.of_exec ht), hend⟩

end Wil6210
