import Wil6210.Driver.State
import Wil6210.Rx.Ring
import Wil6210.Wmi.Send

/-!
# The lengths of a command

Three commands end in a part of any length: `wmi_set_ie`, `wmi_tx_eapol` and `wmi_mgmt_tx` allocate
a buffer for the fixed part and for this one, fill it and pass it on.  `__wmi_send` refuses a
command that is longer than an entry of the mailbox, but it takes the length in a `u16`.

`varCmds_whole_iff` says for which lengths a command arrives as it was meant, or an error is
returned.  Where the sum of the fixed part and the other one does not fit in 16 bits, `wmi_set_ie`
writes behind its buffer, and the other two send a command cut short, unless it is still too long
for an entry after the cut.

The mailbox is that of `SendSys`, with the firmware at work, from any empty ring on.
-/

namespace Wil6210

open ByteMemory

/-! ## The three functions -/

/-- What a function has done when it calls `wmi_send` or `wmi_call`: how many bytes it asked
`kmalloc` for, up to where it wrote, and what it passes. -/
structure VarCmd where
  alloc : ℕ
  written : ℕ
  cmd : WmiCmd

/-- `memcpy(buf + a, src + b, n)` -/
def copyTo (buf : ℕ → UInt8) (a : ℕ) (src : ℕ → UInt8) (b n : ℕ) : ℕ → UInt8 :=
  write buf a (read src b n)

/-- `kzalloc(n)`, where it found memory that holds `heap`. -/
def zeroed (heap : ℕ → UInt8) (n : ℕ) : ℕ → UInt8 := write heap 0 (List.replicate n 0)

/-- The MAC address at `a`. -/
def macAt (m : ℕ → UInt8) (a : ℕ) : MacAddr :=
  BitVec.ofNat 48 ((read m a 6).foldl (fun x b => 256 * x + b.toNat) 0)

/-- `sizeof(struct wmi_set_appie_cmd)` -/
def sizeofSetAppieCmd : ℕ := 4

/-- `sizeof(struct wmi_eapol_tx_cmd)` -/
def sizeofEapolTxCmd : ℕ := 8

/-- `sizeof(struct wmi_sw_tx_req_cmd)` -/
def sizeofSwTxReqCmd : ℕ := 8

/-- `WMI_SET_APPIE_CMDID` -/
def wmiSetAppieCmdid : ℕ := 0x003f

/-- `WMI_EAPOL_TX_CMDID` -/
def wmiEapolTxCmdid : ℕ := 0xf04c

/-- `WMI_SW_TX_REQ_CMDID` -/
def wmiSwTxReqCmdid : ℕ := 0x082b

/-- `wmi_set_ie`, up to `wmi_send`.  `kzalloc` is what the memory held that was allocated. -/
def wmiSetIeCmd (type : UInt8) (ieLen : ℕ) (ie : ℕ → UInt8) (kzalloc : Option (ℕ → UInt8)) :
    Except ℤ VarCmd :=
  let len := u16 (sizeofSetAppieCmd + ieLen)
  match kzalloc with
  | none => .error eNomem
  | some heap =>
      let cmd := write (zeroed heap len) 0 [type]
      let cmd := write cmd 2 (le16 ieLen)
      let cmd := copyTo cmd sizeofSetAppieCmd ie 0 ieLen
      .ok ⟨len, sizeofSetAppieCmd + ieLen, wmiSetAppieCmdid, cmd, len⟩

/-- `wmi_tx_eapol`, up to `wmi_send`; `data` is `skb->data` and `len` is `skb->len`. -/
def wmiTxEapolCmd (w : Wil) (data : ℕ → UInt8) (len : ℕ) (kzalloc : Option (ℕ → UInt8)) :
    Except ℤ VarCmd :=
  -- the difference wraps for a packet that is shorter than its header
  let eapolLen := u16 (len + 65536 - ethHlen)
  match wilFindCid w (macAt data 0) with
  | none => .error eInval
  | some _ =>
      match kzalloc with
      | none => .error eInval
      | some heap =>
          let cmd := copyTo (zeroed heap (sizeofEapolTxCmd + eapolLen)) 0 data 0 6
          let cmd := write cmd 6 (le16 eapolLen)
          let cmd := copyTo cmd sizeofEapolTxCmd data ethHlen eapolLen
          .ok ⟨sizeofEapolTxCmd + eapolLen, sizeofEapolTxCmd + eapolLen, wmiEapolTxCmdid, cmd,
            u16 (sizeofEapolTxCmd + eapolLen)⟩

/-- `wmi_mgmt_tx`, up to `wmi_call`; `mgmt_frame->da` is at offset 4. -/
def wmiMgmtTxCmd (buf : ℕ → UInt8) (len : ℕ) (kmalloc : Option (ℕ → UInt8)) : Except ℤ VarCmd :=
  match kmalloc with
  | none => .error eNomem
  | some heap =>
      let cmd := copyTo heap 0 buf 4 6
      let cmd := write cmd 6 (le16 len)
      let cmd := copyTo cmd sizeofSwTxReqCmd buf 0 len
      .ok ⟨sizeT (sizeofSwTxReqCmd + len), sizeofSwTxReqCmd + len, wmiSwTxReqCmdid, cmd,
        u16 (sizeT (sizeofSwTxReqCmd + len))⟩

/-- What `wmi_mgmt_tx` returns, where `__wmi_send` returned `rc` and `reply` is the status in the
completion event, if one came in time. -/
def wmiMgmtTxRc (reply : Option ℕ) (rc : ℤ) : ℤ :=
  if rc ≠ 0 then rc
  else
    match reply with
    | none => eTime
    | some status => if status = 0 then 0 else eInval

/-! ## Whole or refused -/

/-- A `__le16` at an offset. -/
def lenAt (bs : List UInt8) (off : ℕ) : ℕ :=
  (bs.getD off 0).toNat + 256 * (bs.getD (off + 1) 0).toNat

/-- The bytes of a whole command: the headers, the fixed part, and all of the rest; both lengths,
that of the headers and the command's own at `lenOff`, are the true ones. -/
structure WholeCmd (cmd : WmiCmd) (fixed rest : List UInt8) (lenOff : ℕ) (bs : List UInt8) :
    Prop where
  bytes : ∃ seq, bs = cmd.hdr seq ++ fixed ++ rest
  hdr_len : lenAt bs 2 = sizeofMboxHdrWmi + fixed.length + rest.length
  own_len : lenAt fixed lenOff = rest.length

/-- A step that is no call of `__wmi_send`. -/
def SendAction.Within : SendAction → Prop
  | .call _ => False
  | _ => True

/-- A call of `__wmi_send` with the command, made in `s`, has returned, and no other was made. -/
structure SendCalled (cmd : WmiCmd) (s t : SendSys) : Prop where
  run : ∃ u as, s.step (.call cmd) = some u ∧ Machine.Exec SendSys.step (fun _ a => a.Within) u as t
  returned : t.send = none

/-- The slot of the command with index `j` holds the bytes, or the firmware has read them there. -/
def SendSys.Received (buf : ℕ → ℕ) (start j : ℕ) (t : SendSys) (bs : List UInt8) : Prop :=
  t.consumed[j]? = some bs ∨ t.consumed.length ≤ j ∧
    read t.wil.mem (buf ((start + j) % t.wil.tx.slots)) bs.length = bs

/-- **A command is sent whole or refused**, in every run from `s₀`: the buffer is as long as what
is written to it, and where the function returns zero (it returns `ret rc` where `__wmi_send`
returned `rc`), the slot of the command has received all of it. -/
def WholeOrRefused (buf : ℕ → ℕ) (start : ℕ) (s₀ : SendSys) (v : Except ℤ VarCmd)
    (fixed rest : List UInt8) (lenOff : ℕ) (ret : ℤ → ℤ) : Prop :=
  ∀ c, v = .ok c → c.written ≤ c.alloc ∧ ∀ as s t,
    Machine.Exec SendSys.step (fun _ _ => True) s₀ as s → SendCalled c.cmd s t →
      ret t.call.rc ≠ 0 ∨ t.sent.length = s.sent.length + 1 ∧
        ∃ bs, t.Received buf start s.sent.length bs ∧ WholeCmd c.cmd fixed rest lenOff bs

/-- Of `wmi_set_ie`. -/
def SetIeWhole (buf : ℕ → ℕ) (start : ℕ) (s₀ : SendSys) (type : UInt8) (ieLen : ℕ)
    (ie : ℕ → UInt8) (kzalloc : Option (ℕ → UInt8)) : Prop :=
  WholeOrRefused buf start s₀ (wmiSetIeCmd type ieLen ie kzalloc) ([type, 0] ++ le16 ieLen)
    (read ie 0 ieLen) 2 id

/-- Of `wmi_tx_eapol`. -/
def TxEapolWhole (buf : ℕ → ℕ) (start : ℕ) (s₀ : SendSys) (w : Wil) (data : ℕ → UInt8) (len : ℕ)
    (kzalloc : Option (ℕ → UInt8)) : Prop :=
  WholeOrRefused buf start s₀ (wmiTxEapolCmd w data len kzalloc)
    (read data 0 6 ++ le16 (len - ethHlen)) (read data ethHlen (len - ethHlen)) 6 id

/-- Of `wmi_mgmt_tx`, whatever the firmware replies. -/
def MgmtTxWhole (buf : ℕ → ℕ) (start : ℕ) (s₀ : SendSys) (frame : ℕ → UInt8) (len : ℕ)
    (kmalloc : Option (ℕ → UInt8)) : Prop :=
  ∀ reply, WholeOrRefused buf start s₀ (wmiMgmtTxCmd frame len kmalloc)
    (read frame 4 6 ++ le16 len) (read frame 0 len) 6 (wmiMgmtTxRc reply)

/-- The mailbox can take a command of `n` bytes: its `head` is an address, it has more than one
descriptor, and the command fits in an entry. -/
def SendSys.Takes (s : SendSys) (n : ℕ) : Prop :=
  (wmiAddr s.wil.tx.head).isSome ∧ 1 < s.wil.tx.slots ∧ WmiCmd.sizeofCmd + n ≤ s.wil.tx.entrySize

section Mailbox

variable {r : MboxArea} {buf : ℕ → ℕ} {start seq : ℕ} {s₀ s t u : SendSys} {cmd : WmiCmd}
  {as : List SendAction}

/-! ## A call -/

/-- Where the call has come to, that began when `sent` had been sent. -/
def CallPhase (cmd : WmiCmd) (sent : List WmiCmd) (s : SendSys) : Prop :=
  match s.send with
  | none => s.call.rc ≠ 0 ∨ s.sent = sent ++ [cmd]
  | some (_, .advance) => s.sent = sent ++ [cmd]
  | some (c, _) => c = cmd ∧ s.sent = sent

/-- The call begins. -/
lemma callPhase_begin (s : SendSys) (cmd : WmiCmd) : CallPhase cmd s.sent (s.begin cmd) := by
  simp only [SendSys.begin]
  split_ifs
  · exact Or.inl (show eRange ≠ 0 by decide)
  · exact Or.inl (show eInval ≠ 0 by decide)
  · exact ⟨rfl, rfl⟩
  · exact Or.inl (show eAgain ≠ 0 by decide)

/-- A step of `__wmi_send`. -/
lemma CallPhase.send {sent : List WmiCmd} (h : CallPhase cmd sent s)
    (hu : s.step .send = some u) : CallPhase cmd sent u := by
  rcases hsend : s.send with _ | ⟨c, retry | ⟨retry, addr⟩ | ⟨dst, i⟩ | _⟩ <;>
    simp only [SendSys.step, hsend, reduceCtorEq, Option.some.injEq] at hu <;>
    simp only [CallPhase, hsend] at h <;> subst hu
  · obtain ⟨rfl, hsent⟩ := h
    rw [SendSys.readHead]
    split_ifs
    · exact ⟨rfl, hsent⟩
    · exact Or.inl (show eBusy ≠ 0 by decide)
    · exact ⟨rfl, hsent⟩
  · obtain ⟨rfl, hsent⟩ := h
    simp only [SendSys.readTail]
    split_ifs
    · cases wmiBuffer addr with
      | none => exact Or.inl (show eInval ≠ 0 by decide)
      | some dst => exact ⟨rfl, hsent⟩
    · exact Or.inl (show eBusy ≠ 0 by decide)
    · exact ⟨rfl, hsent⟩
  · obtain ⟨rfl, hsent⟩ := h
    rw [SendSys.copyWord]
    split_ifs
    · exact ⟨rfl, hsent⟩
    · exact congrArg (· ++ [c]) hsent
  · exact Or.inr h

/-- A step of the firmware. -/
lemma CallPhase.of_fw {sent : List WmiCmd} {mem : ℕ → UInt8} {fw : FwStage}
    {consumed : List (List UInt8)} (h : CallPhase cmd sent s) :
    CallPhase cmd sent { s with
      wil := { s.wil with mem := mem }
      fw := fw
      consumed := consumed } :=
  h

/-- What the firmware leaves: it writes the memory of the card only. -/
lemma SendSys.step_fw {a : SendAction} (ha : a = .fwRead ∨ a = .fwClear ∨ a = .fwAdvance)
    (hu : s.step a = some u) :
    ∃ mem fw consumed, u = { s with
      wil := { s.wil with mem := mem }
      fw := fw
      consumed := consumed } := by
  rcases ha with rfl | rfl | rfl <;> simp only [SendSys.step] at hu <;> split_ifs at hu
  · obtain ⟨src, -, rfl⟩ := Option.map_eq_some_iff.mp hu
    exact ⟨_, _, _, rfl⟩
  · obtain rfl := Option.some.inj hu
    exact ⟨_, _, _, rfl⟩
  · obtain rfl := Option.some.inj hu
    exact ⟨_, _, _, rfl⟩

/-- Nobody else touches what the call has come to. -/
lemma CallPhase.step {sent : List WmiCmd} {a : SendAction} (h : CallPhase cmd sent s)
    (ha : a.Within) (hu : s.step a = some u) : CallPhase cmd sent u := by
  cases a with
  | call c => exact ha.elim
  | send => exact h.send hu
  | fwRead | fwClear | fwAdvance =>
      obtain ⟨mem, fw, consumed, rfl⟩ := SendSys.step_fw (by simp) hu
      exact h.of_fw
  | setFwready ready =>
      obtain rfl := Option.some.inj hu
      exact h

/-- **A call that returned zero** has sent the command, and nothing else was sent. -/
lemma SendCalled.sent (h : SendCalled cmd s t) (hrc : t.call.rc = 0) : t.sent = s.sent ++ [cmd] := by
  obtain ⟨u, as, hu, hrun⟩ := h.run
  simp only [SendSys.step] at hu
  split_ifs at hu
  obtain rfl := Option.some.inj hu
  have hphase : CallPhase cmd s.sent t :=
    hrun.invariant (I := CallPhase cmd s.sent) (fun _ _ _ ha hstep hi => hi.step ha hstep)
      (callPhase_begin s cmd)
  rw [CallPhase, h.returned] at hphase
  exact hphase.resolve_left (not_not_intro hrc)

/-- The states of a run from an empty ring. -/
lemma sendInv_run (hs : MailboxStart r buf start seq s₀)
    (h : Machine.Exec SendSys.step (fun _ _ => True) s₀ as s) :
    ∃ p c, SendInv r buf start seq s p c :=
  h.invariant (I := fun u => ∃ p c, SendInv r buf start seq u p c)
    (fun _ _ _ _ hu ⟨_, _, hi⟩ => hi.step hs.layout hu) ⟨start, start, sendInv_start hs⟩

lemma SendCalled.exec (h : SendCalled cmd s t) :
    ∃ as, Machine.Exec SendSys.step (fun _ _ => True) s as t := by
  obtain ⟨u, as, hu, hrun⟩ := h.run
  exact ⟨.call cmd :: as, trivial, u, hu, hrun.weaken fun _ _ _ => trivial⟩

/-- What was sent has been received as it is. -/
lemma SendCalled.received (hs : MailboxStart r buf start seq s₀)
    (hrun : Machine.Exec SendSys.step (fun _ _ => True) s₀ as s) (h : SendCalled cmd s t)
    (hrc : t.call.rc = 0) :
    WmiCmd.sizeofCmd + cmd.len ≤ r.entrySize ∧
      t.Received buf start s.sent.length (cmd.bytes (u16 (seq + 1 + s.sent.length))) := by
  have hsent := h.sent hrc
  obtain ⟨bs, hexec⟩ := h.exec
  obtain ⟨p, c, hinv⟩ := sendInv_run hs (hrun.append hexec)
  have hlen : s.sent.length < t.sent.length := by
    rw [hsent, List.length_append, List.length_singleton]
    exact Nat.lt_succ_self _
  have hget : t.sent[s.sent.length] = cmd := by
    simp only [hsent, List.getElem_concat_length]
  have hok := hinv.ok
  refine ⟨hget ▸ hinv.fits hlen, ?_⟩
  rcases Nat.lt_or_ge s.sent.length t.consumed.length with hread | hunread
  · left
    obtain ⟨l, hl⟩ := hok.fifo
    have hnum : (numbered seq t.sent)[s.sent.length]?
        = some (cmd.bytes (u16 (seq + 1 + s.sent.length))) := by
      rw [numbered, List.getElem?_mapIdx, List.getElem?_eq_getElem hlen, hget]
      rfl
    rwa [← hl, List.getElem?_append_left hread] at hnum
  · right
    have hslot := hok.unread _ hlen hunread
    rw [hget] at hslot
    rw [WmiCmd.length_bytes, show t.wil.tx.toMboxArea = r from hinv.area]
    exact ⟨hunread, hslot⟩

/-! ## A mailbox that takes nothing -/

/-- Nothing was sent, and no call has come to its first write. -/
def Stuck (r : MboxArea) (start : ℕ) (s : SendSys) : Prop :=
  s.sent = [] ∧
    match s.send with
    | none => True
    | some (_, .head _) | some (_, .tail _ _) => (wmiAddr (r.slot start)).isSome
    | some (_, .copy _ _) | some (_, .advance) => False

lemma Stuck.of_fw {mem : ℕ → UInt8} {fw : FwStage} {consumed : List (List UInt8)}
    (h : Stuck r start s) :
    Stuck r start { s with
      wil := { s.wil with mem := mem }
      fw := fw
      consumed := consumed } :=
  h

/-- With one descriptor, the ring is always full. -/
lemma SendInv.full {p c : ℕ} (h : SendInv r buf start seq s p c) (hs : MboxLayout r buf)
    (hone : r.slots ≤ 1) (hhead : s.wil.tx.head = r.slot start) :
    s.wil.tx.next s.wil.tx.head = read32 s.wil.mem mboxTxTail := by
  have hslot : ∀ q, r.slot q = r.slot 0 := by
    intro q
    rw [MboxArea.slot, MboxArea.slot, show r.slots = 1 from le_antisymm hone hs.slots_pos,
      Nat.mod_one, Nat.mod_one]
  rw [show s.wil.tx.toMboxArea = r from h.area, hhead, hs.next_slot, h.mem.pointer, hslot,
    hslot p]

/-- Where `head` is no address, or the ring has one descriptor, this never changes. -/
lemma Stuck.step {p c : ℕ} (h : Stuck r start s) (hinv : SendInv r buf start seq s p c)
    (hs : MboxLayout r buf) (hno : (wmiAddr (r.slot start)).isSome → r.slots ≤ 1) {a : SendAction}
    (hu : s.step a = some u) : Stuck r start u := by
  obtain ⟨hsent, hsend⟩ := h
  have hphase := hinv.phase
  cases a with
  | call cmd =>
      simp only [SendSys.step] at hu
      split_ifs at hu with hidle
      obtain rfl := Option.some.inj hu
      simp only [SendPhase, Option.isNone_iff_eq_none.mp hidle] at hphase
      have hhead : s.wil.tx.head = r.slot start := by
        simpa [hsent] using hphase.1.head
      simp only [SendSys.begin]
      split_ifs with _ _ haddr
      · exact ⟨hsent, trivial⟩
      · exact ⟨hsent, trivial⟩
      · refine ⟨hsent, ?_⟩
        rw [hhead] at haddr
        simpa [Option.isNone_iff_eq_none, Option.isSome_iff_ne_none] using haddr
      · exact ⟨hsent, trivial⟩
  | send =>
      rcases hpc : s.send with _ | ⟨cmd, retry | ⟨retry, addr⟩ | ⟨dst, i⟩ | _⟩ <;>
        simp only [SendSys.step, hpc, reduceCtorEq, Option.some.injEq] at hu <;>
        simp only [hpc] at hsend <;> subst hu
      · rw [SendSys.readHead]
        split_ifs
        · exact ⟨hsent, hsend⟩
        · exact ⟨hsent, trivial⟩
        · exact ⟨hsent, hsend⟩
      · simp only [SendPhase, hpc] at hphase
        have hhead : s.wil.tx.head = r.slot start := by
          simpa [hsent] using hphase.2.1.head
        have hfull := hinv.full hs (hno hsend) hhead
        simp only [SendSys.readTail, hfull, ne_eq, not_true_eq_false, if_false]
        split_ifs
        · exact ⟨hsent, trivial⟩
        · exact ⟨hsent, hsend⟩
  | fwRead | fwClear | fwAdvance =>
      obtain ⟨mem, fw, consumed, rfl⟩ := SendSys.step_fw (by simp) hu
      exact Stuck.of_fw ⟨hsent, hsend⟩
  | setFwready ready =>
      obtain rfl := Option.some.inj hu
      exact ⟨hsent, hsend⟩

/-- **A command that the mailbox cannot take** is refused. -/
lemma SendCalled.takes (hs : MailboxStart r buf start seq s₀)
    (hrun : Machine.Exec SendSys.step (fun _ _ => True) s₀ as s) (h : SendCalled cmd s t)
    (hrc : t.call.rc = 0) : s₀.Takes cmd.len := by
  have hfits := (h.received hs hrun hrc).1
  have harea : s₀.wil.tx.toMboxArea = r := hs.area
  by_cases hno : (wmiAddr (r.slot start)).isSome ∧ 1 < r.slots
  · refine ⟨by rw [hs.head]; exact hno.1, by rw [harea]; exact hno.2, by rw [harea]; exact hfits⟩
  · obtain ⟨bs, hexec⟩ := h.exec
    have hstart : Stuck r start s₀ := ⟨hs.fresh.1, by rw [hs.idle.1]; trivial⟩
    have hstuck : Stuck r start t ∧ ∃ p c, SendInv r buf start seq t p c :=
      (hrun.append hexec).invariant
        (I := fun u => Stuck r start u ∧ ∃ p c, SendInv r buf start seq u p c)
        (fun v a w _ hw ⟨hv, p, c, hi⟩ =>
          ⟨hv.step hi hs.layout (fun haddr => Nat.le_of_not_lt fun hlt => hno ⟨haddr, hlt⟩) hw,
            hi.step hs.layout hw⟩)
        ⟨hstart, start, start, sendInv_start hs⟩
    have hsent := h.sent hrc
    rw [hstuck.1.1] at hsent
    simp at hsent

/-! ## A call that succeeds -/

/-- The rest of a call that has begun to copy. -/
lemma copy_run {dst i : ℕ} (hsend : s.send = some (cmd, .copy dst i)) (hi : i ≤ cmd.words) :
    ∃ as t, Machine.Exec SendSys.step (fun _ a => a.Within) s as t ∧ t.send = none ∧
      t.call.rc = 0 := by
  obtain ⟨n, hn⟩ := Nat.exists_eq_add_of_le hi
  induction n generalizing s i with
  | zero =>
      obtain ⟨v, hv⟩ : ∃ v, v = s.copyWord cmd dst i := ⟨_, rfl⟩
      have hvsend : v.send = some (cmd, .advance) := by
        rw [hv, SendSys.copyWord, if_neg (by omega)]
      refine ⟨[.send, .send], v.writeHead cmd (v.wil.tx.next v.wil.tx.head),
        ⟨trivial, v, ?_, trivial, _, ?_, rfl⟩, rfl, rfl⟩
      · rw [SendSys.step, hsend, hv]
      · rw [SendSys.step, hvsend]
  | succ n ih =>
      obtain ⟨v, hv⟩ : ∃ v, v = s.copyWord cmd dst i := ⟨_, rfl⟩
      have hvsend : v.send = some (cmd, .copy dst (i + 1)) := by
        rw [hv, SendSys.copyWord, if_pos (by omega)]
      obtain ⟨as, t, hexec, hend⟩ := ih hvsend (by omega) (by omega)
      refine ⟨.send :: as, t, ⟨trivial, v, ?_, hexec⟩, hend⟩
      rw [SendSys.step, hsend, hv]

/-- The read of `tail`, where there is room. -/
lemma readTail_copy {retry addr dst : ℕ}
    (hroom : s.wil.tx.next s.wil.tx.head ≠ read32 s.wil.mem mboxTxTail)
    (haddr : wmiBuffer addr = some dst) :
    (s.readTail cmd retry addr).send = some (cmd, .copy dst 0) := by
  simp only [SendSys.readTail, haddr]
  rw [if_pos hroom]

/-- **A command that the mailbox takes** can be sent: the firmware is ready, and the ring empty. -/
lemma SendSys.Takes.run (hs : MailboxStart r buf start seq s₀) (htakes : s₀.Takes cmd.len) :
    ∃ s t, Machine.Exec SendSys.step (fun _ _ => True) s₀ [.setFwready true] s ∧
      SendCalled cmd s t ∧ t.call.rc = 0 := by
  obtain ⟨haddr, hslots, hfits⟩ := htakes
  have L := hs.layout
  have harea : s₀.wil.tx.toMboxArea = r := hs.area
  have hoff : hostaddr s₀.wil.tx.head = r.desc (start % r.slots) := by
    rw [hs.head, L.hostaddr_slot]
  have hsync : read32 s₀.wil.mem (hostaddr s₀.wil.tx.head) = 0 := by
    rw [hoff]
    exact hs.sync _ (L.mod_lt start)
  have hbuf : wmiBuffer (read32 s₀.wil.mem (hostaddr s₀.wil.tx.head + 4))
      = some (buf (start % r.slots)) := by
    rw [hoff]
    exact hs.addrs _ (L.mod_lt start)
  have hroom : s₀.wil.tx.next s₀.wil.tx.head ≠ read32 s₀.wil.mem mboxTxTail := by
    rw [harea] at hslots
    rw [harea, hs.head, L.next_slot, hs.tail]
    exact (MboxArea.slot_ne (Nat.lt_succ_self start) (by omega)).symm
  set s : SendSys := { s₀ with wil := { s₀.wil with fwready := true } } with hsdef
  set v : SendSys := { s with
    call := ⟨0, s₀.wil.tx.head, s₀.wil.wmiSeq, []⟩
    send := some (cmd, .head 5) } with hv
  set w : SendSys := { v with
    send := some (cmd, .tail 5 (read32 s₀.wil.mem (hostaddr s₀.wil.tx.head + 4))) } with hw
  have hcall : s.step (.call cmd) = some v := by
    have hidle : s.send.isNone = true := by rw [hsdef]; simp [hs.idle.1]
    rw [SendSys.step, if_pos hidle, SendSys.begin]
    simp only [hsdef]
    rw [if_neg (by omega), if_neg (by simp), if_neg (by simpa [Option.isNone_iff_eq_none,
      Option.isSome_iff_ne_none] using haddr)]
  have hhead : v.step .send = some w := by
    rw [SendSys.step, hv]
    exact congrArg some (if_pos hsync)
  have htail : w.step .send = some (w.readTail cmd 5 _) := rfl
  obtain ⟨as, t, hexec, hsend, hrc⟩ := copy_run (readTail_copy (s := w) hroom hbuf) (Nat.zero_le _)
  refine ⟨s, t, ⟨trivial, s, rfl, rfl⟩, ⟨⟨v, .send :: .send :: as, hcall, ?_⟩, hsend⟩, hrc⟩
  exact ⟨trivial, w, hhead, trivial, _, htail, hexec⟩

/-! ## What is received -/

/-- The lengths are stored as they are where they fit. -/
lemma lenAt_le16 {v : ℕ} (hv : v < 65536) (bs : List UInt8) : lenAt (le16 v ++ bs) 0 = v := by
  simp only [lenAt, le16, List.cons_append, List.nil_append, List.getD_cons_zero,
    List.getD_cons_succ, UInt8.toNat_ofNat']
  omega

lemma lenAt_lt (bs : List UInt8) (off : ℕ) : lenAt bs off < 65536 := by
  have hlow := (bs.getD off 0).toNat_lt
  have hhigh := (bs.getD (off + 1) 0).toNat_lt
  unfold lenAt
  omega

/-- What the function has put in its buffer is the whole command. -/
structure Filled (cmd : WmiCmd) (fixed rest : List UInt8) (lenOff : ℕ) : Prop where
  buf : read cmd.buf 0 cmd.len = fixed ++ rest
  own_len : lenAt fixed lenOff = rest.length

lemma Filled.len {fixed rest : List UInt8} {lenOff : ℕ} (h : Filled cmd fixed rest lenOff) :
    cmd.len = fixed.length + rest.length := by
  rw [← List.length_append, ← h.buf, length_read]

lemma Filled.whole {fixed rest : List UInt8} {lenOff : ℕ} (h : Filled cmd fixed rest lenOff)
    (hfits : WmiCmd.sizeofCmd + cmd.len < 65536) (seq : ℕ) :
    WholeCmd cmd fixed rest lenOff (cmd.bytes seq) := by
  have hlen : u16 (sizeofMboxHdrWmi + cmd.len) = sizeofMboxHdrWmi + cmd.len := by
    simp only [WmiCmd.sizeofCmd, sizeofMboxHdr] at hfits
    exact Nat.mod_eq_of_lt (by omega)
  refine ⟨⟨seq, ?_⟩, ?_, h.own_len⟩
  · rw [List.append_assoc, ← h.buf, WmiCmd.bytes, ByteMemory.read]
    simp only [Nat.zero_add]
  · have hshift : lenAt (cmd.bytes seq) 2 = lenAt (le16 (sizeofMboxHdrWmi + cmd.len)) 0 := by
      simp [WmiCmd.bytes, WmiCmd.hdr, lenAt, hlen, le16]
    have hlt : sizeofMboxHdrWmi + cmd.len < 65536 := by
      rw [← hlen]
      exact Nat.mod_lt _ (by norm_num)
    rw [hshift, ← List.append_nil (le16 _), lenAt_le16 hlt, h.len, Nat.add_assoc]

/-! ## Which commands are whole -/

section Whole

variable {v : Except ℤ VarCmd} {fixed rest : List UInt8} {lenOff : ℕ} {ret : ℤ → ℤ}

/-- The command is filled in as it is meant. -/
lemma WholeOrRefused.of_filled (hs : MailboxStart r buf start seq s₀)
    (hv : ∀ c, v = .ok c → c.written ≤ c.alloc ∧ Filled c.cmd fixed rest lenOff)
    (hret : ∀ rc, rc ≠ 0 → ret rc ≠ 0) :
    WholeOrRefused buf start s₀ v fixed rest lenOff ret := by
  intro c hc
  obtain ⟨hwritten, hfilled⟩ := hv c hc
  refine ⟨hwritten, fun as s t hrun hcalled => ?_⟩
  by_cases hrc : t.call.rc = 0
  · right
    obtain ⟨hfits, hreceived⟩ := hcalled.received hs hrun hrc
    have hentry := hs.layout.entry_lt
    refine ⟨?_, _, hreceived, hfilled.whole (by omega) _⟩
    rw [hcalled.sent hrc, List.length_append, List.length_singleton]
  · exact Or.inl (hret _ hrc)

/-- The command is one that the mailbox cannot take. -/
lemma WholeOrRefused.of_refused (hs : MailboxStart r buf start seq s₀)
    (hv : ∀ c, v = .ok c → c.written ≤ c.alloc ∧ ¬ s₀.Takes c.cmd.len)
    (hret : ∀ rc, rc ≠ 0 → ret rc ≠ 0) :
    WholeOrRefused buf start s₀ v fixed rest lenOff ret := by
  intro c hc
  obtain ⟨hwritten, htakes⟩ := hv c hc
  exact ⟨hwritten, fun as s t hrun hcalled =>
    Or.inl (hret _ fun hrc => htakes (hcalled.takes hs hrun hrc))⟩

/-- The command was cut short, and the mailbox takes what is left. -/
lemma WholeOrRefused.not_of_cut (hs : MailboxStart r buf start seq s₀) {c : VarCmd}
    (hv : v = .ok c) (htakes : s₀.Takes c.cmd.len) (hcut : 65536 ≤ fixed.length + rest.length)
    (hret : ret 0 = 0) : ¬ WholeOrRefused buf start s₀ v fixed rest lenOff ret := by
  intro h
  obtain ⟨s, t, hrun, hcalled, hrc⟩ := htakes.run hs
  rcases (h c hv).2 _ s t hrun hcalled with hne | ⟨-, bs, -, hwhole⟩
  · exact hne (by rw [hrc, hret])
  · have hlt := lenAt_lt bs 2
    rw [hwhole.hdr_len] at hlt
    omega

end Whole

/-! ## The buffers -/

lemma lenAt_append (xs bs : List UInt8) : lenAt (xs ++ bs) xs.length = lenAt bs 0 := by
  simp only [lenAt, List.getD_eq_getElem?_getD]
  rw [List.getElem?_append_right le_rfl, List.getElem?_append_right (Nat.le_add_right _ 1),
    Nat.sub_self,
    Nat.add_sub_cancel_left, Nat.zero_add]

/-- The three stores of a command: six bytes, the length, and the rest. -/
lemma read_stores (m : ℕ → UInt8) {fixed rest : List UInt8} {v a n : ℕ} (ha : a = fixed.length)
    (hn : n = a + 2 + rest.length) :
    read (write (write (write m 0 fixed) a (le16 v)) (a + 2) rest) 0 n
      = fixed ++ le16 v ++ rest := by
  have hlen : n = (fixed ++ le16 v ++ rest).length := by
    rw [hn, ha, List.length_append, List.length_append]
    rfl
  have htwo := write_append m 0 fixed (le16 v)
  have hthree := write_append m 0 (fixed ++ le16 v) rest
  have hnext : a + 2 = (fixed ++ le16 v).length := by
    rw [ha, List.length_append]
    rfl
  rw [Nat.zero_add] at htwo hthree
  rw [hnext, ha, htwo, hthree, hlen, read_write]

/-- A byte that is zero need not be stored. -/
lemma write_zero_next {m : ℕ → UInt8} (h : m 1 = 0) (x : UInt8) :
    write m 0 [x] = write m 0 [x, 0] := by
  funext i
  rcases i with _ | _ | i
  · rfl
  · exact h
  · rw [write_of_le (by simp), write_of_le (by simp)]

/-- What `wmi_set_ie` allocates and fills, where the length does not wrap. -/
lemma wmiSetIeCmd_filled {type : UInt8} {ieLen : ℕ} {ie : ℕ → UInt8} {kzalloc : Option (ℕ → UInt8)}
    (hfits : sizeofSetAppieCmd + ieLen < 65536) {c : VarCmd}
    (hc : wmiSetIeCmd type ieLen ie kzalloc = .ok c) :
    c.written ≤ c.alloc ∧ Filled c.cmd ([type, 0] ++ le16 ieLen) (read ie 0 ieLen) 2 := by
  obtain _ | heap := kzalloc
  · cases hc
  obtain rfl := Except.ok.inj hc
  have hlen : u16 (sizeofSetAppieCmd + ieLen) = sizeofSetAppieCmd + ieLen := Nat.mod_eq_of_lt hfits
  refine ⟨hlen.ge, ?_, ?_⟩
  · have hzero : zeroed heap (u16 (sizeofSetAppieCmd + ieLen)) 1 = 0 := by
      have hin : 1 < (List.replicate (u16 (sizeofSetAppieCmd + ieLen)) (0 : UInt8)).length := by
        rw [List.length_replicate, hlen, sizeofSetAppieCmd]
        omega
      rw [zeroed, ← Nat.zero_add 1, write_at hin, List.getElem_replicate]
    show read (write (write (write _ 0 [type]) 2 (le16 ieLen)) 4 (read ie 0 ieLen)) 0 _ = _
    rw [write_zero_next hzero]
    exact read_stores _ rfl (by rw [hlen, length_read, sizeofSetAppieCmd])
  · rw [show 2 = [type, 0].length from rfl, lenAt_append, ← List.append_nil (le16 _),
      lenAt_le16 (by omega), length_read]

/-- The command of `wmi_tx_eapol`, where `kzalloc` finds memory that held `heap`. -/
def eapolCmd (data : ℕ → UInt8) (len : ℕ) (heap : ℕ → UInt8) : VarCmd :=
  let eapolLen := u16 (len + 65536 - ethHlen)
  let cmd := copyTo (zeroed heap (sizeofEapolTxCmd + eapolLen)) 0 data 0 6
  let cmd := write cmd 6 (le16 eapolLen)
  let cmd := copyTo cmd sizeofEapolTxCmd data ethHlen eapolLen
  ⟨sizeofEapolTxCmd + eapolLen, sizeofEapolTxCmd + eapolLen, wmiEapolTxCmdid, cmd,
    u16 (sizeofEapolTxCmd + eapolLen)⟩

/-- There is a command where the address is that of a station and there is memory. -/
lemma wmiTxEapolCmd_ok_iff {w : Wil} {data : ℕ → UInt8} {len : ℕ} {kzalloc : Option (ℕ → UInt8)}
    {c : VarCmd} : wmiTxEapolCmd w data len kzalloc = .ok c ↔
      wilFindCid w (macAt data 0) ≠ none ∧
        ∃ heap, kzalloc = some heap ∧ eapolCmd data len heap = c := by
  unfold wmiTxEapolCmd eapolCmd
  cases wilFindCid w (macAt data 0) with
  | none => simp
  | some cid =>
      cases kzalloc with
      | none => simp
      | some heap => simp

/-- A packet with a header has no wrap of its length. -/
lemma u16_sub_ethHlen {len : ℕ} (hskb : ethHlen ≤ len) :
    u16 (len + 65536 - ethHlen) = u16 (len - ethHlen) := by
  rw [show len + 65536 - ethHlen = len - ethHlen + 65536 by omega, u16, Nat.add_mod_right]
  rfl

/-- What `wmi_tx_eapol` allocates and fills. -/
lemma wmiTxEapolCmd_filled {w : Wil} {data : ℕ → UInt8} {len : ℕ} {kzalloc : Option (ℕ → UInt8)}
    (hskb : ethHlen ≤ len) (hfits : sizeofEapolTxCmd + (len - ethHlen) < 65536) {c : VarCmd}
    (hc : wmiTxEapolCmd w data len kzalloc = .ok c) :
    c.written ≤ c.alloc ∧ Filled c.cmd (read data 0 6 ++ le16 (len - ethHlen))
      (read data ethHlen (len - ethHlen)) 6 := by
  have heapol : u16 (len + 65536 - ethHlen) = len - ethHlen :=
    (u16_sub_ethHlen hskb).trans (Nat.mod_eq_of_lt (by omega))
  have hlen : u16 (sizeofEapolTxCmd + (len - ethHlen)) = sizeofEapolTxCmd + (len - ethHlen) :=
    Nat.mod_eq_of_lt hfits
  obtain ⟨-, heap, -, rfl⟩ := wmiTxEapolCmd_ok_iff.mp hc
  simp only [eapolCmd, heapol, hlen]
  refine ⟨le_rfl, ?_, ?_⟩
  · exact read_stores _ (length_read data 0 6).symm (by rw [length_read, sizeofEapolTxCmd])
  · have hoff : 6 = (read data 0 6).length := (length_read data 0 6).symm
    nth_rewrite 2 [hoff]
    rw [lenAt_append, ← List.append_nil (le16 _), lenAt_le16 (by omega), length_read]

/-- What `wmi_mgmt_tx` allocates and fills. -/
lemma wmiMgmtTxCmd_filled {frame : ℕ → UInt8} {len : ℕ} {kmalloc : Option (ℕ → UInt8)}
    (hfits : sizeofSwTxReqCmd + len < 65536) {c : VarCmd}
    (hc : wmiMgmtTxCmd frame len kmalloc = .ok c) :
    c.written ≤ c.alloc ∧ Filled c.cmd (read frame 4 6 ++ le16 len) (read frame 0 len) 6 := by
  have hsize : sizeT (sizeofSwTxReqCmd + len) = sizeofSwTxReqCmd + len :=
    Nat.mod_eq_of_lt (by omega)
  have hlen : u16 (sizeofSwTxReqCmd + len) = sizeofSwTxReqCmd + len := Nat.mod_eq_of_lt hfits
  obtain _ | heap := kmalloc
  · cases hc
  obtain rfl := Except.ok.inj hc
  refine ⟨hsize.ge, ?_, ?_⟩
  · exact read_stores _ (length_read frame 4 6).symm
      (by rw [hsize, hlen, length_read, sizeofSwTxReqCmd])
  · have hoff : 6 = (read frame 4 6).length := (length_read frame 4 6).symm
    nth_rewrite 2 [hoff]
    rw [lenAt_append, ← List.append_nil (le16 _), lenAt_le16 (by omega), length_read]

/-! ## When they are whole -/

lemma wholeOrRefused_error {e : ℤ} {fixed rest : List UInt8} {lenOff : ℕ} {ret : ℤ → ℤ} :
    WholeOrRefused buf start s₀ (.error e) fixed rest lenOff ret :=
  fun _ hc => nomatch hc

lemma setIeWhole_iff (hs : MailboxStart r buf start seq s₀) (type : UInt8) (ieLen : ℕ)
    (ie : ℕ → UInt8) (kzalloc : Option (ℕ → UInt8)) :
    SetIeWhole buf start s₀ type ieLen ie kzalloc ↔
      kzalloc = none ∨ sizeofSetAppieCmd + ieLen < 65536 := by
  constructor
  · intro h
    by_contra hno
    push Not at hno
    obtain ⟨hsome, hwrap⟩ := hno
    obtain ⟨heap, rfl⟩ := Option.ne_none_iff_exists'.mp hsome
    have hwritten : sizeofSetAppieCmd + ieLen ≤ u16 (sizeofSetAppieCmd + ieLen) := (h _ rfl).1
    have hlt : u16 (sizeofSetAppieCmd + ieLen) < 65536 := Nat.mod_lt _ (by norm_num)
    omega
  · rintro (rfl | hfits)
    · exact wholeOrRefused_error
    · exact .of_filled hs (fun c hc => wmiSetIeCmd_filled hfits hc) fun _ hne => hne

/-- The command of `wmi_tx_eapol` is as long as what is left of the length. -/
lemma wmiTxEapolCmd_len {w : Wil} {data : ℕ → UInt8} {len : ℕ} {kzalloc : Option (ℕ → UInt8)}
    (hskb : ethHlen ≤ len) {c : VarCmd} (hc : wmiTxEapolCmd w data len kzalloc = .ok c) :
    c.written ≤ c.alloc ∧ c.cmd.len = u16 (sizeofEapolTxCmd + (len - ethHlen)) := by
  obtain ⟨-, heap, -, rfl⟩ := wmiTxEapolCmd_ok_iff.mp hc
  simp only [eapolCmd, u16_sub_ethHlen hskb]
  exact ⟨le_rfl, Nat.add_mod_mod _ _ _⟩

lemma txEapolWhole_iff (hs : MailboxStart r buf start seq s₀) (w : Wil) (data : ℕ → UInt8)
    {len : ℕ} (hskb : ethHlen ≤ len) (kzalloc : Option (ℕ → UInt8)) :
    TxEapolWhole buf start s₀ w data len kzalloc ↔
      kzalloc = none ∨ wilFindCid w (macAt data 0) = none ∨
        sizeofEapolTxCmd + (len - ethHlen) < 65536 ∨
        ¬ s₀.Takes (u16 (sizeofEapolTxCmd + (len - ethHlen))) := by
  constructor
  · intro h
    by_contra hno
    push Not at hno
    obtain ⟨hsome, hcid, hcut, htakes⟩ := hno
    obtain ⟨heap, rfl⟩ := Option.ne_none_iff_exists'.mp hsome
    have hc : wmiTxEapolCmd w data len (some heap) = .ok (eapolCmd data len heap) :=
      wmiTxEapolCmd_ok_iff.mpr ⟨hcid, heap, rfl, rfl⟩
    refine WholeOrRefused.not_of_cut hs hc ((wmiTxEapolCmd_len hskb hc).2 ▸ htakes) ?_ rfl h
    rw [List.length_append, length_read, length_read]
    exact hcut
  · rintro (rfl | hcid | hfits | htakes)
    · intro c hc
      obtain ⟨-, heap, hnone, -⟩ := wmiTxEapolCmd_ok_iff.mp hc
      exact absurd hnone (by simp)
    · intro c hc
      exact absurd hcid (wmiTxEapolCmd_ok_iff.mp hc).1
    · exact .of_filled hs (fun c hc => wmiTxEapolCmd_filled hskb hfits hc) fun _ hne => hne
    · refine .of_refused hs (fun c hc => ?_) fun _ hne => hne
      obtain ⟨hwritten, hlen⟩ := wmiTxEapolCmd_len hskb hc
      exact ⟨hwritten, hlen ▸ htakes⟩

lemma wmiMgmtTxRc_ne {reply : Option ℕ} {rc : ℤ} (h : rc ≠ 0) : wmiMgmtTxRc reply rc ≠ 0 := by
  unfold wmiMgmtTxRc
  rw [if_pos h]
  exact h

lemma mgmtTxWhole_iff (hs : MailboxStart r buf start seq s₀) (frame : ℕ → UInt8) (len : ℕ)
    (kmalloc : Option (ℕ → UInt8)) :
    MgmtTxWhole buf start s₀ frame len kmalloc ↔
      kmalloc = none ∨ sizeofSwTxReqCmd + len < 65536 ∨
        sizeofSwTxReqCmd + len < 18446744073709551616 ∧
          ¬ s₀.Takes (u16 (sizeofSwTxReqCmd + len)) := by
  constructor
  · intro h
    by_contra hno
    push Not at hno
    obtain ⟨hsome, hcut, htakes⟩ := hno
    obtain ⟨heap, rfl⟩ := Option.ne_none_iff_exists'.mp hsome
    have hwritten : sizeofSwTxReqCmd + len ≤ sizeT (sizeofSwTxReqCmd + len) := (h none _ rfl).1
    have hsize : sizeofSwTxReqCmd + len < 18446744073709551616 :=
      lt_of_le_of_lt hwritten (Nat.mod_lt _ (by norm_num))
    have hsame : sizeT (sizeofSwTxReqCmd + len) = sizeofSwTxReqCmd + len := Nat.mod_eq_of_lt hsize
    refine WholeOrRefused.not_of_cut hs rfl ?_ ?_ rfl (h (some 0))
    · rw [hsame]
      exact htakes hsize
    · rw [List.length_append, length_read, length_read]
      exact hcut
  · rintro (rfl | hfits | ⟨hsize, htakes⟩) reply
    · exact wholeOrRefused_error
    · exact .of_filled hs (fun c hc => wmiMgmtTxCmd_filled hfits hc) fun _ => wmiMgmtTxRc_ne
    · have hsame : sizeT (sizeofSwTxReqCmd + len) = sizeofSwTxReqCmd + len :=
        Nat.mod_eq_of_lt hsize
      refine .of_refused hs (fun c hc => ?_) fun _ => wmiMgmtTxRc_ne
      obtain _ | heap := kmalloc
      · cases hc
      obtain rfl := Except.ok.inj hc
      exact ⟨hsame.ge, hsame.symm ▸ htakes⟩

end Mailbox

/-! ## The result -/

/-- **Which commands are sent whole or refused**, for an empty mailbox anywhere, every payload that
the parameters admit (a packet has its Ethernet header), and every outcome of the allocation: those
where the fixed part and the payload together have a length of 16 bits; and those where nothing is
sent, as the address is not that of a station, no memory is found, or the mailbox cannot take even
what the `u16` leaves of the length.  (A `size_t` that wraps makes the buffer too short, as does the
`u16` of `wmi_set_ie`.) -/
theorem varCmds_whole_iff {r : MboxArea} {buf : ℕ → ℕ} {start seq : ℕ} {s : SendSys}
    (hs : MailboxStart r buf start seq s) (alloc : Option (ℕ → UInt8)) (payload : ℕ → UInt8)
    (w : Wil) (type : UInt8) (ieLen skbLen frameLen : ℕ) (hskb : ethHlen ≤ skbLen) :
    (SetIeWhole buf start s type ieLen payload alloc ↔
      alloc = none ∨ sizeofSetAppieCmd + ieLen < 65536) ∧
    (TxEapolWhole buf start s w payload skbLen alloc ↔
      alloc = none ∨ wilFindCid w (macAt payload 0) = none ∨
        sizeofEapolTxCmd + (skbLen - ethHlen) < 65536 ∨
        ¬ s.Takes (u16 (sizeofEapolTxCmd + (skbLen - ethHlen)))) ∧
    (MgmtTxWhole buf start s payload frameLen alloc ↔
      alloc = none ∨ sizeofSwTxReqCmd + frameLen < 65536 ∨
        sizeofSwTxReqCmd + frameLen < 18446744073709551616 ∧
          ¬ s.Takes (u16 (sizeofSwTxReqCmd + frameLen))) :=
  ⟨setIeWhole_iff hs type ieLen payload alloc, txEapolWhole_iff hs w payload hskb alloc,
    mgmtTxWhole_iff hs payload frameLen alloc⟩

/-- With room for 16 bytes behind the headers, three short commands. -/
theorem varCmds_whole_two :
    SetIeWhole mboxTwoBuf 1 mboxTwoEmpty 3 5 (fun _ => 7) (some fun _ => 0) ∧
    TxEapolWhole mboxTwoBuf 1 mboxTwoEmpty (wilPrivInit .station none) (fun _ => 7) 20
      (some fun _ => 0) ∧
    MgmtTxWhole mboxTwoBuf 1 mboxTwoEmpty (fun _ => 7) 8 (some fun _ => 0) := by
  have h := varCmds_whole_iff mboxTwoEmpty_start (some fun _ => 0) (fun _ => 7)
    (wilPrivInit .station none) 3 5 20 8 (by decide)
  refine ⟨h.1.mpr (Or.inr ?_), h.2.1.mpr (Or.inr (Or.inr (Or.inl ?_))),
    h.2.2.mpr (Or.inr (Or.inl ?_))⟩ <;> decide

/-- A frame of 65528 bytes: the length becomes 0, and the command goes out without its frame. -/
theorem not_varCmds_whole :
    ¬ MgmtTxWhole mboxTwoBuf 1 mboxTwoEmpty (fun _ => 7) 65528 (some fun _ => 0) := by
  rw [mgmtTxWhole_iff mboxTwoEmpty_start]
  have htakes : mboxTwoEmpty.Takes (u16 (sizeofSwTxReqCmd + 65528)) :=
    ⟨by decide +kernel, by decide +kernel, by decide +kernel⟩
  rintro (h | h | ⟨-, h⟩)
  · cases h
  · exact absurd h (by decide)
  · exact h htakes

end Wil6210
