import Wil6210.Rx.Ring
import Wil6210.Tx.TsoRoom
import Wil6210.Wmi.Receive
import Wil6210.Wmi.Send

/-!
# Addresses that the card supplies

The control block of the mailbox is read from the card, and so are the descriptors of its rings;
the tail pointer of a data ring is part of the firmware's reply.  The driver computes addresses from
all of them, and takes remainders by the size of a mailbox ring.

`wmi_buffer` admits the words of five regions, which end far below the end of the memory.
`wmi_addr` admits every word of the memory: at the last of them, a descriptor of two words is
not inside.  `__wmi_send` asks it about `head`.  About the `tail` of `wmi_recv_cmd` and about the
tail pointers of the data rings nobody asks, though `debugfs` does before it reads one.

`CardInput.Fits` says what the card has to supply for the accesses of a function to be inside, and
`devicePointers_iff` that it is exactly what is needed.  `wmiRecvCmd_fits` and `wmiSend_fits` are
about a ring that lies in the memory, as it should.
-/

namespace Wil6210

open ByteMemory

/-! ## Accesses -/

/-- `HOSTADDR(fwaddr)`, as a distance from `csr`: for an address below the constant, which is an
`unsigned long`, the pointer lies in front of `csr`. -/
def csrOffset (fwaddr : ℕ) : ℤ := fwaddr - wil6210FwHostOff

/-- An access to so many bytes at an offset from `csr`, or a remainder by `size`. -/
inductive DeviceAccess
  | io (offset : ℤ) (bytes : ℕ)
  | rem (size : ℕ)
  deriving DecidableEq, Repr

/-- It is inside of BAR0; the remainder is defined. -/
def DeviceAccess.Valid : DeviceAccess → Prop
  | .io offset bytes => 0 ≤ offset ∧ offset + bytes ≤ wil6210MemSize
  | .rem size => size ≠ 0

instance : DecidablePred DeviceAccess.Valid
  | .io _ _ => inferInstanceAs (Decidable (_ ∧ _))
  | .rem _ => inferInstanceAs (Decidable (_ ≠ _))

/-- How many bytes `wil_memcpy_fromio_32` and `wil_memcpy_toio_32` move: full words. -/
def memcpy32 (count : ℕ) : ℕ := 4 * ((count + 3) / 4)

/-- `HOST_SW_INT` -/
def hostSwInt : ℕ := hostaddr 0x880b4c + 12

/-- `struct wil6210_mbox_ring_desc` -/
structure MboxRingDesc where
  sync : ℕ
  addr : ℕ
  deriving DecidableEq, Repr

/-- `struct wil6210_mbox_ctl` -/
structure MboxCtl where
  tx : MboxRing
  rx : MboxRing

/-- A `struct wil6210_mbox_ring` in the memory of the card. -/
def readMboxRing (mem : ℕ → UInt8) (a : ℕ) : MboxRing :=
  { base := read32 mem a
    entrySize := read16 mem (a + 4)
    size := read16 mem (a + 6)
    tail := read32 mem (a + 8)
    head := read32 mem (a + 12) }

/-- `wil_cache_mbox_regs` -/
def wilCacheMboxRegs (mem : ℕ → UInt8) : MboxCtl :=
  ⟨readMboxRing mem hostMbox, readMboxRing mem (hostMbox + 16)⟩

/-! ## The functions, by their accesses -/

/-- A loop of `__wmi_send` from attempt `k` on, with so many attempts left: each makes the access
`a`, and the loop ends where it has `found` what it waits for. -/
def retryLoop {α : Type} (a : DeviceAccess) (found : ℕ → Option α) :
    ℕ → ℕ → List DeviceAccess × Option α
  | 0, _ => ([], none)
  | retry + 1, k =>
      match found k with
      | some x => ([a], some x)
      | none =>
          let r := retryLoop a found retry (k + 1)
          (a :: r.1, r.2)

/-- What the card answers to `__wmi_send`, at each attempt. -/
structure SendAnswers where
  /-- the descriptor at `head` -/
  dHead : ℕ → MboxRingDesc
  /-- `tx.tail` -/
  tail : ℕ → ℕ

/-- `__wmi_send` from "set command" on, with the buffer at `dst`. -/
def sendCommand (r : MboxRing) (dst len : ℕ) : List DeviceAccess :=
  [.io dst (memcpy32 WmiCmd.sizeofCmd), .io (dst + WmiCmd.sizeofCmd : ℕ) (memcpy32 len),
    .io (csrOffset r.head) 4, .io mboxTxHead 4, .io hostSwInt 4]

/-- `__wmi_send` from "next head" on, with the address in the descriptor. -/
def sendNext (r : MboxRing) (card : SendAnswers) (addr len : ℕ) : List DeviceAccess :=
  let nextHead := r.next r.head
  let wait := retryLoop (.io mboxTxTail 4)
    (fun k => if nextHead ≠ card.tail k then some () else none) 5 0
  .rem r.size :: wait.1 ++
    match wait.2 with
    | none => []
    | some _ =>
        match wmiBuffer addr with
        | none => []
        | some dst => sendCommand r dst len

/-- `__wmi_send` behind its checks, with the descriptor at `head`. -/
def sendHead (r : MboxRing) (card : SendAnswers) (head len : ℕ) : List DeviceAccess :=
  let wait := retryLoop (.io head sizeofMboxRingDesc)
    (fun k => if (card.dHead k).sync = 0 then some (card.dHead k).addr else none) 5 0
  wait.1 ++
    match wait.2 with
    | none => []
    | some addr => sendNext r card addr len

/-- `__wmi_send` of `len` bytes. -/
def wmiSendAccesses (r : MboxRing) (card : SendAnswers) (fwready : Bool) (len : UInt16) :
    List DeviceAccess :=
  if WmiCmd.sizeofCmd + len.toNat > r.entrySize then []
  else if ¬ fwready then []
  else
    match wmiAddr r.head with
    | none => []
    | some head => sendHead r card head len.toNat

/-- What the card answers to one pass of the loop of `wmi_recv_cmd`: `rx.head`, the descriptor at
`tail`, and the length in the header of the event. -/
structure RecvAnswers where
  head : ℕ
  dTail : MboxRingDesc
  len : UInt16

/-- The ring behind a pass that took an event. -/
def MboxRing.advanceTail (r : MboxRing) (head : ℕ) : MboxRing :=
  { r with head := head, tail := r.next r.tail }

/-- The end of a pass that has memory for the event at `src`, up to "advance tail". -/
def recvEvent (r : MboxRing) (src len : ℕ) : List DeviceAccess :=
  [.io (src + sizeofMboxHdr : ℕ) (memcpy32 len), .io (csrOffset r.tail) 4, .rem r.size,
    .io mboxRxTail 4]

/-- The passes of the loop of `wmi_recv_cmd` from number `k` on, as far as there are answers. -/
def recvAccesses (kmallocOk : ℕ → Bool) : ℕ → MboxRing → List RecvAnswers → List DeviceAccess
  | _, _, [] => []
  | k, r, card :: cards =>
      .io mboxRxHead 4 ::
        if r.tail = card.head then []
        else
          .io (csrOffset r.tail) sizeofMboxRingDesc ::
            if card.dTail.sync = 0 then []
            else
              match wmiBuffer card.dTail.addr with
              | none => []
              | some src =>
                  .io src sizeofMboxHdr ::
                    if kmallocOk k then
                      recvEvent r src card.len.toNat ++
                        recvAccesses kmallocOk (k + 1) (r.advanceTail card.head) cards
                    else []

/-- `wmi_recv_cmd` -/
def wmiRecvCmdAccesses (resetDone : Bool) (kmallocOk : ℕ → Bool) (r : MboxRing)
    (cards : List RecvAnswers) : List DeviceAccess :=
  if ¬ resetDone then [] else recvAccesses kmallocOk 0 r cards

/-- The write to the tail pointer of the Rx ring. -/
def RxRingEvent.access : RxRingEvent → Option DeviceAccess
  | .iowriteHwtail hwtail _ => some (.io (csrOffset hwtail) 4)
  | _ => none

/-- The write to the tail pointer of a Tx ring. -/
def TxEvent.access : TxEvent → Option DeviceAccess
  | .iowriteHwtail hwtail _ => some (.io (csrOffset hwtail) 4)
  | _ => none

/-! ## What the card has to supply -/

/-- A function, and what it gets from the card. -/
inductive CardInput
  | wmiSend (r : MboxRing) (card : SendAnswers)
  | wmiRecvCmd (r : MboxRing) (cards : List RecvAnswers)
  | wilRxRefill (hwtail : ℕ)
  | wilTxVring (hwtail : ℕ)
  | wilTxVringTso (hwtail : ℕ)

/-- The function may make the access, whatever else it is called with. -/
def CardInput.Makes (a : DeviceAccess) : CardInput → Prop
  | .wmiSend r card => ∃ fwready len, a ∈ wmiSendAccesses r card fwready len
  | .wmiRecvCmd r cards => ∃ resetDone kmallocOk, a ∈ wmiRecvCmdAccesses resetDone kmallocOk r cards
  | .wilRxRefill hwtail => ∃ (s : RxState) (count : ℤ) (outcome : ℕ → RxAlloc),
      s.vring.hwtail = hwtail ∧
        a ∈ (Wil6210.wilRxRefill s count outcome).2.1.filterMap RxRingEvent.access
  | .wilTxVring hwtail => ∃ (s : TxState) (q : TxRequest), s.vring.hwtail = hwtail ∧
      a ∈ (Wil6210.wilTxVring s q).2.1.filterMap TxEvent.access
  | .wilTxVringTso hwtail => ∃ (s : TxState) (q : TsoRequest), s.vring.hwtail = hwtail ∧
      a ∈ (Wil6210.wilTxVringTso s q).2.1.filterMap TxEvent.access

/-- So many bytes at an address of the firmware are in the memory of the card. -/
def AddressFits (fwaddr bytes : ℕ) : Prop :=
  wil6210FwHostOff ≤ fwaddr ∧ fwaddr + bytes ≤ wil6210FwHostOff + wil6210MemSize

instance (fwaddr bytes : ℕ) : Decidable (AddressFits fwaddr bytes) :=
  inferInstanceAs (Decidable (_ ∧ _))

/-- `wmi_recv_cmd` takes the event it is told of. -/
def RecvAnswers.Delivers (card : RecvAnswers) : Prop :=
  card.dTail.sync ≠ 0 ∧ wmiBuffer card.dTail.addr ≠ none

/-- In every pass that finds an event, `tail` is in the memory. -/
def RecvFits : MboxRing → List RecvAnswers → Prop
  | _, [] => True
  | r, card :: cards =>
      r.tail = card.head ∨ AddressFits r.tail sizeofMboxRingDesc ∧
        (card.Delivers → r.size ≠ 0 ∧ RecvFits (r.advanceTail card.head) cards)

/-- **What the card supplies is usable.** -/
def CardInput.Fits : CardInput → Prop
  | .wmiSend r card => WmiCmd.sizeofCmd ≤ r.entrySize → wmiAddr r.head ≠ none →
      AddressFits r.head sizeofMboxRingDesc ∧ ((∃ k < 5, (card.dHead k).sync = 0) → r.size ≠ 0)
  | .wmiRecvCmd r cards => RecvFits r cards
  | .wilRxRefill hwtail | .wilTxVring hwtail | .wilTxVringTso hwtail => AddressFits hwtail 4

/-! ## Addresses that are checked -/

variable {r : MboxRing}

lemma valid_io_csrOffset (fwaddr bytes : ℕ) :
    (DeviceAccess.io (csrOffset fwaddr) bytes).Valid ↔ AddressFits fwaddr bytes := by
  simp only [DeviceAccess.Valid, csrOffset, AddressFits]
  omega

lemma valid_io_nat (offset bytes : ℕ) :
    (DeviceAccess.io offset bytes).Valid ↔ offset + bytes ≤ wil6210MemSize := by
  simp only [DeviceAccess.Valid]
  omega

/-- The regions of `fw_mapping` end in front of `0x949000`. -/
lemma wmiAddrRemap_lt (x : ℕ) : wmiAddrRemap x < 0x949000 := by
  rw [wmiAddrRemap]
  cases hfind : fwMapping.find? fun e => e.1 ≤ x ∧ x < e.2.1 with
  | none => exact Nat.zero_lt_succ _
  | some e =>
      have hends : ∀ e ∈ fwMapping, e.2.1 + e.2.2 ≤ e.1 + 0x949000 := by decide
      have hend := hends e (List.mem_of_find?_eq_some hfind)
      have hin : e.1 ≤ x ∧ x < e.2.1 := by simpa using List.find?_some hfind
      show x + e.2.2 - e.1 < 0x949000
      omega

/-- What is written to a buffer, or read from it, is in the memory. -/
lemma wmiBuffer_fits {addr off : ℕ} (h : wmiBuffer addr = some off) {bytes : ℕ}
    (hbytes : bytes ≤ 0x100000) : off + bytes ≤ wil6210MemSize := by
  have hlt := wmiAddrRemap_lt addr
  rw [wmiBuffer] at h
  split_ifs at h with halign
  dsimp only at h
  split_ifs at h
  obtain rfl := Option.some.inj h
  simp only [hostaddr, wil6210FwHostOff, wil6210MemSize]
  omega

/-- An address that `wmi_addr` admits. -/
lemma wmiAddr_eq {p off : ℕ} (h : wmiAddr p = some off) :
    wil6210FwHostOff ≤ p ∧ off = p - wil6210FwHostOff := by
  rw [wmiAddr] at h
  split_ifs at h with halign hlow hhigh
  exact ⟨not_lt.mp hlow, (Option.some.inj h).symm⟩

/-- The check of `head` admits one address at which the descriptor is not inside, that of the last
word. -/
theorem wmiAddr_fits_iff {p : ℕ} (h : wmiAddr p ≠ none) :
    AddressFits p sizeofMboxRingDesc ↔ p ≠ 0xa7fffc := by
  rw [wmiAddr] at h
  split_ifs at h with halign hlow hhigh
  · exact absurd rfl h
  · exact absurd rfl h
  · exact absurd rfl h
  · simp only [hostaddr, AddressFits, wil6210FwHostOff, wil6210MemSize, sizeofMboxRingDesc] at *
    omega

lemma memcpy32_le (count : ℕ) : memcpy32 count ≤ count + 3 := by
  unfold memcpy32
  omega

/-! ## `__wmi_send` -/

section Retry

variable {α : Type} {a b : DeviceAccess} {found : ℕ → Option α}

/-- The loop makes no access but its own. -/
lemma mem_retryLoop {n : ℕ} : ∀ {k}, b ∈ (retryLoop a found n k).1 → b = a := by
  induction n with
  | zero =>
      intro k h
      exact absurd h List.not_mem_nil
  | succ n ih =>
      intro k h
      rw [retryLoop] at h
      cases hfound : found k with
      | some x =>
          rw [hfound] at h
          exact List.mem_singleton.mp h
      | none =>
          rw [hfound] at h
          rcases List.mem_cons.mp h with rfl | h
          · rfl
          · exact ih h

lemma mem_retryLoop_succ (n k : ℕ) : a ∈ (retryLoop a found (n + 1) k).1 := by
  rw [retryLoop]
  cases found k with
  | some x => exact List.mem_singleton_self a
  | none => exact List.mem_cons_self

/-- The loop ends early where an attempt finds what it waits for. -/
lemma retryLoop_isSome {n : ℕ} : ∀ {k},
    (retryLoop a found n k).2.isSome ↔ ∃ j, k ≤ j ∧ j < k + n ∧ (found j).isSome := by
  induction n with
  | zero =>
      intro k
      simp only [retryLoop, Option.isSome_none, Bool.false_eq_true, false_iff]
      rintro ⟨j, hj, hj', -⟩
      omega
  | succ n ih =>
      intro k
      rw [retryLoop]
      cases hfound : found k with
      | some x => exact iff_of_true rfl ⟨k, le_rfl, by omega, by rw [hfound]; rfl⟩
      | none =>
          dsimp only
          rw [ih]
          constructor
          · rintro ⟨j, hj, hj', hsome⟩
            exact ⟨j, by omega, by omega, hsome⟩
          · rintro ⟨j, hj, hj', hsome⟩
            have hne : j ≠ k := by
              rintro rfl
              rw [hfound] at hsome
              exact absurd hsome (by simp)
            exact ⟨j, by omega, by omega, hsome⟩

end Retry

lemma sendCommand_valid {addr dst len : ℕ} (hdst : wmiBuffer addr = some dst) (hlen : len < 65536)
    (hhead : AddressFits r.head sizeofMboxRingDesc) : ∀ a ∈ sendCommand r dst len, a.Valid := by
  have hwords := memcpy32_le len
  have hcmd : dst + memcpy32 WmiCmd.sizeofCmd ≤ wil6210MemSize := wmiBuffer_fits hdst (by decide)
  have hbuf : dst + (WmiCmd.sizeofCmd + memcpy32 len) ≤ wil6210MemSize :=
    wmiBuffer_fits hdst ((Nat.add_le_add_left hwords _).trans
      (by rw [show WmiCmd.sizeofCmd = 16 from rfl]; omega))
  have hsync : AddressFits r.head 4 :=
    ⟨hhead.1, (Nat.add_le_add_left (by decide) _).trans hhead.2⟩
  simp only [sendCommand, List.forall_mem_cons, valid_io_csrOffset, valid_io_nat]
  exact ⟨hcmd, (Nat.add_assoc _ _ _).trans_le hbuf, hsync, by decide, by decide,
    List.forall_mem_nil _⟩

/-- The remainder is all that can go wrong from "next head" on. -/
lemma sendNext_valid_iff (card : SendAnswers) {addr len : ℕ} (hlen : len < 65536)
    (hhead : AddressFits r.head sizeofMboxRingDesc) :
    (∀ a ∈ sendNext r card addr len, a.Valid) ↔ r.size ≠ 0 := by
  rw [sendNext, List.cons_append, List.forall_mem_cons, List.forall_mem_append]
  refine and_iff_left ⟨fun a ha => ?_, ?_⟩
  · rw [mem_retryLoop ha, valid_io_nat]
    decide
  · cases (retryLoop _ _ 5 0).2 with
    | none => exact List.forall_mem_nil _
    | some _ =>
        dsimp only
        cases hdst : wmiBuffer addr with
        | none => exact List.forall_mem_nil _
        | some dst => exact sendCommand_valid hdst hlen hhead

/-- Behind the checks, what can go wrong is the descriptor at `head`, and the remainder. -/
lemma sendHead_valid_iff (card : SendAnswers) {head len : ℕ} (hhead : wmiAddr r.head = some head)
    (hlen : len < 65536) :
    (∀ a ∈ sendHead r card head len, a.Valid) ↔ AddressFits r.head sizeofMboxRingDesc ∧
      ((∃ k < 5, (card.dHead k).sync = 0) → r.size ≠ 0) := by
  obtain ⟨hlow, hoff⟩ := wmiAddr_eq hhead
  set a : DeviceAccess := .io head sizeofMboxRingDesc with ha
  set found : ℕ → Option ℕ :=
    fun k => if (card.dHead k).sync = 0 then some (card.dHead k).addr else none with hfound
  have hdesc : a.Valid ↔ AddressFits r.head sizeofMboxRingDesc := by
    rw [ha, valid_io_nat, AddressFits]
    omega
  have hreads : (∀ b ∈ (retryLoop a found 5 0).1, b.Valid) ↔
      AddressFits r.head sizeofMboxRingDesc :=
    ⟨fun h => hdesc.mp (h a (mem_retryLoop_succ 4 0)),
      fun h b hb => by rw [mem_retryLoop hb]; exact hdesc.mpr h⟩
  have hsome : (retryLoop a found 5 0).2.isSome ↔ ∃ k < 5, (card.dHead k).sync = 0 := by
    rw [retryLoop_isSome]
    simp [hfound]
  rw [sendHead, ← ha, ← hfound, List.forall_mem_append, hreads]
  refine and_congr_right fun hfits => ?_
  cases haddr : (retryLoop a found 5 0).2 with
  | none =>
      rw [haddr] at hsome
      exact iff_of_true (List.forall_mem_nil _) fun h => absurd (hsome.mpr h) (by simp)
  | some addr =>
      rw [haddr] at hsome
      rw [sendNext_valid_iff card hlen hfits]
      exact ⟨fun h _ => h, fun h => h (hsome.mp rfl)⟩

/-- **`__wmi_send`.** -/
lemma wmiSendAccesses_valid_iff (card : SendAnswers) (fwready : Bool) (len : UInt16) :
    (∀ a ∈ wmiSendAccesses r card fwready len, a.Valid) ↔
      (WmiCmd.sizeofCmd + len.toNat ≤ r.entrySize → fwready = true → wmiAddr r.head ≠ none →
        AddressFits r.head sizeofMboxRingDesc ∧
          ((∃ k < 5, (card.dHead k).sync = 0) → r.size ≠ 0)) := by
  rw [wmiSendAccesses]
  split_ifs with hsize hready
  · exact iff_of_true (List.forall_mem_nil _) fun h => absurd h (by omega)
  · cases hhead : wmiAddr r.head with
    | none => exact iff_of_true (List.forall_mem_nil _) fun _ _ h => absurd rfl h
    | some head =>
        rw [sendHead_valid_iff card hhead len.toNat_lt]
        exact ⟨fun h _ _ _ => h, fun h => h (by omega) hready (by simp)⟩
  · exact iff_of_true (List.forall_mem_nil _) fun _ h => absurd h hready

/-! ## `wmi_recv_cmd` -/

/-- The remainder is all that can go wrong in a pass that read the descriptor at `tail`. -/
lemma recvEvent_valid_iff {addr src len : ℕ} (hsrc : wmiBuffer addr = some src)
    (hlen : len < 65536) (htail : AddressFits r.tail sizeofMboxRingDesc) :
    (∀ a ∈ recvEvent r src len, a.Valid) ↔ r.size ≠ 0 := by
  have hwords := memcpy32_le len
  have hbuf : src + (sizeofMboxHdr + memcpy32 len) ≤ wil6210MemSize :=
    wmiBuffer_fits hsrc ((Nat.add_le_add_left hwords _).trans
      (by rw [show sizeofMboxHdr = 8 from rfl]; omega))
  have hsync : AddressFits r.tail 4 :=
    ⟨htail.1, (Nat.add_le_add_left (by decide) _).trans htail.2⟩
  simp only [recvEvent, List.forall_mem_cons, valid_io_csrOffset, valid_io_nat]
  exact ⟨fun h => h.2.2.1, fun h => ⟨(Nat.add_assoc _ _ _).trans_le hbuf, hsync, h, by decide,
    List.forall_mem_nil _⟩⟩

lemma valid_mboxRxHead : (DeviceAccess.io mboxRxHead 4).Valid := by decide

/-- The header of an event can be read wherever `wmi_buffer` admits it. -/
lemma valid_hdr {addr src : ℕ} (hsrc : wmiBuffer addr = some src) :
    (DeviceAccess.io src sizeofMboxHdr).Valid :=
  (valid_io_nat _ _).mpr (wmiBuffer_fits hsrc (by decide))

lemma recvAccesses_valid (kmallocOk : ℕ → Bool) (cards : List RecvAnswers) :
    ∀ (k : ℕ) (r : MboxRing), RecvFits r cards →
      ∀ a ∈ recvAccesses kmallocOk k r cards, a.Valid := by
  induction cards with
  | nil =>
      intro k r _
      exact List.forall_mem_nil _
  | cons card cards ih =>
      intro k r h
      rw [recvAccesses]
      refine List.forall_mem_cons.mpr ⟨valid_mboxRxHead, ?_⟩
      by_cases hempty : r.tail = card.head
      · rw [if_pos hempty]
        exact List.forall_mem_nil _
      · obtain ⟨htail, hrest⟩ := h.resolve_left hempty
        rw [if_neg hempty]
        refine List.forall_mem_cons.mpr ⟨(valid_io_csrOffset _ _).mpr htail, ?_⟩
        by_cases hsync : card.dTail.sync = 0
        · rw [if_pos hsync]
          exact List.forall_mem_nil _
        · rw [if_neg hsync]
          cases hsrc : wmiBuffer card.dTail.addr with
          | none => exact List.forall_mem_nil _
          | some src =>
              obtain ⟨hsize, hfits⟩ := hrest ⟨hsync, by rw [hsrc]; simp⟩
              refine List.forall_mem_cons.mpr ⟨valid_hdr hsrc, ?_⟩
              split_ifs
              · exact List.forall_mem_append.mpr
                  ⟨(recvEvent_valid_iff hsrc card.len.toNat_lt htail).mpr hsize, ih _ _ hfits⟩
              · exact List.forall_mem_nil _

/-- Where the memory for the events is there, all passes are made. -/
lemma recvFits_of_valid (cards : List RecvAnswers) : ∀ (k : ℕ) (r : MboxRing),
    (∀ a ∈ recvAccesses (fun _ => true) k r cards, a.Valid) → RecvFits r cards := by
  induction cards with
  | nil =>
      intro k r _
      trivial
  | cons card cards ih =>
      intro k r h
      rw [recvAccesses] at h
      by_cases hempty : r.tail = card.head
      · exact .inl hempty
      · rw [if_neg hempty] at h
        obtain ⟨htail, hpass⟩ := List.forall_mem_cons.mp (List.forall_mem_cons.mp h).2
        rw [valid_io_csrOffset] at htail
        refine .inr ⟨htail, fun hdelivers => ?_⟩
        obtain ⟨src, hsrc⟩ := Option.ne_none_iff_exists'.mp hdelivers.2
        rw [if_neg hdelivers.1, hsrc] at hpass
        obtain ⟨hevent, hrest⟩ := List.forall_mem_append.mp (List.forall_mem_cons.mp hpass).2
        exact ⟨(recvEvent_valid_iff hsrc card.len.toNat_lt htail).mp hevent, ih _ _ hrest⟩

/-! ## The tail pointers -/

/-- The loop of `wil_rx_refill` leaves the tail pointer alone. -/
lemma access_rxRefillLoop (outcome : ℕ → RxAlloc) (n : ℕ) : ∀ s : RxState,
    (rxRefillLoop outcome n s).1.vring.hwtail = s.vring.hwtail ∧
      (rxRefillLoop outcome n s).2.1.filterMap RxRingEvent.access = [] := by
  induction n with
  | zero =>
      intro s
      exact ⟨rfl, rfl⟩
  | succ n ih =>
      intro s
      have halloc : (wilVringAllocSkb s s.vring.swtail (outcome s.allocs)).1.vring.hwtail
            = s.vring.hwtail ∧
          (wilVringAllocSkb s s.vring.swtail (outcome s.allocs)).2.1.filterMap RxRingEvent.access
            = [] := by
        unfold wilVringAllocSkb
        cases outcome s.allocs <;> exact ⟨rfl, rfl⟩
      rw [rxRefillLoop]
      split_ifs
      · exact ⟨rfl, rfl⟩
      · dsimp only
        split_ifs
        · exact halloc
        · obtain ⟨hhwtail, hnone⟩ := ih { (wilVringAllocSkb s s.vring.swtail
            (outcome s.allocs)).1 with vring := { (wilVringAllocSkb s s.vring.swtail
              (outcome s.allocs)).1.vring with swtail := s.vring.nextTail } }
          exact ⟨hhwtail.trans halloc.1, by rw [List.filterMap_append, halloc.2, hnone]; rfl⟩

/-- `wil_rx_refill` always ends with its write. -/
lemma access_wilRxRefill (s : RxState) (count : ℤ) (outcome : ℕ → RxAlloc) :
    (wilRxRefill s count outcome).2.1.filterMap RxRingEvent.access
      = [.io (csrOffset s.vring.hwtail) 4] := by
  obtain ⟨hhwtail, hnone⟩ := access_rxRefillLoop outcome count.toNat s
  rw [wilRxRefill, List.filterMap_append, hnone, ← hhwtail]
  rfl

/-- A call that posts has no access but that to the tail pointer of its ring. -/
lemma CallEvents.access {v : Vring} {es : List TxEvent} (h : CallEvents v es) :
    ∀ a ∈ es.filterMap TxEvent.access, a = .io (csrOffset v.hwtail) 4 := by
  obtain ⟨fs, hfs, hes⟩ := h
  have hstop : (txStop v).filterMap TxEvent.access = [] := by
    rw [txStop]
    split_ifs <;> rfl
  have hwork : fs.filterMap TxEvent.access = [] := by
    refine List.filterMap_eq_nil_iff.mpr fun e he => ?_
    have hring := hfs e he
    cases e with
    | iowriteHwtail hwtail swhead => exact absurd hring (by simp [TxEvent.onRing])
    | _ => rfl
  rcases hes with rfl | ⟨swhead, rfl⟩
  · rw [List.filterMap_append, hstop, hwork]
    exact List.forall_mem_nil _
  · rw [List.filterMap_append, List.filterMap_append, hstop, hwork]
    exact List.forall_mem_singleton.mpr rfl

/-- A ring on which one descriptor is free. -/
private def oneFree (hwtail : ℕ) : TxState :=
  { blankTx with vring := { blankTx.vring with va := true, size := 2, hwtail := hwtail } }

lemma access_onePiece (hwtail : ℕ) : .io (csrOffset hwtail) 4 ∈
    (wilTxVring (oneFree hwtail) onePiece).2.1.filterMap TxEvent.access := by
  have hevents : (wilTxVring (oneFree hwtail) onePiece).2.1
      = [.write 0, .skbGet onePiece.skb, .write 0, .iowriteHwtail hwtail 1] := by
    with_unfolding_all rfl
  rw [hevents]
  exact List.mem_singleton_self _

lemma access_tcpPacket (hwtail : ℕ) : .io (csrOffset hwtail) 4 ∈
    (wilTxVringTso (oneFree hwtail) (tcpPacket 100 0 [])).2.1.filterMap TxEvent.access := by
  have hevents : (wilTxVringTso (oneFree hwtail) (tcpPacket 100 0 [])).2.1
      = [.write 0, .skbGet (tcpPacket 100 0 []).skb, .write 0, .write 0, .write 0,
        .iowriteHwtail hwtail 1] := by
    with_unfolding_all rfl
  rw [hevents]
  exact List.mem_singleton_self _

/-! ## All functions -/

/-- **What the card has to supply.**  All accesses that a function may make with what it gets from
the card are inside of BAR0, and all its remainders are defined, exactly where what it gets fits. -/
theorem devicePointers_iff (x : CardInput) : (∀ a, x.Makes a → a.Valid) ↔ x.Fits := by
  cases x with
  | wmiSend r card =>
      constructor
      · intro h hsize hhead
        exact (wmiSendAccesses_valid_iff card true 0).mp (fun a ha => h a ⟨true, 0, ha⟩) hsize rfl
          hhead
      · rintro h a ⟨fwready, len, ha⟩
        exact (wmiSendAccesses_valid_iff card fwready len).mpr
          (fun hsize _ hhead => h (by omega) hhead) a ha
  | wmiRecvCmd r cards =>
      constructor
      · intro h
        exact recvFits_of_valid cards 0 r fun a ha => h a ⟨true, fun _ => true, ha⟩
      · rintro h a ⟨resetDone, kmallocOk, ha⟩
        rw [wmiRecvCmdAccesses] at ha
        split_ifs at ha
        · exact recvAccesses_valid kmallocOk cards 0 r h a ha
        · exact absurd ha List.not_mem_nil
  | wilRxRefill hwtail =>
      rw [CardInput.Fits, ← valid_io_csrOffset]
      constructor
      · intro h
        let s : RxState := ⟨⟨true, fun _ => ⟨0, 0, 0, 0, 0, 0, 0, 0⟩, 2, 0, 0, hwtail,
          fun _ => none⟩, 0⟩
        refine h _ ⟨s, 1, fun _ => .noSkb, rfl, ?_⟩
        rw [access_wilRxRefill]
        exact List.mem_singleton_self _
      · rintro h a ⟨s, count, outcome, rfl, ha⟩
        rw [access_wilRxRefill] at ha
        rwa [List.mem_singleton.mp ha]
  | wilTxVring hwtail =>
      rw [CardInput.Fits, ← valid_io_csrOffset]
      constructor
      · intro h
        exact h _ ⟨oneFree hwtail, onePiece, rfl, access_onePiece hwtail⟩
      · rintro h a ⟨s, q, rfl, ha⟩
        rwa [(wilTxVring_events s q).access a ha]
  | wilTxVringTso hwtail =>
      rw [CardInput.Fits, ← valid_io_csrOffset]
      constructor
      · intro h
        exact h _ ⟨oneFree hwtail, tcpPacket 100 0 [], rfl, access_tcpPacket hwtail⟩
      · rintro h a ⟨s, q, rfl, ha⟩
        rwa [(wilTxVringTso_events s q).access a ha]

/-- A card with nothing in its control block but `rx.head`, at the second descriptor. -/
private def blankCard : ℕ → UInt8 := fun off => if off = mboxRxHead then 8 else 0

/-- The ring is at address 0, so the descriptor at `tail` is read in front of `csr`. -/
theorem not_devicePointers : ¬ ∀ (x : CardInput) (a : DeviceAccess), x.Makes a → a.Valid := by
  intro h
  let card : RecvAnswers := ⟨read32 blankCard mboxRxHead, ⟨1, 0⟩, 0⟩
  have hmakes : (CardInput.wmiRecvCmd (wilCacheMboxRegs blankCard).rx [card]).Makes
      (.io (-0x880000) 8) := ⟨true, fun _ => true, by decide +kernel⟩
  exact absurd (h _ _ hmakes) (by decide)

/-! ## Rings in the memory of the card -/

variable {buf : ℕ → ℕ}

/-- A descriptor of a ring that is in the memory of the card is so, too. -/
lemma addressFits_slot (L : MboxLayout r.toMboxArea buf)
    (hend : AddressFits r.base r.size) (p : ℕ) :
    AddressFits (r.slot p) sizeofMboxRingDesc := by
  have hp := L.mod_lt p
  have hsize := L.size_eq
  simp only [AddressFits, MboxArea.slot, sizeofMboxRingDesc] at *
  omega

/-- **`__wmi_send` stays inside** where the ring is in the memory and `head` at a descriptor. -/
theorem wmiSend_fits (L : MboxLayout r.toMboxArea buf) (hend : AddressFits r.base r.size)
    {p : ℕ} (hhead : r.head = r.slot p) (card : SendAnswers) :
    (CardInput.wmiSend r card).Fits := by
  intro _ _
  rw [hhead]
  exact ⟨addressFits_slot L hend p, fun _ => L.size_pos.ne'⟩

/-- **`wmi_recv_cmd` stays inside** where the ring is in the memory and `tail` at a descriptor:
every event takes it to the next one. -/
theorem wmiRecvCmd_fits (L : MboxLayout r.toMboxArea buf) (hend : AddressFits r.base r.size)
    {p : ℕ} (htail : r.tail = r.slot p) (cards : List RecvAnswers) :
    (CardInput.wmiRecvCmd r cards).Fits := by
  rw [CardInput.Fits]
  induction cards generalizing r p with
  | nil => trivial
  | cons card cards ih =>
      have hdesc := addressFits_slot L hend p
      rw [← htail] at hdesc
      have harea : (r.advanceTail card.head).toMboxArea = r.toMboxArea := by
        rw [MboxRing.advanceTail]
      have hnext : (r.advanceTail card.head).tail = (r.advanceTail card.head).slot (p + 1) := by
        rw [harea, ← L.next_slot p, ← htail, MboxRing.advanceTail]
      refine .inr ⟨hdesc, fun _ => ⟨L.size_pos.ne', ih ?_ ?_ hnext⟩⟩
      · rwa [harea]
      · rwa [harea]

end Wil6210
