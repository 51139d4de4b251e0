import Wil6210.Kernel
import Wil6210.Lib.Circular
import Wil6210.Lib.Memory

/-!
# The mailbox

The host and the firmware talk through two rings in the memory of the card, one for each direction.
An entry of a ring is a descriptor, `sync` and the address of a buffer; `sync` is set by the party
that fills the buffer and cleared by the one that empties it.  The rings' `head` and `tail` are
addresses of descriptors and stand in `struct wil6210_mbox_ctl`, in the memory of the card too.

Addresses are those of the firmware.  `wmi_buffer` maps the address of a buffer to an offset from
`csr`, which is what the memory below is indexed by, and `wmi_addr` the address of a descriptor.

Positions of a ring only ever grow; position `p` is the descriptor at `MboxArea.slot p`.
-/

namespace Wil6210

open ByteMemory Circular

/-! ## Addresses -/

/-- `WIL6210_FW_HOST_OFF` -/
def wil6210FwHostOff : ℕ := 0x880000

/-- `WIL6210_MEM_SIZE` -/
def wil6210MemSize : ℕ := 2 * 1024 * 1024

/-- `HOSTADDR` -/
def hostaddr (fwaddr : ℕ) : ℕ := fwaddr - wil6210FwHostOff

/-- `fw_mapping`: `from`, `to` and `host`. -/
def fwMapping : List (ℕ × ℕ × ℕ) :=
  [(0x000000, 0x040000, 0x8c0000), (0x800000, 0x808000, 0x900000), (0x840000, 0x860000, 0x908000),
    (0x880000, 0x88a000, 0x880000), (0x8c0000, 0x949000, 0x8c0000)]

/-- `wmi_addr_remap` -/
def wmiAddrRemap (x : ℕ) : ℕ :=
  match fwMapping.find? fun e => e.1 ≤ x ∧ x < e.2.1 with
  | some e => x + e.2.2 - e.1
  | none => 0

/-- `wmi_addr`; the result is an offset from `csr`, or `NULL`. -/
def wmiAddr (ptr : ℕ) : Option ℕ :=
  if ptr % 4 ≠ 0 then none
  else if ptr < wil6210FwHostOff then none
  else if hostaddr ptr > wil6210MemSize - 4 then none
  else some (hostaddr ptr)

/-- `wmi_buffer`; the result is an offset from `csr`, or `NULL`. -/
def wmiBuffer (ptr : ℕ) : Option ℕ :=
  if ptr % 4 ≠ 0 then none
  else
    let ptr := wmiAddrRemap ptr
    if ptr < wil6210FwHostOff then none
    else if hostaddr ptr > wil6210MemSize - 4 then none
    else some (hostaddr ptr)

/-! ## Rings -/

/-- `sizeof(struct wil6210_mbox_ring_desc)` -/
def sizeofMboxRingDesc : ℕ := 8

/-- `sizeof(struct wil6210_mbox_hdr)` -/
def sizeofMboxHdr : ℕ := 8

/-- `HOST_MBOX` -/
def hostMbox : ℕ := hostaddr 0x8802bc

/-- `sizeof(struct wil6210_mbox_ctl)` -/
def sizeofMboxCtl : ℕ := 32

/-- The fields of `struct wil6210_mbox_ring` that do not change. -/
structure MboxArea where
  base : ℕ
  entrySize : ℕ
  size : ℕ

/-- `struct wil6210_mbox_ring` -/
structure MboxRing extends MboxArea where
  tail : ℕ
  head : ℕ

namespace MboxArea

variable (r : MboxArea)

/-- `r->base + ((p - r->base + sizeof(struct wil6210_mbox_ring_desc)) % r->size)` -/
def next (p : ℕ) : ℕ :=
  u32 (r.base + (u32 (p + 4294967296 - r.base) + sizeofMboxRingDesc) % r.size)

/-- How many descriptors the ring has. -/
def slots : ℕ := r.size / 8

/-- The address of the descriptor of position `p`. -/
def slot (p : ℕ) : ℕ := r.base + 8 * (p % r.slots)

/-- The offset of the descriptor `k`, where its `sync` is. -/
def desc (k : ℕ) : ℕ := hostaddr r.base + 8 * k

variable {r}

/-- Positions less than a ring apart have different descriptors. -/
lemma slot_ne {p q : ℕ} (hpq : p < q) (hq : q < p + r.slots) : r.slot p ≠ r.slot q := by
  have := ne_of_window hpq hq
  unfold slot
  omega

/-- A ring further on is the same descriptor. -/
lemma slot_add (p : ℕ) : r.slot (p + r.slots) = r.slot p := by
  rw [slot, Nat.add_mod_right, slot]

lemma desc_apart {j k : ℕ} (hjk : j ≠ k) : Apart (r.desc j) 8 (r.desc k) 8 := by
  unfold Apart desc
  omega

end MboxArea

/-- **A ring in the memory of the card**: where it is, and where its buffers `buf` are.  The
buffers are disjoint, from each other, from the descriptors and from the mailbox registers. -/
structure MboxLayout (r : MboxArea) (buf : ℕ → ℕ) : Prop where
  base_le : wil6210FwHostOff ≤ r.base
  fits : r.base + r.size ≤ 4294967296
  size_pos : 0 < r.size
  size_dvd : 8 ∣ r.size
  entry_dvd : 4 ∣ r.entrySize
  /-- `entry_size` is a `u16` -/
  entry_lt : r.entrySize < 65536
  descs_ctl : Apart (hostaddr r.base) r.size hostMbox sizeofMboxCtl
  bufs_ctl : ∀ k < r.slots, Apart (buf k) r.entrySize hostMbox sizeofMboxCtl
  bufs_descs : ∀ k < r.slots, Apart (buf k) r.entrySize (hostaddr r.base) r.size
  bufs : ∀ j < r.slots, ∀ k < r.slots, j ≠ k → Apart (buf j) r.entrySize (buf k) r.entrySize

namespace MboxLayout

variable {r : MboxArea} {buf : ℕ → ℕ}

lemma size_eq (h : MboxLayout r buf) : r.size = 8 * r.slots := (Nat.mul_div_cancel' h.size_dvd).symm

lemma slots_pos (h : MboxLayout r buf) : 0 < r.slots := by
  have := h.size_pos
  have := h.size_eq
  omega

lemma mod_lt (h : MboxLayout r buf) (p : ℕ) : p % r.slots < r.slots := Nat.mod_lt _ h.slots_pos

lemma slot_lt (h : MboxLayout r buf) (p : ℕ) : r.slot p < 4294967296 := by
  have := h.mod_lt p
  have := h.size_eq
  have := h.fits
  unfold MboxArea.slot
  omega

/-- The next descriptor is that of the next position. -/
lemma next_slot (h : MboxLayout r buf) (p : ℕ) : r.next (r.slot p) = r.slot (p + 1) := by
  have hp := h.mod_lt p
  have hsize := h.size_eq
  have hfits := h.fits
  have hdist : u32 (r.slot p + 4294967296 - r.base) = 8 * (p % r.slots) := by
    unfold u32 MboxArea.slot
    omega
  have hmod : (8 * (p % r.slots) + sizeofMboxRingDesc) % r.size = 8 * ((p + 1) % r.slots) := by
    rw [hsize, sizeofMboxRingDesc, ← Nat.mul_succ, Nat.mul_mod_mul_left, Nat.succ_eq_add_one,
      mod_succ]
  rw [MboxArea.next, hdist, hmod]
  exact Nat.mod_eq_of_lt (h.slot_lt (p + 1))

lemma hostaddr_slot (h : MboxLayout r buf) (p : ℕ) :
    hostaddr (r.slot p) = r.desc (p % r.slots) := by
  have := h.base_le
  unfold hostaddr MboxArea.slot MboxArea.desc hostaddr
  omega

/-- A descriptor is among the descriptors. -/
lemma desc_apart (h : MboxLayout r buf) {k a n : ℕ} (hk : k < r.slots)
    (ha : Apart a n (hostaddr r.base) r.size) :
    Apart a n (r.desc k) 8 := by
  have := h.size_eq
  unfold Apart MboxArea.desc at *
  omega

end MboxLayout

/-! ## A ring with messages -/

/-- The memory of a ring that had the messages `msgs` put in it, the first at position `start`: the
`sync` of those from position `c` on is set, and their bytes are in their buffers; the pointer at
the offset `reg` is at position `p`. -/
structure MboxMem (r : MboxArea) (buf : ℕ → ℕ) (start : ℕ) (msgs : List (List UInt8))
    (reg p c : ℕ) (mem : ℕ → UInt8) : Prop where
  pointer : read32 mem reg = r.slot p
  marked : Marked r.slots (fun k => read32 mem (r.desc k) ≠ 0) c (start + msgs.length)
  addrs : ∀ k < r.slots, wmiBuffer (read32 mem (r.desc k + 4)) = some (buf k)
  held : ∀ j (hj : j < msgs.length), c ≤ start + j →
    read mem (buf ((start + j) % r.slots)) msgs[j].length = msgs[j]
  fits : ∀ msg ∈ msgs, msg.length ≤ r.entrySize

namespace MboxMem

variable {r : MboxArea} {buf : ℕ → ℕ} {start reg p c : ℕ} {msgs : List (List UInt8)}
  {mem : ℕ → UInt8}

/-- A write that is apart from the descriptors and from the messages whose `sync` is set. -/
lemma write_apart (h : MboxMem r buf start msgs reg p c mem) (L : MboxLayout r buf) {off : ℕ}
    {bs : List UInt8} {p' : ℕ} (hpointer : read32 (write mem off bs) reg = r.slot p')
    (hdescs : Apart off bs.length (hostaddr r.base) r.size)
    (hbufs : ∀ j < msgs.length, c ≤ start + j →
      Apart off bs.length (buf ((start + j) % r.slots)) r.entrySize) :
    MboxMem r buf start msgs reg p' c (write mem off bs) := by
  have hdesc : ∀ k < r.slots, read32 (write mem off bs) (r.desc k) = read32 mem (r.desc k) ∧
      read32 (write mem off bs) (r.desc k + 4) = read32 mem (r.desc k + 4) := by
    intro k hk
    have := L.desc_apart hk hdescs
    exact ⟨read32_write_apart (by unfold Apart at *; omega),
      read32_write_apart (by unfold Apart at *; omega)⟩
  refine ⟨hpointer, h.marked.congr fun k hk => by rw [(hdesc k hk).1], fun k hk => ?_,
    fun j hj hc => ?_, h.fits⟩
  · rw [(hdesc k hk).2]
    exact h.addrs k hk
  · rw [read_write_apart]
    · exact h.held j hj hc
    · have := hbufs j hj hc
      have := h.fits _ (List.getElem_mem hj)
      unfold Apart at *
      omega

/-- A write to a register of the mailbox. -/
lemma write_ctl (h : MboxMem r buf start msgs reg p c mem) (L : MboxLayout r buf) {off : ℕ}
    (hoff : hostMbox ≤ off) (hend : off + 4 ≤ hostMbox + sizeofMboxCtl) {bs : List UInt8}
    (hbs : bs.length = 4) {p' : ℕ} (hpointer : read32 (write mem off bs) reg = r.slot p') :
    MboxMem r buf start msgs reg p' c (write mem off bs) := by
  refine h.write_apart L hpointer ?_ fun j _ _ => ?_
  · have := L.descs_ctl
    unfold Apart at *
    omega
  · have := L.bufs_ctl _ (L.mod_lt (start + j))
    unfold Apart at *
    omega

/-- A write to the buffer of the next position. -/
lemma write_buf (h : MboxMem r buf start msgs reg p c mem) (L : MboxLayout r buf)
    (hreg : hostMbox ≤ reg ∧ reg + 4 ≤ hostMbox + sizeofMboxCtl)
    (hroom : start + msgs.length < c + r.slots) {off : ℕ} {bs : List UInt8}
    (hoff : buf ((start + msgs.length) % r.slots) ≤ off)
    (hend : off + bs.length ≤ buf ((start + msgs.length) % r.slots) + r.entrySize) :
    MboxMem r buf start msgs reg p c (write mem off bs) := by
  have hlast := L.mod_lt (start + msgs.length)
  refine h.write_apart L ?_ ?_ fun j hj hc => ?_
  · rw [read32_write_apart]
    · exact h.pointer
    · have := L.bufs_ctl _ hlast
      unfold Apart at *
      omega
  · have := L.bufs_descs _ hlast
    unfold Apart at *
    omega
  · have hne : (start + j) % r.slots ≠ (start + msgs.length) % r.slots :=
      ne_of_window (by omega) (by omega)
    have := L.bufs _ hlast _ (L.mod_lt (start + j)) hne.symm
    unfold Apart at *
    omega

/-- A `sync` that is written leaves the rest of the descriptors, the buffers and the pointer. -/
lemma write_sync (h : MboxMem r buf start msgs reg p c mem) (L : MboxLayout r buf)
    (hreg : hostMbox ≤ reg ∧ reg + 4 ≤ hostMbox + sizeofMboxCtl) {k : ℕ} (hk : k < r.slots)
    (v : ℕ) :
    read32 (write32 mem (r.desc k) v) reg = r.slot p ∧
      (∀ i < r.slots, i ≠ k →
        read32 (write32 mem (r.desc k) v) (r.desc i) = read32 mem (r.desc i)) ∧
      (∀ i < r.slots, wmiBuffer (read32 (write32 mem (r.desc k) v) (r.desc i + 4))
        = some (buf i)) ∧
      ∀ i < r.slots, Apart (r.desc k) 4 (buf i) r.entrySize := by
  have hsize := L.size_eq
  refine ⟨?_, ?_, ?_, ?_⟩
  · rw [write32, read32_write_apart]
    · exact h.pointer
    · have := L.descs_ctl
      unfold Apart MboxArea.desc at *
      rw [length_le32]
      omega
  · intro i _ hik
    rw [write32, read32_write_apart]
    have := MboxArea.desc_apart (r := r) hik
    unfold Apart at *
    rw [length_le32]
    omega
  · intro i hi
    rw [write32, read32_write_apart]
    · exact h.addrs i hi
    · unfold Apart MboxArea.desc
      rw [length_le32]
      omega
  · intro i hi
    have := L.bufs_descs i hi
    unfold Apart MboxArea.desc at *
    omega

/-- The next message is in its buffer, and its `sync` is set. -/
lemma mark (h : MboxMem r buf start msgs reg p c mem) (L : MboxLayout r buf)
    (hreg : hostMbox ≤ reg ∧ reg + 4 ≤ hostMbox + sizeofMboxCtl)
    (hc : c ≤ start + msgs.length) (hroom : start + msgs.length < c + r.slots) {msg : List UInt8}
    (hfits : msg.length ≤ r.entrySize)
    (hheld : read mem (buf ((start + msgs.length) % r.slots)) msg.length = msg) :
    MboxMem r buf start (msgs ++ [msg]) reg p c
      (write32 mem (r.desc ((start + msgs.length) % r.slots)) 1) := by
  have hlast := L.mod_lt (start + msgs.length)
  obtain ⟨hpointer, hsync, haddrs, hbufs⟩ := h.write_sync L hreg hlast 1
  have hread : ∀ i < r.slots, ∀ n ≤ r.entrySize,
      read (write32 mem (r.desc ((start + msgs.length) % r.slots)) 1) (buf i) n
        = read mem (buf i) n := by
    intro i hi n hn
    refine read_write_apart ?_
    have := hbufs i hi
    unfold Apart at *
    rw [length_le32]
    omega
  refine ⟨hpointer, ?_, haddrs, ?_, ?_⟩
  · rw [List.length_append, List.length_singleton, ← Nat.add_assoc]
    refine h.marked.set hc hroom fun i hi => ?_
    by_cases hik : i = (start + msgs.length) % r.slots
    · subst hik
      simp [read32_write32]
    · rw [hsync i hi hik]
      simp [hik]
  · intro j hj hcj
    rw [List.length_append, List.length_singleton] at hj
    rcases Nat.lt_succ_iff_lt_or_eq.mp hj with hlt | rfl
    · simp only [List.getElem_append_left hlt]
      rw [hread _ (L.mod_lt _) _ (h.fits _ (List.getElem_mem hlt))]
      exact h.held j hlt hcj
    · simp only [List.getElem_concat_length]
      rw [hread _ hlast _ hfits]
      exact hheld
  · intro d hd
    rcases List.mem_append.mp hd with hd | hd
    · exact h.fits d hd
    · rwa [List.mem_singleton.mp hd]

/-- The first `sync` that is set is cleared. -/
lemma clear (h : MboxMem r buf start msgs reg p c mem) (L : MboxLayout r buf)
    (hreg : hostMbox ≤ reg ∧ reg + 4 ≤ hostMbox + sizeofMboxCtl)
    (hroom : start + msgs.length ≤ c + r.slots) :
    MboxMem r buf start msgs reg p (c + 1) (write32 mem (r.desc (c % r.slots)) 0) := by
  have hfirst := L.mod_lt c
  obtain ⟨hpointer, hsync, haddrs, hbufs⟩ := h.write_sync L hreg hfirst 0
  refine ⟨hpointer, ?_, haddrs, ?_, h.fits⟩
  · refine h.marked.clear hroom fun i hi => ?_
    by_cases hik : i = c % r.slots
    · subst hik
      simp [read32_write32]
    · rw [hsync i hi hik]
      simp [hik]
  · intro j hj hcj
    rw [write32, read_write_apart]
    · exact h.held j hj (by omega)
    · have := hbufs _ (L.mod_lt (start + j))
      have := h.fits _ (List.getElem_mem hj)
      unfold Apart at *
      rw [length_le32]
      omega

end MboxMem

end Wil6210
