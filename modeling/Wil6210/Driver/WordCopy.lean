import Wil6210.Driver.DevicePointers

/-!
# Copies in words

The card is read and written in words of 32 bits only, so `main.c` has its own `memcpy`: a loop that
counts a `size_t` down by 4, from `count + 4`, as long as it is more than 4.  Where the sum does not
wrap, that is one word for each 4 bytes or part of them (`wilMemcpyFromio32_eq`): up to 3 bytes are
moved that nobody asked for.

`wmi_recv_cmd` copies an event so, and rounds the size of its buffer up.  The length of the event is
what its header says, and it is not checked against the buffer on the card; `eventCopy_inside` says
that the copy stays in the memory of the card all the same, and in the buffer of the driver.
`eventCopy_bytes` says that the bytes are those that `RecvSys` puts on its list.
-/

namespace Wil6210

open ByteMemory

/-! ## The loop -/

/-- `SIZE_MAX` -/
def sizeMax : ℕ := 18446744073709551615

lemma sizeT_of_le {x : ℕ} (h : x ≤ sizeMax) : sizeT x = x :=
  Nat.mod_eq_of_lt (Nat.lt_succ_of_le h)

/-- `*d++ = __raw_readl(s++)`, or `__raw_writel(*s++, d++)`: a word, by where it goes and where it
comes from. -/
structure WordMove where
  d : ℕ
  s : ℕ
  deriving DecidableEq, Repr

/-- `count -= 4` -/
def sizeTSub4 (count : ℕ) : ℕ := sizeT (count + 18446744073709551616 - 4)

lemma sizeTSub4_lt {count : ℕ} (h : 4 < count) : sizeTSub4 count < count := by
  unfold sizeTSub4 sizeT
  omega

/-- `for (; count > 4; count -= 4)`, with one word in each pass. -/
def wordLoop (d s count : ℕ) : List WordMove :=
  if 4 < count then ⟨d, s⟩ :: wordLoop (d + 4) (s + 4) (sizeTSub4 count) else []
termination_by count
decreasing_by exact sizeTSub4_lt ‹_›

/-- `wil_memcpy_fromio_32` -/
def wilMemcpyFromio32 (d s count : ℕ) : List WordMove := wordLoop d s (sizeT (count + 4))

/-- `wil_memcpy_toio_32` -/
def wilMemcpyToio32 (d s count : ℕ) : List WordMove := wordLoop d s (sizeT (count + 4))

/-- So many words in a row. -/
def wordRow (d s n : ℕ) : List WordMove := (List.range n).map fun i => ⟨d + 4 * i, s + 4 * i⟩

/-- What is in the memory with `dst` once words were moved there from `src`. -/
def moveWords (src dst : ℕ → UInt8) (ws : List WordMove) : ℕ → UInt8 :=
  ws.foldl (fun m w => write m w.d (read src w.s 4)) dst

/-- All words go into the first `room` bytes. -/
def WordsFit (room : ℕ) (ws : List WordMove) : Prop := ∀ w ∈ ws, w.d + 4 ≤ room

/-- All words come from BAR0, which `s` is an offset in. -/
def WordsOfCard (ws : List WordMove) : Prop := ∀ w ∈ ws, w.s + 4 ≤ wil6210MemSize

/-! ## How many words -/

variable {d s n count : ℕ}

lemma wordRow_succ (d s n : ℕ) :
    wordRow d s (n + 1) = ⟨d, s⟩ :: wordRow (d + 4) (s + 4) n := by
  rw [wordRow, wordRow, List.range_succ_eq_map, List.map_cons, List.map_map]
  refine congrArg _ (List.map_congr_left fun i _ => ?_)
  simp only [Function.comp_apply, Nat.succ_eq_add_one]
  congr 1 <;> omega

lemma map_d_wordRow (d s n : ℕ) :
    (wordRow d s n).map WordMove.d = (List.range n).map fun i => d + 4 * i :=
  List.map_map

lemma map_s_wordRow (d s n : ℕ) :
    (wordRow d s n).map WordMove.s = (List.range n).map fun i => s + 4 * i :=
  List.map_map

/-- Two rows, one behind the other. -/
lemma offsets_append {a b m : ℕ} (hb : b = a + 4 * n) :
    (List.range n).map (fun i => a + 4 * i) ++ (List.range m).map (fun i => b + 4 * i)
      = (List.range (n + m)).map fun i => a + 4 * i := by
  rw [List.range_add, List.map_append, List.map_map]
  refine congrArg _ (List.map_congr_left fun i _ => ?_)
  rw [Function.comp_apply, hb, Nat.mul_add, Nat.add_assoc]

/-- **The loop**, from any value of `count`. -/
lemma wordLoop_eq (hcount : count ≤ sizeMax) :
    wordLoop d s count = wordRow d s ((count - 1) / 4) := by
  induction d, s, count using wordLoop.induct with
  | case1 d s count hlt ih =>
      have hsub : sizeTSub4 count = count - 4 := by
        unfold sizeTSub4 sizeT sizeMax at *
        omega
      have hpasses : (count - 1) / 4 = (count - 4 - 1) / 4 + 1 := by omega
      rw [hsub] at ih
      rw [wordLoop, if_pos hlt, hsub, ih (by omega), hpasses, wordRow_succ]
  | case2 d s count hge =>
      have hnone : (count - 1) / 4 = 0 := by omega
      rw [wordLoop, if_neg hge, hnone]
      rfl

/-- **One word for each 4 bytes or part of them.** -/
theorem wilMemcpyFromio32_eq (hcount : count + 4 ≤ sizeMax) :
    wilMemcpyFromio32 d s count = wordRow d s ((count + 3) / 4) := by
  rw [wilMemcpyFromio32, sizeT_of_le hcount, wordLoop_eq hcount, Nat.add_sub_assoc (by norm_num)]

theorem wilMemcpyToio32_eq (hcount : count + 4 ≤ sizeMax) :
    wilMemcpyToio32 d s count = wordRow d s ((count + 3) / 4) :=
  wilMemcpyFromio32_eq hcount

/-- For the last four values of a `size_t` the sum wraps, and nothing is moved. -/
theorem wilMemcpyFromio32_wrap (hcount : sizeMax < count + 4) (hmax : count ≤ sizeMax) :
    wilMemcpyFromio32 d s count = [] := by
  have hsum : sizeT (count + 4) < 4 := by
    unfold sizeT sizeMax at *
    omega
  rw [wilMemcpyFromio32, wordLoop, if_neg (by omega)]

/-- **`SendSys` writes the words of both loops** of `__wmi_send`. -/
theorem wilMemcpyToio32_words (cmd : WmiCmd) (hlen : cmd.len < 65536) (dst : ℕ) :
    (wilMemcpyToio32 dst 0 WmiCmd.sizeofCmd
        ++ wilMemcpyToio32 (dst + WmiCmd.sizeofCmd) 0 cmd.len).map WordMove.d
      = (List.range cmd.words).map fun i => dst + 4 * i := by
  rw [wilMemcpyToio32_eq (by decide), wilMemcpyToio32_eq (by unfold sizeMax; omega),
    List.map_append, map_d_wordRow, map_d_wordRow]
  exact offsets_append rfl

/-! ## What they cover -/

lemma wordsFit_row {room : ℕ} : WordsFit room (wordRow d s n) ↔ n = 0 ∨ d + 4 * n ≤ room := by
  constructor
  · intro h
    rcases Nat.eq_zero_or_pos n with hzero | hpos
    · exact .inl hzero
    · have hlast := h ⟨d + 4 * (n - 1), s + 4 * (n - 1)⟩
        (List.mem_map.mpr ⟨n - 1, List.mem_range.mpr (by omega), rfl⟩)
      dsimp only at hlast
      exact .inr (by omega)
  · intro h w hw
    obtain ⟨i, hi, rfl⟩ := List.mem_map.mp hw
    have := List.mem_range.mp hi
    dsimp only
    omega

lemma wordsOfCard_row (h : s + 4 * n ≤ wil6210MemSize) : WordsOfCard (wordRow d s n) := by
  intro w hw
  obtain ⟨i, hi, rfl⟩ := List.mem_map.mp hw
  have := List.mem_range.mp hi
  dsimp only
  omega

/-- The words of a row, one after the other, are one copy. -/
lemma moveWords_row (src dst : ℕ → UInt8) (d s n : ℕ) :
    moveWords src dst (wordRow d s n) = write dst d (read src s (4 * n)) := by
  induction n with
  | zero =>
      funext x
      rw [write]
      simp [moveWords, wordRow, ByteMemory.read]
  | succ n ih =>
      have hlen : (read src s (4 * n)).length = 4 * n := length_read _ _ _
      have hend := write_append dst d (read src s (4 * n)) (read src (s + 4 * n) 4)
      rw [hlen] at hend
      rw [moveWords, wordRow, List.range_succ, List.map_append, List.foldl_append]
      show write (moveWords src dst (wordRow d s n)) _ _ = _
      rw [ih, Nat.mul_succ, read_add, ← hend]

/-- **A copy in words is a copy of `memcpy32 count` bytes.** -/
theorem moveWords_fromio (src dst : ℕ → UInt8) (hcount : count + 4 ≤ sizeMax) :
    moveWords src dst (wilMemcpyFromio32 d s count)
      = write dst d (read src s (memcpy32 count)) := by
  rw [wilMemcpyFromio32_eq hcount, moveWords_row, memcpy32]

/-- What was asked for is there. -/
theorem read_fromio (src dst : ℕ → UInt8) (hcount : count + 4 ≤ sizeMax) (hn : n ≤ count) :
    ByteMemory.read (moveWords src dst (wilMemcpyFromio32 d s count)) d n
      = ByteMemory.read src s n := by
  obtain ⟨pad, hpad⟩ : ∃ pad, memcpy32 count = n + pad :=
    Nat.exists_eq_add_of_le (by unfold memcpy32; omega)
  have hfirst := read_write_append dst d (ByteMemory.read src s n)
    (ByteMemory.read src (s + n) pad)
  rw [moveWords_fromio src dst hcount, hpad, read_add]
  rwa [length_read] at hfirst

/-! ## The copy of an event -/

/-- `ALIGN(x, 4)`, in a `size_t`. -/
def align4 (x : ℕ) : ℕ := sizeT (x + 3) &&& (sizeMax - 3)

/-- `offsetof(struct pending_wmi_event, event)`: there is a `struct list_head` in front of it. -/
def offsetofEvent : ℕ := 16

/-- `offsetof(struct pending_wmi_event, event.wmi)` -/
def offsetofEventWmi : ℕ := offsetofEvent + sizeofMboxHdr

/-- `wmi_read_hdr`, by the words that go to `hdr`. -/
def wmiReadHdr (ptr : ℕ) : Except ℤ (List WordMove) :=
  match wmiBuffer ptr with
  | none => .error eInval
  | some src => .ok (wilMemcpyFromio32 0 src sizeofMboxHdr)

/-- How `wmi_recv_cmd` takes an event: the words of the header, how many bytes it asks `kmalloc`
for, and the words of the payload. -/
structure EventCopy where
  hdr : List WordMove
  alloc : ℕ
  payload : List WordMove
  deriving DecidableEq, Repr

/-- `wmi_recv_cmd` from `wmi_read_hdr` to the copy, with the address in the descriptor and
`hdr.len`, where `kmalloc` finds memory. -/
def eventCopy (addr : ℕ) (len : UInt16) : Except ℤ EventCopy := do
  let hdr ← wmiReadHdr addr
  -- not `NULL` here: `wmi_read_hdr` has read there
  let src := (wmiBuffer addr).getD 0 + sizeofMboxHdr
  return {
    hdr := hdr
    alloc := align4 (sizeT (offsetofEventWmi + len.toNat))
    payload := wilMemcpyFromio32 offsetofEventWmi src len.toNat }

/-- The piece of memory at `evt` after the copy, where it held `heap`; the header was read when the
card held `card`, the payload when it holds `card'`. -/
def EventCopy.evt (x : EventCopy) (card card' heap : ℕ → UInt8) : ℕ → UInt8 :=
  let hdr := moveWords card (fun _ => 0) x.hdr
  moveWords card' (write heap offsetofEvent (ByteMemory.read hdr 0 sizeofMboxHdr)) x.payload

/-- The mask rounds up. -/
lemma align4_eq {x : ℕ} (hx : x + 3 ≤ sizeMax) : align4 x = 4 * ((x + 3) / 4) := by
  have hlow : ((x + 3) &&& (sizeMax - 3)) % 2 ^ 2 = 0 := by
    rw [Nat.and_mod_two_pow, show (sizeMax - 3) % 2 ^ 2 = 0 by decide, Nat.and_zero]
  have hhigh : ((x + 3) &&& (sizeMax - 3)) / 2 ^ 2 = (x + 3) / 2 ^ 2 := by
    rw [Nat.and_div_two_pow, show (sizeMax - 3) / 2 ^ 2 = 2 ^ 62 - 1 by decide,
      Nat.and_two_pow_sub_one_eq_mod]
    unfold sizeMax at hx
    omega
  rw [align4, sizeT_of_le hx]
  omega

/-- The header is read in two words. -/
lemma wmiReadHdr_eq {addr buf : ℕ} (h : wmiBuffer addr = some buf) :
    wmiReadHdr addr = .ok (wordRow 0 buf 2) := by
  rw [wmiReadHdr, h]
  exact congrArg _ (wilMemcpyFromio32_eq (by decide))

lemma eventCopy_eq {addr buf : ℕ} (h : wmiBuffer addr = some buf) (len : UInt16) :
    eventCopy addr len = .ok
      { hdr := wordRow 0 buf 2
        alloc := 4 * ((offsetofEventWmi + len.toNat + 3) / 4)
        payload := wordRow offsetofEventWmi (buf + sizeofMboxHdr) ((len.toNat + 3) / 4) } := by
  have hlen : len.toNat < 65536 := len.toNat_lt
  have hsize : offsetofEventWmi + len.toNat + 3 ≤ sizeMax := by
    simp only [offsetofEventWmi, offsetofEvent, sizeofMboxHdr, sizeMax]
    omega
  have hpayload : wilMemcpyFromio32 offsetofEventWmi (buf + sizeofMboxHdr) len.toNat
      = wordRow offsetofEventWmi (buf + sizeofMboxHdr) ((len.toNat + 3) / 4) :=
    wilMemcpyFromio32_eq (by unfold sizeMax; omega)
  rw [eventCopy, wmiReadHdr_eq h, h, sizeT_of_le ((Nat.le_add_right _ 3).trans hsize),
    align4_eq hsize]
  exact congrArg (fun ws => Except.ok (EventCopy.mk _ _ ws)) hpayload

/-- **An event is copied inside.**  For every buffer that `wmi_buffer` accepts and every length, the
words read are those from the buffer on, all in the memory of the card, and the words stored are
in the buffers of the driver. -/
theorem eventCopy_inside (addr : UInt32) (len : UInt16) {buf : ℕ}
    (h : wmiBuffer addr.toNat = some buf) :
    ∃ x, eventCopy addr.toNat len = .ok x ∧
      (x.hdr ++ x.payload).map WordMove.s
        = (List.range (2 + (len.toNat + 3) / 4)).map (fun i => buf + 4 * i) ∧
      WordsOfCard (x.hdr ++ x.payload) ∧ WordsFit sizeofMboxHdr x.hdr ∧
      WordsFit x.alloc x.payload := by
  have hlen : len.toNat < 65536 := len.toNat_lt
  have hfits : buf + (8 + 4 * ((len.toNat + 3) / 4)) ≤ wil6210MemSize :=
    wmiBuffer_fits h (by omega)
  refine ⟨_, eventCopy_eq h len, ?_, ?_, ?_, ?_⟩
  · rw [List.map_append, map_s_wordRow, map_s_wordRow]
    exact offsets_append rfl
  · intro w hw
    rcases List.mem_append.mp hw with hw | hw
    · exact wordsOfCard_row (by omega) w hw
    · exact wordsOfCard_row (by rw [sizeofMboxHdr]; omega) w hw
  · exact wordsFit_row.mpr (.inr (by decide))
  · refine wordsFit_row.mpr (.inr ?_)
    simp only [offsetofEventWmi, offsetofEvent, sizeofMboxHdr]
    omega

/-- The event of 65535 bytes in the last word of the memory that is mapped. -/
theorem eventCopy_inside_last : ∃ x, eventCopy 0x948ffc 65535 = .ok x ∧
    WordsOfCard (x.hdr ++ x.payload) ∧ WordsFit x.alloc x.payload := by
  have hbuf : wmiBuffer (0x948ffc : UInt32).toNat = some 0xc8ffc := by decide
  obtain ⟨x, hx, -, hcard, -, halloc⟩ := eventCopy_inside 0x948ffc 65535 hbuf
  exact ⟨x, hx, hcard, halloc⟩

/-! ## What the copy holds -/

/-- The words leave in `evt` the header and the payload. -/
theorem eventCopy_bytes {addr buf : ℕ} (h : wmiBuffer addr = some buf) (len : UInt16)
    {x : EventCopy} (hx : eventCopy addr len = .ok x) (card card' heap : ℕ → UInt8) :
    ByteMemory.read (x.evt card card' heap) offsetofEvent (sizeofMboxHdr + len.toNat)
      = ByteMemory.read card buf sizeofMboxHdr
        ++ ByteMemory.read card' (buf + sizeofMboxHdr) len.toNat := by
  rw [eventCopy_eq h] at hx
  obtain rfl := Except.ok.inj hx
  set hdr := ByteMemory.read card buf sizeofMboxHdr with hdrDef
  set payload := ByteMemory.read card' (buf + sizeofMboxHdr) len.toNat
  have hhdr : ByteMemory.read (moveWords card (fun _ => 0) (wordRow 0 buf 2)) 0 sizeofMboxHdr
      = hdr := by
    have hlen : hdr.length = sizeofMboxHdr := length_read _ _ _
    rw [moveWords_row, show 4 * 2 = sizeofMboxHdr from rfl, ← hdrDef, ← hlen, read_write]
  -- the last word may go beyond the payload
  obtain ⟨pad, hpad⟩ : ∃ pad, 4 * ((len.toNat + 3) / 4) = len.toNat + pad :=
    Nat.exists_eq_add_of_le (by omega)
  have hread := read_add card' (buf + sizeofMboxHdr) len.toNat pad
  have hlen : (hdr ++ payload).length = sizeofMboxHdr + len.toNat := by
    rw [List.length_append, length_read, length_read]
  have hjoin := write_append heap offsetofEvent hdr
  rw [length_read] at hjoin
  rw [EventCopy.evt, hhdr, moveWords_row, hpad, hread, offsetofEventWmi, hjoin,
    ← List.append_assoc, ← hlen, read_write_append]

lemma hdrLen_lt (hdr : List UInt8) : hdrLen hdr < 65536 := by
  have hlow := (hdr.getD 2 0).toNat_lt
  have hhigh := (hdr.getD 3 0).toNat_lt
  unfold hdrLen
  omega

/-- **`RecvSys` takes the bytes that the loop leaves**, from the states in which it reads the header
and the payload. -/
theorem recvStep_eventCopy (s s' : RecvSys) (kmallocOk : Bool) {addr buf : ℕ}
    (h : wmiBuffer addr = some buf) (heap : ℕ → UInt8) :
    ∃ hdr, (s.recvStep kmallocOk (.hdr addr)).recv = some (.alloc (buf + sizeofMboxHdr) hdr) ∧
      ∃ (len : UInt16) (x : EventCopy), len.toNat = hdrLen hdr ∧ eventCopy addr len = .ok x ∧
        (s'.recvStep kmallocOk (.copy (buf + sizeofMboxHdr) hdr)).recv
          = some (.clear (ByteMemory.read (x.evt s.wil.mem s'.wil.mem heap) offsetofEvent
              (sizeofMboxHdr + len.toNat))) := by
  set hdr := ByteMemory.read s.wil.mem buf sizeofMboxHdr with hdrDef
  have hlen : (UInt16.ofNat (hdrLen hdr)).toNat = hdrLen hdr := by
    rw [UInt16.toNat_ofNat']
    exact Nat.mod_eq_of_lt (hdrLen_lt hdr)
  have hcopy := eventCopy_eq h (UInt16.ofNat (hdrLen hdr))
  refine ⟨hdr, ?_, UInt16.ofNat (hdrLen hdr), _, hlen, hcopy, ?_⟩
  · simp only [RecvSys.recvStep, h, hdrDef]
  · rw [eventCopy_bytes h _ hcopy, hlen, RecvSys.recvStep]

end Wil6210
