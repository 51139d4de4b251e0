import Wil6210.Driver.WordCopy

/-!
# The card in `debugfs`

Two files show what is in the memory of the card.  `wil_read_file_ioblob` reads a part of it at a
position and of a length that the user chooses; `wil_print_ring` prints a ring of the mailbox with
the messages in it.  Both copy in words, to a buffer of their own, and a copy takes full words.

`wil_print_ring` fills variables of 16 and of 8 bytes, and a buffer of `MAX_MBOXITEM_SIZE` bytes:
all of them end with a word.  `wil_read_file_ioblob` asks `kmalloc` for as many bytes as it was
asked for, where `wmi_recv_cmd` rounds up: up to 3 bytes are written behind the buffer.
`wordCopies_fit_iff` says when.

What they show is right all the same: `ioblob_run` is about the bytes that a reader gets from any
number of calls, and `printPayload_shows` about the lines of a message.
-/

namespace Wil6210

open ByteMemory

/-- A call of `wil_memcpy_fromio_32` that fills a buffer of `room` bytes. -/
structure CopyCall where
  room : ℕ
  s : ℕ
  count : ℕ
  deriving DecidableEq, Repr

def CopyCall.words (x : CopyCall) : List WordMove := wilMemcpyFromio32 0 x.s x.count

/-- **The copy fits its destination.** -/
def CopyCall.Fits (x : CopyCall) : Prop := WordsFit x.room x.words

/-! ## `wil_read_file_ioblob` -/

/-- `struct debugfs_blob_wrapper`; `data` is an offset from `csr`. -/
structure Blob where
  data : ℕ
  size : ℕ
  deriving DecidableEq, Repr

/-- The blobs of `wil6210_debugfs_init`. -/
def debugfsBlobs : List (String × Blob) :=
  [("blob_rgf", ⟨0, 0xa000⟩), ("blob_fw_code", ⟨0x40000, 0x40000⟩),
    ("blob_fw_data", ⟨0x80000, 0x8000⟩), ("blob_fw_peri", ⟨0x88000, 0x18000⟩),
    ("blob_uc_code", ⟨0xa0000, 0x10000⟩), ("blob_uc_data", ⟨0xb0000, 0x4000⟩)]

/-- `max_count` -/
def maxCount : ℕ := 4096

/-- A call of `read`: `count`, what the memory held that `kmalloc` found, if it found some, and how
many bytes `copy_to_user` leaves out. -/
structure ReadCall where
  count : ℕ
  kmalloc : Option (ℕ → UInt8)
  copyToUser : ℕ → ℕ

/-- What comes of it: the copies, what is returned, `*ppos`, and what the user got. -/
structure ReadResult where
  copies : List CopyCall
  ret : ℤ
  ppos : ℤ
  user : List UInt8

/-- `wil_read_file_ioblob` from the copy on. -/
def copyBlob (card heap : ℕ → UInt8) (blob : Blob) (pos count : ℕ) (copyToUser : ℕ → ℕ) :
    ReadResult :=
  let copy : CopyCall := ⟨count, blob.data + pos, count⟩
  let buf := moveWords card heap copy.words
  let ret := copyToUser count
  if ret = count then ⟨[copy], eFault, pos, []⟩
  else ⟨[copy], (count - ret : ℕ), pos + (count - ret : ℕ), ByteMemory.read buf 0 (count - ret)⟩

/-- `wil_read_file_ioblob`, where the card holds `card`. -/
def wilReadFileIoblob (card : ℕ → UInt8) (blob : Blob) (ppos : ℤ) (q : ReadCall) : ReadResult :=
  let available := blob.size
  if ppos < 0 then ⟨[], eInval, ppos, []⟩
  else if ppos ≥ available ∨ q.count = 0 then ⟨[], 0, ppos, []⟩
  else
    let pos := ppos.toNat
    let count := if q.count > available - pos then available - pos else q.count
    let count := if count > maxCount then maxCount else count
    match q.kmalloc with
    | none => ⟨[], eNomem, ppos, []⟩
    | some heap => copyBlob card heap blob pos count q.copyToUser

/-- How many bytes are copied. -/
def Blob.clip (blob : Blob) (ppos : ℤ) (count : ℕ) : ℕ :=
  min (min count (blob.size - ppos.toNat)) maxCount

/-- Bytes are copied. -/
def Blob.Copies (blob : Blob) (ppos : ℤ) (q : ReadCall) : Prop :=
  0 ≤ ppos ∧ ppos < blob.size ∧ q.count ≠ 0 ∧ q.kmalloc ≠ none

/-! ## `wil_print_ring` -/

/-- `sizeof(struct wil6210_mbox_ring)` -/
def sizeofMboxRing : ℕ := 16

/-- `MAX_MBOXITEM_SIZE` -/
def maxMboxitemSize : ℕ := 240

/-- `struct wil6210_mbox_hdr` -/
structure MboxHdr where
  seq : UInt16
  len : UInt16
  type : UInt16
  flags : UInt8
  deriving DecidableEq, Repr

/-- What the card holds when `wil_print_ring` reads it: the ring, and for each entry the descriptor,
the header of the message, and its memory at the time of the payload. -/
structure RingAnswers where
  ring : MboxRing
  desc : ℕ → MboxRingDesc
  hdr : ℕ → MboxHdr
  payload : ℕ → ℕ → UInt8

/-- What `wil_print_ring` prints, by the calls of `seq_printf`. -/
inductive RingLine
  | ring (name : String)
  | base (base : ℕ)
  | size (size rsize : ℕ)
  | tail (tail : ℕ)
  | head (head : ℕ)
  | entrySize (entrySize : ℕ)
  /-- "size is not multiple of %zd, garbage?" -/
  | notMultiple (n : ℕ)
  /-- "pointers are garbage?" -/
  | pointersGarbage
  | entry (i : ℕ) (full tail head : Bool) (addr : ℕ)
  | hdr (hdr : MboxHdr)
  | noHdr
  | hex (bytes : List UInt8)
  | close
  deriving DecidableEq, Repr

/-- What `wil_print_ring` does. -/
inductive PrintEvent
  | copy (x : CopyCall)
  | line (l : RingLine)
  deriving DecidableEq, Repr

/-- `while (n < len)`: 16 bytes a line. -/
def hexDump (databuf : ℕ → UInt8) (len n : ℕ) : List (List UInt8) :=
  if n < len then
    let l := min (len - n) 16
    ByteMemory.read databuf n l :: hexDump databuf len (n + l)
  else []
termination_by len - n
decreasing_by omega

/-- The end of the loop body, for a message of `len` bytes in the buffer at `buf`; `databuf` held
`stack`. -/
def printPayload (card stack : ℕ → UInt8) (buf len : ℕ) : List PrintEvent :=
  if len ≤ maxMboxitemSize then
    let copy : CopyCall := ⟨maxMboxitemSize, buf + sizeofMboxHdr, len⟩
    .copy copy :: (hexDump (moveWords card stack copy.words) len 0).map fun l => .line (.hex l)
  else []

/-- The loop body for entry `i`. -/
def printEntry (card : RingAnswers) (stack : ℕ → UInt8) (i : ℕ) : List PrintEvent :=
  let r := card.ring
  let delta := i * sizeofMboxRingDesc
  let d := card.desc i
  .copy ⟨sizeofMboxRingDesc, hostaddr r.base + delta, sizeofMboxRingDesc⟩ ::
    .line (.entry i (d.sync ≠ 0) (u32 (r.tail + 4294967296 - r.base) = delta)
      (u32 (r.head + 4294967296 - r.base) = delta) d.addr) ::
    match wmiBuffer d.addr with
    | none => [.line .noHdr]
    | some buf =>
        .copy ⟨sizeofMboxHdr, buf, sizeofMboxHdr⟩ :: .line (.hdr (card.hdr i)) ::
          printPayload (card.payload i) stack buf (card.hdr i).len.toNat

/-- `wil_print_ring` -/
def wilPrintRing (name : String) (off : ℕ) (card : RingAnswers) (stack : ℕ → UInt8) :
    List PrintEvent :=
  let r := card.ring
  let rsize := r.size / sizeofMboxRingDesc
  [.copy ⟨sizeofMboxRing, off, sizeofMboxRing⟩, .line (.ring name), .line (.base r.base),
    .line (.size r.size rsize), .line (.tail r.tail), .line (.head r.head),
    .line (.entrySize r.entrySize)] ++
  (if r.size % sizeofMboxRingDesc ≠ 0 then [.line (.notMultiple sizeofMboxRingDesc)]
    else if (wmiAddr r.base).isNone ∨ (wmiAddr r.tail).isNone ∨ (wmiAddr r.head).isNone then
      [.line .pointersGarbage]
    else (List.range rsize).flatMap (printEntry card stack)) ++
  [.line .close]

/-! ## What fits -/

namespace CopyCall

variable {x : CopyCall}

lemma fits_iff (hcount : x.count + 4 ≤ sizeMax) : x.Fits ↔ memcpy32 x.count ≤ x.room := by
  rw [Fits, words, wilMemcpyFromio32_eq hcount, wordsFit_row, memcpy32]
  omega

/-- A buffer of the size asked for is large enough if it ends with a word. -/
lemma fits_self_iff {s count : ℕ} (hcount : count + 4 ≤ sizeMax) :
    (⟨count, s, count⟩ : CopyCall).Fits ↔ 4 ∣ count := by
  rw [fits_iff hcount]
  dsimp only [memcpy32]
  omega

end CopyCall

variable {card stack : ℕ → UInt8} {blob : Blob} {x : CopyCall}

lemma Blob.clip_le (blob : Blob) (ppos : ℤ) (count : ℕ) :
    blob.clip ppos count ≤ maxCount ∧ blob.clip ppos count ≤ blob.size - ppos.toNat :=
  ⟨min_le_right _ _, (min_le_left _ _).trans (min_le_right _ _)⟩

/-- What is copied is far from wrapping. -/
lemma Blob.clip_add_le (blob : Blob) (ppos : ℤ) (count : ℕ) :
    blob.clip ppos count + 4 ≤ sizeMax :=
  (Nat.add_le_add_right (blob.clip_le ppos count).1 4).trans (by decide)

/-- The two tests that shorten `count`. -/
lemma Blob.clip_eq (blob : Blob) (ppos : ℤ) (count : ℕ) :
    (if (if count > blob.size - ppos.toNat then blob.size - ppos.toNat else count) > maxCount
      then maxCount
      else if count > blob.size - ppos.toNat then blob.size - ppos.toNat else count)
      = blob.clip ppos count := by
  unfold Blob.clip
  split_ifs <;> omega

/-- A call returns early, or it comes to the copy. -/
lemma wilReadFileIoblob_eq (card : ℕ → UInt8) (blob : Blob) (ppos : ℤ) (q : ReadCall) :
    (¬ blob.Copies ppos q ∧ ∃ ret ≤ 0, wilReadFileIoblob card blob ppos q = ⟨[], ret, ppos, []⟩) ∨
      blob.Copies ppos q ∧ ∃ heap, wilReadFileIoblob card blob ppos q
        = copyBlob card heap blob ppos.toNat (blob.clip ppos q.count) q.copyToUser := by
  rw [wilReadFileIoblob]
  dsimp only
  rw [blob.clip_eq ppos q.count]
  split_ifs with hneg hend
  · exact .inl ⟨fun h => absurd h.1 (not_le.mpr hneg), _, by decide, rfl⟩
  · refine .inl ⟨fun h => ?_, 0, le_rfl, rfl⟩
    rcases hend with hend | hcount
    · exact absurd h.2.1 (not_lt.mpr hend)
    · exact h.2.2.1 hcount
  · cases hkmalloc : q.kmalloc with
    | none => exact .inl ⟨fun h => h.2.2.2 hkmalloc, _, by decide, rfl⟩
    | some heap =>
        obtain ⟨hlt, hcount⟩ := not_or.mp hend
        exact .inr ⟨⟨not_lt.mp hneg, not_le.mp hlt, hcount, by rw [hkmalloc]; simp⟩, heap, rfl⟩

/-- What is copied is handed over, or its beginning. -/
lemma copyBlob_eq (card heap : ℕ → UInt8) (blob : Blob) (pos : ℕ) {count : ℕ}
    (hcount : count + 4 ≤ sizeMax) (copyToUser : ℕ → ℕ) :
    let r := copyBlob card heap blob pos count copyToUser
    r.copies = [⟨count, blob.data + pos, count⟩] ∧ ∃ n ≤ count, r.ppos = pos + n ∧
      r.user = ByteMemory.read card (blob.data + pos) n ∧ (r.ret = n ∨ r.ret = eFault ∧ n = 0) := by
  intro r
  unfold r copyBlob
  dsimp only
  split_ifs with hfault
  · exact ⟨rfl, 0, Nat.zero_le _, (add_zero _).symm, rfl, .inr ⟨rfl, rfl⟩⟩
  · exact ⟨rfl, count - copyToUser count, Nat.sub_le _ _, rfl,
      read_fromio card heap hcount (Nat.sub_le _ _), .inl rfl⟩

/-- **What a call comes to**: it copies nothing, or it copies as many bytes as it is asked for and
as there are, and hands some of them to the user. -/
lemma wilReadFileIoblob_cases (card : ℕ → UInt8) (blob : Blob) (ppos : ℤ) (q : ReadCall) :
    let r := wilReadFileIoblob card blob ppos q
    (¬ blob.Copies ppos q ∧ r.copies = [] ∧ r.ppos = ppos ∧ r.user = [] ∧ r.ret ≤ 0) ∨
      blob.Copies ppos q ∧
        r.copies = [⟨blob.clip ppos q.count, blob.data + ppos.toNat, blob.clip ppos q.count⟩] ∧
        ∃ n ≤ blob.clip ppos q.count, r.ppos = ppos + n ∧
          r.user = ByteMemory.read card (blob.data + ppos.toNat) n ∧
          (r.ret = n ∨ r.ret = eFault ∧ n = 0) := by
  intro r
  rcases wilReadFileIoblob_eq card blob ppos q with ⟨hnone, ret, hret, hr⟩ | ⟨hsome, heap, hr⟩
  · refine .inl ⟨hnone, ?_⟩
    rw [show r = _ from hr]
    exact ⟨rfl, rfl, rfl, hret⟩
  · refine .inr ⟨hsome, ?_⟩
    have hcopy := copyBlob_eq card heap blob ppos.toNat (blob.clip_add_le ppos q.count)
      q.copyToUser
    rwa [Int.toNat_of_nonneg hsome.1, ← hr] at hcopy

/-- **A read fits** where nothing is copied, or full words are. -/
theorem ioblob_fits_iff (card : ℕ → UInt8) (blob : Blob) (ppos : ℤ) (q : ReadCall) :
    (∀ x ∈ (wilReadFileIoblob card blob ppos q).copies, x.Fits) ↔
      (blob.Copies ppos q → 4 ∣ blob.clip ppos q.count) := by
  rcases wilReadFileIoblob_cases card blob ppos q with ⟨hnone, hcopies, -⟩ | ⟨hsome, hcopies, -⟩
  · rw [hcopies]
    exact iff_of_true (List.forall_mem_nil _) fun h => absurd h hnone
  · rw [hcopies, List.forall_mem_singleton,
      CopyCall.fits_self_iff (blob.clip_add_le ppos q.count)]
    exact ⟨fun h _ => h, fun h => h hsome⟩

lemma printPayload_fits {buf len : ℕ} (h : .copy x ∈ printPayload card stack buf len) : x.Fits := by
  rw [printPayload] at h
  split_ifs at h with hlen
  · dsimp only at h
    rcases List.mem_cons.mp h with heq | h
    · obtain rfl := PrintEvent.copy.inj heq
      rw [CopyCall.fits_iff (by unfold sizeMax maxMboxitemSize at *; dsimp only; omega)]
      unfold maxMboxitemSize memcpy32 at *
      dsimp only
      omega
    · obtain ⟨l, -, hl⟩ := List.mem_map.mp h
      exact absurd hl (by simp)
  · exact absurd h List.not_mem_nil

/-- The variables end with a word. -/
lemma printEntry_fits {card : RingAnswers} {i : ℕ} (h : .copy x ∈ printEntry card stack i) :
    x.Fits := by
  have hvar : ∀ s, (⟨8, s, 8⟩ : CopyCall).Fits := fun s => (CopyCall.fits_self_iff (by decide)).mpr
    (by decide)
  rw [printEntry] at h
  rcases List.mem_cons.mp h with heq | h
  · rw [PrintEvent.copy.inj heq]
    exact hvar _
  · rcases List.mem_cons.mp h with heq | h
    · exact absurd heq (by simp)
    · cases hbuf : wmiBuffer (card.desc i).addr with
      | none =>
          rw [hbuf] at h
          exact absurd (List.mem_singleton.mp h) (by simp)
      | some buf =>
          rw [hbuf] at h
          rcases List.mem_cons.mp h with heq | h
          · rw [PrintEvent.copy.inj heq]
            exact hvar _
          · rcases List.mem_cons.mp h with heq | h
            · exact absurd heq (by simp)
            · exact printPayload_fits h

/-- **All copies of `wil_print_ring` fit**, whatever the card says about its ring, its descriptors
and its messages. -/
theorem wilPrintRing_fits (name : String) (off : ℕ) (card : RingAnswers) (stack : ℕ → UInt8) :
    ∀ x, .copy x ∈ wilPrintRing name off card stack → x.Fits := by
  intro x h
  rw [wilPrintRing] at h
  rcases List.mem_append.mp h with h | h
  · rcases List.mem_append.mp h with h | h
    · obtain rfl : x = ⟨sizeofMboxRing, off, sizeofMboxRing⟩ := by simpa using h
      exact (CopyCall.fits_self_iff (by decide)).mpr (by decide)
    · split_ifs at h
      · exact absurd (List.mem_singleton.mp h) (by simp)
      · exact absurd (List.mem_singleton.mp h) (by simp)
      · obtain ⟨i, -, hi⟩ := List.mem_flatMap.mp h
        exact printEntry_fits hi
  · exact absurd (List.mem_singleton.mp h) (by simp)

/-- A copy in words, or a function that makes some, with what it is called with. -/
inductive CopyInput
  | memcpyFromio32 (d s count : ℕ)
  | readFileIoblob (card : ℕ → UInt8) (blob : Blob) (ppos : ℤ) (q : ReadCall)
  | printRing (name : String) (off : ℕ) (card : RingAnswers) (stack : ℕ → UInt8)

/-- The loop ends after one word for each 4 bytes or part of them; the words have room in what the
caller provides. -/
def CopyInput.Fits : CopyInput → Prop
  | .memcpyFromio32 d s count => count < sizeMax - 4 →
      wilMemcpyFromio32 d s count = wordRow d s ((count + 3) / 4)
  | .readFileIoblob card blob ppos q => ∀ x ∈ (wilReadFileIoblob card blob ppos q).copies, x.Fits
  | .printRing name off card stack => ∀ x, .copy x ∈ wilPrintRing name off card stack → x.Fits

/-- A read from a blob copies nothing, or full words. -/
def CopyInput.FullWords : CopyInput → Prop
  | .readFileIoblob _ blob ppos q => blob.Copies ppos q → 4 ∣ blob.clip ppos q.count
  | .memcpyFromio32 _ _ _ | .printRing _ _ _ _ => True

/-- **Copies in words fit what they fill**, but for a read from a blob whose last word is not
full. -/
theorem wordCopies_fit_iff (x : CopyInput) : x.Fits ↔ x.FullWords := by
  cases x with
  | memcpyFromio32 d s count =>
      refine iff_of_true (fun hcount => wilMemcpyFromio32_eq ?_) trivial
      unfold sizeMax at *
      omega
  | readFileIoblob card blob ppos q => exact ioblob_fits_iff card blob ppos q
  | printRing name off card stack =>
      exact iff_of_true (wilPrintRing_fits name off card stack) trivial

/-- The first byte of `blob_rgf`. -/
theorem not_wordCopies_fit : ¬ ∀ x : CopyInput, x.Fits := by
  intro hfits
  let q : ReadCall := ⟨1, some fun _ => 0, fun _ => 0⟩
  have hdvd := (ioblob_fits_iff (fun _ => 0) ⟨0, 0xa000⟩ 0 q).mp
    (hfits (.readFileIoblob (fun _ => 0) ⟨0, 0xa000⟩ 0 q))
    ⟨by decide, by decide, by decide, by simp [q]⟩
  exact absurd hdvd (by decide)

/-! ## What is read -/

/-- A read, by the position and the bytes that the user gets. -/
def ioblobStep (card : ℕ → UInt8) (blob : Blob) (ppos : ℤ) (q : ReadCall) : ℤ × List UInt8 :=
  let r := wilReadFileIoblob card blob ppos q
  (r.ppos, r.user)

/-- **A reader gets the blob**: after any number of calls, with any counts and any failures, what
the user got is what stands from the first position on, up to the last. -/
theorem ioblob_run (card : ℕ → UInt8) (blob : Blob) (qs : List ReadCall) : ∀ pos : ℕ,
    ∃ n, Machine.run (ioblobStep card blob) (pos : ℤ) qs
        = (((pos + n : ℕ) : ℤ), ByteMemory.read card (blob.data + pos) n) ∧
      (n = 0 ∨ pos + n ≤ blob.size) := by
  induction qs with
  | nil =>
      intro pos
      exact ⟨0, rfl, .inl rfl⟩
  | cons q qs ih =>
      intro pos
      obtain ⟨n, hstep, hn⟩ : ∃ n : ℕ, ioblobStep card blob pos q
          = (((pos + n : ℕ) : ℤ), ByteMemory.read card (blob.data + pos) n) ∧
            (n = 0 ∨ pos + n ≤ blob.size) := by
        rcases wilReadFileIoblob_cases card blob pos q with
          ⟨-, -, hppos, huser, -⟩ | ⟨⟨-, hlt, -⟩, -, n, hn, hppos, huser, -⟩
        · exact ⟨0, by rw [ioblobStep, hppos, huser]; rfl, .inl rfl⟩
        · have hclip := (blob.clip_le pos q.count).2
          rw [Int.toNat_natCast] at hclip huser
          refine ⟨n, by rw [ioblobStep, hppos, huser, Nat.cast_add], .inr ?_⟩
          omega
      obtain ⟨m, hrest, hm⟩ := ih (pos + n)
      refine ⟨n + m, ?_, by omega⟩
      rw [Machine.run_cons, hstep, hrest, read_add, Nat.add_assoc, Nat.add_assoc]

/-- The words of a copy to the user are in the memory of the card, up to 3 bytes behind the blob. -/
theorem ioblob_ofCard {name : String} (hblob : (name, blob) ∈ debugfsBlobs) (ppos : ℤ)
    (q : ReadCall) : ∀ x ∈ (wilReadFileIoblob card blob ppos q).copies, WordsOfCard x.words := by
  have hend : ∀ b ∈ debugfsBlobs, b.2.data + b.2.size + 3 ≤ wil6210MemSize := by decide
  have hfits := hend _ hblob
  have hclip := blob.clip_le ppos q.count
  rcases wilReadFileIoblob_cases card blob ppos q with
    ⟨-, hcopies, -⟩ | ⟨⟨hpos, hlt, -⟩, hcopies, -⟩
  · rw [hcopies]
    exact List.forall_mem_nil _
  · rw [hcopies, List.forall_mem_singleton, CopyCall.words,
      wilMemcpyFromio32_eq (blob.clip_add_le ppos q.count)]
    refine wordsOfCard_row ?_
    dsimp only at hfits ⊢
    omega

/-! ## What is printed -/

/-- The bytes of the message that are on a line. -/
def PrintEvent.shown : PrintEvent → List UInt8
  | .line (.hex bytes) => bytes
  | _ => []

/-- The lines are the buffer. -/
lemma hexDump_flatten (databuf : ℕ → UInt8) (len n : ℕ) :
    (hexDump databuf len n).flatten = ByteMemory.read databuf n (len - n) := by
  induction n using hexDump.induct len with
  | case1 n hlt l ih =>
      have hrest : len - n = l + (len - (n + l)) := by omega
      rw [hexDump, if_pos hlt, List.flatten_cons, ih, ← read_add, ← hrest]
  | case2 n hge =>
      rw [hexDump, if_neg hge, Nat.sub_eq_zero_of_le (by omega)]
      rfl

/-- **A message is printed in full**, if it is one of a length that is allowed. -/
theorem printPayload_shows {buf len : ℕ} (hlen : len ≤ maxMboxitemSize) :
    (printPayload card stack buf len).flatMap PrintEvent.shown
      = ByteMemory.read card (buf + sizeofMboxHdr) len := by
  have hmax : len + 4 ≤ sizeMax := (Nat.add_le_add_right hlen 4).trans (by decide)
  rw [printPayload, if_pos hlen, List.flatMap_cons, List.flatMap_map]
  show (hexDump _ len 0).flatMap id = _
  rw [List.flatMap_id, hexDump_flatten]
  exact read_fromio card stack hmax le_rfl

end Wil6210
