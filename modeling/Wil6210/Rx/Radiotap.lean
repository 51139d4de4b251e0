import Wil6210.Kernel
import Wil6210.Lib.Memory
import Wil6210.Lib.FieldTable

/-!
# The radiotap header

In monitor mode `wil_vring_reap_rx` puts a radiotap header before each frame
(`wil_rx_add_radiotap_header`): the flags, the channel, the MCS, and where `rtap_include_phy_info`
is set the Rx descriptor and the PHY info in a vendor namespace.  The PHY info lies behind the frame
in its buffer, at the next multiple of 8.

The header is modelled as the driver writes it, field after field of a packed struct.  `rtapRead`
is a reader that goes by the rules of the format (`Lib/FieldTable`) and knows nothing of the struct.
`rtapRead_header` says that it gets back what was written, and the frame behind it.
-/

namespace Wil6210

open ByteMemory FieldTable

/-- `RX_DMA_STATUS_ERROR` -/
def rxDmaStatusError : ℕ := bit 2

/-- `RX_DMA_STATUS_PHY_INFO` -/
def rxDmaStatusPhyInfo : ℕ := bit 6

/-! ## The driver -/

/-- `struct vring_rx_desc`, as it is kept in `skb->cb`. -/
structure SkbRxDesc where
  bytes : List UInt8
  length_eq : bytes.length = 32

namespace SkbRxDesc

def word (d : SkbRxDesc) (off : ℕ) : ℕ := read32 (fun i => d.bytes.getD i 0) off

/-- `wil_rxdesc_mcs` -/
def mcs (d : SkbRxDesc) : ℕ := wilGetBits (d.word 4) 21 24

/-- `wil_rxdesc_phy_length` -/
def phyLength (d : SkbRxDesc) : ℕ := wilGetBits (d.word 16) 16 29

/-- `dma.status` -/
def status (d : SkbRxDesc) : ℕ := (d.bytes.getD 29 0).toNat

end SkbRxDesc

/-- A buffer: what is before the frame, the frame, and the bytes behind it, with their address. -/
structure RtapSkb where
  headroom : ℕ
  data : List UInt8
  tail : List UInt8
  tailPointer : ℕ

/-- `phy_length` -/
def rtapPhyLength (d : SkbRxDesc) (skb : RtapSkb) : ℕ :=
  let len := min (8 + 128) d.phyLength
  if d.status &&& rxDmaStatusPhyInfo ≠ 0 ∧ 8 < len ∧
      len + pad 8 skb.tailPointer ≤ skb.tail.length then len - 8
  else 0

/-- `phy_data` -/
def rtapPhyData (d : SkbRxDesc) (skb : RtapSkb) : List UInt8 :=
  (skb.tail.drop (pad 8 skb.tailPointer)).take (rtapPhyLength d skb)

/-- `rtap_len` -/
def rtapLen (includePhyInfo : Bool) (d : SkbRxDesc) (skb : RtapSkb) : ℕ :=
  if includePhyInfo then 24 + 32 + rtapPhyLength d skb else 18

/-- The bits of `it_present` that are always set. -/
def rtapPresent : ℕ := bit 1 ||| bit 3 ||| bit 19

/-- The header as it is written, over zeros. -/
def rtapWrite (includePhyInfo : Bool) (centerFreq : Option ℕ) (d : SkbRxDesc) (skb : RtapSkb) :
    ℕ → UInt8 :=
  let m := write (fun _ => 0) 0 [0]
  let m := write m 2 (le16 (rtapLen includePhyInfo d skb))
  let m := write m 4 (le32 rtapPresent)
  let m := if d.status &&& rxDmaStatusError ≠ 0 then write m 8 [m 8 ||| 0x40] else m
  let m := write m 10 (le16 (centerFreq.getD 58320))
  let m := write m 12 (le16 0)
  let m := write m 14 [0x02]
  let m := write m 15 [0]
  let m := write m 16 [UInt8.ofNat d.mcs]
  if includePhyInfo then
    let m := write m 4 (le32 (read32 m 4 ||| bit 30))
    let m := write m 18 [0x04, 0xce, 0x14]
    let m := write m 21 [1]
    let m := write m 22 (le16 (32 + rtapPhyLength d skb))
    write (write m 24 d.bytes) 56 (rtapPhyData d skb)
  else m

/-- `wil_rx_add_radiotap_header`; `expandOk` is whether `pskb_expand_head` succeeds. -/
def wilRxAddRadiotapHeader (includePhyInfo : Bool) (centerFreq : Option ℕ) (d : SkbRxDesc)
    (expandOk : Bool) (skb : RtapSkb) : RtapSkb :=
  let len := rtapLen includePhyInfo d skb
  if skb.headroom < len ∧ ¬ expandOk then skb
  else
    let headroom := if skb.headroom < len then skb.headroom + len else skb.headroom
    { skb with
      headroom := headroom - len
      data := read (rtapWrite includePhyInfo centerFreq d skb) 0 len ++ skb.data }

/-! ## The reader -/

/-- The fields of the format that the driver uses. -/
def flagsField : Field := ⟨1, 1, fun _ => 1⟩

def channelField : Field := ⟨3, 2, fun _ => 4⟩

def mcsField : Field := ⟨19, 1, fun _ => 3⟩

/-- A vendor namespace: an OUI, a number, and the length of the data behind it. -/
def vendorField : Field := ⟨30, 2, fun bs => 6 + read16 (fun i => bs.getD i 0) 4⟩

/-- The reader knows these fields, among any others. -/
def KnowsRtap (table : List Field) : Prop :=
  (table.filter fun f => f.bit = 1 ∨ f.bit = 3 ∨ f.bit = 19 ∨ f.bit = 30)
    = [flagsField, channelField, mcsField, vendorField]

/-- A reader: the fields, and the frame behind the header. -/
def rtapRead (table : List Field) (bs : List UInt8) :
    Option (List (ℕ × List UInt8) × List UInt8) :=
  let m := fun i => bs.getD i 0
  let len := read16 m 2
  if m 0 ≠ 0 ∨ len < 8 ∨ bs.length < len then none
  else (parse (fun i => (read32 m 4).testBit i) table 8 ((bs.take len).drop 8)).map
    fun p => (p.1, bs.drop len)

/-- What the header says. -/
def rtapFields (includePhyInfo : Bool) (centerFreq : Option ℕ) (d : SkbRxDesc) (skb : RtapSkb) :
    List (Field × List UInt8) :=
  [(flagsField, [if d.status &&& rxDmaStatusError ≠ 0 then 0x40 else 0]),
    (channelField, le16 (centerFreq.getD 58320) ++ le16 0),
    (mcsField, [0x02, 0, UInt8.ofNat d.mcs])] ++
  if includePhyInfo then
    [(vendorField, [0x04, 0xce, 0x14, 1] ++ (le16 (32 + rtapPhyLength d skb) ++
      (d.bytes ++ rtapPhyData d skb)))]
  else []

section Header

variable {includePhyInfo : Bool} {centerFreq : Option ℕ} {d : SkbRxDesc} {skb : RtapSkb}
  {table : List Field}

lemma length_rtapPhyData (d : SkbRxDesc) (skb : RtapSkb) :
    (rtapPhyData d skb).length = rtapPhyLength d skb := by
  have hle : rtapPhyLength d skb ≤ skb.tail.length - pad 8 skb.tailPointer := by
    rw [rtapPhyLength]
    split_ifs with hinfo
    · omega
    · exact Nat.zero_le _
  rw [rtapPhyData, List.length_take, List.length_drop, Nat.min_eq_left hle]

lemma rtapPhyLength_le (d : SkbRxDesc) (skb : RtapSkb) : rtapPhyLength d skb ≤ 128 := by
  rw [rtapPhyLength]
  split_ifs
  · omega
  · exact Nat.zero_le _

/-- A 16-bit number from its bytes. -/
lemma le16_toNat {v : ℕ} (hv : v < 65536) :
    (UInt8.ofNat v).toNat + 256 * (UInt8.ofNat (v / 256)).toNat = v := by
  simp only [UInt8.toNat_ofNat']
  omega

/-- A 32-bit number from its bytes. -/
lemma le32_toNat {v : ℕ} (hv : v < 4294967296) :
    (UInt8.ofNat v).toNat + 256 * (UInt8.ofNat (v / 256)).toNat + 65536 *
      ((UInt8.ofNat (v / 65536)).toNat + 256 * (UInt8.ofNat (v / 65536 / 256)).toNat) = v := by
  simp only [UInt8.toNat_ofNat']
  omega

/-- A byte is written over itself. -/
lemma write_self (m : ℕ → UInt8) (a : ℕ) : write m a [m a] = m := by
  funext x
  rcases Nat.lt_trichotomy x a with hlt | rfl | hgt
  · exact write_of_lt hlt
  · simp [write]
  · exact write_of_le hgt

/-- The vendor data lies behind the 24 bytes of the struct. -/
lemma read_vendor (m : ℕ → UInt8) {desc phy : List UInt8} {len : ℕ} (hdesc : desc.length = 32)
    (hlen : len = 24 + 32 + phy.length) :
    read (write (write m 24 desc) 56 phy) 0 len = read m 0 24 ++ (desc ++ phy) := by
  have hfix : read (write (write m 24 desc) 56 phy) 0 24 = read m 0 24 := by
    rw [read_write_apart (.inr (by omega)), read_write_apart (.inr (by omega))]
  have hmid : read (write (write m 24 desc) 56 phy) 24 32 = desc := by
    rw [read_write_apart (.inr (by omega)), ← hdesc, read_write]
  have hend : read (write (write m 24 desc) 56 phy) (24 + 32) phy.length = phy :=
    read_write _ _ _
  rw [hlen, read_add, read_add, Nat.zero_add, Nat.zero_add, hfix, hmid, hend, List.append_assoc]

/-- What is written behind `it_present` leaves it alone. -/
lemma rtapPresent_kept (m : ℕ → UInt8) (flags freq chnl present mcsFlags index : List UInt8) :
    read32 (write (write (write (write (write (write (write m 4 (le32 rtapPresent)) 8 flags)
      10 freq) 12 chnl) 14 present) 15 mcsFlags) 16 index) 4 = rtapPresent := by
  rw [read32_write_apart (.inr (by omega)), read32_write_apart (.inr (by omega)),
    read32_write_apart (.inr (by omega)), read32_write_apart (.inr (by omega)),
    read32_write_apart (.inr (by omega)), read32_write_apart (.inr (by omega))]
  exact read32_write32 m 4 (by decide)

/-- The fields as the format asks for them. -/
lemma layout_rtapFields (includePhyInfo : Bool) (centerFreq : Option ℕ) (d : SkbRxDesc)
    (skb : RtapSkb) :
    layout 8 (rtapFields includePhyInfo centerFreq d skb)
      = [if d.status &&& rxDmaStatusError ≠ 0 then 0x40 else 0] ++ ([0] ++
        (le16 (centerFreq.getD 58320) ++ (le16 0 ++ ([0x02, 0, UInt8.ofNat d.mcs] ++
        if includePhyInfo then [0] ++ ([0x04, 0xce, 0x14, 1] ++
          (le16 (32 + rtapPhyLength d skb) ++ (d.bytes ++ rtapPhyData d skb))) else [])))) := by
  cases includePhyInfo <;>
    simp [rtapFields, layout, pad, flagsField, channelField, mcsField, vendorField, le16]

/-- The struct lies as the format asks for it. -/
lemma rtapWrite_eq (includePhyInfo : Bool) (centerFreq : Option ℕ) (d : SkbRxDesc)
    (skb : RtapSkb) :
    read (rtapWrite includePhyInfo centerFreq d skb) 0 (rtapLen includePhyInfo d skb)
      = [0, 0] ++ le16 (rtapLen includePhyInfo d skb) ++
        le32 (rtapPresent ||| if includePhyInfo then bit 30 else 0) ++
        (layout 8 (rtapFields includePhyInfo centerFreq d skb) ++
          if includePhyInfo then [] else [0]) := by
  rw [layout_rtapFields]
  have hflags : ∀ m : ℕ → UInt8, m 8 = 0 →
      (if d.status &&& rxDmaStatusError ≠ 0 then write m 8 [m 8 ||| 0x40] else m)
        = write m 8 [if d.status &&& rxDmaStatusError ≠ 0 then 0x40 else 0] := by
    intro m hzero
    by_cases herr : d.status &&& rxDmaStatusError ≠ 0
    · rw [if_pos herr, if_pos herr, hzero, UInt8.zero_or]
    · rw [if_neg herr, if_neg herr, ← hzero]
      exact (write_self m 8).symm
  rw [rtapWrite, hflags _ rfl]
  generalize (if d.status &&& rxDmaStatusError ≠ 0 then (0x40 : UInt8) else 0) = flags
  cases includePhyInfo with
  | false => 
      rw [if_neg Bool.false_ne_true, if_neg Bool.false_ne_true]
      rfl
  | true =>
      rw [if_pos rfl, if_pos rfl]
      have hlen : rtapLen true d skb = 24 + 32 + (rtapPhyData d skb).length := by
        rw [rtapLen, if_pos rfl, length_rtapPhyData]
      rw [read_vendor _ d.length_eq hlen, rtapPresent_kept]
      generalize rtapLen true d skb = len
      refine (congrArg (· ++ (d.bytes ++ rtapPhyData d skb)) (?_ : read _ 0 24
        = [0, 0] ++ le16 len ++ le32 (rtapPresent ||| bit 30) ++ ([flags] ++ ([0] ++
          (le16 (centerFreq.getD 58320) ++ (le16 0 ++ ([0x02, 0, UInt8.ofNat d.mcs] ++
          ([0] ++ ([0x04, 0xce, 0x14, 1] ++ le16 (32 + rtapPhyLength d skb)))))))))).trans ?_
      · rfl
      · simp only [List.append_assoc, List.append_nil, if_true]

/-- The bits of `it_present`. -/
lemma testBit_rtapPresent (includePhyInfo : Bool) (i : ℕ) :
    (rtapPresent ||| if includePhyInfo then bit 30 else 0).testBit i
      = decide (i = 1 ∨ i = 3 ∨ i = 19 ∨ includePhyInfo = true ∧ i = 30) := by
  have hbit : ∀ n, (bit n).testBit i = decide (i = n) := by
    intro n
    rw [bit, Nat.one_shiftLeft, Nat.testBit_two_pow]
    simp only [eq_comm]
  cases includePhyInfo <;>
    simp [rtapPresent, Nat.testBit_or, hbit, Bool.or_assoc]

/-- The reader finds the fields of the header in its table. -/
lemma filter_rtapFields (hknows : KnowsRtap table) (includePhyInfo : Bool) (centerFreq : Option ℕ)
    (d : SkbRxDesc) (skb : RtapSkb) :
    (rtapFields includePhyInfo centerFreq d skb).map Prod.fst = table.filter fun f =>
      (rtapPresent ||| if includePhyInfo then bit 30 else 0).testBit f.bit := by
  have hsub : (table.filter fun f =>
      (rtapPresent ||| if includePhyInfo then bit 30 else 0).testBit f.bit)
      = [flagsField, channelField, mcsField, vendorField].filter fun f =>
        (rtapPresent ||| if includePhyInfo then bit 30 else 0).testBit f.bit := by
    rw [← hknows, List.filter_filter]
    refine List.filter_congr fun f _ => ?_
    rw [testBit_rtapPresent]
    cases includePhyInfo <;> grind
  rw [hsub]
  simp only [testBit_rtapPresent]
  cases includePhyInfo <;> rfl

lemma fills_rtapFields (includePhyInfo : Bool) (centerFreq : Option ℕ) (d : SkbRxDesc)
    (skb : RtapSkb) : ∀ p ∈ rtapFields includePhyInfo centerFreq d skb, Fills p.1 p.2 := by
  have hvendor : Fills vendorField ([0x04, 0xce, 0x14, 1] ++ (le16 (32 + rtapPhyLength d skb) ++
      (d.bytes ++ rtapPhyData d skb))) := by
    intro rest
    have hle := rtapPhyLength_le d skb
    have hskip : (vendorField.size ([0x04, 0xce, 0x14, 1] ++ (le16 (32 + rtapPhyLength d skb) ++
        (d.bytes ++ rtapPhyData d skb)) ++ rest)) = 6 + (32 + rtapPhyLength d skb) :=
      congrArg (6 + ·) (le16_toNat (by omega))
    rw [hskip]
    simp only [List.length_append, length_rtapPhyData, d.length_eq]
    simp only [List.length_cons, List.length_nil, le16]
    omega
  intro p hp
  rcases List.mem_append.mp hp with hp | hp
  · simp only [List.mem_cons, List.not_mem_nil, or_false] at hp
    rcases hp with rfl | rfl | rfl <;> exact fun _ => rfl
  · split_ifs at hp
    · obtain rfl := List.mem_singleton.mp hp
      exact hvendor
    · exact absurd hp List.not_mem_nil

/-- **The header is read back**, by any reader that knows its fields, and the frame behind it. -/
lemma rtapRead_header (hknows : KnowsRtap table) (includePhyInfo : Bool) (centerFreq : Option ℕ)
    (d : SkbRxDesc) (skb : RtapSkb) (frame : List UInt8) :
    rtapRead table (read (rtapWrite includePhyInfo centerFreq d skb) 0
        (rtapLen includePhyInfo d skb) ++ frame)
      = some ((rtapFields includePhyInfo centerFreq d skb).map fun p => (p.1.bit, p.2), frame) := by
  have hlength : (read (rtapWrite includePhyInfo centerFreq d skb) 0
      (rtapLen includePhyInfo d skb)).length = rtapLen includePhyInfo d skb := length_read _ _ _
  have hphy := rtapPhyLength_le d skb
  have hlen : 8 ≤ rtapLen includePhyInfo d skb ∧ rtapLen includePhyInfo d skb < 65536 := by
    rw [rtapLen]
    split_ifs <;> omega
  have hpresent : (rtapPresent ||| if includePhyInfo then bit 30 else 0) < 4294967296 := by
    cases includePhyInfo <;> decide
  have hparse := parse_layout (filter_rtapFields hknows includePhyInfo centerFreq d skb)
    (fills_rtapFields includePhyInfo centerFreq d skb) 8 (if includePhyInfo then [] else [0])
  rw [rtapWrite_eq] at hlength ⊢
  generalize rtapLen includePhyInfo d skb = len at *
  generalize (rtapPresent ||| if includePhyInfo then bit 30 else 0) = present at *
  generalize hbody : layout 8 (rtapFields includePhyInfo centerFreq d skb) ++
    (if includePhyInfo then [] else [0]) = body at *
  have hread2 : read16 (fun i => ([0, 0] ++ le16 len ++ le32 present ++ body ++ frame).getD i 0) 2
      = len := le16_toNat hlen.2
  have hread4 : read32 (fun i => ([0, 0] ++ le16 len ++ le32 present ++ body ++ frame).getD i 0) 4
      = present := le32_toNat hpresent
  have htake : ([0, 0] ++ le16 len ++ le32 present ++ body ++ frame).take len
      = [0, 0] ++ le16 len ++ le32 present ++ body := by
    rw [List.take_append_of_le_length hlength.ge, List.take_of_length_le hlength.le]
  have hdrop : ([0, 0] ++ le16 len ++ le32 present ++ body ++ frame).drop len = frame := by
    rw [List.drop_append_of_le_length hlength.ge, List.drop_of_length_le hlength.le,
      List.nil_append]
  have hshort : ¬ ([0, 0] ++ le16 len ++ le32 present ++ body ++ frame).length < len := by
    rw [List.length_append, hlength]
    omega
  rw [rtapRead, hread2, hread4, htake, hdrop, if_neg]
  · exact congrArg (Option.map fun p => (p.1, frame)) hparse
  · rintro (hversion | hsmall | hless)
    · exact hversion rfl
    · exact absurd hsmall (by omega)
    · exact hshort hless

/-- The PHY info is taken from the buffer, at a multiple of 8. -/
lemma rtapPhyLength_within (d : SkbRxDesc) (skb : RtapSkb) : rtapPhyLength d skb = 0 ∨
    8 ∣ skb.tailPointer + pad 8 skb.tailPointer ∧
      pad 8 skb.tailPointer + rtapPhyLength d skb ≤ skb.tail.length := by
  rw [rtapPhyLength]
  split_ifs with hinfo
  · exact .inr ⟨dvd_add_pad (by omega) _, by omega⟩
  · exact .inl rfl

/-- **What monitor mode delivers.**  Where there is no room for a header, the frame as it is.
Else a reader that knows the fields gets the error, the channel, the MCS, the descriptor and the
PHY info back, and the frame behind them, and the PHY info was read within the buffer. -/
theorem radiotap_delivers (hknows : KnowsRtap table) (includePhyInfo : Bool)
    (centerFreq : Option ℕ) (d : SkbRxDesc) (expandOk : Bool) (skb : RtapSkb) :
    (if skb.headroom < rtapLen includePhyInfo d skb ∧ ¬ expandOk then
      wilRxAddRadiotapHeader includePhyInfo centerFreq d expandOk skb = skb
    else rtapRead table (wilRxAddRadiotapHeader includePhyInfo centerFreq d expandOk skb).data
      = some ((rtapFields includePhyInfo centerFreq d skb).map fun p => (p.1.bit, p.2),
          skb.data)) ∧
      (rtapPhyLength d skb = 0 ∨ 8 ∣ skb.tailPointer + pad 8 skb.tailPointer ∧
        pad 8 skb.tailPointer + rtapPhyLength d skb ≤ skb.tail.length) := by
  refine ⟨?_, rtapPhyLength_within d skb⟩
  rw [wilRxAddRadiotapHeader]
  by_cases hroom : skb.headroom < rtapLen includePhyInfo d skb ∧ ¬ expandOk
  · rw [if_pos hroom, if_pos hroom]
  · rw [if_neg hroom, if_neg hroom]
    exact rtapRead_header hknows includePhyInfo centerFreq d skb skb.data

/-- The reader knows the antenna besides; there are 11 bytes of PHY info, behind 3 bytes. -/
theorem radiotap_delivers_phy : ∃ (d : SkbRxDesc) (skb : RtapSkb),
    rtapRead [flagsField, channelField, ⟨11, 1, fun _ => 1⟩, mcsField, vendorField]
      (wilRxAddRadiotapHeader true none d true skb).data
        = some ((rtapFields true none d skb).map fun p => (p.1.bit, p.2), [7, 7]) ∧
      rtapPhyLength d skb = 11 := by
  refine ⟨⟨List.replicate 18 0 ++ [19, 0] ++ List.replicate 9 0 ++ [64, 0, 0], rfl⟩,
    ⟨128, [7, 7], List.replicate 40 1, 4093⟩, ?_, by decide⟩
  have hdelivers := fun (d : SkbRxDesc) (skb : RtapSkb) => (radiotap_delivers (rfl : KnowsRtap
    [flagsField, channelField, ⟨11, 1, fun _ => 1⟩, mcsField, vendorField]) true none d true skb).1
  simp only [not_true_eq_false, and_false, if_false] at hdelivers
  exact hdelivers _ _

end Header

end Wil6210
