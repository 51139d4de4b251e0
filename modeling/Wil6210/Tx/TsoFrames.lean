import Mathlib.Data.Nat.Bitwise
import Wil6210.Tx.TsoCover

/-!
# How a packet with segmentation offload is framed

The hardware reads four things of a descriptor (`TsoFrame`): whether it ends a chunk, how many
descriptors the chunk takes, the type of its segment, and how many bytes it has.  The driver closes a
chunk when it comes to the next piece, or behind the last one, by writing to the first and to the last
descriptor of the chunk again.

`Framed` relates the state of `wil_tx_vring_tso` to the chunks that are closed and to the one that is
open.  It begins with the headers and is kept by every piece (`Framed.piece`), so it holds behind the
loops (`framed_tsoPieces`).
-/

namespace Wil6210

variable {q : TsoRequest} {s : TxState} {v w : Vring} {t u : TsoState} {cs : List TsoCall}
  {d : VringTxDesc} {x i j k n swhead : ℕ}

/-! ## Fields -/

lemma wilGetBits_or (x y i j : ℕ) :
    wilGetBits (x ||| y) i j = wilGetBits x i j ||| wilGetBits y i j := by
  rw [wilGetBits, Nat.shiftRight_or_distrib, Nat.and_or_distrib_right]
  rfl

/-- Bits below the field. -/
lemma wilGetBits_of_lt (h : x < 2 ^ i) : wilGetBits x i j = 0 := by
  rw [wilGetBits, Nat.shiftRight_eq_div_pow, Nat.div_eq_of_lt h, Nat.zero_and]

/-- Bits behind the field. -/
lemma wilGetBits_shiftLeft (x : ℕ) (hij : i ≤ j) (hjk : j < k) : wilGetBits (x <<< k) i j = 0 := by
  have hsplit : x <<< k >>> i = 2 ^ (j - i + 1) * (x * 2 ^ (k - j - 1)) := by
    have hpow : 2 ^ k = 2 ^ (j - i + 1) * 2 ^ (k - j - 1) * 2 ^ i := by
      rw [← pow_add, ← pow_add]
      congr 1
      omega
    rw [Nat.shiftLeft_eq, Nat.shiftRight_eq_div_pow, hpow]
    rw [show x * (2 ^ (j - i + 1) * 2 ^ (k - j - 1) * 2 ^ i)
      = 2 ^ (j - i + 1) * (x * 2 ^ (k - j - 1)) * 2 ^ i by ring,
      Nat.mul_div_cancel _ (Nat.two_pow_pos i)]
  rw [wilGetBits, hsplit, Nat.one_shiftLeft, Nat.and_two_pow_sub_one_eq_mod, Nat.mul_mod_right]

/-- A value that fits in the lowest field. -/
lemma wilGetBits_zero (h : x < 2 ^ (j + 1)) : wilGetBits x 0 j = x := by
  rw [wilGetBits, Nat.shiftRight_zero, Nat.sub_zero, Nat.one_shiftLeft,
    Nat.and_two_pow_sub_one_eq_mod, Nat.mod_eq_of_lt h]

namespace VringTxDesc

/-- `MAC_CFG_DESC_TX_2_NUM_OF_DESCRIPTORS` -/
def numOfDescriptors (d : VringTxDesc) : ℕ := wilGetBits d.macD2 0 7

/-- `MAC_CFG_DESC_TX_2_RESERVED` -/
def reserved (d : VringTxDesc) : ℕ := wilGetBits d.macD2 8 17

/-- `DMA_CFG_DESC_TX_0_SEGMENT_BUF_DETAILS` -/
def segmentBufDetails (d : VringTxDesc) : ℕ := wilGetBits d.d0 11 12

end VringTxDesc

/-! ## Frames -/

/-- What the hardware reads of a descriptor. -/
structure TsoFrame where
  eop : Bool
  count : ℕ
  segment : ℕ
  len : ℕ
  deriving DecidableEq, Repr

namespace VringTxDesc

def frame (d : VringTxDesc) : TsoFrame :=
  ⟨d.eop, d.numOfDescriptors, d.segmentBufDetails, d.length⟩

/-- The words of the descriptor are those of the frame; the count may be too long for its field. -/
structure Shows (d : VringTxDesc) (f : TsoFrame) : Prop where
  eop : d.eop ↔ f.eop = true
  count : d.macD2 = (bit 20 ||| (1 <<< 18)) ||| f.count
  segment : d.segmentBufDetails = f.segment
  len : d.length = u16 f.len

/-- Where the count fits, this is what the hardware reads. -/
lemma Shows.fields {f : TsoFrame} (h : d.Shows f) (hcount : f.count < 2 ^ 8) :
    d.numOfDescriptors = f.count ∧ d.reserved = 0 := by
  have hlow : wilGetBits (bit 20 ||| (1 <<< 18)) 0 7 = 0 := by
    decide
  have hmid : wilGetBits (bit 20 ||| (1 <<< 18)) 8 17 = 0 := by
    decide
  refine ⟨?_, ?_⟩
  · rw [numOfDescriptors, h.count, wilGetBits_or, hlow, wilGetBits_zero hcount, Nat.zero_or]
  · rw [reserved, h.count, wilGetBits_or, hmid, wilGetBits_of_lt hcount, Nat.zero_or]

lemma Shows.frame_eq {f : TsoFrame} (h : d.Shows f) (hcount : f.count < 2 ^ 8)
    (hlen : f.len < 2 ^ 16) : d.frame = f := by
  have heop : decide d.eop = f.eop := by
    simp [h.eop]
  have hu16 : u16 f.len = f.len := Nat.mod_eq_of_lt hlen
  rw [frame, heop, (h.fields hcount).1, h.segment, h.len, hu16]

end VringTxDesc

lemma segmentBufDetails_wilTxLastDesc (d : VringTxDesc) (vringIndex : ℕ) :
    (wilTxLastDesc d vringIndex).segmentBufDetails = d.segmentBufDetails := by
  have hlast : wilGetBits (descTx0CmdEop ||| bit 9 ||| bit 10) 11 12 = 0 := by
    decide
  simp only [VringTxDesc.segmentBufDetails, wilTxLastDesc]
  rw [wilGetBits_or, wilGetBits_or, hlast, wilGetBits_shiftLeft _ (by norm_num) (by norm_num)]
  simp

/-- The descriptor ends a chunk. -/
lemma VringTxDesc.Shows.last {f : TsoFrame} (h : d.Shows f) (vringIndex : ℕ) :
    (wilTxLastDesc d vringIndex).Shows { f with eop := true } :=
  ⟨⟨fun _ => rfl, fun _ => eop_wilTxLastDesc d vringIndex⟩, h.count,
    (segmentBufDetails_wilTxLastDesc d vringIndex).trans h.segment, h.len⟩

/-- The count is stored, over the one of `wil_tx_desc_offload_setup`. -/
lemma VringTxDesc.Shows.setCount {f : TsoFrame} (h : d.Shows f) (hone : f.count = 1) (cnt : ℕ) :
    (wilSetTxDescCount d cnt).Shows { f with count := cnt } := by
  refine ⟨h.eop, ?_, h.segment, h.len⟩
  have hbase : ((bit 20 ||| (1 <<< 18)) ||| 1) &&& 0xffffff00 = bit 20 ||| (1 <<< 18) := by
    decide
  simp only [wilSetTxDescCount, h.count, hone, hbase, Nat.shiftLeft_zero]

/-- The type of the last segment. -/
lemma VringTxDesc.Shows.lastSegment {f : TsoFrame} (h : d.Shows f)
    (hsegment : f.segment < 4) :
    ({ d with d0 := d.d0 ||| (3 <<< 11) } : VringTxDesc).Shows { f with segment := 3 } := by
  refine ⟨?_, h.count, ?_, h.len⟩
  · have heop : ({ d with d0 := d.d0 ||| (3 <<< 11) } : VringTxDesc).eop ↔ d.eop := by
      simp only [VringTxDesc.eop, Nat.and_or_distrib_right]
      rw [show 3 <<< 11 &&& descTx0CmdEop = 0 by decide, Nat.or_zero]
    exact heop.trans h.eop
  · have hold : wilGetBits d.d0 11 12 = f.segment := h.segment
    have hor : ∀ k < 4, k ||| wilGetBits (3 <<< 11) 11 12 = 3 := by
      decide
    simp only [VringTxDesc.segmentBufDetails, wilGetBits_or, hold]
    exact hor _ hsegment

/-- What is written for the offloading of a TCP packet. -/
lemma offload_tcp {skb : TxSkb} (htcp : (wilTxDescOffloadSetup d skb 0).2 ≠ 0) (e : VringTxDesc)
    (segment : ℕ) : (wilTxDescOffloadSetup e skb segment).1.length = e.length ∧
      (wilTxDescOffloadSetup e skb segment).1.macD2 = e.macD2 ||| 1 ∧
      (wilTxDescOffloadSetup e skb segment).1.d0 = e.d0 ||| bit 15 ||| bit 21 ||| (2 <<< 30)
        ||| (skb.tcpHdrlen &&& 0xff) ||| (bit 13 ||| (segment <<< 11))
        ||| (if (skb.protocol == 0x0800) = true then bit 14 else 0) := by
  have hsegment : (segment : ℤ) ≠ -1 := by omega
  simp only [wilTxDescOffloadSetup, ne_eq, hsegment, not_false_eq_true, if_true,
    Int.toNat_natCast] at htcp ⊢
  generalize (skb.protocol == 0x0800) = ip4 at htcp ⊢
  generalize (skb.protocol == 0x86dd) = ip6 at htcp ⊢
  generalize (skb.ipProtocol == 6) = tcp4 at htcp ⊢
  generalize (skb.ipv6Hdr == 6) = tcp6 at htcp ⊢
  cases ip4 <;> cases ip6 <;> cases tcp4 <;> cases tcp6 <;> first
    | exact absurd rfl htcp
    | exact ⟨rfl, rfl, rfl⟩

/-- What is written for a piece of a TCP packet. -/
lemma shows_post (htcp : (wilTxDescOffloadSetup d q.skb 0).2 ≠ 0) (e : VringTxDesc)
    (pa len segment : ℕ) (hsegment : segment < 3) :
    (wilTxDescOffloadSetup (wilTxDescMap e pa len q.vringIndex) q.skb segment).1.Shows
      ⟨false, 1, segment, len⟩ := by
  obtain ⟨hlen, hmac, hd0⟩ := offload_tcp htcp (wilTxDescMap e pa len q.vringIndex) segment
  have hmap : (wilTxDescMap e pa len q.vringIndex).d0 = q.vringIndex <<< 16 := rfl
  rw [hmap, Nat.or_assoc] at hd0
  have hl4 : q.skb.tcpHdrlen &&& 0xff < 2 ^ 8 := lt_of_le_of_lt Nat.and_le_right (by norm_num)
  refine ⟨?_, hmac, ?_, hlen⟩
  · have hindex : (q.vringIndex <<< 16) &&& descTx0CmdEop = 0 := by
      rw [descTx0CmdEop, bit, Nat.one_shiftLeft, Nat.and_two_pow, Nat.testBit_shiftLeft]
      simp
    have hheader : (q.skb.tcpHdrlen &&& 0xff) &&& descTx0CmdEop = 0 := by
      rw [descTx0CmdEop, bit, Nat.one_shiftLeft, Nat.and_two_pow, Nat.testBit_lt_two_pow hl4]
      rfl
    have heop : ∀ ip4 : Bool, ((bit 13 ||| (segment <<< 11))
        ||| (if ip4 = true then bit 14 else 0)) &&& descTx0CmdEop = 0 := by
      interval_cases segment <;> decide
    simp only [VringTxDesc.eop, hd0, Nat.and_or_distrib_right, hindex, hheader]
    rw [← Nat.and_or_distrib_right, ← Nat.and_or_distrib_right, heop]
    decide
  · have hindex : wilGetBits (q.vringIndex <<< 16) 11 12 = 0 :=
      wilGetBits_shiftLeft _ (by norm_num) (by norm_num)
    have hheader : wilGetBits (q.skb.tcpHdrlen &&& 0xff) 11 12 = 0 :=
      wilGetBits_of_lt (hl4.trans (by norm_num))
    have hseg : ∀ ip4 : Bool, wilGetBits ((bit 13 ||| (segment <<< 11))
        ||| (if ip4 = true then bit 14 else 0)) 11 12 = segment := by
      interval_cases segment <;> decide
    rw [VringTxDesc.segmentBufDetails, hd0, wilGetBits_or, hseg, wilGetBits_or, hheader,
      wilGetBits_or, wilGetBits_or, wilGetBits_or, hindex]
    have hrest : 0 ||| wilGetBits (bit 15) 11 12 ||| wilGetBits (bit 21) 11 12
        ||| wilGetBits (2 <<< 30) 11 12 ||| 0 = 0 := by
      decide
    rw [hrest, Nat.zero_or]

/-! ## Chunks -/

namespace TsoFrame

def setEop (f : TsoFrame) : TsoFrame := { f with eop := true }

def setCount (cnt : ℕ) (f : TsoFrame) : TsoFrame := { f with count := cnt }

def setLast (f : TsoFrame) : TsoFrame := { f with segment := 3 }

end TsoFrame

/-- A chunk is closed: its last frame is marked, and its first one says how many there are. -/
def closeChunk (extra : ℕ) (chunk : List TsoFrame) : List TsoFrame :=
  (chunk.modify (chunk.length - 1) TsoFrame.setEop).modify 0
    (TsoFrame.setCount (chunk.length + extra))

@[simp] lemma length_closeChunk (extra : ℕ) (chunk : List TsoFrame) :
    (closeChunk extra chunk).length = chunk.length := by
  simp [closeChunk]

lemma modify_append {α : Type*} (l m : List α) (i : ℕ) (f : α → α) :
    (l ++ m).modify (l.length + i) f = l ++ m.modify i f := by
  induction l with
  | nil => simp
  | cons a l ih =>
      rw [List.length_cons, List.cons_append, show l.length + 1 + i = l.length + i + 1 by omega,
        List.modify_succ_cons, ih]
      rfl

/-- Marks and counts leave the rest of a frame. -/
lemma getElem?_closeChunk {extra : ℕ} {chunk : List TsoFrame} {f : TsoFrame}
    (h : (closeChunk extra chunk)[j]? = some f) : ∃ g, chunk[j]? = some g ∧ f.len = g.len ∧
      f.segment = g.segment ∧ f.eop = (g.eop || decide (j + 1 = chunk.length)) ∧
      f.count = if j = 0 then chunk.length + extra else g.count := by
  rw [closeChunk, List.getElem?_modify, List.getElem?_modify] at h
  cases hg : chunk[j]? with
  | none =>
      rw [hg] at h
      simp at h
  | some g =>
      obtain ⟨hlt, -⟩ := List.getElem?_eq_some_iff.mp hg
      simp only [hg, Option.map_eq_map, Option.map_some] at h
      obtain rfl := Option.some.inj h
      refine ⟨g, rfl, ?_⟩
      have hlast : decide (j + 1 = chunk.length) = decide (chunk.length - 1 = j) := by
        rw [decide_eq_decide]
        omega
      rw [hlast]
      cases j with
      | zero => by_cases hend : chunk.length - 1 = 0 <;>
          simp [hend, TsoFrame.setEop, TsoFrame.setCount]
      | succ j => by_cases hend : chunk.length - 1 = j + 1 <;>
          simp [hend, TsoFrame.setEop]

/-- What closing leaves. -/
lemma sum_closeChunk (extra : ℕ) (chunk : List TsoFrame) :
    ((closeChunk extra chunk).map TsoFrame.len).sum = (chunk.map TsoFrame.len).sum := by
  congr 1
  refine List.ext_getElem (by simp) fun j hj hj' => ?_
  rw [List.length_map] at hj hj'
  obtain ⟨g, hg, hlen, -⟩ := getElem?_closeChunk (List.getElem?_eq_getElem hj)
  obtain ⟨_, rfl⟩ := List.getElem?_eq_some_iff.mp hg
  simpa using hlen

/-- Only the last frame of a closed chunk is marked. -/
lemma marked_closeChunk {extra : ℕ} {chunk : List TsoFrame} (hne : chunk ≠ [])
    (hopen : ∀ f ∈ chunk, f.eop = false) :
    Segments.Marked TsoFrame.eop (closeChunk extra chunk) := by
  refine ⟨fun h => hne ?_, fun j hj => ?_⟩
  · rwa [← List.length_eq_zero_iff, length_closeChunk, List.length_eq_zero_iff] at h
  · obtain ⟨g, hg, -, -, heop, -⟩ := getElem?_closeChunk (List.getElem?_eq_getElem hj)
    rw [heop, hopen g (List.mem_of_getElem? hg), length_closeChunk]
    simp

/-- The frames are shown by the descriptors behind that of the headers. -/
def ShowsFrom (v w : Vring) (frames : List TsoFrame) : Prop :=
  ∀ j f, frames[j]? = some f → (w.desc ((v.swhead + (j + 1)) % v.size)).Shows f

/-- One of the descriptors is written again. -/
lemma ShowsFrom.modify {frames : List TsoFrame} (h : ShowsFrom v w frames)
    (hfits : frames.length < v.size) (hj : j < frames.length) {g : TsoFrame → TsoFrame}
    (hd : ∀ f, frames[j]? = some f → d.Shows (g f)) :
    ShowsFrom v (w.setDesc ((v.swhead + (j + 1)) % v.size) d) (frames.modify j g) := by
  intro k f hf
  by_cases hk : k = j
  · subst hk
    rw [List.getElem?_modify_eq, Option.map_eq_map, Option.map_eq_some_iff] at hf
    obtain ⟨f', hf', rfl⟩ := hf
    simpa [Vring.setDesc] using hd f' hf'
  · rw [List.getElem?_modify_ne _ _ (Ne.symm hk)] at hf
    obtain ⟨hlt, -⟩ := List.getElem?_eq_some_iff.mp hf
    have hne : (v.swhead + (k + 1)) % v.size ≠ (v.swhead + (j + 1)) % v.size := by
      rcases Nat.lt_or_gt_of_ne hk with hkj | hkj
      · exact Circular.ne_of_window (by omega) (by omega)
      · exact (Circular.ne_of_window (by omega) (by omega)).symm
    simpa [Vring.setDesc, hne] using h k f hf

/-- The descriptor of the headers is none of them. -/
lemma ShowsFrom.setHeader {frames : List TsoFrame} (h : ShowsFrom v w frames)
    (hhead : v.swhead < v.size) (hfits : frames.length < v.size) :
    ShowsFrom v (w.setDesc v.swhead d) frames := by
  intro k f hf
  obtain ⟨hlt, -⟩ := List.getElem?_eq_some_iff.mp hf
  have hne : v.swhead % v.size ≠ (v.swhead + (k + 1)) % v.size :=
    Circular.ne_of_window (by omega) (by omega)
  rw [Nat.mod_eq_of_lt hhead] at hne
  simpa [Vring.setDesc, hne.symm] using h k f hf

/-! ## The chunks of a packet -/

/-- A chunk that is closed, the `k`-th of the packet. -/
structure ClosedChunk (q : TsoRequest) (k : ℕ) (chunk : List TsoFrame) : Prop where
  marked : Segments.Marked TsoFrame.eop chunk
  sum : (chunk.map TsoFrame.len).sum = q.gsoSize
  count : ∀ f, chunk[0]? = some f → f.count = chunk.length + if k = 0 then 1 else 0
  rest : ∀ j f, chunk[j + 1]? = some f → f.count = 1

/-- The chunks that are closed and the one that is open, in a state of `wil_tx_vring_tso`. -/
structure Framed (q : TsoRequest) (v : Vring) (closed : List (List TsoFrame))
    (chunk : List TsoFrame) (cs : List TsoCall) (t : TsoState) : Prop where
  same : SameRing v t.vring
  used : t.descsUsed = (closed.flatten ++ chunk).length + 1
  fits : t.descsUsed ≤ v.size
  header : (t.vring.desc v.swhead).Shows ⟨true, 1, 0, q.hdrlen⟩
  shows : ShowsFrom v t.vring (closed.flatten ++ chunk)
  last : t.i = (v.swhead + (closed.flatten ++ chunk).length) % v.size
  sgDesc : t.sgDesc
    = if chunk = [] then none else some ((v.swhead + (closed.flatten.length + 1)) % v.size)
  sgDescCnt : t.sgDescCnt = chunk.length
  first : t.endOfFirstChunk = if closed = [] then 1 else 0
  firstdata : t.firstdata = true ↔ closed.flatten ++ chunk ≠ []
  rem : t.remData = (q.gsoSize : ℤ) - (chunk.map TsoFrame.len).sum
  sum_le : (chunk.map TsoFrame.len).sum ≤ q.gsoSize
  isOpen : ∀ f ∈ chunk, f.eop = false ∧ f.count = 1
  isClosed : ∀ k c, closed[k]? = some c → ClosedChunk q k c
  frames : ∀ j f, (closed.flatten ++ chunk)[j]? = some f →
    0 < f.len ∧ f.len ≤ q.gsoSize ∧ f.count ≤ t.descsUsed ∧ f.segment = if j = 0 then 1 else 2
  stored : ∀ slot cnt, (slot, cnt) ∈ storedCounts cs → ∃ j f, closed.flatten[j]? = some f ∧
    slot = (v.swhead + (j + 1)) % v.size ∧ f.count = cnt

namespace Framed

variable {closed : List (List TsoFrame)} {chunk : List TsoFrame}

/-- The two stores that close a chunk. -/
lemma shows_endChunk (h : Framed q v closed chunk cs t) (hne : chunk ≠ []) :
    ShowsFrom v (t.endChunk q).vring
      (closed.flatten ++ closeChunk (if closed = [] then 1 else 0) chunk) := by
  have hpos : 0 < chunk.length := List.length_pos_iff.mpr hne
  have hlen : (closed.flatten ++ chunk).length = closed.flatten.length + chunk.length :=
    List.length_append
  have hfits := h.fits
  have hused := h.used
  have hlast := h.shows.modify (j := closed.flatten.length + (chunk.length - 1)) (by omega)
    (by omega) (g := TsoFrame.setEop) fun f hf => (h.shows _ f hf).last q.vringIndex
  rw [modify_append, show closed.flatten.length + (chunk.length - 1) + 1
    = (closed.flatten ++ chunk).length by omega, ← h.last] at hlast
  -- the count of the first one is that of `wil_tx_desc_offload_setup` until then
  have hone : ∀ f, (closed.flatten ++ chunk.modify (chunk.length - 1) TsoFrame.setEop)[
      closed.flatten.length + 0]? = some f → f.count = 1 := by
    intro f hf
    rw [List.getElem?_append_right (Nat.le_add_right _ _), Nat.add_sub_cancel_left,
      List.getElem?_modify, Option.map_eq_map, Option.map_eq_some_iff] at hf
    obtain ⟨g, hg, rfl⟩ := hf
    have hcount := (h.isOpen g (List.mem_of_getElem? hg)).2
    split_ifs <;> exact hcount
  have hlen' : (closed.flatten ++ chunk.modify (chunk.length - 1) TsoFrame.setEop).length
      = closed.flatten.length + chunk.length := by
    rw [List.length_append, List.length_modify]
  have hcount : t.sgDescCnt + t.endOfFirstChunk
      = chunk.length + if closed = [] then 1 else 0 := by
    rw [h.sgDescCnt, h.first]
  have hfirst := hlast.modify (j := closed.flatten.length + 0) (by omega) (by omega)
    (g := TsoFrame.setCount (chunk.length + if closed = [] then 1 else 0))
    fun f hf => (hlast _ f hf).setCount (hone f hf) _
  rw [modify_append] at hfirst
  rw [TsoState.endChunk, h.sgDesc, if_neg hne, hcount]
  exact hfirst

/-- The descriptor of the headers is not one of a chunk. -/
lemma header_endChunk (h : Framed q v closed chunk cs t) (hhead : v.swhead < v.size)
    (hne : chunk ≠ []) : ((t.endChunk q).vring.desc v.swhead).Shows ⟨true, 1, 0, q.hdrlen⟩ := by
  have hpos : 0 < chunk.length := List.length_pos_iff.mpr hne
  have hfits := h.fits
  have hused := h.used
  rw [List.length_append] at hused
  have hslot : ∀ j, 0 < j → j < v.size → v.swhead ≠ (v.swhead + j) % v.size :=
    fun j hj hjs => Circular.ne_add_mod hhead hj hjs
  have hlast := hslot (closed.flatten ++ chunk).length (by rw [List.length_append]; omega)
    (by rw [List.length_append]; omega)
  have hfirst := hslot (closed.flatten.length + 1) (by omega) (by omega)
  rw [← h.last] at hlast
  rw [TsoState.endChunk, h.sgDesc, if_neg hne]
  simp only [Vring.setDesc]
  rw [Function.update_of_ne hfirst, Function.update_of_ne hlast]
  exact h.header

/-- A chunk as it is once it is closed. -/
lemma closedChunk (h : Framed q v closed chunk cs t) (hne : chunk ≠ []) (hfull : t.remData = 0) :
    ClosedChunk q closed.length (closeChunk (if closed = [] then 1 else 0) chunk) := by
  have hsum := h.rem
  have hle := h.sum_le
  refine ⟨marked_closeChunk hne fun f hf => (h.isOpen f hf).1, ?_, fun f hf => ?_,
    fun j f hf => ?_⟩
  · rw [sum_closeChunk]
    omega
  · obtain ⟨_, -, -, -, -, hcount⟩ := getElem?_closeChunk hf
    rw [hcount, if_pos rfl, length_closeChunk]
    simp only [List.length_eq_zero_iff]
  · obtain ⟨g, hg, -, -, -, hcount⟩ := getElem?_closeChunk hf
    rw [hcount, if_neg (Nat.succ_ne_zero j)]
    exact (h.isOpen g (List.mem_of_getElem? hg)).2

/-- What is kept of a frame once its chunk is closed. -/
lemma frames_closeChunk (h : Framed q v closed chunk cs t) {f : TsoFrame}
    (hf : (closed.flatten ++ closeChunk (if closed = [] then 1 else 0) chunk)[j]? = some f) :
    0 < f.len ∧ f.len ≤ q.gsoSize ∧ f.count ≤ t.descsUsed ∧
      f.segment = if j = 0 then 1 else 2 := by
  rcases Nat.lt_or_ge j closed.flatten.length with hold | hnew
  · rw [List.getElem?_append_left hold] at hf
    exact h.frames j f (by rw [List.getElem?_append_left hold, hf])
  · rw [List.getElem?_append_right hnew] at hf
    obtain ⟨g, hg, hlen, hsegment, -, hcount⟩ := getElem?_closeChunk hf
    obtain ⟨hpos, hle, hused, hseg⟩ := h.frames j g (by rw [List.getElem?_append_right hnew, hg])
    rw [hlen, hsegment, hcount]
    refine ⟨hpos, hle, ?_, hseg⟩
    have hall := h.used
    rw [List.length_append] at hall
    split_ifs <;> omega

/-- The counts that are stored are those of the frames. -/
lemma stored_closeChunk (h : Framed q v closed chunk cs t) (hne : chunk ≠ []) {slot cnt : ℕ}
    (hmem : (slot, cnt) ∈ storedCounts (cs ++ t.endChunkCalls)) :
    ∃ j f, (closed.flatten ++ closeChunk (if closed = [] then 1 else 0) chunk)[j]? = some f ∧
      slot = (v.swhead + (j + 1)) % v.size ∧ f.count = cnt := by
  set chunk' := closeChunk (if closed = [] then 1 else 0) chunk with hchunk'
  have hlength : chunk'.length = chunk.length := length_closeChunk _ _
  have hpos : 0 < chunk'.length := by
    rw [hlength]
    exact List.length_pos_iff.mpr hne
  rw [storedCounts_append, List.mem_append] at hmem
  rcases hmem with hold | hnew
  · obtain ⟨j, f, hf, rfl, rfl⟩ := h.stored slot cnt hold
    obtain ⟨hlt, -⟩ := List.getElem?_eq_some_iff.mp hf
    exact ⟨j, f, by rw [List.getElem?_append_left hlt, hf], rfl, rfl⟩
  · rw [TsoState.endChunkCalls, h.sgDesc, if_neg hne, storedCounts_setCount, List.mem_singleton,
      Prod.mk.injEq, h.sgDescCnt, h.first] at hnew
    obtain ⟨rfl, rfl⟩ := hnew
    have hfirst : chunk'[0]? = some chunk'[0] := List.getElem?_eq_getElem hpos
    obtain ⟨_, -, -, -, -, hcount⟩ := getElem?_closeChunk hfirst
    refine ⟨closed.flatten.length, chunk'[0], ?_, rfl, by rw [hcount, if_pos rfl]⟩
    rw [List.getElem?_append_right le_rfl, Nat.sub_self, hfirst]

/-- **A full chunk is closed.** -/
lemma nextChunk (h : Framed q v closed chunk cs t) (hhead : v.swhead < v.size) (hne : chunk ≠ [])
    (hfull : t.remData = 0) :
    Framed q v (closed ++ [closeChunk (if closed = [] then 1 else 0) chunk]) []
      (cs ++ t.nextChunkCalls) (t.nextChunk q) := by
  have hused := (t.nextChunk_keeps q).1
  have hvring : (t.nextChunk q).vring = (t.endChunk q).vring := by
    rw [TsoState.nextChunk, if_pos hfull]
  have hkeeps : (t.nextChunk q).i = t.i ∧ (t.nextChunk q).firstdata = t.firstdata := by
    rw [TsoState.nextChunk, if_pos hfull, TsoState.endChunk]
    cases t.sgDesc <;> exact ⟨rfl, rfl⟩
  have hcalls : cs ++ t.nextChunkCalls = cs ++ t.endChunkCalls := by
    rw [TsoState.nextChunkCalls, if_pos hfull]
  have hshows := h.shows_endChunk hne
  have hheader := h.header_endChunk hhead hne
  have hclosed := h.closedChunk hne hfull
  have hframes := fun j f => h.frames_closeChunk (j := j) (f := f)
  have hstored := fun slot cnt (hmem : (slot, cnt) ∈ storedCounts (cs ++ t.endChunkCalls)) =>
    h.stored_closeChunk hne hmem
  have hlength := length_closeChunk (if closed = [] then 1 else 0) chunk
  generalize closeChunk (if closed = [] then 1 else 0) chunk = chunk' at *
  have hlist : (closed ++ [chunk']).flatten ++ [] = closed.flatten ++ chunk' := by
    simp
  have hlen : (closed.flatten ++ chunk').length = (closed.flatten ++ chunk).length := by
    rw [List.length_append, List.length_append, hlength]
  have hrem : (t.nextChunk q).remData = q.gsoSize := by
    rw [remData_nextChunk, if_pos hfull]
  refine ⟨?_, ?_, ?_, ?_, ?_, ?_, ?_, ?_, ?_, ?_, ?_, ?_, ?_, ?_, ?_, ?_⟩
  · rw [hvring]
    exact h.same.trans (sameRing_endChunk q t)
  · rw [hlist, hused, hlen, h.used]
  · rw [hused]
    exact h.fits
  · rwa [hvring]
  · rwa [hlist, hvring]
  · rw [hlist, hlen, hkeeps.1, h.last]
  · rw [TsoState.nextChunk, if_pos hfull, if_pos rfl]
  · rw [TsoState.nextChunk, if_pos hfull]
    rfl
  · rw [TsoState.nextChunk, if_pos hfull, if_neg (by simp)]
  · rw [hlist, hkeeps.2, h.firstdata, ne_eq, ne_eq, ← List.length_eq_zero_iff,
      ← List.length_eq_zero_iff, hlen]
  · rw [hrem, List.map_nil, List.sum_nil, Nat.cast_zero, sub_zero]
  · exact Nat.zero_le _
  · simp
  · intro k c hc
    obtain ⟨-, hc⟩ | ⟨rfl, rfl⟩ := getElem?_concat_cases hc
    · exact h.isClosed k c hc
    · exact hclosed
  · intro j f hf
    rw [hlist] at hf
    rw [hused]
    exact hframes j f hf
  · intro slot cnt hmem
    rw [hcalls] at hmem
    rw [List.flatten_append, List.flatten_singleton]
    exact hstored slot cnt hmem

/-- **A piece is posted** in the open chunk. -/
lemma post (h : Framed q v closed chunk cs t) (hhead : v.swhead < v.size)
    (htcp : (wilTxDescOffloadSetup d q.skb 0).2 ≠ 0) (hroom : t.descsUsed < v.size) (hn : 0 < n)
    (hsum : (chunk.map TsoFrame.len).sum + n ≤ q.gsoSize)
    (hk : k = if closed.flatten ++ chunk = [] then 1 else 2) {p : TsoPiece}
    (hvring : u.vring = (t.post q ((v.swhead + t.descsUsed) % v.size) p.pa (n : ℕ) (k : ℕ)).vring)
    (hi : u.i = (v.swhead + t.descsUsed) % v.size) (hused : u.descsUsed = t.descsUsed + 1)
    (hsgDesc : u.sgDesc = some (t.sgDesc.getD u.i)) (hcnt : u.sgDescCnt = t.sgDescCnt + 1)
    (hrem : u.remData = t.remData - (n : ℕ)) (hfirst : u.endOfFirstChunk = t.endOfFirstChunk)
    (hdata : u.firstdata = true) :
    Framed q v closed (chunk ++ [⟨false, 1, k, n⟩]) (cs ++ [.map p]) u := by
  have hlist : closed.flatten ++ (chunk ++ [⟨false, 1, k, n⟩])
      = (closed.flatten ++ chunk) ++ [⟨false, 1, k, n⟩] := (List.append_assoc _ _ _).symm
  have hall := h.used
  have hfits := h.fits
  have hsame : SameRing t.vring u.vring := by
    rw [hvring]
    exact ⟨rfl, rfl, rfl, rfl, rfl⟩
  have hnew : ((v.swhead + t.descsUsed) % v.size)
      = (v.swhead + ((closed.flatten ++ chunk).length + 1)) % v.size := by
    rw [hall]
  have hslot : ∀ j, j < t.descsUsed →
      (v.swhead + j) % v.size ≠ (v.swhead + t.descsUsed) % v.size := fun j hj =>
    Circular.ne_of_window (by omega) (by omega)
  refine ⟨h.same.trans hsame, ?_, by omega, ?_, ?_, ?_, ?_, ?_, ?_, ?_, ?_, ?_, ?_, h.isClosed, ?_,
    ?_⟩
  · rw [hlist, List.length_append, List.length_singleton, hused, hall]
  · have hne := hslot 0 (by omega)
    rw [Nat.add_zero, Nat.mod_eq_of_lt hhead] at hne
    simpa [hvring, TsoState.post, Vring.setDesc, Vring.setCtx, hne] using h.header
  · rw [hlist]
    intro j f hf
    obtain ⟨hold, hf⟩ | ⟨rfl, rfl⟩ := getElem?_concat_cases hf
    · have hne := hslot (j + 1) (by omega)
      simpa [hvring, TsoState.post, Vring.setDesc, Vring.setCtx, hne] using h.shows j f hf
    · have hlen : u16 ((n : ℤ) % 2 ^ 32).toNat = u16 n := by
        rw [u16, u16]
        omega
      have hshows := shows_post htcp (t.vring.desc ((v.swhead + t.descsUsed) % v.size)) p.pa
        ((n : ℤ) % 2 ^ 32).toNat k (by rw [hk]; split_ifs <;> norm_num)
      rw [← hnew, hvring]
      simp only [TsoState.post, Vring.setDesc, Vring.setCtx, Function.update_self]
      exact ⟨hshows.eop, hshows.count, hshows.segment, hshows.len.trans hlen⟩
  · rw [hlist, List.length_append, List.length_singleton, hi, hnew]
  · rw [if_neg (by simp), hsgDesc, h.sgDesc]
    split_ifs with hempty
    · rw [Option.getD_none, hi, hnew, hempty, List.append_nil]
    · rfl
  · rw [List.length_append, List.length_singleton, hcnt, h.sgDescCnt]
  · rw [hfirst, h.first]
  · simp [hdata]
  · rw [hrem, h.rem]
    simp only [List.map_append, List.sum_append, List.map_cons, List.map_nil, List.sum_cons,
      List.sum_nil]
    omega
  · simpa using hsum
  · intro f hf
    rcases List.mem_append.mp hf with hold | hnew
    · exact h.isOpen f hold
    · obtain rfl := List.mem_singleton.mp hnew
      exact ⟨rfl, rfl⟩
  · rw [hlist]
    intro j f hf
    obtain ⟨hold, hf⟩ | ⟨rfl, rfl⟩ := getElem?_concat_cases hf
    · obtain ⟨hpos, hle, hcount, hsegment⟩ := h.frames j f hf
      exact ⟨hpos, hle, by omega, hsegment⟩
    · refine ⟨hn, (Nat.le_add_left _ _).trans hsum, by show 1 ≤ u.descsUsed; omega, ?_⟩
      rw [hk]
      simp only [List.length_eq_zero_iff]
  · intro slot cnt hmem
    rw [storedCounts_append, storedCounts_map, List.append_nil] at hmem
    exact h.stored slot cnt hmem

/-- The headers. -/
lemma ofHeader (htcp : (wilTxDescOffloadSetup d q.skb 0).2 ≠ 0) (hhead : v.swhead < v.size)
    (pa : ℕ) : Framed q v [] [] [.map ⟨none, 0, q.hdrlen, pa⟩] (tsoHeader q v pa) := by
  refine ⟨⟨rfl, rfl, rfl, rfl, rfl⟩, rfl, (show 0 + 1 ≤ v.size by omega), ?_, by simp [ShowsFrom],
    (Nat.mod_eq_of_lt hhead).symm, rfl, rfl, rfl, by simp [tsoHeader, TsoState.post], ?_,
    Nat.zero_le _, by simp, by simp, by simp, fun _ _ hmem => absurd hmem (List.not_mem_nil)⟩
  · have hlen : u16 ((q.hdrlen : ℤ) % 2 ^ 32).toNat = u16 q.hdrlen := by
      rw [u16, u16]
      omega
    have hshows := (shows_post htcp (v.desc v.swhead) pa ((q.hdrlen : ℤ) % 2 ^ 32).toNat 0
      (by norm_num)).last q.vringIndex
    simp only [tsoHeader, TsoState.post, Vring.setDesc, Vring.setCtx, Function.update_self]
    exact ⟨hshows.eop, hshows.count, hshows.segment, hshows.len.trans hlen⟩
  · rw [List.map_nil, List.sum_nil, Nat.cast_zero, sub_zero]
    rfl

/-- The headers and the data behind them. -/
lemma ofLinear (htcp : (wilTxDescOffloadSetup d q.skb 0).2 ≠ 0) (hhead : v.swhead < v.size)
    (hroom : 1 < v.size) (hdata : q.linear ≠ 0) (hlinear : q.linear ≤ q.gsoSize) (pa pa' : ℕ) :
    Framed q v [] [⟨false, 1, 1, q.linear⟩]
      [.map ⟨none, 0, q.hdrlen, pa⟩, .map ⟨none, q.hdrlen, q.linear, pa'⟩]
      ((tsoHeader q v pa).postLinear q v.swhead pa') := by
  have hheader := ofHeader htcp hhead pa
  exact hheader.post hhead htcp hroom (Nat.pos_of_ne_zero hdata) (by simpa using hlinear)
    (k := 1) (by simp) (p := ⟨none, q.hdrlen, q.linear, pa'⟩) rfl rfl rfl rfl rfl rfl rfl rfl

/-- **A piece of a fragment**, in the open chunk or in the next one. -/
lemma piece (h : Framed q v closed chunk cs t) (hgso : 0 < q.gsoSize) (hhead : v.swhead < v.size)
    (htcp : (wilTxDescOffloadSetup d q.skb 0).2 ≠ 0) (hroom : t.descsUsed < v.size) {len : ℤ}
    (hlen : 0 < len) (p : TsoPiece) : ∃ closed' chunk', chunk' ≠ [] ∧
      Framed q v closed' chunk' (cs ++ (t.nextChunkCalls ++ [.map p]))
        (t.postPiece q v.swhead len p.pa) := by
  -- the chunk that the piece goes to
  obtain ⟨closed', chunk', hnext⟩ : ∃ closed' chunk',
      Framed q v closed' chunk' (cs ++ t.nextChunkCalls) (t.nextChunk q) := by
    by_cases hfull : t.remData = 0
    · have hne : chunk ≠ [] := by
        rintro rfl
        have hrem := h.rem
        rw [List.map_nil, List.sum_nil] at hrem
        omega
      exact ⟨_, _, h.nextChunk hhead hne hfull⟩
    · have hsame : t.nextChunk q = t := if_neg hfull
      have hcalls : t.nextChunkCalls = [] := if_neg hfull
      exact ⟨closed, chunk, by rwa [hsame, hcalls, List.append_nil]⟩
  have hused := (t.nextChunk_keeps q).1
  have hrem := hnext.rem
  have hpos := (nextChunk_nextChunk hgso t).1
  have hle := hnext.sum_le
  obtain ⟨n, hn⟩ : ∃ n : ℕ, t.lenmss q len = n :=
    Int.eq_ofNat_of_zero_le (by rw [TsoState.lenmss]; split_ifs <;> omega)
  have hlenmss : 0 < n ∧ (n : ℤ) ≤ (t.nextChunk q).remData := by
    rw [← Nat.cast_pos (α := ℤ), ← hn, TsoState.lenmss]
    split_ifs <;> omega
  refine ⟨closed', chunk' ++ [⟨false, 1, if closed'.flatten ++ chunk' = [] then 1 else 2, n⟩],
    by simp, ?_⟩
  rw [← List.append_assoc]
  refine hnext.post hhead htcp (by omega) hlenmss.1 (by omega) rfl (p := p) ?_ ?_ rfl ?_ rfl ?_ rfl
    rfl
  · have hsegment : (if (t.nextChunk q).firstdata = true then (2 : ℤ) else 1)
        = ((if closed'.flatten ++ chunk' = [] then 1 else 2 : ℕ) : ℤ) := by
      by_cases hfirst : closed'.flatten ++ chunk' = []
      · rw [if_pos hfirst, if_neg (fun hdata => hnext.firstdata.mp hdata hfirst)]
        rfl
      · rw [if_neg hfirst, if_pos (hnext.firstdata.mpr hfirst)]
        rfl
    rw [TsoState.postPiece, TsoState.postFrag, hn, hsegment, hnext.same.size]
  · rw [TsoState.postPiece, TsoState.postFrag, TsoState.post, hnext.same.size]
  · rfl
  · rw [← hn]
    rfl

end Framed

/-- **The chunks behind the loops.** -/
theorem framed_tsoPieces {pa : ℕ} (hgso : 0 < q.gsoSize) (hhead : v.swhead < v.size)
    (haccepts : q.Accepts v pa) (hlinear : q.linear ≤ q.gsoSize)
    (hpieces : tsoPieces q v pa = (t, true)) : ∃ closed chunk, (chunk = [] → closed = []) ∧
      Framed q v closed chunk (tsoPiecesCalls q v pa) t := by
  have hsize : wilVringAvailTx v < v.size := by
    rw [wilVringAvailTx]
    omega
  have havail : 1 < v.size := by
    have hroom := haccepts.room
    omega
  refine tsoPieces_run (J := fun _ cs t => ∃ closed chunk, (chunk = [] → closed = []) ∧
    Framed q v closed chunk cs t) hpieces (fun _ => ⟨[], [], fun _ => rfl,
      .ofHeader haccepts.tcp hhead pa⟩) (fun pa' hdata _ => ⟨[], _, fun h => absurd h (by simp),
      .ofLinear haccepts.tcp hhead havail hdata hlinear pa pa'⟩) ?_
  intro f size cs w u _ hw hfrag
  obtain ⟨-, -, hend⟩ := tsoFrag_run (I := fun _ cs t => ∃ closed chunk,
    (chunk = [] → closed = []) ∧ Framed q v closed chunk cs t)
    (fun len cs t pa hlen hused _ ht => by
      obtain ⟨closed, chunk, -, hframed⟩ := ht
      obtain ⟨closed', chunk', hne, hnext⟩ := hframed.piece hgso hhead haccepts.tcp (by omega) hlen
        ⟨some f, size - len, t.lenmss q len, pa⟩
      exact ⟨closed', chunk', fun h => absurd h hne, hnext⟩) le_rfl hw hfrag
  exact hend

end Wil6210
