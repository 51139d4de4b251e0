import Wil6210.Tx.TsoRead

/-!
# The image of a packet

What the hardware reads of a descriptor is the address and the length of a piece, how many descriptors
belong together, and whether they end here.  The image of a packet says what it is to read, and it is
made from the request alone: from the lengths of the packet and from the addresses at which its pieces
were mapped.

The image of a packet that is not for TSO has one piece for its linear part and one for each fragment
(`image_wilTxVring`).  With segmentation offload the headers come first, by themselves; behind them
the payload is cut where a segment ends (`TsoRequest.payload`), and the pieces of one segment belong
together (`TsoRequest.segments`).  `image_wilTxVringTso` says that a call that returns 0 leaves the
image in the ring.
-/

namespace Wil6210

open Circular (slots mem_slots)

/-! ## A descriptor, as the hardware reads it -/

/-- A piece of a packet: its address and length, the descriptors of the packet, and whether it is
the last one. -/
structure TxPiece where
  pa : ℕ
  len : ℕ
  count : ℕ
  eop : Bool
  deriving DecidableEq, Repr

/-- What the hardware reads of a descriptor. -/
def VringTxDesc.piece (d : VringTxDesc) : TxPiece := ⟨d.pa, d.length, d.numOfDescriptors, d.eop⟩

/-- Piece `j` of a packet, of `len` bytes: an address of 48 bits, a length of 16, a count of 8. -/
def TxRequest.piece (q : TxRequest) (j len : ℕ) : TxPiece :=
  ⟨(q.dmaMap j).getD 0 % 2 ^ 48, u16 len, (q.nrFrags + 1) % 2 ^ 8, j = q.nrFrags⟩

/-- The packet: its linear part, and its fragments. -/
def TxRequest.image (q : TxRequest) : List TxPiece :=
  (q.skb.headlen :: q.skb.frags).mapIdx q.piece

section Pieces

variable {q : TxRequest} {v w : Vring} {d : VringTxDesc}

/-- The two address fields hold 48 bits. -/
lemma pa_mod (pa : ℕ) : (pa % 2 ^ 32) ||| (u16 (pa >>> 32) <<< 32) = pa % 2 ^ 48 := by
  have h := pa_fields (Nat.mod_lt pa (show 0 < 2 ^ 48 by norm_num))
  have hlow : pa % 2 ^ 48 % 2 ^ 32 = pa % 2 ^ 32 := Nat.mod_mod_of_dvd _ (by norm_num)
  have hhigh : u16 ((pa % 2 ^ 48) >>> 32) = u16 (pa >>> 32) := by
    simp only [u16, Nat.shiftRight_eq_div_pow]
    omega
  rwa [hlow, hhigh] at h

lemma wilGetBits_low (x : ℕ) : wilGetBits x 0 7 = x % 2 ^ 8 := by
  rw [wilGetBits, Nat.shiftRight_zero]
  exact Nat.and_two_pow_sub_one_eq_mod x 8

/-- `wil_tx_desc_offload_setup` of a packet that is not for TSO leaves the address, the length and
the count, and does not end the packet. -/
lemma offload_plain (d : VringTxDesc) (skb : TxSkb) :
    (wilTxDescOffloadSetup d skb (-1)).1.pa = d.pa ∧
      (wilTxDescOffloadSetup d skb (-1)).1.length = d.length ∧
      (wilTxDescOffloadSetup d skb (-1)).1.macD2 = d.macD2 ∧
      ((wilTxDescOffloadSetup d skb (-1)).1.eop ↔ d.eop) := by
  have hl4 : skb.tcpHdrlen &&& 0xff < 2 ^ 8 := lt_of_le_of_lt Nat.and_le_right (by norm_num)
  have hheader : (skb.tcpHdrlen &&& 0xff) &&& descTx0CmdEop = 0 := by
    rw [descTx0CmdEop, bit, Nat.one_shiftLeft, Nat.and_two_pow, Nat.testBit_lt_two_pow hl4]
    rfl
  have hl3 : ∀ x, (x ||| bit 15 ||| bit 21) &&& descTx0CmdEop = x &&& descTx0CmdEop := by
    intro x
    rw [Nat.and_or_distrib_right, Nat.and_or_distrib_right,
      show bit 15 &&& descTx0CmdEop = 0 by decide, show bit 21 &&& descTx0CmdEop = 0 by decide,
      Nat.or_zero, Nat.or_zero]
  have htcp : ∀ x, (x ||| (2 <<< 30) ||| (skb.tcpHdrlen &&& 0xff)) &&& descTx0CmdEop
      = x &&& descTx0CmdEop := by
    intro x
    rw [Nat.and_or_distrib_right, Nat.and_or_distrib_right, hheader,
      show (2 <<< 30) &&& descTx0CmdEop = 0 by decide, Nat.or_zero, Nat.or_zero]
  have hudp : ∀ x, (x ||| (8 &&& 0xff)) &&& descTx0CmdEop = x &&& descTx0CmdEop := by
    intro x
    rw [Nat.and_or_distrib_right, show (8 &&& 0xff) &&& descTx0CmdEop = 0 by decide, Nat.or_zero]
  simp only [wilTxDescOffloadSetup, ne_eq, not_true_eq_false, if_false]
  split_ifs <;>
    simp only [VringTxDesc.pa, VringTxDesc.eop, hl3, htcp, hudp, and_self]

/-- The descriptor of one piece, which is not yet marked as the last one. -/
lemma piece_txSegmentDesc (q : TxRequest) (d : VringTxDesc) (pa len : ℕ) :
    (txSegmentDesc q d pa len).piece
      = ⟨pa % 2 ^ 48, u16 len, (q.nrFrags + 1) % 2 ^ 8, false⟩ := by
  set e := wilTxDescMap d pa len q.vringIndex with he
  set o := if q.skb.csumPartial && q.hwCsum then (wilTxDescOffloadSetup e q.skb (-1)).1 else e
    with ho
  have hkept : o.pa = e.pa ∧ o.length = e.length ∧ o.macD2 = e.macD2 ∧ (o.eop ↔ e.eop) := by
    rw [ho]
    split_ifs
    · exact offload_plain e q.skb
    · exact ⟨rfl, rfl, rfl, .rfl⟩
  obtain ⟨hpa, hlen, hmac, heop⟩ := hkept
  have hopen : ¬ e.eop := by
    have hindex : (q.vringIndex <<< 16) &&& descTx0CmdEop = 0 := by
      rw [descTx0CmdEop, bit, Nat.one_shiftLeft, Nat.and_two_pow, Nat.testBit_shiftLeft]
      simp
    exact not_not_intro hindex
  have hcount : wilGetBits (o.macD2 ||| ((q.nrFrags + 1) <<< 0)) 0 7 = (q.nrFrags + 1) % 2 ^ 8 := by
    have hbase : wilGetBits (bit 20 ||| (1 <<< 18)) 0 7 = 0 := by
      decide
    have hmap : e.macD2 = bit 20 ||| (1 <<< 18) := rfl
    rw [hmac, hmap, wilGetBits_or, hbase, Nat.zero_or, Nat.shiftLeft_zero, wilGetBits_low]
  have hpiece : (txSegmentDesc q d pa len).piece
      = ⟨o.pa, o.length, wilGetBits (o.macD2 ||| ((q.nrFrags + 1) <<< 0)) 0 7, o.eop⟩ := rfl
  rw [hpiece, hpa, hlen, hcount, TxPiece.mk.injEq]
  exact ⟨pa_mod pa, rfl, rfl, decide_eq_false (heop.not.mpr hopen)⟩

/-- The last descriptor is that of its piece, marked. -/
lemma piece_wilTxLastDesc (d : VringTxDesc) (i : ℕ) :
    (wilTxLastDesc d i).piece = { d.piece with eop := true } := by
  have heop : decide (wilTxLastDesc d i).eop = true := decide_eq_true (eop_wilTxLastDesc d i)
  rw [VringTxDesc.piece, heop]
  rfl

/-- The loop over the fragments, where all can be mapped: the slot behind the head in which each is
posted, and the slot of the last one. -/
lemma txFrags_pieces (q : TxRequest) (swhead : ℕ) (frags : List ℕ) :
    ∀ (i f : ℕ) (v : Vring), (txFrags q swhead i f frags v).1.2.2 = none →
      f + frags.length < v.size →
      (txFrags q swhead i f frags v).1.2.1
        = (if frags = [] then i else (swhead + f + frags.length) % v.size) ∧
      ∀ j (hj : j < frags.length),
        ((txFrags q swhead i f frags v).1.1.desc ((swhead + f + 1 + j) % v.size)).piece
          = ⟨(q.dmaMap (f + 1 + j)).getD 0 % 2 ^ 48, u16 frags[j], (q.nrFrags + 1) % 2 ^ 8,
              false⟩ := by
  induction frags with
  | nil =>
      intro i f v _ _
      exact ⟨rfl, fun j hj => absurd hj (Nat.not_lt_zero j)⟩
  | cons len frags ih =>
      intro i f v hnone hfits
      cases hmap : q.dmaMap (f + 1) with
      | none => simp [txFrags, hmap] at hnone
      | some pa =>
          set k := (swhead + f + 1) % v.size with hk
          have hseg := Posted.segment q v k pa len
          have hcall : (txFrags q swhead i f (len :: frags) v).1
              = (txFrags q swhead k (f + 1) frags (txSegment q k pa len v)).1 := by
            simp only [txFrags, hmap, ← hk]
          rw [List.length_cons] at hfits
          rw [hcall] at hnone ⊢
          obtain ⟨hlast, hpieces⟩ := ih k (f + 1) (txSegment q k pa len v) hnone
            (by rw [hseg.same.size]; omega)
          rw [hseg.same.size] at hlast hpieces
          refine ⟨?_, fun j hj => ?_⟩
          · rw [hlast, if_neg (List.cons_ne_nil len frags), List.length_cons]
            split_ifs with hempty
            · rw [hempty, List.length_nil, hk]
            · rw [show swhead + (f + 1) + frags.length = swhead + f + (frags.length + 1) by omega]
          · cases j with
            | zero =>
                -- the pieces behind it are in other slots
                obtain ⟨m, hm, hposted, -⟩ :=
                  txFrags_posted q swhead frags k (f + 1) (txSegment q k pa len v)
                rw [hseg.same.size] at hposted
                have hnot : k ∉ slots v.size (swhead + (f + 1) + 1) m := by
                  rw [hk]
                  intro hmem
                  obtain ⟨p, hp, hp', heq⟩ := mem_slots.mp hmem
                  exact Circular.ne_of_window (show swhead + f + 1 < p by omega) (by omega) heq.symm
                rw [Nat.add_zero, ← hk, (hposted.frame k hnot).1]
                simp [txSegment, Vring.setDesc, Vring.setCtx, piece_txSegmentDesc, hmap]
            | succ j =>
                have hthis := hpieces j (by simpa using hj)
                rw [show swhead + (f + 1) + 1 + j = swhead + f + 1 + (j + 1) by omega,
                  show f + 1 + 1 + j = f + 1 + (j + 1) by omega] at hthis
                rw [hthis, List.getElem_cons_succ]

/-- A call of `wil_tx_vring` that returns 0: all pieces could be mapped. -/
lemma wilTxVring_posted {s : TxState} {q : TxRequest} (hrc : (wilTxVring s q).2.2 = 0) :
    ∃ pa, q.dmaMap 0 = some pa ∧ q.nrFrags + 1 ≤ wilVringAvailTx s.vring ∧
      (txPieces q pa s.vring).1.2.2 = none ∧
      (wilTxVring s q).1.vring.desc = ((txPieces q pa s.vring).1.1.setDesc
        (txPieces q pa s.vring).1.2.1 (wilTxLastDesc ((txPieces q pa s.vring).1.1.desc
          (txPieces q pa s.vring).1.2.1) q.vringIndex)).desc := by
  rw [wilTxVring] at hrc ⊢
  split_ifs at hrc ⊢ with hroom
  · exact absurd hrc (show eNomem ≠ 0 by decide)
  · cases hmap : q.dmaMap 0 with
    | none =>
        rw [hmap] at hrc
        exact absurd hrc (show eInval ≠ 0 by decide)
    | some pa =>
        rw [hmap] at hrc
        cases hend : (txPieces q pa s.vring).1.2.2 with
        | some f =>
            simp only [hend] at hrc
            exact absurd hrc (show eInval ≠ 0 by decide)
        | none =>
            refine ⟨pa, rfl, by omega, hend, ?_⟩
            simp only [hend]
            rfl

/-- Only the last piece of a packet is marked. -/
lemma eop_image (q : TxRequest) {j : ℕ} (hj : j < q.image.length) :
    q.image[j].eop = decide (j = q.nrFrags) := by
  simp only [TxRequest.image, List.getElem_mapIdx]
  rfl

/-- **A packet in the ring**: its pieces, one descriptor each, the last one marked. -/
theorem image_wilTxVring {s : TxState} {q : TxRequest} (hhead : s.vring.swhead < s.vring.size)
    (hrc : (wilTxVring s q).2.2 = 0) {j : ℕ} (hj : j < q.image.length) :
    ((wilTxVring s q).1.vring.desc ((s.vring.swhead + j) % s.vring.size)).piece = q.image[j] := by
  obtain ⟨pa, hmap, hroom, hnone, hdesc⟩ := wilTxVring_posted hrc
  have hlen : q.image.length = q.nrFrags + 1 := by
    simp [TxRequest.image, TxRequest.nrFrags]
  have hfits : q.nrFrags + 1 < s.vring.size := by
    rw [wilVringAvailTx] at hroom
    omega
  set v := s.vring with hv
  have hseg := Posted.segment q v v.swhead pa q.skb.headlen
  have hcall : (txPieces q pa v).1 = (txFrags q v.swhead v.swhead 0 q.skb.frags
      (txSegment q v.swhead pa q.skb.headlen v)).1 := rfl
  obtain ⟨hlast, hpieces⟩ := txFrags_pieces q v.swhead q.skb.frags v.swhead 0
    (txSegment q v.swhead pa q.skb.headlen v) (hcall ▸ hnone)
    (by rw [hseg.same.size]; show 0 + q.nrFrags < _; omega)
  rw [← hcall, hseg.same.size] at hlast hpieces
  -- the slot of the last piece, fragment or not
  have hend : (txPieces q pa v).1.2.1 = (v.swhead + q.nrFrags) % v.size := by
    rw [hlast, TxRequest.nrFrags]
    split_ifs with hempty
    · rw [hempty, List.length_nil, Nat.add_zero, Nat.mod_eq_of_lt hhead]
    · rw [Nat.add_zero]
  -- the pieces before the last one is marked
  have hopen : ((txPieces q pa v).1.1.desc ((v.swhead + j) % v.size)).piece
      = { q.image[j] with eop := false } := by
    cases j with
    | zero =>
        obtain ⟨m, hm, hposted, -⟩ := txFrags_posted q v.swhead q.skb.frags v.swhead 0
          (txSegment q v.swhead pa q.skb.headlen v)
        rw [hseg.same.size, ← hcall] at hposted
        have hm' : m ≤ q.nrFrags := hm
        have hnot : v.swhead ∉ slots v.size (v.swhead + 0 + 1) m := by
          intro hmem
          obtain ⟨p, hp, hp', heq⟩ := mem_slots.mp hmem
          have hne := Circular.ne_of_window (show v.swhead < p by omega) (by omega : p < _ + v.size)
          rw [Nat.mod_eq_of_lt hhead] at hne
          exact hne heq.symm
        rw [Nat.add_zero, Nat.mod_eq_of_lt hhead, (hposted.frame _ hnot).1]
        simp [txSegment, Vring.setDesc, Vring.setCtx, piece_txSegmentDesc, TxRequest.image,
          TxRequest.piece, hmap]
    | succ j =>
        have hj' : j < q.skb.frags.length := by
          rw [hlen, TxRequest.nrFrags] at hj
          omega
        have hthis := hpieces j hj'
        rw [show v.swhead + 0 + 1 + j = v.swhead + (j + 1) by omega,
          show 0 + 1 + j = j + 1 by omega] at hthis
        rw [hthis]
        simp [TxRequest.image, TxRequest.piece]
  have hmark := eop_image q hj
  rw [hdesc, hend]
  simp only [Vring.setDesc]
  by_cases hjlast : j = q.nrFrags
  · rw [← hjlast, Function.update_self, piece_wilTxLastDesc, hopen, ← decide_eq_true hjlast,
      ← hmark]
  · have hne : (v.swhead + j) % v.size ≠ (v.swhead + q.nrFrags) % v.size :=
      Circular.ne_of_window (by omega) (by omega)
    rw [Function.update_of_ne hne, hopen, ← decide_eq_false hjlast, ← hmark]

/-- Of the pieces of a packet the last one is marked, and no other. -/
lemma marked_image (q : TxRequest) : Segments.Marked TxPiece.eop q.image := by
  refine ⟨by simp [TxRequest.image], fun j hj => ?_⟩
  rw [eop_image q hj, decide_eq_true_iff]
  simp [TxRequest.image, TxRequest.nrFrags]

end Pieces

/-! ## A packet with segmentation offload -/

namespace TsoRequest

/-- The bytes of the payload in front of fragment `f`. -/
def payloadBefore (q : TsoRequest) (f : ℕ) : ℕ := q.linear + (q.skb.frags.take f).sum

/-- The piece of fragment `f` that is at position `c.1` of the payload and has `c.2` bytes. -/
def fragPiece (q : TsoRequest) (f : ℕ) (c : ℕ × ℕ) : TsoPiece :=
  let offset : ℤ := c.1 - q.payloadBefore f
  ⟨some f, offset, c.2, (q.dma.frag f offset c.2).getD 0⟩

/-- Fragment `f`, cut where a segment ends. -/
def fragPieces (q : TsoRequest) (f : ℕ) : List TsoPiece :=
  (Segments.cuts q.gsoSize (q.payloadBefore f) (q.skb.frags[f]?.getD 0)).map (q.fragPiece f)

/-- The linear part behind the headers, if there is any. -/
def linearPieces (q : TsoRequest) : List TsoPiece :=
  if q.linear = 0 then []
  else [⟨none, q.hdrlen, q.linear, (q.dma.single q.hdrlen q.linear).getD 0⟩]

/-- The payload, in pieces. -/
def payload (q : TsoRequest) : List TsoPiece :=
  q.linearPieces ++ (List.range q.nrFrags).flatMap q.fragPieces

/-- The segment of the payload that a piece is in. -/
def segment (q : TsoRequest) (p : TsoPiece) : ℤ := (p.start q.skb - q.dataStart) / q.gsoSize

/-- The payload, segment by segment. -/
def segments (q : TsoRequest) : List (List TsoPiece) :=
  q.payload.splitBy fun p p' => q.segment p == q.segment p'

end TsoRequest

/-- What the hardware is to read of a piece. -/
def TsoPiece.shown (p : TsoPiece) (count : ℕ) (eop : Bool) : TxPiece :=
  ⟨p.pa % 2 ^ 48, u16 p.len.toNat, count % 2 ^ 8, eop⟩

/-- Segment `k`: its first piece says how many there are, one more with the headers, and its last one
is marked. -/
def tsoChunk (k : ℕ) (ps : List TsoPiece) : List TxPiece :=
  ps.mapIdx fun j p =>
    p.shown (if j = 0 then ps.length + if k = 0 then 1 else 0 else 1) (j + 1 = ps.length)

/-- The packet: its headers, which count all pieces, and its segments. -/
def TsoRequest.image (q : TsoRequest) : List (List TxPiece) :=
  [TsoPiece.shown ⟨none, 0, q.hdrlen, (q.dma.single 0 q.hdrlen).getD 0⟩ (q.payload.length + 1) true]
    :: q.segments.mapIdx tsoChunk

section Payload

variable {q : TsoRequest} {v : Vring} {t u : TsoState} {cs : List TsoCall} {skb : TxSkb}
  {p : TsoPiece} {ps ps' : List TsoPiece} {a b : ℤ} {f size n avail pa swhead : ℕ}

/-- A fragment is mapped in its pieces. -/
lemma mappedPieces_frag {header : TsoPiece} (hgso : 0 < q.gsoSize)
    (hsize : q.skb.frags[f]? = some size) (h : Covered q header (q.payloadBefore f) cs t)
    (hfrag : tsoFrag q swhead f size n size t = (u, true)) (hn : n ≤ avail - t.descsUsed) :
    mappedPieces (cs ++ tsoFragCalls q swhead f size n size t)
      = mappedPieces cs ++ q.fragPieces f := by
  set P := q.payloadBefore f with hP
  -- what is mapped and what is still to come are the same all the time
  have hpiece : ∀ (len : ℤ) ds w pa, 0 < len →
      q.dma.frag f (size - len) (w.lenmss q len) = some pa →
      (∃ l : ℕ, len = l ∧ l ≤ size ∧ Covered q header (P + (size - l)) ds w ∧
        mappedPieces ds ++ (Segments.cuts q.gsoSize (P + (size - l)) l).map (q.fragPiece f)
          = mappedPieces cs ++ q.fragPieces f) →
      ∃ l : ℕ, len - w.lenmss q len = l ∧ l ≤ size ∧ Covered q header (P + (size - l))
          (ds ++ (w.nextChunkCalls ++ [.map ⟨some f, size - len, w.lenmss q len, pa⟩]))
          (w.postPiece q swhead len pa) ∧
        mappedPieces (ds ++ (w.nextChunkCalls ++ [.map ⟨some f, size - len, w.lenmss q len, pa⟩]))
            ++ (Segments.cuts q.gsoSize (P + (size - l)) l).map (q.fragPiece f)
          = mappedPieces cs ++ q.fragPieces f := by
    rintro len ds w pa hpos hmap ⟨l, rfl, hle, hcov, hrest⟩
    have hl : 0 < l := Nat.cast_pos.mp hpos
    have hlenmss := lenmss_eq hcov.left l
    have hnext : Covered q header
        (P + (size - l) + min l (Segments.room q.gsoSize (P + (size - l)))) _
        (w.postPiece q swhead l pa) := hcov.fragPiece hgso hsize hl hle pa
    rw [Segments.cuts_cut hgso hl, List.map_cons] at hrest
    set m := min l (Segments.room q.gsoSize (P + (size - l))) with hm
    have hml : m ≤ l := Nat.min_le_left _ _
    have hposition : P + (size - l) + m = P + (size - (l - m)) := by omega
    rw [hposition] at hnext hrest
    have hthis : q.fragPiece f (P + (size - l), m) = ⟨some f, size - l, w.lenmss q l, pa⟩ := by
      have hoffset : ((P + (size - l) : ℕ) : ℤ) - P = size - l := by omega
      simp only [TsoRequest.fragPiece, ← hP, hoffset]
      rw [hlenmss] at hmap ⊢
      rw [hmap, Option.getD_some]
    refine ⟨l - m, by omega, by omega, hnext, ?_⟩
    rw [← hrest, hthis, mappedPieces_append, mappedPieces_append, mappedPieces_nextChunkCalls,
      mappedPieces_map, List.nil_append, List.append_assoc]
    rfl
  obtain ⟨len, hlen, l, rfl, -, -, hrest⟩ := tsoFrag_run
    (fun len ds w pa hpos _ hmap h => hpiece len ds w pa hpos hmap h) hn
    ⟨size, rfl, le_rfl, by rwa [Nat.sub_self, Nat.add_zero], by
      rw [Nat.sub_self, Nat.add_zero, TsoRequest.fragPieces, hsize, Option.getD_some]⟩ hfrag
  obtain rfl : l = 0 := by omega
  rwa [Segments.cuts_zero, List.map_nil, List.append_nil] at hrest

/-- **The pieces that are mapped** are the headers and the payload. -/
theorem mappedPieces_tsoPieces (hgso : 0 < q.gsoSize) (hlinear : q.linear ≤ q.gsoSize)
    (hpieces : tsoPieces q v pa = (t, true)) :
    mappedPieces (tsoPiecesCalls q v pa) = ⟨none, 0, q.hdrlen, pa⟩ :: q.payload := by
  set header : TsoPiece := ⟨none, 0, q.hdrlen, pa⟩ with hheader
  have hrun := tsoPieces_run (J := fun f cs t => Covered q header (q.payloadBefore f) cs t ∧
    mappedPieces cs = header :: (q.linearPieces ++ (List.range f).flatMap q.fragPieces)) hpieces
    (fun hnone => ?_) (fun pa' hdata hmap => ?_) fun f size cs w u hsize hw hfrag => ?_
  · exact hrun.2
  · refine ⟨?_, ?_⟩
    · have hcov := Covered.ofHeader (q := q) (v := v) hgso pa
      rwa [TsoRequest.payloadBefore, hnone]
    · rw [TsoRequest.linearPieces, if_pos hnone]
      rfl
  · refine ⟨?_, ?_⟩
    · exact Covered.ofLinear hgso hlinear hdata pa pa'
    · rw [TsoRequest.linearPieces, if_neg hdata, hmap]
      rfl
  · obtain ⟨hcov, hmapped⟩ := hw
    have htake : q.payloadBefore (f + 1) = q.payloadBefore f + size := by
      rw [TsoRequest.payloadBefore, List.take_add_one, hsize, List.sum_append, ← Nat.add_assoc]
      simp [TsoRequest.payloadBefore]
    rw [htake]
    refine ⟨(hcov.frag hgso hsize hfrag le_rfl).1, ?_⟩
    rw [mappedPieces_frag hgso hsize hcov hfrag le_rfl, hmapped, List.range_succ,
      List.flatMap_append, List.flatMap_singleton, List.cons_append, List.append_assoc]

/-! ### Segments -/

lemma consecutive_append : Consecutive skb a (ps ++ ps') b ↔
    Consecutive skb a ps (a + (ps.map TsoPiece.len).sum) ∧
      Consecutive skb (a + (ps.map TsoPiece.len).sum) ps' b := by
  induction ps generalizing a with
  | nil => simp [Consecutive]
  | cons p ps ih =>
      rw [List.cons_append, List.map_cons, List.sum_cons, ← add_assoc]
      simp only [Consecutive, ih, and_assoc]

/-- Pieces that follow one another are between the first position and the last. -/
lemma Consecutive.bounds (h : Consecutive skb a ps b) (hpos : ∀ p ∈ ps, 0 < p.len) (hp : p ∈ ps) :
    a ≤ p.start skb ∧ p.start skb < b := by
  obtain ⟨l, m, rfl⟩ := List.append_of_mem hp
  obtain ⟨hbefore, hstart, hbehind⟩ := consecutive_append.mp h
  have hsum := hbehind.sum_len
  have hlen := hpos p hp
  have hl : 0 ≤ (l.map TsoPiece.len).sum := List.sum_nonneg fun x hx => by
    obtain ⟨p', hp', rfl⟩ := List.mem_map.mp hx
    exact (hpos p' (List.mem_append_left _ hp')).le
  have hm : 0 ≤ (m.map TsoPiece.len).sum := List.sum_nonneg fun x hx => by
    obtain ⟨p', hp', rfl⟩ := List.mem_map.mp hx
    exact (hpos p' (List.mem_append_right _ (List.mem_cons_of_mem _ hp'))).le
  omega

/-- Groups of pieces that fill a segment each, but for the last one: group `i` is in segment `i`. -/
lemma segment_of_groups (hgso : 0 < q.gsoSize) {groups : List (List TsoPiece)} :
    ∀ {k : ℕ} {b : ℤ}, Consecutive q.skb (q.dataStart + k * q.gsoSize) groups.flatten b →
      (∀ p ∈ groups.flatten, 0 < p.len) →
      (∀ (i : ℕ) (ps : List TsoPiece), groups[i]? = some ps →
        (ps.map TsoPiece.len).sum ≤ q.gsoSize ∧
          (i + 1 < groups.length → (ps.map TsoPiece.len).sum = q.gsoSize)) →
      ∀ (i : ℕ) (ps : List TsoPiece) (p : TsoPiece), groups[i]? = some ps → p ∈ ps →
        q.segment p = (k + i : ℕ) := by
  induction groups with
  | nil => exact fun _ _ _ i ps p hps => absurd hps (by simp)
  | cons first rest ih =>
      intro k b hcons hpos hfull i ps p hps hp
      rw [List.flatten_cons] at hcons hpos
      obtain ⟨hthis, hnext⟩ := consecutive_append.mp hcons
      obtain ⟨hle, hsum⟩ := hfull 0 first rfl
      cases i with
      | zero =>
          obtain rfl := Option.some.inj hps
          obtain ⟨hlow, hhigh⟩ :=
            hthis.bounds (fun p hp => hpos p (List.mem_append_left _ hp)) hp
          have hg : (0 : ℤ) < q.gsoSize := Nat.cast_pos.mpr hgso
          rw [TsoRequest.segment, Nat.add_zero]
          refine le_antisymm (Int.lt_add_one_iff.mp (Int.ediv_lt_of_lt_mul hg ?_))
            ((Int.le_ediv_iff_mul_le hg).mpr (by omega))
          rw [add_mul, one_mul]
          omega
      | succ i =>
          have hrest : 0 < rest.length := by
            obtain ⟨hlt, -⟩ := List.getElem?_eq_some_iff.mp hps
            rw [List.length_cons] at hlt
            omega
          rw [hsum (by rw [List.length_cons]; omega), add_assoc] at hnext
          have hstart : (k : ℤ) * q.gsoSize + q.gsoSize = ((k + 1 : ℕ) : ℤ) * q.gsoSize := by
            push_cast
            ring
          rw [hstart] at hnext
          have hseg := ih hnext (fun p hp => hpos p (List.mem_append_right _ hp))
            (fun i ps hps => ⟨(hfull (i + 1) ps hps).1, fun hi => (hfull (i + 1) ps hps).2 (by
              rw [List.length_cons]
              omega)⟩) i ps p hps hp
          rw [hseg, show k + 1 + i = k + (i + 1) by omega]

/-- **The segments of a packet** are these groups. -/
lemma segments_of_groups (hgso : 0 < q.gsoSize) {groups : List (List TsoPiece)}
    (hflat : groups.flatten = q.payload) (hcons : Consecutive q.skb q.dataStart q.payload b)
    (hpos : ∀ p ∈ q.payload, 0 < p.len) (hne : [] ∉ groups)
    (hfull : ∀ (i : ℕ) (ps : List TsoPiece), groups[i]? = some ps →
      (ps.map TsoPiece.len).sum ≤ q.gsoSize ∧
        (i + 1 < groups.length → (ps.map TsoPiece.len).sum = q.gsoSize)) :
    q.segments = groups := by
  have hseg := segment_of_groups hgso (k := 0) (b := b)
    (by rwa [hflat, Nat.cast_zero, zero_mul, add_zero]) (by rwa [hflat]) hfull
  simp only [Nat.zero_add] at hseg
  rw [TsoRequest.segments, ← hflat]
  refine List.splitBy_flatten hne (fun ps hps => ?_) ?_
  · obtain ⟨i, hi⟩ := List.getElem?_of_mem hps
    rw [List.isChain_iff_getElem]
    intro j hj
    rw [beq_iff_eq, hseg i ps _ hi (List.getElem_mem _), hseg i ps _ hi (List.getElem_mem _)]
  · rw [List.isChain_iff_getElem]
    intro i hi
    have hmem : ∀ j (hj : j < groups.length), groups[j] ≠ [] :=
      fun j hj hnil => hne (hnil ▸ List.getElem_mem hj)
    refine ⟨hmem i (by omega), hmem (i + 1) hi, ?_⟩
    rw [beq_eq_false_iff_ne,
      hseg i _ _ (List.getElem?_eq_getElem (by omega)) (List.getLast_mem _),
      hseg (i + 1) _ _ (List.getElem?_eq_getElem hi) (List.head_mem _)]
    omega

/-- Of the pieces of a segment the last one is marked, and the headers are marked. -/
lemma TsoRequest.marked_images (q : TsoRequest) :
    ∀ l ∈ q.image, Segments.Marked TxPiece.eop l := by
  intro l hl
  rcases List.mem_cons.mp hl with rfl | hl
  · refine ⟨List.cons_ne_nil _ _, fun i hi => ?_⟩
    obtain rfl : i = 0 := by
      rw [List.length_singleton] at hi
      omega
    exact ⟨fun _ => rfl, fun _ => rfl⟩
  · obtain ⟨k, hk, rfl⟩ := List.mem_mapIdx.mp hl
    have hne : q.segments[k] ≠ [] := List.ne_nil_of_mem_splitBy (List.getElem_mem hk)
    refine ⟨by simpa [tsoChunk] using hne, fun i hi => ?_⟩
    simp [tsoChunk, TsoPiece.shown]

/-- Pieces can be grouped as the frames are. -/
lemma exists_groups {α β γ : Type*} {g : α → γ} {h : β → γ} {chunks : List (List α)} :
    ∀ {l : List β}, l.map h = chunks.flatten.map g →
      ∃ groups : List (List β), groups.flatten = l ∧
        groups.map (List.map h) = chunks.map (List.map g) := by
  induction chunks with
  | nil =>
      intro l hl
      exact ⟨[], by simpa using hl.symm, rfl⟩
  | cons c cs ih =>
      intro l hl
      rw [List.flatten_cons, List.map_append, List.map_eq_append_iff] at hl
      obtain ⟨l₁, l₂, rfl, hfirst, hrest⟩ := hl
      obtain ⟨groups, rfl, hgroups⟩ := ih hrest
      exact ⟨l₁ :: groups, rfl, by rw [List.map_cons, List.map_cons, hfirst, hgroups]⟩

end Payload

section Posted

variable {s : TxState} {q : TsoRequest} {v : Vring} {t : TsoState} {cs : List TsoCall}
  {d : VringTxDesc} {closed : List (List TsoFrame)} {chunk : List TsoFrame}

/-- A chunk of a posted packet, the `k`-th. -/
structure PostedChunk (q : TsoRequest) (k : ℕ) (chunk : List TsoFrame) : Prop where
  marked : Segments.Marked TsoFrame.eop chunk
  sum_le : (chunk.map TsoFrame.len).sum ≤ q.gsoSize
  count : ∀ j f, chunk[j]? = some f →
    f.count = if j = 0 then chunk.length + if k = 0 then 1 else 0 else 1

/-- The frames of a posted packet, chunk by chunk. -/
lemma Framed.chunks_posted (h : Framed q v closed chunk cs t) (hempty : chunk = [] → closed = []) :
    ∃ chunks : List (List TsoFrame),
      chunks.flatten = closed.flatten ++ lastChunk (if closed = [] then 1 else 0) chunk ∧
      ∀ k c, chunks[k]? = some c → PostedChunk q k c ∧
        (k + 1 < chunks.length → (c.map TsoFrame.len).sum = q.gsoSize) := by
  have hclosed : ∀ k c, closed[k]? = some c →
      PostedChunk q k c ∧ (c.map TsoFrame.len).sum = q.gsoSize := by
    intro k c hc
    have hthis := h.isClosed k c hc
    refine ⟨⟨hthis.marked, hthis.sum.le, fun j f hf => ?_⟩, hthis.sum⟩
    cases j with
    | zero => exact hthis.count f hf
    | succ j => exact hthis.rest j f hf
  by_cases hne : chunk = []
  · obtain rfl := hempty hne
    subst hne
    exact ⟨[], by simp [lastChunk, closeChunk], fun k c hc => absurd hc (by simp)⟩
  · refine ⟨closed ++ [lastChunk (if closed = [] then 1 else 0) chunk], by simp, fun k c hc => ?_⟩
    obtain ⟨-, hc⟩ | ⟨rfl, rfl⟩ := getElem?_concat_cases hc
    · exact ⟨(hclosed k c hc).1, fun _ => (hclosed k c hc).2⟩
    · refine ⟨⟨h.marked_lastChunk hne, ?_, fun j f hf => ?_⟩, fun hlt => ?_⟩
      · rw [Framed.sum_lastChunk]
        exact h.sum_le
      · obtain ⟨g, hg, -, -, hcount, -⟩ := getElem?_lastChunk hf
        obtain ⟨e, he, -, -, -, hclose⟩ := getElem?_closeChunk hg
        rw [hcount, hclose, length_lastChunk, (h.isOpen e (List.mem_of_getElem? he)).2]
        simp only [List.length_eq_zero_iff]
      · rw [List.length_append, List.length_singleton] at hlt
        omega

/-- What is read of a descriptor that shows a frame and holds a piece. -/
lemma piece_of_shows {f : TsoFrame} {p : TsoPiece} (hshows : d.Shows f) (hholds : d.Holds p)
    (hpos : 0 ≤ p.len) : d.piece = p.shown f.count f.eop := by
  have hpa : d.pa = p.pa % 2 ^ 48 := by
    rw [VringTxDesc.pa, hholds.1, hholds.2.1]
    exact pa_mod p.pa
  have hlen : d.length = u16 p.len.toNat := by
    rw [hholds.2.2, u16, u16]
    omega
  have hcount : d.numOfDescriptors = f.count % 2 ^ 8 := by
    have hbase : wilGetBits (bit 20 ||| (1 <<< 18)) 0 7 = 0 := by
      decide
    rw [VringTxDesc.numOfDescriptors, hshows.count, wilGetBits_or, hbase, Nat.zero_or,
      wilGetBits_low]
  have heop : decide d.eop = f.eop := by
    simp [hshows.eop]
  rw [VringTxDesc.piece, hpa, hlen, hcount, heop]
  rfl

/-- A chunk shows the segment that it holds. -/
lemma PostedChunk.shows {k : ℕ} {fs : List TsoFrame} (h : PostedChunk q k fs) {ps : List TsoPiece}
    (hlen : ps.length = fs.length) :
    List.zipWith (fun f p => p.shown f.count f.eop) fs ps = tsoChunk k ps := by
  refine List.ext_getElem (by simp [tsoChunk, hlen]) fun j hj hj' => ?_
  have hjf : j < fs.length := by
    rw [List.length_zipWith] at hj
    omega
  have heop : fs[j].eop = decide (j + 1 = ps.length) := by
    rw [Bool.eq_iff_iff, h.marked.2 j hjf, decide_eq_true_iff, hlen]
  have hcount := h.count j fs[j] (List.getElem?_eq_getElem hjf)
  rw [← hlen] at hcount
  simp only [tsoChunk, List.getElem_zipWith, List.getElem_mapIdx, heop, hcount]

lemma zipWith_flatten {α β γ : Type*} (g : α → β → γ) {l : List (List α)} :
    ∀ {m : List (List β)}, m.map List.length = l.map List.length →
      List.zipWith g l.flatten m.flatten = (List.zipWith (List.zipWith g) l m).flatten := by
  induction l with
  | nil =>
      intro m hm
      obtain rfl := List.map_eq_nil_iff.mp hm
      rfl
  | cons a l ih =>
      intro m hm
      cases m with
      | nil => simp at hm
      | cons b m =>
          obtain ⟨hlen, hrest⟩ := List.cons.inj hm
          rw [List.flatten_cons, List.flatten_cons, List.zipWith_append hlen.symm, ih hrest]
          rfl

/-- The chunks of a posted packet hold its segments. -/
lemma segments_posted (hgso : 0 < q.gsoSize) {chunks : List (List TsoFrame)} {b : ℤ}
    (hchunks : ∀ k c, chunks[k]? = some c → PostedChunk q k c ∧
      (k + 1 < chunks.length → (c.map TsoFrame.len).sum = q.gsoSize))
    (hlens : q.payload.map TsoPiece.len = chunks.flatten.map fun f => (f.len : ℤ))
    (hcons : Consecutive q.skb q.dataStart q.payload b) (hpos : ∀ p ∈ q.payload, 0 < p.len) :
    q.segments.map List.length = chunks.map List.length := by
  obtain ⟨groups, hgroups, hsame⟩ := exists_groups hlens
  have hcount : groups.length = chunks.length := by
    simpa using congrArg List.length hsame
  have hnth : ∀ (i : ℕ) (ps : List TsoPiece), groups[i]? = some ps → ∃ c, chunks[i]? = some c ∧
      ps.map TsoPiece.len = c.map fun f => (f.len : ℤ) := by
    intro i ps hps
    have hi := congrArg (·[i]?) hsame
    simp only [List.getElem?_map, hps, Option.map_some] at hi
    obtain ⟨c, hc, heq⟩ := Option.map_eq_some_iff.mp hi.symm
    exact ⟨c, hc, heq.symm⟩
  have hsegments : q.segments = groups := by
    refine segments_of_groups hgso hgroups hcons hpos (fun hnil => ?_) fun i ps hps => ?_
    · obtain ⟨i, hi⟩ := List.getElem?_of_mem hnil
      obtain ⟨c, hc, heq⟩ := hnth i [] hi
      exact (hchunks i c hc).1.marked.1 (List.map_eq_nil_iff.mp heq.symm)
    · obtain ⟨c, hc, heq⟩ := hnth i ps hps
      have hsum : (c.map fun f => (f.len : ℤ)).sum = ((c.map TsoFrame.len).sum : ℕ) := by
        rw [Nat.cast_list_sum, List.map_map]
        rfl
      obtain ⟨hchunk, hfull⟩ := hchunks i c hc
      rw [heq, hsum, hcount]
      exact ⟨Nat.cast_le.mpr hchunk.sum_le, fun hi => congrArg Nat.cast (hfull hi)⟩
  rw [hsegments]
  have hlengths := congrArg (List.map List.length) hsame
  simpa [List.map_map, Function.comp_def] using hlengths

/-- The chunks show the segments. -/
lemma shown_segments {chunks : List (List TsoFrame)}
    (hchunks : ∀ k c, chunks[k]? = some c → PostedChunk q k c)
    (hsegments : q.segments.map List.length = chunks.map List.length) :
    List.zipWith (fun f p => p.shown f.count f.eop) chunks.flatten q.payload
      = (q.segments.mapIdx tsoChunk).flatten := by
  have hcount : q.segments.length = chunks.length := by
    simpa using congrArg List.length hsegments
  have hflat : q.payload = q.segments.flatten := (List.flatten_splitBy _ _).symm
  rw [hflat, zipWith_flatten _ hsegments]
  congr 1
  refine List.ext_getElem (by simp [hcount]) fun k hk hk' => ?_
  have hkc : k < chunks.length := by
    rw [List.length_zipWith] at hk
    omega
  have hlen : q.segments[k].length = chunks[k].length := by
    have hk := congrArg (·[k]?) hsegments
    simpa [hkc, hcount] using hk
  rw [List.getElem_zipWith, List.getElem_mapIdx]
  exact (hchunks k _ (List.getElem?_eq_getElem hkc)).shows hlen

/-- **A packet with segmentation offload in the ring**: its image, piece by piece. -/
theorem image_wilTxVringTso (hrc : (wilTxVringTso s q).2.2 = 0)
    (hhead : s.vring.swhead < s.vring.size) (hgso : 0 < q.gsoSize) (hgso' : q.gsoSize < 2 ^ 16)
    (hlinear : q.linear ≤ q.gsoSize) :
    (List.range (postedDescs s q)).map (fun j => (descBehind s q j).piece) = q.image.flatten := by
  obtain ⟨pa, t, closed, chunk, haccepts, hpieces, hempty, hframed, hposted, hdesc⟩ :=
    framed_of_posted hrc hhead hgso hlinear
  obtain ⟨hshows, segment, hheader⟩ := hframed.shows_posted hhead hempty
  obtain ⟨chunks, hflat, hchunks⟩ := hframed.chunks_posted hempty
  obtain ⟨⟨-, data, hdata, hcons, hall⟩, -⟩ := covered_tsoPieces hgso hlinear hpieces
  have hmapped := mappedPieces_tsoPieces hgso hlinear hpieces
  obtain rfl : data = q.payload := (List.cons.inj (hdata.symm.trans hmapped)).2
  have hholds : ∀ j p, (mappedPieces (tsoPiecesCalls q s.vring pa))[j]? = some p →
      (descBehind s q j).Holds p :=
    fun j p hp => holds_wilTxVringTso hhead haccepts hpieces hp
  have hused := (piecesHeld_tsoPieces hhead haccepts.room hpieces).used
  rw [hmapped] at hholds hused
  rw [List.length_cons] at hused
  have hlen : chunks.flatten.length = q.payload.length := by
    have hframes := hframed.used
    rw [List.length_append] at hframes
    rw [hflat, List.length_append, length_lastChunk]
    omega
  -- frames and pieces are those of the same descriptors
  have hshown : ∀ j (hj : j < chunks.flatten.length) (hj' : j < q.payload.length),
      (chunks.flatten[j].len : ℤ) = q.payload[j].len ∧ (descBehind s q (j + 1)).piece
        = q.payload[j].shown chunks.flatten[j].count chunks.flatten[j].eop := by
    intro j hj hj'
    have hframe : (closed.flatten ++ lastChunk (if closed = [] then 1 else 0) chunk)[j]?
        = some chunks.flatten[j] := by
      rw [← hflat, List.getElem?_eq_getElem hj]
    have hshow := hshows j _ hframe
    rw [← hdesc] at hshow
    have hhold := hholds (j + 1) q.payload[j] (by
      rw [List.getElem?_cons_succ, List.getElem?_eq_getElem hj'])
    obtain ⟨hpos, hle, -⟩ := hall _ (List.getElem_mem hj')
    obtain ⟨hfpos, hfle, -⟩ := hframed.frames_lastChunk hframe
    have heq := hshow.len.symm.trans hhold.2.2
    rw [u16, u16] at heq
    exact ⟨by omega, piece_of_shows hshow hhold hpos.le⟩
  have hlens : q.payload.map TsoPiece.len = chunks.flatten.map fun f => (f.len : ℤ) := by
    refine List.ext_getElem (by rw [List.length_map, List.length_map, hlen]) fun j hj hj' => ?_
    rw [List.length_map] at hj hj'
    rw [List.getElem_map, List.getElem_map, (hshown j hj' hj).1]
  have hsegments := segments_posted hgso hchunks hlens hcons fun p hp => (hall p hp).1
  rw [hposted, hused, List.range_succ_eq_map, List.map_cons, List.map_map, TsoRequest.image,
    List.flatten_cons, ← shown_segments (fun k c hc => (hchunks k c hc).1) hsegments,
    List.singleton_append, List.cons.injEq]
  refine ⟨?_, ?_⟩
  · have hzero : descBehind s q 0 = (t.finish q s.vring.swhead).desc s.vring.swhead := by
      rw [hdesc, Nat.add_zero, Nat.mod_eq_of_lt hhead]
    rw [← hzero, hused] at hheader
    rw [haccepts.header, Option.getD_some]
    exact piece_of_shows hheader (hholds 0 _ rfl) (Int.natCast_nonneg q.hdrlen)
  · refine List.ext_getElem (by simp [hlen]) fun j hj hj' => ?_
    have hjp : j < q.payload.length := by
      simpa using hj
    rw [List.getElem_map, List.getElem_range, List.getElem_zipWith]
    exact (hshown j (hlen ▸ hjp) hjp).2

end Posted

end Wil6210
