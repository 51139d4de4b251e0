import Wil6210.Tx.Headers

/-!
# Which way a buffer is unmapped

The linear part of a packet is mapped with `dma_map_single`, its fragments with `skb_frag_dma_map`.
Nothing notes this for a descriptor: `wil_tx_complete`, `wil_vring_free` and the loops behind
`dma_error` compare its slot with `sngl_mapped`, the slot of the last piece of the linear part.

Of two positions of a packet, the slots compare as the positions do only where both are on the same
lap of the ring (`Circular.mod_le_mod_iff`).  So a packet that wraps is unmapped the wrong way in
part: `kindsAgree_iff` says of every call, in every reachable state, when it is not.  The loop behind
`dma_error` of `wil_tx_vring_tso` goes wrong in another way, too: it begins one slot behind the last
piece, and ends in front of the headers.
-/

namespace Wil6210

open Circular (slots mem_slots)

/-! ## Kinds in a trace -/

/-- How a buffer is mapped. -/
inductive MapKind
  | single
  | page
  deriving DecidableEq, Repr

/-- What an event unmaps a buffer as. -/
def TxEvent.unmapKind : TxEvent → Option MapKind
  | .dmaUnmapSingle _ _ => some .single
  | .dmaUnmapPage _ _ => some .page
  | _ => none

/-- The unmaps of a trace, in order. -/
def unmapKinds (es : List TxEvent) : List MapKind := es.filterMap TxEvent.unmapKind

/-- The slots a trace maps and refers to a buffer, in order; `i` is the slot written last. -/
def mappedSlots : ℕ → List TxEvent → List ℕ
  | _, [] => []
  | _, .write i :: es => mappedSlots i es
  | i, .skbGet _ :: es => i :: mappedSlots i es
  | i, _ :: es => mappedSlots i es

/-- The slots a trace unmaps, each with the way it does; `i` is the slot written last. -/
def unmappedSlots : ℕ → List TxEvent → List (ℕ × MapKind)
  | _, [] => []
  | _, .write i :: es => unmappedSlots i es
  | i, e :: es => (e.unmapKind.map fun kind => (i, kind)).toList ++ unmappedSlots i es

/-- What the comparison with `sngl_mapped` takes slot `i` for. -/
def WilSkbCb.kindAt (cb : WilSkbCb) (i : ℕ) : MapKind :=
  if i ≤ cb.snglMapped then .single else .page

@[simp] lemma unmapKind_dmaUnmap (cb : WilSkbCb) (i : ℕ) (d : VringTxDesc) :
    (dmaUnmap cb i d).unmapKind = some (cb.kindAt i) := by
  simp only [dmaUnmap, WilSkbCb.kindAt]
  split_ifs <;> rfl

/-- The pieces of a packet: so many of the linear part, then the pages. -/
def pieceKind (singles j : ℕ) : MapKind := if j < singles then .single else .page

/-- What a trace maps it unmaps, each slot the way it was mapped. -/
def UndoesMaps (singles : ℕ) (es : List TxEvent) : Prop :=
  ((mappedSlots 0 es).mapIdx fun j i => (i, pieceKind singles j)).Perm (unmappedSlots 0 es)

/-! ## What is to be so -/

namespace PacketSys

/-- How the piece at position `k` was mapped. -/
def kind (s : PacketSys) (k : ℕ) : MapKind :=
  if k ≤ (s.packet k).lastSingle then .single else .page

/-- Position `k` and the last piece of the linear part are on the same lap of the ring. -/
def SameLap (s : PacketSys) (k : ℕ) : Prop :=
  k / s.tx.vring.size = (s.packet k).lastSingle / s.tx.vring.size

/-- A cleanup comes past position `k`: some descriptor behind it is marked, and none up to it is
what the second loop stops at. -/
def Cleared (s : PacketSys) (k : ℕ) : Prop :=
  (∃ r, k < r ∧ r < s.posted ∧ (s.descAt r).du) ∧
    ∀ j, s.released ≤ j → j ≤ k → ¬ (s.descAt j).stalls

/-- A posted descriptor belongs to the buffer with this address. -/
def HoldsId (s : PacketSys) (id : ℕ) : Prop :=
  ∃ k < s.posted, s.released ≤ k ∧ (s.tx.vring.ctx (k % s.tx.vring.size)).map TxSkb.id = some id

instance (s : PacketSys) (id : ℕ) : Decidable (s.HoldsId id) :=
  inferInstanceAs (Decidable (∃ k < s.posted, s.released ≤ k ∧ _))

/-- The packet that is posted does not overrun the ring, and its buffer is not on the ring. -/
def Admits (s : PacketSys) (a : PacketAction) : Prop :=
  s.Fits a ∧
    match a with
    | .xmit q => ¬ s.HoldsId q.skb.id
    | .xmitTso q => ¬ s.HoldsId q.skb.id
    | _ => True

instance (s : PacketSys) (a : PacketAction) : Decidable (s.Admits a) :=
  match a with
  | .xmit q => inferInstanceAs (Decidable (_ ∧ ¬ s.HoldsId q.skb.id))
  | .xmitTso q => inferInstanceAs (Decidable (_ ∧ ¬ s.HoldsId q.skb.id))
  | .hwMark _ _ | .complete => inferInstanceAs (Decidable (_ ∧ True))

end PacketSys

/-- The first fragment whose mapping fails. -/
def TxRequest.failsAt (q : TxRequest) : Option ℕ :=
  (List.range' 0 q.nrFrags).find? fun f => (q.dmaMap (f + 1)).isNone

/-- `wil_tx_vring_tso` comes to `dma_error`. -/
def TsoRequest.DmaError (q : TsoRequest) (v : Vring) : Prop :=
  ¬ wilVringAvailTx v < q.nrFrags * 3 + 1 ∧ (wilTxDescOffloadSetup (v.desc v.swhead) q.skb 0).2 ≠ 0 ∧
    ∃ pa, q.dma.single 0 q.hdrlen = some pa ∧ (tsoPieces q v pa).2 = false

/-- The calls that unmap. -/
inductive UnmapCall
  | complete
  | free
  | xmit (q : TxRequest)
  | xmitTso (q : TsoRequest)

/-- The call unmaps what was mapped, each descriptor the way it was mapped. -/
def KindsAgree (s : PacketSys) : UnmapCall → Prop
  | .complete => unmapKinds (wilTxComplete s.tx).2.1
      = (List.range' s.released (wilTxComplete s.tx).2.2).map s.kind
  | .free => unmapKinds (wilVringFree s.tx.cb s.tx.vring).2
      = (List.range' s.released (s.posted - s.released)).map s.kind
  | .xmit q => (wilTxVring s.tx q).2.2 ≠ 0 → UndoesMaps 1 (wilTxVring s.tx q).2.1
  | .xmitTso q => (wilTxVringTso s.tx q).2.2 ≠ 0 →
      UndoesMaps q.singles (wilTxVringTso s.tx q).2.1

/-- Nothing that the call unmaps is on another lap of the ring than the last piece of the linear
part of its packet, and the call does not come to `dma_error` of `wil_tx_vring_tso`. -/
def Unwrapped (s : PacketSys) : UnmapCall → Prop
  | .complete => ∀ k, s.released ≤ k → s.Cleared k → s.SameLap k
  | .free => ∀ k, s.released ≤ k → k < s.posted → s.SameLap k
  | .xmit q => ¬ wilVringAvailTx s.tx.vring < 1 + q.nrFrags → q.dmaMap 0 ≠ none →
      ∀ m, q.failsAt = some m → s.tx.vring.swhead + m < s.tx.vring.size
  | .xmitTso q => ¬ q.DmaError s.tx.vring

variable {s t : PacketSys}

/-! ## The invariant -/

/-- The `cb` of the buffer of a packet, on a ring of `size` descriptors. -/
def TxPacket.cb (p : TxPacket) (size : ℕ) : WilSkbCb :=
  ⟨p.lastSingle % size, if p.tso then (p.start % size : ℕ) else -1⟩

/-- Every posted descriptor holds a buffer whose `cb` is that of its packet. -/
structure KindInv (s : PacketSys) : Prop extends PacketInv s where
  cb : ∀ k, s.released ≤ k → k < s.posted → ∀ skb, s.tx.vring.ctx (k % s.tx.vring.size) = some skb →
    s.tx.cb skb.id = (s.packet k).cb s.tx.vring.size

/-- A call that posts leaves the `cb`s of the posted buffers. -/
lemma KindInv.post (h : KindInv s) {tx : TxState} {skb : TxSkb} {n : ℕ} {es : List TxEvent}
    {rc : ℤ} (hpost : RingPosting s.tx.vring tx.vring skb n es rc) {p : TxPacket}
    (hinv : PacketInv (s.post tx p)) (hfresh : ¬ s.HoldsId skb.id)
    (hframe : ∀ id, id ≠ skb.id → tx.cb id = s.tx.cb id)
    (hcb : rc = 0 → tx.cb skb.id = p.cb s.tx.vring.size) : KindInv (s.post tx p) := by
  refine ⟨hinv, fun k hk hkp skb' hctx => ?_⟩
  have hposted := h.posted_eq hpost p
  have hsize : (s.post tx p).tx.vring.size = s.tx.vring.size := hpost.size
  rw [hsize] at hctx ⊢
  rcases Nat.lt_or_ge k s.posted with hold | hnew
  · rw [show (s.post tx p).packet k = s.packet k from if_neg (Nat.not_le.mpr hold)]
    have hctx' : s.tx.vring.ctx (k % s.tx.vring.size) = some skb' := by
      rw [← (h.ring.posting_frame hpost hk hold).2]
      exact hctx
    have hne : skb'.id ≠ skb.id := by
      intro heq
      exact hfresh ⟨k, hold, hk, by rw [hctx', Option.map_some, heq]⟩
    exact (hframe _ hne).trans (h.cb k hk hold skb' hctx')
  · rw [hposted] at hkp
    by_cases hrc : rc = 0
    · rw [if_pos hrc] at hkp
      have hskb := (h.ring.posting_fresh hpost hrc hnew hkp).2
      obtain rfl := Option.some.inj (hskb.symm.trans hctx)
      rw [show (s.post tx p).packet k = p from if_pos hnew]
      exact hcb hrc
    · rw [if_neg hrc] at hkp
      omega

/-- What `wil_tx_vring` does to the `cb`s. -/
lemma cb_wilTxVring (s : TxState) (q : TxRequest) :
    (∀ id, id ≠ q.skb.id → (wilTxVring s q).1.cb id = s.cb id) ∧
      ((wilTxVring s q).2.2 = 0 → (wilTxVring s q).1.cb q.skb.id = ⟨s.vring.swhead, -1⟩) := by
  simp only [wilTxVring]
  split_ifs
  · exact ⟨fun _ _ => rfl, fun h => absurd h (show eNomem ≠ 0 by decide)⟩
  · cases q.dmaMap 0 with
    | none => exact ⟨fun id hid => by simp [hid], fun h => absurd h (show eInval ≠ 0 by decide)⟩
    | some pa =>
        cases hend : (txPieces q pa s.vring).1.2.2 with
        | some f =>
            simp only [hend]
            exact ⟨fun id hid => by simp [hid], fun h => absurd h (show eInval ≠ 0 by decide)⟩
        | none =>
            simp only [hend]
            exact ⟨fun id hid => by simp [hid], fun _ => by simp⟩

/-- **Every step keeps the invariant.** -/
theorem KindInv.step (h : KindInv s) {a : PacketAction} (hadmits : s.Admits a)
    (ht : s.step a = some t) : KindInv t := by
  have hinv : PacketInv t := h.toPacketInv.step hadmits.1 ht
  have hhead : s.tx.vring.swhead < s.tx.vring.size := by
    rw [h.ring.swhead]
    exact Nat.mod_lt _ h.ring.size_pos
  cases a with
  | xmit q =>
      obtain ⟨n, hn⟩ := txPosting s.tx q hhead
      obtain ⟨hframe, hcb⟩ := cb_wilTxVring s.tx q
      obtain rfl := Option.some.inj ht
      refine h.post hn.ring hinv hadmits.2 hframe fun hrc => ?_
      rw [hcb hrc, h.ring.swhead]
      rfl
  | xmitTso q =>
      obtain ⟨n, hn⟩ := tsoPosting s.tx q hhead hadmits.1
      obtain rfl := Option.some.inj ht
      refine h.post hn.ring hinv hadmits.2 hn.cb_frame fun hrc => ?_
      have hpos : 1 ≤ q.singles := by
        rw [TsoRequest.singles]
        split_ifs <;> omega
      rw [hn.cb hrc, h.ring.swhead, TxPacket.cb, Nat.add_sub_assoc hpos, Nat.add_sub_assoc hpos,
        Nat.mod_add_mod]
      rfl
  | hwMark k error =>
      simp only [PacketSys.step] at ht
      split_ifs at ht with hk
      obtain rfl := Option.some.inj ht
      exact ⟨hinv, h.cb⟩
  | complete =>
      obtain ⟨n, hn⟩ := txCompletion h.va h.ring
      have hcb := (wilTxComplete_events h.va h.ring).1
      obtain rfl := Option.some.inj ht
      refine ⟨hinv, fun k hk hkp skb hctx => ?_⟩
      simp only [hn.done] at hk
      simp only [hn.size] at hctx ⊢
      rw [(hn.frame k hk hkp).2] at hctx
      rw [hcb]
      exact h.cb k (by omega) hkp skb hctx

lemma kindInv_init (tx : TxState) {size : ℕ} (hsize : 0 < size) :
    KindInv (PacketSys.init tx size) :=
  ⟨packetInv_init tx hsize, fun k _ hk => absurd hk (Nat.not_lt_zero k)⟩

/-! ## Released slots -/

lemma unmapKinds_append (es fs : List TxEvent) :
    unmapKinds (es ++ fs) = unmapKinds es ++ unmapKinds fs :=
  List.filterMap_append

/-- The comparison with `sngl_mapped` is right about a piece exactly where it is on the same lap of
the ring as the last piece of the linear part. -/
lemma KindInv.kindAt_eq_iff (h : KindInv s) {k : ℕ} (hk : s.released ≤ k) (hkp : k < s.posted)
    {skb : TxSkb} (hctx : s.tx.vring.ctx (k % s.tx.vring.size) = some skb) :
    (s.tx.cb skb.id).kindAt (k % s.tx.vring.size) = s.kind k ↔ s.SameLap k := by
  obtain ⟨hsingle, hsingle'⟩ := h.single k hk hkp
  rw [PacketSys.SameLap, ← Circular.mod_le_mod_iff (h.start_le k hk hkp) (h.lt_size k hk hkp)
    hsingle hsingle', h.cb k hk hkp skb hctx]
  simp only [WilSkbCb.kindAt, TxPacket.cb, PacketSys.kind]
  by_cases hslot : k % s.tx.vring.size ≤ (s.packet k).lastSingle % s.tx.vring.size <;>
    by_cases hpos : k ≤ (s.packet k).lastSingle <;> simp [hslot, hpos]

/-- The slots of posted descriptors are released as they were mapped exactly where all of them are on
the laps of the linear parts of their packets. -/
lemma KindInv.released_iff (h : KindInv s) {n : ℕ} (hn : s.released + n ≤ s.posted)
    (tail : ℕ → List TxEvent) (htail : ∀ k, unmapKinds (tail k) = []) :
    unmapKinds ((List.range' s.released n).flatMap fun k =>
        s.tx.vring.releaseEvents s.tx.cb k ++ tail k) = (List.range' s.released n).map s.kind ↔
      ∀ k, s.released ≤ k → k < s.released + n → s.SameLap k := by
  have : Nonempty TxSkb := ⟨⟨0, 0, 0, [], false, 0, 0, 0, 0, 0⟩⟩
  choose! skb hskb using h.ring.held
  have hevents : unmapKinds ((List.range' s.released n).flatMap fun k =>
      s.tx.vring.releaseEvents s.tx.cb k ++ tail k)
      = (List.range' s.released n).map fun k =>
          (s.tx.cb (skb k).id).kindAt (k % s.tx.vring.size) := by
    rw [unmapKinds, List.filterMap_flatMap, List.map_eq_flatMap]
    refine List.flatMap_congr fun k hk => ?_
    rw [List.mem_range'_1] at hk
    have hskbk := hskb k hk.1 (by omega)
    have hlast : List.filterMap TxEvent.unmapKind (tail k) = [] := htail k
    rw [List.filterMap_append, hlast, Vring.releaseEvents, hskbk, List.append_nil]
    exact List.filterMap_cons_some (unmapKind_dmaUnmap _ _ _)
  rw [hevents, List.map_inj_left]
  constructor
  · intro hall k hk hkn
    exact (h.kindAt_eq_iff hk (by omega) (hskb k hk (by omega))).mp
      (hall k (List.mem_range'_1.mpr ⟨hk, hkn⟩))
  · intro hall k hk
    rw [List.mem_range'_1] at hk
    exact (h.kindAt_eq_iff hk.1 (by omega) (hskb k hk.1 (by omega))).mpr (hall k hk.1 hk.2)

/-- A cleanup. -/
lemma KindInv.complete_iff (h : KindInv s) : KindsAgree s .complete ↔ Unwrapped s .complete := by
  obtain ⟨r, n, hlast, hn, hle, hpass, hend⟩ := txCompletion_stop h.va h.ring
  obtain ⟨-, w, hevents⟩ := wilTxComplete_events h.va h.ring
  have hwake : unmapKinds (txWake w) = [] := by
    rw [txWake]
    split_ifs <;> rfl
  have hpassed := hn.passed_le
  rw [KindsAgree, hevents, unmapKinds_append, hwake, List.append_nil, hn.done,
    h.released_iff hpassed (fun k => [.release (k % s.tx.vring.size)]) fun k => rfl]
  -- the cleanup comes past the positions it releases, and past no other
  have hcleared : ∀ k, s.released ≤ k → (s.Cleared k ↔ k < s.released + n) := by
    intro k hk
    constructor
    · rintro ⟨⟨j, hkj, hjp, hdu⟩, hnone⟩
      have hjr : j ≤ r := by
        by_contra hlt
        exact hlast.rest j (by omega) hjp hdu
      rcases hend with heq | hstall
      · omega
      · by_contra hlt
        exact hnone (s.released + n) (Nat.le_add_right _ _) (by omega) hstall
    · intro hlt
      refine ⟨⟨r, by omega, ?_⟩, fun j hj hjk => hpass j hj (by omega)⟩
      exact hlast.marked.resolve_left (by omega)
  exact ⟨fun hall k hk hk' => hall k hk ((hcleared k hk).mp hk'),
    fun hall k hk hk' => hall k hk ((hcleared k hk).mpr hk')⟩

/-- The ring is freed. -/
lemma KindInv.free_iff (h : KindInv s) : KindsAgree s .free ↔ Unwrapped s .free := by
  have hle := h.ring.released_le
  have hreleased := h.released_iff (n := s.posted - s.released) (by omega) (fun _ => [])
    fun _ => rfl
  simp only [List.append_nil] at hreleased
  rw [KindsAgree, (wilVringFree_spec s.tx.cb h.ring).1, hreleased,
    show s.released + (s.posted - s.released) = s.posted by omega]
  rfl

/-! ## The loops behind `dma_error` -/

lemma mappedSlots_txStop (i : ℕ) (v : Vring) (es : List TxEvent) :
    mappedSlots i (txStop v ++ es) = mappedSlots i es := by
  rw [txStop]
  split_ifs <;> rfl

lemma unmappedSlots_txStop (i : ℕ) (v : Vring) (es : List TxEvent) :
    unmappedSlots i (txStop v ++ es) = unmappedSlots i es := by
  rw [txStop]
  split_ifs <;> rfl

lemma mappedSlots_dmaUnmap (i j : ℕ) (cb : WilSkbCb) (d : VringTxDesc) (es : List TxEvent) :
    mappedSlots i (dmaUnmap cb j d :: es) = mappedSlots i es := by
  rw [dmaUnmap]
  split_ifs <;> rfl

lemma unmappedSlots_dmaUnmap (i j : ℕ) (cb : WilSkbCb) (d : VringTxDesc) (es : List TxEvent) :
    unmappedSlots i (dmaUnmap cb j d :: es) = (i, cb.kindAt j) :: unmappedSlots i es := by
  rw [dmaUnmap, WilSkbCb.kindAt]
  split_ifs <;> rfl

/-- Posted pieces are mapped. -/
lemma mappedSlots_posted (skb : TxSkb) (ss : List ℕ) (es : List TxEvent) :
    ∀ i, ∃ j, mappedSlots i ((ss.flatMap fun j => [.write j, .skbGet skb]) ++ es)
      = ss ++ mappedSlots j es := by
  induction ss with
  | nil => exact fun i => ⟨i, rfl⟩
  | cons k ss ih =>
      intro i
      obtain ⟨j, hj⟩ := ih k
      exact ⟨j, congrArg (k :: ·) hj⟩

/-- Stores and references unmap nothing. -/
lemma unmappedSlots_stores {skb : TxSkb} {es : List TxEvent}
    (h : ∀ e ∈ es, e = .skbGet skb ∨ ∃ i, e = .write i) (fs : List TxEvent) :
    ∀ i, ∃ j, unmappedSlots i (es ++ fs) = unmappedSlots j fs := by
  induction es with
  | nil => exact fun i => ⟨i, rfl⟩
  | cons e es ih =>
      intro i
      obtain ⟨he, hes⟩ := List.forall_mem_cons.mp h
      rcases he with rfl | ⟨k, rfl⟩
      · exact ih hes i
      · exact ih hes k

/-- What the loop maps and unmaps: nothing, and the `f` slots from `a` on, backwards. -/
lemma slots_txDmaError (cb : WilSkbCb) (skb : TxSkb) (a f : ℕ) :
    ∀ (i : ℕ) (v : Vring), mappedSlots i (txDmaError cb skb a f v).2 = [] ∧
      unmappedSlots i (txDmaError cb skb a f v).2
        = (List.range' a f).reverse.map fun k => (k % v.size, cb.kindAt (k % v.size)) := by
  induction f with
  | zero => exact fun i v => ⟨rfl, rfl⟩
  | succ f ih =>
      intro i v
      have hslot : a + (f + 1) - 1 = a + f := by omega
      obtain ⟨hmapped, hunmapped⟩ := ih ((a + f) % v.size) (v.setDesc ((a + f) % v.size)
        { v.desc ((a + f) % v.size) with status := txDmaStatusDu })
      simp only [txDmaError, hslot, mappedSlots, unmappedSlots, mappedSlots_dmaUnmap,
        unmappedSlots_dmaUnmap, TxEvent.unmapKind, Option.map_none, Option.toList_none,
        List.nil_append]
      refine ⟨hmapped, ?_⟩
      rw [hunmapped, List.range'_concat, List.reverse_append]
      simp [Vring.setDesc]

/-- The slots of a packet, each with the kind of its piece. -/
lemma mapIdx_slots (size a n singles : ℕ) :
    ((slots size a n).mapIdx fun j i => (i, pieceKind singles j))
      = (List.range' a n).map fun k => (k % size, pieceKind singles (k - a)) := by
  refine List.ext_getElem (by simp [slots]) fun j hj hj' => ?_
  simp [slots]

/-- `txFrags` fails where the first mapping fails. -/
lemma txFrags_failsAt (q : TxRequest) (swhead : ℕ) (frags : List ℕ) :
    ∀ (i f : ℕ) (v : Vring), (txFrags q swhead i f frags v).1.2.2
      = (List.range' f frags.length).find? fun f => (q.dmaMap (f + 1)).isNone := by
  induction frags with
  | nil => exact fun i f v => rfl
  | cons len frags ih =>
      intro i f v
      rw [List.length_cons, List.range'_succ, List.find?_cons]
      cases hmap : q.dmaMap (f + 1) with
      | none => simp [txFrags, hmap]
      | some pa => simp [txFrags, hmap, ih]

/-- The `m + 1` pieces that were mapped are unmapped the right way where none of them wraps. -/
lemma undoes_iff {size a m : ℕ} (ha : a < size) (hm : m + 1 ≤ size) (cb : WilSkbCb)
    (hcb : cb.snglMapped = a) :
    ((List.range' a (m + 1)).map fun k => (k % size, pieceKind 1 (k - a))).Perm
        ((List.range' a (m + 1)).reverse.map fun k => (k % size, cb.kindAt (k % size))) ↔
      a + m < size := by
  constructor
  · intro hperm
    by_contra hwrap
    -- the last piece is a page, in a slot in front of the linear part
    have hlast : ((a + m) % size, pieceKind 1 (a + m - a)) ∈
        (List.range' a (m + 1)).reverse.map fun k => (k % size, cb.kindAt (k % size)) :=
      hperm.mem_iff.mp (List.mem_map.mpr ⟨a + m, List.mem_range'_1.mpr (by omega), rfl⟩)
    obtain ⟨k, hk, heq⟩ := List.mem_map.mp hlast
    rw [List.mem_reverse, List.mem_range'_1] at hk
    rw [Prod.mk.injEq] at heq
    have hslot : (a + m) % size = a + m - size := by
      rw [Nat.mod_eq_sub_mod (by omega), Nat.mod_eq_of_lt (by omega)]
    rw [WilSkbCb.kindAt, if_pos (by omega), pieceKind, if_neg (by omega)] at heq
    exact absurd heq.2 (by decide)
  · intro hfits
    have hsame : (List.range' a (m + 1)).map (fun k => (k % size, pieceKind 1 (k - a)))
        = (List.range' a (m + 1)).map fun k => (k % size, cb.kindAt (k % size)) := by
      refine List.map_congr_left fun k hk => ?_
      rw [List.mem_range'_1] at hk
      rw [Nat.mod_eq_of_lt (by omega), pieceKind, WilSkbCb.kindAt, hcb]
      congr 1
      split_ifs <;> first | rfl | omega
    rw [hsame]
    exact ((List.reverse_perm _).map _).symm

/-- The trace of a call of `wil_tx_vring` that takes back `m + 1` pieces. -/
lemma undoesMaps_failed {v w : Vring} {m : ℕ} (hhead : v.swhead < v.size) (hm : m + 1 ≤ v.size)
    (hsize : w.size = v.size) (cb : WilSkbCb) (hcb : cb.snglMapped = v.swhead) (skb : TxSkb) :
    UndoesMaps 1 (txStop v
      ++ ((slots v.size v.swhead (m + 1)).flatMap fun j => [.write j, .skbGet skb])
      ++ (txDmaError cb skb v.swhead (m + 1) w).2) ↔ v.swhead + m < v.size := by
  obtain ⟨i, hmapped⟩ := mappedSlots_posted skb (slots v.size v.swhead (m + 1))
    (txDmaError cb skb v.swhead (m + 1) w).2 0
  obtain ⟨j, hunmapped⟩ := unmappedSlots_stores
    (stores_posted skb (slots v.size v.swhead (m + 1))) (txDmaError cb skb v.swhead (m + 1) w).2 0
  rw [UndoesMaps, List.append_assoc, mappedSlots_txStop, unmappedSlots_txStop, hmapped, hunmapped,
    (slots_txDmaError cb skb v.swhead (m + 1) i w).1, List.append_nil, mapIdx_slots,
    (slots_txDmaError cb skb v.swhead (m + 1) j w).2, hsize]
  exact undoes_iff hhead hm cb hcb

/-- A call that maps nothing. -/
lemma undoesMaps_txStop (singles : ℕ) (v : Vring) : UndoesMaps singles (txStop v) := by
  have hmapped := mappedSlots_txStop 0 v []
  have hunmapped := unmappedSlots_txStop 0 v []
  rw [List.append_nil] at hmapped hunmapped
  rw [UndoesMaps, hmapped, hunmapped]
  exact List.Perm.nil

/-- What a call of `wil_tx_vring` does that cannot map fragment `m`. -/
lemma wilTxVring_failed {s : TxState} {q : TxRequest} {pa m : ℕ}
    (hhead : s.vring.swhead < s.vring.size) (hroom : ¬ wilVringAvailTx s.vring < 1 + q.nrFrags)
    (hmap : q.dmaMap 0 = some pa) (hfails : q.failsAt = some m) :
    m < q.nrFrags ∧
      Posted q s.vring (txPieces q pa s.vring).1.1 (slots s.vring.size s.vring.swhead (m + 1)) ∧
      (wilTxVring s q).2.2 = eInval ∧
      (wilTxVring s q).1.vring = (txDmaError ⟨s.vring.swhead, -1⟩ q.skb s.vring.swhead (m + 1)
        (txPieces q pa s.vring).1.1).1 ∧
      (wilTxVring s q).2.1 = txStop s.vring
        ++ (slots s.vring.size s.vring.swhead (m + 1)).flatMap (fun j => [.write j, .skbGet q.skb])
        ++ (txDmaError ⟨s.vring.swhead, -1⟩ q.skb s.vring.swhead (m + 1)
          (txPieces q pa s.vring).1.1).2 := by
  obtain ⟨k, -, hpost, -, hev, hend⟩ := txPieces_posted q pa hhead
  have hfailed : (txPieces q pa s.vring).1.2.2 = some m :=
    (txFrags_failsAt _ _ _ _ _ _).trans hfails
  obtain ⟨hnone, -⟩ | ⟨hsome, hlt⟩ := hend
  · exact absurd (hnone.symm.trans hfailed) (by simp)
  · obtain rfl : k = m := Option.some.inj (hsome.symm.trans hfailed)
    refine ⟨hlt, hpost, ?_⟩
    simp only [wilTxVring, if_neg hroom, hmap, hsome, hev]
    exact ⟨trivial, trivial, trivial⟩

/-- The error path of `wil_tx_vring`. -/
lemma PacketInv.xmit_iff (h : PacketInv s) (q : TxRequest) :
    KindsAgree s (.xmit q) ↔ Unwrapped s (.xmit q) := by
  have hhead : s.tx.vring.swhead < s.tx.vring.size := by
    rw [h.ring.swhead]
    exact Nat.mod_lt _ h.ring.size_pos
  rw [KindsAgree, Unwrapped]
  by_cases hroom : wilVringAvailTx s.tx.vring < 1 + q.nrFrags
  · simp [wilTxVring, hroom, undoesMaps_txStop]
  · cases hmap : q.dmaMap 0 with
    | none => simp [wilTxVring, hroom, hmap, undoesMaps_txStop]
    | some pa =>
        cases hfails : q.failsAt with
        | none =>
            have hnone : (txPieces q pa s.tx.vring).1.2.2 = none :=
              (txFrags_failsAt _ _ _ _ _ _).trans hfails
            simp [wilTxVring, hroom, hmap, hnone]
        | some m =>
            obtain ⟨hlt, hpost, hrc, -, hev⟩ := wilTxVring_failed hhead hroom hmap hfails
            have havail : m + 1 ≤ s.tx.vring.size := by
              rw [wilVringAvailTx] at hroom
              omega
            rw [hev, undoesMaps_failed hhead havail hpost.same.size ⟨s.tx.vring.swhead, -1⟩ rfl q.skb]
            have hrc' : (wilTxVring s.tx q).2.2 ≠ 0 := by
              rw [hrc]
              decide
            simp [hroom, hrc']

/-- The headers are posted first. -/
lemma header_prefix (q : TsoRequest) (v : Vring) (pa : ℕ) :
    [.write v.swhead, .skbGet q.skb] <+: (tsoPieces q v pa).1.events := by
  have hpost : ∀ (t : TsoState) (es : List TxEvent),
      [.write v.swhead, .skbGet q.skb] <+: t.events →
        [.write v.swhead, .skbGet q.skb] <+: t.events ++ es :=
    fun t es h => h.trans (List.prefix_append _ _)
  have hheader : [.write v.swhead, .skbGet q.skb] <+: (tsoHeader q v pa).events :=
    List.prefix_refl _
  refine tsoPieces_rule (I := fun t => [.write v.swhead, .skbGet q.skb] <+: t.events) hheader
    (fun pa' _ => hpost _ _ hheader) (fun t ht => ?_) (fun t pa len rem ht _ => hpost t _ ht)
  simp only [TsoState.nextChunk, TsoState.endChunk]
  split_ifs
  · cases t.sgDesc <;> exact hpost t _ ht
  · exact ht

/-- Without the mapping of the data behind the headers, these are all. -/
lemma tsoLinear_failed {q : TsoRequest} {swhead : ℕ} {t : TsoState}
    (h : (tsoLinear q swhead t).2 = false) : (tsoLinear q swhead t).1 = t := by
  rw [tsoLinear] at h ⊢
  by_cases hdata : q.skb.headlen - q.hdrlen = 0
  · rw [if_pos hdata]
  · rw [if_neg hdata] at h ⊢
    cases hmap : q.dma.single q.hdrlen (q.skb.headlen - q.hdrlen) with
    | none => rfl
    | some pa =>
        rw [hmap] at h
        exact absurd h (by simp)

/-- Where a packet could not be posted, there was room for what was. -/
lemma TsoState.Posts.of_failed {q : TsoRequest} {v : Vring} (pa : ℕ) (hhead : v.swhead < v.size)
    (hroom : ¬ wilVringAvailTx v < q.nrFrags * 3 + 1) (hfail : (tsoPieces q v pa).2 = false) :
    (tsoPieces q v pa).1.Posts q v := by
  by_cases hfits : q.Overruns v
  · -- there are no fragments, so it was the data behind the headers
    have hfrags : q.skb.frags = [] := List.eq_nil_of_length_eq_zero hfits.1
    have hlinear : tsoPieces q v pa = tsoLinear q v.swhead (tsoHeader q v pa) := by
      simp only [tsoPieces, hfrags, tsoFrags]
      split <;> simp_all
    rw [hlinear] at hfail ⊢
    rw [tsoLinear_failed hfail]
    exact .header hhead (by omega) pa
  · exact TsoState.Posts.pieces hhead (q.singles_le hroom hfits) pa

/-- The headers were mapped, and are not unmapped. -/
lemma not_undoesMaps {q : TsoRequest} {v : Vring} {t : TsoState} (hhead : v.swhead < v.size)
    (ht : t.Posts q v) (hfirst : [.write v.swhead, .skbGet q.skb] <+: t.events) :
    ¬ UndoesMaps q.singles (txStop v ++ t.events
      ++ (txDmaError t.cb q.skb (v.swhead + 1) t.descsUsed t.vring).2) := by
  obtain ⟨es, hes⟩ := hfirst
  obtain ⟨j, hunmapped⟩ := unmappedSlots_stores ht.events
    (txDmaError t.cb q.skb (v.swhead + 1) t.descsUsed t.vring).2 0
  have hsize : t.descsUsed < v.size := by
    have hle := ht.used_le
    rw [wilVringAvailTx] at hle
    omega
  rw [UndoesMaps, List.append_assoc, mappedSlots_txStop, unmappedSlots_txStop, hunmapped,
    (slots_txDmaError t.cb q.skb (v.swhead + 1) t.descsUsed j t.vring).2, ht.ring.same.size, ← hes]
  intro hperm
  have hmapped : mappedSlots 0 ([.write v.swhead, .skbGet q.skb] ++ es
      ++ (txDmaError t.cb q.skb (v.swhead + 1) t.descsUsed t.vring).2)
      = v.swhead :: mappedSlots v.swhead
          (es ++ (txDmaError t.cb q.skb (v.swhead + 1) t.descsUsed t.vring).2) := rfl
  rw [hmapped, List.mapIdx_cons] at hperm
  obtain ⟨k, hk, heq⟩ := List.mem_map.mp (hperm.mem_iff.mp List.mem_cons_self)
  rw [List.mem_reverse, List.mem_range'_1] at hk
  have hslot : k % v.size = v.swhead % v.size := by
    rw [Nat.mod_eq_of_lt hhead]
    exact (Prod.mk.inj heq).1
  exact Circular.ne_of_window (by omega) (by omega) hslot.symm

/-- The error path of `wil_tx_vring_tso`: it never undoes what was done. -/
lemma PacketInv.xmitTso_iff (h : PacketInv s) (q : TsoRequest) :
    KindsAgree s (.xmitTso q) ↔ Unwrapped s (.xmitTso q) := by
  have hhead : s.tx.vring.swhead < s.tx.vring.size := by
    rw [h.ring.swhead]
    exact Nat.mod_lt _ h.ring.size_pos
  rw [KindsAgree, Unwrapped, TsoRequest.DmaError]
  by_cases hroom : wilVringAvailTx s.tx.vring < q.nrFrags * 3 + 1
  · simp [wilTxVringTso, hroom, undoesMaps_txStop]
  by_cases htcp : (wilTxDescOffloadSetup (s.tx.vring.desc s.tx.vring.swhead) q.skb 0).2 = 0
  · simp [wilTxVringTso, hroom, htcp, undoesMaps_txStop]
  cases hmap : q.dma.single 0 q.hdrlen with
  | none => simp [wilTxVringTso, hroom, htcp, hmap, undoesMaps_txStop]
  | some pa =>
      have hfirst := header_prefix q s.tx.vring pa
      have hposts := TsoState.Posts.of_failed pa hhead hroom
      generalize hpieces : tsoPieces q s.tx.vring pa = r at hfirst hposts
      obtain ⟨t, _ | _⟩ := r
      · have hundoes := not_undoesMaps hhead (hposts rfl) hfirst
        have hrc : eInval ≠ 0 := by decide
        rw [List.append_assoc] at hundoes
        simpa [wilTxVringTso, hroom, htcp, hmap, hpieces, tsoDmaError_eq, hrc] using hundoes
      · simp [wilTxVringTso, hroom, htcp, hmap, hpieces]

/-! ## Every call -/

/-- **When a call unmaps buffers the way they were mapped.**  In every state that a run can reach,
a call does so exactly where nothing that it unmaps wraps away from the linear part of its packet,
and it does not come to `dma_error` of `wil_tx_vring_tso`. -/
theorem kindsAgree_iff {size : ℕ} (hsize : 0 < size) {tx : TxState} {as : List PacketAction}
    (hrun : Machine.Exec PacketSys.step PacketSys.Admits (PacketSys.init tx size) as s)
    (c : UnmapCall) : KindsAgree s c ↔ Unwrapped s c := by
  have hinv : KindInv s := hrun.invariant (fun _ _ _ hadmits ht hi => hi.step hadmits ht)
    (kindInv_init tx hsize)
  cases c with
  | complete => exact hinv.complete_iff
  | free => exact hinv.free_iff
  | xmit q => exact hinv.toPacketInv.xmit_iff q
  | xmitTso q => exact hinv.toPacketInv.xmitTso_iff q

/-- A packet with these fragments. -/
private def fragPacket (id : ℕ) (frags : List ℕ) : TxRequest :=
  ⟨⟨id, 60 + frags.sum, 60, frags, false, 0, 0, 0, 0, 0⟩, 0, false, fun _ => some 4096⟩

/-- A packet of two pieces, in the first two slots, is unmapped the right way. -/
theorem kindsAgree_two : ∃ s : PacketSys, s.posted = 2 ∧ KindsAgree s .free := by
  have hrun : (Machine.exec PacketSys.step PacketSys.Admits (PacketSys.init blankTx 4)
      [.xmit (fragPacket 7 [40])]).map (fun s => (s.posted, s.released, s.tx.vring.size,
        (s.packet 0).lastSingle, (s.packet 1).lastSingle)) = some (2, 0, 4, 0, 0) := by
    decide +kernel
  obtain ⟨s, hs, hend⟩ := Option.map_eq_some_iff.mp hrun
  simp only [Prod.mk.injEq] at hend
  obtain ⟨hposted, -, hsize, hfirst, hsecond⟩ := hend
  refine ⟨s, hposted, (kindsAgree_iff (by norm_num) (.of_exec hs) .free).mpr fun k _ hk => ?_⟩
  rw [hposted] at hk
  rw [PacketSys.SameLap, hsize]
  interval_cases k
  · rw [hfirst]
  · rw [hsecond]

/-- On a ring of four, a packet of two pieces wraps: freeing the ring unmaps its page as if it were
a linear part. -/
theorem not_kindsAgree :
    ¬ ∀ (size : ℕ) (tx : TxState) (as : List PacketAction) (s : PacketSys) (c : UnmapCall),
      0 < size → Machine.Exec PacketSys.step PacketSys.Admits (PacketSys.init tx size) as s →
        KindsAgree s c := by
  intro h
  have hrun : (Machine.exec PacketSys.step PacketSys.Admits (PacketSys.init blankTx 4)
      [.xmit (fragPacket 7 []), .xmit (fragPacket 9 []), .xmit (fragPacket 11 []), .hwMark 0 0,
        .hwMark 1 0, .hwMark 2 0, .complete, .xmit (fragPacket 13 [40])]).map (fun s =>
          (unmapKinds (wilVringFree s.tx.cb s.tx.vring).2,
            (List.range' s.released (s.posted - s.released)).map s.kind))
        = some ([.single, .single, .single], [.single, .single, .page]) := by
    decide +kernel
  obtain ⟨s, hs, hend⟩ := Option.map_eq_some_iff.mp hrun
  rw [Prod.mk.injEq] at hend
  have hagree : unmapKinds (wilVringFree s.tx.cb s.tx.vring).2 = _ :=
    h 4 blankTx _ s .free (by norm_num) (.of_exec hs)
  rw [hend.1, hend.2] at hagree
  exact absurd hagree (by decide)

end Wil6210
