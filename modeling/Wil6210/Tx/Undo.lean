import Wil6210.Tx.Kinds
import Wil6210.Tx.TsoCalls

/-!
# What the error paths undo

When a mapping fails behind the first one, `wil_tx_vring` and `wil_tx_vring_tso` come to `dma_error`,
where a loop reads addresses and lengths back from the descriptors and unmaps them.  What was mapped
and what is unmapped is compared here slot by slot: each store to a descriptor comes in front of the
unmap that reads it.

The loop of `wil_tx_vring` counts from the fragment that failed down to the linear part, and undoes
exactly what was done (`txUndone`).  The loop of `wil_tx_vring_tso` is shifted by one slot: it takes a
descriptor that was not posted for the last one, and never comes to the headers
(`tsoUndone_never`).
-/

namespace Wil6210

open Circular (slots mem_slots)

variable {q : TxRequest} {s : TxState} {v w : Vring} {skb : TxSkb} {i j k m n f : ℕ}

/-! ## Buffers in a trace -/

/-- A buffer that is mapped or unmapped: the slot of its descriptor, its address and its length. -/
structure DmaBuffer where
  slot : ℕ
  pa : ℕ
  len : ℤ
  deriving DecidableEq, Repr

/-- What an event unmaps. -/
def TxEvent.unmaps : TxEvent → Option (ℕ × ℕ)
  | .dmaUnmapSingle pa len => some (pa, len)
  | .dmaUnmapPage pa len => some (pa, len)
  | _ => none

/-- The buffers a trace unmaps; `i` is the slot written last. -/
def unmappedBuffers : ℕ → List TxEvent → List DmaBuffer
  | _, [] => []
  | _, .write i :: es => unmappedBuffers i es
  | i, e :: es => (e.unmaps.map fun p => ⟨i, p.1, p.2⟩).toList ++ unmappedBuffers i es

lemma unmappedBuffers_dmaUnmap (i j : ℕ) (cb : WilSkbCb) (d : VringTxDesc) (es : List TxEvent) :
    unmappedBuffers i (dmaUnmap cb j d :: es) = ⟨i, d.pa, d.length⟩ :: unmappedBuffers i es := by
  rw [dmaUnmap]
  split_ifs <;> rfl

lemma unmappedBuffers_txStop (i : ℕ) (v : Vring) (es : List TxEvent) :
    unmappedBuffers i (txStop v ++ es) = unmappedBuffers i es := by
  rw [txStop]
  split_ifs <;> rfl

/-- Stores and references unmap nothing. -/
lemma unmappedBuffers_stores {es : List TxEvent}
    (h : ∀ e ∈ es, e = .skbGet skb ∨ ∃ i, e = .write i) (fs : List TxEvent) :
    ∀ i, ∃ j, unmappedBuffers i (es ++ fs) = unmappedBuffers j fs := by
  induction es with
  | nil => exact fun i => ⟨i, rfl⟩
  | cons e es ih =>
      intro i
      obtain ⟨he, hes⟩ := List.forall_mem_cons.mp h
      rcases he with rfl | ⟨k, rfl⟩
      · exact ih hes i
      · exact ih hes k

/-- The buffer of a descriptor. -/
def Vring.bufferAt (v : Vring) (k : ℕ) : DmaBuffer :=
  ⟨k % v.size, (v.desc (k % v.size)).pa, (v.desc (k % v.size)).length⟩

/-- **What the loop behind `dma_error` unmaps**: the buffers of `f` descriptors from `a` on,
backwards. -/
lemma unmappedBuffers_txDmaError (cb : WilSkbCb) (skb : TxSkb) (a f : ℕ) :
    ∀ (i : ℕ) (v : Vring), unmappedBuffers i (txDmaError cb skb a f v).2
      = (List.range' a f).reverse.map v.bufferAt := by
  induction f with
  | zero => exact fun i v => rfl
  | succ f ih =>
      intro i v
      have hslot : a + (f + 1) - 1 = a + f := by omega
      have hkeep : (v.setDesc ((a + f) % v.size)
          { v.desc ((a + f) % v.size) with status := txDmaStatusDu }).bufferAt = v.bufferAt := by
        funext k
        by_cases hk : k % v.size = (a + f) % v.size
        · simp [Vring.bufferAt, Vring.setDesc, hk, VringTxDesc.pa]
        · simp [Vring.bufferAt, Vring.setDesc, hk]
      simp only [txDmaError, hslot, unmappedBuffers, unmappedBuffers_dmaUnmap, TxEvent.unmaps,
        Option.map_none, Option.toList_none, List.nil_append]
      rw [ih, hkeep, List.range'_concat, List.reverse_append]
      simp [Vring.bufferAt, VringTxDesc.pa]

/-! ## Packets in descriptors of their own -/

/-- The pieces `txFrags` maps, from fragment `f` on, each with its address and its length. -/
def txFragsMapped (q : TxRequest) : ℕ → List ℕ → List (ℕ × ℕ)
  | _, [] => []
  | f, len :: frags =>
      match q.dmaMap (f + 1) with
      | none => []
      | some pa => (pa, len) :: txFragsMapped q (f + 1) frags

/-- The pieces `wil_tx_vring` maps: the linear part, and the fragments before the first one whose
mapping fails. -/
def TxRequest.mapped (q : TxRequest) : List (ℕ × ℕ) :=
  match q.dmaMap 0 with
  | none => []
  | some pa => (pa, q.skb.headlen) :: txFragsMapped q 0 q.skb.frags

/-- `wil_tx_vring` comes to `dma_error`: there is room, the linear part is mapped, and a fragment is
not. -/
def TxRequest.DmaError (q : TxRequest) (v : Vring) : Prop :=
  ¬ wilVringAvailTx v < 1 + q.nrFrags ∧ q.dmaMap 0 ≠ none ∧ q.failsAt ≠ none

instance (q : TxRequest) (v : Vring) : Decidable (q.DmaError v) :=
  inferInstanceAs (Decidable (_ ∧ _ ∧ _))

/-- **What must hold** of a call that fails: each buffer that it mapped is unmapped once, with its
address and its length, and nothing else is; the references that it took are dropped; the head, the
tail and the slots between them are as before. -/
structure TxUndone (s : TxState) (q : TxRequest) : Prop where
  buffers : (q.mapped.mapIdx fun j p =>
      (⟨(s.vring.swhead + j) % s.vring.size, p.1, p.2⟩ : DmaBuffer)).Perm
    (unmappedBuffers 0 (wilTxVring s q).2.1)
  refs : ∀ p, taken p (wilTxVring s q).2.1 = dropped p (wilTxVring s q).2.1
  swhead : (wilTxVring s q).1.vring.swhead = s.vring.swhead
  swtail : (wilTxVring s q).1.vring.swtail = s.vring.swtail
  frame : ∀ i ∈ s.vring.postedSlots, (wilTxVring s q).1.vring.desc i = s.vring.desc i ∧
    (wilTxVring s q).1.vring.ctx i = s.vring.ctx i

/-- The descriptor holds this address and this length. -/
def VringTxDesc.Buffer (d : VringTxDesc) (p : ℕ × ℕ) : Prop := d.pa = p.1 ∧ d.length = p.2

lemma buffer_txSegmentDesc (q : TxRequest) (d : VringTxDesc) {p : ℕ × ℕ} (hpa : p.1 < 2 ^ 48)
    (hlen : p.2 < 2 ^ 16) : (txSegmentDesc q d p.1 p.2).Buffer p := by
  have hfields : (txSegmentDesc q d p.1 p.2).addrLow = p.1 % 2 ^ 32 ∧
      (txSegmentDesc q d p.1 p.2).addrHigh = u16 (p.1 >>> 32) ∧
      (txSegmentDesc q d p.1 p.2).length = u16 p.2 := by
    simp only [txSegmentDesc, wilTxDescOffloadSetup]
    split_ifs <;> exact ⟨rfl, rfl, rfl⟩
  obtain ⟨hlow, hhigh, hlength⟩ := hfields
  refine ⟨?_, ?_⟩
  · rw [VringTxDesc.pa, hlow, hhigh, pa_fields hpa]
  · rw [hlength, u16]
    omega

/-- The fragments that were mapped are in the descriptors behind the `f` pieces in front of them. -/
lemma buffer_txFrags (q : TxRequest) (swhead : ℕ) (hpa : ∀ f pa, q.dmaMap f = some pa → pa < 2 ^ 48)
    (frags : List ℕ) (hlen : ∀ len ∈ frags, len < 2 ^ 16) :
    ∀ (i f j : ℕ) (v : Vring) (p : ℕ × ℕ), f + 1 + frags.length ≤ v.size →
      (txFragsMapped q f frags)[j]? = some p →
      ((txFrags q swhead i f frags v).1.1.desc ((swhead + f + 1 + j) % v.size)).Buffer p := by
  induction frags with
  | nil =>
      intro i f j v p _ hp
      exact absurd hp (by simp [txFragsMapped])
  | cons len frags ih =>
      intro i f j v p hsize hp
      obtain ⟨hlen0, hrest⟩ := List.forall_mem_cons.mp hlen
      rw [List.length_cons] at hsize
      cases hmap : q.dmaMap (f + 1) with
      | none =>
          rw [txFragsMapped, hmap] at hp
          exact absurd hp (by simp)
      | some pa =>
          set k := (swhead + f + 1) % v.size with hk
          rw [txFragsMapped, hmap] at hp
          simp only [txFrags, hmap, ← hk]
          cases j with
          | zero =>
              obtain rfl := Option.some.inj hp
              obtain ⟨m, hm, hpost, -⟩ := txFrags_posted q swhead frags k (f + 1)
                (txSegment q k pa len v)
              have hout : k ∉ slots v.size (swhead + (f + 1) + 1) m :=
                Circular.notMem_slots (by omega) (by omega)
              rw [Nat.add_zero, ← hk, (hpost.frame k hout).1]
              simpa [txSegment, Vring.setDesc, Vring.setCtx] using
                buffer_txSegmentDesc q (v.desc k) (p := (pa, len)) (hpa _ _ hmap) hlen0
          | succ j =>
              have hnext := ih hrest k (f + 1) j (txSegment q k pa len v) p
                (show f + 1 + 1 + frags.length ≤ v.size by omega) hp
              rw [show swhead + f + 1 + (j + 1) = swhead + (f + 1) + 1 + j by omega]
              exact hnext

/-- How many these are, where one is not mapped. -/
lemma length_txFragsMapped (q : TxRequest) (frags : List ℕ) : ∀ f m,
    ((List.range' f frags.length).find? fun f => (q.dmaMap (f + 1)).isNone) = some (f + m) →
      (txFragsMapped q f frags).length = m := by
  induction frags with
  | nil =>
      intro f m h
      exact absurd h (by simp)
  | cons len frags ih =>
      intro f m h
      rw [List.length_cons, List.range'_succ, List.find?_cons] at h
      cases hmap : q.dmaMap (f + 1) with
      | none =>
          simp only [hmap, Option.isNone_none, Option.some.injEq] at h
          rw [txFragsMapped, hmap]
          show 0 = m
          omega
      | some pa =>
          simp only [hmap, Option.isNone_some] at h
          obtain ⟨hlt, -⟩ := List.mem_range'_1.mp (List.mem_of_find?_eq_some h)
          have hrest := ih (f + 1) (m - 1) (by rw [h]; congr 1; omega)
          rw [txFragsMapped, hmap, List.length_cons, hrest]
          omega

/-- The slots in use are not among those that are free. -/
lemma notMem_postedSlots (hhead : v.swhead < v.size) (htail : v.swtail < v.size)
    (hn : n ≤ wilVringAvailTx v) (hi : i ∈ v.postedSlots) : i ∉ slots v.size v.swhead n := by
  obtain ⟨hused, -, hslot⟩ := Vring.head_mod hhead htail
  obtain ⟨k, hk, hk', rfl⟩ := mem_slots.mp hi
  rw [wilVringAvailTx] at hn
  rw [← hslot, Circular.slots_mod]
  exact Circular.notMem_slots (by omega) (by omega)

/-- What a call does that comes to `dma_error`, after `m + 1` pieces. -/
lemma wilTxVring_dmaError (hhead : s.vring.swhead < s.vring.size) (herror : q.DmaError s.vring) :
    ∃ pa m, q.dmaMap 0 = some pa ∧ q.failsAt = some m ∧ m < q.nrFrags ∧
      Posted q s.vring (txPieces q pa s.vring).1.1 (slots s.vring.size s.vring.swhead (m + 1)) ∧
      (wilTxVring s q).2.2 = eInval ∧
      (wilTxVring s q).1.vring = (txDmaError ⟨s.vring.swhead, -1⟩ q.skb s.vring.swhead (m + 1)
        (txPieces q pa s.vring).1.1).1 ∧
      (wilTxVring s q).2.1 = txStop s.vring
        ++ (slots s.vring.size s.vring.swhead (m + 1)).flatMap (fun j => [.write j, .skbGet q.skb])
        ++ (txDmaError ⟨s.vring.swhead, -1⟩ q.skb s.vring.swhead (m + 1)
          (txPieces q pa s.vring).1.1).2 := by
  obtain ⟨hroom, hlinear, hfails⟩ := herror
  obtain ⟨pa, hmap⟩ := Option.ne_none_iff_exists'.mp hlinear
  obtain ⟨m, hm⟩ := Option.ne_none_iff_exists'.mp hfails
  obtain ⟨hlt, hpost, hcall⟩ := wilTxVring_failed hhead hroom hmap hm
  exact ⟨pa, m, hmap, hm, hlt, hpost, hcall⟩

/-- **The error path of `wil_tx_vring`.**  With addresses of 48 bits and lengths of 16, it undoes
exactly what was done, whatever the size of the ring, the slot of the head and the fragment whose
mapping fails. -/
theorem txUndone (s : TxState) (q : TxRequest) (hhead : s.vring.swhead < s.vring.size)
    (htail : s.vring.swtail < s.vring.size) (herror : q.DmaError s.vring)
    (hpa : ∀ f pa, q.dmaMap f = some pa → pa < 2 ^ 48) (hlinear : q.skb.headlen < 2 ^ 16)
    (hlen : ∀ len ∈ q.skb.frags, len < 2 ^ 16) : TxUndone s q := by
  obtain ⟨pa, m, hmap, hfails, hlt, hpost, hrc, -, hev⟩ := wilTxVring_dmaError hhead herror
  obtain ⟨n, hn⟩ := txPosting s q hhead
  obtain ⟨hhead', hrefs⟩ := hn.failure (by rw [hrc]; decide)
  refine ⟨?_, hrefs, hhead', hn.swtail, fun i hi =>
    hn.frame i (notMem_postedSlots hhead htail hn.room hi)⟩
  set w := (txPieces q pa s.vring).1.1 with hw
  have hsize : q.nrFrags + 1 ≤ s.vring.size := by
    have hroom := herror.1
    rw [wilVringAvailTx] at hroom
    omega
  -- what is unmapped, backwards
  have hunmapped : unmappedBuffers 0 (wilTxVring s q).2.1
      = (List.range' s.vring.swhead (m + 1)).reverse.map w.bufferAt := by
    obtain ⟨j, hj⟩ := unmappedBuffers_stores
      (stores_posted q.skb (slots s.vring.size s.vring.swhead (m + 1)))
      (txDmaError ⟨s.vring.swhead, -1⟩ q.skb s.vring.swhead (m + 1) w).2 0
    rw [hev, List.append_assoc, unmappedBuffers_txStop, hj, unmappedBuffers_txDmaError]
  -- what was mapped
  have hmapped : q.mapped = (pa, q.skb.headlen) :: txFragsMapped q 0 q.skb.frags := by
    rw [TxRequest.mapped, hmap]
  have hcount : q.mapped.length = m + 1 := by
    rw [hmapped, List.length_cons, length_txFragsMapped q q.skb.frags 0 m (by
      rw [Nat.zero_add]
      exact hfails)]
  have hbuffer : ∀ j p, q.mapped[j]? = some p →
      (w.desc ((s.vring.swhead + j) % s.vring.size)).Buffer p := by
    intro j p hp
    rw [hmapped] at hp
    set v₁ := txSegment q s.vring.swhead pa q.skb.headlen s.vring with hv₁
    cases j with
    | zero =>
        obtain rfl := Option.some.inj hp
        obtain ⟨k, hk, hrest, -⟩ := txFrags_posted q s.vring.swhead q.skb.frags s.vring.swhead 0 v₁
        have hk' : k ≤ q.nrFrags := hk
        have hout : s.vring.swhead % v₁.size ∉ slots v₁.size (s.vring.swhead + 0 + 1) k :=
          Circular.notMem_slots (by omega)
            (show s.vring.swhead + 0 + 1 + k ≤ s.vring.swhead + s.vring.size by omega)
        have hsame : v₁.size = s.vring.size := rfl
        rw [hsame, Nat.mod_eq_of_lt hhead] at hout
        rw [Nat.add_zero, Nat.mod_eq_of_lt hhead]
        have hdesc : w.desc s.vring.swhead = v₁.desc s.vring.swhead := (hrest.frame _ hout).1
        rw [hdesc, hv₁]
        simpa [txSegment, Vring.setDesc, Vring.setCtx] using
          buffer_txSegmentDesc q (s.vring.desc s.vring.swhead) (p := (pa, q.skb.headlen))
            (hpa _ _ hmap) hlinear
    | succ j =>
        have hfrag := buffer_txFrags q s.vring.swhead hpa q.skb.frags hlen s.vring.swhead 0 j v₁ p
          (show 0 + 1 + q.nrFrags ≤ s.vring.size by omega) hp
        rw [show s.vring.swhead + (j + 1) = s.vring.swhead + 0 + 1 + j by omega]
        exact hfrag
  have hall : (q.mapped.mapIdx fun j p =>
      (⟨(s.vring.swhead + j) % s.vring.size, p.1, p.2⟩ : DmaBuffer))
        = (List.range' s.vring.swhead (m + 1)).map w.bufferAt := by
    refine List.ext_getElem (by simp [hcount]) fun j hj hj' => ?_
    rw [List.length_mapIdx] at hj
    obtain ⟨haddr, hlength⟩ := hbuffer j _ (List.getElem?_eq_getElem hj)
    simp [Vring.bufferAt, hpost.same.size, haddr, hlength]
  rw [hall, hunmapped]
  exact ((List.reverse_perm _).map _).symm

/-- A packet of two fragments, the second of which cannot be mapped. -/
private def halfMapped : TxRequest :=
  ⟨⟨7, 100, 60, [40, 30], false, 0, 0, 0, 0, 0⟩, 0, false,
    fun f => if f < 2 then some (4096 * (f + 1)) else none⟩

/-- On a ring of four with the head in the last slot, such a packet wraps. -/
theorem txUndone_wrapped :
    TxUndone { blankTx with vring := { blankTx.vring with size := 4, swhead := 3, swtail := 3 } }
      halfMapped := by
  refine txUndone _ _ (by decide) (by decide) (by decide +kernel) (fun f pa hmap => ?_) (by decide)
    (by decide)
  simp only [halfMapped] at hmap
  split_ifs at hmap with hf
  · obtain rfl := Option.some.inj hmap
    omega

/-! ## Packets with TSO -/

/-- **What must hold** of a call that fails: each buffer that it mapped is unmapped once, with its
address and its length, and nothing else is; the references that it took are dropped, and the head
is as before. -/
structure TsoUndone (s : TxState) (q : TsoRequest) : Prop where
  buffers : ((mappedPieces (wilTxVringTsoCalls s q)).mapIdx fun j p =>
      (⟨(s.vring.swhead + j) % s.vring.size, p.pa, p.len⟩ : DmaBuffer)).Perm
    (unmappedBuffers 0 (wilTxVringTso s q).2.1)
  refs : ∀ p, taken p (wilTxVringTso s q).2.1 = dropped p (wilTxVringTso s q).2.1
  swhead : (wilTxVringTso s q).1.vring.swhead = s.vring.swhead

/-- What a call does that comes to `dma_error`. -/
lemma wilTxVringTso_dmaError {q : TsoRequest} (hhead : s.vring.swhead < s.vring.size)
    (herror : q.DmaError s.vring) : ∃ (pa : ℕ) (t : TsoState), q.dma.single 0 q.hdrlen = some pa ∧
      t.Posts q s.vring ∧ TsoPosting s q t.descsUsed ∧ (wilTxVringTso s q).2.2 = eInval ∧
      (wilTxVringTso s q).2.1 = txStop s.vring ++ t.events
        ++ (txDmaError t.cb q.skb (s.vring.swhead + 1) t.descsUsed t.vring).2 ∧
      wilTxVringTsoCalls s q = tsoPiecesCalls q s.vring pa := by
  obtain ⟨hroom, htcp, pa, hmap, hfail⟩ := herror
  have ht := TsoState.Posts.of_failed pa hhead hroom hfail
  generalize hpieces : tsoPieces q s.vring pa = r at ht hfail
  obtain ⟨t, _ | _⟩ := r
  · refine ⟨pa, t, hmap, ht, .of_failed hroom htcp hmap hpieces ht, ?_⟩
    simp [wilTxVringTso, wilTxVringTsoCalls, hroom, htcp, hmap, hpieces, tsoDmaError_eq]
  · exact absurd hfail (by simp)

/-- **The error path of `wil_tx_vring_tso`.**  It drops the references that were taken and leaves the
head, but whatever was mapped, it never unmaps the headers. -/
theorem tsoUndone_never (s : TxState) (q : TsoRequest) (hhead : s.vring.swhead < s.vring.size)
    (herror : q.DmaError s.vring) :
    (∀ p, taken p (wilTxVringTso s q).2.1 = dropped p (wilTxVringTso s q).2.1) ∧
      (wilTxVringTso s q).1.vring.swhead = s.vring.swhead ∧ ¬ TsoUndone s q := by
  obtain ⟨pa, t, hmap, ht, hn, hrc, hev, hcalls⟩ := wilTxVringTso_dmaError hhead herror
  have hfails : (wilTxVringTso s q).2.2 ≠ 0 := by
    rw [hrc]
    decide
  refine ⟨fun p => ?_, hn.ring.failure hfails, fun hundone => ?_⟩
  · have hrefs := hn.ring.refs p
    rwa [if_neg fun h => hfails h.1, Nat.add_zero] at hrefs
  -- the slots that are unmapped are those behind the head
  have hunmapped : unmappedBuffers 0 (wilTxVringTso s q).2.1
      = (List.range' (s.vring.swhead + 1) t.descsUsed).reverse.map t.vring.bufferAt := by
    obtain ⟨j, hj⟩ := unmappedBuffers_stores ht.events
      (txDmaError t.cb q.skb (s.vring.swhead + 1) t.descsUsed t.vring).2 0
    rw [hev, List.append_assoc, unmappedBuffers_txStop, hj, unmappedBuffers_txDmaError]
  have hused : t.descsUsed < s.vring.size := by
    have hle := ht.used_le
    rw [wilVringAvailTx] at hle
    omega
  -- the headers are mapped in the slot of the head
  have hheader : (⟨s.vring.swhead % s.vring.size, pa, q.hdrlen⟩ : DmaBuffer) ∈
      (mappedPieces (wilTxVringTsoCalls s q)).mapIdx fun j p =>
        (⟨(s.vring.swhead + j) % s.vring.size, p.pa, p.len⟩ : DmaBuffer) := by
    rw [hcalls, tsoPiecesCalls, List.append_assoc, mappedPieces_append, mappedPieces_map,
      List.singleton_append, List.mapIdx_cons]
    exact List.mem_cons_self
  have hmem := hundone.buffers.mem_iff.mp hheader
  rw [hunmapped] at hmem
  obtain ⟨k, hk, heq⟩ := List.mem_map.mp hmem
  rw [List.mem_reverse, List.mem_range'_1] at hk
  have hslot : k % t.vring.size = s.vring.swhead % s.vring.size := congrArg DmaBuffer.slot heq
  rw [ht.ring.same.size] at hslot
  exact Circular.ne_of_window (by omega) (by omega) hslot.symm

/-- The headers, the data behind them and the first part of the fragment are mapped, the rest of the
fragment is not. -/
private def brokenTso : TsoRequest :=
  { tcpPacket 100 60 [80] with
    dma := ⟨fun offset _ => some (4096 + offset),
      fun _ offset _ => if offset = 0 then some 65536 else none⟩ }

private lemma brokenTso_dmaError : brokenTso.DmaError (TxSys.init blankTx 8).tx.vring :=
  ⟨by decide +kernel, by decide +kernel, 4096, by decide +kernel, by decide +kernel⟩

theorem tsoUndone_never_eight : ¬ TsoUndone (TxSys.init blankTx 8).tx brokenTso :=
  (tsoUndone_never _ _ (by decide +kernel) brokenTso_dmaError).2.2

/-- Three buffers are mapped in the first three slots, and the slots behind the first are
unmapped. -/
theorem not_tsoUndone : ¬ ∀ (s : TxState) (q : TsoRequest), s.vring.swhead < s.vring.size →
    q.DmaError s.vring → TsoUndone s q := by
  intro h
  have hundone := h (TxSys.init blankTx 8).tx brokenTso (by decide +kernel) brokenTso_dmaError
  exact absurd hundone.buffers (by decide +kernel)

end Wil6210
