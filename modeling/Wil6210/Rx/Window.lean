import Wil6210.Lib.Serial
import Wil6210.Rx.Reorder

/-!
# The reordering window

`WindowInv` says what a session looks like between two frames: every stored frame sits in the slot
its sequence number selects and is less than `buf_size` ahead of the head, and
`stored_mpdu_num` counts the stored frames.  No assumption on `buf_size` is needed for that.

What does need one is the converse reading, that a slot identifies its frame
(`WindowInv.seq_eq_of_slot`): it holds when `buf_size` divides 4096, and this is the only place
where divisibility enters.
-/

namespace Wil6210

/-! ## Sequence numbers as serial numbers -/

lemma seqSub_eq_sub (a b : ℕ) : seqSub a b = Serial.sub 4096 a b := rfl

lemma seqInc_lt (a : ℕ) : seqInc a < 4096 := Nat.mod_lt _ (by norm_num)

/-- The sequence number in a descriptor has 12 bits. -/
lemma RxSkb.seq_lt (skb : RxSkb) : skb.seq < 4096 := by
  simp only [RxSkb.seq, wilRxdescSeq, wilGetBits]
  exact lt_of_le_of_lt Nat.and_le_right (by decide)

/-- A frame with a given sequence number and nothing else. -/
def seqFrame (seq : ℕ) : RxSkb := ⟨⟨seq <<< 16⟩, []⟩

lemma seq_seqFrame {seq : ℕ} (h : seq < 4096) : (seqFrame seq).seq = seq := by
  show (seq <<< 16) >>> 16 &&& (2 ^ 12 - 1) = seq
  rw [Nat.shiftLeft_shiftRight, Nat.and_two_pow_sub_one_eq_mod]
  exact Nat.mod_eq_of_lt h

/-! ## Slots -/

section Slots

variable {r : WilTidAmpduRx} {index i : ℕ} {skb : RxSkb}

lemma slot_eq_some_iff : r.slot i = some skb ↔ r.reorderBuf[i]? = some (some skb) := by
  simp [WilTidAmpduRx.slot, List.getD_eq_getElem?_getD, Option.getD_eq_iff]

/-- Reading a slot after a write to the buffer. -/
lemma slot_set (o : Option RxSkb) (h : index < r.reorderBuf.length) :
    ({ r with reorderBuf := r.reorderBuf.set index o } : WilTidAmpduRx).slot i
      = if i = index then o else r.slot i := by
  simp only [WilTidAmpduRx.slot, List.getD_eq_getElem?_getD, List.getElem?_set]
  split_ifs with h1 h2 h3
  · rfl
  · exact absurd h1.symm h2
  · exact absurd h3.symm h1
  · rfl

/-- An empty buffer is one whose slots are all empty. -/
lemma occupied_eq_zero_iff : r.occupied = 0 ↔ ∀ i, r.slot i = none := by
  rw [WilTidAmpduRx.occupied, List.countP_eq_zero]
  constructor
  · intro h i
    by_contra hne
    obtain ⟨skb, hs⟩ := Option.ne_none_iff_exists'.mp hne
    exact h _ (List.mem_of_getElem? (slot_eq_some_iff.mp hs)) rfl
  · intro h o ho hsome
    obtain ⟨skb, rfl⟩ := Option.isSome_iff_exists.mp hsome
    obtain ⟨i, hi⟩ := List.getElem?_of_mem ho
    have hslot := h i
    rw [slot_eq_some_iff.mpr hi] at hslot
    exact absurd hslot (by simp)

lemma occupied_le_length : r.occupied ≤ r.reorderBuf.length := List.countP_le_length

/-- Filling an empty slot adds one to the count. -/
lemma countP_set_some {l : List (Option RxSkb)} (hi : index < l.length)
    (h : l.getD index none = none) :
    (l.set index (some skb)).countP Option.isSome = l.countP Option.isSome + 1 := by
  induction l generalizing index with
  | nil => simp at hi
  | cons o l ih =>
      cases index with
      | zero =>
          simp only [List.getD_cons_zero] at h
          simp [h]
      | succ index =>
          simp only [List.getD_cons_succ] at h
          simp only [List.set_cons_succ, List.countP_cons, ih (by simpa using hi) h]
          omega

end Slots

/-! ## The invariant -/

/-- Every stored frame is in the slot its sequence number selects, and `stored_mpdu_num` counts
them. -/
structure SlotInv (r : WilTidAmpduRx) : Prop where
  bufSize_pos : 0 < r.bufSize
  bufSize_lt : r.bufSize < 65536
  length_eq : r.reorderBuf.length = r.bufSize
  head_lt : r.headSeqNum < 4096
  ssn_lt : r.ssn < 4096
  stored_eq : r.storedMpduNum = r.occupied
  slot_index : ∀ i skb, r.slot i = some skb → i = reorderIndex r skb.seq

/-- A session between two frames: what is stored is less than `buf_size` ahead of the head. -/
structure WindowInv (r : WilTidAmpduRx) : Prop extends SlotInv r where
  window : ∀ i skb, r.slot i = some skb → seqSub skb.seq r.headSeqNum < r.bufSize

/-- The slot of the head holds nothing: no frame could be delivered right now. -/
def HeadEmpty (r : WilTidAmpduRx) : Prop := r.slot (reorderIndex r r.headSeqNum) = none

section Invariant

variable {r : WilTidAmpduRx}

lemma SlotInv.reorderIndex_lt (h : SlotInv r) (seq : ℕ) :
    reorderIndex r seq < r.reorderBuf.length := by
  rw [h.length_eq]
  exact Nat.mod_lt _ h.bufSize_pos

lemma SlotInv.occupied_lt (h : SlotInv r) : r.occupied < 65536 :=
  lt_of_le_of_lt occupied_le_length (h.length_eq ▸ h.bufSize_lt)

/-- **A slot identifies its frame**, when `buf_size` divides 4096: no two sequence numbers of the
window share a slot. -/
theorem WindowInv.seq_eq_of_slot (h : WindowInv r) (hdvd : r.bufSize ∣ 4096) {seq : ℕ}
    {skb : RxSkb} (hlt : seq < 4096) (hwin : seqSub seq r.headSeqNum < r.bufSize)
    (hs : r.slot (reorderIndex r seq) = some skb) : skb.seq = seq := by
  have hidx : reorderIndex r seq = reorderIndex r skb.seq := h.slot_index _ _ hs
  have hskb := h.window _ _ hs
  have hseq := skb.seq_lt
  have hhead := h.head_lt
  have hnear : seqSub skb.seq seq < r.bufSize ∨ seqSub seq skb.seq < r.bufSize := by
    simp only [seqSub] at *
    omega
  rcases hnear with hlt' | hlt'
  · exact Serial.eq_of_slot_eq hdvd skb.seq_lt hlt hlt' hidx.symm
  · exact (Serial.eq_of_slot_eq hdvd hlt skb.seq_lt hlt' hidx).symm

/-- In particular the head slot holds the frame that the head waits for. -/
lemma WindowInv.head_slot (h : WindowInv r) (hdvd : r.bufSize ∣ 4096) {skb : RxSkb}
    (hs : r.slot (reorderIndex r r.headSeqNum) = some skb) : skb.seq = r.headSeqNum := by
  refine h.seq_eq_of_slot hdvd h.head_lt ?_ hs
  have := h.bufSize_pos
  simp only [seqSub]
  omega

/-- A new session is empty. -/
lemma slot_alloc {size ssn : ℕ} (hr : wilTidAmpduRxAlloc true size ssn = some r) (i : ℕ) :
    r.slot i = none := by
  simp only [wilTidAmpduRxAlloc, if_true, Option.some.injEq] at hr
  subst hr
  rw [WilTidAmpduRx.slot, List.getD_eq_getElem?_getD, List.getElem?_replicate]
  split_ifs <;> rfl

/-- A new session satisfies the invariant. -/
theorem windowInv_alloc {size ssn : ℕ} (hpos : 0 < size) (hlt : size < 65536) (hssn : ssn < 4096)
    (hr : wilTidAmpduRxAlloc true size ssn = some r) :
    WindowInv r ∧ r.bufSize = size ∧ r.ssn = ssn ∧ r.headSeqNum = ssn ∧ r.storedMpduNum = 0 := by
  have hempty := slot_alloc hr
  have hocc : r.occupied = 0 := occupied_eq_zero_iff.mpr hempty
  simp only [wilTidAmpduRxAlloc, if_true, Option.some.injEq] at hr
  have hsize : u16 size = size := Nat.mod_eq_of_lt hlt
  have hss : u16 ssn = ssn := Nat.mod_eq_of_lt (by omega)
  rw [hsize, hss] at hr
  subst hr
  refine ⟨⟨⟨hpos, hlt, by simp, hssn, hssn, hocc.symm, ?_⟩, ?_⟩, rfl, rfl, rfl, rfl⟩ <;>
    · rintro i skb hi
      rw [hempty] at hi
      exact absurd hi (by simp)

/-! ## One advance of the head -/

/-- After one advance at the head slot, the slot is empty and all others are as before. -/
lemma slot_release (h : SlotInv r) (i : ℕ) :
    (wilReleaseReorderFrame r (reorderIndex r r.headSeqNum)).1.slot i
      = if i = reorderIndex r r.headSeqNum then none else r.slot i := by
  have := slot_set (i := i) (r := r) none (h.reorderIndex_lt r.headSeqNum)
  rw [← this]
  simp only [WilTidAmpduRx.slot, wilReleaseReorderFrame_buf]

lemma stored_release (h : SlotInv r) :
    (wilReleaseReorderFrame r (reorderIndex r r.headSeqNum)).1.storedMpduNum
      = (wilReleaseReorderFrame r (reorderIndex r r.headSeqNum)).1.occupied := by
  cases hs : r.slot (reorderIndex r r.headSeqNum) with
  | none =>
      have hrel : wilReleaseReorderFrame r (reorderIndex r r.headSeqNum)
          = ({ r with headSeqNum := seqInc r.headSeqNum }, .headInc none) := by
        simp only [wilReleaseReorderFrame, hs]
      rw [hrel]
      exact h.stored_eq
  | some skb =>
      have hocc := occupied_wilReleaseReorderFrame
        (show (r.slot (reorderIndex r r.headSeqNum)).isSome by rw [hs]; rfl)
      have hst : (wilReleaseReorderFrame r (reorderIndex r r.headSeqNum)).1.storedMpduNum
          = u16 (r.storedMpduNum + 0xffff) := by
        simp only [wilReleaseReorderFrame, hs]
      have hlt := h.occupied_lt
      rw [hst, h.stored_eq, u16]
      omega

lemma SlotInv.release (h : SlotInv r) :
    SlotInv (wilReleaseReorderFrame r (reorderIndex r r.headSeqNum)).1 where
  bufSize_pos := by simpa using h.bufSize_pos
  bufSize_lt := by simpa using h.bufSize_lt
  length_eq := by simpa [wilReleaseReorderFrame_buf] using h.length_eq
  head_lt := by simpa using seqInc_lt _
  ssn_lt := by simpa using h.ssn_lt
  stored_eq := stored_release h
  slot_index := by
    rintro i skb hi
    rw [slot_release h] at hi
    split_ifs at hi with hne
    simpa [reorderIndex] using h.slot_index i skb hi

/-- **One advance of the head keeps the invariant.**  A frame at distance `0` from the head is in
the slot that was just emptied; every other frame comes one closer. -/
theorem WindowInv.release (h : WindowInv r) :
    WindowInv (wilReleaseReorderFrame r (reorderIndex r r.headSeqNum)).1 where
  toSlotInv := h.toSlotInv.release
  window := by
    rintro i skb hi
    rw [slot_release h.toSlotInv] at hi
    split_ifs at hi with hne
    have hidx := h.slot_index i skb hi
    have hwin := h.window i skb hi
    have hpos : seqSub skb.seq r.headSeqNum ≠ 0 := by
      intro h0
      have heq : skb.seq = r.headSeqNum := Serial.eq_of_sub_eq_zero skb.seq_lt h.head_lt h0
      exact hne (heq ▸ hidx)
    simp only [wilReleaseReorderFrame_head, wilReleaseReorderFrame_bufSize]
    simp only [seqSub, seqInc] at *
    omega

/-! ## Storing a frame -/

/-- The session with `skb` put in its slot. -/
def storeFrame (r : WilTidAmpduRx) (skb : RxSkb) : WilTidAmpduRx :=
  { r with
    reorderBuf := r.reorderBuf.set (reorderIndex r skb.seq) (some skb)
    storedMpduNum := u16 (r.storedMpduNum + 1) }

variable {skb : RxSkb}

lemma slot_storeFrame (h : SlotInv r) (skb : RxSkb) (i : ℕ) :
    (storeFrame r skb).slot i = if i = reorderIndex r skb.seq then some skb else r.slot i :=
  slot_set (r := r) (some skb) (h.reorderIndex_lt skb.seq)

lemma occupied_storeFrame (h : SlotInv r) (hslot : r.slot (reorderIndex r skb.seq) = none) :
    (storeFrame r skb).occupied = r.occupied + 1 :=
  countP_set_some (h.reorderIndex_lt skb.seq) hslot

lemma SlotInv.storeFrame (h : SlotInv r) (hslot : r.slot (reorderIndex r skb.seq) = none) :
    SlotInv (Wil6210.storeFrame r skb) where
  bufSize_pos := h.bufSize_pos
  bufSize_lt := h.bufSize_lt
  length_eq := by simpa [Wil6210.storeFrame] using h.length_eq
  head_lt := h.head_lt
  ssn_lt := h.ssn_lt
  stored_eq := by
    have hocc := occupied_storeFrame h hslot
    have hle : (Wil6210.storeFrame r skb).occupied ≤ r.bufSize := by
      rw [← h.length_eq]
      simpa [Wil6210.storeFrame] using occupied_le_length (r := Wil6210.storeFrame r skb)
    have hlt := h.bufSize_lt
    rw [hocc] at hle ⊢
    simp only [Wil6210.storeFrame, u16, h.stored_eq]
    omega
  slot_index := by
    rintro i f hi
    rw [slot_storeFrame h] at hi
    split_ifs at hi with heq
    · obtain rfl : skb = f := by simpa using hi
      exact heq
    · exact h.slot_index i f hi

/-- Storing a frame of the window in its empty slot keeps the invariant. -/
lemma WindowInv.storeFrame (h : WindowInv r) (hslot : r.slot (reorderIndex r skb.seq) = none)
    (hwin : seqSub skb.seq r.headSeqNum < r.bufSize) :
    WindowInv (Wil6210.storeFrame r skb) where
  toSlotInv := h.toSlotInv.storeFrame hslot
  window := by
    rintro i f hi
    rw [slot_storeFrame h.toSlotInv] at hi
    split_ifs at hi with heq
    · obtain rfl : skb = f := by simpa using hi
      exact hwin
    · exact h.window i f hi

/-- Delivering the awaited frame directly from an empty buffer. -/
lemma WindowInv.direct (h : WindowInv r) (hstored : r.storedMpduNum = 0) :
    WindowInv { r with headSeqNum := seqInc r.headSeqNum } ∧ ∀ i, r.slot i = none := by
  have hall : ∀ i, r.slot i = none := by
    rw [← occupied_eq_zero_iff, ← h.stored_eq]
    exact hstored
  refine ⟨⟨⟨h.bufSize_pos, h.bufSize_lt, h.length_eq, seqInc_lt _, h.ssn_lt, h.stored_eq,
    h.slot_index⟩, ?_⟩, hall⟩
  rintro i f hi
  exact absurd ((hall i).symm.trans hi) (by simp)

end Invariant

end Wil6210
