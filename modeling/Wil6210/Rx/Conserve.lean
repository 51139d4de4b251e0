import Mathlib.Data.List.ReduceOption
import Wil6210.Rx.Order

/-!
# No frame is leaked or freed twice

A session conserves frames: what was passed to `wil_rx_reorder` is what was handed over, what was
freed, and what the slots hold, each copy once.  This needs no assumption on the window size.  Where
`buf_size` does not divide 4096 two numbers of the window may share a slot, so the head may deliver
a frame before its turn, and a new frame may be freed although it is not stored; but a slot is
written only where it is empty, and emptied only by handing its frame over.

A window of one frame is a case of its own (`conserved_store_one`): there a frame half the sequence
space ahead is stored without an advance of the head, outside of the window, and handed over in the
same call.
-/

namespace Wil6210

/-! ## Where the frames are -/

/-- The frames that are freed, as out of date or as already stored. -/
def freed (es : List RxEvent) : List RxSkb :=
  es.filterMap fun
    | .headInc _ => none
    | .netifRx _ => none
    | .kfreeStale skb => some skb
    | .kfreeDup skb => some skb

/-- The frames that a session holds, slot by slot. -/
def WilTidAmpduRx.frames (r : WilTidAmpduRx) : List RxSkb := r.reorderBuf.reduceOption

/-- How many copies of `f` are handed over, freed, or stored. -/
def copies (f : RxSkb) (es : List RxEvent) (r : WilTidAmpduRx) : ℕ :=
  (handedOver es).count f + (freed es).count f + r.frames.count f

variable {r : WilTidAmpduRx} {skb : RxSkb}

lemma frames_eq_nil (h : ∀ i, r.slot i = none) : r.frames = [] := by
  have hocc := occupied_eq_zero_iff.mpr h
  rw [WilTidAmpduRx.occupied, List.countP_eq_length_filter] at hocc
  rw [← List.length_eq_zero_iff, WilTidAmpduRx.frames, List.reduceOption_length_eq, hocc]

@[simp] lemma freed_append (es fs : List RxEvent) : freed (es ++ fs) = freed es ++ freed fs := by
  simp [freed]

lemma copies_append (f : RxSkb) (es fs : List RxEvent) (r : WilTidAmpduRx) :
    copies f (es ++ fs) r
      = (handedOver es).count f + (freed es).count f + copies f fs r := by
  simp only [copies, handedOver_append, freed_append, List.count_append]
  omega

@[simp] lemma copies_nil (f : RxSkb) (r : WilTidAmpduRx) : copies f [] r = r.frames.count f := by
  simp [copies, handedOver, freed]

/-- Filling an empty place of a buffer adds a copy. -/
lemma count_reduceOption_set_some {l : List (Option RxSkb)} {i : ℕ} (hi : i < l.length)
    (h : l.getD i none = none) (f : RxSkb) :
    (l.set i (some skb)).reduceOption.count f
      = l.reduceOption.count f + if skb = f then 1 else 0 := by
  induction l generalizing i with
  | nil => simp at hi
  | cons o l ih =>
      cases i with
      | zero =>
          rw [List.getD_cons_zero] at h
          subst h
          simp [List.count_cons]
      | succ i =>
          rw [List.getD_cons_succ] at h
          have hrest := ih (by simpa using hi) h
          cases o with
          | none => simpa using hrest
          | some g =>
              simp only [List.set_cons_succ, List.reduceOption_cons_of_some, List.count_cons,
                hrest]
              omega

/-- Emptying a place takes its copy away. -/
lemma count_reduceOption_set_none {l : List (Option RxSkb)} {i : ℕ}
    (h : l.getD i none = some skb) (f : RxSkb) :
    (l.set i none).reduceOption.count f + (if skb = f then 1 else 0)
      = l.reduceOption.count f := by
  induction l generalizing i with
  | nil => simp at h
  | cons o l ih =>
      cases i with
      | zero =>
          rw [List.getD_cons_zero] at h
          subst h
          simp [List.count_cons]
      | succ i =>
          rw [List.getD_cons_succ] at h
          have hrest := ih h
          cases o with
          | none => simpa using hrest
          | some g =>
              simp only [List.set_cons_succ, List.reduceOption_cons_of_some, List.count_cons,
                ← hrest]
              omega

/-! ## The release loops -/

/-- **One advance of the head** moves the frame of the head slot, if any, from the buffer to the
stack. -/
lemma copies_advance (f : RxSkb) (r : WilTidAmpduRx) :
    copies f [(advance r).2] (advance r).1 = r.frames.count f := by
  cases hs : r.slot (reorderIndex r r.headSeqNum) with
  | none => simp [copies, advance, wilReleaseReorderFrame, hs, handedOver, freed,
      WilTidAmpduRx.frames]
  | some skb =>
      have hcount := count_reduceOption_set_none (l := r.reorderBuf) hs f
      simp only [copies, advance, wilReleaseReorderFrame, hs, handedOver, freed,
        WilTidAmpduRx.frames, List.filterMap_cons, List.filterMap_nil, List.count_cons,
        List.count_nil, beq_iff_eq]
      omega

/-- **Any number of advances.** -/
lemma copies_advanceN (f : RxSkb) (n : ℕ) (r : WilTidAmpduRx) :
    copies f (advanceN n r).2 (advanceN n r).1 = r.frames.count f := by
  induction n generalizing r with
  | zero => exact copies_nil f r
  | succ n ih =>
      have hfirst := copies_advance f r
      rw [advanceN_succ, ← List.singleton_append, copies_append, ih]
      exact hfirst

/-- Advances free nothing. -/
lemma freed_advanceN (n : ℕ) (r : WilTidAmpduRx) : freed (advanceN n r).2 = [] := by
  induction n generalizing r with
  | zero => rfl
  | succ n ih =>
      obtain ⟨o, ho⟩ := advance_headInc r
      rw [advanceN_succ, ho]
      simpa [freed] using ih (advance r).1

/-- Every advance brings the stored frames one position closer to the head. -/
lemma WindowInv.closer (h : WindowInv r) (n : ℕ) :
    ∀ i skb, (Wil6210.advanceN n r).1.slot i = some skb →
      seqSub skb.seq (Wil6210.advanceN n r).1.headSeqNum + n < r.bufSize := by
  induction n with
  | zero => exact h.window
  | succ n ih =>
      rintro i skb hi
      have hinv := h.advanceN n
      rw [advanceN_succ', advance, slot_release hinv.toSlotInv] at hi
      split_ifs at hi with hne
      have hclose := ih i skb hi
      have hpos : seqSub skb.seq (Wil6210.advanceN n r).1.headSeqNum ≠ 0 := by
        intro h0
        have heq := Serial.eq_of_sub_eq_zero skb.seq_lt hinv.head_lt h0
        exact hne (heq ▸ hinv.slot_index i skb hi)
      rw [advanceN_succ', advance, wilReleaseReorderFrame_head]
      simp only [seqSub, seqInc] at *
      omega

/-! ## One call -/

/-- What a call does with a frame: the session is as it should be between two frames, and no copy
of any frame is lost or made. -/
structure ConservingCall (r : WilTidAmpduRx) (skb : RxSkb) (p : WilTidAmpduRx × List RxEvent) :
    Prop where
  inv : WindowInv p.1
  bufSize_eq : p.1.bufSize = r.bufSize
  copies_eq : ∀ f, copies f p.2 p.1 = r.frames.count f + if skb = f then 1 else 0

/-- A frame that is stored, and what is then released. -/
lemma copies_storeFrame (h : SlotInv r) (hslot : r.slot (reorderIndex r skb.seq) = none) (n : ℕ)
    (f : RxSkb) :
    copies f (advanceN n (storeFrame r skb)).2 (advanceN n (storeFrame r skb)).1
      = r.frames.count f + if skb = f then 1 else 0 := by
  rw [copies_advanceN]
  exact count_reduceOption_set_some (h.reorderIndex_lt skb.seq) hslot f

/-- The frame is freed, handed over, or stored: in the last case the window has to be looked at. -/
lemma conserved_store_of (h : WindowInv r)
    (hstored : r.slot (reorderIndex r skb.seq) = none → ∀ n,
      HeadEmpty (advanceN n (storeFrame r skb)).1 → WindowInv (advanceN n (storeFrame r skb)).1) :
    ConservingCall r skb (wilRxReorderStore r skb) := by
  rw [wilRxReorderStore_eq]
  split_ifs with hdup hdirect
  · refine ⟨h, rfl, fun f => ?_⟩
    simp [copies, handedOver, freed, List.count_singleton]
    omega
  · obtain ⟨hinv, -⟩ := h.direct hdirect.2
    refine ⟨hinv, rfl, fun f => ?_⟩
    simp [copies, handedOver, freed, List.count_singleton, WilTidAmpduRx.frames]
    omega
  · have hslot : r.slot (reorderIndex r skb.seq) = none := by simpa using hdup
    obtain ⟨n, heq, hempty, -⟩ := wilReorderRelease_eq (storeFrame r skb)
    rw [heq]
    exact ⟨hstored hslot n hempty, by simp [storeFrame], copies_storeFrame h.toSlotInv hslot n⟩

/-- **A frame of the window.** -/
lemma conserved_store (h : WindowInv r) (hwin : seqSub skb.seq r.headSeqNum < r.bufSize) :
    ConservingCall r skb (wilRxReorderStore r skb) :=
  conserved_store_of h fun hslot n _ => (h.storeFrame hslot hwin).advanceN n

/-- **A window of one frame.**  The only slot is empty when the call ends, whatever was stored in
it. -/
lemma conserved_store_one (h : WindowInv r) (hone : r.bufSize = 1) (skb : RxSkb) :
    ConservingCall r skb (wilRxReorderStore r skb) := by
  refine conserved_store_of h fun hslot n hempty => ?_
  have hinv := (h.toSlotInv.storeFrame hslot).advanceN n
  refine ⟨hinv, fun i g hi => ?_⟩
  have hsize : (advanceN n (storeFrame r skb)).1.bufSize = 1 := by simp [storeFrame, hone]
  have hindex := hinv.slot_index i g hi
  rw [reorderIndex, hsize, Nat.mod_one] at hindex
  rw [HeadEmpty, reorderIndex, hsize, Nat.mod_one, ← hindex, hi] at hempty
  exact absurd hempty (by simp)

/-- **One call of `wil_rx_reorder` on a session.** -/
theorem conservingCall (h : WindowInv r) (hsize : r.bufSize < 256) (skb : RxSkb) :
    ∃ r', (wilRxReorder (some r) skb).1 = some r' ∧
      ConservingCall r skb (r', (wilRxReorder (some r) skb).2) := by
  have hstale : ConservingCall r skb ({ r with ssnLastDrop := skb.seq }, [.kfreeStale skb]) := by
    refine ⟨⟨⟨h.bufSize_pos, h.bufSize_lt, h.length_eq, h.head_lt, h.ssn_lt, h.stored_eq,
      h.slot_index⟩, h.window⟩, rfl, fun f => ?_⟩
    simp [copies, handedOver, freed, List.count_singleton, WilTidAmpduRx.frames]
    omega
  have hafter : ∀ k, ConservingCall (advanceN k r).1 skb (wilRxReorderStore (advanceN k r).1 skb) →
      ConservingCall r skb ((wilRxReorderStore (advanceN k r).1 skb).1,
        (advanceN k r).2 ++ (wilRxReorderStore (advanceN k r).1 skb).2) := by
    rintro k hcall
    refine ⟨hcall.inv, by simpa using hcall.bufSize_eq, fun f => ?_⟩
    have hpasses := copies_advanceN f k r
    rw [copies] at hpasses
    rw [copies_append, hcall.copies_eq]
    omega
  rcases Nat.lt_or_ge 1 r.bufSize with hlo | hone
  · rcases wilRxReorder_cases h.head_lt hlo (by omega) skb with ⟨-, heq⟩ | ⟨k, heq, hwin, -⟩
    · rw [heq]
      exact ⟨_, rfl, hstale⟩
    · rw [heq]
      exact ⟨_, rfl, hafter k (conserved_store (h.advanceN k) (by simpa using hwin))⟩
  · have hone : r.bufSize = 1 := Nat.le_antisymm hone h.bufSize_pos
    have hstore : ∀ k, ConservingCall (advanceN k r).1 skb
        (wilRxReorderStore (advanceN k r).1 skb) :=
      fun k => conserved_store_one (h.advanceN k) (by simpa using hone) skb
    rw [wilRxReorder_some]
    split_ifs
    · exact ⟨_, rfl, hstale⟩
    · exact ⟨_, rfl, hstore 0⟩
    · exact ⟨_, rfl, hafter _ (hstore _)⟩

/-! ## Runs -/

/-- A run keeps what a call keeps. -/
lemma conserving_run (fs : List RxSkb) :
    ∀ {s : WilTidAmpduRx}, WindowInv s → s.bufSize < 256 →
      ∃ s', (Machine.run wilRxReorder (some s) fs).1 = some s' ∧ WindowInv s' ∧
        s'.bufSize = s.bufSize ∧
        ∀ f, copies f (Machine.run wilRxReorder (some s) fs).2 s'
          = s.frames.count f + fs.count f := by
  induction fs with
  | nil =>
      rintro s hinv -
      exact ⟨s, rfl, hinv, rfl, fun f => by simp⟩
  | cons skb fs ih =>
      rintro s hinv hsize
      obtain ⟨t, ht, hcall⟩ := conservingCall hinv hsize skb
      obtain ⟨s', hs', hinv', hbuf', hcopies⟩ := ih hcall.inv (hcall.bufSize_eq ▸ hsize)
      rw [Machine.run_cons, ht]
      refine ⟨s', hs', hinv', hbuf'.trans hcall.bufSize_eq, fun f => ?_⟩
      have hfirst := hcall.copies_eq f
      rw [copies] at hfirst
      rw [copies_append, hcopies, List.count_cons]
      simp only [beq_iff_eq] at *
      omega

/-- What holds of a session to which the frames `fs` were passed, with the trace `es`. -/
structure Conserved (fs : List RxSkb) (es : List RxEvent) (r : WilTidAmpduRx) : Prop where
  head_lt : r.headSeqNum < 4096
  stored_eq : r.storedMpduNum = r.occupied
  slot : ∀ i skb, r.slot i = some skb →
    i = reorderIndex r skb.seq ∧ seqSub skb.seq r.headSeqNum < r.bufSize
  /-- Every frame was handed over, or freed, or is in a slot. -/
  conserved : (handedOver es ++ freed es ++ r.frames).Perm fs
  /-- `wil_tid_ampdu_rx_free` hands over what is stored, and nothing else. -/
  flushed : (handedOver (wilTidAmpduRxFree (some r))).Perm r.frames ∧
    freed (wilTidAmpduRxFree (some r)) = []
  /-- It leaves no slot occupied. -/
  empty : ∀ i, (wilReleaseReorderFrames r (u16 (r.headSeqNum + r.bufSize))).1.slot i = none

/-- The loop of `wil_tid_ampdu_rx_free` passes the whole window. -/
lemma releaseCount_free (hpos : 0 < r.bufSize) (hsize : r.bufSize < 256)
    (hhead : r.headSeqNum < 4096) :
    releaseCount r (u16 (r.headSeqNum + r.bufSize)) = r.bufSize := by
  have hmod : u16 (r.headSeqNum + r.bufSize) = r.headSeqNum + r.bufSize :=
    Nat.mod_eq_of_lt (by omega)
  rw [releaseCount, hmod, if_pos]
  · simp only [seqSub]
    omega
  · simp only [seqLess, seqSub]
    omega

/-- `wil_tid_ampdu_rx_free` passes the whole window. -/
lemma WindowInv.free_eq (h : WindowInv r) (hsize : r.bufSize < 256) :
    wilReleaseReorderFrames r (u16 (r.headSeqNum + r.bufSize)) = Wil6210.advanceN r.bufSize r := by
  rw [wilReleaseReorderFrames_eq, releaseCount_free h.bufSize_pos hsize h.head_lt]

/-- It leaves no slot occupied. -/
lemma WindowInv.free_empty (h : WindowInv r) (i : ℕ) :
    (Wil6210.advanceN r.bufSize r).1.slot i = none := by
  by_contra hne
  obtain ⟨skb, hskb⟩ := Option.ne_none_iff_exists'.mp hne
  have hclose := h.closer r.bufSize i skb hskb
  omega

/-- **It hands over what is stored**, each frame once, and nothing else. -/
lemma WindowInv.flushed (h : WindowInv r) (hsize : r.bufSize < 256) :
    (handedOver (wilTidAmpduRxFree (some r))).Perm r.frames ∧
      freed (wilTidAmpduRxFree (some r)) = [] := by
  rw [wilTidAmpduRxFree, h.free_eq hsize]
  refine ⟨List.perm_iff_count.mpr fun f => ?_, freed_advanceN _ _⟩
  have hf := copies_advanceN f r.bufSize r
  have hlast := frames_eq_nil h.free_empty
  simpa [copies, freed_advanceN, hlast] using hf

/-- **Conservation.**  For every window of 1 to 255 frames, a power of two or not, and whatever
frames arrive. -/
theorem wilRxReorder_conserves {size ssn : ℕ} {r : WilTidAmpduRx} (hpos : 0 < size)
    (hsize : size ≤ 255) (hssn : ssn < 4096) (hr : wilTidAmpduRxAlloc true size ssn = some r)
    (fs : List RxSkb) :
    ∃ r', (Machine.run wilRxReorder (some r) fs).1 = some r' ∧
      Conserved fs (Machine.run wilRxReorder (some r) fs).2 r' := by
  obtain ⟨hinv, hbuf, -⟩ := windowInv_alloc hpos (by omega) hssn hr
  have hnone : r.frames = [] := by
    simp only [wilTidAmpduRxAlloc, if_true, Option.some.injEq] at hr
    rw [WilTidAmpduRx.frames, ← hr, List.reduceOption_replicate_none]
  obtain ⟨r', hr', hinv', hbuf', hcopies⟩ := conserving_run fs hinv (by omega)
  have hsize' : r'.bufSize < 256 := by omega
  refine ⟨r', hr', hinv'.head_lt, hinv'.stored_eq,
    fun i skb hi => ⟨hinv'.slot_index i skb hi, hinv'.window i skb hi⟩, ?_,
    hinv'.flushed hsize', ?_⟩
  · refine List.perm_iff_count.mpr fun f => ?_
    have hf := hcopies f
    rw [hnone, List.count_nil, copies] at hf
    simpa [List.count_append, Nat.add_assoc] using hf
  · rw [hinv'.free_eq hsize']
    exact hinv'.free_empty

/-- A window of three across the wrap, where 4095 and 0 share a slot. -/
theorem wilRxReorder_conserves_three :
    ∃ r r', wilTidAmpduRxAlloc true 3 0 = some r ∧
      (Machine.run wilRxReorder (some r) ([4093, 2047, 4095, 0, 1].map seqFrame)).1 = some r' ∧
      r'.storedMpduNum = r'.occupied := by
  obtain ⟨r', hr', h⟩ := wilRxReorder_conserves (by norm_num) (by norm_num) (by norm_num)
    (show wilTidAmpduRxAlloc true 3 0 = some _ from rfl) ([4093, 2047, 4095, 0, 1].map seqFrame)
  exact ⟨_, r', rfl, hr', h.stored_eq⟩

end Wil6210
