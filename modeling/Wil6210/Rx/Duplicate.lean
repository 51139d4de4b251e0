import Wil6210.Rx.Order

/-!
# When a duplicate is a duplicate

The "already stored this frame" branch of `wil_rx_reorder` only looks at whether the slot is
occupied.  `HonestDrop` says that it is right: the frame it frees has the sequence number of a
frame that is stored at that moment.

The branch is right over all runs exactly when `buf_size` divides 4096
(`honestDrop_iff_dvd`).  Otherwise the numbering of the slots jumps where the sequence numbers
wrap around to `ssn`, and two different frames of one window meet in one slot: with 4095 stored,
the frame `4096 % buf_size` further on is taken for a duplicate of it (`not_honestDrop`).
-/

namespace Wil6210

variable {r : WilTidAmpduRx} {skb : RxSkb}

/-- Every frame freed as already stored is stored: `p` is the result of a call.  The branch changes
nothing, so the buffer after the call is the buffer at that moment. -/
def HonestDrop (p : Option WilTidAmpduRx × List RxEvent) : Prop :=
  ∀ skb, .kfreeDup skb ∈ p.2 →
    ∃ r', p.1 = some r' ∧ ∃ i f, r'.slot i = some f ∧ f.seq = skb.seq

/-- The session's buffer sizes that `wil_back_handle` (`min(16, requested)`) and
`wmi_evt_ba_status` (a `u8`) can ask for, zero excluded. -/
def DriverWindow (size : ℕ) : Prop := 0 < size ∧ size < 256

/-! ## Window sizes that divide 4096 -/

lemma kfreeDup_notMem_advanceN (n : ℕ) (r : WilTidAmpduRx) :
    .kfreeDup skb ∉ (advanceN n r).2 := by
  induction n generalizing r with
  | zero => simp [advanceN]
  | succ n ih =>
      rw [advanceN_succ, List.mem_cons, not_or]
      refine ⟨?_, ih _⟩
      simp only [advance, wilReleaseReorderFrame]
      split <;> simp

/-- The part of a call behind the window advance. -/
lemma kfreeDup_store {f : RxSkb} (h : .kfreeDup f ∈ (wilRxReorderStore r skb).2) :
    f = skb ∧ (wilRxReorderStore r skb).1 = r ∧ ∃ g, r.slot (reorderIndex r skb.seq) = some g := by
  rw [wilRxReorderStore_eq] at h ⊢
  split_ifs at h ⊢ with hdup hdirect
  · exact ⟨by simpa using h, rfl, Option.isSome_iff_exists.mp hdup⟩
  · simp at h
  · obtain ⟨n, heq, -, -⟩ := wilReorderRelease_eq (storeFrame r skb)
    rw [heq] at h
    exact absurd h (kfreeDup_notMem_advanceN n _)

/-- In a session whose slots identify their frames, the branch is right. -/
theorem honestDrop_of_dvd (h : WindowInv r) (hdvd : r.bufSize ∣ 4096) (hlo : 2 ≤ r.bufSize)
    (skb : RxSkb) : HonestDrop (wilRxReorder (some r) skb) := by
  rintro f hf
  rcases wilRxReorder_cases h.head_lt hlo (Nat.le_of_dvd (by norm_num) hdvd) skb with
    ⟨-, heq⟩ | ⟨k, heq, hwin, -⟩
  · simp [heq] at hf
  · rw [heq] at hf ⊢
    rcases List.mem_append.mp hf with hf | hf
    · exact absurd hf (kfreeDup_notMem_advanceN k r)
    · obtain ⟨rfl, hsame, g, hg⟩ := kfreeDup_store hf
      refine ⟨_, rfl, reorderIndex (advanceN k r).1 f.seq, g, by rw [hsame]; exact hg, ?_⟩
      exact (h.advanceN k).seq_eq_of_slot (by simpa using hdvd) f.seq_lt (by simpa using hwin) hg

/-! ### A single slot

With one slot nothing survives a call, so the branch is never taken.  Here a frame can be stored
outside the window (2048 ahead of the head), but the release that follows takes it out again. -/

lemma slot_of_one (hone : r.bufSize = 1) (h : SlotInv r) (hempty : HeadEmpty r) (i : ℕ) :
    r.slot i = none := by
  by_contra hne
  obtain ⟨f, hf⟩ := Option.ne_none_iff_exists'.mp hne
  have hi := h.slot_index i f hf
  rw [reorderIndex, hone, Nat.mod_one] at hi
  subst hi
  rw [HeadEmpty, reorderIndex, hone, Nat.mod_one] at hempty
  exact absurd (hempty.symm.trans hf) (by simp)

lemma store_of_one (hone : r.bufSize = 1) (h : SlotInv r) (hall : ∀ i, r.slot i = none)
    (skb : RxSkb) :
    SlotInv (wilRxReorderStore r skb).1 ∧ HeadEmpty (wilRxReorderStore r skb).1 ∧
      (wilRxReorderStore r skb).1.bufSize = 1 ∧
      ∀ f, .kfreeDup f ∉ (wilRxReorderStore r skb).2 := by
  have hstate : SlotInv (wilRxReorderStore r skb).1 ∧ HeadEmpty (wilRxReorderStore r skb).1 ∧
      (wilRxReorderStore r skb).1.bufSize = 1 := by
    rw [wilRxReorderStore_eq]
    split_ifs with hdup hdirect
    · exact ⟨h, hall _, hone⟩
    · exact ⟨⟨h.bufSize_pos, h.bufSize_lt, h.length_eq, seqInc_lt _, h.ssn_lt, h.stored_eq,
        h.slot_index⟩, hall _, hone⟩
    · obtain ⟨n, heq, hempty, -⟩ := wilReorderRelease_eq (storeFrame r skb)
      rw [heq]
      exact ⟨(h.storeFrame (hall _)).advanceN n, hempty, by rw [advanceN_bufSize]; exact hone⟩
  refine ⟨hstate.1, hstate.2.1, hstate.2.2, ?_⟩
  intro f hf
  obtain ⟨-, -, g, hg⟩ := kfreeDup_store hf
  exact absurd ((hall _).symm.trans hg) (by simp)

lemma call_of_one (hone : r.bufSize = 1) (h : SlotInv r) (hempty : HeadEmpty r) (skb : RxSkb) :
    ∃ r', (wilRxReorder (some r) skb).1 = some r' ∧ r'.bufSize = 1 ∧ SlotInv r' ∧
      HeadEmpty r' ∧ HonestDrop (wilRxReorder (some r) skb) := by
  have hall := slot_of_one hone h hempty
  rw [wilRxReorder_some]
  split_ifs with hstale hjump
  · exact ⟨_, rfl, hone, ⟨h.bufSize_pos, h.bufSize_lt, h.length_eq, h.head_lt, h.ssn_lt,
      h.stored_eq, h.slot_index⟩, hempty, by rintro f hf; simp at hf⟩
  · obtain ⟨hinv, hhead, hbuf, hdup⟩ := store_of_one hone h hall skb
    exact ⟨_, rfl, hbuf, hinv, hhead, fun f hf => absurd hf (hdup f)⟩
  · set k := releaseCount r (seqInc (seqSub skb.seq r.bufSize))
    obtain ⟨hinv, hhead, hbuf, hdup⟩ := store_of_one (r := (advanceN k r).1)
      (by rw [advanceN_bufSize, hone]) (h.advanceN k)
      (fun i => slot_advanceN_of_none h (hall i) k) skb
    refine ⟨_, rfl, hbuf, hinv, hhead, fun f hf => ?_⟩
    rcases List.mem_append.mp hf with hf | hf
    · exact absurd hf (kfreeDup_notMem_advanceN k r)
    · exact absurd hf (hdup f)

/-! ## Window sizes that do not -/

/-- Frames that arrive in order are delivered one by one and leave nothing behind. -/
lemma run_in_order (h : SlotInv r) (hall : ∀ i, r.slot i = none) (hlt : r.bufSize < 2048)
    (m : ℕ) :
    (Machine.run wilRxReorder (some r)
        ((List.range m).map fun p => seqFrame ((r.headSeqNum + p) % 4096))).1
      = some { r with headSeqNum := (r.headSeqNum + m) % 4096 } := by
  induction m with
  | zero =>
      rw [List.range_zero, List.map_nil, Machine.run_nil, Nat.add_zero, Nat.mod_eq_of_lt h.head_lt]
  | succ m ih =>
      have hpos := h.bufSize_pos
      have hocc : r.occupied = 0 := occupied_eq_zero_iff.mpr hall
      rw [List.range_succ, List.map_append, List.map_singleton, Machine.run_concat, ih]
      set head := (r.headSeqNum + m) % 4096 with hhead
      have hseq : (seqFrame head).seq = head := seq_seqFrame (by omega)
      have hwin : seqSub (seqFrame head).seq head < r.bufSize := by
        rw [hseq]
        simp only [seqSub]
        omega
      have hslot : ¬ (({ r with headSeqNum := head } : WilTidAmpduRx).slot
          (reorderIndex { r with headSeqNum := head } (seqFrame head).seq)).isSome := by
        rw [show ({ r with headSeqNum := head } : WilTidAmpduRx).slot _ = r.slot _ from rfl, hall]
        simp
      rw [wilRxReorder_of_window (r := { r with headSeqNum := head }) hwin hlt,
        wilRxReorderStore_eq, if_neg hslot, if_pos ⟨hseq, by rw [h.stored_eq, hocc]⟩]
      simp only [seqInc, hhead]
      congr 2
      omega

/-- Two neighbours of the window are in different slots. -/
lemma reorderIndex_succ_ne (hlo : 2 ≤ r.bufSize) {p : ℕ} (hp : p + 1 < 4096) :
    reorderIndex r ((r.ssn + p) % 4096) ≠ reorderIndex r ((r.ssn + (p + 1)) % 4096) := by
  rw [reorderIndex, reorderIndex, seqSub_eq_sub, seqSub_eq_sub, Serial.sub_add_left (by omega),
    Serial.sub_add_left hp]
  intro heq
  have hdvd : r.bufSize ∣ p + 1 - p := (Nat.modEq_iff_dvd' (Nat.le_succ p)).mp heq
  rw [Nat.add_sub_cancel_left] at hdvd
  have := Nat.le_of_dvd (by norm_num) hdvd
  omega

/-- A frame for another slot than that of the head is stored where no other is, and stays. -/
lemma stored_alone (h : WindowInv r) (hall : ∀ i, r.slot i = none) (hlt : r.bufSize < 256)
    {skb : RxSkb} (hwin : seqSub skb.seq r.headSeqNum < r.bufSize)
    (hne : reorderIndex r r.headSeqNum ≠ reorderIndex r skb.seq) :
    (wilRxReorder (some r) skb).1 = some (storeFrame r skb) := by
  have hslot : ¬ (r.slot (reorderIndex r skb.seq)).isSome := by
    rw [hall]
    simp
  have hnot : ¬ (skb.seq = r.headSeqNum ∧ r.storedMpduNum = 0) :=
    fun hhead => hne (by rw [hhead.1])
  have hrelease : wilReorderRelease (storeFrame r skb) = (storeFrame r skb, []) := by
    rw [wilReorderRelease, dif_neg]
    rw [slot_storeFrame h.toSlotInv]
    rw [if_neg (show reorderIndex (storeFrame r skb) (storeFrame r skb).headSeqNum
      ≠ reorderIndex r skb.seq from hne)]
    rw [hall]
    simp
  rw [wilRxReorder_of_window hwin (by omega), wilRxReorderStore_eq, if_neg hslot, if_neg hnot,
    hrelease]

/-- It is still alone after one advance of the head. -/
lemma slot_advance_alone (h : WindowInv r) (hall : ∀ i, r.slot i = none) {skb : RxSkb}
    (hwin : seqSub skb.seq r.headSeqNum < r.bufSize)
    (hne : reorderIndex r r.headSeqNum ≠ reorderIndex r skb.seq) {k : ℕ} (hk : k = 0 ∨ k = 1)
    (i : ℕ) :
    (advanceN k (storeFrame r skb)).1.slot i
      = if i = reorderIndex r skb.seq then some skb else none := by
  have hinv := h.storeFrame (hall (reorderIndex r skb.seq)) hwin
  have hstore := slot_storeFrame h.toSlotInv skb i
  rw [hall] at hstore
  rcases hk with rfl | rfl
  · exact hstore
  · show (advance (storeFrame r skb)).1.slot i = _
    rw [advance, slot_release hinv.toSlotInv, hstore]
    split_ifs with h1 h2
    · exact absurd (h1.symm.trans h2) hne
    · rfl
    · rfl
    · rfl

/-- **A false duplicate.**  The head waits for the position 4094 after `ssn`; the frame of 4095 is
stored; the frame `4096 % buf_size` further on is freed as already stored, although it is not. -/
theorem not_honestDrop (h : WindowInv r) (hall : ∀ i, r.slot i = none) (hlt : r.bufSize < 256)
    (hdvd : ¬ r.bufSize ∣ 4096) (hhead : r.headSeqNum = (r.ssn + 4094) % 4096) :
    ∃ r', (wilRxReorder (some r) (seqFrame ((r.ssn + 4095) % 4096))).1 = some r' ∧
      ¬ HonestDrop (wilRxReorder (some r')
        (seqFrame ((r.ssn + (4095 + 4096 % r.bufSize)) % 4096))) := by
  have hpos := h.bufSize_pos
  have hlo : 2 ≤ r.bufSize := by
    by_contra hcon
    exact hdvd (by rw [show r.bufSize = 1 by omega]; exact one_dvd _)
  have hrem : 4096 % r.bufSize ≠ 0 := fun h0 => hdvd (Nat.dvd_of_mod_eq_zero h0)
  have hremlt : 4096 % r.bufSize < r.bufSize := Nat.mod_lt _ hpos
  have hthree : 3 ≤ r.bufSize := by
    by_contra hcon
    exact hdvd (by rw [show r.bufSize = 2 by omega]; norm_num)
  set ρ := 4096 % r.bufSize with hρ
  set x := seqFrame ((r.ssn + 4095) % 4096) with hx
  set y := seqFrame ((r.ssn + (4095 + ρ)) % 4096) with hy
  have hxseq : x.seq = (r.ssn + 4095) % 4096 := seq_seqFrame (Nat.mod_lt _ (by norm_num))
  have hyseq : y.seq = (r.ssn + (4095 + ρ)) % 4096 := seq_seqFrame (Nat.mod_lt _ (by norm_num))
  have hcollide : reorderIndex r x.seq = reorderIndex r y.seq := by
    rw [hxseq, hyseq]
    exact Serial.slot_collision (M := 4096) hpos (by omega) r.ssn
  have hne : reorderIndex r r.headSeqNum ≠ reorderIndex r x.seq := by
    rw [hhead, hxseq]
    exact reorderIndex_succ_ne hlo (by norm_num)
  -- the first frame is stored, and the head slot stays empty
  have hxwin : seqSub x.seq r.headSeqNum < r.bufSize := by
    rw [hxseq, hhead]
    simp only [seqSub]
    omega
  have hfirst := stored_alone h hall hlt hxwin hne
  refine ⟨storeFrame r x, hfirst, fun hhonest => ?_⟩
  rcases wilRxReorder_cases (r := storeFrame r x) h.head_lt hlo (by show r.bufSize ≤ 4096; omega) y
    with ⟨hstale, -⟩ | ⟨k, heq, -, hk⟩
  · change seqLess y.seq r.headSeqNum at hstale
    rw [hyseq, hhead] at hstale
    simp only [seqLess, seqSub] at hstale
    omega
  · -- at most one position is passed, and it is not the one of the stored frame
    have hk1 : k = 0 ∨ k = 1 := by
      rcases hk with rfl | ⟨m, hm, rfl, hmod⟩
      · exact .inl rfl
      · change (r.headSeqNum + m + r.bufSize) % 4096 = y.seq at hmod
        rw [hyseq, hhead] at hmod
        omega
    have hslots := slot_advance_alone h hall hxwin hne hk1
    have hdup : wilRxReorderStore (advanceN k (storeFrame r x)).1 y
        = ((advanceN k (storeFrame r x)).1, [.kfreeDup y]) := by
      have hocc : ((advanceN k (storeFrame r x)).1.slot
          (reorderIndex (advanceN k (storeFrame r x)).1 y.seq)).isSome := by
        rw [reorderIndex_advanceN, hslots]
        rw [if_pos (show reorderIndex (storeFrame r x) y.seq = reorderIndex r x.seq
          from hcollide.symm)]
        rfl
      rw [wilRxReorderStore_eq, if_pos hocc]
    rw [hdup] at heq
    obtain ⟨r', hr', i, f, hf, hseq⟩ := hhonest y (by rw [heq]; simp)
    rw [heq] at hr'
    obtain rfl : (advanceN k (storeFrame r x)).1 = r' := by simpa using hr'
    rw [hslots] at hf
    split_ifs at hf with hi
    obtain rfl : x = f := by simpa using hf
    rw [hxseq, hyseq] at hseq
    omega

/-- A run that ends in a false duplicate: `m = 4094` frames in order, the frame of 4095, and the
frame that shares its slot. -/
lemma exists_not_honestDrop (h : WindowInv r) (hall : ∀ i, r.slot i = none) (hlt : r.bufSize < 256)
    (hdvd : ¬ r.bufSize ∣ 4096) (hhead : r.headSeqNum = r.ssn) {m : ℕ} (hm : m = 4094) :
    ¬ HonestDrop (wilRxReorder (Machine.run wilRxReorder (some r)
      ((List.range m).map (fun p => seqFrame ((r.ssn + p) % 4096))
        ++ [seqFrame ((r.ssn + 4095) % 4096)])).1
      (seqFrame ((r.ssn + (4095 + 4096 % r.bufSize)) % 4096))) := by
  have hrun := run_in_order h.toSlotInv hall (by omega) m
  rw [hhead] at hrun
  have hinv : WindowInv { r with headSeqNum := (r.ssn + m) % 4096 } :=
    ⟨⟨h.bufSize_pos, h.bufSize_lt, h.length_eq, Nat.mod_lt _ (by norm_num), h.ssn_lt,
      h.stored_eq, h.slot_index⟩, fun i f hi => absurd ((hall i).symm.trans hi) (by simp)⟩
  obtain ⟨r', hr', hnot⟩ := not_honestDrop hinv hall hlt hdvd (by rw [← hm])
  rw [Machine.run_concat, hrun]
  simp only at hr' ⊢
  rw [hr']
  exact hnot

/-! ## The exact condition -/

/-- **A frame is freed as a duplicate only when it is one, over every run, exactly when the window
size divides 4096.** -/
theorem honestDrop_iff_dvd {size ssn : ℕ} (hsize : DriverWindow size) (hssn : ssn < 4096)
    (hr : wilTidAmpduRxAlloc true size ssn = some r) :
    (∀ frames skb, HonestDrop (wilRxReorder (Machine.run wilRxReorder (some r) frames).1 skb)) ↔
      size ∣ 4096 := by
  obtain ⟨hpos, hlt⟩ := hsize
  obtain ⟨hinv, hbuf, hs, hhead, hstored⟩ := windowInv_alloc hpos (by omega) hssn hr
  have hall := slot_alloc hr
  constructor
  · intro hhonest
    by_contra hdvd
    exact exists_not_honestDrop hinv hall (by omega) (by rwa [hbuf])
      (by rw [hhead, hs]) rfl (hhonest _ _)
  · rintro hdvd frames skb
    rcases Nat.lt_or_ge size 2 with hone | hlo
    · -- one slot: the branch is never taken
      have hrun : ∃ r', (Machine.run wilRxReorder (some r) frames).1 = some r' ∧
          r'.bufSize = 1 ∧ SlotInv r' ∧ HeadEmpty r' := by
        refine Machine.run_invariant
          (I := fun s => ∃ r', s = some r' ∧ r'.bufSize = 1 ∧ SlotInv r' ∧ HeadEmpty r')
          ?_ ⟨r, rfl, by omega, hinv.toSlotInv, hall _⟩ frames
        rintro s f ⟨t, rfl, hb, hi, he⟩
        obtain ⟨t', ht', hb', hi', he', -⟩ := call_of_one hb hi he f
        exact ⟨t', ht', hb', hi', he'⟩
      obtain ⟨r', hr', hb, hi, he⟩ := hrun
      rw [hr']
      exact (call_of_one hb hi he skb).choose_spec.2.2.2.2
    · obtain ⟨r', hr', hcall⟩ := orderedCall_run (hbuf ▸ hdvd) (hbuf ▸ hlo) frames hinv (hall _)
        rfl rfl (show r.headSeqNum = ssn % 4096 by rw [hhead, Nat.mod_eq_of_lt hssn])
      rw [hr']
      have hb : r'.bufSize = size := hcall.bufSize_eq.trans hbuf
      exact honestDrop_of_dvd hcall.inv (hb ▸ hdvd) (hb ▸ hlo) skb

/-- A window of 16, the largest that `wil_back_handle` grants. -/
theorem honestDrop_sixteen :
    ∃ r, wilTidAmpduRxAlloc true 16 7 = some r ∧
      ∀ frames skb, HonestDrop (wilRxReorder (Machine.run wilRxReorder (some r) frames).1 skb) :=
  ⟨_, rfl, (honestDrop_iff_dvd ⟨by norm_num, by norm_num⟩ (by norm_num) rfl).mpr (by norm_num)⟩

/-- A window of three: after 4094 frames in order and the frame of 4095, the frame of 0 is freed
as already stored. -/
theorem not_honestDrop_three :
    ¬ ∀ size ssn r, DriverWindow size → ssn < 4096 → wilTidAmpduRxAlloc true size ssn = some r →
      ∀ frames skb,
        HonestDrop (wilRxReorder (Machine.run wilRxReorder (some r) frames).1 skb) := by
  intro h
  have hr : wilTidAmpduRxAlloc true 3 0 = some ⟨[none, none, none], 0, 0, 0, 3, 0⟩ := rfl
  obtain ⟨hinv, -, -, -, -⟩ := windowInv_alloc (by norm_num) (by norm_num) (by norm_num) hr
  exact exists_not_honestDrop hinv (slot_alloc hr) (by norm_num) (by norm_num) rfl rfl
    (h 3 0 _ ⟨by norm_num, by norm_num⟩ (by norm_num) hr _ _)

end Wil6210
