import Wil6210.Lib.Stream
import Wil6210.Rx.Order

/-!
# Nothing is lost inside the window

The frames of a stream carry the consecutive sequence numbers `ssn, ssn + 1, …` modulo 4096.
`Holds frame H S r` relates a session to the set `S` of stream positions received so far: the head
waits for position `H`, and the slots hold exactly the received frames from `H` on.  Each arrival
inside the window moves the session along this relation (`holds_receive`), and the head comes to
rest at the first position that is missing.
-/

namespace Wil6210

open Stream

variable {r : WilTidAmpduRx} {frame : ℕ → RxSkb} {S : Finset ℕ} {H p : ℕ}

/-- The session `r` after the stream positions `S` have arrived, when the head waits for `H`. -/
structure Holds (frame : ℕ → RxSkb) (H : ℕ) (S : Finset ℕ) (r : WilTidAmpduRx) : Prop where
  inv : WindowInv r
  dvd : r.bufSize ∣ 4096
  head_eq : r.headSeqNum = (r.ssn + H) % 4096
  seq_eq : ∀ p ∈ S, (frame p).seq = (r.ssn + p) % 4096
  window : ∀ p ∈ S, p < H + r.bufSize
  slot_iff : ∀ i f, r.slot i = some f ↔ ∃ p ∈ S, H ≤ p ∧ p % r.bufSize = i ∧ frame p = f

/-- Position `p` of the stream goes to slot `p % buf_size`. -/
lemma reorderIndex_pos (hdvd : r.bufSize ∣ 4096) (p : ℕ) :
    reorderIndex r ((r.ssn + p) % 4096) = p % r.bufSize := by
  have hsub : seqSub ((r.ssn + p) % 4096) r.ssn = p % 4096 := by
    simp only [seqSub]
    omega
  rw [reorderIndex, hsub, Nat.mod_mod_of_dvd _ hdvd]

lemma reorderIndex_head (h : Holds frame H S r) :
    reorderIndex r r.headSeqNum = H % r.bufSize := by
  rw [h.head_eq, reorderIndex_pos h.dvd]

/-- Two positions of the window never share a slot. -/
lemma eq_of_mod_eq {n a b : ℕ} (ha : H ≤ a) (ha' : a < H + n) (hb : H ≤ b) (hb' : b < H + n)
    (h : a % n = b % n) : a = b := by
  refine Nat.ModEq.eq_of_abs_lt h ?_
  rw [abs_lt]
  constructor <;> omega

/-- The slot of the head holds the frame of position `H` if it has arrived, and nothing else. -/
lemma slot_head (h : Holds frame H S r) :
    r.slot (reorderIndex r r.headSeqNum) = if H ∈ S then some (frame H) else none := by
  rw [reorderIndex_head h]
  split_ifs with hH
  · exact (h.slot_iff _ _).mpr ⟨H, hH, le_refl _, rfl, rfl⟩
  · by_contra hne
    obtain ⟨f, hf⟩ := Option.ne_none_iff_exists'.mp hne
    obtain ⟨p, hp, hle, hmod, -⟩ := (h.slot_iff _ _).mp hf
    have hlt := h.window p hp
    have hpos := h.inv.bufSize_pos
    have heq : p = H := eq_of_mod_eq hle hlt (le_refl _) (by omega) hmod
    exact hH (heq ▸ hp)

lemma headEmpty_iff (h : Holds frame H S r) : HeadEmpty r ↔ H ∉ S := by
  rw [HeadEmpty, slot_head h]
  split_ifs with hH <;> simp [hH]

/-- **One advance.**  Position `H` is passed, and its frame is delivered if it has arrived. -/
theorem Holds.advance (h : Holds frame H S r) :
    Holds frame (H + 1) S (Wil6210.advance r).1 ∧
      (Wil6210.advance r).2 = .headInc (if H ∈ S then some (frame H) else none) := by
  have hslot := slot_release h.inv.toSlotInv
  refine ⟨⟨h.inv.release, by simpa [Wil6210.advance] using h.dvd, ?_, ?_, ?_, ?_⟩, ?_⟩
  · simp only [Wil6210.advance, wilReleaseReorderFrame_head, wilReleaseReorderFrame_ssn,
      h.head_eq, seqInc]
    omega
  · simpa [Wil6210.advance] using h.seq_eq
  · rintro p hp
    have := h.window p hp
    simp only [Wil6210.advance, wilReleaseReorderFrame_bufSize]
    omega
  · rintro i f
    simp only [Wil6210.advance, wilReleaseReorderFrame_bufSize]
    rw [hslot, reorderIndex_head h]
    constructor
    · intro hi
      split_ifs at hi with hne
      obtain ⟨p, hp, hle, hmod, hf⟩ := (h.slot_iff i f).mp hi
      have hpH : p ≠ H := by
        rintro rfl
        exact hne hmod.symm
      exact ⟨p, hp, by omega, hmod, hf⟩
    · rintro ⟨p, hp, hle, hmod, hf⟩
      have hlt := h.window p hp
      have hne : i ≠ H % r.bufSize := by
        rintro rfl
        have heq : p = H := eq_of_mod_eq (n := r.bufSize) (H := H) (by omega) hlt (le_refl _)
          (by omega) hmod
        omega
      rw [if_neg hne]
      exact (h.slot_iff i f).mpr ⟨p, hp, by omega, hmod, hf⟩
  · simp only [Wil6210.advance, wilReleaseReorderFrame, slot_head h]
    split_ifs <;> rfl

/-- `n` advances over positions that have all arrived. -/
theorem Holds.advanceN (h : Holds frame H S r) (n : ℕ) (hall : ∀ m < n, H + m ∈ S) :
    Holds frame (H + n) S (Wil6210.advanceN n r).1 ∧
      (Wil6210.advanceN n r).2 = (List.range' H n).map fun p => .headInc (some (frame p)) := by
  induction n generalizing r H with
  | zero => exact ⟨h, rfl⟩
  | succ n ih =>
      obtain ⟨hstep, hev⟩ := h.advance
      have hH : H ∈ S := hall 0 (by omega)
      obtain ⟨hrest, hevs⟩ := ih hstep (by
        intro m hm
        rw [Nat.add_right_comm]
        exact hall (m + 1) (by omega))
      rw [advanceN_succ, hev, hevs, if_pos hH, List.range'_succ]
      exact ⟨by rwa [show H + (n + 1) = H + 1 + n by omega], rfl⟩

/-- Delivering from the head stops at the first position that is missing. -/
theorem Holds.reorderRelease (h : Holds frame H S r) :
    ∃ n, wilReorderRelease r = Wil6210.advanceN n r ∧ H + n ∉ S ∧ ∀ m < n, H + m ∈ S := by
  obtain ⟨n, heq, hempty, hall⟩ := wilReorderRelease_eq r
  have hmem : ∀ m ≤ n, ∀ k < m, H + k ∈ S := by
    intro m
    induction m with
    | zero => intro _ k hk; omega
    | succ m ih =>
        rintro hm k hk
        rcases Nat.lt_succ_iff_lt_or_eq.mp hk with hlt | rfl
        · exact ih (by omega) k hlt
        · have hk' := (h.advanceN k (ih (by omega))).1
          by_contra hnot
          exact hall k (by omega) ((headEmpty_iff hk').mpr hnot)
  exact ⟨n, heq, (headEmpty_iff (h.advanceN n (hmem n le_rfl)).1).mp hempty, hmem n le_rfl⟩

/-! ## One arrival -/

/-- A position that has not arrived finds its slot empty. -/
lemma slot_new (h : Holds frame H S r) (hnew : p ∉ S) (hle : H ≤ p)
    (hlt : p < H + r.bufSize) : r.slot (p % r.bufSize) = none := by
  by_contra hne
  obtain ⟨f, hf⟩ := Option.ne_none_iff_exists'.mp hne
  obtain ⟨q, hq, hqle, hmod, -⟩ := (h.slot_iff _ _).mp hf
  have heq : q = p := eq_of_mod_eq hqle (h.window q hq) hle hlt hmod
  exact hnew (heq ▸ hq)

/-- Storing the frame of a new position adds the position. -/
lemma Holds.store (h : Holds frame H S r) (hnew : p ∉ S) (hle : H ≤ p)
    (hlt : p < H + r.bufSize) (hseq : (frame p).seq = (r.ssn + p) % 4096) :
    Holds frame H (insert p S) (storeFrame r (frame p)) := by
  have hidx : reorderIndex r (frame p).seq = p % r.bufSize := by
    rw [hseq, reorderIndex_pos h.dvd]
  have hslot := slot_new h hnew hle hlt
  have hmax : r.bufSize ≤ 4096 := Nat.le_of_dvd (by norm_num) h.dvd
  have hwin : seqSub (frame p).seq r.headSeqNum < r.bufSize := by
    rw [hseq, h.head_eq]
    simp only [seqSub]
    omega
  refine ⟨h.inv.storeFrame (by rw [hidx]; exact hslot) hwin, h.dvd, h.head_eq, ?_, ?_, ?_⟩
  · rintro q hq
    rcases Finset.mem_insert.mp hq with rfl | hq
    · exact hseq
    · exact h.seq_eq q hq
  · rintro q hq
    rcases Finset.mem_insert.mp hq with rfl | hq
    · exact hlt
    · exact h.window q hq
  · rintro i f
    rw [slot_storeFrame h.inv.toSlotInv, hidx]
    constructor
    · intro hi
      split_ifs at hi with heq
      · exact ⟨p, Finset.mem_insert_self _ _, hle, heq.symm, by simpa using hi⟩
      · obtain ⟨q, hq, hrest⟩ := (h.slot_iff i f).mp hi
        exact ⟨q, Finset.mem_insert_of_mem hq, hrest⟩
    · rintro ⟨q, hq, hqle, hmod, hf⟩
      rcases Finset.mem_insert.mp hq with rfl | hq
      · rw [if_pos (show i = q % r.bufSize from hmod.symm), hf]
      · have hne : i ≠ p % r.bufSize := by
          rintro rfl
          have heq : q = p := eq_of_mod_eq hqle (h.window q hq) hle hlt hmod
          exact hnew (heq ▸ hq)
        rw [if_neg hne]
        exact (h.slot_iff i f).mpr ⟨q, hq, hqle, hmod, hf⟩

/-- Delivering the awaited frame directly, when nothing is stored. -/
lemma Holds.direct (h : Holds frame H S r) (hseq : (frame H).seq = (r.ssn + H) % 4096)
    (hstored : r.storedMpduNum = 0) :
    Holds frame (H + 1) (insert H S) { r with headSeqNum := seqInc r.headSeqNum } ∧
      ∀ q ∈ S, q < H := by
  obtain ⟨hinv, hall⟩ := h.inv.direct hstored
  have hnone : ∀ q ∈ S, q < H := by
    rintro q hq
    by_contra hcon
    have hs := (h.slot_iff _ _).mpr ⟨q, hq, by omega, rfl, rfl⟩
    rw [hall] at hs
    exact absurd hs (by simp)
  refine ⟨⟨hinv, h.dvd, ?_, ?_, ?_, ?_⟩, hnone⟩
  · simp only [seqInc, h.head_eq]
    omega
  · rintro q hq
    rcases Finset.mem_insert.mp hq with rfl | hq
    · exact hseq
    · exact h.seq_eq q hq
  · rintro q hq
    show q < H + 1 + r.bufSize
    rcases Finset.mem_insert.mp hq with rfl | hq
    · omega
    · have := hnone q hq
      omega
  · rintro i f
    constructor
    · intro hi
      exact absurd ((hall i).symm.trans hi) (by simp)
    · rintro ⟨q, hq, hqle, -, -⟩
      rcases Finset.mem_insert.mp hq with rfl | hq
      · omega
      · have := hnone q hq
        omega

/-- A position of the window of positions is in the window of the session. -/
lemma Holds.seqSub_lt (h : Holds frame H S r) (hsize : r.bufSize ≤ 128) (hle : H ≤ p)
    (hlt : p < H + r.bufSize) (hseq : (frame p).seq = (r.ssn + p) % 4096) :
    seqSub (frame p).seq r.headSeqNum < r.bufSize := by
  rw [hseq, h.head_eq]
  simp only [seqSub]
  omega

/-- **One arrival inside the window.**  The frames from the old head up to the first position still
missing are delivered, in order, and nothing is freed. -/
theorem holds_receive (h : Holds frame H S r) (hsize : r.bufSize ≤ 128)
    (hbelow : ∀ m < H, m ∈ S) (hH : H ∉ S) (hnew : p ∉ S) (hlt : p < H + r.bufSize)
    (hseq : (frame p).seq = (r.ssn + p) % 4096) :
    ∃ r' n, wilRxReorder (some r) (frame p)
        = (some r', (List.range' H n).map fun q => .headInc (some (frame q))) ∧
      Holds frame (H + n) (insert p S) r' ∧ H + n ∉ insert p S ∧
      (∀ m < H + n, m ∈ insert p S) ∧ r'.ssn = r.ssn ∧ r'.bufSize = r.bufSize := by
  have hle : H ≤ p := by
    by_contra hcon
    exact hnew (hbelow p (by omega))
  have hslot : ¬ (r.slot (reorderIndex r (frame p).seq)).isSome := by
    rw [hseq, reorderIndex_pos h.dvd, slot_new h hnew hle hlt]
    simp
  rw [wilRxReorder_of_window (h.seqSub_lt hsize hle hlt hseq) (by omega), wilRxReorderStore_eq,
    if_neg hslot]
  split_ifs with hdirect
  · -- the awaited frame, and nothing behind it is stored
    have hpH : p = H := by
      have hd := hdirect.1
      rw [hseq, h.head_eq] at hd
      omega
    subst hpH
    obtain ⟨hnext, hnone⟩ := h.direct hseq hdirect.2
    refine ⟨_, 1, rfl, hnext, ?_, ?_, rfl, rfl⟩
    · rw [Finset.mem_insert, not_or]
      refine ⟨by omega, fun hm => ?_⟩
      have := hnone _ hm
      omega
    · rintro m hm
      rcases Nat.lt_succ_iff_lt_or_eq.mp hm with hlt' | rfl
      · exact Finset.mem_insert_of_mem (hbelow m hlt')
      · exact Finset.mem_insert_self _ _
  · have hstored := h.store hnew hle hlt hseq
    obtain ⟨n, heq, hstop, hall⟩ := hstored.reorderRelease
    obtain ⟨hend, hev⟩ := hstored.advanceN n hall
    refine ⟨(advanceN n (storeFrame r (frame p))).1, n, ?_, hend, hstop, ?_, by simp [storeFrame],
      by simp [storeFrame]⟩
    · rw [heq, hev]
    · rintro m hm
      rcases Nat.lt_or_ge m H with hlt' | hge
      · exact Finset.mem_insert_of_mem (hbelow m hlt')
      · obtain ⟨k, rfl⟩ := Nat.exists_eq_add_of_le hge
        exact hall k (by omega)

/-! ## The whole stream -/

/-- A run over arrivals inside the window delivers the positions from the old head to the new one,
and the new head waits for the first missing position. -/
theorem holds_run {ps : List ℕ} :
    ∀ {r : WilTidAmpduRx} {S : Finset ℕ} {H : ℕ}, Holds frame H S r → r.bufSize ≤ 128 →
      (∀ m < H, m ∈ S) → H ∉ S → Arrives r.bufSize S ps →
      (∀ p ∈ ps, (frame p).seq = (r.ssn + p) % 4096) →
      ∃ r' n, Machine.run wilRxReorder (some r) (ps.map frame)
          = (some r', (List.range' H n).map fun q => .headInc (some (frame q))) ∧
        Holds frame (H + n) (S ∪ ps.toFinset) r' ∧ H + n = firstMissing (S ∪ ps.toFinset) ∧
        r'.ssn = r.ssn := by
  induction ps with
  | nil =>
      rintro r S H h - hbelow hH - -
      exact ⟨r, 0, rfl, by simpa using h, by simpa using (firstMissing_eq hbelow hH).symm, rfl⟩
  | cons p ps ih =>
      rintro r S H h hsize hbelow hH ⟨hnew, hwin, hrest⟩ hseq
      rw [firstMissing_eq hbelow hH] at hwin
      obtain ⟨r₁, n₁, hcall, h₁, hH₁, hbelow₁, hssn₁, hbuf₁⟩ :=
        holds_receive h hsize hbelow hH hnew hwin (hseq p List.mem_cons_self)
      obtain ⟨r₂, n₂, hrun, h₂, hfirst, hssn₂⟩ := ih h₁ (hbuf₁ ▸ hsize) hbelow₁ hH₁
        (hbuf₁ ▸ hrest) (fun q hq => hssn₁ ▸ hseq q (List.mem_cons_of_mem _ hq))
      have hunion : insert p S ∪ ps.toFinset = S ∪ (p :: ps).toFinset := by
        rw [List.toFinset_cons, Finset.union_insert, Finset.insert_union]
      rw [hunion] at h₂ hfirst
      refine ⟨r₂, n₁ + n₂, ?_, by rwa [← Nat.add_assoc], by rwa [← Nat.add_assoc],
        hssn₂.trans hssn₁⟩
      rw [List.map_cons, Machine.run_cons, hcall]
      simp only [hrun]
      rw [← List.map_append, ← List.range'_append_1]

/-- A new session has received nothing. -/
lemma holds_alloc {size ssn : ℕ} (hpos : 0 < size) (hdvd : size ∣ 4096) (hssn : ssn < 4096)
    (hr : wilTidAmpduRxAlloc true size ssn = some r) :
    Holds frame 0 ∅ r ∧ r.bufSize = size ∧ r.ssn = ssn := by
  have hle : size ≤ 4096 := Nat.le_of_dvd (by norm_num) hdvd
  obtain ⟨hinv, hbuf, hs, hhead, -⟩ := windowInv_alloc hpos (by omega) hssn hr
  have hempty := slot_alloc hr
  refine ⟨⟨hinv, hbuf ▸ hdvd, ?_, by simp, by simp, ?_⟩, hbuf, hs⟩
  · rw [hhead, hs, Nat.add_zero, Nat.mod_eq_of_lt hssn]
  · simp [hempty]

/-- The frames a trace delivers. -/
lemma deliveries_headInc (frame : ℕ → RxSkb) (n : ℕ) :
    ∀ H p, (deliveries H ((List.range' p n).map fun q => .headInc (some (frame q)))).map Prod.snd
      = (List.range' p n).map frame := by
  induction n with
  | zero => rintro H p; rfl
  | succ n ih => rintro H p; simp [List.range'_succ, deliveries, ih]

/-- **No loss.**  If the first `n` frames of the stream arrive each exactly once, each less than
`buf_size` ahead of the first missing one, then the frames delivered are those `n` frames in
sequence order, nothing is freed, nothing stays stored, and the head is at `ssn + n`. -/
theorem wilRxReorder_no_loss {size ssn n : ℕ} {r : WilTidAmpduRx} {order : List ℕ}
    (hpos : 0 < size) (hdvd : size ∣ 4096) (hsize : size ≤ 128) (hssn : ssn < 4096)
    (hr : wilTidAmpduRxAlloc true size ssn = some r)
    (hseq : ∀ p < n, (frame p).seq = (ssn + p) % 4096)
    (hperm : order.Perm (List.range n))
    (hwin : ∀ pre p post, order = pre ++ p :: post → p < firstMissing pre.toFinset + size) :
    let out := Machine.run wilRxReorder (some r) (order.map frame)
    (deliveries ssn out.2).map Prod.snd = (List.range n).map frame ∧
      (∀ skb, .kfreeStale skb ∉ out.2 ∧ .kfreeDup skb ∉ out.2) ∧
      ∃ r', out.1 = some r' ∧ r'.storedMpduNum = 0 ∧ r'.headSeqNum = (ssn + n) % 4096 := by
  obtain ⟨h, hbuf, hs⟩ : Holds frame 0 ∅ r ∧ r.bufSize = size ∧ r.ssn = ssn :=
    holds_alloc hpos hdvd hssn hr
  have harr : Arrives size ∅ order := by
    refine arrives_of_window ?_ (by simpa using hwin)
    simpa using hperm.nodup_iff.mpr List.nodup_range
  obtain ⟨r', k, hrun, hend, hfirst, hssn'⟩ := holds_run h (hbuf ▸ hsize) (by omega) (by simp)
    (hbuf ▸ harr) (fun p hp => hs ▸ hseq p (by simpa using hperm.mem_iff.mp hp))
  have hset : (∅ : Finset ℕ) ∪ order.toFinset = Finset.range n := by
    ext p
    simp [hperm.mem_iff]
  have hk : k = n := by
    rw [hset, Nat.zero_add] at hfirst
    rw [hfirst]
    exact firstMissing_eq (by simp) (by simp)
  rw [Nat.zero_add, hset, hk] at hend
  rw [hk] at hrun
  simp only [hrun]
  refine ⟨?_, by simp, r', rfl, ?_, ?_⟩
  · rw [deliveries_headInc, List.range_eq_range']
  · rw [hend.inv.stored_eq, occupied_eq_zero_iff]
    intro i
    by_contra hne
    obtain ⟨f, hf⟩ := Option.ne_none_iff_exists'.mp hne
    obtain ⟨p, hp, hle, -, -⟩ := (hend.slot_iff _ _).mp hf
    rw [Finset.mem_range] at hp
    omega
  · rw [hend.head_eq, hssn', hs]

/-- Three frames across the wrap, the second before the first. -/
theorem wilRxReorder_no_loss_wrap :
    ∃ r r', wilTidAmpduRxAlloc true 4 4094 = some r ∧
      (Machine.run wilRxReorder (some r)
        ([1, 0, 2].map fun p => seqFrame ((4094 + p) % 4096))).1 = some r' ∧
      r'.storedMpduNum = 0 ∧ r'.headSeqNum = 1 := by
  obtain ⟨-, -, r', hr', hstored, hhead⟩ :=
    wilRxReorder_no_loss (by norm_num) (by norm_num) (by norm_num)
      (by norm_num) (show wilTidAmpduRxAlloc true 4 4094 = some _ from rfl)
      (fun p (_ : p < 3) => show (seqFrame ((4094 + p) % 4096)).seq = (4094 + p) % 4096 from
        seq_seqFrame (Nat.mod_lt _ (by norm_num)))
      (show [1, 0, 2].Perm (List.range 3) by decide)
      (fun pre p post heq => by
        have hp : p ∈ [1, 0, 2] := by simp [heq]
        simp only [List.mem_cons, List.not_mem_nil, or_false] at hp
        omega)
  exact ⟨_, r', rfl, hr', hstored, hhead⟩

end Wil6210
