import Wil6210.Driver.BlockAck

/-!
# A stream across the replacement of its session

`wmi_evt_ba_status` replaces the sessions of a station by new ones that start at sequence number
0, wherever the peer's stream stands; its sibling `wil_back_handle` starts the session at the
number of the request.  Sequence numbers are compared over half of their space.

* From 0 to 2048 the stream is ahead of the new session.  Its first `w - 1` frames wait in the
  buffer (`Lagging`); then the window reaches them, all are handed over, and the session is in step
  (`InStep`).  With a window of one and the stream at 2048 the session stays 2048 behind and hands
  over every frame as it comes (`Behind`).
* From 2049 to 4095 the stream is behind the new session, and its frames are dropped as out of
  date.

`streamKept_wmiEvtBaStatus_iff` puts the two together, for streams that do not end.  Of one that
ends where frames still wait, `stream_stored` says what the session is left with.
-/

namespace Wil6210

/-! ## Streams -/

/-- No frame is freed, neither as out of date nor as already stored. -/
def NoneFreed (es : List RxEvent) : Prop :=
  ∀ skb, .kfreeStale skb ∉ es ∧ .kfreeDup skb ∉ es

/-- What the driver does with the first `m` frames of a stream. -/
def streamEvents (s : Wil) (frames : ℕ → RxSkb) (m : ℕ) : List RxEvent :=
  (Machine.run wilRxReorderSta s ((List.range m).map frames)).2.filterMap fun
    | .rx e => some e
    | _ => none

/-- **The stream is kept**: every frame is handed over, in order, and none is freed.  The stream
does not end: a frame may wait for those behind it. -/
def StreamKept (s : Wil) (frames : ℕ → RxSkb) : Prop :=
  (∀ k, ∃ m, (List.range k).map frames <+: handedOver (streamEvents s frames m)) ∧
    ∀ m, NoneFreed (streamEvents s frames m)

lemma NoneFreed.append {es fs : List RxEvent} (he : NoneFreed es) (hf : NoneFreed fs) :
    NoneFreed (es ++ fs) := by
  intro skb
  simp [he skb, hf skb]

/-- Advances of the head hand over what they find and free nothing. -/
lemma handedOver_headInc (o : ℕ → Option RxSkb) (l : List ℕ) :
    handedOver (l.map fun j => .headInc (o j)) = l.filterMap o ∧
      NoneFreed (l.map fun j => .headInc (o j)) := by
  constructor
  · induction l with
    | nil => rfl
    | cons j l ih =>
        rw [List.map_cons, handedOver, List.filterMap_cons, List.filterMap_cons]
        cases o j <;> simp_all [handedOver]
  · intro skb
    simp

/-- Advances over empty slots hand over nothing. -/
lemma handedOver_replicate (k : ℕ) :
    handedOver (List.replicate k (.headInc none)) = [] ∧
      NoneFreed (List.replicate k (.headInc none)) := by
  have h := handedOver_headInc (fun _ => none) (List.range k)
  rw [List.map_const', List.length_range] at h
  exact ⟨by rw [h.1]; simp, h.2⟩

/-- The frames of one station and TID go through its session. -/
lemma run_wilRxReorderSta {cid : Cid} {tid : Fin 16} (fs : List RxSkb) :
    ∀ s : Wil, (∀ skb ∈ fs, skb.cid = cid ∧ skb.tid = tid) →
      (Machine.run wilRxReorderSta s fs).2
        = (Machine.run wilRxReorder ((s.sta cid).tidRx tid) fs).2.map DrvEvent.rx := by
  induction fs with
  | nil => intro s _; rfl
  | cons skb fs ih =>
      intro s hall
      obtain ⟨hcid, htid⟩ := hall skb (by simp)
      have hsession : ((wilRxReorderSta s skb).1.sta cid).tidRx tid
          = (wilRxReorder ((s.sta cid).tidRx tid) skb).1 := by
        simp [wilRxReorderSta, hcid, htid]
      have hevents : (wilRxReorderSta s skb).2
          = (wilRxReorder ((s.sta cid).tidRx tid) skb).2.map DrvEvent.rx := by
        simp [wilRxReorderSta, hcid, htid]
      rw [Machine.run_cons, Machine.run_cons, ih _ fun f hf => hall f (by simp [hf]), hsession,
        hevents, List.map_append]

/-! ## Advancing over known slots -/

section Session

variable {r : WilTidAmpduRx} {frames : ℕ → RxSkb} {n m k : ℕ}

/-- In a session that starts at 0, a position below 4096 has the slot of its remainder. -/
lemma reorderIndex_zero (hssn : r.ssn = 0) {p : ℕ} (hp : p < 4096) :
    reorderIndex r p = p % r.bufSize := by
  have hsub : seqSub p 0 = p := by
    simp only [seqSub]
    omega
  rw [reorderIndex, hssn, hsub]

lemma headSeqNum_advanceN {p : ℕ} (hhead : r.headSeqNum = p) (hp : p + k < 4096) :
    (advanceN k r).1.headSeqNum = p + k := by
  rw [advanceN_head (by omega), hhead, Nat.mod_eq_of_lt hp]

/-- Passing slots that are empty delivers nothing and changes no slot. -/
lemma advanceN_empty (hssn : r.ssn = 0) {p : ℕ} (hhead : r.headSeqNum = p) (hp : p + k < 4096)
    (hempty : ∀ j < k, r.slot ((p + j) % r.bufSize) = none) :
    advanceN k r = ({ r with headSeqNum := p + k }, List.replicate k (.headInc none)) := by
  induction k with
  | zero =>
      subst hhead
      rfl
  | succ k ih =>
      rw [advanceN_succ', ih (by omega) fun j hj => hempty j (by omega)]
      have hidx : reorderIndex { r with headSeqNum := p + k } (p + k) = (p + k) % r.bufSize :=
        reorderIndex_zero (r := { r with headSeqNum := p + k }) hssn (by omega)
      have hslot : ({ r with headSeqNum := p + k } : WilTidAmpduRx).slot
          (reorderIndex { r with headSeqNum := p + k } (p + k)) = none := by
        rw [hidx]
        exact hempty k (by omega)
      have hadv : advance { r with headSeqNum := p + k }
          = ({ r with headSeqNum := p + (k + 1) }, .headInc none) := by
        simp only [advance, wilReleaseReorderFrame, hslot, seqInc]
        rw [Nat.mod_eq_of_lt (by omega)]
        rfl
      rw [hadv, List.replicate_succ']

/-- Passing one window of full slots delivers all of them and leaves them empty. -/
lemma advanceN_full (h : SlotInv r) (hssn : r.ssn = 0) {p : ℕ} (hhead : r.headSeqNum = p)
    (hp : p + k < 4096) (hk : k ≤ r.bufSize)
    (hfull : ∀ j < k, r.slot ((p + j) % r.bufSize) = some (frames j)) :
    (advanceN k r).2 = (List.range k).map (fun j => .headInc (some (frames j))) ∧
      ∀ i, (advanceN k r).1.slot i
        = if ∃ j < k, i = (p + j) % r.bufSize then none else r.slot i := by
  induction k with
  | zero => exact ⟨rfl, fun i => by simp [advanceN]⟩
  | succ k ih =>
      obtain ⟨hev, hslots⟩ := ih (by omega) (by omega) fun j hj => hfull j (by omega)
      have hhd := headSeqNum_advanceN (k := k) hhead (by omega)
      have hidx : reorderIndex (advanceN k r).1 (p + k) = (p + k) % r.bufSize := by
        rw [reorderIndex_advanceN, reorderIndex_zero hssn (by omega)]
      have hslot : (advanceN k r).1.slot ((p + k) % r.bufSize) = some (frames k) := by
        rw [hslots, if_neg, hfull k (by omega)]
        rintro ⟨j, hj, heq⟩
        exact Circular.ne_of_window (show p + j < p + k by omega) (by omega) heq.symm
      rw [advanceN_succ', hev]
      constructor
      · have he : (advance (advanceN k r).1).2 = .headInc (some (frames k)) := by
          simp only [advance, wilReleaseReorderFrame, hhd, hidx, hslot]
        rw [he, List.range_succ, List.map_append]
        rfl
      · intro i
        have hrel := slot_release (h.advanceN k) i
        rw [hhd, hidx] at hrel
        simp only [advance, hhd, hidx]
        rw [hrel, hslots]
        by_cases hi : i = (p + k) % r.bufSize
        · rw [if_pos hi, if_pos ⟨k, by omega, hi⟩]
        · rw [if_neg hi]
          congr 1
          refine propext ⟨?_, ?_⟩
          · rintro ⟨j, hj, heq⟩
            exact ⟨j, by omega, heq⟩
          · rintro ⟨j, hj, heq⟩
            refine ⟨j, ?_, heq⟩
            rcases Nat.lt_succ_iff_lt_or_eq.mp hj with hlt | rfl
            · exact hlt
            · exact absurd heq hi

/-! ## The phases of the stream -/

/-- The first frames of the stream wait: the head stands before the stream, and exactly the frames
that came are stored. -/
structure Lagging (frames : ℕ → RxSkb) (n m : ℕ) (r : WilTidAmpduRx) : Prop where
  inv : SlotInv r
  ssn_eq : r.ssn = 0
  lt : m < r.bufSize
  size_lt : r.bufSize < 256
  ahead_le : n ≤ 2048
  head_lt : r.headSeqNum < n
  near : n + m ≤ r.headSeqNum + r.bufSize ∨ m = 0
  slot_iff : ∀ i f, r.slot i = some f ↔ ∃ j < m, i = (n + j) % r.bufSize ∧ f = frames j

/-- Nothing is stored, and the stream is `ahead` of the head. -/
structure Clear (n m ahead : ℕ) (r : WilTidAmpduRx) : Prop where
  inv : SlotInv r
  size_lt : r.bufSize < 256
  empty : ∀ i, r.slot i = none
  head_eq : (r.headSeqNum + ahead) % 4096 = (n + m) % 4096

/-- The session waits for the next frame of the stream. -/
def InStep (n m : ℕ) (r : WilTidAmpduRx) : Prop := Clear n m 0 r

/-- With a window of one, the session stays half of the sequence space behind. -/
def Behind (n m : ℕ) (r : WilTidAmpduRx) : Prop := Clear n m 2048 r ∧ r.bufSize = 1

/-- What a call does that takes the stream from frame `m` on: it hands over the frames `d` to
`d' - 1`, and frees none. -/
structure Takes (frames : ℕ → RxSkb) (d d' : ℕ) (es : List RxEvent) : Prop where
  handed : handedOver es = (List.range' d (d' - d)).map frames
  noneFreed : NoneFreed es

variable {r : WilTidAmpduRx} {frames : ℕ → RxSkb} {n m : ℕ}

lemma SlotInv.stored_eq_zero (h : SlotInv r) (hempty : ∀ i, r.slot i = none) :
    r.storedMpduNum = 0 := by
  rw [h.stored_eq]
  exact occupied_eq_zero_iff.mpr hempty

/-- Where the head stands does not matter to the slots. -/
lemma SlotInv.withHead (h : SlotInv r) {p : ℕ} (hp : p < 4096) :
    SlotInv { r with headSeqNum := p } :=
  ⟨h.bufSize_pos, h.bufSize_lt, h.length_eq, hp, h.ssn_lt, h.stored_eq, h.slot_index⟩

lemma Takes.single (frames : ℕ → RxSkb) (m : ℕ) :
    Takes frames m (m + 1) [.headInc (some (frames m))] := by
  refine ⟨?_, fun skb => by simp⟩
  simp [handedOver]

/-- An empty head slot ends the release loop. -/
lemma wilReorderRelease_of_empty (h : HeadEmpty r) : wilReorderRelease r = (r, []) := by
  rw [wilReorderRelease, dif_neg]
  simpa [HeadEmpty] using h

lemma wilReorderRelease_of_full {skb : RxSkb}
    (h : r.slot (reorderIndex r r.headSeqNum) = some skb) :
    wilReorderRelease r
      = ((wilReorderRelease (advance r).1).1, (advance r).2 :: (wilReorderRelease (advance r).1).2) := by
  rw [wilReorderRelease, dif_pos (by rw [h]; rfl)]
  rfl

/-- A frame in step with the head of an empty session is handed over directly. -/
lemma wilRxReorderStore_direct {skb : RxSkb} (h : SlotInv r) (hempty : ∀ i, r.slot i = none)
    (hhead : skb.seq = r.headSeqNum) :
    wilRxReorderStore r skb
      = ({ r with headSeqNum := seqInc r.headSeqNum }, [.headInc (some skb)]) := by
  rw [wilRxReorderStore_eq, hempty, if_neg (by simp), if_pos ⟨hhead, h.stored_eq_zero hempty⟩]

/-- In step, the next frame is handed over at once. -/
lemma InStep.receive (h : InStep n m r) (hseq : (frames m).seq = (n + m) % 4096) :
    ∃ r' es, wilRxReorder (some r) (frames m) = (some r', es) ∧ InStep n (m + 1) r' ∧
      Takes frames m (m + 1) es := by
  have hlt := h.inv.head_lt
  have heq := h.head_eq
  have hhead : (frames m).seq = r.headSeqNum := by omega
  have hwin : seqSub (frames m).seq r.headSeqNum < r.bufSize := by
    have := h.inv.bufSize_pos
    rw [hhead]
    simp only [seqSub]
    omega
  have hsize := h.size_lt
  refine ⟨{ r with headSeqNum := seqInc r.headSeqNum }, _, ?_,
    ⟨h.inv.withHead (seqInc_lt _), hsize, h.empty, ?_⟩, Takes.single frames m⟩
  · rw [wilRxReorder_of_window hwin (by omega), wilRxReorderStore_direct h.inv h.empty hhead]
  · simp only [seqInc]
    omega

/-- Half of the sequence space behind, with a window of one, the next frame is stored and handed
over at once. -/
lemma Behind.receive (h : Behind n m r) (hseq : (frames m).seq = (n + m) % 4096) :
    ∃ r' es, wilRxReorder (some r) (frames m) = (some r', es) ∧ Behind n (m + 1) r' ∧
      Takes frames m (m + 1) es := by
  obtain ⟨h, hone⟩ := h
  have hlt := h.inv.head_lt
  have heq := h.head_eq
  have hstale : ¬ seqLess (frames m).seq r.headSeqNum := by
    simp only [seqLess, seqSub]
    omega
  have hbeyond : ¬ seqLess (frames m).seq (u16 (r.headSeqNum + r.bufSize)) := by
    simp only [seqLess, seqSub, hone, u16]
    omega
  have hcount : releaseCount r (seqInc (seqSub (frames m).seq r.bufSize)) = 0 := by
    rw [releaseCount, if_neg]
    simp only [seqLess, seqSub, seqInc, hone]
    omega
  set q := storeFrame r (frames m) with hq
  have hindex : ∀ seq, reorderIndex q seq = 0 := by
    intro seq
    simp [reorderIndex, hq, storeFrame, hone, Nat.mod_one]
  have hqinv : SlotInv q := h.inv.storeFrame (h.empty _)
  have hfull : q.slot (reorderIndex q q.headSeqNum) = some (frames m) := by
    rw [hindex, hq, slot_storeFrame h.inv, if_pos]
    simp [reorderIndex, hone, Nat.mod_one]
  have hempty : ∀ i, (advance q).1.slot i = none := by
    intro i
    rw [advance, slot_release hqinv, hindex]
    split_ifs with hi
    · rfl
    · rw [hq, slot_storeFrame h.inv, if_neg, h.empty]
      simpa [reorderIndex, hone, Nat.mod_one] using hi
  have hrelease : wilReorderRelease q = ((advance q).1, [(advance q).2]) := by
    rw [wilReorderRelease_of_full hfull, wilReorderRelease_of_empty (hempty _)]
  have hev : (advance q).2 = .headInc (some (frames m)) := by
    simp only [advance, wilReleaseReorderFrame, hfull]
  refine ⟨(advance q).1, [.headInc (some (frames m))], ?_,
    ⟨⟨hqinv.release, ?_, hempty, ?_⟩, ?_⟩, Takes.single frames m⟩
  · rw [wilRxReorder_some, if_neg hstale, if_pos hbeyond, hcount]
    simp only [advanceN, List.nil_append]
    rw [wilRxReorderStore_eq, h.empty, if_neg (by simp), if_neg, ← hq, hrelease, hev]
    rintro ⟨hsame, -⟩
    omega
  · simpa [advance, hq, storeFrame] using h.size_lt
  · simp only [advance, wilReleaseReorderFrame_head, hq, storeFrame, seqInc]
    omega
  · simpa [advance, hq, storeFrame] using hone

/-- **The release loop over one full window** hands it over and stops. -/
theorem wilReorderRelease_window {q : WilTidAmpduRx} (h : SlotInv q) (hssn : q.ssn = 0) {p : ℕ}
    (hhead : q.headSeqNum = p) (hp : p + q.bufSize < 4096)
    (hslots : ∀ i f, q.slot i = some f ↔ ∃ j < q.bufSize, i = (p + j) % q.bufSize ∧ f = frames j) :
    ∃ r', wilReorderRelease q
        = (r', (List.range q.bufSize).map fun j => .headInc (some (frames j))) ∧
      (q.bufSize < 256 → ∀ m, m = q.bufSize → InStep p m r') := by
  have hfull : ∀ j < q.bufSize, q.slot ((p + j) % q.bufSize) = some (frames j) :=
    fun j hj => (hslots _ _).mpr ⟨j, hj, rfl, rfl⟩
  have hadvance : ∀ N ≤ q.bufSize, (advanceN N q).1.headSeqNum = p + N ∧
      ∀ i, (advanceN N q).1.slot i
        = if ∃ j < N, i = (p + j) % q.bufSize then none else q.slot i := fun N hN =>
    ⟨headSeqNum_advanceN hhead (by omega),
      (advanceN_full h hssn hhead (show p + N < 4096 by omega) hN
        fun j hj => hfull j (by omega)).2⟩
  have hclear : ∀ i, (advanceN q.bufSize q).1.slot i = none := by
    intro i
    rw [(hadvance _ le_rfl).2]
    split_ifs with hi
    · rfl
    · by_contra hne
      obtain ⟨f, hf⟩ := Option.ne_none_iff_exists'.mp hne
      obtain ⟨j, hj, hmod, -⟩ := (hslots _ _).mp hf
      exact hi ⟨j, hj, hmod⟩
  obtain ⟨N, hN, hstop, hgo⟩ := wilReorderRelease_eq q
  have hle : N ≤ q.bufSize := by
    by_contra hgt
    exact hgo q.bufSize (by omega) (hclear _)
  have hge : q.bufSize ≤ N := by
    by_contra hlt
    rw [HeadEmpty, (hadvance N hle).1, reorderIndex_advanceN, reorderIndex_zero hssn (by omega),
      (hadvance N hle).2, if_neg, hfull N (by omega)] at hstop
    · exact absurd hstop (by simp)
    · rintro ⟨j, hj, hmod⟩
      exact Circular.ne_of_window (show p + j < p + N by omega) (by omega) hmod.symm
  obtain rfl : N = q.bufSize := le_antisymm hle hge
  refine ⟨(advanceN q.bufSize q).1, ?_, ?_⟩
  · rw [hN, ← (advanceN_full h hssn hhead hp le_rfl hfull).1]
  · rintro hsize m rfl
    refine ⟨h.advanceN _, by simpa using hsize, hclear, ?_⟩
    rw [(hadvance _ le_rfl).1, Nat.add_zero]

namespace Lagging

/-- The slots of the positions between the head and the stream are empty. -/
lemma slot_before (h : Lagging frames n m r) {p : ℕ} (hp : r.headSeqNum ≤ p) (hpn : p < n) :
    r.slot (p % r.bufSize) = none := by
  by_contra hne
  obtain ⟨f, hf⟩ := Option.ne_none_iff_exists'.mp hne
  obtain ⟨j, hj, hmod, -⟩ := (h.slot_iff _ _).mp hf
  have hnear := h.near
  exact Circular.ne_of_window (show p < n + j by omega) (by omega) hmod

/-- The slot of the next frame is empty. -/
lemma slot_next (h : Lagging frames n m r) : r.slot ((n + m) % r.bufSize) = none := by
  by_contra hne
  obtain ⟨f, hf⟩ := Option.ne_none_iff_exists'.mp hne
  obtain ⟨j, hj, hmod, -⟩ := (h.slot_iff _ _).mp hf
  have hlt := h.lt
  exact Circular.ne_of_window (show n + j < n + m by omega) (by omega) hmod.symm

/-- The next frame moves the head, over empty slots, to where it fits in the window. -/
lemma reach (h : Lagging frames n m r) (hlo : 2 ≤ r.bufSize ∨ n ≤ 2047)
    (hseq : (frames m).seq = (n + m) % 4096) :
    ∃ p k, p ≤ n ∧ (m + 1 < r.bufSize → p < n) ∧ (m + 1 = r.bufSize → p = n) ∧
      n + m < p + r.bufSize ∧ r.headSeqNum ≤ p ∧
      wilRxReorder (some r) (frames m)
        = (some (wilRxReorderStore { r with headSeqNum := p } (frames m)).1,
            List.replicate k (.headInc none)
              ++ (wilRxReorderStore { r with headSeqNum := p } (frames m)).2) := by
  obtain ⟨hlt, hsize, hahead, hhead, hnear⟩ :=
    And.intro h.lt (And.intro h.size_lt (And.intro h.ahead_le (And.intro h.head_lt h.near)))
  have hseq' : (frames m).seq = n + m := by omega
  have hstale : ¬ seqLess (frames m).seq r.headSeqNum := by
    simp only [seqLess, seqSub, hseq']
    omega
  rw [wilRxReorder_some, if_neg hstale]
  by_cases hfits : n + m < r.headSeqNum + r.bufSize
  · have hin : seqLess (frames m).seq (u16 (r.headSeqNum + r.bufSize)) := by
      simp only [seqLess, seqSub, u16, hseq']
      omega
    rw [if_neg (not_not.mpr hin)]
    exact ⟨r.headSeqNum, 0, by omega, by omega, by omega, hfits, le_rfl, rfl⟩
  · have hbeyond : ¬ seqLess (frames m).seq (u16 (r.headSeqNum + r.bufSize)) := by
      simp only [seqLess, seqSub, u16, hseq']
      omega
    have hcount : releaseCount r (seqInc (seqSub (frames m).seq r.bufSize))
        = n + m + 1 - r.bufSize - r.headSeqNum := by
      rw [releaseCount, if_pos]
      · simp only [seqSub, seqInc, hseq']
        omega
      · simp only [seqLess, seqSub, seqInc, hseq']
        omega
    have hadv := advanceN_empty (k := n + m + 1 - r.bufSize - r.headSeqNum) h.ssn_eq rfl (by omega)
      fun j hj => h.slot_before (p := r.headSeqNum + j) (by omega) (by omega)
    rw [if_pos hbeyond, hcount, hadv]
    exact ⟨r.headSeqNum + (n + m + 1 - r.bufSize - r.headSeqNum), _, by omega, by omega, by omega,
      by omega, by omega, rfl⟩

/-- The session with the head moved to `p` and the next frame stored. -/
lemma slot_store (h : Lagging frames n m r) (hseq : (frames m).seq = (n + m) % 4096) {p : ℕ}
    (hp : p < 4096) (i : ℕ) :
    (storeFrame { r with headSeqNum := p } (frames m)).slot i
      = if i = (n + m) % r.bufSize then some (frames m) else r.slot i := by
  have hlt := h.lt
  have hahead := h.ahead_le
  have hsize := h.size_lt
  have hidx : reorderIndex { r with headSeqNum := p } (frames m).seq = (n + m) % r.bufSize := by
    rw [hseq, Nat.mod_eq_of_lt (by omega)]
    exact reorderIndex_zero (r := { r with headSeqNum := p }) h.ssn_eq (by omega)
  rw [slot_storeFrame (h.inv.withHead hp), hidx]
  rfl

lemma slot_store_iff (h : Lagging frames n m r) (hseq : (frames m).seq = (n + m) % 4096) {p : ℕ}
    (hp : p < 4096) (i : ℕ) (f : RxSkb) :
    (storeFrame { r with headSeqNum := p } (frames m)).slot i = some f ↔
      ∃ j < m + 1, i = (n + j) % r.bufSize ∧ f = frames j := by
  rw [h.slot_store hseq hp]
  constructor
  · intro hi
    split_ifs at hi with heq
    · exact ⟨m, by omega, heq, (Option.some.inj hi).symm⟩
    · obtain ⟨j, hj, hmod, hf⟩ := (h.slot_iff _ _).mp hi
      exact ⟨j, by omega, hmod, hf⟩
  · rintro ⟨j, hj, rfl, rfl⟩
    rcases Nat.lt_succ_iff_lt_or_eq.mp hj with hjm | rfl
    · have hlt := h.lt
      rw [if_neg (Circular.ne_of_window (show n + j < n + m by omega) (by omega))]
      exact (h.slot_iff _ _).mpr ⟨j, hjm, rfl, rfl⟩
    · rw [if_pos rfl]

lemma reorderIndex_store (h : Lagging frames n m r) {p q : ℕ} (hq : q < 4096) :
    reorderIndex (storeFrame { r with headSeqNum := p } (frames m)) q = q % r.bufSize :=
  reorderIndex_zero (r := storeFrame { r with headSeqNum := p } (frames m)) h.ssn_eq hq

lemma inv_store (h : Lagging frames n m r) (hseq : (frames m).seq = (n + m) % 4096) {p : ℕ}
    (hp : p < 4096) : SlotInv (storeFrame { r with headSeqNum := p } (frames m)) := by
  refine (h.inv.withHead hp).storeFrame ?_
  have hlt := h.lt
  have hahead := h.ahead_le
  have hsize := h.size_lt
  rw [hseq, Nat.mod_eq_of_lt (by omega),
    reorderIndex_zero (r := { r with headSeqNum := p }) h.ssn_eq (by omega)]
  exact h.slot_next

/-- The frame goes to its slot, unless it is the one that an empty session waits for. -/
lemma store_eq (h : Lagging frames n m r) (hseq : (frames m).seq = (n + m) % 4096) {p : ℕ}
    (hne : n + m ≠ p) :
    wilRxReorderStore { r with headSeqNum := p } (frames m)
      = wilReorderRelease (storeFrame { r with headSeqNum := p } (frames m)) := by
  have hlt := h.lt
  have hahead := h.ahead_le
  have hsize := h.size_lt
  have hseq' : (frames m).seq = n + m := by omega
  have hslot : ({ r with headSeqNum := p } : WilTidAmpduRx).slot
      (reorderIndex { r with headSeqNum := p } (frames m).seq) = none := by
    rw [hseq', reorderIndex_zero (r := { r with headSeqNum := p }) h.ssn_eq (by omega)]
    exact h.slot_next
  rw [wilRxReorderStore_eq, hslot, if_neg (by simp), if_neg]
  rintro ⟨hsame, -⟩
  exact hne (hseq'.symm.trans hsame)

/-- **While the window does not reach the stream, frames wait.** -/
theorem wait (h : Lagging frames n m r) (hm : m + 1 < r.bufSize)
    (hseq : (frames m).seq = (n + m) % 4096) :
    ∃ r' es, wilRxReorder (some r) (frames m) = (some r', es) ∧ Lagging frames n (m + 1) r' ∧
      r'.bufSize = r.bufSize ∧ Takes frames 0 0 es := by
  obtain ⟨p, k, hpn, hlt, -, hwin, hle, heq⟩ := h.reach (.inl (by omega)) hseq
  have hp := hlt hm
  have hahead := h.ahead_le
  have hempty : HeadEmpty (storeFrame { r with headSeqNum := p } (frames m)) := by
    rw [HeadEmpty, show (storeFrame { r with headSeqNum := p } (frames m)).headSeqNum = p from rfl,
      h.reorderIndex_store (by omega), h.slot_store hseq (by omega), if_neg]
    · exact h.slot_before hle hp
    · exact Circular.ne_of_window (show p < n + m by omega) (by omega)
  have hstore := h.store_eq (p := p) hseq (by omega)
  rw [wilReorderRelease_of_empty hempty] at hstore
  rw [hstore] at heq
  refine ⟨_, _, heq, ?_, rfl, ?_⟩
  · exact ⟨h.inv_store hseq (by omega), h.ssn_eq, hm, h.size_lt, hahead, hp,
      .inl (show n + (m + 1) ≤ p + r.bufSize by omega), h.slot_store_iff hseq (by omega)⟩
  · obtain ⟨hnone, hfree⟩ := handedOver_replicate k
    exact ⟨by simp [hnone], by simpa using hfree⟩

/-- **Once the window reaches the stream, everything that waited is handed over.** -/
theorem reached (h : Lagging frames n m r) (hm : m + 1 = r.bufSize)
    (hlo : 2 ≤ r.bufSize ∨ n ≤ 2047) (hseq : (frames m).seq = (n + m) % 4096) :
    ∃ r' es, wilRxReorder (some r) (frames m) = (some r', es) ∧ InStep n (m + 1) r' ∧
      Takes frames 0 (m + 1) es := by
  obtain ⟨p, k, -, -, hp, hwin, hle, heq⟩ := h.reach hlo hseq
  obtain rfl := hp hm
  have hahead := h.ahead_le
  have hsize := h.size_lt
  obtain ⟨hnone, hfree⟩ := handedOver_replicate k
  rcases Nat.eq_zero_or_pos m with rfl | hpos
  · -- a window of one: nothing waited, and the frame is handed over directly
    have hempty : ∀ i, r.slot i = none := by
      intro i
      by_contra hne
      obtain ⟨f, hf⟩ := Option.ne_none_iff_exists'.mp hne
      obtain ⟨j, hj, -⟩ := (h.slot_iff _ _).mp hf
      omega
    have hhead : (frames 0).seq = p := by rw [hseq]; omega
    have hdirect := wilRxReorderStore_direct (h.inv.withHead (p := p) (by omega)) hempty hhead
    rw [hdirect] at heq
    have hone := Takes.single frames 0
    refine ⟨_, _, heq, ⟨(h.inv.withHead (seqInc_lt _)), hsize, hempty, ?_⟩,
      by rw [handedOver_append, hnone, hone.handed]; rfl, hfree.append hone.noneFreed⟩
    simp [seqInc]
  · have hslots := h.slot_store_iff hseq (p := p) (by omega)
    rw [hm] at hslots
    obtain ⟨r', hr', hclear⟩ := wilReorderRelease_window (h.inv_store hseq (by omega)) h.ssn_eq rfl
      (show p + r.bufSize < 4096 by omega) hslots
    obtain ⟨hall, hfree'⟩ := handedOver_headInc (fun j => some (frames j)) (List.range r.bufSize)
    have hstore := h.store_eq (p := p) hseq (by omega)
    rw [hstore, hr'] at heq
    refine ⟨_, _, heq, hclear hsize (m + 1) (by rw [hm]; rfl), ?_, hfree.append hfree'⟩
    calc handedOver (List.replicate k (.headInc none)
            ++ (List.range r.bufSize).map fun j => .headInc (some (frames j)))
          = (List.range r.bufSize).map frames := by
            rw [handedOver_append, hnone, hall, List.nil_append, List.filterMap_eq_map']
      _ = (List.range' 0 (m + 1 - 0)).map frames := by
            rw [hm, List.range_eq_range', Nat.sub_zero]

end Lagging

/-! ## The run -/

/-- Where the session is after `m` frames of the stream, `d` of which are handed over. -/
def Phase (frames : ℕ → RxSkb) (n m d : ℕ) (r : WilTidAmpduRx) : Prop :=
  (Lagging frames n m r ∧ (2 ≤ r.bufSize ∨ n ≤ 2047) ∧ d = 0) ∨
    ((InStep n m r ∨ Behind n m r) ∧ d = m)

/-- A new session that starts at 0, with a stream that is at most half of the space ahead. -/
lemma phase_alloc {size : ℕ} (hpos : 0 < size) (hsize : size < 256) (hn : n ≤ 2048)
    (hr : wilTidAmpduRxAlloc true size 0 = some r) : Phase frames n 0 0 r := by
  obtain ⟨hinv, hbuf, hssn, hhead, -⟩ := windowInv_alloc hpos (by omega) (by omega) hr
  have hempty := slot_alloc hr
  have hlt : r.bufSize < 256 := by omega
  rcases Nat.eq_zero_or_pos n with rfl | hn0
  · exact .inr ⟨.inl ⟨hinv.toSlotInv, hlt, hempty, by omega⟩, rfl⟩
  · by_cases hhalf : size = 1 ∧ n = 2048
    · exact .inr ⟨.inr ⟨⟨hinv.toSlotInv, hlt, hempty, by omega⟩, by omega⟩, rfl⟩
    · refine .inl ⟨⟨hinv.toSlotInv, hssn, by omega, hlt, hn, by omega, .inr rfl, ?_⟩, by omega, rfl⟩
      intro i f
      rw [hempty]
      simp

/-- **One frame of the stream.** -/
theorem Phase.receive {d : ℕ} (h : Phase frames n m d r)
    (hseq : (frames m).seq = (n + m) % 4096) :
    ∃ r' d' es, wilRxReorder (some r) (frames m) = (some r', es) ∧
      Phase frames n (m + 1) d' r' ∧ d ≤ d' ∧ Takes frames d d' es := by
  rcases h with ⟨hlag, hlo, rfl⟩ | ⟨hstep | hbehind, rfl⟩
  · have hlt := hlag.lt
    rcases Nat.lt_or_ge (m + 1) r.bufSize with hm | hm
    · obtain ⟨r', es, heq, hlag', hbuf, htakes⟩ := hlag.wait hm hseq
      exact ⟨r', 0, es, heq, .inl ⟨hlag', by rwa [hbuf], rfl⟩, le_rfl, htakes⟩
    · obtain ⟨r', es, heq, hstep, htakes⟩ := hlag.reached (by omega) hlo hseq
      exact ⟨r', m + 1, es, heq, .inr ⟨.inl hstep, rfl⟩, Nat.zero_le _, htakes⟩
  · obtain ⟨r', es, heq, hstep', htakes⟩ := hstep.receive hseq
    exact ⟨r', _, es, heq, .inr ⟨.inl hstep', rfl⟩, Nat.le_succ _, htakes⟩
  · obtain ⟨r', es, heq, hbehind', htakes⟩ := hbehind.receive hseq
    exact ⟨r', _, es, heq, .inr ⟨.inr hbehind', rfl⟩, Nat.le_succ _, htakes⟩

/-- **The run over the stream**: a prefix of what came has been handed over, all of it once a
window's worth of frames has come, and nothing has been freed. -/
theorem phase_run (h : Phase frames n 0 0 r) (hseq : ∀ k, (frames k).seq = (n + k) % 4096) (m : ℕ) :
    ∃ r' d, (Machine.run wilRxReorder (some r) ((List.range m).map frames)).1 = some r' ∧
      Phase frames n m d r' ∧
      handedOver (Machine.run wilRxReorder (some r) ((List.range m).map frames)).2
        = (List.range d).map frames ∧
      NoneFreed (Machine.run wilRxReorder (some r) ((List.range m).map frames)).2 := by
  induction m with
  | zero => exact ⟨r, 0, rfl, h, rfl, fun skb => by simp⟩
  | succ m ih =>
      obtain ⟨r', d, hrun, hphase, hhanded, hfree⟩ := ih
      obtain ⟨r'', d', es, heq, hphase', hle, htakes⟩ := hphase.receive (hseq m)
      rw [List.range_succ, List.map_append, List.map_singleton, Machine.run_concat, hrun, heq]
      refine ⟨r'', d', rfl, hphase', ?_, hfree.append htakes.noneFreed⟩
      rw [handedOver_append, hhanded, htakes.handed, ← List.map_append, List.range_eq_range',
        List.range_eq_range', show List.range' 0 d ++ List.range' d (d' - d)
          = List.range' 0 d ++ List.range' (0 + 1 * d) (d' - d) by simp, List.range'_append]
      congr 2
      omega

/-- **A stream that ends** after `m` frames, less than a window of them, may leave them all in the
session; one that ends later leaves nothing. -/
theorem stream_stored {size : ℕ} (hpos : 0 < size) (hsize : size < 256) (hn : n ≤ 2048)
    (hr : wilTidAmpduRxAlloc true size 0 = some r) (hseq : ∀ k, (frames k).seq = (n + k) % 4096)
    (m : ℕ) :
    ∃ r', (Machine.run wilRxReorder (some r) ((List.range m).map frames)).1 = some r' ∧
      (m < size ∧
          handedOver (Machine.run wilRxReorder (some r) ((List.range m).map frames)).2 = [] ∧
          (∀ i f, r'.slot i = some f ↔ ∃ j < m, i = (n + j) % size ∧ f = frames j) ∨
        handedOver (Machine.run wilRxReorder (some r) ((List.range m).map frames)).2
            = (List.range m).map frames ∧
          ∀ i, r'.slot i = none) := by
  obtain ⟨r', d, hrun, hphase, hhanded, -⟩ := phase_run (phase_alloc hpos hsize hn hr) hseq m
  have hsize' : r'.bufSize = size := by
    have hkept := Machine.run_invariant (I := fun o => o.map WilTidAmpduRx.bufSize = some size)
      (fun o skb ho => (bufSize_wilRxReorder o skb).trans ho) (s := some r)
      (congrArg some ((bufSize_wilTidAmpduRxAlloc hr).2.trans (Nat.mod_eq_of_lt (by omega))))
      ((List.range m).map frames)
    rw [hrun] at hkept
    exact Option.some.inj hkept
  refine ⟨r', hrun, ?_⟩
  rw [hhanded, ← hsize']
  rcases hphase with ⟨hlag, -, rfl⟩ | ⟨hclear, rfl⟩
  · exact .inl ⟨hlag.lt, rfl, hlag.slot_iff⟩
  · refine .inr ⟨rfl, ?_⟩
    rcases hclear with hstep | ⟨hbehind, -⟩
    · exact hstep.empty
    · exact hbehind.empty

end Session

/-! ## The replacement -/

section Replace

variable {s : Wil} {evt : WmiVringBaStatusEvent} {ringid : RingId} {cid : Cid} {tid : Fin 16}
  {frames : ℕ → RxSkb} {n : ℕ}

/-- The event makes new sessions for the station that the ring is mapped to. -/
lemma tidRx_wmiEvtBaStatus (hring : evt.ringid.toNat = ringid.val) (howner : s.owner ringid = cid.val)
    (hsta : (s.sta cid).status ≠ .unused) (hagreed : evt.agreed = true)
    (allocOk : Fin 16 → Bool) (tid : Fin 16) :
    ((wmiEvtBaStatus s evt allocOk).1.sta cid).tidRx tid
      = wilTidAmpduRxAlloc (allocOk tid) evt.aggWsize.toNat 0 := by
  have hlt := ringid.isLt
  have hfin : (⟨evt.ringid.toNat, by omega⟩ : RingId) = ringid := Fin.ext hring
  have hacc : baStatusAccepts s evt = some (ringid, cid) := by
    simp only [baStatusAccepts]
    rw [dif_pos (by omega), hfin, dif_pos (by rw [howner]; exact cid.isLt)]
    have hcid : (⟨s.owner ringid, by rw [howner]; exact cid.isLt⟩ : Cid) = cid := Fin.ext howner
    rw [hcid, if_neg hsta]
  simp [wmiEvtBaStatus, hacc, hagreed]

/-- A stream of one station and TID is what its session makes of it. -/
lemma streamEvents_eq (hfrom : ∀ k, (frames k).cid = cid ∧ (frames k).tid = tid) (m : ℕ) :
    streamEvents s frames m
      = (Machine.run wilRxReorder ((s.sta cid).tidRx tid) ((List.range m).map frames)).2 := by
  have hall : ∀ skb ∈ (List.range m).map frames, skb.cid = cid ∧ skb.tid = tid := by
    rintro skb hskb
    obtain ⟨k, -, rfl⟩ := List.mem_map.mp hskb
    exact hfrom k
  rw [streamEvents, run_wilRxReorderSta _ _ hall, List.filterMap_map]
  exact List.filterMap_some

/-- **A stream across the replacement of its session.**  For a stream of consecutive sequence
numbers of which `n` is the next: it is kept exactly where `n` is in the half of the space that
the new session takes to be ahead of it, or there is no new session for want of memory. -/
theorem streamKept_wmiEvtBaStatus_iff (hring : evt.ringid.toNat = ringid.val)
    (howner : s.owner ringid = cid.val) (hsta : (s.sta cid).status ≠ .unused)
    (hagreed : evt.agreed = true) (allocOk : Fin 16 → Bool)
    (hfrom : ∀ k, (frames k).cid = cid ∧ (frames k).tid = tid) (hn : n < 4096)
    (hseq : ∀ k, (frames k).seq = (n + k) % 4096) :
    StreamKept (wmiEvtBaStatus s evt allocOk).1 frames ↔ (n ≤ 2048 ∨ allocOk tid = false) := by
  have hsession := tidRx_wmiEvtBaStatus hring howner hsta hagreed allocOk tid
  have hevents := fun m => streamEvents_eq (s := (wmiEvtBaStatus s evt allocOk).1) hfrom m
  simp only [hsession] at hevents
  have hpos : 0 < evt.aggWsize.toNat := by
    have hne : evt.aggWsize ≠ 0 := (of_decide_eq_true hagreed).2
    exact Nat.pos_of_ne_zero (by simpa [← UInt8.toNat_inj] using hne)
  have hlt := evt.aggWsize.toNat_lt
  simp only [StreamKept, hevents]
  cases hok : allocOk tid with
  | false =>
      -- without a session every frame goes straight to the stack
      have hnone : ∀ fs, Machine.run wilRxReorder none fs = (none, fs.map .netifRx) := by
        intro fs
        induction fs with
        | nil => rfl
        | cons skb fs ih => rw [Machine.run_cons, show wilRxReorder none skb
            = (none, [.netifRx skb]) from rfl, ih]; rfl
      rw [show wilTidAmpduRxAlloc false evt.aggWsize.toNat 0 = none from rfl]
      simp only [hnone, or_true, iff_true]
      refine ⟨fun k => ⟨k, ?_⟩, fun m skb => by simp⟩
      simp [handedOver, List.filterMap_map, Function.comp_def]
  | true =>
      obtain ⟨r, hr⟩ : ∃ r, wilTidAmpduRxAlloc true evt.aggWsize.toNat 0 = some r := ⟨_, rfl⟩
      rw [hr]
      simp only [reduceCtorEq, or_false]
      constructor
      · -- the first frame of a stream that is behind is dropped
        rintro ⟨-, hfree⟩
        by_contra hgt
        obtain ⟨-, -, -, hhead, -⟩ := windowInv_alloc hpos (by omega) (by omega) hr
        have hstale : seqLess (frames 0).seq r.headSeqNum := by
          rw [hseq, hhead]
          simp only [seqLess, seqSub]
          omega
        refine (hfree 1 (frames 0)).1 ?_
        rw [show (List.range 1).map frames = [frames 0] from rfl, Machine.run_cons,
          wilRxReorder_some, if_pos hstale]
        simp
      · intro hle
        have hphase : Phase frames n 0 0 r := phase_alloc hpos (by omega) hle hr
        have hrun := phase_run hphase hseq
        constructor
        · intro k
          obtain ⟨r', d, -, hphase, hhanded, -⟩ := hrun (k + 256)
          refine ⟨k + 256, ?_⟩
          obtain rfl : d = k + 256 := by
            rcases hphase with ⟨hlag, -⟩ | ⟨-, hd⟩
            · have := hlag.lt
              have := hlag.size_lt
              omega
            · exact hd
          rw [hhanded, List.range_add, List.map_append]
          exact List.prefix_append _ _
        · intro m
          obtain ⟨-, -, -, -, -, hfree⟩ := hrun m
          exact hfree

end Replace

/-- A frame with nothing but a sequence number is from CID 0 and TID 0. -/
lemma seqFrame_from (seq : ℕ) : (seqFrame seq).cid = 0 ∧ (seqFrame seq).tid = 0 := by
  have hcid : (seq <<< 16) >>> 4 &&& (2 ^ 3 - 1) = 0 := by
    rw [Nat.and_two_pow_sub_one_eq_mod, Nat.shiftLeft_eq, Nat.shiftRight_eq_div_pow]
    omega
  have htid : (seq <<< 16) >>> 0 &&& (2 ^ 4 - 1) = 0 := by
    rw [Nat.and_two_pow_sub_one_eq_mod, Nat.shiftLeft_eq, Nat.shiftRight_zero]
    omega
  exact ⟨Fin.ext hcid, Fin.ext htid⟩

/-- Station 0 connected, with ring 0. -/
def oneStation : Wil :=
  let start := wilPrivInit .ap (some 1)
  { start with
    sta := Function.update start.sta 0 { start.sta 0 with addr := 2, status := .connected } }

/-- An agreement on a window of 16 frames, on ring 0. -/
def agreement : WmiVringBaStatusEvent := ⟨0, 0, 16, 0⟩

/-- At 5 the stream is ahead of the new session. -/
theorem streamKept_ahead :
    StreamKept (wmiEvtBaStatus oneStation agreement fun _ => true).1
      fun k => seqFrame ((5 + k) % 4096) := by
  have hring : agreement.ringid.toNat = (0 : RingId).val := by decide
  have howner : oneStation.owner 0 = (0 : Cid).val := rfl
  have hseq : ∀ k, (seqFrame ((5 + k) % 4096)).seq = (5 + k) % 4096 :=
    fun k => seq_seqFrame (Nat.mod_lt _ (by norm_num))
  exact (streamKept_wmiEvtBaStatus_iff hring howner (by decide) rfl _ (fun _ => seqFrame_from _)
    (by norm_num) hseq).mpr (.inl (by norm_num))

/-- At 3000 it is behind, and its next frame is dropped as out of date. -/
theorem not_streamKept :
    ¬ ∀ (s : Wil) (evt : WmiVringBaStatusEvent) (ringid : RingId) (cid : Cid) (tid : Fin 16)
      (allocOk : Fin 16 → Bool) (frames : ℕ → RxSkb) (n : ℕ),
      evt.ringid.toNat = ringid.val → s.owner ringid = cid.val → (s.sta cid).status = .connected →
      evt.agreed = true → allocOk tid = true →
      (∀ k, (frames k).cid = cid ∧ (frames k).tid = tid) → n < 4096 →
      (∀ k, (frames k).seq = (n + k) % 4096) →
      StreamKept (wmiEvtBaStatus s evt allocOk).1 frames := by
  intro h
  have hkept := h oneStation agreement 0 0 0 (fun _ => true) (fun k => seqFrame ((3000 + k) % 4096))
    3000 (by decide) rfl (by decide) rfl rfl (fun _ => seqFrame_from _) (by norm_num)
    (fun _ => seq_seqFrame (Nat.mod_lt _ (by norm_num)))
  exact (hkept.2 1 (seqFrame 3000)).1 (by decide +kernel)

end Wil6210
