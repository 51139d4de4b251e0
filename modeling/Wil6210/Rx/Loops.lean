import Wil6210.Rx.Advance

/-!
# What the two release loops do, pass by pass

Both loops visit the slots of consecutive head positions, whatever is stored there: no invariant of
the session is assumed.  `Passed r n p` says that `p` is what comes of `n` passes from `r`.  A slot
that is visited again is empty by then, so a frame is delivered at the first visit of its slot.

`releaseLoops` is the count: the window advance loop makes as many passes as `hseq` is ahead of the
head, where that is at most 2047, and none otherwise; the other loop makes at most as many as there
are frames, and stops at the first empty slot.
-/

namespace Wil6210

variable {r : WilTidAmpduRx}

/-- The slot of the head position in pass `j`. -/
def visited (r : WilTidAmpduRx) (j : ℕ) : ℕ := reorderIndex r ((r.headSeqNum + j) % 4096)

/-- The slots of the first `n` positions, each once, in the order of their first visits. -/
def visitedSlots (r : WilTidAmpduRx) (n : ℕ) : List ℕ := ((List.range n).map (visited r)).eraseDups

/-- What comes of `n` passes: the frames of the slots visited are delivered, and no other slot
changes. -/
structure Passed (r : WilTidAmpduRx) (n : ℕ) (p : WilTidAmpduRx × List RxEvent) : Prop where
  count : p.2.length = n
  advances : ∀ e ∈ p.2, ∃ o, e = .headInc o
  delivered : handedOver p.2 = (visitedSlots r n).filterMap r.slot
  slot : ∀ i, p.1.slot i = if i ∈ visitedSlots r n then none else r.slot i
  head : 0 < n → p.1.headSeqNum = (r.headSeqNum + n) % 4096
  kept : p.1.ssn = r.ssn ∧ p.1.bufSize = r.bufSize ∧ p.1.ssnLastDrop = r.ssnLastDrop

/-! ## One pass -/

/-- An element at the end of a list is new or is dropped. -/
lemma eraseDups_concat (l : List ℕ) (a : ℕ) :
    (l ++ [a]).eraseDups = if a ∈ l then l.eraseDups else l.eraseDups ++ [a] := by
  rw [List.eraseDups_append, List.removeAll, List.filter_singleton, List.elem_eq_contains,
    List.contains_eq_mem]
  split_ifs with h
  · rw [decide_eq_true h]
    exact List.append_nil _
  · rw [decide_eq_false h]
    rfl

lemma visitedSlots_succ (r : WilTidAmpduRx) (n : ℕ) : visitedSlots r (n + 1)
    = if visited r n ∈ visitedSlots r n then visitedSlots r n
      else visitedSlots r n ++ [visited r n] := by
  simp only [visitedSlots, List.range_succ, List.map_append, List.map_singleton, eraseDups_concat,
    List.mem_eraseDups]

/-- The sequence number of a position is taken modulo 4096. -/
lemma reorderIndex_mod (r : WilTidAmpduRx) (seq : ℕ) :
    reorderIndex r (seq % 4096) = reorderIndex r seq := by
  rw [reorderIndex, reorderIndex, seqSub_eq_sub, seqSub_eq_sub, Serial.sub_mod_left]

/-- Emptying a slot, also one that is not there. -/
lemma slot_set_none (r : WilTidAmpduRx) (index i : ℕ) :
    ({ r with reorderBuf := r.reorderBuf.set index none } : WilTidAmpduRx).slot i
      = if i = index then none else r.slot i := by
  rcases Nat.lt_or_ge index r.reorderBuf.length with hlt | hge
  · exact slot_set none hlt
  · have hset : r.reorderBuf.set index none = r.reorderBuf := List.set_eq_of_length_le hge
    have hout : r.slot index = none := by
      rw [WilTidAmpduRx.slot, List.getD_eq_getElem?_getD, List.getElem?_eq_none hge]
      rfl
    rw [hset]
    split_ifs with hi
    · rw [hi, hout]
    · rfl

/-- A pass that delivers `o`. -/
lemma advance_eq (r : WilTidAmpduRx) :
    (advance r).2 = .headInc (r.slot (visited r 0)) ∧
      (∀ i, (advance r).1.slot i = if i = visited r 0 then none else r.slot i) ∧
      (advance r).1.ssnLastDrop = r.ssnLastDrop := by
  have hindex : visited r 0 = reorderIndex r r.headSeqNum := reorderIndex_mod r _
  rw [hindex]
  refine ⟨?_, fun i => ?_, ?_⟩
  · simp only [advance, wilReleaseReorderFrame]
    split <;> simp [*]
  · rw [← slot_set_none, advance, WilTidAmpduRx.slot, wilReleaseReorderFrame_buf]
    rfl
  · simp only [advance, wilReleaseReorderFrame]
    split <;> rfl

/-! ## Any number of passes -/

lemma visited_zero_advanceN (n : ℕ) (r : WilTidAmpduRx)
    (hhead : 0 < n → (advanceN n r).1.headSeqNum = (r.headSeqNum + n) % 4096) :
    visited (advanceN n r).1 0 = visited r n := by
  rw [visited, reorderIndex_advanceN, visited]
  rcases Nat.eq_zero_or_pos n with rfl | hpos
  · rfl
  · rw [hhead hpos, Nat.add_zero, Nat.mod_mod]

/-- **`n` passes**, from any state. -/
theorem passed_advanceN (n : ℕ) (r : WilTidAmpduRx) : Passed r n (advanceN n r) := by
  induction n with
  | zero =>
      refine ⟨rfl, fun e he => absurd he (by simp [advanceN]), rfl, fun i => ?_, fun h => ?_,
        rfl, rfl, rfl⟩
      · simp [visitedSlots, advanceN]
      · omega
  | succ n ih =>
      obtain ⟨hevent, hslots, hdrop⟩ := advance_eq (advanceN n r).1
      rw [visited_zero_advanceN n r ih.head] at hevent hslots
      rw [ih.slot] at hevent
      have hnew := visitedSlots_succ r n
      have hold : (advanceN (n + 1) r).1 = (advance (advanceN n r).1).1 := by
        rw [advanceN_succ']
      have htrace : (advanceN (n + 1) r).2
          = (advanceN n r).2 ++ [(advance (advanceN n r).1).2] := by
        rw [advanceN_succ']
      refine ⟨?_, fun e he => ?_, ?_, fun i => ?_, fun _ => ?_, by simp, by simp, ?_⟩
      · rw [htrace, List.length_append, ih.count, List.length_singleton]
      · rw [htrace, List.mem_append, List.mem_singleton] at he
        rcases he with he | rfl
        · exact ih.advances e he
        · exact ⟨_, hevent⟩
      · rw [htrace, handedOver_append, ih.delivered, hevent, hnew]
        split_ifs with hmem
        · simp [handedOver]
        · rw [List.filterMap_append]
          rfl
      · rw [hold, hslots, ih.slot, hnew]
        by_cases hi : i = visited r n
        · subst hi
          rw [if_pos rfl]
          split_ifs with hmem <;> simp_all
        · rw [if_neg hi]
          split_ifs <;> simp_all
      · rw [hold, advance, wilReleaseReorderFrame_head, seqInc]
        rcases Nat.eq_zero_or_pos n with rfl | hpos
        · rfl
        · rw [ih.head hpos]
          omega
      · rw [hold, hdrop, ih.kept.2.2]

/-! ## The two loops -/

/-- What must hold of the window advance loop. -/
structure AdvancesTo (r : WilTidAmpduRx) (hseq : ℕ) : Prop where
  passes : ∀ k : ℕ, (k : ℤ) = ((hseq : ℤ) - r.headSeqNum) % 4096 → 1 ≤ k → k ≤ 2047 →
    Passed r k (wilReleaseReorderFrames r hseq) ∧
      (wilReleaseReorderFrames r hseq).1.headSeqNum = hseq % 4096
  still : ∀ k : ℕ, (k : ℤ) = ((hseq : ℤ) - r.headSeqNum) % 4096 → ¬ (1 ≤ k ∧ k ≤ 2047) →
    wilReleaseReorderFrames r hseq = (r, [])

/-- What must hold of the release at the head: it stops at the first position with an empty slot,
and has delivered a frame for each position before. -/
structure StopsAtEmpty (r : WilTidAmpduRx) (n : ℕ) : Prop where
  passes : Passed r n (wilReorderRelease r)
  count_le : n ≤ r.occupied
  stops : HeadEmpty (wilReorderRelease r).1
  first : ∀ j < n, ¬ HeadEmpty (advanceN j r).1

/-- Each pass over an occupied slot leaves one frame less. -/
lemma occupied_advanceN {n : ℕ} (h : ∀ j < n, ¬ HeadEmpty (advanceN j r).1) :
    (advanceN n r).1.occupied + n = r.occupied := by
  induction n with
  | zero => rfl
  | succ n ih =>
      have hone : (advance (advanceN n r).1).1.occupied + 1 = (advanceN n r).1.occupied :=
        occupied_wilReleaseReorderFrame (Option.isSome_iff_ne_none.mpr (h n (Nat.lt_succ_self n)))
      have hrest := ih fun j hj => h j (by omega)
      rw [advanceN_succ']
      show (advance (advanceN n r).1).1.occupied + (n + 1) = r.occupied
      omega

lemma seqSub_of_eq {k hseq head : ℕ} (hk : (k : ℤ) = ((hseq : ℤ) - head) % 4096) :
    seqSub hseq head = k := by
  simp only [seqSub]
  omega

/-- **The window advance loop**, for any `hseq`. -/
lemma advancesTo (hhead : r.headSeqNum < 4096) (hseq : ℕ) : AdvancesTo r hseq := by
  have hloop := wilReleaseReorderFrames_eq r hseq
  refine ⟨fun k hk h1 h2 => ?_, fun k hk hfar => ?_⟩
  · have hcount : releaseCount r hseq = k := by
      rw [releaseCount, if_pos (seqLess_iff_seqSub.mpr (by rw [seqSub_of_eq hk]; exact ⟨h1, h2⟩)),
        seqSub_of_eq hk]
    rw [hloop, hcount]
    refine ⟨passed_advanceN k r, ?_⟩
    rw [advanceN_head hhead]
    omega
  · have hless : ¬ seqLess r.headSeqNum hseq := by
      rw [seqLess_iff_seqSub, seqSub_of_eq hk]
      exact hfar
    rw [hloop, releaseCount, if_neg hless]
    rfl

/-- **The release at the head**, from any state. -/
lemma stopsAtEmpty (r : WilTidAmpduRx) : ∃ n, StopsAtEmpty r n := by
  obtain ⟨n, heq, hempty, hall⟩ := wilReorderRelease_eq r
  have hocc := occupied_advanceN hall
  exact ⟨n, heq ▸ passed_advanceN n r, by omega, heq ▸ hempty, hall⟩

/-- **Both loops terminate, after the passes they should make.** -/
theorem releaseLoops (r : WilTidAmpduRx) (hseq : ℕ) :
    (r.headSeqNum < 4096 → AdvancesTo r hseq) ∧ ∃ n, StopsAtEmpty r n :=
  ⟨fun hhead => advancesTo hhead hseq, stopsAtEmpty r⟩

/-- Two frames at the wrap of the sequence numbers. -/
theorem releaseLoops_wrap : AdvancesTo
      ⟨[some (seqFrame 4095), some (seqFrame 0), none], 4095, 2, 4095, 3, 0⟩ 4098 ∧
    ∃ n, StopsAtEmpty ⟨[some (seqFrame 4095), some (seqFrame 0), none], 4095, 2, 4095, 3, 0⟩ n :=
  ⟨(releaseLoops _ 4098).1 (by decide), (releaseLoops _ 4098).2⟩

end Wil6210
