import Wil6210.Tx.Post

/-!
# What `wil_tx_complete` does

The ring is described by positions: `released` for the tail, `posted` for the head, and `passed`
in between for the descriptors the hardware is done with, behind which no posted descriptor is
marked.  The first loop finds the last marked descriptor (`swtailToRel_last`), and the second loop
releases the slots from the tail up to that one, without it, unless it stops at an unmarked
descriptor that ends a packet (`txCompletion_stop`).
-/

namespace Wil6210

open Circular (slots mem_slots)

variable {v : Vring} {s : TxState} {released passed posted : ℕ}

/-- The ring between two positions, with everything the hardware has not passed still unmarked. -/
structure RingAt (v : Vring) (released passed posted : ℕ) : Prop where
  swtail : v.swtail = released % v.size
  swhead : v.swhead = posted % v.size
  released_le : released ≤ passed
  passed_le : passed ≤ posted
  room : posted < released + v.size
  clear : ∀ k, passed ≤ k → k < posted → ¬ (v.desc (k % v.size)).du
  held : ∀ k, released ≤ k → k < posted → ∃ skb, v.ctx (k % v.size) = some skb

lemma RingAt.size_pos (h : RingAt v released passed posted) : 0 < v.size := by
  have := h.room
  have := h.released_le
  have := h.passed_le
  omega

/-- The slots in use are the positions in use. -/
lemma RingAt.used_eq (h : RingAt v released passed posted) : v.used = posted - released := by
  rw [Vring.used, h.swtail, h.swhead]
  exact Circular.dist_mod (h.released_le.trans h.passed_le) h.room

/-! ## The first loop -/

/-- `r` is the position of the last marked descriptor, or of the tail where none is marked. -/
structure LastMarked (v : Vring) (released posted r : ℕ) : Prop where
  le : released ≤ r
  marked : r = released ∨ r < posted ∧ (v.desc (r % v.size)).du
  rest : ∀ k, r < k → k < posted → ¬ (v.desc (k % v.size)).du

/-- **The first loop** finds it. -/
lemma swtailToRel_last (h : RingAt v released passed posted) :
    ∃ r, LastMarked v released posted r ∧ swtailToRel v = r % v.size := by
  have hle := h.released_le.trans h.passed_le
  obtain ⟨k, -, -, -, ⟨r, hr, hmark, hrest, hrel⟩, hend⟩ := Circular.loop_rule
    (f := fun i rel => some (if (v.desc i).du then i else rel))
    (P := fun k rel => ∃ r, released ≤ r ∧ (r = released ∨ r < k ∧ (v.desc (r % v.size)).du) ∧
      (∀ j, r < j → j < k → ¬ (v.desc (j % v.size)).du) ∧ rel = r % v.size)
    hle h.room (show posted - released ≤ v.size by have := h.room; omega)
    (s := released % v.size) ⟨released, le_rfl, .inl rfl, fun j hj hj' => by omega, rfl⟩
    (by
      rintro k rel rel' hk hkq ⟨r, hr, hmark, hrest, rfl⟩ hpass
      simp only [Option.some.injEq] at hpass
      split_ifs at hpass with hdu
      · exact ⟨k, hk, .inr ⟨Nat.lt_succ_self k, hdu⟩, fun j hj hj' => by omega, hpass.symm⟩
      · refine ⟨r, hr, hmark.imp_right fun hlt => ⟨by omega, hlt.2⟩, fun j hj hj' => ?_,
          hpass.symm⟩
        rcases Nat.lt_succ_iff_lt_or_eq.mp hj' with hlt | rfl
        · exact hrest j hj hlt
        · exact hdu)
  have hkend : k = posted := hend.resolve_right (by simp)
  subst hkend
  rw [swtailToRel, h.swtail, h.swhead]
  exact ⟨r, ⟨hr, hmark, hrest⟩, hrel⟩

/-- The hardware has passed it. -/
lemma LastMarked.le_passed {r : ℕ} (hr : LastMarked v released posted r)
    (h : RingAt v released passed posted) : r ≤ passed := by
  rcases hr.marked with rfl | ⟨hlt, hdu⟩
  · exact h.released_le
  · by_contra hpassed
    exact h.clear r (by omega) hlt hdu

/-! ## The second loop -/

/-- The references held by the positions from `a` on. -/
def heldRefs (v : Vring) (p : TxSkb → Bool) (a n : ℕ) : ℕ :=
  (List.range' a n).countP fun k => (v.ctx (k % v.size)).any p

lemma heldRefs_add (v : Vring) (p : TxSkb → Bool) (a m n : ℕ) :
    heldRefs v p a (m + n) = heldRefs v p a m + heldRefs v p (a + m) n := by
  rw [heldRefs, ← List.range'_append_1, List.countP_append]
  rfl

lemma heldRefs_congr {w : Vring} (p : TxSkb → Bool) {a n : ℕ} (hsize : w.size = v.size)
    (h : ∀ k, a ≤ k → k < a + n → w.ctx (k % v.size) = v.ctx (k % v.size)) :
    heldRefs w p a n = heldRefs v p a n := by
  refine List.countP_congr fun k hk => ?_
  rw [List.mem_range'_1] at hk
  rw [hsize, h k hk.1 hk.2]

lemma heldRefs_fresh {skb : TxSkb} (p : TxSkb → Bool) {a n : ℕ}
    (h : ∀ k, a ≤ k → k < a + n → v.ctx (k % v.size) = some skb) :
    heldRefs v p a n = if p skb then n else 0 := by
  induction n with
  | zero => simp [heldRefs]
  | succ n ih =>
      rw [heldRefs_add, ih (fun k hk hk' => h k hk (by omega))]
      have hlast := h (a + n) (by omega) (by omega)
      by_cases hp : p skb = true <;> simp [heldRefs, hlast, hp]

/-! ## Posting behind the head -/

section Posting

variable {w : Vring} {skb : TxSkb} {n : ℕ} {es : List TxEvent} {rc : ℤ}

/-- A call that posts touches no posted descriptor. -/
lemma RingAt.posting_frame (h : RingAt v released passed posted)
    (hpost : RingPosting v w skb n es rc) {k : ℕ} (hk : released ≤ k) (hkp : k < posted) :
    w.desc (k % v.size) = v.desc (k % v.size) ∧ w.ctx (k % v.size) = v.ctx (k % v.size) := by
  have hroom := hpost.room
  have hused := h.room
  rw [wilVringAvailTx, h.used_eq] at hroom
  refine hpost.frame _ ?_
  rw [h.swhead, Circular.slots_mod]
  exact Circular.notMem_slots hkp (by omega)

/-- What it posted, if it returned 0. -/
lemma RingAt.posting_fresh (h : RingAt v released passed posted)
    (hpost : RingPosting v w skb n es rc) (hrc : rc = 0) {k : ℕ} (hk : posted ≤ k)
    (hkn : k < posted + n) :
    ¬ (w.desc (k % v.size)).du ∧ w.ctx (k % v.size) = some skb := by
  refine (hpost.success hrc).2 _ ?_
  rw [h.swhead, Circular.slots_mod]
  exact mem_slots.mpr ⟨k, hk, hkn, rfl⟩

/-- **A call that posts** keeps the ring, with its descriptors added. -/
lemma RingAt.posting (h : RingAt v released passed posted) (hpost : RingPosting v w skb n es rc) :
    RingAt w released passed (posted + if rc = 0 then n else 0) := by
  have hroom := hpost.room
  have hused := h.room
  rw [wilVringAvailTx, h.used_eq] at hroom
  have hle := h.released_le.trans h.passed_le
  by_cases hrc : rc = 0
  · rw [if_pos hrc]
    refine ⟨?_, ?_, h.released_le, h.passed_le.trans (Nat.le_add_right _ _), ?_, ?_, ?_⟩ <;>
      simp only [hpost.size]
    · rw [hpost.swtail, h.swtail]
    · rw [(hpost.success hrc).1, h.swhead, Nat.mod_add_mod]
    · omega
    · intro k hk hkn
      rcases Nat.lt_or_ge k posted with hkp | hkp
      · rw [(h.posting_frame hpost (h.released_le.trans hk) hkp).1]
        exact h.clear k hk hkp
      · exact (h.posting_fresh hpost hrc hkp hkn).1
    · intro k hk hkn
      rcases Nat.lt_or_ge k posted with hkp | hkp
      · rw [(h.posting_frame hpost hk hkp).2]
        exact h.held k hk hkp
      · exact ⟨skb, (h.posting_fresh hpost hrc hkp hkn).2⟩
  · rw [if_neg hrc, Nat.add_zero]
    refine ⟨?_, ?_, h.released_le, h.passed_le, ?_, ?_, ?_⟩ <;> simp only [hpost.size]
    · rw [hpost.swtail, h.swtail]
    · rw [hpost.failure hrc, h.swhead]
    · exact hused
    · intro k hk hkp
      rw [(h.posting_frame hpost (h.released_le.trans hk) hkp).1]
      exact h.clear k hk hkp
    · intro k hk hkp
      rw [(h.posting_frame hpost hk hkp).2]
      exact h.held k hk hkp

/-- The references the posted descriptors hold, and those the call took and dropped. -/
lemma RingAt.posting_refs (h : RingAt v released passed posted)
    (hpost : RingPosting v w skb n es rc) (p : TxSkb → Bool) :
    heldRefs w p released (posted + (if rc = 0 then n else 0) - released) + dropped p es
      = heldRefs v p released (posted - released) + taken p es := by
  have hle := h.released_le.trans h.passed_le
  have hold : heldRefs w p released (posted - released)
      = heldRefs v p released (posted - released) :=
    heldRefs_congr p hpost.size fun k hk hk' => (h.posting_frame hpost hk (by omega)).2
  rw [hpost.refs p]
  by_cases hrc : rc = 0
  · have hnew : heldRefs w p posted n = if p skb then n else 0 := by
      refine heldRefs_fresh p fun k hk hk' => ?_
      rw [hpost.size]
      exact (h.posting_fresh hpost hrc hk hk').2
    rw [if_pos hrc, show posted + n - released = posted - released + n by omega, heldRefs_add,
      hold, show released + (posted - released) = posted by omega, hnew]
    simp only [hrc, true_and]
    omega
  · simp [hrc, hold]

end Posting

/-! ## The second loop, pass by pass -/

/-- The second loop at position `k`: what was released, and what is as before. -/
structure Releasing (s : TxState) (released posted k : ℕ) (c : TxCleanup) : Prop where
  same : SameRing s.vring c.state.vring
  frame : ∀ j, k ≤ j → j < posted →
    c.state.vring.desc (j % s.vring.size) = s.vring.desc (j % s.vring.size) ∧
      c.state.vring.ctx (j % s.vring.size) = s.vring.ctx (j % s.vring.size)
  done : c.done = k - released
  release : ∀ i, .release i ∈ c.events → i ∈ slots s.vring.size released (k - released)
  write : ∀ i, .write i ∉ c.events
  taken : ∀ p, taken p c.events = 0
  dropped : ∀ p, dropped p c.events = heldRefs s.vring p released (k - released)

/-- The second loop stops at such a descriptor: it ends a packet and is not marked. -/
def VringTxDesc.stalls (d : VringTxDesc) : Prop := d.eop ∧ ¬ d.du

/-- One pass of the second loop. -/
lemma Releasing.step (h : RingAt s.vring released passed posted) {k : ℕ} {c d : TxCleanup}
    (hk : released ≤ k) (hkp : k < posted) (hc : Releasing s released posted k c)
    (hpass : txCompleteSlot (k % s.vring.size) c = some d) :
    Releasing s released posted (k + 1) d ∧ ¬ (s.vring.desc (k % s.vring.size)).stalls := by
  obtain ⟨skb, hskb⟩ := h.held k hk hkp
  have hctx : c.state.vring.ctx (k % s.vring.size) = some skb := by
    rw [(hc.frame k le_rfl hkp).2, hskb]
  have hroom := h.room
  have hmem : k % s.vring.size ∈ slots s.vring.size released (k + 1 - released) :=
    mem_slots.mpr ⟨k, hk, by omega, rfl⟩
  simp only [txCompleteSlot, hctx] at hpass
  split_ifs at hpass with hbreak
  obtain rfl := Option.some.inj hpass
  rw [(hc.frame k le_rfl hkp).1] at hbreak
  refine ⟨⟨?_, ?_, ?_, ?_, ?_, ?_, ?_⟩, hbreak⟩
  · exact (hc.same.trans (SameRing.setCtx _ _ _)).trans (SameRing.setDesc _ _ _)
  · intro j hj hjp
    have hne : j % s.vring.size ≠ k % s.vring.size :=
      (Circular.ne_of_window (by omega) (by omega)).symm
    have := hc.frame j (by omega) hjp
    simpa [txClearSlot, Vring.setCtx, Vring.setDesc, hne] using this
  · show c.done + 1 = k + 1 - released
    rw [hc.done]
    omega
  · intro i hi
    simp only [List.mem_append, List.mem_cons, TxEvent.release.injEq, reduceCtorEq,
      List.not_mem_nil, or_false, false_or] at hi
    rcases hi with hi | hi | rfl
    · obtain ⟨j, hj, hj', heq⟩ := mem_slots.mp (hc.release i hi)
      exact mem_slots.mpr ⟨j, hj, by omega, heq⟩
    · exact absurd hi.symm (dmaUnmap_ne_release _ _ _ _)
    · exact hmem
  · intro i hi
    simp only [List.mem_append, List.mem_cons, reduceCtorEq, List.not_mem_nil, or_false] at hi
    rcases hi with hi | hi
    · exact hc.write i hi
    · exact dmaUnmap_ne_write _ _ _ _ hi.symm
  · intro p
    simp [hc.taken]
  · intro p
    rw [show k + 1 - released = k - released + 1 by omega, heldRefs_add,
      show released + (k - released) = k by omega]
    simp only [dropped_append, hc.dropped, dropped_cons, drops_dmaUnmap, drops_kfreeSkb,
      drops_release, dropped_nil, heldRefs, List.range'_one, List.countP_singleton, hskb,
      Option.any_some]
    by_cases hp : p skb = true <;> simp [hp]

/-- What a call of `wil_tx_complete` did: `n` slots from the tail on are released, all of them
passed by the hardware, with the reference each of them held. -/
structure TxCompletion (s : TxState) (released passed posted n : ℕ) : Prop where
  passed_le : released + n ≤ passed
  done : (wilTxComplete s).2.2 = n
  size : (wilTxComplete s).1.vring.size = s.vring.size
  va : (wilTxComplete s).1.vring.va = s.vring.va
  swhead : (wilTxComplete s).1.vring.swhead = s.vring.swhead
  swtail : (wilTxComplete s).1.vring.swtail = (released + n) % s.vring.size
  frame : ∀ j, released + n ≤ j → j < posted →
    (wilTxComplete s).1.vring.desc (j % s.vring.size) = s.vring.desc (j % s.vring.size) ∧
      (wilTxComplete s).1.vring.ctx (j % s.vring.size) = s.vring.ctx (j % s.vring.size)
  release : ∀ i, .release i ∈ (wilTxComplete s).2.1 → i ∈ slots s.vring.size released n
  write : ∀ i, .write i ∉ (wilTxComplete s).2.1
  taken : ∀ p, taken p (wilTxComplete s).2.1 = 0
  dropped : ∀ p, dropped p (wilTxComplete s).2.1 = heldRefs s.vring p released n

lemma notMem_txWake (v : Vring) (i : ℕ) : .write i ∉ txWake v ∧ .release i ∉ txWake v := by
  simp only [txWake]
  split_ifs <;> simp

@[simp] lemma taken_txWake (p : TxSkb → Bool) (v : Vring) : taken p (txWake v) = 0 := by
  simp only [txWake]
  split_ifs <;> simp [TxEvent.takes]

@[simp] lemma dropped_txWake (p : TxSkb → Bool) (v : Vring) : dropped p (txWake v) = 0 := by
  simp only [txWake]
  split_ifs <;> simp [TxEvent.drops]

/-- **The rule of the second loop.**  It comes to some position `k`, up to the last marked descriptor
or to a `break`, with what every pass keeps. -/
theorem wilTxComplete_rule {P : ℕ → TxCleanup → Prop} (hva : s.vring.va = true)
    (h : RingAt s.vring released passed posted) (hstart : P released ⟨s, 0, []⟩)
    (hstep : ∀ k c d, released ≤ k → k < posted → Releasing s released posted k c → P k c →
      txCompleteSlot (k % s.vring.size) c = some d → P (k + 1) d) :
    ∃ r k c, LastMarked s.vring released posted r ∧ released ≤ k ∧ k ≤ r ∧ r ≤ passed ∧
      Releasing s released posted k c ∧ P k c ∧
      wilTxComplete s =
        ({ c.state with vring := { c.state.vring with swtail := k % s.vring.size } },
          c.events ++ txWake { c.state.vring with swtail := k % s.vring.size }, c.done) ∧
      (k = r ∨ txCompleteSlot (k % s.vring.size) c = none) := by
  obtain ⟨r, hlast, hrel⟩ := swtailToRel_last h
  have hr := hlast.le
  have hrp := hlast.le_passed h
  have hroom := h.room
  have hpassed := h.passed_le
  obtain ⟨k, hk, hkr, hi, ⟨hc, hP⟩, hend⟩ := Circular.loop_rule
    (P := fun k c => Releasing s released posted k c ∧ P k c)
    (f := txCompleteSlot) (n := s.vring.size) (s := ⟨s, 0, []⟩) hr
    (show r < released + s.vring.size by omega) (by omega)
    ⟨⟨SameRing.refl _, fun j _ _ => ⟨rfl, rfl⟩, by simp, by simp, by simp, by simp,
      by simp [heldRefs]⟩, hstart⟩
    (fun k c d hk hkr ⟨hc, hP⟩ hpass =>
      ⟨(hc.step h hk (by omega) hpass).1, hstep k c d hk (by omega) hc hP hpass⟩)
  rw [← h.swtail, ← hrel] at hi hc hP hend
  refine ⟨r, k, _, hlast, hk, hkr, hrp, hc, hP, ?_, hend⟩
  rw [← hi]
  simp [wilTxComplete, hva]

/-- **One call of `wil_tx_complete`**, and where it stops: at the last marked descriptor, or in
front of it at the first one that ends a packet and is not marked. -/
theorem txCompletion_stop (hva : s.vring.va = true) (h : RingAt s.vring released passed posted) :
    ∃ r n, LastMarked s.vring released posted r ∧ TxCompletion s released passed posted n ∧
      released + n ≤ r ∧
      (∀ k, released ≤ k → k < released + n → ¬ (s.vring.desc (k % s.vring.size)).stalls) ∧
      (released + n = r ∨ (s.vring.desc ((released + n) % s.vring.size)).stalls) := by
  obtain ⟨r, k, c, hlast, hk, hkr, hrp, hc, hclear, hcall, hend⟩ := wilTxComplete_rule hva h
    (P := fun k _ => ∀ j, released ≤ j → j < k → ¬ (s.vring.desc (j % s.vring.size)).stalls)
    (fun j hj hj' => by omega)
    (fun k c d hk hkp hc hclear hpass j hj hj' => by
      rcases Nat.lt_succ_iff_lt_or_eq.mp hj' with hlt | rfl
      · exact hclear j hj hlt
      · exact (hc.step h hk hkp hpass).2)
  have hkn : released + (k - released) = k := by omega
  refine ⟨r, k - released, hlast, ?_, by omega, fun j hj hj' => hclear j hj (by omega), ?_⟩
  · refine ⟨by omega, ?_, ?_, ?_, ?_, ?_, ?_, ?_, ?_, ?_, ?_⟩ <;> rw [hcall]
    · exact hc.done
    · exact hc.same.size
    · exact hc.same.va
    · exact hc.same.swhead
    · rw [hkn]
    · intro j hj hjp
      exact hc.frame j (by omega) hjp
    · intro i hi
      rcases List.mem_append.mp hi with hi | hi
      · exact hc.release i hi
      · exact absurd hi (notMem_txWake _ i).2
    · intro i hi
      rcases List.mem_append.mp hi with hi | hi
      · exact hc.write i hi
      · exact (notMem_txWake _ i).1 hi
    · intro p
      simp [hc.taken]
    · intro p
      simp [hc.dropped]
  · rw [hkn]
    by_cases hkr' : k = r
    · exact .inl hkr'
    · have hkp : k < posted := by
        rcases hlast.marked with rfl | ⟨hlt, -⟩ <;> omega
      have hbreak := hend.resolve_left hkr'
      simp only [txCompleteSlot, (hc.frame k le_rfl hkp).1] at hbreak
      split_ifs at hbreak with hstall
      · exact .inr hstall
      · split at hbreak <;> exact absurd hbreak (by simp)

/-- What it does at all. -/
theorem txCompletion (hva : s.vring.va = true) (h : RingAt s.vring released passed posted) :
    ∃ n, TxCompletion s released passed posted n := by
  obtain ⟨-, n, -, hn, -⟩ := txCompletion_stop hva h
  exact ⟨n, hn⟩

/-! ## What is done for a slot -/

/-- A slot is released: its mapping is undone and its reference dropped. -/
def Vring.releaseEvents (v : Vring) (cb : ℕ → WilSkbCb) (k : ℕ) : List TxEvent :=
  match v.ctx (k % v.size) with
  | none => []
  | some skb => [dmaUnmap (cb skb.id) (k % v.size) (v.desc (k % v.size)), .kfreeSkb skb]

/-- `wil_tx_complete` does this for every slot it clears, in order, and leaves the `cb`s. -/
lemma wilTxComplete_events (hva : s.vring.va = true) (h : RingAt s.vring released passed posted) :
    (wilTxComplete s).1.cb = s.cb ∧ ∃ w, (wilTxComplete s).2.1
      = (List.range' released (wilTxComplete s).2.2).flatMap (fun k =>
          s.vring.releaseEvents s.cb k ++ [.release (k % s.vring.size)]) ++ txWake w := by
  obtain ⟨r, k, c, -, -, -, -, hc, ⟨hcb, hev⟩, hcall, -⟩ := wilTxComplete_rule hva h
    (P := fun k c => c.state.cb = s.cb ∧
      c.events = (List.range' released (k - released)).flatMap fun k =>
        s.vring.releaseEvents s.cb k ++ [.release (k % s.vring.size)])
    ⟨rfl, by simp⟩
    (fun k c d hk hkp hc ⟨hcb, hev⟩ hpass => by
      obtain ⟨skb, hskb⟩ := h.held k hk hkp
      obtain ⟨hdesc, hctx⟩ := hc.frame k le_rfl hkp
      simp only [txCompleteSlot, hctx, hskb, hdesc] at hpass
      split_ifs at hpass
      obtain rfl := Option.some.inj hpass
      refine ⟨hcb, ?_⟩
      rw [show k + 1 - released = k - released + 1 by omega, List.range'_concat,
        List.flatMap_append, hev, Nat.one_mul, show released + (k - released) = k by omega]
      simp [Vring.releaseEvents, hskb, hcb])
  rw [hcall]
  rw [← hc.done] at hev
  exact ⟨hcb, _, congrArg (· ++ txWake _) hev⟩

/-- `wil_vring_free` does it for every posted slot, in order, and leaves the ring empty. -/
lemma wilVringFree_spec (cb : ℕ → WilSkbCb) (h : RingAt v released passed posted) :
    (wilVringFree cb v).2
        = (List.range' released (posted - released)).flatMap (v.releaseEvents cb) ∧
      (wilVringFree cb v).1.size = v.size ∧ (wilVringFree cb v).1.swhead = v.swhead ∧
      (wilVringFree cb v).1.swtail = v.swhead := by
  have hle := h.released_le.trans h.passed_le
  have hroom := h.room
  obtain ⟨k, hk, hkp, hi, ⟨hsame, hframe, hev⟩, hend⟩ := Circular.loop_rule
    (P := fun k (p : Vring × List TxEvent) => SameRing v p.1 ∧
      (∀ j, k ≤ j → j < posted → p.1.ctx (j % v.size) = v.ctx (j % v.size) ∧ p.1.desc = v.desc) ∧
      p.2 = (List.range' released (k - released)).flatMap (v.releaseEvents cb))
    (f := wilVringFreeSlot cb) (n := v.size) (s := (v, [])) hle h.room (by omega)
    ⟨SameRing.refl v, fun _ _ _ => ⟨rfl, rfl⟩, by simp⟩
    (fun k p p' hk hkp ⟨hsame, hframe, hev⟩ hpass => by
      obtain ⟨skb, hskb⟩ := h.held k hk hkp
      obtain ⟨hctx, hdesc⟩ := hframe k le_rfl hkp
      simp only [wilVringFreeSlot, hctx, hskb, hdesc, Option.some.injEq] at hpass
      subst hpass
      refine ⟨hsame.trans (SameRing.setCtx _ _ _), fun j hj hjp => ?_, ?_⟩
      · have hne : j % v.size ≠ k % v.size := (Circular.ne_of_window (by omega) (by omega)).symm
        simpa [Vring.setCtx, hne] using hframe j (by omega) hjp
      · rw [show k + 1 - released = k - released + 1 by omega, List.range'_concat,
          List.flatMap_append, hev, Nat.one_mul, show released + (k - released) = k by omega]
        simp [Vring.releaseEvents, hskb])
  have hkend : k = posted := by
    refine hend.resolve_right fun hbreak => ?_
    simp only [wilVringFreeSlot] at hbreak
    split at hbreak <;> exact absurd hbreak (by simp)
  subst hkend
  rw [← h.swtail, ← h.swhead] at hi hsame hev
  exact ⟨hev, hsame.size, hsame.swhead, hi⟩

/-! ## The ring behind a cleanup -/

/-- **A cleanup** keeps the ring, without the descriptors it released. -/
lemma RingAt.completion (h : RingAt s.vring released passed posted) {n : ℕ}
    (hn : TxCompletion s released passed posted n) :
    RingAt (wilTxComplete s).1.vring (released + n) passed posted := by
  have hpassed := hn.passed_le
  have hroom := h.room
  refine ⟨?_, ?_, hpassed, h.passed_le, ?_, ?_, ?_⟩ <;> simp only [hn.size]
  · exact hn.swtail
  · rw [hn.swhead, h.swhead]
  · omega
  · intro k hk hkp
    rw [(hn.frame k (by omega) hkp).1]
    exact h.clear k hk hkp
  · intro k hk hkp
    rw [(hn.frame k hk hkp).2]
    exact h.held k (by omega) hkp

/-- The references the posted descriptors hold, and those the cleanup dropped. -/
lemma RingAt.completion_refs (h : RingAt s.vring released passed posted) {n : ℕ}
    (hn : TxCompletion s released passed posted n) (p : TxSkb → Bool) :
    heldRefs (wilTxComplete s).1.vring p (released + n) (posted - (released + n))
        + dropped p (wilTxComplete s).2.1
      = heldRefs s.vring p released (posted - released) := by
  have hpassed := hn.passed_le
  have hle := h.passed_le
  have hsplit : posted - released = n + (posted - (released + n)) := by omega
  rw [hn.dropped, hsplit, heldRefs_add,
    heldRefs_congr p hn.size (fun k hk hk' => (hn.frame k hk (by omega)).2)]
  omega

end Wil6210
