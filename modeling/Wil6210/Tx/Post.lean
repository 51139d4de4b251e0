import Wil6210.Tx.Vring

/-!
# What `wil_tx_vring` does

`TxPosting` says it once: a call touches only the slots of `n` positions from the head on, there
is room for them, and either it succeeds, with one reference taken for each slot, or it leaves the
head where it was and drops every reference it took.  `txPosting` proves it of every call, over
the loop of the fragments (`txFrags_posted`) and the loop behind `dma_error`
(`txDmaError_undoes`).
-/

namespace Wil6210

open Circular (slots mem_slots mem_slots_succ)

/-! ## References in a trace -/

/-- Takes a reference to a buffer that meets `p`. -/
def TxEvent.takes (p : TxSkb → Bool) : TxEvent → Bool
  | .skbGet skb => p skb
  | _ => false

/-- Drops a reference to a buffer that meets `p`. -/
def TxEvent.drops (p : TxSkb → Bool) : TxEvent → Bool
  | .kfreeSkb skb => p skb
  | _ => false

/-- The references to buffers that meet `p` taken in a trace. -/
def taken (p : TxSkb → Bool) (es : List TxEvent) : ℕ := es.countP (TxEvent.takes p)

/-- The references to buffers that meet `p` dropped in a trace. -/
def dropped (p : TxSkb → Bool) (es : List TxEvent) : ℕ := es.countP (TxEvent.drops p)

@[simp] lemma taken_append (p : TxSkb → Bool) (es fs : List TxEvent) :
    taken p (es ++ fs) = taken p es + taken p fs := by
  simp [taken]

@[simp] lemma dropped_append (p : TxSkb → Bool) (es fs : List TxEvent) :
    dropped p (es ++ fs) = dropped p es + dropped p fs := by
  simp [dropped]

@[simp] lemma taken_nil (p : TxSkb → Bool) : taken p [] = 0 := by
  simp [taken]

@[simp] lemma dropped_nil (p : TxSkb → Bool) : dropped p [] = 0 := by
  simp [dropped]

@[simp] lemma taken_cons (p : TxSkb → Bool) (e : TxEvent) (es : List TxEvent) :
    taken p (e :: es) = taken p es + if e.takes p then 1 else 0 := by
  simp [taken, List.countP_cons]

@[simp] lemma dropped_cons (p : TxSkb → Bool) (e : TxEvent) (es : List TxEvent) :
    dropped p (e :: es) = dropped p es + if e.drops p then 1 else 0 := by
  simp [dropped, List.countP_cons]

@[simp] lemma takes_skbGet (p : TxSkb → Bool) (skb : TxSkb) :
    (TxEvent.skbGet skb).takes p = p skb := rfl

@[simp] lemma takes_kfreeSkb (p : TxSkb → Bool) (skb : TxSkb) :
    (TxEvent.kfreeSkb skb).takes p = false := rfl

@[simp] lemma takes_write (p : TxSkb → Bool) (i : ℕ) :
    (TxEvent.write i).takes p = false := rfl

@[simp] lemma takes_release (p : TxSkb → Bool) (i : ℕ) :
    (TxEvent.release i).takes p = false := rfl

@[simp] lemma drops_skbGet (p : TxSkb → Bool) (skb : TxSkb) :
    (TxEvent.skbGet skb).drops p = false := rfl

@[simp] lemma drops_kfreeSkb (p : TxSkb → Bool) (skb : TxSkb) :
    (TxEvent.kfreeSkb skb).drops p = p skb := rfl

@[simp] lemma drops_write (p : TxSkb → Bool) (i : ℕ) :
    (TxEvent.write i).drops p = false := rfl

@[simp] lemma drops_release (p : TxSkb → Bool) (i : ℕ) :
    (TxEvent.release i).drops p = false := rfl

@[simp] lemma takes_dmaUnmap (p : TxSkb → Bool) (cb : WilSkbCb) (i : ℕ) (d : VringTxDesc) :
    (dmaUnmap cb i d).takes p = false := by
  simp only [dmaUnmap]
  split_ifs <;> rfl

@[simp] lemma drops_dmaUnmap (p : TxSkb → Bool) (cb : WilSkbCb) (i : ℕ) (d : VringTxDesc) :
    (dmaUnmap cb i d).drops p = false := by
  simp only [dmaUnmap]
  split_ifs <;> rfl

lemma dmaUnmap_ne_write (cb : WilSkbCb) (i j : ℕ) (d : VringTxDesc) :
    dmaUnmap cb i d ≠ .write j := by
  simp only [dmaUnmap]
  split_ifs <;> simp

lemma dmaUnmap_ne_release (cb : WilSkbCb) (i j : ℕ) (d : VringTxDesc) :
    dmaUnmap cb i d ≠ .release j := by
  simp only [dmaUnmap]
  split_ifs <;> simp

/-! ## Posting the pieces -/

variable {q : TxRequest} {v w u : Vring} {ss ts : List ℕ}

/-- The registers of a ring, which posting does not touch. -/
structure SameRing (v w : Vring) : Prop where
  va : w.va = v.va
  size : w.size = v.size
  swtail : w.swtail = v.swtail
  swhead : w.swhead = v.swhead
  hwtail : w.hwtail = v.hwtail

lemma SameRing.refl (v : Vring) : SameRing v v := ⟨rfl, rfl, rfl, rfl, rfl⟩

lemma SameRing.setDesc (v : Vring) (i : ℕ) (d : VringTxDesc) : SameRing v (v.setDesc i d) :=
  ⟨rfl, rfl, rfl, rfl, rfl⟩

lemma SameRing.setCtx (v : Vring) (i : ℕ) (skb : Option TxSkb) : SameRing v (v.setCtx i skb) :=
  ⟨rfl, rfl, rfl, rfl, rfl⟩

lemma SameRing.trans (h : SameRing v w) (h' : SameRing w u) : SameRing v u :=
  ⟨h'.va.trans h.va, h'.size.trans h.size, h'.swtail.trans h.swtail, h'.swhead.trans h.swhead,
    h'.hwtail.trans h.hwtail⟩

/-- `w` is `v` with pieces of the packet in the slots `ss`: there the descriptor belongs to the
hardware and the context is the buffer, elsewhere nothing changed. -/
structure Posted (q : TxRequest) (v w : Vring) (ss : List ℕ) : Prop where
  same : SameRing v w
  frame : ∀ i ∉ ss, w.desc i = v.desc i ∧ w.ctx i = v.ctx i
  fresh : ∀ i ∈ ss, ¬ (w.desc i).du ∧ w.ctx i = some q.skb

lemma Posted.nil (q : TxRequest) (v : Vring) : Posted q v v [] :=
  ⟨SameRing.refl v, by simp, by simp⟩

lemma Posted.segment (q : TxRequest) (v : Vring) (i pa len : ℕ) :
    Posted q v (txSegment q i pa len v) [i] := by
  refine ⟨(SameRing.setDesc v i _).trans (SameRing.setCtx _ i _), ?_, ?_⟩
  · intro j hj
    rw [List.mem_singleton] at hj
    simp [txSegment, Vring.setDesc, Vring.setCtx, hj]
  · intro j hj
    rw [List.mem_singleton] at hj
    subst hj
    refine ⟨not_du_of_status ?_, ?_⟩ <;> simp [txSegment, Vring.setDesc, Vring.setCtx]

lemma Posted.append (h : Posted q v w ss) (h' : Posted q w u ts) : Posted q v u (ss ++ ts) := by
  refine ⟨h.same.trans h'.same, ?_, ?_⟩
  · intro i hi
    rw [List.mem_append, not_or] at hi
    rw [(h'.frame i hi.2).1, (h'.frame i hi.2).2]
    exact h.frame i hi.1
  · intro i hi
    by_cases hts : i ∈ ts
    · exact h'.fresh i hts
    · have hss : i ∈ ss := (List.mem_append.mp hi).resolve_right hts
      rw [(h'.frame i hts).1, (h'.frame i hts).2]
      exact h.fresh i hss

/-- Marking the last descriptor leaves it with the hardware. -/
lemma Posted.last (h : Posted q v w ss) {i : ℕ} (hi : i ∈ ss) (vringIndex : ℕ) :
    Posted q v (w.setDesc i (wilTxLastDesc (w.desc i) vringIndex)) ss := by
  refine ⟨h.same.trans (SameRing.setDesc w i _), ?_, ?_⟩
  · intro j hj
    have hne : j ≠ i := fun heq => hj (heq ▸ hi)
    simpa [Vring.setDesc, hne] using h.frame j hj
  · intro j hj
    refine ⟨?_, (h.fresh j hj).2⟩
    by_cases hji : j = i
    · subst hji
      simpa [Vring.setDesc, VringTxDesc.du] using (h.fresh j hj).1
    · simpa [Vring.setDesc, hji] using (h.fresh j hj).1

/-- **The loop over the fragments.**  `m` of them are posted, in the slots behind the `f` pieces
that were there; either these are all, or the mapping of the next one failed. -/
lemma txFrags_posted (q : TxRequest) (swhead : ℕ) (frags : List ℕ) :
    ∀ (i f : ℕ) (v : Vring), ∃ m ≤ frags.length,
      Posted q v (txFrags q swhead i f frags v).1.1 (slots v.size (swhead + f + 1) m) ∧
      (txFrags q swhead i f frags v).1.2.1 ∈ i :: slots v.size (swhead + f + 1) m ∧
      (txFrags q swhead i f frags v).2 = (slots v.size (swhead + f + 1) m).flatMap
        (fun j => [.write j, .skbGet q.skb]) ∧
      ((txFrags q swhead i f frags v).1.2.2 = none ∧ m = frags.length ∨
        (txFrags q swhead i f frags v).1.2.2 = some (f + m) ∧ m < frags.length) := by
  induction frags with
  | nil =>
      intro i f v
      exact ⟨0, le_rfl, Posted.nil q v, by simp [txFrags], rfl, .inl ⟨rfl, rfl⟩⟩
  | cons len frags ih =>
      intro i f v
      cases hmap : q.dmaMap (f + 1) with
      | none =>
          refine ⟨0, Nat.zero_le _, ?_⟩
          simp only [txFrags, hmap]
          exact ⟨Posted.nil q v, List.mem_cons_self, rfl, .inr ⟨rfl, Nat.succ_pos _⟩⟩
      | some pa =>
          set j := (swhead + f + 1) % v.size with hj
          have hseg := Posted.segment q v j pa len
          obtain ⟨m, hm, hpost, hlast, hev, hend⟩ := ih j (f + 1) (txSegment q j pa len v)
          rw [hseg.same.size] at hpost hlast hev
          refine ⟨m + 1, Nat.succ_le_succ hm, ?_⟩
          simp only [txFrags, hmap, ← hj]
          rw [Circular.slots_succ, ← hj]
          refine ⟨hseg.append hpost, List.mem_cons_of_mem _ hlast, ?_, ?_⟩
          · rw [hev]
            rfl
          · rcases hend with ⟨hnone, heq⟩ | ⟨hsome, hlt⟩
            · exact .inl ⟨hnone, by simp [heq]⟩
            · exact .inr ⟨by rw [hsome]; congr 1; omega, by simp [hlt]⟩

/-- The linear part and `m` fragments are posted; either these are all, or the mapping of the next
one failed. -/
lemma txPieces_posted (q : TxRequest) (pa : ℕ) (h : v.swhead < v.size) :
    ∃ m ≤ q.nrFrags,
      Posted q v (txPieces q pa v).1.1 (slots v.size v.swhead (m + 1)) ∧
      (txPieces q pa v).1.2.1 ∈ slots v.size v.swhead (m + 1) ∧
      (txPieces q pa v).2 = (slots v.size v.swhead (m + 1)).flatMap
        (fun j => [.write j, .skbGet q.skb]) ∧
      ((txPieces q pa v).1.2.2 = none ∧ m = q.nrFrags ∨
        (txPieces q pa v).1.2.2 = some m ∧ m < q.nrFrags) := by
  have hseg := Posted.segment q v v.swhead pa q.skb.headlen
  obtain ⟨m, hm, hpost, hlast, hev, hend⟩ := txFrags_posted q v.swhead q.skb.frags v.swhead 0
    (txSegment q v.swhead pa q.skb.headlen v)
  rw [hseg.same.size] at hpost hlast hev
  refine ⟨m, hm, ?_⟩
  rw [Circular.slots_succ, Nat.mod_eq_of_lt h]
  rw [Nat.zero_add] at hend
  refine ⟨hseg.append hpost, hlast, ?_, hend⟩
  simp only [txPieces, hev]
  rfl

lemma taken_posted (p : TxSkb → Bool) (skb : TxSkb) (ss : List ℕ) :
    taken p (ss.flatMap fun j => [.write j, .skbGet skb]) = if p skb then ss.length else 0 := by
  induction ss with
  | nil => simp
  | cons i ss ih =>
      rw [List.flatMap_cons, taken_append, ih]
      cases hp : p skb
      · simp [hp]
      · simp [hp, Nat.add_comm]

lemma dropped_posted (p : TxSkb → Bool) (skb : TxSkb) (ss : List ℕ) :
    dropped p (ss.flatMap fun j => [.write j, .skbGet skb]) = 0 := by
  induction ss with
  | nil => simp
  | cons i ss ih => simp [ih]

lemma mem_of_write_posted {skb : TxSkb} {i : ℕ}
    (h : .write i ∈ ss.flatMap fun j => [TxEvent.write j, .skbGet skb]) : i ∈ ss := by
  obtain ⟨j, hj, hi⟩ := List.mem_flatMap.mp h
  simp only [List.mem_cons, TxEvent.write.injEq, reduceCtorEq, List.not_mem_nil, or_false] at hi
  exact hi ▸ hj

/-- Posting is stores and references. -/
lemma stores_posted (skb : TxSkb) (ss : List ℕ) :
    ∀ e ∈ ss.flatMap fun j => [TxEvent.write j, .skbGet skb],
      e = .skbGet skb ∨ ∃ i, e = .write i := by
  intro e he
  obtain ⟨i, -, hi⟩ := List.mem_flatMap.mp he
  rw [List.mem_pair] at hi
  exact hi.symm.imp_right fun hi => ⟨i, hi⟩

/-! ## Undoing them -/

/-- **The loop behind `dma_error`.**  It marks the `f` slots from the head on as done and drops as
many references; the contexts stay as they are. -/
lemma txDmaError_undoes (cb : WilSkbCb) (skb : TxSkb) (swhead f : ℕ) :
    ∀ v : Vring, SameRing v (txDmaError cb skb swhead f v).1 ∧
      (txDmaError cb skb swhead f v).1.ctx = v.ctx ∧
      (∀ i ∉ slots v.size swhead f, (txDmaError cb skb swhead f v).1.desc i = v.desc i) ∧
      (∀ i, .write i ∈ (txDmaError cb skb swhead f v).2 → i ∈ slots v.size swhead f) ∧
      (∀ p, taken p (txDmaError cb skb swhead f v).2 = 0) ∧
      ∀ p, dropped p (txDmaError cb skb swhead f v).2 = if p skb then f else 0 := by
  induction f with
  | zero => intro v; simp [txDmaError, SameRing.refl]
  | succ f ih =>
      intro v
      set i := (swhead + (f + 1) - 1) % v.size with hi
      set d : VringTxDesc := { v.desc i with status := txDmaStatusDu } with hd
      obtain ⟨hsame, hctx, hdesc, hwrite, htaken, hdropped⟩ := ih (v.setDesc i d)
      have hmem : i ∈ slots v.size swhead (f + 1) :=
        mem_slots.mpr ⟨swhead + f, by omega, by omega, by rw [hi]; congr 1⟩
      have hmono : ∀ j ∈ slots v.size swhead f, j ∈ slots v.size swhead (f + 1) := by
        intro j hj
        obtain ⟨k, hk, hk', heq⟩ := mem_slots.mp hj
        exact mem_slots.mpr ⟨k, hk, by omega, heq⟩
      simp only [txDmaError, ← hi, ← hd]
      refine ⟨(SameRing.setDesc v i d).trans hsame, hctx, ?_, ?_, ?_, ?_⟩
      · intro j hj
        rw [hdesc j (fun h => hj (hmono j h))]
        have hne : j ≠ i := fun heq => hj (heq ▸ hmem)
        simp [Vring.setDesc, hne]
      · intro j hj
        simp only [List.mem_cons, TxEvent.write.injEq, reduceCtorEq, false_or] at hj
        rcases hj with rfl | hj | hj
        · exact hmem
        · exact absurd hj.symm (dmaUnmap_ne_write _ _ _ _)
        · exact hmono j (hwrite j hj)
      · intro p
        simp [htaken]
      · intro p
        simp only [dropped_cons, hdropped, drops_write, drops_dmaUnmap, drops_kfreeSkb]
        split_ifs <;> simp_all

/-! ## The events of a call -/

/-- The event is about the ring and its buffers: it neither stops or wakes the queues nor tells the
hardware anything. -/
def TxEvent.onRing : TxEvent → Bool
  | .write _ | .skbGet _ | .kfreeSkb _ | .dmaUnmapSingle _ _ | .dmaUnmapPage _ _ => true
  | .release _ | .stopAllQueues | .wakeAllQueues | .iowriteHwtail _ _ => false

/-- The events of a call that posts: the queues are stopped, or not, there is work on the ring, and
in the end the hardware is told the head, or not. -/
def CallEvents (v : Vring) (es : List TxEvent) : Prop :=
  ∃ fs, (∀ e ∈ fs, e.onRing) ∧ (es = txStop v ++ fs ∨
    ∃ swhead, es = txStop v ++ fs ++ [.iowriteHwtail v.hwtail swhead])

lemma CallEvents.nothing (v : Vring) : CallEvents v (txStop v) :=
  ⟨[], List.forall_mem_nil _, .inl (List.append_nil _).symm⟩

lemma CallEvents.failed {fs gs : List TxEvent} (hfs : ∀ e ∈ fs, e.onRing)
    (hgs : ∀ e ∈ gs, e.onRing) : CallEvents v (txStop v ++ fs ++ gs) :=
  ⟨fs ++ gs, List.forall_mem_append.mpr ⟨hfs, hgs⟩, .inl (List.append_assoc _ _ _)⟩

lemma CallEvents.posted {fs gs : List TxEvent} (hfs : ∀ e ∈ fs, e.onRing)
    (hgs : ∀ e ∈ gs, e.onRing) (hring : w.hwtail = v.hwtail) (swhead : ℕ) :
    CallEvents v (txStop v ++ fs ++ (gs ++ [.iowriteHwtail w.hwtail swhead])) :=
  ⟨fs ++ gs, List.forall_mem_append.mpr ⟨hfs, hgs⟩, .inr ⟨swhead, by
    simp only [hring, List.append_assoc]⟩⟩

lemma onRing_stores {skb : TxSkb} {es : List TxEvent}
    (h : ∀ e ∈ es, e = .skbGet skb ∨ ∃ i, e = .write i) : ∀ e ∈ es, e.onRing := by
  intro e he
  rcases h e he with rfl | ⟨i, rfl⟩ <;> rfl

lemma onRing_dmaUnmap (cb : WilSkbCb) (i : ℕ) (d : VringTxDesc) : (dmaUnmap cb i d).onRing := by
  rw [dmaUnmap]
  split_ifs <;> rfl

lemma onRing_txDmaError (cb : WilSkbCb) (skb : TxSkb) (swhead f : ℕ) :
    ∀ v : Vring, ∀ e ∈ (txDmaError cb skb swhead f v).2, e.onRing := by
  induction f with
  | zero =>
      intro v
      exact List.forall_mem_nil _
  | succ f ih =>
      intro v
      refine List.forall_mem_cons.mpr ⟨rfl, List.forall_mem_cons.mpr ⟨onRing_dmaUnmap _ _ _, ?_⟩⟩
      exact List.forall_mem_cons.mpr ⟨rfl, ih _⟩

/-- **What a call of `wil_tx_vring` does outside of the ring.** -/
theorem wilTxVring_events (s : TxState) (q : TxRequest) :
    CallEvents s.vring (wilTxVring s q).2.1 := by
  rw [wilTxVring]
  split_ifs with hroom
  · exact .nothing _
  · cases q.dmaMap 0 with
    | none => exact .nothing _
    | some pa =>
        obtain ⟨m, -, hposted, -, hevents, -⟩ := txFrags_posted q s.vring.swhead q.skb.frags
          s.vring.swhead 0 (txSegment q s.vring.swhead pa q.skb.headlen s.vring)
        have hpieces : ∀ e ∈ (txPieces q pa s.vring).2, e.onRing := by
          rw [txPieces, hevents]
          refine List.forall_mem_cons.mpr ⟨rfl, List.forall_mem_cons.mpr ⟨rfl, ?_⟩⟩
          exact onRing_stores (stores_posted _ _)
        have hring : (txPieces q pa s.vring).1.1.hwtail = s.vring.hwtail := hposted.same.hwtail
        dsimp only
        cases (txPieces q pa s.vring).1.2.2 with
        | some f => exact .failed hpieces (onRing_txDmaError _ _ _ _ _)
        | none =>
            have hlast : ∀ i, ∀ e ∈ [TxEvent.write i], e.onRing :=
              fun i => List.forall_mem_singleton.mpr rfl
            exact .posted hpieces (hlast _) hring _

/-! ## The whole call -/

/-- What a call did: `n` slots from the head on were written, there was room for them, and it
either posted them all or took back what it did. -/
structure TxPosting (s : TxState) (q : TxRequest) (n : ℕ) : Prop where
  room : n ≤ wilVringAvailTx s.vring
  size : (wilTxVring s q).1.vring.size = s.vring.size
  swtail : (wilTxVring s q).1.vring.swtail = s.vring.swtail
  va : (wilTxVring s q).1.vring.va = s.vring.va
  frame : ∀ i ∉ slots s.vring.size s.vring.swhead n,
    (wilTxVring s q).1.vring.desc i = s.vring.desc i ∧
      (wilTxVring s q).1.vring.ctx i = s.vring.ctx i
  write : ∀ i, .write i ∈ (wilTxVring s q).2.1 → i ∈ slots s.vring.size s.vring.swhead n
  success : (wilTxVring s q).2.2 = 0 → n = q.nrFrags + 1 ∧
    (wilTxVring s q).1.vring.swhead = (s.vring.swhead + n) % s.vring.size ∧
    (∀ i ∈ slots s.vring.size s.vring.swhead n,
      ¬ ((wilTxVring s q).1.vring.desc i).du ∧
        (wilTxVring s q).1.vring.ctx i = some q.skb) ∧
    ∀ p, taken p (wilTxVring s q).2.1 = (if p q.skb then n else 0) ∧
      dropped p (wilTxVring s q).2.1 = 0
  failure : (wilTxVring s q).2.2 ≠ 0 →
    (wilTxVring s q).1.vring.swhead = s.vring.swhead ∧
    ∀ p, taken p (wilTxVring s q).2.1 = dropped p (wilTxVring s q).2.1

lemma write_notMem_txStop (v : Vring) (i : ℕ) : .write i ∉ txStop v := by
  simp only [txStop]
  split_ifs <;> simp

@[simp] lemma taken_txStop (p : TxSkb → Bool) (v : Vring) : taken p (txStop v) = 0 := by
  simp only [txStop]
  split_ifs <;> simp [TxEvent.takes]

@[simp] lemma dropped_txStop (p : TxSkb → Bool) (v : Vring) : dropped p (txStop v) = 0 := by
  simp only [txStop]
  split_ifs <;> simp [TxEvent.drops]

/-- A call that gives up before it writes anything. -/
lemma TxPosting.of_nothing {s : TxState} (q : TxRequest) {rc : ℤ} {cb : ℕ → WilSkbCb}
    (h : wilTxVring s q = ({ s with cb := cb }, txStop s.vring, rc)) (hrc : rc ≠ 0) :
    TxPosting s q 0 := by
  refine ⟨Nat.zero_le _, ?_, ?_, ?_, ?_, ?_, ?_, ?_⟩ <;> rw [h]
  · intro i _
    exact ⟨rfl, rfl⟩
  · intro i hi
    exact absurd hi (write_notMem_txStop _ i)
  · intro h0
    exact absurd h0 hrc
  · intro _
    simp

/-- A call that posts the whole packet. -/
lemma TxPosting.of_posted {s : TxState} (q : TxRequest) {pa : ℕ}
    (hroom : ¬ wilVringAvailTx s.vring < 1 + q.nrFrags) (hmap : q.dmaMap 0 = some pa)
    (hpost : Posted q s.vring (txPieces q pa s.vring).1.1
      (slots s.vring.size s.vring.swhead (q.nrFrags + 1)))
    (hlast : (txPieces q pa s.vring).1.2.1 ∈
      slots s.vring.size s.vring.swhead (q.nrFrags + 1))
    (hev : (txPieces q pa s.vring).2 = (slots s.vring.size s.vring.swhead (q.nrFrags + 1)).flatMap
      (fun j => [.write j, .skbGet q.skb]))
    (hnone : (txPieces q pa s.vring).1.2.2 = none) : TxPosting s q (q.nrFrags + 1) := by
  set r := txPieces q pa s.vring with hr
  set i := r.1.2.1 with hi
  set w := wilVringAdvanceHead (r.1.1.setDesc i (wilTxLastDesc (r.1.1.desc i) q.vringIndex))
    (q.nrFrags + 1) with hw
  have hcall : wilTxVring s q =
      ({ s with cb := Function.update s.cb q.skb.id ⟨s.vring.swhead, -1⟩, vring := w },
        txStop s.vring ++ r.2 ++ [.write i, .iowriteHwtail w.hwtail w.swhead], 0) := by
    simp only [wilTxVring, if_neg hroom, hmap, ← hr, hnone, ← hi, ← hw]
  have hdone := hpost.last hlast q.vringIndex
  refine ⟨by omega, ?_, ?_, ?_, ?_, ?_, ?_, ?_⟩ <;> rw [hcall]
  · exact hdone.same.size
  · exact hdone.same.swtail
  · exact hdone.same.va
  · exact hdone.frame
  · intro j hj
    simp only [hev, List.mem_append, List.mem_cons, TxEvent.write.injEq, reduceCtorEq,
      List.not_mem_nil, or_false] at hj
    rcases hj with (hj | hj) | rfl
    · exact absurd hj (write_notMem_txStop _ j)
    · exact mem_of_write_posted hj
    · exact hlast
  · intro _
    refine ⟨rfl, ?_, hdone.fresh, fun p => ⟨?_, ?_⟩⟩
    · show (r.1.1.swhead + _) % r.1.1.size = _
      rw [hpost.same.swhead, hpost.same.size]
    · simp [hev, taken_posted, slots, TxEvent.takes]
    · simp [hev, dropped_posted, TxEvent.drops]
  · intro h
    exact absurd rfl h

/-- A call that takes back `m + 1` pieces after a failed mapping. -/
lemma TxPosting.of_failed {s : TxState} (q : TxRequest) {pa m : ℕ}
    (hroom : m + 1 ≤ wilVringAvailTx s.vring)
    (hfits : ¬ wilVringAvailTx s.vring < 1 + q.nrFrags) (hmap : q.dmaMap 0 = some pa)
    (hpost : Posted q s.vring (txPieces q pa s.vring).1.1
      (slots s.vring.size s.vring.swhead (m + 1)))
    (hev : (txPieces q pa s.vring).2 = (slots s.vring.size s.vring.swhead (m + 1)).flatMap
      (fun j => [.write j, .skbGet q.skb]))
    (hsome : (txPieces q pa s.vring).1.2.2 = some m) : TxPosting s q (m + 1) := by
  set r := txPieces q pa s.vring with hr
  set u := txDmaError ⟨s.vring.swhead, -1⟩ q.skb s.vring.swhead (m + 1) r.1.1 with hu
  have hcall : wilTxVring s q =
      ({ s with cb := Function.update s.cb q.skb.id ⟨s.vring.swhead, -1⟩, vring := u.1 },
        txStop s.vring ++ r.2 ++ u.2, eInval) := by
    simp only [wilTxVring, if_neg hfits, hmap, ← hr, hsome, ← hu]
  obtain ⟨hsame, hctx, hdesc, hwrite, htaken, hdropped⟩ :=
    txDmaError_undoes ⟨s.vring.swhead, -1⟩ q.skb s.vring.swhead (m + 1) r.1.1
  rw [← hu] at hsame hctx hdesc hwrite htaken hdropped
  rw [hpost.same.size] at hdesc hwrite
  have hring := hpost.same.trans hsame
  refine ⟨hroom, ?_, ?_, ?_, ?_, ?_, ?_, ?_⟩ <;> rw [hcall]
  · exact hring.size
  · exact hring.swtail
  · exact hring.va
  · intro j hj
    exact ⟨(hdesc j hj).trans (hpost.frame j hj).1,
      (congrFun hctx j).trans (hpost.frame j hj).2⟩
  · intro j hj
    simp only [hev, List.mem_append] at hj
    rcases hj with (hj | hj) | hj
    · exact absurd hj (write_notMem_txStop _ j)
    · exact mem_of_write_posted hj
    · exact hwrite j hj
  · intro h
    exact absurd h (show eInval ≠ 0 by decide)
  · intro _
    refine ⟨hring.swhead, fun p => ?_⟩
    simp [hev, taken_posted, dropped_posted, htaken, hdropped, slots]

/-- **One call of `wil_tx_vring`.** -/
theorem txPosting (s : TxState) (q : TxRequest)
    (hhead : s.vring.swhead < s.vring.size) : ∃ n, TxPosting s q n := by
  by_cases hroom : wilVringAvailTx s.vring < 1 + q.nrFrags
  · exact ⟨0, .of_nothing q (by simp [wilTxVring, hroom]; rfl) (show eNomem ≠ 0 by decide)⟩
  cases hmap : q.dmaMap 0 with
  | none =>
      exact ⟨0, .of_nothing q (by simp [wilTxVring, hroom, hmap]; rfl) (show eInval ≠ 0 by decide)⟩
  | some pa =>
      obtain ⟨m, hm, hpost, hlast, hev, hend⟩ := txPieces_posted q pa hhead
      rcases hend with ⟨hnone, rfl⟩ | ⟨hsome, hlt⟩
      · exact ⟨_, .of_posted q hroom hmap hpost hlast hev hnone⟩
      · exact ⟨_, .of_failed q (by omega) hroom hmap hpost hev hsome⟩

/-! ## Seen from the ring -/

/-- What a call that posts a packet did to its ring, from `v` to `w`: behind the head it may write
`n + 1` slots; where it returns 0, the first `n` of them hold the buffer, with one reference each,
and the head is behind them; otherwise the head is where it was and no reference is left. -/
structure RingPosting (v w : Vring) (skb : TxSkb) (n : ℕ) (es : List TxEvent) (rc : ℤ) : Prop where
  room : n ≤ wilVringAvailTx v
  size : w.size = v.size
  swtail : w.swtail = v.swtail
  va : w.va = v.va
  frame : ∀ i ∉ slots v.size v.swhead (n + 1), w.desc i = v.desc i ∧ w.ctx i = v.ctx i
  success : rc = 0 → w.swhead = (v.swhead + n) % v.size ∧
    ∀ i ∈ slots v.size v.swhead n, ¬ (w.desc i).du ∧ w.ctx i = some skb
  failure : rc ≠ 0 → w.swhead = v.swhead
  refs : ∀ p, taken p es = dropped p es + if rc = 0 ∧ p skb then n else 0

lemma TxPosting.ring {s : TxState} {q : TxRequest} {n : ℕ} (h : TxPosting s q n) :
    RingPosting s.vring (wilTxVring s q).1.vring q.skb n (wilTxVring s q).2.1
      (wilTxVring s q).2.2 := by
  refine ⟨h.room, h.size, h.swtail, h.va, fun i hi => h.frame i fun hmem =>
    hi (mem_slots_succ.mpr (.inl hmem)), fun hrc => ⟨(h.success hrc).2.1, (h.success hrc).2.2.1⟩,
    fun hrc => (h.failure hrc).1, fun p => ?_⟩
  by_cases hrc : (wilTxVring s q).2.2 = 0
  · obtain ⟨htaken, hdropped⟩ := (h.success hrc).2.2.2 p
    simp [htaken, hdropped, hrc]
  · simp [(h.failure hrc).2 p, hrc]

end Wil6210
