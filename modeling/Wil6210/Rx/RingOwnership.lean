import Wil6210.Lib.Machine
import Wil6210.Rx.Ring

/-!
# Who owns the Rx buffers

`wil_rx_refill`, the hardware and `wil_vring_reap_rx` share the Rx ring.  `RxSys` adds to the
state of the driver which buffers were ever posted and which were removed, in order; both lists
only grow, and their lengths are the positions of which `swtail` and `swhead` are the residues.

`RxHolds` says what lies in the ring: from `swhead` on one slot for each buffer that is held, and
nothing elsewhere.  Each of the three keeps it, the refill through every pattern of failures
(`rxHolds_refill`).  `rxRing_owned` reads the ownership off it: what was removed, followed by what
the ring holds, is what was posted.
-/

namespace Wil6210

open Circular (slots slots_succ slots_mod mem_slots)

/-! ## The three actors -/

/-- What the hardware writes back to a descriptor; the address stays. -/
structure RxWriteBack where
  macD0 : ℕ
  macD1 : ℕ
  d0 : ℕ
  error : ℕ
  status : ℕ
  length : ℕ
  deriving DecidableEq, Repr

/-- The hardware fills the buffer of slot `i`. -/
def RxVring.writeBack (v : RxVring) (i : ℕ) (w : RxWriteBack) (data : List UInt8) : RxVring :=
  (v.setDesc i { v.desc i with
      macD0 := w.macD0, macD1 := w.macD1, d0 := w.d0, error := w.error, status := w.status
      length := w.length }).setCtx i
    ((v.ctx i).map fun skb => { skb with data := data })

/-- The buffers that are posted, each with its address. -/
def postings (es : List RxRingEvent) : List (ℕ × ℕ) :=
  es.filterMap fun
    | .post id pa => some (id, pa)
    | _ => none

/-- The buffers that a call of `wil_vring_reap_rx` takes from the ring, each with whether the
caller gets it; the others are freed. -/
def removals (r : RxState × List RxRingEvent × Option RxBuf) : List (ℕ × Bool) :=
  (r.2.1.filterMap fun
    | .kfreeSkb id => some (id, false)
    | _ => none) ++ r.2.2.toList.map fun skb => (skb.id, true)

/-- The DMA mappings that are made. -/
def mappings (es : List RxRingEvent) : List (ℕ × ℕ) :=
  es.filterMap fun
    | .dmaMapSingle pa length => some (pa, length)
    | _ => none

/-- The DMA mappings that are undone. -/
def unmappings (es : List RxRingEvent) : List (ℕ × ℕ) :=
  es.filterMap fun
    | .dmaUnmapSingle pa length => some (pa, length)
    | _ => none

/-- The driver with its ring, the buffers posted and removed so far, and the trace. -/
structure RxSys where
  rx : RxState
  posted : List (ℕ × ℕ)
  removed : List (ℕ × Bool)
  log : List RxRingEvent

inductive RxAction
  | refill (count : ℤ) (outcome : ℕ → RxAlloc)
  /-- The hardware completes a posted slot. -/
  | hwComplete (i : ℕ) (w : RxWriteBack) (data : List UInt8)
  | reap (ndev : RxNdev)

/-- One step of the driver or of the hardware. -/
def RxSys.step (s : RxSys) : RxAction → Option RxSys
  | .refill count outcome =>
      let r := wilRxRefill s.rx count outcome
      some { s with
        rx := r.1
        posted := s.posted ++ postings r.2.1
        log := s.log ++ r.2.1 }
  | .hwComplete i w data =>
      if i ∈ s.rx.vring.postedSlots then
        some { s with rx := { s.rx with vring := s.rx.vring.writeBack i w data } }
      else none
  | .reap ndev =>
      let r := wilVringReapRx ndev s.rx
      some { s with
        rx := r.1
        removed := s.removed ++ removals r
        log := s.log ++ r.2.1 }

/-- A ring of `size` descriptors fresh from `wil_vring_alloc`; the rest of the state is arbitrary. -/
def RxSys.init (s : RxState) (size : ℕ) : RxSys :=
  { rx := { s with vring := (rxVringAlloc true { s.vring with size := size }).1 }
    posted := []
    removed := []
    log := [] }

/-! ## What lies in the ring -/

/-- From position `H` on, the ring holds these buffers, each with the address in its descriptor, and
nothing else. -/
structure RxHolds (v : RxVring) (H : ℕ) (held : List (ℕ × ℕ)) : Prop where
  head_eq : v.swhead = H % v.size
  tail_eq : v.swtail = (H + held.length) % v.size
  lt : held.length < v.size
  slot : ∀ k (hk : k < held.length), ∃ skb, v.ctx ((H + k) % v.size) = some skb ∧
    held[k] = (skb.id, (v.desc ((H + k) % v.size)).pa)
  empty : ∀ i, (∀ k < held.length, (H + k) % v.size ≠ i) → v.ctx i = none

section Holds

variable {v : RxVring} {H : ℕ} {held : List (ℕ × ℕ)}

lemma RxHolds.used_eq (h : RxHolds v H held) : v.used = held.length := by
  have hlt := h.lt
  rw [RxVring.used, h.head_eq, h.tail_eq, Circular.dist_mod (by omega) (by omega)]
  omega

lemma RxHolds.postedSlots_eq (h : RxHolds v H held) :
    v.postedSlots = slots v.size H held.length := by
  rw [RxVring.postedSlots, h.used_eq, h.head_eq, slots_mod]

/-- Reading the posted slots gives back what the ring holds. -/
lemma RxHolds.held_eq (h : RxHolds v H held) : v.held = held := by
  have hslots : ∀ n ≤ held.length, (slots v.size H n).filterMap
      (fun i => (v.ctx i).map fun skb => (skb.id, (v.desc i).pa)) = held.take n := by
    intro n
    induction n with
    | zero => intro _; simp [slots]
    | succ n ih =>
        intro hn
        obtain ⟨skb, hctx, heq⟩ := h.slot n (by omega)
        rw [show slots v.size H (n + 1) = slots v.size H n ++ [(H + n) % v.size] by
          simp [slots, List.range'_concat], List.filterMap_append, ih (by omega)]
        rw [List.take_succ_eq_append_getElem (by omega), heq]
        simp [hctx]
  rw [RxVring.held, h.postedSlots_eq, hslots _ le_rfl, List.take_length]

/-- The slots with a buffer are the posted ones. -/
lemma RxHolds.isSome_iff (h : RxHolds v H held) (i : ℕ) :
    (v.ctx i).isSome ↔ i ∈ v.postedSlots := by
  rw [h.postedSlots_eq, mem_slots]
  constructor
  · intro hsome
    by_contra hno
    rw [h.empty i fun k hk heq => hno ⟨H + k, by omega, by omega, heq⟩] at hsome
    exact absurd hsome (by simp)
  · rintro ⟨p, hp, hlt, rfl⟩
    obtain ⟨skb, hctx, -⟩ := h.slot (p - H) (by omega)
    rw [show H + (p - H) = p by omega] at hctx
    simp [hctx]

/-- Where the ring is full. -/
lemma RxHolds.nextTail_eq_iff (h : RxHolds v H held) :
    v.nextTail = v.swhead ↔ held.length + 1 = v.size := by
  have hlt := h.lt
  rw [RxVring.nextTail, h.tail_eq, h.head_eq, Circular.mod_succ]
  constructor
  · intro heq
    by_contra hne
    exact Circular.ne_of_window (show H < H + held.length + 1 by omega) (by omega) heq.symm
  · intro heq
    rw [show H + held.length + 1 = H + v.size by omega, Nat.add_mod_right]

lemma pa_rxPostDesc (d : RxRingDesc) (pa : Fin (2 ^ 48)) : (rxPostDesc d pa).pa = pa :=
  pa_fields pa.isLt

/-- One successful pass of the refill loop. -/
def rxPosted (s : RxState) (pa : Fin (2 ^ 48)) : RxState :=
  let t := (wilVringAllocSkb s s.vring.swtail (.mapped pa)).1
  { t with vring := { t.vring with swtail := s.vring.nextTail } }

/-- **One buffer more.**  It is posted at `swtail`, and `swtail` moves on. -/
lemma RxHolds.post {s : RxState} (h : RxHolds s.vring H held) (hroom : held.length + 1 < s.vring.size)
    (pa : Fin (2 ^ 48)) :
    RxHolds (rxPosted s pa).vring H (held ++ [(s.allocs, pa.val)]) := by
  have hnew : ∀ k < held.length, (H + k) % s.vring.size ≠ s.vring.swtail := by
    intro k hk
    rw [h.tail_eq]
    exact Circular.ne_of_window (by omega) (by omega)
  refine ⟨h.head_eq, ?_, ?_, ?_, ?_⟩
  · simp only [RxVring.nextTail, h.tail_eq, Circular.mod_succ, List.length_append,
      List.length_singleton, rxPosted, wilVringAllocSkb, RxVring.setCtx, RxVring.setDesc]
    rw [Nat.add_assoc]
  · simpa [rxPosted, wilVringAllocSkb, RxVring.setCtx, RxVring.setDesc] using hroom
  · intro k hk
    simp only [rxPosted, wilVringAllocSkb, RxVring.setCtx, RxVring.setDesc]
    rcases Nat.lt_or_ge k held.length with hlt | hge
    · obtain ⟨skb, hctx, heq⟩ := h.slot k hlt
      refine ⟨skb, ?_, ?_⟩
      · rw [Function.update_of_ne (hnew k hlt), hctx]
      · rw [List.getElem_append_left hlt, heq, Function.update_of_ne (hnew k hlt)]
    · obtain rfl : k = held.length := by simp at hk; omega
      rw [← h.tail_eq, Function.update_self, Function.update_self]
      exact ⟨_, rfl, by simp [pa_rxPostDesc]⟩
  · intro i hi
    simp only [rxPosted, wilVringAllocSkb, RxVring.setCtx, RxVring.setDesc, List.length_append,
      List.length_singleton] at hi ⊢
    rw [Function.update_of_ne, h.empty i fun k hk => hi k (by omega)]
    rintro rfl
    exact hi held.length (by omega) h.tail_eq.symm

/-- **One buffer less.**  It is taken at `swhead`, and `swhead` moves on. -/
lemma RxHolds.take {b : ℕ × ℕ} (h : RxHolds v H (b :: held)) :
    RxHolds { v.setCtx v.swhead none with swhead := (v.swhead + 1) % v.size } (H + 1) held := by
  have hlt := h.lt
  rw [List.length_cons] at hlt
  have hother : ∀ k < held.length, (H + 1 + k) % v.size ≠ v.swhead := by
    intro k hk
    rw [h.head_eq]
    exact (Circular.ne_of_window (by omega) (by omega)).symm
  refine ⟨?_, ?_, by simpa [RxVring.setCtx] using (by omega : held.length < v.size), ?_, ?_⟩
  · simp only [RxVring.setCtx, h.head_eq, Circular.mod_succ]
  · simp only [RxVring.setCtx, h.tail_eq, List.length_cons]
    congr 1
    omega
  · intro k hk
    obtain ⟨skb, hctx, heq⟩ := h.slot (k + 1) (by simpa using hk)
    rw [show H + (k + 1) = H + 1 + k by omega] at hctx heq
    refine ⟨skb, ?_, by simpa [RxVring.setCtx] using heq⟩
    simp only [RxVring.setCtx]
    rw [Function.update_of_ne (hother k hk), hctx]
  · intro i hi
    simp only [RxVring.setCtx] at hi ⊢
    by_cases hhead : i = v.swhead
    · rw [hhead, Function.update_self]
    · rw [Function.update_of_ne hhead]
      refine h.empty i fun k hk heq => ?_
      rcases Nat.eq_zero_or_pos k with rfl | hpos
      · exact hhead (heq ▸ h.head_eq.symm)
      · refine hi (k - 1) (by simp at hk; omega) ?_
        rw [show H + 1 + (k - 1) = H + k by omega]
        exact heq

/-- The hardware changes neither the buffers nor their addresses. -/
lemma RxHolds.writeBack (h : RxHolds v H held) (i : ℕ) (w : RxWriteBack) (data : List UInt8) :
    RxHolds (v.writeBack i w data) H held := by
  refine ⟨h.head_eq, h.tail_eq, h.lt, ?_, ?_⟩
  · intro k hk
    obtain ⟨skb, hctx, heq⟩ := h.slot k hk
    simp only [RxVring.writeBack, RxVring.setCtx, RxVring.setDesc]
    by_cases hi : (H + k) % v.size = i
    · subst hi
      rw [Function.update_self, Function.update_self, hctx]
      exact ⟨_, rfl, heq⟩
    · rw [Function.update_of_ne hi, Function.update_of_ne hi]
      exact ⟨skb, hctx, heq⟩
  · intro j hj
    have hnone := h.empty j hj
    simp only [RxVring.writeBack, RxVring.setCtx, RxVring.setDesc]
    by_cases hi : j = i
    · subst hi
      simp [hnone]
    · rw [Function.update_of_ne hi, hnone]

/-- A fresh ring is empty. -/
lemma rxHolds_alloc (v : RxVring) {size : ℕ} (hsize : 0 < size) (H : ℕ) (hH : H % size = 0) :
    RxHolds (rxVringAlloc true { v with size := size }).1 H [] := by
  refine ⟨hH.symm, hH.symm, hsize, ?_, fun i _ => rfl⟩
  intro k hk
  simp at hk

end Holds

/-! ## Refilling -/

@[simp] lemma mappings_append (es fs : List RxRingEvent) :
    mappings (es ++ fs) = mappings es ++ mappings fs := by
  simp [mappings]

@[simp] lemma unmappings_append (es fs : List RxRingEvent) :
    unmappings (es ++ fs) = unmappings es ++ unmappings fs := by
  simp [unmappings]

/-- What a refill of at most `n` buffers does to a ring that holds `held`: the buffers it posts are
new, mapped, and lie behind those that were there; where it succeeds, they are as many as there is
room for. -/
structure Refilled (s : RxState) (H : ℕ) (held : List (ℕ × ℕ)) (n : ℕ)
    (r : RxState × List RxRingEvent × ℤ) : Prop where
  holds : RxHolds r.1.vring H (held ++ postings r.2.1)
  size_eq : r.1.vring.size = s.vring.size
  va_eq : r.1.vring.va = s.vring.va
  count : r.2.2 = 0 → (postings r.2.1).length = min n (s.vring.size - 1 - held.length)
  allocs_le : s.allocs ≤ r.1.allocs
  fresh : ∀ b ∈ postings r.2.1, s.allocs ≤ b.1 ∧ b.1 < r.1.allocs
  nodup : ((postings r.2.1).map Prod.fst).Nodup
  mapped : mappings r.2.1 = (postings r.2.1).map fun b => (b.2, rxBufLen)
  unmapped : unmappings r.2.1 = []

variable {s : RxState} {H : ℕ} {held : List (ℕ × ℕ)}

/-- Nothing is posted, and the call stops, with success only where there was nothing to do. -/
lemma Refilled.stop (h : RxHolds s.vring H held) {n : ℕ} {t : RxState} {es : List RxRingEvent}
    {rc : ℤ} (hring : t.vring = s.vring) (hallocs : s.allocs ≤ t.allocs)
    (hevents : postings es = [] ∧ mappings es = [] ∧ unmappings es = [])
    (hrc : rc = 0 → n = 0 ∨ held.length + 1 = s.vring.size) : Refilled s H held n (t, es, rc) := by
  obtain ⟨hpost, hmap, hunmap⟩ := hevents
  refine ⟨?_, by rw [hring], by rw [hring], ?_, hallocs, by simp [hpost], by simp [hpost],
    by simp [hmap, hpost], hunmap⟩
  · simpa [hpost, hring] using h
  · intro hzero
    have := hrc hzero
    simp only [hpost, List.length_nil]
    omega

/-- One buffer is posted, and the loop goes on. -/
lemma Refilled.cons {n : ℕ} {pa : Fin (2 ^ 48)} {r : RxState × List RxRingEvent × ℤ}
    (hroom : held.length + 1 < s.vring.size)
    (h : Refilled (rxPosted s pa) H (held ++ [(s.allocs, pa.val)]) n r) :
    Refilled s H held (n + 1)
      (r.1, .dmaMapSingle pa rxBufLen :: .post s.allocs pa :: r.2.1, r.2.2) := by
  have hpost : postings (.dmaMapSingle pa.val rxBufLen :: .post s.allocs pa :: r.2.1)
      = (s.allocs, pa.val) :: postings r.2.1 := rfl
  have hallocs : (rxPosted s pa).allocs = s.allocs + 1 := rfl
  refine ⟨?_, h.size_eq, h.va_eq, ?_, ?_, ?_, ?_, ?_, h.unmapped⟩
  · simpa [hpost] using h.holds
  · intro hrc
    have hcount := h.count hrc
    have hsize : (rxPosted s pa).vring.size = s.vring.size := rfl
    rw [hsize, List.length_append, List.length_singleton] at hcount
    rw [hpost, List.length_cons, hcount]
    omega
  · have := h.allocs_le
    simp only at *
    omega
  · intro b hb
    rw [hpost] at hb
    have hle := h.allocs_le
    rcases List.mem_cons.mp hb with rfl | hb
    · exact ⟨le_rfl, by simp only; omega⟩
    · have := h.fresh b hb
      simp only
      omega
  · simp only [hpost, List.map_cons, List.nodup_cons]
    refine ⟨?_, h.nodup⟩
    intro hmem
    obtain ⟨b, hb, heq⟩ := List.mem_map.mp hmem
    have := h.fresh b hb
    omega
  · rw [hpost, List.map_cons, ← h.mapped]
    rfl

/-- **The refill loop**, through every pattern of failures. -/
theorem refilled_loop (outcome : ℕ → RxAlloc) (n : ℕ) :
    ∀ {s : RxState} {held : List (ℕ × ℕ)}, RxHolds s.vring H held →
      Refilled s H held n (rxRefillLoop outcome n s) := by
  induction n with
  | zero =>
      intro s held h
      exact .stop h rfl le_rfl ⟨rfl, rfl, rfl⟩ fun _ => .inl rfl
  | succ n ih =>
      intro s held h
      by_cases hfull : s.vring.nextTail = s.vring.swhead
      · rw [rxRefillLoop, if_pos hfull]
        exact .stop h rfl le_rfl ⟨rfl, rfl, rfl⟩ fun _ => .inr (h.nextTail_eq_iff.mp hfull)
      · cases hout : outcome s.allocs with
        | noSkb =>
            rw [rxRefillLoop, if_neg hfull, hout]
            exact .stop h rfl (Nat.le_succ _) ⟨rfl, rfl, rfl⟩
              fun hrc => absurd hrc (show eNomem ≠ 0 by decide)
        | noMapping =>
            rw [rxRefillLoop, if_neg hfull, hout]
            exact .stop h rfl (Nat.le_succ _) ⟨rfl, rfl, rfl⟩
              fun hrc => absurd hrc (show eNomem ≠ 0 by decide)
        | mapped pa =>
            have hlt := h.lt
            have hroom : held.length + 1 < s.vring.size := by
              have := h.nextTail_eq_iff.not.mp hfull
              omega
            have hloop : rxRefillLoop outcome (n + 1) s
                = ((rxRefillLoop outcome n (rxPosted s pa)).1,
                    .dmaMapSingle pa rxBufLen :: .post s.allocs pa
                      :: (rxRefillLoop outcome n (rxPosted s pa)).2.1,
                    (rxRefillLoop outcome n (rxPosted s pa)).2.2) := by
              rw [rxRefillLoop, if_neg hfull, hout]
              rfl
            exact hloop ▸ (ih (h.post hroom pa)).cons hroom

/-- **A call of `wil_rx_refill`.** -/
theorem rxHolds_refill (h : RxHolds s.vring H held) (count : ℤ) (outcome : ℕ → RxAlloc) :
    Refilled s H held count.toNat (wilRxRefill s count outcome) := by
  obtain ⟨hholds, hsize, hva, hcount, hallocs, hfresh, hnodup, hmapped, hunmapped⟩ :=
    refilled_loop outcome count.toNat h
  have hpost : postings (wilRxRefill s count outcome).2.1
      = postings (rxRefillLoop outcome count.toNat s).2.1 := by
    simp [wilRxRefill, postings]
  refine ⟨?_, hsize, hva, ?_, hallocs, ?_, ?_, ?_, ?_⟩
  · rw [hpost]
    exact hholds
  · rw [hpost]
    exact hcount
  · rw [hpost]
    exact hfresh
  · rw [hpost]
    exact hnodup
  · rw [hpost, ← hmapped]
    simp [wilRxRefill, mappings]
  · rw [← hunmapped]
    simp [wilRxRefill, unmappings]

/-! ## Reaping -/

/-- What a call of `wil_vring_reap_rx` does to a ring that holds `held`: nothing, or it takes the
first buffer, undoes its mapping, and frees it or gives it to the caller. -/
inductive Reaped (s : RxState) (H : ℕ) (held : List (ℕ × ℕ))
    (r : RxState × List RxRingEvent × Option RxBuf) : Prop
  | nothing (state : r.1 = s) (events : r.2.1 = []) (removed : removals r = [])
  | took (id pa : ℕ) (rest : List (ℕ × ℕ)) (toCaller : Bool) (held_eq : held = (id, pa) :: rest)
      (holds : RxHolds r.1.vring (H + 1) rest) (size_eq : r.1.vring.size = s.vring.size)
      (va_eq : r.1.vring.va = s.vring.va) (allocs_eq : r.1.allocs = s.allocs)
      (removed : removals r = [(id, toCaller)]) (mapped : mappings r.2.1 = [])
      (unmapped : unmappings r.2.1 = [(pa, rxBufLen)])

/-- **A call of `wil_vring_reap_rx`.** -/
theorem rxHolds_reap (h : RxHolds s.vring H held) (ndev : RxNdev) :
    Reaped s H held (wilVringReapRx ndev s) := by
  by_cases hempty : s.vring.isEmpty
  · simp only [wilVringReapRx, if_pos hempty]
    exact .nothing rfl rfl rfl
  by_cases hdu : (s.vring.desc s.vring.swhead).du
  · cases held with
    | nil =>
        have htail := h.tail_eq
        rw [List.length_nil, Nat.add_zero, ← h.head_eq] at htail
        exact absurd htail.symm hempty
    | cons b rest =>
        obtain ⟨skb, hctx, heq⟩ := h.slot 0 (by simp)
        simp only [Nat.add_zero, ← h.head_eq, List.getElem_cons_zero] at hctx heq
        subst heq
        simp only [wilVringReapRx, if_neg hempty, hdu, not_true_eq_false, if_false, hctx]
        split_ifs
        · exact .took _ _ rest false rfl h.take rfl rfl rfl rfl rfl rfl
        · exact .took _ _ rest false rfl h.take rfl rfl rfl rfl rfl rfl
        · refine .took skb.id _ rest true rfl h.take rfl rfl rfl ?_ rfl rfl
          simp only [removals, rxAccept, rxTrim]
          split_ifs <;> rfl
        · exact .took _ _ rest true rfl h.take rfl rfl rfl rfl rfl rfl
  · simp only [wilVringReapRx, if_neg hempty, hdu, not_false_eq_true, if_true]
    exact .nothing rfl rfl rfl

/-! ## The invariant -/

/-- What holds between two steps. -/
structure RxRingInv (size : ℕ) (s : RxSys) : Prop where
  va : s.rx.vring.va = true
  size_eq : s.rx.vring.size = size
  holds : RxHolds s.rx.vring s.removed.length (s.posted.drop s.removed.length)
  removed_le : s.removed.length ≤ s.posted.length
  fifo : s.removed.map Prod.fst = (s.posted.take s.removed.length).map Prod.fst
  fresh : ∀ b ∈ s.posted, b.1 < s.rx.allocs
  nodup : (s.posted.map Prod.fst).Nodup

variable {size : ℕ} {t u : RxSys}

lemma rxRingInv_init (s : RxState) (hsize : 0 < size) : RxRingInv size (RxSys.init s size) := by
  refine ⟨rfl, rfl, ?_, le_rfl, rfl, by simp [RxSys.init], by simp [RxSys.init]⟩
  exact rxHolds_alloc s.vring hsize 0 (Nat.zero_mod _)

lemma RxRingInv.refill (h : RxRingInv size t) {count : ℤ} {outcome : ℕ → RxAlloc}
    (hu : t.step (.refill count outcome) = some u) : RxRingInv size u := by
  obtain rfl := Option.some.inj hu
  have hr := rxHolds_refill h.holds count outcome
  have hle := h.removed_le
  refine ⟨hr.va_eq.trans h.va, hr.size_eq.trans h.size_eq, ?_, ?_, ?_, ?_, ?_⟩
  · simp only [List.drop_append_of_le_length hle]
    exact hr.holds
  · simp only [List.length_append]
    omega
  · simp only [List.take_append_of_le_length hle]
    exact h.fifo
  · intro b hb
    rcases List.mem_append.mp hb with hb | hb
    · exact lt_of_lt_of_le (h.fresh b hb) hr.allocs_le
    · exact (hr.fresh b hb).2
  · simp only [List.map_append]
    refine List.nodup_append'.mpr ⟨h.nodup, hr.nodup, ?_⟩
    intro id hold hnew
    obtain ⟨b, hb, rfl⟩ := List.mem_map.mp hold
    obtain ⟨c, hc, heq⟩ := List.mem_map.mp hnew
    have := h.fresh b hb
    have := (hr.fresh c hc).1
    omega

lemma RxRingInv.hwComplete (h : RxRingInv size t) {i : ℕ} {w : RxWriteBack} {data : List UInt8}
    (hu : t.step (.hwComplete i w data) = some u) : RxRingInv size u := by
  obtain ⟨-, hu⟩ := Option.ite_none_right_eq_some.mp hu
  obtain rfl := Option.some.inj hu
  exact ⟨h.va, h.size_eq, h.holds.writeBack i w data, h.removed_le, h.fifo, h.fresh, h.nodup⟩

lemma RxRingInv.reap (h : RxRingInv size t) {ndev : RxNdev} (hu : t.step (.reap ndev) = some u) :
    RxRingInv size u := by
  obtain rfl := Option.some.inj hu
  cases rxHolds_reap h.holds ndev with
  | nothing state events removed =>
      simp only [state, removed, List.append_nil]
      exact ⟨h.va, h.size_eq, h.holds, h.removed_le, h.fifo, h.fresh, h.nodup⟩
  | took id pa rest toCaller held_eq holds size_eq va_eq allocs_eq removed =>
      have hlt : t.removed.length < t.posted.length := by
        by_contra hge
        rw [List.drop_eq_nil_of_le (by omega)] at held_eq
        exact absurd held_eq (by simp)
      rw [List.drop_eq_getElem_cons hlt] at held_eq
      obtain ⟨hfirst, hrest⟩ := List.cons.inj held_eq
      simp only [removed]
      refine ⟨va_eq.trans h.va, size_eq.trans h.size_eq, ?_, ?_, ?_, ?_, h.nodup⟩
      · simp only [List.length_append, List.length_singleton, hrest]
        exact holds
      · simp only [List.length_append, List.length_singleton]
        omega
      · simp only [List.map_append, List.length_append, List.length_singleton]
        rw [List.take_succ_eq_append_getElem hlt, List.map_append, h.fifo, hfirst]
        rfl
      · simp only [allocs_eq]
        exact h.fresh

/-- **Every step keeps the invariant.** -/
theorem RxRingInv.step (h : RxRingInv size t) {a : RxAction} (hu : t.step a = some u) :
    RxRingInv size u := by
  cases a with
  | refill count outcome => exact h.refill hu
  | hwComplete i w data => exact h.hwComplete hu
  | reap ndev => exact h.reap hu

/-! ## Ownership -/

/-- **Rx ring ownership.**  In every reachable state of a ring of two slots or more: the slots with
a buffer are those from `swhead` to `swtail`, their buffers are distinct and at most `size - 1`;
what was removed, in order, followed by what the ring holds, is what was posted, and no buffer was
posted twice; and a refill leaves every buffer it posts behind those that were there, as many as
asked for or as there is room for where it succeeds. -/
theorem rxRing_owned {s : RxState} (hsize : 2 ≤ size) {as : List RxAction}
    (h : Machine.Exec RxSys.step (fun _ _ => True) (RxSys.init s size) as t) :
    let v := t.rx.vring
    v.size = size ∧ (∀ i, (v.ctx i).isSome ↔ i ∈ v.postedSlots) ∧
      (v.held.map Prod.fst).Nodup ∧ v.held.length = v.used ∧ v.used ≤ size - 1 ∧
      t.removed.map Prod.fst ++ v.held.map Prod.fst = t.posted.map Prod.fst ∧
      (t.posted.map Prod.fst).Nodup ∧
      ∀ count outcome,
        let r := wilRxRefill t.rx count outcome
        r.1.vring.swhead = v.swhead ∧ r.1.vring.held = v.held ++ postings r.2.1 ∧
          (∀ i, (r.1.vring.ctx i).isSome ↔ i ∈ r.1.vring.postedSlots) ∧
          (r.2.2 = 0 → (postings r.2.1).length = min count.toNat (size - 1 - v.used)) := by
  have hinv : RxRingInv size t := h.invariant (fun _ _ _ _ hu hi => hi.step hu)
    (rxRingInv_init s (by omega))
  have hheld := hinv.holds.held_eq
  have hused := hinv.holds.used_eq
  have hlt := hinv.holds.lt
  have hall : t.removed.map Prod.fst ++ t.rx.vring.held.map Prod.fst = t.posted.map Prod.fst := by
    rw [hheld, hinv.fifo, ← List.map_append, List.take_append_drop]
  refine ⟨hinv.size_eq, hinv.holds.isSome_iff, ?_, by rw [hheld, hused], ?_, hall, hinv.nodup, ?_⟩
  · have hnodup := hinv.nodup
    rw [← hall] at hnodup
    exact (List.nodup_append'.mp hnodup).2.1
  · rw [hused]
    have := hinv.size_eq
    omega
  · intro count outcome
    have hr := rxHolds_refill hinv.holds count outcome
    refine ⟨?_, ?_, hr.holds.isSome_iff, ?_⟩
    · rw [hr.holds.head_eq, hr.size_eq, hinv.holds.head_eq]
    · rw [hr.holds.held_eq, hheld]
    · intro hrc
      rw [hr.count hrc, hused, hinv.size_eq]

/-- A ring of four slots, refilled, one frame received, and refilled again across a failure. -/
theorem rxRing_owned_four :
    ∃ t : RxSys, t.removed.map Prod.fst ++ t.rx.vring.held.map Prod.fst = t.posted.map Prod.fst ∧
      t.posted.length = 3 ∧ t.removed = [(0, true)] := by
  let outcome : ℕ → RxAlloc := fun id => if id = 3 then .noMapping else .mapped 4096
  let as : List RxAction := [.refill 4 outcome, .hwComplete 0 ⟨bit 11, 0, 0, 0, 1, 60⟩ [],
    .reap ⟨true, true⟩, .refill 4 outcome]
  let start : RxState := ⟨⟨false, fun _ => ⟨0, 0, 0, 0, 0, 0, 0, 0⟩, 0, 0, 0, 0, fun _ => none⟩, 0⟩
  have hrun : (Machine.exec RxSys.step (fun _ _ => True) (RxSys.init start 4) as).map
      (fun t => (t.posted.length, t.removed)) = some (3, [(0, true)]) := by
    decide +kernel
  obtain ⟨t, ht, hend⟩ := Option.map_eq_some_iff.mp hrun
  obtain ⟨hposted, hremoved⟩ := Prod.mk.inj hend
  exact ⟨t, (rxRing_owned (by norm_num) (.of_exec ht)).2.2.2.2.2.1, hposted, hremoved⟩

end Wil6210
