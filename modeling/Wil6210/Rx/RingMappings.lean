import Wil6210.Rx.RingOwnership

/-!
# DMA mappings of the Rx ring

`wil_vring_alloc_skb` maps `RX_BUF_LEN` bytes of every buffer it posts, and `wil_vring_reap_rx`
unmaps the same.  `wil_vring_free` walks over the posted buffers from `swhead` on, as it has to,
but takes address and length of each of them from the descriptor at `swtail`, which is not posted
and does not move.  So the mappings of a ring balance exactly where that one descriptor happens to
speak for all the posted ones (`rxLife_balanced_iff`).
-/

namespace Wil6210

variable {s : RxState} {v : RxVring} {H : ℕ} {held : List (ℕ × ℕ)} {es : List RxRingEvent}

/-! ## Mappings and posted buffers -/

/-- Every mapping is either undone, or of a buffer that the ring holds. -/
def MappingsHeld (v : RxVring) (es : List RxRingEvent) : Prop :=
  (mappings es).Perm (unmappings es ++ v.held.map fun b => (b.2, rxBufLen))

lemma MappingsHeld.refill (hv : RxHolds s.vring H held) (h : MappingsHeld s.vring es) (count : ℤ)
    (outcome : ℕ → RxAlloc) :
    MappingsHeld (wilRxRefill s count outcome).1.vring
      (es ++ (wilRxRefill s count outcome).2.1) := by
  have hr := rxHolds_refill hv count outcome
  rw [MappingsHeld, hr.holds.held_eq, mappings_append, unmappings_append, hr.mapped, hr.unmapped,
    List.append_nil, List.map_append, ← List.append_assoc]
  rw [MappingsHeld, hv.held_eq] at h
  exact h.append_right _

lemma MappingsHeld.reap (hv : RxHolds s.vring H held) (h : MappingsHeld s.vring es)
    (ndev : RxNdev) :
    MappingsHeld (wilVringReapRx ndev s).1.vring (es ++ (wilVringReapRx ndev s).2.1) := by
  cases rxHolds_reap hv ndev with
  | nothing state events removed => rwa [state, events, List.append_nil]
  | took id pa rest toCaller held_eq holds size_eq va_eq allocs_eq removed mapped unmapped =>
      rw [MappingsHeld, hv.held_eq, held_eq, List.map_cons] at h
      rw [MappingsHeld, holds.held_eq, mappings_append, unmappings_append, mapped, unmapped,
        List.append_nil, List.append_assoc]
      exact h

/-- **The mappings over a run.** -/
theorem mappingsHeld_run {size : ℕ} {t u : RxSys} (ht : RxRingInv size t)
    (hmap : MappingsHeld t.rx.vring t.log) {as : List RxAction}
    (h : Machine.Exec RxSys.step (fun _ _ => True) t as u) :
    RxRingInv size u ∧ MappingsHeld u.rx.vring u.log := by
  refine h.invariant (I := fun u => RxRingInv size u ∧ MappingsHeld u.rx.vring u.log) ?_ ⟨ht, hmap⟩
  rintro s a u - hu ⟨hinv, hmap⟩
  refine ⟨hinv.step hu, ?_⟩
  cases a with
  | refill count outcome =>
      obtain rfl := Option.some.inj hu
      exact hmap.refill hinv.holds count outcome
  | hwComplete i w data =>
      obtain ⟨-, hu⟩ := Option.ite_none_right_eq_some.mp hu
      obtain rfl := Option.some.inj hu
      rw [MappingsHeld, hinv.holds.held_eq] at hmap
      rwa [MappingsHeld, (hinv.holds.writeBack i w data).held_eq]
  | reap ndev =>
      obtain rfl := Option.some.inj hu
      exact hmap.reap hinv.holds ndev

/-- The log only grows. -/
lemma RxSys.log_prefix {t u : RxSys} {as : List RxAction}
    (h : Machine.Exec RxSys.step (fun _ _ => True) t as u) : t.log <+: u.log := by
  refine h.invariant (I := fun u => t.log <+: u.log) ?_ (List.prefix_refl _)
  rintro s a u - hu hlog
  cases a with
  | refill count outcome =>
      obtain rfl := Option.some.inj hu
      exact hlog.trans (List.prefix_append _ _)
  | hwComplete i w data =>
      obtain ⟨-, hu⟩ := Option.ite_none_right_eq_some.mp hu
      obtain rfl := Option.some.inj hu
      exact hlog
  | reap ndev =>
      obtain rfl := Option.some.inj hu
      exact hlog.trans (List.prefix_append _ _)

/-! ## Freeing the ring -/

/-- **What `wil_vring_free` unmaps**: once for every posted buffer, what the descriptor at `swtail`
says. -/
theorem unmappings_rxVringFree (h : RxHolds v H held) :
    mappings (rxVringFree v).2 = [] ∧
      unmappings (rxVringFree v).2
        = List.replicate held.length ((v.desc v.swtail).pa, (v.desc v.swtail).length) := by
  have hlt := h.lt
  obtain ⟨k, hle, hlast, -, ⟨hring, hmap, hunmap⟩, hend⟩ :=
    Circular.loop_rule (f := rxVringFreeSlot) (p := H) (q := H + held.length)
      (n := v.size) (s := (v, []))
      (P := fun k p => p.1 = v ∧ mappings p.2 = [] ∧
        unmappings p.2
          = List.replicate (k - H) ((v.desc v.swtail).pa, (v.desc v.swtail).length))
      (Nat.le_add_right _ _) (show H + held.length < H + v.size by omega) (by omega)
      ⟨rfl, rfl, by simp [unmappings]⟩ (by
        rintro k p t hk - ⟨hring, hmap, hunmap⟩ ht
        simp only [rxVringFreeSlot, Option.some.injEq] at ht
        subst ht
        refine ⟨hring, ?_, ?_⟩
        · rw [mappings_append, hmap, hring]
          cases v.ctx (k % v.size) <;> rfl
        · rw [unmappings_append, hunmap, hring, Nat.succ_sub hk, List.replicate_succ']
          cases v.ctx (k % v.size) <;> rfl)
  rw [← h.head_eq, ← h.tail_eq] at hmap hunmap
  refine ⟨hmap, ?_⟩
  obtain rfl : k = H + held.length := by
    rcases hend with rfl | hbreak
    · rfl
    · simp [rxVringFreeSlot] at hbreak
  rw [Nat.add_sub_cancel_left] at hunmap
  exact hunmap

/-- **When the free is right**: the descriptor at `swtail` has the address of every posted buffer,
and their length. -/
def FreeMatches (v : RxVring) : Prop :=
  ∀ i ∈ v.postedSlots,
    (v.desc i).pa = (v.desc v.swtail).pa ∧ (v.desc v.swtail).length = rxBufLen

instance (v : RxVring) : Decidable (FreeMatches v) :=
  inferInstanceAs (Decidable (∀ i ∈ v.postedSlots, _ ∧ _))

/-- The mappings are balanced: each is undone exactly once, and nothing else is. -/
def Balanced (es : List RxRingEvent) : Prop := (mappings es).Perm (unmappings es)

lemma freeMatches_iff (h : RxHolds v H held) :
    FreeMatches v ↔ ∀ b ∈ v.held, (b.2, rxBufLen)
      = ((v.desc v.swtail).pa, (v.desc v.swtail).length) := by
  have hmem : ∀ i ∈ v.postedSlots, ∃ skb, v.ctx i = some skb := fun i hi =>
    Option.isSome_iff_exists.mp ((h.isSome_iff i).mpr hi)
  simp only [RxVring.held, List.mem_filterMap, Option.map_eq_some_iff, Prod.mk.injEq]
  constructor
  · rintro hfree b ⟨i, hi, skb, -, rfl⟩
    exact ⟨(hfree i hi).1, (hfree i hi).2.symm⟩
  · intro hall i hi
    obtain ⟨skb, hctx⟩ := hmem i hi
    obtain ⟨hpa, hlen⟩ := hall _ ⟨i, hi, skb, hctx, rfl⟩
    exact ⟨hpa, hlen.symm⟩

/-- The whole life of a ring up to its free, and the free. -/
lemma balanced_free_iff (h : RxHolds v H held) (hmap : MappingsHeld v es) :
    Balanced (es ++ (rxVringFree v).2) ↔ FreeMatches v := by
  obtain ⟨hnone, hunmap⟩ := unmappings_rxVringFree h
  rw [freeMatches_iff h, Balanced, mappings_append, unmappings_append, hnone, hunmap,
    List.append_nil, hmap.congr_left, List.perm_append_left_iff, List.perm_replicate,
    List.eq_replicate_iff, h.held_eq, List.length_map]
  simp only [true_and, List.forall_mem_map]

/-! ## The life of a ring -/

/-- `wil_rx_init` up to `err_free`: the ring that it frees there, and what it has done so far. -/
def rxInitFreed (s : RxState) (reply : RxChainReply) (outcome : ℕ → RxAlloc) :
    RxVring × List RxRingEvent :=
  let a := rxVringAlloc true { s.vring with size := wil6210RxRingSize }
  let c := wmiRxChainAdd a.1 reply
  if c.2 ≠ 0 then (c.1, [])
  else
    let r := wilRxRefill { s with vring := c.1 } c.1.size outcome
    (r.1.vring, r.2.1)

/-- The driver after a successful `wil_rx_init`. -/
def RxSys.start (p : RxState × List RxRingEvent × ℤ) : RxSys :=
  { rx := p.1
    posted := postings p.2.1
    removed := []
    log := p.2.1 }

/-- The life of a ring: the ring as it is when `wil_vring_free` is called on it, and everything
that was done to it, the free included. -/
inductive RxLife (s : RxState) : RxVring → List RxRingEvent → Prop
  /-- `wil_rx_init` fails, behind the allocation of the ring. -/
  | failed {reply : RxChainReply} {outcome : ℕ → RxAlloc}
      (hrc : (wilRxInit s true reply outcome).2.2 ≠ 0) :
      RxLife s (rxInitFreed s reply outcome).1 (wilRxInit s true reply outcome).2.1
  /-- `wil_rx_init` succeeds, and after any run the ring is freed by `wil_rx_fini`. -/
  | full {reply : RxChainReply} {outcome : ℕ → RxAlloc} {as : List RxAction} {t : RxSys}
      (hrc : (wilRxInit s true reply outcome).2.2 = 0)
      (hrun : Machine.Exec RxSys.step (fun _ _ => True)
        (RxSys.start (wilRxInit s true reply outcome)) as t) :
      RxLife s t.rx.vring (t.log ++ (wilRxFini t.rx).2)

section Init

variable (s) (reply : RxChainReply) (outcome : ℕ → RxAlloc)

/-- The ring of `wil_rx_init`, behind `wmi_rx_chain_add`. -/
def rxInitChained : RxVring × ℤ :=
  wmiRxChainAdd (rxVringAlloc true { s.vring with size := wil6210RxRingSize }).1 reply

lemma rxInitChained_spec :
    RxHolds (rxInitChained s reply).1 0 [] ∧ (rxInitChained s reply).1.va = true ∧
      (rxInitChained s reply).1.size = wil6210RxRingSize := by
  have hsize : 0 < wil6210RxRingSize := by decide
  have halloc := rxHolds_alloc s.vring hsize 0 rfl
  simp only [rxInitChained, wmiRxChainAdd]
  by_cases hrc : reply.rc ≠ 0
  · rw [if_pos hrc]
    exact ⟨halloc, rfl, rfl⟩
  · rw [if_neg hrc]
    exact ⟨⟨halloc.head_eq, halloc.tail_eq, halloc.lt, halloc.slot, halloc.empty⟩, rfl, rfl⟩

/-- The refill of `wil_rx_init`. -/
def rxInitRefill : RxState × List RxRingEvent × ℤ :=
  wilRxRefill { s with vring := (rxInitChained s reply).1 } (rxInitChained s reply).1.size outcome

lemma mappingsHeld_chained : MappingsHeld (rxInitChained s reply).1 [] := by
  rw [MappingsHeld, (rxInitChained_spec s reply).1.held_eq]
  rfl

lemma rxInitRefill_spec :
    Refilled { s with vring := (rxInitChained s reply).1 } 0 []
        ((rxInitChained s reply).1.size : ℤ).toNat (rxInitRefill s reply outcome) ∧
      MappingsHeld (rxInitRefill s reply outcome).1.vring (rxInitRefill s reply outcome).2.1 := by
  have hempty := (rxInitChained_spec s reply).1
  exact ⟨rxHolds_refill (s := { s with vring := (rxInitChained s reply).1 }) hempty _ outcome,
    MappingsHeld.refill (s := { s with vring := (rxInitChained s reply).1 }) hempty
      (mappingsHeld_chained s reply) _ outcome⟩

/-- `wil_rx_init`, where the ring could be allocated. -/
lemma wilRxInit_true :
    wilRxInit s true reply outcome
      = if (rxInitChained s reply).2 ≠ 0 then
          ({ s with vring := (rxVringFree (rxInitChained s reply).1).1 },
            (rxVringFree (rxInitChained s reply).1).2, (rxInitChained s reply).2)
        else if (rxInitRefill s reply outcome).2.2 ≠ 0 then
          ({ (rxInitRefill s reply outcome).1 with
              vring := (rxVringFree (rxInitRefill s reply outcome).1.vring).1 },
            (rxInitRefill s reply outcome).2.1
              ++ (rxVringFree (rxInitRefill s reply outcome).1.vring).2,
            (rxInitRefill s reply outcome).2.2)
        else rxInitRefill s reply outcome := by
  rfl

lemma rxInitFreed_eq :
    rxInitFreed s reply outcome
      = if (rxInitChained s reply).2 ≠ 0 then ((rxInitChained s reply).1, [])
        else ((rxInitRefill s reply outcome).1.vring, (rxInitRefill s reply outcome).2.1) := by
  rfl

lemma rxHolds_rxInitFreed :
    (∃ H held, RxHolds (rxInitFreed s reply outcome).1 H held) ∧
      MappingsHeld (rxInitFreed s reply outcome).1 (rxInitFreed s reply outcome).2 := by
  rw [rxInitFreed_eq]
  split_ifs
  · exact ⟨⟨_, _, (rxInitChained_spec s reply).1⟩, mappingsHeld_chained s reply⟩
  · obtain ⟨hr, hmap⟩ := rxInitRefill_spec s reply outcome
    exact ⟨⟨_, _, hr.holds⟩, hmap⟩

end Init

lemma wilRxInit_failed {reply : RxChainReply} {outcome : ℕ → RxAlloc}
    (hrc : (wilRxInit s true reply outcome).2.2 ≠ 0) :
    (wilRxInit s true reply outcome).2.1
      = (rxInitFreed s reply outcome).2 ++ (rxVringFree (rxInitFreed s reply outcome).1).2 := by
  rw [wilRxInit_true] at hrc ⊢
  rw [rxInitFreed_eq]
  split_ifs at hrc ⊢ with hchain hrefill
  · rfl
  · rfl
  · exact absurd hrc hrefill

lemma wilRxInit_succeeded {reply : RxChainReply} {outcome : ℕ → RxAlloc}
    (hrc : (wilRxInit s true reply outcome).2.2 = 0) :
    wilRxInit s true reply outcome = rxInitRefill s reply outcome := by
  rw [wilRxInit_true] at hrc ⊢
  split_ifs at hrc ⊢ with hchain hrefill
  · exact absurd hrc hchain
  · exact absurd hrc hrefill
  · rfl

lemma rxRingInv_start {reply : RxChainReply} {outcome : ℕ → RxAlloc}
    (hrc : (wilRxInit s true reply outcome).2.2 = 0) :
    RxRingInv wil6210RxRingSize (RxSys.start (wilRxInit s true reply outcome)) ∧
      MappingsHeld (RxSys.start (wilRxInit s true reply outcome)).rx.vring
        (RxSys.start (wilRxInit s true reply outcome)).log := by
  rw [wilRxInit_succeeded hrc]
  obtain ⟨hr, hmap⟩ := rxInitRefill_spec s reply outcome
  obtain ⟨-, hva, hsize⟩ := rxInitChained_spec s reply
  refine ⟨⟨hr.va_eq.trans hva, hr.size_eq.trans hsize, ?_, Nat.zero_le _, rfl, ?_, hr.nodup⟩, hmap⟩
  · simpa [RxSys.start] using hr.holds
  · intro b hb
    exact (hr.fresh b hb).2

/-- **When the DMA mappings of an Rx ring balance**: exactly where, as the ring is freed, the
descriptor at `swtail` has the address of every posted buffer, and `RX_BUF_LEN` for its length. -/
theorem rxLife_balanced_iff (h : RxLife s v es) : Balanced es ↔ FreeMatches v := by
  cases h with
  | failed hrc =>
      obtain ⟨⟨H, held, hholds⟩, hmap⟩ := rxHolds_rxInitFreed s _ _
      rw [wilRxInit_failed hrc]
      exact balanced_free_iff hholds hmap
  | @full reply outcome as t hrc hrun =>
      obtain ⟨hinv, hmap⟩ := rxRingInv_start hrc
      obtain ⟨hinv', hmap'⟩ := mappingsHeld_run hinv hmap hrun
      rw [wilRxFini, if_pos hinv'.va]
      exact balanced_free_iff hinv'.holds hmap'

/-- A ring that was never used. -/
def unusedRx : RxState :=
  ⟨⟨false, fun _ => ⟨0, 0, 0, 0, 0, 0, 0, 0⟩, 0, 0, 0, 0, fun _ => none⟩, 0⟩

/-- Each buffer has an address of its own, from `4096` on. -/
def mapEach (id : ℕ) : RxAlloc := .mapped (Fin.ofNat (2 ^ 48) (4096 * (id + 1)))

/-- The hardware fills the buffer of each slot with a frame of 60 bytes, and it is reaped. -/
def drainAll : List RxAction :=
  (List.range 127).flatMap fun i =>
    [.hwComplete i ⟨bit 11, 0, 0, 0, 1, 60⟩ [], .reap ⟨true, true⟩]

/-- All buffers of a ring are mapped, filled and reaped, and the ring is freed with none posted. -/
theorem rxLife_balanced_drained : ∃ v es, RxLife unusedRx v es ∧ Balanced es ∧ v.postedSlots = [] ∧
    ((List.range 127).map fun id => (4096 * (id + 1), rxBufLen)) <+: mappings es := by
  have hrc : (wilRxInit unusedRx true ⟨0, 1, 0⟩ mapEach).2.2 = 0 := by decide +kernel
  have hmapped : mappings (wilRxInit unusedRx true ⟨0, 1, 0⟩ mapEach).2.1
      = (List.range 127).map fun id => (4096 * (id + 1), rxBufLen) := by decide +kernel
  have hrun : (Machine.exec RxSys.step (fun _ _ => True)
      (RxSys.start (wilRxInit unusedRx true ⟨0, 1, 0⟩ mapEach)) drainAll).map
        (fun t => t.rx.vring.postedSlots) = some [] := by
    decide +kernel
  obtain ⟨t, ht, hempty⟩ := Option.map_eq_some_iff.mp hrun
  have hlife := RxLife.full hrc (.of_exec ht)
  have hfree : FreeMatches t.rx.vring := by simp [FreeMatches, hempty]
  refine ⟨_, _, hlife, (rxLife_balanced_iff hlife).mpr hfree, hempty, ?_⟩
  rw [← hmapped]
  exact ((RxSys.log_prefix (.of_exec ht)).trans (List.prefix_append _ _)).filterMap _

/-- Where the second buffer cannot be allocated, the first one stays mapped. -/
theorem not_rxLife_balanced :
    ¬ ∀ (s : RxState) (v : RxVring) (es : List RxRingEvent), RxLife s v es → Balanced es := by
  intro h
  let outcome : ℕ → RxAlloc := fun id => if id = 0 then .mapped 4096 else .noSkb
  have hrc : (wilRxInit unusedRx true ⟨0, 1, 0⟩ outcome).2.2 ≠ 0 := by decide +kernel
  have hbalanced := h unusedRx _ _ (.failed hrc)
  have hunmapped : (4096, rxBufLen) ∈ unmappings (wilRxInit unusedRx true ⟨0, 1, 0⟩ outcome).2.1 :=
    hbalanced.subset (by decide +kernel)
  exact absurd hunmapped (by decide +kernel)

end Wil6210
