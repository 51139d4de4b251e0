import Wil6210.Driver.Busy
import Wil6210.Tx.RingSafety

/-!
# References to packets

A posted descriptor holds a reference to its buffer, which `wil_tx_complete` and `wil_vring_free`
drop.  The reference that comes with a packet is dropped by `wil_start_xmit`, unless the stack keeps
the packet.  A copy that `wil_tx_bcast` makes comes with a reference, too, which nothing drops.

`RingKeeps` is the account of one ring, `WilKeeps` that of all rings.  `RefSys` is the driver with
its rings and the count of references it has to each buffer; other parts of the driver may change at
any time.  `xmit_refs_iff` says what is left once the descriptors of a packet are released.
-/

namespace Wil6210

open Circular (slots)

/-! ## One ring -/

section Ring

variable {v w : Vring} {s : TxState} {skb : TxSkb} {n : ℕ} {es : List TxEvent} {rc : ℤ}

/-- The descriptors between the tail and the head are posted, each with a buffer. -/
def Vring.Sound (v : Vring) : Prop := RingAt v v.swtail (v.swtail + v.used) (v.swtail + v.used)

/-- The posted descriptors whose buffer meets `p`. -/
def Vring.held (v : Vring) (p : TxSkb → Bool) : ℕ := heldRefs v p v.swtail v.used

lemma heldRefs_mod (v : Vring) (p : TxSkb → Bool) (a n : ℕ) :
    heldRefs v p (a % v.size) n = heldRefs v p a n := by
  have hslots : ∀ a, heldRefs v p a n = (slots v.size a n).countP fun i => (v.ctx i).any p := by
    intro a
    rw [slots, List.countP_map]
    rfl
  rw [hslots, hslots, Circular.slots_mod]

/-- The positions may be counted from the tail. -/
lemma RingAt.sound {released passed posted : ℕ} (h : RingAt v released passed posted) :
    v.Sound ∧ ∀ p, v.held p = heldRefs v p released (posted - released) := by
  have hroom := h.room
  have hle := h.released_le.trans h.passed_le
  have hused := h.used_eq
  have hshift : ∀ j, (v.swtail + j) % v.size = (released + j) % v.size := by
    intro j
    rw [h.swtail, Nat.mod_add_mod]
  refine ⟨⟨?_, ?_, Nat.le_add_right _ _, le_rfl, by omega, fun k hk hk' => by omega,
    fun k hk hk' => ?_⟩, fun p => ?_⟩
  · rw [h.swtail, Nat.mod_mod]
  · rw [hshift, hused, show released + (posted - released) = posted by omega]
    exact h.swhead
  · obtain ⟨j, rfl⟩ := Nat.exists_eq_add_of_le hk
    rw [hshift]
    exact h.held (released + j) (Nat.le_add_right _ _) (by omega)
  · rw [Vring.held, hused, h.swtail, heldRefs_mod]

/-- A ring that is allocated is sound, and nothing is posted on one that is not. -/
structure RingOk (v : Vring) : Prop where
  sound : v.va = true → v.Sound
  empty : v.va = false → v.used = 0

lemma Vring.Sound.ok (h : v.Sound) (hva : v.va = true) : RingOk v :=
  ⟨fun _ => h, fun hfree => absurd (hva.symm.trans hfree) (by decide)⟩

/-- From `v` to `w`, what the posted descriptors hold changes by what is taken and dropped. -/
structure RingKeeps (v w : Vring) (es : List TxEvent) : Prop where
  ok : RingOk w
  refs : ∀ p, w.held p + dropped p es = v.held p + taken p es

lemma Vring.Sound.head_lt (h : v.Sound) : v.swhead < v.size := by
  rw [h.swhead]
  exact Nat.mod_lt _ h.size_pos

lemma Vring.Sound.post (h : v.Sound) (hpost : RingPosting v w skb n es rc) (hva : w.va = true) :
    RingKeeps v w es := by
  obtain ⟨hsound, hheld⟩ := (RingAt.posting h hpost).sound
  refine ⟨hsound.ok hva, fun p => ?_⟩
  have hrefs := RingAt.posting_refs h hpost p
  rw [Nat.add_sub_cancel_left] at hrefs
  rw [hheld]
  exact hrefs

lemma Vring.Sound.complete (h : s.vring.Sound) (hva : s.vring.va = true) :
    RingKeeps s.vring (wilTxComplete s).1.vring (wilTxComplete s).2.1 := by
  obtain ⟨n, hn⟩ := txCompletion hva h
  obtain ⟨hsound, hheld⟩ := (RingAt.completion h hn).sound
  refine ⟨hsound.ok (hn.va.trans hva), fun p => ?_⟩
  have hrefs := RingAt.completion_refs h hn p
  rw [Nat.add_sub_cancel_left] at hrefs
  rw [hheld, hn.taken]
  exact hrefs

/-- Releasing a slot drops the reference it holds. -/
lemma dropped_releaseEvents (v : Vring) (cb : ℕ → WilSkbCb) (p : TxSkb → Bool) (k : ℕ) :
    dropped p (v.releaseEvents cb k) = if (v.ctx (k % v.size)).any p then 1 else 0 := by
  rw [Vring.releaseEvents]
  cases v.ctx (k % v.size) with
  | none => simp
  | some skb => by_cases hp : p skb = true <;> simp [hp]

lemma dropped_released (v : Vring) (cb : ℕ → WilSkbCb) (p : TxSkb → Bool) (a n : ℕ) :
    dropped p ((List.range' a n).flatMap (v.releaseEvents cb)) = heldRefs v p a n ∧
      taken p ((List.range' a n).flatMap (v.releaseEvents cb)) = 0 := by
  induction n generalizing a with
  | zero => simp [heldRefs]
  | succ n ih =>
      obtain ⟨hdropped, htaken⟩ := ih (a + 1)
      have htake : taken p (v.releaseEvents cb a) = 0 := by
        rw [Vring.releaseEvents]
        cases v.ctx (a % v.size) with
        | none => simp
        | some skb => simp
      rw [List.range'_succ, List.flatMap_cons, dropped_append, taken_append, htaken, htake,
        hdropped, dropped_releaseEvents, Nat.add_comm n 1, heldRefs_add]
      refine ⟨?_, rfl⟩
      simp [heldRefs, List.countP_singleton]

lemma held_of_empty (h : v.used = 0) (p : TxSkb → Bool) : v.held p = 0 := by
  rw [Vring.held, h]
  rfl

/-- A freed ring has nothing posted, and the references are dropped. -/
lemma Vring.Sound.free (h : v.Sound) (cb : ℕ → WilSkbCb) :
    RingKeeps v (wilVringFree cb v).1 (wilVringFree cb v).2 := by
  obtain ⟨hevents, hsize, hhead, htail⟩ := wilVringFree_spec cb h
  have hused : (wilVringFree cb v).1.used = 0 := by
    rw [Vring.used, hsize, hhead, htail, Nat.add_sub_cancel, Nat.mod_self]
  refine ⟨⟨fun hva => absurd hva Bool.false_ne_true, fun _ => hused⟩, fun p => ?_⟩
  obtain ⟨hdropped, htaken⟩ := dropped_released v cb p v.swtail v.used
  rw [hevents, Nat.add_sub_cancel_left, hdropped, htaken, held_of_empty hused]
  rw [Vring.held, Nat.zero_add, Nat.add_zero]

/-- A mark changes no buffer. -/
lemma Vring.Sound.writeBack (h : v.Sound) (hva : v.va = true) {k : ℕ} (hk : v.swtail ≤ k)
    (hk' : k < v.swtail + v.used) (error : ℕ) :
    RingKeeps v (v.writeBack (k % v.size) error) [] := by
  have hsound : (v.writeBack (k % v.size) error).Sound := RingAt.writeBack h hk hk' error
  exact ⟨hsound.ok hva, fun p => rfl⟩

/-- A new ring is empty. -/
lemma RingOk.alloc (h : RingOk v) (hva : v.va = false) {size : ℕ} (hsize : 0 < size)
    (allocOk : Bool) :
    RingKeeps v (wilVringAlloc allocOk { v with size := size }).1 [] := by
  have hused : (wilVringAlloc allocOk { v with size := size }).1.used = 0 := by
    cases allocOk
    all_goals
      show (size + 0 - 0) % size = 0
      simp
  refine ⟨⟨fun hnew => ?_, fun _ => hused⟩, fun p => ?_⟩
  · cases allocOk with
    | false => exact absurd hnew Bool.false_ne_true
    | true =>
        rw [Vring.Sound, hused]
        refine ⟨(Nat.zero_mod size).symm, (Nat.zero_mod size).symm, le_rfl, le_rfl,
          hsize.trans_le ?_, fun k hk hk' => by omega, fun k hk hk' => by omega⟩
        exact Nat.le_add_left _ _
  · rw [held_of_empty hused, held_of_empty (h.empty hva)]
    rfl

end Ring

/-! ## All rings -/

/-- Of a trace, what concerns the rings. -/
def txEvents (es : List XmitEvent) : List TxEvent :=
  es.filterMap fun
    | .tx e => some e
    | _ => none

/-- The addresses of the copies a trace makes. -/
def copyIds (es : List XmitEvent) : List ℕ :=
  es.filterMap fun
    | .skbCopy _ copy => some copy.id
    | _ => none

/-- A buffer at address `b`. -/
def atAddr (b : ℕ) (skb : TxSkb) : Bool := skb.id = b

@[simp] lemma txEvents_append (es fs : List XmitEvent) :
    txEvents (es ++ fs) = txEvents es ++ txEvents fs :=
  List.filterMap_append

@[simp] lemma copyIds_append (es fs : List XmitEvent) :
    copyIds (es ++ fs) = copyIds es ++ copyIds fs :=
  List.filterMap_append

@[simp] lemma txEvents_map_tx (ts : List TxEvent) : txEvents (ts.map .tx) = ts := by
  induction ts with
  | nil => rfl
  | cons e ts ih => exact congrArg (e :: ·) ih

@[simp] lemma copyIds_map_tx (ts : List TxEvent) : copyIds (ts.map .tx) = [] := by
  induction ts with
  | nil => rfl
  | cons e ts ih => exact ih

/-- All rings are as they should be. -/
def RingsOk (w : Wil) : Prop := ∀ i, RingOk (w.vringTx i)

/-- The posted descriptors, of all rings, with the buffer at address `b`. -/
def Wil.held (w : Wil) (b : ℕ) : ℕ := ∑ i, (w.vringTx i).held (atAddr b)

/-- From `w` to `u`, what the posted descriptors hold changes by what is taken and dropped. -/
structure WilKeeps (w u : Wil) (es : List XmitEvent) : Prop where
  ok : RingsOk u
  refs : ∀ b, u.held b + dropped (atAddr b) (txEvents es)
    = w.held b + taken (atAddr b) (txEvents es)

variable {w u v : Wil} {es fs : List XmitEvent} {l : List RingId}

lemma WilKeeps.refl (h : RingsOk w) {es : List XmitEvent} (hes : txEvents es = []) :
    WilKeeps w w es := by
  refine ⟨h, fun b => ?_⟩
  rw [hes]
  rfl

lemma WilKeeps.append (h : WilKeeps w u es) (h' : WilKeeps u v fs) : WilKeeps w v (es ++ fs) := by
  refine ⟨h'.ok, fun b => ?_⟩
  have hrefs := h.refs b
  have hrefs' := h'.refs b
  rw [txEvents_append, taken_append, dropped_append]
  omega

/-- The rings of `u` are those of `w`, up to ring `i`. -/
lemma held_eq {i : RingId} (hframe : ∀ j, j ≠ i → u.vringTx j = w.vringTx j) (b : ℕ) :
    u.held b + (w.vringTx i).held (atAddr b) = w.held b + (u.vringTx i).held (atAddr b) := by
  have hu := Finset.add_sum_erase Finset.univ (fun j => (u.vringTx j).held (atAddr b))
    (Finset.mem_univ i)
  have hw := Finset.add_sum_erase Finset.univ (fun j => (w.vringTx j).held (atAddr b))
    (Finset.mem_univ i)
  have hrest : ∑ j ∈ Finset.univ.erase i, (u.vringTx j).held (atAddr b)
      = ∑ j ∈ Finset.univ.erase i, (w.vringTx j).held (atAddr b) := by
    refine Finset.sum_congr rfl fun j hj => ?_
    rw [hframe j (Finset.ne_of_mem_erase hj)]
  rw [Wil.held, Wil.held, ← hu, ← hw, hrest]
  omega

/-- What keeps the account of ring `i` and leaves the others. -/
lemma WilKeeps.ring (h : RingsOk w) {i : RingId} {ts : List TxEvent}
    (hframe : ∀ j, j ≠ i → u.vringTx j = w.vringTx j)
    (hring : RingKeeps (w.vringTx i) (u.vringTx i) ts) :
    WilKeeps w u (ts.map .tx) := by
  refine ⟨fun j => ?_, fun b => ?_⟩
  · by_cases hji : j = i
    · exact hji ▸ hring.ok
    · rw [hframe j hji]
      exact h j
  · have hheld := held_eq hframe b
    have hrefs := hring.refs (atAddr b)
    rw [txEvents_map_tx]
    omega

/-! ## One call of `wil_start_xmit` -/

/-- The ring for the packet. -/
def xmitRing (w : Wil) (q : XmitRequest) : Option RingId :=
  if isUnicastEtherAddr q.skb.hDest then wilFindTxVring w q.skb.hDest else wilFindFirstTxVring w

/-- What `wil_tx_vring_tso` is asked for, if the packet is for ring `i`. -/
def tsoRequest (q : XmitRequest) (i : RingId) : TsoRequest :=
  ⟨q.skb.toTxSkb, q.skb.gsoSize, i, q.dma⟩

/-- A TSO packet does not overrun its ring. -/
def XmitFits (w : Wil) (q : XmitRequest) : Prop :=
  ∀ i, xmitRing w q = some i → q.skb.gsoSize ≠ 0 → ¬ (tsoRequest q i).Overruns (w.vringTx i)

/-- The addresses of the copies `wil_tx_bcast` makes: one for each allocated ring behind the first,
where `skb_copy` succeeds. -/
def xmitCopies (w : Wil) (q : XmitRequest) : List ℕ :=
  if GoesToBcast w q then
    match wilFindFirstTxVring w with
    | none => []
    | some i => (ringsBehind i).filterMap fun j =>
        if (w.vringTx j).va then q.skbCopy j else none
  else []

/-- `wil_tx_bcast` makes a copy. -/
def MakesCopies (w : Wil) (q : XmitRequest) : Prop :=
  GoesToBcast w q ∧ ∃ i, wilFindFirstTxVring w = some i ∧
    ∃ j ∈ ringsBehind i, (w.vringTx j).va = true ∧ (q.skbCopy j).isSome = true

instance (w : Wil) (q : XmitRequest) : Decidable (XmitFits w q) :=
  inferInstanceAs (Decidable (∀ _, _))

lemma xmitCopies_eq_nil (w : Wil) (q : XmitRequest) : xmitCopies w q = [] ↔ ¬ MakesCopies w q := by
  rw [xmitCopies]
  split_ifs with hbcast
  · cases hfirst : wilFindFirstTxVring w with
    | none => simp [MakesCopies, hfirst]
    | some i => simp [MakesCopies, hfirst, hbcast, List.filterMap_eq_nil_iff]
  · exact iff_of_true rfl fun h => hbcast h.1

variable {q : XmitRequest} {i : RingId} {skb : XmitSkb}

lemma frame_setTx (w : Wil) (i : RingId) (t : TxState) :
    ∀ j, j ≠ i → (w.setTx i t).vringTx j = w.vringTx j := by
  intro j hj
  simp [Wil.setTx, hj]

lemma vringTx_setTx (w : Wil) (i : RingId) (t : TxState) :
    (w.setTx i t).vringTx i = t.vring := by
  simp [Wil.setTx]

/-- `wil_tx_vring` on an allocated ring. -/
lemma keeps_txVring (h : RingsOk w) (hva : (w.vringTx i).va = true) (skb : XmitSkb) (hwCsum : Bool)
    (dma : DmaMapping) :
    WilKeeps w (w.txVring i skb hwCsum dma).1 (w.txVring i skb hwCsum dma).2.1 := by
  have hsound := (h i).sound hva
  simp only [Wil.txVring]
  generalize TxRequest.mk skb.toTxSkb i hwCsum _ = request
  obtain ⟨n, hn⟩ := txPosting (w.txState i) request hsound.head_lt
  refine WilKeeps.ring h (frame_setTx w i _) ?_
  rw [vringTx_setTx]
  exact hsound.post hn.ring (hn.va.trans hva)

/-- `wil_tx_vring_tso` on an allocated ring. -/
lemma keeps_txVringTso (h : RingsOk w) (hva : (w.vringTx i).va = true) (skb : XmitSkb)
    (dma : DmaMapping)
    (hfits : ¬ TsoRequest.Overruns ⟨skb.toTxSkb, skb.gsoSize, i, dma⟩ (w.vringTx i)) :
    WilKeeps w (w.txVringTso i skb dma).1 (w.txVringTso i skb dma).2.1 := by
  have hsound := (h i).sound hva
  obtain ⟨n, hn⟩ := tsoPosting (w.txState i) ⟨skb.toTxSkb, skb.gsoSize, i, dma⟩ hsound.head_lt
    hfits
  simp only [Wil.txVringTso]
  refine WilKeeps.ring h (frame_setTx w i _) ?_
  rw [vringTx_setTx]
  exact hsound.post hn.ring (hn.ring.va.trans hva)

/-- A pass of the loop of `wil_tx_bcast`. -/
lemma keeps_txBcastCopy (h : RingsOk w) (q : XmitRequest) (skb : XmitSkb) (i : RingId) :
    WilKeeps w (txBcastCopy q skb w i).1 (txBcastCopy q skb w i).2 ∧
      copyIds (txBcastCopy q skb w i).2
        = (if (w.vringTx i).va then q.skbCopy i else none).toList := by
  rw [txBcastCopy]
  by_cases hva : (w.vringTx i).va = true
  · rw [if_pos hva, if_pos hva]
    cases hcopy : q.skbCopy i with
    | none => exact ⟨WilKeeps.refl h rfl, rfl⟩
    | some id =>
        dsimp only
        have hid : (if bcastToUcast w then wilSetDaForVring w (skb.copyAt id) i
            else skb.copyAt id).id = id := by
          split_ifs
          · rw [wilSetDaForVring]
            split_ifs <;> rfl
          · rfl
        generalize (if bcastToUcast w then wilSetDaForVring w (skb.copyAt id) i
          else skb.copyAt id) = skb2 at hid
        have hkeeps := keeps_txVring h hva skb2 q.hwCsum (q.copyDma i)
        have hids : copyIds (w.txVring i skb2 q.hwCsum (q.copyDma i)).2.1 = [] :=
          copyIds_map_tx _
        refine ⟨⟨hkeeps.ok, hkeeps.refs⟩, ?_⟩
        show skb2.id :: copyIds (w.txVring i skb2 q.hwCsum (q.copyDma i)).2.1 = _
        rw [hids, hid]
        rfl
  · rw [if_neg hva, if_neg hva]
    exact ⟨WilKeeps.refl h rfl, rfl⟩

/-- **The loop of `wil_tx_bcast`.** -/
lemma keeps_run (q : XmitRequest) (skb : XmitSkb) (hnodup : l.Nodup) :
    ∀ w, RingsOk w → WilKeeps w (Machine.run (txBcastCopy q skb) w l).1
        (Machine.run (txBcastCopy q skb) w l).2 ∧
      copyIds (Machine.run (txBcastCopy q skb) w l).2
        = l.filterMap fun j => if (w.vringTx j).va then q.skbCopy j else none := by
  induction l with
  | nil => exact fun w h => ⟨WilKeeps.refl h rfl, rfl⟩
  | cons i l ih =>
      intro w h
      obtain ⟨hi, hl⟩ := List.nodup_cons.mp hnodup
      obtain ⟨hkeeps, hids⟩ := keeps_txBcastCopy h q skb i
      obtain ⟨hrest, hrestIds⟩ := ih hl _ hkeeps.ok
      rw [Machine.run_cons]
      refine ⟨hkeeps.append hrest, ?_⟩
      have hsame : l.filterMap (fun j =>
            if ((txBcastCopy q skb w i).1.vringTx j).va then q.skbCopy j else none)
          = l.filterMap fun j => if (w.vringTx j).va then q.skbCopy j else none := by
        refine List.filterMap_congr fun j hj => ?_
        have hji : j ∉ [i] := fun hmem => hi (List.mem_singleton.mp hmem ▸ hj)
        rw [(posting_txBcastCopy q skb w i).frame j hji]
      dsimp only
      rw [copyIds_append, hids, hrestIds, hsame, List.filterMap_cons]
      cases (if (w.vringTx i).va then q.skbCopy i else none) with
      | none => rfl
      | some id => rfl

/-- What a call did with packet `skb`: the rings are as they should be, the copies are `ids`, and of
the references the one that came with the packet is dropped, unless the stack keeps it. -/
structure XmitKeeps (w : Wil) (skb : TxSkb) (r : Xmitted) (ids : List ℕ) : Prop where
  ok : RingsOk r.wil
  refs : ∀ b, r.wil.held b + dropped (atAddr b) (txEvents r.events)
    = w.held b + taken (atAddr b) (txEvents r.events)
      + if r.ret ≠ .netdevTxBusy ∧ skb.id = b then 1 else 0
  copies : copyIds r.events = ids

/-- At the end the reference that came with the packet is dropped. -/
lemma WilKeeps.finish (h : WilKeeps w u es) (skb : XmitSkb) {ret : NetdevTx}
    (hret : ret ≠ .netdevTxBusy) (htx : txEvents fs = [.kfreeSkb skb.toTxSkb])
    (hids : copyIds fs = []) :
    XmitKeeps w skb.toTxSkb ⟨ret, u, skb, es ++ fs⟩ (copyIds es) := by
  refine ⟨h.ok, fun b => ?_, ?_⟩
  · have hrefs := h.refs b
    simp only [txEvents_append, dropped_append, taken_append, htx, dropped_cons, taken_cons,
      dropped_nil, taken_nil, drops_kfreeSkb, takes_kfreeSkb, atAddr, decide_eq_true_eq,
      Bool.false_eq_true, if_false, hret, ne_eq, not_false_eq_true, true_and] at hrefs ⊢
    omega
  · simp [hids]

/-- The label `drop`. -/
lemma keeps_xmitDrop (h : WilKeeps w u es) (skb : XmitSkb) :
    XmitKeeps w skb.toTxSkb (xmitDrop u skb es) (copyIds es) :=
  h.finish skb (by simp) rfl rfl

/-- The `switch` over the return code. -/
lemma keeps_xmitReturn (h : WilKeeps w u es) (skb : XmitSkb) (rc : ℤ) :
    XmitKeeps w skb.toTxSkb (xmitReturn u skb es rc) (copyIds es) := by
  rw [xmitReturn]
  split_ifs
  · exact h.finish skb (by simp) rfl rfl
  · refine ⟨h.ok, fun b => ?_, rfl⟩
    simpa using h.refs b
  · have hstop : WilKeeps u u [.stopAllQueues] := WilKeeps.refl h.ok rfl
    have hdrop := keeps_xmitDrop (h.append hstop) skb
    rwa [copyIds_append, show copyIds [.stopAllQueues] = [] from rfl, List.append_nil] at hdrop

/-- The ring for the packet. -/
lemma keeps_xmitOn (h : WilKeeps w u es) (hva : (u.vringTx i).va = true) (q : XmitRequest)
    (skb : XmitSkb) (hfits : skb.gsoSize ≠ 0 →
      ¬ TsoRequest.Overruns ⟨skb.toTxSkb, skb.gsoSize, i, q.dma⟩ (u.vringTx i)) :
    XmitKeeps w skb.toTxSkb (xmitOn u q i skb es) (copyIds es) := by
  simp only [xmitOn]
  split_ifs with hgso
  · have hreturn := keeps_xmitReturn (h.append (keeps_txVringTso h.ok hva skb q.dma (hfits hgso)))
      skb (u.txVringTso i skb q.dma).2.2
    have hids : copyIds (u.txVringTso i skb q.dma).2.1 = [] := copyIds_map_tx _
    rwa [copyIds_append, hids, List.append_nil] at hreturn
  · have hreturn := keeps_xmitReturn (h.append (keeps_txVring h.ok hva skb q.hwCsum q.dma))
      skb (u.txVring i skb q.hwCsum q.dma).2.2
    have hids : copyIds (u.txVring i skb q.hwCsum q.dma).2.1 = [] := copyIds_map_tx _
    rwa [copyIds_append, hids, List.append_nil] at hreturn

/-- **One call of `wil_start_xmit`.** -/
theorem keeps_wilStartXmit (h : RingsOk w) (q : XmitRequest) (hfits : XmitFits w q) :
    XmitKeeps w q.skb.toTxSkb (wilStartXmit w q) (xmitCopies w q) := by
  have hrefl : WilKeeps w w [] := WilKeeps.refl h rfl
  by_cases hbcast : GoesToBcast w q
  · rw [wilStartXmit_bcast hbcast, xmitCopies, if_pos hbcast]
    cases hfirst : wilFindFirstTxVring w with
    | none =>
        have hstop : WilKeeps w w [.stopAllQueues] := WilKeeps.refl h rfl
        exact keeps_xmitDrop hstop q.skb
    | some i =>
        obtain ⟨mac, hskb, -⟩ := bcastSkb_eq w q i
        have hnodup : (ringsBehind i).Nodup := (List.nodup_finRange 24).filter _
        have hi : i ∉ ringsBehind i := by simp [ringsBehind]
        obtain ⟨hkeeps, hids⟩ := keeps_run q (bcastSkb w q i) hnodup w h
        have hsame := (posting_run q (bcastSkb w q i) hnodup w).frame i hi
        have hring : xmitRing w q = some i := by
          rw [xmitRing, hbcast.2.2.2.2, if_neg Bool.false_ne_true, hfirst]
        have hxmit := keeps_xmitOn (i := i) hkeeps
          (by rw [hsame]; exact va_of_wilFindFirstTxVring hfirst) q (bcastSkb w q i) (by
            rw [hsame, hskb]
            exact hfits i hring)
        rw [hids] at hxmit
        have htx : (bcastSkb w q i).toTxSkb = q.skb.toTxSkb := by rw [hskb]
        rwa [htx] at hxmit
  · rw [xmitCopies, if_neg hbcast]
    obtain ⟨hgoes, -⟩ | ⟨-, hcall | hcall | ⟨i, hunicast, hfind, hcall⟩⟩ := wilStartXmit_cases w q
    · exact absurd hgoes hbcast
    · rw [hcall]
      exact keeps_xmitDrop hrefl q.skb
    · have hevents : txEvents (wmiTxEapol w q).2 = [] ∧ copyIds (wmiTxEapol w q).2 = [] := by
        rcases wmiTxEapol_events w q with hes | hes <;> rw [hes] <;> exact ⟨rfl, rfl⟩
      have hreturn := keeps_xmitReturn (WilKeeps.refl h hevents.1) q.skb (wmiTxEapol w q).1
      rw [hcall]
      rwa [hevents.2] at hreturn
    · have hring : xmitRing w q = some i := by
        rw [xmitRing, if_pos hunicast, hfind]
      rw [hcall]
      exact keeps_xmitOn hrefl (va_of_wilFindTxVring hfind) q q.skb (hfits i hring)

/-! ## The machine -/

/-- The driver, and how many references to the buffer at each address it has to drop. -/
structure RefSys where
  wil : Wil
  refs : ℕ → ℤ

inductive RefAction
  /-- Any other change of the driver. -/
  | config (w : Wil)
  /-- `wil_vring_init_tx`, for a ring of `size` descriptors. -/
  | alloc (i : RingId) (size : ℕ) (allocOk : Bool)
  /-- `wil_vring_fini_tx` -/
  | free (i : RingId)
  | xmit (q : XmitRequest)
  /-- The hardware marks the descriptor at position `k` of ring `i`. -/
  | hwDone (i : RingId) (k error : ℕ)
  /-- `wil_tx_complete` -/
  | complete (i : RingId)

namespace RefSys

variable {s t : RefSys}

/-- Ring `i` is replaced. -/
def setRing (s : RefSys) (i : RingId) (v : Vring) : Wil :=
  { s.wil with vringTx := Function.update s.wil.vringTx i v }

/-- The references taken and dropped are counted; a copy comes with one. -/
def settle (s : RefSys) (w : Wil) (es : List XmitEvent) : RefSys where
  wil := w
  refs := fun b => s.refs b + (copyIds es).count b + taken (atAddr b) (txEvents es)
    - dropped (atAddr b) (txEvents es)

/-- The reference that comes with a packet, unless the stack keeps the packet. -/
def receive (s : RefSys) (skb : TxSkb) (ret : NetdevTx) : RefSys :=
  { s with refs := fun b => s.refs b + if ret ≠ .netdevTxBusy ∧ skb.id = b then 1 else 0 }

/-- One step. -/
def step (s : RefSys) : RefAction → Option RefSys
  | .config w => some { s with wil := { w with vringTx := s.wil.vringTx, cb := s.wil.cb } }
  | .alloc i size allocOk =>
      if (s.wil.vringTx i).va = false ∧ 0 < size then
        let v := wilVringAlloc allocOk { s.wil.vringTx i with size := size }
        some (s.settle (s.setRing i v.1) [])
      else none
  | .free i =>
      if (s.wil.vringTx i).va then
        let r := wilVringFree s.wil.cb (s.wil.vringTx i)
        some (s.settle (s.setRing i r.1) (r.2.map .tx))
      else none
  | .xmit q =>
      let r := wilStartXmit s.wil q
      some ((s.receive q.skb.toTxSkb r.ret).settle r.wil r.events)
  | .hwDone i k error =>
      let v := s.wil.vringTx i
      if v.va ∧ v.swtail ≤ k ∧ k < v.swtail + v.used then
        some (s.settle (s.setRing i (v.writeBack (k % v.size) error)) [])
      else none
  | .complete i =>
      let r := wilTxComplete (s.wil.txState i)
      some (s.settle (s.wil.setTx i r.1) (r.2.1.map .tx))

/-- The driver as `wil_priv_init` leaves it. -/
def init (iftype : Iftype) (devAddr : Option MacAddr) : RefSys :=
  ⟨wilPrivInit iftype devAddr, fun _ => 0⟩

/-- No step overruns a ring with a TSO packet. -/
def Fits (s : RefSys) : RefAction → Prop
  | .xmit q => XmitFits s.wil q
  | _ => True

instance (s : RefSys) (a : RefAction) : Decidable (s.Fits a) := by
  cases a <;> unfold Fits <;> infer_instance

/-- The addresses of the copies a step makes. -/
def copies (s : RefSys) : RefAction → List ℕ
  | .xmit q => xmitCopies s.wil q
  | _ => []

/-- The references that no posted descriptor stands for. -/
def lost (s : RefSys) (b : ℕ) : ℤ := s.refs b - s.wil.held b

/-- The account of the rings, and what is lost. -/
lemma lost_settle {w : Wil} {es : List XmitEvent} (h : WilKeeps s.wil w es) (b : ℕ) :
    (s.settle w es).lost b = s.lost b + (copyIds es).count b := by
  have hrefs := h.refs b
  simp only [lost, settle]
  omega

/-- A step on one ring. -/
lemma settle_ring {w : Wil} {i : RingId} {ts : List TxEvent} (h : RingsOk s.wil)
    (hframe : ∀ j, j ≠ i → w.vringTx j = s.wil.vringTx j)
    (hring : RingKeeps (s.wil.vringTx i) (w.vringTx i) ts) :
    RingsOk (s.settle w (ts.map .tx)).wil ∧
      ∀ b, (s.settle w (ts.map .tx)).lost b = s.lost b := by
  have hkeeps := WilKeeps.ring h hframe hring
  refine ⟨hkeeps.ok, fun b => ?_⟩
  rw [lost_settle hkeeps, copyIds_map_tx]
  simp

lemma settle_setRing {v : Vring} {i : RingId} {ts : List TxEvent} (h : RingsOk s.wil)
    (hring : RingKeeps (s.wil.vringTx i) v ts) :
    RingsOk (s.settle (s.setRing i v) (ts.map .tx)).wil ∧
      ∀ b, (s.settle (s.setRing i v) (ts.map .tx)).lost b = s.lost b := by
  have hframe : ∀ j, j ≠ i → (s.setRing i v).vringTx j = s.wil.vringTx j := by
    intro j hj
    simp [setRing, hj]
  refine settle_ring h hframe ?_
  simpa [setRing] using hring

/-- A step that makes no copies loses no reference. -/
lemma lost_of_none {a : RefAction} (hcopies : s.copies a = [])
    (h : RingsOk t.wil ∧ ∀ b, t.lost b = s.lost b) :
    RingsOk t.wil ∧ ∀ b, t.lost b = s.lost b + (s.copies a).count b := by
  refine ⟨h.1, fun b => ?_⟩
  rw [hcopies, h.2 b, List.count_nil, Nat.cast_zero, add_zero]

/-- **One step** loses the references that come with the copies it makes. -/
lemma step_lost {a : RefAction} (hfits : s.Fits a) (ht : s.step a = some t) (h : RingsOk s.wil) :
    RingsOk t.wil ∧ ∀ b, t.lost b = s.lost b + (s.copies a).count b := by
  cases a with
  | config w =>
      obtain rfl := Option.some.inj ht
      exact lost_of_none rfl ⟨h, fun b => rfl⟩
  | alloc i size allocOk =>
      simp only [step, Option.ite_none_right_eq_some, Option.some.injEq] at ht
      obtain ⟨⟨hva, hsize⟩, rfl⟩ := ht
      have hring := settle_setRing h ((h i).alloc hva hsize allocOk)
      rw [List.map_nil] at hring
      exact lost_of_none rfl hring
  | free i =>
      simp only [step, Option.ite_none_right_eq_some, Option.some.injEq] at ht
      obtain ⟨hva, rfl⟩ := ht
      exact lost_of_none rfl (settle_setRing h (((h i).sound hva).free s.wil.cb))
  | xmit q =>
      obtain rfl := Option.some.inj ht
      have hx := keeps_wilStartXmit h q hfits
      refine ⟨hx.ok, fun b => ?_⟩
      have hrefs := hx.refs b
      show s.refs b + (if (wilStartXmit s.wil q).ret ≠ .netdevTxBusy ∧ q.skb.toTxSkb.id = b then 1
          else 0) + ((copyIds (wilStartXmit s.wil q).events).count b : ℤ)
          + taken (atAddr b) (txEvents (wilStartXmit s.wil q).events)
          - dropped (atAddr b) (txEvents (wilStartXmit s.wil q).events)
          - (wilStartXmit s.wil q).wil.held b
        = s.refs b - s.wil.held b + (xmitCopies s.wil q).count b
      rw [hx.copies]
      split_ifs at hrefs ⊢ <;> omega
  | hwDone i k error =>
      simp only [step, Option.ite_none_right_eq_some, Option.some.injEq] at ht
      obtain ⟨⟨hva, hk, hk'⟩, rfl⟩ := ht
      have hring := settle_setRing h (((h i).sound hva).writeBack hva hk hk' error)
      rw [List.map_nil] at hring
      exact lost_of_none rfl hring
  | complete i =>
      obtain rfl := Option.some.inj ht
      have hring : RingKeeps (s.wil.vringTx i) (wilTxComplete (s.wil.txState i)).1.vring
          (wilTxComplete (s.wil.txState i)).2.1 := by
        by_cases hva : (s.wil.vringTx i).va = true
        · have hsound : (s.wil.txState i).vring.Sound := (h i).sound hva
          exact hsound.complete hva
        · have hnothing : wilTxComplete (s.wil.txState i) = (s.wil.txState i, [], 0) := by
            simp [wilTxComplete, Wil.txState, hva]
          rw [hnothing]
          exact ⟨h i, fun p => rfl⟩
      rw [← vringTx_setTx s.wil i] at hring
      exact lost_of_none rfl (settle_ring h (frame_setTx s.wil i _) hring)

/-- At first no ring is allocated. -/
lemma ringsOk_init (iftype : Iftype) (devAddr : Option MacAddr) :
    RingsOk (init iftype devAddr).wil :=
  fun _ => ⟨fun hva => absurd hva Bool.false_ne_true, fun _ => rfl⟩

/-- Every reachable state. -/
lemma reachable (iftype : Iftype) (devAddr : Option MacAddr) {as : List RefAction}
    (h : Machine.Exec step Fits (init iftype devAddr) as s) :
    RingsOk s.wil ∧ ∀ b, 0 ≤ s.lost b := by
  refine h.invariant (I := fun s => RingsOk s.wil ∧ ∀ b, 0 ≤ s.lost b) ?_
    ⟨ringsOk_init iftype devAddr, fun b => ?_⟩
  · rintro s a t hfits ht ⟨hok, hlost⟩
    obtain ⟨hok', hlost'⟩ := step_lost hfits ht hok
    refine ⟨hok', fun b => ?_⟩
    rw [hlost' b]
    exact add_nonneg (hlost b) (Int.natCast_nonneg _)
  · simp [lost, init, Wil.held, wilPrivInit, held_of_empty, Vring.used]

/-- Where the packet of a call is, and the copies the call makes. -/
def buffers (s : RefSys) (q : XmitRequest) : List ℕ :=
  q.skb.id :: copyIds (wilStartXmit s.wil q).events

/-- A step overruns no ring, and makes no copy at the addresses of `bs`. -/
def Spares (bs : List ℕ) (s : RefSys) (a : RefAction) : Prop :=
  s.Fits a ∧ ∀ b ∈ bs, b ∉ s.copies a

instance (bs : List ℕ) (s : RefSys) (a : RefAction) : Decidable (Spares bs s a) :=
  inferInstanceAs (Decidable (_ ∧ _))

/-- Steps that make no copy at these addresses lose no reference there. -/
lemma lost_run {bs : List ℕ} {as : List RefAction} (hok : RingsOk s.wil)
    (h : Machine.Exec step (Spares bs) s as t) : ∀ b ∈ bs, t.lost b = s.lost b := by
  refine (h.invariant (I := fun t => RingsOk t.wil ∧ ∀ b ∈ bs, t.lost b = s.lost b) ?_
    ⟨hok, fun _ _ => rfl⟩).2
  rintro t a u ⟨hfits, hspares⟩ hu ⟨hok, hlost⟩
  obtain ⟨hok', hlost'⟩ := step_lost hfits hu hok
  refine ⟨hok', fun b hb => ?_⟩
  rw [hlost' b, hlost b hb, List.count_eq_zero.mpr (hspares b hb), Nat.cast_zero, add_zero]

end RefSys

open RefSys

/-- **The references to a packet and to its copies.**  A packet is passed to `wil_start_xmit`, at an
address that was free, as those of the copies were.  Once no posted descriptor holds the packet or a
copy of it, there is no reference left if and only if no copy was made. -/
theorem xmit_refs_iff {iftype : Iftype} {devAddr : Option MacAddr} {s u t : RefSys}
    {as bs : List RefAction} {q : XmitRequest}
    (hs : Machine.Exec RefSys.step Fits (RefSys.init iftype devAddr) as s)
    (hfree : ∀ b ∈ s.buffers q, s.refs b = 0)
    (hfits : XmitFits s.wil q) (hu : s.step (.xmit q) = some u)
    (ht : Machine.Exec RefSys.step (Spares (s.buffers q)) u bs t)
    (hreleased : ∀ b ∈ s.buffers q, t.wil.held b = 0) :
    (∀ b ∈ s.buffers q, t.refs b = 0) ↔ ¬ MakesCopies s.wil q := by
  obtain ⟨hok, hlost⟩ := reachable iftype devAddr hs
  obtain ⟨hok', hlost'⟩ := step_lost (a := .xmit q) hfits hu hok
  have hcopies : copyIds (wilStartXmit s.wil q).events = xmitCopies s.wil q :=
    (keeps_wilStartXmit hok q hfits).copies
  have hleft : ∀ b ∈ s.buffers q, t.refs b = (xmitCopies s.wil q).count b := by
    intro b hb
    have hnone : s.lost b = 0 := by
      have hpos := hlost b
      rw [lost, hfree b hb] at hpos ⊢
      omega
    have hend := lost_run hok' ht b hb
    rw [hlost' b, hnone, zero_add, lost, hreleased b hb, Nat.cast_zero, sub_zero] at hend
    exact hend
  rw [← xmitCopies_eq_nil]
  constructor
  · intro hzero
    refine List.eq_nil_iff_forall_not_mem.mpr fun b hb => ?_
    have hmem : b ∈ s.buffers q := List.mem_cons_of_mem _ (hcopies ▸ hb)
    have hcount := (hleft b hmem).symm.trans (hzero b hmem)
    exact List.count_eq_zero.mp (Int.natCast_eq_zero.mp hcount) hb
  · intro hnil b hb
    rw [hleft b hb, hnil]
    rfl

/-- A broadcast packet at address `7`, of which copies can be made. -/
private def groupPacket : XmitRequest := bcastRequest true

/-- An access point allocates these rings. -/
private def allocRings (rings : List RingId) : List RefAction :=
  .config { wilPrivInit .ap none with fwConnected := true } ::
    rings.map fun i => .alloc i 4 true

/-- The packet is sent on these rings, and they are freed. -/
private def sendFree (rings : List RingId) : Option (RefSys × RefSys × RefSys) :=
  (Machine.exec RefSys.step Fits (RefSys.init .ap none) (allocRings rings)).bind fun s =>
    (s.step (.xmit groupPacket)).bind fun u =>
      (Machine.exec RefSys.step (Spares (s.buffers groupPacket)) u (rings.map .free)).map
        fun t => (s, u, t)

private lemma sendFree_run {rings : List RingId} {s u t : RefSys}
    (h : sendFree rings = some (s, u, t)) :
    Machine.Exec RefSys.step Fits (RefSys.init .ap none) (allocRings rings) s ∧
      s.step (.xmit groupPacket) = some u ∧
      Machine.Exec RefSys.step (Spares (s.buffers groupPacket)) u (rings.map .free) t := by
  obtain ⟨s', hs, hrest⟩ := Option.bind_eq_some_iff.mp h
  obtain ⟨u', hu, hrest⟩ := Option.bind_eq_some_iff.mp hrest
  obtain ⟨t', ht, hall⟩ := Option.map_eq_some_iff.mp hrest
  simp only [Prod.mk.injEq] at hall
  obtain ⟨rfl, rfl, rfl⟩ := hall
  exact ⟨.of_exec hs, hu, .of_exec ht⟩

/-- A packet that is sent on one ring, which is freed. -/
theorem xmit_refs_oneRing :
    ∃ s u t, sendFree [0] = some (s, u, t) ∧ u.refs 7 = 1 ∧ t.refs 7 = 0 := by
  have hrun : (sendFree [0]).map (fun r => (r.1.buffers groupPacket, r.1.refs 7, r.2.1.refs 7,
      r.2.2.wil.held 7, decide (XmitFits r.1.wil groupPacket),
      decide ((xmitCopies r.1.wil groupPacket) = []))) = some ([7], 0, 1, 0, true, true) := by
    decide +kernel
  obtain ⟨⟨s, u, t⟩, hr, hend⟩ := Option.map_eq_some_iff.mp hrun
  simp only [Prod.mk.injEq, decide_eq_true_eq] at hend
  obtain ⟨hbuffers, hfree, hposted, hheld, hfits, hcopies⟩ := hend
  obtain ⟨hs, hu, ht⟩ := sendFree_run hr
  refine ⟨s, u, t, hr, hposted, ?_⟩
  refine (xmit_refs_iff hs ?_ hfits hu ht ?_).mpr ((xmitCopies_eq_nil _ _).mp hcopies) 7 ?_
  · rw [hbuffers]
    simpa using hfree
  · rw [hbuffers]
    simpa using hheld
  · rw [hbuffers]
    exact List.mem_singleton_self 7

/-- A packet that is sent on two rings, which are freed: the reference to the copy is left. -/
theorem not_xmit_refs :
    ¬ ∀ (iftype : Iftype) (devAddr : Option MacAddr) (s u t : RefSys) (as bs : List RefAction)
      (q : XmitRequest), Machine.Exec RefSys.step Fits (RefSys.init iftype devAddr) as s →
      (∀ b ∈ s.buffers q, s.refs b = 0) → XmitFits s.wil q → s.step (.xmit q) = some u →
      (wilStartXmit s.wil q).ret ≠ .netdevTxBusy →
      Machine.Exec RefSys.step (Spares (s.buffers q)) u bs t →
      (∀ b ∈ s.buffers q, t.wil.held b = 0) → ∀ b ∈ s.buffers q, t.refs b = 0 := by
  intro h
  have hrun : (sendFree [0, 1]).map (fun r => (r.1.buffers groupPacket,
      [r.1.refs 7, r.1.refs 9, r.2.2.refs 9], [r.2.2.wil.held 7, r.2.2.wil.held 9],
      decide (XmitFits r.1.wil groupPacket ∧
        (wilStartXmit r.1.wil groupPacket).ret ≠ .netdevTxBusy)))
      = some ([7, 9], [0, 0, 1], [0, 0], true) := by
    decide +kernel
  obtain ⟨⟨s, u, t⟩, hr, hend⟩ := Option.map_eq_some_iff.mp hrun
  simp only [Prod.mk.injEq, List.cons.injEq, and_true, decide_eq_true_eq] at hend
  obtain ⟨hbuffers, ⟨hfree, hfree', hleft⟩, ⟨hheld, hheld'⟩, hfits, hret⟩ := hend
  obtain ⟨hs, hu, ht⟩ := sendFree_run hr
  have hzero := h _ _ s u t _ _ groupPacket hs (by rw [hbuffers]; simp [hfree, hfree']) hfits hu
    hret ht (by rw [hbuffers]; simp [hheld, hheld']) 9 (by rw [hbuffers]; simp)
  rw [hleft] at hzero
  exact absurd hzero (by decide)

end Wil6210
