import Wil6210.Driver.Reported
import Wil6210.Driver.Xmit
import Wil6210.Tx.RingSafety

/-!
# Stopped queues

The Tx queues of the device are stopped for lack of space on a ring, by an error of `wil_start_xmit`
and by `wil_link_off`; `wil_tx_complete` and `wil_link_on` wake them.  `QueueSys` is the driver with
its queues: the steps of `ConnSys`, disconnects from outside of the event handlers, calls of
`wil_start_xmit` and of `wil_tx_complete`, and the hardware, which may mark any posted descriptor
at any time.  It also counts the descriptors of each ring that were posted and not released.

`queues_ok` says what is so in every state: queues that were stopped for lack of space are so while
some ring is near full, and a cleanup of a ring that the hardware is done with wakes them.  It says
nothing of queues that an error stopped, nor of those whose ring was freed: nobody wakes them.
-/

namespace Wil6210

/-! ## The machine -/

/-- Why the queues are stopped. -/
inductive StopCause
  /-- `wil_link_off` -/
  | linkOff
  /-- A ring had no space left. -/
  | lowSpace
  /-- The label `drop_err`, while the queues were running. -/
  | error
  /-- A ring had no space left, and a ring near full was freed since. -/
  | ringFreed
  deriving DecidableEq, Repr

/-- What sending, or cleaning up, does to the queues. -/
def queueStep (c : Option StopCause) : XmitEvent → Option StopCause
  | .tx .stopAllQueues => some .lowSpace
  | .tx .wakeAllQueues => none
  | .stopAllQueues => some (c.getD .error)
  | _ => c

/-- What `wil_link_on` and `wil_link_off` do to the queues and to the link. -/
def linkStep (p : Option StopCause × Bool) : DrvEvent → Option StopCause × Bool
  | .linkOn => (none, true)
  | .linkOff => (some .linkOff, false)
  | _ => p

/-- `wil->sta[cid].stats`, for the station of ring `i`. -/
def Wil.txStats (w : Wil) (i : RingId) : TxStats :=
  if h : w.owner i < 8 then
    let stats := (w.sta ⟨w.owner i, h⟩).stats
    ⟨stats.txPackets, stats.txBytes, stats.txErrors⟩
  else ⟨0, 0, 0⟩

/-- The statistics of the station of ring `i` are stored back. -/
def Wil.setTxStats (w : Wil) (i : RingId) (t : TxStats) : Wil :=
  { w with
    sta := fun c =>
      if c.val = w.owner i then
        { w.sta c with
          stats := { (w.sta c).stats with
            txPackets := t.txPackets, txBytes := t.txBytes, txErrors := t.txErrors } }
      else w.sta c }

structure QueueSys where
  conn : ConnSys
  ndevStats : TxStats
  /-- why the queues are stopped, `none` where they are not -/
  stopped : Option StopCause
  /-- `wil_link_on` was called since the last `wil_link_off` -/
  linkOn : Bool
  /-- how many descriptors of each ring were posted and not released -/
  owed : RingId → ℕ

inductive QueueAction
  /-- A step of an event handler or of the worker. -/
  | conn (a : ConnAction)
  /-- `wil6210_disconnect`, called by cfg80211 or by the connect timer. -/
  | disconnect (bssid : Option MacAddr)
  /-- `sme_state` and `tid_to_use` are set from outside. -/
  | config (smeState : SmeState) (tidToUse : ℕ)
  | xmit (q : XmitRequest)
  /-- The hardware marks the descriptor at position `k` of ring `i`. -/
  | hwDone (i : RingId) (k error : ℕ)
  /-- `wil_tx_complete` -/
  | complete (i : RingId)

namespace QueueSys

/-- `wil->vring_tx[i]` -/
def ring (s : QueueSys) (i : RingId) : Vring := s.conn.wil.vringTx i

/-- After a step of the connection: rings may have come and gone, and the link too. -/
def settle (s : QueueSys) (c : ConnSys) (es : List DrvEvent) : QueueSys :=
  let link := es.foldl linkStep (s.stopped, s.linkOn)
  let freed := ∃ i, (s.ring i).va = true ∧ (s.ring i).nearFull ≤ s.owed i ∧
    (c.wil.vringTx i).va = false
  { s with
    conn := c
    stopped := if link.1 = some .lowSpace ∧ freed then some .ringFreed else link.1
    linkOn := link.2
    owed := fun i => if (s.ring i).va then s.owed i else 0 }

/-- One step. -/
def step (s : QueueSys) : QueueAction → Option QueueSys
  | .conn (.traffic _) => none
  | .conn a => (s.conn.step a).map fun c => s.settle c (s.conn.events a)
  | .disconnect bssid =>
      let r := wil6210Disconnect s.conn.wil bssid
      some (s.settle { s.conn with wil := r.1 } r.2)
  | .config smeState tidToUse =>
      some { s with
        conn := { s.conn with
          wil := { s.conn.wil with smeState := smeState, tidToUse := tidToUse } } }
  | .xmit q =>
      let r := wilStartXmit s.conn.wil q
      some { s with
        conn := { s.conn with wil := r.wil }
        stopped := r.events.foldl queueStep s.stopped
        owed := fun i => s.owed i +
          Circular.dist (s.ring i).size (s.ring i).swhead (r.wil.vringTx i).swhead }
  | .hwDone i k error =>
      if (s.ring i).va ∧ (s.ring i).swtail ≤ k ∧ k < (s.ring i).swtail + (s.ring i).used then
        some { s with
          conn := { s.conn with
            wil := { s.conn.wil with
              vringTx := Function.update s.conn.wil.vringTx i
                ((s.ring i).writeBack (k % (s.ring i).size) error) } } }
      else none
  | .complete i =>
      let w := s.conn.wil
      let r := wilTxComplete ⟨s.ring i, w.cb, s.ndevStats, w.txStats i⟩
      let u := { w.setTxStats i r.1.staStats with
        vringTx := Function.update w.vringTx i r.1.vring, cb := r.1.cb }
      some { s with
        conn := { s.conn with wil := u }
        ndevStats := r.1.ndevStats
        stopped := (r.2.1.map .tx).foldl queueStep s.stopped
        owed := Function.update s.owed i
          (s.owed i - Circular.dist (s.ring i).size (s.ring i).swtail r.1.vring.swtail) }

/-- The device after `wil_if_alloc`. -/
def init (iftype : Iftype) (devAddr : Option MacAddr) : QueueSys where
  conn := .init iftype devAddr
  ndevStats := ⟨0, 0, 0⟩
  stopped := some .linkOff
  linkOn := false
  owed _ := 0

end QueueSys

/-- **The queues are not stuck**: where they are stopped with the link on, for lack of space on a
ring that is still there, some ring holds descriptors that were not released, most of what it can
hold; and where the hardware has marked all that an allocated ring holds, `wil_tx_complete` wakes
the queues. -/
structure QueuesOk (s : QueueSys) : Prop where
  linkOff : s.stopped = some .linkOff → s.linkOn = false
  lowSpace : s.stopped = some .lowSpace →
    ∃ i, (s.ring i).va = true ∧ (s.ring i).nearFull ≤ s.owed i ∧ 0 < s.owed i
  wakes : ∀ i, (s.ring i).va = true → (s.ring i).AllDone →
    ∃ t, s.step (.complete i) = some t ∧ t.stopped = none

/-! ## Events -/

variable {c d : Option StopCause} {p : Option StopCause × Bool}

/-- Only lack of space stops the queues for that reason. -/
lemma lowSpace_of_foldl {es : List XmitEvent} (h : es.foldl queueStep c = some .lowSpace) :
    c = some .lowSpace ∨ .tx .stopAllQueues ∈ es := by
  induction es generalizing c with
  | nil => exact Or.inl h
  | cons e es ih =>
      rcases ih h with hstep | hmem
      · cases e with
        | tx e =>
            cases e
            case stopAllQueues => exact Or.inr List.mem_cons_self
            case wakeAllQueues => exact absurd hstep (by simp [queueStep])
            all_goals exact Or.inl hstep
        | stopAllQueues =>
            cases c with
            | none => exact absurd hstep (by simp [queueStep])
            | some cause => exact Or.inl hstep
        | skbCopy i copy => exact Or.inl hstep
        | wmiEapolTx hDest => exact Or.inl hstep
        | txDropped => exact Or.inl hstep
      · exact Or.inr (List.mem_cons_of_mem _ hmem)

/-- Sending and cleaning up do not stop the queues the way `wil_link_off` does. -/
lemma linkOff_of_foldl {es : List XmitEvent} (h : es.foldl queueStep c = some .linkOff) :
    c = some .linkOff := by
  induction es generalizing c with
  | nil => exact h
  | cons e es ih =>
      have hstep := ih h
      cases e with
      | tx e =>
          cases e
          case stopAllQueues => exact absurd hstep (by simp [queueStep])
          case wakeAllQueues => exact absurd hstep (by simp [queueStep])
          all_goals exact hstep
      | stopAllQueues =>
          cases c with
          | none => exact absurd hstep (by simp [queueStep])
          | some cause => exact hstep
      | skbCopy i copy => exact hstep
      | wmiEapolTx hDest => exact hstep
      | txDropped => exact hstep

/-- Of a trace of the ring only the stops and wakes count. -/
lemma foldl_queueEvents (es : List TxEvent) :
    (es.map XmitEvent.tx).foldl queueStep c = ((queueEvents es).map .tx).foldl queueStep c := by
  induction es generalizing c with
  | nil => rfl
  | cons e es ih =>
      rw [queueEvents_cons, List.map_cons, List.foldl_cons, ih]
      cases e <;> rfl

/-- Connecting and disconnecting stops no queue for lack of space, and stops them with the link. -/
lemma foldl_linkStep (es : List DrvEvent) (hp : p.1 = some .linkOff → p.2 = false) :
    ((es.foldl linkStep p).1 = some .lowSpace → p.1 = some .lowSpace) ∧
      ((es.foldl linkStep p).1 = some .linkOff → (es.foldl linkStep p).2 = false) := by
  induction es generalizing p with
  | nil => exact ⟨id, hp⟩
  | cons e es ih =>
      cases e with
      | linkOn =>
          obtain ⟨hlow, hoff⟩ := ih (p := (none, true)) (by simp)
          exact ⟨fun h => absurd (hlow h) (by simp), hoff⟩
      | linkOff =>
          obtain ⟨hlow, hoff⟩ := ih (p := (some .linkOff, false)) (by simp)
          exact ⟨fun h => absurd (hlow h) (by simp), hoff⟩
      | _ => exact ih hp

/-! ## Rings -/

/-- A ring whose ends are among its slots, and which owes at least what it shows. -/
structure RingOwes (v : Vring) (n : ℕ) : Prop where
  size : v.size = wil6210TxRingSize
  swhead_lt : v.swhead < v.size
  swtail_lt : v.swtail < v.size
  used_le : v.used ≤ n

variable {v w : Vring} {n : ℕ}

/-- Neither end moves. -/
lemma RingOwes.same (h : RingOwes v n) (hs : SameRing v w) : RingOwes w n := by
  refine ⟨hs.size.trans h.size, ?_, ?_, ?_⟩
  · rw [hs.swhead, hs.size]
    exact h.swhead_lt
  · rw [hs.swtail, hs.size]
    exact h.swtail_lt
  · rw [Vring.used, hs.size, hs.swhead, hs.swtail]
    exact h.used_le

/-- The head moves. -/
lemma RingOwes.advanced (h : RingOwes v n) (hadv : Advanced v w) :
    RingOwes w (n + Circular.dist v.size v.swhead w.swhead) := by
  have hsize := h.size
  have hhead := h.swhead_lt
  have htail := h.swtail_lt
  have hused := h.used_le
  have hnew := hadv.swhead_lt hhead
  refine ⟨hadv.size.trans hsize, by rwa [hadv.size], by rwa [hadv.swtail, hadv.size], ?_⟩
  unfold Vring.used at hused ⊢
  unfold Circular.dist
  rw [hadv.swtail, hadv.size]
  rw [hsize, wil6210TxRingSize] at *
  omega

/-- The tail moves. -/
lemma RingOwes.complete {s : TxState} {k : ℕ} (h : RingOwes s.vring n) (hk : TailMoved s k) :
    RingOwes (wilTxComplete s).1.vring
      (n - Circular.dist s.vring.size s.vring.swtail (wilTxComplete s).1.vring.swtail) := by
  have hsize := h.size
  have hhead := h.swhead_lt
  have htail := h.swtail_lt
  have hused := h.used_le
  have hle := hk.le
  have hleft := hk.used hhead htail
  obtain ⟨hlt, htailmod, -⟩ := Vring.head_mod hhead htail
  have hdist := Circular.dist_mod hle (show k < s.vring.swtail + s.vring.size by
    have := hk.le_head
    omega)
  rw [htailmod] at hdist
  refine ⟨hk.size.trans hsize, ?_, ?_, ?_⟩
  · rwa [hk.swhead, hk.size]
  · rw [hk.swtail, hk.size]
    exact Nat.mod_lt _ (by omega)
  · rw [hleft, hk.swtail, hdist]
    omega

/-- No ring comes: those still allocated are as they were. -/
def FreesOnly (w u : Wil) : Prop :=
  ∀ i, (u.vringTx i).va = true → u.vringTx i = w.vringTx i

lemma freesOnly_wilDisconnectCid {w u : Wil} (h : FreesOnly w u) (cid : Cid) :
    FreesOnly w (wilDisconnectCid u cid).1 := by
  intro i hva
  rw [va_wilDisconnectCid] at hva
  by_cases howner : u.owner i = cid.val
  · rw [if_pos howner] at hva
    exact absurd hva (by simp)
  · rw [if_neg howner] at hva
    simpa [wilDisconnectCid, howner] using h i hva

lemma freesOnly_wil6210Disconnect (w : Wil) (bssid : Option MacAddr) :
    FreesOnly w (wil6210Disconnect w bssid).1 := by
  have hrefl : FreesOnly w w := fun _ _ => rfl
  have hstations : FreesOnly w (disconnectStations w bssid).1 := by
    simp only [disconnectStations]
    cases bssid.bind (wilFindCid w) with
    | some cid => exact freesOnly_wilDisconnectCid hrefl cid
    | none =>
        dsimp only
        split_ifs
        · exact Machine.run_invariant (I := FreesOnly w)
            (fun u cid hu => freesOnly_wilDisconnectCid hu cid) hrefl _
        · exact hrefl
        · exact hrefl
  intro i hva
  simp only [wil6210Disconnect, vringTx_disconnectLink] at hva ⊢
  exact hstations i hva

/-- Rings go, and a ring that comes is empty. -/
def RingsSettled (w u : Wil) : Prop :=
  ∀ i, (u.vringTx i).va = true →
    ((w.vringTx i).va = true ∧ SameRing { w.vringTx i with hwtail := (u.vringTx i).hwtail }
        (u.vringTx i)) ∨
      ((w.vringTx i).va = false ∧ RingOwes (u.vringTx i) 0)

lemma FreesOnly.settled {w u : Wil} (h : FreesOnly w u) : RingsSettled w u := by
  intro i hva
  have hsame := h i hva
  refine Or.inl ⟨hsame ▸ hva, ?_⟩
  rw [hsame]
  exact SameRing.refl _

lemma ringsSettled_begin (w : Wil) (id : RingId) (cid tid : ℕ) (ok : Bool) :
    RingsSettled w (wilVringInitTxBegin w id wil6210TxRingSize cid tid ok).1 := by
  have hrefl : RingsSettled w w := FreesOnly.settled fun _ _ => rfl
  by_cases hbusy : (w.vringTx id).va = true
  · simpa [wilVringInitTxBegin, hbusy] using hrefl
  · have hfree : (w.vringTx id).va = false := by simpa using hbusy
    intro i hva
    by_cases hi : i = id
    · subst hi
      refine Or.inr ⟨hfree, ?_⟩
      cases ok with
      | false => simp [wilVringInitTxBegin, hfree, wilVringAlloc, eNomem] at hva
      | true =>
          simp only [wilVringInitTxBegin, hfree, wilVringAlloc, if_true]
          constructor <;> simp [wil6210TxRingSize, Vring.used]
    · cases ok with
      | false =>
          have hsame : (wilVringInitTxBegin w id wil6210TxRingSize cid tid false).1.vringTx i
              = w.vringTx i := by
            simp [wilVringInitTxBegin, hfree, wilVringAlloc, eNomem, hi]
          rw [hsame] at hva ⊢
          exact hrefl i hva
      | true =>
          have hsame : (wilVringInitTxBegin w id wil6210TxRingSize cid tid true).1.vringTx i
              = w.vringTx i := by
            simp [wilVringInitTxBegin, hfree, wilVringAlloc, hi]
          rw [hsame] at hva ⊢
          exact hrefl i hva

lemma ringsSettled_end (w : Wil) (id : RingId) (reply : VringCfgReply) :
    RingsSettled w (wilVringInitTxEnd w id reply).1 := by
  intro i hva
  refine Or.inl ?_
  by_cases hi : i = id
  · subst hi
    simp only [wilVringInitTxEnd] at hva ⊢
    split_ifs at hva ⊢
    · simp [wilVringFree] at hva
    · simp [wilVringFree] at hva
    · simp only [Function.update_self] at hva ⊢
      exact ⟨hva, SameRing.refl _⟩
  · have hsame : (wilVringInitTxEnd w id reply).1.vringTx i = w.vringTx i := by
      simp only [wilVringInitTxEnd]
      split_ifs <;> simp [hi]
    rw [hsame] at hva ⊢
    exact ⟨hva, SameRing.refl _⟩

/-! ## The invariant -/

/-- What holds between two steps. -/
structure QueueInv (s : QueueSys) : Prop where
  ring : ∀ i, (s.ring i).va = true → RingOwes (s.ring i) (s.owed i)
  linkOff : s.stopped = some .linkOff → s.linkOn = false
  lowSpace : s.stopped = some .lowSpace →
    ∃ i, (s.ring i).va = true ∧ (s.ring i).nearFull ≤ s.owed i

variable {s t : QueueSys}

lemma queueInv_init (iftype : Iftype) (devAddr : Option MacAddr) :
    QueueInv (QueueSys.init iftype devAddr) :=
  ⟨fun i hva => absurd hva (by simp [QueueSys.init, QueueSys.ring, ConnSys.init, wilPrivInit]),
    fun _ => rfl, fun h => absurd h (by simp [QueueSys.init])⟩

/-- A step of the connection. -/
lemma QueueInv.settle (h : QueueInv s) {c : ConnSys} (hc : RingsSettled s.conn.wil c.wil)
    (es : List DrvEvent) : QueueInv (s.settle c es) := by
  obtain ⟨hlow, hoff⟩ := foldl_linkStep es (p := (s.stopped, s.linkOn)) h.linkOff
  refine ⟨fun i hva => ?_, fun hstop => hoff ?_, fun hstop => ?_⟩
  · rcases hc i hva with ⟨hold, hsame⟩ | ⟨hnew, hempty⟩
    · have hring := h.ring i hold
      have hring' : RingOwes { s.ring i with hwtail := (c.wil.vringTx i).hwtail } (s.owed i) :=
        ⟨hring.size, hring.swhead_lt, hring.swtail_lt, hring.used_le⟩
      show RingOwes (c.wil.vringTx i) (if (s.ring i).va then s.owed i else 0)
      rw [if_pos (show (s.ring i).va = true from hold)]
      exact hring'.same hsame
    · simpa [QueueSys.settle, QueueSys.ring, hnew] using hempty
  · simp only [QueueSys.settle] at hstop
    split_ifs at hstop
    · exact absurd hstop (by simp)
    · exact hstop
  · simp only [QueueSys.settle] at hstop
    split_ifs at hstop with hfreed
    · exact absurd hstop (by simp)
    obtain ⟨i, hva, hfull⟩ := h.lowSpace (hlow hstop)
    have hkept : (c.wil.vringTx i).va = true := by
      by_contra hgone
      exact hfreed ⟨hstop, i, hva, hfull, by simpa using hgone⟩
    refine ⟨i, hkept, ?_⟩
    rcases hc i hkept with ⟨-, hsame⟩ | ⟨hnew, -⟩
    · show (c.wil.vringTx i).nearFull ≤ if (s.ring i).va then s.owed i else 0
      rw [if_pos hva, nearFull_congr (v := s.ring i) hsame.size]
      exact hfull
    · exact absurd (hva.symm.trans hnew) (by simp)

/-- A step of `ConnSys` settles the rings. -/
lemma ringsSettled_conn {c d : ConnSys} {a : ConnAction} (ha : ∀ w, a ≠ .traffic w)
    (hd : c.step a = some d) : RingsSettled c.wil d.wil := by
  have hkept : ∀ u : Wil, u.vringTx = c.wil.vringTx → RingsSettled c.wil u :=
    fun u hu => FreesOnly.settled fun i _ => congrFun hu i
  cases a with
  | connect evt len =>
      obtain ⟨-, rfl⟩ | ⟨cid, haccept, rfl⟩ := ConnSys.step_connect hd
      · exact hkept _ rfl
      · exact hkept _ (wmiEvtConnect_accepted evt len cid haccept).2.2.2.1
  | disconnect bssid =>
      obtain rfl := Option.some.inj hd
      exact (freesOnly_wil6210Disconnect _ _).settled
  | start =>
      obtain ⟨-, -, rfl⟩ := ConnSys.step_start hd
      exact hkept _ rfl
  | alloc ok =>
      obtain ⟨cid, tid, id, -, hd⟩ := ConnSys.step_alloc hd
      split_ifs at hd <;> subst hd <;> exact ringsSettled_begin _ _ _ _ _
  | reply r =>
      obtain ⟨cid, id, -, rfl⟩ := ConnSys.step_reply hd
      exact ringsSettled_end _ _ _
  | clear =>
      obtain ⟨cid, rc, -, rfl⟩ := ConnSys.step_clear hd
      exact hkept _ rfl
  | finish =>
      obtain ⟨cid, rc, -, rfl⟩ := ConnSys.step_finish hd
      exact hkept _ rfl
  | traffic w => exact absurd rfl (ha w)

/-- A call of `wil_start_xmit`. -/
lemma QueueInv.xmit (h : QueueInv s) {q : XmitRequest} (ht : s.step (.xmit q) = some t) :
    QueueInv t := by
  obtain ⟨l, hpost⟩ := posting_wilStartXmit s.conn.wil q
  obtain rfl := Option.some.inj ht
  refine ⟨fun i hnow => ?_, fun hstop => h.linkOff (linkOff_of_foldl hstop), fun hstop => ?_⟩
  · have hring := h.ring i (hpost.alloc i hnow)
    exact hring.advanced (hpost.ring i hring.swhead_lt)
  · obtain ⟨i, hold, hfull⟩ : ∃ i, (s.ring i).va = true ∧ (s.ring i).nearFull ≤ s.owed i := by
      rcases lowSpace_of_foldl hstop with hbefore | hmem
      · exact h.lowSpace hbefore
      · obtain ⟨i, -, hold, hfull⟩ := hpost.stop hmem
        exact ⟨i, hold, hfull.trans (h.ring i hold).used_le⟩
    have hadv := hpost.ring i (h.ring i hold).swhead_lt
    refine ⟨i, hadv.va.trans hold, ?_⟩
    show ((wilStartXmit s.conn.wil q).wil.vringTx i).nearFull ≤ s.owed i + _
    rw [nearFull_congr hadv.size]
    exact hfull.trans (Nat.le_add_right _ _)

/-- The hardware marks a descriptor. -/
lemma QueueInv.hwDone (h : QueueInv s) {i : RingId} {k error : ℕ}
    (ht : s.step (.hwDone i k error) = some t) : QueueInv t := by
  simp only [QueueSys.step] at ht
  split_ifs at ht with hready
  obtain rfl := Option.some.inj ht
  have hsame : ∀ j, SameRing (s.ring j) (Function.update s.conn.wil.vringTx i
      ((s.ring i).writeBack (k % (s.ring i).size) error) j) := by
    intro j
    by_cases hji : j = i
    · subst hji
      rw [Function.update_self]
      exact SameRing.setDesc _ _ _
    · rw [Function.update_of_ne hji]
      exact SameRing.refl _
  refine ⟨fun j hva => ?_, h.linkOff, fun hstop => ?_⟩
  · have hring := h.ring j ((hsame j).va.symm.trans hva)
    exact hring.same (hsame j)
  · obtain ⟨j, hva, hfull⟩ := h.lowSpace hstop
    refine ⟨j, (hsame j).va.trans hva, ?_⟩
    show (Function.update s.conn.wil.vringTx i _ j).nearFull ≤ _
    rw [nearFull_congr (hsame j).size]
    exact hfull

/-- A call of `wil_tx_complete` either wakes the queues or leaves the ring near full. -/
lemma QueueInv.cleaned (h : QueueInv s) {i : RingId} (hva : (s.ring i).va = true)
    (ht : s.step (.complete i) = some t) :
    (∀ j, j ≠ i → t.ring j = s.ring j ∧ t.owed j = s.owed j) ∧ (t.ring i).va = true ∧
      RingOwes (t.ring i) (t.owed i) ∧
      ((t.stopped = none) ∨ (t.stopped = s.stopped ∧ (t.ring i).nearFull ≤ t.owed i)) ∧
      t.linkOn = s.linkOn ∧ ((s.ring i).AllDone → t.stopped = none) := by
  have hring := h.ring i hva
  obtain rfl := Option.some.inj ht
  set x : TxState := ⟨s.ring i, s.conn.wil.cb, s.ndevStats, s.conn.wil.txStats i⟩ with hx
  obtain ⟨k, hk⟩ := wilTxComplete_tail (s := x) hva hring.swhead_lt hring.swtail_lt
  have howes := RingOwes.complete (s := x) hring hk
  have hwake : ∀ c, ((wilTxComplete x).2.1.map XmitEvent.tx).foldl queueStep c
      = ((txWake (wilTxComplete x).1.vring).map XmitEvent.tx).foldl queueStep c := by
    intro c
    rw [foldl_queueEvents, hk.queues]
  refine ⟨fun j hj => ⟨?_, ?_⟩, ?_, ?_, ?_, rfl, fun hdone => ?_⟩
  · simp [QueueSys.ring, hj]
  · simp [hj]
  · simpa [QueueSys.ring] using hk.va.trans hva
  · simp only [QueueSys.ring, Function.update_self]
    exact howes
  · simp only [QueueSys.ring, Function.update_self]
    rw [hwake]
    by_cases hempty : txWake (wilTxComplete x).1.vring = []
    · refine Or.inr ⟨by rw [hempty]; rfl, ?_⟩
      exact (nearFull_le_of_not_wake hempty).trans howes.used_le
    · refine Or.inl ?_
      rw [txWake] at hempty ⊢
      split_ifs at hempty ⊢ with hhigh
      · rfl
      · exact absurd rfl hempty
  · have hsize : 3 ≤ x.vring.size := by
      rw [show x.vring.size = wil6210TxRingSize from hring.size]
      decide
    have hwakes := wilTxComplete_wakes (s := x) hva hring.swhead_lt hring.swtail_lt hsize hdone
    rw [hk.queues] at hwakes
    rw [hwake, hwakes]
    rfl

/-- A call of `wil_tx_complete` on a ring that is not allocated does nothing. -/
lemma QueueSys.complete_free {i : RingId} (hva : ¬ (s.ring i).va = true)
    (ht : s.step (.complete i) = some t) :
    t.ring = s.ring ∧ t.owed = s.owed ∧ t.stopped = s.stopped ∧ t.linkOn = s.linkOn := by
  obtain rfl := Option.some.inj ht
  have hcall : ∀ x : TxState, x.vring = s.ring i → wilTxComplete x = (x, [], 0) := by
    intro x hx
    rw [wilTxComplete, if_pos (by rwa [hx])]
  rw [hcall _ rfl]
  refine ⟨?_, ?_, rfl, rfl⟩
  · exact Function.update_eq_self i _
  · simp [Circular.dist]

/-- A call of `wil_tx_complete`. -/
lemma QueueInv.complete (h : QueueInv s) {i : RingId} (ht : s.step (.complete i) = some t) :
    QueueInv t := by
  by_cases hva : (s.ring i).va = true
  · obtain ⟨hother, hkept, howes, hqueues, hlink, -⟩ := h.cleaned hva ht
    refine ⟨fun j hj => ?_, fun hstop => ?_, fun hstop => ?_⟩
    · by_cases hji : j = i
      · exact hji ▸ howes
      · obtain ⟨hsame, howed⟩ := hother j hji
        rw [hsame] at hj ⊢
        rw [howed]
        exact h.ring j hj
    · rcases hqueues with hrun | ⟨hstill, -⟩
      · exact absurd (hrun.symm.trans hstop) (by simp)
      · rw [hlink]
        exact h.linkOff (hstill ▸ hstop)
    · rcases hqueues with hrun | ⟨hstill, hfull⟩
      · exact absurd (hrun.symm.trans hstop) (by simp)
      · exact ⟨i, hkept, hfull⟩
  · obtain ⟨hring, howed, hstill, hlink⟩ := QueueSys.complete_free hva ht
    refine ⟨?_, ?_, ?_⟩
    · rw [hring, howed]
      exact h.ring
    · rw [hstill, hlink]
      exact h.linkOff
    · rw [hstill, hring, howed]
      exact h.lowSpace

/-- **Every step keeps the invariant.** -/
theorem QueueInv.step (h : QueueInv s) {a : QueueAction} (ht : s.step a = some t) :
    QueueInv t := by
  cases a with
  | conn a =>
      by_cases htraffic : ∃ w, a = .traffic w
      · obtain ⟨w, rfl⟩ := htraffic
        exact absurd ht (by simp [QueueSys.step])
      · rw [QueueSys.step] at ht
        · obtain ⟨c, hc, rfl⟩ := Option.map_eq_some_iff.mp ht
          exact h.settle (ringsSettled_conn (fun w hw => htraffic ⟨w, hw⟩) hc) _
        · exact fun w hw => htraffic ⟨w, hw⟩
  | disconnect bssid =>
      obtain rfl := Option.some.inj ht
      exact h.settle (freesOnly_wil6210Disconnect _ _).settled _
  | config smeState tidToUse =>
      obtain rfl := Option.some.inj ht
      exact ⟨h.ring, h.linkOff, h.lowSpace⟩
  | xmit q => exact h.xmit ht
  | hwDone i k error => exact h.hwDone ht
  | complete i => exact h.complete ht

/-! ## Every run -/

lemma QueueInv.ok (h : QueueInv s) : QueuesOk s := by
  refine ⟨h.linkOff, fun hstop => ?_, fun i hva hdone => ?_⟩
  · obtain ⟨i, hva, hfull⟩ := h.lowSpace hstop
    refine ⟨i, hva, hfull, lt_of_lt_of_le ?_ hfull⟩
    rw [Vring.nearFull, (h.ring i hva).size]
    decide
  · have hstep : ∃ t, s.step (.complete i) = some t := ⟨_, rfl⟩
    obtain ⟨t, ht⟩ := hstep
    obtain ⟨-, -, -, -, -, hwake⟩ := h.cleaned hva ht
    exact ⟨t, ht, hwake hdone⟩

/-- **The queues are not stuck**, in any run of connects and disconnects, of calls of
`wil_start_xmit` with any outcome and of `wil_tx_complete`, and of the hardware. -/
theorem queues_ok {iftype : Iftype} {devAddr : Option MacAddr} {as : List QueueAction}
    (h : Machine.Exec QueueSys.step (fun _ _ => True) (QueueSys.init iftype devAddr) as s) :
    QueuesOk s :=
  (h.invariant (fun _ _ _ _ ht hi => QueueInv.step hi ht) (queueInv_init iftype devAddr)).ok

/-- Station 2 connects, in AP mode, as CID 0. -/
def connectTwo : List QueueAction :=
  [.conn (.connect ⟨2, 0, 0, 0, 0, []⟩ sizeofWmiConnectEvent), .conn .start, .conn (.alloc true),
    .conn (.reply ⟨0, 0, 0⟩), .conn .clear, .conn .finish]

/-- A packet for it, of `n` fragments, with the outcome of its mappings. -/
def packetTwo (n : ℕ) (mapped : Bool) : QueueAction :=
  let dma : DmaMapping := ⟨fun _ _ => if mapped then some 0 else none, fun _ _ _ => some 0⟩
  .xmit ⟨⟨⟨7, 100, 100, List.replicate n 100, false, 0, 0, 0, 0, 0⟩, 2, 0⟩, true, false, dma, true, 0,
    fun _ => none, fun _ => dma⟩

/-- Packets until the ring is near full. -/
def fillTwo : List QueueAction := connectTwo ++ List.replicate 26 (packetTwo 17 true)

lemma fillTwo_run :
    (Machine.exec QueueSys.step (fun _ _ => True) (QueueSys.init .ap (some 1)) fillTwo).map
      (fun s => (s.stopped, s.linkOn, s.owed 0, decide ((∀ i, (s.ring i).va = true ↔ i = 0) ∧
        s.conn.wil.iftype = .ap ∧ wilFindCid s.conn.wil 2 = some 0 ∧ s.conn.wil.owner 0 = 0)))
      = some (some .lowSpace, true, 468, true) := by
  decide +kernel

/-- Packets until the queues are stopped, and some more. -/
theorem queues_ok_two :
    ∃ s : QueueSys, QueuesOk s ∧ s.stopped = some .lowSpace ∧ s.linkOn = true ∧ s.owed 0 = 468 := by
  obtain ⟨s, hs, hend⟩ := Option.map_eq_some_iff.mp fillTwo_run
  simp only [Prod.mk.injEq] at hend
  exact ⟨s, queues_ok (.of_exec hs), hend.1, hend.2.1, hend.2.2.1⟩

/-- A posted descriptor of an allocated ring is not marked yet. -/
def QueueSys.Uncompleted (s : QueueSys) : Prop :=
  ∃ i, (s.ring i).va = true ∧ ∃ k, (s.ring i).swtail ≤ k ∧ k < (s.ring i).swtail + (s.ring i).used ∧
    ¬ ((s.ring i).desc (k % (s.ring i).size)).du

lemma du_of_or {d : VringTxDesc} {n : ℕ} (h : d.status = n ||| txDmaStatusDu) : d.du := by
  rw [VringTxDesc.du, h, Nat.and_or_distrib_right, Nat.and_self]
  exact fun hzero => absurd (Nat.or_eq_zero_iff.mp hzero).2 (by decide)

/-- The hardware may mark the first `n` descriptors of a ring, and nothing else happens. -/
lemma exec_hwDone {i : RingId} (hva : (s.ring i).va = true) (n : ℕ) (hn : n ≤ (s.ring i).used) :
    ∃ as u, Machine.Exec QueueSys.step (fun _ _ => True) s as u ∧
      (∀ j, SameRing (s.ring j) (u.ring j)) ∧ u.stopped = s.stopped ∧ u.linkOn = s.linkOn ∧
      ∀ k, (s.ring i).swtail ≤ k → k < (s.ring i).swtail + n →
        ((u.ring i).desc (k % (s.ring i).size)).du := by
  induction n with
  | zero =>
      exact ⟨[], s, rfl, fun _ => SameRing.refl _, rfl, rfl, fun k hk hkn => by omega⟩
  | succ n ih =>
      obtain ⟨as, u, hu, hsame, hstopped, hlink, hdone⟩ := ih (by omega)
      have hring := hsame i
      have hstep : ∃ v, u.step (.hwDone i ((s.ring i).swtail + n) 0) = some v ∧
          (∀ j, j ≠ i → v.ring j = u.ring j) ∧
          v.ring i = (u.ring i).writeBack (((s.ring i).swtail + n) % (u.ring i).size) 0 ∧
          v.stopped = u.stopped ∧ v.linkOn = u.linkOn := by
        have hready : (u.ring i).va = true ∧ (u.ring i).swtail ≤ (s.ring i).swtail + n ∧
            (s.ring i).swtail + n < (u.ring i).swtail + (u.ring i).used := by
          refine ⟨hring.va.trans hva, by rw [hring.swtail]; omega, ?_⟩
          rw [Vring.used, hring.swtail, hring.size, hring.swhead]
          exact Nat.add_lt_add_left hn _
        refine ⟨_, if_pos hready, fun j hj => ?_, ?_, rfl, rfl⟩
        · exact Function.update_of_ne hj _ _
        · exact Function.update_self _ _ _
      obtain ⟨v, hv, hother, hback, hstopped', hlink'⟩ := hstep
      refine ⟨as ++ [.hwDone i ((s.ring i).swtail + n) 0], v, hu.append ⟨trivial, v, hv, rfl⟩,
        fun j => ?_, hstopped'.trans hstopped, hlink'.trans hlink, fun k hk hkn => ?_⟩
      · by_cases hj : j = i
        · subst hj
          rw [hback]
          exact hring.trans (SameRing.setDesc _ _ _)
        · rw [hother j hj]
          exact hsame j
      · rw [hback, hring.size, Vring.writeBack, Vring.setDesc]
        by_cases hslot : k % (s.ring i).size = ((s.ring i).swtail + n) % (s.ring i).size
        · simp only [hslot, Function.update_self]
          exact du_of_or rfl
        · simp only [Function.update_of_ne hslot]
          refine hdone k hk ?_
          by_contra hlast
          exact hslot (by rw [show k = (s.ring i).swtail + n by omega])

/-- A disconnect of one station, in AP mode, leaves the link. -/
lemma foldl_wmiEvtDisconnect {w : Wil} {bssid : MacAddr} {cid : Cid} (hmode : w.iftype = .ap)
    (hfind : wilFindCid w bssid = some cid) :
    (wmiEvtDisconnect w bssid).2.foldl linkStep p = p := by
  have hsilent : ∀ (es : List DrvEvent), (∀ e ∈ es, linkStep p e = p) → es.foldl linkStep p = p := by
    intro es hes
    induction es with
    | nil => rfl
    | cons e es ih =>
        rw [List.foldl_cons, hes e List.mem_cons_self]
        exact ih fun d hd => hes d (List.mem_cons_of_mem _ hd)
  have hstations : disconnectStations { w with sinfoGen := w.sinfoGen + 1 } (some bssid)
      = wilDisconnectCid { w with sinfoGen := w.sinfoGen + 1 } cid := by
    have hfind' : wilFindCid { w with sinfoGen := w.sinfoGen + 1 } bssid = some cid := hfind
    simp only [disconnectStations, Option.bind_some, hfind']
  have hap : (wilDisconnectCid { w with sinfoGen := w.sinfoGen + 1 } cid).1.iftype = .ap := hmode
  refine hsilent _ fun e he => ?_
  simp only [wmiEvtDisconnect, wil6210Disconnect, hstations, disconnectLink, hap, List.cons_append,
    List.mem_cons, List.mem_append, List.not_mem_nil, or_false] at he
  rcases he with rfl | he | rfl
  · rfl
  · simp only [wilDisconnectCid, List.mem_append, List.mem_flatMap, List.mem_map] at he
    rcases he with (he | ⟨i, -, r, -, rfl⟩) | ⟨i, -, he⟩
    · split_ifs at he
      · obtain rfl := List.mem_singleton.mp he
        rfl
      · exact absurd he (by simp)
    · rfl
    · split_ifs at he
      · obtain ⟨r, -, rfl⟩ := List.mem_map.mp he
        rfl
      · exact absurd he (by simp)
  · rfl

/-- Three ways for the queues to be stopped, with the link on, while no ring holds a descriptor that
the hardware is not done with: the hardware is ahead of the cleanup; a packet that cannot be mapped
ends at `drop_err`; the ring is freed. -/
theorem not_uncompleted :
    (∃ as s, Machine.Exec QueueSys.step (fun _ _ => True) (QueueSys.init .ap (some 1)) as s ∧
      s.stopped = some .lowSpace ∧ s.linkOn = true ∧ ¬ s.Uncompleted) ∧
    (∃ as s, Machine.Exec QueueSys.step (fun _ _ => True) (QueueSys.init .ap (some 1)) as s ∧
      s.stopped = some .error ∧ s.linkOn = true ∧ ∀ i, s.owed i = 0) ∧
    ∃ as s, Machine.Exec QueueSys.step (fun _ _ => True) (QueueSys.init .ap (some 1)) as s ∧
      s.stopped = some .ringFreed ∧ s.linkOn = true ∧ ∀ i, (s.ring i).va = false := by
  refine ⟨?_, ?_, ?_⟩
  · obtain ⟨s, hs, hend⟩ := Option.map_eq_some_iff.mp fillTwo_run
    simp only [Prod.mk.injEq, decide_eq_true_eq] at hend
    obtain ⟨hstopped, hlink, -, hva, -⟩ := hend
    obtain ⟨as, u, hu, hsame, hstopped', hlink', hdone⟩ :=
      exec_hwDone ((hva 0).mpr rfl) (s.ring 0).used le_rfl
    refine ⟨fillTwo ++ as, u, (Machine.Exec.of_exec hs).append hu, hstopped'.trans hstopped,
      hlink'.trans hlink, ?_⟩
    rintro ⟨i, hi, k, hk, hkn, hnot⟩
    have hring := hsame i
    obtain rfl := (hva i).mp (hring.va.symm.trans hi)
    rw [hring.swtail] at hk hkn
    rw [Vring.used, hring.swtail, hring.size, hring.swhead] at hkn
    rw [hring.size] at hnot
    exact hnot (hdone k hk hkn)
  · have hrun : (Machine.exec QueueSys.step (fun _ _ => True) (QueueSys.init .ap (some 1))
        (connectTwo ++ [packetTwo 0 false])).map
        (fun s => (s.stopped, s.linkOn, decide (∀ i, s.owed i = 0)))
        = some (some .error, true, true) := by
      decide +kernel
    obtain ⟨s, hs, hend⟩ := Option.map_eq_some_iff.mp hrun
    simp only [Prod.mk.injEq, decide_eq_true_eq] at hend
    exact ⟨_, s, .of_exec hs, hend⟩
  · obtain ⟨s, hs, hend⟩ := Option.map_eq_some_iff.mp fillTwo_run
    simp only [Prod.mk.injEq, decide_eq_true_eq] at hend
    obtain ⟨hstopped, hlink, howed, hva, hmode, hfind, howner⟩ := hend
    have hfull := (queues_ok (.of_exec hs)).lowSpace hstopped
    obtain ⟨i, hi, hnear, -⟩ := hfull
    obtain rfl := (hva i).mp hi
    have hcids := disconnectCids_found hfind
    have hgone : ∀ i, ((wmiEvtDisconnect s.conn.wil 2).1.vringTx i).va = false := by
      intro i
      rw [(wmiEvtDisconnect_spec s.conn.wil 2).2.2.2.1, hcids]
      by_cases hzero : i = 0
      · subst hzero
        exact if_pos ⟨0, List.mem_singleton_self 0, howner⟩
      · have hnot : (s.conn.wil.vringTx i).va = false :=
          Bool.eq_false_iff.mpr fun hold => hzero ((hva i).mp hold)
        rw [hnot, ite_self]
    have hstep : ∃ t, s.step (.conn (.disconnect 2)) = some t ∧
        t.conn.wil = (wmiEvtDisconnect s.conn.wil 2).1 ∧ t.stopped = some .ringFreed ∧
        t.linkOn = true := by
      refine ⟨_, rfl, rfl, ?_, ?_⟩ <;>
        simp only [QueueSys.settle, ConnSys.events, foldl_wmiEvtDisconnect hmode hfind]
      · exact if_pos ⟨hstopped, 0, hi, hnear, hgone 0⟩
      · exact hlink
    obtain ⟨t, ht, hwil, hfreed, hstill⟩ := hstep
    refine ⟨fillTwo ++ [.conn (.disconnect 2)], t,
      (Machine.Exec.of_exec hs).append ⟨trivial, t, ht, rfl⟩, hfreed, hstill, fun i => ?_⟩
    rw [QueueSys.ring, hwil]
    exact hgone i

end Wil6210
