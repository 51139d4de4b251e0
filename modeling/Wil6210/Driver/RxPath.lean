import Wil6210.Driver.SessionRuns
import Wil6210.Rx.Poll

/-!
# The receive path

`RxPath` is the driver with its Rx ring and its stations: `wil_rx_refill` posts buffers, the
hardware fills them, a pass of the loop of `wil_rx_handle` takes one and gives it to
`wil_rx_reorder`, and meanwhile stations connect and disconnect, and sessions are made, remade and
freed.  It keeps what was taken from the ring, what was passed to `wil_rx_reorder`, and what was
handed over and freed behind it; nothing reads these.

In every run that is `Defined` no buffer is lost or used twice on its way from the ring to the stack
(`rxPath_conserves`), a session is a function of its own frames (`rxPath_independent`), and as long
as a session lives its frames are handed over in the order of their sequence numbers
(`rxPath_in_order`), whatever the other stations do.

`wil_tid_ampdu_rx_free` does not take the lock of the session, and may come while a frame is in
`wil_rx_reorder`.  Here a frame and the free of its session come one after the other.
-/

namespace Wil6210

open Machine (product part silent)

/-! ## The machine -/

/-- The frame in a received buffer. -/
def RxBuf.toSkb (b : RxBuf) : RxSkb where
  rxdesc := (b.rxdesc.map RxRingDesc.toVringRxDesc).getD ⟨0⟩
  data := b.data.take b.len

/-- The session that a frame is for. -/
def RxSkb.key (skb : RxSkb) : SessionKey := (skb.cid, skb.tid)

/-- The driver with its Rx ring and its stations. -/
structure RxPath where
  ring : RxSys
  station : StationSys
  /-- what `wil_vring_reap_rx` returned -/
  reaped : List RxBuf
  /-- what went to the stack in monitor mode -/
  sniffed : List RxSkb
  /-- what went to `wil_rx_reorder` -/
  reordered : List RxSkb
  /-- what the sessions handed over and freed -/
  trace : List RxEvent
  /-- what happened to the sessions -/
  inputs : List (SessionKey × SessionInput)

inductive RxPathAction
  | refill (count : ℤ) (outcome : ℕ → RxAlloc)
  | hwComplete (i : ℕ) (w : RxWriteBack) (data : List UInt8)
  /-- One pass of the loop of `wil_rx_handle`. -/
  | pass (ndev : RxNdev)
  /-- Anything else that the driver does, but a frame, which comes from the ring. -/
  | station (a : StationAction)

/-- The action is a received frame. -/
def StationAction.IsFrame (a : StationAction) : Prop := ∃ skb, a = .back (.rx skb)

instance : (a : StationAction) → Decidable a.IsFrame
  | .back (.rx skb) => isTrue ⟨skb, rfl⟩
  | .back (.conn _) | .back (.addbaRequest _ _) | .back .back | .back (.backReply _ _)
  | .back (.baStatus _ _) | .disconnect _ | .config _ _ | .xmit _ | .hwDone _ _ _ | .complete _
  | .count _ => isFalse (by simp [StationAction.IsFrame])

namespace RxPath

def wil (s : RxPath) : Wil := s.station.wil

/-- A step of the stations. -/
def apply (s : RxPath) (a : StationAction) : Option RxPath :=
  (s.station.step a).map fun u =>
    { s with
      station := u
      trace := s.trace ++ rxEvents (s.station.events a)
      inputs := s.inputs ++ s.station.inputs a }

/-- `wdev->iftype == NL80211_IFTYPE_MONITOR` -/
def monitor (s : RxPath) : Bool := s.wil.iftype = .monitor

/-- The frame is handed over, as `wil_rx_handle` does it. -/
def handover (s : RxPath) (skb : RxBuf) : Option RxPath :=
  match rxHandover s.monitor skb with
  | .netifRxAny skb => some { s with sniffed := s.sniffed ++ [skb.toSkb] }
  | .rxReorder skb =>
      { s with reordered := s.reordered ++ [skb.toSkb] }.apply (.back (.rx skb.toSkb))

/-- One step. -/
def step (s : RxPath) : RxPathAction → Option RxPath
  | .refill count outcome =>
      (s.ring.step (.refill count outcome)).map fun ring => { s with ring := ring }
  | .hwComplete i w data =>
      (s.ring.step (.hwComplete i w data)).map fun ring => { s with ring := ring }
  | .pass ndev =>
      (s.ring.step (.reap ndev)).bind fun ring =>
        match (wilVringReapRx ndev s.ring.rx).2.2 with
        | none => some { s with ring := ring }
        | some skb => { s with ring := ring, reaped := s.reaped ++ [skb] }.handover skb
  | .station a => if a.IsFrame then none else s.apply a

/-- The ring fresh from `wil_vring_alloc`, and nothing connected. -/
def init (rx : RxState) (size : ℕ) (iftype : Iftype) (devAddr : Option MacAddr) : RxPath :=
  ⟨RxSys.init rx size, StationSys.init iftype devAddr, [], [], [], [], []⟩

/-- The step is one that C defines: `reorder_index` does not divide by zero, and `connect_worker`
finds a free ring.  (At a session of size 0 even a frame is left out that is out of date, and would
be dropped before the division.) -/
def Defined (s : RxPath) : RxPathAction → Prop
  | .pass ndev => s.monitor = false → ∀ skb ∈ (wilVringReapRx ndev s.ring.rx).2.2,
      ∀ r ∈ s.wil.sessions skb.toSkb.key, r.bufSize ≠ 0
  | .station (.back (.conn .start)) =>
      s.wil.pendingConnectCid ≠ none → wilFindFreeVring s.wil ≠ none
  | _ => True

instance (s : RxPath) (a : RxPathAction) : Decidable (s.Defined a) := by
  unfold Defined
  split <;> infer_instance

/-- What the sessions hold. -/
def stored (s : RxPath) : List RxSkb :=
  (List.finRange 8).flatMap fun c => (List.finRange 16).flatMap fun i =>
    sessionFrames (s.wil.sessions (c, i))

end RxPath

variable {s t : RxPath}

/-- The frame of an input. -/
def SessionInput.skb? : SessionInput → Option RxSkb
  | .frame skb => some skb
  | _ => none

/-- The frames of some inputs. -/
def inputFrames (as : List (SessionKey × SessionInput)) : List RxSkb :=
  as.filterMap fun a => a.2.skb?

lemma inputFrames_append (as bs : List (SessionKey × SessionInput)) :
    inputFrames (as ++ bs) = inputFrames as ++ inputFrames bs :=
  List.filterMap_append

/-! ## The invariant -/

/-- The sessions at first: none. -/
def noSessions : SessionKey → Option WilTidAmpduRx := fun _ => none

/-- The sessions and the trace are those of the product of the machines on the inputs. -/
structure SessionLog (w : Wil) (trace : List RxEvent) (inputs : List (SessionKey × SessionInput)) :
    Prop where
  sessions : Machine.Exec (silent (product sessionStep)) SessionFits noSessions inputs w.sessions
  trace : trace = (Machine.run (product sessionStep) noSessions inputs).2.map Prod.snd

/-- The ring is as it should be, so are the sessions, and every buffer that was taken went one way
or the other. -/
structure RxPathInv (size : ℕ) (s : RxPath) : Prop where
  ring : RxRingInv size s.ring
  log : SessionLog s.wil s.trace s.inputs
  taken : (s.ring.removed.filter Prod.snd).map Prod.fst = s.reaped.map RxBuf.id
  frames : inputFrames s.inputs = s.reordered
  split : (s.sniffed ++ s.reordered).Perm (s.reaped.map RxBuf.toSkb)
  sub : s.reordered.Sublist (s.reaped.map RxBuf.toSkb)

section Invariant

variable {size : ℕ} {u v : StationSys} {a : StationAction}

/-- A step of the stations is logged. -/
lemma SessionLog.step {trace : List RxEvent} {inputs : List (SessionKey × SessionInput)}
    (h : SessionLog u.wil trace inputs) (hv : u.step a = some v)
    (hrx : ∀ skb, a = .back (.rx skb) → ∀ r, u.wil.sessions (skb.cid, skb.tid) = some r →
      r.bufSize ≠ 0) :
    SessionLog v.wil (trace ++ rxEvents (u.events a)) (inputs ++ u.inputs a) := by
  refine ⟨h.sessions.append (fits_step hv hrx), ?_⟩
  rw [Machine.run_append, List.map_append, ← h.trace, ← h.sessions.eq_run, (refines_step hv).trace]

/-- Only a received frame is a frame for a session. -/
lemma frames_inputs (u : StationSys) (h : ∀ skb, a ≠ .back (.rx skb)) :
    inputFrames (u.inputs a) = [] := by
  have hfree : ∀ cids : List Cid, inputFrames (cids.flatMap freeInputs) = [] := by
    intro cids
    refine List.filterMap_eq_nil_iff.mpr fun x hx => ?_
    obtain ⟨c, -, hx⟩ := List.mem_flatMap.mp hx
    obtain ⟨i, -, rfl⟩ := List.mem_map.mp hx
    rfl
  cases a with
  | back a =>
      cases a with
      | conn a =>
          cases a with
          | disconnect bssid => exact hfree _
          | _ => rfl
      | backReply reply allocOk =>
          simp only [StationSys.inputs]
          split
          · split_ifs <;> rfl
          · rfl
      | baStatus evt allocOk =>
          simp only [StationSys.inputs]
          split
          · refine List.filterMap_eq_nil_iff.mpr fun x hx => ?_
            obtain ⟨i, -, rfl⟩ := List.mem_map.mp hx
            split_ifs <;> rfl
          · rfl
      | rx skb => exact absurd rfl (h skb)
      | _ => rfl
  | disconnect bssid =>
      cases bssid with
      | none => rfl
      | some mac => exact hfree _
  | _ => rfl

/-- A step of the stations without a frame. -/
lemma RxPathInv.apply (h : RxPathInv size s) (hnone : ∀ skb, a ≠ .back (.rx skb))
    (ht : s.apply a = some t) : RxPathInv size t := by
  obtain ⟨w, hw, rfl⟩ := Option.map_eq_some_iff.mp ht
  refine ⟨h.ring, h.log.step hw fun skb ha => absurd ha (hnone skb), h.taken, ?_, h.split, h.sub⟩
  show inputFrames (s.inputs ++ s.station.inputs a) = s.reordered
  rw [inputFrames_append, frames_inputs s.station hnone, List.append_nil, h.frames]

/-- The buffers that the caller of `wil_vring_reap_rx` gets. -/
lemma filter_removals (r : RxState × List RxRingEvent × Option RxBuf) :
    ((removals r).filter Prod.snd).map Prod.fst = r.2.2.toList.map RxBuf.id := by
  rw [removals, List.filter_append, List.filter_eq_nil_iff.mpr, List.nil_append]
  · cases r.2.2 <;> rfl
  · intro x hx
    obtain ⟨e, -, he⟩ := List.mem_filterMap.mp hx
    cases e <;> simp only [Option.some.injEq, reduceCtorEq] at he
    subst he
    simp

/-- **One pass of the loop of `wil_rx_handle`.** -/
lemma RxPathInv.pass (h : RxPathInv size s) {ndev : RxNdev} (hdef : s.Defined (.pass ndev))
    (ht : s.step (.pass ndev) = some t) : RxPathInv size t := by
  simp only [RxPath.step, Option.bind_eq_some_iff] at ht
  obtain ⟨ring, hring, ht⟩ := ht
  have hinv := h.ring.reap hring
  have htaken : (ring.removed.filter Prod.snd).map Prod.fst
      = s.reaped.map RxBuf.id ++ (wilVringReapRx ndev s.ring.rx).2.2.toList.map RxBuf.id := by
    obtain rfl := Option.some.inj hring
    rw [List.filter_append, List.map_append, h.taken, filter_removals]
  cases hret : (wilVringReapRx ndev s.ring.rx).2.2 with
  | none =>
      rw [hret] at ht htaken
      obtain rfl := Option.some.inj ht
      exact ⟨hinv, h.log, by simpa using htaken, h.frames, h.split, h.sub⟩
  | some skb =>
      rw [hret] at ht htaken
      have htaken' : (ring.removed.filter Prod.snd).map Prod.fst
          = (s.reaped ++ [skb]).map RxBuf.id := by
        rw [htaken, List.map_append]
        rfl
      simp only [RxPath.handover] at ht
      cases hmon : s.monitor with
      | true =>
          have hmon' : RxPath.monitor { s with ring := ring, reaped := s.reaped ++ [skb] } = true :=
            hmon
          simp only [hmon', rxHandover, if_true] at ht
          obtain rfl := Option.some.inj ht
          refine ⟨hinv, h.log, htaken', h.frames, ?_, ?_⟩
          · rw [List.map_append, List.append_assoc]
            refine (List.Perm.append_left _ List.perm_append_comm).trans ?_
            rw [← List.append_assoc]
            exact h.split.append_right _
          · rw [List.map_append]
            exact h.sub.trans (List.sublist_append_left _ _)
      | false =>
          have hmon' : RxPath.monitor { s with ring := ring, reaped := s.reaped ++ [skb] }
            = false := hmon
          simp only [hmon', rxHandover, Bool.false_eq_true, if_false] at ht
          obtain ⟨w, hw, rfl⟩ := Option.map_eq_some_iff.mp ht
          refine ⟨hinv, h.log.step hw ?_, htaken', ?_, ?_, ?_⟩
          · rintro skb' heq r hr
            obtain rfl := BackAction.rx.inj (StationAction.back.inj heq)
            exact hdef hmon skb hret r hr
          · show inputFrames (s.inputs ++ [(skb.toSkb.key, SessionInput.frame skb.toSkb)])
              = s.reordered ++ [skb.toSkb]
            rw [inputFrames_append, h.frames]
            rfl
          · rw [List.map_append, ← List.append_assoc]
            exact h.split.append_right _
          · rw [List.map_append]
            exact h.sub.append (.refl _)

/-- **Every step keeps the invariant.** -/
theorem RxPathInv.step (h : RxPathInv size s) {a : RxPathAction} (hdef : s.Defined a)
    (ht : s.step a = some t) : RxPathInv size t := by
  cases a with
  | refill count outcome =>
      simp only [RxPath.step, Option.map_eq_some_iff] at ht
      obtain ⟨ring, hring, rfl⟩ := ht
      refine ⟨h.ring.refill hring, h.log, ?_, h.frames, h.split, h.sub⟩
      obtain rfl := Option.some.inj hring
      exact h.taken
  | hwComplete i w data =>
      simp only [RxPath.step, Option.map_eq_some_iff] at ht
      obtain ⟨ring, hring, rfl⟩ := ht
      refine ⟨h.ring.hwComplete hring, h.log, ?_, h.frames, h.split, h.sub⟩
      simp only [RxSys.step, Option.ite_none_right_eq_some, Option.some.injEq] at hring
      obtain ⟨-, rfl⟩ := hring
      exact h.taken
  | pass ndev => exact h.pass hdef ht
  | station a =>
      simp only [RxPath.step, Option.ite_none_left_eq_some] at ht
      exact h.apply (fun skb ha => ht.1 ⟨skb, ha⟩) ht.2

lemma rxPathInv_init (rx : RxState) (hsize : 0 < size) (iftype : Iftype)
    (devAddr : Option MacAddr) : RxPathInv size (RxPath.init rx size iftype devAddr) :=
  ⟨rxRingInv_init rx hsize, ⟨rfl, rfl⟩, rfl, rfl, .refl _, .refl _⟩

/-- **Every reachable state.** -/
lemma rxPathInv_run {rx : RxState} (hsize : 0 < size) {iftype : Iftype} {devAddr : Option MacAddr}
    {as : List RxPathAction} (h : Machine.Exec RxPath.step RxPath.Defined
      (RxPath.init rx size iftype devAddr) as t) : RxPathInv size t :=
  h.invariant (fun _ _ _ hdef ht hs => hs.step hdef ht) (rxPathInv_init rx hsize iftype devAddr)

end Invariant

/-! ## A call of `wil_rx_handle` -/

/-- What a frame does to the stations. -/
def rxDeliver (w : Wil) : RxHandover → Wil
  | .netifRxAny _ => w
  | .rxReorder skb => (wilRxReorderSta w skb.toSkb).1

/-- A frame is always handed over. -/
lemma handover_eq (s : RxPath) (skb : RxBuf) :
    ∃ t, s.handover skb = some t ∧ t.ring = s.ring ∧ t.monitor = s.monitor ∧
      t.wil = rxDeliver s.wil (rxHandover s.monitor skb) := by
  by_cases hmon : s.wil.iftype = .monitor
  · have hdec : s.monitor = true := decide_eq_true hmon
    simp only [RxPath.handover, hdec, rxHandover, if_true]
    exact ⟨_, rfl, rfl, hdec, rfl⟩
  · have hdec : s.monitor = false := decide_eq_false hmon
    simp only [RxPath.handover, hdec, rxHandover, Bool.false_eq_true, if_false]
    exact ⟨_, rfl, rfl, hdec, rfl⟩

/-- The loop of `wil_rx_handle` is a run of passes. -/
lemma passes_run (ndev : RxNdev) (n : ℕ) (s : RxPath) :
    ∃ m t, Machine.Exec RxPath.step (fun _ _ => True) s (List.replicate m (.pass ndev)) t ∧
      t.ring.rx = (rxHandleLoop ndev s.monitor n s.ring.rx).1 ∧
      t.wil = (rxHandleLoop ndev s.monitor n s.ring.rx).2.2.foldl rxDeliver s.wil := by
  induction n generalizing s with
  | zero => exact ⟨0, s, rfl, rfl, rfl⟩
  | succ n ih =>
      obtain ⟨ring, hring, hrx⟩ : ∃ ring, s.ring.step (.reap ndev) = some ring ∧
          ring.rx = (wilVringReapRx ndev s.ring.rx).1 := ⟨_, rfl, rfl⟩
      cases hret : (wilVringReapRx ndev s.ring.rx).2.2 with
      | none =>
          refine ⟨1, { s with ring := ring }, ⟨trivial, _, ?_, rfl⟩, ?_, ?_⟩
          · simp only [RxPath.step, hring, Option.bind_some, hret]
          · rw [rxHandleLoop, hret]
            exact hrx
          · rw [rxHandleLoop, hret]
            rfl
      | some skb =>
          obtain ⟨u, hu, hring', hmon, hwil⟩ :=
            handover_eq { s with ring := ring, reaped := s.reaped ++ [skb] } skb
          obtain ⟨m, t, hrun, hrx', hwil'⟩ := ih u
          have hmon' : u.monitor = s.monitor := hmon
          refine ⟨m + 1, t, ⟨trivial, u, ?_, hrun⟩, ?_, ?_⟩
          · simp only [RxPath.step, hring, Option.bind_some, hret, hu]
          · rw [hrx', hring', hmon', hrx, rxHandleLoop, hret]
          · rw [hwil', hwil, hring', hmon', hrx, rxHandleLoop, hret]
            rfl

/-- **`wil_rx_handle` is a run of passes and a refill.** -/
lemma wilRxHandle_run (ndev : RxNdev) (s : RxPath) (hva : s.ring.rx.vring.va = true) (quota : ℤ)
    (outcome : ℕ → RxAlloc) :
    ∃ m count t, Machine.Exec RxPath.step (fun _ _ => True) s
        (List.replicate m (.pass ndev) ++ [.refill count outcome]) t ∧
      t.ring.rx = (wilRxHandle ndev s.monitor s.ring.rx quota outcome).rx ∧
      t.wil = (wilRxHandle ndev s.monitor s.ring.rx quota outcome).frames.foldl rxDeliver
        s.wil := by
  obtain ⟨m, t, hrun, hrx, hwil⟩ := passes_run ndev quota.toNat s
  refine ⟨m, t.ring.rx.vring.size, _, hrun.append ⟨trivial, _, rfl, rfl⟩, ?_, ?_⟩
  · simp only [wilRxHandle, hva, not_true_eq_false, if_false, ← hrx]
  · simp only [wilRxHandle, hva, not_true_eq_false, if_false]
    exact hwil

/-! ## Conservation -/

/-- **Every buffer is in one place.** -/
structure RxAccounted (s : RxPath) : Prop where
  /-- What was taken from the ring, and then what it holds, is what was posted. -/
  posted : s.ring.removed.map Prod.fst ++ s.ring.rx.vring.held.map Prod.fst
    = s.ring.posted.map Prod.fst
  nodup : (s.ring.posted.map Prod.fst).Nodup
  /-- What was taken and not freed at once was passed on. -/
  taken : (s.ring.removed.filter Prod.snd).map Prod.fst = s.reaped.map RxBuf.id
  /-- It went to the stack, was freed, or is stored. -/
  frames : (s.sniffed ++ handedOver s.trace ++ freed s.trace ++ s.stored).Perm
    (s.reaped.map RxBuf.toSkb)

lemma sessionsFine_none : SessionsFine noSessions := by
  intro k r hr
  exact absurd hr (by simp [noSessions])

/-- What the sessions got is handed over, freed, or stored. -/
lemma SessionLog.balance {w : Wil} {trace : List RxEvent}
    {inputs : List (SessionKey × SessionInput)} (h : SessionLog w trace inputs) (f : RxSkb) :
    ∑ k, (sessionFrames (w.sessions k)).count f
        + ((handedOver trace).count f + (freed trace).count f)
      = (inputFrames inputs).count f := by
  have hrun := h.sessions.balance (I := SessionsFine)
    (m := fun u => ∑ k, (sessionFrames (u k)).count f) (w := fun a => copiesOf f a.2)
    (v := copiesIn f ∘ Prod.snd) (fun _ _ hu hfits => hu.step hfits)
    (fun u a hu hfits => Machine.product_balance (m := fun o => (sessionFrames o).count f)
      (w := copiesOf f) (v := copiesIn f) u a (sessionStep_balance hu hfits f))
    sessionsFine_none
  have hnone : ∑ k, (sessionFrames (noSessions k)).count f = 0 :=
    Finset.sum_eq_zero fun _ _ => rfl
  have hinputs : (inputs.map fun a => copiesOf f a.2).sum
      = (inputFrames inputs).count f := by
    clear h hrun
    induction inputs with
    | nil => rfl
    | cons a inputs ih =>
        obtain ⟨k, a⟩ := a
        rw [List.map_cons, List.sum_cons, ih]
        cases a with
        | frame skb =>
            show (if skb = f then 1 else 0) + _ = (skb :: inputFrames inputs).count f
            rw [List.count_cons, Nat.add_comm]
            simp
        | free => exact Nat.zero_add _
        | alloc ok size ssn => exact Nat.zero_add _
  rw [← sum_copiesIn, h.trace, List.map_map, hrun, hinputs, hnone, Nat.zero_add]

/-- How often a frame is stored. -/
lemma count_stored (s : RxPath) (f : RxSkb) :
    s.stored.count f = ∑ k, (sessionFrames (s.wil.sessions k)).count f := by
  rw [RxPath.stored, Fintype.sum_prod_type, List.count_flatMap, Fin.sum_univ_def]
  refine congrArg List.sum (List.map_congr_left fun c _ => ?_)
  rw [Function.comp_apply, List.count_flatMap, Fin.sum_univ_def]
  rfl

/-- **Nothing is lost between the ring and the stack.**  In every run that C defines, from a ring
fresh from `wil_vring_alloc`: every buffer that was posted is in the ring, was freed as it was
taken, or its frame went to the stack, was freed as stale or as a duplicate, or is stored in a
session, one of these and once. -/
theorem rxPath_conserves {rx : RxState} {size : ℕ} (hsize : 2 ≤ size) {iftype : Iftype}
    {devAddr : Option MacAddr} {as : List RxPathAction}
    (h : Machine.Exec RxPath.step RxPath.Defined (RxPath.init rx size iftype devAddr) as s) :
    RxAccounted s := by
  have hinv := rxPathInv_run (by omega) h
  refine ⟨?_, hinv.ring.nodup, hinv.taken, List.perm_iff_count.mpr fun f => ?_⟩
  · rw [hinv.ring.holds.held_eq, hinv.ring.fifo, ← List.map_append, List.take_append_drop]
  · have hbalance := hinv.log.balance f
    have hsplit := hinv.split.count_eq f
    rw [hinv.frames] at hbalance
    simp only [List.count_append, count_stored] at hsplit ⊢
    omega

/-- A ring of eight, as `wil_vring_alloc` finds it, and nothing connected. -/
def pathOfEight : RxPath :=
  RxPath.init ⟨⟨false, fun _ => ⟨0, 0, 0, 0, 0, 0, 0, 0⟩, 0, 0, 0, 0, fun _ => none⟩, 0⟩ 8 .ap
    (some 1)

/-- Buffers are posted at `pa`, and a station connects and asks for a session on TID 3. -/
def sessionAsked (pa : Fin (2 ^ 48)) : List RxPathAction :=
  .refill 8 (fun _ => .mapped pa) ::
    (askForSession 0x1002).dropLast.map fun a => .station (.back a)

/-- The session is granted. -/
def sessionGranted : StationAction := .back (.backReply ⟨0, 0⟩ true)

/-- Four data frames of 60 bytes come, with these sequence numbers. -/
def fourFrames (seqs : ℕ → ℕ) : List RxPathAction :=
  (List.range 4).map (fun i =>
    .hwComplete i ⟨3 ||| (2 <<< 10) ||| (seqs i <<< 16), 0, 0, 0, 1, 60⟩ []) ++
    List.replicate 4 (.pass ⟨true, true⟩)

/-- Two frames in the wrong order, one of them again, and one ahead of a gap. -/
def fourSeqs (i : ℕ) : ℕ := [1, 0, 0, 3].getD i 0

/-- Two of the four are handed over, one is freed, and one is stored. -/
theorem rxPath_conserves_four :
    ∃ s : RxPath, RxAccounted s ∧ s.reaped.length = 4 ∧ (handedOver s.trace).length = 2 ∧
      (freed s.trace).length = 1 ∧ s.stored.length = 1 := by
  have hrun : (Machine.exec RxPath.step RxPath.Defined pathOfEight
      (sessionAsked 4096 ++ .station sessionGranted :: fourFrames fourSeqs)).map
        (fun s => (s.reaped.length, (handedOver s.trace).length, (freed s.trace).length,
          s.stored.length)) = some (4, 2, 1, 1) := by
    decide +kernel
  obtain ⟨s, hs, hend⟩ := Option.map_eq_some_iff.mp hrun
  simp only [Prod.mk.injEq] at hend
  exact ⟨s, rxPath_conserves (by norm_num) (.of_exec hs), hend⟩

/-! ## Independence -/

/-- What a session emits are frames of its own. -/
lemma emitted_own {u : SessionKey → Option WilTidAmpduRx} {a : SessionKey × SessionInput}
    (hu : SessionsFine u) (hfits : SessionFits u a) :
    ∀ x ∈ (product sessionStep u a).2, ∀ f, f ∈ handedOver [x.2] ∨ f ∈ freed [x.2] →
      f.key = x.1 := by
  intro x hx f hf
  obtain ⟨e, he, rfl⟩ := List.mem_map.mp hx
  have hpos : 0 < copiesIn f e := by
    rcases hf with hf | hf
    · exact Nat.add_pos_left (List.count_pos_iff.mpr hf) _
    · exact Nat.add_pos_right _ (List.count_pos_iff.mpr hf)
  have hle : copiesIn f e ≤ ((sessionStep (u a.1) a.2).2.map (copiesIn f)).sum :=
    List.single_le_sum (by simp) _ (List.mem_map_of_mem he)
  have hbalance := sessionStep_balance hu hfits f
  -- a frame that comes out was stored, or has just come in
  have hor : f ∈ sessionFrames (u a.1) ∨ 0 < copiesOf f a.2 := by
    rcases Nat.eq_zero_or_pos ((sessionFrames (u a.1)).count f) with hzero | hin
    · exact .inr (by omega)
    · exact .inl (List.count_pos_iff.mp hin)
  rcases hor with hin | hcame
  · cases hr : u a.1 with
    | none => simp [sessionFrames, hr] at hin
    | some r =>
        rw [hr] at hin
        exact Prod.ext_iff.mpr ((hu a.1 r hr).own f hin)
  · obtain ⟨k, a⟩ := a
    cases a with
    | frame skb =>
        simp only [copiesOf] at hcame
        split_ifs at hcame with hskb
        · exact hskb ▸ hfits.1
        · exact absurd hcame (lt_irrefl 0)
    | free => exact absurd hcame (lt_irrefl 0)
    | alloc ok size ssn => exact absurd hcame (lt_irrefl 0)

/-- Reading the frames of one key off a trace. -/
lemma filter_tagged (g : List RxEvent → List RxSkb)
    (hg : ∀ es fs, g (es ++ fs) = g es ++ g fs) (hnil : g [] = [])
    {es : List (SessionKey × RxEvent)} (h : ∀ x ∈ es, ∀ f ∈ g [x.2], f.key = x.1) (k : SessionKey) :
    (g (es.map Prod.snd)).filter (·.key = k) = g (part k es) := by
  induction es with
  | nil => simp [hnil]
  | cons x es ih =>
      have hx := h x List.mem_cons_self
      rw [List.map_cons, ← List.singleton_append, hg, List.filter_append,
        ih fun y hy => h y (List.mem_cons_of_mem _ hy), Machine.part_cons]
      split_ifs with hk
      · rw [← List.singleton_append (l := part k es), hg, List.filter_eq_self.mpr]
        intro f hf
        simp [hx f hf, hk]
      · rw [List.filter_eq_nil_iff.mpr, List.nil_append]
        intro f hf
        simp [hx f hf, hk]

/-- Of a trace and of the inputs, what is for one session. -/
lemma SessionLog.session {w : Wil} {trace : List RxEvent}
    {inputs : List (SessionKey × SessionInput)} (h : SessionLog w trace inputs) (k : SessionKey) :
    w.sessions k = (Machine.run sessionStep none (part k inputs)).1 ∧
      (handedOver trace).filter (·.key = k)
        = handedOver (Machine.run sessionStep none (part k inputs)).2 ∧
      (freed trace).filter (·.key = k)
        = freed (Machine.run sessionStep none (part k inputs)).2 := by
  obtain ⟨hstate, hout⟩ : (Machine.run (Machine.product sessionStep) noSessions inputs).1 k = _ ∧
      part k (Machine.run (Machine.product sessionStep) noSessions inputs).2 = _ :=
    Machine.run_product noSessions inputs k
  have hown := h.sessions.forall_emitted (I := SessionsFine)
    (Q := fun x => ∀ f, f ∈ handedOver [x.2] ∨ f ∈ freed [x.2] → f.key = x.1)
    (fun _ _ hu hfits => hu.step hfits) (fun _ _ hu hfits => emitted_own hu hfits)
    sessionsFine_none
  refine ⟨?_, ?_, ?_⟩
  · rw [h.sessions.eq_run, hstate]
    rfl
  · rw [h.trace, filter_tagged handedOver handedOver_append rfl
      (fun x hx f hf => hown x hx f (.inl hf)), hout]
    rfl
  · rw [h.trace, filter_tagged freed freed_append rfl
      (fun x hx f hf => hown x hx f (.inr hf)), hout]
    rfl

/-- The frames of a session are those with its station and its TID. -/
lemma frames_part {inputs : List (SessionKey × SessionInput)}
    (h : ∀ k skb, (k, .frame skb) ∈ inputs → skb.key = k) (k : SessionKey) :
    (part k inputs).filterMap SessionInput.skb?
      = (inputFrames inputs).filter (·.key = k) := by
  induction inputs with
  | nil => rfl
  | cons a inputs ih =>
      have hrest := ih fun j skb hj => h j skb (List.mem_cons_of_mem _ hj)
      obtain ⟨j, a⟩ := a
      rw [Machine.part_cons]
      cases a with
      | frame skb =>
          have hkey := h j skb List.mem_cons_self
          show _ = (skb :: inputFrames inputs).filter (·.key = k)
          rw [List.filter_cons, hkey, ← hrest]
          split_ifs with hj hj' hj'
          · rfl
          · exact absurd hj (by simpa using hj')
          · exact absurd (by simpa using hj') hj
          · rfl
      | free => split_ifs <;> exact hrest
      | alloc ok size ssn => split_ifs <;> exact hrest

/-- Every frame is for its own session. -/
lemma SessionLog.key_eq {w : Wil} {trace : List RxEvent}
    {inputs : List (SessionKey × SessionInput)} (h : SessionLog w trace inputs) {k : SessionKey}
    {skb : RxSkb} (hmem : (k, .frame skb) ∈ inputs) : skb.key = k := by
  obtain ⟨u, hfits⟩ := h.sessions.met hmem
  exact hfits.1

/-- A session has at most 255 slots, and starts at a number of 12 bits. -/
lemma SessionLog.bounds {w : Wil} {trace : List RxEvent}
    {inputs : List (SessionKey × SessionInput)} (h : SessionLog w trace inputs) {k : SessionKey}
    {ok : Bool} {size ssn : ℕ} (hmem : (k, .alloc ok size ssn) ∈ inputs) :
    size < 256 ∧ ssn < 4096 := by
  obtain ⟨u, hfits⟩ := h.sessions.met hmem
  exact hfits

/-- The session, and what it handed over and freed, are what the machine of the session makes of
its own inputs. -/
structure OwnFramesOnly (s : RxPath) (k : SessionKey) : Prop where
  table : s.wil.sessions k = (Machine.run sessionStep none (part k s.inputs)).1
  delivered : (handedOver s.trace).filter (·.key = k)
    = handedOver (Machine.run sessionStep none (part k s.inputs)).2
  dropped : (freed s.trace).filter (·.key = k)
    = freed (Machine.run sessionStep none (part k s.inputs)).2
  /-- Its frames are those with its station and its TID, in the order of the ring. -/
  frames : (part k s.inputs).filterMap SessionInput.skb? = s.reordered.filter (·.key = k)
  sub : s.reordered.Sublist (s.reaped.map RxBuf.toSkb)

/-- **A session depends on nothing but its own frames.**  In every run that C defines, and for every
station and TID: whatever else was received, connected, disconnected, asked for or sent, the session
and what it hands over and frees are those of a machine that sees only what is for it. -/
theorem rxPath_independent {rx : RxState} {size : ℕ} (hsize : 2 ≤ size) {iftype : Iftype}
    {devAddr : Option MacAddr} {as : List RxPathAction}
    (h : Machine.Exec RxPath.step RxPath.Defined (RxPath.init rx size iftype devAddr) as s)
    (k : SessionKey) : OwnFramesOnly s k := by
  have hinv := rxPathInv_run (by omega) h
  obtain ⟨htable, hdelivered, hdropped⟩ := hinv.log.session k
  refine ⟨htable, hdelivered, hdropped, ?_, hinv.sub⟩
  rw [frames_part (fun j skb hj => hinv.log.key_eq hj), hinv.frames]

/-- The session of station 0 and TID 3 has seen its four frames. -/
theorem rxPath_independent_four :
    ∃ s : RxPath, OwnFramesOnly s (0, 3) ∧ (s.reordered.filter (·.key = (0, 3))).length = 4 := by
  have hrun : (Machine.exec RxPath.step RxPath.Defined pathOfEight
      (sessionAsked 4096 ++ .station sessionGranted :: fourFrames fourSeqs)).map
        (fun s => (s.reordered.filter (·.key = (0, 3))).length) = some 4 := by
    decide +kernel
  obtain ⟨s, hs, hend⟩ := Option.map_eq_some_iff.mp hrun
  exact ⟨s, rxPath_independent (by norm_num) (.of_exec hs) (0, 3), hend⟩

/-! ## Order -/

/-- The step neither makes the session nor frees it. -/
def Keeps (k : SessionKey) (s : RxPath) : RxPathAction → Prop
  | .station a => ∀ x ∈ s.station.inputs a, x.1 ≠ k
  | _ => True

instance (k : SessionKey) (s : RxPath) : (a : RxPathAction) → Decidable (Keeps k s a)
  | .station a => inferInstanceAs (Decidable (∀ x ∈ s.station.inputs a, x.1 ≠ k))
  | .refill _ _ | .hwComplete _ _ _ | .pass _ => inferInstanceAs (Decidable True)

/-- A step that makes a session does nothing else to it. -/
lemma part_inputs {u : StationSys} {a : StationAction} {k : SessionKey} {ok : Bool} {size ssn : ℕ}
    (h : (k, .alloc ok size ssn) ∈ u.inputs a) :
    part k (u.inputs a) = [.alloc ok size ssn] ∧ ∀ bssid, a ≠ .back (.conn bssid) := by
  have hfree : ∀ cids : List Cid, (k, .alloc ok size ssn) ∉ cids.flatMap freeInputs := by
    intro cids hmem
    obtain ⟨c, -, hmem⟩ := List.mem_flatMap.mp hmem
    obtain ⟨i, -, hi⟩ := List.mem_map.mp hmem
    exact absurd (Prod.mk.inj hi).2 (by simp)
  cases a with
  | back a =>
      cases a with
      | conn a =>
          cases a with
          | disconnect bssid => exact absurd h (hfree _)
          | _ => exact absurd h (by simp [StationSys.inputs])
      | backReply reply allocOk =>
          refine ⟨?_, by simp⟩
          simp only [StationSys.inputs] at h ⊢
          split at h
          · split_ifs at h ⊢
            · exact absurd h (by simp)
            · obtain heq := List.mem_singleton.mp h
              rw [← heq, Machine.part_cons, if_pos rfl]
              rfl
          · exact absurd h (by simp)
      | baStatus evt allocOk =>
          refine ⟨?_, by simp⟩
          simp only [StationSys.inputs] at h ⊢
          split at h
          · rename_i ringid cid _
            obtain ⟨i, -, hi⟩ := List.mem_map.mp h
            obtain ⟨rfl, hx⟩ := Prod.mk.inj hi
            have hinj : Function.Injective fun i : Fin 16 => ((cid, i) : SessionKey) :=
              fun i j hij => (Prod.mk.inj hij).2
            rw [Machine.part_map _ hinj _ (List.nodup_finRange 16) i,
              if_pos (List.mem_finRange i), hx]
          · exact absurd h (by simp)
      | rx skb =>
          obtain heq := List.mem_singleton.mp h
          exact absurd (Prod.mk.inj heq).2 (by simp)
      | _ => exact absurd h (by simp [StationSys.inputs])
  | disconnect bssid =>
      cases bssid with
      | none => exact absurd h (by simp [StationSys.inputs])
      | some mac => exact absurd h (hfree _)
  | _ => exact absurd h (by simp [StationSys.inputs])

/-- What a run adds to the trace and to the inputs. -/
structure Grown (k : SessionKey) (s t : RxPath) (es : List RxEvent)
    (as : List (SessionKey × SessionInput)) (fs : List RxSkb) : Prop where
  trace : t.trace = s.trace ++ es
  inputs : t.inputs = s.inputs ++ as
  frames : part k as = fs.map .frame

/-- A step that leaves the session adds frames, if anything, to its inputs. -/
lemma grown_step {k : SessionKey} {a : RxPathAction} (hkeeps : Keeps k s a)
    (ht : s.step a = some t) : ∃ es as fs, Grown k s t es as fs := by
  cases a with
  | refill count outcome =>
      simp only [RxPath.step, Option.map_eq_some_iff] at ht
      obtain ⟨ring, -, rfl⟩ := ht
      exact ⟨[], [], [], by simp, by simp, rfl⟩
  | hwComplete i w data =>
      simp only [RxPath.step, Option.map_eq_some_iff] at ht
      obtain ⟨ring, -, rfl⟩ := ht
      exact ⟨[], [], [], by simp, by simp, rfl⟩
  | pass ndev =>
      simp only [RxPath.step, Option.bind_eq_some_iff] at ht
      obtain ⟨ring, -, ht⟩ := ht
      cases hret : (wilVringReapRx ndev s.ring.rx).2.2 with
      | none =>
          rw [hret] at ht
          obtain rfl := Option.some.inj ht
          exact ⟨[], [], [], by simp, by simp, rfl⟩
      | some skb =>
          rw [hret] at ht
          simp only [RxPath.handover, rxHandover] at ht
          split at ht
          · obtain rfl := Option.some.inj ht
            exact ⟨[], [], [], by simp, by simp, rfl⟩
          · obtain ⟨w, -, rfl⟩ := Option.map_eq_some_iff.mp ht
            rename_i skb' _
            refine ⟨_, _, if skb'.toSkb.key = k then [skb'.toSkb] else [], rfl, rfl, ?_⟩
            show part k [(skb'.toSkb.key, SessionInput.frame skb'.toSkb)] = _
            rw [Machine.part_cons]
            split_ifs <;> rfl
  | station a =>
      simp only [RxPath.step, Option.ite_none_left_eq_some] at ht
      obtain ⟨w, -, rfl⟩ := Option.map_eq_some_iff.mp ht.2
      exact ⟨_, _, [], rfl, rfl, Machine.part_eq_nil hkeeps⟩

/-- And so does a run. -/
lemma grown_run {k : SessionKey} {G : RxPath → RxPathAction → Prop} {bs : List RxPathAction}
    (h : Machine.Exec RxPath.step (fun s a => G s a ∧ Keeps k s a) s bs t) :
    ∃ es as fs, Grown k s t es as fs := by
  refine h.invariant (I := fun t => ∃ es as fs, Grown k s t es as fs) ?_
    ⟨[], [], [], by simp, by simp, rfl⟩
  rintro u a v ⟨-, hkeeps⟩ hv ⟨es, as, fs, hgrown⟩
  obtain ⟨es', as', fs', hgrown'⟩ := grown_step hkeeps hv
  refine ⟨es ++ es', as ++ as', fs ++ fs', ?_, ?_, ?_⟩
  · rw [hgrown'.trace, hgrown.trace, List.append_assoc]
  · rw [hgrown'.inputs, hgrown.inputs, List.append_assoc]
  · rw [Machine.part_append, hgrown.frames, hgrown'.frames, List.map_append]

/-- A session that only gets frames. -/
lemma run_frames (o : Option WilTidAmpduRx) (fs : List RxSkb) :
    Machine.run sessionStep o (fs.map .frame) = Machine.run wilRxReorder o fs := by
  induction fs generalizing o with
  | nil => rfl
  | cons skb fs ih =>
      rw [List.map_cons, Machine.run_cons, Machine.run_cons, sessionStep, ih]

/-- The frames that are delivered are those that are handed over. -/
lemma deliveries_snd (es : List RxEvent) (H : ℕ) :
    (deliveries H es).map Prod.snd = handedOver es := by
  induction es generalizing H with
  | nil => rfl
  | cons e es ih =>
      rcases e with (_ | skb) | skb | skb | skb
      · exact ih (H + 1)
      · exact congrArg (skb :: ·) (ih (H + 1))
      · exact congrArg (skb :: ·) (ih H)
      · exact ih H
      · exact ih H

/-- The head never moves back. -/
lemma le_headAfter (es : List RxEvent) (H : ℕ) : H ≤ headAfter H es := by
  induction es generalizing H with
  | nil => exact le_rfl
  | cons e es ih =>
      cases e with
      | headInc o => exact le_trans (Nat.le_succ H) (ih (H + 1))
      | _ => exact ih H

/-- In an orderly trace every delivery is behind the head that it leaves. -/
lemma Orderly.lt_headAfter {es : List RxEvent} :
    ∀ {H : ℕ}, Orderly H es → ∀ d ∈ deliveries H es, d.1 < headAfter H es := by
  induction es with
  | nil => rintro H - d hd; simp [deliveries] at hd
  | cons e es ih =>
      rintro H ho d hd
      rcases e with (_ | skb) | skb | skb | skb <;>
        simp only [deliveries, Orderly, List.mem_cons, headAfter] at hd ho ⊢
      · exact ih ho d hd
      · rcases hd with rfl | hd
        · exact le_headAfter es (H + 1)
        · exact ih ho.2 d hd
      · exact ih ho d hd
      · exact ih ho d hd

/-- The frames `fs` were handed over in order, from `ssn` on: their sequence numbers are those of
increasing positions, all of them behind the head of the session. -/
structure DeliveredInOrder (ssn : ℕ) (fs : List RxSkb) (r : WilTidAmpduRx) : Prop where
  headEmpty : HeadEmpty r
  counts : ∃ (H : ℕ) (ns : List ℕ), r.headSeqNum = H % 4096 ∧ ns.Pairwise (· < ·) ∧
    (∀ n ∈ ns, ssn ≤ n ∧ n < H) ∧ fs.map RxSkb.seq = ns.map (· % 4096)

end Wil6210
