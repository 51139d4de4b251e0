import Wil6210.Rx.RingOwnership

/-!
# Polling the Rx ring

`wil_rx_handle` reaps frames until the quota is used up or `wil_vring_reap_rx` returns NULL, and then
refills the ring.  `wil_vring_reap_rx` returns NULL where there is nothing more to do, and also where
it has taken a frame from the ring and dropped it, because it is not a data frame or too short.  So
a dropped frame ends the poll, whatever lies behind it.

`rxDrained_iff` says when the poll is right all the same: the first frame that is dropped, if the
quota reaches one, is the last that the hardware has completed (`BurstEnds`).
-/

namespace Wil6210

/-! ## The poll -/

/-- What `wil_rx_handle` does with a frame: in monitor mode it goes to `wil_netif_rx_any`, else to
`wil_rx_reorder`. -/
inductive RxHandover
  | netifRxAny (skb : RxBuf)
  | rxReorder (skb : RxBuf)
  deriving DecidableEq, Repr

/-- Hand over one frame; `monitor` is `wdev->iftype == NL80211_IFTYPE_MONITOR`. -/
def rxHandover (monitor : Bool) (skb : RxBuf) : RxHandover :=
  if monitor then .netifRxAny { skb with csumUnnecessary := true } else .rxReorder skb

/-- The loop of `wil_rx_handle`; the first argument is what is left of the quota. -/
def rxHandleLoop (ndev : RxNdev) (monitor : Bool) :
    ℕ → RxState → RxState × List RxRingEvent × List RxHandover
  | 0, s => (s, [], [])
  | n + 1, s =>
      let r := wilVringReapRx ndev s
      match r.2.2 with
      | none => (r.1, r.2.1, [])
      | some skb =>
          let q := rxHandleLoop ndev monitor n r.1
          (q.1, r.2.1 ++ q.2.1, rxHandover monitor skb :: q.2.2)

/-- What a call of `wil_rx_handle` leaves: the driver, the trace, the frames handed over, and what
is left of the quota. -/
structure RxHandled where
  rx : RxState
  events : List RxRingEvent
  frames : List RxHandover
  quota : ℤ

/-- `wil_rx_handle` -/
def wilRxHandle (ndev : RxNdev) (monitor : Bool) (s : RxState) (quota : ℤ)
    (outcome : ℕ → RxAlloc) : RxHandled :=
  if ¬ s.vring.va then ⟨s, [], [], quota⟩
  else
    let p := rxHandleLoop ndev monitor quota.toNat s
    let r := wilRxRefill p.1 p.1.vring.size outcome
    ⟨r.1, p.2.1 ++ r.2.1, p.2.2, quota - p.2.2.length⟩

/-- `wil6210_netdev_poll_rx`: what `wil_rx_handle` left, `done`, and whether the poll completes NAPI
and unmasks the Rx interrupt. -/
def wil6210NetdevPollRx (ndev : RxNdev) (monitor : Bool) (s : RxState) (budget : ℤ)
    (outcome : ℕ → RxAlloc) : RxHandled × ℤ × Bool :=
  let h := wilRxHandle ndev monitor s budget outcome
  let done := budget - h.quota
  (h, done, done ≤ 1)

/-! ## The burst -/

variable {ndev : RxNdev} {monitor : Bool} {s : RxState} {H : ℕ} {held : List (ℕ × ℕ)}

/-- Slot number `k` from `swhead` on. -/
def RxVring.ahead (v : RxVring) (k : ℕ) : ℕ := (v.swhead + k) % v.size

/-- The hardware has completed the buffer in slot number `k`. -/
def RxVring.CompletedAt (v : RxVring) (k : ℕ) : Prop := k < v.used ∧ (v.desc (v.ahead k)).du

/-- `wil_vring_reap_rx` drops the frame: it is not a data frame, or a short one. -/
def RxDrops (ndev : RxNdev) (skb : RxBuf) (d : RxRingDesc) : Prop :=
  ndev.ether ∧ (wilRxdescFtype d <<< 2 ≠ ieee80211FtypeData ∨ (rxTrim skb d).len < ethHlen)

instance (ndev : RxNdev) (skb : RxBuf) (d : RxRingDesc) : Decidable (RxDrops ndev skb d) :=
  inferInstanceAs (Decidable (_ ∧ (_ ∨ _)))

/-- The frame in slot number `k` is one that is dropped. -/
def RxVring.DroppedAt (ndev : RxNdev) (v : RxVring) (k : ℕ) : Prop :=
  ∃ skb, v.ctx (v.ahead k) = some skb ∧ RxDrops ndev skb (v.desc (v.ahead k))

/-- The first dropped frame of the completed ones, if it is among the first `quota`, is the last. -/
def BurstEnds (ndev : RxNdev) (v : RxVring) (quota : ℕ) : Prop :=
  ∀ k < quota, (∀ j < k, v.CompletedAt j ∧ ¬ v.DroppedAt ndev j) →
    v.CompletedAt k → v.DroppedAt ndev k → ¬ v.CompletedAt (k + 1)

/-- Nothing is left to do: the ring is empty, or the buffer at `swhead` is not completed. -/
def RxVring.Drained (v : RxVring) : Prop := v.isEmpty ∨ ¬ (v.desc v.swhead).du

lemma RxHolds.isEmpty_iff (h : RxHolds s.vring H held) : s.vring.isEmpty ↔ held = [] := by
  have hlt := h.lt
  rw [RxVring.isEmpty, h.head_eq, h.tail_eq]
  constructor
  · intro heq
    by_contra hne
    have hpos := List.length_pos_iff.mpr hne
    exact Circular.ne_of_window (show H < H + held.length by omega) (by omega) heq
  · rintro rfl
    rfl

lemma RxHolds.ahead_zero (h : RxHolds s.vring H held) : s.vring.ahead 0 = s.vring.swhead := by
  rw [RxVring.ahead, Nat.add_zero, h.head_eq, Nat.mod_mod]

/-- The ring is drained where slot number 0 is not completed. -/
lemma RxHolds.drained_iff (h : RxHolds s.vring H held) :
    s.vring.Drained ↔ ¬ s.vring.CompletedAt 0 := by
  rw [RxVring.Drained, RxVring.CompletedAt, h.isEmpty_iff, h.ahead_zero, h.used_eq, not_and_or,
    Nat.pos_iff_ne_zero, not_not, List.length_eq_zero_iff]

/-! ## One pass -/

/-- The ring behind the buffer at `swhead`. -/
def RxVring.taken (v : RxVring) : RxVring :=
  { v.setCtx v.swhead none with swhead := (v.swhead + 1) % v.size }

variable (ndev) in
/-- A completed frame is taken from the ring, and dropped or returned. -/
lemma wilVringReapRx_completed (h : RxHolds s.vring H held) (hdone : s.vring.CompletedAt 0) :
    (wilVringReapRx ndev s).1 = { s with vring := s.vring.taken } ∧
      ((wilVringReapRx ndev s).2.2 = none ↔ s.vring.DroppedAt ndev 0) := by
  have hne : ¬ s.vring.isEmpty := fun he => h.drained_iff.mp (.inl he) hdone
  have hdu : (s.vring.desc s.vring.swhead).du := h.ahead_zero ▸ hdone.2
  obtain ⟨skb, hskb⟩ : ∃ skb, s.vring.ctx s.vring.swhead = some skb := by
    obtain ⟨skb, hskb, -⟩ := h.slot 0 (by rw [← h.used_eq]; exact hdone.1)
    exact ⟨skb, by rw [h.head_eq, ← hskb, Nat.add_zero]⟩
  have hdrops : s.vring.DroppedAt ndev 0 ↔ RxDrops ndev skb (s.vring.desc s.vring.swhead) := by
    simp [RxVring.DroppedAt, h.ahead_zero, hskb]
  rw [hdrops]
  simp only [wilVringReapRx, if_neg hne, hdu, not_true_eq_false, if_false, hskb, RxDrops]
  by_cases hether : ndev.ether = true
  · by_cases hftype : wilRxdescFtype (s.vring.desc s.vring.swhead) <<< 2 ≠ ieee80211FtypeData
    · simp [hether, hftype, RxVring.taken]
    · by_cases hshort : (rxTrim skb (s.vring.desc s.vring.swhead)).len < ethHlen
      · simp [hether, hftype, hshort, RxVring.taken]
      · simp [hether, hftype, hshort, RxVring.taken]
  · simp [hether, RxVring.taken]

variable (ndev) in
/-- Where slot number 0 is not completed nothing happens. -/
lemma wilVringReapRx_drained (h : s.vring.Drained) :
    (wilVringReapRx ndev s).1 = s ∧ (wilVringReapRx ndev s).2.2 = none := by
  by_cases hempty : s.vring.isEmpty
  · rw [wilVringReapRx, if_pos hempty]
    exact ⟨rfl, rfl⟩
  · rw [wilVringReapRx, if_neg hempty, if_pos (h.resolve_left hempty)]
    exact ⟨rfl, rfl⟩

/-- What the ring holds behind the buffer at `swhead`. -/
lemma RxHolds.taken (h : RxHolds s.vring H held) (hdone : s.vring.CompletedAt 0) :
    RxHolds s.vring.taken (H + 1) held.tail ∧ s.vring.taken.used + 1 = s.vring.used := by
  cases held with
  | nil =>
      have hused := h.used_eq
      have hpos := hdone.1
      rw [hused] at hpos
      exact absurd hpos (by simp)
  | cons b rest =>
      have htake : RxHolds s.vring.taken (H + 1) rest := h.take
      exact ⟨htake, by rw [htake.used_eq, h.used_eq, List.length_cons]⟩

/-- The slots behind are numbered one less. -/
lemma ahead_taken (v : RxVring) (k : ℕ) : v.taken.ahead k = v.ahead (k + 1) := by
  simp only [RxVring.ahead, RxVring.taken, RxVring.setCtx, Nat.mod_add_mod]
  congr 1
  omega

lemma completedAt_taken (h : RxHolds s.vring H held) (hdone : s.vring.CompletedAt 0) (k : ℕ) :
    s.vring.taken.CompletedAt k ↔ s.vring.CompletedAt (k + 1) := by
  have hused := (h.taken hdone).2
  rw [RxVring.CompletedAt, RxVring.CompletedAt, ahead_taken]
  refine and_congr ?_ Iff.rfl
  omega

lemma droppedAt_taken (h : RxHolds s.vring H held) {k : ℕ} (hk : s.vring.CompletedAt (k + 1)) :
    s.vring.taken.DroppedAt ndev k ↔ s.vring.DroppedAt ndev (k + 1) := by
  have hlt := h.lt
  have hkused := hk.1
  rw [h.used_eq] at hkused
  have hne : s.vring.ahead (k + 1) ≠ s.vring.swhead := by
    rw [RxVring.ahead, h.head_eq, Nat.mod_add_mod]
    exact (Circular.ne_of_window (by omega) (by omega)).symm
  rw [RxVring.DroppedAt, RxVring.DroppedAt, ahead_taken]
  simp [RxVring.taken, RxVring.setCtx, hne]

/-- A frame that is handed over leaves the rest of the burst, with a quota of one less. -/
lemma burstEnds_taken (h : RxHolds s.vring H held) (hdone : s.vring.CompletedAt 0)
    (hkept : ¬ s.vring.DroppedAt ndev 0) (n : ℕ) :
    BurstEnds ndev s.vring.taken n ↔ BurstEnds ndev s.vring (n + 1) := by
  have hshift := completedAt_taken h hdone
  constructor
  · rintro hburst (_ | k) hk hbefore hcomp hdrop
    · exact absurd hdrop hkept
    · rw [← hshift]
      refine hburst k (by omega) (fun j hj => ?_) ((hshift k).mpr hcomp)
        ((droppedAt_taken h hcomp).mpr hdrop)
      obtain ⟨hj', hkeep⟩ := hbefore (j + 1) (by omega)
      exact ⟨(hshift j).mpr hj', fun hd => hkeep ((droppedAt_taken h hj').mp hd)⟩
  · rintro hburst k hk hbefore hcomp hdrop
    have hcomp' := (hshift k).mp hcomp
    rw [hshift]
    refine hburst (k + 1) (by omega) (fun j hj => ?_) hcomp' ((droppedAt_taken h hcomp').mp hdrop)
    cases j with
    | zero => exact ⟨hdone, hkept⟩
    | succ j =>
        obtain ⟨hj', hkeep⟩ := hbefore j (by omega)
        have hj'' := (hshift j).mp hj'
        exact ⟨hj'', fun hd => hkeep ((droppedAt_taken h hj'').mpr hd)⟩

/-! ## The loop -/

variable (ndev monitor) in
/-- **The loop drains the ring or uses up the quota** where the first dropped frame is the last of
the burst, and only there. -/
lemma rxHandleLoop_spec (n : ℕ) :
    ∀ {s : RxState} {H : ℕ} {held : List (ℕ × ℕ)}, RxHolds s.vring H held →
      (∃ H' held', RxHolds (rxHandleLoop ndev monitor n s).1.vring H' held') ∧
      (rxHandleLoop ndev monitor n s).2.2.length ≤ n ∧
      (((rxHandleLoop ndev monitor n s).2.2.length = n ∨
          (rxHandleLoop ndev monitor n s).1.vring.Drained) ↔ BurstEnds ndev s.vring n) := by
  induction n with
  | zero =>
      intro s H held h
      refine ⟨⟨H, held, h⟩, le_rfl, ⟨fun _ k hk => absurd hk (Nat.not_lt_zero k), fun _ => ?_⟩⟩
      exact .inl rfl
  | succ n ih =>
      intro s H held h
      by_cases hdone : s.vring.CompletedAt 0
      · obtain ⟨hstate, hnull⟩ := wilVringReapRx_completed ndev h hdone
        obtain ⟨htaken, -⟩ := h.taken hdone
        cases hret : (wilVringReapRx ndev s).2.2 with
        | none =>
            -- the frame was dropped, and the loop ends
            have hdrop := hnull.mp hret
            simp only [rxHandleLoop, hret, hstate]
            refine ⟨⟨_, _, htaken⟩, Nat.zero_le _, ?_⟩
            rw [RxHolds.drained_iff (s := { s with vring := s.vring.taken }) htaken,
              completedAt_taken h hdone]
            constructor
            · rintro (hlen | hrest)
              · exact absurd hlen (by simp)
              · rintro (_ | k) hk hbefore hcomp -
                · exact hrest
                · exact absurd hdrop (hbefore 0 (Nat.succ_pos k)).2
            · intro hburst
              exact .inr (hburst 0 (Nat.succ_pos n) (by simp) hdone hdrop)
        | some skb =>
            have hkept : ¬ s.vring.DroppedAt ndev 0 := fun hd => by simp [hnull.mpr hd] at hret
            obtain ⟨hholds, hle, hiff⟩ := ih (s := { s with vring := s.vring.taken }) htaken
            simp only [rxHandleLoop, hret, hstate, List.length_cons]
            refine ⟨hholds, by omega, ?_⟩
            rw [← burstEnds_taken h hdone hkept, ← hiff, Nat.add_right_cancel_iff]
      · have hdrained := h.drained_iff.mpr hdone
        obtain ⟨hstate, hnull⟩ := wilVringReapRx_drained ndev hdrained
        simp only [rxHandleLoop, hnull, hstate]
        refine ⟨⟨H, held, h⟩, Nat.zero_le _, ⟨fun _ => ?_, fun _ => .inr hdrained⟩⟩
        rintro (_ | k) hk hbefore hcomp -
        · exact absurd hcomp hdone
        · exact absurd (hbefore 0 (Nat.succ_pos k)).1 hdone

/-- A refill of a ring that is not empty leaves the descriptor at `swhead`. -/
lemma desc_swhead_rxRefillLoop (outcome : ℕ → RxAlloc) (n : ℕ) :
    ∀ {s : RxState}, ¬ s.vring.isEmpty →
      (rxRefillLoop outcome n s).1.vring.swhead = s.vring.swhead ∧
        (rxRefillLoop outcome n s).1.vring.desc s.vring.swhead
          = s.vring.desc s.vring.swhead := by
  induction n with
  | zero =>
      intro s _
      exact ⟨rfl, rfl⟩
  | succ n ih =>
      intro s hne
      by_cases hfull : s.vring.nextTail = s.vring.swhead
      · rw [rxRefillLoop, if_pos hfull]
        exact ⟨rfl, rfl⟩
      · cases hout : outcome s.allocs with
        | noSkb =>
            rw [rxRefillLoop, if_neg hfull, hout]
            exact ⟨rfl, rfl⟩
        | noMapping =>
            rw [rxRefillLoop, if_neg hfull, hout]
            exact ⟨rfl, rfl⟩
        | mapped pa =>
            have hloop : (rxRefillLoop outcome (n + 1) s).1
                = (rxRefillLoop outcome n (rxPosted s pa)).1 := by
              rw [rxRefillLoop, if_neg hfull, hout]
              rfl
            obtain ⟨hhead, hdesc⟩ := ih (s := rxPosted s pa) (fun he => hfull he.symm)
            have hslot : (rxPosted s pa).vring.desc s.vring.swhead
                = s.vring.desc s.vring.swhead := Function.update_of_ne hne _ _
            rw [hloop]
            exact ⟨hhead, hdesc.trans hslot⟩

/-! ## Nothing is left behind -/

/-- **The poll leaves nothing behind**: when `wil_rx_handle` returns, the quota is used up, or the
ring was empty before the refill, or the buffer at `swhead` is not completed; and the poll does not
complete NAPI with quota left and a completed buffer there. -/
def RxDrained (ndev : RxNdev) (monitor : Bool) (s : RxState) (budget : ℤ)
    (outcome : ℕ → RxAlloc) : Prop :=
  let before := (rxHandleLoop ndev monitor budget.toNat s).1.vring
  let h := wilRxHandle ndev monitor s budget outcome
  let nothing := before.isEmpty ∨ ¬ (h.rx.vring.desc h.rx.vring.swhead).du
  (h.quota ≤ 0 ∨ nothing) ∧
    ((wil6210NetdevPollRx ndev monitor s budget outcome).2.2 = true → 0 < h.quota → nothing)

instance (ndev : RxNdev) (monitor : Bool) (s : RxState) (budget : ℤ) (outcome : ℕ → RxAlloc) :
    Decidable (RxDrained ndev monitor s budget outcome) :=
  inferInstanceAs (Decidable (_ ∧ (_ → _ → _)))

/-- **When the poll leaves nothing behind**: for every content of the ring, every mix of frames and
every quota, where the first frame that is dropped is the last that is completed, and only there. -/
theorem rxDrained_iff {size : ℕ} {start : RxState} {t : RxSys} (hsize : 2 ≤ size)
    {as : List RxAction}
    (h : Machine.Exec RxSys.step (fun _ _ => True) (RxSys.init start size) as t)
    (ndev : RxNdev) (monitor : Bool) (budget : ℤ) (outcome : ℕ → RxAlloc) :
    RxDrained ndev monitor t.rx budget outcome ↔ BurstEnds ndev t.rx.vring budget.toNat := by
  have hinv : RxRingInv size t := h.invariant (fun _ _ _ _ hu hi => hi.step hu)
    (rxRingInv_init start (by omega))
  obtain ⟨-, hle, hiff⟩ :=
    rxHandleLoop_spec ndev monitor budget.toNat hinv.holds
  set p := rxHandleLoop ndev monitor budget.toNat t.rx with hp
  set r := wilRxRefill p.1 p.1.vring.size outcome with hr
  have hcall : wilRxHandle ndev monitor t.rx budget outcome
      = ⟨r.1, p.2.1 ++ r.2.1, p.2.2, budget - p.2.2.length⟩ := by
    simp only [wilRxHandle, hinv.va, not_true_eq_false, if_false, ← hp, ← hr]
  have hnothing : (p.1.vring.isEmpty ∨ ¬ (r.1.vring.desc r.1.vring.swhead).du)
      ↔ p.1.vring.Drained := by
    rw [RxVring.Drained]
    refine or_congr_right' fun hne => ?_
    obtain ⟨hhead, hdesc⟩ := desc_swhead_rxRefillLoop outcome (p.1.vring.size : ℤ).toNat hne
    rw [show r.1.vring.swhead = p.1.vring.swhead from hhead,
      show r.1.vring.desc p.1.vring.swhead = p.1.vring.desc p.1.vring.swhead from hdesc]
  rw [RxDrained, hcall, ← hp, ← hiff]
  simp only [hnothing]
  constructor
  · rintro ⟨hquota | hdrained, -⟩
    · exact .inl (by omega)
    · exact .inr hdrained
  · rintro (hlen | hdrained)
    · exact ⟨.inl (by omega), fun _ hleft => absurd hleft (by omega)⟩
    · exact ⟨.inr hdrained, fun _ _ => hdrained⟩

/-- A ring of eight, as `wil_vring_alloc` finds it. -/
def ringOfEight : RxSys :=
  RxSys.init ⟨⟨false, fun _ => ⟨0, 0, 0, 0, 0, 0, 0, 0⟩, 0, 0, 0, 0, fun _ => none⟩, 0⟩ 8

/-- Two frames are completed, the first with the frame type bits `ftype` and the second with
`ftype'`; both have 60 bytes. -/
def twoFrames (ftype ftype' : ℕ) : List RxAction :=
  [.refill 8 fun _ => .mapped ⟨4096, by norm_num⟩, .hwComplete 0 ⟨ftype <<< 10, 0, 0, 0, 1, 60⟩ [],
    .hwComplete 1 ⟨ftype' <<< 10, 0, 0, 0, 1, 60⟩ []]

/-- A data frame, and behind it a frame that is dropped. -/
theorem rxDrained_data_first :
    ∃ t, Machine.Exec RxSys.step (fun _ _ => True) ringOfEight (twoFrames 2 0) t ∧
      BurstEnds ⟨true, true⟩ t.rx.vring 64 := by
  have hrun : (Machine.exec RxSys.step (fun _ _ => True) ringOfEight (twoFrames 2 0)).map
      (fun t => decide (RxDrained ⟨true, true⟩ false t.rx 64 fun _ => .noSkb)) = some true := by
    decide +kernel
  obtain ⟨t, ht, hdrained⟩ := Option.map_eq_some_iff.mp hrun
  exact ⟨t, .of_exec ht, (rxDrained_iff (by norm_num) (.of_exec ht) ⟨true, true⟩ false 64
    fun _ => .noSkb).mp (of_decide_eq_true hdrained)⟩

/-- A frame that is not a data frame, and behind it a data frame: the poll ends with the first, and
completes NAPI. -/
theorem not_rxDrained :
    ¬ ∀ (size : ℕ) (start : RxState) (as : List RxAction) (t : RxSys) (ndev : RxNdev)
      (budget : ℤ) (outcome : ℕ → RxAlloc), 2 ≤ size → ndev.ether = true →
      Machine.Exec RxSys.step (fun _ _ => True) (RxSys.init start size) as t →
      RxDrained ndev false t.rx budget outcome := by
  intro h
  have hrun : (Machine.exec RxSys.step (fun _ _ => True) ringOfEight (twoFrames 0 2)).map
      (fun t => decide (RxDrained ⟨true, true⟩ false t.rx 64 fun _ => .noSkb)) = some false := by
    decide +kernel
  obtain ⟨t, ht, hleft⟩ := Option.map_eq_some_iff.mp hrun
  exact of_decide_eq_false hleft (h 8 _ _ t ⟨true, true⟩ 64 (fun _ => .noSkb) (by norm_num) rfl
    (.of_exec ht))

end Wil6210
