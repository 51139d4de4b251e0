import Wil6210.Driver.State
import Wil6210.Rx.RingMappings

/-!
# The life cycle of the Rx ring

The Rx ring is made by `wil_rx_init` and freed by `wil_rx_fini`.  `wil_rx_fini` is called where the
interface goes down, and only there; `wil_rx_init` is called from two places, where the interface
goes up and where an AP is started on an interface that is up.  Both have failure exits behind it
that leave the ring as it is.

`RxLifecycle` counts the rings: each is known by the number of its allocation, and `freed` lists
those that were freed.  `rxLifeOk_run` says when all is well, which is where no open fails behind
`wil_rx_init`, and where no AP start gets as far as `wil_rx_init`.
-/

namespace Wil6210

/-! ## When `wil_rx_init` succeeds -/

/-- The outcomes of what `wil_rx_init` calls. -/
structure RxInitOutcome where
  allocOk : Bool
  reply : RxChainReply
  outcome : ℕ → RxAlloc

/-- Nothing of it fails: neither an allocation, nor the firmware, nor one of the buffers that fill
the ring, numbered from `allocs` on. -/
def RxInitOutcome.Good (o : RxInitOutcome) (allocs : ℕ) : Prop :=
  o.allocOk = true ∧ o.reply.rc = 0 ∧ o.reply.status = wmiCfgRxChainSuccess ∧
    ∀ k < wil6210RxRingSize - 1, o.outcome (allocs + k) ≠ .noSkb ∧
      o.outcome (allocs + k) ≠ .noMapping

instance (o : RxInitOutcome) (allocs : ℕ) : Decidable (o.Good allocs) :=
  inferInstanceAs (Decidable (_ ∧ _ ∧ _ ∧ _))

section Init

variable {s : RxState} {H : ℕ} {held : List (ℕ × ℕ)}

/-- The refill succeeds where every buffer that fits can be had. -/
lemma rxRefillLoop_rc_iff (outcome : ℕ → RxAlloc) (n : ℕ) :
    ∀ {s : RxState} {held : List (ℕ × ℕ)}, RxHolds s.vring H held →
      ((rxRefillLoop outcome n s).2.2 = 0 ↔
        ∀ k < min n (s.vring.size - 1 - held.length),
          outcome (s.allocs + k) ≠ .noSkb ∧ outcome (s.allocs + k) ≠ .noMapping) := by
  induction n with
  | zero =>
      intro s held h
      simp [rxRefillLoop]
  | succ n ih =>
      intro s held h
      have hlt := h.lt
      by_cases hfull : s.vring.nextTail = s.vring.swhead
      · have hroom := h.nextTail_eq_iff.mp hfull
        rw [rxRefillLoop, if_pos hfull, show min (n + 1) (s.vring.size - 1 - held.length) = 0 by omega]
        simp
      · have hroom := h.nextTail_eq_iff.not.mp hfull
        have hfirst : 0 < min (n + 1) (s.vring.size - 1 - held.length) := by omega
        cases hout : outcome s.allocs with
        | noSkb =>
            rw [rxRefillLoop, if_neg hfull, hout]
            exact ⟨fun hrc => absurd hrc (show eNomem ≠ 0 by decide),
              fun hall => absurd hout (hall 0 hfirst).1⟩
        | noMapping =>
            rw [rxRefillLoop, if_neg hfull, hout]
            exact ⟨fun hrc => absurd hrc (show eNomem ≠ 0 by decide),
              fun hall => absurd hout (hall 0 hfirst).2⟩
        | mapped pa =>
            have hloop : (rxRefillLoop outcome (n + 1) s).2.2
                = (rxRefillLoop outcome n (rxPosted s pa)).2.2 := by
              rw [rxRefillLoop, if_neg hfull, hout]
              rfl
            have hsize : (rxPosted s pa).vring.size = s.vring.size := rfl
            have hallocs : (rxPosted s pa).allocs = s.allocs + 1 := rfl
            rw [hloop, ih (h.post (by omega) pa), hsize, hallocs, List.length_append,
              List.length_singleton]
            constructor
            · intro hall k hk
              rcases Nat.eq_zero_or_pos k with rfl | hpos
              · simp [hout]
              · have hk' := hall (k - 1) (by omega)
                rwa [show s.allocs + 1 + (k - 1) = s.allocs + k by omega] at hk'
            · intro hall k hk
              have hk' := hall (k + 1) (by omega)
              rwa [show s.allocs + (k + 1) = s.allocs + 1 + k by omega] at hk'

/-- **When `wil_rx_init` succeeds, and what it leaves**: a ring if it does, none if not. -/
theorem wilRxInit_spec (s : RxState) (o : RxInitOutcome) :
    ((wilRxInit s o.allocOk o.reply o.outcome).2.2 = 0 ↔ o.Good s.allocs) ∧
      ((wilRxInit s o.allocOk o.reply o.outcome).1.vring.va = true ↔ o.Good s.allocs) := by
  obtain ⟨allocOk, reply, outcome⟩ := o
  cases allocOk with
  | false =>
      have hinit : wilRxInit s false reply outcome
          = ({ s with vring := (rxVringAlloc false { s.vring with size := wil6210RxRingSize }).1 },
              [], eNomem) := rfl
      simp only [hinit]
      exact ⟨by simp [RxInitOutcome.Good, eNomem], by simp [RxInitOutcome.Good, rxVringAlloc]⟩
  | true =>
      obtain ⟨hempty, hva, hsize⟩ := rxInitChained_spec s reply
      have hchain : (rxInitChained s reply).2 = 0 ↔
          reply.rc = 0 ∧ reply.status = wmiCfgRxChainSuccess := by
        simp only [rxInitChained, wmiRxChainAdd]
        split_ifs <;> simp_all [eInval]
      have hrefill : (rxInitRefill s reply outcome).2.2 = 0 ↔ ∀ k < wil6210RxRingSize - 1,
          outcome (s.allocs + k) ≠ .noSkb ∧ outcome (s.allocs + k) ≠ .noMapping := by
        refine (rxRefillLoop_rc_iff (s := { s with vring := (rxInitChained s reply).1 })
          outcome ((rxInitChained s reply).1.size : ℤ).toNat hempty).trans ?_
        simp [hsize, wil6210RxRingSize]
      have hgood : RxInitOutcome.Good ⟨true, reply, outcome⟩ s.allocs ↔
          (rxInitChained s reply).2 = 0 ∧ (rxInitRefill s reply outcome).2.2 = 0 := by
        rw [hchain, hrefill]
        simp only [RxInitOutcome.Good, true_and, and_assoc]
      rw [hgood, wilRxInit_true]
      split_ifs with hc hr
      · exact ⟨⟨fun h => absurd h hc, fun h => absurd h.1 hc⟩,
          ⟨fun h => absurd h (by simp [rxVringFree]), fun h => absurd h.1 hc⟩⟩
      · exact ⟨⟨fun h => absurd h hr, fun h => absurd h.2 hr⟩,
          ⟨fun h => absurd h (by simp [rxVringFree]), fun h => absurd h.2 hr⟩⟩
      · have hva' := (rxInitRefill_spec s reply outcome).1.va_eq
        rw [not_ne_iff] at hc hr
        exact ⟨⟨fun _ => ⟨hc, hr⟩, fun _ => hr⟩, ⟨fun _ => ⟨hc, hr⟩, fun _ => hva'.trans hva⟩⟩

end Init

/-! ## Opening and stopping the interface, starting and stopping an AP -/

/-- `IEEE80211_MAX_SSID_LEN` -/
def ieee80211MaxSsidLen : ℕ := 32

/-- What `__wil_up` reads, and the outcomes of what it calls; `setSsidRc` is the return code of
`wmi_set_ssid`. -/
structure UpOutcome where
  resetRc : ℤ
  init : RxInitOutcome
  iftype : Iftype
  ssidLen : ℕ
  setSsidRc : ℤ

/-- `__wil_up`, as far as the ring and the return code go. -/
def wilUp (s : RxState) (o : UpOutcome) : RxState × ℤ :=
  if o.resetRc ≠ 0 then (s, o.resetRc)
  else
    let r := wilRxInit s o.init.allocOk o.init.reply o.init.outcome
    if r.2.2 ≠ 0 then (r.1, r.2.2)
    else
      match o.iftype with
      | .other => (r.1, eOpnotsupp)
      | .ap | .p2pGo =>
          if 0 < o.ssidLen ∧ o.ssidLen ≤ ieee80211MaxSsidLen then (r.1, o.setSsidRc) else (r.1, 0)
      | .station | .p2pClient | .monitor => (r.1, 0)

/-- `__wil_down` -/
def wilDown (s : RxState) : RxState := (wilRxFini s).1

/-- What `wil_cfg80211_start_ap` reads, and the outcomes of what it calls. -/
structure StartApOutcome where
  /-- whether `info->chandef.chan` is there -/
  channel : Bool
  resetRc : ℤ
  init : RxInitOutcome
  setSsidRc : ℤ
  setChannelRc : ℤ
  pcpStartRc : ℤ

/-- `wil_cfg80211_start_ap`, as far as the ring and the return code go. -/
def wilCfg80211StartAp (s : RxState) (o : StartApOutcome) : RxState × ℤ :=
  if ¬ o.channel then (s, eInval)
  else if o.resetRc ≠ 0 then (s, o.resetRc)
  else
    let r := wilRxInit s o.init.allocOk o.init.reply o.init.outcome
    if r.2.2 ≠ 0 then (r.1, r.2.2)
    else if o.setSsidRc ≠ 0 then (r.1, o.setSsidRc)
    else if o.setChannelRc ≠ 0 then (r.1, o.setChannelRc)
    else (r.1, o.pcpStartRc)

/-! ## The machine -/

structure RxLifecycle where
  rx : RxState
  up : Bool
  /-- how many rings were ever allocated -/
  rings : ℕ
  /-- the rings that were freed, in order -/
  freed : List ℕ
  /-- whether `wil_rx_init` ever ran on a ring that was there -/
  overwritten : Bool

inductive LifecycleAction
  | ndoOpen (o : UpOutcome)
  | ndoStop
  | startAp (o : StartApOutcome)
  /-- `wmi_pcp_stop`, with its return code. -/
  | stopAp (rc : ℤ)

/-- The rings after a call that ran `wil_rx_init`, if `ran`, and left the state `rx`. -/
def RxLifecycle.note (s : RxLifecycle) (ran allocOk : Bool) (rx : RxState) : RxLifecycle :=
  { s with
    rx := rx
    rings := if ran ∧ allocOk then s.rings + 1 else s.rings
    freed := if ran ∧ allocOk ∧ ¬ rx.vring.va then s.freed ++ [s.rings] else s.freed
    overwritten := s.overwritten ∨ (ran ∧ s.rx.vring.va) }

/-- One call.  The network stack opens an interface that is down, stops one that is up, and starts
an AP on one that is up. -/
def RxLifecycle.step (s : RxLifecycle) : LifecycleAction → Option RxLifecycle
  | .ndoOpen o =>
      if s.up then none
      else
        let r := wilUp s.rx o
        some { s.note (o.resetRc = 0) o.init.allocOk r.1 with up := r.2 = 0 }
  | .ndoStop =>
      if s.up then
        some { s with
          rx := wilDown s.rx
          up := false
          freed := if s.rx.vring.va then s.freed ++ [s.rings - 1] else s.freed }
      else none
  | .startAp o =>
      if s.up then
        some (s.note (o.channel ∧ o.resetRc = 0) o.init.allocOk (wilCfg80211StartAp s.rx o).1)
      else none
  | .stopAp _ => if s.up then some s else none

/-- No ring yet; the ring structure itself is arbitrary. -/
def RxLifecycle.init (s : RxState) : RxLifecycle :=
  ⟨{ s with vring := { s.vring with va := false } }, false, 0, [], false⟩

/-- **When the life cycle is right**: no open fails behind a successful `wil_rx_init`, and no AP
start gets as far as `wil_rx_init`. -/
def RxOnce (s : RxLifecycle) : LifecycleAction → Prop
  | .ndoOpen o => o.resetRc = 0 → o.init.Good s.rx.allocs →
      o.iftype ≠ .other ∧ (o.iftype = .ap ∨ o.iftype = .p2pGo → 0 < o.ssidLen →
        o.ssidLen ≤ ieee80211MaxSsidLen → o.setSsidRc = 0)
  | .startAp o => o.channel = true → o.resetRc ≠ 0
  | .ndoStop | .stopAp _ => True

instance (s : RxLifecycle) : (a : LifecycleAction) → Decidable (RxOnce s a)
  | .ndoOpen o => inferInstanceAs (Decidable (o.resetRc = 0 → o.init.Good s.rx.allocs →
      o.iftype ≠ .other ∧ (o.iftype = .ap ∨ o.iftype = .p2pGo → 0 < o.ssidLen →
        o.ssidLen ≤ ieee80211MaxSsidLen → o.setSsidRc = 0)))
  | .startAp o => inferInstanceAs (Decidable (o.channel = true → o.resetRc ≠ 0))
  | .ndoStop | .stopAp _ => inferInstanceAs (Decidable True)

/-! ## Every ring is freed once -/

/-- `wil_rx_init` never ran on a ring that was there, there is no ring while the interface is down,
and the rings were freed once each, all but the one that is there. -/
structure RxLifeOk (s : RxLifecycle) : Prop where
  notOverwritten : s.overwritten = false
  noneDown : s.up = false → s.rx.vring.va = false
  freed_eq : s.freed = List.range (if s.rx.vring.va then s.rings - 1 else s.rings)

/-- What also holds between two calls that meet the condition. -/
structure LifecycleInv (s : RxLifecycle) : Prop extends RxLifeOk s where
  ringUp : s.up = true → s.rx.vring.va = true
  rings_pos : s.rx.vring.va = true → 0 < s.rings

variable {s t : RxLifecycle}

/-- What is left to fail behind `wil_rx_init`. -/
def UpOutcome.Configures (o : UpOutcome) : Prop :=
  o.iftype ≠ .other ∧ (o.iftype = .ap ∨ o.iftype = .p2pGo → 0 < o.ssidLen →
    o.ssidLen ≤ ieee80211MaxSsidLen → o.setSsidRc = 0)

lemma wilUp_reset (s : RxState) {o : UpOutcome} (hreset : o.resetRc ≠ 0) :
    wilUp s o = (s, o.resetRc) := by
  rw [wilUp, if_pos hreset]

/-- The ring and the return code of `__wil_up`, behind the reset. -/
lemma wilUp_spec (s : RxState) {o : UpOutcome} (hreset : o.resetRc = 0) :
    (wilUp s o).1 = (wilRxInit s o.init.allocOk o.init.reply o.init.outcome).1 ∧
      ((wilUp s o).2 = 0 ↔ o.init.Good s.allocs ∧ o.Configures) := by
  obtain ⟨hrc, -⟩ := wilRxInit_spec s o.init
  rw [wilUp, if_neg (not_ne_iff.mpr hreset), ← hrc]
  by_cases hinit : (wilRxInit s o.init.allocOk o.init.reply o.init.outcome).2.2 = 0
  · simp only [hinit, ne_eq, not_true_eq_false, if_false, true_and, UpOutcome.Configures]
    cases o.iftype with
    | ap | p2pGo => split_ifs <;> simp_all
    | station | p2pClient | monitor => simp
    | other => simp [eOpnotsupp]
  · simp [hinit]

/-- The rings after a call that ran `wil_rx_init`. -/
lemma freed_note (hinv : LifecycleInv s) (hdown : s.rx.vring.va = false) (o : RxInitOutcome) :
    let rx := (wilRxInit s.rx o.allocOk o.reply o.outcome).1
    (s.note true o.allocOk rx).freed
        = List.range (if rx.vring.va then (s.note true o.allocOk rx).rings - 1
            else (s.note true o.allocOk rx).rings) ∧
      (rx.vring.va = true → 0 < (s.note true o.allocOk rx).rings) := by
  intro rx
  obtain ⟨-, hva⟩ := wilRxInit_spec s.rx o
  have hfreed := hinv.freed_eq
  rw [hdown] at hfreed
  cases hring : rx.vring.va with
  | true =>
      have hok : o.allocOk = true := (hva.mp hring).1
      simpa [RxLifecycle.note, hring, hok] using hfreed
  | false =>
      cases hok : o.allocOk with
      | true => simp [RxLifecycle.note, hring, List.range_succ, hfreed]
      | false => simpa [RxLifecycle.note, hring] using hfreed

/-- **Opening the interface.** -/
lemma LifecycleInv.ndoOpen (h : LifecycleInv s) {o : UpOutcome} (ht : s.step (.ndoOpen o) = some t) :
    (RxLifeOk t ↔ RxOnce s (.ndoOpen o)) ∧ (RxOnce s (.ndoOpen o) → LifecycleInv t) := by
  simp only [RxLifecycle.step] at ht
  split_ifs at ht with hup
  obtain rfl := Option.some.inj ht
  have hdown := h.noneDown (by simpa using hup)
  by_cases hreset : o.resetRc = 0
  · obtain ⟨hrx, hrc⟩ := wilUp_spec s.rx hreset
    obtain ⟨-, hva⟩ := wilRxInit_spec s.rx o.init
    obtain ⟨hfreed, hpos⟩ := freed_note h hdown o.init
    simp only [hreset, decide_true, hrx] at hrc ⊢
    have honce : RxOnce s (.ndoOpen o) ↔ (o.init.Good s.rx.allocs → o.Configures) := by
      simp [RxOnce, hreset, UpOutcome.Configures]
    have hok : RxOnce s (.ndoOpen o) → RxLifeOk
        { s.note true o.init.allocOk
            (wilRxInit s.rx o.init.allocOk o.init.reply o.init.outcome).1 with
          up := decide ((wilUp s.rx o).2 = 0) } := by
      intro hcond
      refine ⟨by simp [RxLifecycle.note, h.notOverwritten, hdown], ?_, hfreed⟩
      intro hfail
      rw [decide_eq_false_iff_not, hrc] at hfail
      simp only [RxLifecycle.note]
      rw [Bool.eq_false_iff, ne_eq, hva]
      exact fun hgood => hfail ⟨hgood, honce.mp hcond hgood⟩
    refine ⟨⟨fun hlife => honce.mpr fun hgood => ?_, hok⟩, fun hcond => ⟨hok hcond, ?_, hpos⟩⟩
    · -- a ring is there, so the open did not fail
      have hring := hva.mpr hgood
      by_contra hbad
      have hnone := hlife.noneDown (by simp [hrc, hbad])
      simp only [RxLifecycle.note] at hnone
      rw [hring] at hnone
      exact absurd hnone (by simp)
    · intro hsucc
      rw [decide_eq_true_iff, hrc] at hsucc
      exact hva.mpr hsucc.1
  · have hsame : LifecycleInv { s.note (decide (o.resetRc = 0)) o.init.allocOk (wilUp s.rx o).1 with
        up := decide ((wilUp s.rx o).2 = 0) } := by
      simp only [wilUp_reset s.rx hreset, hreset, decide_false, RxLifecycle.note]
      exact ⟨⟨by simp [h.notOverwritten], fun _ => hdown, by simpa using h.freed_eq⟩, by simp,
        by simpa using h.rings_pos⟩
    have honce : RxOnce s (.ndoOpen o) := fun h0 => absurd h0 hreset
    exact ⟨⟨fun _ => honce, fun _ => hsame.toRxLifeOk⟩, fun _ => hsame⟩

/-- **Stopping the interface.** -/
lemma LifecycleInv.ndoStop (h : LifecycleInv s) (ht : s.step .ndoStop = some t) : LifecycleInv t := by
  simp only [RxLifecycle.step] at ht
  split_ifs at ht with hup hva
  · obtain rfl := Option.some.inj ht
    have hpos := h.rings_pos hva
    have hfreed := h.freed_eq
    rw [if_pos hva] at hfreed
    have hnone : (wilDown s.rx).vring.va = false := by
      simp [wilDown, wilRxFini, hva, rxVringFree]
    refine ⟨⟨h.notOverwritten, fun _ => hnone, ?_⟩, by simp, by simp [hnone]⟩
    simp only [hnone, Bool.false_eq_true, if_false]
    rw [hfreed, ← List.range_succ, Nat.succ_eq_add_one, Nat.sub_add_cancel hpos]
  · exact absurd (h.ringUp hup) hva

/-- **Starting an AP.** -/
lemma LifecycleInv.startAp (h : LifecycleInv s) {o : StartApOutcome}
    (ht : s.step (.startAp o) = some t) :
    (RxLifeOk t ↔ RxOnce s (.startAp o)) ∧ (RxOnce s (.startAp o) → LifecycleInv t) := by
  obtain ⟨hup, ht⟩ := Option.ite_none_right_eq_some.mp ht
  obtain rfl := Option.some.inj ht
  by_cases hran : o.channel = true ∧ o.resetRc = 0
  · have hbad : ¬ RxOnce s (.startAp o) := fun hcond => hcond hran.1 hran.2
    refine ⟨⟨fun hlife => ?_, fun hcond => absurd hcond hbad⟩, fun hcond => absurd hcond hbad⟩
    have hover := hlife.notOverwritten
    simp [RxLifecycle.note, hran.1, hran.2, h.ringUp hup] at hover
  · have hsame : (wilCfg80211StartAp s.rx o).1 = s.rx := by
      rw [wilCfg80211StartAp]
      by_cases hch : o.channel = true
      · rw [if_neg (by simpa using hch), if_pos fun hreset => hran ⟨hch, hreset⟩]
      · rw [if_pos (by simpa using hch)]
    have hinv : LifecycleInv (s.note (decide (o.channel = true ∧ o.resetRc = 0)) o.init.allocOk
        (wilCfg80211StartAp s.rx o).1) := by
      simp only [hsame, hran, decide_false, RxLifecycle.note]
      exact ⟨⟨by simp [h.notOverwritten], h.noneDown, by simpa using h.freed_eq⟩, h.ringUp,
        by simpa using h.rings_pos⟩
    have honce : RxOnce s (.startAp o) := fun hch hreset => hran ⟨hch, hreset⟩
    exact ⟨⟨fun _ => honce, fun _ => hinv.toRxLifeOk⟩, fun _ => hinv⟩

/-- **One call**: all stays well exactly where the condition is met. -/
theorem LifecycleInv.step (h : LifecycleInv s) {a : LifecycleAction} (ht : s.step a = some t) :
    (RxLifeOk t ↔ RxOnce s a) ∧ (RxOnce s a → LifecycleInv t) := by
  cases a with
  | ndoOpen o => exact h.ndoOpen ht
  | ndoStop => exact ⟨⟨fun _ => trivial, fun _ => (h.ndoStop ht).toRxLifeOk⟩, fun _ => h.ndoStop ht⟩
  | startAp o => exact h.startAp ht
  | stopAp rc =>
      obtain ⟨-, ht⟩ := Option.ite_none_right_eq_some.mp ht
      obtain rfl := Option.some.inj ht
      exact ⟨⟨fun _ => trivial, fun _ => h.toRxLifeOk⟩, fun _ => h⟩

/-- **The life cycle of the Rx ring**, where no open fails behind `wil_rx_init` and no AP start
gets as far as `wil_rx_init`: in every state, `wil_rx_init` never ran on a ring that was there,
there is no ring while the interface is down, and every ring but the present one was freed once. -/
theorem rxLifeOk_run {s : RxState} {as : List LifecycleAction}
    (h : Machine.Exec RxLifecycle.step RxOnce (RxLifecycle.init s) as t) : RxLifeOk t := by
  have hinit : LifecycleInv (RxLifecycle.init s) := by
    refine ⟨⟨rfl, fun _ => rfl, rfl⟩, ?_, ?_⟩ <;> simp [RxLifecycle.init]
  have hinv : LifecycleInv t :=
    h.invariant (fun _ _ _ hG ht hi => (hi.step ht).2 hG) hinit
  exact hinv.toRxLifeOk

/-- The outcome of a `wil_rx_init` that succeeds. -/
def rxInitGood : RxInitOutcome := ⟨true, ⟨0, 1, 0⟩, fun _ => mapEach 0⟩

/-- Open, an AP start whose reset fails, stop, and an open that fails before the ring. -/
theorem rxLifeOk_run_twice :
    ∃ t : RxLifecycle, RxLifeOk t ∧ t.rings = 1 ∧ t.freed = [0] ∧ t.up = false := by
  let as : List LifecycleAction := [.ndoOpen ⟨0, rxInitGood, .ap, 0, 0⟩,
    .startAp ⟨true, eTime, rxInitGood, 0, 0, 0⟩, .ndoStop, .ndoOpen ⟨eTime, rxInitGood, .ap, 0, 0⟩]
  have hrun : (Machine.exec RxLifecycle.step RxOnce (RxLifecycle.init unusedRx) as).map
      (fun t => (t.rings, t.freed, t.up)) = some (1, [0], false) := by
    decide +kernel
  obtain ⟨t, ht, hend⟩ := Option.map_eq_some_iff.mp hrun
  simp only [Prod.mk.injEq] at hend
  exact ⟨t, rxLifeOk_run (.of_exec ht), hend⟩

/-- An AP start on an open interface makes a second ring over the first. -/
theorem not_rxLifeOk_run :
    ¬ ∀ (s : RxState) (as : List LifecycleAction) (t : RxLifecycle),
      Machine.Exec RxLifecycle.step (fun _ _ => True) (RxLifecycle.init s) as t → RxLifeOk t := by
  intro h
  let as : List LifecycleAction := [.ndoOpen ⟨0, rxInitGood, .ap, 0, 0⟩,
    .startAp ⟨true, 0, rxInitGood, 0, 0, 0⟩]
  have hrun : (Machine.exec RxLifecycle.step (fun _ _ => True) (RxLifecycle.init unusedRx) as).map
      (fun t => t.overwritten) = some true := by
    decide +kernel
  obtain ⟨t, ht, hend⟩ := Option.map_eq_some_iff.mp hrun
  have hover := (h _ as t (.of_exec ht)).notOverwritten
  rw [hend] at hover
  exact absurd hover (by simp)

end Wil6210
