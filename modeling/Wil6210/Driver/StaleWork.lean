import Wil6210.Driver.ConnectRun

/-!
# Disconnects and the worker

A DISCONNECT takes its station down and does not look at the connect work, which goes on and marks
the station as connected when its ring is configured: the station is back (`not_disconnect_final`).
`disconnect_final` is what remains true.  A disconnected station stays unused and without a ring,
if no work that configures its ring overlaps the DISCONNECT: when the firmware confirms a ring,
the station is not disconnected, and it is not disconnected from there to the end of the worker.
-/

namespace Wil6210

variable {s t : ConnSys}

/-- The firmware has configured the ring. -/
def VringCfgReply.ok (r : VringCfgReply) : Prop := r.rc = 0 ∧ r.status = 0

instance (r : VringCfgReply) : Decidable r.ok := inferInstanceAs (Decidable (_ ∧ _))

lemma rc_wilVringInitTxEnd (w : Wil) (id : RingId) (r : VringCfgReply) :
    (wilVringInitTxEnd w id r).2.1 = 0 ↔ r.ok := by
  simp only [wilVringInitTxEnd, VringCfgReply.ok]
  split_ifs with hrc hstatus
  · simp [hrc]
  · simp [hstatus, eInval]
  · simp_all

/-- No ring is configured for a station that is disconnected, and no station is disconnected
between the configuration of its ring and the end of the worker. -/
def NoStaleWork (s : ConnSys) : ConnAction → Prop
  | .reply r => r.ok → ∀ c, s.worker.holds = some c → s.last c ≠ some .disconnect
  | .disconnect bssid => ∀ c ∈ disconnectCids s.wil bssid,
      s.worker ≠ .configured c 0 ∧ s.worker ≠ .cleared c 0
  | _ => True

instance (s : ConnSys) : (a : ConnAction) → Decidable (NoStaleWork s a)
  | .reply r => inferInstanceAs (Decidable
      (r.ok → ∀ c : Cid, s.worker.holds = some c → s.last c ≠ some .disconnect))
  | .disconnect _ => inferInstanceAs (Decidable (∀ c ∈ _, _))
  | .connect _ _ | .start | .alloc _ | .clear | .finish | .traffic _ =>
      inferInstanceAs (Decidable True)

/-! ## The invariant -/

structure StaleInv (s : ConnSys) : Prop where
  unused : ∀ c, s.last c = some .disconnect → (s.wil.sta c).status = .unused
  /-- A disconnected station has no ring, but for one that is about to fail. -/
  rings : ∀ c i, s.last c = some .disconnect → s.wil.owner i = c.val →
    (s.wil.vringTx i).va = true → s.worker = .waiting c i
  configured : ∀ c rc, s.worker = .configured c rc → s.last c = some .disconnect → rc ≠ 0
  cleared : ∀ c rc, s.worker = .cleared c rc → s.last c = some .disconnect → rc ≠ 0

lemma staleInv_init (iftype : Iftype) (devAddr : Option MacAddr) :
    StaleInv (ConnSys.init iftype devAddr) := by
  refine ⟨?_, ?_, ?_, ?_⟩ <;> simp [ConnSys.init]

lemma StaleInv.connect (h : StaleInv s) {evt : WmiConnectEvent} {len : ℕ}
    (ht : s.step (.connect evt len) = some t) : StaleInv t := by
  obtain ⟨-, rfl⟩ | ⟨cid, haccept, rfl⟩ := ConnSys.step_connect ht
  · exact h
  · obtain ⟨-, hstatus, -, hring, hmap⟩ := wmiEvtConnect_accepted evt len cid haccept
    have hlast : ∀ c, Function.update s.last cid (some LastEvent.connect) c
        = some .disconnect → c ≠ cid ∧ s.last c = some .disconnect := by
      intro c hc
      by_cases hcid : c = cid
      · simp [hcid] at hc
      · exact ⟨hcid, by simpa [hcid] using hc⟩
    refine ⟨?_, ?_, ?_, ?_⟩
    · intro c hc
      obtain ⟨hne, hc⟩ := hlast c hc
      rw [hstatus, if_neg hne]
      exact h.unused c hc
    · intro c i hc howner hva
      obtain ⟨-, hc⟩ := hlast c hc
      rw [hmap] at howner
      rw [hring] at hva
      exact h.rings c i hc howner hva
    · intro c rc hw hc
      exact h.configured c rc hw (hlast c hc).2
    · intro c rc hw hc
      exact h.cleared c rc hw (hlast c hc).2

lemma StaleInv.disconnect (h : StaleInv s) {bssid : MacAddr}
    (hG : NoStaleWork s (.disconnect bssid)) (ht : s.step (.disconnect bssid) = some t) :
    StaleInv t := by
  simp only [ConnSys.step, Option.some.injEq] at ht
  obtain ⟨-, hstatus, -, hring, hmap⟩ := wmiEvtDisconnect_spec s.wil bssid
  have hlast : ∀ c, (if c ∈ disconnectCids s.wil bssid then some LastEvent.disconnect
      else s.last c) = some .disconnect →
      c ∈ disconnectCids s.wil bssid ∨ s.last c = some .disconnect := by
    intro c hc
    split_ifs at hc with hmem
    · exact .inl hmem
    · exact .inr hc
  subst ht
  refine ⟨?_, ?_, ?_, ?_⟩
  · intro c hc
    rw [hstatus]
    split_ifs with hmem
    · rfl
    · exact h.unused c ((hlast c hc).resolve_left hmem)
  · intro c i hc howner hva
    rw [hmap] at howner
    rw [hring] at hva
    split_ifs at hva with hgone
    have hmem : c ∉ disconnectCids s.wil bssid := fun hmem => hgone ⟨c, hmem, howner⟩
    exact h.rings c i ((hlast c hc).resolve_left hmem) howner hva
  · intro c rc hw hc
    rcases hlast c hc with hmem | hc
    · rintro rfl
      exact (hG c hmem).1 hw
    · exact h.configured c rc hw hc
  · intro c rc hw hc
    rcases hlast c hc with hmem | hc
    · rintro rfl
      exact (hG c hmem).2 hw
    · exact h.cleared c rc hw hc

lemma StaleInv.start (h : StaleInv s) (ht : s.step .start = some t) : StaleInv t := by
  obtain ⟨-, hidle, rfl⟩ := ConnSys.step_start ht
  refine ⟨h.unused, ?_, by simp, by simp⟩
  intro c i hc howner hva
  simpa [hidle] using h.rings c i hc howner hva

lemma StaleInv.alloc (h : StaleInv s) {ok : Bool} (ht : s.step (.alloc ok) = some t) :
    StaleInv t := by
  obtain ⟨cid, tid, id, hw, ht⟩ := ConnSys.step_alloc ht
  have hnone : ∀ c i, s.last c = some .disconnect → s.wil.owner i = c.val →
      ¬ (s.wil.vringTx i).va = true := by
    intro c i hc howner hva
    simpa [hw] using h.rings c i hc howner hva
  rcases wilVringInitTxBegin_cases s.wil id wil6210TxRingSize cid tid ok with
    ⟨hrc, -, hring, hmap⟩ | ⟨hrc, hring, hmap⟩
  · rw [if_pos hrc] at ht
    subst ht
    refine ⟨?_, ?_, by simp, by simp⟩
    · intro c hc
      rw [sta_wilVringInitTxBegin]
      exact h.unused c hc
    · intro c i hc howner hva
      rw [hmap] at howner
      rw [hring] at hva
      by_cases hi : i = id
      · rw [if_pos hi] at howner
        rw [hi, Fin.ext howner]
      · rw [if_neg hi] at howner hva
        exact absurd hva (hnone c i hc howner)
  · rw [if_neg hrc] at ht
    subst ht
    refine ⟨?_, ?_, ?_, by simp⟩
    · intro c hc
      rw [sta_wilVringInitTxBegin]
      exact h.unused c hc
    · intro c i hc howner hva
      rw [hmap] at howner
      rw [hring] at hva
      exact absurd hva (hnone c i hc howner)
    · intro c rc heq _
      obtain ⟨rfl, rfl⟩ := Worker.configured.inj heq
      exact hrc

lemma StaleInv.reply (h : StaleInv s) {r : VringCfgReply} (hG : NoStaleWork s (.reply r))
    (ht : s.step (.reply r) = some t) : StaleInv t := by
  obtain ⟨cid, id, hw, rfl⟩ := ConnSys.step_reply ht
  have hheld : s.worker.holds = some cid := by simp [hw, Worker.holds]
  refine ⟨?_, ?_, ?_, by simp⟩
  · intro c hc
    rw [sta_wilVringInitTxEnd]
    exact h.unused c hc
  · intro c i hc howner hva
    rw [owner_wilVringInitTxEnd] at howner
    rcases wilVringInitTxEnd_cases s.wil id r with ⟨hrc, hring⟩ | ⟨-, hring⟩
    · rw [hring] at hva
      have heq := h.rings c i hc howner hva
      rw [hw] at heq
      obtain ⟨rfl, rfl⟩ := Worker.waiting.inj heq
      exact absurd hc (hG ((rc_wilVringInitTxEnd s.wil id r).mp hrc) cid hheld)
    · rw [hring] at hva
      split_ifs at hva with hi
      have heq := h.rings c i hc howner hva
      rw [hw] at heq
      exact absurd (Worker.waiting.inj heq).2.symm hi
  · intro c rc heq hc
    obtain ⟨rfl, rfl⟩ := Worker.configured.inj heq
    intro hrc
    exact hG ((rc_wilVringInitTxEnd s.wil id r).mp hrc) cid hheld hc

lemma StaleInv.clear (h : StaleInv s) (ht : s.step .clear = some t) : StaleInv t := by
  obtain ⟨cid, rc, hw, rfl⟩ := ConnSys.step_clear ht
  refine ⟨h.unused, ?_, by simp, ?_⟩
  · intro c i hc howner hva
    simpa [hw] using h.rings c i hc howner hva
  · intro c rc' heq hc
    obtain ⟨rfl, rfl⟩ := Worker.cleared.inj heq
    exact h.configured cid rc hw hc

lemma StaleInv.finish (h : StaleInv s) (ht : s.step .finish = some t) : StaleInv t := by
  obtain ⟨cid, rc, hw, rfl⟩ := ConnSys.step_finish ht
  refine ⟨?_, ?_, by simp, by simp⟩
  · intro c hc
    rw [status_connectFinish]
    by_cases hcid : c = cid
    · subst hcid
      rw [if_pos rfl, if_neg (h.cleared c rc hw hc)]
    · rw [if_neg hcid]
      exact h.unused c hc
  · intro c i hc howner hva
    simpa [hw] using h.rings c i hc howner hva

lemma StaleInv.traffic (h : StaleInv s) {w : Wil} (ht : s.step (.traffic w) = some t) :
    StaleInv t := by
  obtain rfl := Option.some.inj ht
  exact ⟨h.unused, h.rings, h.configured, h.cleared⟩

/-- **Every step keeps the invariant.** -/
theorem StaleInv.step (h : StaleInv s) {a : ConnAction} (hG : NoStaleWork s a)
    (ht : s.step a = some t) : StaleInv t := by
  cases a with
  | connect evt len => exact h.connect ht
  | disconnect bssid => exact h.disconnect hG ht
  | start => exact h.start ht
  | alloc ok => exact h.alloc ht
  | reply r => exact h.reply hG ht
  | clear => exact h.clear ht
  | finish => exact h.finish ht
  | traffic w => exact h.traffic ht

/-! ## No resurrection -/

/-- **A disconnect is final, where no work overlaps it.**  Once no connect work is pending or
running, a station whose last event is a DISCONNECT that was processed is unused, and no allocated
ring is mapped to it. -/
theorem disconnect_final {iftype : Iftype} {devAddr : Option MacAddr} {as : List ConnAction}
    (h : Machine.Exec ConnSys.step NoStaleWork (ConnSys.init iftype devAddr) as s)
    (hquiet : s.Quiet) (c : Cid) (hc : s.last c = some .disconnect) :
    (s.wil.sta c).status = .unused ∧
      ∀ i, s.wil.owner i = c.val → (s.wil.vringTx i).va = false := by
  have hinv : StaleInv s := h.invariant (fun _ _ _ hG ht hi => hi.step hG ht)
    (staleInv_init iftype devAddr)
  refine ⟨hinv.unused c hc, fun i howner => ?_⟩
  by_contra hva
  simpa [hquiet.1] using hinv.rings c i hc howner (by simpa using hva)

/-- A station that is disconnected before the worker starts; its ring cannot be configured. -/
theorem disconnect_final_failed :
    ∃ s : ConnSys, s.Quiet ∧ s.last 0 = some .disconnect ∧ (s.wil.sta 0).status = .unused := by
  let as : List ConnAction := [bareConnect 2 0, .disconnect 2, .start, .alloc true,
    .reply ⟨eTime, 0, 0⟩, .clear, .finish]
  have hrun : (Machine.exec ConnSys.step NoStaleWork (ConnSys.init .ap (some 1)) as).map
      (fun s => (s.worker, s.queued, s.last 0)) = some (.idle, false, some .disconnect) := by
    decide +kernel
  obtain ⟨s, hs, hend⟩ := Option.map_eq_some_iff.mp hrun
  simp only [Prod.mk.injEq] at hend
  obtain ⟨hidle, hqueued, hlast⟩ := hend
  exact ⟨s, ⟨hidle, hqueued⟩, hlast,
    (disconnect_final (.of_exec hs) ⟨hidle, hqueued⟩ 0 hlast).1⟩

/-- A CONNECT and a DISCONNECT before the worker starts: the station ends up connected. -/
theorem not_disconnect_final :
    ¬ ∀ (iftype : Iftype) (devAddr : Option MacAddr) (as : List ConnAction) (s : ConnSys),
      Machine.Exec ConnSys.step (fun _ _ => True) (ConnSys.init iftype devAddr) as s → s.Quiet →
      ∀ c, s.last c = some .disconnect → (s.wil.sta c).status = .unused ∧
        ∀ i, s.wil.owner i = c.val → (s.wil.vringTx i).va = false := by
  intro h
  let as : List ConnAction := [bareConnect 2 0, .disconnect 2, .start, .alloc true,
    .reply ⟨0, 0, 0⟩, .clear, .finish]
  have hrun : (Machine.exec ConnSys.step (fun _ _ => True) (ConnSys.init .ap (some 1)) as).map
      (fun s => (s.worker, s.queued, s.last 0, (s.wil.sta 0).status))
      = some (.idle, false, some .disconnect, .connected) := by
    decide +kernel
  obtain ⟨s, hs, hend⟩ := Option.map_eq_some_iff.mp hrun
  simp only [Prod.mk.injEq] at hend
  obtain ⟨hidle, hqueued, hlast, hstatus⟩ := hend
  have hunused := (h _ _ as s (.of_exec hs) ⟨hidle, hqueued⟩ 0 hlast).1
  exact absurd (hunused.symm.trans hstatus) (by decide)

end Wil6210
