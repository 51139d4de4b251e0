import Wil6210.Driver.Connect

/-!
# Unicast frames reach the right ring

`wil_find_tx_vring` takes the first ring that `vring2cid_tid` maps to the station and gives up if
that one is not allocated.  The entries of the table are never cleared: those of freed rings keep
their last CID, those of rings never allocated say CID 0.  The lookup is right all the same when
every CONNECT is followed by its worker: rings are allocated lowest first, so when a station gets
ring `k` all rings below are allocated, to other stations, and what is mapped there later is
mapped to others still.  `RingTable` is that invariant, `wilFindTxVring_connected` the result.
-/

namespace Wil6210

/-! ## The machine -/

/-- The driver between two events, and the ring last configured for each CID. -/
structure StaSys where
  wil : Wil
  ring : Cid → Option RingId

inductive StaAction
  /-- A CONNECT and the run of the worker for it. -/
  | connect (evt : WmiConnectEvent) (len : ℕ) (allocOk : Bool) (reply : VringCfgReply)
  | disconnect (bssid : MacAddr)
  | traffic (w : Wil)

/-- One event, with its worker. -/
def StaSys.step (s : StaSys) : StaAction → Option StaSys
  | .connect evt len allocOk reply =>
      match connectAccepts s.wil evt len with
      | none => some s
      | some cid =>
          let w := (wmiEvtConnect s.wil evt len).1
          (wilConnectWorker w allocOk reply).map fun p =>
            { wil := p.1
              ring := if (p.1.sta cid).status = .connected then
                  Function.update s.ring cid (wilFindFreeVring w)
                else s.ring }
  | .disconnect bssid => some { s with wil := (wmiEvtDisconnect s.wil bssid).1 }
  | .traffic w => some { s with wil := s.wil.traffic w }

/-- What the firmware keeps to: an accepted CONNECT is for a CID without an allocated ring, and
its address is not that of another station in use. -/
def FreshConnect (s : StaSys) : StaAction → Prop
  | .connect evt len _ _ => ∀ cid, connectAccepts s.wil evt len = some cid →
      (∀ i, s.wil.owner i = cid.val → (s.wil.vringTx i).va = false) ∧
        ∀ c, c ≠ cid → (s.wil.sta c).status ≠ .unused → (s.wil.sta c).addr ≠ evt.bssid
  | _ => True

instance (s : StaSys) : (a : StaAction) → Decidable (FreshConnect s a)
  | .connect evt len _ _ => inferInstanceAs (Decidable
      (∀ cid, connectAccepts s.wil evt len = some cid →
        (∀ i, s.wil.owner i = cid.val → (s.wil.vringTx i).va = false) ∧
          ∀ c, c ≠ cid → (s.wil.sta c).status ≠ .unused → (s.wil.sta c).addr ≠ evt.bssid))
  | .disconnect _ | .traffic _ => inferInstanceAs (Decidable True)

def StaSys.init (iftype : Iftype) (devAddr : Option MacAddr) : StaSys where
  wil := wilPrivInit iftype devAddr
  ring _ := none

/-! ## A run of the worker -/

/-- What `wil_vring_init_tx` does to a free ring: it is allocated and mapped, or free again. -/
lemma wilVringInitTx_spec (w : Wil) {id : RingId} (hfree : (w.vringTx id).va = false)
    (size cid tid : ℕ) (allocOk : Bool) (reply : VringCfgReply) :
    (wilVringInitTx w id size cid tid allocOk reply).1.sta = w.sta ∧
      (∀ i, i ≠ id → ((wilVringInitTx w id size cid tid allocOk reply).1.vringTx i).va
          = (w.vringTx i).va ∧
        (wilVringInitTx w id size cid tid allocOk reply).1.owner i = w.owner i) ∧
      (((wilVringInitTx w id size cid tid allocOk reply).2.1 = 0 ∧
          ((wilVringInitTx w id size cid tid allocOk reply).1.vringTx id).va = true ∧
          (wilVringInitTx w id size cid tid allocOk reply).1.owner id = cid) ∨
        ((wilVringInitTx w id size cid tid allocOk reply).2.1 ≠ 0 ∧
          ((wilVringInitTx w id size cid tid allocOk reply).1.vringTx id).va = false ∧
          ((wilVringInitTx w id size cid tid allocOk reply).1.owner id = cid ∨
            (wilVringInitTx w id size cid tid allocOk reply).1.owner id = w.owner id))) := by
  set b := wilVringInitTxBegin w id size cid tid allocOk with hb
  have hsta : b.1.sta = w.sta := by rw [hb, sta_wilVringInitTxBegin]
  rcases wilVringInitTxBegin_cases w id size cid tid allocOk with
    ⟨hrc, -, hring, hmap⟩ | ⟨hrc, hring, hmap⟩ <;> rw [← hb] at hrc hring hmap
  · set e := wilVringInitTxEnd b.1 id reply with he
    have hcall : wilVringInitTx w id size cid tid allocOk reply
        = (e.1, e.2.1, b.2.2 ++ e.2.2) := by
      simp [wilVringInitTx, ← hb, hrc, ← he]
    have howner : ∀ i, e.1.owner i = if i = id then cid else w.owner i := by
      intro i
      rw [he, owner_wilVringInitTxEnd, hmap]
    simp only [hcall]
    refine ⟨by rw [he, sta_wilVringInitTxEnd, hsta], ?_, ?_⟩
    · intro i hi
      refine ⟨?_, by rw [howner, if_neg hi]⟩
      rcases wilVringInitTxEnd_cases b.1 id reply with ⟨-, hend⟩ | ⟨-, hend⟩
      · rw [he, hend, hring, if_neg hi]
      · rw [he, hend, if_neg hi, hring, if_neg hi]
    · rcases wilVringInitTxEnd_cases b.1 id reply with ⟨hok, hend⟩ | ⟨hfail, hend⟩
      · exact .inl ⟨hok, by rw [he, hend, hring, if_pos rfl], by rw [howner, if_pos rfl]⟩
      · exact .inr ⟨hfail, by rw [he, hend, if_pos rfl], .inl (by rw [howner, if_pos rfl])⟩
  · have hcall : wilVringInitTx w id size cid tid allocOk reply = b := by
      simp [wilVringInitTx, ← hb, hrc]
    rw [hcall]
    exact ⟨hsta, fun i _ => ⟨hring i, congrFun hmap i⟩,
      .inr ⟨hrc, (hring id).trans hfree, .inr (congrFun hmap id)⟩⟩

/-- What `wil_connect_worker` does for `cid` with the free ring `id`: the station is connected and
has the ring, or it is unused and the allocation of the rings is as before. -/
lemma wilConnectWorker_spec {w : Wil} {cid : Cid} {id : RingId} (allocOk : Bool)
    (reply : VringCfgReply) (hpend : w.pendingConnectCid = some cid)
    (hid : wilFindFreeVring w = some id) :
    ∃ p, wilConnectWorker w allocOk reply = some p ∧
      (∀ c, (p.1.sta c).addr = (w.sta c).addr) ∧
      (∀ c, c ≠ cid → (p.1.sta c).status = (w.sta c).status) ∧
      (∀ i, i ≠ id → (p.1.vringTx i).va = (w.vringTx i).va ∧ p.1.owner i = w.owner i) ∧
      (((p.1.sta cid).status = .connected ∧ (p.1.vringTx id).va = true ∧
          p.1.owner id = cid.val) ∨
        ((p.1.sta cid).status = .unused ∧ (p.1.vringTx id).va = false ∧
          (p.1.owner id = cid.val ∨ p.1.owner id = w.owner id))) := by
  obtain ⟨hfree, -⟩ := wilFindFreeVring_spec hid
  obtain ⟨hsta, hother, hend⟩ := wilVringInitTx_spec w hfree wil6210TxRingSize cid
    (w.tidToUse &&& 0xf) allocOk reply
  set r := wilVringInitTx w id wil6210TxRingSize cid (w.tidToUse &&& 0xf) allocOk reply with hr
  have hcall : wilConnectWorker w allocOk reply
      = some ((connectFinish { r.1 with pendingConnectCid := none } cid r.2.1).1, r.2.2 ++
          (connectFinish { r.1 with pendingConnectCid := none } cid r.2.1).2) := by
    simp only [wilConnectWorker, hpend, hid, ← hr]
  refine ⟨_, hcall, ?_, ?_, hother, ?_⟩
  · intro c
    simp [hsta]
  · intro c hc
    simp [hc, hsta]
  · rcases hend with ⟨hrc, hva, howner⟩ | ⟨hrc, hva, howner⟩
    · exact .inl ⟨by simp [hrc], hva, howner⟩
    · exact .inr ⟨by simp [hrc], hva, howner⟩

/-! ## The invariant -/

/-- Allocated rings belong to connected stations, one each, and below the ring of a station no
entry of the table is mapped to it. -/
structure RingTable (s : StaSys) : Prop where
  ringOf : ∀ c, (s.wil.sta c).status = .connected →
    ∃ k, s.ring c = some k ∧ s.wil.owner k = c.val ∧ (s.wil.vringTx k).va = true ∧
      ∀ i < k, s.wil.owner i ≠ c.val
  ownerOf : ∀ i, (s.wil.vringTx i).va = true →
    ∃ c, s.wil.owner i = c.val ∧ (s.wil.sta c).status = .connected ∧ s.ring c = some i
  distinct : ∀ c d, (s.wil.sta c).status ≠ .unused → (s.wil.sta d).status ≠ .unused →
    (s.wil.sta c).addr = (s.wil.sta d).addr → c = d

variable {s t : StaSys}

lemma ringTable_init (iftype : Iftype) (devAddr : Option MacAddr) :
    RingTable (StaSys.init iftype devAddr) := by
  refine ⟨?_, ?_, ?_⟩ <;> simp [StaSys.init, wilPrivInit]

/-- There are more rings than stations. -/
lemma RingTable.exists_free (h : RingTable s) : ∃ id, wilFindFreeVring s.wil = some id := by
  by_contra hnone
  have hall : ∀ i, (s.wil.vringTx i).va = true :=
    wilFindFreeVring_none (Option.eq_none_iff_forall_ne_some.mpr fun id hid => hnone ⟨id, hid⟩)
  choose f _ _ hring using fun i => h.ownerOf i (hall i)
  have hinj : Function.Injective f := by
    intro i j hij
    have := hring i
    rw [hij, hring j] at this
    exact (Option.some.inj this).symm
  have := Fintype.card_le_of_injective f hinj
  simp at this

/-- `w` is the driver after a CONNECT for `cid`, whose address is `mac`, and the worker, which took
the free ring `id`: the other stations and rings are as before. -/
structure Placed (s : StaSys) (cid : Cid) (id : RingId) (mac : MacAddr) (w : Wil) : Prop where
  status : ∀ c, c ≠ cid → (w.sta c).status = (s.wil.sta c).status
  addr : ∀ c, c ≠ cid → (w.sta c).addr = (s.wil.sta c).addr
  mac : (w.sta cid).addr = mac
  va : ∀ i, i ≠ id → (w.vringTx i).va = (s.wil.vringTx i).va
  owner : ∀ i, i ≠ id → w.owner i = s.wil.owner i
  free : ∀ i, (s.wil.vringTx i).va = true → i ≠ id ∧ s.wil.owner i ≠ cid.val

section Placed

variable {w : Wil} {cid : Cid} {id : RingId} {mac : MacAddr}

/-- The other stations keep their rings, whatever the ring `id` is mapped to. -/
lemma Placed.ringOf (hp : Placed s cid id mac w) (h : RingTable s)
    (howner : w.owner id = cid.val ∨ w.owner id = s.wil.owner id) {c : Cid} (hc : c ≠ cid)
    (hconn : (w.sta c).status = .connected) :
    ∃ k, s.ring c = some k ∧ w.owner k = c.val ∧ (w.vringTx k).va = true ∧
      ∀ i < k, w.owner i ≠ c.val := by
  rw [hp.status c hc] at hconn
  obtain ⟨k, hk, hkowner, hkva, hlow⟩ := h.ringOf c hconn
  obtain ⟨hkid, -⟩ := hp.free k hkva
  refine ⟨k, hk, by rw [hp.owner k hkid, hkowner], by rw [hp.va k hkid, hkva], fun i hi => ?_⟩
  by_cases hiid : i = id
  · rcases howner with howner | howner
    · rw [hiid, howner]
      exact fun heq => hc (Fin.ext heq.symm)
    · rw [hiid, howner]
      exact hlow id (hiid ▸ hi)
  · rw [hp.owner i hiid]
    exact hlow i hi

/-- The other rings keep their stations. -/
lemma Placed.ownerOf (hp : Placed s cid id mac w) (h : RingTable s) {i : RingId} (hi : i ≠ id)
    (hva : (w.vringTx i).va = true) :
    ∃ c, c ≠ cid ∧ w.owner i = c.val ∧ (w.sta c).status = .connected ∧ s.ring c = some i := by
  rw [hp.va i hi] at hva
  obtain ⟨c, howner, hconn, hring⟩ := h.ownerOf i hva
  have hc : c ≠ cid := by
    rintro rfl
    exact (hp.free i hva).2 howner
  exact ⟨c, hc, by rw [hp.owner i hi, howner], by rw [hp.status c hc, hconn], hring⟩

/-- The address is new, so addresses still tell the stations apart. -/
lemma Placed.distinct (hp : Placed s cid id mac w) (h : RingTable s)
    (hmac : ∀ c, c ≠ cid → (s.wil.sta c).status ≠ .unused → (s.wil.sta c).addr ≠ mac) :
    ∀ c d, (w.sta c).status ≠ .unused → (w.sta d).status ≠ .unused →
      (w.sta c).addr = (w.sta d).addr → c = d := by
  intro c d hcu hdu haddr
  by_cases hc : c = cid <;> by_cases hd : d = cid
  · rw [hc, hd]
  · rw [hp.status d hd] at hdu
    rw [hc, hp.mac, hp.addr d hd] at haddr
    exact absurd haddr.symm (hmac d hd hdu)
  · rw [hp.status c hc] at hcu
    rw [hd, hp.mac, hp.addr c hc] at haddr
    exact absurd haddr (hmac c hc hcu)
  · rw [hp.status c hc] at hcu
    rw [hp.status d hd] at hdu
    rw [hp.addr c hc, hp.addr d hd] at haddr
    exact h.distinct c d hcu hdu haddr

end Placed

lemma RingTable.connect (h : RingTable s) {evt : WmiConnectEvent} {len : ℕ} {allocOk : Bool}
    {reply : VringCfgReply} (hG : FreshConnect s (.connect evt len allocOk reply))
    (ht : s.step (.connect evt len allocOk reply) = some t) : RingTable t := by
  cases haccept : connectAccepts s.wil evt len with
  | none =>
      simp only [StaSys.step, haccept, Option.some.injEq] at ht
      exact ht ▸ h
  | some cid =>
      obtain ⟨hnoring, hmac⟩ := hG cid haccept
      obtain ⟨hpend, hstatus, haddr, hring, hmap⟩ := wmiEvtConnect_accepted evt len cid haccept
      obtain ⟨id, hid⟩ := h.exists_free
      obtain ⟨hfree, hlower⟩ := wilFindFreeVring_spec hid
      have hid' : wilFindFreeVring (wmiEvtConnect s.wil evt len).1 = some id := by
        rw [wilFindFreeVring, hring]
        exact hid
      obtain ⟨p, hp, hpaddr, hpstatus, hpother, hpend'⟩ :=
        wilConnectWorker_spec allocOk reply hpend hid'
      simp only [StaSys.step, haccept, hp, Option.map_some, Option.some.injEq, hid'] at ht
      simp only [haddr, hstatus, hring, hmap] at hpaddr hpstatus hpother hpend'
      have hplaced : Placed s cid id evt.bssid p.1 := by
        refine ⟨fun c hc => ?_, fun c hc => ?_, ?_, fun i hi => (hpother i hi).1,
          fun i hi => (hpother i hi).2, fun i hva => ⟨?_, fun howner => ?_⟩⟩
        · rw [hpstatus c hc, if_neg hc]
        · rw [hpaddr, if_neg hc]
        · rw [hpaddr, if_pos rfl]
        · rintro rfl
          simp [hfree] at hva
        · simp [hnoring i howner] at hva
      have hdistinct := hplaced.distinct h hmac
      rcases hpend' with ⟨hconn, hva, howner⟩ | ⟨hunused, hva, howner⟩
      · rw [if_pos hconn] at ht
        subst ht
        refine ⟨fun c hc => ?_, fun i hi => ?_, hdistinct⟩
        · by_cases hcid : c = cid
          · subst hcid
            refine ⟨id, by simp, howner, hva, fun i hi => ?_⟩
            rw [hplaced.owner i hi.ne]
            exact (hplaced.free i (hlower i hi)).2
          · simpa [hcid] using hplaced.ringOf h (.inl howner) hcid hc
        · by_cases hiid : i = id
          · exact ⟨cid, by rw [hiid, howner], hconn, by simp [hiid]⟩
          · obtain ⟨c, hcid, hc, hcs, hcr⟩ := hplaced.ownerOf h hiid hi
            exact ⟨c, hc, hcs, by simp [hcid, hcr]⟩
      · rw [if_neg (by simp [hunused])] at ht
        subst ht
        refine ⟨fun c hc => ?_, fun i hi => ?_, hdistinct⟩
        · have hcid : c ≠ cid := by
            rintro rfl
            simp [hunused] at hc
          exact hplaced.ringOf h howner hcid hc
        · have hiid : i ≠ id := by
            rintro rfl
            simp [hva] at hi
          obtain ⟨c, -, hc, hcs, hcr⟩ := hplaced.ownerOf h hiid hi
          exact ⟨c, hc, hcs, hcr⟩

lemma RingTable.disconnect (h : RingTable s) {bssid : MacAddr}
    (ht : s.step (.disconnect bssid) = some t) : RingTable t := by
  obtain rfl := Option.some.inj ht
  obtain ⟨-, hstatus, haddr, hring, hmap⟩ := wmiEvtDisconnect_spec s.wil bssid
  have hlive : ∀ c, ((wmiEvtDisconnect s.wil bssid).1.sta c).status ≠ .unused →
      c ∉ disconnectCids s.wil bssid ∧
        ((wmiEvtDisconnect s.wil bssid).1.sta c).status = (s.wil.sta c).status := by
    intro c hc
    rw [hstatus] at hc ⊢
    split_ifs at hc with hmem
    · exact absurd rfl hc
    · exact ⟨hmem, if_neg hmem⟩
  refine ⟨?_, ?_, ?_⟩
  · intro c hc
    have hconn : ((wmiEvtDisconnect s.wil bssid).1.sta c).status = .connected := hc
    obtain ⟨hmem, hsame⟩ := hlive c (by simp [hconn])
    obtain ⟨k, hk, howner, hva, hlow⟩ := h.ringOf c (hsame ▸ hconn)
    refine ⟨k, hk, by rw [hmap, howner], ?_, by rw [hmap]; exact hlow⟩
    rw [hring, if_neg, hva]
    rintro ⟨d, hd, heq⟩
    exact hmem (Fin.ext (howner.symm.trans heq) ▸ hd)
  · intro i hi
    rw [hring] at hi
    split_ifs at hi with hgone
    obtain ⟨c, hc, hcs, hcr⟩ := h.ownerOf i hi
    have hmem : c ∉ disconnectCids s.wil bssid := fun hmem => hgone ⟨c, hmem, hc⟩
    exact ⟨c, by rw [hmap, hc], by rw [hstatus, if_neg hmem, hcs], hcr⟩
  · intro c d hc hd heq
    rw [haddr, haddr] at heq
    rw [(hlive c hc).2] at hc
    rw [(hlive d hd).2] at hd
    exact h.distinct c d hc hd heq

/-- **Every step keeps the invariant.** -/
theorem RingTable.step (h : RingTable s) {a : StaAction} (hG : FreshConnect s a)
    (ht : s.step a = some t) : RingTable t := by
  cases a with
  | connect evt len allocOk reply => exact h.connect hG ht
  | disconnect bssid => exact h.disconnect ht
  | traffic w =>
      obtain rfl := Option.some.inj ht
      exact ⟨h.ringOf, h.ownerOf, h.distinct⟩

/-! ## The lookup -/

/-- With the invariant, a live station is found by its address. -/
lemma RingTable.wilFindCid_eq (h : RingTable s) {c : Cid} (hc : (s.wil.sta c).status ≠ .unused) :
    wilFindCid s.wil (s.wil.sta c).addr = some c := by
  cases hfind : wilFindCid s.wil (s.wil.sta c).addr with
  | none => exact absurd rfl (wilFindCid_none hfind c hc)
  | some d =>
      obtain ⟨hd, haddr⟩ := wilFindCid_spec hfind
      rw [h.distinct d c hd hc haddr]

/-- **Unicast frames reach the right ring.**  The worker always finds a free ring, no CID has two
rings, and for a connected station the lookup of its address gives the ring that was configured
for it. -/
theorem wilFindTxVring_connected {iftype : Iftype} {devAddr : Option MacAddr}
    {as : List StaAction}
    (h : Machine.Exec StaSys.step FreshConnect (StaSys.init iftype devAddr) as s) :
    (∃ id, wilFindFreeVring s.wil = some id) ∧
      (∀ i j, (s.wil.vringTx i).va = true → (s.wil.vringTx j).va = true →
        s.wil.owner i = s.wil.owner j → i = j) ∧
      ∀ c, (s.wil.sta c).status = .connected →
        ∃ k, s.ring c = some k ∧ s.wil.owner k = c.val ∧ (s.wil.vringTx k).va = true ∧
          wilFindTxVring s.wil (s.wil.sta c).addr = some k := by
  have hinv : RingTable s := h.invariant (fun _ _ _ hG ht hi => hi.step hG ht)
    (ringTable_init iftype devAddr)
  refine ⟨hinv.exists_free, ?_, ?_⟩
  · intro i j hi hj howner
    obtain ⟨c, hc, -, hci⟩ := hinv.ownerOf i hi
    obtain ⟨d, hd, -, hdj⟩ := hinv.ownerOf j hj
    have hcd : c = d := Fin.ext (by rw [← hc, ← hd, howner])
    rw [hcd, hdj] at hci
    exact (Option.some.inj hci).symm
  · intro c hc
    obtain ⟨k, hk, howner, hva, hlow⟩ := hinv.ringOf c hc
    refine ⟨k, hk, howner, hva, ?_⟩
    have hcid := hinv.wilFindCid_eq (c := c) (by simp [hc])
    have hfirst : Fin.find? (fun i => decide (s.wil.owner i = c.val)) = some k := by
      rw [Fin.find?_eq_some_iff]
      exact ⟨by simp [howner], fun j hj => by simp [hlow j hj]⟩
    exact wilFindTxVring_eq_some.mpr ⟨c, hcid, hfirst, hva⟩

/-- Three stations: the first leaves its ring to the third, whose own CID the table had for the
rings never allocated. -/
theorem wilFindTxVring_connected_reuse :
    ∃ s : StaSys, wilFindTxVring s.wil 3 = some 1 ∧ wilFindTxVring s.wil 4 = some 0 := by
  let event (mac : MacAddr) (cid : ℕ) (rc : ℤ) : StaAction :=
    .connect ⟨mac, 0, 0, 0, cid, []⟩ sizeofWmiConnectEvent true ⟨rc, 0, 0⟩
  let as : List StaAction := [event 2 5 0, event 3 1 0, event 7 6 eTime, .disconnect 2,
    event 4 0 0]
  have hrun : (Machine.exec StaSys.step FreshConnect (StaSys.init .ap (some 1)) as).map
      (fun s => (((s.wil.sta 1).status, (s.wil.sta 1).addr, s.ring 1),
        ((s.wil.sta 0).status, (s.wil.sta 0).addr, s.ring 0)))
      = some ((.connected, 3, some 1), (.connected, 4, some 0)) := by
    decide +kernel
  obtain ⟨s, hs, hend⟩ := Option.map_eq_some_iff.mp hrun
  simp only [Prod.mk.injEq] at hend
  obtain ⟨⟨hconn, haddr, hring⟩, hconn', haddr', hring'⟩ := hend
  obtain ⟨-, -, hlookup⟩ := wilFindTxVring_connected (.of_exec hs)
  obtain ⟨k, hk, -, -, hfind⟩ := hlookup 1 hconn
  obtain ⟨k', hk', -, -, hfind'⟩ := hlookup 0 hconn'
  rw [haddr] at hfind
  rw [haddr'] at hfind'
  exact ⟨s, by rw [hfind, ← hk, hring], by rw [hfind', ← hk', hring']⟩

end Wil6210
