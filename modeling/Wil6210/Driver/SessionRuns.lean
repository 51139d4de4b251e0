import Wil6210.Driver.Isolation
import Wil6210.Driver.Reported
import Wil6210.Lib.Product

/-!
# The sessions as machines of their own

A block-ack session is a machine: it takes frames, and it is made and freed.  The driver keeps one
for each station and TID, and what it does to them is spread over the event handlers, the worker
that answers ADDBA requests, the disconnects and the receive path.

`StationSys.inputs` says which sessions a step of the driver concerns and how, and `refines_step`
that the step does to the table what the product of the machines does on these inputs, and hands
over and frees the same frames in the same order.  So a session depends on its own frames only.
-/

namespace Wil6210

open Machine (product product_self product_of_ne part silent)

/-! ## One session -/

/-- A session is known by its station and its TID. -/
abbrev SessionKey := Cid × Fin 16

/-- What happens to a session. -/
inductive SessionInput
  | frame (skb : RxSkb)
  | free
  /-- It is freed, and made again with this size and starting sequence number. -/
  | alloc (ok : Bool) (size ssn : ℕ)
  deriving DecidableEq, Repr

/-- One session, as a machine. -/
def sessionStep (o : Option WilTidAmpduRx) : SessionInput → Option WilTidAmpduRx × List RxEvent
  | .frame skb => wilRxReorder o skb
  | .free => (none, wilTidAmpduRxFree o)
  | .alloc ok size ssn => (wilTidAmpduRxAlloc ok size ssn, wilTidAmpduRxFree o)

/-- The table of the sessions. -/
def Wil.sessions (s : Wil) (k : SessionKey) : Option WilTidAmpduRx := (s.sta k.1).tidRx k.2

/-- A frame is for its own session, and does not make `reorder_index` divide by zero; a session has
at most 255 slots, and a starting sequence number of 12 bits. -/
def SessionFits (s : SessionKey → Option WilTidAmpduRx) : SessionKey × SessionInput → Prop
  | (k, .frame skb) => (skb.cid, skb.tid) = k ∧ ∀ r, s k = some r → r.bufSize ≠ 0
  | (_, .free) => True
  | (_, .alloc _ size ssn) => size < 256 ∧ ssn < 4096

/-- All sessions are as they should be. -/
def SessionsFine (s : SessionKey → Option WilTidAmpduRx) : Prop :=
  ∀ k r, s k = some r → SessionOk k.1 k.2 r

section Session

variable {s : SessionKey → Option WilTidAmpduRx} {a : SessionKey × SessionInput}

/-- **A step of a session keeps it as it should be.** -/
lemma SessionsFine.step (h : SessionsFine s) (hfits : SessionFits s a) :
    SessionsFine (product sessionStep s a).1 := by
  obtain ⟨k, a⟩ := a
  intro j r hr
  by_cases hj : j = k
  · subst hj
    rw [product_self] at hr
    cases a with
    | frame skb =>
        obtain ⟨rfl, -⟩ := hfits
        cases hold : s (skb.cid, skb.tid) with
        | none => simp [sessionStep, wilRxReorder, hold] at hr
        | some old =>
            rw [sessionStep, hold] at hr
            exact (h _ old hold).rx hr
    | free => exact absurd hr (by simp [sessionStep])
    | alloc ok size ssn => exact sessionOk_alloc hfits.1 hfits.2 hr
  · rw [product_of_ne s _ hj] at hr
    exact h j r hr

/-- How many copies of `f` an event hands over or frees. -/
def copiesIn (f : RxSkb) (e : RxEvent) : ℕ := (handedOver [e]).count f + (freed [e]).count f

lemma sum_copiesIn (f : RxSkb) (es : List RxEvent) :
    (es.map (copiesIn f)).sum = (handedOver es).count f + (freed es).count f := by
  induction es with
  | nil => rfl
  | cons e es ih =>
      rw [← List.singleton_append, handedOver_append, freed_append, List.count_append,
        List.count_append, List.map_append, List.sum_append, ih]
      simp only [List.map_singleton, List.sum_singleton, copiesIn]
      omega

/-- How many copies of `f` come in. -/
def copiesOf (f : RxSkb) : SessionInput → ℕ
  | .frame skb => if skb = f then 1 else 0
  | _ => 0

/-- **A step of a session loses no frame.** -/
lemma sessionStep_balance (h : SessionsFine s) (hfits : SessionFits s a) (f : RxSkb) :
    (sessionFrames (sessionStep (s a.1) a.2).1).count f
        + ((sessionStep (s a.1) a.2).2.map (copiesIn f)).sum
      = (sessionFrames (s a.1)).count f + copiesOf f a.2 := by
  obtain ⟨k, a⟩ := a
  rw [sum_copiesIn]
  have hfree : (handedOver (wilTidAmpduRxFree (s k))).count f
      + (freed (wilTidAmpduRxFree (s k))).count f = (sessionFrames (s k)).count f := by
    cases hold : s k with
    | none => rfl
    | some r =>
        obtain ⟨hover, hnone⟩ := (h k r hold).flushed
        rw [hover.count_eq, hnone, List.count_nil, Nat.add_zero]
        rfl
  cases a with
  | frame skb =>
      cases hold : s k with
      | none => simp [sessionStep, wilRxReorder, sessionFrames, handedOver, freed, copiesOf,
          List.count_singleton]
      | some r =>
          rcases (h k r hold).window with ⟨hinv, hsize⟩ | hzero
          · obtain ⟨r', hr', hcall⟩ := conservingCall hinv hsize skb
            have hcount := hcall.copies_eq f
            simp only [sessionStep, hr', sessionFrames, Option.elim_some, copiesOf, copies]
              at hcount ⊢
            omega
          · exact absurd hzero.bufSize_eq (hfits.2 r hold)
  | free =>
      simp only [sessionStep, copiesOf, sessionFrames, Option.elim_none, List.count_nil]
      simp only [sessionFrames] at hfree
      omega
  | alloc ok size ssn =>
      have hnew : sessionFrames (wilTidAmpduRxAlloc ok size ssn) = [] := by
        cases hr : wilTidAmpduRxAlloc ok size ssn with
        | none => rfl
        | some r =>
            obtain ⟨rfl, -⟩ := bufSize_wilTidAmpduRxAlloc hr
            exact frames_eq_nil (slot_alloc hr)
      simp only [sessionStep, copiesOf, hnew, List.count_nil]
      omega

end Session

/-! ## What a step of the driver does to the sessions -/

/-- Every session of a station is freed. -/
def freeInputs (c : Cid) : List (SessionKey × SessionInput) :=
  (List.finRange 16).map fun i => ((c, i), .free)

/-- What a step does to the sessions. -/
def StationSys.inputs (s : StationSys) : StationAction → List (SessionKey × SessionInput)
  | .back (.conn (.disconnect bssid)) => (disconnectCids s.wil bssid).flatMap freeInputs
  | .back (.backReply reply allocOk) =>
      match s.back.waiting with
      | some w =>
          if reply.result ≠ 0 then []
          else [((w.cid, w.tid), .alloc allocOk w.req.aggWsize (w.req.baSeqCtrl.toNat >>> 4))]
      | none => []
  | .back (.baStatus evt allocOk) =>
      match baStatusAccepts s.wil evt with
      | some (_, cid) => (List.finRange 16).map fun i =>
          ((cid, i), if evt.agreed then .alloc (allocOk i) evt.aggWsize.toNat 0 else .free)
      | none => []
  | .back (.rx skb) => [((skb.cid, skb.tid), .frame skb)]
  | .disconnect (some bssid) => (disconnectCids s.wil bssid).flatMap freeInputs
  | _ => []

/-- What a step does outside of the tables, but for the Tx rings. -/
def StationSys.events (s : StationSys) : StationAction → List DrvEvent
  | .back (.conn a) => s.back.conn.events a
  | .back (.backReply reply allocOk) =>
      match s.back.waiting with
      | some w => (wilBackHandleEnd s.wil w reply allocOk).2
      | none => []
  | .back (.baStatus evt allocOk) => (wmiEvtBaStatus s.wil evt allocOk).2
  | .back (.rx skb) => (wilRxReorderSta s.wil skb).2
  | .disconnect bssid => (wil6210Disconnect s.wil bssid).2
  | _ => []

/-- What the product of the sessions does on `as` is what the driver did: it leads to the same
table, and hands over and frees the same frames. -/
structure Refines (s u : Wil) (es : List DrvEvent) (as : List (SessionKey × SessionInput)) :
    Prop where
  table : u.sessions = (Machine.run (product sessionStep) s.sessions as).1
  trace : rxEvents es = (Machine.run (product sessionStep) s.sessions as).2.map Prod.snd

section Refinement

variable {s u : Wil} {es : List DrvEvent} {as : List (SessionKey × SessionInput)}

/-- Nothing happens to the sessions. -/
lemma Refines.nothing (h : ∀ c i, (u.sta c).tidRx i = (s.sta c).tidRx i) (he : rxEvents es = []) :
    Refines s u es [] :=
  ⟨funext fun k => h k.1 k.2, he⟩

lemma Refines.append {w : Wil} {fs : List DrvEvent} {bs : List (SessionKey × SessionInput)}
    (h : Refines s u es as) (h' : Refines u w fs bs) : Refines s w (es ++ fs) (as ++ bs) := by
  constructor
  · rw [Machine.run_append, h'.table, h.table]
  · rw [Machine.run_append, rxEvents_append, List.map_append, h.trace, h'.trace, h.table]

/-- Every session of one station gets an input. -/
lemma Refines.station (c : Cid) (x : Fin 16 → SessionInput)
    (htable : ∀ d i, (u.sta d).tidRx i
      = if d = c then (sessionStep ((s.sta c).tidRx i) (x i)).1 else (s.sta d).tidRx i)
    (htrace : rxEvents es
      = (List.finRange 16).flatMap fun i => (sessionStep ((s.sta c).tidRx i) (x i)).2) :
    Refines s u es ((List.finRange 16).map fun i => ((c, i), x i)) := by
  have hinj : Function.Injective fun i : Fin 16 => ((c, i) : SessionKey) :=
    fun i j hij => (Prod.mk.inj hij).2
  constructor
  · funext k
    obtain ⟨d, i⟩ := k
    rw [(Machine.run_product _ _ _).1]
    show (u.sta d).tidRx i = _
    rw [htable]
    split_ifs with hd
    · subst hd
      rw [Machine.part_map _ hinj x (List.nodup_finRange 16) i, if_pos (List.mem_finRange i)]
      rfl
    · rw [Machine.part_eq_nil]
      · rfl
      · intro y hy heq
        obtain ⟨j, -, rfl⟩ := List.mem_map.mp hy
        exact hd (congrArg Prod.fst heq).symm
  · rw [Machine.run_product_nodup, htrace, List.map_flatMap, List.flatMap_map]
    · simp only [List.map_map, Wil.sessions]
      refine congrArg (List.flatMap · _) (funext fun i => ?_)
      exact (List.map_id _).symm
    · rw [List.map_map]
      exact (List.nodup_finRange 16).map hinj

/-- `wil_disconnect_cid` -/
lemma refines_wilDisconnectCid (s : Wil) (c : Cid) :
    Refines s (wilDisconnectCid s c).1 (wilDisconnectCid s c).2 (freeInputs c) := by
  refine .station c (fun _ => .free) (fun d i => ?_) (events_wilDisconnectCid s c).1
  rw [tidRx_wilDisconnectCid]
  split_ifs <;> rfl

/-- The loop over the stations. -/
lemma refines_disconnect_run (s : Wil) (cids : List Cid) :
    Refines s (Machine.run wilDisconnectCid s cids).1 (Machine.run wilDisconnectCid s cids).2
      (cids.flatMap freeInputs) := by
  induction cids generalizing s with
  | nil => exact .nothing (fun _ _ => rfl) rfl
  | cons c cids ih =>
      rw [Machine.run_cons, List.flatMap_cons]
      exact (refines_wilDisconnectCid s c).append (ih _)

/-- `wil6210_disconnect`.  With no address it takes nothing down. -/
lemma refines_wil6210Disconnect (s : Wil) (bssid : Option MacAddr) :
    Refines s (wil6210Disconnect s bssid).1 (wil6210Disconnect s bssid).2
      (bssid.elim [] fun mac => (disconnectCids s mac).flatMap freeInputs) := by
  have hstations : Refines s (disconnectStations s bssid).1 (disconnectStations s bssid).2
      (bssid.elim [] fun mac => (disconnectCids s mac).flatMap freeInputs) := by
    cases bssid with
    | none =>
        refine .nothing (fun _ _ => ?_) ?_ <;> simp [disconnectStations, rxEvents]
    | some mac =>
        rw [disconnectStations_run]
        exact refines_disconnect_run s _
  have hlink : Refines (disconnectStations s bssid).1 (wil6210Disconnect s bssid).1
      (disconnectLink (disconnectStations s bssid).1 bssid).2 [] := by
    refine .nothing (fun _ _ => ?_) (events_disconnectLink _ _).1
    rw [wil6210Disconnect, sta_disconnectLink]
  have hboth := hstations.append hlink
  rw [List.append_nil] at hboth
  exact ⟨hboth.table, hboth.trace⟩

/-- A DISCONNECT event. -/
lemma refines_wmiEvtDisconnect (s : Wil) (bssid : MacAddr) :
    Refines s (wmiEvtDisconnect s bssid).1 (wmiEvtDisconnect s bssid).2
      ((disconnectCids s bssid).flatMap freeInputs) := by
  have h := refines_wil6210Disconnect { s with sinfoGen := s.sinfoGen + 1 } (some bssid)
  exact ⟨h.table, h.trace⟩

/-- A received frame. -/
lemma refines_wilRxReorderSta (s : Wil) (skb : RxSkb) :
    Refines s (wilRxReorderSta s skb).1 (wilRxReorderSta s skb).2
      [((skb.cid, skb.tid), .frame skb)] := by
  constructor
  · funext k
    obtain ⟨c, i⟩ := k
    show ((s.setTidRx skb.cid skb.tid _).sta c).tidRx i
      = Function.update s.sessions (skb.cid, skb.tid) _ (c, i)
    rw [tidRx_setTidRx, Function.update_apply]
    simp only [Prod.mk.injEq]
    rfl
  · rw [wilRxReorderSta, rxEvents_map_rx, Machine.run_cons]
    simp [product, sessionStep, Wil.sessions]

/-- The reply to the answer to an ADDBA request. -/
lemma refines_wilBackHandleEnd (s : Wil) (w : BackWait) (reply : AddbaReply) (allocOk : Bool) :
    Refines s (wilBackHandleEnd s w reply allocOk).1 (wilBackHandleEnd s w reply allocOk).2
      (if reply.result ≠ 0 then []
        else [((w.cid, w.tid), .alloc allocOk w.req.aggWsize (w.req.baSeqCtrl.toNat >>> 4))]) := by
  rw [wilBackHandleEnd]
  split_ifs
  · exact .nothing (fun _ _ => rfl) rfl
  · constructor
    · funext k
      obtain ⟨c, i⟩ := k
      show ((s.setTidRx w.cid w.tid _).sta c).tidRx i
        = Function.update s.sessions (w.cid, w.tid) _ (c, i)
      rw [tidRx_setTidRx, Function.update_apply]
      simp only [Prod.mk.injEq]
      rfl
    · rw [rxEvents_map_rx, Machine.run_cons]
      simp [product, sessionStep, Wil.sessions]

/-- A BA status event. -/
lemma refines_wmiEvtBaStatus (s : Wil) (evt : WmiVringBaStatusEvent) (allocOk : Fin 16 → Bool) :
    Refines s (wmiEvtBaStatus s evt allocOk).1 (wmiEvtBaStatus s evt allocOk).2
      (match baStatusAccepts s evt with
        | some (_, cid) => (List.finRange 16).map fun i =>
            ((cid, i), if evt.agreed then .alloc (allocOk i) evt.aggWsize.toNat 0 else .free)
        | none => []) := by
  rw [wmiEvtBaStatus]
  cases baStatusAccepts s evt with
  | none => exact .nothing (fun _ _ => rfl) rfl
  | some p =>
      refine .station p.2 _ (fun d i => ?_) ?_
      · by_cases hd : d = p.2
        · subst hd
          simp only [Function.update_self, if_true]
          split_ifs <;> rfl
        · simp only [Function.update_of_ne hd, if_neg hd]
      · rw [show ∀ f : Fin 16 → List RxEvent, rxEvents ((List.finRange 16).flatMap fun i =>
            (f i).map DrvEvent.rx) = (List.finRange 16).flatMap fun i => rxEvents ((f i).map .rx)
            from fun f => List.filterMap_flatMap]
        refine congrArg (List.flatMap · _) (funext fun i => ?_)
        rw [rxEvents_map_rx]
        split_ifs <;> rfl

/-- A step of the connection that is not a DISCONNECT does nothing to the sessions. -/
lemma refines_conn {c d : ConnSys} {a : ConnAction} (ha : ∀ bssid, a ≠ .disconnect bssid)
    (htraffic : ∀ w, a ≠ .traffic w) (hd : c.step a = some d) :
    Refines c.wil d.wil (c.events a) [] := by
  cases a with
  | connect evt len =>
      have hnone : rxEvents (wmiEvtConnect c.wil evt len).2 = [] := by
        simp only [wmiEvtConnect]
        cases connectAccepts c.wil evt len with
        | none => rfl
        | some cid => cases hmode : c.wil.iftype <;> simp [connectReport, hmode, rxEvents]
      obtain ⟨-, rfl⟩ | ⟨cid, -, rfl⟩ := ConnSys.step_connect hd
      · exact .nothing (fun _ _ => rfl) hnone
      · exact .nothing (fun x i => tidRx_wmiEvtConnect x i evt len) hnone
  | disconnect bssid => exact absurd rfl (ha bssid)
  | start =>
      obtain ⟨-, -, rfl⟩ := ConnSys.step_start hd
      exact .nothing (fun _ _ => rfl) rfl
  | alloc ok =>
      obtain ⟨cid, tid, id, hw, hd⟩ := ConnSys.step_alloc hd
      have hnone : rxEvents (c.events (.alloc ok)) = [] := by
        simp only [ConnSys.events, hw, wilVringInitTxBegin]
        split_ifs <;> rfl
      refine .nothing (fun x i => ?_) hnone
      split_ifs at hd <;> subst hd <;> rw [sta_wilVringInitTxBegin]
  | reply r =>
      obtain ⟨cid, id, hw, rfl⟩ := ConnSys.step_reply hd
      have hnone : rxEvents (c.events (.reply r)) = [] := by
        simp only [ConnSys.events, hw, wilVringInitTxEnd]
        split_ifs
        · exact rxEvents_map_tx _
        · exact rxEvents_map_tx _
        · rfl
      refine .nothing (fun x i => ?_) hnone
      rw [sta_wilVringInitTxEnd]
  | clear =>
      obtain ⟨cid, rc, -, rfl⟩ := ConnSys.step_clear hd
      exact .nothing (fun _ _ => rfl) rfl
  | finish =>
      obtain ⟨cid, rc, hw, rfl⟩ := ConnSys.step_finish hd
      refine .nothing (fun x i => tidRx_connectFinish cid x i rc) ?_
      simp only [ConnSys.events, hw, connectFinish]
      split_ifs <;> rfl
  | traffic w => exact absurd rfl (htraffic w)

end Refinement

/-- **Every step of the driver does to the sessions what their product does on its inputs.** -/
theorem refines_step {s t : StationSys} {a : StationAction} (ht : s.step a = some t) :
    Refines s.wil t.wil (s.events a) (s.inputs a) := by
  cases a with
  | back a =>
      obtain ⟨b, hb, rfl⟩ := Option.map_eq_some_iff.mp ht
      cases a with
      | conn a =>
          obtain ⟨htraffic, d, hd, rfl⟩ := BackSys.step_conn hb
          cases a with
          | disconnect bssid =>
              obtain rfl := Option.some.inj hd
              exact refines_wmiEvtDisconnect s.wil bssid
          | _ => exact refines_conn (by simp) htraffic hd
      | addbaRequest req allocOk =>
          obtain rfl := Option.some.inj hb
          exact .nothing (fun _ _ => rfl) rfl
      | back =>
          obtain ⟨req, rest, -, -, rfl⟩ := BackSys.step_back hb
          exact .nothing (fun _ _ => rfl) rfl
      | backReply reply allocOk =>
          obtain ⟨w, hw, rfl⟩ := BackSys.step_backReply hb
          simp only [StationSys.events, StationSys.inputs, hw]
          exact refines_wilBackHandleEnd s.wil w reply allocOk
      | baStatus evt allocOk =>
          obtain rfl := Option.some.inj hb
          exact refines_wmiEvtBaStatus s.wil evt allocOk
      | rx skb =>
          obtain rfl := Option.some.inj hb
          exact refines_wilRxReorderSta s.wil skb
  | disconnect bssid =>
      obtain rfl := Option.some.inj ht
      have h := refines_wil6210Disconnect s.wil bssid
      cases bssid <;> exact h
  | config smeState tidToUse =>
      obtain rfl := Option.some.inj ht
      exact .nothing (fun _ _ => rfl) rfl
  | xmit q =>
      obtain rfl := Option.some.inj ht
      refine .nothing (fun c i => ?_) rfl
      show ((wilStartXmit s.wil q).wil.sta c).tidRx i = _
      rw [(txOnly_wilStartXmit s.wil q).sta_eq]
  | hwDone i k error =>
      simp only [StationSys.step, Option.ite_none_right_eq_some, Option.some.injEq] at ht
      obtain ⟨-, rfl⟩ := ht
      exact .nothing (fun _ _ => rfl) rfl
  | complete i =>
      obtain rfl := Option.some.inj ht
      exact .nothing (fun _ _ => rfl) rfl
  | count stats =>
      obtain rfl := Option.some.inj ht
      exact .nothing (fun _ _ => rfl) rfl

/-- The inputs of a step fit, where its frame, if it has one, finds a session with a slot. -/
lemma fits_step {s t : StationSys} {a : StationAction} (ht : s.step a = some t)
    (hrx : ∀ skb, a = .back (.rx skb) → ∀ r, s.wil.sessions (skb.cid, skb.tid) = some r →
      r.bufSize ≠ 0) :
    Machine.Exec (silent (product sessionStep)) SessionFits s.wil.sessions (s.inputs a)
      t.wil.sessions := by
  rw [(refines_step ht).table]
  have hfree : ∀ cids : List Cid, ∀ x ∈ cids.flatMap freeInputs, ∀ u, SessionFits u x := by
    rintro cids x hx u
    obtain ⟨c, -, hx⟩ := List.mem_flatMap.mp hx
    obtain ⟨i, -, rfl⟩ := List.mem_map.mp hx
    trivial
  by_cases hframe : ∃ skb, a = .back (.rx skb)
  · obtain ⟨skb, rfl⟩ := hframe
    exact ⟨⟨rfl, hrx skb rfl⟩, _, rfl, rfl⟩
  · refine .of_forall ?_
    cases a with
    | back a =>
        cases a with
        | conn a =>
            cases a with
            | disconnect bssid => exact hfree _
            | _ => simp [StationSys.inputs]
        | backReply reply allocOk =>
            simp only [StationSys.inputs]
            split
            · rename_i w _
              split_ifs
              · simp
              · intro x hx u
                obtain rfl := List.mem_singleton.mp hx
                exact ⟨lt_of_le_of_lt (Nat.min_le_left _ _) (by decide), w.req.ssn_lt⟩
            · simp
        | baStatus evt allocOk =>
            simp only [StationSys.inputs]
            split
            · intro x hx u
              obtain ⟨i, -, rfl⟩ := List.mem_map.mp hx
              split_ifs
              · exact ⟨evt.aggWsize.toNat_lt, by decide⟩
              · trivial
            · simp
        | rx skb => exact absurd ⟨skb, rfl⟩ hframe
        | _ => simp [StationSys.inputs]
    | disconnect bssid =>
        cases bssid with
        | none => simp [StationSys.inputs]
        | some mac => exact hfree _
    | _ => simp [StationSys.inputs]

end Wil6210
