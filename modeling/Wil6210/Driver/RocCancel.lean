import Wil6210.Driver.Roc

/-!
# Whom a cancel ends

A cancel carries the cookie of the operation it is for: the cookie of a remain-on-channel, or the
one that was given out for a frame (`WilRoc.given`).  The driver compares it with `roc->cookie`, and
reports a mismatch as an error; then it flushes the work item, whoever that belongs to.

`cancelsNamed_iff` says in which runs every cancel ends the operation it names, if that is still
active, and no other: if and only if no cancel finds an operation waiting that was given another
cookie.
-/

namespace Wil6210

variable {s t : RocSys}

/-- A cancel did as it should: the operation it names does not wait any longer, and another one is
not cut short. -/
def RocEvent.Named : RocEvent → Prop
  | .cancel cookie target cut =>
      (target = some cookie → cut = true) ∧ ∀ c, target = some c → c ≠ cookie → cut = false
  | _ => True

/-- **What must hold** of the cancels of a run. -/
def CancelsNamed (s : RocSys) : Prop := ∀ e ∈ s.log, e.Named

/-- Where an operation waits for its timer, the cancel is for this one. -/
def NamesTarget (s : RocSys) : RocAction → Prop
  | .cancelRemainOnChannel cookie | .mgmtTxCancelWait cookie =>
      s.work = .delayed → s.wil.roc.given = cookie
  | _ => True

/-! ## One step -/

/-- Where no operation waits, a cancel changes nothing. -/
lemma cancelCall_of_not_delayed (hwork : s.work ≠ .delayed) (cookie : ℕ) :
    s.cancelCall cookie = { s with log := s.log ++ [.cancel cookie none false] } := by
  simp [RocSys.cancelCall, RocSys.wilCancelRoc, hwork]

/-- Where one waits, it does not any more. -/
lemma cancelCall_of_delayed (hwork : s.work = .delayed) (cookie : ℕ) : s.cancelCall cookie
    = { s with work := .ready, log := s.log ++ [.cancel cookie (some s.wil.roc.given) true] } := by
  simp [RocSys.cancelCall, RocSys.wilCancelRoc, hwork]

lemma cancelsNamed_append (es : List RocEvent) (hlog : t.log = s.log ++ es) :
    CancelsNamed t ↔ CancelsNamed s ∧ ∀ e ∈ es, e.Named := by
  rw [CancelsNamed, hlog]
  exact List.forall_mem_append

/-- A cancel keeps the law if and only if it names the operation that waits. -/
lemma cancelsNamed_cancelCall (s : RocSys) (cookie : ℕ) : CancelsNamed (s.cancelCall cookie)
    ↔ CancelsNamed s ∧ (s.work = .delayed → s.wil.roc.given = cookie) := by
  by_cases hwork : s.work = .delayed
  · rw [cancelCall_of_delayed hwork,
      cancelsNamed_append (s := s) [.cancel cookie (some s.wil.roc.given) true] rfl]
    simp only [List.mem_singleton, forall_eq, RocEvent.Named, implies_true, true_and,
      Option.some.injEq, reduceCtorEq, imp_false, not_not, hwork, forall_const, forall_eq']
  · rw [cancelCall_of_not_delayed hwork,
      cancelsNamed_append (s := s) [.cancel cookie none false] rfl]
    simp [RocEvent.Named, hwork]

/-- No other event is a cancel. -/
lemma named_tell (s : RocSys) (es : List CfgEvent) : ∀ e ∈ s.tell es, e.Named := by
  intro e he
  obtain ⟨_, -, rfl⟩ := List.mem_map.mp he
  trivial

lemma cancelsNamed_out {rc : ℤ} (hlog : t.log = s.log) :
    CancelsNamed (t.out rc) ↔ CancelsNamed s := by
  rw [cancelsNamed_append (s := s) (t.tell (rocFinish t.wil rc).2 ++ [.returned rc])
    (by rw [RocSys.out, hlog])]
  refine and_iff_left fun e he => ?_
  rcases List.mem_append.mp he with hmem | hmem
  · exact named_tell t _ e hmem
  · obtain rfl := List.mem_singleton.mp hmem
    trivial

lemma cancelsNamed_rocReply (s : RocSys) (rc : ℤ) (stage : RocStage) :
    CancelsNamed (s.rocReply rc stage) ↔ CancelsNamed s := by
  cases stage with
  | p2pCfg =>
      rw [RocSys.rocReply]
      split_ifs
      · exact cancelsNamed_out rfl
      · rfl
  | setSsid =>
      rw [RocSys.rocReply]
      split_ifs <;> rfl
  | startListen =>
      rw [RocSys.rocReply]
      split_ifs
      · rfl
      · exact cancelsNamed_out rfl
  | stop rc' => exact cancelsNamed_out rfl

lemma cancelsNamed_prepare (s : RocSys) (req : RocRequest) :
    CancelsNamed (s.prepare req) ↔ CancelsNamed s := by
  have hlogged : ∀ (u : RocSys) (e : RocEvent), e.Named → u.log = s.log ++ [e] →
      (CancelsNamed u ↔ CancelsNamed s) := fun u e hnamed hlog => by
    rw [cancelsNamed_append [e] hlog]
    exact and_iff_left fun e' he' => List.mem_singleton.mp he' ▸ hnamed
  rw [RocSys.prepare]
  by_cases hcookie : s.wil.roc.cookie = 0
  · rw [if_neg (not_not.mpr hcookie)]
    dsimp only
    cases wmiP2pCfg (rocPrepare s.wil (some req.buf)) with
    | none => exact (cancelsNamed_out rfl).trans (hlogged
        { s with log := s.log ++ [.accepted _ _] } (.accepted _ _) trivial rfl)
    | some w => exact hlogged _ (.accepted _ _) trivial rfl
  · rw [if_pos hcookie]
    exact hlogged _ (.refused eBusy) trivial rfl

/-- **One step** keeps the law if and only if it meets the condition. -/
lemma cancelsNamed_step {a : RocAction} (ht : s.step a = some t) :
    CancelsNamed t ↔ CancelsNamed s ∧ NamesTarget s a := by
  cases a with
  | cancelRemainOnChannel cookie | mgmtTxCancelWait cookie =>
      obtain rfl := Option.some.inj ht
      exact cancelsNamed_cancelCall s cookie
  | prepare req =>
      simp only [RocSys.step] at ht
      split_ifs at ht
      · obtain rfl := Option.some.inj ht
        rw [cancelsNamed_append (s := s) [.refused eInval] rfl]
        simp [RocEvent.Named, NamesTarget]
      · obtain rfl := Option.some.inj ht
        simpa [NamesTarget] using cancelsNamed_prepare s req
  | reply rc =>
      simp only [RocSys.step] at ht
      split at ht
      · obtain rfl := Option.some.inj ht
        simpa [NamesTarget] using cancelsNamed_rocReply s rc _
      · exact absurd ht (by simp)
  | timer | run =>
      obtain ⟨-, ht⟩ := Option.ite_none_right_eq_some.mp ht
      obtain rfl := Option.some.inj ht
      exact (and_iff_left trivial).symm
  | stopped =>
      obtain ⟨-, ht⟩ := Option.ite_none_right_eq_some.mp ht
      obtain rfl := Option.some.inj ht
      rw [cancelsNamed_append (s := s) (s.tell (rocCancelled s.wil).2 ++ [.over]) rfl]
      refine and_congr_right fun _ => iff_of_true (fun e he => ?_) trivial
      rcases List.mem_append.mp he with hmem | hmem
      · exact named_tell s _ e hmem
      · obtain rfl := List.mem_singleton.mp hmem
        trivial
  | other scanRequest dontscan =>
      obtain rfl := Option.some.inj ht
      exact (and_iff_left trivial).symm

/-! ## Every run -/

/-- **When the cancels name their targets**: if and only if none finds an operation waiting that was
given another cookie. -/
theorem cancelsNamed_iff {iftype : Iftype} {as : List RocAction} {t : RocSys}
    (h : Machine.Exec RocSys.step (fun _ _ => True) (RocSys.init iftype) as t) :
    CancelsNamed t ↔ Machine.Exec RocSys.step NamesTarget (RocSys.init iftype) as t := by
  have hlaw := h.law_iff (I := fun _ => True) (L := CancelsNamed) (G := NamesTarget)
    (fun _ _ _ _ _ => trivial) (fun _ _ _ ht _ => cancelsNamed_step ht) trivial
  rw [hlaw]
  exact and_iff_right fun e he => absurd he List.not_mem_nil

/-- A remain-on-channel that starts, with three commands that succeed. -/
def startRoc : List RocAction :=
  [.prepare ⟨⟨60480, 2⟩, 0, 0, 100, true⟩, .reply 0, .reply 0, .reply 0]

/-- A remain-on-channel is cancelled with its cookie. -/
theorem cancelsNamed_iff_own : ∃ t, CancelsNamed t ∧ t.work = .ready := by
  have hrun : Machine.Exec RocSys.step NamesTarget (RocSys.init .p2pClient)
      (startRoc ++ [.cancelRemainOnChannel 1]) _ :=
    ⟨trivial, _, rfl, trivial, _, rfl, trivial, _, rfl, trivial, _, rfl, fun _ => rfl, _, rfl, rfl⟩
  exact ⟨_, (cancelsNamed_iff (hrun.weaken fun _ _ _ => trivial)).mpr hrun, rfl⟩

/-- The first remain-on-channel expires and a second one starts; the late cancel of the first one
ends the second. -/
theorem not_cancelsNamed : ¬ ∀ (iftype : Iftype) (as : List RocAction) (t : RocSys),
    Machine.Exec RocSys.step (fun _ _ => True) (RocSys.init iftype) as t → CancelsNamed t := by
  intro h
  have hrun : Machine.Exec RocSys.step (fun _ _ => True) (RocSys.init .p2pClient)
      (startRoc ++ [RocAction.timer, .run, .stopped] ++ startRoc ++
        [RocAction.cancelRemainOnChannel 1]) _ :=
    ⟨trivial, _, rfl, trivial, _, rfl, trivial, _, rfl, trivial, _, rfl, trivial, _, rfl, trivial, _,
      rfl, trivial, _, rfl, trivial, _, rfl, trivial, _, rfl, trivial, _, rfl, trivial, _, rfl,
      trivial, _, rfl, rfl⟩
  have hbad := h _ _ _ hrun (.cancel 1 (some 2) true) (List.mem_append_right _ (by decide))
  exact absurd (hbad.2 2 rfl (by decide)) (by decide)

end Wil6210
