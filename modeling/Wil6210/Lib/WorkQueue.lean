import Wil6210.Lib.Machine

/-!
# Work that is put off

A work item belongs to a worker of its own.  It is queued at most once, and can be queued again as
soon as it runs.  `Work` is such an item; a flush waits for the runs that are ahead of it, and for no
others (`Work.Covered`).

`Queue` is a list that the worker empties.  Whoever adds to the list queues the work in a step of its
own behind that, so there are moments where the list is not empty and nothing is queued.  `Sound` is
what holds at every moment: items leave the list in the order they came in, and a list that is not
empty has somebody to look after it.  `rank` bounds what the worker does before it comes to rest
(`rank_lt`), and it does not rest before the list is empty (`resting_of_settled`).
-/

namespace WorkQueue

/-! ## One work item -/

/-- A work item: is it queued, does it run, and how many runs does a flush still wait for. -/
structure Work where
  queued : Bool
  running : Bool
  ahead : ℕ
  deriving DecidableEq, Repr

namespace Work

variable {w v : Work}

def init : Work := ⟨false, false, 0⟩

/-- Neither queued nor running. -/
def Idle (w : Work) : Prop := w.queued = false ∧ w.running = false

instance (w : Work) : Decidable w.Idle := inferInstanceAs (Decidable (_ ∧ _))

/-- It is queued, if it is not queued already. -/
def queue (w : Work) : Work := { w with queued := true }

/-- The worker takes it up. -/
def start (w : Work) : Option Work :=
  if w.queued = true ∧ w.running = false then some { w with queued := false, running := true }
  else none

/-- A run ends. -/
def finish (w : Work) : Option Work :=
  if w.running = true then some { w with running := false, ahead := w.ahead - 1 } else none

/-- The runs that are due. -/
def runs (w : Work) : ℕ := w.queued.toNat + w.running.toNat

/-- A flush begins. -/
def barrier (w : Work) : Work := { w with ahead := w.runs }

/-- The flush waits for all runs there are. -/
def Covered (w : Work) : Prop := w.ahead = w.runs

instance (w : Work) : Decidable w.Covered := inferInstanceAs (Decidable (_ = _))

lemma start_eq_some (h : w.start = some v) :
    w.queued = true ∧ w.running = false ∧ v = { w with queued := false, running := true } := by
  rw [start] at h
  split_ifs at h with hw
  exact ⟨hw.1, hw.2, (Option.some.inj h).symm⟩

lemma finish_eq_some (h : w.finish = some v) :
    w.running = true ∧ v = { w with running := false, ahead := w.ahead - 1 } := by
  rw [finish] at h
  split_ifs at h with hw
  exact ⟨hw, (Option.some.inj h).symm⟩

lemma runs_start (h : w.start = some v) : v.runs = w.runs := by
  obtain ⟨hqueued, hrunning, rfl⟩ := start_eq_some h
  simp [runs, hqueued, hrunning]

lemma runs_finish (h : w.finish = some v) : v.runs + 1 = w.runs := by
  obtain ⟨hrunning, rfl⟩ := finish_eq_some h
  simp [runs, hrunning]

/-- An idle item is not taken up, and has no run to end. -/
lemma Idle.start (hw : w.Idle) : w.start = none := by
  simp [Work.start, hw.1]

lemma Idle.finish (hw : w.Idle) : w.finish = none := by
  simp [Work.finish, hw.2]

lemma covered_barrier (w : Work) : w.barrier.Covered := rfl

lemma Covered.start (hw : w.Covered) (h : w.start = some v) : v.Covered := by
  rw [Covered, runs_start h, ← hw]
  obtain ⟨-, -, rfl⟩ := start_eq_some h
  rfl

lemma Covered.finish (hw : w.Covered) (h : w.finish = some v) : v.Covered := by
  have hruns := runs_finish h
  obtain ⟨-, rfl⟩ := finish_eq_some h
  rw [Covered] at hw ⊢
  show w.ahead - 1 = _
  omega

/-- To queue what is queued already makes no run. -/
lemma Covered.queue (hw : w.Covered) (h : w.queued = true) : w.queue.Covered := by
  have hsame : w.queue = w := by
    rw [Work.queue, ← h]
  rwa [hsame]

/-- **Behind the flush** nothing is queued and nothing runs. -/
lemma Covered.idle (hw : w.Covered) (h : w.ahead = 0) : w.Idle := by
  rw [Covered, h, runs] at hw
  constructor
  · exact (Bool.toNat_eq_zero).mp (by omega)
  · exact (Bool.toNat_eq_zero).mp (by omega)

end Work

/-! ## A list of items -/

/-- A list of items, and the work that empties it. -/
structure Queue (α : Type*) where
  work : Work
  /-- how many have added an item and not yet queued the work -/
  posting : ℕ
  pending : List α
  /-- the item that the worker has in its hands -/
  current : Option α
  /-- all items that were ever added -/
  added : List α
  /-- the items that have left the list: taken by the worker, or dropped -/
  gone : List (α × Bool)

inductive Op (α : Type*)
  | add (a : α)
  /-- the work is queued for an item that was added -/
  | queue
  | start
  /-- the worker takes the first item -/
  | take
  /-- the worker is done with it -/
  | done
  /-- the worker finds the list empty, and returns -/
  | stop
  /-- the list is emptied over the worker's head -/
  | drop
  /-- a flush of the work begins -/
  | flush

/-- The steps of the worker, and those that queue it. -/
def Op.Internal {α : Type*} : Op α → Prop
  | .queue | .start | .take | .done | .stop => True
  | .add _ | .drop | .flush => False

namespace Queue

variable {α : Type*} {q r : Queue α} {o : Op α} {ops : List (Op α)}

/-- Nothing there. -/
def init : Queue α := ⟨.init, 0, [], none, [], []⟩

/-- One step. -/
def step (q : Queue α) : Op α → Option (Queue α)
  | .add a =>
      some { q with pending := q.pending ++ [a], added := q.added ++ [a], posting := q.posting + 1 }
  | .queue =>
      if 0 < q.posting then some { q with posting := q.posting - 1, work := q.work.queue } else none
  | .start => q.work.start.map fun w => { q with work := w }
  | .take =>
      match q.pending with
      | a :: rest =>
          if q.work.running = true ∧ q.current.isNone then
            some { q with pending := rest, current := some a, gone := q.gone ++ [(a, true)] }
          else none
      | [] => none
  | .done => if q.current.isSome then some { q with current := none } else none
  | .stop =>
      if q.pending = [] ∧ q.current.isNone then q.work.finish.map fun w => { q with work := w }
      else none
  | .drop => some { q with pending := [], gone := q.gone ++ q.pending.map fun a => (a, false) }
  | .flush => some { q with work := q.work.barrier }

/-- The items that the worker took, in order. -/
def taken (q : Queue α) : List α := (q.gone.filter Prod.snd).map Prod.fst

/-- Nobody is about to look at the list. -/
def Resting (q : Queue α) : Prop := q.posting = 0 ∧ q.work.Idle

instance (q : Queue α) : Decidable q.Resting := inferInstanceAs (Decidable (_ ∧ _))

/-- What holds at every moment. -/
structure Sound (q : Queue α) : Prop where
  /-- items leave the list in the order they came in -/
  order : q.gone.map Prod.fst ++ q.pending = q.added
  /-- a list that is not empty has somebody to look after it -/
  awake : q.pending ≠ [] → ¬ q.Resting
  /-- the worker has an item only while it runs -/
  running : q.current.isSome → q.work.running = true
  ahead_le : q.work.ahead ≤ q.work.runs

lemma sound_init : (init : Queue α).Sound :=
  ⟨rfl, fun h => absurd rfl h, fun h => absurd h (by simp [init]), le_rfl⟩

/-! ## The steps -/

lemma step_queue (h : q.step .queue = some r) :
    0 < q.posting ∧ r = { q with posting := q.posting - 1, work := q.work.queue } := by
  rw [step] at h
  split_ifs at h with hposting
  exact ⟨hposting, (Option.some.inj h).symm⟩

lemma step_start (h : q.step .start = some r) :
    ∃ w, q.work.start = some w ∧ r = { q with work := w } := by
  obtain ⟨w, hw, rfl⟩ := Option.map_eq_some_iff.mp h
  exact ⟨w, hw, rfl⟩

lemma step_take (h : q.step .take = some r) : ∃ a rest, q.pending = a :: rest ∧
    q.work.running = true ∧ q.current = none ∧
    r = { q with pending := rest, current := some a, gone := q.gone ++ [(a, true)] } := by
  rw [step] at h
  split at h
  · rename_i a rest hpending
    split_ifs at h with hcond
    exact ⟨a, rest, hpending, hcond.1, Option.isNone_iff_eq_none.mp hcond.2,
      (Option.some.inj h).symm⟩
  · exact absurd h (by simp)

lemma step_done (h : q.step .done = some r) :
    q.current.isSome = true ∧ r = { q with current := none } := by
  rw [step] at h
  split_ifs at h with hsome
  exact ⟨hsome, (Option.some.inj h).symm⟩

lemma step_stop (h : q.step .stop = some r) : q.pending = [] ∧ q.current = none ∧
    ∃ w, q.work.finish = some w ∧ r = { q with work := w } := by
  rw [step] at h
  split_ifs at h with hcond
  obtain ⟨w, hw, rfl⟩ := Option.map_eq_some_iff.mp h
  exact ⟨hcond.1, Option.isNone_iff_eq_none.mp hcond.2, w, hw, rfl⟩

/-- **Every step keeps the queue sound.** -/
theorem Sound.step (h : q.Sound) (ho : q.step o = some r) : r.Sound := by
  cases o with
  | add a =>
      obtain rfl := Option.some.inj ho
      refine ⟨?_, ?_, h.running, h.ahead_le⟩
      · rw [← h.order, List.append_assoc]
      · rintro - ⟨hposting, -⟩
        exact absurd hposting (Nat.succ_ne_zero _)
  | queue =>
      obtain ⟨hposting, rfl⟩ := step_queue ho
      refine ⟨h.order, ?_, h.running, h.ahead_le.trans ?_⟩
      · rintro - ⟨-, hqueued, -⟩
        exact absurd hqueued (by simp [Work.queue])
      · show _ + _ ≤ _ + _
        cases hq : q.work.queued <;> simp [Work.queue]
  | start =>
      obtain ⟨w, hw, rfl⟩ := step_start ho
      have hruns := Work.runs_start hw
      obtain ⟨-, -, rfl⟩ := Work.start_eq_some hw
      refine ⟨h.order, ?_, fun _ => rfl, ?_⟩
      · rintro - ⟨-, -, hrunning⟩
        exact absurd hrunning (by simp)
      · rw [hruns]
        exact h.ahead_le
  | take =>
      obtain ⟨a, rest, hpending, hrunning, -, rfl⟩ := step_take ho
      refine ⟨?_, ?_, fun _ => hrunning, h.ahead_le⟩
      · rw [← h.order, hpending]
        simp
      · rintro - ⟨-, -, hstopped⟩
        exact absurd (hrunning.symm.trans hstopped) (by simp)
  | done =>
      obtain ⟨-, rfl⟩ := step_done ho
      exact ⟨h.order, h.awake, fun hsome => absurd hsome (by simp), h.ahead_le⟩
  | stop =>
      obtain ⟨hpending, hcurrent, w, hw, rfl⟩ := step_stop ho
      have hruns := Work.runs_finish hw
      have hahead := h.ahead_le
      obtain ⟨-, rfl⟩ := Work.finish_eq_some hw
      refine ⟨h.order, fun hne => absurd hpending hne, fun hsome => ?_, ?_⟩
      · rw [hcurrent] at hsome
        exact absurd hsome (by simp)
      · exact Nat.sub_le_of_le_add (hruns ▸ hahead)
  | drop =>
      obtain rfl := Option.some.inj ho
      refine ⟨?_, fun hne => absurd rfl hne, h.running, h.ahead_le⟩
      rw [← h.order, List.append_nil, List.map_append, List.map_map]
      exact congrArg (q.gone.map Prod.fst ++ ·) (List.map_id _)
  | flush =>
      obtain rfl := Option.some.inj ho
      exact ⟨h.order, h.awake, h.running, le_rfl⟩

/-- An idle worker has no item in its hands. -/
lemma Sound.current_of_idle (h : q.Sound) (hidle : q.work.Idle) : q.current = none := by
  rw [← Option.not_isSome_iff_eq_none]
  intro hsome
  exact absurd ((h.running hsome).symm.trans hidle.2) (by simp)

/-- **Whoever finds nothing to do finds nothing left**: at rest, all that was added has left the
list. -/
lemma Sound.rest (h : q.Sound) (hrest : q.Resting) :
    q.pending = [] ∧ q.current = none ∧ q.gone.map Prod.fst = q.added := by
  have hpending : q.pending = [] := by
    by_contra hne
    exact h.awake hne hrest
  refine ⟨hpending, h.current_of_idle hrest.2, ?_⟩
  rw [← h.order, hpending, List.append_nil]

/-! ## Behind a flush -/

/-- The worker does not add, and does not queue anew what nobody is about to queue. -/
lemma internal_keeps (ho : o.Internal) (h : q.step o = some r) :
    r.posting ≤ q.posting ∧ (q.pending = [] → r.pending = []) ∧
      (q.posting = 0 → q.work.Covered → r.work.Covered) ∧
      (q.posting = 0 → q.work.Idle → r.work.Idle) := by
  cases o with
  | queue =>
      obtain ⟨hposting, rfl⟩ := step_queue h
      exact ⟨Nat.sub_le _ _, id, fun hzero => absurd hzero hposting.ne', fun hzero =>
        absurd hzero hposting.ne'⟩
  | start =>
      obtain ⟨w, hw, rfl⟩ := step_start h
      refine ⟨le_rfl, id, fun _ hcovered => hcovered.start hw, fun _ hidle => ?_⟩
      rw [hidle.start] at hw
      exact absurd hw (by simp)
  | take =>
      obtain ⟨a, rest, hpending, -, -, rfl⟩ := step_take h
      exact ⟨le_rfl, fun hnil => absurd (hpending.symm.trans hnil) (by simp), fun _ => id,
        fun _ => id⟩
  | done =>
      obtain ⟨-, rfl⟩ := step_done h
      exact ⟨le_rfl, id, fun _ => id, fun _ => id⟩
  | stop =>
      obtain ⟨-, -, w, hw, rfl⟩ := step_stop h
      refine ⟨le_rfl, id, fun _ hcovered => hcovered.finish hw, fun _ hidle => ?_⟩
      rw [hidle.finish] at hw
      exact absurd hw (by simp)
  | add a => exact absurd ho id
  | drop => exact absurd ho id
  | flush => exact absurd ho id

/-! ## The worker comes to rest -/

/-- What is left to do. -/
def rank (q : Queue α) : ℕ :=
  3 * q.posting + 2 * q.work.queued.toNat + q.work.running.toNat + 2 * q.pending.length
    + q.current.isSome.toNat

/-- **Every step of the worker leaves less to do.** -/
lemma rank_lt (ho : o.Internal) (h : q.step o = some r) : r.rank < q.rank := by
  cases o with
  | queue =>
      obtain ⟨hposting, rfl⟩ := step_queue h
      have hqueued := Bool.toNat_le q.work.queued
      simp only [rank, Work.queue, Bool.toNat_true]
      omega
  | start =>
      obtain ⟨w, hw, rfl⟩ := step_start h
      obtain ⟨hqueued, hrunning, rfl⟩ := Work.start_eq_some hw
      simp [rank, hqueued, hrunning]
  | take =>
      obtain ⟨a, rest, hpending, -, hcurrent, rfl⟩ := step_take h
      simp only [rank, hpending, hcurrent, List.length_cons, Option.isSome_none,
        Option.isSome_some, Bool.toNat_false, Bool.toNat_true]
      omega
  | done =>
      obtain ⟨hsome, rfl⟩ := step_done h
      simp [rank, hsome]
  | stop =>
      obtain ⟨-, -, w, hw, rfl⟩ := step_stop h
      obtain ⟨hrunning, rfl⟩ := Work.finish_eq_some hw
      simp [rank, hrunning]
  | add a => exact absurd ho id
  | drop => exact absurd ho id
  | flush => exact absurd ho id

/-- **The worker rests only when there is nothing left.** -/
lemma resting_of_settled (hnone : ∀ o, o.Internal → q.step o = none) : q.Resting := by
  have hposting : q.posting = 0 := by
    by_contra hne
    have hqueue := hnone .queue trivial
    rw [Queue.step, if_pos (Nat.pos_of_ne_zero hne)] at hqueue
    exact absurd hqueue (by simp)
  have hrunning : q.work.running = false := by
    by_contra hrun
    have hrun : q.work.running = true := by simpa using hrun
    have hcurrent : q.current.isSome = false := by
      by_contra hsome
      have hdone := hnone .done trivial
      rw [Queue.step, if_pos (Bool.of_not_eq_false hsome)] at hdone
      exact absurd hdone (by simp)
    cases hpending : q.pending with
    | nil =>
        have hstop := hnone .stop trivial
        simp [Queue.step, hpending, Option.isSome_eq_false_iff.mp hcurrent, Work.finish, hrun]
          at hstop
    | cons a rest =>
        have htake := hnone .take trivial
        simp [Queue.step, hpending, Option.isSome_eq_false_iff.mp hcurrent, hrun] at htake
  refine ⟨hposting, ?_, hrunning⟩
  by_contra hqueued
  have hstart := hnone .start trivial
  simp [Queue.step, Work.start, hrunning, by simpa using hqueued] at hstart

end Queue

end WorkQueue
