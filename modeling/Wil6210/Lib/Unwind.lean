import Wil6210.Lib.Machine
import Mathlib.Data.Multiset.AddSub

/-!
# Resources, and functions that unwind where a call fails

A function that sets something up is seen through the resources that it acquires, uses and
releases.  What is held is a multiset; a use or a release of what is not held is a **fault**, and
the run goes on without it.  `Yields held ops held' faults` is a run.  What a run does not touch it
carries along (`Yields.frame`).

A **ladder** is such a function with one label for each call that can fail: where a call fails, what
the calls before it acquired is released in reverse order.  `Attempt` says what a function leaves
in either case.  A ladder whose labels release what its calls acquired leaves nothing where it fails
(`Restores.attempt`); for any other there is a rule for a single rung (`Attempt.rung`).
-/

namespace Unwind

variable {ρ : Type*}

inductive Op (ρ : Type*)
  | acquire (r : ρ)
  | release (r : ρ)
  | use (r : ρ)
  deriving DecidableEq

/-- What the operation is about. -/
def Op.res : Op ρ → ρ
  | .acquire r | .release r | .use r => r

section Runs

variable [DecidableEq ρ]

/-- One operation, and whether it is a fault. -/
def hold (held : Multiset ρ) : Op ρ → Multiset ρ × List (Op ρ)
  | .acquire r => (r ::ₘ held, [])
  | .release r => if r ∈ held then (held.erase r, []) else (held, [.release r])
  | .use r => (held, if r ∈ held then [] else [.use r])

/-- The operations lead from what is held to what is held then, with these faults. -/
def Yields (held : Multiset ρ) (ops : List (Op ρ)) (held' : Multiset ρ) (faults : List (Op ρ)) :
    Prop :=
  Machine.run hold held ops = (held', faults)

variable {held held' held'' lost : Multiset ρ} {ops ops' faults faults' : List (Op ρ)} {r : ρ}

instance : Decidable (Yields held ops held' faults) := inferInstanceAs (Decidable (_ = _))

lemma Yields.nil (held : Multiset ρ) : Yields held [] held [] := rfl

/-- Runs in a row. -/
lemma Yields.append (h : Yields held ops held' faults) (h' : Yields held' ops' held'' faults') :
    Yields held (ops ++ ops') held'' (faults ++ faults') := by
  rw [Yields, Machine.run_append, h, h']

lemma Yields.acquire (h : Yields (r ::ₘ held) ops held' faults) :
    Yields held (.acquire r :: ops) held' faults := by
  rw [Yields, Machine.run_cons, hold, h]
  rfl

lemma Yields.release (h : Yields held ops held' faults) :
    Yields (r ::ₘ held) (.release r :: ops) held' faults := by
  rw [Yields, Machine.run_cons, hold, if_pos (Multiset.mem_cons_self r held),
    Multiset.erase_cons_head, h]
  rfl

lemma Yields.use (hr : r ∈ held) (h : Yields held ops held' faults) :
    Yields held (.use r :: ops) held' faults := by
  rw [Yields, Machine.run_cons, hold, if_pos hr, h]
  rfl

/-- A use of what is not held. -/
lemma Yields.stale (hr : r ∉ held) (h : Yields held ops held' faults) :
    Yields held (.use r :: ops) held' (.use r :: faults) := by
  rw [Yields, Machine.run_cons, hold, if_neg hr, h]
  rfl

/-- One operation, with more held. -/
lemma hold_add (op : Op ρ) (hlost : ∀ f ∈ (hold held op).2, f.res ∉ lost) :
    hold (held + lost) op = ((hold held op).1 + lost, (hold held op).2) := by
  cases op with
  | acquire r => simp only [hold, Multiset.cons_add]
  | release r =>
      simp only [hold] at hlost ⊢
      by_cases hr : r ∈ held
      · simp only [if_pos hr, if_pos (Multiset.mem_add.mpr (.inl hr)),
          Multiset.erase_add_left_pos lost hr]
      · rw [if_neg hr] at hlost
        have hmem : r ∉ held + lost := by
          rw [Multiset.mem_add, not_or]
          exact ⟨hr, hlost _ List.mem_cons_self⟩
        rw [if_neg hr, if_neg hmem]
  | use r =>
      simp only [hold] at hlost ⊢
      by_cases hr : r ∈ held
      · rw [if_pos hr, if_pos (Multiset.mem_add.mpr (.inl hr))]
      · rw [if_neg hr] at hlost
        have hmem : r ∉ held + lost := by
          rw [Multiset.mem_add, not_or]
          exact ⟨hr, hlost _ List.mem_cons_self⟩
        rw [if_neg hr, if_neg hmem]

/-- **Frame.**  What is held besides is carried along, where it is none of what is missing. -/
theorem Yields.frame (h : Yields held ops held' faults) (lost : Multiset ρ)
    (hlost : ∀ f ∈ faults, f.res ∉ lost) : Yields (held + lost) ops (held' + lost) faults := by
  induction ops generalizing held faults with
  | nil =>
      obtain ⟨rfl, rfl⟩ := Prod.mk.inj h
      exact .nil _
  | cons op ops ih =>
      rw [Yields, Machine.run_cons] at h
      obtain ⟨hheld, rfl⟩ := Prod.mk.inj h
      have hrest : Yields ((hold held op).1 + lost) ops (held' + lost)
          (Machine.run hold (hold held op).1 ops).2 :=
        ih (Prod.ext hheld rfl) fun f hf => hlost f (List.mem_append_right _ hf)
      rw [Yields, Machine.run_cons,
        hold_add op fun f hf => hlost f (List.mem_append_left _ hf), hrest]

end Runs

/-! ## Ladders -/

/-- A call that can fail, and what stands at its label. -/
structure Rung (ρ : Type*) where
  rc : ℤ
  ops : List (Op ρ)
  undo : List (Op ρ)

/-- A call that acquires a resource, and whose label releases it. -/
def call (r : ρ) (rc : ℤ) : Rung ρ :=
  ⟨rc, if rc = 0 then [.acquire r] else [], [.release r]⟩

/-- The calls in a row.  Where one fails, the labels of those before it follow in reverse order. -/
def ladder : List (Rung ρ) → ℤ × List (Op ρ)
  | [] => (0, [])
  | r :: rs =>
      if r.rc ≠ 0 then (r.rc, r.ops)
      else if (ladder rs).1 ≠ 0 then ((ladder rs).1, r.ops ++ ((ladder rs).2 ++ r.undo))
      else (0, r.ops ++ (ladder rs).2)

/-- A ladder succeeds where all its calls do. -/
lemma ladder_eq_zero {rs : List (Rung ρ)} : (ladder rs).1 = 0 ↔ ∀ r ∈ rs, r.rc = 0 := by
  induction rs with
  | nil => exact iff_of_true rfl fun _ hr => absurd hr List.not_mem_nil
  | cons r rs ih =>
      rw [ladder, List.forall_mem_cons, ← ih]
      by_cases hrc : r.rc = 0
      · by_cases hrest : (ladder rs).1 = 0
        · rw [if_neg (not_not_intro hrc), if_neg (not_not_intro hrest)]
          exact iff_of_true rfl ⟨hrc, hrest⟩
        · rw [if_neg (not_not_intro hrc), if_pos hrest]
          exact iff_of_false hrest fun h => hrest h.2
      · rw [if_pos hrc]
        exact iff_of_false hrc fun h => hrc h.1

variable [DecidableEq ρ]

/-- What a function leaves: `done` where it returns 0, with no fault, and `left` where it fails. -/
structure Attempt (held : Multiset ρ) (p : ℤ × List (Op ρ)) (done left : Multiset ρ)
    (faults : List (Op ρ)) : Prop where
  ok : p.1 = 0 → Yields held p.2 done []
  failed : p.1 ≠ 0 → Yields held p.2 left faults

variable {held done done' left left' left'' lost : Multiset ρ} {p : ℤ × List (Op ρ)}
  {faults faults' stale : List (Op ρ)} {r : Rung ρ} {rs : List (Rung ρ)}

lemma attempt_call (held : Multiset ρ) (r : ρ) (rc : ℤ) :
    Attempt held (rc, (call r rc).ops) (r ::ₘ held) held [] := by
  refine ⟨fun hok => ?_, fun hfail => ?_⟩
  · simp only [call, if_pos hok]
    exact .acquire (.nil _)
  · simp only [call, if_neg hfail]
    exact .nil _

/-- A use in front. -/
lemma Attempt.use {a : ρ} (ha : a ∈ held) (h : Attempt held p done left faults) :
    Attempt held (p.1, .use a :: p.2) done left faults :=
  ⟨fun hok => .use ha (h.ok hok), fun hfail => .use ha (h.failed hfail)⟩

/-- Frame, for a function that can fail. -/
lemma Attempt.frame (h : Attempt held p done left faults) (lost : Multiset ρ)
    (hlost : ∀ f ∈ faults, f.res ∉ lost) :
    Attempt (held + lost) p (done + lost) (left + lost) faults :=
  ⟨fun hok => (h.ok hok).frame lost fun _ hf => absurd hf List.not_mem_nil,
    fun hfail => (h.failed hfail).frame lost hlost⟩

/-- **The rule for a rung.**  The rest of the ladder starts from what the call acquired, and the
label, where the rest fails, from what the rest left. -/
theorem Attempt.rung (h : Attempt held (r.rc, r.ops) done left faults)
    (hrest : r.rc = 0 → Attempt done (ladder rs) done' left' faults')
    (hundo : r.rc = 0 → (ladder rs).1 ≠ 0 → Yields left' r.undo left'' stale) :
    Attempt held (ladder (r :: rs)) done' (if r.rc = 0 then left'' else left)
      (if r.rc = 0 then faults' ++ stale else faults) := by
  rw [ladder]
  by_cases hrc : r.rc = 0
  · rw [if_neg (not_not_intro hrc), if_pos hrc, if_pos hrc]
    by_cases hlast : (ladder rs).1 = 0
    · rw [if_neg (not_not_intro hlast)]
      exact ⟨fun _ => (h.ok hrc).append ((hrest hrc).ok hlast), fun hne => absurd rfl hne⟩
    · rw [if_pos hlast]
      refine ⟨fun hok => absurd hok hlast, fun _ => ?_⟩
      exact (h.ok hrc).append (((hrest hrc).failed hlast).append (hundo hrc hlast))
  · rw [if_pos hrc, if_neg hrc, if_neg hrc]
    exact ⟨fun hok => absurd hok hrc, h.failed⟩

/-- A step that cannot fail and has no label. -/
lemma Attempt.step {ops : List (Op ρ)} (h : Yields held ops done [])
    (hrest : Attempt done (ladder rs) done' left faults) :
    Attempt held (ladder (⟨0, ops, []⟩ :: rs)) done' left faults := by
  have hstep : Attempt held (0, ops) done held [] := ⟨fun _ => h, fun hne => absurd rfl hne⟩
  have hrung := hstep.rung (r := ⟨0, ops, []⟩) (fun _ => hrest) fun _ _ => .nil left
  rwa [if_pos rfl, if_pos rfl, List.append_nil] at hrung

/-- The rule for a rung that is one call: what the rest lost is lost. -/
lemma Attempt.call (held : Multiset ρ) (a : ρ) (rc : ℤ)
    (h : rc = 0 → Attempt (a ::ₘ held) (ladder rs) done (lost + a ::ₘ held) faults) :
    Attempt held (ladder (Unwind.call a rc :: rs)) done ((if rc = 0 then lost else 0) + held)
      (if rc = 0 then faults else []) := by
  have hundo : Yields (lost + a ::ₘ held) [.release a] (lost + held) [] := by
    rw [Multiset.add_cons]
    exact .release (.nil _)
  have hrung := (attempt_call held a rc).rung (r := Unwind.call a rc) h fun _ _ => hundo
  have hleft : (if rc = 0 then lost else 0) + held = if rc = 0 then lost + held else held := by
    split_ifs
    · rfl
    · rw [zero_add]
  rw [List.append_nil] at hrung
  rw [hleft]
  exact hrung

/-- Each call acquires or leaves nothing, and its label releases what it acquired. -/
def Restores : Multiset ρ → List (Rung ρ) → Multiset ρ → Prop
  | held, [], done => done = held
  | held, r :: rs, done => ∃ mid, Attempt held (r.rc, r.ops) mid held [] ∧
      Yields mid r.undo held [] ∧ Restores mid rs done

/-- **A ladder whose rungs are so** holds all where it succeeds, and nothing where it fails. -/
theorem Restores.attempt (h : Restores held rs done) : Attempt held (ladder rs) done held [] := by
  induction rs generalizing held with
  | nil =>
      obtain rfl : done = held := h
      exact ⟨fun _ => .nil _, fun hne => absurd rfl hne⟩
  | cons r rs ih =>
      obtain ⟨mid, hcall, hundo, hrest⟩ := h
      have hrung := hcall.rung (fun _ => ih hrest) fun _ _ => hundo
      rwa [ite_self, List.append_nil, ite_self] at hrung

/-- A rung that is one call. -/
lemma Restores.call {a : ρ} {rc : ℤ} (h : Restores (a ::ₘ held) rs done) :
    Restores held (Unwind.call a rc :: rs) done :=
  ⟨a ::ₘ held, attempt_call held a rc, .release (.nil _), h⟩

end Unwind
