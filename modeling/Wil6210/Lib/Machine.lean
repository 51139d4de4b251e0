import Mathlib.Tactic

/-!
# Runs of state machines

Two shapes of machine are used below.

* A **Mealy machine** is total: `step s a` is the next state and what the step emits.  `run`
  folds it over a list of inputs and concatenates the output.
* A **guarded machine** is partial: `step s a` is `none` where the action `a` is not enabled.
  `Exec step G s as t` says that the actions `as` lead from `s` to `t`, each enabled where it is
  taken and each meeting the side condition `G` there.  A law that holds of every run is stated
  with the trivial `G`; a law that needs the environment to behave is stated with the condition.

Each induction over runs is done once, here: `run_invariant`, `Exec.invariant`, `Exec.simulates`,
`Exec.refines`, `Exec.law_iff` and `Exec.always_iff`.
-/

namespace Machine

variable {σ α ε : Type*}

/-! ## Mealy machines -/

/-- The final state of a run and everything it emitted, in order. -/
def run (step : σ → α → σ × List ε) : σ → List α → σ × List ε
  | s, [] => (s, [])
  | s, a :: as =>
      let p := step s a
      let q := run step p.1 as
      (q.1, p.2 ++ q.2)

variable {step : σ → α → σ × List ε}

@[simp] lemma run_nil (s : σ) : run step s [] = (s, []) := rfl

lemma run_cons (s : σ) (a : α) (as : List α) :
    run step s (a :: as)
      = ((run step (step s a).1 as).1, (step s a).2 ++ (run step (step s a).1 as).2) := rfl

/-- A run over `as ++ bs` is a run over `as` continued over `bs`. -/
theorem run_append (s : σ) (as bs : List α) :
    run step s (as ++ bs)
      = ((run step (run step s as).1 bs).1,
          (run step s as).2 ++ (run step (run step s as).1 bs).2) := by
  induction as generalizing s with
  | nil => simp
  | cons a as ih => simp only [List.cons_append, run_cons, ih, List.append_assoc]

lemma run_concat (s : σ) (as : List α) (a : α) :
    run step s (as ++ [a])
      = ((step (run step s as).1 a).1, (run step s as).2 ++ (step (run step s as).1 a).2) := by
  simp [run_append, run_cons]

/-- **What every step preserves, every run preserves.** -/
theorem run_invariant {I : σ → Prop} (hstep : ∀ s a, I s → I (step s a).1)
    {s : σ} (hs : I s) (as : List α) : I (run step s as).1 := by
  induction as generalizing s with
  | nil => exact hs
  | cons a as ih => exact ih (hstep s a hs)

/-! ## Guarded machines -/

section Guarded

variable {step : σ → α → Option σ} {G : σ → α → Prop} {s t : σ}

/-- The actions `as` lead from `s` to `t`: each is enabled, and meets `G`, where it is taken. -/
def Exec (step : σ → α → Option σ) (G : σ → α → Prop) : σ → List α → σ → Prop
  | s, [], t => s = t
  | s, a :: as, t => G s a ∧ ∃ u, step s a = some u ∧ Exec step G u as t

/-- The run over `as`, where each of its steps is enabled and meets `G`. -/
def exec (step : σ → α → Option σ) (G : σ → α → Prop) [∀ s a, Decidable (G s a)] :
    σ → List α → Option σ
  | s, [] => some s
  | s, a :: as => if G s a then (step s a).bind fun u => exec step G u as else none

/-- A run can be computed. -/
lemma Exec.of_exec [∀ s a, Decidable (G s a)] {as : List α} (h : exec step G s as = some t) :
    Exec step G s as t := by
  induction as generalizing s with
  | nil => exact Option.some.inj h
  | cons a as ih =>
      rw [exec] at h
      split_ifs at h with hG
      obtain ⟨u, hu, hrest⟩ := Option.bind_eq_some_iff.mp h
      exact ⟨hG, u, hu, ih hrest⟩

/-- A run that meets a condition is a run. -/
lemma Exec.weaken {G' : σ → α → Prop} {as : List α} (h : Exec step G s as t)
    (hG : ∀ s a, G s a → G' s a) : Exec step G' s as t := by
  induction as generalizing s with
  | nil => exact h
  | cons a as ih =>
      obtain ⟨hg, u, hu, hrest⟩ := h
      exact ⟨hG s a hg, u, hu, ih hrest⟩

/-- A run can be continued. -/
lemma Exec.append {u : σ} {as bs : List α} (h : Exec step G s as t) (h' : Exec step G t bs u) :
    Exec step G s (as ++ bs) u := by
  induction as generalizing s with
  | nil =>
      obtain rfl : s = t := h
      exact h'
  | cons a as ih =>
      obtain ⟨hG, v, hv, hrest⟩ := h
      exact ⟨hG, v, hv, ih hrest⟩

/-- **What every enabled step preserves, every run preserves.** -/
theorem Exec.invariant {I : σ → Prop}
    (hstep : ∀ s a t, G s a → step s a = some t → I s → I t) (hs : I s) {as : List α}
    (h : Exec step G s as t) : I t := by
  induction as generalizing s with
  | nil => exact h ▸ hs
  | cons a as ih =>
      obtain ⟨hG, u, hu, hrest⟩ := h
      exact ih (hstep s a u hG hu hs) hrest

/-- **Simulation.**  Where every enabled step is matched by the step of a total machine, every run
is matched by its run. -/
theorem Exec.simulates {τ : Type*} {next : τ → α → τ} {R : σ → τ → Prop}
    (hstep : ∀ s u a t, G s a → step s a = some t → R s u → R t (next u a)) {u : τ} (hs : R s u)
    {as : List α} (h : Exec step G s as t) : R t (as.foldl next u) := by
  induction as generalizing s u with
  | nil => exact h ▸ hs
  | cons a as ih =>
      obtain ⟨hG, v, hv, hrest⟩ := h
      exact ih (hstep s u a v hG hv hs) hrest

/-- **Refinement.**  Where every enabled step is a step of the machine that is seen through `f`, one
that meets `H`, or is not seen, every run is a run of that machine. -/
theorem Exec.refines {τ β : Type*} (next : τ → β → Option τ) (H : τ → β → Prop) (f : σ → τ)
    {I : σ → Prop} (hstep : ∀ s a t, G s a → step s a = some t → I s →
      I t ∧ (f t = f s ∨ ∃ b, H (f s) b ∧ next (f s) b = some (f t)))
    (hs : I s) {as : List α} (h : Exec step G s as t) : ∃ bs, Exec next H (f s) bs (f t) := by
  induction as generalizing s with
  | nil => exact ⟨[], h ▸ rfl⟩
  | cons a as ih =>
      obtain ⟨hG, u, hu, hrest⟩ := h
      obtain ⟨hI, hseen⟩ := hstep s a u hG hu hs
      obtain ⟨bs, hbs⟩ := ih hI hrest
      rcases hseen with hsame | ⟨b, hH, hb⟩
      · exact ⟨bs, hsame ▸ hbs⟩
      · exact ⟨b :: bs, hH, f u, hb, hbs⟩

/-- **A law that some steps break for good.**  Where a step keeps the law if and only if it meets
`G`, and a broken law stays broken, the law holds after a run if and only if every step of the run
met `G`. -/
theorem Exec.law_iff {I L : σ → Prop} (hI : ∀ s a t, step s a = some t → I s → I t)
    (hL : ∀ s a t, step s a = some t → I s → (L t ↔ L s ∧ G s a)) (hs : I s) {as : List α}
    (h : Exec step (fun _ _ => True) s as t) : L t ↔ L s ∧ Exec step G s as t := by
  induction as generalizing s with
  | nil =>
      obtain rfl : s = t := h
      exact ⟨fun hl => ⟨hl, rfl⟩, And.left⟩
  | cons a as ih =>
      obtain ⟨-, u, hu, hrest⟩ := h
      rw [ih (hI s a u hu hs) hrest, hL s a u hu hs]
      constructor
      · rintro ⟨⟨hl, hG⟩, hexec⟩
        exact ⟨hl, hG, u, hu, hexec⟩
      · rintro ⟨hl, hG, v, hv, hexec⟩
        obtain rfl := Option.some.inj (hu.symm.trans hv)
        exact ⟨⟨hl, hG⟩, hexec⟩

/-- **A law that holds all along.**  Where a step from a lawful state leads to a lawful one if and
only if it meets `G`, every state on the way is lawful if and only if every step met `G`. -/
theorem Exec.always_iff {I L : σ → Prop} (hI : ∀ s a t, step s a = some t → I s → I t)
    (hL : ∀ s a t, step s a = some t → I s → L s → (L t ↔ G s a)) (hs : I s) (hl : L s)
    {as : List α} (h : Exec step (fun _ _ => True) s as t) :
    (∀ bs u, bs <+: as → Exec step (fun _ _ => True) s bs u → L u) ↔ Exec step G s as t := by
  induction as generalizing s with
  | nil =>
      obtain rfl : s = t := h
      refine ⟨fun _ => rfl, fun _ bs u hbs hu => ?_⟩
      obtain rfl := List.prefix_nil.mp hbs
      obtain rfl : s = u := hu
      exact hl
  | cons a as ih =>
      obtain ⟨-, u, hu, hrest⟩ := h
      constructor
      · intro hall
        have hlu : L u := hall [a] u ⟨as, rfl⟩ ⟨trivial, u, hu, rfl⟩
        refine ⟨(hL s a u hu hs hl).mp hlu, u, hu,
          (ih (hI s a u hu hs) hlu hrest).mp fun bs w hbs hw => ?_⟩
        exact hall (a :: bs) w (List.cons_prefix_cons.mpr ⟨rfl, hbs⟩) ⟨trivial, u, hu, hw⟩
      · rintro ⟨hG, v, hv, hexec⟩ bs w hbs hw
        obtain rfl := Option.some.inj (hu.symm.trans hv)
        cases bs with
        | nil =>
            obtain rfl : s = w := hw
            exact hl
        | cons b bs =>
            obtain ⟨rfl, hrest'⟩ := List.cons_prefix_cons.mp hbs
            obtain ⟨-, x, hx, hw⟩ := hw
            obtain rfl := Option.some.inj (hu.symm.trans hx)
            have hlu : L u := (hL s b u hu hs hl).mpr hG
            exact (ih (hI s b u hu hs) hlu hrest).mpr hexec bs w hrest' hw

end Guarded

end Machine
