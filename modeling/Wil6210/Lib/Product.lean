import Wil6210.Lib.Machine

/-!
# Products of machines

One Mealy machine for every key.  An input of the product names the key it is for, and so does what
the product emits.

`run_product` says that the machines do not see each other: in every run, the machine of a key has
done what it does on its own inputs, and what was emitted for the key is what it emits there.
`Exec.balance` is the rule of the ledger: where every step gives out what comes in or keeps it,
every run does.
-/

namespace Machine

variable {κ σ α β ε : Type*}

/-! ## Ledgers -/

/-- Every input of a run meets the condition somewhere. -/
lemma Exec.met {step : σ → α → Option σ} {G : σ → α → Prop} {s t : σ} {as : List α} {a : α}
    (h : Exec step G s as t) (ha : a ∈ as) : ∃ u, G u a := by
  induction as generalizing s with
  | nil => exact absurd ha List.not_mem_nil
  | cons b as ih =>
      obtain ⟨hG, u, -, hrest⟩ := h
      rcases List.mem_cons.mp ha with rfl | ha
      · exact ⟨s, hG⟩
      · exact ih hrest ha

section Ledger

variable {step : σ → α → σ × List ε} {G : σ → α → Prop} {s t : σ}

/-- A Mealy machine as a guarded one: what it emits is left out. -/
def silent (step : σ → α → σ × List ε) (s : σ) (a : α) : Option σ := some (step s a).1

/-- The state is the one of the run. -/
lemma Exec.eq_run {as : List α} (h : Exec (silent step) G s as t) : t = (run step s as).1 := by
  induction as generalizing s with
  | nil => exact h.symm
  | cons a as ih =>
      obtain ⟨-, u, hu, hrest⟩ := h
      obtain rfl := Option.some.inj hu
      exact ih hrest

/-- Where every input meets the condition whatever the state is, the run meets it. -/
lemma Exec.of_forall {as : List α} (h : ∀ a ∈ as, ∀ s, G s a) :
    Exec (silent step) G s as (run step s as).1 := by
  induction as generalizing s with
  | nil => rfl
  | cons a as ih =>
      exact ⟨h a List.mem_cons_self s, _, rfl, ih fun b hb => h b (List.mem_cons_of_mem _ hb)⟩

/-- **What comes in is kept or given out.**  `m` measures the state, `w` the inputs and `v` what is
emitted. -/
theorem Exec.balance {I : σ → Prop} {m : σ → ℕ} {w : α → ℕ} {v : ε → ℕ}
    (hI : ∀ s a, I s → G s a → I (step s a).1)
    (hstep : ∀ s a, I s → G s a → m (step s a).1 + ((step s a).2.map v).sum = m s + w a)
    (hs : I s) {as : List α} (h : Exec (silent step) G s as t) :
    m t + ((run step s as).2.map v).sum = m s + (as.map w).sum := by
  induction as generalizing s with
  | nil =>
      obtain rfl : s = t := h
      simp
  | cons a as ih =>
      obtain ⟨hG, u, hu, hrest⟩ := h
      obtain rfl := Option.some.inj hu
      have hfirst := hstep s a hs hG
      have hlater := ih (hI s a hs hG) hrest
      rw [run_cons, List.map_append, List.sum_append, List.map_cons, List.sum_cons]
      omega

/-- **What every step emits, every run emits.** -/
theorem Exec.forall_emitted {I : σ → Prop} {Q : ε → Prop}
    (hI : ∀ s a, I s → G s a → I (step s a).1) (hQ : ∀ s a, I s → G s a → ∀ e ∈ (step s a).2, Q e)
    (hs : I s) {as : List α} (h : Exec (silent step) G s as t) : ∀ e ∈ (run step s as).2, Q e := by
  induction as generalizing s with
  | nil => simp
  | cons a as ih =>
      obtain ⟨hG, u, hu, hrest⟩ := h
      obtain rfl := Option.some.inj hu
      intro e he
      rw [run_cons] at he
      rcases List.mem_append.mp he with he | he
      · exact hQ s a hs hG e he
      · exact ih (hI s a hs hG) hrest e he

end Ledger

/-! ## One machine for every key -/

section Product

variable [DecidableEq κ] {step : σ → α → σ × List ε}

/-- The product: the machine of the key takes the input. -/
def product (step : σ → α → σ × List ε) (s : κ → σ) (a : κ × α) : (κ → σ) × List (κ × ε) :=
  let p := step (s a.1) a.2
  (Function.update s a.1 p.1, p.2.map (Prod.mk a.1))

@[simp] lemma product_self (s : κ → σ) (a : κ × α) :
    (product step s a).1 a.1 = (step (s a.1) a.2).1 :=
  Function.update_self ..

lemma product_of_ne (s : κ → σ) (a : κ × α) {k : κ} (hk : k ≠ a.1) :
    (product step s a).1 k = s k :=
  Function.update_of_ne hk ..

/-- Of a list with keys, what is for `k`. -/
def part (k : κ) (l : List (κ × β)) : List β := (l.filter (·.1 = k)).map Prod.snd

@[simp] lemma part_nil (k : κ) : part k ([] : List (κ × β)) = [] := rfl

@[simp] lemma part_append (k : κ) (l m : List (κ × β)) :
    part k (l ++ m) = part k l ++ part k m := by
  simp [part]

lemma part_cons (k : κ) (x : κ × β) (l : List (κ × β)) :
    part k (x :: l) = if x.1 = k then x.2 :: part k l else part k l := by
  simp only [part, List.filter_cons, decide_eq_true_eq]
  split_ifs <;> rfl

lemma mem_part {k : κ} {l : List (κ × β)} {x : β} : x ∈ part k l ↔ (k, x) ∈ l := by
  simp [part]

/-- What one machine emits carries its key. -/
lemma part_tagged (k j : κ) (es : List ε) :
    part k (es.map (Prod.mk j)) = if j = k then es else [] := by
  induction es with
  | nil => simp
  | cons e es ih =>
      rw [List.map_cons, part_cons, ih]
      split_ifs <;> rfl

/-- One input for each of some keys. -/
lemma part_map {γ : Type*} [DecidableEq γ] (key : γ → κ) (hkey : Function.Injective key) (x : γ → β)
    {l : List γ} (hl : l.Nodup) (g : γ) :
    part (key g) (l.map fun i => (key i, x i)) = if g ∈ l then [x g] else [] := by
  induction l with
  | nil => simp
  | cons i l ih =>
      obtain ⟨hi, hl⟩ := List.nodup_cons.mp hl
      rw [List.map_cons, part_cons, ih hl]
      by_cases hig : i = g
      · subst hig
        simp [hi]
      · have hne : ¬ key i = key g := fun heq => hig (hkey heq)
        simp [hne, Ne.symm hig]

/-- None of the keys is `k`. -/
lemma part_eq_nil {k : κ} {l : List (κ × β)} (h : ∀ x ∈ l, x.1 ≠ k) : part k l = [] := by
  rw [part, List.map_eq_nil_iff, List.filter_eq_nil_iff]
  intro x hx
  simpa using h x hx

/-- **The machines do not see each other.** -/
theorem run_product (s : κ → σ) (as : List (κ × α)) (k : κ) :
    (run (product step) s as).1 k = (run step (s k) (part k as)).1 ∧
      part k (run (product step) s as).2 = (run step (s k) (part k as)).2 := by
  induction as generalizing s with
  | nil => exact ⟨rfl, rfl⟩
  | cons a as ih =>
      obtain ⟨hstate, hout⟩ := ih (product step s a).1
      rw [run_cons, part_append, hstate, hout, part_cons]
      by_cases hk : a.1 = k
      · subst hk
        rw [if_pos rfl, product_self, product, part_tagged, if_pos rfl, run_cons]
        exact ⟨rfl, rfl⟩
      · rw [if_neg hk, product_of_ne s a (Ne.symm hk), product, part_tagged, if_neg hk]
        exact ⟨rfl, List.nil_append _⟩

/-- Where no key comes twice, every machine starts from the first state. -/
lemma run_product_nodup (s : κ → σ) {as : List (κ × α)} (h : (as.map Prod.fst).Nodup) :
    (run (product step) s as).2
      = as.flatMap fun a => (step (s a.1) a.2).2.map (Prod.mk a.1) := by
  have hsame : ∀ (u : κ → σ), (∀ a ∈ as, u a.1 = s a.1) → (run (product step) u as).2
      = as.flatMap fun a => (step (s a.1) a.2).2.map (Prod.mk a.1) := by
    induction as with
    | nil => exact fun _ _ => rfl
    | cons a as ih =>
        intro u hu
        obtain ⟨hnot, hrest⟩ := List.nodup_cons.mp (List.map_cons ▸ h)
        have hlater : ∀ b ∈ as, (product step u a).1 b.1 = s b.1 := by
          intro b hb
          have hne : b.1 ≠ a.1 := fun heq => hnot (heq ▸ List.mem_map_of_mem hb)
          exact (product_of_ne u a hne).trans (hu b (List.mem_cons_of_mem _ hb))
        rw [run_cons, ih hrest _ hlater, List.flatMap_cons, product, hu a List.mem_cons_self]
  exact hsame s fun _ _ => rfl

/-- A ledger for one machine is one for the product. -/
theorem product_balance [Fintype κ] {m : σ → ℕ} {w : α → ℕ} {v : ε → ℕ} (s : κ → σ) (a : κ × α)
    (h : m (step (s a.1) a.2).1 + ((step (s a.1) a.2).2.map v).sum = m (s a.1) + w a.2) :
    ∑ k, m ((product step s a).1 k) + ((product step s a).2.map (v ∘ Prod.snd)).sum
      = ∑ k, m (s k) + w a.2 := by
  have hthis : ∀ u : κ → σ, ∑ k, m (u k) = m (u a.1) + ∑ k ∈ Finset.univ.erase a.1, m (u k) :=
    fun u => (Finset.add_sum_erase _ _ (Finset.mem_univ a.1)).symm
  have hothers : ∑ k ∈ Finset.univ.erase a.1, m ((product step s a).1 k)
      = ∑ k ∈ Finset.univ.erase a.1, m (s k) := by
    refine Finset.sum_congr rfl fun k hk => ?_
    rw [product_of_ne s a (Finset.ne_of_mem_erase hk)]
  have hemitted : (product step s a).2.map (v ∘ Prod.snd) = (step (s a.1) a.2).2.map v := by
    simp [product]
  rw [hthis, hothers, hemitted, hthis s, product_self]
  omega

end Product

end Machine
