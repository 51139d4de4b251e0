import Mathlib.Tactic

/-!
# Arrival of a numbered stream

The positions `0, 1, 2, …` of a stream arrive one by one.  Having received `S`, the receiver waits
for `firstMissing S`.  `Arrives w S ps` says that the positions `ps` arrive after `S`, each for the
first time and each less than `w` ahead of the position waited for at that moment.
-/

namespace Stream

/-- The first position that is not in `S`. -/
def firstMissing (S : Finset ℕ) : ℕ := Nat.find (Infinite.exists_notMem_finset S)

variable {S : Finset ℕ} {n w p : ℕ} {ps : List ℕ}

lemma firstMissing_notMem (S : Finset ℕ) : firstMissing S ∉ S :=
  Nat.find_spec (Infinite.exists_notMem_finset S)

/-- `n` is the first missing position when all before it are there and it is not. -/
lemma firstMissing_eq (hlt : ∀ m < n, m ∈ S) (hn : n ∉ S) : firstMissing S = n := by
  refine le_antisymm ?_ ?_
  · exact Nat.find_min' _ hn
  · by_contra hle
    exact firstMissing_notMem S (hlt _ (by omega))

/-- The arrival of new positions inside a window of `w`. -/
def Arrives (w : ℕ) : Finset ℕ → List ℕ → Prop
  | _, [] => True
  | S, p :: ps => p ∉ S ∧ p < firstMissing S + w ∧ Arrives w (insert p S) ps

/-- An order of arrival without repetition, in which every position comes less than `w` ahead of
the first position missing at that moment. -/
theorem arrives_of_window (hnodup : (S.toList ++ ps).Nodup)
    (hwin : ∀ pre p post, ps = pre ++ p :: post → p < firstMissing (S ∪ pre.toFinset) + w) :
    Arrives w S ps := by
  induction ps generalizing S with
  | nil => exact trivial
  | cons p ps ih =>
      rw [List.nodup_append'] at hnodup
      obtain ⟨-, hps, hdisj⟩ := hnodup
      have hp : p ∉ S := fun hm => hdisj (Finset.mem_toList.mpr hm) List.mem_cons_self
      refine ⟨hp, by simpa using hwin [] p ps rfl, ih ?_ ?_⟩
      · rw [List.nodup_append']
        refine ⟨Finset.nodup_toList _, (List.nodup_cons.mp hps).2, ?_⟩
        rintro q hq hqs
        rw [Finset.mem_toList, Finset.mem_insert] at hq
        rcases hq with rfl | hq
        · exact (List.nodup_cons.mp hps).1 hqs
        · exact hdisj (Finset.mem_toList.mpr hq) (List.mem_cons_of_mem _ hqs)
      · rintro pre q post rfl
        have h := hwin (p :: pre) q post rfl
        rwa [List.toFinset_cons, Finset.union_insert, ← Finset.insert_union] at h

end Stream
