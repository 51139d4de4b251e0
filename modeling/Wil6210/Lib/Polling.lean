import Mathlib.Tactic

/-!
# Interrupts that hand over to a poll

A device completes work and then sets the cause of its interrupt.  The interrupt clears the cause,
masks itself and schedules a poll.  The poll serves what it finds, up to a budget; where it served
little it completes, and then it unmasks the interrupt, else it stays scheduled.  There are items that
end the poll: it takes them, and does not count them.

Work may be completed at any moment, also between the last look of the poll and the unmasking.
`Attended` says that it is not forgotten: its cause is set or to be set, or the poll is still to
look.  Every step keeps this but one (`CutShort`): an item ends a poll that served little, and no cause
is set, or to be set, for what is behind it.  `rank_lt` is that each step of a poll, and of what leads
to it, brings the work closer to being served.
-/

namespace Polling

/-- Where the poll is; with `polling` and `ending`, how much it served. -/
inductive Phase
  | idle
  | scheduled
  | polling (done : ℕ)
  /-- it looked for the last time -/
  | ending (done : ℕ)
  /-- it completed, and is to unmask the interrupt -/
  | completing
deriving DecidableEq, Repr

/-- The device and its poll.  The interrupt is masked in every phase but `idle`. -/
structure Source where
  /-- what is completed and not served -/
  work : ℕ
  /-- completions whose cause is to be set -/
  ringing : ℕ
  cause : Bool
  phase : Phase

inductive Op
  | complete
  | ring
  /-- The cause is set for another reason. -/
  | raise
  | irq
  | start
  | serve
  /-- An item ends the poll. -/
  | cut
  | stop
  | finish
  | unmask
deriving DecidableEq

/-- Of a poll, or of what leads to it. -/
def Op.Internal : Op → Prop
  | .complete | .raise => False
  | .ring | .irq | .start | .serve | .cut | .stop | .finish | .unmask => True

namespace Source

/-- One step, where a poll serves no more than `budget`. -/
def step (budget : ℕ) (s : Source) : Op → Option Source
  | .complete => some { s with work := s.work + 1, ringing := s.ringing + 1 }
  | .ring =>
      if 0 < s.ringing then some { s with ringing := s.ringing - 1, cause := true } else none
  | .raise => some { s with cause := true }
  | .irq =>
      if s.phase = .idle ∧ s.cause = true then some { s with cause := false, phase := .scheduled }
      else none
  | .start => if s.phase = .scheduled then some { s with phase := .polling 0 } else none
  | .serve =>
      match s.phase with
      | .polling done =>
          if done < budget ∧ 0 < s.work then
            some { s with work := s.work - 1, phase := .polling (done + 1) }
          else none
      | _ => none
  | .cut =>
      match s.phase with
      | .polling done =>
          if done < budget ∧ 0 < s.work then
            some { s with work := s.work - 1, phase := .ending done }
          else none
      | _ => none
  | .stop =>
      match s.phase with
      | .polling done =>
          if budget ≤ done ∨ s.work = 0 then some { s with phase := .ending done } else none
      | _ => none
  | .finish =>
      match s.phase with
      | .ending done => some { s with phase := if done ≤ 1 then .completing else .scheduled }
      | _ => none
  | .unmask => if s.phase = .completing then some { s with phase := .idle } else none

/-- **Work is attended to.** -/
def Attended (s : Source) : Prop :=
  0 < s.work → 0 < s.ringing ∨ s.cause = true ∨ s.phase = .scheduled ∨
    ∃ done, s.phase = .polling done ∨ s.phase = .ending done ∧ 1 < done

/-- A poll is cut short: it served at most one, and no cause is set for the work that is left. -/
def CutShort (s : Source) : Op → Prop
  | .cut => 1 < s.work ∧ s.ringing = 0 ∧ s.cause = false ∧ ∀ done, s.phase = .polling done → done ≤ 1
  | _ => False

variable {budget : ℕ} {s t : Source}

/-- **Every step keeps it** that does not cut the poll short, with a budget of two or more. -/
lemma Attended.step (hbudget : 1 < budget) (h : s.Attended) {o : Op} (hcut : ¬ s.CutShort o)
    (ht : s.step budget o = some t) : t.Attended := by
  obtain ⟨work, ringing, cause, phase⟩ := s
  intro hwork
  cases o with
  | complete =>
      obtain rfl := Option.some.inj ht
      exact .inl (Nat.succ_pos _)
  | ring =>
      obtain ⟨-, ht⟩ := Option.ite_none_right_eq_some.mp ht
      obtain rfl := Option.some.inj ht
      exact .inr (.inl rfl)
  | raise =>
      obtain rfl := Option.some.inj ht
      exact .inr (.inl rfl)
  | irq =>
      obtain ⟨-, ht⟩ := Option.ite_none_right_eq_some.mp ht
      obtain rfl := Option.some.inj ht
      exact .inr (.inr (.inl rfl))
  | start =>
      obtain ⟨-, ht⟩ := Option.ite_none_right_eq_some.mp ht
      obtain rfl := Option.some.inj ht
      exact .inr (.inr (.inr ⟨0, .inl rfl⟩))
  | serve =>
      cases phase with
      | polling done =>
          obtain ⟨-, ht⟩ := Option.ite_none_right_eq_some.mp ht
          obtain rfl := Option.some.inj ht
          exact .inr (.inr (.inr ⟨done + 1, .inl rfl⟩))
      | idle | scheduled | ending _ | completing => exact absurd ht (by simp [Source.step])
  | cut =>
      cases phase with
      | polling done =>
          obtain ⟨-, ht⟩ := Option.ite_none_right_eq_some.mp ht
          obtain rfl := Option.some.inj ht
          -- the poll stays scheduled, or a cause is set
          by_cases hdone : 1 < done
          · exact .inr (.inr (.inr ⟨done, .inr ⟨rfl, hdone⟩⟩))
          by_cases hringing : 0 < ringing
          · exact .inl hringing
          by_cases hcause : cause = true
          · exact .inr (.inl hcause)
          refine absurd ⟨?_, ?_, ?_, fun k hk => ?_⟩ hcut
          · exact Nat.lt_of_sub_pos hwork
          · exact Nat.eq_zero_of_not_pos hringing
          · exact Bool.eq_false_iff.mpr hcause
          · obtain rfl : done = k := by simpa using hk
            exact not_lt.mp hdone
      | idle | scheduled | ending _ | completing => exact absurd ht (by simp [Source.step])
  | stop =>
      cases phase with
      | polling done =>
          obtain ⟨hstop, ht⟩ := Option.ite_none_right_eq_some.mp ht
          obtain rfl := Option.some.inj ht
          -- with work left, the budget is used up
          rcases hstop with hused | hnone
          · exact .inr (.inr (.inr ⟨done, .inr ⟨rfl, by omega⟩⟩))
          · exact absurd hnone hwork.ne'
      | idle | scheduled | ending _ | completing => exact absurd ht (by simp [Source.step])
  | finish =>
      cases phase with
      | ending done =>
          obtain rfl := Option.some.inj ht
          rcases h hwork with hringing | hcause | hphase | ⟨k, hphase | ⟨hphase, hk⟩⟩
          · exact .inl hringing
          · exact .inr (.inl hcause)
          · exact absurd hphase (by simp)
          · exact absurd hphase (by simp)
          · obtain rfl : done = k := by simpa using hphase
            exact .inr (.inr (.inl (if_neg (by omega))))
      | idle | scheduled | polling _ | completing => exact absurd ht (by simp [Source.step])
  | unmask =>
      obtain ⟨hphase, ht⟩ := Option.ite_none_right_eq_some.mp ht
      obtain rfl := Option.some.inj ht
      subst hphase
      rcases h hwork with hringing | hcause | hphase | ⟨k, hphase | ⟨hphase, -⟩⟩
      · exact .inl hringing
      · exact .inr (.inl hcause)
      · exact absurd hphase (by simp)
      · exact absurd hphase (by simp)
      · exact absurd hphase (by simp)

/-- How many steps a phase is from `idle`. -/
def phaseRank : Phase → ℕ
  | .idle => 0
  | .completing => 1
  | .ending done => if done ≤ 1 then 2 else 6
  | .polling done => if done ≤ 1 then 3 else 7
  | .scheduled => 5

/-- How many steps are left, if nothing comes in. -/
def rank (s : Source) : ℕ :=
  5 * s.work + 7 * s.ringing + (if s.cause = true then 6 else 0) + phaseRank s.phase

/-- **Each step counts.** -/
lemma rank_lt {o : Op} (ho : o.Internal) (ht : s.step budget o = some t) : t.rank < s.rank := by
  obtain ⟨work, ringing, cause, phase⟩ := s
  cases o with
  | complete | raise => exact ho.elim
  | ring =>
      simp only [step] at ht
      split_ifs at ht with hringing
      obtain rfl := Option.some.inj ht
      simp only [rank]
      split_ifs <;> omega
  | irq =>
      obtain ⟨hen, ht⟩ := Option.ite_none_right_eq_some.mp ht
      obtain ⟨rfl, rfl⟩ := hen
      obtain rfl := Option.some.inj ht
      simp [rank, phaseRank]
  | start =>
      obtain ⟨hphase, ht⟩ := Option.ite_none_right_eq_some.mp ht
      subst hphase
      obtain rfl := Option.some.inj ht
      simp [rank, phaseRank]
  | serve =>
      cases phase with
      | polling done =>
          simp only [step] at ht
          split_ifs at ht with hmore
          obtain rfl := Option.some.inj ht
          simp only [rank, phaseRank]
          split_ifs <;> omega
      | idle | scheduled | ending _ | completing => exact absurd ht (by simp [step])
  | cut | stop =>
      cases phase with
      | polling done =>
          obtain ⟨-, ht⟩ := Option.ite_none_right_eq_some.mp ht
          obtain rfl := Option.some.inj ht
          simp only [rank, phaseRank]
          split_ifs <;> omega
      | idle | scheduled | ending _ | completing => exact absurd ht (by simp [step])
  | finish =>
      cases phase with
      | ending done =>
          obtain rfl := Option.some.inj ht
          by_cases hlast : done ≤ 1 <;> simp [rank, phaseRank, hlast]
      | idle | scheduled | polling _ | completing => exact absurd ht (by simp [step])
  | unmask =>
      obtain ⟨hphase, ht⟩ := Option.ite_none_right_eq_some.mp ht
      subst hphase
      obtain rfl := Option.some.inj ht
      simp [rank, phaseRank]

end Source

end Polling
