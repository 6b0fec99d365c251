import WLink.Rtos.QueueWakeups

/-!
# The order of the event lists of a queue

The event lists are ordered by priority (`ByPriority`), so that no task is unblocked while one of a
higher priority waits for the same (`QueueMove.priority`).
-/

namespace WLink.Rtos

open Lib

variable {k : Kernel} {cap n n' t : ℕ} {allowed : Request → Prop} {ticked : Option ℕ}
  {s s' : QueueSystem} {side : Side} {ts : List ℕ}

/-- No task stands in front of one of a higher priority. -/
def ByPriority (k : Kernel) (ts : List ℕ) : Prop :=
  ts.Pairwise fun t u => k.uxPriority u ≤ k.uxPriority t

theorem placeOnEventList_byPriority (h : ByPriority k ts) :
    ByPriority k (placeOnEventList k t ts) := by
  induction ts with
  | nil => exact List.pairwise_singleton _ t
  | cons u ts ih =>
    obtain ⟨hu, hts⟩ := List.pairwise_cons.mp h
    show ByPriority k (List.orderedInsert _ t (u :: ts))
    rw [List.orderedInsert_cons]
    split_ifs with hlt
    · apply List.pairwise_cons.mpr
      refine ⟨?_, h⟩
      intro v hv
      rcases List.mem_cons.mp hv with rfl | hv
      · exact hlt.le
      · exact (hu v hv).trans hlt.le
    · apply List.pairwise_cons.mpr
      refine ⟨?_, ih hts⟩
      intro v hv
      have hmem := (placeOnEventList_perm (k := k) ts).mem_iff.mp hv
      rcases List.mem_cons.mp hmem with rfl | hmem
      · omega
      · exact hu v hmem

/-- What a step does to an event list: its first tasks are unblocked, or the time of one is up, or
one is placed in it. -/
theorem QueueMove.waiting (hmove : QueueMove k cap allowed ticked n s n' s') (side : Side) :
    (∃ m, s'.q.waiting side = (s.q.waiting side).drop m) ∨
      (∃ t, ticked = some t ∧ s'.q.waiting side = (s.q.waiting side).erase t) ∨
      ∃ t, s'.q.waiting side = placeOnEventList k t (s.q.waiting side) := by
  cases hmove with
  | stay => exact .inl ⟨0, rfl⟩
  | call => exact .inl ⟨0, rfl⟩
  | go => exact .inl ⟨0, rfl⟩
  | suspend => exact .inl ⟨0, rfl⟩
  | lock => exact .inl ⟨0, by cases side <;> rfl⟩
  | place t c =>
    by_cases hside : side = c.request.side
    · right
      right
      use t
      rw [hside]
      exact waiting_placed_self s.q c
    · left
      use 0
      exact waiting_placed_of_ne s.q c hside
  | unlockTx =>
    left
    cases side with
    | senders => exact ⟨0, rfl⟩
    | receivers => exact ⟨_, unblockLoop_eq_drop _ _⟩
  | unlockRx =>
    left
    cases side with
    | senders => exact ⟨_, unblockLoop_eq_drop _ _⟩
    | receivers => exact ⟨0, rfl⟩
  | resume => exact .inl ⟨0, rfl⟩
  | send =>
    left
    cases side with
    | senders => exact ⟨0, rfl⟩
    | receivers => exact ⟨1, by rw [List.drop_one]; exact removeFromEventList_eq_tail _⟩
  | receive =>
    left
    cases side with
    | senders => exact ⟨1, by rw [List.drop_one]; exact removeFromEventList_eq_tail _⟩
    | receivers => exact ⟨0, rfl⟩
  | peek =>
    left
    cases side with
    | senders => exact ⟨0, rfl⟩
    | receivers => exact ⟨1, by rw [List.drop_one]; exact removeFromEventList_eq_tail _⟩
  | tick t c hpc hticked =>
    right
    left
    use t, hticked
    cases side <;> rfl
  | sendFromISR =>
    left
    cases side with
    | senders => exact ⟨0, rfl⟩
    | receivers => exact ⟨1, by rw [List.drop_one]; exact removeFromEventList_eq_tail _⟩
  | sendWhileLocked => exact .inl ⟨0, by cases side <;> rfl⟩
  | receiveFromISR =>
    left
    cases side with
    | senders => exact ⟨1, by rw [List.drop_one]; exact removeFromEventList_eq_tail _⟩
    | receivers => exact ⟨0, rfl⟩
  | receiveWhileLocked => exact .inl ⟨0, by cases side <;> rfl⟩
  | peekFromISR => exact .inl ⟨0, by cases side <;> rfl⟩

theorem QueueMove.byPriority (hmove : QueueMove k cap allowed ticked n s n' s')
    (h : ByPriority k (s.q.waiting side)) : ByPriority k (s'.q.waiting side) := by
  rcases hmove.waiting side with ⟨m, heq⟩ | ⟨t, -, heq⟩ | ⟨t, heq⟩
  · rw [heq]
    exact List.Pairwise.sublist (List.drop_sublist m _) h
  · rw [heq]
    exact List.Pairwise.sublist List.erase_sublist h
  · rw [heq]
    exact placeOnEventList_byPriority h

/-- A task that is unblocked has the highest priority of those that wait. -/
theorem QueueMove.priority (hmove : QueueMove k cap allowed ticked n s n' s')
    (h : ByPriority k (s.q.waiting side)) (ht : t ∈ s.q.waiting side) (ht' : t ∉ s'.q.waiting side)
    (hticked : ticked ≠ some t) :
    ∀ u ∈ s'.q.waiting side, k.uxPriority u ≤ k.uxPriority t := by
  rcases hmove.waiting side with ⟨m, heq⟩ | ⟨v, hv, heq⟩ | ⟨v, heq⟩
  · rw [heq] at ht' ⊢
    have htake : t ∈ (s.q.waiting side).take m := by
      rw [← List.take_append_drop m (s.q.waiting side), List.mem_append] at ht
      exact ht.resolve_right ht'
    unfold ByPriority at h
    rw [← List.take_append_drop m (s.q.waiting side), List.pairwise_append] at h
    exact fun u hu => h.2.2 t htake u hu
  · rw [heq] at ht'
    have hne : t ≠ v := by
      rintro rfl
      exact hticked hv
    exact absurd ((List.mem_erase_of_ne hne).mpr ht) ht'
  · rw [heq, (placeOnEventList_perm _).mem_iff] at ht'
    exact absurd (List.mem_cons_of_mem v ht) ht'

end WLink.Rtos
