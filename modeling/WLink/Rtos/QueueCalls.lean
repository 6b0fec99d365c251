import WLink.Rtos.QueueRuns

/-!
# Calls that wait for any time

A task that calls with `portMAX_DELAY` is never told that its time is up, so a call of it does not come
to an end before it has got or stored its item (`queue_forever`), whatever the other tasks and the
interrupts do.
-/

namespace WLink.Rtos

open Lib

variable {k : Kernel} {t u elapsed : ℕ} {s s' : QueueSystem} {c : QueueCall} {a : QueueAction}
  {as : List QueueAction} {es : List QueueEvent}

/-- The call is not refused. -/
def Succeeds : DequeOp (List UInt8) → Prop
  | .back _ => True
  | .front _ => True
  | .replace _ => True
  | .take _ => True
  | .look _ => True
  | .full => False
  | .empty => False
  | .none => False

namespace Pc

/-- The task is at no place that is only for those whose time is up. -/
def Endless : Pc → Prop
  | .idle => True
  | .loop c => c.xTicksToWait = portMaxDelay
  | .suspend c => c.xTicksToWait = portMaxDelay
  | .lock c => c.xTicksToWait = portMaxDelay
  | .time c => c.xTicksToWait = portMaxDelay
  | .look c => c.xTicksToWait = portMaxDelay
  | .place c => c.xTicksToWait = portMaxDelay
  | .unlockTx c why => c.xTicksToWait = portMaxDelay ∧ why ≠ .timedOut
  | .unlockRx c why => c.xTicksToWait = portMaxDelay ∧ why ≠ .timedOut
  | .resume c why => c.xTicksToWait = portMaxDelay ∧ why ≠ .timedOut
  | .blocked c => c.xTicksToWait = portMaxDelay
  | .last _ => False

end Pc

namespace QueueSystem

/-- A step of a task: only it goes on, and if it waits for any time it still does, or has got what it
has called for. -/
def Endures (t : ℕ) (s : QueueSystem) (r : QueueSystem × List QueueEvent) : Prop :=
  (∃ pc, r.1.pc = Function.update s.pc t pc ∧ ((s.pc t).Endless → pc.Endless)) ∧
    ∀ e ∈ r.2, e.task = some t ∧ ((s.pc t).Endless → Succeeds e.op)

theorem endures_stay (s : QueueSystem) : Endures t s (s, []) :=
  ⟨⟨s.pc t, (Function.update_eq_self t s.pc).symm, id⟩, nofun⟩

theorem endures_goTo (s : QueueSystem) (pc : Pc) (h : (s.pc t).Endless → pc.Endless) :
    Endures t s (s.goTo t pc, []) :=
  ⟨⟨pc, rfl, h⟩, nofun⟩

theorem endures_finish (s : QueueSystem) (q : Queue) (op : DequeOp (List UInt8))
    (h : (s.pc t).Endless → Succeeds op) : Endures t s (s.finish t q op) := by
  refine ⟨⟨.idle, rfl, fun _ => trivial⟩, ?_⟩
  intro e he
  rw [List.mem_singleton.mp he]
  exact ⟨rfl, h⟩

theorem succeeds_sent (item : List UInt8) (position : CopyPosition) :
    Succeeds (sent item position) := by
  cases position <;> trivial

/-- A call that finds nothing goes on to wait. -/
theorem endures_wait {r : QueueSystem × List QueueEvent} {q : Queue} {op : DequeOp (List UInt8)}
    (hpc : s.pc t = .loop c)
    (hr : (if c.xTicksToWait = 0 then pure (s.finish t q op) else pure (s.goTo t (.suspend c), []) :
      Except Fault _) = .ok r) : Endures t s r := by
  split_ifs at hr with hzero
  · cases hr
    apply endures_finish
    rw [hpc]
    intro (hc : c.xTicksToWait = portMaxDelay)
    rw [hc] at hzero
    exact absurd hzero (by decide)
  · cases hr
    apply endures_goTo
    rw [hpc]
    exact id

theorem attempt_endures {r : QueueSystem × List QueueEvent} (hpc : s.pc t = .loop c)
    (hr : s.attempt t c = .ok r) : Endures t s r := by
  unfold attempt at hr
  split at hr
  next item position hrequest =>
    by_cases hroom : s.q.uxMessagesWaiting < s.q.uxLength ∨ position = .overwrite
    · rw [if_pos hroom, bind_eq_ok] at hr
      obtain ⟨storage, -, hr⟩ := hr
      cases hr
      exact endures_finish s _ _ fun _ => succeeds_sent item position
    · rw [if_neg hroom] at hr
      exact endures_wait hpc hr
  next hrequest =>
    by_cases hpos : 0 < s.q.uxMessagesWaiting
    · rw [if_pos hpos, bind_eq_ok] at hr
      obtain ⟨storage, -, hr⟩ := hr
      cases hr
      exact endures_finish s _ _ fun _ => trivial
    · rw [if_neg hpos] at hr
      exact endures_wait hpc hr
  next hrequest =>
    by_cases hpos : 0 < s.q.uxMessagesWaiting
    · rw [if_pos hpos, bind_eq_ok] at hr
      obtain ⟨storage, -, hr⟩ := hr
      cases hr
      exact endures_finish s _ _ fun _ => trivial
    · rw [if_neg hpos] at hr
      exact endures_wait hpc hr

theorem xTaskCheckForTimeOut_portMaxDelay (elapsed : ℕ) :
    xTaskCheckForTimeOut elapsed portMaxDelay = (false, portMaxDelay) := if_pos rfl

theorem runTask_endures {r : QueueSystem × List QueueEvent} (hr : s.runTask k t elapsed = .ok r) :
    Endures t s r := by
  unfold runTask at hr
  split at hr
  next hpc =>
    cases hr
    exact endures_stay s
  next c hpc => exact attempt_endures hpc hr
  next c hpc =>
    cases hr
    exact ⟨⟨.lock c, rfl, by rw [hpc]; exact id⟩, nofun⟩
  next c hpc =>
    cases hr
    exact ⟨⟨.time c, rfl, by rw [hpc]; exact id⟩, nofun⟩
  next c hpc =>
    obtain ⟨⟨timedOut, xTicksToWait⟩, hx⟩ :
      ∃ x, xTaskCheckForTimeOut elapsed c.xTicksToWait = x := ⟨_, rfl⟩
    rw [hx] at hr
    cases hr
    apply endures_goTo
    rw [hpc]
    intro (hc : c.xTicksToWait = portMaxDelay)
    rw [hc, xTaskCheckForTimeOut_portMaxDelay] at hx
    cases hx
    rfl
  next c hpc =>
    cases hr
    apply endures_goTo
    rw [hpc]
    split_ifs
    · exact id
    · exact fun hc => ⟨hc, nofun⟩
  next c hpc =>
    cases hr
    exact ⟨⟨.unlockTx c .block, rfl, by rw [hpc]; exact fun hc => ⟨hc, nofun⟩⟩, nofun⟩
  next c why hpc =>
    cases hr
    exact ⟨⟨.unlockRx c why, rfl, by rw [hpc]; exact id⟩, nofun⟩
  next c why hpc =>
    cases hr
    exact ⟨⟨.resume c why, rfl, by rw [hpc]; exact id⟩, nofun⟩
  next c why hpc =>
    cases why with
    | block =>
      cases hr
      exact ⟨⟨.blocked c, rfl, by rw [hpc]; exact And.left⟩, nofun⟩
    | again =>
      cases hr
      exact ⟨⟨.loop c, rfl, by rw [hpc]; exact And.left⟩, nofun⟩
    | timedOut =>
      have hnot : ¬ (s.pc t).Endless := by
        rw [hpc]
        exact fun h => h.2 rfl
      dsimp only at hr
      split at hr
      · cases hr
        exact endures_finish { s with suspended := none } _ _ fun h => absurd h hnot
      · cases hr
        exact endures_goTo { s with suspended := none } _ fun h => absurd h hnot
  next c hpc =>
    split_ifs at hr
    · cases hr
      exact endures_stay s
    · cases hr
      apply endures_goTo
      rw [hpc]
      exact id
  next c hpc =>
    have hnot : ¬ (s.pc t).Endless := by
      rw [hpc]
      exact id
    split_ifs at hr
    · cases hr
      exact endures_finish s _ _ fun h => absurd h hnot
    · cases hr
      exact endures_goTo s _ fun h => absurd h hnot

theorem no_events : ∀ e ∈ ([] : List QueueEvent), e.task = some t → Succeeds e.op :=
  fun _ he => absurd he List.not_mem_nil

theorem event_of_isr {e : QueueEvent} (h : e.task = none) :
    ∀ e' ∈ [e], e'.task = some t → Succeeds e'.op := by
  intro e' he'
  rw [List.mem_singleton.mp he', h]
  exact fun htask => absurd htask.symm (Option.some_ne_none t)

/-- A step of the code, as a task sees it that waits for any time. -/
theorem step_endures {r : QueueSystem × List QueueEvent} (h : (s.pc t).Endless)
    (ha : ∀ c, a = .call t c → c.xTicksToWait = portMaxDelay) (hr : s.step k a = .ok r) :
    (r.1.pc t).Endless ∧ ∀ e ∈ r.2, e.task = some t → Succeeds e.op := by
  cases a with
  | call u c =>
    simp only [step] at hr
    split_ifs at hr with hcan
    · cases hr
      refine ⟨?_, no_events⟩
      by_cases hu : t = u
      · rw [← hu]
        show (Function.update s.pc t (.loop c) t).Endless
        rw [Function.update_self]
        exact ha c (by rw [hu])
      · show (Function.update s.pc u (.loop c) t).Endless
        rwa [Function.update_of_ne hu]
    · cases hr
      exact ⟨h, no_events⟩
  | run u elapsed =>
    simp only [step] at hr
    split_ifs at hr
    · obtain ⟨⟨pc, hpc, hendless⟩, hes⟩ := runTask_endures hr
      by_cases hu : t = u
      · rw [← hu] at hpc hendless hes
        rw [hpc, Function.update_self]
        exact ⟨hendless h, fun e he _ => (hes e he).2 h⟩
      · rw [hpc, Function.update_of_ne hu]
        refine ⟨h, fun e he htask => absurd ?_ hu⟩
        rw [(hes e he).1] at htask
        exact (Option.some.inj htask).symm
    · cases hr
      exact ⟨h, no_events⟩
  | tick u =>
    simp only [step] at hr
    split at hr
    next => split_ifs at hr <;> cases hr <;> exact ⟨h, no_events⟩
    next =>
      cases hr
      exact ⟨h, no_events⟩
  | sendFromISR item position =>
    obtain ⟨x, -, hx⟩ := map_eq_ok.mp hr
    rw [← hx]
    exact ⟨h, event_of_isr rfl⟩
  | receiveFromISR =>
    obtain ⟨x, -, hx⟩ := map_eq_ok.mp hr
    rw [← hx]
    exact ⟨h, event_of_isr rfl⟩
  | peekFromISR =>
    obtain ⟨x, -, hx⟩ := map_eq_ok.mp hr
    rw [← hx]
    exact ⟨h, event_of_isr rfl⟩

theorem run_endures {r : QueueSystem × List QueueEvent} (h : (s.pc t).Endless)
    (has : ∀ c, .call t c ∈ as → c.xTicksToWait = portMaxDelay) (hr : s.run k as = .ok r) :
    ∀ e ∈ r.2, e.task = some t → Succeeds e.op := by
  induction as generalizing s r with
  | nil =>
    cases hr
    nofun
  | cons a as ih =>
    unfold run at hr
    rw [bind_eq_ok] at hr
    obtain ⟨⟨mid, es⟩, hstep, hr⟩ := hr
    rw [bind_eq_ok] at hr
    obtain ⟨⟨s', es'⟩, hrun, hr⟩ := hr
    cases hr
    obtain ⟨hmid, hes⟩ := step_endures h (fun c hc => has c (hc ▸ List.mem_cons_self)) hstep
    intro e he
    rcases List.mem_append.mp he with he | he
    · exact hes e he
    · exact ih hmid (fun c hc => has c (List.mem_cons_of_mem a hc)) hrun e he

end QueueSystem

/-- A task that may wait for any time in all of its calls gets or stores an item with each call that
comes to its end. -/
theorem queue_forever {mem : ℕ → UInt8} {pcHead cap size : ℕ}
    (has : ∀ c, .call t c ∈ as → c.xTicksToWait = portMaxDelay)
    (hrun : (QueueSystem.create mem pcHead cap size).run k as = .ok (s, es)) :
    ∀ e ∈ es, e.task = some t → Succeeds e.op := by
  have hidle : ((QueueSystem.create mem pcHead cap size).pc t).Endless := trivial
  exact QueueSystem.run_endures hidle has hrun

theorem queue_forever_receivers : ∃ s es,
    (QueueSystem.create (fun _ => 0) 0 2 1).run ⟨2, id⟩
        (twoReceivers ++ [.sendFromISR [7] .sendToBack, .run 1 0, .run 1 0]) = .ok (s, es) ∧
      es.length = 2 ∧ ∀ e ∈ es, e.task = some 1 → Succeeds e.op := by
  have hrun : (QueueSystem.create (fun _ => 0) 0 2 1).run ⟨2, id⟩
    (twoReceivers ++ [.sendFromISR [7] .sendToBack, .run 1 0, .run 1 0]) = .ok (_, _) := rfl
  refine ⟨_, _, hrun, rfl, queue_forever ?_ hrun⟩
  intro c hc
  simp [twoReceivers, List.replicate] at hc
  rw [hc]

end WLink.Rtos
