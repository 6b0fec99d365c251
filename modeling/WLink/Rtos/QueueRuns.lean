import WLink.Rtos.QueueOrder

/-!
# Runs of a queue

Whatever tasks and interrupts do to a queue in whatever order, no access is outside of its storage, no
assertion fails, and the items are those of a list to which the events are done one after the other
(`queue_history`, `queue_fifo`). No task waits for what is there, unless another one is on its way to it
(`queue_awake`, `queue_blocked`), and none is unblocked before one of a higher priority
(`queue_priority`).
-/

namespace WLink.Rtos

open Lib

variable {k : Kernel} {cap size t : ℕ} {allowed : Request → Prop} {s s' : QueueSystem}
  {items : List (List UInt8)} {as : List QueueAction} {es : List QueueEvent} {mem : ℕ → UInt8}
  {pcHead : ℕ}

/-! ## Every state of a run -/

/-- What holds between any two steps. -/
structure Running (k : Kernel) (cap size : ℕ) (allowed : Request → Prop) (items : List (List UInt8))
    (s : QueueSystem) : Prop where
  has : s.q.Has cap size items
  turns : Turns k allowed s
  locking : Locking k s
  lists : Lists s
  ordered : ∀ side, ByPriority k (s.q.waiting side)
  placing : Placing k cap items.length s
  wakes : Wakes k cap items.length s

namespace QueueSystem

/-- One step of a run. -/
theorem step_running {a : QueueAction} (h : Running k cap size allowed items s)
    (hk : k.uxNumberOfTasks ≤ 127) (hfits : ∀ r, allowed r → r.Fits cap size)
    (ha : a.Allowed allowed) :
    ∃ s' es items', s.step k a = .ok (s', es) ∧
      dequeRun cap items (es.map QueueEvent.op) = some items' ∧
      (∀ e ∈ es, Asked allowed e.op) ∧ Running k cap size allowed items' s' := by
  obtain ⟨s', es, items', hok, hrun, hasked, hhas, hmove⟩ :=
    step_does h.has hk h.turns.suspends hfits h.turns.calls ha
  refine ⟨s', es, items', hok, hrun, hasked, hhas, hmove.turns h.turns,
    hmove.locking h.turns h.locking, hmove.lists h.lists,
    fun side => hmove.byPriority (h.ordered side), hmove.placing h.turns h.locking h.placing, ?_⟩
  exact hmove.wakes h.turns h.locking h.lists h.placing h.wakes

/-- A whole run. -/
theorem run_running (h : Running k cap size allowed items s) (hk : k.uxNumberOfTasks ≤ 127)
    (hfits : ∀ r, allowed r → r.Fits cap size) (has : ∀ a ∈ as, a.Allowed allowed) :
    ∃ s' es items', s.run k as = .ok (s', es) ∧
      dequeRun cap items (es.map QueueEvent.op) = some items' ∧
      (∀ e ∈ es, Asked allowed e.op) ∧ Running k cap size allowed items' s' := by
  induction as generalizing s items with
  | nil => exact ⟨s, [], items, rfl, rfl, fun _ he => absurd he List.not_mem_nil, h⟩
  | cons a as ih =>
    obtain ⟨ha, has⟩ := List.forall_mem_cons.mp has
    obtain ⟨mid, es, items₁, hstep, hitems₁, hasked, hmid⟩ := step_running h hk hfits ha
    obtain ⟨s', es', items', hrun, hitems', hasked', hrunning⟩ := ih hmid has
    refine ⟨s', es ++ es', items', ?_, ?_, ?_, hrunning⟩
    · unfold run
      exact bind_eq_ok.mpr ⟨(mid, es), hstep, bind_eq_ok.mpr ⟨(s', es'), hrun, rfl⟩⟩
    · rw [List.map_append]
      exact dequeRun_trans hitems₁ hitems'
    · intro e he
      rcases List.mem_append.mp he with he | he
      · exact hasked e he
      · exact hasked' e he

end QueueSystem

/-! ## New queues -/

theorem create_holds (mem : ℕ → UInt8) (pcHead : ℕ) (hcap : 0 < cap) :
    (QueueSystem.create mem pcHead cap size).q.Has cap size [] := by
  refine ⟨⟨rfl, Nat.zero_le _, rfl, cap - 1, Nat.sub_lt hcap Nat.one_pos, rfl, ?_, rfl⟩, rfl, rfl⟩
  show pcHead = pcHead + (cap - 1 + 1 + 0) % cap * size
  rw [Nat.add_zero, Nat.sub_add_cancel hcap, Nat.mod_self, Nat.zero_mul, Nat.add_zero]

/-- No task is in a call. -/
theorem Running.of_idle (hhas : s.q.Has cap size items) (hpc : s.pc = fun _ => .idle)
    (hsuspended : s.suspended = none) (hwaiting : ∀ side, s.q.waiting side = [])
    (hcounted : ∀ side, s.q.counted side = queueUnlocked) :
    Running k cap size allowed items s := by
  refine ⟨hhas, ?_, ?_, ?_, ?_, ?_, ?_⟩
  · constructor
    · intro t _
      rw [hpc]
    · intro t
      rw [hpc, hsuspended]
      exact iff_of_false id nofun
    · rw [hpc]
      nofun
  · constructor
    · intro side
      rw [hcounted]
      exact le_refl (-1 : ℤ)
    · intro side
      rw [hcounted]
      show (-1 : ℤ) ≤ _
      omega
    · rw [hpc]
      nofun
    · intro side hle
      rw [hcounted] at hle
      exact absurd hle not_unlocked
  · constructor
    · intro side
      rw [hwaiting]
      exact List.nodup_nil
    · intro side
      rw [hwaiting]
      nofun
  · intro side
    rw [hwaiting]
    exact List.Pairwise.nil
  · intro t c ht
    rw [hpc] at ht
    nomatch ht
  · intro side
    left
    rw [hwaiting]
    rfl

theorem create_running (hcap : 0 < cap) :
    Running k cap size allowed [] (QueueSystem.create mem pcHead cap size) :=
  .of_idle (create_holds mem pcHead hcap) rfl rfl (by rintro (_ | _) <;> rfl)
    (by rintro (_ | _) <;> rfl)

theorem createCountingSemaphore_holds {uxMaxCount uxInitialCount : ℕ} (mem : ℕ → UInt8) (pcHead : ℕ)
    (hmax : 0 < uxMaxCount) (hinitial : uxInitialCount ≤ uxMaxCount) :
    (QueueSystem.createCountingSemaphore mem pcHead uxMaxCount uxInitialCount).q.Has uxMaxCount 0
      (List.replicate uxInitialCount []) :=
  ⟨(create_holds mem pcHead hmax).holds.of_zero rfl hinitial, rfl, rfl⟩

/-! ## What has happened to the items -/

/-- Two tasks wait for an item. -/
def twoReceivers : List QueueAction :=
  .call 0 ⟨.receive, portMaxDelay⟩ :: List.replicate 9 (.run 0 0) ++
    .call 1 ⟨.receive, portMaxDelay⟩ :: List.replicate 9 (.run 1 0)

/-- Sends to the back, if at all. -/
def Request.Back : Request → Prop
  | .send _ position => position = .sendToBack
  | _ => True

instance : DecidablePred Request.Back
  | .send _ position => inferInstanceAs (Decidable (position = .sendToBack))
  | .receive => inferInstanceAs (Decidable True)
  | .peek => inferInstanceAs (Decidable True)

theorem fifo_of_asked {op : DequeOp (List UInt8)} (hback : ∀ r, allowed r → r.Back)
    (h : Asked allowed op) : op.Fifo := by
  cases op with
  | front item => exact absurd (hback _ h) (by nofun)
  | replace item => exact absurd (hback _ h) (by nofun)
  | _ => trivial

theorem run_fifo (h : Running k cap size allowed items s) (hk : k.uxNumberOfTasks ≤ 127)
    (hfits : ∀ r, allowed r → r.Fits cap size) (hback : ∀ r, allowed r → r.Back)
    (has : ∀ a ∈ as, a.Allowed allowed) :
    ∃ s' es items', s.run k as = .ok (s', es) ∧
      items ++ addedAtBack (es.map QueueEvent.op) = takenAtFront (es.map QueueEvent.op) ++ items' ∧
      s'.q.Has cap size items' := by
  obtain ⟨s', es, items', hok, hrun, hasked, hrunning⟩ := QueueSystem.run_running h hk hfits has
  refine ⟨s', es, items', hok, dequeRun_fifo ?_ hrun, hrunning.has⟩
  intro op hop
  obtain ⟨e, he, rfl⟩ := List.mem_map.mp hop
  exact fifo_of_asked hback (hasked e he)

/-- If items are only sent to the back, those that have been taken and those that are still in the
queue are those that have been sent, in that order. -/
theorem queue_fifo (hk : k.uxNumberOfTasks ≤ 127) (hcap : 0 < cap)
    (has : ∀ a ∈ as, a.Allowed fun r => r.Fits cap size ∧ r.Back) :
    ∃ s es items, (QueueSystem.create mem pcHead cap size).run k as = .ok (s, es) ∧
      addedAtBack (es.map QueueEvent.op) = takenAtFront (es.map QueueEvent.op) ++ items ∧
      s.q.Holds items := by
  obtain ⟨s, es, items, hok, hfifo, hhas⟩ :=
    run_fifo (create_running hcap) hk (fun _ h => h.1) (fun _ h => h.2) has
  exact ⟨s, es, items, hok, hfifo, hhas.holds⟩

theorem queue_fifo_receivers : ∃ s es items,
    (QueueSystem.create (fun _ => 0) 0 2 1).run ⟨2, id⟩
        (twoReceivers ++ [.sendFromISR [7] .sendToBack]) = .ok (s, es) ∧
      addedAtBack (es.map QueueEvent.op) = takenAtFront (es.map QueueEvent.op) ++ items ∧
      s.q.Holds items :=
  queue_fifo (by decide) (by decide) (by decide +kernel)

/-- What a semaphore is given and taken with. -/
def Request.OfSemaphore : Request → Prop
  | .send item position => item = [] ∧ position = .sendToBack
  | .receive => True
  | .peek => False

instance : DecidablePred Request.OfSemaphore
  | .send item position => inferInstanceAs (Decidable (item = [] ∧ position = .sendToBack))
  | .receive => inferInstanceAs (Decidable True)
  | .peek => inferInstanceAs (Decidable False)

theorem Request.OfSemaphore.fits (cap : ℕ) {r : Request} (h : r.OfSemaphore) :
    r.Fits cap 0 ∧ r.Back := by
  cases r with
  | send item position =>
    obtain ⟨rfl, rfl⟩ := h
    exact ⟨⟨rfl, nofun⟩, rfl⟩
  | receive => exact ⟨trivial, trivial⟩
  | peek => exact h.elim

/-- The count of a semaphore is what it has been given less what has been taken. -/
theorem semaphore_count {uxMaxCount uxInitialCount : ℕ} (hk : k.uxNumberOfTasks ≤ 127)
    (hmax : 0 < uxMaxCount) (hinitial : uxInitialCount ≤ uxMaxCount)
    (has : ∀ a ∈ as, a.Allowed Request.OfSemaphore) :
    ∃ s es, (QueueSystem.createCountingSemaphore mem pcHead uxMaxCount uxInitialCount).run k as =
        .ok (s, es) ∧
      uxInitialCount + (addedAtBack (es.map QueueEvent.op)).length =
        (takenAtFront (es.map QueueEvent.op)).length + s.q.uxMessagesWaiting ∧
      s.q.uxMessagesWaiting ≤ uxMaxCount := by
  have hrunning : Running k uxMaxCount 0 Request.OfSemaphore (List.replicate uxInitialCount [])
      (QueueSystem.createCountingSemaphore mem pcHead uxMaxCount uxInitialCount) :=
    .of_idle (createCountingSemaphore_holds mem pcHead hmax hinitial) rfl rfl
      (by rintro (_ | _) <;> rfl) (by rintro (_ | _) <;> rfl)
  obtain ⟨s, es, items, hok, hfifo, hhas⟩ :=
    run_fifo hrunning hk (fun _ h => (h.fits uxMaxCount).1) (fun _ h => (h.fits uxMaxCount).2) has
  have hlength := congrArg List.length hfifo
  rw [List.length_append, List.length_append, List.length_replicate] at hlength
  refine ⟨s, es, hok, ?_, ?_⟩
  · rw [hhas.holds.waiting]
    exact hlength
  · rw [hhas.holds.waiting]
    exact hhas.length ▸ hhas.holds.room

theorem semaphore_count_two : ∃ s es,
    (QueueSystem.createCountingSemaphore (fun _ => 0) 0 2 1).run ⟨2, id⟩
        [.call 0 ⟨.receive, 0⟩, .run 0 0, .sendFromISR [] .sendToBack] = .ok (s, es) ∧
      1 + (addedAtBack (es.map QueueEvent.op)).length =
        (takenAtFront (es.map QueueEvent.op)).length + s.q.uxMessagesWaiting ∧
      s.q.uxMessagesWaiting ≤ 2 :=
  semaphore_count (by decide) (by decide) (by decide) (by decide +kernel)

/-! ## Those who wait -/

/-- How many tasks want something of the queue and are in no event list. -/
def QueueSystem.onTheWay (k : Kernel) (s : QueueSystem) (side : Side) : ℕ :=
  Nat.count (fun t => (s.pc t).wants = some side ∧ t ∉ s.q.waiting side) k.uxNumberOfTasks

theorem Running.counted (h : Running k cap size allowed items s) (hnone : s.suspended = none)
    (side : Side) : s.q.counted side = queueUnlocked := by
  have hlow := h.locking.low side
  have hnot : ¬ 0 ≤ s.q.counted side := by
    intro hle
    obtain ⟨t, ht⟩ := h.locking.unlocked side hle
    have hsome := (h.turns.suspends t).mp ht.suspends
    rw [hnone] at hsome
    nomatch hsome
  unfold queueUnlocked
  omega

/-- While tasks wait for something, others are on their way to all that there is of it. -/
theorem Running.awake (h : Running k cap size allowed items s) (hnone : s.suspended = none)
    (side : Side) (hwaiting : s.q.waiting side ≠ []) :
    available cap items.length side ≤ s.onTheWay k side := by
  have hawake := h.wakes side
  have hcount := count_notMem (h.lists.nodup side) (wants_of_waiting h.turns h.lists)
  have hpos := List.length_pos_iff.mpr hwaiting
  rw [h.counted hnone] at hawake
  unfold Awake queueUnlocked at hawake
  unfold QueueSystem.onTheWay
  unfold QueueSystem.wanting at hawake
  omega

theorem run_state (hk : k.uxNumberOfTasks ≤ 127) (hcap : 0 < cap)
    (has : ∀ a ∈ as, a.Allowed (Request.Fits cap size))
    (hrun : (QueueSystem.create mem pcHead cap size).run k as = .ok (s, es)) :
    ∃ items, Running k cap size (Request.Fits cap size) items s := by
  obtain ⟨s', es', items, hok, -, -, hrunning⟩ :=
    QueueSystem.run_running (create_running hcap) hk (fun _ h => h) has
  rw [hrun] at hok
  cases hok
  exact ⟨items, hrunning⟩

/-- No wake-up is lost: while receivers wait there are no more items than receivers on their way, and
while senders wait there is no more room than there are senders on their way. -/
theorem queue_awake (hk : k.uxNumberOfTasks ≤ 127) (hcap : 0 < cap)
    (has : ∀ a ∈ as, a.Allowed (Request.Fits cap size))
    (hrun : (QueueSystem.create mem pcHead cap size).run k as = .ok (s, es))
    (hnone : s.suspended = none) :
    (s.q.xTasksWaitingToReceive ≠ [] → s.q.uxMessagesWaiting ≤ s.onTheWay k .receivers) ∧
      (s.q.xTasksWaitingToSend ≠ [] →
        s.q.uxLength - s.q.uxMessagesWaiting ≤ s.onTheWay k .senders) := by
  obtain ⟨items, hrunning⟩ := run_state hk hcap has hrun
  rw [hrunning.has.holds.waiting, hrunning.has.length]
  constructor
  · exact hrunning.awake hnone .receivers
  · exact hrunning.awake hnone .senders

theorem queue_awake_receivers : ∃ s es,
    (QueueSystem.create (fun _ => 0) 0 2 1).run ⟨2, id⟩
        (twoReceivers ++ [.sendFromISR [7] .sendToBack]) = .ok (s, es) ∧
      s.q.xTasksWaitingToReceive = [0] ∧
      s.q.uxMessagesWaiting ≤ s.onTheWay ⟨2, id⟩ .receivers := by
  have hrun : (QueueSystem.create (fun _ => 0) 0 2 1).run ⟨2, id⟩
    (twoReceivers ++ [.sendFromISR [7] .sendToBack]) = .ok (_, _) := rfl
  exact ⟨_, _, hrun, rfl,
    (queue_awake (by decide) (by decide) (by decide +kernel) hrun rfl).1 nofun⟩

/-- When all tasks that are in a call wait, receivers wait at an empty queue and senders at a full
one. -/
theorem queue_blocked (hk : k.uxNumberOfTasks ≤ 127) (hcap : 0 < cap)
    (has : ∀ a ∈ as, a.Allowed (Request.Fits cap size))
    (hrun : (QueueSystem.create mem pcHead cap size).run k as = .ok (s, es))
    (hblocked : ∀ t, s.pc t = .idle ∨
      (∃ c, s.pc t = .blocked c) ∧ (t ∈ s.q.xTasksWaitingToReceive ∨ t ∈ s.q.xTasksWaitingToSend)) :
    (s.q.xTasksWaitingToReceive ≠ [] → s.q.uxMessagesWaiting = 0) ∧
      (s.q.xTasksWaitingToSend ≠ [] → s.q.uxMessagesWaiting = s.q.uxLength) := by
  obtain ⟨items, hrunning⟩ := run_state hk hcap has hrun
  have hnone : s.suspended = none := by
    by_contra hsome
    obtain ⟨t, ht⟩ := Option.ne_none_iff_exists'.mp hsome
    have hsuspends := (hrunning.turns.suspends t).mpr ht
    rcases hblocked t with hidle | ⟨⟨c, hc⟩, -⟩
    · rw [hidle] at hsuspends
      exact hsuspends
    · rw [hc] at hsuspends
      exact hsuspends
  have honTheWay : ∀ side, s.onTheWay k side = 0 := by
    intro side
    unfold QueueSystem.onTheWay
    rw [Nat.count_iff_forall_not]
    rintro t - ⟨hwants, hnot⟩
    rcases hblocked t with hidle | ⟨⟨c, hc⟩, hmem⟩
    · rw [hidle] at hwants
      nomatch hwants
    · -- it waits in the event list of what it wants
      have hwaits : (s.pc t).waitsIn = some side := by
        rw [hc] at hwants ⊢
        exact hwants
      rcases hmem with hmem | hmem
      · have hside := hrunning.lists.waits .receivers t hmem
        rw [hwaits] at hside
        cases hside
        exact hnot hmem
      · have hside := hrunning.lists.waits .senders t hmem
        rw [hwaits] at hside
        cases hside
        exact hnot hmem
  have hreceivers := hrunning.awake hnone .receivers
  have hsenders := hrunning.awake hnone .senders
  rw [honTheWay] at hreceivers hsenders
  rw [hrunning.has.holds.waiting, hrunning.has.length]
  have hroom := hrunning.has.holds.room
  rw [hrunning.has.length] at hroom
  constructor
  · intro hne
    exact Nat.le_zero.mp (hreceivers hne)
  · intro hne
    have hzero : cap - items.length ≤ 0 := hsenders hne
    omega

theorem queue_blocked_receivers : ∃ s es,
    (QueueSystem.create (fun _ => 0) 0 2 1).run ⟨2, id⟩ twoReceivers = .ok (s, es) ∧
      s.q.xTasksWaitingToReceive = [1, 0] ∧ s.q.uxMessagesWaiting = 0 := by
  have hrun : (QueueSystem.create (fun _ => 0) 0 2 1).run ⟨2, id⟩ twoReceivers = .ok (_, _) := rfl
  refine ⟨_, _, hrun, rfl, (queue_blocked (by decide) (by decide) (by decide +kernel) hrun ?_).1 nofun⟩
  intro t
  match t with
  | 0 => exact .inr ⟨⟨_, rfl⟩, .inl (.tail _ (.head _))⟩
  | 1 => exact .inr ⟨⟨_, rfl⟩, .inl (.head _)⟩
  | t + 2 => exact .inl rfl

/-- A task that a step unblocks, unless its time is up, has the highest priority of those that wait in
the same event list. -/
theorem queue_priority {a : QueueAction} {es' : List QueueEvent} (hk : k.uxNumberOfTasks ≤ 127)
    (hcap : 0 < cap)
    (has : ∀ a ∈ as, a.Allowed (Request.Fits cap size))
    (hrun : (QueueSystem.create mem pcHead cap size).run k as = .ok (s, es))
    (side : Side) (ha : a.Allowed (Request.Fits cap size)) (hstep : s.step k a = .ok (s', es'))
    (ht : t ∈ s.q.waiting side) (ht' : t ∉ s'.q.waiting side) (htick : a ≠ .tick t) :
    ∀ u ∈ s'.q.waiting side, k.uxPriority u ≤ k.uxPriority t := by
  obtain ⟨items, hrunning⟩ := run_state hk hcap has hrun
  obtain ⟨s₁, es₁, items₁, hok, -, -, -, hmove⟩ := QueueSystem.step_does hrunning.has hk
    hrunning.turns.suspends (fun _ h => h) hrunning.turns.calls ha
  rw [hstep] at hok
  cases hok
  apply hmove.priority (hrunning.ordered side) ht ht'
  cases a with
  | tick u =>
    intro heq
    exact htick (congrArg _ (Option.some.inj heq))
  | _ => nofun

theorem queue_priority_receivers : ∃ s es s' es',
    (QueueSystem.create (fun _ => 0) 0 2 1).run ⟨2, id⟩ twoReceivers = .ok (s, es) ∧
      s.step ⟨2, id⟩ (.sendFromISR [7] .sendToBack) = .ok (s', es') ∧
      s.q.xTasksWaitingToReceive = [1, 0] ∧ s'.q.xTasksWaitingToReceive = [0] ∧
      ∀ u ∈ s'.q.xTasksWaitingToReceive, u ≤ 1 := by
  have hrun : (QueueSystem.create (fun _ => 0) 0 2 1).run ⟨2, id⟩ twoReceivers = .ok (_, _) := rfl
  have ha : (QueueAction.sendFromISR [7] .sendToBack).Allowed (Request.Fits 2 1) := by decide
  have hnot : 1 ∉ [0] := by decide
  refine ⟨_, _, _, _, hrun, rfl, rfl, rfl, ?_⟩
  exact queue_priority (by decide) (by decide) (by decide +kernel) hrun .receivers ha rfl
    (.head _) hnot nofun

end WLink.Rtos
