import WLink.Lib.PortOwn

/-!
# Writing frames to the CAN controller

`CAN_Write` as the calls of a port with the three transmit mailboxes as channels. The result of
`HAL_CAN_AddTxMessage` is not looked at, one semaphore that is never cleared stands for all the
mailboxes, and of these only the first has a callback. `FramesReported` says that a call returns
`hwCAN_OK` exactly if its frame was accepted and transmitted before the end of the call. This is so
in a run in which a call only starts while nothing else can signal the semaphore, and no frame of a
waiting call leaves by the second or third mailbox (`framesReported_of_allSteps`).
-/

namespace WLink.Driver

open Lib

/-! ## The driver -/

inductive CanOpStatus
  | ok
  | timeout
  deriving DecidableEq

/-- A call of `CAN_Write`: the frame it makes of its arguments. -/
structure CanFrame where
  stdId : UInt32
  data : List UInt8
  dlc : UInt8
  deriving DecidableEq

/-- A transmit mailbox. -/
abbrev CanMailbox := Fin 3

/-- `CAN_Write` -/
def canWrite (frame : CanFrame) : ℕ → Command CanMailbox Unit CanFrame CanOpStatus
  | 0 => .start [0, 1, 2] (some frame) 1
  | 1 => .wait () frame 2 3
  | 2 => .ret .ok
  | _ => .ret .timeout

/-- The controller: the HAL takes a frame into any mailbox that is empty, and only
`HAL_CAN_TxMailbox0CompleteCallback` signals the semaphore. -/
def canPort : Port CanFrame CanMailbox Unit CanFrame CanOpStatus where
  program := canWrite
  signals := fun k _ ok => if k = 0 ∧ ok = true then [()] else []
  supersedes := fun _ _ => false
  reset := ⟨0, [], 0⟩

abbrev CanState := PortState CanFrame CanMailbox Unit CanFrame CanOpStatus

/-- A call returns `hwCAN_OK` exactly if its frame has been accepted and transmitted when it stops
waiting. -/
def FramesReported (s : CanState) : Prop :=
  ∀ x ∈ s.log, x.result = .ok ↔ ∃ d ∈ x.running.seen,
    d.ticket = ⟨x.running.id, x.running.call⟩ ∧ d.ok = true

instance (s : CanState) : Decidable (FramesReported s) :=
  inferInstanceAs (Decidable (∀ x ∈ s.log, x.result = .ok ↔ ∃ d ∈ x.running.seen, _))

/-! ## What a call waits for -/

section

variable {c : CanFrame} {pc : ℕ}

theorem canWrite_wait {i : Unit} {q : CanFrame} {y x : ℕ} (h : canWrite c pc = .wait i q y x) :
    pc = 1 ∧ q = c ∧ y = 2 := by
  unfold canWrite at h
  split at h
  all_goals cases h
  exact ⟨rfl, rfl, rfl⟩

theorem canWrite_start {chans : List CanMailbox} {req : Option CanFrame} {x : ℕ}
    (h : canWrite c pc = .start chans req x) : pc = 0 ∧ req = some c ∧ x = 1 := by
  unfold canWrite at h
  split at h
  all_goals cases h
  exact ⟨rfl, rfl, rfl⟩

theorem canWrite_ret {result : CanOpStatus} (h : canWrite c pc = .ret result) :
    pc = 2 ∧ result = .ok ∨ 2 < pc ∧ result = .timeout := by
  match pc, h with
  | 2, h =>
    cases h
    exact .inl ⟨rfl, rfl⟩
  | n + 3, h =>
    cases h
    exact .inr ⟨by omega, rfl⟩

theorem canWrite_passes {pc' : ℕ} (h : (canWrite c pc).Passes pc pc') : pc = 1 ∧ pc' = 3 := by
  unfold canWrite at h
  split at h
  · exact h.elim
  · exact ⟨rfl, h⟩
  · exact h.elim
  · exact h.elim

end

def canDiscipline : Discipline canPort where
  awaits := fun c pc _ => if pc = 1 then some c else none
  waited := fun c pc => if pc = 2 then [c] else []
  fresh := fun _ => ⟨fun _ => rfl, rfl⟩
  idle := by
    intro c pc hnowait i
    refine if_neg fun hpc => ?_
    subst hpc
    exact hnowait () c 2 3 rfl
  pass := by
    intro c pc pc' hpass
    obtain ⟨rfl, rfl⟩ := canWrite_passes hpass
    exact ⟨fun _ => rfl, rfl⟩
  wait := by
    intro c pc i q y x hprogram
    obtain ⟨rfl, rfl, rfl⟩ := canWrite_wait hprogram
    exact ⟨rfl, rfl, nofun⟩
  start := by
    intro c pc chans req x hprogram
    obtain ⟨rfl, -, rfl⟩ := canWrite_start hprogram
    exact ⟨rfl, rfl, (), nofun⟩
  signals := by
    intro c pc chans req x hprogram k hk q ok i hreq hi
    obtain ⟨rfl, -, -⟩ := canWrite_start hprogram
    exact nofun

/-- The calls start undisturbed, and no frame of a call that waits leaves by a mailbox without a
callback. -/
def CanClean (s : CanState) (e : PortEvent CanFrame CanMailbox) : Prop :=
  canDiscipline.Clean s e ∧ ∀ k value tk, e = .done k true value → k ≠ 0 →
    s.inFlight k = some tk → ∀ t r, s.task t = some r → r.pc = 1 → r.id ≠ tk.call

/-! ## A frame that has been transmitted -/

/-- A call whose frame has been transmitted finds the semaphore signalled while it waits; one that
has stopped waiting without it has not seen its frame transmitted. -/
structure CanPrompt (s : CanState) : Prop where
  inFlight : ∀ k tk, s.inFlight k = some tk → tk.call < s.calls
  completed : ∀ d ∈ s.completed, d.ticket.call < s.calls
  fresh : ∀ t r, s.task t = some r → r.pc = 0 →
    (∀ k tk, s.inFlight k = some tk → tk.call ≠ r.id) ∧ ∀ d ∈ s.completed, d.ticket.call ≠ r.id
  waiting : ∀ t r, s.task t = some r → r.pc = 1 → ∀ d ∈ s.completed, d.ticket.call = r.id →
    d.ok = true → s.slot () ≠ none
  expired : ∀ t r, s.task t = some r → 2 < r.pc → ∀ d ∈ r.seen, d.ticket.call = r.id →
    d.ok = false
  log : ∀ x ∈ s.log, x.result = .timeout → ∀ d ∈ x.running.seen,
    d.ticket.call = x.running.id → d.ok = false

variable {s : CanState}

theorem CanPrompt.begin (h : CanPrompt s) (t : ℕ) (c : CanFrame) : CanPrompt (s.begin t c) := by
  constructor
  · exact fun k tk hk => Nat.lt_succ_of_lt (h.inFlight k tk hk)
  · exact fun d hd => Nat.lt_succ_of_lt (h.completed d hd)
  · intro u r hr hpc
    rcases PortState.task_begin.mp hr with ⟨-, rfl⟩ | ⟨-, hold⟩
    · exact ⟨fun k tk hk => Nat.ne_of_lt (h.inFlight k tk hk),
        fun d hd => Nat.ne_of_lt (h.completed d hd)⟩
    · exact h.fresh u r hold hpc
  · intro u r hr hpc
    rcases PortState.task_begin.mp hr with ⟨-, rfl⟩ | ⟨-, hold⟩
    · exact absurd hpc nofun
    · exact h.waiting u r hold hpc
  · intro u r hr hpc
    rcases PortState.task_begin.mp hr with ⟨-, rfl⟩ | ⟨-, hold⟩
    · exact absurd hpc nofun
    · exact h.expired u r hold hpc
  · exact h.log

/-- A call that has come to its start has no frame yet, and goes on to wait. -/
theorem CanPrompt.startsWaiting {s' : CanState} (h : CanPrompt s) (hnum : s.Numbered) {t : ℕ}
    {r : Running CanFrame CanFrame} (hr : s.task t = some r) (hpc : r.pc = 0)
    (hslot : s'.slot = s.slot) (htask : s'.task = s.task) (hcalls : s'.calls = s.calls)
    (hcompleted : s'.completed = s.completed) (hlog : s'.log = s.log)
    (hflight : ∀ k tk, s'.inFlight k = some tk → s.inFlight k = some tk ∨ tk.call = r.id) :
    CanPrompt (s'.goto t r 1) := by
  have hother {u : ℕ} {r' : Running CanFrame CanFrame} (hu : s'.task u = some r') :
      s.task u = some r' := htask ▸ hu
  constructor
  · intro k tk hk
    show tk.call < s'.calls
    rw [hcalls]
    rcases hflight k tk hk with hk | hk
    · exact h.inFlight k tk hk
    · rw [hk]
      exact hnum.running t r hr
  · show ∀ d ∈ s'.completed, d.ticket.call < s'.calls
    rw [hcompleted, hcalls]
    exact h.completed
  · intro u r' hr' hpc'
    rcases PortState.task_goto.mp hr' with ⟨-, rfl⟩ | ⟨hut, hold⟩
    · exact absurd hpc' nofun
    · have hfresh := h.fresh u r' (hother hold) hpc'
      -- a frame in flight is an old one or the one of the call that moves
      refine ⟨fun k tk hk => ?_, ?_⟩
      · rcases hflight k tk hk with hk | hk
        · exact hfresh.1 k tk hk
        · rw [hk]
          exact fun hid => hut (hnum.apart t r u r' hr (hother hold) hid).symm
      · show ∀ d ∈ s'.completed, _
        rw [hcompleted]
        exact hfresh.2
  · intro u r' hr' hpc' d hd hid hok
    have hd' : d ∈ s.completed := hcompleted ▸ hd
    show s'.slot () ≠ none
    rw [hslot]
    rcases PortState.task_goto.mp hr' with ⟨-, rfl⟩ | ⟨-, hold⟩
    · exact absurd hid ((h.fresh t r hr hpc).2 d hd')
    · exact h.waiting u r' (hother hold) hpc' d hd' hid hok
  · intro u r' hr' hpc'
    rcases PortState.task_goto.mp hr' with ⟨-, rfl⟩ | ⟨-, hold⟩
    · have hlt : 2 < 1 := hpc'
      omega
    · exact h.expired u r' (hother hold) hpc'
  · show ∀ x ∈ s'.log, _
    rw [hlog]
    exact h.log

/-- The time of a call is up while the semaphore is not signalled. -/
theorem CanPrompt.expire (h : CanPrompt s) {t : ℕ} {r : Running CanFrame CanFrame}
    (hr : s.task t = some r) (hpc : r.pc = 1) (hslot : s.slot () = none) :
    CanPrompt (s.goto t r 3) := by
  constructor
  · exact h.inFlight
  · exact h.completed
  · intro u r' hr' hpc'
    rcases PortState.task_goto.mp hr' with ⟨-, rfl⟩ | ⟨-, hold⟩
    · exact absurd hpc' nofun
    · exact h.fresh u r' hold hpc'
  · intro u r' hr' hpc'
    rcases PortState.task_goto.mp hr' with ⟨-, rfl⟩ | ⟨-, hold⟩
    · exact absurd hpc' nofun
    · exact h.waiting u r' hold hpc'
  · intro u r' hr' hpc'
    rcases PortState.task_goto.mp hr' with ⟨-, rfl⟩ | ⟨-, hold⟩
    · intro d hd hid
      by_contra hok
      exact h.waiting t r hr hpc d hd hid (Bool.not_eq_false _ ▸ hok) hslot
    · exact h.expired u r' hold hpc'
  · exact h.log

/-- The call that takes the signal is the only one that waits. -/
theorem CanPrompt.take (h : CanPrompt s) (hkept : canDiscipline.Kept s) {t : ℕ}
    {r : Running CanFrame CanFrame} (hr : s.task t = some r) (hpc : r.pc = 1) (q : CanFrame)
    (d : Completion CanFrame) : CanPrompt (s.take t r () q d 2) := by
  constructor
  · exact h.inFlight
  · exact h.completed
  · intro u r' hr' hpc'
    rcases PortState.task_take.mp hr' with ⟨-, rfl⟩ | ⟨-, hold⟩
    · exact absurd hpc' nofun
    · exact h.fresh u r' hold hpc'
  · intro u r' hr' hpc'
    rcases PortState.task_take.mp hr' with ⟨-, rfl⟩ | ⟨hut, hold⟩
    · exact absurd hpc' nofun
    · have hone : canDiscipline.awaits r.call r.pc () ≠ none := by
        rw [hpc]
        nofun
      have hone' : canDiscipline.awaits r'.call r'.pc () ≠ none := by
        rw [hpc']
        nofun
      exact absurd (hkept.alone t r u r' () hr hold hone hone').symm hut
  · intro u r' hr' hpc'
    rcases PortState.task_take.mp hr' with ⟨-, rfl⟩ | ⟨-, hold⟩
    · exact absurd hpc' (Nat.lt_irrefl 2)
    · exact h.expired u r' hold hpc'
  · exact h.log

theorem CanPrompt.finish (h : CanPrompt s) {t : ℕ} {r : Running CanFrame CanFrame}
    {result : CanOpStatus} (hr : s.task t = some r) (hret : canWrite r.call r.pc = .ret result) :
    CanPrompt (s.finish t r result) := by
  constructor
  · exact h.inFlight
  · exact h.completed
  · exact fun u r' hr' => h.fresh u r' (PortState.task_finish.mp hr').2
  · exact fun u r' hr' => h.waiting u r' (PortState.task_finish.mp hr').2
  · exact fun u r' hr' => h.expired u r' (PortState.task_finish.mp hr').2
  · intro x hx htimeout
    rcases List.mem_append.mp hx with hx | hx
    · exact h.log x hx htimeout
    · rw [List.mem_singleton.mp hx] at htimeout ⊢
      rcases canWrite_ret hret with ⟨-, hok⟩ | ⟨hpc, -⟩
      · exact absurd (hok.symm.trans htimeout) nofun
      · exact h.expired t r hr hpc

/-- A frame is transmitted: the call that waits for it finds the semaphore signalled. -/
theorem CanPrompt.complete (h : CanPrompt s) {k : CanMailbox} {tk : Ticket CanFrame} {ok : Bool}
    (value : ℕ) (hk : s.inFlight k = some tk)
    (hmailbox : ok = true → k ≠ 0 → ∀ t r, s.task t = some r → r.pc = 1 → r.id ≠ tk.call) :
    CanPrompt (s.complete k (canPort.signals k tk.req ok) ⟨tk, ok, value⟩) := by
  have hsent {d : Completion CanFrame} (hd : d ∈ s.completed ++ [⟨tk, ok, value⟩]) :
      d ∈ s.completed ∨ d = ⟨tk, ok, value⟩ := by
    rcases List.mem_append.mp hd with hd | hd
    · exact .inl hd
    · exact .inr (List.mem_singleton.mp hd)
  constructor
  · exact fun k' tk' hk' => h.inFlight k' tk' (PortState.inFlight_complete hk').2
  · intro d hd
    rcases hsent hd with hd | rfl
    · exact h.completed d hd
    · exact h.inFlight k tk hk
  · intro t r hr hpc
    have hfresh := h.fresh t r hr hpc
    refine ⟨fun k' tk' hk' => hfresh.1 k' tk' (PortState.inFlight_complete hk').2, fun d hd => ?_⟩
    rcases hsent hd with hd | rfl
    · exact hfresh.2 d hd
    · exact hfresh.1 k tk hk
  · intro t r hr hpc d hd hid hok hslot
    have hslot' : (if () ∈ canPort.signals k tk.req ok then
        (s.slot ()).or (some ⟨tk, ok, value⟩) else s.slot ()) = none := hslot
    rcases hsent hd with hd | rfl
    · have hfull := h.waiting t r hr hpc d hd hid hok
      split_ifs at hslot'
      · exact hfull (Option.or_eq_none_iff.mp hslot').1
      · exact hfull hslot'
    · have hok' : ok = true := hok
      by_cases hk0 : k = 0
      · have hmem : () ∈ canPort.signals k tk.req ok := by
          show () ∈ (if k = 0 ∧ ok = true then [()] else [])
          rw [if_pos ⟨hk0, hok'⟩]
          exact List.mem_singleton_self ()
        rw [if_pos hmem] at hslot'
        exact absurd (Option.or_eq_none_iff.mp hslot').2 nofun
      · exact hmailbox hok' hk0 t r hr hpc hid.symm
  · exact h.expired
  · exact h.log

theorem canPrompt_step (h : CanPrompt s) (hkept : canDiscipline.Kept s) (hnum : s.Numbered)
    {e : PortEvent CanFrame CanMailbox} (hclean : CanClean s e) : CanPrompt (canPort.step s e) := by
  generalize hs' : canPort.step s e = s'
  have he : Effect canPort s e s' := hs' ▸ effect_step canPort s e
  cases he with
  | none => exact h
  | call t c hidle => exact h.begin t c
  | pass t choice r pc s' hr hpass hdrops hwait hclear =>
    obtain ⟨hpc, rfl⟩ := canWrite_passes hpass
    have hprogram : canPort.program r.call r.pc = .wait () r.call 2 3 := by
      rw [hpc]
      rfl
    obtain ⟨-, hslot, rfl⟩ := hwait () r.call 2 3 hprogram
    exact h.expire hr hpc hslot
  | started t r k chans req refused hr hprogram hmem htakes =>
    obtain ⟨hpc, -, -⟩ := canWrite_start hprogram
    rw [hpc]
    refine h.startsWaiting hnum hr hpc rfl rfl rfl rfl rfl fun k' tk hk' => ?_
    rcases PortState.inFlight_launch.mp hk' with ⟨-, rfl⟩ | ⟨-, hold⟩
    · exact .inr rfl
    · exact .inl hold
  | refused t r chans req refused hr hprogram =>
    obtain ⟨hpc, -, rfl⟩ := canWrite_start hprogram
    exact h.startsWaiting hnum hr hpc rfl rfl rfl rfl rfl fun k tk hk => .inl hk
  | took t r i q y x d hr hprogram hslot =>
    obtain ⟨hpc, -, rfl⟩ := canWrite_wait hprogram
    exact h.take hkept hr hpc q d
  | returned t choice r result hr hprogram => exact h.finish hr hprogram
  | completed k ok value tk hflight =>
    refine h.complete value hflight fun hok hk => ?_
    subst hok
    exact hclean.2 k value tk rfl hk hflight

/-! ## Runs -/

theorem framesReported_of_kept (hkept : canDiscipline.Kept s) (htracked : canDiscipline.Tracked s)
    (hprompt : CanPrompt s) : FramesReported s := by
  intro x hx
  obtain ⟨hret, -, -⟩ := htracked.log x hx
  constructor
  · intro hok
    have hpc : x.running.pc = 2 := by
      rcases canWrite_ret hret with ⟨hpc, -⟩ | ⟨-, htimeout⟩
      · exact hpc
      · exact absurd (hok.symm.trans htimeout) nofun
    refine hkept.exists_own htracked hx ?_
    rw [hpc]
    exact List.mem_singleton_self x.running.call
  · rintro ⟨d, hd, hticket, hok⟩
    rcases canWrite_ret hret with ⟨-, hresult⟩ | ⟨-, htimeout⟩
    · exact hresult
    · have hfalse := hprompt.log x hx htimeout d hd (congrArg Ticket.call hticket)
      exact absurd (hok.symm.trans hfalse) Bool.noConfusion

/-- In a run of clean steps `CAN_Write` says what has become of its frame. -/
theorem framesReported_of_allSteps (es : List (PortEvent CanFrame CanMailbox))
    (h : AllSteps canPort.step CanClean canPort.init es) :
    Always canPort.step FramesReported canPort.init es := by
  have hinv : Always canPort.step
      (fun s => CanPrompt s ∧ canDiscipline.Kept s ∧ s.Numbered) canPort.init es := by
    refine always_of_allSteps ?_ ?_ h
    · rintro s e ⟨hprompt, hkept, hnum⟩ hclean
      exact ⟨canPrompt_step hprompt hkept hnum hclean, Discipline.kept_step hkept hclean.1,
        (effect_step canPort s e).numbered hnum⟩
    · refine ⟨?_, Discipline.kept_init canDiscipline, numbered_init canPort⟩
      constructor
      · exact fun k tk hk => absurd hk nofun
      · exact fun d hd => absurd hd List.not_mem_nil
      · exact fun t r hr => absurd hr nofun
      · exact fun t r hr => absurd hr nofun
      · exact fun t r hr => absurd hr nofun
      · exact fun x hx => absurd hx List.not_mem_nil
  have htracked := Discipline.always_tracked canDiscipline es
  exact (hinv.and htracked).imp fun s hs => framesReported_of_kept hs.1.2.1 hs.2 hs.1.1

/-- A frame goes out by the first mailbox. -/
def canOneWrite : List (PortEvent CanFrame CanMailbox) :=
  [.call 0 ⟨0x123, [1, 2], 2⟩, .run 0 (.on 0), .done 0 true 0, .run 0 .go, .run 0 .go]

theorem framesReported_oneWrite : Always canPort.step FramesReported canPort.init canOneWrite := by
  refine framesReported_of_allSteps canOneWrite ⟨⟨trivial, nofun⟩, ⟨?_, nofun⟩, ⟨nofun, ?_⟩,
    ⟨Discipline.clean_run _ _ rfl nofun, nofun⟩, ⟨Discipline.clean_run _ _ rfl nofun, nofun⟩,
    trivial⟩
  · intro r chans req x hr hprogram
    cases hr
    cases hprogram
    constructor
    · intro k hk
      refine Discipline.undisturbed_of_alone _ _ _ _ (fun _ => rfl) (fun _ => rfl) fun u hu => ?_
      exact Function.update_of_ne hu _ fun _ => none
    · intro k hk i q hi
      cases hi
      rfl
    · exact nofun
  · intro k value tk hk hne
    cases hk
    exact absurd rfl hne

/-- The first mailbox is still busy with a frame whose call has timed out: the next frame waits in
the second, and its call takes the signal of the first. -/
def canTwoWrites : List (PortEvent CanFrame CanMailbox) :=
  [.call 0 ⟨0x123, [1], 1⟩, .run 0 (.on 0), .run 0 .fail, .run 0 .go, .call 0 ⟨0x456, [2], 1⟩,
    .run 0 (.on 1), .done 0 true 0, .run 0 .go, .run 0 .go]

theorem not_framesReported_twoWrites :
    ¬ Always canPort.step FramesReported canPort.init canTwoWrites :=
  fun h => absurd h.last (by decide +kernel)

end WLink.Driver
