import Mathlib.Data.List.Nodup
import WLink.Lib.Port
import WLink.Lib.Run

/-!
# Whose completions a call takes

A `Discipline` says for each command of a port which operations a call has started and still waits
for. If no call starts an operation while its slots can be filled by something else, and no
operation fails under a call that waits for it (`Discipline.Clean`), then all that calls take from
the slots is of operations they have started for what they wait for (`always_kept`). That a call has
waited for what its program says when it returns holds in any run (`always_tracked`). If moreover no
call gives up an operation that is still in flight (`Port.Patient`), then nothing that a call
has started outlasts it (`always_settled`).
-/

namespace WLink.Lib

section

variable {Call Chan Slot Req Res : Type}

/-- What the calls of a port wait for, command by command. -/
structure Discipline (P : Port Call Chan Slot Req Res) where
  /-- the operation that a call at the command has started and waits for at the slot -/
  awaits : Call → ℕ → Slot → Option Req
  /-- what a call has waited for on its way to the command -/
  waited : Call → ℕ → List Req
  fresh : ∀ c, (∀ i, awaits c 0 i = none) ∧ waited c 0 = []
  idle : ∀ c pc, (∀ i q y x, P.program c pc ≠ .wait i q y x) → ∀ i, awaits c pc i = none
  pass : ∀ c pc pc', (P.program c pc).Passes pc pc' →
    (∀ i, awaits c pc' i = none) ∧ waited c pc' = waited c pc
  wait : ∀ c pc i q y x, P.program c pc = .wait i q y x → awaits c pc i = some q ∧
    waited c y = waited c pc ++ [q] ∧ ∀ j p, awaits c y j = some p → awaits c pc j = some p
  start : ∀ c pc chans req x, P.program c pc = .start chans req x →
    waited c (pc + 1) = waited c pc ∧ waited c x = waited c pc ∧ ∃ i, awaits c (pc + 1) i ≠ none
  signals : ∀ c pc chans req x, P.program c pc = .start chans req x → ∀ k ∈ chans,
    ∀ q ok i, req = none ∨ req = some q → i ∈ P.signals k q ok → awaits c (pc + 1) i ≠ none

/-- What the call has taken is of operations that it has started for what it was waiting for, and
that have succeeded. -/
def Running.Owns (r : Running Call Req) : Prop :=
  ∀ e ∈ r.took, e.2.ticket = ⟨r.id, e.1⟩ ∧ e.2.ok = true

namespace Discipline

variable {P : Port Call Chan Slot Req Res} (D : Discipline P)

/-- The slots that a call waits at from `pc` on are empty, nothing in flight can fill them but the
operation that gives way to its own, and no other call waits there. -/
structure Undisturbed (s : PortState Call Chan Slot Req Res) (t : ℕ) (c : Call) (pc : ℕ)
    (replaced : Option Chan) : Prop where
  empty : ∀ i q, D.awaits c pc i = some q → s.slot i = none
  quiet : ∀ i q, D.awaits c pc i = some q → ∀ k tk ok, some k ≠ replaced →
    s.inFlight k = some tk → i ∉ P.signals k tk.req ok
  alone : ∀ i q, D.awaits c pc i = some q → ∀ u r, u ≠ t → s.task u = some r →
    D.awaits r.call r.pc i = none

/-- With all slots empty, nothing in flight and no other call, a call is undisturbed. -/
theorem undisturbed_of_alone {s : PortState Call Chan Slot Req Res} {t : ℕ} (c : Call) (pc : ℕ)
    (replaced : Option Chan) (hslot : ∀ i, s.slot i = none) (hflight : ∀ k, s.inFlight k = none)
    (htask : ∀ u, u ≠ t → s.task u = none) : D.Undisturbed s t c pc replaced := by
  constructor
  · exact fun i _ _ => hslot i
  · intro i q _ k tk _ _ hk
    rw [hflight k] at hk
    exact absurd hk.symm (Option.some_ne_none tk)
  · intro i q _ u r hu hr
    rw [htask u hu] at hr
    exact absurd hr.symm (Option.some_ne_none r)

/-- The call that comes to start an operation is undisturbed if it waits after that, and the
operation is about what it waits for. -/
structure CleanStart (s : PortState Call Chan Slot Req Res) (t : ℕ) (choice : Choice Chan)
    (r : Running Call Req) (req : Option Req) (refused : ℕ) : Prop where
  started : ∀ k, choice = .on k → D.Undisturbed s t r.call (r.pc + 1) (some k)
  request : ∀ k, choice = .on k → ∀ i q, D.awaits r.call (r.pc + 1) i = some q →
    req.getD s.cfg = q
  refused : choice = .fail → D.Undisturbed s t r.call refused none

/-- Operations are started undisturbed, and none fails under a call that waits for it. -/
def Clean (s : PortState Call Chan Slot Req Res) : PortEvent Call Chan → Prop
  | .call _ _ => True
  | .run t choice => ∀ r chans req refused, s.task t = some r →
      P.program r.call r.pc = .start chans req refused → D.CleanStart s t choice r req refused
  | .done k ok _ => ok = false → ∀ tk, s.inFlight k = some tk → ∀ i ∈ P.signals k tk.req false,
      ∀ t r, s.task t = some r → D.awaits r.call r.pc i = none

/-- What is in the slots at which a call waits, or may come there, is its own. -/
structure Kept (s : PortState Call Chan Slot Req Res) : Prop where
  slot : ∀ t r i q d, s.task t = some r → D.awaits r.call r.pc i = some q → s.slot i = some d →
    d.ticket = ⟨r.id, q⟩ ∧ d.ok = true
  inFlight : ∀ t r i q k tk ok, s.task t = some r → D.awaits r.call r.pc i = some q →
    s.inFlight k = some tk → i ∈ P.signals k tk.req ok → tk = ⟨r.id, q⟩
  alone : ∀ t r t' r' i, s.task t = some r → s.task t' = some r' →
    D.awaits r.call r.pc i ≠ none → D.awaits r'.call r'.pc i ≠ none → t = t'
  running : ∀ t r, s.task t = some r → r.Owns
  log : ∀ x ∈ s.log, x.running.Owns

/-- The calls have waited for what their programs say, and have seen what they have taken. -/
structure Tracked (s : PortState Call Chan Slot Req Res) : Prop where
  running : ∀ t r, s.task t = some r → r.took.map Prod.fst = D.waited r.call r.pc
  saw : ∀ t r, s.task t = some r → ∀ e ∈ r.took, e.2 ∈ r.seen
  seen : ∀ t r, s.task t = some r → ∀ d ∈ r.seen, d ∈ s.completed
  slot : ∀ i d, s.slot i = some d → d ∈ s.completed
  log : ∀ x ∈ s.log, P.program x.running.call x.running.pc = .ret x.result ∧
    x.running.took.map Prod.fst = D.waited x.running.call x.running.pc ∧
    ∀ e ∈ x.running.took, e.2 ∈ x.running.seen

end Discipline

/-- A call whose time to wait is up has nothing in flight any more. -/
def Port.Patient (P : Port Call Chan Slot Req Res) (s : PortState Call Chan Slot Req Res) :
    PortEvent Call Chan → Prop
  | .run t .fail => ∀ r i q y x, s.task t = some r → P.program r.call r.pc = .wait i q y x →
      s.slot i = none → ∀ k tk, s.inFlight k = some tk → tk.call ≠ r.id
  | _ => True

namespace Discipline

variable {P : Port Call Chan Slot Req Res} (D : Discipline P)

/-- Every operation in flight is of a call that runs, waits for it, and cannot go on before it is
complete; and no call has two of them. -/
structure Settled (s : PortState Call Chan Slot Req Res) : Prop where
  running : ∀ k tk, s.inFlight k = some tk → ∃ t r, s.task t = some r ∧ r.id = tk.call ∧
    (∃ i, D.awaits r.call r.pc i ≠ none) ∧
    ∀ i q, D.awaits r.call r.pc i = some q → s.slot i = none
  one : ∀ k tk k' tk', s.inFlight k = some tk → s.inFlight k' = some tk' → tk.call = tk'.call →
    k = k'

end Discipline

/-- Nothing that a call has started is in flight after it has returned. -/
def PortState.NothingLeft (s : PortState Call Chan Slot Req Res) : Prop :=
  ∀ x ∈ s.log, ∀ k tk, s.inFlight k = some tk → tk.call ≠ x.running.id

/-- Every call has a number of its own. -/
structure PortState.Numbered (s : PortState Call Chan Slot Req Res) : Prop where
  running : ∀ t r, s.task t = some r → r.id < s.calls
  apart : ∀ t r t' r', s.task t = some r → s.task t' = some r' → r.id = r'.id → t = t'
  log : ∀ x ∈ s.log, x.running.id < s.calls
  returned : ∀ x ∈ s.log, ∀ t r, s.task t = some r → x.running.id ≠ r.id
  distinct : (s.log.map fun x => x.running.id).Nodup

/-! ## The numbers of the calls -/

namespace PortState

variable {s s' : PortState Call Chan Slot Req Res}

/-- A step after which the calls are the same or one fewer running and returned. -/
theorem Numbered.of_tasks (h : s.Numbered) (hcalls : s'.calls = s.calls) (hlog : s'.log = s.log)
    (htask : ∀ t r', s'.task t = some r' → ∃ r, s.task t = some r ∧ r'.id = r.id) :
    s'.Numbered := by
  constructor
  · intro t r' hr'
    obtain ⟨r, hr, hid⟩ := htask t r' hr'
    rw [hcalls, hid]
    exact h.running t r hr
  · intro t r₁ t' r₁' hr₁ hr₁' hids
    obtain ⟨r, hr, hid⟩ := htask t r₁ hr₁
    obtain ⟨r', hr', hid'⟩ := htask t' r₁' hr₁'
    exact h.apart t r t' r' hr hr' (by rw [← hid, ← hid', hids])
  · intro x hx
    rw [hlog] at hx
    rw [hcalls]
    exact h.log x hx
  · intro x hx t r' hr'
    obtain ⟨r, hr, hid⟩ := htask t r' hr'
    rw [hlog] at hx
    rw [hid]
    exact h.returned x hx t r hr
  · rw [hlog]
    exact h.distinct

theorem Numbered.goto (h : s.Numbered) {t pc : ℕ} {r : Running Call Req}
    (hr : s.task t = some r) (hcalls : s'.calls = s.calls) (hlog : s'.log = s.log)
    (htask : s'.task = s.task) : (s'.goto t r pc).Numbered := by
  refine h.of_tasks hcalls hlog fun u r' hr' => ?_
  rcases task_goto.mp hr' with ⟨rfl, rfl⟩ | ⟨-, hold⟩
  · exact ⟨r, hr, rfl⟩
  · exact ⟨r', htask ▸ hold, rfl⟩

theorem Numbered.begin (h : s.Numbered) (t : ℕ) (c : Call) : (s.begin t c).Numbered := by
  have hnew {u : ℕ} {r : Running Call Req} (hr : (s.begin t c).task u = some r) :
      u = t ∧ r.id = s.calls ∨ u ≠ t ∧ s.task u = some r := by
    rcases task_begin.mp hr with ⟨hut, rfl⟩ | hold
    · exact .inl ⟨hut, rfl⟩
    · exact .inr hold
  constructor
  · intro u r hr
    show r.id < s.calls + 1
    rcases hnew hr with ⟨-, hid⟩ | ⟨-, hold⟩
    · omega
    · exact Nat.lt_succ_of_lt (h.running u r hold)
  · intro u r u' r' hr hr' hid
    rcases hnew hr with ⟨rfl, hr₁⟩ | ⟨-, hr₁⟩ <;> rcases hnew hr' with ⟨rfl, hr₂⟩ | ⟨-, hr₂⟩
    · rfl
    · exact absurd (h.running u' r' hr₂) (by omega)
    · exact absurd (h.running u r hr₁) (by omega)
    · exact h.apart u r u' r' hr₁ hr₂ hid
  · exact fun x hx => Nat.lt_succ_of_lt (h.log x hx)
  · intro x hx u r hr
    rcases hnew hr with ⟨-, hid⟩ | ⟨-, hold⟩
    · rw [hid]
      exact Nat.ne_of_lt (h.log x hx)
    · exact h.returned x hx u r hold
  · exact h.distinct

theorem Numbered.finish (h : s.Numbered) {t : ℕ} {r : Running Call Req}
    (hr : s.task t = some r) (result : Res) : (s.finish t r result).Numbered := by
  have hlog {x : Returned Call Req Res} (hx : x ∈ (s.finish t r result).log) :
      x ∈ s.log ∨ x = ⟨r, result⟩ := by
    rcases List.mem_append.mp hx with hx | hx
    · exact .inl hx
    · exact .inr (List.mem_singleton.mp hx)
  constructor
  · intro u r' hr'
    exact h.running u r' (task_finish.mp hr').2
  · intro u r₁ u' r₂ hr₁ hr₂
    exact h.apart u r₁ u' r₂ (task_finish.mp hr₁).2 (task_finish.mp hr₂).2
  · intro x hx
    rcases hlog hx with hx | rfl
    · exact h.log x hx
    · exact h.running t r hr
  · -- a number that has returned is not one of those still running
    intro x hx u r' hr'
    obtain ⟨hut, hold⟩ := task_finish.mp hr'
    rcases hlog hx with hx | rfl
    · exact h.returned x hx u r' hold
    · intro hid
      exact hut (h.apart t r u r' hr hold hid).symm
  · have happend : (s.finish t r result).log = s.log ++ [⟨r, result⟩] := rfl
    rw [happend, List.map_append, List.nodup_append]
    refine ⟨h.distinct, List.nodup_singleton _, ?_⟩
    intro a ha b hb
    obtain ⟨x, hx, rfl⟩ := List.mem_map.mp ha
    rw [List.map_singleton, List.mem_singleton] at hb
    subst hb
    exact h.returned x hx t r hr

end PortState

theorem numbered_init (P : Port Call Chan Slot Req Res) : P.init.Numbered := by
  constructor
  · exact fun t r hr => absurd hr nofun
  · exact fun t r t' r' hr => absurd hr nofun
  · exact fun x hx => absurd hx List.not_mem_nil
  · exact fun x hx => absurd hx List.not_mem_nil
  · exact List.nodup_nil

variable {P : Port Call Chan Slot Req Res}

theorem Effect.numbered [DecidableEq Chan] [DecidableEq Slot]
    {s s' : PortState Call Chan Slot Req Res} {e : PortEvent Call Chan} (he : Effect P s e s')
    (h : s.Numbered) : s'.Numbered := by
  cases he with
  | none => exact h
  | call t c hidle => exact h.begin t c
  | pass t choice r pc s' hr hpass hdrops hwait hclear =>
    exact h.goto hr hdrops.calls hdrops.log hdrops.task
  | started t r k chans req refused hr hprogram hmem htakes => exact h.goto hr rfl rfl rfl
  | refused t r chans req refused hr hprogram => exact h.goto hr rfl rfl rfl
  | took t r i q y x d hr hprogram hslot =>
    refine h.of_tasks rfl rfl fun u r' hr' => ?_
    rcases PortState.task_take.mp hr' with ⟨rfl, rfl⟩ | ⟨-, hold⟩
    · exact ⟨r, hr, rfl⟩
    · exact ⟨r', hold, rfl⟩
  | returned t choice r result hr hprogram => exact h.finish hr result
  | completed k ok value tk hflight => exact h.of_tasks rfl rfl fun u r' hr' => ⟨r', hr', rfl⟩

/-- In any run the calls have numbers of their own. -/
theorem always_numbered [DecidableEq Chan] [DecidableEq Slot] (es : List (PortEvent Call Chan)) :
    Always P.step PortState.Numbered P.init es :=
  always_of_step (fun s e h => (effect_step P s e).numbered h) (numbered_init P) es

/-! ## What the calls have waited for -/

namespace Discipline

variable {D : Discipline P} {s s' : PortState Call Chan Slot Req Res}

/-- A step that adds no completion, after which a task has gone on with what it had. -/
theorem Tracked.goto (h : D.Tracked s) {t pc : ℕ} {r : Running Call Req} (hr : s.task t = some r)
    (hslot : ∀ i d, s'.slot i = some d → s.slot i = some d) (htask : s'.task = s.task)
    (hcompleted : s'.completed = s.completed) (hlog : s'.log = s.log)
    (hwaited : D.waited r.call pc = D.waited r.call r.pc) : D.Tracked (s'.goto t r pc) := by
  constructor
  · intro u r' hr'
    rcases PortState.task_goto.mp hr' with ⟨-, rfl⟩ | ⟨-, hold⟩
    · exact (h.running t r hr).trans hwaited.symm
    · exact h.running u r' (htask ▸ hold)
  · intro u r' hr'
    rcases PortState.task_goto.mp hr' with ⟨-, rfl⟩ | ⟨-, hold⟩
    · intro e he
      show e.2 ∈ s'.completed
      rw [hcompleted]
      exact h.seen t r hr e.2 (h.saw t r hr e he)
    · exact h.saw u r' (htask ▸ hold)
  · intro u r' hr'
    rcases PortState.task_goto.mp hr' with ⟨-, rfl⟩ | ⟨-, hold⟩
    · exact fun d hd => hd
    · show ∀ d ∈ r'.seen, d ∈ s'.completed
      rw [hcompleted]
      exact h.seen u r' (htask ▸ hold)
  · intro i d hd
    show d ∈ s'.completed
    rw [hcompleted]
    exact h.slot i d (hslot i d hd)
  · show ∀ x ∈ s'.log, _
    rw [hlog]
    exact h.log

theorem Tracked.take [DecidableEq Slot] (h : D.Tracked s) {t y x : ℕ} {r : Running Call Req}
    {i : Slot} {q : Req} {d : Completion Req} (hr : s.task t = some r)
    (hprogram : P.program r.call r.pc = .wait i q y x) (hslot : s.slot i = some d) :
    D.Tracked (s.take t r i q d y) := by
  obtain ⟨-, hwaited, -⟩ := D.wait r.call r.pc i q y x hprogram
  constructor
  · intro u r' hr'
    rcases PortState.task_take.mp hr' with ⟨-, rfl⟩ | ⟨-, hold⟩
    · show (r.took ++ [(q, d)]).map Prod.fst = D.waited r.call y
      rw [List.map_append, h.running t r hr, hwaited, List.map_singleton]
    · exact h.running u r' hold
  · intro u r' hr'
    rcases PortState.task_take.mp hr' with ⟨-, rfl⟩ | ⟨-, hold⟩
    · intro e he
      rcases List.mem_append.mp he with he | he
      · exact h.seen t r hr e.2 (h.saw t r hr e he)
      · rw [List.mem_singleton.mp he]
        exact h.slot i d hslot
    · exact h.saw u r' hold
  · intro u r' hr'
    rcases PortState.task_take.mp hr' with ⟨-, rfl⟩ | ⟨-, hold⟩
    · exact fun d hd => hd
    · exact h.seen u r' hold
  · exact fun j d' hd' => h.slot j d' (PortState.slot_take hd').2
  · exact h.log

theorem Tracked.begin (h : D.Tracked s) (t : ℕ) (c : Call) : D.Tracked (s.begin t c) := by
  constructor
  · intro u r hr
    rcases PortState.task_begin.mp hr with ⟨-, rfl⟩ | ⟨-, hold⟩
    · exact (D.fresh c).2.symm
    · exact h.running u r hold
  · intro u r hr
    rcases PortState.task_begin.mp hr with ⟨-, rfl⟩ | ⟨-, hold⟩
    · exact fun e he => absurd he List.not_mem_nil
    · exact h.saw u r hold
  · intro u r hr
    rcases PortState.task_begin.mp hr with ⟨-, rfl⟩ | ⟨-, hold⟩
    · exact fun d hd => hd
    · exact h.seen u r hold
  · exact h.slot
  · exact h.log

theorem Tracked.finish (h : D.Tracked s) {t : ℕ} {r : Running Call Req} {result : Res}
    (hr : s.task t = some r) (hprogram : P.program r.call r.pc = .ret result) :
    D.Tracked (s.finish t r result) := by
  constructor
  · exact fun u r' hr' => h.running u r' (PortState.task_finish.mp hr').2
  · exact fun u r' hr' => h.saw u r' (PortState.task_finish.mp hr').2
  · exact fun u r' hr' => h.seen u r' (PortState.task_finish.mp hr').2
  · exact h.slot
  · intro x hx
    rcases List.mem_append.mp hx with hx | hx
    · exact h.log x hx
    · rw [List.mem_singleton.mp hx]
      exact ⟨hprogram, h.running t r hr, h.saw t r hr⟩

theorem Tracked.complete [DecidableEq Chan] [DecidableEq Slot] (h : D.Tracked s) (k : Chan)
    (slots : List Slot) (d : Completion Req) : D.Tracked (s.complete k slots d) := by
  constructor
  · exact h.running
  · exact h.saw
  · exact fun t r hr d' hd' => List.mem_append_left _ (h.seen t r hr d' hd')
  · intro i d' hd'
    rcases PortState.slot_complete hd' with hd' | ⟨-, -, rfl⟩
    · exact List.mem_append_left _ (h.slot i d' hd')
    · exact List.mem_append_right _ (List.mem_singleton_self _)
  · exact h.log

theorem tracked_step [DecidableEq Chan] [DecidableEq Slot] (h : D.Tracked s)
    (e : PortEvent Call Chan) : D.Tracked (P.step s e) := by
  generalize hs' : P.step s e = s'
  have he : Effect P s e s' := hs' ▸ effect_step P s e
  cases he with
  | none => exact h
  | call t c hidle => exact h.begin t c
  | pass t choice r pc s' hr hpass hdrops hwait hclear =>
    exact h.goto hr hdrops.slot hdrops.task hdrops.completed hdrops.log
      (D.pass r.call r.pc pc hpass).2
  | started t r k chans req refused hr hprogram hmem htakes =>
    exact h.goto hr (fun _ _ hd => hd) rfl rfl rfl
      (D.start r.call r.pc chans req refused hprogram).1
  | refused t r chans req refused hr hprogram =>
    exact h.goto hr (fun _ _ hd => hd) rfl rfl rfl
      (D.start r.call r.pc chans req refused hprogram).2.1
  | took t r i q y x d hr hprogram hslot => exact h.take hr hprogram hslot
  | returned t choice r result hr hprogram => exact h.finish hr hprogram
  | completed k ok value tk hflight => exact h.complete k _ _

theorem tracked_init (D : Discipline P) : D.Tracked P.init := by
  constructor
  · exact fun t r hr => absurd hr nofun
  · exact fun t r hr => absurd hr nofun
  · exact fun t r hr => absurd hr nofun
  · exact fun i d hd => absurd hd nofun
  · exact fun x hx => absurd hx List.not_mem_nil

/-- In any run a call that returns has waited for what its program says. -/
theorem always_tracked [DecidableEq Chan] [DecidableEq Slot] (D : Discipline P)
    (es : List (PortEvent Call Chan)) : Always P.step D.Tracked P.init es :=
  always_of_step (J := D.Tracked) (fun _ e h => tracked_step h e) (tracked_init D) es

/-! ## Whose completions a call takes -/

/-- A step that adds nothing to the hardware and to the slots: a task has gone on, and waits for
nothing that it was not waiting for. -/
theorem Kept.mono (h : D.Kept s) (hslot : ∀ i d, s'.slot i = some d → s.slot i = some d)
    (hflight : ∀ k tk, s'.inFlight k = some tk → s.inFlight k = some tk)
    (htask : ∀ t r', s'.task t = some r' → r'.Owns ∧ ∀ i q, D.awaits r'.call r'.pc i = some q →
      ∃ r, s.task t = some r ∧ r.id = r'.id ∧ D.awaits r.call r.pc i = some q)
    (hlog : ∀ x ∈ s'.log, x.running.Owns) : D.Kept s' := by
  constructor
  · intro t r' i q d hr' hi hd
    obtain ⟨r, hr, hid, hri⟩ := (htask t r' hr').2 i q hi
    rw [← hid]
    exact h.slot t r i q d hr hri (hslot i d hd)
  · intro t r' i q k tk ok hr' hi hk hmem
    obtain ⟨r, hr, hid, hri⟩ := (htask t r' hr').2 i q hi
    rw [← hid]
    exact h.inFlight t r i q k tk ok hr hri (hflight k tk hk) hmem
  · intro t r₁ u r₂ i hr₁ hr₂ hi₁ hi₂
    obtain ⟨q₁, hq₁⟩ := Option.ne_none_iff_exists'.mp hi₁
    obtain ⟨q₂, hq₂⟩ := Option.ne_none_iff_exists'.mp hi₂
    obtain ⟨r, hr, -, hri⟩ := (htask t r₁ hr₁).2 i q₁ hq₁
    obtain ⟨r', hr', -, hri'⟩ := (htask u r₂ hr₂).2 i q₂ hq₂
    exact h.alone t r u r' i hr hr' (by rw [hri]; nofun) (by rw [hri']; nofun)
  · exact fun t r' hr' => (htask t r' hr').1
  · exact hlog

/-- The same where the task goes on at a command at which it waits for nothing. -/
theorem Kept.goto (h : D.Kept s) {t pc : ℕ} {r : Running Call Req} (hr : s.task t = some r)
    (hdrops : s.Drops s') (hidle : ∀ i, D.awaits r.call pc i = none) :
    D.Kept (s'.goto t r pc) := by
  refine h.mono hdrops.slot hdrops.inFlight (fun u r' hr' => ?_) ?_
  · rcases PortState.task_goto.mp hr' with ⟨rfl, rfl⟩ | ⟨-, hold⟩
    · refine ⟨h.running u r hr, fun i q hi => ?_⟩
      exact absurd ((hidle i).symm.trans hi) nofun
    · have hold' : s.task u = some r' := hdrops.task ▸ hold
      exact ⟨h.running u r' hold', fun i q hi => ⟨r', hold', rfl, hi⟩⟩
  · show ∀ x ∈ s'.log, _
    rw [hdrops.log]
    exact h.log

/-- The call goes on to wait at slots where nothing disturbs it; the operation in flight on the
channel that it takes, if any, is its own. -/
theorem Kept.startsWaiting (h : D.Kept s) {t pc : ℕ} {r : Running Call Req}
    (hr : s.task t = some r) {replaced : Option Chan}
    (hfree : D.Undisturbed s t r.call pc replaced) (hslot : s'.slot = s.slot)
    (htask : s'.task = s.task) (hlog : s'.log = s.log)
    (hflight : ∀ k tk, s'.inFlight k = some tk → some k ≠ replaced ∧ s.inFlight k = some tk ∨
      tk.call = r.id ∧ (∀ i q, D.awaits r.call pc i = some q → tk.req = q) ∧
        ∀ i ok, i ∈ P.signals k tk.req ok → D.awaits r.call pc i ≠ none) :
    D.Kept (s'.goto t r pc) := by
  have hother {u : ℕ} {r' : Running Call Req} (hut : u ≠ t) (hu : s'.task u = some r') :
      s.task u = some r' := htask ▸ hu
  constructor
  · intro u r' i q d hr' hi hd
    have hd' : s.slot i = some d := hslot ▸ hd
    rcases PortState.task_goto.mp hr' with ⟨rfl, rfl⟩ | ⟨hut, hold⟩
    · exact absurd ((hfree.empty i q hi).symm.trans hd') nofun
    · exact h.slot u r' i q d (hother hut hold) hi hd'
  · intro u r' i q k tk ok hr' hi hk hmem
    rcases PortState.task_goto.mp hr' with ⟨rfl, rfl⟩ | ⟨hut, hold⟩
    · rcases hflight k tk hk with ⟨hne, hk'⟩ | ⟨hcall, hreq, -⟩
      · exact absurd hmem (hfree.quiet i q hi k tk ok hne hk')
      · rw [← hcall, ← hreq i q hi]
    · rcases hflight k tk hk with ⟨-, hk'⟩ | ⟨-, -, hsignals⟩
      · exact h.inFlight u r' i q k tk ok (hother hut hold) hi hk' hmem
      · -- the new operation fills only slots that the call waits at, and nobody else does
        obtain ⟨p, hp⟩ := Option.ne_none_iff_exists'.mp (hsignals i ok hmem)
        exact absurd ((hfree.alone i p hp u r' hut (hother hut hold)).symm.trans hi) nofun
  · have halone {u : ℕ} {r' : Running Call Req} {i : Slot} (hut : u ≠ t)
        (hu : s'.task u = some r') (hi : D.awaits r.call pc i ≠ none)
        (hi' : D.awaits r'.call r'.pc i ≠ none) : False := by
      obtain ⟨p, hp⟩ := Option.ne_none_iff_exists'.mp hi
      exact hi' (hfree.alone i p hp u r' hut (hother hut hu))
    intro u r₁ u' r₂ i hr₁ hr₂ hi₁ hi₂
    rcases PortState.task_goto.mp hr₁ with ⟨rfl, rfl⟩ | ⟨hut, hold₁⟩ <;>
      rcases PortState.task_goto.mp hr₂ with ⟨hut', rfl⟩ | ⟨hut', hold₂⟩
    · exact hut'.symm
    · exact (halone hut' hold₂ hi₁ hi₂).elim
    · exact (halone hut hold₁ hi₂ hi₁).elim
    · exact h.alone u r₁ u' r₂ i (hother hut hold₁) (hother hut' hold₂) hi₁ hi₂
  · intro u r' hr'
    rcases PortState.task_goto.mp hr' with ⟨rfl, rfl⟩ | ⟨hut, hold⟩
    · exact h.running u r hr
    · exact h.running u r' (hother hut hold)
  · show ∀ x ∈ s'.log, _
    rw [hlog]
    exact h.log

theorem Kept.take [DecidableEq Slot] (h : D.Kept s) {t y x : ℕ} {r : Running Call Req}
    {i : Slot} {q : Req} {d : Completion Req} (hr : s.task t = some r)
    (hprogram : P.program r.call r.pc = .wait i q y x) (hslot : s.slot i = some d) :
    D.Kept (s.take t r i q d y) := by
  obtain ⟨hawaits, -, hmono⟩ := D.wait r.call r.pc i q y x hprogram
  have hown := h.slot t r i q d hr hawaits hslot
  refine h.mono (fun j d' hd' => (PortState.slot_take hd').2) (fun _ _ hk => hk)
    (fun u r' hr' => ?_) h.log
  rcases PortState.task_take.mp hr' with ⟨rfl, rfl⟩ | ⟨-, hold⟩
  · refine ⟨fun e he => ?_, fun j p hj => ⟨r, hr, rfl, hmono j p hj⟩⟩
    rcases List.mem_append.mp he with he | he
    · exact h.running u r hr e he
    · rw [List.mem_singleton.mp he]
      exact hown
  · exact ⟨h.running u r' hold, fun j p hj => ⟨r', hold, rfl, hj⟩⟩

theorem Kept.begin (h : D.Kept s) (t : ℕ) (c : Call) : D.Kept (s.begin t c) := by
  refine h.mono (fun _ _ hd => hd) (fun _ _ hk => hk) (fun u r hr => ?_) h.log
  rcases PortState.task_begin.mp hr with ⟨-, rfl⟩ | ⟨-, hold⟩
  · refine ⟨fun e he => absurd he List.not_mem_nil, fun i q hi => ?_⟩
    exact absurd (((D.fresh c).1 i).symm.trans hi) nofun
  · exact ⟨h.running u r hold, fun i q hi => ⟨r, hold, rfl, hi⟩⟩

theorem Kept.finish (h : D.Kept s) {t : ℕ} {r : Running Call Req} (hr : s.task t = some r)
    (result : Res) : D.Kept (s.finish t r result) := by
  refine h.mono (fun _ _ hd => hd) (fun _ _ hk => hk) (fun u r' hr' => ?_) fun x hx => ?_
  · have hold := (PortState.task_finish.mp hr').2
    exact ⟨h.running u r' hold, fun i q hi => ⟨r', hold, rfl, hi⟩⟩
  · rcases List.mem_append.mp hx with hx | hx
    · exact h.log x hx
    · rw [List.mem_singleton.mp hx]
      exact h.running t r hr

/-- The interrupt of an operation brings its completion to the call that has started it. -/
theorem Kept.complete [DecidableEq Chan] [DecidableEq Slot] (h : D.Kept s) {k : Chan}
    {tk : Ticket Req} {ok : Bool} (value : ℕ) (hk : s.inFlight k = some tk)
    (hok : ok = false → ∀ i ∈ P.signals k tk.req false, ∀ t r, s.task t = some r →
      D.awaits r.call r.pc i = none) :
    D.Kept (s.complete k (P.signals k tk.req ok) ⟨tk, ok, value⟩) := by
  constructor
  · intro t r i q d hr hi hd
    rcases PortState.slot_complete hd with hd | ⟨hmem, -, rfl⟩
    · exact h.slot t r i q d hr hi hd
    · refine ⟨h.inFlight t r i q k tk ok hr hi hk hmem, ?_⟩
      show ok = true
      cases ok with
      | true => rfl
      | false => exact absurd ((hok rfl i hmem t r hr).symm.trans hi) nofun
  · intro t r i q k' tk' ok' hr hi hk' hmem
    exact h.inFlight t r i q k' tk' ok' hr hi (PortState.inFlight_complete hk').2 hmem
  · exact h.alone
  · exact h.running
  · exact h.log

theorem kept_step [DecidableEq Chan] [DecidableEq Slot] (h : D.Kept s)
    {e : PortEvent Call Chan} (hclean : D.Clean s e) : D.Kept (P.step s e) := by
  generalize hs' : P.step s e = s'
  have he : Effect P s e s' := hs' ▸ effect_step P s e
  cases he with
  | none => exact h
  | call t c hidle => exact h.begin t c
  | pass t choice r pc s' hr hpass hdrops hwait hclear =>
    exact h.goto hr hdrops (D.pass r.call r.pc pc hpass).1
  | started t r k chans req refused hr hprogram hmem htakes =>
    have hstart := hclean r chans req refused hr hprogram
    refine h.startsWaiting hr (hstart.started k rfl) rfl rfl rfl ?_
    intro k' tk hk'
    -- the transfer that is started carries the call's own request and signals only it
    rcases PortState.inFlight_launch.mp hk' with ⟨rfl, rfl⟩ | ⟨hne, hold⟩
    · refine .inr ⟨rfl, hstart.request k' rfl, fun i ok hi => ?_⟩
      refine D.signals r.call r.pc chans req refused hprogram k' hmem (req.getD s.cfg) ok i ?_ hi
      cases req with
      | none => exact .inl rfl
      | some q => exact .inr rfl
    · exact .inl ⟨fun hk => hne (Option.some.inj hk), hold⟩
  | refused t r chans req refused hr hprogram =>
    have hstart := hclean r chans req refused hr hprogram
    exact h.startsWaiting hr (hstart.refused rfl) rfl rfl rfl fun k tk hk => .inl ⟨nofun, hk⟩
  | took t r i q y x d hr hprogram hslot => exact h.take hr hprogram hslot
  | returned t choice r result hr hprogram => exact h.finish hr result
  | completed k ok value tk hflight =>
    exact h.complete value hflight fun hok => hclean hok tk hflight

theorem kept_init (D : Discipline P) : D.Kept P.init := by
  constructor
  · exact fun t r i q d hr => absurd hr nofun
  · exact fun t r i q k tk ok hr => absurd hr nofun
  · exact fun t r t' r' i hr => absurd hr nofun
  · exact fun t r hr => absurd hr nofun
  · exact fun x hx => absurd hx List.not_mem_nil

/-- In a run of clean steps the calls take only what is theirs. -/
theorem always_kept [DecidableEq Chan] [DecidableEq Slot] (D : Discipline P)
    {es : List (PortEvent Call Chan)} (h : AllSteps P.step D.Clean P.init es) :
    Always P.step D.Kept P.init es :=
  always_of_allSteps (I := D.Kept) (fun _ _ hs hclean => kept_step hs hclean) (kept_init D) h

/-- What a call has waited for it has had: an operation that it has started, that has succeeded,
and that was complete before it returned. -/
theorem Kept.exists_own (h : D.Kept s) (htracked : D.Tracked s) {x : Returned Call Req Res}
    (hx : x ∈ s.log) {q : Req} (hq : q ∈ D.waited x.running.call x.running.pc) :
    ∃ d ∈ x.running.seen, d.ticket = ⟨x.running.id, q⟩ ∧ d.ok = true := by
  obtain ⟨-, hwaited, hseen⟩ := htracked.log x hx
  rw [← hwaited] at hq
  obtain ⟨e, he, rfl⟩ := List.mem_map.mp hq
  obtain ⟨hticket, hdone⟩ := h.log x hx e he
  exact ⟨e.2, hseen e he, hticket, hdone⟩

/-- A step of a task at a command that starts nothing is clean. -/
theorem clean_run (D : Discipline P) {t : ℕ} {r : Running Call Req} (choice : Choice Chan)
    (hr : s.task t = some r)
    (hprogram : ∀ chans req x, P.program r.call r.pc ≠ .start chans req x) :
    D.Clean s (.run t choice) := by
  intro r' chans req x hr' hprogram'
  obtain rfl : r = r' := Option.some.inj (hr.symm.trans hr')
  exact absurd hprogram' (hprogram chans req x)

/-! ## Operations do not outlast their calls -/

/-- A call that waits for nothing has nothing in flight. -/
theorem Settled.not_inFlight (h : D.Settled s) (hnum : s.Numbered) {t : ℕ}
    {r : Running Call Req} (hr : s.task t = some r) (hidle : ∀ i, D.awaits r.call r.pc i = none)
    (k : Chan) (tk : Ticket Req) (hk : s.inFlight k = some tk) : tk.call ≠ r.id := by
  intro hid
  obtain ⟨t', r', hr', hid', ⟨i, hi⟩, -⟩ := h.running k tk hk
  obtain rfl : t = t' := hnum.apart t r t' r' hr hr' (hid.symm.trans hid'.symm)
  obtain rfl : r = r' := Option.some.inj (hr.symm.trans hr')
  exact hi (hidle i)

/-- A step of a task that has nothing in flight, and that adds nothing. -/
theorem Settled.mono (h : D.Settled s) {t : ℕ} {r : Running Call Req} (hr : s.task t = some r)
    (hnone : ∀ k tk, s.inFlight k = some tk → tk.call ≠ r.id)
    (hslot : ∀ i d, s'.slot i = some d → s.slot i = some d)
    (hflight : ∀ k tk, s'.inFlight k = some tk → s.inFlight k = some tk)
    (htask : ∀ u r', u ≠ t → s.task u = some r' → s'.task u = some r') : D.Settled s' := by
  constructor
  · intro k tk hk
    obtain ⟨u, r', hr', hid, hwaits, hempty⟩ := h.running k tk (hflight k tk hk)
    have hut : u ≠ t := by
      rintro rfl
      obtain rfl : r = r' := Option.some.inj (hr.symm.trans hr')
      exact hnone k tk (hflight k tk hk) hid.symm
    refine ⟨u, r', htask u r' hut hr', hid, hwaits, fun i q hi => ?_⟩
    exact Option.eq_none_iff_forall_not_mem.mpr fun d hd =>
      absurd ((hempty i q hi).symm.trans (hslot i d hd)) nofun
  · intro k tk k' tk' hk hk'
    exact h.one k tk k' tk' (hflight k tk hk) (hflight k' tk' hk')

theorem Settled.goto (h : D.Settled s) {t pc : ℕ} {r : Running Call Req}
    (hr : s.task t = some r) (hnone : ∀ k tk, s.inFlight k = some tk → tk.call ≠ r.id)
    (hdrops : s.Drops s') : D.Settled (s'.goto t r pc) :=
  h.mono hr hnone hdrops.slot hdrops.inFlight fun _ _ hut hu =>
    PortState.task_goto.mpr (.inr ⟨hut, hdrops.task ▸ hu⟩)

/-- A call that had nothing in flight starts an operation, and waits for it. -/
theorem Settled.launch [DecidableEq Chan] (h : D.Settled s) {t pc : ℕ} {r : Running Call Req}
    (hr : s.task t = some r) (hnone : ∀ k tk, s.inFlight k = some tk → tk.call ≠ r.id)
    (k : Chan) (q : Req) (hwaits : ∃ i, D.awaits r.call pc i ≠ none)
    (hempty : ∀ i q, D.awaits r.call pc i = some q → s.slot i = none) :
    D.Settled ((s.launch k ⟨r.id, q⟩).goto t r pc) := by
  constructor
  · intro k' tk hk'
    rcases PortState.inFlight_launch.mp hk' with ⟨-, rfl⟩ | ⟨-, hold⟩
    · exact ⟨t, _, PortState.task_goto.mpr (.inl ⟨rfl, rfl⟩), rfl, hwaits, hempty⟩
    · obtain ⟨u, r', hr', hid, hwaits', hempty'⟩ := h.running k' tk hold
      have hut : u ≠ t := by
        rintro rfl
        obtain rfl : r = r' := Option.some.inj (hr.symm.trans hr')
        exact hnone k' tk hold hid.symm
      exact ⟨u, r', PortState.task_goto.mpr (.inr ⟨hut, hr'⟩), hid, hwaits', hempty'⟩
  · intro k₁ tk₁ k₂ tk₂ hk₁ hk₂ hcall
    rcases PortState.inFlight_launch.mp hk₁ with ⟨rfl, rfl⟩ | ⟨-, hold₁⟩ <;>
      rcases PortState.inFlight_launch.mp hk₂ with ⟨rfl, rfl⟩ | ⟨-, hold₂⟩
    · rfl
    · exact absurd hcall.symm (hnone k₂ tk₂ hold₂)
    · exact absurd hcall (hnone k₁ tk₁ hold₁)
    · exact h.one k₁ tk₁ k₂ tk₂ hold₁ hold₂ hcall

/-- The completion of an operation fills no slot at which another call waits for its own. -/
theorem Settled.complete [DecidableEq Chan] [DecidableEq Slot] (h : D.Settled s)
    (hkept : D.Kept s) {k : Chan} {tk : Ticket Req} {ok : Bool} (value : ℕ)
    (hk : s.inFlight k = some tk) :
    D.Settled (s.complete k (P.signals k tk.req ok) ⟨tk, ok, value⟩) := by
  constructor
  · intro k' tk' hk'
    obtain ⟨hne, hold⟩ := PortState.inFlight_complete hk'
    obtain ⟨t, r, hr, hid, hwaits, hempty⟩ := h.running k' tk' hold
    refine ⟨t, r, hr, hid, hwaits, fun i q hi => ?_⟩
    refine Option.eq_none_iff_forall_not_mem.mpr fun d hd => ?_
    rcases PortState.slot_complete hd with hd | ⟨hmem, -, -⟩
    · exact absurd ((hempty i q hi).symm.trans hd) nofun
    · have hown : tk = ⟨r.id, q⟩ := hkept.inFlight t r i q k tk ok hr hi hk hmem
      refine hne (h.one k' tk' k tk hold hk ?_)
      rw [hown]
      exact hid.symm
  · intro k₁ tk₁ k₂ tk₂ hk₁ hk₂
    exact h.one k₁ tk₁ k₂ tk₂ (PortState.inFlight_complete hk₁).2
      (PortState.inFlight_complete hk₂).2

theorem settled_step [DecidableEq Chan] [DecidableEq Slot] (h : D.Settled s) (hkept : D.Kept s)
    (hnum : s.Numbered) {e : PortEvent Call Chan} (hclean : D.Clean s e)
    (hpatient : P.Patient s e) : D.Settled (P.step s e) := by
  generalize hs' : P.step s e = s'
  have he : Effect P s e s' := hs' ▸ effect_step P s e
  have hidle {t : ℕ} {r : Running Call Req} (hr : s.task t = some r)
      (hnowait : ∀ i q y x, P.program r.call r.pc ≠ .wait i q y x) :
      ∀ k tk, s.inFlight k = some tk → tk.call ≠ r.id :=
    h.not_inFlight hnum hr (D.idle r.call r.pc hnowait)
  cases he with
  | none => exact h
  | call t c hfree =>
    constructor
    · intro k tk hk
      obtain ⟨u, r, hr, hrest⟩ := h.running k tk hk
      have hut : u ≠ t := by
        rintro rfl
        exact absurd (hfree.symm.trans hr) nofun
      exact ⟨u, r, PortState.task_begin.mpr (.inr ⟨hut, hr⟩), hrest⟩
    · exact h.one
  | pass t choice r pc s' hr hpass hdrops hwait hclear =>
    refine h.goto hr ?_ hdrops
    by_cases hwaits : ∃ i q y x, P.program r.call r.pc = .wait i q y x
    · -- the time of a call is up: it has nothing in flight
      obtain ⟨i, q, y, x, hprogram⟩ := hwaits
      obtain ⟨rfl, hempty, -⟩ := hwait i q y x hprogram
      exact hpatient r i q y x hr hprogram hempty
    · exact hidle hr fun i q y x hprogram => hwaits ⟨i, q, y, x, hprogram⟩
  | started t r k chans req refused hr hprogram hmem htakes =>
    have hstart := hclean r chans req refused hr hprogram
    refine h.launch hr (hidle hr fun i q y x hw => ?_) k _
      (D.start r.call r.pc chans req refused hprogram).2.2 (hstart.started k rfl).empty
    exact absurd (hprogram.symm.trans hw) nofun
  | refused t r chans req refused hr hprogram =>
    refine h.goto hr (hidle hr fun i q y x hw => ?_) (.refl s)
    exact absurd (hprogram.symm.trans hw) nofun
  | took t r i q y x d hr hprogram hslot =>
    refine h.mono hr (fun k tk hk hid => ?_) (fun j d' hd' => (PortState.slot_take hd').2)
      (fun _ _ hk => hk) fun u r' hut hu => PortState.task_take.mpr (.inr ⟨hut, hu⟩)
    -- while the operation was in flight the slot was empty
    obtain ⟨t', r', hr', hid', -, hempty⟩ := h.running k tk hk
    obtain rfl : t = t' := hnum.apart t r t' r' hr hr' (hid.symm.trans hid'.symm)
    obtain rfl : r = r' := Option.some.inj (hr.symm.trans hr')
    have hi : D.awaits r.call r.pc i = some q := (D.wait r.call r.pc i q y x hprogram).1
    exact absurd ((hempty i q hi).symm.trans hslot) nofun
  | returned t choice r result hr hprogram =>
    refine h.mono hr (hidle hr fun i q y x hw => ?_) (fun _ _ hd => hd) (fun _ _ hk => hk)
      fun _ _ hut hu => PortState.task_finish.mpr ⟨hut, hu⟩
    exact absurd (hprogram.symm.trans hw) nofun
  | completed k ok value tk hflight => exact h.complete hkept value hflight

theorem Settled.nothingLeft (h : D.Settled s) (hnum : s.Numbered) : s.NothingLeft := by
  intro x hx k tk hk hid
  obtain ⟨t, r, hr, hr_id, -⟩ := h.running k tk hk
  exact hnum.returned x hx t r hr (hid.symm.trans hr_id.symm)

/-- In a run of clean and patient steps, what is in flight is waited for. -/
theorem always_settled [DecidableEq Chan] [DecidableEq Slot] (D : Discipline P)
    {es : List (PortEvent Call Chan)} (hclean : AllSteps P.step D.Clean P.init es)
    (hpatient : AllSteps P.step P.Patient P.init es) :
    Always P.step (fun s => D.Settled s ∧ D.Kept s ∧ s.Numbered) P.init es := by
  refine always_of_allSteps (P := fun s e => D.Clean s e ∧ P.Patient s e) ?_ ?_
    (hclean.and hpatient)
  · rintro s e ⟨hsettled, hkept, hnum⟩ ⟨hclean, hpatient⟩
    exact ⟨settled_step hsettled hkept hnum hclean hpatient, kept_step hkept hclean,
      (effect_step P s e).numbered hnum⟩
  · refine ⟨⟨fun k tk hk => absurd hk nofun, fun k tk k' tk' hk => absurd hk nofun⟩,
      kept_init D, numbered_init P⟩

end Discipline

end

end WLink.Lib
