import Mathlib.Data.List.Basic
import Mathlib.Data.Nat.Notation
import Mathlib.Logic.Function.Basic

/-!
# Calls that share a peripheral

Tasks run calls of a driver on one peripheral. A call is a program of `Command`s: it starts an
operation of the hardware on a channel and waits at a slot until an interrupt says that the
operation is complete. A slot holds one completion, a further one is dropped while it is full; so it
is a binary semaphore as well as a queue for one element. `Port.step` is one step of a task or one
interrupt, in any order, and `Port.effect_step` says what a step can do.

A `Ticket` says which call has started an operation and for what. Tickets are a record for the
statements only: no command reads one.
-/

namespace WLink.Lib

/-- What a call does next; it goes on at the next command where nothing else is said. -/
inductive Command (Chan Slot Req Res : Type)
  /-- take the mutex, or go on at `busy` when the time to wait for it is up -/
  | lock (busy : ℕ)
  | unlock
  /-- empty the slot -/
  | clear (i : Slot)
  /-- write what the next operations are about into the register of the peripheral -/
  | config (req : Req)
  /-- start an operation on one of the channels, about `req` or about what the register says, and
  go on at `refused` if it is not started -/
  | start (chans : List Chan) (req : Option Req) (refused : ℕ)
  /-- wait at the slot for the operation about `expected`; go on at `ready` when there is a
  completion, and at `expired` when the time is up -/
  | wait (i : Slot) (expected : Req) (ready expired : ℕ)
  /-- stop the operation of the channel -/
  | stop (k : Chan)
  | ret (result : Res)

/-- An operation: the call that has started it, and what it is about. -/
structure Ticket (Req : Type) where
  call : ℕ
  req : Req
  deriving DecidableEq

/-- An interrupt that ends an operation: it succeeds or fails, with the data it leaves. -/
structure Completion (Req : Type) where
  ticket : Ticket Req
  ok : Bool
  value : ℕ
  deriving DecidableEq

/-- A call that has not returned. -/
structure Running (Call Req : Type) where
  id : ℕ
  call : Call
  pc : ℕ
  /-- what it has taken from the slots, each with what it was waiting for -/
  took : List (Req × Completion Req)
  /-- what had completed when the call made its last step -/
  seen : List (Completion Req)

/-- A call that has returned, as it was when it did. -/
structure Returned (Call Req Res : Type) where
  running : Running Call Req
  result : Res

/-- The driver of a peripheral. -/
structure Port (Call Chan Slot Req Res : Type) where
  program : Call → ℕ → Command Chan Slot Req Res
  /-- the slots that the interrupt at the end of an operation fills -/
  signals : Chan → Req → Bool → List Slot
  /-- an operation that is in flight gives way to a new one on its channel -/
  supersedes : Req → Req → Bool
  /-- the register after reset -/
  reset : Req

structure PortState (Call Chan Slot Req Res : Type) where
  cfg : Req
  inFlight : Chan → Option (Ticket Req)
  slot : Slot → Option (Completion Req)
  /-- the task that has the mutex -/
  owner : Option ℕ
  task : ℕ → Option (Running Call Req)
  /-- the number of calls so far, and the number of the next one -/
  calls : ℕ
  completed : List (Completion Req)
  log : List (Returned Call Req Res)

/-- How a step of a task turns out: it goes on, it fails (the time is up, or the hardware does not
take the operation), or the operation is started on a channel. -/
inductive Choice (Chan : Type)
  | go
  | fail
  | on (k : Chan)

inductive PortEvent (Call Chan : Type)
  /-- a task without a call makes one -/
  | call (t : ℕ) (c : Call)
  /-- a task makes the next step of its call -/
  | run (t : ℕ) (choice : Choice Chan)
  /-- the interrupt at the end of the operation of a channel -/
  | done (k : Chan) (ok : Bool) (value : ℕ)

section

variable {Call Chan Slot Req Res : Type}

/-- After reset no call is running, and nothing is in flight. -/
def Port.init (P : Port Call Chan Slot Req Res) : PortState Call Chan Slot Req Res where
  cfg := P.reset
  inFlight := fun _ => none
  slot := fun _ => none
  owner := none
  task := fun _ => none
  calls := 0
  completed := []
  log := []

namespace PortState

/-- The call of the task goes on at a command. -/
def goto (s : PortState Call Chan Slot Req Res) (t : ℕ) (r : Running Call Req) (pc : ℕ) :
    PortState Call Chan Slot Req Res :=
  { s with task := Function.update s.task t (some { r with pc, seen := s.completed }) }

/-- The task begins a call. -/
def begin (s : PortState Call Chan Slot Req Res) (t : ℕ) (c : Call) :
    PortState Call Chan Slot Req Res :=
  { s with
    task := Function.update s.task t (some ⟨s.calls, c, 0, [], s.completed⟩)
    calls := s.calls + 1 }

/-- The call of the task returns. -/
def finish (s : PortState Call Chan Slot Req Res) (t : ℕ) (r : Running Call Req) (result : Res) :
    PortState Call Chan Slot Req Res :=
  { s with task := Function.update s.task t none, log := s.log ++ [⟨r, result⟩] }

variable [DecidableEq Chan] [DecidableEq Slot]

/-- An operation is in flight on the channel. -/
def launch (s : PortState Call Chan Slot Req Res) (k : Chan) (tk : Ticket Req) :
    PortState Call Chan Slot Req Res :=
  { s with inFlight := Function.update s.inFlight k (some tk) }

/-- The call of the task takes what it has found in the slot, and goes on at a command. -/
def take (s : PortState Call Chan Slot Req Res) (t : ℕ) (r : Running Call Req) (i : Slot)
    (expected : Req) (d : Completion Req) (pc : ℕ) : PortState Call Chan Slot Req Res :=
  { s with
    slot := Function.update s.slot i none
    task := Function.update s.task t
      (some { r with pc, took := r.took ++ [(expected, d)], seen := s.completed }) }

/-- The operation of the channel is over, and its interrupt fills those of the slots that are
empty. -/
def complete (s : PortState Call Chan Slot Req Res) (k : Chan) (slots : List Slot)
    (d : Completion Req) : PortState Call Chan Slot Req Res :=
  { s with
    inFlight := Function.update s.inFlight k none
    slot := fun i => if i ∈ slots then (s.slot i).or (some d) else s.slot i
    completed := s.completed ++ [d] }

end PortState

namespace Port

variable [DecidableEq Chan] [DecidableEq Slot] (P : Port Call Chan Slot Req Res)

/-- The channel takes an operation about `req`. -/
def Takes (s : PortState Call Chan Slot Req Res) (k : Chan) (req : Req) : Prop :=
  ∀ tk, s.inFlight k = some tk → P.supersedes tk.req req = true

instance (s : PortState Call Chan Slot Req Res) (k : Chan) (req : Req) :
    Decidable (P.Takes s k req) :=
  match h : s.inFlight k with
  | none => isTrue fun _ htk => absurd (h.symm.trans htk) nofun
  | some tk => decidable_of_iff (P.supersedes tk.req req = true)
      ⟨fun hs _ htk => Option.some.inj (h.symm.trans htk) ▸ hs, fun hs => hs tk h⟩

/-- The next step of the call `r` of the task `t`; a step that cannot be made changes nothing. -/
def runCommand (s : PortState Call Chan Slot Req Res) (t : ℕ) (r : Running Call Req) :
    Command Chan Slot Req Res → Choice Chan → PortState Call Chan Slot Req Res
  | .lock _, .go => if s.owner = none then { s with owner := some t }.goto t r (r.pc + 1) else s
  | .lock busy, .fail => if s.owner = none then s else s.goto t r busy
  | .unlock, _ => { s with owner := none }.goto t r (r.pc + 1)
  | .clear i, _ => { s with slot := Function.update s.slot i none }.goto t r (r.pc + 1)
  | .config req, .go => { s with cfg := req }.goto t r (r.pc + 1)
  | .config _, .fail => s.goto t r (r.pc + 1)
  | .start chans req _, .on k =>
    if k ∈ chans ∧ P.Takes s k (req.getD s.cfg) then
      (s.launch k ⟨r.id, req.getD s.cfg⟩).goto t r (r.pc + 1)
    else s
  | .start _ _ refused, .fail => s.goto t r refused
  | .wait i expected ready _, .go =>
    match s.slot i with
    | none => s
    | some d => s.take t r i expected d ready
  | .wait i _ _ expired, .fail => if s.slot i = none then s.goto t r expired else s
  | .stop k, .go => { s with inFlight := Function.update s.inFlight k none }.goto t r (r.pc + 1)
  | .stop _, .fail => s.goto t r (r.pc + 1)
  | .ret result, _ => s.finish t r result
  | _, _ => s

def step (s : PortState Call Chan Slot Req Res) :
    PortEvent Call Chan → PortState Call Chan Slot Req Res
  | .call t c =>
    match s.task t with
    | none => s.begin t c
    | some _ => s
  | .run t choice =>
    match s.task t with
    | none => s
    | some r => P.runCommand s t r (P.program r.call r.pc) choice
  | .done k ok value =>
    match s.inFlight k with
    | none => s
    | some tk => s.complete k (P.signals k tk.req ok) ⟨tk, ok, value⟩

end Port

/-! ## What a step can do -/

/-- From the command at `pc` a call goes on at `pc'` without starting or taking anything. -/
def Command.Passes (pc : ℕ) (pc' : ℕ) : Command Chan Slot Req Res → Prop
  | .lock busy => pc' = pc + 1 ∨ pc' = busy
  | .unlock | .clear _ | .config _ | .stop _ => pc' = pc + 1
  | .wait _ _ _ expired => pc' = expired
  | .start _ _ _ | .ret _ => False

/-- The hardware and the slots with nothing added. -/
structure PortState.Drops (s s' : PortState Call Chan Slot Req Res) : Prop where
  inFlight : ∀ k tk, s'.inFlight k = some tk → s.inFlight k = some tk
  slot : ∀ i d, s'.slot i = some d → s.slot i = some d
  task : s'.task = s.task
  calls : s'.calls = s.calls
  completed : s'.completed = s.completed
  log : s'.log = s.log

theorem PortState.Drops.refl (s : PortState Call Chan Slot Req Res) : s.Drops s :=
  ⟨fun _ _ h => h, fun _ _ h => h, rfl, rfl, rfl, rfl⟩

/-! ## The state after a step -/

section

variable {α β : Type} [DecidableEq α] {f : α → Option β} {a x : α} {b c : β}

/-- What is found where a function has been changed at one place. -/
theorem update_eq_some {o : Option β} :
    Function.update f a o x = some c ↔ x = a ∧ o = some c ∨ x ≠ a ∧ f x = some c := by
  by_cases hxa : x = a
  · subst hxa
    rw [Function.update_self]
    simp
  · rw [Function.update_of_ne hxa]
    simp [hxa]

theorem update_some_eq_some :
    Function.update f a (some b) x = some c ↔ x = a ∧ c = b ∨ x ≠ a ∧ f x = some c := by
  rw [update_eq_some, Option.some.injEq, @eq_comm _ b c]

theorem update_none_eq_some :
    Function.update f a none x = some c ↔ x ≠ a ∧ f x = some c := by
  simp only [update_eq_some, reduceCtorEq, and_false, false_or]

end

namespace PortState

variable {s : PortState Call Chan Slot Req Res} {t u pc : ℕ} {r r' : Running Call Req}

theorem inFlight_launch [DecidableEq Chan] {k k' : Chan} {tk tk' : Ticket Req} :
    (s.launch k tk).inFlight k' = some tk' ↔
      k' = k ∧ tk' = tk ∨ k' ≠ k ∧ s.inFlight k' = some tk' :=
  update_some_eq_some

theorem task_goto : (s.goto t r pc).task u = some r' ↔
    u = t ∧ r' = { r with pc, seen := s.completed } ∨ u ≠ t ∧ s.task u = some r' :=
  update_some_eq_some

theorem task_begin {c : Call} : (s.begin t c).task u = some r' ↔
    u = t ∧ r' = ⟨s.calls, c, 0, [], s.completed⟩ ∨ u ≠ t ∧ s.task u = some r' :=
  update_some_eq_some

theorem task_finish {result : Res} :
    (s.finish t r result).task u = some r' ↔ u ≠ t ∧ s.task u = some r' :=
  update_none_eq_some

variable [DecidableEq Slot]

theorem task_take {i : Slot} {q : Req} {d : Completion Req} :
    (s.take t r i q d pc).task u = some r' ↔
      u = t ∧ r' = { r with pc, took := r.took ++ [(q, d)], seen := s.completed } ∨
        u ≠ t ∧ s.task u = some r' :=
  update_some_eq_some

theorem slot_take {i j : Slot} {q : Req} {d d' : Completion Req}
    (h : (s.take t r i q d pc).slot j = some d') : j ≠ i ∧ s.slot j = some d' :=
  update_none_eq_some.mp h

variable [DecidableEq Chan]

theorem slot_complete {k : Chan} {slots : List Slot} {i : Slot} {d d' : Completion Req}
    (h : (s.complete k slots d).slot i = some d') :
    s.slot i = some d' ∨ i ∈ slots ∧ s.slot i = none ∧ d' = d := by
  have h' : (if i ∈ slots then (s.slot i).or (some d) else s.slot i) = some d' := h
  split_ifs at h' with hi
  · cases hs : s.slot i with
    | none =>
      rw [hs] at h'
      exact .inr ⟨hi, rfl, (Option.some.inj h').symm⟩
    | some d'' =>
      rw [hs] at h'
      exact .inl h'
  · exact .inl h'

theorem inFlight_complete {k k' : Chan} {slots : List Slot} {d : Completion Req} {tk : Ticket Req}
    (h : (s.complete k slots d).inFlight k' = some tk) : k' ≠ k ∧ s.inFlight k' = some tk :=
  update_none_eq_some.mp h

end PortState

variable [DecidableEq Chan] [DecidableEq Slot]

/-- The effects of the events: what a step does, with the command it is a step of. -/
inductive Effect (P : Port Call Chan Slot Req Res) (s : PortState Call Chan Slot Req Res) :
    PortEvent Call Chan → PortState Call Chan Slot Req Res → Prop
  | none (e) : Effect P s e s
  | call (t : ℕ) (c : Call) (hidle : s.task t = none) : Effect P s (.call t c) (s.begin t c)
  | pass (t : ℕ) (choice : Choice Chan) (r : Running Call Req) (pc : ℕ)
      (s' : PortState Call Chan Slot Req Res) (hr : s.task t = some r)
      (hpass : (P.program r.call r.pc).Passes r.pc pc) (hdrops : s.Drops s')
      (hwait : ∀ i q y x, P.program r.call r.pc = .wait i q y x →
        choice = .fail ∧ s.slot i = .none ∧ s' = s)
      (hclear : s'.slot = s.slot ∨ ∃ i, P.program r.call r.pc = .clear i) :
      Effect P s (.run t choice) (s'.goto t r pc)
  | started (t : ℕ) (r : Running Call Req) (k : Chan) (chans : List Chan) (req : Option Req)
      (refused : ℕ) (hr : s.task t = some r)
      (hprogram : P.program r.call r.pc = .start chans req refused) (hmem : k ∈ chans)
      (htakes : P.Takes s k (req.getD s.cfg)) :
      Effect P s (.run t (.on k)) ((s.launch k ⟨r.id, req.getD s.cfg⟩).goto t r (r.pc + 1))
  | refused (t : ℕ) (r : Running Call Req) (chans : List Chan) (req : Option Req)
      (refused : ℕ) (hr : s.task t = some r)
      (hprogram : P.program r.call r.pc = .start chans req refused) :
      Effect P s (.run t .fail) (s.goto t r refused)
  | took (t : ℕ) (r : Running Call Req) (i : Slot) (q : Req) (y x : ℕ) (d : Completion Req)
      (hr : s.task t = some r) (hprogram : P.program r.call r.pc = .wait i q y x)
      (hslot : s.slot i = some d) : Effect P s (.run t .go) (s.take t r i q d y)
  | returned (t : ℕ) (choice : Choice Chan) (r : Running Call Req) (result : Res)
      (hr : s.task t = some r) (hprogram : P.program r.call r.pc = .ret result) :
      Effect P s (.run t choice) (s.finish t r result)
  | completed (k : Chan) (ok : Bool) (value : ℕ) (tk : Ticket Req)
      (hflight : s.inFlight k = some tk) :
      Effect P s (.done k ok value) (s.complete k (P.signals k tk.req ok) ⟨tk, ok, value⟩)

variable {P : Port Call Chan Slot Req Res} {s : PortState Call Chan Slot Req Res}

/-- A step of a task does nothing, or what its command says. -/
theorem effect_runCommand {t : ℕ} {r : Running Call Req} (hr : s.task t = some r)
    (choice : Choice Chan) :
    Effect P s (.run t choice) (P.runCommand s t r (P.program r.call r.pc) choice) := by
  have hdrop {pc : ℕ} {s' : PortState Call Chan Slot Req Res}
      (hpass : (P.program r.call r.pc).Passes r.pc pc) (hdrops : s.Drops s')
      (hwait : ∀ i q y x, P.program r.call r.pc ≠ .wait i q y x)
      (hclear : s'.slot = s.slot ∨ ∃ i, P.program r.call r.pc = .clear i) :
      Effect P s (.run t choice) (s'.goto t r pc) :=
    .pass t choice r pc s' hr hpass hdrops (fun i q y x h => absurd h (hwait i q y x)) hclear
  have hsame : s.Drops s := .refl s
  -- the cases are those of the command that the task has come to
  obtain ⟨cmd, hcmd⟩ : ∃ cmd, P.program r.call r.pc = cmd := ⟨_, rfl⟩
  cases cmd with
  | lock busy =>
    rw [hcmd] at hdrop ⊢
    cases choice with
    | go =>
      simp only [Port.runCommand]
      split_ifs
      · exact hdrop (.inl rfl) ⟨hsame.1, hsame.2, rfl, rfl, rfl, rfl⟩ nofun (.inl rfl)
      · exact .none _
    | fail =>
      simp only [Port.runCommand]
      split_ifs
      · exact .none _
      · exact hdrop (.inr rfl) hsame nofun (.inl rfl)
    | on k => exact .none _
  | unlock =>
    rw [hcmd] at hdrop ⊢
    exact hdrop rfl ⟨hsame.1, hsame.2, rfl, rfl, rfl, rfl⟩ nofun (.inl rfl)
  | clear i =>
    rw [hcmd] at hdrop ⊢
    exact hdrop rfl ⟨hsame.1, fun j d hj => (update_none_eq_some.mp hj).2, rfl, rfl, rfl, rfl⟩
      nofun (.inr ⟨i, rfl⟩)
  | config req =>
    rw [hcmd] at hdrop ⊢
    cases choice with
    | go => exact hdrop rfl ⟨hsame.1, hsame.2, rfl, rfl, rfl, rfl⟩ nofun (.inl rfl)
    | fail => exact hdrop rfl hsame nofun (.inl rfl)
    | on k => exact .none _
  | start chans req refused =>
    cases choice with
    | go => rw [hcmd]; exact .none _
    | fail => rw [hcmd]; exact .refused t r chans req refused hr hcmd
    | on k =>
      rw [hcmd]
      simp only [Port.runCommand]
      split_ifs with h
      · exact .started t r k chans req refused hr hcmd h.1 h.2
      · exact .none _
  | wait i q y x =>
    cases choice with
    | go =>
      rw [hcmd]
      simp only [Port.runCommand]
      rcases (s.slot i).eq_none_or_eq_some with hslot | ⟨d, hslot⟩
      · simp only [hslot]
        exact .none _
      · simp only [hslot]
        exact .took t r i q y x d hr hcmd hslot
    | fail =>
      have hpass : (P.program r.call r.pc).Passes r.pc x := by rw [hcmd]; exact rfl
      rw [hcmd]
      simp only [Port.runCommand]
      split_ifs with hslot
      · refine .pass t .fail r x s hr hpass hsame (fun j p _ _ hj => ?_) (.inl rfl)
        rw [hcmd] at hj
        cases hj
        exact ⟨rfl, hslot, rfl⟩
      · exact .none _
    | on k => rw [hcmd]; exact .none _
  | stop k =>
    rw [hcmd] at hdrop ⊢
    cases choice with
    | go =>
      exact hdrop rfl ⟨fun j tk hj => (update_none_eq_some.mp hj).2, hsame.2, rfl, rfl, rfl, rfl⟩
        nofun (.inl rfl)
    | fail => exact hdrop rfl hsame nofun (.inl rfl)
    | on k' => exact .none _
  | ret result =>
    rw [hcmd]
    exact .returned t choice r result hr hcmd

/-- What an event does. -/
theorem effect_step (P : Port Call Chan Slot Req Res) (s : PortState Call Chan Slot Req Res)
    (e : PortEvent Call Chan) : Effect P s e (P.step s e) := by
  cases e with
  | call t c =>
    unfold Port.step
    rcases (s.task t).eq_none_or_eq_some with ht | ⟨r, ht⟩
    · simp only [ht]
      exact .call t c ht
    · simp only [ht]
      exact .none _
  | run t choice =>
    unfold Port.step
    rcases (s.task t).eq_none_or_eq_some with ht | ⟨r, ht⟩
    · simp only [ht]
      exact .none _
    · simp only [ht]
      exact effect_runCommand ht choice
  | done k ok value =>
    unfold Port.step
    rcases (s.inFlight k).eq_none_or_eq_some with hk | ⟨tk, hk⟩
    · simp only [hk]
      exact .none _
    · simp only [hk]
      exact .completed k ok value tk hk

end

end WLink.Lib
