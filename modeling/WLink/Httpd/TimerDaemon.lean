import WLink.Httpd.Def
import WLink.Lib.Run
import Mathlib.Logic.Function.Basic

/-!
# The timer daemon

`HTTP_Server_Task` gives every record a timer, whose only tie to the record is the index of its
slot. What the task asks for is done later by the daemon of FreeRTOS, which takes the commands
from a queue of bounded length; whether a command found room there is not looked at. A slot can
therefore have a new record while the timer of an earlier one still runs.

* `next` -- the statement the task has come to, in an admission or while a record is given back
* `callback` -- the next statement of `HTTPd_Connection_Timeout_CB`
* `receive` -- the daemon takes a command from its queue
* `marksOwn_of_allSteps` -- when a timeout only marks the record that the timer was created for

Time is left out: a timer that is active can expire at any moment.
-/

namespace WLink.Httpd

open WLink.Lib

/-! ## State -/

def httpdTimerIdOffset : ℕ := 1

def configTimerQueueLength : ℕ := 10

/-- What is read and written of a record here. Its number says the how manieth record it is. -/
structure Client where
  id : ℕ
  connectionTimeoutTimer : Option ℕ
  connectionDestructFlag : Bool

/-- A timer of FreeRTOS, with the number of the record it was created for. -/
structure SoftTimer where
  timerId : ℕ
  owner : ℕ
  active : Bool

/-- The slot that the callback takes the timer to belong to. -/
def SoftTimer.index (t : SoftTimer) : ℕ := t.timerId - httpdTimerIdOffset

inductive TimerCommand
  | start
  | stop
  | reset
  | changePeriod (periodMs : ℕ)
  | delete
deriving DecidableEq

/-- The command makes a timer active. -/
def TimerCommand.Activates : TimerCommand → Prop
  | start => True
  | stop => False
  | reset => True
  | changePeriod _ => True
  | delete => False

/-- Where the task is, in slot `k`: between two statements that matter here, in front of a
statement of an admission, or in front of one of those that give a record back. -/
inductive TaskAt
  | serving
  | restoring (k : ℕ)
  | creating (k : ℕ)
  | stopping (k : ℕ)
  | opening (k : ℕ)
  | reclaiming (k : ℕ)
  | deleting (k : ℕ)
  | clearing (k : ℕ)
  | freeing (k : ℕ)

/-- Where the daemon is: between two timers or commands, in front of a statement of the callback
of a timer, or in the loop behind a failed assertion. -/
inductive DaemonAt
  | waiting
  | expired (a : ℕ)
  | identifying (a : ℕ)
  | marking (a : ℕ)
  | orphaned (a : ℕ)
  | halted

/-- The timer whose callback runs. -/
def DaemonAt.timer : DaemonAt → Option ℕ
  | waiting => none
  | expired a => some a
  | identifying a => some a
  | marking a => some a
  | orphaned a => some a
  | halted => none

/-- A timeout has marked a record. -/
structure Mark where
  owner : ℕ
  marked : ℕ

/-- `HTTPd_WebSocketd_Client_List`, the timers by their addresses, the queue of the daemon, where
the two tasks are, the number of records so far, and what timeouts have marked. -/
structure TimerState where
  clientList : ℕ → Option Client
  timers : ℕ → Option SoftTimer
  queue : List (ℕ × TimerCommand)
  task : TaskAt
  daemon : DaemonAt
  created : ℕ
  marks : List Mark

namespace TimerState

/-- No client has been accepted yet. -/
def start : TimerState where
  clientList := fun _ => none
  timers := fun _ => none
  queue := []
  task := .serving
  daemon := .waiting
  created := 0
  marks := []

/-! ## Parts of the steps -/

/-- A command is put into the queue, or dropped if it is full. -/
def post (s : TimerState) (a : ℕ) (c : TimerCommand) : TimerState :=
  if s.queue.length < configTimerQueueLength then { s with queue := s.queue ++ [(a, c)] } else s

/-- A command for the timer of a record. -/
def postTimer (s : TimerState) (k : ℕ) (c : TimerCommand) : TimerState :=
  match (s.clientList k).bind Client.connectionTimeoutTimer with
  | some a => s.post a c
  | none => s

def update (s : TimerState) (k : ℕ) (f : Client → Client) : TimerState :=
  { s with clientList := Function.update s.clientList k ((s.clientList k).map f) }

def setFlag (s : TimerState) (k : ℕ) (flag : Bool) : TimerState :=
  s.update k fun r => { r with connectionDestructFlag := flag }

/-- `mem_Free`, and `NULL` in the slot. -/
def remove (s : TimerState) (k : ℕ) : TimerState :=
  { s with clientList := Function.update s.clientList k none }

def setActive (s : TimerState) (a : ℕ) (active : Bool) : TimerState :=
  { s with timers :=
    Function.update s.timers a ((s.timers a).map fun t => { t with active := active }) }

/-! ## The server task -/

/-- `mem_Malloc` returns a record for the first slot that is `NULL`. -/
def accept (s : TimerState) (k : ℕ) : TimerState :=
  match s.task, s.clientList k with
  | .serving, none =>
    if k < httpdMaxClients ∧ ∀ j < k, (s.clientList j).isSome then
      { s with
        clientList := Function.update s.clientList k (some ⟨s.created, none, false⟩)
        created := s.created + 1
        task := .restoring k }
    else s
  | _, _ => s

/-- `NeonRTOS_TimerCreate` for the record in slot `k`, with the block that `xTimerCreate` gets.
It is none of those that are in use. -/
def create (s : TimerState) (k : ℕ) : Option ℕ → TimerState
  | none => { s.remove k with task := .serving }
  | some a =>
    match s.timers a, s.clientList k with
    | none, some r =>
      { s with
        timers := Function.update s.timers a (some ⟨k + httpdTimerIdOffset, r.id, false⟩)
        clientList :=
          Function.update s.clientList k (some { r with connectionTimeoutTimer := some a })
        task := .stopping k }
    | _, _ => s

/-- The statement that the task has come to. -/
def next (s : TimerState) (block : Option ℕ) : TimerState :=
  match s.task with
  | .serving => s
  | .restoring k => { s.setFlag k false with task := .creating k }
  | .creating k => s.create k block
  | .stopping k => { s.postTimer k .stop with task := .opening k }
  | .opening k => { s.setFlag k false with task := .serving }
  | .reclaiming k => { s.postTimer k .stop with task := .deleting k }
  | .deleting k => { s.postTimer k .delete with task := .clearing k }
  | .clearing k =>
    { s.update k (fun r => { r with connectionTimeoutTimer := none }) with task := .freeing k }
  | .freeing k => { s.remove k with task := .serving }

/-- While a client is served: the task starts, stops or resets the timer or changes its period. -/
def command (s : TimerState) (k : ℕ) (c : TimerCommand) : TimerState :=
  match s.task with
  | .serving => if c = .delete then s else s.postTimer k c
  | _ => s

/-- The task gives a connection up. -/
def destruct (s : TimerState) (k : ℕ) : TimerState :=
  match s.task with
  | .serving => s.setFlag k true
  | _ => s

/-- The task comes to a record that is marked. -/
def reclaim (s : TimerState) (k : ℕ) : TimerState :=
  match s.task, s.clientList k with
  | .serving, some r =>
    if r.connectionDestructFlag then
      if r.connectionTimeoutTimer.isSome then { s with task := .reclaiming k }
      else { s with task := .freeing k }
    else s
  | _, _ => s

/-! ## The daemon -/

/-- An active timer expires. It stays active, since it reloads itself. -/
def expire (s : TimerState) (a : ℕ) : TimerState :=
  match s.daemon, s.timers a with
  | .waiting, some t => if t.active then { s with daemon := .expired a } else s
  | _, _ => s

/-- The write through the slot that the timer names. -/
def mark (s : TimerState) (a : ℕ) : TimerState :=
  match s.timers a with
  | none => s
  | some t =>
    match s.clientList t.index with
    | none => s
    | some r => { s.setFlag t.index true with marks := s.marks ++ [⟨t.owner, r.id⟩] }

/-- The next statement of `HTTPd_Connection_Timeout_CB`. -/
def callback (s : TimerState) : TimerState :=
  match s.daemon with
  | .waiting => s
  | .halted => s
  | .expired a => { s.post a .stop with daemon := .identifying a }
  | .identifying a =>
    match s.timers a with
    | none => { s with daemon := .waiting }
    | some t =>
      -- `NeonRTOS_GetTimerID` takes the identifier 0 for a failure
      if t.timerId = 0 then { s with daemon := .waiting }
      else if (s.clientList t.index).isSome then { s with daemon := .marking a }
      else { s with daemon := .orphaned a }
  | .marking a => { s.mark a with daemon := .waiting }
  | .orphaned a => { s.post a .delete with daemon := .waiting }

/-- What a command does. A timer that is started `late`, after the time at which it would have
expired, expires at once. A command for a timer that is gone changes no other timer. -/
def process (s : TimerState) (a : ℕ) (late : Bool) : TimerCommand → TimerState
  | .start => { s.setActive a true with
      daemon := if late ∧ (s.timers a).isSome then .expired a else .waiting }
  | .reset => { s.setActive a true with
      daemon := if late ∧ (s.timers a).isSome then .expired a else .waiting }
  | .stop => s.setActive a false
  | .changePeriod periodMs =>
    if periodMs = 0 then { s.setActive a true with daemon := .halted } else s.setActive a true
  | .delete => { s with timers := Function.update s.timers a none }

/-- The daemon takes the first command from its queue. -/
def receive (s : TimerState) (late : Bool) : TimerState :=
  match s.daemon, s.queue with
  | .waiting, (a, c) :: q => { s with queue := q }.process a late c
  | _, _ => s

end TimerState

/-! ## Steps -/

inductive TimerEvent
  | accept (k : ℕ)
  | next (block : Option ℕ)
  | command (k : ℕ) (c : TimerCommand)
  | destruct (k : ℕ)
  | reclaim (k : ℕ)
  | expire (a : ℕ)
  | callback
  | receive (late : Bool)

def timerStep (s : TimerState) : TimerEvent → TimerState
  | .accept k => s.accept k
  | .next block => s.next block
  | .command k c => s.command k c
  | .destruct k => s.destruct k
  | .reclaim k => s.reclaim k
  | .expire a => s.expire a
  | .callback => s.callback
  | .receive late => s.receive late

/-! ## Timers that can expire -/

/-- The timer at an address can still expire: it is active, or its callback runs, or a command
that makes it active is in the queue, or can be put there since a record holds the address. -/
inductive CanExpire (s : TimerState) (a : ℕ) : Prop
  | active {t : SoftTimer} (timer : s.timers a = some t) (active : t.active = true)
  | called (daemon : s.daemon.timer = some a)
  | queued {c : TimerCommand} (mem : (a, c) ∈ s.queue) (activates : c.Activates)
  | held {k : ℕ} {r : Client} (slot : s.clientList k = some r)
      (timer : r.connectionTimeoutTimer = some a)

/-- A step that makes no record and no timer, and lets no timer expire that could not before. -/
structure Tame (s s' : TimerState) : Prop where
  clients : ∀ k r', s'.clientList k = some r' → ∃ r, s.clientList k = some r ∧ r'.id = r.id
  timers : ∀ a t', s'.timers a = some t' →
    ∃ t, s.timers a = some t ∧ t'.timerId = t.timerId ∧ t'.owner = t.owner
  canExpire : ∀ a, CanExpire s' a → CanExpire s a
  marks : s'.marks = s.marks

namespace Tame

variable {s s' s'' : TimerState}

theorem refl (s : TimerState) : Tame s s where
  clients := fun _ r' h => ⟨r', h, rfl⟩
  timers := fun _ t' h => ⟨t', h, rfl, rfl⟩
  canExpire := fun _ h => h
  marks := rfl

theorem trans (h : Tame s s') (h' : Tame s' s'') : Tame s s'' where
  clients := by
    intro k r'' hr''
    obtain ⟨r', hr', hid'⟩ := h'.clients k r'' hr''
    obtain ⟨r, hr, hid⟩ := h.clients k r' hr'
    exact ⟨r, hr, hid'.trans hid⟩
  timers := by
    intro a t'' ht''
    obtain ⟨t', ht', hid', howner'⟩ := h'.timers a t'' ht''
    obtain ⟨t, ht, hid, howner⟩ := h.timers a t' ht'
    exact ⟨t, ht, hid'.trans hid, howner'.trans howner⟩
  canExpire := fun a ha => h.canExpire a (h'.canExpire a ha)
  marks := h'.marks.trans h.marks

/-- Where the task is makes no difference. -/
theorem at_task (s : TimerState) (p : TaskAt) : Tame s { s with task := p } where
  clients := fun _ r' h => ⟨r', h, rfl⟩
  timers := fun _ t' h => ⟨t', h, rfl, rfl⟩
  canExpire := by
    rintro a (⟨timer, active⟩ | daemon | ⟨mem, activates⟩ | ⟨slot, timer⟩)
    · exact .active timer active
    · exact .called daemon
    · exact .queued mem activates
    · exact .held slot timer
  marks := rfl

/-- The daemon turns to a timer that could expire, or to none. -/
theorem at_daemon (h : Tame s s') {p : DaemonAt} (hp : ∀ a, p.timer = some a → CanExpire s a) :
    Tame s { s' with daemon := p } where
  clients := h.clients
  timers := h.timers
  canExpire := by
    rintro a (⟨timer, active⟩ | daemon | ⟨mem, activates⟩ | ⟨slot, timer⟩)
    · exact h.canExpire a (.active timer active)
    · exact hp a daemon
    · exact h.canExpire a (.queued mem activates)
    · exact h.canExpire a (.held slot timer)
  marks := h.marks

/-- A command is put into the queue that starts no timer, or one that can expire. -/
theorem post {a : ℕ} {c : TimerCommand} (hc : c.Activates → CanExpire s a) :
    Tame s (s.post a c) := by
  unfold TimerState.post
  split
  · refine ⟨fun _ r' h => ⟨r', h, rfl⟩, fun _ t' h => ⟨t', h, rfl, rfl⟩, ?_, rfl⟩
    rintro b (⟨timer, active⟩ | daemon | ⟨mem, activates⟩ | ⟨slot, timer⟩)
    · exact .active timer active
    · exact .called daemon
    · rcases List.mem_append.mp mem with mem | mem
      · exact .queued mem activates
      · obtain ⟨rfl, rfl⟩ := Prod.mk.inj (List.mem_singleton.mp mem)
        exact hc activates
    · exact .held slot timer
  · exact refl s

theorem postTimer (s : TimerState) (k : ℕ) (c : TimerCommand) : Tame s (s.postTimer k c) := by
  unfold TimerState.postTimer
  split
  · next a h =>
    obtain ⟨r, hr, ha⟩ := Option.bind_eq_some_iff.mp h
    exact post fun _ => .held hr ha
  · exact refl s

/-- A record keeps its number, and its timer unless it gives it up. -/
theorem update (s : TimerState) (k : ℕ) {f : Client → Client} (hid : ∀ r, (f r).id = r.id)
    (htimer : ∀ r a, (f r).connectionTimeoutTimer = some a → r.connectionTimeoutTimer = some a) :
    Tame s (s.update k f) := by
  have hslot : ∀ j r', (s.update k f).clientList j = some r' →
      ∃ r, s.clientList j = some r ∧ (r' = r ∨ r' = f r) := by
    intro j r' h
    unfold TimerState.update at h
    by_cases hj : j = k
    · subst hj
      obtain ⟨r, hr, rfl⟩ := Option.map_eq_some_iff.mp (by simpa using h)
      exact ⟨r, hr, Or.inr rfl⟩
    · exact ⟨r', by simpa [hj] using h, Or.inl rfl⟩
  refine ⟨?_, fun _ t' h => ⟨t', h, rfl, rfl⟩, ?_, rfl⟩
  · intro j r' h
    obtain ⟨r, hr, rfl | rfl⟩ := hslot j r' h
    · exact ⟨_, hr, rfl⟩
    · exact ⟨r, hr, hid r⟩
  · rintro a (⟨timer, active⟩ | daemon | ⟨mem, activates⟩ | ⟨slot, timer⟩)
    · exact .active timer active
    · exact .called daemon
    · exact .queued mem activates
    · obtain ⟨r, hr, rfl | rfl⟩ := hslot _ _ slot
      · exact .held hr timer
      · exact .held hr (htimer r a timer)

theorem setFlag (s : TimerState) (k : ℕ) (flag : Bool) : Tame s (s.setFlag k flag) :=
  update s k (fun _ => rfl) fun _ _ h => h

theorem clearTimer (s : TimerState) (k : ℕ) :
    Tame s (s.update k fun r => { r with connectionTimeoutTimer := none }) := by
  refine update s k (fun _ => rfl) ?_
  rintro r a ⟨⟩

theorem remove (s : TimerState) (k : ℕ) : Tame s (s.remove k) := by
  have hslot : ∀ j r, (s.remove k).clientList j = some r → s.clientList j = some r := by
    intro j r h
    unfold TimerState.remove at h
    by_cases hj : j = k
    · simp [hj] at h
    · simpa [hj] using h
  refine ⟨fun j r h => ⟨r, hslot j r h, rfl⟩, fun _ t' h => ⟨t', h, rfl, rfl⟩, ?_, rfl⟩
  rintro a (⟨timer, active⟩ | daemon | ⟨mem, activates⟩ | ⟨slot, timer⟩)
  · exact .active timer active
  · exact .called daemon
  · exact .queued mem activates
  · exact .held (hslot _ _ slot) timer

/-- A timer that could expire is made active, or one is made inactive. -/
theorem setActive (h : Tame s s') {a : ℕ} {active : Bool} (ha : active = true → CanExpire s a) :
    Tame s (s'.setActive a active) := by
  have htimer : ∀ b t', (s'.setActive a active).timers b = some t' → ∃ t, s.timers b = some t ∧
      t'.timerId = t.timerId ∧ t'.owner = t.owner ∧ (t'.active = true → CanExpire s b) := by
    intro b t' hb
    unfold TimerState.setActive at hb
    by_cases hba : b = a
    · subst hba
      obtain ⟨t₁, ht₁, rfl⟩ := Option.map_eq_some_iff.mp (by simpa using hb)
      obtain ⟨t, ht, hid, howner⟩ := h.timers b t₁ ht₁
      exact ⟨t, ht, hid, howner, ha⟩
    · have hb' : s'.timers b = some t' := by simpa [hba] using hb
      obtain ⟨t, ht, hid, howner⟩ := h.timers b t' hb'
      exact ⟨t, ht, hid, howner, fun hactive => h.canExpire b (.active hb' hactive)⟩
  refine ⟨h.clients, ?_, ?_, h.marks⟩
  · intro b t' hb
    obtain ⟨t, ht, hid, howner, -⟩ := htimer b t' hb
    exact ⟨t, ht, hid, howner⟩
  · rintro b (⟨timer, active⟩ | daemon | ⟨mem, activates⟩ | ⟨slot, timer⟩)
    · obtain ⟨-, -, -, -, hcan⟩ := htimer b _ timer
      exact hcan active
    · exact h.canExpire b (.called daemon)
    · exact h.canExpire b (.queued mem activates)
    · exact h.canExpire b (.held slot timer)

/-- A timer is deleted. -/
theorem delete (s : TimerState) (a : ℕ) :
    Tame s { s with timers := Function.update s.timers a none } := by
  have htimer : ∀ b t, Function.update s.timers a none b = some t → s.timers b = some t := by
    intro b t h
    by_cases hba : b = a
    · simp [hba] at h
    · simpa [hba] using h
  refine ⟨fun _ r' h => ⟨r', h, rfl⟩, fun b t h => ⟨t, htimer b t h, rfl, rfl⟩, ?_, rfl⟩
  rintro b (⟨timer, active⟩ | daemon | ⟨mem, activates⟩ | ⟨slot, timer⟩)
  · exact .active (htimer b _ timer) active
  · exact .called daemon
  · exact .queued mem activates
  · exact .held slot timer

/-- The first command is taken from the queue. -/
theorem pop {m : ℕ × TimerCommand} {q : List (ℕ × TimerCommand)} (hq : s.queue = m :: q) :
    Tame s { s with queue := q } where
  clients := fun _ r' h => ⟨r', h, rfl⟩
  timers := fun _ t' h => ⟨t', h, rfl, rfl⟩
  canExpire := by
    rintro b (⟨timer, active⟩ | daemon | ⟨mem, activates⟩ | ⟨slot, timer⟩)
    · exact .active timer active
    · exact .called daemon
    · exact .queued (hq ▸ List.mem_cons_of_mem m mem) activates
    · exact .held slot timer
  marks := rfl

end Tame

/-- The daemon takes a command. -/
theorem Tame.receive (s : TimerState) (late : Bool) : Tame s (s.receive late) := by
  unfold TimerState.receive
  split
  · next a c q hdaemon hqueue =>
    have hpop := Tame.pop hqueue
    have hstart : c.Activates → CanExpire s a := by
      intro hc
      exact .queued (hqueue ▸ List.mem_cons_self) hc
    cases c with
    | start | reset =>
      refine (hpop.setActive fun _ => hstart trivial).at_daemon ?_
      intro b hb
      split at hb <;> cases hb
      exact hstart trivial
    | stop => exact hpop.setActive fun h => absurd h (by decide)
    | changePeriod periodMs =>
      have hactive := hpop.setActive fun _ : true = true => hstart trivial
      by_cases hzero : periodMs = 0
      · rw [TimerState.process, if_pos hzero]
        exact hactive.at_daemon fun b hb => nomatch hb
      · rw [TimerState.process, if_neg hzero]
        exact hactive
    | delete => exact hpop.trans (Tame.delete _ a)
  · exact Tame.refl s

/-! ## Steps that make no record and no timer -/

/-- A statement of the task that is no `NeonRTOS_TimerCreate`. -/
theorem Tame.next {s : TimerState} (h : ∀ k, s.task ≠ .creating k) (block : Option ℕ) :
    Tame s (s.next block) := by
  unfold TimerState.next
  split
  · exact Tame.refl s
  · exact (Tame.setFlag s _ false).trans (Tame.at_task _ _)
  · next k hk => exact absurd hk (h k)
  · exact (Tame.postTimer s _ .stop).trans (Tame.at_task _ _)
  · exact (Tame.setFlag s _ false).trans (Tame.at_task _ _)
  · exact (Tame.postTimer s _ .stop).trans (Tame.at_task _ _)
  · exact (Tame.postTimer s _ .delete).trans (Tame.at_task _ _)
  · exact (Tame.clearTimer s _).trans (Tame.at_task _ _)
  · exact (Tame.remove s _).trans (Tame.at_task _ _)

theorem Tame.command (s : TimerState) (k : ℕ) (c : TimerCommand) : Tame s (s.command k c) := by
  unfold TimerState.command
  split
  · split
    · exact Tame.refl s
    · exact Tame.postTimer s k c
  · exact Tame.refl s

theorem Tame.destruct (s : TimerState) (k : ℕ) : Tame s (s.destruct k) := by
  unfold TimerState.destruct
  split
  · exact Tame.setFlag s k true
  · exact Tame.refl s

theorem Tame.reclaim (s : TimerState) (k : ℕ) : Tame s (s.reclaim k) := by
  unfold TimerState.reclaim
  split
  · split
    · split <;> exact Tame.at_task s _
    · exact Tame.refl s
  · exact Tame.refl s

theorem Tame.expire (s : TimerState) (a : ℕ) : Tame s (s.expire a) := by
  unfold TimerState.expire
  split
  · next t hdaemon ht =>
    split
    · next hactive =>
      refine (Tame.refl s).at_daemon ?_
      rintro b ⟨⟩
      exact .active ht hactive
    · exact Tame.refl s
  · exact Tame.refl s

/-- A statement of the callback that is not the write. -/
theorem Tame.callback {s : TimerState} (h : ∀ a, s.daemon ≠ .marking a) : Tame s s.callback := by
  have hcalled : ∀ a, s.daemon.timer = some a → ∀ p : DaemonAt, p.timer = some a →
      ∀ b, p.timer = some b → CanExpire s b := by
    intro a ha p hp b hb
    cases hp.symm.trans hb
    exact .called ha
  unfold TimerState.callback
  split
  · exact Tame.refl s
  · exact Tame.refl s
  · next a ha =>
    refine (Tame.post (c := .stop) fun h => h.elim).at_daemon (hcalled a ?_ _ rfl)
    rw [ha]
    rfl
  · next a ha =>
    have ha' : s.daemon.timer = some a := by rw [ha]; rfl
    split
    · exact (Tame.refl s).at_daemon fun b hb => nomatch hb
    · split
      · exact (Tame.refl s).at_daemon fun b hb => nomatch hb
      · split <;> exact (Tame.refl s).at_daemon (hcalled a ha' _ rfl)
  · next a ha => exact absurd ha (h a)
  · exact (Tame.post (c := .delete) fun h => h.elim).at_daemon fun b hb => nomatch hb

/-! ## Timers and the records of their slots -/

/-- Every record that a timeout has marked is the one that the timer was created for. -/
def MarksOwn (s : TimerState) : Prop := ∀ m ∈ s.marks, m.owner = m.marked

/-- A timer that can expire was created for the record in its slot, if there is one, and the
marks so far were right. -/
structure OwnsSlots (s : TimerState) : Prop where
  owns : ∀ a t r, s.timers a = some t → CanExpire s a → s.clientList t.index = some r →
    r.id = t.owner
  marks : MarksOwn s

theorem Tame.ownsSlots {s s' : TimerState} (h : Tame s s') (hs : OwnsSlots s) : OwnsSlots s' where
  owns := by
    intro a t' r' ht' ha hr'
    obtain ⟨t, ht, hid, howner⟩ := h.timers a t' ht'
    have hindex : t'.index = t.index := congrArg (· - httpdTimerIdOffset) hid
    rw [hindex] at hr'
    obtain ⟨r, hr, hrid⟩ := h.clients _ r' hr'
    rw [hrid, howner]
    exact hs.owns a t r ht (h.canExpire a ha) hr
  marks := by
    intro m hm
    rw [h.marks] at hm
    exact hs.marks m hm

/-- A slot is only taken again when no earlier timer of it can expire any more. -/
def ReusesQuietly (s : TimerState) : TimerEvent → Prop
  | .accept k => ∀ a t, s.timers a = some t → t.index = k → ¬ CanExpire s a
  | _ => True

namespace OwnsSlots

variable {s : TimerState}

/-- A new record has no timer yet. -/
theorem accept {k : ℕ} (hs : OwnsSlots s) (hquiet : ReusesQuietly s (.accept k)) :
    OwnsSlots (s.accept k) := by
  unfold TimerState.accept
  split
  · split
    · refine ⟨?_, hs.marks⟩
      intro a t r ht ha hr
      have hold : CanExpire s a := by
        obtain ⟨timer, active⟩ | daemon | ⟨mem, activates⟩ | @⟨j, r₁, slot, timer⟩ := ha
        · exact .active timer active
        · exact .called daemon
        · exact .queued mem activates
        · by_cases hj : j = k
          · obtain rfl : _ = r₁ := by simpa [hj] using slot
            cases timer
          · exact .held (by simpa [hj] using slot) timer
      have hne : t.index ≠ k := fun hindex => hquiet a t ht hindex hold
      exact hs.owns a t r ht hold (by simpa [hne] using hr)
    · exact hs
  · exact hs

/-- A new timer is that of the record in its slot. -/
theorem create (hs : OwnsSlots s) (k : ℕ) (block : Option ℕ) : OwnsSlots (s.create k block) := by
  cases block with
  | none => exact ((Tame.remove s k).trans (Tame.at_task _ _)).ownsSlots hs
  | some a =>
    unfold TimerState.create
    dsimp only
    split
    · next r hfree hslot =>
      refine ⟨?_, hs.marks⟩
      intro b t r' ht hb hr'
      by_cases hba : b = a
      · -- the new timer
        obtain rfl : _ = t := by simpa [hba] using ht
        have hindex : k + httpdTimerIdOffset - httpdTimerIdOffset = k := Nat.add_sub_cancel _ _
        obtain rfl : _ = r' := by simpa [SoftTimer.index, hindex] using hr'
        rfl
      · have ht' : s.timers b = some t := by simpa [hba] using ht
        have hold : CanExpire s b := by
          obtain ⟨timer, active⟩ | daemon | ⟨mem, activates⟩ | @⟨j, r₁, slot, timer⟩ := hb
          · exact .active (by simpa [hba] using timer) active
          · exact .called daemon
          · exact .queued mem activates
          · by_cases hj : j = k
            · obtain rfl : _ = r₁ := by simpa [hj] using slot
              exact absurd (Option.some.inj timer).symm hba
            · exact .held (by simpa [hj] using slot) timer
        by_cases hk : t.index = k
        · obtain rfl : _ = r' := by simpa [hk] using hr'
          exact hs.owns b t r ht' hold (hk ▸ hslot)
        · exact hs.owns b t r' ht' hold (by simpa [hk] using hr')
    · exact hs

/-- The callback of a timer that was created for the record in its slot marks this record. -/
theorem mark {a : ℕ} (hs : OwnsSlots s) (ha : CanExpire s a) : OwnsSlots (s.mark a) := by
  unfold TimerState.mark
  split
  · exact hs
  · next t ht =>
    split
    · exact hs
    · next r hr =>
      have hflag := (Tame.setFlag s t.index true).ownsSlots hs
      constructor
      · intro b t' r' ht' hb hr'
        refine hflag.owns b t' r' ht' ?_ hr'
        obtain ⟨timer, active⟩ | daemon | ⟨mem, activates⟩ | ⟨slot, timer⟩ := hb
        · exact .active timer active
        · exact .called daemon
        · exact .queued mem activates
        · exact .held slot timer
      · intro m hm
        rcases List.mem_append.mp hm with hm | hm
        · exact hs.marks m hm
        · obtain rfl := List.mem_singleton.mp hm
          exact (hs.owns a t r ht ha hr).symm

theorem step {e : TimerEvent} (hs : OwnsSlots s) (hquiet : ReusesQuietly s e) :
    OwnsSlots (timerStep s e) := by
  cases e with
  | accept k => exact hs.accept hquiet
  | next block =>
    by_cases hcreating : ∃ k, s.task = .creating k
    · obtain ⟨k, hk⟩ := hcreating
      show OwnsSlots (s.next block)
      rw [TimerState.next, hk]
      exact hs.create k block
    · exact (Tame.next (fun k hk => hcreating ⟨k, hk⟩) block).ownsSlots hs
  | command k c => exact (Tame.command s k c).ownsSlots hs
  | destruct k => exact (Tame.destruct s k).ownsSlots hs
  | reclaim k => exact (Tame.reclaim s k).ownsSlots hs
  | expire a => exact (Tame.expire s a).ownsSlots hs
  | callback =>
    by_cases hmarking : ∃ a, s.daemon = .marking a
    · obtain ⟨a, ha⟩ := hmarking
      show OwnsSlots s.callback
      rw [TimerState.callback, ha]
      have hmark := hs.mark (a := a) (.called (by rw [ha]; rfl))
      have hleft := (Tame.refl (s.mark a)).at_daemon (p := .waiting) fun b hb => nomatch hb
      exact hleft.ownsSlots hmark
    · exact (Tame.callback fun a ha => hmarking ⟨a, ha⟩).ownsSlots hs
  | receive late => exact (Tame.receive s late).ownsSlots hs

end OwnsSlots

/-- In every run that only reuses a slot when no earlier timer of it can expire any more, a
timeout marks the record that its timer was created for. -/
theorem marksOwn_of_allSteps (es : List TimerEvent)
    (h : AllSteps timerStep ReusesQuietly .start es) : Always timerStep MarksOwn .start es := by
  have hstart : OwnsSlots .start :=
    ⟨fun a t r ht => (Option.some_ne_none t ht.symm).elim, fun m hm => absurd hm List.not_mem_nil⟩
  exact (always_of_allSteps (fun s e hs hquiet => hs.step hquiet) hstart h).imp fun s hs => hs.marks

/-! ## Runs -/

/-- A client gets slot 0 and a timer at an address, which is started. -/
def accepted (a : ℕ) : List TimerEvent :=
  [.accept 0, .next none, .next (some a), .next none, .next none, .command 0 .start]

/-- The record in slot 0 is given back. -/
def givenBack : List TimerEvent := .reclaim 0 :: List.replicate 4 (.next none)

/-- A client whose timer expires, and another one in its place. -/
def secondClient : List TimerEvent :=
  accepted 0 ++ [.receive false, .receive false, .expire 0, .callback, .callback, .callback] ++
    givenBack ++ List.replicate 3 (.receive false) ++ accepted 0

/-- The timeout of the first client marks its record, and the slot is free to be taken again. -/
theorem marksOwn_secondClient : Always timerStep MarksOwn .start secondClient ∧
    (secondClient.foldl timerStep .start).marks = [⟨0, 0⟩] := by
  -- when the slot is taken again the timer of the first client has been deleted
  have hfree : ∀ a, ((secondClient.take 20).foldl timerStep .start).timers a = none := by
    intro a
    cases a <;> rfl
  refine ⟨marksOwn_of_allSteps secondClient ?_, rfl⟩
  simp only [secondClient, accepted, givenBack, List.replicate, List.cons_append, List.nil_append,
    AllSteps, ReusesQuietly, true_and, and_true]
  exact ⟨fun a t ht => (nomatch ht), fun a t ht => (nomatch (hfree a).symm.trans ht)⟩

/-- The timer of a client is stopped and reset until the queue is full. Then the record is given
back, and the slot has a new one before the daemon comes to its commands. -/
def lostDelete : List TimerEvent :=
  accepted 0 ++ [.receive false, .receive false] ++
    (List.replicate 5 [.command 0 .stop, .command 0 .reset]).flatten ++
    .destruct 0 :: givenBack ++ accepted 1 ++
    List.replicate 10 (.receive false) ++ [.expire 0, .callback, .callback, .callback]

/-- The timer of the first client marks the record of the second. -/
theorem not_marksOwn_lostDelete : ¬ Always timerStep MarksOwn .start lostDelete := by
  intro h
  have hmarks : (lostDelete.foldl timerStep .start).marks = [⟨0, 1⟩] := by
    rfl
  have hlast : MarksOwn (lostDelete.foldl timerStep .start) := h.last
  exact absurd (hlast ⟨0, 1⟩ (hmarks ▸ List.mem_cons_self)) (by decide)

end WLink.Httpd
