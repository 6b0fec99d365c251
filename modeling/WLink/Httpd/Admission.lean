import WLink.Httpd.Def

/-!
# Admission of a connection

`HTTP_Server_Task` puts an accepted socket into the connection pool by a loop that only ends
once a slot has been filled, and takes connections out of the pool in the pass over the
clients that follows. A slot that the loop waits for can therefore not become free while it
waits: `admission_ends_iff` says when the loop is left.

* `getNumOfHttpdClient` -- the number of live clients
* `admitRound`, `admitLoop` -- one round of the loop, and the loop
* `reclaimPass` -- the pass, as far as it takes marked connections out of the pool
-/

namespace WLink.Httpd

/-! ## The pool -/

/-- A slot that `GetNumOfHttpdClient` counts. -/
def isLive : Option Conn → Bool
  | none => false
  | some conn => 0 ≤ conn.socketId

def getNumOfHttpdClient (slots : List (Option Conn)) : ℕ := slots.countP isLive

/-- The connection pool between two rounds of the server: every slot that is taken has an
accepted socket. -/
structure Pool where
  slots : List (Option Conn)
  length_eq : slots.length = httpdMaxClients
  socketId_nonneg : ∀ conn, some conn ∈ slots → 0 ≤ conn.socketId

/-- Every client of a pool is counted, so there is room for one more exactly if a slot is
free. -/
theorem Pool.num_lt_iff (p : Pool) :
    getNumOfHttpdClient p.slots < httpdMaxClients ↔ none ∈ p.slots := by
  have hle : getNumOfHttpdClient p.slots ≤ p.slots.length := List.countP_le_length
  have hiff : getNumOfHttpdClient p.slots = p.slots.length ↔ none ∉ p.slots := by
    unfold getNumOfHttpdClient
    rw [List.countP_eq_length]
    constructor
    · intro h hnone
      exact absurd (h none hnone) (by simp [isLive])
    · intro h x hx
      cases x with
      | none => exact absurd hx h
      | some conn => simpa [isLive] using p.socketId_nonneg conn hx
  rw [← p.length_eq]
  by_cases hnone : none ∈ p.slots
  · have hne := fun h => (hiff.mp h) hnone
    exact ⟨fun _ => hnone, fun _ => Nat.lt_of_le_of_ne hle hne⟩
  · rw [hiff.mpr hnone]
    simp [hnone]

/-! ## The admission loop -/

/-- What the allocations of one attempt come to: the block that `mem_Malloc` returns, with its
old contents, and whether `NeonRTOS_TimerCreate` succeeds. -/
structure Attempt where
  block : Option Conn
  timerCreated : Bool

/-- Both allocations succeed. -/
def Attempt.Succeeds (a : Attempt) : Prop := a.block.isSome ∧ a.timerCreated

/-- The pool, the scan index `j` and `client_index` (`none` for `-1`), and the sockets that have
been closed. -/
structure AdmitState where
  slots : List (Option Conn)
  j : ℕ
  clientIndex : Option ℕ
  closed : List ℤ

/-- The index of the first `NULL` slot among slots that start at index `j`, or the one behind
them. -/
def firstFree : List (Option Conn) → ℕ → ℕ
  | [], j => j
  | none :: _, j => j
  | some _ :: slots, j => firstFree slots (j + 1)

/-- The record of an admitted connection, in a block with old contents. -/
def admitted (sock : ℤ) (old : Conn) : Conn :=
  { httpdRestoreVariables old with
    connectionTimeoutTimer := some ⟨false, httpTimeoutTimerMs⟩
    socketId := sock
    connectionDestructFlag := false
    dataLen := 0
    isLargeData := false
    dataBuff := none }

/-- One round of the loop. The scan goes on from where the last round left `j`. -/
def admitRound (sock : ℤ) (a : Attempt) (s : AdmitState) : AdmitState :=
  if getNumOfHttpdClient s.slots < httpdMaxClients then
    let j := firstFree (s.slots.drop s.j) s.j
    if j < httpdMaxClients then
      match a.block with
      | none => { s with j := j, clientIndex := none }
      | some old =>
        if a.timerCreated then
          { s with
            j := j
            slots := s.slots.set j (some (admitted sock old))
            clientIndex := some j }
        else { s with j := j, slots := s.slots.set j none, clientIndex := none }
    else { s with j := j }
  else s  -- too many clients: sleep

/-- The loop, from round `n` on: `none` if it is still running after `fuel` rounds. -/
def admitLoop (sock : ℤ) (attempts : ℕ → Attempt) : ℕ → ℕ → AdmitState → Option AdmitState
  | 0, _, _ => none
  | fuel + 1, n, s =>
    let s' := admitRound sock (attempts n) s
    if s'.clientIndex.isSome then some s' else admitLoop sock attempts fuel (n + 1) s'

/-- The state in which the loop starts. -/
def admitStart (slots : List (Option Conn)) : AdmitState := ⟨slots, 0, none, []⟩

/-! ## The pass over the clients -/

/-- What the pass does with a marked connection: timer and body are given back, the slot is
`NULL`. -/
def reclaimSlot : Option Conn → Option Conn
  | none => none
  | some conn => if conn.connectionDestructFlag then none else some conn

def reclaimPass (slots : List (Option Conn)) : List (Option Conn) := slots.map reclaimSlot

/-- The sockets that the pass closes. -/
def reclaimClosed (slots : List (Option Conn)) : List ℤ :=
  slots.filterMap fun slot => slot.bind fun conn =>
    if conn.connectionDestructFlag then some conn.socketId else none

/-! ## The scan -/

theorem le_firstFree (slots : List (Option Conn)) (j : ℕ) : j ≤ firstFree slots j := by
  induction slots generalizing j with
  | nil => exact Nat.le_refl j
  | cons x xs ih =>
    cases x with
    | none => exact Nat.le_refl j
    | some conn =>
      have := ih (j + 1)
      unfold firstFree
      omega

/-- The scan stops at a free slot if there is one. -/
theorem getElem?_firstFree {slots : List (Option Conn)} (j : ℕ) (h : none ∈ slots) :
    slots[firstFree slots j - j]? = some none := by
  induction slots generalizing j with
  | nil => exact absurd h List.not_mem_nil
  | cons x xs ih =>
    cases x with
    | none => simp [firstFree]
    | some conn =>
      have hmem : none ∈ xs := by simpa using h
      have hle := le_firstFree xs (j + 1)
      unfold firstFree
      rw [show firstFree xs (j + 1) - j = (firstFree xs (j + 1) - (j + 1)) + 1 by omega,
        List.getElem?_cons_succ]
      exact ih (j + 1) hmem

/-- A scan that starts at a free slot stays there. -/
theorem firstFree_stay {slots : List (Option Conn)} {j : ℕ} (h : slots[j]? = some none) :
    firstFree (slots.drop j) j = j := by
  obtain ⟨hj, hget⟩ := List.getElem?_eq_some_iff.mp h
  rw [List.drop_eq_getElem_cons hj, hget]
  rfl

/-! ## Rounds -/

/-- The loop has not found a place for the socket yet. -/
structure Waiting (p : Pool) (s : AdmitState) : Prop where
  slots_eq : s.slots = p.slots
  clientIndex_eq : s.clientIndex = none

/-- Where a waiting loop stands when there is a free slot. -/
structure Scanning (p : Pool) (s : AdmitState) : Prop extends Waiting p s where
  stop : firstFree (s.slots.drop s.j) s.j = firstFree p.slots 0

theorem waiting_start (p : Pool) : Waiting p (admitStart p.slots) := ⟨rfl, rfl⟩

theorem scanning_start (p : Pool) : Scanning p (admitStart p.slots) := ⟨waiting_start p, rfl⟩

theorem Pool.free_lt {p : Pool} (h : none ∈ p.slots) :
    p.slots[firstFree p.slots 0]? = some none ∧ firstFree p.slots 0 < httpdMaxClients := by
  have hget := getElem?_firstFree 0 h
  refine ⟨hget, ?_⟩
  rw [← p.length_eq]
  exact (List.getElem?_eq_some_iff.mp hget).1

/-- A full pool: the round only sleeps. -/
theorem Waiting.round_full {p : Pool} {s : AdmitState} (h : Waiting p s) (hfull : none ∉ p.slots)
    (sock : ℤ) (a : Attempt) : admitRound sock a s = s := by
  unfold admitRound
  rw [h.slots_eq, if_neg (fun hlt => hfull (p.num_lt_iff.mp hlt))]

/-- A failed attempt leaves the pool alone and the scan at its slot. -/
theorem Scanning.round_fail {p : Pool} {s : AdmitState} (h : Scanning p s)
    (hfree : none ∈ p.slots) (sock : ℤ) {a : Attempt} (ha : ¬ a.Succeeds) :
    Scanning p (admitRound sock a s) := by
  obtain ⟨hget, hlt⟩ := p.free_lt hfree
  have hset : p.slots.set (firstFree p.slots 0) none = p.slots := by
    obtain ⟨hi, heq⟩ := List.getElem?_eq_some_iff.mp hget
    rw [← heq, List.set_getElem_self hi]
  unfold admitRound
  rw [if_pos (by rw [h.slots_eq]; exact p.num_lt_iff.mpr hfree)]
  simp only [h.stop, if_pos hlt]
  cases hb : a.block with
  | none =>
    refine ⟨⟨h.slots_eq, rfl⟩, ?_⟩
    show firstFree (s.slots.drop _) _ = _
    rw [h.slots_eq]
    exact firstFree_stay hget
  | some old =>
    have ht : ¬ a.timerCreated = true := fun ht => ha ⟨by rw [hb]; rfl, ht⟩
    simp only [if_neg ht, h.slots_eq, hset]
    exact ⟨⟨rfl, rfl⟩, firstFree_stay hget⟩

/-- A successful attempt fills the first free slot. -/
theorem Scanning.round_succeed {p : Pool} {s : AdmitState} (h : Scanning p s)
    (hfree : none ∈ p.slots) (sock : ℤ) {a : Attempt} (ha : a.Succeeds) :
    ∃ old, a.block = some old ∧ admitRound sock a s =
      { s with
        j := firstFree p.slots 0
        slots := p.slots.set (firstFree p.slots 0) (some (admitted sock old))
        clientIndex := some (firstFree p.slots 0) } := by
  obtain ⟨hblock, htimer⟩ := ha
  obtain ⟨old, hold⟩ := Option.isSome_iff_exists.mp hblock
  refine ⟨old, hold, ?_⟩
  unfold admitRound
  rw [if_pos (by rw [h.slots_eq]; exact p.num_lt_iff.mpr hfree)]
  simp only [h.stop, hold, htimer, if_true]
  rw [if_pos (p.free_lt hfree).2, h.slots_eq]

/-! ## The loop -/

/-- The loop never leaves a full pool. -/
theorem admitLoop_full {p : Pool} (hfull : none ∉ p.slots) (sock : ℤ) (attempts : ℕ → Attempt)
    (fuel n : ℕ) {s : AdmitState} (h : Waiting p s) :
    admitLoop sock attempts fuel n s = none := by
  induction fuel generalizing n with
  | zero => rfl
  | succ fuel ih =>
    unfold admitLoop
    simp only [h.round_full hfull, h.clientIndex_eq, Option.isSome_none]
    exact ih (n + 1)

/-- The loop goes on as long as attempts fail. -/
theorem admitLoop_fail {p : Pool} (hfree : none ∈ p.slots) (sock : ℤ) {attempts : ℕ → Attempt}
    (hfail : ∀ n, ¬ (attempts n).Succeeds) (fuel n : ℕ) {s : AdmitState} (h : Scanning p s) :
    admitLoop sock attempts fuel n s = none := by
  induction fuel generalizing n s with
  | zero => rfl
  | succ fuel ih =>
    have h' := h.round_fail hfree sock (hfail n)
    unfold admitLoop
    simp only [h'.clientIndex_eq, Option.isSome_none]
    exact ih (n + 1) h'

/-- The round that fills a slot is the last one. -/
theorem admitLoop_done {sock : ℤ} {attempts : ℕ → Attempt} {n i : ℕ} {s : AdmitState}
    (h : (admitRound sock (attempts n) s).clientIndex = some i) :
    admitLoop sock attempts 1 n s = some (admitRound sock (attempts n) s) := by
  unfold admitLoop
  simp [h]

/-- The loop ends with the first attempt that succeeds. -/
theorem admitLoop_succeed {p : Pool} (hfree : none ∈ p.slots) (sock : ℤ)
    {attempts : ℕ → Attempt} (k n : ℕ) {s : AdmitState} (h : Scanning p s)
    (hok : (attempts (n + k)).Succeeds) :
    ∃ fuel s' old, admitLoop sock attempts fuel n s = some s' ∧
      s'.slots = p.slots.set (firstFree p.slots 0) (some (admitted sock old)) ∧
      s'.clientIndex = some (firstFree p.slots 0) := by
  induction k generalizing n s with
  | zero =>
    obtain ⟨old, -, hround⟩ := h.round_succeed hfree sock hok
    have hdone : admitLoop sock attempts 1 n s = some _ :=
      admitLoop_done (congrArg (·.clientIndex) hround)
    exact ⟨1, _, old, hdone, congrArg (·.slots) hround, congrArg (·.clientIndex) hround⟩
  | succ k ih =>
    by_cases hn : (attempts n).Succeeds
    · obtain ⟨old, -, hround⟩ := h.round_succeed hfree sock hn
      have hdone : admitLoop sock attempts 1 n s = some _ :=
        admitLoop_done (congrArg (·.clientIndex) hround)
      exact ⟨1, _, old, hdone, congrArg (·.slots) hround, congrArg (·.clientIndex) hround⟩
    · have h' := h.round_fail hfree sock hn
      obtain ⟨fuel, s', old, hloop, hs'⟩ :=
        ih (n + 1) h' (by rwa [show n + 1 + k = n + (k + 1) by omega])
      refine ⟨fuel + 1, s', old, ?_, hs'⟩
      simp only [admitLoop, h'.clientIndex_eq, Option.isSome_none]
      exact hloop

/-! ## Admission -/

/-- The loop is left with the socket in one slot that was `NULL`, and in no other, or closed,
and the pass that follows reclaims every connection that was marked. -/
def AdmissionEnds (p : Pool) (sock : ℤ) (attempts : ℕ → Attempt) : Prop :=
  ∃ fuel s, admitLoop sock attempts fuel 0 (admitStart p.slots) = some s ∧
    ((∃ i conn, p.slots[i]? = some none ∧ s.slots = p.slots.set i (some conn) ∧
        conn.socketId = sock) ∨ sock ∈ s.closed) ∧
    ∀ (i : ℕ) (conn : Conn), p.slots[i]? = some (some conn) →
      conn.connectionDestructFlag = true → (reclaimPass s.slots)[i]? = some none

/-- Filling a free slot does not keep marked connections from being reclaimed. -/
theorem reclaimPass_set {slots : List (Option Conn)} {i k : ℕ} {conn : Conn}
    (slot : Option Conn) (hi : slots[i]? = some none) (hk : slots[k]? = some (some conn))
    (hmark : conn.connectionDestructFlag = true) :
    (reclaimPass (slots.set i slot))[k]? = some none := by
  have hne : i ≠ k := by
    intro h
    rw [h, hk] at hi
    cases hi
  unfold reclaimPass
  rw [List.getElem?_map, List.getElem?_set_ne hne, hk]
  simp [reclaimSlot, hmark]

/-- Admission ends if and only if the pool has a free slot and some attempt to allocate the
record and its timer succeeds. -/
theorem admission_ends_iff (p : Pool) (sock : ℤ) (attempts : ℕ → Attempt) :
    AdmissionEnds p sock attempts ↔
      (∃ i : ℕ, p.slots[i]? = some none) ∧ ∃ n, (attempts n).Succeeds := by
  rw [← List.mem_iff_getElem?]
  constructor
  · rintro ⟨fuel, s, hloop, -⟩
    have hfree : none ∈ p.slots := by
      by_contra hfull
      rw [admitLoop_full hfull sock attempts fuel 0 (waiting_start p)] at hloop
      cases hloop
    refine ⟨hfree, ?_⟩
    by_contra hfail
    rw [admitLoop_fail hfree sock (not_exists.mp hfail) fuel 0 (scanning_start p)] at hloop
    cases hloop
  · rintro ⟨hfree, n, hn⟩
    obtain ⟨fuel, s, old, hloop, hslots, -⟩ :=
      admitLoop_succeed hfree sock n 0 (scanning_start p) (by rwa [Nat.zero_add])
    have hget := (p.free_lt hfree).1
    refine ⟨fuel, s, hloop, Or.inl ⟨_, _, hget, hslots, rfl⟩, fun k conn hk hmark => ?_⟩
    rw [hslots]
    exact reclaimPass_set _ hget hk hmark

/-- A pool whose twenty connections are all marked for destruction. -/
def markedPool : Pool where
  slots := List.replicate httpdMaxClients (some { Conn.fresh with connectionDestructFlag := true })
  length_eq := rfl
  socketId_nonneg := by
    intro conn h
    obtain ⟨-, rfl⟩ := List.mem_replicate.mp h |>.imp_right Option.some.inj
    exact Int.le_refl 0

/-- A full pool is never left, although the next pass would empty it and memory is there. -/
theorem admission_marked_pool :
    ¬ AdmissionEnds markedPool 21 (fun _ => ⟨some Conn.fresh, true⟩) := by
  rintro ⟨fuel, s, hloop, -⟩
  rw [admitLoop_full (by decide) 21 _ fuel 0 (waiting_start markedPool)] at hloop
  cases hloop

/-! ## Pools stay pools -/

/-- An admitted connection keeps the pool a pool. -/
def Pool.admit (p : Pool) (i : ℕ) (sock : ℤ) (hsock : 0 ≤ sock) (old : Conn) : Pool where
  slots := p.slots.set i (some (admitted sock old))
  length_eq := by rw [List.length_set, p.length_eq]
  socketId_nonneg := by
    intro conn h
    rcases List.mem_or_eq_of_mem_set h with hmem | heq
    · exact p.socketId_nonneg conn hmem
    · cases heq
      exact hsock

/-- What the admission loop leaves is a pool again. -/
theorem admitLoop_pool (p : Pool) {sock : ℤ} (hsock : 0 ≤ sock) (attempts : ℕ → Attempt)
    {n : ℕ} (hfree : none ∈ p.slots) (hn : (attempts n).Succeeds) :
    ∃ fuel s old, admitLoop sock attempts fuel 0 (admitStart p.slots) = some s ∧
      s.slots = ( p.admit (firstFree p.slots 0) sock hsock old).slots := by
  obtain ⟨fuel, s, old, hloop, hslots, -⟩ :=
    admitLoop_succeed hfree sock n 0 (scanning_start p) (by rwa [Nat.zero_add])
  exact ⟨fuel, s, old, hloop, hslots⟩

/-- The pass over the clients keeps the pool a pool. -/
def Pool.reclaim (p : Pool) : Pool where
  slots := reclaimPass p.slots
  length_eq := by
    unfold reclaimPass
    rw [List.length_map, p.length_eq]
  socketId_nonneg := by
    intro conn h
    obtain ⟨slot, hmem, heq⟩ := List.mem_map.mp h
    cases slot with
    | none => cases heq
    | some c =>
      simp only [reclaimSlot] at heq
      split at heq
      · cases heq
      · obtain rfl := Option.some.inj heq
        exact p.socketId_nonneg c hmem

/-- After a pass every slot of a marked connection is free, so the server has room again. -/
theorem Pool.reclaim_room (p : Pool) {conn : Conn} (h : some conn ∈ p.slots)
    (hmark : conn.connectionDestructFlag = true) :
    getNumOfHttpdClient p.reclaim.slots < httpdMaxClients := by
  rw [Pool.num_lt_iff]
  apply List.mem_map.mpr
  exact ⟨some conn, h, by simp [reclaimSlot, hmark]⟩

end WLink.Httpd
