import WLink.Lib.Port

/-!
# A call by itself

`solo` runs the program of a call while no other call uses its peripheral: the mutex is free, each
operation is started, and `answers` says of each wait whether the operation completes in time. A run
gives the operations in their order and the result. `Alone` says that the call returns, and its
rules follow the commands.
-/

namespace WLink.Lib

section

variable {Chan Slot Req Res : Type}

/-- Where a call by itself is: the register, the waits so far, and the next command. -/
structure Place (Req : Type) where
  cfg : Req
  waits : ℕ
  pc : ℕ

/-- The place after a command. -/
def Command.after (answers : ℕ → Bool) (p : Place Req) : Command Chan Slot Req Res → Place Req
  | .config req => { p with cfg := req, pc := p.pc + 1 }
  | .wait _ _ ready expired =>
    { p with waits := p.waits + 1, pc := if answers p.waits = true then ready else expired }
  | _ => { p with pc := p.pc + 1 }

/-- The operations that a command starts. -/
def Command.starts (cfg : Req) : Command Chan Slot Req Res → List Req
  | .start _ req _ => [req.getD cfg]
  | _ => []

/-- The operations and the result of a call, within a number of commands. -/
def solo (program : ℕ → Command Chan Slot Req Res) (answers : ℕ → Bool) :
    ℕ → Place Req → Option (List Req × Res)
  | 0, _ => none
  | fuel + 1, p =>
    match program p.pc with
    | .ret result => some ([], result)
    | command =>
      (solo program answers fuel (command.after answers p)).map
        fun x => (command.starts p.cfg ++ x.1, x.2)

/-- The call returns, and this is what it does until then. -/
def Alone (program : ℕ → Command Chan Slot Req Res) (answers : ℕ → Bool) (p : Place Req)
    (ops : List Req) (result : Res) : Prop :=
  ∃ fuel, solo program answers fuel p = some (ops, result)

end

section

variable {Chan Slot Req Res : Type} {program : ℕ → Command Chan Slot Req Res} {answers : ℕ → Bool}
variable {cfg : Req} {w pc : ℕ} {ops : List Req} {result : Res}

theorem solo_ret {p : Place Req} {r : Res} (h : program p.pc = .ret r) (fuel : ℕ) :
    solo program answers (fuel + 1) p = some ([], r) := by
  rw [solo, h]

theorem solo_step {p : Place Req} (h : ∀ r, program p.pc ≠ .ret r) (fuel : ℕ) :
    solo program answers (fuel + 1) p =
      (solo program answers fuel ((program p.pc).after answers p)).map
        fun x => ((program p.pc).starts p.cfg ++ x.1, x.2) := by
  rw [solo]
  cases hprogram : program p.pc with
  | ret r => exact absurd hprogram (h r)
  | _ => rfl

/-- A call does one thing only, whatever the bounds are. -/
theorem solo_unique {p : Place Req} {fuel fuel' : ℕ} {x x' : List Req × Res}
    (h : solo program answers fuel p = some x) (h' : solo program answers fuel' p = some x') :
    x = x' := by
  induction fuel generalizing p fuel' x x' with
  | zero => exact absurd h nofun
  | succ fuel ih =>
    cases fuel' with
    | zero => exact absurd h' nofun
    | succ fuel' =>
      -- both runs come to the same command
      by_cases hret : ∃ r, program p.pc = .ret r
      · obtain ⟨r, hr⟩ := hret
        rw [solo_ret hr] at h h'
        exact Option.some.inj (h.symm.trans h')
      · rw [solo_step (not_exists.mp hret), Option.map_eq_some_iff] at h h'
        obtain ⟨y, hy, rfl⟩ := h
        obtain ⟨y', hy', rfl⟩ := h'
        rw [ih hy hy']

theorem Alone.unique {p : Place Req} {ops ops' : List Req} {result result' : Res}
    (h : Alone program answers p ops result) (h' : Alone program answers p ops' result') :
    ops = ops' ∧ result = result' := by
  obtain ⟨fuel, hfuel⟩ := h
  obtain ⟨fuel', hfuel'⟩ := h'
  exact Prod.mk.injEq .. ▸ solo_unique hfuel hfuel'

theorem alone_ret {r : Res} (h : program pc = .ret r) :
    Alone program answers ⟨cfg, w, pc⟩ ops result ↔ ops = [] ∧ result = r := by
  constructor
  · rintro ⟨fuel, hfuel⟩
    cases fuel with
    | zero => exact absurd hfuel nofun
    | succ fuel =>
      rw [solo_ret h] at hfuel
      cases hfuel
      exact ⟨rfl, rfl⟩
  · rintro ⟨rfl, rfl⟩
    exact ⟨1, solo_ret h 0⟩

/-- A call that does not return at a command goes on after it. -/
theorem alone_step (h : ∀ r, program pc ≠ .ret r) :
    Alone program answers ⟨cfg, w, pc⟩ ops result ↔
      ∃ ops', ops = (program pc).starts cfg ++ ops' ∧
        Alone program answers ((program pc).after answers ⟨cfg, w, pc⟩) ops' result := by
  constructor
  · rintro ⟨fuel, hfuel⟩
    cases fuel with
    | zero => exact absurd hfuel nofun
    | succ fuel =>
      rw [solo_step h, Option.map_eq_some_iff] at hfuel
      obtain ⟨⟨ops', r⟩, hrest, heq⟩ := hfuel
      cases heq
      exact ⟨ops', rfl, fuel, hrest⟩
  · rintro ⟨ops', rfl, fuel, hfuel⟩
    refine ⟨fuel + 1, ?_⟩
    rw [solo_step h, hfuel]
    rfl

theorem alone_clear {i : Slot} (h : program pc = .clear i) :
    Alone program answers ⟨cfg, w, pc⟩ ops result ↔
      Alone program answers ⟨cfg, w, pc + 1⟩ ops result := by
  rw [alone_step (by rw [h]; nofun), h]
  simp [Command.starts, Command.after]

theorem alone_stop {k : Chan} (h : program pc = .stop k) :
    Alone program answers ⟨cfg, w, pc⟩ ops result ↔
      Alone program answers ⟨cfg, w, pc + 1⟩ ops result := by
  rw [alone_step (by rw [h]; nofun), h]
  simp [Command.starts, Command.after]

theorem alone_start {chans : List Chan} {req : Req} {refused : ℕ}
    (h : program pc = .start chans (some req) refused) :
    Alone program answers ⟨cfg, w, pc⟩ ops result ↔
      ∃ ops', ops = req :: ops' ∧ Alone program answers ⟨cfg, w, pc + 1⟩ ops' result := by
  rw [alone_step (by rw [h]; nofun), h]
  rfl

theorem alone_wait {i : Slot} {expected : Req} {ready expired : ℕ}
    (h : program pc = .wait i expected ready expired) :
    Alone program answers ⟨cfg, w, pc⟩ ops result ↔
      Alone program answers ⟨cfg, w + 1, if answers w = true then ready else expired⟩
        ops result := by
  rw [alone_step (by rw [h]; nofun), h]
  simp [Command.starts, Command.after]

end

end WLink.Lib
