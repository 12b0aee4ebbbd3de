import Sequencer.Machine.Drive

/-!
# The continuation stack

A machine with more on its stack first does what it would do without, and then hands the
result to the rest.  None of this depends on what the level below answers.
-/

namespace Sequencer.Machine

variable {S : Signature} {E A Q R : Type}

def Stack.append {S : Signature} {E R Q : Type} : {A : Type} →
    Stack S E R A → Stack S E Q R → Stack S E Q A
  | _, .done, later => later
  | _, .andThen next rest, later => .andThen next (rest.append later)
  | _, .fold next recover rest, later => .fold next recover (rest.append later)
  | _, .ensure finalizer rest, later => .ensure finalizer (rest.append later)

def Config.append (config : Config S E R) (later : Stack S E Q R) : Config S E Q :=
  ⟨config.control, config.stack.append later, config.frame, config.state⟩

def Config.resume (out : Evaluated S E A) (stack : Stack S E R A) : Config S E R :=
  ⟨.settled out.settled, stack, out.frame, out.state⟩

def Halts (procedures : Procedures S) (level : Level S) (config : Config S E R)
    (out : Evaluated S E R) : Prop :=
  ∃ fuel, loop procedures level fuel config = .ok out

/-- A step does not touch what lies under the part of the stack in use, until that part is
empty and the result is handed down. -/
theorem step_append (procedures : Procedures S) (level : Level S) (config : Config S E R)
    (later : Stack S E Q R) :
    step procedures level (config.append later) =
      match step procedures level config with
      | .more next => .more (next.append later)
      | .halted out => step procedures level (.resume out later)
      | .stopped stop => .stopped stop := by
  obtain ⟨control, stack, frame, state⟩ := config
  cases control with
  | running sequence =>
      cases sequence with
      | perform step =>
          simp only [Config.append, Machine.step, stepRunning]
          cases level.handle step frame state <;> rfl
      | routine body =>
          simp only [Config.append, Machine.step, stepRunning]
          cases body.run level none frame state <;> rfl
      | _ => rfl
  | settled result =>
      cases stack with
      | done => rfl
      | andThen next rest => cases result <;> rfl
      | fold next recover rest =>
          cases result with
          | ok value => rfl
          | error interrupt => cases interrupt <;> rfl
      | ensure finalizer rest => rfl

variable {procedures : Procedures S} {level : Level S}

private theorem loop_eq_of_step_eq {config config' : Config S E R}
    (h : step procedures level config = step procedures level config') (fuel : Nat) :
    loop procedures level fuel config = loop procedures level fuel config' := by
  cases fuel with
  | zero => rfl
  | succ fuel => simp only [loop, h]

theorem eq_of_loop_resume_done {fuel : Nat} (mid : Evaluated S E R) {out : Evaluated S E R}
    (h : loop procedures level fuel (.resume mid .done) = .ok out) : mid = out := by
  cases fuel with
  | zero => cases h
  | succ fuel => cases h; rfl

theorem eq_ok_of_loop_ofEvaluated {fuel : Nat} {config : Config S E R}
    {evaluated : Except Stop (Evaluated S E R)} {out : Evaluated S E R}
    (hstep : step procedures level config = .ofEvaluated .done evaluated)
    (h : loop procedures level (fuel + 1) config = .ok out) : evaluated = .ok out := by
  simp only [loop, hstep] at h
  cases evaluated with
  | error stop => cases h
  | ok mid => rw [eq_of_loop_resume_done mid h]

theorem loop_append_split {fuel : Nat} (config : Config S E R) {later : Stack S E Q R}
    {out : Evaluated S E Q}
    (h : loop procedures level fuel (config.append later) = .ok out) :
    ∃ mid, ∃ n ≤ fuel, ∃ m < fuel, loop procedures level n config = .ok mid ∧
      loop procedures level (m + 1) (.resume mid later) = .ok out := by
  induction fuel generalizing config with
  | zero => cases h
  | succ fuel ih =>
      have happend := step_append procedures level config later
      cases hstep : step procedures level config with
      | more next =>
          simp only [hstep] at happend
          simp only [loop, happend] at h
          obtain ⟨mid, n, hn, m, hm, first, second⟩ := ih next h
          refine ⟨mid, n + 1, by omega, m, by omega, ?_, second⟩
          simp only [loop, hstep, first]
      | halted mid =>
          simp only [hstep] at happend
          refine ⟨mid, 1, by omega, fuel, by omega, ?_, ?_⟩
          · simp only [loop, hstep]
          · rw [← loop_eq_of_step_eq happend]
            exact h
      | stopped stop =>
          simp only [hstep] at happend
          simp only [loop, happend] at h
          cases h

def Leads (procedures : Procedures S) (level : Level S) (k : Nat) (config next : Config S E R) :
    Prop :=
  ∀ fuel, loop procedures level (fuel + k) config = loop procedures level fuel next

theorem Leads.step {config next : Config S E R}
    (h : step procedures level config = .more next) : Leads procedures level 1 config next := by
  intro fuel
  simp only [loop, h]

theorem Leads.trans {k l : Nat} {config next last : Config S E R}
    (first : Leads procedures level k config next)
    (second : Leads procedures level l next last) :
    Leads procedures level (k + l) config last := by
  intro fuel
  rw [show fuel + (k + l) = fuel + l + k by omega, first, second]

theorem leads_append_of_loop {fuel : Nat} {config : Config S E R} {mid : Evaluated S E R}
    (h : loop procedures level fuel config = .ok mid) (later : Stack S E Q R) :
    ∃ k, Leads procedures level k (config.append later) (.resume mid later) := by
  induction fuel generalizing config with
  | zero => cases h
  | succ fuel ih =>
      have happend := step_append procedures level config later
      cases hstep : step procedures level config with
      | more next =>
          simp only [hstep] at happend
          simp only [loop, hstep] at h
          obtain ⟨k, hk⟩ := ih h
          exact ⟨1 + k, (Leads.step happend).trans hk⟩
      | halted out =>
          simp only [hstep] at happend
          simp only [loop, hstep, Except.ok.injEq] at h
          subst h
          exact ⟨0, loop_eq_of_step_eq happend⟩
      | stopped stop =>
          simp only [loop, hstep] at h
          cases h

theorem halts_append_iff (config : Config S E R) {later : Stack S E Q R}
    {out : Evaluated S E Q} :
    Halts procedures level (config.append later) out ↔
      ∃ mid, Halts procedures level config mid ∧
        Halts procedures level (.resume mid later) out := by
  constructor
  · rintro ⟨fuel, h⟩
    obtain ⟨mid, n, -, m, -, first, second⟩ := loop_append_split config h
    exact ⟨mid, ⟨n, first⟩, ⟨m + 1, second⟩⟩
  · rintro ⟨mid, ⟨n, first⟩, ⟨m, second⟩⟩
    obtain ⟨k, hk⟩ := leads_append_of_loop first later
    exact ⟨m + k, (hk m).trans second⟩

end Sequencer.Machine
