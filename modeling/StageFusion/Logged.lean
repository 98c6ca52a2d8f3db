import StageFusion.Fault

/-! Computations that keep a log and may fail.

A `Logged ε α` is what a computation wrote, in order, and its value or the fault that ended it. What
was written before a fault stays written. Main statements: `Logged` is a lawful monad, and binding
appends logs (`log_bind_of_ok`, `log_bind_of_error`). -/

namespace StageFusion

/-- The log of a computation together with its outcome. -/
structure Logged (ε α : Type) where
  log : List ε
  outcome : Except Fault α

namespace Logged

variable {ε α β γ : Type}

/-- The computation that writes nothing and has a value. -/
protected def pure (a : α) : Logged ε α :=
  ⟨[], .ok a⟩

/-- One computation after another; a fault of the first ends both. -/
protected def bind (x : Logged ε α) (f : α → Logged ε β) : Logged ε β :=
  match x.outcome with
  | .ok a => ⟨x.log ++ (f a).log, (f a).outcome⟩
  | .error e => ⟨x.log, .error e⟩

instance : Monad (Logged ε) where
  pure := Logged.pure
  bind := Logged.bind

def tell (entry : ε) : Logged ε Unit :=
  ⟨[entry], .ok ()⟩

def tellAll (entries : List ε) : Logged ε Unit :=
  ⟨entries, .ok ()⟩

def fail (e : Fault) : Logged ε α :=
  ⟨[], .error e⟩

def ofExcept (x : Except Fault α) : Logged ε α :=
  ⟨[], x⟩

instance : MonadLift (Except Fault) (Logged ε) := ⟨ofExcept⟩

instance : MonadExceptOf Fault (Logged ε) where
  throw := fail
  tryCatch x handle :=
    match x.outcome with
    | .ok a => ⟨x.log, .ok a⟩
    | .error e => ⟨x.log ++ (handle e).log, (handle e).outcome⟩

/-- The entries that a computation writes with each one replaced. -/
def mapLog {δ : Type} (f : ε → δ) (x : Logged ε α) : Logged δ α :=
  ⟨x.log.map f, x.outcome⟩

/-! ## Laws -/

theorem ext {x y : Logged ε α} (hlog : x.log = y.log) (houtcome : x.outcome = y.outcome) :
    x = y := by
  cases x; cases y; simp_all

@[simp]
theorem log_pure (a : α) : (pure a : Logged ε α).log = [] := rfl

@[simp]
theorem outcome_pure (a : α) : (pure a : Logged ε α).outcome = .ok a := rfl

theorem log_bind_of_ok {x : Logged ε α} {a : α} (h : x.outcome = .ok a) (f : α → Logged ε β) :
    (x >>= f).log = x.log ++ (f a).log := by
  simp [Bind.bind, Logged.bind, h]

theorem outcome_bind_of_ok {x : Logged ε α} {a : α} (h : x.outcome = .ok a)
    (f : α → Logged ε β) : (x >>= f).outcome = (f a).outcome := by
  simp [Bind.bind, Logged.bind, h]

theorem log_bind_of_error {x : Logged ε α} {e : Fault} (h : x.outcome = .error e)
    (f : α → Logged ε β) : (x >>= f).log = x.log := by
  simp [Bind.bind, Logged.bind, h]

theorem outcome_bind_of_error {x : Logged ε α} {e : Fault} (h : x.outcome = .error e)
    (f : α → Logged ε β) : (x >>= f).outcome = .error e := by
  simp [Bind.bind, Logged.bind, h]

theorem outcome_bind (x : Logged ε α) (f : α → Logged ε β) :
    (x >>= f).outcome = x.outcome.bind fun a => (f a).outcome := by
  cases h : x.outcome with
  | ok a => exact outcome_bind_of_ok h f
  | error e => exact outcome_bind_of_error h f

/-- A pure step writes nothing. -/
theorem log_bind_pure (x : Logged ε α) (f : α → β) : (x >>= fun a => pure (f a)).log = x.log := by
  cases h : x.outcome with
  | ok a => rw [log_bind_of_ok h, log_pure, List.append_nil]
  | error e => exact log_bind_of_error h _

@[simp]
theorem outcome_tell (entry : ε) : (tell entry).outcome = .ok () := rfl

@[simp]
theorem outcome_tellAll (entries : List ε) : (tellAll entries).outcome = .ok () := rfl

@[simp]
theorem outcome_liftM (x : Except Fault α) : (liftM x : Logged ε α).outcome = x := rfl

@[simp]
theorem mk_ok_bind (log : List ε) (a : α) (f : α → Logged ε β) :
    (⟨log, .ok a⟩ : Logged ε α) >>= f = ⟨log ++ (f a).log, (f a).outcome⟩ := rfl

@[simp]
theorem mk_error_bind (log : List ε) (e : Fault) (f : α → Logged ε β) :
    (⟨log, .error e⟩ : Logged ε α) >>= f = ⟨log, .error e⟩ := rfl

theorem pure_bind_eq (a : α) (f : α → Logged ε β) : (pure a : Logged ε α) >>= f = f a := by
  simp [Bind.bind, Logged.bind, Pure.pure, Logged.pure]

theorem bind_pure_eq (x : Logged ε α) : x >>= pure = x := by
  obtain ⟨log, outcome⟩ := x
  cases outcome <;> simp [Bind.bind, Logged.bind, Pure.pure, Logged.pure]

theorem bind_bind_eq (x : Logged ε α) (f : α → Logged ε β) (g : β → Logged ε γ) :
    x >>= f >>= g = x >>= fun a => f a >>= g := by
  obtain ⟨log, outcome⟩ := x
  cases outcome with
  | error e => rfl
  | ok a =>
    cases h : (f a).outcome <;> simp [Bind.bind, Logged.bind, h]

instance : LawfulMonad (Logged ε) :=
  LawfulMonad.mk' _ (fun x => bind_pure_eq x) (fun a f => pure_bind_eq a f)
    (fun x f g => bind_bind_eq x f g)

end Logged

end StageFusion
