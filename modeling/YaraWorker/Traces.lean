/-
# Traces of fallible computations

A computation that may fail and that appends events to a log.  `Gives x r es` says that `x`
returns `r` and appends exactly `es`, whatever the log holds; the rules below follow the
shape of the computation, and a loop appends the events of its steps up to the first one
that fails (`runEvents`).

* `Gives.bind_ok`, `Gives.bind_error` : one computation after another;
* `Gives.foldlM` : a loop;
* `idRun_foldlM` : a loop without effects.
-/
import YaraWorker.FallibleRuns

namespace Traces

variable {ε τ α β σ : Type}

/-- A fallible computation with a log of events. -/
abbrev Logged (ε τ : Type) := ExceptT ε (StateM (List τ))

/-- Append one event to the log. -/
def emit (t : τ) : StateM (List τ) Unit := modify (fun log => log ++ [t])

/-- `x` returns `r` and appends `es`. -/
def Gives (x : Logged ε τ α) (r : Except ε α) (es : List τ) : Prop :=
  ∀ log, x.run.run log = (r, log ++ es)

/-! ## The rules -/

/-- A result that is there already. -/
theorem Gives.result (r : Except ε α) :
    Gives (ExceptT.mk (pure r) : Logged ε τ α) r [] := by
  intro log
  rw [List.append_nil]
  rfl

/-- A computation that cannot fail. -/
theorem Gives.lift {x : StateM (List τ) α} {a : α} {es : List τ}
    (hx : ∀ log, x.run log = (a, log ++ es)) :
    Gives (ExceptT.lift x : Logged ε τ α) (.ok a) es := by
  intro log
  rw [ExceptT.run_lift, StateT.run_map, hx log]
  rfl

/-- What comes after a success. -/
theorem Gives.bind_ok {x : Logged ε τ α} {f : α → Logged ε τ β} {a : α} {r : Except ε β}
    {es es' : List τ} (hx : Gives x (.ok a) es) (hf : Gives (f a) r es') :
    Gives (x >>= f) r (es ++ es') := by
  intro log
  rw [← List.append_assoc, ← hf (log ++ es), ExceptT.run_bind, StateT.run_bind, hx log]
  rfl

/-- Nothing comes after a failure. -/
theorem Gives.bind_error {x : Logged ε τ α} {e : ε} {es : List τ} (hx : Gives x (.error e) es)
    (f : α → Logged ε τ β) : Gives (x >>= f) (.error e) es := by
  intro log
  rw [ExceptT.run_bind, StateT.run_bind, hx log]
  rfl

/-- What comes after, when it has no events of its own. -/
theorem Gives.bind_silent {x : Logged ε τ α} {f : α → Logged ε τ β} {r : Except ε α}
    {g : α → Except ε β} {es : List τ} (hx : Gives x r es) (hf : ∀ a, Gives (f a) (g a) []) :
    Gives (x >>= f) (r.bind g) es := by
  cases r with
  | error e => exact hx.bind_error f
  | ok a =>
      rw [← List.append_nil es]
      exact hx.bind_ok (hf a)

/-! ## Loops -/

/-- The events of a loop whose step from `s` on `a` has the events `ev s a`. -/
def runEvents (step : σ → α → Except ε σ) (ev : σ → α → List τ) : σ → List α → List τ
  | _, [] => []
  | s, a :: l => ev s a ++ match step s a with
    | .ok s' => runEvents step ev s' l
    | .error _ => []

/-- **The trace of a loop.**  If one step gives its events in every state that satisfies
`Inv`, so does the loop. -/
theorem Gives.foldlM {stepM : σ → α → Logged ε τ σ} {step : σ → α → Except ε σ}
    {ev : σ → α → List τ} (Inv : σ → Prop)
    (hstep : ∀ s a, Inv s → Gives (stepM s a) (step s a) (ev s a))
    (hinv : ∀ s a s', Inv s → step s a = .ok s' → Inv s') (l : List α) {s : σ} (h : Inv s) :
    Gives (l.foldlM stepM s) (l.foldlM step s) (runEvents step ev s l) := by
  induction l generalizing s with
  | nil => exact Gives.result (.ok s)
  | cons a l ih =>
      rw [List.foldlM_cons, List.foldlM_cons, runEvents]
      have hhead := hstep s a h
      cases hs : step s a with
      | error e =>
          rw [hs] at hhead
          rw [List.append_nil]
          exact hhead.bind_error _
      | ok s' =>
          rw [hs] at hhead
          exact hhead.bind_ok (ih (hinv s a s' h hs))

/-- When a step without effects is a fallible function, so is the loop. -/
theorem idRun_foldlM {stepM : σ → α → ExceptT ε Id σ} {step : σ → α → Except ε σ}
    (hstep : ∀ s a, (stepM s a).run.run = step s a) (l : List α) (s : σ) :
    (l.foldlM stepM s).run.run = l.foldlM step s := by
  induction l generalizing s with
  | nil => rfl
  | cons a l ih =>
      rw [List.foldlM_cons, List.foldlM_cons, ExceptT.run_bind, Id.run_bind, hstep]
      cases step s a with
      | error e => rfl
      | ok s' => exact ih s'

end Traces
