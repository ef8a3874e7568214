import Mathlib.Data.List.Induction
import RouteEngine.Settings.Override

/-!
Settings under nested calls. The settings in effect are kept in one place that every call writes
to, but what a program reads there depends on the calls around the reading alone: each setting is
that of the innermost call that sets it (`Settings.under`). For programs of calls inside and behind
one another, left by a return or by a panic wherever it comes, a run with the place written to is
therefore a run that hands the enclosing calls down and has nothing to put back
(`Program.run_scoped`).
-/

namespace RouteEngine

variable {τ ν α : Type}

/-! ### The settings of enclosing calls -/

/-- What the innermost of the calls that set a field sets it to. The outermost call comes first. -/
def SettingsOverride.innermost (field : SettingsOverride → Option α) (os : List SettingsOverride) :
    Option α :=
  os.reverse.findSome? field

open SettingsOverride in
/-- The settings inside of calls: where none of them sets a field, its default. -/
def Settings.under (os : List SettingsOverride) : Settings :=
  let defaults : Settings := {}
  { defaults with
    tldLength := (innermost (·.tldLength) os).getD defaults.tldLength
    appendFormat := (innermost (·.appendFormat) os).getD defaults.appendFormat
    optimizeGeneration := (innermost (·.optimizeGeneration) os).getD defaults.optimizeGeneration
    cascadeHeader := (innermost (·.cascadeHeader) os).getD defaults.cascadeHeader
    urlDefaults :=
      { defaults.urlDefaults with
        host := (innermost (·.defaultHost) os).or defaults.urlDefaults.host
        protocol := (innermost (·.defaultProtocol) os).or defaults.urlDefaults.protocol
        port := (innermost (·.defaultPort) os).or defaults.urlDefaults.port } }

theorem SettingsOverride.innermost_concat (field : SettingsOverride → Option α)
    (os : List SettingsOverride) (o : SettingsOverride) :
    innermost field (os ++ [o]) = (field o).or (innermost field os) := by
  rw [innermost, List.reverse_concat, List.findSome?_cons, innermost]
  cases field o <;> rfl

/-- One more call inside: its override is laid over the settings around it. -/
theorem Settings.under_concat (os : List SettingsOverride) (o : SettingsOverride) :
    under (os ++ [o]) = o.apply (under os) := by
  simp only [under, SettingsOverride.apply, SettingsOverride.innermost_concat, Option.getD_or,
    Option.or_assoc]

/-- The overrides are applied to the defaults, the outermost first. -/
theorem Settings.under_eq_foldl (os : List SettingsOverride) :
    under os = os.foldl (fun s o => o.apply s) {} := by
  induction os using List.reverseRecOn with
  | nil => rfl
  | append_singleton os o ih =>
      rw [under_concat, ih, List.foldl_append, List.foldl_cons, List.foldl_nil]

/-- A call leaves the settings in effect as it found them, whatever is done inside. -/
theorem SettingsOverride.around_eq (o : SettingsOverride) (body : Action τ α) (a : ActiveSettings)
    (t : τ) :
    o.around body a t =
      let (outcome, _, t) := body ⟨some (o.apply a.current)⟩ t
      (outcome, a, t) :=
  rfl

/-! ### Programs -/

/-- What is done under overrides: it reads the settings in effect, keeps a state of its own, makes
calls under an override and ends wherever it likes, by returning or by a panic. A panic goes through
the calls it happens in, up to where it is caught; what was written to the state stays. -/
inductive Program (τ ν : Type)
  | ends (outcome : Outcome ν)
  | reads (next : Settings → τ → Program τ ν)
  | writes (state : τ) (next : Program τ ν)
  | calls (o : SettingsOverride) (body : Program τ ν) (next : ν → Program τ ν)
  | catches (body : Program τ ν) (next : Outcome ν → Program τ ν)

namespace Program

def run : Program τ ν → Action τ ν
  | ends outcome, a, t => (outcome, a, t)
  | reads next, a, t => (next a.current t).run a t
  | writes t next, a, _ => next.run a t
  | calls o body next, a, t =>
    match o.around body.run a t with
    | (.returned v, a, t) => (next v).run a t
    | (.panicked message, a, t) => (.panicked message, a, t)
  | catches body next, a, t =>
    let (outcome, a, t) := body.run a t
    (next outcome).run a t

/-- What a program does inside of the calls `os`: it reads the settings of these calls and of its
own around the reading, and no other. -/
def within : Program τ ν → List SettingsOverride → τ → Outcome ν × τ
  | ends outcome, _, t => (outcome, t)
  | reads next, os, t => (next (Settings.under os) t).within os t
  | writes t next, os, _ => next.within os t
  | calls o body next, os, t =>
    match body.within (os ++ [o]) t with
    | (.returned v, t) => (next v).within os t
    | (.panicked message, t) => (.panicked message, t)
  | catches body next, os, t =>
    let (outcome, t) := body.within os t
    (next outcome).within os t

variable {os : List SettingsOverride} {a : ActiveSettings}

/-- Inside, a call has laid its override over the settings of the calls around it. -/
theorem current_inside (h : a.current = Settings.under os) (o : SettingsOverride) :
    (⟨some (o.apply a.current)⟩ : ActiveSettings).current = Settings.under (os ++ [o]) := by
  rw [Settings.under_concat, ← h]
  rfl

/-- A run that starts with the settings of the calls around it reads what these calls and its own
say, and ends with the settings it started with. -/
theorem run_eq_within (p : Program τ ν) (h : a.current = Settings.under os) (t : τ) :
    p.run a t = ((p.within os t).1, a, (p.within os t).2) := by
  induction p generalizing os a t with
  | ends outcome => rfl
  | reads next ih =>
      rw [run, within, h]
      exact ih _ _ h t
  | writes t' next ih => exact ih h t'
  | calls o body next ihbody ihnext =>
      rw [run, within, SettingsOverride.around_eq, ihbody (current_inside h o)]
      rcases body.within (os ++ [o]) t with ⟨v | message, t'⟩
      · exact ihnext v h t'
      · rfl
  | catches body next ihbody ihnext =>
      rw [run, within, ihbody h]
      exact ihnext _ h _

/-- A program with more calls around it, the outermost first. -/
theorem foldr_around_run (p : Program τ ν) (inner : List SettingsOverride)
    (h : a.current = Settings.under os) (t : τ) :
    inner.foldr SettingsOverride.around p.run a t =
      ((p.within (os ++ inner) t).1, a, (p.within (os ++ inner) t).2) := by
  induction inner generalizing os a with
  | nil => rw [List.foldr_nil, List.append_nil, run_eq_within p h]
  | cons o inner ih =>
      rw [List.foldr_cons, SettingsOverride.around_eq, ih (current_inside h o), List.append_assoc,
        List.singleton_append]

/-- Inside of any calls a program reads the defaults with the overrides of these calls and of its
own around the reading laid over them, the outermost first. After a call the settings are those
before it, whether it returned or panicked; after all of them none are in effect but the
defaults, as in the beginning. -/
theorem run_scoped (p : Program τ ν) (t : τ) :
    (∀ os : List SettingsOverride, os.foldr SettingsOverride.around p.run {} t =
      ((p.within os t).1, {}, (p.within os t).2)) ∧
    (∀ (o : SettingsOverride) (a : ActiveSettings), (o.around p.run a t).2.1 = a) ∧
    ∀ os, Settings.under os = os.foldl (fun s o => o.apply s) {} := by
  have houtside : ({} : ActiveSettings).current = Settings.under [] := rfl
  refine ⟨fun os => foldr_around_run p os houtside t, fun o a => ?_, Settings.under_eq_foldl⟩
  rw [SettingsOverride.around_eq]

-- A panic inside of two calls is caught inside of the outer one.
example :
    let note (next : Program (List UInt64) Unit) : Program (List UInt64) Unit :=
      .reads fun s seen => .writes (seen ++ [s.tldLength]) next
    let inner := calls { tldLength := some 3 } (note (.ends (.panicked "boom")))
      fun _ => note (.ends (.returned ()))
    let outer := calls { tldLength := some 2 }
      (.catches inner fun _ => note (.ends (.returned ()))) fun _ => note (.ends (.returned ()))
    outer.run {} [] = (.returned (), {}, [3, 2, 1]) :=
  rfl

end Program

end RouteEngine
