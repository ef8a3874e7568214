import Mathlib.Data.List.Forall2
import Mathlib.Data.List.Nodup
import RouteEngine.Proofs.Table.Drawing

/-!
The order of a drawn table. Laid out flat, the tree of declarations is a list in which each
declaration stands with the frames around it, and drawing is one run along that list. So the
routes of the table are what the declarations build to, one after another; each knows its place,
no name is given twice, and a table that cannot be drawn fails at the first declaration that
cannot be built or entered.
-/

namespace RouteEngine

open Outcome

variable {σ : Type}

namespace Entries

/-- Every declaration with the frames around it, the outermost first, in order. -/
def inFrames (around : List (ScopeFrame σ)) :
    Entries σ → List (List (ScopeFrame σ) × Declaration σ)
  | done => []
  | route d next => (around, d) :: inFrames around next
  | scope frame inner next => inFrames (around ++ [frame]) inner ++ inFrames around next

end Entries

theorem Scope.nestAll_append (s : Scope σ) (frames : List (ScopeFrame σ)) (frame : ScopeFrame σ) :
    s.nestAll (frames ++ [frame]) = (s.nestAll frames).nest frame := by
  rw [nestAll, nestAll, List.foldl_append]
  rfl

namespace Declaration

/-- What the declaration builds to inside its frames. -/
def BuildsIn (settings : Settings) (e : List (ScopeFrame σ) × Declaration σ)
    (built : Option (Route σ)) : Prop :=
  ∃ place, e.2.build (Scope.root.nestAll e.1) settings place = .ok built

variable {d : Declaration σ} {scope : Scope σ} {settings : Settings} {place : Nat} {r : Route σ}

theorem precedence_of_build (h : d.build scope settings place = .ok (some r)) :
    r.precedence = place := by
  obtain ⟨_, _, _, -, -, -, -, -, -, -, hprecedence, -⟩ :=
    buildPermitted_eq_ok (buildPermitted_of_build h)
  exact hprecedence

theorem isIdentifier_of_qualifiedName {name : String}
    (h : d.qualifiedName scope = .ok (some name)) : Text.isIdentifier name = true := by
  unfold qualifiedName at h
  cases hlocal : d.name with
  | none => simp [hlocal] at h
  | some localName =>
      simp only [hlocal] at h
      generalize (if d.shallow then scope.qualifyShallowName localName
        else scope.qualifyName localName).getD "" = qualified at h
      split at h
      · next hidentifier =>
          cases h
          exact hidentifier
      · cases h

theorem isIdentifier_of_build (h : d.build scope settings place = .ok (some r)) {name : String}
    (hname : r.name = some name) : Text.isIdentifier name = true := by
  obtain ⟨_, _, _, -, hqualified, -⟩ := buildPermitted_eq_ok (buildPermitted_of_build h)
  exact isIdentifier_of_qualifiedName (hname ▸ hqualified)

end Declaration

namespace Table

variable {settings : Settings} {t t' : Table σ} {r : Route σ} {name : String}

/-- Builds a declaration inside its frames and enters its route. -/
def declareIn (settings : Settings) (t : Table σ) (e : List (ScopeFrame σ) × Declaration σ) :
    Except RoutingError (Table σ) :=
  t.declare settings (Scope.root.nestAll e.1) e.2

theorem drawIn_eq_foldlM (settings : Settings) (frames : List (ScopeFrame σ))
    (entries : Entries σ) (t : Table σ) :
    drawIn settings (Scope.root.nestAll frames) entries t =
      (entries.inFrames frames).foldlM (declareIn settings) t := by
  induction entries generalizing frames t with
  | done => rfl
  | route d next ih =>
      rw [drawIn, Entries.inFrames, List.foldlM_cons]
      simp only [ih]
      rfl
  | scope frame inner next ihInner ihNext =>
      rw [drawIn, Entries.inFrames, List.foldlM_append, ← Scope.nestAll_append, ihInner]
      simp only [ihNext]

/-- Drawing a tree is one run along its declarations. -/
theorem draw_eq_foldlM (entries : Entries σ) (settings : Settings) :
    draw entries settings = (entries.inFrames []).foldlM (declareIn settings) (.empty settings) :=
  drawIn_eq_foldlM settings [] entries (.empty settings)

/-! ### Names -/

theorem mem_names : name ∈ t.names ↔ ∃ r ∈ t.routes, r.name = some name :=
  List.mem_filterMap

theorem names_of_add (h : t.add r = .ok t') : t'.names = t.names ++ r.name.toList := by
  rw [names, names, routes_of_add h, List.filterMap_append]
  congr 1

theorem route?_eq_none : t.route? name = none ↔ name ∉ t.names := by
  rw [route?, List.find?_eq_none, mem_names]
  simp

/-- A name that is entered was not there. -/
theorem not_mem_names_of_add (h : t.add r = .ok t') (hname : r.name = some name) :
    name ∉ t.names := by
  rw [← route?_eq_none]
  unfold add at h
  split at h
  · cases h
  · next htaken => simpa [isTaken, hname] using htaken

theorem find?_of_nodup {routes : List (Route σ)}
    (hnames : (routes.filterMap Route.name).Nodup) (hr : r ∈ routes) (hname : r.name = some name) :
    routes.find? (fun r => r.name = some name) = some r := by
  induction routes with
  | nil => cases hr
  | cons r' routes ih =>
      rcases List.mem_cons.1 hr with rfl | hr
      · exact List.find?_cons_of_pos (by simpa using hname)
      · have hmem : name ∈ routes.filterMap Route.name := List.mem_filterMap.2 ⟨r, hr, hname⟩
        cases hname' : r'.name with
        | none =>
            rw [List.filterMap_cons_none hname'] at hnames
            rw [List.find?_cons_of_neg (by simp [hname'])]
            exact ih hnames hr
        | some name' =>
            rw [List.filterMap_cons_some hname'] at hnames
            obtain ⟨hfresh, hnames⟩ := List.nodup_cons.1 hnames
            have hne : name' ≠ name := fun heq => hfresh (heq ▸ hmem)
            rw [List.find?_cons_of_neg (by simpa [hname'] using hne)]
            exact ih hnames hr

/-! ### The invariant -/

/-- Every route knows its place, and names are identifiers that are given once. -/
structure InOrder (t : Table σ) : Prop where
  precedence : ∀ (i : Nat) (h : i < t.routes.length), t.routes[i].precedence = i
  identifiers : ∀ name ∈ t.names, Text.isIdentifier name = true
  distinct : t.names.Nodup

theorem inOrder_empty : InOrder (.empty settings : Table σ) where
  precedence i h := absurd h (Nat.not_lt_zero i)
  identifiers name h := by cases h
  distinct := List.nodup_nil

theorem InOrder.add (ht : t.InOrder) (h : t.add r = .ok t') (hprecedence : r.precedence = t.size)
    (hidentifier : ∀ name, r.name = some name → Text.isIdentifier name = true) : t'.InOrder where
  precedence i hi := by
    have hroutes := routes_of_add h
    simp only [hroutes, List.length_append, List.length_singleton] at hi ⊢
    rcases Nat.lt_or_eq_of_le (Nat.le_of_lt_succ hi) with hold | rfl
    · rw [List.getElem_append_left hold]
      exact ht.precedence i hold
    · rw [List.getElem_append_right (Nat.le_refl _)]
      simpa [size] using hprecedence
  identifiers name hname := by
    rw [names_of_add h] at hname
    rcases List.mem_append.1 hname with hname | hname
    · exact ht.identifiers name hname
    · exact hidentifier name (Option.mem_toList.1 hname)
  distinct := by
    rw [names_of_add h]
    cases hname : r.name with
    | none => simpa using ht.distinct
    | some name =>
        refine List.nodup_append.2 ⟨ht.distinct, List.nodup_singleton name, ?_⟩
        rintro x hx y hy rfl
        rw [List.mem_singleton.1 hy] at hx
        exact not_mem_names_of_add h hname hx

theorem declare_eq_ok {scope : Scope σ} {d : Declaration σ}
    (h : t.declare settings scope d = .ok t') :
    d.build scope settings t.size = .ok none ∧ t' = t ∨
      ∃ r, d.build scope settings t.size = .ok (some r) ∧ t.add r = .ok t' := by
  obtain ⟨built, hbuilt, h⟩ := bind_eq_ok.1 h
  cases built with
  | none =>
      obtain rfl := pure_eq_ok.1 h
      exact .inl ⟨hbuilt, rfl⟩
  | some r => exact .inr ⟨r, hbuilt, mapError_eq_ok.1 h⟩

/-- A declaration fails in one of two ways. -/
theorem declare_eq_error {scope : Scope σ} {d : Declaration σ} {e : RoutingError}
    (h : t.declare settings scope d = .error e) :
    d.build scope settings t.size = .error e ∨
      ∃ r fault, d.build scope settings t.size = .ok (some r) ∧ t.add r = .error fault ∧
        e = .declaration fault := by
  rcases bind_eq_error.1 h with h | ⟨built, hbuilt, h⟩
  · exact .inl h
  · cases built with
    | none => cases h
    | some r =>
        obtain ⟨fault, hfault, rfl⟩ := mapError_eq_error.1 h
        exact .inr ⟨r, fault, hbuilt, hfault, rfl⟩

/-- One declaration, entered or passed over, leaves the table in order. -/
theorem InOrder.declareIn {e : List (ScopeFrame σ) × Declaration σ} (ht : t.InOrder)
    (h : t.declareIn settings e = .ok t') : t'.InOrder := by
  rcases declare_eq_ok h with ⟨-, rfl⟩ | ⟨r, hbuild, hadd⟩
  · exact ht
  · exact ht.add hadd (Declaration.precedence_of_build hbuild) fun name hname =>
      Declaration.isIdentifier_of_build hbuild hname

theorem InOrder.route?_eq_some (ht : t.InOrder) {i : Nat} (hi : i < t.routes.length) :
    t.route? name = some t.routes[i] ↔ t.routes[i].name = some name := by
  constructor
  · intro h
    simpa using List.find?_some h
  · exact find?_of_nodup ht.distinct (List.getElem_mem hi)

/-- The routes of a run are what its declarations build to, behind those that were there. -/
theorem exists_built_of_foldlM {declared : List (List (ScopeFrame σ) × Declaration σ)}
    (h : declared.foldlM (declareIn settings) t = .ok t') :
    ∃ built, List.Forall₂ (Declaration.BuildsIn settings) declared built ∧
      t'.routes = t.routes ++ built.filterMap id := by
  induction declared generalizing t with
  | nil =>
      obtain rfl := pure_eq_ok.1 h
      exact ⟨[], .nil, (List.append_nil _).symm⟩
  | cons e declared ih =>
      rw [List.foldlM_cons] at h
      obtain ⟨t₁, hdeclare, h⟩ := bind_eq_ok.1 h
      obtain ⟨built, hbuilt, hroutes⟩ := ih h
      rcases declare_eq_ok hdeclare with ⟨hnone, rfl⟩ | ⟨r, hsome, hadd⟩
      · exact ⟨none :: built, .cons ⟨_, hnone⟩ hbuilt, hroutes⟩
      · refine ⟨some r :: built, .cons ⟨_, hsome⟩ hbuilt, ?_⟩
        rw [hroutes, routes_of_add hadd, List.append_assoc]
        rfl

theorem inOrder_of_draw {entries : Entries σ} (h : draw entries settings = .ok t) : t.InOrder := by
  rw [draw_eq_foldlM] at h
  exact foldlM_invariant (fun _ _ _ ht h => InOrder.declareIn ht h) h inOrder_empty

/-- A route stands behind as many as its precedence says. -/
theorem InOrder.length_eq {before after : List (Route σ)} (ht : t.InOrder)
    (h : t.routes = before ++ r :: after) : before.length = r.precedence := by
  have hlength : before.length < t.routes.length := by
    rw [h, List.length_append, List.length_cons]
    omega
  have hprecedence := ht.precedence before.length hlength
  simp only [h, List.getElem_append_right (Nat.le_refl _), Nat.sub_self,
    List.getElem_cons_zero] at hprecedence
  exact hprecedence.symm

/-! ### Drawing as a whole -/

/-- A table that is drawn has the routes that the declarations of the tree build to, one after
another, each in the scope of the frames around it; each route knows its place, and names are
identifiers that are given once, so that a name leads to the route that has it. Otherwise there is
a first declaration that cannot be built or entered, and the error is its own. -/
theorem draw_in_order (entries : Entries σ) (settings : Settings) :
    match draw entries settings with
    | .ok t =>
      (∃ built, List.Forall₂ (Declaration.BuildsIn settings) (entries.inFrames []) built ∧
        t.routes = built.filterMap id) ∧
      (∀ (i : Nat) (h : i < t.routes.length), t.routes[i].precedence = i) ∧
      (∀ name ∈ t.names, Text.isIdentifier name = true) ∧ t.names.Nodup ∧
      ∀ (name : String) (i : Nat) (h : i < t.routes.length),
        t.route? name = some t.routes[i] ↔ t.routes[i].name = some name
    | .error e =>
      ∃ before frames d after t, entries.inFrames [] = before ++ (frames, d) :: after ∧
        before.foldlM (declareIn settings) (.empty settings) = .ok t ∧
        (d.build (Scope.root.nestAll frames) settings t.size = .error e ∨
          ∃ r fault, d.build (Scope.root.nestAll frames) settings t.size = .ok (some r) ∧
            t.add r = .error fault ∧ e = .declaration fault) := by
  have hrun := draw_eq_foldlM entries settings
  cases hdraw : draw entries settings with
  | ok t =>
      rw [hdraw] at hrun
      obtain ⟨built, hbuilt, hroutes⟩ := exists_built_of_foldlM hrun.symm
      have horder : t.InOrder :=
        foldlM_invariant (fun _ _ _ ht h => InOrder.declareIn ht h) hrun.symm inOrder_empty
      exact ⟨⟨built, hbuilt, hroutes⟩, horder.precedence, horder.identifiers, horder.distinct,
        fun name i hi => horder.route?_eq_some hi⟩
  | error e =>
      rw [hdraw] at hrun
      obtain ⟨before, ⟨frames, d⟩, after, t, hsplit, hbefore, hfail⟩ :=
        foldlM_eq_error hrun.symm
      exact ⟨before, frames, d, after, t, hsplit, hbefore, declare_eq_error hfail⟩

end Table

end RouteEngine
