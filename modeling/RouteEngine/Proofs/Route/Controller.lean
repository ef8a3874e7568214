import RouteEngine.Proofs.Route.Nesting
import RouteEngine.Proofs.Route.Resolution
import RouteEngine.Proofs.Table.Drawn

/-!
The names of fixed controllers. A controller that a declaration asks for is checked by itself, and
the modules of its frames, which nothing checks, are put in front afterwards; a controller of the
defaults is not checked at all. So the controller of a route is a proper name just when the modules
let it stay one, or when the default is one (`controllers_named`), and there are routes whose
controller is none (`misnames_of_module_and_default`).
-/

namespace RouteEngine

open Outcome

variable {σ : Type}

namespace Declaration

/-- Lower-case letters, digits, underscores and slashes. -/
def isControllerText (cs : List Char) : Bool := cs.all fun c => isControllerChar c || c = '/'

theorem isControllerName_iff {name : List Char} :
    isControllerName name = true ↔
      name ≠ [] ∧ name.head? ≠ some '/' ∧ isControllerText name = true := by
  cases name with
  | nil => simp [isControllerName]
  | cons c r =>
      have hslash : isControllerChar '/' = false := by decide
      by_cases hc : c = '/'
      · simp [isControllerName, hc, hslash]
      · simp [isControllerName, isControllerText, hc]

theorem ne_empty_of_isControllerName {name : String} (h : isControllerName name.toList = true) :
    name ≠ "" := by
  rintro rfl
  exact absurd h (by decide)

/-! ### Modules in front of a name -/

/-- The modules around a declaration, the outermost first. -/
def modulesIn (frames : List (ScopeFrame σ)) : List String :=
  Scope.nonEmptyParts (frames.map (·.module))

theorem ne_empty_of_mem_modulesIn {frames : List (ScopeFrame σ)} {m : String}
    (h : m ∈ modulesIn frames) : m ≠ "" :=
  of_decide_eq_true (List.mem_filter.1 h).2

theorem qualifyController_nestAll (frames : List (ScopeFrame σ)) {name : String}
    (hname : name ≠ "") :
    (Scope.root.nestAll frames).qualifyController name =
      "/".intercalate (modulesIn frames ++ [name]) := by
  have hmodule : (Scope.root.nestAll frames).module = Scope.joined "/" (modulesIn frames) := by
    rw [Scope.nestAll_eq_foldl Scope.module (·.module) (Scope.joinWith "/") fun _ _ => rfl]
    exact Scope.foldl_joinWith "/" _
  have hpart : Scope.nonEmptyParts [some name] = [name] := by simp [Scope.nonEmptyParts, hname]
  rw [Scope.qualifyController, hmodule,
    Scope.joinWith_joined "/" (fun m hm => ne_empty_of_mem_modulesIn hm), hpart, Scope.joined,
    if_neg (by simp)]
  rfl

theorem isControllerText_intercalate (parts : List String) :
    isControllerText ("/".intercalate parts).toList =
      parts.all fun part => isControllerText part.toList := by
  induction parts with
  | nil => simp [isControllerText]
  | cons part parts ih =>
      cases parts with
      | nil => simp
      | cons other parts =>
          rw [String.intercalate_cons_cons, String.toList_append, String.toList_append,
            isControllerText, List.all_append, List.all_append, ← isControllerText,
            ← isControllerText, ← isControllerText, ih, List.all_cons]
          simp [isControllerText]

theorem head?_intercalate {part : String} (hpart : part ≠ "") (parts : List String) :
    ("/".intercalate (part :: parts)).toList.head? = part.toList.head? := by
  cases parts with
  | nil => rw [String.intercalate_singleton]
  | cons other parts =>
      have hne : part.toList ≠ [] := by simpa using hpart
      rw [String.intercalate_cons_cons, String.toList_append, String.toList_append,
        List.append_assoc, List.head?_append_of_ne_nil _ hne]

/-- The modules have nothing in them that a controller name may not have, and the first of them
does not begin with a slash. -/
structure FitModules (modules : List String) : Prop where
  text : ∀ m ∈ modules, isControllerText m.toList = true
  first : ∀ m ∈ modules.head?, m.toList.head? ≠ some '/'

/-- What a name is behind modules depends on them alone. -/
theorem isControllerName_qualified {modules : List String} (hmodules : ∀ m ∈ modules, m ≠ "")
    {name : String} (hname : isControllerName name.toList = true) :
    isControllerName ("/".intercalate (modules ++ [name])).toList = true ↔
      FitModules modules := by
  obtain ⟨hnonempty, hfirst, htext⟩ := isControllerName_iff.1 hname
  have hall : isControllerText ("/".intercalate (modules ++ [name])).toList = true ↔
      ∀ m ∈ modules, isControllerText m.toList = true := by
    rw [isControllerText_intercalate, List.all_append, List.all_cons, htext]
    simp
  rw [isControllerName_iff, hall]
  cases modules with
  | nil =>
      rw [List.nil_append, String.intercalate_singleton]
      exact ⟨fun _ => ⟨by simp, by simp⟩, fun h => ⟨hnonempty, hfirst, h.text⟩⟩
  | cons m modules =>
      have hm : m ≠ "" := hmodules m List.mem_cons_self
      have hhead := head?_intercalate hm (modules ++ [name])
      rw [List.cons_append, hhead]
      constructor
      · rintro ⟨-, hslash, htext⟩
        exact ⟨htext, by simpa using hslash⟩
      · intro hfit
        refine ⟨fun hnil => ?_, hfit.first m rfl, hfit.text⟩
        have hnone : m.toList.head? = none := by
          rw [← hhead, hnil]
          rfl
        exact hm (by simpa using hnone)

/-! ### Controllers of routes -/

variable {d : Declaration σ} {frames : List (ScopeFrame σ)} {settings : Settings} {place : Nat}
  {built : Option (Route σ)}

/-- The controller that a declaration asks for. -/
def askedController (d : Declaration σ) : Option String := d.targetParts.1

/-- The controller among the defaults, those of the declaration before those of its frames. -/
def defaultController (d : Declaration σ) (frames : List (ScopeFrame σ)) : Option String :=
  (d.defaults.get? "controller").or (innermost (·.defaults.get? "controller") frames)

/-- Where the fixed controller of a route comes from, and when it is a proper name. -/
structure NamesController (e : List (ScopeFrame σ) × Declaration σ) (built : Option (Route σ)) :
    Prop where
  asked : ∀ r c a k, built = some r → r.endpoint = .action c a → e.2.askedController = some k →
    isControllerName k.toList = true ∧ c = "/".intercalate (modulesIn e.1 ++ [k]) ∧
      (isControllerName c.toList = true ↔ FitModules (modulesIn e.1))
  default : ∀ r c a, built = some r → r.endpoint = .action c a → e.2.askedController = none →
    e.2.defaultController e.1 = some c

theorem namesController_of_build
    (h : d.build (Scope.root.nestAll frames) settings place = .ok built) :
    NamesController (frames, d) built := by
  have hresolved : ∀ r c a, built = some r → r.endpoint = .action c a →
      (∃ k, d.askedController = some k ∧ isControllerName k.toList = true ∧
        c = (Scope.root.nestAll frames).qualifyController k) ∨
      d.askedController = none ∧ d.defaultController frames = some c := by
    rintro r c a rfl hendpoint
    obtain ⟨names, resolved, -, -, -, hresolved, -, -, -, -, -, -, -, heq, -⟩ :=
      buildPermitted_eq_ok (buildPermitted_of_build h)
    have hfixes := fixes_of_resolveEndpoint hresolved (heq ▸ hendpoint)
    refine (controller_of_resolveController hfixes.controller).imp_right ?_
    rintro ⟨hnone, hdefault⟩
    rw [Dict.get?_override, Scope.get?_defaults_nestAll] at hdefault
    exact ⟨hnone, hdefault⟩
  constructor
  · intro r c a k hbuilt hendpoint hasked
    obtain ⟨k', hk', hname, hc⟩ | ⟨hnone, -⟩ := hresolved r c a hbuilt hendpoint
    · obtain rfl := Option.some.inj (hasked.symm.trans hk')
      rw [qualifyController_nestAll frames (ne_empty_of_isControllerName hname)] at hc
      subst hc
      exact ⟨hname, rfl,
        isControllerName_qualified (fun m hm => ne_empty_of_mem_modulesIn hm) hname⟩
    · rw [hasked] at hnone
      cases hnone
  · intro r c a hbuilt hendpoint hasked
    obtain ⟨k, hk, -⟩ | ⟨-, hdefault⟩ := hresolved r c a hbuilt hendpoint
    · rw [hasked] at hk
      cases hk
    · exact hdefault

/-- The routes of a drawn table are what the declarations build to inside their frames. Where one
has a fixed controller and its declaration asks for one, what it asks for is a proper name, and the
controller is that name behind the modules of the frames, which is a proper name exactly when the
modules are fit for one. Where its declaration asks for none, the controller is the default in
force there, whatever that is. -/
theorem controllers_named {entries : Entries σ} {t : Table σ}
    (h : Table.draw entries settings = .ok t) :
    ∃ built,
      List.Forall₂ (fun e b => BuildsIn settings e b ∧ NamesController e b)
        (entries.inFrames []) built ∧
      t.routes = built.filterMap id := by
  rw [Table.draw_eq_foldlM] at h
  obtain ⟨built, hbuilt, hroutes⟩ := Table.exists_built_of_foldlM h
  refine ⟨built, hbuilt.imp ?_, hroutes⟩
  intro e b hb
  obtain ⟨place, hplace⟩ := hb
  exact ⟨⟨place, hplace⟩, namesController_of_build hplace⟩

/-- The controllers that the routes of a table fix. -/
def fixedControllers (t : Table σ) : List String :=
  t.routes.filterMap fun r =>
    match r.endpoint with
    | .action c _ => some c
    | _ => none

theorem mem_fixedControllers {t : Table σ} {c : String} :
    c ∈ fixedControllers t ↔ ∃ r ∈ t.routes, ∃ a, r.endpoint = .action c a := by
  rw [fixedControllers, List.mem_filterMap]
  refine exists_congr fun r => and_congr_right fun _ => ?_
  cases r.endpoint <;> simp

/-- Posts as administrators see them, in modules of two frames. -/
def adminPosts : Entries Unit :=
  .scope { module := some "admin" }
    (.scope { module := some "v1/blog" }
      (.route { path := "/posts", target := some "posts#index" } .done) .done) .done

theorem controllers_named_adminPosts :
    ∃ t r a, Table.draw adminPosts {} = .ok t ∧ r ∈ t.routes ∧
      r.endpoint = .action "admin/v1/blog/posts" a ∧
      isControllerName "admin/v1/blog/posts".toList = true := by
  have hdrawn : ((Table.draw adminPosts {}).toOption.any fun t =>
      decide ("admin/v1/blog/posts" ∈ fixedControllers t)) = true := by
    decide +kernel
  obtain ⟨t, ht, hdrawn⟩ := exists_ok_of_any hdrawn
  obtain ⟨r, hr, a, hendpoint⟩ := mem_fixedControllers.1 (of_decide_eq_true hdrawn)
  obtain ⟨built, hbuilt, hroutes⟩ := controllers_named ht
  cases hbuilt with
  | @cons e b _ _ hb hnil =>
      cases hnil
      obtain rfl : b = some r := by simpa [hroutes, eq_comm] using hr
      obtain ⟨-, -, hname⟩ := hb.2.asked r _ a "posts" rfl hendpoint (by decide)
      exact ⟨t, r, a, ht, hr, hendpoint, hname.2 ⟨by decide, by decide⟩⟩

/-- Posts in a module whose name has a capital, and pages whose controller is a default. -/
def misnamed : Entries Unit :=
  .scope { module := some "Admin" }
    (.route { path := "/posts", target := some "posts#index" } .done)
    (.route { path := "/pages", action := some "index"
              defaults := .ofList [("controller", "Pages")] } .done)

/-- A module and a default bring a capital into the controller of a route. -/
theorem misnames_of_module_and_default :
    ∃ t : Table Unit, Table.draw misnamed {} = .ok t ∧
      fixedControllers t = ["Admin/posts", "Pages"] ∧
      ∀ c ∈ fixedControllers t, isControllerName c.toList = false := by
  have hdrawn : ((Table.draw misnamed {}).toOption.any fun t =>
      decide (fixedControllers t = ["Admin/posts", "Pages"])) = true := by
    decide +kernel
  obtain ⟨t, ht, hdrawn⟩ := exists_ok_of_any hdrawn
  have hfixed := of_decide_eq_true hdrawn
  refine ⟨t, ht, hfixed, ?_⟩
  rw [hfixed]
  decide

end Declaration

end RouteEngine
