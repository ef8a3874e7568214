import RouteEngine.Regex.Matcher

/-!
Matching with what comes after. The matcher lists the ends of a match in order of preference, and
whatever follows takes the first end that it can go on from. `run r p next` is that choice: the
match of `r` at `p` together with what `next` makes of the place behind it. Read in this way a
concatenation is a composition and an optional part a first choice, so a proof about preferred
matches follows the expression and never looks at a list of hits.
-/

namespace RouteEngine.Regex

/-! ### Places -/

@[simp] theorem Place.advance_zero (p : Place) : p.advance 0 = p := by
  cases p
  rfl

theorem Place.advance_of_rest_nil {p : Place} (h : p.rest = []) (n : Nat) : p.advance n = p := by
  cases n with
  | zero => exact p.advance_zero
  | succ n => simp [Place.advance, h]

theorem Place.advance_succ {p : Place} {c : Char} {r : List Char} (h : p.rest = c :: r) (n : Nat) :
    p.advance (n + 1) = (Place.mk (p.index + 1) (some c) r).advance n := by
  simp [Place.advance, h]

theorem Place.advance_add (p : Place) (m n : Nat) :
    p.advance (m + n) = (p.advance m).advance n := by
  induction m generalizing p with
  | zero => simp
  | succ m ih =>
      cases hrest : p.rest with
      | nil => simp [Place.advance_of_rest_nil hrest]
      | cons c r => rw [Nat.succ_add, Place.advance_succ hrest, Place.advance_succ hrest, ih]

@[simp] theorem Place.rest_advance (p : Place) (n : Nat) :
    (p.advance n).rest = p.rest.drop n := by
  induction n generalizing p with
  | zero => simp
  | succ n ih =>
      cases hrest : p.rest with
      | nil => rw [Place.advance_of_rest_nil hrest, hrest, List.drop_nil]
      | cons c r => rw [Place.advance_succ hrest, ih, List.drop_succ_cons]

theorem Place.index_advance {p : Place} {n : Nat} (h : n ≤ p.rest.length) :
    (p.advance n).index = p.index + n := by
  induction n generalizing p with
  | zero => simp
  | succ n ih =>
      cases hrest : p.rest with
      | nil => simp [hrest] at h
      | cons c r =>
          rw [hrest, List.length_cons] at h
          rw [Place.advance_succ hrest, ih (by simpa using h)]
          simp only
          omega

theorem Place.rest_advance_append {p : Place} {s t : List Char} (h : p.rest = s ++ t) :
    (p.advance s.length).rest = t := by
  rw [p.rest_advance, h, List.drop_left]

theorem Place.index_advance_append {p : Place} {s t : List Char} (h : p.rest = s ++ t) :
    (p.advance s.length).index = p.index + s.length :=
  Place.index_advance (by simp [h])

/-! ### Hits -/

@[simp] theorem Hit.nothing_andThen (h : Hit) : nothing.andThen h = h := by
  simp [Hit.andThen, nothing]

@[simp] theorem Hit.andThen_nothing (h : Hit) : h.andThen nothing = h := by
  simp [Hit.andThen, nothing]

theorem Hit.andThen_assoc (h k l : Hit) :
    (h.andThen k).andThen l = h.andThen (k.andThen l) := by
  simp [Hit.andThen, Nat.add_assoc]

theorem mem_of_mem_dedup {h : Hit} {l : List Hit} (hh : h ∈ dedup l) : h ∈ l := by
  induction l with
  | nil => simp [dedup] at hh
  | cons k l ih =>
      rcases List.mem_cons.1 hh with rfl | hh
      · exact List.mem_cons_self
      · exact List.mem_cons_of_mem _ (ih (List.mem_filter.1 hh).1)

theorem dedup_of_pairwise {l : List Hit} (h : l.Pairwise fun a b => b.length ≠ a.length) :
    dedup l = l := by
  induction l with
  | nil => rfl
  | cons k l ih =>
      obtain ⟨hk, hl⟩ := List.pairwise_cons.1 h
      rw [dedup, ih hl, List.filter_eq_self.2 fun x hx => by simpa using hk x hx]

theorem findSome?_filter_of_none {α β : Type} {f : α → Option β} {keep : α → Bool} {l : List α}
    (h : ∀ x ∈ l, keep x = false → f x = none) : (l.filter keep).findSome? f = l.findSome? f := by
  induction l with
  | nil => rfl
  | cons x l ih =>
      obtain ⟨hdropped, hl⟩ := List.forall_mem_cons.1 h
      have ih := ih hl
      cases hx : keep x with
      | true => rw [List.filter_cons_of_pos hx, List.findSome?_cons, List.findSome?_cons, ih]
      | false =>
          rw [List.filter_cons_of_neg (by simp [hx]), List.findSome?_cons, hdropped hx, ih]

/-- Dropping the later hits of a length loses nothing for a choice that looks at lengths only. -/
theorem findSome?_dedup {β : Type} {f : Hit → Option β}
    (hf : ∀ h k : Hit, h.length = k.length → f h = none → f k = none) (l : List Hit) :
    (dedup l).findSome? f = l.findSome? f := by
  induction l with
  | nil => rfl
  | cons h l ih =>
      rw [dedup, List.findSome?_cons, List.findSome?_cons]
      cases hh : f h with
      | some b => rfl
      | none =>
          have hdrop : ∀ k ∈ dedup l, decide (k.length ≠ h.length) = false → f k = none := by
            intro k _ hk
            have hlength : k.length = h.length := by simpa using hk
            exact hf h k hlength.symm hh
          simp only
          rw [findSome?_filter_of_none hdrop, ih]

theorem findSome?_flatMap {α β γ : Type} (f : β → Option γ) (g : α → List β) (l : List α) :
    (l.flatMap g).findSome? f = l.findSome? fun x => (g x).findSome? f := by
  induction l with
  | nil => rfl
  | cons x l ih =>
      rw [List.flatMap_cons, List.findSome?_append, ih, List.findSome?_cons]
      cases (g x).findSome? f <;> rfl

/-! ### The ends of an expression -/

section Ends

variable {p : Place}

@[simp] theorem ends_empty : ends .empty p = [nothing] :=
  rfl

theorem ends_chars_of_rest_nil {cls : CharClass} (h : p.rest = []) : ends (.chars cls) p = [] := by
  obtain ⟨i, prev, rest⟩ := p
  cases h
  rfl

theorem ends_chars {cls : CharClass} {c : Char} {r : List Char} (h : p.rest = c :: r) :
    ends (.chars cls) p = if cls.holds c then [⟨1, []⟩] else [] := by
  obtain ⟨i, prev, rest⟩ := p
  cases h
  rfl

theorem ends_look (l : Look) :
    ends (.look l) p = if l.holds p.prev p.rest.head? then [nothing] else [] :=
  rfl

theorem ends_concat (a b : Regex) :
    ends (.concat a b) p =
      dedup ((ends a p).flatMap fun h => (ends b (p.advance h.length)).map h.andThen) :=
  rfl

theorem ends_opt_greedy (a : Regex) : ends (.opt true a) p = dedup (ends a p ++ [nothing]) :=
  rfl

theorem ends_plus (greedy : Bool) (a : Regex) :
    ends (.plus greedy a) p = firstRound (fun q => ends a q) greedy p :=
  rfl

theorem ends_group (i : Nat) (a : Regex) :
    ends (.group i a) p =
      (ends a p).map fun h => ⟨h.length, h.spans ++ [⟨i, p.index, p.index + h.length⟩]⟩ :=
  rfl

end Ends

/-! ### Going on from a match -/

/-- The preferred match of `r` at `p` behind which `next` succeeds, with what `next` gives. -/
def run (r : Regex) (p : Place) (next : Place → Option Hit) : Option Hit :=
  (ends r p).findSome? fun h => (next (p.advance h.length)).map h.andThen

variable {p : Place} {next : Place → Option Hit}

theorem findSome?_onward_dedup (l : List Hit) :
    ((dedup l).findSome? fun h => (next (p.advance h.length)).map h.andThen) =
      l.findSome? fun h => (next (p.advance h.length)).map h.andThen := by
  refine findSome?_dedup (fun h k hlength hh => ?_) l
  simp only [Option.map_eq_none_iff] at hh ⊢
  rw [← hlength, hh]

theorem run_eq_some {r : Regex} {x : Hit} (h : run r p next = some x) :
    ∃ hit ∈ ends r p, ∃ y, next (p.advance hit.length) = some y ∧ x = hit.andThen y := by
  obtain ⟨hit, hmem, heq⟩ := List.exists_of_findSome?_eq_some h
  obtain ⟨y, hy, rfl⟩ := Option.map_eq_some_iff.1 heq
  exact ⟨hit, hmem, y, hy, rfl⟩

theorem run_of_ends_eq_nil {r : Regex} (h : ends r p = []) : run r p next = none := by
  rw [run, h, List.findSome?_nil]

theorem run_empty : run .empty p next = next p := by
  have hid : Hit.andThen nothing = id := by
    funext h
    exact h.nothing_andThen
  rw [run, ends_empty, List.findSome?_singleton]
  simp only [nothing] at hid ⊢
  rw [p.advance_zero, hid, Option.map_id_fun, id]

theorem run_concat (a b : Regex) :
    run (.concat a b) p next = run a p fun q => run b q next := by
  rw [run, ends_concat, findSome?_onward_dedup, findSome?_flatMap, run]
  -- What is left is to choose for each end of `a`: the ends of `b` behind it, with `a` in front.
  congr 1
  funext h
  rw [List.findSome?_map, run, List.map_findSome?]
  congr 1
  funext k
  simp only [Function.comp, Option.map_map]
  rw [show (h.andThen k).length = h.length + k.length from rfl, p.advance_add]
  congr 1
  funext l
  exact h.andThen_assoc k l

theorem run_opt_greedy (a : Regex) :
    run (.opt true a) p next = (run a p next).or (next p) := by
  rw [run, ends_opt_greedy, findSome?_onward_dedup, List.findSome?_append, ← run]
  congr 1
  exact run_empty

theorem run_look_textEnd :
    run (.look .textEnd) p next = if p.rest = [] then next p else none := by
  cases hrest : p.rest with
  | nil =>
      have hends : ends (.look .textEnd) p = ends .empty p := by
        simp [ends_look, Look.holds, hrest]
      have hempty : run .empty p next = next p := run_empty
      rw [if_pos rfl, ← hempty, run, run, hends]
  | cons c r =>
      rw [if_neg (by simp), run_of_ends_eq_nil]
      simp [ends_look, Look.holds, hrest]

theorem run_chars_of_holds {cls : CharClass} {c : Char} {r : List Char} (hrest : p.rest = c :: r)
    (hc : cls.holds c = true) :
    run (.chars cls) p next = (next (p.advance 1)).map (Hit.mk 1 []).andThen := by
  rw [run, ends_chars hrest]
  simp [hc]

/-- Whatever goes on, the whole match is the first one listed. -/
theorem head?_ends (r : Regex) (p : Place) :
    (ends r p).head? = run r p fun _ => some nothing := by
  rw [run]
  cases ends r p with
  | nil => rfl
  | cons h l => simp

/-! ### Searching from the start -/

theorem ends_textStart_eq_nil {b : Regex} {i : Nat} {c : Char} {r : List Char} :
    ends (.concat (.look .textStart) b) ⟨i, some c, r⟩ = [] := by
  simp [ends_concat, ends_look, Look.holds, dedup]

theorem searchFrom_textStart {b : Regex} {i : Nat} {c : Char} (r : List Char) :
    searchFrom (.concat (.look .textStart) b) i (some c) r = none := by
  induction r generalizing i c with
  | nil => rw [searchFrom, ends_textStart_eq_nil]; rfl
  | cons d r ih => rw [searchFrom, ends_textStart_eq_nil]; exact ih

/-- An expression that is bound to the start of the text is matched there or nowhere. -/
theorem search_textStart (b : Regex) (text : List Char) :
    search (.concat (.look .textStart) b) text =
      (run b (.start text) fun _ => some nothing).map fun h => ⟨0, h⟩ := by
  have hends : (ends (.concat (.look .textStart) b) (.start text)).head? =
      run b (.start text) fun _ => some nothing := by
    rw [head?_ends, run_concat, run]
    simp only [ends_look, Look.holds, Place.start, Option.isNone_none, if_true,
      List.findSome?_singleton]
    rw [show (nothing : Hit).length = 0 from rfl, Place.advance_zero]
    cases run b ⟨0, none, text⟩ fun _ => some nothing with
    | none => rfl
    | some h => simp
  rw [search, ← hends]
  cases text with
  | nil => rfl
  | cons c r =>
      rw [searchFrom]
      simp only [Place.start]
      cases hlist : ends (.concat (.look .textStart) b) ⟨0, none, c :: r⟩ with
      | nil => exact searchFrom_textStart r
      | cons h l => rfl

end RouteEngine.Regex
