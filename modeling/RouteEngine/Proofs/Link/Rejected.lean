import RouteEngine.Proofs.Link.Missing

/-!
Which values make a path fail. The expressions are held against the values of all names, before
it is known which groups are written, so a value may be refused that the path would not have in
it: a default behind an optional name, or what is given for a group that is left out. Below,
`mem_used_emit` says which names a path puts in, and `withheld_iff` why it puts one in nowhere:
around each of its captures stands a group with an own capture that is not given. So a refused
value is one that the path uses unless it is withheld in this way (`rejected_of_pathOf`).
-/

namespace RouteEngine

open Outcome

variable {σ : Type}

namespace Segments

variable {given : String → Bool} {values : Params} {wanted : String → Bool} {name : String}

/-- Some capture of the name stands outside groups, or in groups that are all written. -/
def Placed (given : String → Bool) (name : String) : Segments → Prop
  | done => False
  | literal _ next => next.Placed given name
  | capture c next => c.name = name ∨ next.Placed given name
  | group inner next =>
    (inner.includable given = true ∧ inner.Placed given name) ∨ next.Placed given name

/-- Each capture of the name stands in a group, perhaps further out, with an own capture that is
not given. -/
def Withheld (given : String → Bool) (name : String) : Segments → Prop
  | done => True
  | literal _ next => next.Withheld given name
  | capture c next => c.name ≠ name ∧ next.Withheld given name
  | group inner next =>
    ((∃ c ∈ inner.directCaptures, given c.name = false) ∨ inner.Withheld given name) ∧
      next.Withheld given name

/-- A tree writes the names that are placed in it, as far as they have values. -/
theorem mem_used_emit {s : Segments} : name ∈ (s.emit values wanted).used ↔
    values.contains name = true ∧ s.Placed (fun n => wanted n && values.contains n) name := by
  induction s with
  | done => simp [emit, Emitted.nothing, Placed]
  | literal text next ih => simpa [emit, Emitted.append, Placed] using ih
  | capture c next ih =>
      have hhere : name ∈ (c.emitted values).used ↔
          values.contains name = true ∧ c.name = name := by
        rw [Capture.emitted, Dict.contains]
        cases hvalue : values.get? c.name with
        | none =>
            have hnot : ¬((values.get? name).isSome = true ∧ c.name = name) := by
              rintro ⟨hname, rfl⟩
              rw [hvalue] at hname
              cases hname
            simpa using hnot
        | some v =>
            simp only [List.mem_singleton]
            constructor
            · rintro rfl
              exact ⟨by rw [hvalue]; rfl, rfl⟩
            · rintro ⟨-, rfl⟩
              rfl
      rw [emit_capture, Emitted.append, List.mem_append, hhere, ih, Placed, and_or_left]
  | group inner next ihInner ihNext =>
      rw [emit, Emitted.append, List.mem_append, ihNext, Placed, and_or_left]
      refine or_congr ?_ Iff.rfl
      split
      · next hwritten => simp [ihInner, hwritten]
      · next hleft => simp [Emitted.nothing, hleft]

/-- Where a name is placed there is a capture outside groups, or a group that is written. -/
theorem hasDirect_or_anyWritable_of_placed {s : Segments} (h : s.Placed given name) :
    s.hasDirect = true ∨ s.anyWritable given = true := by
  induction s with
  | done => exact absurd h id
  | literal _ next ih => exact ih h
  | capture c next ih => exact .inl rfl
  | group inner next _ ih =>
      rcases h with ⟨hwritten, -⟩ | hnext
      · refine .inr ?_
        rw [includable] at hwritten
        rw [anyWritable, hwritten, Bool.true_or]
      · refine (ih hnext).imp id fun hany => ?_
        rw [anyWritable, hany, Bool.or_true]

/-- A group is written when its own captures are given and a name is placed in it. -/
theorem includable_of_placed {inner : Segments}
    (hgiven : ∀ c ∈ inner.directCaptures, given c.name = true) (h : inner.Placed given name) :
    inner.includable given = true := by
  have hall : inner.directCaptures.all (fun c => given c.name) = true :=
    List.all_eq_true.2 hgiven
  rw [includable, isWritable, hall, Bool.true_and]
  rcases hasDirect_or_anyWritable_of_placed h with hdirect | hany
  · rw [hdirect, Bool.true_or, Bool.true_or]
  · rw [hany, Bool.or_true]

/-- A name is withheld exactly where it is not placed. -/
theorem withheld_iff {s : Segments} : s.Withheld given name ↔ ¬ s.Placed given name := by
  induction s with
  | done => simp [Withheld, Placed]
  | literal _ next ih => exact ih
  | capture c next ih => rw [Withheld, Placed, not_or, ih]
  | group inner next ihInner ihNext =>
      have hinner : (∃ c ∈ inner.directCaptures, given c.name = false) ∨
          inner.Withheld given name ↔
            ¬(inner.includable given = true ∧ inner.Placed given name) := by
        rw [ihInner]
        constructor
        · rintro (⟨c, hc, hnot⟩ | hnot) ⟨hwritten, hplaced⟩
          · rw [given_of_includable hwritten c hc] at hnot
            cases hnot
          · exact hnot hplaced
        · intro hnot
          -- A group with all its own captures is left out only when nothing in it can be placed.
          by_cases hgiven : ∀ c ∈ inner.directCaptures, given c.name = true
          · exact .inr fun hplaced => hnot ⟨includable_of_placed hgiven hplaced, hplaced⟩
          · push Not at hgiven
            obtain ⟨c, hc, hlacks⟩ := hgiven
            exact .inl ⟨c, hc, Bool.eq_false_iff.2 hlacks⟩
      rw [Withheld, Placed, not_or, hinner, ihNext]

/-- A required name stands outside groups, so nothing withholds it. -/
theorem not_mem_requiredNames_of_withheld {s : Segments}
    (h : s.Withheld given name) : name ∉ s.requiredNames := by
  induction s with
  | done => simp [requiredNames, directCaptures]
  | literal _ next ih => exact ih h
  | capture c next ih =>
      rw [requiredNames_capture, List.mem_cons, not_or]
      exact ⟨Ne.symm h.1, ih h.2⟩
  | group _ next _ ih => exact ih h.2

end Segments

namespace Route

variable {r : Route σ} {explicit recalled : Params}

/-- The value of the name, if it has one, does not match the expression asked for. -/
def Rejects (r : Route σ) (explicit recalled : Params) (name : String) : Prop :=
  ∃ v ∈ r.valueOf explicit recalled name, ¬ r.pattern.Meets name v

theorem mem_rejectedNames {name : String} :
    name ∈ r.rejectedNames (r.mergedValues explicit recalled) ↔
      name ∈ r.pattern.names ∧ r.Rejects explicit recalled name := by
  rw [rejectedNames, List.mem_filter, get?_mergedValues_eq]
  refine and_congr_right fun _ => ?_
  rw [Rejects]
  cases r.valueOf explicit recalled name with
  | none => simp
  | some v => cases hwhole : r.pattern.requirement? name <;> simp [Pattern.Meets, hwhole]

/-- The value of the name goes into the groups of its captures: the caller gave it, it is not the
default, and it is not empty. -/
def gives (r : Route σ) (explicit recalled : Params) (name : String) : Bool :=
  r.isWanted explicit name && (r.valueOf explicit recalled name).isSome

end Route

namespace Linker

variable {l : Linker σ} {r : Route σ} {explicit : Params}

theorem pathOf_eq_rejected {e : GenerationError} :
    l.pathOf r explicit = .error e ∧ e.kind = .rejectedValues ↔
      r.rejectedNames (r.mergedValues explicit l.recalled) ≠ [] ∧
        e = { r.failure (r.mergedValues explicit l.recalled) .rejectedValues with
          rejected := r.rejectedNames (r.mergedValues explicit l.recalled) } := by
  rw [pathOf]
  by_cases hrejected : r.rejectedNames (r.mergedValues explicit l.recalled) = []
  · simp only [hrejected, List.isEmpty_nil, Bool.not_true, Bool.false_eq_true, if_false, ne_eq,
      not_true_eq_false, false_and, iff_false, not_and]
    intro herror
    -- Behind the check of the expressions only required values can be missed.
    split at herror
    · cases herror
    · cases herror
      simp [Route.failure]
  · simp only [List.isEmpty_eq_false_iff.2 hrejected, Bool.not_false, if_true, ne_eq, hrejected,
      not_false_eq_true, true_and, Except.error.injEq]
    constructor
    · rintro ⟨rfl, -⟩
      rfl
    · rintro rfl
      exact ⟨rfl, rfl⟩

/-- Making a path fails for its values exactly when some name has a value that its expression
rejects, and the error lists the names with such values. Each of them is a name that the path
would have in it, unless it stands in groups only and each of its captures is withheld: some
group around it has an own capture whose value the caller did not give, gave empty or gave as the
default. -/
theorem rejected_of_pathOf (l : Linker σ) (r : Route σ) (explicit : Params) :
    ((∃ e, l.pathOf r explicit = .error e ∧ e.kind = .rejectedValues) ↔
      ∃ n ∈ r.pattern.names, r.Rejects explicit l.recalled n) ∧
    ∀ e, l.pathOf r explicit = .error e → e.kind = .rejectedValues →
      (∀ n, n ∈ e.rejected ↔ n ∈ r.pattern.names ∧ r.Rejects explicit l.recalled n) ∧
      ∀ n ∈ e.rejected,
        n ∈ (r.pattern.segments.emit (r.mergedValues explicit l.recalled)
            (r.isWanted explicit)).used ∨
          n ∉ r.pattern.requiredNames ∧
            r.pattern.segments.Withheld (r.gives explicit l.recalled) n := by
  have hgives : (fun n => r.isWanted explicit n &&
      (r.mergedValues explicit l.recalled).contains n) = r.gives explicit l.recalled := by
    funext n
    rw [Route.gives, Dict.contains, Route.get?_mergedValues_eq]
  refine ⟨⟨?_, ?_⟩, fun e herror hkind => ?_⟩
  · rintro ⟨e, he⟩
    obtain ⟨hne, -⟩ := pathOf_eq_rejected.1 he
    obtain ⟨n, hn⟩ := List.exists_mem_of_ne_nil _ hne
    exact ⟨n, Route.mem_rejectedNames.1 hn⟩
  · rintro ⟨n, hn⟩
    have hmem := Route.mem_rejectedNames.2 hn
    exact ⟨_, pathOf_eq_rejected.2 ⟨List.ne_nil_of_mem hmem, rfl⟩⟩
  · obtain ⟨-, rfl⟩ := pathOf_eq_rejected.1 ⟨herror, hkind⟩
    have hrejected : ∀ n, n ∈ r.rejectedNames (r.mergedValues explicit l.recalled) ↔
        n ∈ r.pattern.names ∧ r.Rejects explicit l.recalled n := fun n => Route.mem_rejectedNames
    refine ⟨hrejected, fun n hn => ?_⟩
    obtain ⟨-, v, hv, -⟩ := (hrejected n).1 hn
    have hvalue : (r.mergedValues explicit l.recalled).contains n = true := by
      rw [Dict.contains, Route.get?_mergedValues_eq, hv]
      rfl
    rw [Segments.mem_used_emit, hgives]
    by_cases hplaced : r.pattern.segments.Placed (r.gives explicit l.recalled) n
    · exact .inl ⟨hvalue, hplaced⟩
    · have hwithheld := Segments.withheld_iff.2 hplaced
      exact .inr ⟨Segments.not_mem_requiredNames_of_withheld hwithheld, hwithheld⟩

/-- The number of a post has to be one, in the group too. -/
theorem rejected_of_pathOf_copies :
    ∃ (t : Table Unit) (r : Route Unit) (e : GenerationError), Table.draw copies {} = .ok t ∧
      t.route? "post" = some r ∧
      (fifthUser t).pathOf r (.ofList [("id", "x")]) = .error e ∧ e.kind = .rejectedValues ∧
      "id" ∈ e.rejected ∧
      "id" ∈ (r.pattern.segments.emit (r.mergedValues (.ofList [("id", "x")])
        (fifthUser t).recalled) (r.isWanted (.ofList [("id", "x")]))).used := by
  have hcheck : ((Table.draw copies {}).toOption.bind fun t => (t.route? "post").filter fun r =>
      decide ("id" ∈ r.pattern.names ∧ "id" ∈ r.pattern.requiredNames ∧
        r.valueOf (.ofList [("id", "x")]) (fifthUser t).recalled "id" = some "x" ∧
        ¬ r.pattern.Meets "id" "x")).isSome = true := by
    decide +kernel
  obtain ⟨t, r, hdraw, hroute, hfacts⟩ := Table.exists_route_of_filter hcheck
  obtain ⟨hname, hrequired, hvalue, hnot⟩ := of_decide_eq_true hfacts
  have hrejects : r.Rejects (.ofList [("id", "x")]) (fifthUser t).recalled "id" :=
    ⟨"x", hvalue, hnot⟩
  obtain ⟨hfails, hlisted⟩ := rejected_of_pathOf (fifthUser t) r (.ofList [("id", "x")])
  obtain ⟨e, he, hkind⟩ := hfails.2 ⟨"id", hname, hrejects⟩
  obtain ⟨hmem, hused⟩ := hlisted e he hkind
  have hid := (hmem "id").2 ⟨hname, hrejects⟩
  have huse := (hused "id" hid).resolve_right fun h => h.1 hrequired
  exact ⟨t, r, e, hdraw, hroute, he, hkind, hid, huse⟩

/-- Posts, perhaps a later page of them. The first page has a name of its own. -/
def postPages : Entries Unit :=
  .route { path := "/posts(/page/:page)", name := some "posts", target := some "posts#index"
           requirements := [("page", "[0-9]+")], defaults := .ofList [("page", "first")] } .done

/-- Posts, perhaps those of a month. -/
def postMonths : Entries Unit :=
  .route { path := "/posts(/:year/:month)", name := some "posts", target := some "posts#index"
           requirements := [("year", "[0-9]+")] } .done

/-- What a path fails for, and the names that it would have in it. -/
def rejection (t : Table Unit) (explicit : Params) : Option (List String × List String) :=
  (t.route? "posts").bind fun r =>
    (failure? ((ofTable t {}).path (.named "posts") (.keyed explicit))).bind fun e =>
      if e.kind = .rejectedValues then
        some (e.rejected,
          (r.pattern.segments.emit (r.mergedValues explicit .empty) (r.isWanted explicit)).used)
      else none

/-- A path fails for a value that it does not use: for the default of a page that nobody asked
for, and for a year without its month. -/
theorem rejects_of_unused :
    ∃ t t' : Table Unit, Table.draw postPages {} = .ok t ∧ Table.draw postMonths {} = .ok t' ∧
      rejection t .empty = some (["page"], []) ∧
      rejection t' (.ofList [("year", "x")]) = some (["year"], []) := by
  have hpages : ((Table.draw postPages {}).toOption.any fun t =>
      decide (rejection t .empty = some (["page"], []))) = true := by
    decide +kernel
  have hmonths : ((Table.draw postMonths {}).toOption.any fun t =>
      decide (rejection t (.ofList [("year", "x")]) = some (["year"], []))) = true := by
    decide +kernel
  obtain ⟨t, ht, hpages⟩ := exists_ok_of_any hpages
  obtain ⟨t', ht', hmonths⟩ := exists_ok_of_any hmonths
  exact ⟨t, t', ht, ht', of_decide_eq_true hpages, of_decide_eq_true hmonths⟩

end Linker

end RouteEngine
