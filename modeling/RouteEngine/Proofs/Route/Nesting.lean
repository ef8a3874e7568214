import Mathlib.Data.List.Induction
import RouteEngine.Proofs.Dict
import RouteEngine.Proofs.Escape.Canonical
import RouteEngine.Proofs.Text.Split
import RouteEngine.Route.Declaration

/-!
What a scope has from its frames. Each field of a scope is made from the same field of the frames
alone, so there is one lemma for each way of making it. A format, a filter and the default of a
key each come from the innermost frame that has one, which replaces those around it
(`nestAll_eq_innermost`). Paths and names are joined frame by frame (`nestAll_eq_foldl`), and
constraints are merged in place, so that a key stands where it was declared first with what was
declared last (`keys_mergeEntries`, `lookup_mergeEntries`). `composedOf_nestAll` has them all.
-/

namespace RouteEngine

variable {σ α : Type}

/-- The field of the last frame that has it; the outermost frame is the first. -/
def innermost (field : ScopeFrame σ → Option α) (frames : List (ScopeFrame σ)) : Option α :=
  frames.reverse.findSome? field

theorem innermost_cons (field : ScopeFrame σ → Option α) (f : ScopeFrame σ)
    (frames : List (ScopeFrame σ)) :
    innermost field (f :: frames) = (innermost field frames).or (field f) := by
  rw [innermost, List.reverse_cons, List.findSome?_append, innermost, List.findSome?_singleton]

/-! ### Merging by key -/

section Merge

variable {l : List (String × α)}

theorem lookup_mergeEntry (key : String) (value : α) (l : List (String × α)) (k : String) :
    Dict.lookup k (mergeEntry key value l) = if key = k then some value else Dict.lookup k l := by
  induction l with
  | nil => simp [mergeEntry, Dict.lookup]
  | cons e l ih =>
      obtain ⟨x, v⟩ := e
      rw [mergeEntry]
      split
      · next hx =>
          subst hx
          by_cases hk : x = k <;> simp [Dict.lookup, hk]
      · next hx =>
          by_cases hk : x = k
          · subst hk
            simp [Dict.lookup, Ne.symm hx]
          · simp [Dict.lookup, hk, ih]

theorem lookup_mergeEntries (base entries : List (String × α)) (k : String) :
    Dict.lookup k (mergeEntries base entries) =
      (Dict.lookup k entries.reverse).or (Dict.lookup k base) := by
  induction entries generalizing base with
  | nil => rfl
  | cons e entries ih =>
      obtain ⟨x, v⟩ := e
      change Dict.lookup k (mergeEntries (mergeEntry x v base) entries) = _
      rw [ih, lookup_mergeEntry, List.reverse_cons, Dict.lookup_append, Option.or_assoc,
        Dict.lookup, Dict.lookup]
      split <;> rfl

-- A key keeps its place and has the value that was merged last.
example : mergeEntries [("id", 1), ("page", 2)] [("page", 3), ("id", 4)] =
    [("id", 4), ("page", 3)] := by
  decide +kernel

/-- A key that is there keeps its place, any other one comes last. -/
theorem keys_mergeEntry (key : String) (value : α) (l : List (String × α)) :
    (mergeEntry key value l).map (·.1) =
      if key ∈ l.map (·.1) then l.map (·.1) else l.map (·.1) ++ [key] := by
  induction l with
  | nil => simp [mergeEntry]
  | cons e l ih =>
      obtain ⟨x, v⟩ := e
      rw [mergeEntry]
      split
      · next hx => simp [hx]
      · next hx =>
          simp only [List.map_cons, ih, List.mem_cons, Ne.symm hx, false_or]
          split <;> rfl

theorem distinct_mergeEntry (key : String) (value : α) (hl : l.Pairwise fun a b => a.1 ≠ b.1) :
    (mergeEntry key value l).Pairwise fun a b => a.1 ≠ b.1 := by
  have hkeys : (l.map (·.1)).Nodup := List.pairwise_map.2 hl
  have hmerged : ((mergeEntry key value l).map (·.1)).Nodup := by
    rw [keys_mergeEntry]
    split
    · exact hkeys
    · next hnew =>
        refine List.nodup_append.2 ⟨hkeys, by simp, fun k hk k' hk' => ?_⟩
        rw [List.mem_singleton.1 hk']
        rintro rfl
        exact hnew hk
  exact List.pairwise_map.1 hmerged

theorem distinct_mergeEntries (entries : List (String × α))
    (hl : l.Pairwise fun a b => a.1 ≠ b.1) :
    (mergeEntries l entries).Pairwise fun a b => a.1 ≠ b.1 := by
  induction entries generalizing l with
  | nil => exact hl
  | cons e entries ih => exact ih (distinct_mergeEntry e.1 e.2 hl)

/-- Merged into nothing, the keys stand in the order in which they first came. -/
theorem keys_mergeEntries (entries : List (String × α)) :
    (mergeEntries [] entries).map (·.1) = Names.distinct (entries.map (·.1)) := by
  induction entries using List.reverseRecOn with
  | nil => rfl
  | append_singleton entries e ih =>
      have hlast : mergeEntries [] (entries ++ [e]) = mergeEntry e.1 e.2 (mergeEntries [] entries) :=
        List.foldl_append
      rw [hlast, keys_mergeEntry, ih, List.map_append, List.map_singleton, Names.distinct_concat]
      simp only [Names.mem_distinct]

end Merge

/-! ### Whatever the innermost frame has -/

namespace Scope

/-- Where one frame goes before the scope, the innermost of several goes before it. -/
theorem nestAll_eq_innermost (of : Scope σ → Option α) (field : ScopeFrame σ → Option α)
    (hnest : ∀ s f, of (nest s f) = (field f).or (of s)) (s : Scope σ)
    (frames : List (ScopeFrame σ)) :
    of (s.nestAll frames) = (innermost field frames).or (of s) := by
  induction frames generalizing s with
  | nil => rfl
  | cons f frames ih =>
      change of ((s.nest f).nestAll frames) = _
      rw [ih, hnest, innermost_cons, Option.or_assoc]

theorem format_nestAll (frames : List (ScopeFrame σ)) :
    (root.nestAll frames).format = innermost (·.format) frames := by
  rw [nestAll_eq_innermost Scope.format (·.format) fun _ _ => rfl]
  exact Option.or_none

theorem filter_nestAll (frames : List (ScopeFrame σ)) :
    (root.nestAll frames).filter = innermost (·.filter) frames := by
  rw [nestAll_eq_innermost Scope.filter (·.filter) fun _ _ => rfl]
  exact Option.or_none

theorem get?_defaults_nestAll (frames : List (ScopeFrame σ)) (key : String) :
    (root.nestAll frames).defaults.get? key = innermost (·.defaults.get? key) frames := by
  rw [nestAll_eq_innermost (fun s => s.defaults.get? key) (·.defaults.get? key)
    fun s f => Dict.get?_override s.defaults f.defaults key]
  exact Option.or_none

theorem constraints_nestAll (frames : List (ScopeFrame σ)) (s : Scope σ) :
    (s.nestAll frames).constraints =
      mergeEntries s.constraints (frames.flatMap (·.constraints)) := by
  induction frames generalizing s with
  | nil => rfl
  | cons f frames ih =>
      change ((s.nest f).nestAll frames).constraints = _
      rw [ih, List.flatMap_cons, mergeEntries, mergeEntries, List.foldl_append]
      rfl

theorem lookup_nestAll (frames : List (ScopeFrame σ)) (s : Scope σ) (k : String) :
    Dict.lookup k (s.nestAll frames).constraints =
      (Dict.lookup k (frames.flatMap (·.constraints)).reverse).or
        (Dict.lookup k s.constraints) := by
  rw [constraints_nestAll, lookup_mergeEntries]

theorem distinct_nestAll (frames : List (ScopeFrame σ)) {s : Scope σ}
    (hs : s.constraints.Pairwise fun a b => a.1 ≠ b.1) :
    (s.nestAll frames).constraints.Pairwise fun a b => a.1 ≠ b.1 := by
  rw [constraints_nestAll]
  exact distinct_mergeEntries _ hs

/-- What joins the field of a frame to that of the scope joins those of all frames in turn. -/
theorem nestAll_eq_foldl {β : Type} (of : Scope σ → β) (field : ScopeFrame σ → Option String)
    (join : β → Option String → β) (hnest : ∀ s f, of (nest s f) = join (of s) (field f))
    (s : Scope σ) (frames : List (ScopeFrame σ)) :
    of (s.nestAll frames) = (frames.map field).foldl join (of s) := by
  rw [nestAll, List.foldl_map]
  exact (List.foldl_hom of fun s f => (hnest s f).symm).symm

/-! ### Paths -/

open Escape (slashed)

/-- The paths without the slashes around them, less those that have nothing else. -/
def trimmedPaths (paths : List (Option String)) : List (List Char) :=
  ((paths.filterMap id).map fun p => Text.trim isSlash p.toList).filter (· ≠ [])

/-- Nothing, or something that begins with a slash and does not end in one. -/
def IsPathPrefix (path : List Char) : Prop :=
  path = [] ∨ path.head? = some '/' ∧ path.getLast? ≠ some '/'

theorem trimmedPaths_append (paths paths' : List (Option String)) :
    trimmedPaths (paths ++ paths') = trimmedPaths paths ++ trimmedPaths paths' := by
  simp [trimmedPaths]

theorem of_mem_trimmedPaths {paths : List (Option String)} {part : List Char}
    (h : part ∈ trimmedPaths paths) : part ≠ [] ∧ part.getLast? ≠ some '/' := by
  obtain ⟨hpart, hne⟩ := List.mem_filter.1 h
  obtain ⟨p, -, rfl⟩ := List.mem_map.1 hpart
  refine ⟨by simpa using hne, fun hlast => ?_⟩
  exact absurd (Text.getLast?_trimEnd hlast) (by decide)

theorem getLast?_slashed (paths : List (Option String)) :
    (slashed (trimmedPaths paths)).getLast? ≠ some '/' := by
  rw [← List.append_nil (slashed (trimmedPaths paths))]
  exact Escape.getLast?_slashed (fun _ => of_mem_trimmedPaths) (by simp)

theorem isPathPrefix_slashed (paths : List (Option String)) :
    IsPathPrefix (slashed (trimmedPaths paths)) := by
  have hlast := getLast?_slashed paths
  cases hparts : trimmedPaths paths with
  | nil => exact .inl rfl
  | cons part parts => exact .inr ⟨rfl, hparts ▸ hlast⟩

/-- The slash in front of a part is never a second one, since nothing before it ends in a slash. -/
theorem foldl_joinPath (paths : List (Option String)) :
    paths.foldl joinPath "" = String.ofList (slashed (trimmedPaths paths)) := by
  induction paths using List.reverseRecOn with
  | nil => rfl
  | append_singleton paths path ih =>
      rw [List.foldl_append, ih, trimmedPaths_append, List.foldl_cons, List.foldl_nil]
      cases path with
      | none => simp [joinPath, trimmedPaths]
      | some p =>
          rw [joinPath]
          split
          · next hblank =>
              simp [trimmedPaths, List.isEmpty_iff.1 hblank]
          · next hpart =>
              have hpart : Text.trim isSlash p.toList ≠ [] := by simpa using hpart
              have hend : Text.trimEnd isSlash (slashed (trimmedPaths paths)) =
                  slashed (trimmedPaths paths) := by
                refine Text.trimEnd_eq_self fun c hc => ?_
                have hlast := getLast?_slashed paths
                rw [hc] at hlast
                simpa [isSlash] using hlast
              rw [String.toList_ofList, hend]
              simp [trimmedPaths, slashed, hpart]

/-! ### Names and modules -/

/-- The parts that are there and not empty. -/
def nonEmptyParts (parts : List (Option String)) : List String :=
  (parts.filterMap id).filter (· ≠ "")

/-- The parts with a separator between them, if there are any. -/
def joined (sep : String) (parts : List String) : Option String :=
  if parts = [] then none else some (sep.intercalate parts)

theorem nonEmpty_joined (sep : String) {parts : List String} (h : ∀ part ∈ parts, part ≠ "") :
    nonEmpty (joined sep parts) = joined sep parts := by
  cases parts with
  | nil => rfl
  | cons part parts =>
      have hne : sep.intercalate (part :: parts) ≠ "" := by
        have hpart := h part List.mem_cons_self
        cases parts with
        | nil => rwa [String.intercalate_singleton]
        | cons other parts =>
            rw [String.intercalate_cons_cons]
            simp [hpart]
      simp [joined, nonEmpty, hne]

theorem joinWith_joined (sep : String) {parts : List String} (h : ∀ part ∈ parts, part ≠ "")
    (part : Option String) :
    joinWith sep (joined sep parts) part = joined sep (parts ++ nonEmptyParts [part]) := by
  have hpart : nonEmptyParts [part] = (nonEmpty part).toList := by
    cases part with
    | none => rfl
    | some p => by_cases hp : p = "" <;> simp [nonEmptyParts, nonEmpty, Option.filter, hp]
  rw [joinWith, nonEmpty_joined sep h, hpart]
  cases nonEmpty part with
  | none =>
      rw [Option.toList_none, List.append_nil]
      cases joined sep parts <;> rfl
  | some p =>
      by_cases hparts : parts = []
      · simp [joined, hparts]
      · simp [joined, hparts, String.intercalate_append_of_ne_nil]

theorem foldl_joinWith (sep : String) (parts : List (Option String)) :
    parts.foldl (joinWith sep) none = joined sep (nonEmptyParts parts) := by
  induction parts using List.reverseRecOn with
  | nil => rfl
  | append_singleton parts part ih =>
      have hne : ∀ p ∈ nonEmptyParts parts, p ≠ "" := by simp [nonEmptyParts]
      rw [List.foldl_append, ih, List.foldl_cons, List.foldl_nil, joinWith_joined sep hne]
      simp [nonEmptyParts]

/-! ### Scopes within scopes -/

/-- The fields of a scope are made from those of the frames around it, of which the outermost is
the first. -/
structure ComposedOf (frames : List (ScopeFrame σ)) (s : Scope σ) : Prop where
  path : s.path = String.ofList (slashed (trimmedPaths (frames.map (·.path))))
  shallowPath : s.shallowPath = String.ofList (slashed (trimmedPaths (frames.map (·.shallowPath))))
  pathPrefix : IsPathPrefix s.path.toList ∧ IsPathPrefix s.shallowPath.toList
  namePrefix : s.namePrefix = joined "_" (nonEmptyParts (frames.map (·.namePrefix)))
  module : s.module = joined "/" (nonEmptyParts (frames.map (·.module)))
  shallowPrefix : s.shallowPrefix = joined "_" (nonEmptyParts (frames.map (·.shallowPrefix)))
  /-- Each key once, in the order in which they were first declared. -/
  keys : (s.constraints.map (·.1)).Nodup ∧
    s.constraints.map (·.1) = Names.distinct ((frames.flatMap (·.constraints)).map (·.1))
  /-- The constraint that was declared last for the key. -/
  constraint : ∀ key, Dict.lookup key s.constraints =
    Dict.lookup key (frames.flatMap (·.constraints)).reverse
  default : ∀ key, s.defaults.get? key = innermost (·.defaults.get? key) frames
  format : s.format = innermost (·.format) frames
  filter : s.filter = innermost (·.filter) frames

/-- Paths follow one another, names and modules are joined, constraints are merged in place, and
defaults, the format and the filter come from the innermost frame that has them. -/
theorem composedOf_nestAll (frames : List (ScopeFrame σ)) :
    ComposedOf frames (root.nestAll frames) := by
  have hpath : (root.nestAll frames).path =
      String.ofList (slashed (trimmedPaths (frames.map (·.path)))) := by
    rw [nestAll_eq_foldl Scope.path (·.path) joinPath fun _ _ => rfl]
    exact foldl_joinPath _
  have hshallow : (root.nestAll frames).shallowPath =
      String.ofList (slashed (trimmedPaths (frames.map (·.shallowPath)))) := by
    rw [nestAll_eq_foldl Scope.shallowPath (·.shallowPath) joinPath fun _ _ => rfl]
    exact foldl_joinPath _
  have hshape : ∀ paths : List (Option String),
      IsPathPrefix (String.ofList (slashed (trimmedPaths paths))).toList := by
    intro paths
    rw [String.toList_ofList]
    exact isPathPrefix_slashed paths
  have hkeys : (root.nestAll frames).constraints.map (·.1) =
      Names.distinct ((frames.flatMap (·.constraints)).map (·.1)) := by
    rw [constraints_nestAll]
    exact keys_mergeEntries _
  exact
    { path := hpath
      shallowPath := hshallow
      pathPrefix := ⟨hpath ▸ hshape _, hshallow ▸ hshape _⟩
      namePrefix := by
        rw [nestAll_eq_foldl Scope.namePrefix (·.namePrefix) (joinWith "_") fun _ _ => rfl]
        exact foldl_joinWith "_" _
      module := by
        rw [nestAll_eq_foldl Scope.module (·.module) (joinWith "/") fun _ _ => rfl]
        exact foldl_joinWith "/" _
      shallowPrefix := by
        rw [nestAll_eq_foldl Scope.shallowPrefix (·.shallowPrefix) (joinWith "_") fun _ _ => rfl]
        exact foldl_joinWith "_" _
      keys := ⟨hkeys ▸ Names.nodup_distinct _, hkeys⟩
      constraint := fun key => by
        rw [lookup_nestAll]
        exact Option.or_none
      default := get?_defaults_nestAll frames
      format := format_nestAll frames
      filter := filter_nestAll frames }

example : ((root : Scope Unit).nestAll
    [{ path := some "/api/" }, { path := some "/" }, { path := some "v1//posts" }]).path =
      "/api/v1//posts" := by
  decide +kernel

end Scope

end RouteEngine
