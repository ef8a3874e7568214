import RouteEngine.Proofs.Escape.Ending
import RouteEngine.Proofs.Pattern.Demands
import RouteEngine.Proofs.Route.Nesting
import RouteEngine.Proofs.Table.Drawing

/-!
Formats at the end of a path. Whether a format is put there is decided by the text of the joined
path, before it is read as a pattern. An optional format is left out only where one is there, or
behind a slash. A required one is left out wherever the text has `:format` in it; what is matched
then has a format only when that text is a capture outside all groups, and not the beginning of a
longer name or part of a group (`format_of_build`, `exists_required_unformatted`).
-/

namespace RouteEngine

open Escape Outcome Pattern

namespace Declaration

variable {σ : Type} {d : Declaration σ} {scope : Scope σ} {frames : List (ScopeFrame σ)}
  {settings : Settings} {place : Nat} {r : Route σ}

/-- The format in force: that of the declaration, else that of the innermost frame with one, else
that of the settings. -/
def formatWithin (d : Declaration σ) (frames : List (ScopeFrame σ)) (settings : Settings) :
    FormatOption :=
  (d.format.or (innermost (·.format) frames)).getD
    (if settings.appendFormat then .optional else .disabled)

/-- The path of the scope and that of the declaration with a slash between them. -/
def joinedPath (d : Declaration σ) (scope : Scope σ) : List Char :=
  (if d.shallow then scope.shallowPath else scope.path).toList ++
    '/' :: Text.trimStart Scope.isSlash d.path.toList

theorem formatIn_nestAll (d : Declaration σ) (frames : List (ScopeFrame σ)) (settings : Settings) :
    d.formatIn (Scope.root.nestAll frames) settings = d.formatWithin frames settings := by
  rw [formatIn, Scope.format_nestAll, formatWithin]

theorem scopedPath_eq (d : Declaration σ) (scope : Scope σ) (settings : Settings) :
    d.scopedPath scope settings = normalizeDeclaredPath
      (String.ofList (appendFormat (d.joinedPath scope) (d.formatIn scope settings))) := rfl

/-! ### Endings -/

theorem keptEnding_requiredFormat : KeptEnding requiredFormat where
  plain := by
    unfold requiredFormat
    simp
  begins := by
    rintro _ ⟨⟩
    decide
  ends := ⟨'t', rfl, by decide⟩

theorem isNameChar_head?_requiredFormat :
    ∀ c ∈ requiredFormat.head?, Text.isNameChar c = false := by
  rintro _ ⟨⟩
  decide

/-- What an optional format ends in. The slash in front of its group may go into the group. -/
def groupedFormat : List Char := ":format)".toList

theorem keptEnding_groupedFormat : KeptEnding groupedFormat where
  plain := by
    unfold groupedFormat
    simp
  begins := by
    rintro _ ⟨⟩
    decide
  ends := ⟨')', rfl, by decide⟩

theorem isNameChar_head?_groupedFormat :
    ∀ c ∈ groupedFormat.head?, Text.isNameChar c = false := by
  rintro _ ⟨⟩
  decide

theorem groupedFormat_suffix : groupedFormat <:+ optionalFormat := ⟨"(.".toList, rfl⟩

theorem suffix_of_endsWith {e path : List Char} (h : Text.endsWith e path = true) : e <:+ path := by
  obtain ⟨l, hl⟩ := Option.isSome_iff_exists.1 h
  exact ⟨l, (Text.dropSuffix?_eq_some.1 hl).symm⟩

/-- Where an optional format is asked for, there is a format at the end, unless that is a slash. -/
theorem suffix_appendFormat {path : List Char} (h : ¬ ['/'] <:+ path) :
    requiredFormat <:+ appendFormat path .optional ∨
      groupedFormat <:+ appendFormat path .optional := by
  have hslash : Text.endsWith ['/'] path = false :=
    Bool.eq_false_iff.2 fun hends => h (suffix_of_endsWith hends)
  rw [appendFormat, hslash, Bool.false_or]
  split
  · next hends =>
      rcases (Bool.or_eq_true _ _).mp hends with hends | hends
      · exact .inl (suffix_of_endsWith hends)
      · exact .inr (groupedFormat_suffix.trans (suffix_of_endsWith hends))
  · exact .inr (groupedFormat_suffix.trans (List.suffix_append _ _))

/-! ### Built routes -/

/-- The pattern of a built route is read from its path, with the format in force at the end. -/
theorem compile_of_build
    (h : d.build (Scope.root.nestAll frames) settings place = .ok (some r)) :
    r.path = normalizeDeclaredPath (String.ofList
        (appendFormat (d.joinedPath (Scope.root.nestAll frames)) (d.formatWithin frames settings))) ∧
      ∃ requirements anchored, Pattern.compile r.path requirements anchored = .ok r.pattern := by
  obtain ⟨_, _, _, -, -, -, -, -, hpattern, -⟩ :=
    buildPermitted_eq_ok (buildPermitted_of_build h)
  obtain ⟨_, _, _, -, -, -, -, -, -, -, -, hsource⟩ := compile_eq_ok hpattern
  rw [Route.path, hsource]
  refine ⟨?_, _, _, hpattern⟩
  rw [scopedPath_eq, formatIn_nestAll]

/-- Where a required format is in force and the joined path has no `:format` in it, the path ends
in one and nothing is matched without; where it has, nothing is put at the end, and a format is
demanded exactly when some capture of that name stands outside all groups. Where an optional format
is in force and the joined path does not end in a slash, the format is a name of the pattern. -/
theorem format_of_build
    (h : d.build (Scope.root.nestAll frames) settings place = .ok (some r)) :
    (d.formatWithin frames settings = .required →
      (¬ ":format".toList <:+: d.joinedPath (Scope.root.nestAll frames) →
        ".:format".toList <:+ r.path.toList ∧ r.pattern.Demands "format") ∧
      (":format".toList <:+: d.joinedPath (Scope.root.nestAll frames) →
        r.path = normalizeDeclaredPath
          (String.ofList (d.joinedPath (Scope.root.nestAll frames))) ∧
        (r.pattern.Demands "format" ↔
          ∃ kind, ⟨kind, "format", false⟩ ∈ mentions 0 r.path.toList))) ∧
    (d.formatWithin frames settings = .optional →
      ¬ ['/'] <:+ d.joinedPath (Scope.root.nestAll frames) → "format" ∈ r.pattern.names) := by
  obtain ⟨hpath, requirements, anchored, hcompile⟩ := compile_of_build h
  refine ⟨fun hrequired => ⟨fun hwithout => ?_, fun hwith => ?_⟩, fun hoptional hslash => ?_⟩
  · have hcontains : Text.contains ":format".toList (d.joinedPath (Scope.root.nestAll frames)) =
        false := Bool.eq_false_iff.2 fun hin => hwithout (Text.contains_eq_true.1 hin)
    rw [hrequired, appendFormat, hcontains, if_neg Bool.false_ne_true] at hpath
    have hends : requiredFormat <:+ r.path.toList := by
      rw [hpath]
      exact keptEnding_requiredFormat.normalizeDeclaredPath (List.suffix_append _ _)
    have hmention : ⟨.dynamic, "format", false⟩ ∈ mentions 0 requiredFormat := by
      decide +kernel
    exact ⟨hends, demands_of_suffix hcompile hends isNameChar_head?_requiredFormat (by decide)
      (by decide) hmention⟩
  · rw [hrequired, appendFormat, if_pos (Text.contains_eq_true.2 hwith)] at hpath
    exact ⟨hpath, demands_iff hcompile⟩
  · rw [hoptional] at hpath
    rcases suffix_appendFormat hslash with hends | hends
    · have hends := keptEnding_requiredFormat.normalizeDeclaredPath hends
      rw [← hpath] at hends
      exact mem_names_of_suffix hcompile hends isNameChar_head?_requiredFormat fun depth =>
        ⟨_, .head _, rfl⟩
    · have hends := keptEnding_groupedFormat.normalizeDeclaredPath hends
      rw [← hpath] at hends
      exact mem_names_of_suffix hcompile hends isNameChar_head?_groupedFormat fun depth =>
        ⟨_, .head _, rfl⟩

def archive : ScopeFrame Unit := { path := some "/archive", format := some .required }

def feed : Declaration Unit := { path := "/feed", target := some "posts#feed" }

/-- The same declaration with the format of a frame and with that of the settings. -/
theorem format_of_build_feed :
    ∃ r s, feed.build (Scope.root.nestAll [archive]) {} 0 = .ok (some r) ∧
      feed.formatWithin [archive] {} = .required ∧ r.pattern.Demands "format" ∧
      feed.build (Scope.root.nestAll []) {} 0 = .ok (some s) ∧
      feed.formatWithin [] {} = .optional ∧ "format" ∈ s.pattern.names := by
  have hr : (feed.build (Scope.root.nestAll [archive]) {} 0).toOption.any Option.isSome = true := by
    decide +kernel
  obtain ⟨_, hr, hsome⟩ := exists_ok_of_any hr
  obtain ⟨r, rfl⟩ := Option.isSome_iff_exists.1 hsome
  have hs : (feed.build (Scope.root.nestAll []) {} 0).toOption.any Option.isSome = true := by
    decide +kernel
  obtain ⟨_, hs, hsome⟩ := exists_ok_of_any hs
  obtain ⟨s, rfl⟩ := Option.isSome_iff_exists.1 hsome
  have hwithout : ¬ ":format".toList <:+: feed.joinedPath (Scope.root.nestAll [archive]) := by
    decide +kernel
  have hslash : ¬ ['/'] <:+ feed.joinedPath (Scope.root.nestAll []) := by
    decide +kernel
  exact ⟨r, s, hr, rfl, (((format_of_build hr).1 rfl).1 hwithout).2, hs, rfl,
    (format_of_build hs).2 rfl hslash⟩

/-- The name of its capture only begins with `format`. -/
def formatted : Declaration Unit :=
  { path := "/posts/:formatted", target := some "posts#show", format := some .required }

/-- A path without a format is matched though one is required. -/
theorem exists_required_unformatted :
    ∃ r, formatted.build (Scope.root.nestAll []) {} 0 = .ok (some r) ∧
      formatted.formatWithin [] {} = .required ∧ "format" ∉ r.pattern.requiredNames ∧
      (r.pattern.matchPath "/posts/x").isSome = true := by
  have hr : (formatted.build (Scope.root.nestAll []) {} 0).toOption.any (fun built =>
      built.any fun r => decide ("format" ∉ r.pattern.requiredNames) &&
        (r.pattern.matchPath "/posts/x").isSome) = true := by
    decide +kernel
  obtain ⟨_, hr, hbuilt⟩ := exists_ok_of_any hr
  obtain ⟨r, rfl, hbuilt⟩ := (Option.any_eq_true _ _).1 hbuilt
  obtain ⟨hname, hmatched⟩ := Bool.and_eq_true_iff.1 hbuilt
  exact ⟨r, hr, rfl, of_decide_eq_true hname, hmatched⟩

end Declaration

end RouteEngine
