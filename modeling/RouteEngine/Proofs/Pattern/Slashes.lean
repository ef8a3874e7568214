import RouteEngine.Proofs.Escape.Declared
import RouteEngine.Proofs.Pattern.RoundTrip

/-!
The slashes of generated paths. How a path ends tells what may be written next, so a tree is run
over endings: a text is read character by character, a capture stands for one segment, and a group
gives the endings with and without it. The tree keeps its paths clean if each ending that it comes
to is that of a clean path (`Segments.staysClean`), and this misses nothing where names are
distinct, since any choice of groups is then the choice of some values. Declared paths in which
every slash has text or a capture behind it pass. Those that begin with a group need not, nor those
in which the first slash has been put in front of a group.
-/

namespace RouteEngine

open Escape Outcome

/-! ### Clean paths -/

/-- A path that begins with a slash, and that has neither two slashes in a row nor, unless it is
the root, a slash at the end. -/
structure IsClean (path : List Char) : Prop where
  begins : path.head? = some '/'
  squeezed : ¬ ['/', '/'] <:+: path
  ends : path.getLast? = some '/' → path = ['/']

/-- How a path ends. -/
inductive Ending
  | start
  | root
  | slash
  | inside
  /-- The path is not clean and no text behind it makes it so. -/
  | broken
  deriving DecidableEq, Repr

namespace Ending

def step (e : Ending) (c : Char) : Ending :=
  match e with
  | start => if c = '/' then root else broken
  | root => if c = '/' then broken else inside
  | slash => if c = '/' then broken else inside
  | inside => if c = '/' then slash else inside
  | broken => broken

def run (e : Ending) (text : List Char) : Ending := text.foldl step e

/-- The ending behind a text that is not empty and has no slash. -/
def enter : Ending → Ending
  | start => broken
  | broken => broken
  | _ => inside

/-- A clean path may end so. -/
def isWhole : Ending → Bool
  | root => true
  | inside => true
  | _ => false

variable {e : Ending} {c : Char} {text : List Char}

theorem run_append (e : Ending) (text more : List Char) :
    e.run (text ++ more) = (e.run text).run more :=
  List.foldl_append

theorem run_broken (text : List Char) : broken.run text = broken := by
  induction text with
  | nil => rfl
  | cons c text ih => exact ih

theorem step_of_ne (hc : c ≠ '/') : e.step c = e.enter := by
  cases e <;> simp [step, enter, hc]

theorem enter_enter (e : Ending) : e.enter.enter = e.enter := by
  cases e <;> rfl

theorem run_of_not_mem (hne : text ≠ []) (hslash : '/' ∉ text) : e.run text = e.enter := by
  induction text generalizing e with
  | nil => exact absurd rfl hne
  | cons c text ih =>
      simp only [List.mem_cons, not_or] at hslash
      have hstep : e.step c = e.enter := step_of_ne (Ne.symm hslash.1)
      cases text with
      | nil => exact hstep
      | cons d text =>
          change (e.step c).run (d :: text) = e.enter
          rw [hstep, ih (List.cons_ne_nil _ _) hslash.2, enter_enter]

theorem isWhole_run_inside (text : List Char) :
    (inside.run text).isWhole = true ↔ Squeezed text ∧ text.getLast? ≠ some '/' := by
  induction text with
  | nil => simp [run, isWhole, Squeezed, SlashesBefore]
  | cons c text ih =>
      cases text with
      | nil => by_cases hc : c = '/' <;> simp [run, step, isWhole, Squeezed, SlashesBefore, hc]
      | cons d text =>
          rw [List.getLast?_cons_cons]
          by_cases hc : c = '/'
          · by_cases hd : d = '/'
            · -- The second slash breaks the path for good.
              have hbroken : inside.run (c :: d :: text) = broken := by
                rw [hc, hd]
                exact run_broken text
              rw [hbroken]
              simp [isWhole, Squeezed, SlashesBefore, hc, hd]
            · have hrun : inside.run (c :: d :: text) = inside.run (d :: text) := by
                simp [run, step, hc, hd]
              rw [hrun, ih]
              simp [Squeezed, SlashesBefore, hd]
          · have hrun : inside.run (c :: d :: text) = inside.run (d :: text) := by
              simp [run, step, hc]
            rw [hrun, ih]
            simp [Squeezed, SlashesBefore, hc]

end Ending

open Ending in
theorem isClean_iff {path : List Char} :
    IsClean path ↔ (start.run path).isWhole = true := by
  have hparts : IsClean path ↔ path.head? = some '/' ∧ Squeezed path ∧
      (path.getLast? = some '/' → path = ['/']) := by
    rw [squeezed_iff]
    exact ⟨fun h => ⟨h.begins, h.squeezed, h.ends⟩, fun ⟨hb, hs, he⟩ => ⟨hb, hs, he⟩⟩
  rw [hparts]
  cases path with
  | nil => simp [run, isWhole]
  | cons c path =>
      by_cases hc : c = '/'
      · cases path with
        | nil => simp [run, step, isWhole, Squeezed, SlashesBefore, hc]
        | cons d path =>
            -- Behind the first slash a path is read as behind any other.
            have hrun : start.run (c :: d :: path) = inside.run (c :: d :: path) := by
              simp [run, step, hc]
            rw [hrun, isWhole_run_inside]
            simp [hc]
      · have hbroken : start.run (c :: path) = broken := by
          simpa [run, step, hc] using run_broken path
        simp [hbroken, isWhole, hc]

instance (path : List Char) : Decidable (IsClean path) :=
  decidable_of_iff _ isClean_iff.symm

/-! ### Endings of a tree -/

/-- How the path ends behind a walk each of whose captures stands for one segment. -/
def Walk.ending {s : Segments} (e : Ending) : Walk s → Ending
  | done => e
  | literal text w => w.ending (e.run text.toList)
  | capture _ _ w => w.ending e.enter
  | entered i w => w.ending (i.ending e)
  | skipped _ w => w.ending e

namespace Segments

/-- The endings that the tree comes to from those given, over every choice of groups. -/
def endings (es : List Ending) : Segments → List Ending
  | done => es
  | literal text next => next.endings (es.map fun e => e.run text.toList)
  | capture _ next => next.endings (es.map Ending.enter)
  | group inner next => next.endings (inner.endings es ++ es)

/-- Whatever groups are written, the path is clean. -/
def staysClean (s : Segments) : Bool := (s.endings [.start]).all Ending.isWhole

end Segments

namespace Walk

variable {s : Segments} {e : Ending} {es : List Ending}

theorem run_text (w : Walk s) (hw : ∀ x ∈ w.captured, x.2 ≠ [] ∧ '/' ∉ x.2) :
    e.run w.text = w.ending e := by
  induction w generalizing e with
  | done => rfl
  | literal text w ih =>
      rw [Walk.text, e.run_append, ih hw]
      rfl
  | capture c raw w ih =>
      obtain ⟨⟨hne, hslash⟩, hw⟩ := List.forall_mem_cons.1 hw
      rw [Walk.text, e.run_append, Ending.run_of_not_mem hne hslash, ih hw]
      rfl
  | entered i w ihInner ihNext =>
      obtain ⟨hi, hw⟩ := List.forall_mem_append.1 hw
      rw [Walk.text, e.run_append, ihInner hi, ihNext hw]
      rfl
  | skipped inner w ih => exact ih hw

theorem ending_mem_endings (w : Walk s) (he : e ∈ es) : w.ending e ∈ s.endings es := by
  induction w generalizing e es with
  | done => exact he
  | literal text w ih => exact ih (List.mem_map_of_mem he)
  | capture c raw w ih => exact ih (List.mem_map_of_mem he)
  | entered i w ihInner ihNext => exact ihNext (List.mem_append_left _ (ihInner he))
  | skipped inner w ih => exact ih (List.mem_append_right _ he)

end Walk

namespace Segments

variable {s : Segments} {e : Ending} {es : List Ending}

/-- Each ending of the tree is that of a walk, which may be taken to write the same letter for
each of its captures. -/
theorem exists_walk_of_mem_endings (h : e ∈ s.endings es) :
    ∃ w : Walk s, (∃ d ∈ es, w.ending d = e) ∧ w.Fits ∧ ∀ x ∈ w.captured, x.2 = ['x'] := by
  induction s generalizing e es with
  | done => exact ⟨.done, ⟨e, h, rfl⟩, trivial, by simp [Walk.captured]⟩
  | literal text next ih =>
      obtain ⟨w, ⟨_, hmem, hending⟩, hfits, hx⟩ := ih h
      obtain ⟨d, hd, rfl⟩ := List.mem_map.1 hmem
      exact ⟨.literal text w, ⟨d, hd, hending⟩, hfits, hx⟩
  | capture c next ih =>
      obtain ⟨w, ⟨_, hmem, hending⟩, hfits, hx⟩ := ih h
      obtain ⟨d, hd, rfl⟩ := List.mem_map.1 hmem
      have hclass : c.charClass.holds 'x' = true := by
        unfold Capture.charClass
        cases c.kind with
        | dynamic => exact Capture.holds_segment (by decide) (by decide) (by decide)
        | glob => exact Capture.holds_line (by decide)
      exact ⟨.capture c ['x'] w, ⟨d, hd, hending⟩,
        ⟨List.cons_ne_nil _ _, List.forall_mem_singleton.2 hclass, hfits⟩,
        List.forall_mem_cons.2 ⟨rfl, hx⟩⟩
  | group inner next ihInner ihNext =>
      obtain ⟨w, ⟨m, hm, hending⟩, hfits, hx⟩ := ihNext h
      rcases List.mem_append.1 hm with hinner | houter
      · obtain ⟨i, ⟨d, hd, rfl⟩, hfitsInner, hxInner⟩ := ihInner hinner
        exact ⟨.entered i w, ⟨d, hd, hending⟩, ⟨hfitsInner, hfits⟩,
          List.forall_mem_append.2 ⟨hxInner, hx⟩⟩
      · exact ⟨.skipped inner w, ⟨m, houter, hending⟩, hfits, hx⟩

theorem isWhole_ending (h : s.staysClean = true) (w : Walk s) :
    (w.ending .start).isWhole = true :=
  List.all_eq_true.1 h _ (w.ending_mem_endings (List.mem_singleton.2 rfl))

/-- With distinct names and a capture in every group, a walk is the one that the values of its own
captures pick. -/
theorem exists_values_of_walk (w : Walk s) (hfits : w.Fits) (hx : ∀ x ∈ w.captured, x.2 = ['x'])
    (hgroups : s.groupsCapture = true)
    (hnames : ((s.occurrences false).map fun o => o.capture.name).Nodup) :
    ∃ values : Params, (∀ n v, values.get? n = some v → v ≠ "") ∧
      (∀ c ∈ s.directCaptures, values.contains c.name = true) ∧
      s.filling values (fun _ => true) = w := by
  let entries : List (String × String) := w.captured.map fun x => (x.1, "x")
  have hkeys : entries.map (·.1) = w.captured.map (·.1) := by simp [entries]
  have hvalue : ∀ n v, (Dict.ofList entries).get? n = some v → v = "x" := by
    intro n v hv
    obtain ⟨x, -, hx⟩ := List.mem_map.1 (Dict.mem_of_get?_ofList hv)
    exact (Prod.mk.inj hx).2.symm
  have hcontains : ∀ n, (Dict.ofList entries).contains n = true ↔ n ∈ w.captured.map (·.1) := by
    intro n
    rw [Dict.contains_ofList, hkeys]
  have hleaves : w.Leaves false (Dict.ofList entries) := by
    refine ⟨fun x hmem => ⟨['x'], ?_, ?_⟩, fun o _ hnot => ?_⟩
    · rw [hx x hmem]
      decide +kernel
    · have hgiven := (hcontains x.1).2 (List.mem_map_of_mem hmem)
      obtain ⟨v, hv⟩ := Option.isSome_iff_exists.1 hgiven
      rw [hv, hvalue x.1 v hv]
    · rw [← hcontains, Dict.contains, Option.not_isSome_iff_eq_none] at hnot
      exact hnot
  refine ⟨Dict.ofList entries, fun n v hv => ?_, fun c hc => ?_, ?_⟩
  · rw [hvalue n v hv]
    decide
  · exact (hcontains c.name).2 (w.mem_captured_of_mem_directCaptures hc)
  · refine w.filling_eq_of_captured hfits hgroups hnames (fun x hmem => ?_) hleaves
    rw [hx x hmem]
    exact List.forall_mem_singleton.2 (by decide)

end Segments

/-! ### Paths whose slashes have something behind them -/

/-- Text or a capture comes next. -/
def Leading (next : Option Char) : Prop :=
  next ≠ none ∧ next ≠ some '(' ∧ next ≠ some ')' ∧ next ≠ some '/'

/-- The path is the root, or it begins with a slash and has neither a parenthesis nor its end
behind a slash. -/
def SlashesLead (path : List Char) : Prop :=
  path = ['/'] ∨ path.head? = some '/' ∧
    SlashesBefore (fun next => next ≠ none ∧ next ≠ some '(' ∧ next ≠ some ')') path

instance (path : List Char) : Decidable (SlashesLead path) :=
  inferInstanceAs (Decidable (path = ['/'] ∨ path.head? = some '/' ∧ SlashesBefore _ path))

/-- The tree comes to each of its parentheses and to its end inside a segment. -/
def Segments.EndsInside (e : Ending) : Segments → Prop
  | done => e = .inside
  | literal text next => next.EndsInside (e.run text.toList)
  | capture _ next => next.EndsInside e.enter
  | group inner next => e = .inside ∧ inner.EndsInside .inside ∧ next.EndsInside .inside

theorem Walk.ending_eq_inside {s : Segments} {e : Ending} (w : Walk s) (hs : s.EndsInside e) :
    w.ending e = .inside := by
  induction w generalizing e with
  | done => exact hs
  | literal text w ih => exact ih hs
  | capture c raw w ih => exact ih hs
  | entered i w ihInner ihNext =>
      obtain ⟨rfl, hinner, hnext⟩ := hs
      rw [ending, ihInner hinner]
      exact ihNext hnext
  | skipped inner w ih =>
      obtain ⟨rfl, -, hnext⟩ := hs
      exact ih hnext

namespace Segments

theorem staysClean_of_endsInside {s : Segments} (hs : s.EndsInside .start) :
    s.staysClean = true := by
  refine List.all_eq_true.2 fun e he => ?_
  obtain ⟨w, ⟨d, hd, rfl⟩, -⟩ := exists_walk_of_mem_endings he
  rw [List.mem_singleton.1 hd, w.ending_eq_inside hs]
  rfl

theorem endsInside_mapCaptures (f : Capture → Capture) {s : Segments} {e : Ending}
    (hs : s.EndsInside e) : (s.mapCaptures f).EndsInside e := by
  induction s generalizing e with
  | done => exact hs
  | literal text next ih => exact ih hs
  | capture c next ih => exact ih hs
  | group inner next ihInner ihNext => exact ⟨hs.1, ihInner hs.2.1, ihNext hs.2.2⟩

end Segments

namespace Ending

variable {e : Ending} {c : Char} {cs r : List Char}

/-- What may come next when the path ends so. -/
def Admits (next : Option Char) : Ending → Prop
  | start => next = some '/'
  | root => Leading next
  | slash => Leading next
  | inside => True
  | broken => False

theorem admits_step (h : e.Admits (some c)) (hlead : c = '/' → Leading r.head?) :
    (e.step c).Admits r.head? := by
  cases e with
  | start =>
      obtain rfl : c = '/' := Option.some_inj.1 h
      exact hlead rfl
  | root =>
      have hc : c ≠ '/' := fun hc => h.2.2.2 (congrArg some hc)
      simp [step, hc, Admits]
  | slash =>
      have hc : c ≠ '/' := fun hc => h.2.2.2 (congrArg some hc)
      simp [step, hc, Admits]
  | inside =>
      by_cases hc : c = '/'
      · simpa [step, hc, Admits] using hlead hc
      · simp [step, hc, Admits]
  | broken => exact h

theorem admits_run (h : e.Admits (cs ++ r).head?) (hlead : SlashesBefore Leading (cs ++ r)) :
    (e.run cs).Admits r.head? := by
  induction cs generalizing e with
  | nil => exact h
  | cons c cs ih => exact ih (admits_step h hlead.1) hlead.2

/-- A parenthesis, or the end, is admitted inside a segment only. -/
theorem eq_inside_of_admits {next : Option Char} (h : e.Admits next)
    (hnext : next = none ∨ next = some '(' ∨ next = some ')') : e = inside := by
  have hlead : ¬ Leading next := by
    rintro ⟨hnone, hopen, hclose, -⟩
    rcases hnext with hnext | hnext | hnext
    · exact hnone hnext
    · exact hopen hnext
    · exact hclose hnext
  cases e with
  | start =>
      obtain rfl : next = some '/' := h
      simp at hnext
  | root => exact absurd h hlead
  | slash => exact absurd h hlead
  | inside => rfl
  | broken => exact h.elim

theorem enter_of_admits (kind : CaptureKind) (h : e.Admits (some kind.marker)) :
    e.enter = inside := by
  cases e with
  | start => cases kind <;> simp [Admits, CaptureKind.marker] at h
  | broken => exact h.elim
  | _ => rfl

end Ending

namespace Pattern

/-- A run on the stack ends inside a segment if what is left of the text may come next, and those
below it, which go on behind a parenthesis, do so anyway. -/
theorem endsInside_stack {ts : List Token} (hnameless : ∀ kind, .nameless kind ∉ ts)
    (hlead : SlashesBefore Leading (ts.flatMap Token.print)) :
    (∀ e : Ending, e.Admits (ts.flatMap Token.print).head? →
      ((stack ts).headD .done).EndsInside e) ∧
      ∀ s ∈ (stack ts).tail, s.EndsInside .inside := by
  induction ts with
  | nil =>
      refine ⟨fun e he => ?_, by simp [stack]⟩
      exact Ending.eq_inside_of_admits he (.inl rfl)
  | cons t ts ih =>
      rw [List.flatMap_cons] at hlead ⊢
      obtain ⟨htop, hbelow⟩ := ih (fun kind h => hnameless kind (List.mem_cons_of_mem t h))
        hlead.of_append
      obtain ⟨top, st, hst⟩ := List.exists_cons_of_ne_nil (stack_ne_nil ts)
      unfold stack
      rw [hst] at htop hbelow ⊢
      cases t with
      | openGroup =>
          have hinside : ∀ e : Ending, e.Admits (some '(') → e = .inside :=
            fun e he => Ending.eq_inside_of_admits he (.inr (.inl rfl))
          cases st with
          | nil =>
              refine ⟨fun e he => ?_, hbelow⟩
              rw [hinside e he]
              exact htop .inside trivial
          | cons next st =>
              obtain ⟨hnext, hbelow⟩ := List.forall_mem_cons.1 hbelow
              exact ⟨fun e he => ⟨hinside e he, htop .inside trivial, hnext⟩, hbelow⟩
      | closeGroup =>
          refine ⟨fun e he => ?_, List.forall_mem_cons.2 ⟨htop .inside trivial, hbelow⟩⟩
          exact Ending.eq_inside_of_admits he (.inr (.inr rfl))
      | text cs =>
          refine ⟨fun e he => ?_, hbelow⟩
          have hrun : (e.run cs).Admits (ts.flatMap Token.print).head? :=
            Ending.admits_run he hlead
          have hnext := htop (e.run cs) hrun
          rw [← String.toList_ofList (l := cs)] at hnext
          exact hnext
      | capture kind name =>
          refine ⟨fun e he => ?_, hbelow⟩
          have hnext := htop .inside trivial
          rw [← Ending.enter_of_admits kind he] at hnext
          exact hnext
      | nameless kind => exact absurd List.mem_cons_self (hnameless kind)

variable {source : String} {anchored : Bool} {p : Pattern}

theorem staysClean_of_slashesLead (hp : p.Plain source anchored)
    (hsqueezed : Squeezed source.toList) (hlead : SlashesLead source.toList) :
    p.segments.staysClean = true := by
  obtain ⟨tree, htree, hsegments⟩ := hp.tree
  obtain ⟨hnone, hstack⟩ := stack_of_parseTree (parseTree_of_readTree htree)
  rw [hsegments]
  rcases hlead with hroot | ⟨hslash, hlead⟩
  · rw [hstack, hroot]
    decide +kernel
  · have hleading : SlashesBefore Leading source.toList :=
      (hlead.and hsqueezed).imp fun _ h => ⟨h.1.1, h.1.2.1, h.1.2.2, h.2⟩
    rw [← print_tokens source.toList] at hleading hslash
    have hends := (endsInside_stack (nameless_notMem 0 hnone) hleading).1 .start hslash
    rw [← hstack] at hends
    exact Segments.staysClean_of_endsInside (Segments.endsInside_mapCaptures _ hends)

/-! ### Generated paths -/

/-- A declared path without globs, and with a capture in each of its groups, generates clean paths
only, if it is the root or each of its slashes has text or a capture behind it, and more generally
if its tree keeps its paths clean. With distinct names this is the exact condition: else some
values generate a path that is not clean when all that have a value are included. -/
theorem generate_isClean {path : String}
    (hp : compile (normalizeDeclaredPath path) .empty anchored = .ok p)
    (hglob : p.segments.hasGlob = false) (hgroups : p.segments.groupsCapture = true) :
    (SlashesLead (normalizeDeclaredPath path).toList → p.segments.staysClean = true) ∧
      (p.segments.staysClean = true → ∀ (values : Params) (wanted : String → Bool) (g : Generated),
        (∀ n v, values.get? n = some v → v ≠ "") → p.generate values wanted = .ok g →
        IsClean g.path.toList) ∧
      (((p.segments.occurrences false).map fun o => o.capture.name).Nodup →
        p.segments.staysClean = false → ∃ (values : Params) (g : Generated),
          (∀ n v, values.get? n = some v → v ≠ "") ∧
          p.generate values (fun _ => true) = .ok g ∧ ¬ IsClean g.path.toList) := by
  refine ⟨staysClean_of_slashesLead (plain_of_compile hp) (squeezed_normalizeDeclaredPath path),
    fun hclean values wanted g hvalues hg => ?_, fun hnames hclean => ?_⟩
  · obtain ⟨hdirect, hpath⟩ := path_of_generate hg
    have hpieces : ∀ x ∈ (p.segments.filling values wanted).captured, x.2 ≠ [] ∧ '/' ∉ x.2 := by
      intro x hx
      obtain ⟨v, hv, heq⟩ :=
        Segments.escapeWith_captured (Segments.every_dynamic hglob) hdirect x hx
      have hpiece := isPiece_escapeWith (s := v.toList) (by simpa using hvalues _ v hv)
      rw [heq]
      exact ⟨hpiece.ne_nil, hpiece.no_slash⟩
    rw [hpath, String.toList_ofList, isClean_iff, Walk.run_text _ hpieces]
    exact Segments.isWhole_ending hclean _
  · obtain ⟨e, he, hnot⟩ := List.all_eq_false.1 hclean
    obtain ⟨w, ⟨d, hd, hending⟩, hfits, hx⟩ := Segments.exists_walk_of_mem_endings he
    obtain ⟨values, hvalues, hdirect, hfilling⟩ :=
      Segments.exists_values_of_walk w hfits hx hgroups hnames
    refine ⟨values, _, hvalues, generate_eq_ok _ hdirect, ?_⟩
    have hpieces : ∀ x ∈ w.captured, x.2 ≠ [] ∧ '/' ∉ x.2 := by
      intro x hmem
      rw [hx x hmem]
      decide
    rw [hfilling, String.toList_ofList, isClean_iff, w.run_text hpieces,
      ← List.mem_singleton.1 hd, hending]
    exact hnot

theorem generate_isClean_posts :
    (∃ p g, compile (normalizeDeclaredPath "posts/(:page)(.:format)") .empty true = .ok p ∧
      SlashesLead (normalizeDeclaredPath "posts/(:page)(.:format)").toList ∧
      p.generate (.ofList [("page", "2/3")]) (fun _ => true) = .ok g ∧ IsClean g.path.toList) ∧
    ∃ p g, compile (normalizeDeclaredPath "(:locale)(/:platform)") .empty true = .ok p ∧
      p.segments.staysClean = false ∧ ∃ values, p.generate values (fun _ => true) = .ok g ∧
        ¬ IsClean g.path.toList := by
  refine ⟨?_, ?_⟩
  · have hmade : (compile (normalizeDeclaredPath "posts/(:page)(.:format)") .empty
        true).toOption.any (fun p => !p.segments.hasGlob && p.segments.groupsCapture &&
          (p.generate (.ofList [("page", "2/3")]) (fun _ => true)).toOption.isSome) = true := by
      decide +kernel
    obtain ⟨p, hp, hmade⟩ := exists_ok_of_any hmade
    simp only [Bool.and_eq_true, Bool.not_eq_true'] at hmade
    obtain ⟨⟨hglob, hgroups⟩, hsome⟩ := hmade
    obtain ⟨g, hg⟩ := Option.isSome_iff_exists.1 hsome
    have hgenerate := toOption_eq_some.1 hg
    have hlead : SlashesLead (normalizeDeclaredPath "posts/(:page)(.:format)").toList := by
      decide +kernel
    obtain ⟨hclean, hpaths, -⟩ := generate_isClean hp hglob hgroups
    refine ⟨p, g, hp, hlead, hgenerate, hpaths (hclean hlead) _ _ g (fun n v hv => ?_) hgenerate⟩
    obtain ⟨-, rfl⟩ := Prod.mk.inj (List.mem_singleton.1 (Dict.mem_of_get?_ofList hv))
    decide
  · have hmade : (compile (normalizeDeclaredPath "(:locale)(/:platform)") .empty
        true).toOption.any (fun p => !p.segments.hasGlob && p.segments.groupsCapture &&
          !p.segments.staysClean && decide (((p.segments.occurrences false).map fun o =>
            o.capture.name).Nodup)) = true := by
      decide +kernel
    obtain ⟨p, hp, hmade⟩ := exists_ok_of_any hmade
    simp only [Bool.and_eq_true, Bool.not_eq_true', decide_eq_true_eq] at hmade
    obtain ⟨⟨⟨hglob, hgroups⟩, hclean⟩, hnames⟩ := hmade
    obtain ⟨values, g, -, hg, hnot⟩ := (generate_isClean hp hglob hgroups).2.2 hnames hclean
    exact ⟨p, g, hp, hclean, values, hg, hnot⟩

/-- The declared path, with no glob and a capture in each of its groups, generates the text, which
is not clean. -/
def Spoils (path : String) (values : List (String × String)) (text : String) : Prop :=
  ∃ p, compile (normalizeDeclaredPath path) .empty true = .ok p ∧ p.segments.hasGlob = false ∧
    p.segments.groupsCapture = true ∧ (∀ e ∈ values, e.2 ≠ "") ∧
    (∃ g, p.generate (.ofList values) (fun _ => true) = .ok g ∧ g.path = text) ∧
    ¬ IsClean text.toList

theorem spoils_of_compile {path text : String} {values : List (String × String)}
    (h : (compile (normalizeDeclaredPath path) .empty true).toOption.any (fun p =>
      !p.segments.hasGlob && p.segments.groupsCapture &&
        decide ((p.generate (.ofList values) (fun _ => true)).toOption.map (·.path) = some text)) =
          true)
    (hvalues : ∀ e ∈ values, e.2 ≠ "") (htext : ¬ IsClean text.toList) :
    Spoils path values text := by
  obtain ⟨p, hp, h⟩ := exists_ok_of_any h
  simp only [Bool.and_eq_true, Bool.not_eq_true', decide_eq_true_eq] at h
  obtain ⟨⟨hglob, hgroups⟩, hpath⟩ := h
  obtain ⟨g, hg, heq⟩ := Option.map_eq_some_iff.1 hpath
  exact ⟨p, hp, hglob, hgroups, hvalues, ⟨g, toOption_eq_some.1 hg, heq⟩, htext⟩

/-- A path that is made of groups generates nothing at all when a later group has text in front of
its capture. Where the first slash has been put in front of the groups it meets that of a later
group when the first is left out, and a group may have a slash of its own at the end. -/
theorem spoils_of_groups :
    Spoils "(/:locale)(/pages/:page)" [] "" ∧
      Spoils "(/:locale)(/:platform)" [("platform", "web")] "//web" ∧
      Spoils "/posts(/:id/)" [("id", "1")] "/posts/1/" :=
  ⟨spoils_of_compile (by decide +kernel) (by decide) (by decide +kernel),
    spoils_of_compile (by decide +kernel) (by decide) (by decide +kernel),
    spoils_of_compile (by decide +kernel) (by decide) (by decide +kernel)⟩

end Pattern

end RouteEngine
