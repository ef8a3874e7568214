import Mathlib.Algebra.GroupWithZero.Nat
import RouteEngine.Pattern.Matching
import RouteEngine.Proofs.Pattern.Expression
import RouteEngine.Proofs.Regex.Numbering

/-!
What the expressions asked for by name come to. Every capture is one group of the compiled
expression, with the number that its slot records, as long as no expression gives a group up
(`inside_of_mem_groups`). So the text behind a delivered value is one that the capture's own
expression takes up where it stands (`takes_of_captured`), and the expression asked for matches
it as a whole value unless it asks for words and a word goes on there (`isMatch_of_captured`).
-/

namespace RouteEngine

open Outcome Regex

/-! ### Numbers of captures -/

namespace Regex

theorem mem_groupIndices_of_mem_groups {i : Nat} {a b : Regex} (h : (i, b) ∈ a.groups) :
    i ∈ a.groupIndices := by
  induction a with
  | empty => cases h
  | chars => cases h
  | look => cases h
  | concat a c iha ihc =>
      exact List.mem_append.2 ((List.mem_append.1 h).imp iha ihc)
  | alt a c iha ihc =>
      exact List.mem_append.2 ((List.mem_append.1 h).imp iha ihc)
  | plus _ a ih => exact ih h
  | opt _ a ih => exact ih h
  | group j a ih =>
      rcases List.mem_cons.1 h with heq | h
      · cases heq
        exact List.mem_cons_self
      · exact List.mem_cons_of_mem _ (ih h)

end Regex

namespace Capture

variable {c : Capture}

/-- How many groups a reader of the expression meets, with the whole. -/
def groupsMet (c : Capture) : Nat :=
  match readAlone c.regex with
  | .ok (p, _) => p.groups.next
  | .error _ => 1

theorem groupsMet_pos (c : Capture) : 0 < c.groupsMet := by
  unfold groupsMet
  split
  · next hp => exact ((numbersWithin _).alternatives hp).1
  · exact Nat.one_pos

theorem numberedWithin_inside (hc : Regex.parse c.regex = .ok c.inside) :
    NumberedWithin 1 c.groupsMet c.inside := by
  obtain ⟨p, hp, hinside⟩ := readAlone_of_parse hc
  rw [groupsMet, hp, ← hinside]
  exact numberedWithin_of_readAlone hp

/-- The groups inside the capture, when its own group has the number `first`. -/
theorem bounds_of_mem_groups (hc : Regex.parse c.regex = .ok c.inside) {first i : Nat} {b : Regex}
    (h : (i, b) ∈ (c.inside.renumber (· + first)).groups) :
    first < i ∧ i < first + c.groupsMet := by
  have hmem := mem_groupIndices_of_mem_groups h
  rw [groupIndices_renumber, List.mem_map] at hmem
  obtain ⟨j, hj, rfl⟩ := hmem
  have hbounds := numberedWithin_inside hc j hj
  omega

end Capture

namespace Segments

variable {count count' : Capture → Nat} {s : Segments} {first i : Nat} {c : Capture} {a b : Regex}

theorem slots_eq_ok {s : Segments} {first n : Nat} {slots : List Slot}
    (h : s.slots first = .ok (slots, n)) :
    s.Every (fun c => Regex.parse c.regex = .ok c.inside) ∧
      slots = (s.numberedBy (fun c => c.inside.groupCount) first).map
        (fun e => ⟨e.1.name, e.2⟩) ∧
      n = first + s.numbersBy fun c => c.inside.groupCount := by
  induction s generalizing first n slots with
  | done =>
      cases h
      exact ⟨trivial, rfl, rfl⟩
  | literal _ next ih => exact ih h
  | capture c next ih =>
      rw [Segments.slots] at h
      split at h
      · simp at h
      · next r hr =>
          obtain ⟨⟨rest, m⟩, hrest, h⟩ := bind_eq_ok.1 h
          cases pure_eq_ok.1 h
          have hinside : c.inside = r := by rw [Capture.inside, hr]; rfl
          subst hinside
          obtain ⟨hevery, rfl, rfl⟩ := ih hrest
          exact ⟨⟨hr, hevery⟩, rfl, by rw [numbersBy, Nat.add_assoc]⟩
  | group inner next ihInner ihNext =>
      obtain ⟨⟨here, m⟩, hhere, h⟩ := bind_eq_ok.1 h
      obtain ⟨⟨rest, m'⟩, hrest, h⟩ := bind_eq_ok.1 h
      cases pure_eq_ok.1 h
      obtain ⟨hevery, rfl, rfl⟩ := ihInner hhere
      obtain ⟨hevery', rfl, rfl⟩ := ihNext hrest
      exact ⟨⟨hevery, hevery'⟩, by rw [numberedBy, List.map_append], by
        rw [numbersBy, Nat.add_assoc]⟩

/-- Captures in a row, each with the number of its group. -/
def numberFrom (count : Capture → Nat) (first : Nat) : List Capture → List (Capture × Nat)
  | [] => []
  | c :: cs => (c, first) :: numberFrom count (first + count c) cs

theorem numberFrom_append (l m : List Capture) :
    numberFrom count first (l ++ m) =
      numberFrom count first l ++ numberFrom count (first + (l.map count).sum) m := by
  induction l generalizing first with
  | nil => rfl
  | cons c l ih => simp [numberFrom, ih, Nat.add_assoc]

theorem map_fst_numberFrom (cs : List Capture) :
    (numberFrom count first cs).map (·.1) = cs := by
  induction cs generalizing first with
  | nil => rfl
  | cons c cs ih => rw [numberFrom, List.map_cons, ih]

theorem numberFrom_eq_of_map_snd {first' : Nat} {cs : List Capture}
    (h : (numberFrom count first cs).map (·.2) = (numberFrom count' first' cs).map (·.2)) :
    numberFrom count first cs = numberFrom count' first' cs := by
  induction cs generalizing first first' with
  | nil => rfl
  | cons c cs ih =>
      obtain ⟨hfirst, htail⟩ := List.cons.inj h
      obtain rfl : first = first' := hfirst
      rw [numberFrom, numberFrom, ih htail]

/-- Numbers are the same exactly when every capture but the last takes as many. -/
theorem numberFrom_eq_iff (cs : List Capture) :
    numberFrom count first cs = numberFrom count' first cs ↔
      ∀ c ∈ cs.dropLast, count c = count' c := by
  induction cs generalizing first with
  | nil => simp [numberFrom]
  | cons c cs ih =>
      cases cs with
      | nil => simp [numberFrom]
      | cons d cs =>
          have hunfold : ∀ count, numberFrom count first (c :: d :: cs) =
              (c, first) :: numberFrom count (first + count c) (d :: cs) := fun _ => rfl
          rw [hunfold, hunfold, List.cons.injEq, List.dropLast_cons_cons, List.forall_mem_cons]
          constructor
          · rintro ⟨-, h⟩
            -- The next capture has the number that this one leaves it.
            have hnext : first + count c = first + count' c :=
              congrArg Prod.snd (List.cons.inj h).1
            have hcount := Nat.add_left_cancel hnext
            rw [← hcount] at h
            exact ⟨hcount, ih.1 h⟩
          · rintro ⟨hcount, h⟩
            rw [← hcount]
            exact ⟨rfl, ih.2 h⟩

theorem numbersBy_eq_sum (s : Segments) (optional : Bool) :
    s.numbersBy count = (((s.occurrences optional).map (·.capture)).map count).sum := by
  induction s generalizing optional with
  | done => rfl
  | literal _ next ih => exact ih optional
  | capture c next ih => rw [numbersBy, ih optional]; rfl
  | group inner next ihInner ihNext =>
      rw [numbersBy, ihInner true, ihNext optional, occurrences, List.map_append, List.map_append,
        List.sum_append]

theorem numberedBy_eq_numberFrom (s : Segments) (optional : Bool) :
    s.numberedBy count first = numberFrom count first ((s.occurrences optional).map (·.capture)) := by
  induction s generalizing first optional with
  | done => rfl
  | literal _ next ih => exact ih optional
  | capture c next ih => rw [numberedBy, ih optional]; rfl
  | group inner next ihInner ihNext =>
      rw [numberedBy, ihInner true, ihNext optional, occurrences, List.map_append,
        numberFrom_append, ← numbersBy_eq_sum]

theorem map_fst_numberedBy (s : Segments) (optional : Bool) :
    (s.numberedBy count first).map (·.1) = (s.occurrences optional).map (·.capture) := by
  rw [numberedBy_eq_numberFrom s optional, map_fst_numberFrom]

theorem numberedBy_eq_iff (s : Segments) (optional : Bool) :
    s.numberedBy count first = s.numberedBy count' first ↔
      ∀ o ∈ (s.occurrences optional).dropLast, count o.capture = count' o.capture := by
  rw [numberedBy_eq_numberFrom s optional, numberedBy_eq_numberFrom s optional, numberFrom_eq_iff,
    ← List.map_dropLast, List.forall_mem_map]

theorem numberedBy_eq_of_map_snd {first' : Nat}
    (h : (s.numberedBy count first).map (·.2) = (s.numberedBy count' first').map (·.2)) :
    s.numberedBy count first = s.numberedBy count' first' := by
  rw [numberedBy_eq_numberFrom s false, numberedBy_eq_numberFrom s false] at h ⊢
  exact numberFrom_eq_of_map_snd h

theorem Every.of_mem_occurrences {P : Capture → Prop} (hs : s.Every P) {optional : Bool}
    {o : Occurrence} (ho : o ∈ s.occurrences optional) : P o.capture := by
  induction s generalizing optional with
  | done => simp [occurrences] at ho
  | literal _ next ih => exact ih hs ho
  | capture d next ih =>
      rcases List.mem_cons.1 ho with rfl | ho
      · exact hs.1
      · exact ih hs.2 ho
  | group inner next ihInner ihNext =>
      rcases List.mem_append.1 ho with ho | ho
      · exact ihInner hs.1 ho
      · exact ihNext hs.2 ho

theorem exists_occurrence_of_mem_numberedBy (optional : Bool)
    (h : (c, i) ∈ s.numberedBy count first) : ∃ o ∈ s.occurrences optional, o.capture = c := by
  have hmem := List.mem_map_of_mem (f := Prod.fst) h
  rw [map_fst_numberedBy s optional] at hmem
  exact List.mem_map.1 hmem

theorem mem_names_of_mem_numberedBy (h : (c, i) ∈ s.numberedBy count first) :
    c.name ∈ s.names := by
  obtain ⟨o, ho, hcapture⟩ := exists_occurrence_of_mem_numberedBy false h
  exact Names.mem_distinct.2 (List.mem_map.2 ⟨o, ho, congrArg Capture.name hcapture⟩)

/-! ### Groups of the expression -/

theorem groups_textThen (text : List Char) (after : Regex) :
    (textThen text after).groups = after.groups := by
  induction text with
  | nil => rfl
  | cons c text ih => exact ih

theorem bounds_of_mem_groups (hs : s.Every fun c => Regex.parse c.regex = .ok c.inside)
    (ha : a.groups = []) (h : (i, b) ∈ (s.compiledBy Capture.groupsMet first a).groups) :
    first ≤ i ∧ i < first + s.numbersBy Capture.groupsMet := by
  induction s generalizing first a with
  | done => simp [compiledBy, ha] at h
  | literal text next ih =>
      rw [compiledBy, groups_textThen] at h
      exact ih hs ha h
  | capture d next ih =>
      rw [numbersBy]
      rcases List.mem_append.1 h with h | h
      · rcases List.mem_cons.1 h with heq | h
        · cases heq
          have hpos := d.groupsMet_pos
          omega
        · have hbounds := Capture.bounds_of_mem_groups hs.1 h
          omega
      · have hbounds := ih hs.2 ha h
        omega
  | group inner next ihInner ihNext =>
      rw [numbersBy]
      rcases List.mem_append.1 h with h | h
      · have hbounds := ihInner hs.1 rfl h
        omega
      · have hbounds := ihNext hs.2 ha h
        omega

/-- The group with a capture's number has the capture's expression inside. -/
theorem inside_of_mem_groups (hs : s.Every fun c => Regex.parse c.regex = .ok c.inside)
    (ha : a.groups = []) (hc : (c, i) ∈ s.numberedBy Capture.groupsMet first)
    (h : (i, b) ∈ (s.compiledBy Capture.groupsMet first a).groups) :
    b = c.inside.renumber (· + i) := by
  -- A number belongs to one piece of the tree, so the group and the capture are in the same.
  induction s generalizing first a with
  | done => simp [numberedBy] at hc
  | literal text next ih =>
      rw [compiledBy, groups_textThen] at h
      exact ih hs ha hc h
  | capture d next ih =>
      have hpos := d.groupsMet_pos
      rcases List.mem_cons.1 hc with heq | hc
      · cases heq
        rcases List.mem_append.1 h with h | h
        · rcases List.mem_cons.1 h with heq | h
          · cases heq
            rfl
          · exact absurd (Capture.bounds_of_mem_groups hs.1 h).1 (Nat.lt_irrefl _)
        · have hbounds := bounds_of_mem_groups hs.2 ha h
          omega
      · have hnumber := bounds_of_mem_numberedBy Capture.groupsMet_pos hc
        rcases List.mem_append.1 h with h | h
        · rcases List.mem_cons.1 h with heq | h
          · cases heq
            simp only at hnumber
            omega
          · have hbounds := Capture.bounds_of_mem_groups hs.1 h
            simp only at hnumber
            omega
        · exact ih hs.2 ha hc h
  | group inner next ihInner ihNext =>
      rcases List.mem_append.1 hc with hc | hc <;> rcases List.mem_append.1 h with h | h
      · exact ihInner hs.1 rfl hc h
      · have hnumber := bounds_of_mem_numberedBy Capture.groupsMet_pos hc
        have hbounds := bounds_of_mem_groups hs.2 ha h
        simp only at hnumber
        omega
      · have hnumber := bounds_of_mem_numberedBy Capture.groupsMet_pos hc
        have hbounds := bounds_of_mem_groups hs.1 rfl h
        simp only at hnumber
        omega
      · exact ihNext hs.2 ha hc h

theorem names_mapCaptures {f : Capture → Capture} (hf : ∀ c, (f c).name = c.name)
    (s : Segments) : (s.mapCaptures f).names = s.names := by
  have hmap : ∀ optional, ((s.mapCaptures f).occurrences optional).map (·.capture.name) =
      (s.occurrences optional).map (·.capture.name) := by
    induction s with
    | done => exact fun _ => rfl
    | literal _ next ih => exact ih
    | capture c next ih =>
        intro optional
        simp only [mapCaptures, occurrences, List.map_cons, hf, ih]
    | group inner next ihInner ihNext =>
        intro optional
        simp only [mapCaptures, occurrences, List.map_append, ihInner, ihNext]
  exact congrArg Names.distinct (hmap false)

end Segments

/-! ### Captures with requirements -/

namespace Capture

variable {c : Capture} {w : Regex}

theorem whole_inside (hc : Regex.parse c.regex = .ok c.inside)
    (hw : Regex.parseWhole c.regex = .ok w) : w = whole c.inside := by
  obtain ⟨p, hp, hinside⟩ := readAlone_of_parse hc
  rw [← hinside]
  exact (parseChars_anchored hp hw).1

theorem enclosedBy_of_parse (hc : Regex.parse c.regex = .ok c.inside)
    (hw : Regex.parseWhole c.regex = .ok w) : c.EnclosedBy c.groupsMet := by
  obtain ⟨p, hp, hinside⟩ := readAlone_of_parse hc
  have hmet : c.groupsMet = p.groups.next := by rw [groupsMet, hp]
  refine ⟨head?_ne_question hp, fun {n g x r s} h => ?_⟩
  obtain ⟨hshift, hs⟩ := readAlternatives_enclosed (d := g.next) hp hw rfl h
  refine ⟨⟨?_, ?_⟩, hs⟩
  · rw [hshift.regex, hinside]
  · rw [hshift.next, hmet, Nat.add_comm]

/-- Every group is left exactly when as many are counted as were met. -/
theorem keepsGroups_iff (hc : Regex.parse c.regex = .ok c.inside) :
    keepsGroups c.regex = true ↔ c.inside.groupCount = c.groupsMet := by
  obtain ⟨p, hp, hinside⟩ := readAlone_of_parse hc
  rw [keepsGroups, groupsMet, hp, ← hinside]
  exact decide_eq_true_iff

theorem exists_parseWhole_of_isPlain (hc : c.IsPlain) :
    ∃ w, Regex.parseWhole c.regex = .ok w := by
  unfold Regex.parseWhole
  rcases regex_cases hc with ⟨htext, -⟩ | ⟨htext, -⟩ | ⟨htext, -⟩ <;> rw [htext] <;>
    exact ⟨_, Regex.parseChars_eq_ok.2 ⟨_, rfl, by decide, by decide⟩⟩

/-- The capture has the expression asked for by its name, if there is one. -/
def Requires (requirements : Dict String) (c : Capture) : Prop :=
  match requirements.get? c.name with
  | some source => c.regex = source
  | none => c.IsPlain

end Capture

namespace Pattern

variable {requirements : Dict String} {source path : String} {anchored : Bool} {p : Pattern}

theorem name_requireCapture (hasFormat : Bool) (c : Capture) :
    (requireCapture requirements hasFormat c).name = c.name := by
  unfold requireCapture
  split
  · rfl
  · split <;> rfl

theorem requires_requireCapture (hasFormat : Bool) {c : Capture} (hc : c.IsPlain) :
    (requireCapture requirements hasFormat c).Requires requirements := by
  unfold Capture.Requires
  rw [name_requireCapture]
  split
  · next asked hget => rw [requireCapture, hget]
  · next hnone => exact isPlain_requireCapture hnone hasFormat hc

theorem forall₂_checkRequirements {entries : List (String × String)}
    {checked : List (String × Regex)} (h : checkRequirements entries = .ok checked) :
    List.Forall₂ (fun e c => e.1 = c.1 ∧ Regex.parseWhole e.2 = .ok c.2) entries checked := by
  induction entries generalizing checked with
  | nil =>
      cases h
      exact .nil
  | cons e entries ih =>
      obtain ⟨r, hr, h⟩ := bind_eq_ok.1 h
      obtain ⟨rs, hrs, h⟩ := bind_eq_ok.1 h
      obtain rfl := pure_eq_ok.1 h
      refine .cons ⟨rfl, ?_⟩ (ih hrs)
      rw [checkRequirement] at hr
      split at hr
      · simp at hr
      · split at hr
        · simp at hr
        · next hw => rw [hw, Except.ok.inj hr]

theorem lookup_of_forall₂ {entries : List (String × String)} {checked : List (String × Regex)}
    (h : List.Forall₂ (fun e c => e.1 = c.1 ∧ Regex.parseWhole e.2 = .ok c.2) entries checked)
    (k : String) :
    Option.Rel (fun asked w => Regex.parseWhole asked = .ok w) (Dict.lookup k entries)
      (Dict.lookup k checked) := by
  induction h with
  | nil => exact .none
  | @cons e c entries checked hfirst _ ih =>
      obtain ⟨x, asked⟩ := e
      obtain ⟨x', w⟩ := c
      obtain ⟨rfl, hw⟩ := hfirst
      rw [Dict.lookup, Dict.lookup]
      split
      · exact .some hw
      · exact ih

/-- What is required of a name is read as an expression for the whole value. -/
theorem requirement?_of_compile (hp : compile source requirements anchored = .ok p) (k : String) :
    Option.Rel (fun asked w => Regex.parseWhole asked = .ok w) (requirements.get? k)
      (p.requirement? k) := by
  obtain ⟨tree, checked, count, -, -, hchecked, -, -, -, hrequirements, -⟩ := compile_eq_ok hp
  have hreverse := List.forall₂_reverse_iff.2 (forall₂_checkRequirements hchecked)
  rw [requirement?, hrequirements, Dict.ofList, Dict.get?_insertAll, Dict.get?_empty,
    Option.or_none, Dict.get?, ← Dict.lookup_reverse requirements.distinct_entries]
  exact lookup_of_forall₂ hreverse k

/-- Each capture of a compiled pattern has its own expression or the one asked for. -/
theorem requires_of_compile (hp : compile source requirements anchored = .ok p) :
    p.segments.Every (Capture.Requires requirements) := by
  obtain ⟨tree, checked, count, htree, -, -, hsegments, -⟩ := compile_eq_ok hp
  rw [hsegments]
  exact (plain_readTree htree).mapCaptures fun _ => requires_requireCapture _

/-- Requirements leave the names of a pattern as they are. -/
theorem names_of_compile (hp : compile source requirements anchored = .ok p)
    {names : List String} (hnames : parseNames source = .ok names) : p.names = names := by
  obtain ⟨tree, checked, count, htree, -, -, hsegments, -⟩ := compile_eq_ok hp
  rw [parseNames, htree] at hnames
  cases hnames
  rw [Pattern.names, hsegments]
  exact Segments.names_mapCaptures (name_requireCapture _) tree

theorem parseWhole_of_compile (hp : compile source requirements anchored = .ok p) {k asked : String}
    (hk : requirements.get? k = some asked) : ∃ w, Regex.parseWhole asked = .ok w := by
  have hrequired := requirement?_of_compile hp k
  rw [hk] at hrequired
  generalize p.requirement? k = found at hrequired
  cases hrequired with
  | some hw => exact ⟨_, hw⟩

/-- The expression of each capture can be read for a whole value. -/
theorem exists_parseWhole_of_compile (hp : compile source requirements anchored = .ok p) :
    p.segments.Every fun c => ∃ w, Regex.parseWhole c.regex = .ok w := by
  refine (requires_of_compile hp).imp fun c hrequires => ?_
  unfold Capture.Requires at hrequires
  split at hrequires
  · next asked hasked => exact hrequires ▸ parseWhole_of_compile hp hasked
  · exact Capture.exists_parseWhole_of_isPlain hrequires

/-- The pattern's expression is that of its tree, with each capture's expression in it as it is by
itself. -/
theorem compiledBy_of_compile (hp : compile source requirements anchored = .ok p) :
    p.regex = .concat (.look .textStart)
        (p.segments.compiledBy Capture.groupsMet 1 (closing anchored)) ∧
      p.segments.Every fun c => Regex.parse c.regex = .ok c.inside := by
  obtain ⟨tree, checked, count, -, -, -, -, hslots, hparse, -⟩ := compile_eq_ok hp
  obtain ⟨hevery, -, -⟩ := Segments.slots_eq_ok hslots
  refine ⟨regexBy_of_parseChars (((exists_parseWhole_of_compile hp).and hevery).imp ?_) hparse,
    hevery⟩
  rintro c ⟨⟨w, hw⟩, hparse⟩
  exact Capture.enclosedBy_of_parse hparse hw

/-- Counting and reading give the captures the same numbers exactly when every capture but the last
keeps its groups. -/
theorem numberedBy_groupsMet_iff {s : Segments}
    (hs : s.Every fun c => Regex.parse c.regex = .ok c.inside) :
    s.numberedBy (fun c => c.inside.groupCount) 1 = s.numberedBy Capture.groupsMet 1 ↔
      ∀ o ∈ (s.occurrences false).dropLast, keepsGroups o.capture.regex = true := by
  rw [s.numberedBy_eq_iff false]
  refine forall₂_congr fun o ho => (Capture.keepsGroups_iff ?_).symm
  exact hs.of_mem_occurrences ((List.dropLast_sublist _).subset ho)

theorem groups_slots_iff (hp : compile source requirements anchored = .ok p) :
    p.slots.map (·.group) = (p.segments.numberedBy Capture.groupsMet 1).map (·.2) ↔
      ∀ o ∈ (p.segments.occurrences false).dropLast, keepsGroups o.capture.regex = true := by
  obtain ⟨tree, checked, count, -, -, -, -, hslots, -⟩ := compile_eq_ok hp
  obtain ⟨hparse, hslots, -⟩ := Segments.slots_eq_ok hslots
  rw [← numberedBy_groupsMet_iff hparse, hslots, List.map_map]
  exact ⟨Segments.numberedBy_eq_of_map_snd, fun h => congrArg (List.map Prod.snd) h⟩

theorem slots_of_keepsGroups (hp : compile source requirements anchored = .ok p)
    (hkeeps : ∀ o ∈ (p.segments.occurrences false).dropLast, keepsGroups o.capture.regex = true) :
    p.slots = (p.segments.numberedBy Capture.groupsMet 1).map fun e => ⟨e.1.name, e.2⟩ := by
  obtain ⟨tree, checked, count, -, -, -, -, hslots, -⟩ := compile_eq_ok hp
  obtain ⟨hparse, hslots, -⟩ := Segments.slots_eq_ok hslots
  rw [hslots, (numberedBy_groupsMet_iff hparse).2 hkeeps]

theorem groups_closing (anchored : Bool) : (closing anchored).groups = [] := by
  cases anchored <;> rfl

/-! ### Delivered values -/

/-- A delivered value is what some group of its name stands for, unescaped. -/
theorem exists_slot_of_collect {found : Found} {cs : List Char} {slots : List Slot}
    {params result : Params} {k v : String} (h : collect found cs slots params = some result)
    (hv : result.get? k = some v) :
    params.get? k = some v ∨ ∃ s ∈ slots, s.name = k ∧ ∃ raw, found.group? cs s.group = some raw ∧
      Escape.unescapeChars raw = some v.toList := by
  induction slots generalizing params with
  | nil =>
      cases h
      exact .inl hv
  | cons s slots ih =>
      have hlater : ∀ {params}, collect found cs slots params = some result →
          params.get? k = some v ∨ ∃ x ∈ s :: slots, x.name = k ∧ ∃ raw,
            found.group? cs x.group = some raw ∧ Escape.unescapeChars raw = some v.toList := by
        intro params h
        refine (ih h).imp_right ?_
        rintro ⟨x, hx, hrest⟩
        exact ⟨x, List.mem_cons_of_mem _ hx, hrest⟩
      rw [collect] at h
      split at h
      · exact hlater h
      · next raw hraw =>
          split at h
          · simp at h
          · next value hvalue =>
              simp only at h
              split at h
              · split at h
                · exact hlater h
                · simp at h
              · next hnone =>
                  obtain hinsert | hslot := hlater h
                  · rw [Dict.get?_insert] at hinsert
                    split at hinsert
                    · next hname =>
                        cases hinsert
                        refine .inr ⟨s, List.mem_cons_self, hname, raw, hraw, ?_⟩
                        rw [hvalue, String.toList_ofList]
                    · exact .inl hinsert
                  · exact .inr hslot

theorem collect_of_matchPath {captured : Captured} (h : p.matchPath path = some captured) :
    ∃ found, p.regex.search path.toList = some found ∧
      collect found path.toList p.slots .empty = some captured.params := by
  rw [matchPath] at h
  simp only at h
  split at h
  · simp at h
  · next found hfound =>
      split at h
      · simp at h
      · obtain ⟨params, hparams, rfl⟩ := Option.map_eq_some_iff.1 h
        exact ⟨found, hfound, hparams⟩

/-- Behind a delivered value there is a stretch of the path that the expression of a capture of
its name takes up there. -/
theorem takes_of_captured (hp : compile source requirements anchored = .ok p)
    (hkeeps : p.segments.Every fun c => keepsGroups c.regex = true) {captured : Captured}
    (h : p.matchPath path = some captured) {k v : String} (hv : captured.params.get? k = some v) :
    ∃ (c : Capture) (before raw after : List Char), c.name = k ∧ c.Requires requirements ∧
      Regex.parse c.regex = .ok c.inside ∧ path.toList = before ++ raw ++ after ∧
      Escape.unescapeChars raw = some v.toList ∧ Takes c.inside before.getLast? raw after := by
  obtain ⟨found, hfound, hcollect⟩ := collect_of_matchPath h
  obtain ⟨hregex, hparse⟩ := compiledBy_of_compile hp
  have hslots := slots_of_keepsGroups hp fun o ho =>
    hkeeps.of_mem_occurrences ((List.dropLast_sublist _).subset ho)
  obtain hempty | ⟨s, hs, hname, raw, hraw, hvalue⟩ := exists_slot_of_collect hcollect hv
  · simp at hempty
  · rw [hslots, List.mem_map] at hs
    obtain ⟨⟨c, i⟩, hc, rfl⟩ := hs
    obtain ⟨b, before, after, hb, hpath, htakes⟩ := takes_of_group? hfound hraw
    rw [hregex] at hb
    have hb' : (i, b) ∈ (p.segments.compiledBy Capture.groupsMet 1 (closing anchored)).groups := hb
    have hinside := Segments.inside_of_mem_groups hparse (groups_closing anchored) hc hb'
    rw [hinside] at htakes
    obtain ⟨o, ho, rfl⟩ := Segments.exists_occurrence_of_mem_numberedBy false hc
    have hcapture := ((requires_of_compile hp).and hparse).of_mem_occurrences ho
    exact ⟨o.capture, before, raw, after, hname, hcapture.1, hcapture.2, hpath, hvalue,
      htakes.of_renumber_add⟩

/-- Only names of the pattern have delivered values. -/
theorem mem_names_of_captured (hp : compile source requirements anchored = .ok p)
    {captured : Captured} (h : p.matchPath path = some captured) {k v : String}
    (hv : captured.params.get? k = some v) : k ∈ p.names := by
  obtain ⟨found, hfound, hcollect⟩ := collect_of_matchPath h
  obtain ⟨tree, checked, count, -, -, -, -, hslots, -⟩ := compile_eq_ok hp
  obtain hempty | ⟨s, hs, rfl, -⟩ := exists_slot_of_collect hcollect hv
  · simp at hempty
  · rw [(Segments.slots_eq_ok hslots).2.1, List.mem_map] at hs
    obtain ⟨⟨c, i⟩, hc, rfl⟩ := hs
    exact Segments.mem_names_of_mem_numberedBy hc

/-- The expression asked for by a name matches, as a whole value, the stretch of the path behind
the delivered value, unless it asks for words and a word goes on beyond the stretch. -/
theorem isMatch_of_captured (hp : compile source requirements anchored = .ok p)
    (hkeeps : p.segments.Every fun c => keepsGroups c.regex = true) {k asked v : String}
    (hasked : requirements.get? k = some asked) {captured : Captured}
    (h : p.matchPath path = some captured) (hv : captured.params.get? k = some v) :
    ∃ (a : Regex) (before raw after : List Char), Regex.parse asked = .ok a ∧
      Regex.parseWhole asked = .ok (whole a) ∧ path.toList = before ++ raw ++ after ∧
      Escape.unescapeChars raw = some v.toList ∧
      ((a.asksWords = true →
        isWordAt false before.getLast? = false ∧ isWordAt false after.head? = false) →
          (whole a).isMatch raw = true) := by
  obtain ⟨c, before, raw, after, rfl, hrequires, hparse, hpath, hvalue, htakes⟩ :=
    takes_of_captured hp hkeeps h hv
  obtain ⟨w, hw⟩ := parseWhole_of_compile hp hasked
  unfold Capture.Requires at hrequires
  rw [hasked] at hrequires
  obtain rfl : c.regex = asked := hrequires
  rw [Capture.whole_inside hparse hw] at hw
  exact ⟨c.inside, before, raw, after, hparse, hw, hpath, hvalue,
    fun hwords => isMatch_whole.2 (htakes.alone hwords)⟩

end Pattern

end RouteEngine
