import RouteEngine.Proofs.Regex.Onward

/-!
What an expression matches, without an order of preference. `Takes r prev text after` says that
`r` may take up `text` between the character `prev` and the characters `after`, which only
conditions on places look at. The matcher lists exactly the lengths of such texts
(`takes_of_mem_ends`, `exists_mem_ends_of_takes`), and each span of a group that it reports is a
text that the inside of the group takes up (`located_of_mem_ends`).
-/

namespace RouteEngine.Regex

/-- The character before the place that lies behind a text. -/
def lastOf (prev : Option Char) : List Char → Option Char
  | [] => prev
  | c :: r => lastOf (some c) r

@[simp] theorem lastOf_nil (prev : Option Char) : lastOf prev [] = prev :=
  rfl

theorem lastOf_append (prev : Option Char) (s t : List Char) :
    lastOf prev (s ++ t) = lastOf (lastOf prev s) t := by
  induction s generalizing prev with
  | nil => rfl
  | cons c s ih => exact ih (some c)

inductive Takes : Regex → (prev : Option Char) → (text after : List Char) → Prop
  | empty {prev after} : Takes .empty prev [] after
  | chars {cls c prev after} (h : CharClass.holds cls c = true) : Takes (.chars cls) prev [c] after
  | look {l prev after} (h : Look.holds prev (List.head? after) l = true) :
    Takes (.look l) prev [] after
  | concat {a b prev s t after} (ha : Takes a prev s (t ++ after))
    (hb : Takes b (lastOf prev s) t after) : Takes (.concat a b) prev (s ++ t) after
  | left {a b prev s after} (ha : Takes a prev s after) : Takes (.alt a b) prev s after
  | right {a b prev s after} (hb : Takes b prev s after) : Takes (.alt a b) prev s after
  | once {greedy a prev s after} (ha : Takes a prev s after) : Takes (.plus greedy a) prev s after
  | again {greedy a prev s t after} (hs : s ≠ []) (ha : Takes a prev s (t ++ after))
    (hrest : Takes (.plus greedy a) (lastOf prev s) t after) :
    Takes (.plus greedy a) prev (s ++ t) after
  | skip {greedy a prev after} : Takes (.opt greedy a) prev [] after
  | some {greedy a prev s after} (ha : Takes a prev s after) : Takes (.opt greedy a) prev s after
  | group {i a prev s after} (ha : Takes a prev s after) : Takes (.group i a) prev s after

section Parts

variable {a b c : Regex} {prev : Option Char} {t after : List Char}

theorem takes_empty : Takes .empty prev t after ↔ t = [] := by
  constructor
  · intro h
    cases h
    rfl
  · rintro rfl
    exact .empty

theorem takes_concat :
    Takes (.concat a b) prev t after ↔
      ∃ u v, t = u ++ v ∧ Takes a prev u (v ++ after) ∧ Takes b (lastOf prev u) v after := by
  constructor
  · intro h
    cases h with
    | concat ha hb => exact ⟨_, _, rfl, ha, hb⟩
  · rintro ⟨u, v, rfl, ha, hb⟩
    exact .concat ha hb

theorem takes_empty_concat : Takes (.concat .empty a) prev t after ↔ Takes a prev t after := by
  rw [takes_concat]
  constructor
  · rintro ⟨u, v, rfl, hu, hv⟩
    obtain rfl := takes_empty.1 hu
    exact hv
  · exact fun h => ⟨[], t, rfl, .empty, h⟩

theorem takes_concat_assoc :
    Takes (.concat (.concat a b) c) prev t after ↔
      Takes (.concat a (.concat b c)) prev t after := by
  constructor
  · intro h
    obtain ⟨_, w, rfl, hab, hc⟩ := takes_concat.1 h
    obtain ⟨u, v, rfl, ha, hb⟩ := takes_concat.1 hab
    rw [lastOf_append] at hc
    rw [List.append_assoc]
    exact .concat (by simpa using ha) (.concat hb hc)
  · intro h
    obtain ⟨u, _, rfl, ha, hbc⟩ := takes_concat.1 h
    obtain ⟨v, w, rfl, hb, hc⟩ := takes_concat.1 hbc
    rw [← lastOf_append] at hc
    rw [← List.append_assoc]
    exact .concat (.concat (by simpa using ha) hb) hc

theorem takes_concat_congr
    (h : ∀ prev t, Takes b prev t after ↔ Takes c prev t after) :
    Takes (.concat a b) prev t after ↔ Takes (.concat a c) prev t after := by
  simp only [takes_concat, h]

theorem takes_opt {greedy : Bool} :
    Takes (.opt greedy a) prev t after ↔ t = [] ∨ Takes a prev t after := by
  constructor
  · intro h
    cases h with
    | skip => exact .inl rfl
    | some ha => exact .inr ha
  · rintro (rfl | ha)
    · exact .skip
    · exact .some ha

theorem takes_group {i : Nat} : Takes (.group i a) prev t after ↔ Takes a prev t after := by
  constructor
  · intro h
    cases h with
    | group ha => exact ha
  · exact .group

end Parts

/-- The groups of an expression, each with its inside. -/
def groups : Regex → List (Nat × Regex)
  | .empty => []
  | .chars _ => []
  | .look _ => []
  | .concat a b => a.groups ++ b.groups
  | .alt a b => a.groups ++ b.groups
  | .plus _ a => a.groups
  | .opt _ a => a.groups
  | .group i a => (i, a) :: a.groups

/-! ### Places -/

theorem Place.advance_mk (i : Nat) (prev : Option Char) (s t : List Char) :
    (Place.mk i prev (s ++ t)).advance s.length = ⟨i + s.length, lastOf prev s, t⟩ := by
  induction s generalizing i prev with
  | nil => rfl
  | cons c s ih =>
      change (Place.mk (i + 1) (Option.some c) (s ++ t)).advance s.length = _
      rw [ih, lastOf, List.length_cons, Nat.add_assoc, Nat.add_comm 1]

theorem Place.advance_of_rest {p : Place} {s t : List Char} (h : p.rest = s ++ t) :
    p.advance s.length = ⟨p.index + s.length, lastOf p.prev s, t⟩ := by
  rw [← Place.advance_mk, ← h]

theorem Place.prev_advance_append {p : Place} {s t : List Char} (h : p.rest = s ++ t) :
    (p.advance s.length).prev = lastOf p.prev s := by
  rw [Place.advance_of_rest h]

/-! ### Hits -/

theorem exists_mem_dedup {h : Hit} {l : List Hit} (hh : h ∈ l) :
    ∃ k ∈ dedup l, k.length = h.length := by
  induction l with
  | nil => simp at hh
  | cons k l ih =>
      by_cases hlength : h.length = k.length
      · exact ⟨k, List.mem_cons_self, hlength.symm⟩
      · have hl : h ∈ l := by
          rcases List.mem_cons.1 hh with rfl | hl
          · exact absurd rfl hlength
          · exact hl
        obtain ⟨j, hj, hjlength⟩ := ih hl
        have hkept : j ∈ (dedup l).filter fun x => x.length ≠ k.length :=
          List.mem_filter.2 ⟨hj, by simpa [hjlength] using hlength⟩
        exact ⟨j, List.mem_cons_of_mem _ hkept, hjlength⟩

theorem mem_onward {greedy : Bool} {later : List (List Hit)} {h k : Hit} :
    k ∈ onward greedy later h ↔
      h.length ≠ 0 ∧ (k = h ∨ ∃ l ∈ later.getD (h.length - 1) [], k = h.andThen l) := by
  rw [onward]
  split
  · next hzero => simp [hzero]
  · next hpos =>
      cases greedy <;> simp [hpos, eq_comm, or_comm]

section Rounds

variable {step : Place → List Hit} {greedy : Bool} {p : Place} {h k l : Hit}

/-- The hits of one further round or more. -/
def furtherEnds (step : Place → List Hit) (greedy : Bool) (p : Place) : List Hit :=
  (rounds step greedy p.index p.prev p.rest).getD 0 []

theorem getD_rounds (i : Nat) (prev : Option Char) (rest : List Char) (m : Nat) :
    (rounds step greedy i prev rest).getD m [] =
      furtherEnds step greedy ((Place.mk i prev rest).advance m) := by
  induction m generalizing i prev rest with
  | zero => rfl
  | succ m ih =>
      cases rest with
      | nil => simp [rounds, furtherEnds, Place.advance]
      | cons c r => exact ih (i + 1) (some c) r

/-- What follows a round that takes up characters. -/
theorem getD_later (hlength : h.length ≠ 0) {c : Char} {r : List Char} (hrest : p.rest = c :: r) :
    (rounds step greedy (p.index + 1) (some c) r).getD (h.length - 1) [] =
      furtherEnds step greedy (p.advance h.length) := by
  obtain ⟨n, hn⟩ := Nat.exists_eq_succ_of_ne_zero hlength
  rw [getD_rounds, hn, Place.advance_succ hrest]
  rfl

theorem furtherEnds_of_rest_nil (hrest : p.rest = []) : furtherEnds step greedy p = [] := by
  rw [furtherEnds, hrest]
  rfl

theorem furtherEnds_of_rest {c : Char} {r : List Char} (hrest : p.rest = c :: r) :
    furtherEnds step greedy p = dedup ((step p).flatMap
      (onward greedy (rounds step greedy (p.index + 1) (some c) r))) := by
  obtain ⟨i, prev, rest⟩ := p
  cases hrest
  rfl

theorem mem_furtherEnds (hk : k ∈ furtherEnds step greedy p) :
    ∃ h ∈ step p, h.length ≠ 0 ∧
      (k = h ∨ ∃ l ∈ furtherEnds step greedy (p.advance h.length), k = h.andThen l) := by
  cases hrest : p.rest with
  | nil => simp [furtherEnds_of_rest_nil hrest] at hk
  | cons c r =>
      rw [furtherEnds_of_rest hrest] at hk
      obtain ⟨h, hh, hk⟩ := List.mem_flatMap.1 (mem_of_mem_dedup hk)
      obtain ⟨hlength, hk⟩ := mem_onward.1 hk
      rw [getD_later hlength hrest] at hk
      exact ⟨h, hh, hlength, hk⟩

theorem exists_mem_furtherEnds (hrest : p.rest ≠ []) (hh : h ∈ step p) (hlength : h.length ≠ 0)
    (hk : k = h ∨ ∃ l ∈ furtherEnds step greedy (p.advance h.length), k = h.andThen l) :
    ∃ j ∈ furtherEnds step greedy p, j.length = k.length := by
  obtain ⟨c, r, hrest⟩ := List.exists_cons_of_ne_nil hrest
  rw [furtherEnds_of_rest hrest]
  refine exists_mem_dedup (List.mem_flatMap.2 ⟨h, hh, mem_onward.2 ⟨hlength, ?_⟩⟩)
  rwa [getD_later hlength hrest]

theorem mem_firstRound (hk : k ∈ firstRound step greedy p) :
    ∃ h ∈ step p, k = h ∨
      h.length ≠ 0 ∧ ∃ l ∈ furtherEnds step greedy (p.advance h.length), k = h.andThen l := by
  rw [firstRound] at hk
  obtain ⟨h, hh, hk⟩ := List.mem_flatMap.1 (mem_of_mem_dedup hk)
  refine ⟨h, hh, ?_⟩
  split at hk
  · exact .inl (List.mem_singleton.1 hk)
  · obtain ⟨hlength, rfl | ⟨l, hl, hk⟩⟩ := mem_onward.1 hk
    · exact .inl rfl
    · cases hrest : p.rest with
      | nil => simp [hrest] at hl
      | cons c r =>
          rw [hrest, getD_later hlength hrest] at hl
          exact .inr ⟨hlength, l, hl, hk⟩

theorem exists_mem_firstRound (hh : h ∈ step p)
    (hk : k = h ∨ p.rest ≠ [] ∧ h.length ≠ 0 ∧
      ∃ l ∈ furtherEnds step greedy (p.advance h.length), k = h.andThen l) :
    ∃ j ∈ firstRound step greedy p, j.length = k.length := by
  rw [firstRound]
  refine exists_mem_dedup (List.mem_flatMap.2 ⟨h, hh, ?_⟩)
  split
  · next hzero =>
      rcases hk with rfl | ⟨-, hlength, -⟩
      · exact List.mem_singleton_self _
      · exact absurd hzero hlength
  · next hlength =>
      refine mem_onward.2 ⟨hlength, hk.imp_right ?_⟩
      rintro ⟨hrest, -, l, hl, rfl⟩
      obtain ⟨c, r, hrest⟩ := List.exists_cons_of_ne_nil hrest
      simp only [hrest]
      exact ⟨l, by rwa [getD_later hlength hrest], rfl⟩

/-- A first round or more that take up characters are further ones. -/
theorem exists_mem_furtherEnds_of_mem_firstRound (hrest : p.rest ≠ [])
    (hk : k ∈ firstRound step greedy p) (hlength : k.length ≠ 0) :
    ∃ j ∈ furtherEnds step greedy p, j.length = k.length := by
  obtain ⟨h, hh, rfl | ⟨hh0, hl⟩⟩ := mem_firstRound hk
  · exact exists_mem_furtherEnds hrest hh hlength (.inl rfl)
  · exact exists_mem_furtherEnds hrest hh hh0 (.inr hl)

end Rounds

/-! ### What a hit stands for -/

/-- The span lies behind the place `p` and is a text that the inside of its group takes up. -/
def Located (gs : List (Nat × Regex)) (p : Place) (sp : Span) : Prop :=
  ∃ b before raw after, (sp.group, b) ∈ gs ∧ p.rest = before ++ raw ++ after ∧
    sp.first = p.index + before.length ∧ sp.last = sp.first + raw.length ∧
      Takes b (lastOf p.prev before) raw after

theorem Located.mono {gs hs : List (Nat × Regex)} {p : Place} {sp : Span} (h : Located gs p sp)
    (hsub : gs ⊆ hs) : Located hs p sp := by
  obtain ⟨b, before, raw, after, hmem, hrest⟩ := h
  exact ⟨b, before, raw, after, hsub hmem, hrest⟩

theorem Located.of_advance {gs : List (Nat × Regex)} {p : Place} {sp : Span} {s t : List Char}
    (hp : p.rest = s ++ t) (h : Located gs (p.advance s.length) sp) : Located gs p sp := by
  obtain ⟨b, before, raw, after, hmem, hrest, hfirst, hlast, htakes⟩ := h
  rw [Place.advance_of_rest hp] at hrest hfirst htakes
  simp only at hrest hfirst htakes
  refine ⟨b, s ++ before, raw, after, hmem, ?_, ?_, hlast, ?_⟩
  · simp [hp, hrest]
  · rw [hfirst, List.length_append, Nat.add_assoc]
  · rwa [lastOf_append]

/-- The hit ends where a text that `r` takes up ends, and its spans belong to groups of `r`. -/
structure Stands (r : Regex) (p : Place) (h : Hit) : Prop where
  takes : ∃ s after, p.rest = s ++ after ∧ s.length = h.length ∧ Takes r p.prev s after
  located : ∀ sp ∈ h.spans, Located r.groups p sp

/-- A hit behind another one. -/
theorem located_andThen {gs : List (Nat × Regex)} {p : Place} {s t : List Char} {h k : Hit}
    (hp : p.rest = s ++ t) (hlength : s.length = h.length)
    (hh : ∀ sp ∈ h.spans, Located gs p sp)
    (hk : ∀ sp ∈ k.spans, Located gs (p.advance h.length) sp) :
    ∀ sp ∈ (h.andThen k).spans, Located gs p sp := by
  intro sp hsp
  rcases List.mem_append.1 hsp with hsp | hsp
  · exact hh sp hsp
  · refine Located.of_advance hp ?_
    rw [hlength]
    exact hk sp hsp

theorem Stands.concat {a b : Regex} {p : Place} {h k : Hit} (hh : Stands a p h)
    (hk : Stands b (p.advance h.length) k) : Stands (.concat a b) p (h.andThen k) := by
  obtain ⟨s, after, hp, hlength, ha⟩ := hh.takes
  obtain ⟨t, after', hq, hlength', hb⟩ := hk.takes
  rw [← hlength, Place.advance_of_rest hp] at hq hb
  simp only at hq hb
  subst hq
  refine ⟨⟨s ++ t, after', by simp [hp], ?_, .concat ha hb⟩, ?_⟩
  · rw [List.length_append, hlength, hlength', Hit.andThen]
  · refine located_andThen hp hlength (fun sp hsp => ?_) fun sp hsp => ?_
    · exact (hh.located sp hsp).mono (List.subset_append_left _ _)
    · exact (hk.located sp hsp).mono (List.subset_append_right _ _)

theorem Stands.once {greedy : Bool} {a : Regex} {p : Place} {h : Hit} (hh : Stands a p h) :
    Stands (.plus greedy a) p h := by
  obtain ⟨s, after, hp, hlength, ha⟩ := hh.takes
  exact ⟨⟨s, after, hp, hlength, .once ha⟩, hh.located⟩

theorem Stands.again {greedy : Bool} {a : Regex} {p : Place} {h k : Hit} (hh : Stands a p h)
    (hne : h.length ≠ 0) (hk : Stands (.plus greedy a) (p.advance h.length) k) :
    Stands (.plus greedy a) p (h.andThen k) := by
  obtain ⟨s, after, hp, hlength, ha⟩ := hh.takes
  obtain ⟨t, after', hq, hlength', hb⟩ := hk.takes
  rw [← hlength, Place.advance_of_rest hp] at hq hb
  simp only at hq hb
  subst hq
  have hs : s ≠ [] := by
    rintro rfl
    exact hne hlength.symm
  refine ⟨⟨s ++ t, after', by simp [hp], ?_, .again hs ha hb⟩, ?_⟩
  · rw [List.length_append, hlength, hlength', Hit.andThen]
  · exact located_andThen hp hlength hh.located hk.located

theorem Stands.further {greedy : Bool} {a : Regex} (ha : ∀ p, ∀ h ∈ ends a p, Stands a p h)
    {p : Place} {k : Hit} (hk : k ∈ furtherEnds (fun q => ends a q) greedy p) :
    Stands (.plus greedy a) p k := by
  -- Each round takes up a character, so the induction is on what is left of the text.
  induction hn : p.rest.length using Nat.strongRecOn generalizing p k with
  | ind n ih =>
      obtain ⟨h, hh, hlength, rfl | ⟨l, hl, rfl⟩⟩ := mem_furtherEnds hk
      · exact (ha p k hh).once
      · obtain ⟨s, after, hp, hs, -⟩ := (ha p h hh).takes
        have hshorter : (p.advance h.length).rest.length < n := by
          rw [Place.rest_advance, List.length_drop, ← hn, hp, List.length_append]
          omega
        exact (ha p h hh).again hlength (ih _ hshorter hl rfl)

theorem stands_of_mem_ends {r : Regex} {p : Place} {h : Hit} (hh : h ∈ ends r p) :
    Stands r p h := by
  induction r generalizing p h with
  | empty =>
      rw [ends_empty, List.mem_singleton] at hh
      subst hh
      exact ⟨⟨[], p.rest, rfl, rfl, .empty⟩, nofun⟩
  | chars cls =>
      cases hrest : p.rest with
      | nil => simp [ends_chars_of_rest_nil hrest] at hh
      | cons c r =>
          rw [ends_chars hrest] at hh
          split at hh
          · next hc =>
              rw [List.mem_singleton] at hh
              subst hh
              exact ⟨⟨[c], r, hrest, rfl, .chars hc⟩, nofun⟩
          · simp at hh
  | look l =>
      rw [ends_look] at hh
      split at hh
      · next hl =>
          rw [List.mem_singleton] at hh
          subst hh
          exact ⟨⟨[], p.rest, rfl, rfl, .look hl⟩, nofun⟩
      · simp at hh
  | concat a b iha ihb =>
      rw [ends_concat] at hh
      obtain ⟨x, hx, hh⟩ := List.mem_flatMap.1 (mem_of_mem_dedup hh)
      obtain ⟨y, hy, rfl⟩ := List.mem_map.1 hh
      exact (iha hx).concat (ihb hy)
  | alt a b iha ihb =>
      rcases List.mem_append.1 (mem_of_mem_dedup hh) with hh | hh
      · obtain ⟨s, after, hp, hlength, ha⟩ := (iha hh).takes
        refine ⟨⟨s, after, hp, hlength, .left ha⟩, fun sp hsp => ?_⟩
        exact ((iha hh).located sp hsp).mono (List.subset_append_left _ _)
      · obtain ⟨s, after, hp, hlength, hb⟩ := (ihb hh).takes
        refine ⟨⟨s, after, hp, hlength, .right hb⟩, fun sp hsp => ?_⟩
        exact ((ihb hh).located sp hsp).mono (List.subset_append_right _ _)
  | plus greedy a ih =>
      rw [ends_plus] at hh
      obtain ⟨x, hx, rfl | ⟨hlength, l, hl, rfl⟩⟩ := mem_firstRound hh
      · exact (ih hx).once
      · exact (ih hx).again hlength (Stands.further (fun _ _ => ih) hl)
  | opt greedy a ih =>
      have hcases : h = nothing ∨ h ∈ ends a p := by
        cases greedy <;> simpa [or_comm] using mem_of_mem_dedup hh
      rcases hcases with rfl | hh
      · exact ⟨⟨[], p.rest, rfl, rfl, .skip⟩, nofun⟩
      · obtain ⟨s, after, hp, hlength, ha⟩ := (ih hh).takes
        exact ⟨⟨s, after, hp, hlength, .some ha⟩, (ih hh).located⟩
  | group i a ih =>
      rw [ends_group] at hh
      obtain ⟨x, hx, rfl⟩ := List.mem_map.1 hh
      obtain ⟨s, after, hp, hlength, ha⟩ := (ih hx).takes
      refine ⟨⟨s, after, hp, hlength, .group ha⟩, fun sp hsp => ?_⟩
      rcases List.mem_append.1 hsp with hsp | hsp
      · exact ((ih hx).located sp hsp).mono (List.subset_cons_self _ _)
      · rw [List.mem_singleton] at hsp
        subst hsp
        exact ⟨a, [], s, after, List.mem_cons_self, hp, rfl, by simp only [hlength], ha⟩

theorem takes_of_mem_ends {r : Regex} {p : Place} {h : Hit} (hh : h ∈ ends r p) :
    ∃ s after, p.rest = s ++ after ∧ s.length = h.length ∧ Takes r p.prev s after :=
  (stands_of_mem_ends hh).takes

theorem located_of_mem_ends {r : Regex} {p : Place} {h : Hit} (hh : h ∈ ends r p) :
    ∀ sp ∈ h.spans, Located r.groups p sp :=
  (stands_of_mem_ends hh).located

/-! ### The hit of a text -/

theorem exists_mem_ends_of_takes {r : Regex} {prev : Option Char} {s after : List Char}
    (h : Takes r prev s after) (i : Nat) :
    ∃ hit ∈ ends r ⟨i, prev, s ++ after⟩, hit.length = s.length := by
  induction h generalizing i with
  | empty => exact ⟨nothing, by simp, rfl⟩
  | @chars cls c prev after h =>
      have hends : ends (.chars cls) ⟨i, prev, c :: after⟩ = [⟨1, []⟩] :=
        (ends_chars rfl).trans (if_pos h)
      exact ⟨⟨1, []⟩, by simp [hends], rfl⟩
  | look h => exact ⟨nothing, by simp [ends_look, h], rfl⟩
  | @concat a b prev s t after ha hb iha ihb =>
      obtain ⟨x, hx, hxlength⟩ := iha i
      obtain ⟨y, hy, hylength⟩ := ihb (i + s.length)
      rw [List.append_assoc, List.length_append, ends_concat, ← hxlength, ← hylength]
      refine exists_mem_dedup (h := x.andThen y) (List.mem_flatMap.2 ⟨x, hx, ?_⟩)
      refine List.mem_map.2 ⟨y, ?_, rfl⟩
      rwa [hxlength, Place.advance_mk]
  | left ha ih =>
      obtain ⟨x, hx, hlength⟩ := ih i
      rw [← hlength]
      exact exists_mem_dedup (List.mem_append_left _ hx)
  | right hb ih =>
      obtain ⟨x, hx, hlength⟩ := ih i
      rw [← hlength]
      exact exists_mem_dedup (List.mem_append_right _ hx)
  | once ha ih =>
      obtain ⟨x, hx, hlength⟩ := ih i
      rw [ends_plus, ← hlength]
      exact exists_mem_firstRound hx (.inl rfl)
  | @again greedy a prev s t after hs ha hrest iha ihrest =>
      obtain ⟨x, hx, hxlength⟩ := iha i
      rw [List.append_assoc, ends_plus]
      cases t with
      | nil =>
          rw [List.append_nil, ← hxlength]
          exact exists_mem_firstRound hx (.inl rfl)
      | cons c t =>
          -- The rounds behind the first take up characters, so they are further ones.
          obtain ⟨y, hy, hylength⟩ := ihrest (i + s.length)
          obtain ⟨z, hz, hzlength⟩ := exists_mem_furtherEnds_of_mem_firstRound (by simp)
            (ends_plus greedy a ▸ hy) (by simp [hylength])
          rw [List.length_append, ← hxlength, ← hylength, ← hzlength]
          have hx0 : x.length ≠ 0 := by
            rw [hxlength]
            exact fun h0 => hs (List.length_eq_zero_iff.1 h0)
          refine exists_mem_firstRound (k := x.andThen z) hx (.inr ⟨by simp [hs], hx0, z, ?_, rfl⟩)
          rwa [hxlength, Place.advance_mk]
  | @skip greedy a prev after =>
      have hmem : nothing ∈ (if greedy then ends a ⟨i, prev, after⟩ ++ [nothing]
          else nothing :: ends a ⟨i, prev, after⟩) := by
        cases greedy <;> simp
      exact exists_mem_dedup hmem
  | @some greedy a prev s after ha ih =>
      obtain ⟨x, hx, hlength⟩ := ih i
      have hmem : x ∈ (if greedy then ends a ⟨i, prev, s ++ after⟩ ++ [nothing]
          else nothing :: ends a ⟨i, prev, s ++ after⟩) := by
        cases greedy <;> simp [hx]
      rw [← hlength]
      exact exists_mem_dedup hmem
  | group ha ih =>
      obtain ⟨x, hx, hlength⟩ := ih i
      exact ⟨_, List.mem_map.2 ⟨x, hx, rfl⟩, hlength⟩

/-! ### Groups of a match -/

theorem lastOf_eq (prev : Option Char) (s : List Char) : lastOf prev s = s.getLast?.or prev := by
  induction s generalizing prev with
  | nil => rfl
  | cons c s ih =>
      rw [lastOf, ih, List.getLast?_cons]
      cases s.getLast? <;> rfl

/-- A match that is found begins somewhere in the text. -/
theorem mem_ends_of_searchFrom {r : Regex} {index : Nat} {prev : Option Char}
    {rest : List Char} {found : Found} (h : searchFrom r index prev rest = some found) :
    ∃ before after, rest = before ++ after ∧ found.first = index + before.length ∧
      found.hit ∈ ends r ⟨index + before.length, lastOf prev before, after⟩ := by
  induction rest generalizing index prev with
  | nil =>
      rw [searchFrom, Option.map_eq_some_iff] at h
      obtain ⟨hit, hhit, rfl⟩ := h
      exact ⟨[], [], rfl, rfl, List.mem_of_head? hhit⟩
  | cons c cs ih =>
      rw [searchFrom] at h
      split at h
      · next hit hits hends =>
          cases h
          exact ⟨[], c :: cs, rfl, rfl, by simp [hends]⟩
      · obtain ⟨before, after, rfl, hfirst, hmem⟩ := ih h
        refine ⟨c :: before, after, rfl, ?_, ?_⟩
        · rw [hfirst, List.length_cons, Nat.add_assoc, Nat.add_comm 1]
        · rwa [List.length_cons, lastOf, Nat.add_comm before.length, ← Nat.add_assoc]

/-- What a group of a match stands for is a stretch of the text that its inside takes up there. -/
theorem takes_of_group? {r : Regex} {text raw : List Char} {found : Found} {i : Nat}
    (h : search r text = some found) (hraw : found.group? text i = some raw) :
    ∃ b before after, (i, b) ∈ r.groups ∧ text = before ++ raw ++ after ∧
      Takes b before.getLast? raw after := by
  obtain ⟨outer, rest, rfl, -, hmem⟩ := mem_ends_of_searchFrom h
  obtain ⟨sp, hsp, rfl⟩ := Option.map_eq_some_iff.1 hraw
  rw [List.findRev?_eq_find?_reverse] at hsp
  have hgroup : sp.group = i := by simpa using List.find?_some hsp
  have hspan : sp ∈ found.hit.spans := List.mem_reverse.1 (List.mem_of_find?_eq_some hsp)
  obtain ⟨b, before, raw, after, hb, hrest, hfirst, hlast, htakes⟩ :=
    located_of_mem_ends hmem sp hspan
  simp only at hrest hfirst htakes
  subst hrest
  have hslice : slice (outer ++ (before ++ raw ++ after)) sp.first sp.last = raw := by
    have hlength : sp.first = (outer ++ before).length := by
      rw [hfirst, List.length_append, Nat.zero_add]
    have htext : outer ++ (before ++ raw ++ after) = outer ++ before ++ (raw ++ after) := by simp
    rw [slice, List.drop_take, hlast, htext, hlength, List.drop_left, Nat.add_sub_cancel_left,
      List.take_left]
  rw [hslice, ← hgroup]
  refine ⟨b, outer ++ before, after, hb, by simp, ?_⟩
  rwa [← lastOf_append, lastOf_eq, Option.or_none] at htakes

end RouteEngine.Regex
