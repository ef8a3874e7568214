import RouteEngine.Proofs.Table.Drawn

/-!
Routes on the bare root. A table refuses a route there when another one's verbs overlap with its
own, so the verbs of those that it has keep apart. Overlapping compares the methods that are
listed, though, and listed `GET` answers `HEAD` as well: two routes on the root may answer `HEAD`
both, when one lists it and the other lists `GET`, and no other method (`roots_apart`).
-/

namespace RouteEngine

open Outcome

namespace Verbs

variable {a b : Verbs} {m : Method}

/-- One lists `HEAD`, and the other answers it because it lists `GET`. -/
def SharesHead (a b : Verbs) : Prop :=
  Method.head ∈ a.methods ∧ Method.get ∈ b.methods ∨
    Method.get ∈ a.methods ∧ Method.head ∈ b.methods

instance : Decidable (SharesHead a b) := inferInstanceAs (Decidable (_ ∨ _))

theorem accepts_only {ms : List Method} :
    (only ms).accepts m = true ↔ m ∈ ms ∨ m = Method.head ∧ Method.get ∈ ms := by
  simp [accepts]

theorem overlaps_only {ms ns : List Method} :
    (only ms).overlaps (only ns) = true ↔ ∃ m ∈ ms, m ∈ ns := by
  simp [overlaps]

/-- Verbs accept some method unless they are an empty list. -/
theorem exists_accepts_iff : (∃ m, a.accepts m = true) ↔ a ≠ only [] := by
  constructor
  · rintro ⟨m, hm⟩ rfl
    simp [accepts] at hm
  · intro ha
    match a, ha with
    | any, _ => exact ⟨Method.get, rfl⟩
    | only [], ha => exact absurd rfl ha
    | only (m :: ms), _ => exact ⟨m, accepts_only.2 (.inl List.mem_cons_self)⟩

theorem accepts_head_of_sharesHead (h : a.SharesHead b) :
    a.accepts Method.head = true ∧ b.accepts Method.head = true := by
  match a, b, h with
  | any, any, h => simp [SharesHead, methods] at h
  | any, only _, h => simp [SharesHead, methods] at h
  | only _, any, h => simp [SharesHead, methods] at h
  | only ms, only ns, h =>
      rcases h with ⟨hhead, hget⟩ | ⟨hget, hhead⟩
      · exact ⟨accepts_only.2 (.inl hhead), accepts_only.2 (.inr ⟨rfl, hget⟩)⟩
      · exact ⟨accepts_only.2 (.inr ⟨rfl, hget⟩), accepts_only.2 (.inl hhead)⟩

/-- Verbs that do not overlap have at most `HEAD` in common. -/
theorem head_of_accepts (h : a.overlaps b = false) (ha : a.accepts m = true)
    (hb : b.accepts m = true) : m = Method.head ∧ a.SharesHead b := by
  match a, b, h with
  | only ms, only ns, h =>
      have hapart : ∀ {m}, m ∈ ms → m ∉ ns := fun hms hns =>
        absurd (overlaps_only.2 ⟨_, hms, hns⟩) (Bool.eq_false_iff.1 h)
      rcases accepts_only.1 ha with hms | ⟨rfl, hms⟩ <;>
        rcases accepts_only.1 hb with hns | ⟨hhead, hns⟩
      · exact absurd hns (hapart hms)
      · subst hhead
        exact ⟨rfl, .inl ⟨hms, hns⟩⟩
      · exact ⟨rfl, .inr ⟨hms, hns⟩⟩
      · exact absurd hns (hapart hms)

theorem exists_accepts_of_overlaps (h : a.overlaps b = true) (ha : a ≠ only [])
    (hb : b ≠ only []) : ∃ m, a.accepts m = true ∧ b.accepts m = true := by
  match a, b, h with
  | any, b, _ =>
      obtain ⟨m, hm⟩ := exists_accepts_iff.2 hb
      exact ⟨m, rfl, hm⟩
  | only _, any, _ =>
      obtain ⟨m, hm⟩ := exists_accepts_iff.2 ha
      exact ⟨m, hm, rfl⟩
  | only ms, only ns, h =>
      obtain ⟨m, hms, hns⟩ := overlaps_only.1 h
      exact ⟨m, accepts_only.2 (.inl hms), accepts_only.2 (.inl hns)⟩

theorem exists_accepts_both_iff :
    (∃ m, a.accepts m = true ∧ b.accepts m = true) ↔
      a.overlaps b = true ∧ a ≠ only [] ∧ b ≠ only [] ∨ a.SharesHead b := by
  constructor
  · rintro ⟨m, ha, hb⟩
    cases h : a.overlaps b with
    | true => exact .inl ⟨rfl, exists_accepts_iff.1 ⟨m, ha⟩, exists_accepts_iff.1 ⟨m, hb⟩⟩
    | false => exact .inr (head_of_accepts h ha hb).2
  · rintro (⟨h, ha, hb⟩ | h)
    · exact exists_accepts_of_overlaps h ha hb
    · exact ⟨Method.head, accepts_head_of_sharesHead h⟩

end Verbs

namespace Table

variable {σ : Type} {settings : Settings} {t t' : Table σ} {r : Route σ}

/-- The verbs of any two routes on the bare root do not overlap. -/
def RootsApart (t : Table σ) : Prop :=
  t.routes.Pairwise fun a b =>
    a.isOpenRoot = true → b.isOpenRoot = true → a.verbs.overlaps b.verbs = false

theorem rootsApart_empty : RootsApart (.empty settings : Table σ) := List.Pairwise.nil

theorem overlaps_of_add (h : t.add r = .ok t') (hr : r.isOpenRoot = true) {e : Route σ}
    (he : e ∈ t.routes) (hopen : e.isOpenRoot = true) : e.verbs.overlaps r.verbs = false := by
  unfold add at h
  split at h
  · cases h
  · split at h
    · cases h
    · next hrival =>
        rw [rivalRoot?, if_pos hr, List.find?_eq_none] at hrival
        simpa [hopen] using hrival e he

theorem RootsApart.add (ht : t.RootsApart) (h : t.add r = .ok t') : t'.RootsApart := by
  rw [RootsApart, routes_of_add h]
  refine List.pairwise_append.2 ⟨ht, List.pairwise_singleton _ _, fun e he r' hr' => ?_⟩
  obtain rfl := List.mem_singleton.1 hr'
  exact fun hopen hr => overlaps_of_add h hr he hopen

theorem RootsApart.declareIn {e : List (ScopeFrame σ) × Declaration σ} (ht : t.RootsApart)
    (h : t.declareIn settings e = .ok t') : t'.RootsApart := by
  rcases declare_eq_ok h with ⟨-, rfl⟩ | ⟨r, -, hadd⟩
  · exact ht
  · exact ht.add hadd

theorem rootsApart_of_draw {entries : Entries σ} (h : draw entries settings = .ok t) :
    t.RootsApart := by
  rw [draw_eq_foldlM] at h
  exact foldlM_invariant (fun _ _ _ ht h => RootsApart.declareIn ht h) h rootsApart_empty

/-- Some method is accepted by two verb sets exactly when they overlap and neither is empty, or
when they share `HEAD`; and in a drawn table two routes on the bare root accept no method both,
unless it is `HEAD` and they share it. -/
theorem roots_apart :
    (∀ a b : Verbs, (∃ m, a.accepts m = true ∧ b.accepts m = true) ↔
      a.overlaps b = true ∧ a ≠ .only [] ∧ b ≠ .only [] ∨ a.SharesHead b) ∧
    ∀ (entries : Entries σ) (settings : Settings) (t : Table σ), draw entries settings = .ok t →
      t.routes.Pairwise fun a b => a.isOpenRoot = true → b.isOpenRoot = true →
        ∀ m, a.verbs.accepts m = true → b.verbs.accepts m = true →
          m = Method.head ∧ a.verbs.SharesHead b.verbs := by
  refine ⟨fun _ _ => Verbs.exists_accepts_both_iff, fun entries settings t h => ?_⟩
  refine (rootsApart_of_draw h).imp fun hapart ha hb m hma hmb => ?_
  exact Verbs.head_of_accepts (hapart ha hb) hma hmb

/-- A root and another route on the same path under a method of its own. -/
def home (m : Method) : Entries Unit :=
  .ofDeclarations [
    { Declaration.root with target := some "pages#home" },
    { path := "/", verbs := .only [m], target := some "pages#other" }]

/-- Both routes of the table are on the bare root, and `p` holds of their verbs. -/
def bothOpen (p : Verbs → Verbs → Bool) (t : Table Unit) : Bool :=
  match t.routes with
  | [a, b] => a.isOpenRoot && b.isOpenRoot && p a.verbs b.verbs
  | _ => false

theorem bothOpen_eq_true {p : Verbs → Verbs → Bool} {t : Table Unit} (h : bothOpen p t = true) :
    ∃ a b, t.routes = [a, b] ∧ a.isOpenRoot = true ∧ b.isOpenRoot = true ∧
      p a.verbs b.verbs = true := by
  unfold bothOpen at h
  split at h
  · next a b hroutes =>
      obtain ⟨hopen, hp⟩ := Bool.and_eq_true_iff.1 h
      obtain ⟨ha, hb⟩ := Bool.and_eq_true_iff.1 hopen
      exact ⟨a, b, hroutes, ha, hb, hp⟩
  · cases h

theorem roots_apart_home :
    ∃ t a b, draw (home Method.post) {} = .ok t ∧ t.routes = [a, b] ∧ a.isOpenRoot = true ∧
      b.isOpenRoot = true ∧
      ∀ m, a.verbs.accepts m = true → b.verbs.accepts m = true → False := by
  have hdrawn : (draw (home Method.post) {}).toOption.any
      (bothOpen fun a b => decide (¬ a.SharesHead b)) = true := by
    decide +kernel
  obtain ⟨t, ht, hdrawn⟩ := exists_ok_of_any hdrawn
  obtain ⟨a, b, hroutes, ha, hb, hshares⟩ := bothOpen_eq_true hdrawn
  have hapart := roots_apart.2 (home Method.post) {} t ht
  rw [hroutes, List.pairwise_pair] at hapart
  exact ⟨t, a, b, ht, hroutes, ha, hb,
    fun m hma hmb => of_decide_eq_true hshares (hapart ha hb m hma hmb).2⟩

/-- A root that lists `HEAD` stands beside one that lists `GET`, though both answer `HEAD`; and
verbs that are open to every method overlap with an empty list. -/
theorem misses_of_head_and_empty :
    (Verbs.only [Method.get]).overlaps (.only [Method.head]) = false ∧
      (∃ m, (Verbs.only [Method.get]).accepts m = true ∧
        (Verbs.only [Method.head]).accepts m = true) ∧
      Verbs.any.overlaps (.only []) = true ∧
      (¬ ∃ m, Verbs.any.accepts m = true ∧ (Verbs.only []).accepts m = true) ∧
      ∃ t a b, draw (home Method.head) {} = .ok t ∧ t.routes = [a, b] ∧ a.isOpenRoot = true ∧
        b.isOpenRoot = true ∧ a.verbs.accepts Method.head = true ∧
        b.verbs.accepts Method.head = true := by
  have hdrawn : (draw (home Method.head) {}).toOption.any
      (bothOpen fun a b => a.accepts Method.head && b.accepts Method.head) = true := by
    decide +kernel
  obtain ⟨t, ht, hdrawn⟩ := exists_ok_of_any hdrawn
  obtain ⟨a, b, hroutes, ha, hb, haccepts⟩ := bothOpen_eq_true hdrawn
  refine ⟨by decide, ⟨Method.head, by decide, by decide⟩, rfl, ?_, t, a, b, ht, hroutes, ha, hb,
    Bool.and_eq_true_iff.1 haccepts⟩
  rintro ⟨m, -, hm⟩
  exact Verbs.exists_accepts_iff.1 ⟨m, hm⟩ rfl

end Table

end RouteEngine
