import RouteEngine.Proofs.Json.Path
import RouteEngine.Proofs.Outcome
import RouteEngine.Settings.Document

/-!
Documents laid over one another. Whatever is found at a path of the result is what the layer has
there laid over what the base has there (`at?_overlay`), and where the layer ends before the path
does, the base is left as it is (`at?_overlay_of_untouched`). Both are inductions on the path, with
one equation for the first key of it. For settings this means that a document changes nothing it
does not mention.
-/

namespace RouteEngine

namespace Json

/-- Nothing stands at the path, and objects lead there as far as anything does. -/
structure Untouched (layer : Json) (path : List String) : Prop where
  absent : layer.at? path = none
  within : ∀ above below v, path = above ++ below → below ≠ [] → layer.at? above = some v →
    v.IsObject

variable {base layer v : Json} {key : String} {path : List String}
  {fields rest : List (String × Json)}

theorem overlay_of_not_isObject (h : ¬ layer.IsObject) (base : Json) :
    overlay base layer = layer := by
  cases layer with
  | object fields => exact absurd ⟨fields, rfl⟩ h
  | _ =>
      rw [overlay]
      nofun

theorem overlay_of_not_isObject_left (h : ¬ base.IsObject) (layer : Json) :
    overlay base layer = layer := by
  cases layer with
  | object fields =>
      cases base with
      | object fields => exact absurd ⟨fields, rfl⟩ h
      | _ => rfl
  | _ =>
      rw [overlay]
      nofun

theorem not_isObject_null : ¬ null.IsObject := by
  rintro ⟨fields, h⟩
  cases h

@[simp] theorem overlay_null (layer : Json) : overlay null layer = layer :=
  overlay_of_not_isObject_left not_isObject_null layer

/-- A field that is missing counts as `null`. -/
theorem overlayFields_cons (fields : List (String × Json)) (key : String) (v : Json)
    (rest : List (String × Json)) :
    overlayFields fields ((key, v) :: rest) =
      overlayFields (Dict.insertEntry key (overlay ((Dict.lookup key fields).getD null) v) fields) rest := by
  rw [overlayFields]
  cases Dict.lookup key fields <;> simp

/-! ### At a path -/

theorem lookup_overlayFields (hkeys : rest.Pairwise fun a b => a.1 < b.1) (key : String)
    (fields : List (String × Json)) :
    Dict.lookup key (overlayFields fields rest) =
      match Dict.lookup key rest with
      | some v => some (overlay ((Dict.lookup key fields).getD null) v)
      | none => Dict.lookup key fields := by
  induction rest generalizing fields with
  | nil => rw [overlayFields, Dict.lookup]
  | cons e rest ih =>
      obtain ⟨k, v⟩ := e
      obtain ⟨hfirst, hkeys⟩ := List.pairwise_cons.1 hkeys
      rw [overlayFields_cons, ih hkeys, Dict.lookup_insertEntry, Dict.lookup]
      by_cases hk : k = key
      · subst hk
        have hnone : Dict.lookup k rest = none :=
          Dict.lookup_eq_none.2 fun e he heq => String.lt_irrefl k (heq ▸ hfirst e he)
        rw [hnone, if_pos rfl, if_pos rfl]
      · rw [if_neg hk, if_neg hk]

/-- One step into the result is a step into both documents. -/
theorem at?_cons_overlay (hkeys : rest.Pairwise fun a b => a.1 < b.1) (base : Json) (key : String)
    (path : List String) :
    (overlay base (object rest)).at? (key :: path) =
      match Dict.lookup key rest with
      | some v => (overlay ((base.at? [key]).getD null) v).at? path
      | none => base.at? (key :: path) := by
  by_cases h : base.IsObject
  · obtain ⟨fields, rfl⟩ := h
    rw [overlay, at?_object, lookup_overlayFields hkeys, at?_field, at?_object]
    cases Dict.lookup key rest <;> rfl
  · rw [overlay_of_not_isObject_left h, at?_object, at?_of_not_isObject h, at?_of_not_isObject h]
    cases Dict.lookup key rest <;> simp

/-- A field that is missing leads to nothing, as `null` does. -/
theorem at?_getD_null (base : Json) (key : String) (hne : path ≠ []) :
    ((base.at? [key]).getD null).at? path = base.at? (key :: path) := by
  rw [at?_cons base key path]
  cases base.at? [key] with
  | some below => rfl
  | none =>
      obtain ⟨k, path, rfl⟩ := List.exists_cons_of_ne_nil hne
      exact at?_of_not_isObject not_isObject_null k path

theorem at?_overlay (hsorted : layer.Sorted) (hv : layer.at? path = some v) (base : Json) :
    (overlay base layer).at? path = some (overlay ((base.at? path).getD null) v) := by
  induction path generalizing base layer with
  | nil =>
      rw [at?_nil, Option.some.injEq] at hv
      rw [at?_nil, at?_nil, hv, Option.getD_some]
  | cons key path ih =>
      by_cases hobject : layer.IsObject
      · obtain ⟨rest, rfl⟩ := hobject
        rw [at?_object, Option.bind_eq_some_iff] at hv
        obtain ⟨w, hw, hv⟩ := hv
        rw [at?_cons_overlay hsorted.keys, hw]
        simp only
        rw [ih (hsorted.field hw) hv]
        by_cases hpath : path = []
        · rw [hpath, at?_nil, Option.getD_some]
        · rw [at?_getD_null base key hpath]
      · rw [at?_of_not_isObject hobject] at hv
        cases hv

theorem Untouched.ne_nil (h : Untouched layer path) : path ≠ [] := by
  rintro rfl
  have habsent := h.absent
  rw [at?_nil] at habsent
  cases habsent

theorem Untouched.isObject (h : Untouched layer path) : layer.IsObject :=
  h.within [] path layer rfl h.ne_nil (at?_nil layer)

theorem untouched_of_lookup_eq_none (hnone : Dict.lookup key rest = none) (path : List String) :
    Untouched (object rest) (key :: path) := by
  refine ⟨by rw [at?_object, hnone, Option.bind_none], ?_⟩
  rintro (_ | ⟨k, above⟩) below v hpath hne hv
  · rw [at?_nil, Option.some.injEq] at hv
    exact ⟨rest, hv.symm⟩
  · obtain ⟨rfl, -⟩ := List.cons.inj hpath
    rw [at?_object, hnone, Option.bind_none] at hv
    cases hv

theorem untouched_cons (hv : Dict.lookup key rest = some v) :
    Untouched (object rest) (key :: path) ↔ Untouched v path := by
  have hinside : ∀ path, (object rest).at? (key :: path) = v.at? path := by
    intro path
    rw [at?_object, hv, Option.bind_some]
  constructor
  · intro h
    refine ⟨hinside path ▸ h.absent, fun above below w hpath hne hw => ?_⟩
    exact h.within (key :: above) below w (by rw [hpath, List.cons_append]) hne
      ((hinside above).trans hw)
  · intro h
    refine ⟨(hinside path).trans h.absent, ?_⟩
    rintro (_ | ⟨k, above⟩) below w hpath hne hw
    · rw [at?_nil, Option.some.injEq] at hw
      exact ⟨rest, hw.symm⟩
    · obtain ⟨rfl, htail⟩ := List.cons.inj hpath
      exact h.within above below w htail hne ((hinside above).symm.trans hw)

theorem at?_overlay_of_untouched (hsorted : layer.Sorted) (h : Untouched layer path) (base : Json) :
    (overlay base layer).at? path = base.at? path := by
  induction path generalizing base layer with
  | nil => exact absurd rfl h.ne_nil
  | cons key path ih =>
      obtain ⟨rest, rfl⟩ := h.isObject
      rw [at?_cons_overlay hsorted.keys]
      cases hv : Dict.lookup key rest with
      | none => rfl
      | some v =>
          have hbelow := (untouched_cons hv).1 h
          simp only
          rw [ih (hsorted.field hv) hbelow, at?_getD_null base key hbelow.ne_nil]

theorem isObject_overlay (h : layer.IsObject) (base : Json) : (overlay base layer).IsObject := by
  obtain ⟨rest, rfl⟩ := h
  cases base with
  | object fields => exact ⟨overlayFields fields rest, rfl⟩
  | _ => exact ⟨rest, rfl⟩

/-- On the way to an untouched place objects remain objects. -/
theorem isObject_at?_overlay {above below : List String} (hsorted : layer.Sorted)
    (h : Untouched layer (above ++ below)) (hne : below ≠ []) (hv : base.at? above = some v)
    (hobject : v.IsObject) : ∃ w, (overlay base layer).at? above = some w ∧ w.IsObject := by
  cases hlayer : layer.at? above with
  | some w =>
      have hwithin : w.IsObject := h.within above below w rfl hne hlayer
      exact ⟨_, at?_overlay hsorted hlayer base, isObject_overlay hwithin _⟩
  | none =>
      refine ⟨v, ?_, hobject⟩
      rw [at?_overlay_of_untouched hsorted ⟨hlayer, fun a b w hpath _ hw => ?_⟩, hv]
      refine h.within a (b ++ below) w ?_ (by simp [hne]) hw
      rw [hpath, List.append_assoc]

/-! ### Twice the same layer -/

/-- The field is there, and writing it again would leave everything in its place. -/
def Settled (fields : List (String × Json)) (key : String) (v : Json) : Prop :=
  Dict.insertEntry key v fields = fields

theorem settled_of_mem (hkeys : fields.Pairwise fun a b => a.1 < b.1) (h : (key, v) ∈ fields) :
    Settled fields key v := by
  unfold Settled
  induction fields with
  | nil => cases h
  | cons e fields ih =>
      obtain ⟨hfirst, hkeys⟩ := List.pairwise_cons.1 hkeys
      rw [Dict.insertEntry]
      rcases List.mem_cons.1 h with rfl | h
      · rw [if_neg (String.lt_irrefl key), if_pos rfl]
      · have hlt : e.1 < key := hfirst _ h
        have hnot : ¬ key < e.1 := fun hkey => String.lt_irrefl key (String.lt_trans hkey hlt)
        have hne : key ≠ e.1 := fun heq => String.lt_irrefl e.1 (heq ▸ hlt)
        rw [if_neg hnot, if_neg hne, ih hkeys h]

theorem settled_insertEntry (fields : List (String × Json)) (key : String) (v : Json) :
    Settled (Dict.insertEntry key v fields) key v := by
  unfold Settled
  induction fields with
  | nil => simp [Dict.insertEntry]
  | cons e fields ih =>
      obtain ⟨k, w⟩ := e
      rw [Dict.insertEntry]
      split
      · simp [Dict.insertEntry]
      · split
        · simp [Dict.insertEntry]
        · next hlt hne => rw [Dict.insertEntry, if_neg hlt, if_neg hne, ih]

theorem Settled.lookup (h : Settled fields key v) : Dict.lookup key fields = some v := by
  rw [← h, Dict.lookup_insertEntry, if_pos rfl]

/-- Nothing that is written behind a field moves it. -/
theorem Settled.insertEntry_of_lt {k : String} (h : Settled fields key v) (hlt : key < k)
    (w : Json) : Settled (Dict.insertEntry k w fields) key v := by
  unfold Settled at h ⊢
  induction fields with
  | nil => simp [Dict.insertEntry] at h
  | cons e fields ih =>
      obtain ⟨x, u⟩ := e
      rw [Dict.insertEntry] at h
      split at h
      · -- A field in front of the list would make it longer.
        have hlength := congrArg List.length h
        simp at hlength
      · next hnot =>
          -- The field is not behind `x`, so `k` is.
          have hxk : x < k := by
            by_cases hx : key = x
            · exact hx ▸ hlt
            · exact String.lt_trans (Dict.lt_of_not_lt_of_ne hnot hx) hlt
          have hk : ¬ k < x := fun hkx => String.lt_irrefl k (String.lt_trans hkx hxk)
          have hne : k ≠ x := fun hkx => String.lt_irrefl x (hkx ▸ hxk)
          rw [Dict.insertEntry, if_neg hk, if_neg hne, Dict.insertEntry, if_neg hnot]
          split at h
          · next heq => rw [if_pos heq, ← (List.cons.inj h).1]
          · next hx => rw [if_neg hx, ih (List.cons.inj h).2]

theorem Settled.overlayFields (h : Settled fields key v) (hrest : ∀ e ∈ rest, key < e.1)
    (hkeys : rest.Pairwise fun a b => a.1 < b.1) : Settled (overlayFields fields rest) key v := by
  induction rest generalizing fields with
  | nil => rwa [Json.overlayFields]
  | cons e rest ih =>
      obtain ⟨hfirst, hrest⟩ := List.forall_mem_cons.1 hrest
      rw [overlayFields_cons]
      exact ih (h.insertEntry_of_lt hfirst _) hrest (List.pairwise_cons.1 hkeys).2

/-- Fields that already hold what would be written stay as they are. -/
theorem overlayFields_eq_self
    (h : ∀ e ∈ rest, ∃ v, Settled fields e.1 v ∧ overlay v e.2 = v) :
    overlayFields fields rest = fields := by
  induction rest with
  | nil => rw [overlayFields]
  | cons e rest ih =>
      obtain ⟨⟨v, hsettled, hv⟩, hrest⟩ := List.forall_mem_cons.1 h
      rw [overlayFields_cons, hsettled.lookup, Option.getD_some, hv, hsettled]
      exact ih hrest

theorem settled_overlayFields (hkeys : rest.Pairwise fun a b => a.1 < b.1)
    (h : ∀ e ∈ rest, ∀ base, overlay (overlay base e.2) e.2 = overlay base e.2)
    (fields : List (String × Json)) :
    ∀ e ∈ rest, ∃ v, Settled (overlayFields fields rest) e.1 v ∧ overlay v e.2 = v := by
  induction rest generalizing fields with
  | nil => exact nofun
  | cons e rest ih =>
      obtain ⟨hfirst, hkeys⟩ := List.pairwise_cons.1 hkeys
      obtain ⟨htwice, hrest⟩ := List.forall_mem_cons.1 h
      rw [overlayFields_cons]
      have hwritten := (settled_insertEntry fields e.1 (overlay ((Dict.lookup e.1 fields).getD null)
        e.2)).overlayFields hfirst hkeys
      exact List.forall_mem_cons.2 ⟨⟨_, hwritten, htwice _⟩, ih hkeys hrest _⟩

theorem overlay_overlay (hsorted : layer.Sorted) (base : Json) :
    overlay (overlay base layer) layer = overlay base layer := by
  induction layer using fields_induction generalizing base with
  | plain layer h => rw [overlay_of_not_isObject h, overlay_of_not_isObject h]
  | object rest ih =>
      have htwice : ∀ e ∈ rest, ∀ base, overlay (overlay base e.2) e.2 = overlay base e.2 :=
        fun e he => ih e he (hsorted.mem he)
      by_cases hobject : base.IsObject
      · obtain ⟨fields, rfl⟩ := hobject
        rw [overlay, overlay,
          overlayFields_eq_self (settled_overlayFields hsorted.keys htwice fields)]
      · rw [overlay_of_not_isObject_left hobject, overlay, overlayFields_eq_self]
        -- Over what is no object each field is written as it is.
        intro e he
        have hself := htwice e he null
        rw [overlay_null] at hself
        exact ⟨e.2, settled_of_mem hsorted.keys he, hself⟩

end Json

end RouteEngine
