import RouteEngine.Proofs.Outcome
import RouteEngine.Proofs.Pattern.Filling

/-!
More values make a path no shorter. Whether a group is written depends on its own captures, which
all have to be given, and if it has none on the groups in it, one of which has to be written. Both
rules are monotone in what is given (`includable_mono`), so the walk that is written with more
values enters every group that was entered with fewer (`within_filling`).
-/

namespace RouteEngine

/-! ### Walks that enter more -/

namespace Walk

/-- The second walk enters every group that the first one enters. What the captures stand for may
differ. -/
inductive Within : {s : Segments} → Walk s → Walk s → Prop
  | done : Within .done .done
  | literal (text : String) {next : Segments} {w w' : Walk next} (h : Within w w') :
    Within (.literal text w) (.literal text w')
  | capture (c : Capture) (raw raw' : List Char) {next : Segments} {w w' : Walk next}
    (h : Within w w') : Within (.capture c raw w) (.capture c raw' w')
  | both {inner next : Segments} {i i' : Walk inner} {w w' : Walk next} (hi : Within i i')
    (h : Within w w') : Within (.entered i w) (.entered i' w')
  | neither (inner : Segments) {next : Segments} {w w' : Walk next} (h : Within w w') :
    Within (.skipped inner w) (.skipped inner w')
  | gained {inner next : Segments} (i : Walk inner) {w w' : Walk next} (h : Within w w') :
    Within (.skipped inner w) (.entered i w')

/-- The names of the captures that take part stay, each in its place among the others. -/
theorem Within.names {s : Segments} {w w' : Walk s} (h : w.Within w') :
    (w.captured.map (·.1)).Sublist (w'.captured.map (·.1)) := by
  induction h with
  | done => exact List.Sublist.refl _
  | literal text h ih => exact ih
  | capture c raw raw' h ih => exact ih.cons_cons c.name
  | both hi h ihi ih =>
      rw [captured, captured, List.map_append, List.map_append]
      exact ihi.append ih
  | neither inner h ih => exact ih
  | gained i h ih =>
      rw [captured, captured, List.map_append]
      exact ih.trans (List.sublist_append_right _ _)

end Walk

namespace Segments

variable {given given' : String → Bool} {values values' : Params} {wanted wanted' : String → Bool}

/-! ### Groups that are written -/

theorem isWritable_mono (h : ∀ n, given n = true → given' n = true) {any any' : Bool}
    (hany : any = true → any' = true) {s : Segments} (hs : s.isWritable given any = true) :
    s.isWritable given' any' = true := by
  simp only [isWritable, Bool.and_eq_true, Bool.or_eq_true, List.all_eq_true] at hs ⊢
  obtain ⟨hall, hgroup⟩ := hs
  exact ⟨fun c hc => h c.name (hall c hc), hgroup.imp_right hany⟩

theorem anyWritable_mono (h : ∀ n, given n = true → given' n = true) {s : Segments}
    (hs : s.anyWritable given = true) : s.anyWritable given' = true := by
  induction s with
  | done => exact hs
  | literal text next ih => exact ih hs
  | capture c next ih => exact ih hs
  | group inner next ihInner ihNext =>
      rw [anyWritable, Bool.or_eq_true] at hs ⊢
      exact hs.imp (isWritable_mono h ihInner) ihNext

theorem includable_mono (h : ∀ n, given n = true → given' n = true) {inner : Segments}
    (hinner : inner.includable given = true) : inner.includable given' = true :=
  isWritable_mono h (anyWritable_mono h) hinner

/-! ### What is written -/

theorem within_filling
    (h : ∀ n, (wanted n && values.contains n) = true → (wanted' n && values'.contains n) = true)
    (s : Segments) : (s.filling values wanted).Within (s.filling values' wanted') := by
  induction s with
  | done => exact .done
  | literal text next ih => exact .literal text ih
  | capture c next ih => exact .capture c _ _ ih
  | group inner next ihInner ihNext =>
      rw [filling, filling]
      split
      · next hwritten =>
          rw [if_pos (includable_mono h hwritten)]
          exact .both ihInner ihNext
      · split
        · exact .gained _ ihNext
        · exact .neither inner ihNext

/-- Where the values stay the same, so does every piece of the path. -/
theorem sublist_text_filling
    (h : ∀ n, (wanted n && values.contains n) = true → (wanted' n && values'.contains n) = true)
    (hsame : ∀ n v, values.get? n = some v → values'.get? n = some v) (s : Segments) :
    (s.filling values wanted).text.Sublist (s.filling values' wanted').text := by
  induction s with
  | done => exact List.Sublist.refl _
  | literal text next ih => exact ih.append_left text.toList
  | capture c next ih =>
      have hhere : (c.emitted values).text.Sublist (c.emitted values').text := by
        cases hvalue : values.get? c.name with
        | none => simp [Capture.emitted, hvalue]
        | some v =>
            rw [Capture.emitted_of_get? hvalue, Capture.emitted_of_get? (hsame c.name v hvalue)]
      exact hhere.append ih
  | group inner next ihInner ihNext =>
      rw [filling, filling]
      split
      · next hwritten =>
          rw [if_pos (includable_mono h hwritten)]
          exact ihInner.append ihNext
      · split
        · exact ihNext.trans (List.sublist_append_right _ _)
        · exact ihNext

end Segments

namespace Pattern

open Outcome

/-- With values for all the names that had one, and more names wanted perhaps, a path is made
again. It has every name of the first path and the groups that the first one has, all of them in
their places; and where the values are the same, nothing is missing of its text. -/
theorem generate_mono (p : Pattern) {values values' : Params} {wanted wanted' : String → Bool}
    (hvalues : ∀ n, values.contains n = true → values'.contains n = true)
    (hwanted : ∀ n, wanted n = true → wanted' n = true) {g : Generated}
    (hg : p.generate values wanted = .ok g) :
    ∃ g', p.generate values' wanted' = .ok g' ∧ (∀ n ∈ g.used, n ∈ g'.used) ∧
      (p.segments.filling values wanted).text = g.path.toList ∧
      (p.segments.filling values' wanted').text = g'.path.toList ∧
      (p.segments.filling values wanted).Within (p.segments.filling values' wanted') ∧
      ((∀ n v, values.get? n = some v → values'.get? n = some v) →
        g.path.toList.Sublist g'.path.toList) := by
  have hgiven : ∀ n, (wanted n && values.contains n) = true →
      (wanted' n && values'.contains n) = true := by
    intro n hn
    rw [Bool.and_eq_true] at hn ⊢
    exact hn.imp (hwanted n) (hvalues n)
  obtain ⟨hdirect, -⟩ := path_of_generate hg
  have hdirect' : ∀ c ∈ p.segments.directCaptures, values'.contains c.name = true :=
    fun c hc => hvalues c.name (hdirect c hc)
  have hwithin := p.segments.within_filling hgiven
  obtain rfl := Except.ok.inj (hg.symm.trans (generate_eq_ok wanted hdirect))
  refine ⟨_, generate_eq_ok wanted' hdirect', fun n hn => ?_, String.toList_ofList.symm,
    String.toList_ofList.symm, hwithin, fun hsame => ?_⟩
  · rw [Names.mem_distinct] at hn ⊢
    exact hwithin.names.subset hn
  · rw [String.toList_ofList, String.toList_ofList]
    exact p.segments.sublist_text_filling hgiven hsame

/-- A group that has no capture of its own, with the year and the month in groups of it. -/
def archiveSource : String := "/:lang/archive((/:year)(/:month))(.:format)"

def yearParams : Params := .ofList [("lang", "en"), ("year", "2024"), ("format", "xml")]

def monthParams : Params :=
  .ofList [("lang", "en"), ("year", "2024"), ("month", "5"), ("format", "xml")]

/-- The month comes behind the year, in the group that was there for the year already. -/
theorem generate_mono_archive :
    ∃ p g g', compile archiveSource .empty true = .ok p ∧
      p.generate yearParams (fun n => n ≠ "format") = .ok g ∧ g.path = "/en/archive/2024" ∧
      p.generate monthParams (fun _ => true) = .ok g' ∧ (∀ n ∈ g.used, n ∈ g'.used) ∧
      g.path.toList.Sublist g'.path.toList := by
  have hcheck : ((compile archiveSource .empty true).toOption.any fun p =>
      decide ((p.generate yearParams fun n => n ≠ "format").toOption.map (·.path) =
        some "/en/archive/2024")) = true := by
    decide +kernel
  obtain ⟨p, hp, h⟩ := exists_ok_of_any hcheck
  obtain ⟨g, hg, hpath⟩ := Option.map_eq_some_iff.1 (of_decide_eq_true h)
  have hgenerate := toOption_eq_some.1 hg
  have hkept : ∀ n v, yearParams.get? n = some v → monthParams.get? n = some v := by
    intro n v hv
    have hmem := Dict.mem_of_get?_ofList hv
    simp only [List.mem_cons, Prod.mk.injEq, List.not_mem_nil, or_false] at hmem
    rcases hmem with ⟨rfl, rfl⟩ | ⟨rfl, rfl⟩ | ⟨rfl, rfl⟩ <;> decide +kernel
  have hvalues : ∀ n, yearParams.contains n = true → monthParams.contains n = true := by
    intro n hn
    obtain ⟨v, hv⟩ := Option.isSome_iff_exists.1 hn
    exact Option.isSome_iff_exists.2 ⟨v, hkept n v hv⟩
  obtain ⟨g', hg', hused, -, -, -, hsublist⟩ := p.generate_mono hvalues (fun _ _ => rfl) hgenerate
  exact ⟨p, g, g', hp, hgenerate, hpath, hg', hused, hsublist hkept⟩

end Pattern

end RouteEngine
