import RouteEngine.Pattern.Generation

/-!
The template of a pattern against its tree. A template is the pattern without its groups, so
filling it agrees with writing the tree as soon as the tree writes no group. That is so when every
group has a capture of its own and none of these captures is wanted: whether a group is nested or
not, its own captures decide.
-/

namespace RouteEngine

@[simp] theorem Emitted.nothing_append (e : Emitted) : Emitted.nothing.append e = e := by
  simp [Emitted.append, Emitted.nothing]

/-- What writing a capture gives. -/
def Capture.emitted (values : Params) (c : Capture) : Emitted :=
  match values.get? c.name with
  | some value => ⟨c.escape value, [c.name], []⟩
  | none => ⟨[], [], [c.name]⟩

namespace Segments

theorem emit_capture (values : Params) (wanted : String → Bool) (c : Capture) (next : Segments) :
    (capture c next).emit values wanted =
      (c.emitted values).append (next.emit values wanted) := by
  cases hget : values.get? c.name <;> simp only [emit, Capture.emitted, hget]

/-- Joining two texts in a template is invisible once it is filled. -/
theorem fillTemplate_joined (values : Params) (s t : String) (rest : List TemplatePart) :
    fillTemplate values (.text (s ++ t) :: rest) =
      fillTemplate values (.text s :: .text t :: rest) := by
  simp [fillTemplate, Emitted.append]

theorem fillTemplate_literal (values : Params) (text : String) (next : Segments) :
    fillTemplate values (literal text next).template =
      Emitted.append ⟨text.toList, [], []⟩ (fillTemplate values next.template) := by
  simp only [template]
  split
  · next heq => rw [heq, fillTemplate_joined, fillTemplate, fillTemplate]
  · rw [fillTemplate]

theorem fillTemplate_capture (values : Params) (c : Capture) (next : Segments) :
    fillTemplate values (capture c next).template =
      (c.emitted values).append (fillTemplate values next.template) := by
  simp only [template, fillTemplate, Capture.emitted]
  cases hkind : c.kind <;> cases values.get? c.name <;> simp [Capture.escape, hkind]

/-- A group one of whose own captures is not given is not written. -/
theorem includable_eq_false {given : String → Bool} {inner : Segments} {c : Capture}
    (hc : c ∈ inner.directCaptures) (hgiven : given c.name = false) :
    inner.includable given = false := by
  have hall : inner.directCaptures.all (fun c => given c.name) = false := by
    rw [List.all_eq_false]
    exact ⟨c, hc, by simp [hgiven]⟩
  simp [includable, isWritable, hall]

/-- The groups of the run at hand are left out; those inside them are not looked at. -/
def groupsLeftOut (given : String → Bool) : Segments → Prop
  | done => True
  | literal _ next => next.groupsLeftOut given
  | capture _ next => next.groupsLeftOut given
  | group inner next => inner.includable given = false ∧ next.groupsLeftOut given

theorem fillTemplate_template (values : Params) (wanted : String → Bool) (s : Segments)
    (h : s.groupsLeftOut fun n => wanted n && values.contains n) :
    fillTemplate values s.template = s.emit values wanted := by
  induction s with
  | done => rfl
  | literal text next ih =>
      rw [fillTemplate_literal, ih h, emit]
  | capture c next ih =>
      rw [fillTemplate_capture, ih h, emit_capture]
  | group inner next _ ih =>
      rw [emit, if_neg (by simp [h.1]), Emitted.nothing_append, ← ih h.2, template]

/-! ### Groups without a wanted capture -/

theorem exists_mem_directCaptures {s : Segments} (h : s.hasDirect = true) :
    ∃ c, c ∈ s.directCaptures := by
  cases hd : s.directCaptures with
  | nil => simp [hasDirect, hd] at h
  | cons c _ => exact ⟨c, List.mem_cons_self⟩

theorem mem_occurrences_of_mem_directCaptures {s : Segments} {c : Capture}
    (hc : c ∈ s.directCaptures) (optional : Bool) : ⟨c, optional⟩ ∈ s.occurrences optional := by
  induction s with
  | done => simp [directCaptures] at hc
  | literal _ next ih => exact ih hc
  | capture d next ih =>
      rcases List.mem_cons.1 hc with rfl | hc
      · exact List.mem_cons_self
      · exact List.mem_cons_of_mem _ (ih hc)
  | group inner next _ ih => exact List.mem_append_right _ (ih hc)

/-- When every group has a capture of its own, leaving out whatever name groups hold leaves out
the groups. -/
theorem groupsLeftOut_of_occurrences {given : String → Bool} {s : Segments}
    (hgroups : s.groupsCapture = true)
    (hgiven : ∀ o ∈ s.occurrences false, o.optional = true → given o.capture.name = false) :
    s.groupsLeftOut given := by
  induction s with
  | done => trivial
  | literal _ next ih => exact ih hgroups hgiven
  | capture c next ih =>
      obtain ⟨-, hnext⟩ := List.forall_mem_cons.1 hgiven
      exact ih hgroups hnext
  | group inner next _ ih =>
      simp only [groupsCapture, Bool.and_eq_true] at hgroups
      obtain ⟨⟨hdirect, -⟩, hgroups⟩ := hgroups
      obtain ⟨hinner, hnext⟩ := List.forall_mem_append.1 hgiven
      -- Groups inside this one need no look: its own captures leave it out.
      obtain ⟨c, hc⟩ := exists_mem_directCaptures hdirect
      have hmem := mem_occurrences_of_mem_directCaptures hc true
      exact ⟨includable_eq_false hc (hinner _ hmem rfl), ih hgroups hnext⟩

/-- A name that groups hold is optional unless some group repeats a required name. -/
theorem mem_optionalNames {s : Segments} (hrepeat : s.repeatsRequired = false) {o : Occurrence}
    (ho : o ∈ s.occurrences false) (hoptional : o.optional = true) :
    o.capture.name ∈ s.optionalNames := by
  have hnot : s.requiredNames.contains o.capture.name = false := by
    have hany := List.any_eq_false.1 hrepeat o ho
    simpa [hoptional] using hany
  have hname : o.capture.name ∈ s.names :=
    Names.mem_distinct.2 (List.mem_map_of_mem ho)
  exact List.mem_filter.2 ⟨hname, by rw [hnot]; rfl⟩

end Segments

end RouteEngine
