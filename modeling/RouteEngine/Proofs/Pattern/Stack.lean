import RouteEngine.Proofs.Outcome
import RouteEngine.Proofs.Pattern.Tokens

/-!
The tree of a pattern from right to left. Reading goes from left to right and numbers the parts as
they are finished. For an induction on the tokens the other direction is the convenient one: the
tree is built on a stack of open runs, where an opening parenthesis takes the run on top as its
content and continues the one below. What a reading makes of the tokens to come is what their
stack adds to its open runs (`reads_stack`), so both give the same tree.
-/

namespace RouteEngine

namespace Arena

variable {nodes : List Node} {n : Node} {known more : List (Segments → Segments)}
  {parts : List Nat}

theorem joins_append (nodes : List Node) (n : Node) :
    joins (nodes ++ [n]) = joins nodes ++ [n.join (joins nodes)] := by
  rw [joins, List.foldl_append]
  rfl

theorem length_joins (nodes : List Node) : (joins nodes).length = nodes.length := by
  induction nodes using List.reverseRecOn with
  | nil => rfl
  | append_singleton nodes n ih => simp [joins_append, ih]

/-- Parts that are finished later do not matter. -/
theorem join_append (h : ∀ i ∈ parts, i < known.length) (next : Segments) :
    join (known ++ more) parts next = join known parts next := by
  induction parts with
  | nil => rfl
  | cons i parts ih =>
      obtain ⟨hi, hparts⟩ := List.forall_mem_cons.1 h
      have hget : (known ++ more).getD i id = known.getD i id := by
        simp [List.getD_eq_getElem?_getD, List.getElem?_append_left hi]
      simp only [join, List.foldr_cons, hget] at ih ⊢
      rw [ih hparts]

theorem join_concat (parts : List Nat) (i : Nat) (next : Segments) :
    join known (parts ++ [i]) next = join known parts (known.getD i id next) := by
  rw [join, List.foldr_append]
  rfl

end Arena

namespace Pattern

open Arena Outcome

/-- The runs that the tokens leave open, the innermost on top. -/
def stack : List Token → List Segments
  | [] => [.done]
  | t :: ts =>
    match t, stack ts with
    | .closeGroup, st => .done :: st
    | .openGroup, inner :: next :: st => .group inner next :: st
    | .text cs, top :: st => .literal (String.ofList cs) top :: st
    | .capture kind name, top :: st => .capture (defaultCapture kind name) top :: st
    | _, st => st

section

variable {ts : List Token} {top inner next : Segments} {st : List Segments}

theorem stack_text (cs : List Char) (h : stack ts = top :: st) :
    stack (.text cs :: ts) = .literal (String.ofList cs) top :: st := by
  simp only [stack, h]

theorem stack_capture (kind : CaptureKind) (name : List Char) (h : stack ts = top :: st) :
    stack (.capture kind name :: ts) = .capture (defaultCapture kind name) top :: st := by
  simp only [stack, h]

theorem stack_openGroup (h : stack ts = inner :: next :: st) :
    stack (.openGroup :: ts) = .group inner next :: st := by
  simp only [stack, h]

end

theorem stack_ne_nil (ts : List Token) : stack ts ≠ [] := by
  induction ts with
  | nil => simp [stack]
  | cons t ts ih =>
      unfold stack
      split <;> first | exact ih | exact List.cons_ne_nil _ _

/-- Unless something is wrong with the parentheses, each group that is open has its run. -/
theorem length_stack {ts : List Token} {depth : Nat} (h : firstOffence depth ts = none) :
    (stack ts).length = depth + 1 := by
  induction ts generalizing depth with
  | nil =>
      simp only [firstOffence] at h
      split at h
      · next hdepth => rw [hdepth, stack, List.length_singleton]
      · simp at h
  | cons t ts ih =>
      unfold stack
      cases t with
      | openGroup =>
          have hlength : (stack ts).length = depth + 1 + 1 := ih h
          cases hst : stack ts with
          | nil => simp [hst] at hlength
          | cons inner st =>
              cases st with
              | nil => simp [hst] at hlength
              | cons next st =>
                  rw [hst] at hlength
                  simpa using hlength
      | closeGroup =>
          rw [firstOffence] at h
          split at h
          · simp at h
          · have hlength := ih h
            simp only [List.length_cons]
            omega
      | text cs =>
          have hlength := ih h
          cases hst : stack ts with
          | nil => simp [hst] at hlength
          | cons top st => simpa [hst] using hlength
      | capture kind name =>
          have hlength := ih h
          cases hst : stack ts with
          | nil => simp [hst] at hlength
          | cons top st => simpa [hst] using hlength
      | nameless kind => simp [firstOffence] at h

theorem nameless_notMem {ts : List Token} (depth : Nat) (h : firstOffence depth ts = none)
    (kind : CaptureKind) : .nameless kind ∉ ts := by
  induction ts generalizing depth with
  | nil => simp
  | cons t ts ih =>
      cases t with
      | closeGroup =>
          rw [firstOffence] at h
          split at h
          · simp at h
          · simpa using ih (depth - 1) h
      | nameless kind => simp [firstOffence] at h
      | openGroup => simpa using ih (depth + 1) h
      | text cs => simpa using ih depth h
      | capture kind name => simpa using ih depth h

/-! ### Readings -/

namespace Reading

variable {r : Reading} {ts : List Token} {o : Offence} {a : Arena}

/-- The runs refer to parts that are finished. -/
structure Numbered (r : Reading) : Prop where
  run : ∀ i ∈ r.run, i < r.nodes.length
  around : ∀ run ∈ r.around, ∀ i ∈ run, i < r.nodes.length

theorem Numbered.add (h : r.Numbered) (n : Node) : (r.add n).Numbered where
  run i hi := by
    simp only [Reading.add, List.length_append, List.length_singleton] at hi ⊢
    rcases List.mem_append.1 hi with hi | hi
    · exact Nat.lt_succ_of_lt (h.run i hi)
    · rw [List.mem_singleton.1 hi]
      exact Nat.lt_succ_self _
  around run hrun i hi := by
    simp only [Reading.add, List.length_append, List.length_singleton]
    exact Nat.lt_succ_of_lt (h.around run hrun i hi)

/-- The tree that comes out when the stack is what is added to the open runs. -/
def fill (known : List (Segments → Segments)) :
    (run : List Nat) → (around : List (List Nat)) → List Segments → Segments
  | run, [], st => join known run (st.headD .done)
  | run, outer :: around, st =>
    fill known outer around
      (.group (join known run (st.headD .done)) (st.tail.headD .done) :: st.tail.tail)

def completed (r : Reading) (st : List Segments) : Segments :=
  fill (joins r.nodes) r.run r.around st

theorem fill_append {known more : List (Segments → Segments)} {run : List Nat}
    {around : List (List Nat)} (hrun : ∀ i ∈ run, i < known.length)
    (haround : ∀ run ∈ around, ∀ i ∈ run, i < known.length) (st : List Segments) :
    fill (known ++ more) run around st = fill known run around st := by
  induction around generalizing run st with
  | nil => exact join_append hrun _
  | cons outer around ih =>
      obtain ⟨houter, haround⟩ := List.forall_mem_cons.1 haround
      rw [fill, fill, join_append hrun, ih houter haround]

/-- A part that is finished stands in front of what its run gets later. -/
theorem completed_add (h : r.Numbered) (n : Node) (st : List Segments) :
    (r.add n).completed st =
      r.completed (n.join (joins r.nodes) (st.headD .done) :: st.tail) := by
  have hget : (joins r.nodes ++ [n.join (joins r.nodes)]).getD r.nodes.length id =
      n.join (joins r.nodes) := by
    simp [← length_joins r.nodes]
  have hlast : ∀ next, join (joins r.nodes ++ [n.join (joins r.nodes)])
      (r.run ++ [r.nodes.length]) next = join (joins r.nodes) r.run (n.join (joins r.nodes) next) := by
    intro next
    rw [join_concat, hget, join_append]
    exact fun i hi => (length_joins r.nodes).symm ▸ h.run i hi
  have haround : ∀ run ∈ r.around, ∀ i ∈ run, i < (joins r.nodes).length :=
    fun run hrun i hi => (length_joins r.nodes).symm ▸ h.around run hrun i hi
  unfold completed
  simp only [Reading.add, joins_append]
  cases haround' : r.around with
  | nil => exact hlast _
  | cons outer around =>
      rw [haround'] at haround
      obtain ⟨houter, haround⟩ := List.forall_mem_cons.1 haround
      rw [fill, fill, hlast, fill_append houter haround]
      rfl

/-- What becomes of the reading when these tokens follow. -/
def reads (r : Reading) (ts : List Token) : Except Offence Arena :=
  ts.foldlM step r >>= finish

theorem reads_cons (r : Reading) (t : Token) (ts : List Token) :
    r.reads (t :: ts) = r.step t >>= fun s => s.reads ts := by
  rw [reads, List.foldlM_cons]
  cases r.step t <;> rfl

theorem reads_of_step {t : Token} {s : Reading} (h : r.step t = .ok s) :
    r.reads (t :: ts) = s.reads ts := by
  rw [reads_cons, h]
  rfl

/-- A reading ends in the first offence of the tokens, and without one it completes its runs with
their stack. -/
theorem reads_stack (h : r.Numbered) (ts : List Token) :
    match firstOffence r.around.length ts with
    | some o => r.reads ts = .error o
    | none => ∃ a, r.reads ts = .ok a ∧ a.tree = r.completed (stack ts) := by
  induction ts generalizing r with
  | nil =>
      obtain ⟨nodes, run, around⟩ := r
      cases around with
      | nil => exact ⟨⟨nodes, run⟩, rfl, rfl⟩
      | cons => rfl
  | cons t ts ih =>
      have hadd : ∀ n, r.step t = .ok (r.add n) →
          firstOffence r.around.length (t :: ts) = firstOffence r.around.length ts →
          (∀ top st, stack ts = top :: st →
            stack (t :: ts) = n.join (joins r.nodes) top :: st) →
          match firstOffence r.around.length (t :: ts) with
          | some o => r.reads (t :: ts) = .error o
          | none => ∃ a, r.reads (t :: ts) = .ok a ∧ a.tree = r.completed (stack (t :: ts)) := by
        intro n hstep hfirst hstack
        have ih := ih (h.add n)
        obtain ⟨top, st, hst⟩ := List.exists_cons_of_ne_nil (stack_ne_nil ts)
        rw [completed_add h, hst] at ih
        rw [hfirst, reads_of_step hstep, hstack top st hst]
        exact ih
      cases t with
      | text cs =>
          exact hadd _ rfl rfl fun _ _ hst => stack_text cs hst
      | capture kind name =>
          exact hadd _ rfl rfl fun _ _ hst => stack_capture kind name hst
      | nameless kind => exact reads_cons r _ ts
      | openGroup =>
          have hopened : Numbered ⟨r.nodes, [], r.run :: r.around⟩ :=
            ⟨by simp, List.forall_mem_cons.2 ⟨h.run, h.around⟩⟩
          have ih := ih hopened
          rw [reads_of_step (s := ⟨r.nodes, [], r.run :: r.around⟩) rfl, firstOffence]
          split at ih
          · next o ho =>
              rw [List.length_cons] at ho
              rw [ho]
              exact ih
          · next hnone =>
              rw [List.length_cons] at hnone
              obtain ⟨a, ha, htree⟩ := ih
              have hlength := length_stack hnone
              rw [hnone]
              cases hst : stack ts with
              | nil => simp [hst] at hlength
              | cons inner st =>
                  cases st with
                  | nil => simp [hst] at hlength
                  | cons next st =>
                      rw [hst] at htree
                      rw [stack_openGroup hst]
                      exact ⟨a, ha, htree⟩
      | closeGroup =>
          obtain ⟨nodes, run, around⟩ := r
          cases around with
          | nil => exact reads_cons _ _ ts
          | cons outer around =>
              obtain ⟨houter, haround⟩ := List.forall_mem_cons.1 h.around
              have hclosed : Numbered ⟨nodes, outer, around⟩ := ⟨houter, haround⟩
              have ih := ih (hclosed.add (.group run))
              rw [completed_add hclosed] at ih
              rw [reads_of_step rfl, firstOffence, List.length_cons, if_neg (Nat.succ_ne_zero _)]
              exact ih

end Reading

variable {source : String} {tree : Segments}

theorem readTokens_stack (ts : List Token) :
    match firstOffence 0 ts with
    | some o => readTokens ts = .error o
    | none => ∃ a, readTokens ts = .ok a ∧ a.tree = (stack ts).headD .done :=
  Reading.reads_stack (r := .start) ⟨by simp [Reading.start], by simp [Reading.start]⟩ ts

theorem firstOffence_of_readTokens {ts : List Token} {a : Arena} (h : readTokens ts = .ok a) :
    firstOffence 0 ts = none ∧ a.tree = (stack ts).headD .done := by
  have hread := readTokens_stack ts
  split at hread
  · rw [h] at hread
    cases hread
  · next hnone =>
      obtain ⟨b, hb, htree⟩ := hread
      rw [h] at hb
      cases hb
      exact ⟨hnone, htree⟩

theorem stack_of_parseTree (h : parseTree source = .ok tree) :
    firstOffence 0 (tokens source.toList) = none ∧
      tree = (stack (tokens source.toList)).headD .done := by
  obtain ⟨a, ha, rfl⟩ := map_eq_ok.1 h
  exact firstOffence_of_readTokens (mapError_eq_ok.1 ha)

end Pattern

end RouteEngine
