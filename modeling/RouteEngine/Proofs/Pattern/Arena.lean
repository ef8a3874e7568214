import RouteEngine.Proofs.Pattern.Stack

/-!
Patterns in flat form. While a text is read, each part that is finished has its one place, in an
open run or in a group (`consistent_step`); so in the end each is referred to once, and groups
refer to earlier parts only. The stack of the tokens has their text (`print_stack`). Together with
the offences of the text, this is all that reading does (`parseArena_reads`).
-/

namespace RouteEngine

namespace Arena

/-- A literal has text, without parentheses and markers. -/
def IsPlain (text : String) : Prop := text ≠ "" ∧ ∀ c ∈ text.toList, c ∉ ['(', ')', ':', '*']

def IsLiteral (nodes : List Node) (i : Nat) : Prop := ∃ text, nodes[i]? = some (.literal text)

/-- The parts with the runs that refer to them. -/
structure Consistent (nodes : List Node) (runs : List (List Nat)) : Prop where
  /-- The runs and the groups together refer to every part, and to none twice. -/
  once : (runs.flatten ++ nodes.flatMap Node.parts).Perm (List.range nodes.length)
  earlier : ∀ (i : Nat) (n : Node), nodes[i]? = some n → ∀ j ∈ n.parts, j < i
  plain : ∀ text, .literal text ∈ nodes → IsPlain text
  /-- No two neighbours are literals. -/
  apart : ∀ run ∈ runs ++ nodes.map Node.parts,
    run.IsChain fun i j => ¬ (IsLiteral nodes i ∧ IsLiteral nodes j)

variable {nodes : List Node} {n : Node} {runs around : List (List Nat)} {run : List Nat}

theorem isLiteral_append {i : Nat} (hi : i < nodes.length) :
    IsLiteral (nodes ++ [n]) i ↔ IsLiteral nodes i := by
  rw [IsLiteral, IsLiteral, List.getElem?_append_left hi]

theorem isLiteral_length : IsLiteral (nodes ++ [n]) nodes.length ↔ ∃ text, n = .literal text := by
  rw [IsLiteral, List.getElem?_concat_length]
  simp only [Option.some.injEq]

namespace Consistent

theorem empty : Consistent [] [[]] where
  once := .refl _
  earlier := by simp
  plain := by simp
  apart := by simp

/-- A run that is opened has no parts yet. -/
theorem opened (h : Consistent nodes runs) : Consistent nodes ([] :: runs) where
  once := h.once
  earlier := h.earlier
  plain := h.plain
  apart := List.forall_mem_cons.2 ⟨.nil, h.apart⟩

theorem lt_length (h : Consistent nodes runs) (hrun : run ∈ runs ++ nodes.map Node.parts) {i : Nat}
    (hi : i ∈ run) : i < nodes.length := by
  refine List.mem_range.1 (h.once.mem_iff.1 ?_)
  rw [List.flatMap_def, ← List.flatten_append]
  exact List.mem_flatten.2 ⟨run, hrun, hi⟩

/-- A part that is finished takes what it is made of from the run on top, and its place is the end
of the run below. -/
theorem add (h : Consistent nodes (n.parts :: run :: around))
    (hplain : ∀ text, n = .literal text → IsPlain text)
    (hlast : (∃ text, n = .literal text) → ∀ i ∈ run.getLast?, ¬ IsLiteral nodes i) :
    Consistent (nodes ++ [n]) ((run ++ [nodes.length]) :: around) := by
  have hparts : ∀ j ∈ n.parts, j < nodes.length := fun j => h.lt_length (by simp)
  have hrun : ∀ j ∈ run, j < nodes.length := fun j => h.lt_length (by simp)
  have hkeep : ∀ run' ∈ n.parts :: run :: around ++ nodes.map Node.parts,
      run'.IsChain fun i j => ¬ (IsLiteral (nodes ++ [n]) i ∧ IsLiteral (nodes ++ [n]) j) := by
    intro run' hmem
    refine (h.apart run' hmem).imp_of_mem_imp fun i j hi hj hij => ?_
    rwa [isLiteral_append (h.lt_length hmem hi), isLiteral_append (h.lt_length hmem hj)]
  constructor
  case once =>
    have hcount := List.perm_iff_count.1 h.once
    refine List.perm_iff_count.2 fun i => ?_
    have hcount := hcount i
    simp only [List.flatten_cons, List.flatMap_append, List.flatMap_singleton, List.count_append,
      List.length_append, List.length_singleton, List.range_succ] at hcount ⊢
    omega
  case earlier =>
    intro i m hm
    rcases Nat.lt_trichotomy i nodes.length with hi | rfl | hi
    · rw [List.getElem?_append_left hi] at hm
      exact h.earlier i m hm
    · rw [List.getElem?_concat_length, Option.some.injEq] at hm
      exact hm ▸ hparts
    · rw [List.getElem?_eq_none (by simp; omega)] at hm
      cases hm
  case plain =>
    intro text htext
    rcases List.mem_append.1 htext with htext | htext
    · exact h.plain text htext
    · exact hplain text (List.mem_singleton.1 htext).symm
  case apart =>
    intro run' hmem
    rw [List.map_append, List.map_singleton, List.cons_append, List.mem_cons] at hmem
    rcases hmem with rfl | hmem
    · refine List.isChain_append.2 ⟨hkeep run (by simp), .singleton _, ?_⟩
      rintro i hi j hj ⟨hlit, hlit'⟩
      obtain rfl : nodes.length = j := by simpa using hj
      rw [isLiteral_append (hrun i (List.mem_of_mem_getLast? hi))] at hlit
      exact hlast (isLiteral_length.1 hlit') i hi hlit
    · refine hkeep run' ?_
      simp only [List.mem_append, List.mem_cons, List.not_mem_nil, or_false] at hmem ⊢
      tauto

end Consistent

end Arena

namespace Pattern

open Arena Outcome

namespace Reading

variable {r s : Reading} {t : Token} {ts : List Token} {a : Arena}

/-- A literal may join the innermost run. -/
def Apart (r : Reading) : Prop := ∀ i ∈ r.run.getLast?, ¬ IsLiteral r.nodes i

theorem apart_add {n : Node} (hn : ∀ text, n ≠ .literal text) : (r.add n).Apart := by
  intro i hi hlit
  obtain rfl : r.nodes.length = i := by simpa [Reading.add] using hi
  obtain ⟨text, htext⟩ := isLiteral_length.1 hlit
  exact hn text htext

theorem isPlain_ofList {cs : List Char} (h : (Token.text cs).IsProper) :
    IsPlain (String.ofList cs) := by
  refine ⟨fun hempty => h.1 (String.ofList_eq_empty_iff.1 hempty), fun c hc => ?_⟩
  have hplain := h.2 c (by simpa using hc)
  rwa [isPlainChar, Bool.not_eq_true', ← Bool.not_eq_true, List.contains_iff_mem] at hplain

/-- Each token keeps the parts consistent, and only behind a literal no other may follow. -/
theorem consistent_step (h : Consistent r.nodes (r.run :: r.around)) (ht : t.IsProper)
    (hapart : t.IsText → r.Apart) (hstep : r.step t = .ok s) :
    Consistent s.nodes (s.run :: s.around) ∧ (¬ t.IsText → s.Apart) := by
  obtain ⟨nodes, run, around⟩ := r
  cases t with
  | text cs =>
      cases hstep
      refine ⟨h.opened.add ?_ fun _ => hapart trivial, fun hnot => absurd trivial hnot⟩
      rintro text ⟨⟩
      exact isPlain_ofList ht
  | capture kind name =>
      cases hstep
      exact ⟨h.opened.add nofun nofun, fun _ => apart_add nofun⟩
  | nameless kind => cases hstep
  | openGroup =>
      cases hstep
      exact ⟨h.opened, fun _ => nofun⟩
  | closeGroup =>
      cases around with
      | nil => cases hstep
      | cons outer around =>
          cases hstep
          exact ⟨h.add nofun nofun, fun _ => apart_add nofun⟩

theorem consistent_reads (h : Consistent r.nodes (r.run :: r.around)) (hts : ProperTokens ts)
    (hapart : ∀ t ∈ ts.head?, t.IsText → r.Apart) (ha : r.reads ts = .ok a) :
    Consistent a.nodes [a.root] := by
  induction ts generalizing r with
  | nil =>
      obtain ⟨nodes, run, around⟩ := r
      cases around with
      | nil =>
          cases ha
          exact h
      | cons => cases ha
  | cons t ts ih =>
      rw [reads_cons] at ha
      obtain ⟨s, hs, ha⟩ := bind_eq_ok.1 ha
      obtain ⟨hconsistent, hafter⟩ :=
        consistent_step h (hts.proper t (by simp)) (hapart t (by simp)) hs
      refine ih hconsistent hts.tail (fun u hu htext => ?_) ha
      exact hafter fun ht => (List.isChain_cons.1 hts.apart).1 u hu ⟨ht, htext⟩

end Reading

/-- The runs on the stack, with the parentheses between them, have the text of the tokens. -/
theorem print_stack {ts : List Token} {depth : Nat} (h : firstOffence depth ts = none) :
    ∃ top st, stack ts = top :: st ∧
      top.print ++ st.flatMap (fun s => ')' :: s.print) = ts.flatMap Token.print := by
  induction ts generalizing depth with
  | nil => exact ⟨.done, [], rfl, rfl⟩
  | cons t ts ih =>
      cases t with
      | openGroup =>
          have hlength : (stack ts).length = depth + 1 + 1 := length_stack h
          obtain ⟨inner, st, hst, hprint⟩ := ih h
          cases st with
          | nil => simp [hst] at hlength
          | cons next st =>
              refine ⟨.group inner next, st, stack_openGroup hst, ?_⟩
              rw [List.flatMap_cons, ← hprint]
              simp [Segments.print, Token.print]
      | closeGroup =>
          rw [firstOffence] at h
          split at h
          · simp at h
          · obtain ⟨top, st, hst, hprint⟩ := ih h
            refine ⟨.done, top :: st, by rw [stack, hst], ?_⟩
            rw [List.flatMap_cons, List.flatMap_cons, ← hprint]
            simp [Segments.print, Token.print]
      | text cs =>
          obtain ⟨top, st, hst, hprint⟩ := ih h
          refine ⟨_, st, stack_text cs hst, ?_⟩
          rw [List.flatMap_cons, ← hprint]
          simp [Segments.print, Token.print]
      | capture kind name =>
          obtain ⟨top, st, hst, hprint⟩ := ih h
          refine ⟨_, st, stack_capture kind name hst, ?_⟩
          rw [List.flatMap_cons, ← hprint]
          simp [Segments.print, Token.print, defaultCapture]
      | nameless kind => simp [firstOffence] at h

variable {source : String} {a : Arena}

/-- The tree of a pattern text has that text. -/
theorem print_tree (h : parseArena source = .ok a) : a.tree.print = source.toList := by
  obtain ⟨hnone, htree⟩ := firstOffence_of_readTokens (mapError_eq_ok.1 h)
  have hlength := length_stack hnone
  obtain ⟨top, st, hst, hprint⟩ := print_stack hnone
  rw [hst, List.length_cons, Nat.succ_inj, List.length_eq_zero_iff] at hlength
  rw [htree, hst, ← print_tokens source.toList, ← hprint, hlength]
  simp

theorem exists_parseArena_iff :
    (∃ a, parseArena source = .ok a) ↔ InOrder 0 source.toList := by
  rw [← firstOffence_eq_none]
  constructor
  · rintro ⟨a, ha⟩
    exact (firstOffence_of_readTokens (mapError_eq_ok.1 ha)).1
  · intro hnone
    have hread := readTokens_stack (tokens source.toList)
    rw [hnone] at hread
    obtain ⟨a, ha, -⟩ := hread
    exact ⟨a, mapError_eq_ok.2 ha⟩

theorem parseArena_eq_error {e : PatternError} :
    parseArena source = .error e ↔ ∃ o, FirstOffence 0 source.toList o ∧ e = o.error source := by
  rw [parseArena, mapError_eq_error]
  refine exists_congr fun o => and_congr_left fun _ => ?_
  rw [← firstOffence_eq_some]
  have hread := readTokens_stack (tokens source.toList)
  split at hread
  · next o' ho' =>
      rw [hread, ho', Except.error.injEq, Option.some.injEq]
  · next hnone =>
      obtain ⟨a, ha, -⟩ := hread
      rw [ha, hnone]
      exact ⟨nofun, nofun⟩

/-- A text can be read exactly when its parentheses are balanced and its markers have names. What
is read then has the text of the source, and its parts are consistent; otherwise the error is that
of the first offence. -/
theorem parseArena_reads (source : String) :
    ((∃ a, parseArena source = .ok a) ↔ Balanced source.toList ∧ MarkersNamed source.toList) ∧
      (∀ a, parseArena source = .ok a →
        a.tree.print = source.toList ∧ Consistent a.nodes [a.root]) ∧
      ∀ e, parseArena source = .error e ↔
        ∃ o, FirstOffence 0 source.toList o ∧ e = o.error source := by
  refine ⟨exists_parseArena_iff.trans inOrder_iff, fun a ha => ⟨print_tree ha, ?_⟩,
    fun e => parseArena_eq_error⟩
  exact Reading.consistent_reads (r := .start) .empty (proper_tokens source.toList)
    (fun _ _ _ => nofun) (mapError_eq_ok.1 ha)

end Pattern

end RouteEngine
