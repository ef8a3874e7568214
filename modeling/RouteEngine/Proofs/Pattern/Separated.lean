import RouteEngine.Proofs.Pattern.Preferred

/-!
Separated patterns. With the parentheses taken out of a pattern, something has to tell where a
capture ends: a slash or a point after a dynamic capture, and the end of the pattern after a glob.
The condition is stated on the text; `separated_of_readTree` carries it over to the tree, where
the text after a group counts as following what is inside.
-/

namespace RouteEngine

/-- A slash or a point comes first, or there is nothing. -/
def stops : List Char → Bool
  | [] => true
  | c :: _ => c = '/' || c = '.'

/-- The text after a capture keeps the capture from taking up more. -/
def CaptureKind.endsBefore : CaptureKind → List Char → Bool
  | .dynamic, after => stops after
  | .glob, after => after.isEmpty

namespace Pattern

def Token.isParenthesis : Token → Bool
  | openGroup => true
  | closeGroup => true
  | _ => false

/-- The text of the tokens with the parentheses removed. -/
def bareText (ts : List Token) : List Char :=
  (ts.filter fun t => !t.isParenthesis).flatMap Token.print

def separatedTokens : List Token → Bool
  | [] => true
  | .capture kind _ :: ts => kind.endsBefore (bareText ts) && separatedTokens ts
  | _ :: ts => separatedTokens ts

/-- With the parentheses removed, every name is followed by a slash, by a point or by nothing, and
a glob by nothing. -/
def isSeparated (source : String) : Bool := separatedTokens (tokens source.toList)

end Pattern

namespace Segments

/-- The captures of the tree are separated when `after` follows it. -/
def Separated (after : List Char) : Segments → Prop
  | done => True
  | literal _ next => next.Separated after
  | capture c next => c.kind.endsBefore (next.bareText ++ after) = true ∧ next.Separated after
  | group inner next => inner.Separated (next.bareText ++ after) ∧ next.Separated after

variable {f : Capture → Capture}

theorem bareText_mapCaptures (hf : ∀ c, (f c).kind = c.kind ∧ (f c).name = c.name)
    (s : Segments) : (s.mapCaptures f).bareText = s.bareText := by
  induction s with
  | done => rfl
  | literal text next ih => rw [mapCaptures, bareText, bareText, ih]
  | capture c next ih => rw [mapCaptures, bareText, bareText, ih, (hf c).1, (hf c).2]
  | group inner next ihInner ihNext => rw [mapCaptures, bareText, bareText, ihInner, ihNext]

theorem Separated.mapCaptures (hf : ∀ c, (f c).kind = c.kind ∧ (f c).name = c.name)
    {s : Segments} {after : List Char} (hs : s.Separated after) :
    (s.mapCaptures f).Separated after := by
  induction s generalizing after with
  | done => trivial
  | literal text next ih => exact ih hs
  | capture c next ih =>
      refine ⟨?_, ih hs.2⟩
      rw [bareText_mapCaptures hf, (hf c).1]
      exact hs.1
  | group inner next ihInner ihNext =>
      refine ⟨?_, ihNext hs.2⟩
      rw [bareText_mapCaptures hf]
      exact ihInner hs.1

/-- On a stack of open runs, a run is followed by those below it. -/
def StackSeparated : List Segments → Prop
  | [] => True
  | s :: st => s.Separated (st.flatMap bareText) ∧ StackSeparated st

end Segments

namespace Pattern

open Segments

theorem kind_requireCapture (hasFormat : Bool) (c : Capture) :
    (requireCapture .empty hasFormat c).kind = c.kind ∧
      (requireCapture .empty hasFormat c).name = c.name := by
  unfold requireCapture
  rw [Dict.get?_empty]
  simp only
  split <;> exact ⟨rfl, rfl⟩

/-! ### From the tokens to the tree -/

/-- The stack has the text of the tokens, and is separated if they are. -/
theorem stack_separated {ts : List Token} (hnameless : ∀ kind, .nameless kind ∉ ts)
    (hs : separatedTokens ts = true) :
    (stack ts).flatMap Segments.bareText = bareText ts ∧ StackSeparated (stack ts) := by
  -- Both go together: what follows a capture is the text of its run and of those below it.
  induction ts with
  | nil => exact ⟨rfl, trivial, trivial⟩
  | cons t ts ih =>
      have hrest : ∀ kind, .nameless kind ∉ ts :=
        fun kind h => hnameless kind (List.mem_cons_of_mem t h)
      cases t with
      | openGroup =>
          obtain ⟨htext, hsep⟩ := ih hrest hs
          unfold stack
          obtain ⟨inner, st, hst⟩ := List.exists_cons_of_ne_nil (stack_ne_nil ts)
          rw [hst] at htext hsep ⊢
          cases st with
          | nil => exact ⟨htext, hsep⟩
          | cons next st =>
              refine ⟨?_, ⟨?_, hsep.2.1⟩, hsep.2.2⟩
              · simpa [Segments.bareText, bareText, Token.isParenthesis] using htext
              · simpa using hsep.1
      | closeGroup =>
          obtain ⟨htext, hsep⟩ := ih hrest hs
          exact ⟨htext, trivial, hsep⟩
      | text cs =>
          obtain ⟨htext, hsep⟩ := ih hrest hs
          obtain ⟨top, st, hst⟩ := List.exists_cons_of_ne_nil (stack_ne_nil ts)
          unfold stack
          rw [hst] at htext hsep ⊢
          refine ⟨?_, hsep⟩
          simpa [Segments.bareText, bareText, Token.isParenthesis, Token.print] using htext
      | capture kind name =>
          rw [separatedTokens, Bool.and_eq_true] at hs
          obtain ⟨htext, hsep⟩ := ih hrest hs.2
          obtain ⟨top, st, hst⟩ := List.exists_cons_of_ne_nil (stack_ne_nil ts)
          unfold stack
          rw [hst] at htext hsep ⊢
          refine ⟨?_, ⟨?_, hsep.1⟩, hsep.2⟩
          · simpa [Segments.bareText, bareText, Token.isParenthesis, Token.print, defaultCapture]
              using htext
          · have hends := hs.1
            rw [← htext] at hends
            exact hends
      | nameless kind => exact absurd List.mem_cons_self (hnameless kind)

theorem separated_of_readTree {source : String} {tree : Segments}
    (h : readTree source = .ok tree) (hs : isSeparated source = true) : tree.Separated [] := by
  obtain ⟨hnone, rfl⟩ := stack_of_parseTree (parseTree_of_readTree h)
  obtain ⟨tree, hst⟩ := List.length_eq_one_iff.1 (length_stack hnone)
  have hsep := (stack_separated (nameless_notMem 0 hnone) hs).2
  rw [hst] at hsep ⊢
  exact hsep.1

theorem Plain.separated {source : String} {anchored : Bool} {p : Pattern}
    (hp : p.Plain source anchored) (hs : isSeparated source = true) :
    p.segments.Separated [] := by
  obtain ⟨tree, htree, hsegments⟩ := hp.tree
  rw [hsegments]
  exact (separated_of_readTree htree hs).mapCaptures (kind_requireCapture _)

end Pattern

end RouteEngine
