import RouteEngine.Pattern.Compile
import RouteEngine.Proofs.Dict
import RouteEngine.Proofs.Pattern.Stack
import RouteEngine.Proofs.Regex.Alone
import RouteEngine.Proofs.Regex.Reading

/-!
The expression that a pattern compiles to, as a function of its tree. The text of the expression
is read by a parser that knows nothing of patterns; `regex_of_parseChars` says that what it makes
of that text is `Segments.compiled`, whenever the expressions of the captures mean the same in
parentheses as by themselves. Without requirements they do, and have no groups inside them:
`plain_of_compile` says that the expression is then `Segments.expression`, with the captures
numbered in the order of the pattern.
-/

namespace RouteEngine

open Outcome Regex

/-! ### Captures -/

namespace Capture

/-- What the expression of the capture is by itself. -/
def inside (c : Capture) : Regex := (Regex.parse c.regex).toOption.getD .empty

/-- In parentheses the expression of the capture is read as it is by itself, whatever follows, with
its groups numbered from there on. -/
structure Enclosed (c : Capture) : Prop where
  opens : c.regex.toList.head? ≠ some '?'
  reads : ∀ {n : Nat} {g : Groups} {x : Parsed} {r s : List Char},
    readAlternatives n {} { g with next := g.next + 1 } (c.regex.toList ++ ')' :: r) = .ok (x, s) →
      (x.regex = c.inside.renumber (· + g.next) ∧
        x.groups.next = g.next + c.inside.groupCount) ∧ s = ')' :: r

/-- As `Enclosed`, with `count` numbers given out. A reader may meet more groups than are left in
the expression. -/
structure EnclosedBy (count : Nat) (c : Capture) : Prop where
  opens : c.regex.toList.head? ≠ some '?'
  reads : ∀ {n : Nat} {g : Groups} {x : Parsed} {r s : List Char},
    readAlternatives n {} { g with next := g.next + 1 } (c.regex.toList ++ ')' :: r) = .ok (x, s) →
      (x.regex = c.inside.renumber (· + g.next) ∧ x.groups.next = g.next + count) ∧ s = ')' :: r

theorem Enclosed.enclosedBy {c : Capture} (hc : c.Enclosed) :
    c.EnclosedBy c.inside.groupCount :=
  ⟨hc.opens, hc.reads⟩

end Capture

/-! ### Captures without requirements -/

namespace Regex.CharClass

/-- Everything but a slash, a point and a question mark. -/
def segment : CharClass :=
  .compl (.union (.union (.union .none (.single '/')) (.single '.')) (.single '?'))

/-- Everything but a line break. -/
def line : CharClass := .compl (.single '\n')

end Regex.CharClass

namespace Capture

/-- The expression of the capture is one that its kind comes with. -/
def IsPlain (c : Capture) : Prop :=
  match c.kind with
  | .dynamic => c.regex = Pattern.dynamicRegex
  | .glob => c.regex = Pattern.globRegex ∨ c.regex = Pattern.lazyGlobRegex

def charClass (c : Capture) : CharClass :=
  match c.kind with
  | .dynamic => .segment
  | .glob => .line

/-- A glob that a format may follow takes as little as it can. -/
def isGreedy (c : Capture) : Bool := c.regex ≠ Pattern.lazyGlobRegex

def body (c : Capture) : Regex := .concat (.plus c.isGreedy (.chars c.charClass)) .empty

theorem regex_cases {c : Capture} (hc : c.IsPlain) :
    c.regex.toList = ['[', '^', '/', '.', '?', ']', '+'] ∧
        c.body = .concat (.plus true (.chars .segment)) .empty ∨
      c.regex.toList = ['.', '+'] ∧ c.body = .concat (.plus true (.chars .line)) .empty ∨
      c.regex.toList = ['.', '+', '?'] ∧ c.body = .concat (.plus false (.chars .line)) .empty := by
  unfold IsPlain at hc
  cases hkind : c.kind with
  | dynamic =>
      simp only [hkind] at hc
      refine .inl ⟨?_, ?_⟩
      · rw [hc]
        rfl
      · rw [body, isGreedy, charClass, hkind, hc]
        rfl
  | glob =>
      simp only [hkind] at hc
      rcases hc with hc | hc
      · refine .inr (.inl ⟨?_, ?_⟩)
        · rw [hc]
          rfl
        · rw [body, isGreedy, charClass, hkind, hc]
          rfl
      · refine .inr (.inr ⟨?_, ?_⟩)
        · rw [hc]
          rfl
        · rw [body, isGreedy, charClass, hkind, hc]
          rfl

theorem parse_regex {c : Capture} (hc : c.IsPlain) : Regex.parse c.regex = .ok c.body := by
  unfold Regex.parse
  rcases regex_cases hc with ⟨htext, hbody⟩ | ⟨htext, hbody⟩ | ⟨htext, hbody⟩ <;>
    rw [htext, hbody] <;> exact Regex.parseChars_eq_ok.2 ⟨_, rfl, by decide, by decide⟩

theorem groupCount_body (c : Capture) : c.body.groupCount = 1 := rfl

/-- Inside its parentheses the expression of a capture is read as a whole. -/
theorem readSequence_regex {c : Capture} (hc : c.IsPlain) {n : Nat} {g : Groups} {x : Parsed}
    {r s : List Char} (h : readSequence n {} g (c.regex.toList ++ ')' :: r) = .ok (x, s)) :
    (x.regex = c.body ∧ x.groups = g) ∧ s = ')' :: r := by
  have hr : Settled (')' :: r) := settled_cons (by decide) r
  cases n with
  | zero => simp [readSequence] at h
  | succ n =>
      rcases regex_cases hc with ⟨htext, hbody⟩ | ⟨htext, hbody⟩ | ⟨htext, hbody⟩ <;>
        rw [htext] at h <;> rw [hbody]
      · change readTail n {} g (.unit (.chars .segment)) ('+' :: ')' :: r) = .ok (x, s) at h
        obtain ⟨m, b, hb, rfl⟩ := readTail_plus hr (by decide) h
        obtain ⟨rfl, rfl⟩ := readSequence_close hb
        exact ⟨⟨rfl, rfl⟩, rfl⟩
      · change readTail n {} g (.unit (.chars .line)) ('+' :: ')' :: r) = .ok (x, s) at h
        obtain ⟨m, b, hb, rfl⟩ := readTail_plus hr (by decide) h
        obtain ⟨rfl, rfl⟩ := readSequence_close hb
        exact ⟨⟨rfl, rfl⟩, rfl⟩
      · change readTail n {} g (.unit (.chars .line)) ('+' :: '?' :: ')' :: r) = .ok (x, s) at h
        obtain ⟨m, b, hb, rfl⟩ := readTail_plus_lazy hr (by decide) h
        obtain ⟨rfl, rfl⟩ := readSequence_close hb
        exact ⟨⟨rfl, rfl⟩, rfl⟩

theorem inside_eq_body {c : Capture} (hc : c.IsPlain) : c.inside = c.body := by
  rw [inside, parse_regex hc]
  rfl

theorem enclosed_of_isPlain {c : Capture} (hc : c.IsPlain) : c.Enclosed where
  opens := by
    rcases regex_cases hc with ⟨htext, -⟩ | ⟨htext, -⟩ | ⟨htext, -⟩ <;> rw [htext] <;> decide
  reads := fun {n g x r s} h => by
    have hread : (x.regex = c.body ∧ x.groups = { g with next := g.next + 1 }) ∧
        s = ')' :: r := by
      refine readAlternatives_close
        (P := fun y => y.regex = c.body ∧ y.groups = { g with next := g.next + 1 })
        (fun m y s hy => ?_) h
      have hbody := readSequence_regex hc hy
      exact hbody
    obtain ⟨⟨hregex, hgroups⟩, hs⟩ := hread
    rw [inside_eq_body hc, hregex, hgroups]
    exact ⟨⟨rfl, rfl⟩, hs⟩

end Capture

/-! ### Trees -/

namespace Segments

/-- Every capture of the tree has the property. -/
def Every (P : Capture → Prop) : Segments → Prop
  | done => True
  | literal _ next => next.Every P
  | capture c next => P c ∧ next.Every P
  | group inner next => inner.Every P ∧ next.Every P

instance decidableEvery (P : Capture → Prop) [DecidablePred P] :
    (s : Segments) → Decidable (s.Every P)
  | done => .isTrue trivial
  | literal _ next => decidableEvery P next
  | capture c next => @instDecidableAnd (P c) (next.Every P) _ (decidableEvery P next)
  | group inner next =>
    @instDecidableAnd (inner.Every P) (next.Every P) (decidableEvery P inner)
      (decidableEvery P next)

def captureCount : Segments → Nat
  | done => 0
  | literal _ next => next.captureCount
  | capture _ next => next.captureCount + 1
  | group inner next => inner.captureCount + next.captureCount

/-- The slots of a tree whose captures have no groups inside them. -/
def slotsFrom (first : Nat) : Segments → List Slot
  | done => []
  | literal _ next => next.slotsFrom first
  | capture c next => ⟨c.name, first⟩ :: next.slotsFrom (first + 1)
  | group inner next => inner.slotsFrom first ++ next.slotsFrom (first + inner.captureCount)

/-- The characters of a text one after another, then `after`. -/
def textThen (text : List Char) (after : Regex) : Regex :=
  text.foldr (fun c r => .concat (.chars (.single c)) r) after

/-- The expression of a tree with its groups numbered from `first`, then `after`. -/
def expression (first : Nat) : Segments → Regex → Regex
  | done, after => after
  | literal text next, after => textThen text.toList (next.expression first after)
  | capture c next, after => .concat (.group first c.body) (next.expression (first + 1) after)
  | group inner next, after =>
    .concat (.opt true (inner.expression first .empty))
      (next.expression (first + inner.captureCount) after)

/-- How many groups the expression of the tree has. -/
def groupTotal : Segments → Nat
  | done => 0
  | literal _ next => next.groupTotal
  | capture c next => c.inside.groupCount + next.groupTotal
  | group inner next => inner.groupTotal + next.groupTotal

/-- The expression of a tree whose captures may have groups inside them. -/
def compiled (first : Nat) : Segments → Regex → Regex
  | done, after => after
  | literal text next, after => textThen text.toList (next.compiled first after)
  | capture c next, after =>
    .concat (.group first (c.inside.renumber (· + first)))
      (next.compiled (first + c.inside.groupCount) after)
  | group inner next, after =>
    .concat (.opt true (inner.compiled first .empty))
      (next.compiled (first + inner.groupTotal) after)

/-- How many numbers the tree takes when each capture takes as many as `count` says. -/
def numbersBy (count : Capture → Nat) : Segments → Nat
  | done => 0
  | literal _ next => next.numbersBy count
  | capture c next => count c + next.numbersBy count
  | group inner next => inner.numbersBy count + next.numbersBy count

/-- The expression of a tree whose captures take as many numbers as `count` says. -/
def compiledBy (count : Capture → Nat) (first : Nat) : Segments → Regex → Regex
  | done, after => after
  | literal text next, after => textThen text.toList (next.compiledBy count first after)
  | capture c next, after =>
    .concat (.group first (c.inside.renumber (· + first)))
      (next.compiledBy count (first + count c) after)
  | group inner next, after =>
    .concat (.opt true (inner.compiledBy count first .empty))
      (next.compiledBy count (first + inner.numbersBy count) after)

/-- The captures in the order of the text, each with the number of its group. -/
def numberedBy (count : Capture → Nat) (first : Nat) : Segments → List (Capture × Nat)
  | done => []
  | literal _ next => next.numberedBy count first
  | capture c next => (c, first) :: next.numberedBy count (first + count c)
  | group inner next =>
    inner.numberedBy count first ++ next.numberedBy count (first + inner.numbersBy count)

theorem bounds_of_mem_numberedBy {count : Capture → Nat} (hcount : ∀ c, 0 < count c)
    {s : Segments} {first : Nat} {e : Capture × Nat} (h : e ∈ s.numberedBy count first) :
    first ≤ e.2 ∧ e.2 < first + s.numbersBy count := by
  induction s generalizing first with
  | done => simp [numberedBy] at h
  | literal _ next ih => exact ih h
  | capture c next ih =>
      have hpos := hcount c
      rw [numbersBy]
      rcases List.mem_cons.1 h with rfl | h
      · exact ⟨Nat.le_refl _, by simp only; omega⟩
      · have hbounds := ih h
        omega
  | group inner next ihInner ihNext =>
      rw [numbersBy]
      rcases List.mem_append.1 h with h | h
      · have hbounds := ihInner h
        omega
      · have hbounds := ihNext h
        omega

theorem numbersBy_groupCount (s : Segments) :
    s.numbersBy (fun c => c.inside.groupCount) = s.groupTotal := by
  induction s with
  | done => rfl
  | literal _ next ih => exact ih
  | capture c next ih => rw [numbersBy, groupTotal, ih]
  | group inner next ihInner ihNext => rw [numbersBy, groupTotal, ihInner, ihNext]

theorem compiledBy_groupCount (s : Segments) (first : Nat) (after : Regex) :
    s.compiledBy (fun c => c.inside.groupCount) first after = s.compiled first after := by
  induction s generalizing first after with
  | done => rfl
  | literal text next ih => rw [compiledBy, compiled, ih]
  | capture c next ih => rw [compiledBy, compiled, ih]
  | group inner next ihInner ihNext =>
      rw [compiledBy, compiled, ihInner, ihNext, numbersBy_groupCount]

theorem Every.imp {P Q : Capture → Prop} (h : ∀ c, P c → Q c) {s : Segments} (hs : s.Every P) :
    s.Every Q := by
  induction s with
  | done => trivial
  | literal _ next ih => exact ih hs
  | capture c next ih => exact ⟨h c hs.1, ih hs.2⟩
  | group inner next ihInner ihNext => exact ⟨ihInner hs.1, ihNext hs.2⟩

theorem Every.and {P Q : Capture → Prop} {s : Segments} (hP : s.Every P) (hQ : s.Every Q) :
    s.Every fun c => P c ∧ Q c := by
  induction s with
  | done => trivial
  | literal _ next ih => exact ih hP hQ
  | capture c next ih => exact ⟨⟨hP.1, hQ.1⟩, ih hP.2 hQ.2⟩
  | group inner next ihInner ihNext => exact ⟨ihInner hP.1 hQ.1, ihNext hP.2 hQ.2⟩

theorem Every.mapCaptures {P Q : Capture → Prop} {f : Capture → Capture}
    (h : ∀ c, P c → Q (f c)) {s : Segments} (hs : s.Every P) : (s.mapCaptures f).Every Q := by
  induction s with
  | done => trivial
  | literal _ next ih => exact ih hs
  | capture c next ih => exact ⟨h c hs.1, ih hs.2⟩
  | group inner next ihInner ihNext => exact ⟨ihInner hs.1, ihNext hs.2⟩

theorem every_of_occurrences {P : Capture → Prop} {s : Segments} {optional : Bool}
    (h : ∀ o ∈ s.occurrences optional, P o.capture) : s.Every P := by
  induction s generalizing optional with
  | done => trivial
  | literal _ next ih => exact ih h
  | capture c next ih =>
      obtain ⟨hc, hnext⟩ := List.forall_mem_cons.1 h
      exact ⟨hc, ih hnext⟩
  | group inner next ihInner ihNext =>
      obtain ⟨hinner, hnext⟩ := List.forall_mem_append.1 h
      exact ⟨ihInner hinner, ihNext hnext⟩

theorem every_dynamic {s : Segments} (h : s.hasGlob = false) :
    s.Every fun c => c.kind = .dynamic := by
  have hdynamic : ∀ o ∈ s.occurrences false, o.capture.kind = .dynamic := by
    intro o ho
    have hkind := List.any_eq_false.1 h o ho
    cases hc : o.capture.kind with
    | dynamic => rfl
    | glob => simp [hc] at hkind
  exact every_of_occurrences hdynamic

theorem slots_of_plain {s : Segments} (hs : s.Every Capture.IsPlain) (first : Nat) :
    s.slots first = .ok (s.slotsFrom first, first + s.captureCount) := by
  induction s generalizing first with
  | done => rfl
  | literal _ next ih => exact ih hs first
  | capture c next ih =>
      rw [slots, Capture.parse_regex hs.1]
      simp only [Capture.groupCount_body]
      rw [ih hs.2 (first + 1), slotsFrom, captureCount, Nat.add_assoc, Nat.add_comm 1]
      rfl
  | group inner next ihInner ihNext =>
      rw [slots, ihInner hs.1 first]
      simp only [bind, Except.bind]
      rw [ihNext hs.2 (first + inner.captureCount), slotsFrom, captureCount, Nat.add_assoc]
      rfl

theorem groupTotal_of_plain {s : Segments} (hs : s.Every Capture.IsPlain) :
    s.groupTotal = s.captureCount := by
  induction s with
  | done => rfl
  | literal _ next ih => exact ih hs
  | capture c next ih =>
      rw [groupTotal, captureCount, ih hs.2, Capture.inside_eq_body hs.1, Capture.groupCount_body,
        Nat.add_comm]
  | group inner next ihInner ihNext => rw [groupTotal, captureCount, ihInner hs.1, ihNext hs.2]

theorem compiled_of_plain {s : Segments} (hs : s.Every Capture.IsPlain) (first : Nat)
    (after : Regex) : s.compiled first after = s.expression first after := by
  induction s generalizing first after with
  | done => rfl
  | literal text next ih => rw [compiled, expression, ih hs]
  | capture c next ih =>
      rw [compiled, expression, ih hs.2, Capture.inside_eq_body hs.1, Capture.groupCount_body]
      rfl
  | group inner next ihInner ihNext =>
      rw [compiled, expression, ihInner hs.1, ihNext hs.2, groupTotal_of_plain hs.1]

/-! ### Reading the expression of a tree -/

theorem settled_regexChars (s : Segments) {r : List Char} (hr : Settled r) :
    Settled (s.regexChars ++ r) := by
  induction s with
  | done => exact hr
  | literal text next ih =>
      rw [regexChars, List.append_assoc]
      exact settled_quoteChars text.toList ih
  | capture c next ih => exact settled_cons (by decide) _
  | group inner next _ _ => exact settled_cons (by decide) _

theorem readSequence_quoteChars {text : List Char} {n : Nat} {g : Groups} {x : Parsed}
    {r r' : List Char} (hr : Settled r)
    (h : readSequence n {} g (quoteChars text ++ r) = .ok (x, r')) :
    ∃ m b, readSequence m {} g r = .ok (b, r') ∧
      ∃ row, x = ⟨textThen text b.regex, row, b.flags, b.groups⟩ := by
  induction text generalizing n x with
  | nil => exact ⟨n, x, h, x.row, rfl⟩
  | cons c cs ih =>
      have hsettled := settled_quoteChars cs hr
      rw [quoteChars, List.flatMap_cons, List.append_assoc] at h
      obtain ⟨m, b, hb, rfl⟩ := readSequence_quoteChar hsettled h
      obtain ⟨m', b', hb', row, rfl⟩ := ih hb
      exact ⟨m', b', hb', _, rfl⟩

/-- The text of a tree's expression is read as that expression, whatever follows it. -/
theorem readSequence_regexChars {count : Capture → Nat} {s : Segments}
    (hs : s.Every fun c => c.EnclosedBy (count c)) {n : Nat} {g : Groups} {x : Parsed}
    {r r' : List Char} (hr : Settled r)
    (h : readSequence n {} g (s.regexChars ++ r) = .ok (x, r')) :
    ∃ m b g', g'.next = g.next + s.numbersBy count ∧ readSequence m {} g' r = .ok (b, r') ∧
      ∃ row, x = ⟨s.compiledBy count g.next b.regex, row, b.flags, b.groups⟩ := by
  -- The reader consumes the text of one piece and hands over to the text of the next, so the
  -- induction is on the tree, for any text behind it and any groups that are open already.
  induction s generalizing n g x r r' with
  | done => exact ⟨n, x, g, rfl, h, x.row, rfl⟩
  | literal text next ih =>
      rw [regexChars, List.append_assoc] at h
      obtain ⟨m, b, hb, _, rfl⟩ := readSequence_quoteChars (settled_regexChars next hr) h
      obtain ⟨m', b', g', hg, hb', _, rfl⟩ := ih hs hr hb
      exact ⟨m', b', g', hg, hb', _, rfl⟩
  | capture c next ih =>
      have htext : (capture c next).regexChars ++ r =
          '(' :: (c.regex.toList ++ ')' :: (next.regexChars ++ r)) := by
        simp [regexChars]
      rw [htext] at h
      obtain ⟨_, m, y, b, hy, hb, rfl⟩ := readSequence_capture hs.1.opens
        (fun _ _ _ h => (hs.1.reads h).2) (settled_regexChars next hr) h
      obtain ⟨⟨hregex, hnext⟩, -⟩ := hs.1.reads hy
      obtain ⟨m', b', g', hg, hb', row, rfl⟩ := ih hs.2 hr hb
      refine ⟨m', b', g', ?_, hb', row.cons (y.captured g.next).depth, ?_⟩
      · rw [hg, hnext, numbersBy, Nat.add_assoc]
      · rw [Parsed.cons, Parsed.captured, hregex, hnext]
        rfl
  | group inner next ihInner ihNext =>
      have htext : (group inner next).regexChars ++ r =
          '(' :: '?' :: ':' :: (inner.regexChars ++ ')' :: '?' :: (next.regexChars ++ r)) := by
        have hopen : "(?:".toList = ['(', '?', ':'] := rfl
        have hclose : ")?".toList = [')', '?'] := rfl
        simp [regexChars, hopen, hclose]
      rw [htext] at h
      have hbody : ∀ m y s, readAlternatives m {} g (inner.regexChars ++ ')' :: '?' ::
          (next.regexChars ++ r)) = .ok (y, s) →
          (y.regex = inner.compiledBy count g.next .empty ∧
            y.groups.next = g.next + inner.numbersBy count) ∧
            s = ')' :: '?' :: (next.regexChars ++ r) := by
        intro m y s h
        refine readAlternatives_close
          (P := fun y => y.regex = inner.compiledBy count g.next .empty ∧
            y.groups.next = g.next + inner.numbersBy count) (fun m y s hy => ?_) h
        obtain ⟨m', b, g', hg, hb, _, rfl⟩ := ihInner hs.1 (settled_cons (by decide) _) hy
        obtain ⟨rfl, rfl⟩ := readSequence_close hb
        exact ⟨⟨rfl, hg⟩, rfl⟩
      obtain ⟨_, m, y, b, hy, hb, rfl⟩ := readSequence_optional
        (fun m y s h => (hbody m y s h).2) (settled_regexChars next hr) h
      obtain ⟨⟨hregex, hnext⟩, -⟩ := hbody _ _ _ hy
      obtain ⟨m', b', g', hg, hb', row, rfl⟩ := ihNext hs.2 hr hb
      refine ⟨m', b', g', ?_, hb', row.cons (y.enclosed.depth + 1), ?_⟩
      · rw [hg, hnext, numbersBy, Nat.add_assoc]
      · rw [Parsed.cons, hregex, hnext]
        rfl

end Segments

namespace Pattern

/-! ### Compiling without requirements -/

theorem isPlain_defaultCapture (kind : CaptureKind) (name : List Char) :
    (defaultCapture kind name).IsPlain := by
  cases kind
  · rfl
  · exact .inl rfl

theorem plain_stack (ts : List Token) : ∀ s ∈ stack ts, s.Every Capture.IsPlain := by
  induction ts with
  | nil => simp [stack, Segments.Every]
  | cons t ts ih =>
      unfold stack
      split
      · exact List.forall_mem_cons.2 ⟨trivial, ih⟩
      · next hst =>
          rw [hst] at ih
          obtain ⟨hinner, ih⟩ := List.forall_mem_cons.1 ih
          obtain ⟨hnext, hbelow⟩ := List.forall_mem_cons.1 ih
          exact List.forall_mem_cons.2 ⟨⟨hinner, hnext⟩, hbelow⟩
      · next hst =>
          rw [hst] at ih
          obtain ⟨htop, hbelow⟩ := List.forall_mem_cons.1 ih
          exact List.forall_mem_cons.2 ⟨htop, hbelow⟩
      · next hst =>
          rw [hst] at ih
          obtain ⟨htop, hbelow⟩ := List.forall_mem_cons.1 ih
          exact List.forall_mem_cons.2 ⟨⟨isPlain_defaultCapture _ _, htop⟩, hbelow⟩
      · exact ih

/-- What reading a pattern text gives. -/
theorem parseTree_of_readTree {source : String} {tree : Segments}
    (h : readTree source = .ok tree) : parseTree source = .ok tree := by
  obtain ⟨s, hs, h⟩ := bind_eq_ok.1 h
  obtain ⟨_, -, h⟩ := bind_eq_ok.1 h
  cases pure_eq_ok.1 h
  exact hs

theorem plain_readTree {source : String} {tree : Segments} (h : readTree source = .ok tree) :
    tree.Every Capture.IsPlain := by
  obtain ⟨-, rfl⟩ := stack_of_parseTree (parseTree_of_readTree h)
  cases hst : stack (tokens source.toList) with
  | nil => trivial
  | cons s st => exact plain_stack (tokens source.toList) s (by simp [hst])

theorem isPlain_requireCapture {requirements : Dict String} {c : Capture}
    (hnone : requirements.get? c.name = none) (hasFormat : Bool) (hc : c.IsPlain) :
    (requireCapture requirements hasFormat c).IsPlain := by
  unfold requireCapture
  rw [hnone]
  simp only
  split
  · next hglob =>
      unfold Capture.IsPlain
      rw [hglob.1]
      exact .inr rfl
  · exact hc

/-- What follows the tree in the expression of a pattern. -/
def closing (anchored : Bool) : Regex :=
  if anchored then .concat (.look .textEnd) .empty else .empty

/-- What compiling without requirements gives. -/
structure Plain (source : String) (anchored : Bool) (p : Pattern) : Prop where
  tree : ∃ tree, readTree source = .ok tree ∧ p.segments = requireAll .empty tree
  captures : p.segments.Every Capture.IsPlain
  regex : p.regex = .concat (.look .textStart) (p.segments.expression 1 (closing anchored))
  slots : p.slots = p.segments.slotsFrom 1
  requirements : p.requirements = .empty
  anchored_eq : p.anchored = anchored
  source_eq : p.source = source

theorem readSequence_closing {anchored : Bool} {n : Nat} {g : Groups} {x : Parsed}
    {r : List Char}
    (h : readSequence n {} g (if anchored then ['$'] else []) = .ok (x, r)) :
    x.regex = closing anchored ∧ r = [] := by
  cases anchored with
  | true => exact readSequence_dollar h
  | false => exact readSequence_nil h

theorem readSequence_regexTextOf {count : Capture → Nat} {s : Segments}
    (hs : s.Every fun c => c.EnclosedBy (count c)) {anchored : Bool} {n : Nat} {x : Parsed}
    {r : List Char}
    (h : readSequence n {} {} (regexTextOf anchored s) = .ok (x, r)) :
    x.regex = .concat (.look .textStart) (s.compiledBy count 1 (closing anchored)) ∧ r = [] := by
  have hclosing : Settled (if anchored then ['$'] else []) := by
    cases anchored
    · exact settled_nil
    · exact settled_cons (by decide) []
  cases n with
  | zero => simp [readSequence] at h
  | succ n =>
      change readTail n {} {} (.unit (.look .textStart)) (s.regexChars ++ if anchored then ['$'] else []) =
        .ok (x, r) at h
      obtain ⟨m, b, hb, rfl⟩ := readTail_settled (Segments.settled_regexChars s hclosing) h
      obtain ⟨m', b', _, -, hb', _, rfl⟩ := Segments.readSequence_regexChars hs hclosing hb
      obtain ⟨hregex, rfl⟩ := readSequence_closing hb'
      refine ⟨?_, rfl⟩
      rw [← hregex]
      rfl

theorem regexBy_of_parseChars {count : Capture → Nat} {s : Segments}
    (hs : s.Every fun c => c.EnclosedBy (count c)) {anchored : Bool} {r : Regex}
    (h : Regex.parseChars (regexTextOf anchored s) = .ok r) :
    r = .concat (.look .textStart) (s.compiledBy count 1 (closing anchored)) := by
  obtain ⟨x, hx, rfl, -⟩ := readAlternatives_of_parseChars h
  obtain ⟨m, y, rest, -, hy, hrest⟩ := readAlternatives_eq_ok hx
  obtain ⟨hregex, rfl⟩ := readSequence_regexTextOf hs hy
  obtain ⟨-, rfl, -⟩ | ⟨u, b, hbar, -⟩ := hrest
  · exact hregex
  · cases hbar

theorem regex_of_parseChars {s : Segments} (hs : s.Every Capture.Enclosed) {anchored : Bool}
    {r : Regex} (h : Regex.parseChars (regexTextOf anchored s) = .ok r) :
    r = .concat (.look .textStart) (s.compiled 1 (closing anchored)) := by
  rw [← Segments.compiledBy_groupCount]
  exact regexBy_of_parseChars (hs.imp fun _ => Capture.Enclosed.enclosedBy) h

/-- Everything that compiling does when it succeeds. -/
theorem compile_eq_ok {source : String} {requirements : Dict String} {anchored : Bool}
    {p : Pattern} (h : compile source requirements anchored = .ok p) :
    ∃ tree checked count, readTree source = .ok tree ∧
      (requirements.keys.find? fun n => !tree.names.contains n) = none ∧
      checkRequirements requirements.entries = .ok checked ∧
      p.segments = requireAll requirements tree ∧ p.segments.slots 1 = .ok (p.slots, count) ∧
      Regex.parseChars (regexTextOf anchored p.segments) = .ok p.regex ∧
      p.requirements = .ofList checked ∧ p.anchored = anchored ∧ p.source = source := by
  obtain ⟨tree, htree, h⟩ := bind_eq_ok.1 h
  simp only at h
  split at h
  · simp at h
  · next hknown =>
      obtain ⟨checked, hchecked, h⟩ := bind_eq_ok.1 h
      obtain ⟨⟨slots, count⟩, hslots, h⟩ := bind_eq_ok.1 h
      simp only at h
      split at h
      · simp at h
      · next hparse =>
          cases pure_eq_ok.1 h
          exact ⟨tree, checked, count, htree, hknown, hchecked, rfl, hslots, hparse, rfl, rfl, rfl⟩

theorem plain_of_compile {source : String} {anchored : Bool} {p : Pattern}
    (h : compile source .empty anchored = .ok p) : Plain source anchored p := by
  obtain ⟨tree, checked, count, htree, -, hchecked, hsegments, hslots, hparse, hrequirements,
    hanchored, hsource⟩ := compile_eq_ok h
  cases hchecked
  have hplain : p.segments.Every Capture.IsPlain := by
    rw [hsegments]
    exact (plain_readTree htree).mapCaptures fun _ => isPlain_requireCapture (Dict.get?_empty _) _
  have hslots' := (Segments.slots_of_plain hplain 1).symm.trans hslots
  obtain ⟨hnumbered, -⟩ := Prod.mk.inj (Except.ok.inj hslots')
  have hregex := regex_of_parseChars (hplain.imp fun _ => Capture.enclosed_of_isPlain) hparse
  rw [Segments.compiled_of_plain hplain] at hregex
  exact ⟨⟨tree, htree, hsegments⟩, hplain, hregex, hnumbered.symm, hrequirements, hanchored,
    hsource⟩

theorem checkRequirements_eq_nil {entries : List (String × String)}
    (h : checkRequirements entries = .ok []) : entries = [] := by
  cases entries with
  | nil => rfl
  | cons e entries =>
      obtain ⟨r, -, h⟩ := bind_eq_ok.1 h
      obtain ⟨rs, -, h⟩ := bind_eq_ok.1 h
      cases pure_eq_ok.1 h

/-- A pattern that carries no requirement was compiled without one. -/
theorem compile_empty_of_compile {source : String} {requirements : Dict String} {anchored : Bool}
    {p : Pattern} (h : compile source requirements anchored = .ok p)
    (hempty : p.requirements = .empty) : compile p.source .empty anchored = .ok p := by
  obtain ⟨_, checked, _, -, -, hchecked, -, -, -, hrequirements, -, hsource⟩ := compile_eq_ok h
  have hnil : checked = [] := Dict.ofList_eq_empty (hrequirements.symm.trans hempty)
  rw [hnil] at hchecked
  have hnone : requirements = .empty := Dict.ext_entries (checkRequirements_eq_nil hchecked)
  rw [hsource, ← hnone]
  exact h

end Pattern

end RouteEngine
