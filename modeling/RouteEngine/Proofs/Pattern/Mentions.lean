import RouteEngine.Proofs.Pattern.Arena
import RouteEngine.Proofs.Pattern.Required

/-!
Captures in the order of the text. What is checked about the captures of a pattern is decided by
its text alone, read from left to right with a count of the groups that are open (`mentions`). So
reading the names of a pattern and compiling it, which both begin with that check, refuse the same
patterns for the same reasons (`parseNames_compile`).
-/

namespace RouteEngine.Pattern

open Outcome
open Text (isNameChar)

/-- A capture as the text has it. -/
structure Mention where
  kind : CaptureKind
  name : String
  /-- Some group is open there. -/
  optional : Bool
  deriving DecidableEq, Repr

/-- The captures of a text that stands inside `depth` groups, from left to right. -/
def mentions (depth : Nat) : List Char → List Mention
  | [] => []
  | c :: r =>
    if c = '(' then mentions (depth + 1) r
    else if c = ')' then mentions (depth - 1) r
    else if c = ':' then
      ⟨.dynamic, String.ofList (r.takeWhile isNameChar), depth ≠ 0⟩ :: mentions depth r
    else if c = '*' then
      ⟨.glob, String.ofList (r.takeWhile isNameChar), depth ≠ 0⟩ :: mentions depth r
    else mentions depth r

/-! ### From the text to the tree -/

def tokenMentions (depth : Nat) : List Token → List Mention
  | [] => []
  | .openGroup :: ts => tokenMentions (depth + 1) ts
  | .closeGroup :: ts => tokenMentions (depth - 1) ts
  | .text _ :: ts => tokenMentions depth ts
  | .capture kind name :: ts => ⟨kind, String.ofList name, depth ≠ 0⟩ :: tokenMentions depth ts
  | .nameless kind :: ts => ⟨kind, "", depth ≠ 0⟩ :: tokenMentions depth ts

theorem tokenMentions_dropText (depth : Nat) (ts : List Token) :
    tokenMentions depth (dropText ts) = tokenMentions depth ts := by
  induction ts generalizing depth with
  | nil => rfl
  | cons t ts ih =>
      cases t with
      | openGroup => exact ih (depth + 1)
      | closeGroup => exact ih (depth - 1)
      | text cs => exact ih depth
      | capture kind name =>
          show _ :: tokenMentions depth (dropText ts) = _
          rw [ih, tokenMentions]
      | nameless kind =>
          show _ :: tokenMentions depth (dropText ts) = _
          rw [ih, tokenMentions]

theorem tokenMentions_pushChar (depth : Nat) (c : Char) (ts : List Token) :
    tokenMentions depth (pushChar c ts) = tokenMentions depth ts := by
  rw [← tokenMentions_dropText, dropText_pushChar, tokenMentions_dropText]

/-- The token of a marker with this name behind it. -/
def markerToken (kind : CaptureKind) (name : List Char) : Token :=
  if name = [] then .nameless kind else .capture kind name

theorem tokenMentions_markerToken (depth : Nat) (kind : CaptureKind) (name : List Char)
    (ts : List Token) :
    tokenMentions depth (markerToken kind name :: ts) =
      ⟨kind, String.ofList name, depth ≠ 0⟩ :: tokenMentions depth ts := by
  unfold markerToken
  split
  · next hname =>
      rw [hname]
      rfl
  · rfl

/-- The name characters at the beginning of a text are those of its first token. -/
theorem takeWhile_tokens (r : List Char) :
    (∃ cs ts, tokens r = .text cs :: ts ∧ r.takeWhile isNameChar = cs.takeWhile isNameChar) ∨
      (∀ cs ts, tokens r ≠ .text cs :: ts) ∧ r.takeWhile isNameChar = [] := by
  induction r with
  | nil => exact .inr ⟨nofun, rfl⟩
  | cons c r ih =>
      obtain rfl | rfl | ⟨kind, rfl⟩ | hc := char_cases c
      · exact .inr ⟨nofun, rfl⟩
      · exact .inr ⟨nofun, rfl⟩
      · refine .inr ⟨fun cs ts => ?_, by cases kind <;> rfl⟩
        rw [tokens_marker]
        exact pushMarker_ne_text kind _ cs ts
      · rw [tokens_cons hc, List.takeWhile_cons]
        refine .inl ?_
        rcases ih with ⟨cs, ts, hts, htake⟩ | ⟨hnot, htake⟩
        · refine ⟨c :: cs, ts, by rw [hts, pushChar], ?_⟩
          rw [htake, List.takeWhile_cons]
        · obtain ⟨cs, rest, hts, -⟩ | ⟨-, hpush⟩ := pushChar_eq c (tokens r)
          · exact absurd hts (hnot cs rest)
          · refine ⟨[c], tokens r, hpush, ?_⟩
            rw [htake, List.takeWhile_cons, List.takeWhile_nil]

/-- A marker takes nothing but its name, and that from a literal token. -/
theorem dropText_pushMarker (kind : CaptureKind) (r : List Char) :
    dropText (pushMarker kind (tokens r)) =
      markerToken kind (r.takeWhile isNameChar) :: dropText (tokens r) := by
  rcases takeWhile_tokens r with ⟨cs, ts, hts, htake⟩ | ⟨hnot, htake⟩
  · rw [hts, htake, pushMarker]
    split
    · next hnil =>
        rw [hnil]
        rfl
    · next hname =>
        rw [markerToken, if_neg hname]
        rfl
    · next hname _ =>
        rw [markerToken, if_neg hname]
        rfl
  · rw [htake]
    unfold pushMarker
    split
    · next hts => exact absurd hts (hnot _ _)
    · rfl

theorem tokenMentions_pushMarker (depth : Nat) (kind : CaptureKind) (r : List Char) :
    tokenMentions depth (pushMarker kind (tokens r)) =
      ⟨kind, String.ofList (r.takeWhile isNameChar), depth ≠ 0⟩ ::
        tokenMentions depth (tokens r) := by
  rw [← tokenMentions_dropText, dropText_pushMarker, tokenMentions_markerToken,
    tokenMentions_dropText]

theorem tokenMentions_tokens (depth : Nat) (cs : List Char) :
    tokenMentions depth (tokens cs) = mentions depth cs := by
  induction cs generalizing depth with
  | nil => rfl
  | cons c r ih =>
      obtain rfl | rfl | ⟨kind, rfl⟩ | hc := char_cases c
      · exact ih (depth + 1)
      · exact ih (depth - 1)
      · rw [tokens_marker, tokenMentions_pushMarker, ih]
        cases kind <;> rfl
      · rw [tokens_cons hc, tokenMentions_pushChar, ih]
        simp only [isPlainChar, List.contains_cons, List.contains_nil, Bool.or_false,
          Bool.not_eq_true', Bool.or_eq_false_iff, beq_eq_false_iff_ne] at hc
        rw [mentions, if_neg hc.1, if_neg hc.2.1, if_neg hc.2.2.1, if_neg hc.2.2.2]

def mentionOf (o : Segments.Occurrence) : Mention := ⟨o.capture.kind, o.capture.name, o.optional⟩

/-- The captures of the runs on a stack; only the lowest stands in no group. -/
def stackMentions : List Segments → List Mention
  | [] => []
  | s :: st => (s.occurrences (!st.isEmpty)).map mentionOf ++ stackMentions st

theorem stackMentions_stack {ts : List Token} {depth : Nat} (h : firstOffence depth ts = none) :
    stackMentions (stack ts) = tokenMentions depth ts := by
  induction ts generalizing depth with
  | nil => rfl
  | cons t ts ih =>
      cases t with
      | openGroup =>
          have hlength : (stack ts).length = depth + 1 + 1 := length_stack h
          obtain ⟨inner, st, hst⟩ := List.exists_cons_of_ne_nil (stack_ne_nil ts)
          cases st with
          | nil => simp [hst] at hlength
          | cons next st =>
              rw [stack_openGroup hst, tokenMentions, ← ih h, hst]
              simp [stackMentions, Segments.occurrences]
      | closeGroup =>
          rw [firstOffence] at h
          split at h
          · simp at h
          · rw [tokenMentions, ← ih h]
            rfl
      | text cs =>
          obtain ⟨top, st, hst⟩ := List.exists_cons_of_ne_nil (stack_ne_nil ts)
          rw [stack_text cs hst, tokenMentions, ← ih h, hst]
          rfl
      | capture kind name =>
          have hlength : (stack ts).length = depth + 1 := length_stack h
          obtain ⟨top, st, hst⟩ := List.exists_cons_of_ne_nil (stack_ne_nil ts)
          have hopen : (!st.isEmpty) = decide (depth ≠ 0) := by
            rw [hst, List.length_cons, Nat.succ_inj] at hlength
            rw [← hlength]
            cases st <;> simp
          rw [stack_capture kind name hst, tokenMentions, ← ih h, hst, ← hopen]
          rfl
      | nameless kind => simp [firstOffence] at h

variable {source : String} {tree : Segments}

/-- The captures of a tree are those of its text, in the same order. -/
theorem occurrences_of_parseTree (h : parseTree source = .ok tree) :
    (tree.occurrences false).map mentionOf = mentions 0 source.toList := by
  obtain ⟨hnone, rfl⟩ := stack_of_parseTree h
  have hlength := length_stack hnone
  obtain ⟨top, st, hst⟩ := List.exists_cons_of_ne_nil (stack_ne_nil (tokens source.toList))
  rw [hst, List.length_cons, Nat.succ_inj, List.length_eq_zero_iff] at hlength
  have hmentions := stackMentions_stack hnone
  rw [hst, hlength] at hmentions
  rw [← tokenMentions_tokens, ← hmentions, hst]
  simp [stackMentions]

/-! ### What is refused -/

section

variable {fault : List Mention → Mention → Prop} {m n : Mention} {ms : List Mention}

/-- The first mention at fault, where a fault may depend on the mentions before. -/
def First (fault : List Mention → Mention → Prop) (ms : List Mention) (m : Mention) : Prop :=
  ∃ before after, ms = before ++ m :: after ∧ fault before m ∧
    ∀ before' m' after', ms = before' ++ m' :: after' → fault before' m' →
      before.length ≤ before'.length

theorem not_first_nil : ¬ First fault [] m := by
  rintro ⟨before, after, hms, -⟩
  simp at hms

theorem first_cons_of_fault (hn : fault [] n) : First fault (n :: ms) m ↔ m = n := by
  constructor
  · rintro ⟨before, after, hms, -, hleast⟩
    have hlength := hleast [] n ms rfl hn
    obtain rfl : before = [] := List.length_eq_zero_iff.1 (Nat.le_zero.1 hlength)
    exact (List.cons.inj hms).1.symm
  · rintro rfl
    exact ⟨[], ms, rfl, hn, fun _ _ _ _ _ => Nat.zero_le _⟩

theorem first_cons_of_not (hn : ¬ fault [] n) :
    First fault (n :: ms) m ↔ First (fun before => fault (n :: before)) ms m := by
  constructor
  · rintro ⟨_ | ⟨b, before⟩, after, hms, hfault, hleast⟩
    · obtain ⟨rfl, -⟩ := List.cons.inj hms
      exact absurd hfault hn
    · obtain ⟨rfl, rfl⟩ := List.cons.inj hms
      refine ⟨before, after, rfl, hfault, fun before' m' after' hms' h => ?_⟩
      exact Nat.le_of_succ_le_succ (hleast (n :: before') m' after' (by rw [hms']; rfl) h)
  · rintro ⟨before, after, rfl, hfault, hleast⟩
    refine ⟨n :: before, after, rfl, hfault, ?_⟩
    rintro (_ | ⟨b, before'⟩) m' after' hms h
    · obtain ⟨rfl, -⟩ := List.cons.inj hms
      exact absurd h hn
    · obtain ⟨rfl, htail⟩ := List.cons.inj hms
      exact Nat.succ_le_succ (hleast before' m' after' htail h)

end

def IsReserved (_ : List Mention) (m : Mention) : Prop := m.name ∈ reservedNames

/-- No group holds the capture, and a glob stands before it or has been seen before all. -/
def IsBehind (seen : Bool) (before : List Mention) (m : Mention) : Prop :=
  m.optional = false ∧ (seen = true ∨ ∃ g ∈ before, g.kind = .glob)

/-- The captures of a pattern that may be used. -/
structure Permitted (ms : List Mention) : Prop where
  unreserved : ∀ m ∈ ms, m.name ∉ reservedNames
  oneGlob : ms.countP (fun m => m.kind = .glob) ≤ 1
  inFront : ms.Pairwise fun m n => m.kind = .glob → n.optional = true

/-- Why the captures of a pattern are refused. -/
inductive Refused (source : String) (ms : List Mention) : PatternError → Prop
  | reserved {m : Mention} (h : First IsReserved ms m) : Refused source ms (.reservedName source m.name)
  | globs (hnames : ∀ m ∈ ms, m.name ∉ reservedNames)
    (h : 1 < ms.countP fun m => m.kind = .glob) : Refused source ms (.multipleGlobs source)
  | behind {m : Mention} (hnames : ∀ m ∈ ms, m.name ∉ reservedNames)
    (hglobs : ms.countP (fun m => m.kind = .glob) ≤ 1) (h : First (IsBehind false) ms m) :
    Refused source ms (.captureAfterGlob source m.name)

section

variable {os : List Segments.Occurrence} {n : String}

theorem find?_isReserved (ms : List Mention) :
    (ms.map (·.name)).find? isReserved = some n ↔
      ∃ m, First IsReserved ms m ∧ m.name = n := by
  induction ms with
  | nil => simp [not_first_nil]
  | cons m ms ih =>
      rw [List.map_cons, List.find?_cons]
      cases hreserved : isReserved m.name with
      | true =>
          have hm : IsReserved [] m := List.contains_iff_mem.1 hreserved
          simp [first_cons_of_fault hm]
      | false =>
          have hm : ¬ IsReserved [] m := fun h => by
            rw [isReserved, List.contains_iff_mem.2 h] at hreserved
            cases hreserved
          simp only [first_cons_of_not hm]
          exact ih

theorem find?_isReserved_eq_none (ms : List Mention) :
    (ms.map (·.name)).find? isReserved = none ↔ ∀ m ∈ ms, m.name ∉ reservedNames := by
  simp [isReserved]

theorem names_eq (os : List Segments.Occurrence) :
    os.map (fun o => o.capture.name) = (os.map mentionOf).map (·.name) := by
  rw [List.map_map]
  rfl

theorem globCount_eq (os : List Segments.Occurrence) :
    globCount os = (os.map mentionOf).countP fun m => m.kind = .glob := by
  rw [globCount, List.countP_map, List.countP_eq_length_filter]
  rfl

theorem isBehind_cons (seen : Bool) (m : Mention) :
    (fun before => IsBehind seen (m :: before)) = IsBehind (seen || m.kind = .glob) := by
  funext before n
  simp [IsBehind, or_assoc]

theorem head?_afterGlob (seen : Bool) (os : List Segments.Occurrence) :
    (afterGlob seen os).head? = some n ↔
      ∃ m, First (IsBehind seen) (os.map mentionOf) m ∧ m.name = n := by
  induction os generalizing seen with
  | nil => simp [afterGlob, not_first_nil]
  | cons o os ih =>
      have ho : IsBehind seen [] (mentionOf o) ↔ (seen && !o.optional) = true := by
        simp [IsBehind, mentionOf, and_comm]
      rw [afterGlob, List.map_cons]
      split
      · next hbehind =>
          simp only [first_cons_of_fault (ho.2 hbehind), exists_eq_left, List.head?_cons,
            Option.some.injEq]
          rfl
      · next hnot =>
          simp only [first_cons_of_not (mt ho.1 hnot), isBehind_cons]
          exact ih _

theorem afterGlob_eq_nil (seen : Bool) (os : List Segments.Occurrence) :
    afterGlob seen os = [] ↔
      (seen = true → ∀ m ∈ os.map mentionOf, m.optional = true) ∧
        (os.map mentionOf).Pairwise fun m n => m.kind = .glob → n.optional = true := by
  induction os generalizing seen with
  | nil => simp [afterGlob]
  | cons o os ih =>
      rw [afterGlob, List.map_cons, List.pairwise_cons]
      split
      · next hbehind =>
          simp only [Bool.and_eq_true, Bool.not_eq_true'] at hbehind
          simp [hbehind, mentionOf]
      · next hnot =>
          simp only [Bool.and_eq_true, Bool.not_eq_true', not_and, Bool.not_eq_false] at hnot
          rw [ih, Bool.or_eq_true, decide_eq_true_iff, List.forall_mem_cons]
          constructor
          · rintro ⟨hall, hpairs⟩
            exact ⟨fun hseen => ⟨hnot hseen, hall (.inl hseen)⟩,
              fun m hm hglob => hall (.inr hglob) m hm, hpairs⟩
          · rintro ⟨hall, hglob, hpairs⟩
            refine ⟨?_, hpairs⟩
            rintro (hseen | ho) m hm
            · exact (hall hseen).2 m hm
            · exact hglob m hm ho

/-- The check of a tree refuses exactly what is not permitted. -/
theorem validate_eq_ok (source : String) (s : Segments) :
    validate source s = .ok () ↔ Permitted ((s.occurrences false).map mentionOf) := by
  unfold validate
  simp only [names_eq, globCount_eq]
  split
  · next n hn =>
      refine ⟨nofun, fun h => ?_⟩
      rw [(find?_isReserved_eq_none _).2 h.unreserved] at hn
      cases hn
  · next hnone =>
      split
      · next hmany => exact ⟨nofun, fun h => absurd h.oneGlob (Nat.not_le_of_lt hmany)⟩
      · next hone =>
          split
          · next hcons =>
              refine ⟨nofun, fun h => ?_⟩
              rw [(afterGlob_eq_nil false _).2 ⟨nofun, h.inFront⟩] at hcons
              cases hcons
          · next hnil =>
              exact ⟨fun _ => ⟨(find?_isReserved_eq_none _).1 hnone, Nat.le_of_not_lt hone,
                ((afterGlob_eq_nil false _).1 hnil).2⟩, fun _ => rfl⟩

theorem validate_eq_error (source : String) (s : Segments) (e : PatternError) :
    validate source s = .error e ↔ Refused source ((s.occurrences false).map mentionOf) e := by
  unfold validate
  simp only [names_eq, globCount_eq]
  split
  · next n hn =>
      constructor
      · rintro ⟨⟩
        obtain ⟨m, hm, rfl⟩ := (find?_isReserved _).1 hn
        exact .reserved hm
      · rintro (⟨hm⟩ | ⟨hnames, -⟩ | ⟨hnames, -, -⟩)
        · obtain rfl := Option.some.inj (hn.symm.trans ((find?_isReserved _).2 ⟨_, hm, rfl⟩))
          rfl
        · cases hn.symm.trans ((find?_isReserved_eq_none _).2 hnames)
        · cases hn.symm.trans ((find?_isReserved_eq_none _).2 hnames)
  · next hnone =>
      have hnames' := (find?_isReserved_eq_none _).1 hnone
      have hreserved : ∀ m, ¬ First IsReserved ((s.occurrences false).map mentionOf) m :=
        fun m hm => by cases hnone.symm.trans ((find?_isReserved _).2 ⟨m, hm, rfl⟩)
      split
      · next hmany =>
          constructor
          · rintro ⟨⟩
            exact .globs hnames' hmany
          · rintro (⟨hm⟩ | _ | ⟨-, hone, -⟩)
            · exact absurd hm (hreserved _)
            · rfl
            · exact absurd hone (Nat.not_le_of_lt hmany)
      · next hone =>
          split
          · next n rest hcons =>
              have hhead := congrArg List.head? hcons
              constructor
              · rintro ⟨⟩
                obtain ⟨m, hm, rfl⟩ := (head?_afterGlob false _).1 hhead
                exact .behind hnames' (Nat.le_of_not_lt hone) hm
              · rintro (⟨hm⟩ | ⟨-, hmany⟩ | ⟨-, -, hm⟩)
                · exact absurd hm (hreserved _)
                · exact absurd hmany hone
                · obtain rfl :=
                    Option.some.inj (hhead.symm.trans ((head?_afterGlob false _).2 ⟨_, hm, rfl⟩))
                  rfl
          · next hnil =>
              refine ⟨nofun, ?_⟩
              rintro (⟨hm⟩ | ⟨-, hmany⟩ | ⟨-, -, hm⟩)
              · exact absurd hm (hreserved _)
              · exact absurd hmany hone
              · have hhead := (head?_afterGlob false _).2 ⟨_, hm, rfl⟩
                rw [hnil] at hhead
                cases hhead

end

/-! ### Reading names and compiling -/

theorem readTree_eq_ok :
    readTree source = .ok tree ↔
      parseTree source = .ok tree ∧ Permitted (mentions 0 source.toList) := by
  constructor
  · intro h
    obtain ⟨s, hs, h⟩ := bind_eq_ok.1 h
    obtain ⟨⟨⟩, hvalid, h⟩ := bind_eq_ok.1 h
    obtain rfl := pure_eq_ok.1 h
    exact ⟨hs, occurrences_of_parseTree hs ▸ (validate_eq_ok source _).1 hvalid⟩
  · rintro ⟨hs, hpermitted⟩
    refine bind_eq_ok.2 ⟨tree, hs, bind_eq_ok.2 ⟨(), ?_, rfl⟩⟩
    exact (validate_eq_ok source tree).2 (occurrences_of_parseTree hs ▸ hpermitted)

theorem readTree_eq_error {e : PatternError} :
    readTree source = .error e ↔ parseTree source = .error e ∨
      (∃ tree, parseTree source = .ok tree) ∧ Refused source (mentions 0 source.toList) e := by
  rw [readTree, bind_eq_error]
  refine or_congr_right ⟨?_, ?_⟩
  · rintro ⟨s, hs, h⟩
    refine ⟨⟨s, hs⟩, ?_⟩
    rcases bind_eq_error.1 h with h | ⟨_, -, h⟩
    · exact occurrences_of_parseTree hs ▸ (validate_eq_error source s e).1 h
    · cases h
  · rintro ⟨⟨s, hs⟩, hrefused⟩
    refine ⟨s, hs, bind_eq_error.2 (.inl ?_)⟩
    exact (validate_eq_error source s e).2 (occurrences_of_parseTree hs ▸ hrefused)

theorem exists_parseTree_iff :
    (∃ tree, parseTree source = .ok tree) ↔ Balanced source.toList ∧ MarkersNamed source.toList := by
  rw [← inOrder_iff, ← exists_parseArena_iff]
  constructor
  · rintro ⟨tree, htree⟩
    obtain ⟨a, ha, -⟩ := map_eq_ok.1 htree
    exact ⟨a, ha⟩
  · rintro ⟨a, ha⟩
    exact ⟨a.tree, map_eq_ok.2 ⟨a, ha, rfl⟩⟩

theorem parseTree_eq_error {e : PatternError} :
    parseTree source = .error e ↔ ∃ o, FirstOffence 0 source.toList o ∧ e = o.error source := by
  rw [← parseArena_eq_error, parseTree]
  cases parseArena source <;> simp [Except.map]

theorem names_of_parseTree (h : parseTree source = .ok tree) :
    tree.names = Names.distinct ((mentions 0 source.toList).map (·.name)) := by
  rw [Segments.names, names_eq, occurrences_of_parseTree h]

/-- The names of a pattern can be read exactly when its text is in order and its captures are
permitted: none is reserved, at most one is a glob, and behind it captures stand in groups only.
Compiling fails as reading the names does, and when it succeeds it has the same names. -/
theorem parseNames_compile (source : String) :
    (∀ names, parseNames source = .ok names ↔
      Balanced source.toList ∧ MarkersNamed source.toList ∧
        Permitted (mentions 0 source.toList) ∧
        names = Names.distinct ((mentions 0 source.toList).map (·.name))) ∧
    (∀ e, parseNames source = .error e ↔
      (∃ o, FirstOffence 0 source.toList o ∧ e = o.error source) ∨
        Balanced source.toList ∧ MarkersNamed source.toList ∧
          Refused source (mentions 0 source.toList) e) ∧
    ∀ requirements anchored,
      (∀ e, parseNames source = .error e → compile source requirements anchored = .error e) ∧
      ∀ p, compile source requirements anchored = .ok p → parseNames source = .ok p.names := by
  have herror : ∀ e, parseNames source = .error e ↔ readTree source = .error e := by
    intro e
    rw [parseNames]
    cases readTree source <;> simp [Except.map]
  refine ⟨fun names => ?_, fun e => ?_, fun requirements anchored => ⟨fun e he => ?_, fun p hp => ?_⟩⟩
  · rw [parseNames, map_eq_ok, ← and_assoc, ← exists_parseTree_iff]
    simp only [readTree_eq_ok]
    constructor
    · rintro ⟨tree, ⟨htree, hpermitted⟩, rfl⟩
      exact ⟨⟨tree, htree⟩, hpermitted, names_of_parseTree htree⟩
    · rintro ⟨⟨tree, htree⟩, hpermitted, rfl⟩
      exact ⟨tree, ⟨htree, hpermitted⟩, names_of_parseTree htree⟩
  · rw [herror, readTree_eq_error, exists_parseTree_iff, parseTree_eq_error, and_assoc]
  · exact bind_eq_error.2 (.inl ((herror e).1 he))
  · obtain ⟨tree, _, _, htree, -⟩ := compile_eq_ok hp
    have hnames : parseNames source = .ok tree.names := map_eq_ok.2 ⟨tree, htree, rfl⟩
    rw [hnames, names_of_compile hp hnames]

end RouteEngine.Pattern
