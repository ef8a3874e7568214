import Mathlib.Data.List.Chain
import Mathlib.Data.List.Induction
import RouteEngine.Pattern.Parser

/-!
Tokens of a pattern text. A text is cut so that no two literal tokens stand next to each other and
that each has plain characters only (`proper_tokens`). What is wrong with a text is said on its
characters: `Offends` says it of one place, `FirstOffence` of the first such place, and
`firstOffence` finds it among the tokens. A text without offences is one whose parentheses are
balanced and whose markers all have names (`inOrder_iff`).
-/

namespace RouteEngine.Pattern

open Text (isNameChar)

/-! ### Cutting -/

def isPlainChar (c : Char) : Bool := !(['(', ')', ':', '*'].contains c)

theorem tokens_cons {c : Char} (hc : isPlainChar c = true) (r : List Char) :
    tokens (c :: r) = pushChar c (tokens r) := by
  simp only [isPlainChar, List.contains_cons, List.contains_nil, Bool.or_false,
    Bool.not_eq_true', Bool.or_eq_false_iff, beq_eq_false_iff_ne] at hc
  rw [tokens, if_neg hc.1, if_neg hc.2.1, if_neg hc.2.2.1, if_neg hc.2.2.2]

/-- Characters of a kind that has no parenthesis and no marker are plain. -/
theorem isPlainChar_of {kind : Char → Bool} (hkind : ['(', ')', ':', '*'].any kind = false)
    {c : Char} (hc : kind c = true) : isPlainChar c = true := by
  rw [isPlainChar, Bool.not_eq_true', Bool.eq_false_iff]
  intro hmem
  have hnot := List.any_eq_false.1 hkind c (List.contains_iff_mem.1 hmem)
  exact hnot hc

theorem isPlainChar_of_isNameChar {c : Char} (hc : isNameChar c = true) :
    isPlainChar c = true :=
  isPlainChar_of (by decide) hc

theorem pushChar_eq (c : Char) (ts : List Token) :
    (∃ cs rest, ts = .text cs :: rest ∧ pushChar c ts = .text (c :: cs) :: rest) ∨
      (∀ cs rest, ts ≠ .text cs :: rest) ∧ pushChar c ts = .text [c] :: ts := by
  unfold pushChar
  split
  · exact .inl ⟨_, _, rfl, rfl⟩
  · next h => exact .inr ⟨h, rfl⟩

theorem pushMarker_ne_text (kind : CaptureKind) (ts : List Token) (ds : List Char)
    (rest : List Token) : pushMarker kind ts ≠ .text ds :: rest := by
  unfold pushMarker
  split
  · split <;> simp
  · simp

theorem tokens_marker (kind : CaptureKind) (r : List Char) :
    tokens (kind.marker :: r) = pushMarker kind (tokens r) := by
  cases kind <;> rfl

/-- A character is plain, a marker or a parenthesis. -/
theorem char_cases (c : Char) :
    c = '(' ∨ c = ')' ∨ (∃ kind : CaptureKind, c = kind.marker) ∨ isPlainChar c = true := by
  by_cases hopen : c = '('
  · exact .inl hopen
  by_cases hclose : c = ')'
  · exact .inr (.inl hclose)
  by_cases hcolon : c = ':'
  · exact .inr (.inr (.inl ⟨.dynamic, hcolon⟩))
  by_cases hstar : c = '*'
  · exact .inr (.inr (.inl ⟨.glob, hstar⟩))
  · exact .inr (.inr (.inr (by simp [isPlainChar, hopen, hclose, hcolon, hstar])))

/-! ### Literal tokens -/

def Token.IsText : Token → Prop
  | text _ => True
  | _ => False

instance : DecidablePred Token.IsText
  | .text _ => .isTrue trivial
  | .openGroup => .isFalse id
  | .closeGroup => .isFalse id
  | .capture _ _ => .isFalse id
  | .nameless _ => .isFalse id

def dropText (ts : List Token) : List Token := ts.filter fun t => ¬ t.IsText

theorem dropText_pushChar (c : Char) (ts : List Token) : dropText (pushChar c ts) = dropText ts := by
  obtain ⟨cs, rest, rfl, hpush⟩ | ⟨-, hpush⟩ := pushChar_eq c ts <;> rw [hpush] <;> rfl

/-- A literal token has text, all of it plain. -/
def Token.IsProper : Token → Prop
  | text cs => cs ≠ [] ∧ ∀ c ∈ cs, isPlainChar c = true
  | _ => True

/-- Literal tokens are proper and apart from each other. -/
structure ProperTokens (ts : List Token) : Prop where
  proper : ∀ t ∈ ts, t.IsProper
  apart : ts.IsChain fun t u => ¬ (t.IsText ∧ u.IsText)

namespace ProperTokens

variable {ts : List Token} {t : Token}

theorem tail (h : ProperTokens (t :: ts)) : ProperTokens ts :=
  ⟨(List.forall_mem_cons.1 h.proper).2, h.apart.tail⟩

theorem cons (ht : t.IsProper) (hts : ProperTokens ts)
    (hnext : ∀ u ∈ ts.head?, ¬ (t.IsText ∧ u.IsText)) : ProperTokens (t :: ts) :=
  ⟨List.forall_mem_cons.2 ⟨ht, hts.proper⟩, List.isChain_cons.2 ⟨hnext, hts.apart⟩⟩

/-- A token that is no text goes in front of any others. -/
theorem cons_of_not_isText (ht : ¬ t.IsText) (hproper : t.IsProper) (hts : ProperTokens ts) :
    ProperTokens (t :: ts) :=
  hts.cons hproper fun _ _ h => ht h.1

theorem pushChar {c : Char} (hc : isPlainChar c = true) (hts : ProperTokens ts) :
    ProperTokens (pushChar c ts) := by
  obtain ⟨cs, rest, rfl, hpush⟩ | ⟨hnot, hpush⟩ := pushChar_eq c ts <;> rw [hpush]
  · have hcs := (List.forall_mem_cons.1 hts.proper).1
    exact hts.tail.cons ⟨List.cons_ne_nil _ _, List.forall_mem_cons.2 ⟨hc, hcs.2⟩⟩
      (List.isChain_cons.1 hts.apart).1
  · refine hts.cons ⟨List.cons_ne_nil _ _, by simpa using hc⟩ ?_
    rintro u hu ⟨-, htext⟩
    obtain ⟨rest, rfl⟩ := List.head?_eq_some_iff.1 hu
    cases u with
    | text cs => exact hnot cs rest rfl
    | _ => exact htext

theorem pushMarker (kind : CaptureKind) (hts : ProperTokens ts) :
    ProperTokens (pushMarker kind ts) := by
  unfold Pattern.pushMarker
  split
  · next cs ts =>
      split
      · exact hts.cons_of_not_isText id trivial
      · exact hts.tail.cons_of_not_isText id trivial
      · next name rest hne hname hrest =>
          -- What the name leaves is the end of a proper text, in the place of that text.
          have hcs := (List.forall_mem_cons.1 hts.proper).1
          have hproper : (Token.text (cs.dropWhile isNameChar)).IsProper :=
            ⟨hrest, fun c hc => hcs.2 c ((List.dropWhile_suffix _).subset hc)⟩
          exact (hts.tail.cons hproper (List.isChain_cons.1 hts.apart).1).cons_of_not_isText id
            trivial
  · exact hts.cons_of_not_isText id trivial

end ProperTokens

theorem proper_tokens (cs : List Char) : ProperTokens (tokens cs) := by
  induction cs with
  | nil => exact ⟨by simp [tokens], .nil⟩
  | cons c r ih =>
      obtain rfl | rfl | ⟨kind, rfl⟩ | hc := char_cases c
      · exact ih.cons_of_not_isText id trivial
      · exact ih.cons_of_not_isText id trivial
      · rw [tokens_marker]
        exact ih.pushMarker kind
      · rw [tokens_cons hc]
        exact ih.pushChar hc

theorem text_ne_nil {cs ds : List Char} {rest : List Token} (h : tokens cs = .text ds :: rest) :
    ds ≠ [] :=
  ((proper_tokens cs).proper (.text ds) (by simp [h])).1

/-! ### Offences -/

/-- The first offence of the tokens inside `depth` groups; a group left open counts at the end. -/
def firstOffence (depth : Nat) : List Token → Option Offence
  | [] => if depth = 0 then none else some .unbalanced
  | .openGroup :: ts => firstOffence (depth + 1) ts
  | .closeGroup :: ts => if depth = 0 then some .unbalanced else firstOffence (depth - 1) ts
  | .nameless kind :: _ => some (.nameless kind)
  | _ :: ts => firstOffence depth ts

/-- Something is wrong right behind `before`, with `depth` groups open in front of that. -/
inductive Offends (depth : Nat) (before : List Char) : (after : List Char) → Offence → Prop
  /-- A parenthesis that closes no group. -/
  | unopened {after : List Char} (h : depth + before.count '(' ≤ before.count ')') :
    Offends depth before (')' :: after) .unbalanced
  | nameless {kind : CaptureKind} {after : List Char}
    (h : ∀ c ∈ after.head?, isNameChar c = false) :
    Offends depth before (kind.marker :: after) (.nameless kind)
  /-- The end of the text inside a group. -/
  | unclosed (h : before.count ')' < depth + before.count '(') :
    Offends depth before [] .unbalanced

/-- The offence is the one that stands furthest to the left. -/
def FirstOffence (depth : Nat) (cs : List Char) (o : Offence) : Prop :=
  ∃ before after, cs = before ++ after ∧ Offends depth before after o ∧
    ∀ before' after' o', cs = before' ++ after' → Offends depth before' after' o' →
      before.length ≤ before'.length

section

variable {depth depth' : Nat} {before after cs r : List Char} {c : Char} {o o' : Offence}
  {kind : CaptureKind}

theorem Offends.unique (h : Offends depth before after o) (h' : Offends depth before after o') :
    o = o' := by
  cases h with
  | unopened h =>
      generalize hafter : ')' :: _ = after at h'
      cases h' with
      | unopened => rfl
      | @nameless kind _ _ => cases kind <;> cases hafter
      | unclosed => rfl
  | @nameless kind _ h =>
      generalize hafter : kind.marker :: _ = after at h'
      cases h' with
      | unopened => cases kind <;> cases hafter
      | @nameless kind' _ _ => cases kind <;> cases kind' <;> first | rfl | cases hafter
      | unclosed => cases hafter
  | unclosed h =>
      cases h' with
      | unclosed => rfl

theorem FirstOffence.unique (h : FirstOffence depth cs o) (h' : FirstOffence depth cs o') :
    o = o' := by
  obtain ⟨before, after, hcs, hoffends, hleast⟩ := h
  obtain ⟨before', after', hcs', hoffends', hleast'⟩ := h'
  have hlength : before.length = before'.length :=
    Nat.le_antisymm (hleast _ _ _ hcs' hoffends') (hleast' _ _ _ hcs hoffends)
  obtain ⟨rfl, rfl⟩ := List.append_inj (hcs.symm.trans hcs') hlength
  exact hoffends.unique hoffends'

theorem FirstOffence.here (h : Offends depth [] cs o) : FirstOffence depth cs o :=
  ⟨[], cs, rfl, h, fun _ _ _ _ _ => Nat.zero_le _⟩

/-- Only the number of groups that are open at a place matters there. -/
theorem offends_cons
    (hdepth : depth + [c].count '(' = depth' + [c].count ')') :
    Offends depth (c :: before) after o ↔ Offends depth' before after o := by
  have hopen : (c :: before).count '(' = [c].count '(' + before.count '(' := by
    rw [← List.count_append, List.singleton_append]
  have hclose : (c :: before).count ')' = [c].count ')' + before.count ')' := by
    rw [← List.count_append, List.singleton_append]
  constructor <;> rintro (h | h | h)
  · exact .unopened (by omega)
  · exact .nameless h
  · exact .unclosed (by omega)
  · exact .unopened (by omega)
  · exact .nameless h
  · exact .unclosed (by omega)

/-- A text has no offence in front of those that follow a character that is in order. -/
theorem FirstOffence.cons (hdepth : depth + [c].count '(' = depth' + [c].count ')')
    (hhere : ∀ o, ¬ Offends depth [] (c :: r) o) (h : FirstOffence depth' r o) :
    FirstOffence depth (c :: r) o := by
  obtain ⟨before, after, rfl, hoffends, hleast⟩ := h
  refine ⟨c :: before, after, rfl, (offends_cons hdepth).2 hoffends, ?_⟩
  rintro (_ | ⟨d, before'⟩) after' o' hcs hoffends'
  · rw [List.nil_append] at hcs
    exact absurd (hcs ▸ hoffends') (hhere o')
  · obtain ⟨rfl, hr⟩ := List.cons.inj hcs
    exact Nat.succ_le_succ (hleast before' after' o' hr ((offends_cons hdepth).1 hoffends'))

/-- Nothing is wrong anywhere in the text. -/
def InOrder (depth : Nat) (cs : List Char) : Prop :=
  ∀ before after o, cs = before ++ after → ¬ Offends depth before after o

theorem InOrder.cons (hdepth : depth + [c].count '(' = depth' + [c].count ')')
    (hhere : ∀ o, ¬ Offends depth [] (c :: r) o) (h : InOrder depth' r) :
    InOrder depth (c :: r) := by
  rintro (_ | ⟨d, before⟩) after o hcs hoffends
  · rw [List.nil_append] at hcs
    exact hhere o (hcs ▸ hoffends)
  · obtain ⟨rfl, hr⟩ := List.cons.inj hcs
    exact h before after o hr ((offends_cons hdepth).1 hoffends)

theorem FirstOffence.not_inOrder (h : FirstOffence depth cs o) : ¬ InOrder depth cs := by
  obtain ⟨before, after, hcs, hoffends, -⟩ := h
  exact fun horder => horder before after o hcs hoffends

/-! ### Offences among the tokens -/

/-- A marker is without a name exactly when no name character follows it. -/
theorem firstOffence_pushMarker (depth : Nat) (kind : CaptureKind) (r : List Char) :
    (∃ c ∈ r.head?, isNameChar c = true) ∧
        firstOffence depth (pushMarker kind (tokens r)) = firstOffence depth (tokens r) ∨
      (∀ c ∈ r.head?, isNameChar c = false) ∧
        firstOffence depth (pushMarker kind (tokens r)) = some (.nameless kind) := by
  have hprint := print_tokens r
  unfold pushMarker
  split
  · next cs ts hts =>
      have hne := text_ne_nil hts
      rw [hts, List.flatMap_cons, Token.print] at hprint
      obtain ⟨c, cs, rfl⟩ := List.exists_cons_of_ne_nil hne
      have hhead : r.head? = some c := by rw [← hprint]; rfl
      rw [hts, hhead]
      cases hc : isNameChar c with
      | true =>
          refine .inl ⟨⟨c, rfl, hc⟩, ?_⟩
          rw [List.takeWhile_cons_of_pos hc, List.dropWhile_cons_of_pos hc]
          split
          · next heq => simp at heq
          · rfl
          · rfl
      | false =>
          refine .inr ⟨by simpa using hc, ?_⟩
          rw [List.takeWhile_cons_of_neg (by simp [hc])]
          rfl
  · next hnot =>
      refine .inr ⟨fun c hc => ?_, rfl⟩
      obtain ⟨r, rfl⟩ := List.head?_eq_some_iff.1 hc
      cases hname : isNameChar c with
      | false => rfl
      | true =>
          -- A name character would have made the tokens begin with text.
          rw [tokens_cons (isPlainChar_of_isNameChar hname)] at hnot
          obtain ⟨cs, rest, -, hpush⟩ | ⟨-, hpush⟩ := pushChar_eq c (tokens r)
          · exact absurd hpush (hnot _ _)
          · exact absurd hpush (hnot _ _)

/-- Literal tokens are in order wherever they stand. -/
theorem firstOffence_dropText (depth : Nat) (ts : List Token) :
    firstOffence depth (dropText ts) = firstOffence depth ts := by
  induction ts generalizing depth with
  | nil => rfl
  | cons t ts ih =>
      cases t with
      | openGroup => exact ih (depth + 1)
      | closeGroup =>
          show (if depth = 0 then _ else firstOffence (depth - 1) (dropText ts)) = _
          rw [ih, firstOffence]
      | text cs => exact ih depth
      | capture kind name => exact ih depth
      | nameless kind => rfl

theorem firstOffence_pushChar (depth : Nat) (c : Char) (ts : List Token) :
    firstOffence depth (pushChar c ts) = firstOffence depth ts := by
  rw [← firstOffence_dropText, dropText_pushChar, firstOffence_dropText]

/-- What is found among the tokens is the first offence of the text. -/
theorem firstOffence_tokens (depth : Nat) (cs : List Char) :
    match firstOffence depth (tokens cs) with
    | some o => FirstOffence depth cs o
    | none => InOrder depth cs := by
  induction cs generalizing depth with
  | nil =>
      change match (if depth = 0 then none else some Offence.unbalanced) with
        | some o => FirstOffence depth [] o
        | none => InOrder depth []
      split_ifs with hdepth
      · rintro before after o hcs hoffends
        obtain ⟨rfl, rfl⟩ := List.append_eq_nil_iff.1 hcs.symm
        cases hoffends with
        | unclosed h => simp [hdepth] at h
      · exact .here (.unclosed (by simpa using Nat.pos_of_ne_zero hdepth))
  | cons c r ih =>
      -- Either something is wrong at this character or the offences are those of the rest.
      have hgo : ∀ depth', depth + [c].count '(' = depth' + [c].count ')' →
          (∀ o, ¬ Offends depth [] (c :: r) o) →
          firstOffence depth (tokens (c :: r)) = firstOffence depth' (tokens r) →
          match firstOffence depth (tokens (c :: r)) with
          | some o => FirstOffence depth (c :: r) o
          | none => InOrder depth (c :: r) := by
        intro depth' hdepth hhere heq
        have ih := ih depth'
        rw [heq]
        split at ih
        · exact ih.cons hdepth hhere
        · exact ih.cons hdepth hhere
      obtain rfl | rfl | ⟨kind, rfl⟩ | hc := char_cases c
      · refine hgo (depth + 1) (by simp) (fun o h => ?_) rfl
        generalize hcs : '(' :: r = cs at h
        cases h with
        | unopened => cases hcs
        | @nameless kind _ _ => cases kind <;> cases hcs
        | unclosed => cases hcs
      · by_cases hdepth : depth = 0
        · have hfound : firstOffence depth (tokens (')' :: r)) = some .unbalanced := if_pos hdepth
          rw [hfound]
          exact .here (.unopened (by simp [hdepth]))
        · refine hgo (depth - 1) (by simp; omega) (fun o h => ?_) (if_neg hdepth)
          generalize hcs : ')' :: r = cs at h
          cases h with
          | unopened h => simp [hdepth] at h
          | @nameless kind _ _ => cases kind <;> cases hcs
          | unclosed => cases hcs
      · rw [tokens_marker] at hgo ⊢
        obtain ⟨⟨c, hc, hname⟩, hfound⟩ | ⟨hnameless, hfound⟩ := firstOffence_pushMarker depth kind r
        · refine hgo depth (by cases kind <;> simp [CaptureKind.marker]) (fun o h => ?_) hfound
          generalize hcs : kind.marker :: r = cs at h
          cases h with
          | unopened => cases kind <;> cases hcs
          | nameless h =>
              obtain ⟨-, rfl⟩ := List.cons.inj hcs
              exact absurd (h c hc) (by simp [hname])
          | unclosed => cases hcs
        · rw [hfound]
          exact .here (.nameless hnameless)
      · rw [tokens_cons hc] at hgo ⊢
        simp only [isPlainChar, List.contains_cons, List.contains_nil, Bool.or_false,
          Bool.not_eq_true', Bool.or_eq_false_iff, beq_eq_false_iff_ne] at hc
        refine hgo depth (by simp [hc.1, hc.2.1]) (fun o h => ?_) (firstOffence_pushChar _ _ _)
        generalize hcs : c :: r = cs at h
        cases h with
        | unopened => exact hc.2.1 (List.cons.inj hcs).1
        | @nameless kind _ _ =>
            cases kind with
            | dynamic => exact hc.2.2.1 (List.cons.inj hcs).1
            | glob => exact hc.2.2.2 (List.cons.inj hcs).1
        | unclosed => cases hcs

theorem firstOffence_eq_some :
    firstOffence depth (tokens cs) = some o ↔ FirstOffence depth cs o := by
  have hfound := firstOffence_tokens depth cs
  split at hfound
  · next o' ho' =>
      rw [ho', Option.some.injEq]
      constructor
      · rintro rfl
        exact hfound
      · exact hfound.unique
  · next hnone =>
      rw [hnone]
      exact ⟨nofun, fun h => absurd hfound h.not_inOrder⟩

theorem firstOffence_eq_none : firstOffence depth (tokens cs) = none ↔ InOrder depth cs := by
  have hfound := firstOffence_tokens depth cs
  split at hfound
  · next o ho =>
      rw [ho]
      exact ⟨nofun, fun h => absurd h hfound.not_inOrder⟩
  · next hnone => exact ⟨fun _ => hfound, fun _ => hnone⟩

end

/-! ### Texts in order -/

/-- Each closing parenthesis closes a group, and each group is closed. -/
def Balanced (cs : List Char) : Prop :=
  cs.count '(' = cs.count ')' ∧ ∀ before, before <+: cs → before.count ')' ≤ before.count '('

/-- Each marker is followed by a character of a name. -/
def MarkersNamed (cs : List Char) : Prop :=
  ∀ before m after, cs = before ++ m :: after → m = ':' ∨ m = '*' →
    ∃ c rest, after = c :: rest ∧ isNameChar c = true

theorem balanced_of_inOrder {cs : List Char} (h : InOrder 0 cs) : Balanced cs := by
  have hbefore : ∀ before, before <+: cs → before.count ')' ≤ before.count '(' := by
    intro before
    induction before using List.reverseRecOn with
    | nil => exact fun _ => Nat.le_refl _
    | append_singleton before c ih =>
        rintro ⟨after, rfl⟩
        have hle := ih ⟨c :: after, by simp⟩
        rw [List.count_append, List.count_append]
        by_cases hc : c = ')'
        · subst hc
          have hopen : ¬ before.count '(' ≤ before.count ')' := fun hfew =>
            h before (')' :: after) .unbalanced (by simp) (.unopened (by simpa using hfew))
          simp only [List.count_singleton_self]
          omega
        · have hnone : [c].count ')' = 0 := by simp [hc]
          omega
  refine ⟨Nat.le_antisymm (Nat.le_of_not_lt fun hmany => ?_) (hbefore cs (List.prefix_refl cs)),
    hbefore⟩
  exact h cs [] .unbalanced (by simp) (.unclosed (by simpa using hmany))

theorem inOrder_iff {cs : List Char} : InOrder 0 cs ↔ Balanced cs ∧ MarkersNamed cs := by
  constructor
  · refine fun h => ⟨balanced_of_inOrder h, fun before m after hcs hm => ?_⟩
    obtain ⟨kind, rfl⟩ : ∃ kind : CaptureKind, m = kind.marker :=
      hm.elim (fun h => ⟨.dynamic, h⟩) fun h => ⟨.glob, h⟩
    cases after with
    | nil => exact absurd (.nameless (by simp)) (h before _ (.nameless kind) hcs)
    | cons c rest =>
        refine ⟨c, rest, rfl, Bool.of_not_eq_false fun hc => ?_⟩
        exact h before _ (.nameless kind) hcs (.nameless (by simpa using hc))
  · rintro ⟨⟨htotal, hbefore⟩, hnamed⟩ before after o rfl hoffends
    cases hoffends with
    | @unopened after hfew =>
        have hle := hbefore (before ++ [')']) ⟨after, by simp⟩
        simp only [List.count_append, List.count_singleton_self] at hle
        have hnone : [')'].count '(' = 0 := by decide
        omega
    | @nameless kind after hnameless =>
        obtain ⟨c, rest, rfl, hc⟩ :=
          hnamed before kind.marker after rfl (by cases kind <;> simp [CaptureKind.marker])
        simp [hnameless c rfl] at hc
    | unclosed hmany =>
        rw [List.append_nil] at htotal
        omega

end RouteEngine.Pattern
