import RouteEngine.Proofs.Escape.Canonical
import RouteEngine.Proofs.Pattern.Filling
import RouteEngine.Route.Declaration

/-!
Plain paths: a sequence of parts, each a literal text or a single name, with a slash in front of
it, and at the end perhaps an optional format. The tree of such a path may cut its literal text
anywhere, so it is described by what it does: `Begins` says what a tree writes, captures and
leaves to the rest behind it, and `stack_slashed` reads the parts off one after another.
-/

namespace RouteEngine

open Pattern

/-- What stands between the slashes of a plain path. -/
inductive Part
  | literal (text : String)
  | param (name : String)
  deriving DecidableEq, Repr

namespace Part

def isUnreserved (c : Char) : Bool := c.isAlphanum || ['-', '.', '_', '~'].contains c

def print : Part → List Char
  | literal text => text.toList
  | param name => ':' :: name.toList

/-- The text is not empty and needs no escapes, or the name is one that a pattern can have. -/
def IsProper : Part → Prop
  | literal text => text ≠ "" ∧ text.toList.all isUnreserved = true
  | param name => name ≠ "" ∧ name.toList.all Text.isNameChar = true

instance : DecidablePred IsProper
  | literal text => inferInstanceAs (Decidable (text ≠ "" ∧ text.toList.all isUnreserved = true))
  | param name => inferInstanceAs (Decidable (name ≠ "" ∧ name.toList.all Text.isNameChar = true))

def captures : Part → List Capture
  | literal _ => []
  | param name => [defaultCapture .dynamic name.toList]

/-- What the values make of the part. -/
def fill (values : Params) : Part → List Char
  | literal text => text.toList
  | param name => ((defaultCapture .dynamic name.toList).emitted values).text

/-- The path of the parts; without parts it is the root. -/
def pathText (parts : List Part) : List Char :=
  if parts = [] then ['/'] else Escape.slashed (parts.map print)

def fillText (values : Params) (parts : List Part) : List Char :=
  if parts = [] then ['/'] else Escape.slashed (parts.map (fill values))

end Part

/-! ### Trees that begin in a known way -/

namespace Segments

/-- The tree writes `text` and has `captures` before it goes on as `rest`. -/
structure Begins (text : Params → List Char) (captures : List Capture) (s rest : Segments) :
    Prop where
  text_eq : ∀ values wanted, (s.filling values wanted).text =
    text values ++ (rest.filling values wanted).text
  direct_eq : s.directCaptures = captures ++ rest.directCaptures
  occurrences_eq : s.occurrences false =
    captures.map (fun c => ⟨c, false⟩) ++ rest.occurrences false
  written : ∀ given after, rest.Written given after → s.Written given after

variable {s m rest : Segments} {text text' : Params → List Char} {captures captures' : List Capture}

theorem Begins.refl (s : Segments) : Begins (fun _ => []) [] s s :=
  ⟨fun _ _ => rfl, rfl, rfl, fun _ _ h => h⟩

theorem Begins.trans (h : Begins text captures s m) (h' : Begins text' captures' m rest) :
    Begins (fun values => text values ++ text' values) (captures ++ captures') s rest where
  text_eq values wanted := by rw [h.text_eq, h'.text_eq, List.append_assoc]
  direct_eq := by rw [h.direct_eq, h'.direct_eq, List.append_assoc]
  occurrences_eq := by
    rw [h.occurrences_eq, h'.occurrences_eq, List.map_append, List.append_assoc]
  written given after hrest := h.written given after (h'.written given after hrest)

theorem begins_literal (text : String) (s : Segments) :
    Begins (fun _ => text.toList) [] (literal text s) s :=
  ⟨fun _ _ => rfl, rfl, rfl, fun _ _ h => h⟩

theorem begins_capture (c : Capture) (s : Segments) :
    Begins (fun values => (c.emitted values).text) [c] (capture c s) s :=
  ⟨fun _ _ => rfl, rfl, rfl, fun _ _ h => h⟩

end Segments

namespace Pattern

open Segments

/-! ### Tokens of a plain path -/

theorem tokens_append {cs : List Char} (hcs : ∀ c ∈ cs, isPlainChar c = true) (r : List Char) :
    tokens (cs ++ r) = cs.foldr pushChar (tokens r) := by
  induction cs with
  | nil => rfl
  | cons c cs ih =>
      obtain ⟨hc, hcs⟩ := List.forall_mem_cons.1 hcs
      rw [List.cons_append, tokens_cons hc, ih hcs, List.foldr_cons]

theorem isPlainChar_of_isUnreserved {c : Char} (hc : Part.isUnreserved c = true) :
    isPlainChar c = true :=
  isPlainChar_of (by decide) hc

/-- Literal text that is put in front of tokens is joined to the text that they begin with. -/
theorem foldr_pushChar {cs : List Char} (hcs : cs ≠ []) (ts : List Token) :
    (∃ ds rest, ts = .text ds :: rest ∧ cs.foldr pushChar ts = .text (cs ++ ds) :: rest) ∨
      (∀ ds rest, ts ≠ .text ds :: rest) ∧ cs.foldr pushChar ts = .text cs :: ts := by
  induction cs with
  | nil => exact absurd rfl hcs
  | cons c cs ih =>
      rw [List.foldr_cons]
      cases cs with
      | nil =>
          rcases pushChar_eq c ts with ⟨ds, rest, rfl, hpush⟩ | ⟨hnot, hpush⟩
          · exact .inl ⟨ds, rest, rfl, hpush⟩
          · exact .inr ⟨hnot, hpush⟩
      | cons d cs =>
          rcases ih (List.cons_ne_nil _ _) with ⟨ds, rest, rfl, hpush⟩ | ⟨hnot, hpush⟩
          · exact .inl ⟨ds, rest, rfl, by rw [hpush]; rfl⟩
          · exact .inr ⟨hnot, by rw [hpush]; rfl⟩

/-- A marker takes all the name characters in front of it, and leaves the text behind them. -/
theorem pushMarker_text {name ds : List Char} (hne : name ≠ [])
    (hname : ∀ c ∈ name, Text.isNameChar c = true)
    (hds : ∀ c ∈ ds.head?, Text.isNameChar c = false) (kind : CaptureKind) (ts : List Token) :
    pushMarker kind (.text (name ++ ds) :: ts) =
      .capture kind name :: (if ds = [] then ts else .text ds :: ts) := by
  have htake : (name ++ ds).takeWhile Text.isNameChar = name :=
    Walk.takeWhile_append_of_head hname hds
  have hdrop : (name ++ ds).dropWhile Text.isNameChar = ds := by
    have hboth := List.takeWhile_append_dropWhile (p := Text.isNameChar) (l := name ++ ds)
    rw [htake] at hboth
    exact List.append_cancel_left hboth
  unfold pushMarker
  simp only [htake, hdrop]
  cases name with
  | nil => exact absurd rfl hne
  | cons c name => cases ds <;> rfl

/-- A name takes what it can of the text behind its marker. -/
theorem tokens_name {name r : List Char} (hne : name ≠ [])
    (hname : ∀ c ∈ name, Text.isNameChar c = true)
    (hr : ∀ c ∈ r.head?, Text.isNameChar c = false) :
    tokens (':' :: (name ++ r)) = .capture .dynamic name :: tokens r := by
  have hcolon : tokens (':' :: (name ++ r)) = pushMarker .dynamic (tokens (name ++ r)) := rfl
  rw [hcolon, tokens_append fun c hc => isPlainChar_of_isNameChar (hname c hc)]
  rcases foldr_pushChar hne (tokens r) with ⟨ds, rest, htokens, hpush⟩ | ⟨hnot, hpush⟩
  · have hds := text_ne_nil htokens
    have hprint := print_tokens r
    rw [htokens, List.flatMap_cons, Token.print] at hprint
    have hhead : ∀ c ∈ ds.head?, Text.isNameChar c = false := by
      intro c hc
      refine hr c ?_
      obtain ⟨d, ds, rfl⟩ := List.exists_cons_of_ne_nil hds
      rw [← hprint]
      exact hc
    rw [hpush, pushMarker_text hne hname hhead, if_neg hds, htokens]
  · have hnil : ∀ c ∈ ([] : List Char).head?, Text.isNameChar c = false := by simp
    have hempty := pushMarker_text hne hname hnil .dynamic (tokens r)
    rw [List.append_nil, if_pos rfl] at hempty
    rw [hpush, hempty]

/-! ### The tree of a plain path -/

theorem begins_pushChar (c : Char) {ts : List Token} {s : Segments} {st : List Segments}
    (h : stack ts = s :: st) :
    ∃ s', stack (pushChar c ts) = s' :: st ∧ Begins (fun _ => [c]) [] s' s := by
  rcases pushChar_eq c ts with ⟨cs, rest, rfl, hpush⟩ | ⟨-, hpush⟩
  · obtain ⟨top, below, hst⟩ := List.exists_cons_of_ne_nil (stack_ne_nil rest)
    unfold stack at h
    rw [hst] at h
    cases h
    refine ⟨literal (String.ofList (c :: cs)) top, ?_, ?_⟩
    · rw [hpush]
      unfold stack
      rw [hst]
    · refine ⟨fun values wanted => ?_, rfl, rfl, fun _ _ h => h⟩
      simp [filling, Walk.text]
  · refine ⟨literal (String.ofList [c]) s, ?_, ?_⟩
    · rw [hpush]
      unfold stack
      rw [h]
    · have hbegins := begins_literal (String.ofList [c]) s
      rw [String.toList_ofList] at hbegins
      exact hbegins

theorem begins_foldr_pushChar (cs : List Char) {ts : List Token} {s : Segments}
    {st : List Segments} (h : stack ts = s :: st) :
    ∃ s', stack (cs.foldr pushChar ts) = s' :: st ∧ Begins (fun _ => cs) [] s' s := by
  induction cs with
  | nil => exact ⟨s, h, Begins.refl s⟩
  | cons c cs ih =>
      obtain ⟨m, hm, hbegins⟩ := ih
      obtain ⟨s', hs', hchar⟩ := begins_pushChar c hm
      exact ⟨s', hs', hchar.trans hbegins⟩

theorem separatedTokens_pushChar (c : Char) (ts : List Token) :
    separatedTokens (pushChar c ts) = separatedTokens ts := by
  rcases pushChar_eq c ts with ⟨cs, rest, rfl, hpush⟩ | ⟨-, hpush⟩ <;> rw [hpush] <;> rfl

theorem bareText_pushChar (c : Char) (ts : List Token) :
    bareText (pushChar c ts) = c :: bareText ts := by
  rcases pushChar_eq c ts with ⟨cs, rest, rfl, hpush⟩ | ⟨-, hpush⟩ <;> rw [hpush] <;> rfl

theorem separatedTokens_foldr_pushChar (cs : List Char) (ts : List Token) :
    separatedTokens (cs.foldr pushChar ts) = separatedTokens ts := by
  induction cs with
  | nil => rfl
  | cons c cs ih => rw [List.foldr_cons, separatedTokens_pushChar, ih]

/-- Whether a text may follow the parts of a plain path. -/
structure Follows (suffix : List Char) : Prop where
  head : ∀ c ∈ suffix.head?, Text.isNameChar c = false
  stop : stops (bareText (tokens suffix)) = true
  separated : separatedTokens (tokens suffix) = true

theorem follows_slash {text : List Char} (h : separatedTokens (tokens text) = true) :
    Follows ('/' :: text) := by
  have htokens : tokens ('/' :: text) = pushChar '/' (tokens text) := tokens_cons (by decide) text
  refine ⟨fun c hc => ?_, ?_, ?_⟩
  · obtain rfl : '/' = c := by simpa using hc
    decide
  · rw [htokens, bareText_pushChar]
    rfl
  · rw [htokens, separatedTokens_pushChar, h]

theorem separatedTokens_part {part : Part} (hpart : part.IsProper) {suffix : List Char}
    (hsuffix : Follows suffix) : separatedTokens (tokens (part.print ++ suffix)) = true := by
  cases part with
  | literal text =>
      have hsafe := List.all_eq_true.1 hpart.2
      have htokens := tokens_append (fun c hc => isPlainChar_of_isUnreserved (hsafe c hc)) suffix
      rw [Part.print, htokens, separatedTokens_foldr_pushChar, hsuffix.separated]
  | param name =>
      have hne : name.toList ≠ [] := by simpa using hpart.1
      have hname := List.all_eq_true.1 hpart.2
      rw [Part.print, List.cons_append, tokens_name hne hname hsuffix.head, separatedTokens,
        CaptureKind.endsBefore, hsuffix.stop, hsuffix.separated]
      rfl

theorem stack_part {part : Part} (hpart : part.IsProper) {suffix : List Char}
    (hsuffix : Follows suffix) {s : Segments} {st : List Segments}
    (hst : stack (tokens suffix) = s :: st) :
    ∃ s', stack (tokens ('/' :: (part.print ++ suffix))) = s' :: st ∧
      Begins (fun values => '/' :: part.fill values) part.captures s' s := by
  have htokens : tokens ('/' :: (part.print ++ suffix)) =
      pushChar '/' (tokens (part.print ++ suffix)) := tokens_cons (by decide) _
  rw [htokens]
  cases part with
  | literal text =>
      have hsafe := List.all_eq_true.1 hpart.2
      have htext := tokens_append (fun c hc => isPlainChar_of_isUnreserved (hsafe c hc)) suffix
      obtain ⟨m, hm, htail⟩ := begins_foldr_pushChar text.toList hst
      obtain ⟨s', hs', hslash⟩ := begins_pushChar '/' hm
      rw [Part.print, htext]
      exact ⟨s', hs', hslash.trans htail⟩
  | param name =>
      have hne : name.toList ≠ [] := by simpa using hpart.1
      have hm : stack (.capture .dynamic name.toList :: tokens suffix) =
          capture (defaultCapture .dynamic name.toList) s :: st := by
        unfold stack
        rw [hst]
      obtain ⟨s', hs', hslash⟩ := begins_pushChar '/' hm
      have hname := List.all_eq_true.1 hpart.2
      rw [Part.print, List.cons_append, tokens_name hne hname hsuffix.head]
      exact ⟨s', hs', hslash.trans (begins_capture _ s)⟩

/-- A plain path is read as a tree that begins with its parts. -/
theorem stack_slashed {parts : List Part} (hparts : ∀ x ∈ parts, x.IsProper)
    {suffix : List Char} (hsuffix : Follows suffix) {s : Segments} {st : List Segments}
    (hst : stack (tokens suffix) = s :: st) :
    Follows (Escape.slashed (parts.map Part.print) ++ suffix) ∧
      ∃ s', stack (tokens (Escape.slashed (parts.map Part.print) ++ suffix)) = s' :: st ∧
        Begins (fun values => Escape.slashed (parts.map (Part.fill values)))
          (parts.flatMap Part.captures) s' s := by
  induction parts with
  | nil => exact ⟨hsuffix, s, hst, Begins.refl s⟩
  | cons part parts ih =>
      obtain ⟨hpart, hparts⟩ := List.forall_mem_cons.1 hparts
      obtain ⟨hfollows, m, hm, htail⟩ := ih hparts
      obtain ⟨s', hs', hhead⟩ := stack_part hpart hfollows hm
      rw [List.map_cons, Escape.slashed_cons]
      exact ⟨follows_slash (separatedTokens_part hpart hfollows), s', hs', hhead.trans htail⟩

def formatCapture : Capture := defaultCapture .dynamic "format".toList

/-- The group of an optional format. -/
def formatGroup : Segments := .group (.literal "." (.capture formatCapture .done)) .done

theorem stack_pathText {parts : List Part} (hparts : ∀ x ∈ parts, x.IsProper)
    {suffix : List Char} (hsuffix : Follows suffix) {s : Segments} {st : List Segments}
    (hst : stack (tokens suffix) = s :: st) :
    separatedTokens (tokens (Part.pathText parts ++ suffix)) = true ∧
      ∃ s', stack (tokens (Part.pathText parts ++ suffix)) = s' :: st ∧
        Begins (fun values => Part.fillText values parts) (parts.flatMap Part.captures) s' s := by
  cases parts with
  | nil =>
      have htokens : tokens (Part.pathText [] ++ suffix) = pushChar '/' (tokens suffix) :=
        tokens_cons (by decide) suffix
      rw [htokens, separatedTokens_pushChar]
      exact ⟨hsuffix.separated, begins_pushChar '/' hst⟩
  | cons part parts =>
      obtain ⟨hfollows, hread⟩ := stack_slashed hparts hsuffix hst
      exact ⟨hfollows.separated, hread⟩

theorem follows_nil : Follows [] := ⟨by simp, rfl, rfl⟩

theorem follows_optionalFormat : Follows Declaration.optionalFormat := by
  refine ⟨fun c hc => ?_, by decide +kernel, by decide +kernel⟩
  have hhead : Declaration.optionalFormat.head? = some '(' := by decide +kernel
  rw [hhead] at hc
  cases hc
  decide

theorem mapCaptures_eq_self {f : Capture → Capture} {s : Segments}
    (h : s.Every fun c => f c = c) : s.mapCaptures f = s := by
  induction s with
  | done => rfl
  | literal text next ih => rw [mapCaptures, ih h]
  | capture c next ih => rw [mapCaptures, ih h.2, h.1]
  | group inner next ihInner ihNext => rw [mapCaptures, ihInner h.1, ihNext h.2]

theorem requireCapture_of_dynamic {hasFormat : Bool} {c : Capture} (hc : c.kind = .dynamic) :
    requireCapture .empty hasFormat c = c := by
  rw [requireCapture, Dict.get?_empty]
  simp [hc]

theorem kind_of_mem_captures {parts : List Part} {c : Capture}
    (hc : c ∈ parts.flatMap Part.captures) : c.kind = .dynamic := by
  obtain ⟨part, -, hc⟩ := List.mem_flatMap.1 hc
  cases part with
  | literal text => simp [Part.captures] at hc
  | param name =>
      obtain rfl := List.mem_singleton.1 hc
      rfl

theorem kind_of_begins {text : Params → List Char} {parts : List Part} {s rest : Segments}
    (h : Begins text (parts.flatMap Part.captures) s rest)
    (hrest : rest = .done ∨ rest = formatGroup) :
    ∀ o ∈ s.occurrences false, o.capture.kind = .dynamic := by
  intro o ho
  rw [h.occurrences_eq] at ho
  rcases List.mem_append.1 ho with ho | ho
  · obtain ⟨c, hc, rfl⟩ := List.mem_map.1 ho
    exact kind_of_mem_captures hc
  · rcases hrest with rfl | rfl
    · simp [occurrences] at ho
    · obtain rfl := List.mem_singleton.1 ho
      rfl

/-- The path of a route with plain parts, its format optional or disabled. -/
structure IsPlainPath (source : List Char) (parts : List Part) : Prop where
  proper : ∀ part ∈ parts, part.IsProper
  format : ∃ f, f ≠ FormatOption.required ∧
    source = Declaration.appendFormat (Part.pathText parts) f

theorem IsPlainPath.suffix {source : List Char} {parts : List Part}
    (h : IsPlainPath source parts) :
    source = Part.pathText parts ++ [] ∨
      source = Part.pathText parts ++ Declaration.optionalFormat := by
  obtain ⟨f, hf, rfl⟩ := h.format
  unfold Declaration.appendFormat
  cases f with
  | optional =>
      simp only
      split
      · exact .inl (List.append_nil _).symm
      · exact .inr rfl
  | required => exact absurd rfl hf
  | disabled => exact .inl (List.append_nil _).symm

/-- A compiled plain path begins with its parts, and has at most a format group behind them. -/
theorem begins_of_compile {source : String} {parts : List Part} {anchored : Bool} {p : Pattern}
    (hplain : IsPlainPath source.toList parts) (hp : compile source .empty anchored = .ok p) :
    isSeparated source = true ∧ ∃ rest, (rest = .done ∨ rest = formatGroup) ∧
      Begins (fun values => Part.fillText values parts) (parts.flatMap Part.captures)
        p.segments rest := by
  have hread : isSeparated source = true ∧ ∃ tree rest,
      stack (tokens source.toList) = [tree] ∧ (rest = .done ∨ rest = formatGroup) ∧
        Begins (fun values => Part.fillText values parts) (parts.flatMap Part.captures)
          tree rest := by
    unfold isSeparated
    rcases hplain.suffix with hsource | hsource <;> rw [hsource]
    · obtain ⟨hsep, tree, hst, hbegins⟩ := stack_pathText hplain.proper follows_nil rfl
      exact ⟨hsep, tree, .done, hst, .inl rfl, hbegins⟩
    · have hformat : stack (tokens Declaration.optionalFormat) = [formatGroup] := by
        decide +kernel
      obtain ⟨hsep, tree, hst, hbegins⟩ :=
        stack_pathText hplain.proper follows_optionalFormat hformat
      exact ⟨hsep, tree, formatGroup, hst, .inr rfl, hbegins⟩
  obtain ⟨hsep, tree, rest, hst, hrest, hbegins⟩ := hread
  obtain ⟨tree', htree, hsegments⟩ := (plain_of_compile hp).tree
  obtain ⟨-, rfl⟩ := stack_of_parseTree (parseTree_of_readTree htree)
  rw [hst, List.headD_cons] at hsegments
  have hdynamic := kind_of_begins hbegins hrest
  have hself : requireAll .empty tree = tree :=
    mapCaptures_eq_self (every_of_occurrences fun o ho => requireCapture_of_dynamic (hdynamic o ho))
  rw [hsegments, hself]
  exact ⟨hsep, rest, hrest, hbegins⟩

end Pattern

end RouteEngine
