import RouteEngine.Proofs.Request.Header
import RouteEngine.Proofs.Route.Redirect

/-!
What a redirect sends. The location goes into a header that takes no control characters, and as it
is into an attribute of the body. A character of a filled template stands in the template or in an
escaped value (`mem_interpolate`), for what was put in is not read again; so values bring neither
controls nor quotes nor angle brackets, and where the template and the origin have none of these
the header is sent and the location is all that stands between the quotes of the body
(`response_of_quiet`).
-/

namespace RouteEngine.Redirect

/-- Printable ASCII without what ends an attribute value or delimits a tag. -/
def isQuiet (c : Char) : Bool :=
  0x20 ≤ c.toNat && c.toNat < 0x7F && !(['"', '<', '>'].contains c)

def IsQuietText (s : String) : Prop := ∀ c ∈ s.toList, isQuiet c = true

-- Not by the instance for bounded quantifiers: there is one that goes through all characters.
instance (s : String) : Decidable (IsQuietText s) :=
  decidable_of_iff (s.toList.all isQuiet = true) List.all_eq_true

/-- A redirect to the template, with whatever status and host it has been given since. -/
inductive ToTemplate (text : String) : Redirect → Prop
  | plain : ToTemplate text (ofTemplate text)
  | status {r : Redirect} (h : ToTemplate text r) (status : Nat) :
    ToTemplate text (r.withStatus status)
  | host {r : Redirect} (h : ToTemplate text r) (host : String) : ToTemplate text (r.withHost host)

variable {r : Redirect} {text : String} {params : Params} {request : Request} {c : Char}

namespace ToTemplate

theorem target_eq (h : ToTemplate text r) : r.target = .template text := by
  induction h with
  | plain => rfl
  | status _ status ih =>
      rw [withStatus]
      split <;> exact ih
  | host _ host ih => exact ih

/-- No status outside the range is ever taken. -/
theorem status_range (h : ToTemplate text r) : 300 ≤ r.status ∧ r.status < 400 := by
  induction h with
  | plain => simp [ofTemplate]
  | status _ status ih =>
      rw [withStatus]
      split
      · next hrange => exact hrange
      · exact ih
  | host _ host ih => exact ih

end ToTemplate

/-! ### Characters of a location -/

/-- What the template has for a name that is being read. -/
def unread : Option (List Char) → List Char
  | none => []
  | some name => '%' :: '\x7b' :: name.reverse

theorem mem_interpolate {name : Option (List Char)} {template : List Char}
    (h : c ∈ interpolate params name template) :
    c ∈ unread name ++ template ∨ ∃ n, c ∈ filled params n := by
  fun_induction interpolate params name template with
  | case1 r ih => exact ih h
  | case2 d r hopen ih =>
      rcases List.mem_cons.1 h with rfl | h
      · exact .inl List.mem_cons_self
      · exact (ih h).imp_left (List.mem_cons_of_mem d)
  | case3 => exact .inl h
  | case4 name r ih =>
      rcases List.mem_append.1 h with h | h
      · exact .inr ⟨_, h⟩
      · exact (ih h).imp_left fun h => List.mem_append_right _ (List.mem_cons_of_mem _ h)
  | case5 name d r hd ih => simpa [unread] using ih h
  | case6 name => exact .inl (List.mem_append_left _ h)

theorem isQuiet_of_isPathSafe (h : Escape.isPathSafe c = true) : isQuiet c = true := by
  by_cases hslash : c = '/'
  · subst hslash
    decide
  have hsegment : Escape.isSegmentSafe c = true := by simpa [Escape.isPathSafe, hslash] using h
  simp only [Escape.isSegmentSafe, Bool.and_eq_true, decide_eq_true_eq] at hsegment
  obtain ⟨⟨hlow, hhigh⟩, hlisted⟩ := hsegment
  have hlow : 0x20 ≤ c.toNat := Nat.le_of_lt hlow
  simp_all [isQuiet]

theorem isQuiet_of_isDigit (h : c.isDigit = true) : isQuiet c = true := by
  have hrange : 48 ≤ c.toNat ∧ c.toNat ≤ 57 := by
    simp only [Char.isDigit, Bool.and_eq_true, decide_eq_true_eq] at h
    exact h.imp UInt32.le_iff_toNat_le.1 UInt32.le_iff_toNat_le.1
  have hlisted : c ∉ ['"', '<', '>'] := by
    intro hmem
    simp only [List.mem_cons, List.not_mem_nil, or_false] at hmem
    rcases hmem with rfl | rfl | rfl <;> exact absurd hrange (by decide)
  simp only [isQuiet, Bool.and_eq_true, decide_eq_true_eq, Bool.not_eq_true', List.contains_eq_mem,
    decide_eq_false_iff_not]
  exact ⟨⟨by omega, by omega⟩, hlisted⟩

/-- Whatever a value says, it is quiet when it has been escaped. -/
theorem isQuiet_of_mem_filled {name : List Char} (h : c ∈ filled params name) :
    isQuiet c = true := by
  rw [filled] at h
  split at h
  · rcases Escape.mem_escapeWith h with ⟨-, hsafe⟩ | hdigit
    · exact isQuiet_of_isPathSafe hsafe
    · have hdigits : IsQuietText "%0123456789ABCDEF" := by decide +kernel
      exact hdigits c hdigit
  · cases h

namespace IsQuietText

theorem append {s t : String} (hs : IsQuietText s) (ht : IsQuietText t) : IsQuietText (s ++ t) := by
  rw [IsQuietText, String.toList_append]
  exact List.forall_mem_append.2 ⟨hs, ht⟩

theorem targetText (htarget : r.target = .template text) (htext : IsQuietText text) :
    IsQuietText (r.targetText params request) := by
  intro c hc
  simp only [Redirect.targetText, htarget, String.toList_ofList] at hc
  rcases mem_interpolate hc with h | ⟨name, h⟩
  · exact htext c h
  · exact isQuiet_of_mem_filled h

theorem portText (port : Option Nat) : IsQuietText (Request.portText port) := by
  cases port with
  | none => decide
  | some p =>
      refine append (by decide) fun c hc => isQuiet_of_isDigit ?_
      exact Nat.isDigit_of_mem_toDigits (by decide) (by decide) (Nat.toList_repr ▸ hc)

theorem location (htarget : r.target = .template text) (htext : IsQuietText text)
    (hhost : ∀ host, r.host = some host → IsQuietText host) (hrequest : IsQuietText request.host)
    (hscheme : IsQuietText request.scheme) : IsQuietText (r.location params request) := by
  have hfilled : IsQuietText (r.targetText params request) := targetText htarget htext
  have hserver : IsQuietText (r.host.getD request.host) := by
    cases h : r.host with
    | none => exact hrequest
    | some host => exact hhost host h
  have hprotocol : IsQuietText request.protocol := hscheme.append (by decide)
  rw [Redirect.location]
  split
  · exact hfilled
  · refine ((hprotocol.append hserver).append (portText _)).append ?_
    split
    · exact hfilled
    · exact append (by decide) hfilled

theorem isValue {s : String} (hs : IsQuietText s) : Headers.isValue s = true := by
  refine List.all_eq_true.2 fun c hc => ?_
  have hquiet := hs c hc
  simp only [isQuiet, Bool.and_eq_true, decide_eq_true_eq] at hquiet
  obtain ⟨⟨hlow, hhigh⟩, -⟩ := hquiet
  simp [Headers.isValueChar]
  omega

end IsQuietText

/-! ### The response -/

/-- The body up to the quote in front of the location. -/
def bodyBefore : String := "<html><body>You are being <a href="

/-- The body from the quote behind the location on. -/
def bodyBehind : String := ">redirected</a>.</body></html>"

theorem body_eq (location : String) :
    body location = bodyBefore ++ "\"" ++ location ++ ("\"" ++ bodyBehind) := by
  have hbefore : "<html><body>You are being <a href=\"" = bodyBefore ++ "\"" := by
    decide +kernel
  have hbehind : "\">redirected</a>.</body></html>" = "\"" ++ bodyBehind := by
    decide +kernel
  have hends := congr (congrArg (fun before behind => before ++ location ++ behind) hbefore) hbehind
  exact hends

/-- The only quotes of the body are those around a location that has none. -/
theorem pieces_body {location : String} (h : '"' ∉ location.toList) :
    Text.pieces '"' (body location).toList =
      [bodyBefore.toList, location.toList, bodyBehind.toList] := by
  have hbody : (body location).toList =
      bodyBefore.toList ++ '"' :: (location.toList ++ '"' :: bodyBehind.toList) := by
    simp [body_eq]
  have hfront : '"' ∉ bodyBefore.toList := by decide +kernel
  have hback : '"' ∉ bodyBehind.toList := by decide +kernel
  rw [hbody, Text.pieces_append_cons hfront, Text.pieces_append_cons h,
    Text.pieces_of_not_mem hback]

/-- A redirect to a quiet template from a quiet origin answers with a redirection, names the
location in the header, and has it as the one attribute value of the body, in which no value can
open or close anything. -/
theorem response_of_quiet (hr : ToTemplate text r) (htext : IsQuietText text)
    (hhost : ∀ host, r.host = some host → IsQuietText host) (hrequest : IsQuietText request.host)
    (hscheme : IsQuietText request.scheme) (params : Params) :
    (300 ≤ (r.response params request).status ∧ (r.response params request).status < 400) ∧
    (r.response params request).headers.get? "location" = some (r.location params request) ∧
    (r.response params request).body =
      bodyBefore ++ "\"" ++ r.location params request ++ ("\"" ++ bodyBehind) ∧
    Text.pieces '"' (r.response params request).body.toList =
      [bodyBefore.toList, (r.location params request).toList, bodyBehind.toList] ∧
    ∀ c ∈ (r.location params request).toList, c ≠ '"' ∧ c ≠ '<' ∧ c ≠ '>' := by
  have hquiet : IsQuietText (r.location params request) :=
    .location hr.target_eq htext hhost hrequest hscheme
  have hmarks : ∀ c ∈ (r.location params request).toList, c ≠ '"' ∧ c ≠ '<' ∧ c ≠ '>' := by
    intro c hc
    have hc := hquiet c hc
    refine ⟨?_, ?_, ?_⟩ <;> rintro rfl <;> exact absurd hc (by decide)
  refine ⟨hr.status_range, ?_, body_eq _, pieces_body fun hquote => ?_, hmarks⟩
  · have hname : lowerAscii "location" ≠ "content-type" := by decide +kernel
    have hvalid : (Headers.name? "location").isSome = true := by decide +kernel
    simp only [response, Headers.get?_set_of_ne _ hname]
    exact Headers.get?_setValid _ hvalid hquiet.isValue
  · exact (hmarks _ hquote).1 rfl

/-- A search for markup that would close the attribute, begin a line of the header and ask for
another value. -/
def markup : Params := .ofList [("q", "\">\n<b>%\x7bq\x7d é"), ("é", "<")]

def foundRedirect : Redirect :=
  ((ofTemplate "/find/%\x7bq\x7d").withStatus 302).withHost "search.example.com"

theorem response_of_quiet_markup :
    (foundRedirect.response markup {}).headers.get? "location" =
        some "http://search.example.com/find/%22%3E%0A%3Cb%3E%25%7Bq%7D%20%C3%A9" ∧
      Text.pieces '"' (foundRedirect.response markup {}).body.toList =
        [bodyBefore.toList, (foundRedirect.location markup {}).toList, bodyBehind.toList] := by
  have hmade : foundRedirect.location markup {} =
      "http://search.example.com/find/%22%3E%0A%3Cb%3E%25%7Bq%7D%20%C3%A9" := by
    decide +kernel
  have hhost : ∀ host, foundRedirect.host = some host → IsQuietText host := by
    rintro host ⟨⟩
    decide +kernel
  have hrequest : IsQuietText ({} : Request).host := by decide +kernel
  obtain ⟨-, hlocation, -, hpieces, -⟩ := response_of_quiet
    (r := foundRedirect) ((ToTemplate.plain.status 302).host _)
    (by decide +kernel) hhost hrequest (by decide +kernel) markup
  exact ⟨hlocation.trans (congrArg some hmade), hpieces⟩

end RouteEngine.Redirect
