import RouteEngine.Proofs.Escape.RoundTrip
import RouteEngine.Proofs.Text.Split
import RouteEngine.Route.Redirect

/-!
Where a redirect leads. A template that begins with a single slash and names no host is meant for
the origin of the request or of the redirect, but whether a target is absolute is asked of the
text with its values filled in, and a value keeps its slashes and colons. The location stays at
the origin exactly as long as the filled text neither begins with two slashes nor holds `://`
(`location_of_template`), and values without slashes and colons of which none is empty guarantee
this (`not_isAbsolute_of_plain`). A slash in front of a value is enough to lose the host, and a
URL for a value to have no host at all (`location_of_url_values`).
-/

namespace RouteEngine.Redirect

/-- Scheme, host and port of a location that the target leaves to the request. -/
def origin (r : Redirect) (request : Request) : String :=
  request.protocol ++ r.host.getD request.host ++ Request.portText request.optionalPort

/-- The names that filling in a template looks up. The name being read is kept in reverse. -/
def lookedUp : (name : Option (List Char)) → List Char → List String
  | none, '%' :: '\x7b' :: r => lookedUp (some []) r
  | none, _ :: r => lookedUp none r
  | none, [] => []
  | some name, c :: r =>
    if c = '\x7d' then String.ofList name.reverse :: lookedUp none r
    else lookedUp (some (c :: name)) r
  | some _, [] => []

/-- The characters that tell where a host begins. -/
def isMark (c : Char) : Bool := c = '/' || c = ':'

/-- Something is there, and no mark in it. -/
def IsPlainValue (value : String) : Prop := value ≠ "" ∧ ∀ c ∈ value.toList, isMark c = false

/-- Every name that the template looks up has a plain value. -/
def Plain (params : Params) (name : Option (List Char)) (template : List Char) : Prop :=
  ∀ n ∈ lookedUp name template, ∃ v, params.get? n = some v ∧ IsPlainValue v

variable {params : Params} {word template : List Char}

/-! ### Filling in plain values -/

theorem filled_of_plain {name : List Char} {v : String}
    (hget : params.get? (String.ofList name) = some v) (hv : IsPlainValue v) :
    filled params name ≠ [] ∧ ∀ c ∈ filled params name, isMark c = false := by
  have hfilled : filled params name = Escape.escapeWith Escape.isPathSafe v.toList := by
    simp only [filled, hget]
  rw [hfilled]
  refine ⟨Escape.escapeWith_ne_nil fun hnil => hv.1 (String.toList_eq_nil_iff.1 hnil), ?_⟩
  intro c hc
  rcases Escape.mem_escapeWith hc with ⟨hmem, -⟩ | hhex
  · exact hv.2 c hmem
  · have hall : ("%0123456789ABCDEF".toList.all fun c => !isMark c) = true := by decide
    simpa using List.all_eq_true.1 hall c hhex

theorem plain_nil_iff {r : List Char} :
    Plain params none ('%' :: '\x7b' :: r) ↔ Plain params (some []) r := by
  simp [Plain, lookedUp]

theorem plain_cons_iff {c : Char} {r : List Char}
    (h : ∀ r', c = '%' → r = '\x7b' :: r' → False) :
    Plain params none (c :: r) ↔ Plain params none r := by
  rw [Plain, Plain, lookedUp.eq_2 c r h]

theorem plain_close_iff {name r : List Char} :
    Plain params (some name) ('\x7d' :: r) ↔
      (∃ v, params.get? (String.ofList name.reverse) = some v ∧ IsPlainValue v) ∧
        Plain params none r := by
  simp [Plain, lookedUp]

theorem plain_name_iff {c : Char} {name r : List Char} (hc : c ≠ '\x7d') :
    Plain params (some name) (c :: r) ↔ Plain params (some (c :: name)) r := by
  simp [Plain, lookedUp, hc]

/-- What stands for a name does not begin with a mark: it is a value, or the opening that nothing
closed. -/
theorem eq_nil_of_prefix_interpolate {name : List Char} (hplain : Plain params (some name) template)
    (hword : ∀ c ∈ word, isMark c = true)
    (h : word <+: interpolate params (some name) template) : word = [] := by
  induction template generalizing name with
  | nil =>
      cases word with
      | nil => rfl
      | cons m word =>
          obtain ⟨rfl, -⟩ := List.cons_prefix_cons.1 h
          exact absurd (hword _ List.mem_cons_self) (by decide)
  | cons c r ih =>
      by_cases hc : c = '\x7d'
      · subst hc
        obtain ⟨⟨v, hget, hv⟩, -⟩ := plain_close_iff.1 hplain
        obtain ⟨hne, hfilled⟩ := filled_of_plain hget hv
        rw [interpolate, if_pos rfl] at h
        cases word with
        | nil => rfl
        | cons m word =>
            obtain ⟨d, ds, hd⟩ := List.exists_cons_of_ne_nil hne
            rw [hd, List.cons_append] at h
            obtain ⟨rfl, -⟩ := List.cons_prefix_cons.1 h
            have hplainMark := hfilled m (hd ▸ List.mem_cons_self)
            rw [hword m List.mem_cons_self] at hplainMark
            cases hplainMark
      · rw [interpolate, if_neg hc] at h
        exact ih ((plain_name_iff hc).1 hplain) h

/-- Marks at the beginning of a filled template stand at the beginning of the template. -/
theorem prefix_of_prefix_interpolate (hplain : Plain params none template)
    (hword : ∀ c ∈ word, isMark c = true) (h : word <+: interpolate params none template) :
    word <+: template := by
  induction template generalizing word with
  | nil => exact h
  | cons c r ih =>
      cases word with
      | nil => exact List.nil_prefix
      | cons m word =>
          obtain ⟨hm, hrest⟩ := List.forall_mem_cons.1 hword
          by_cases hopen : ∃ r', c = '%' ∧ r = '\x7b' :: r'
          · obtain ⟨r', rfl, rfl⟩ := hopen
            rw [interpolate] at h
            have hnil := eq_nil_of_prefix_interpolate (plain_nil_iff.1 hplain) hword h
            cases hnil
          · have hopen : ∀ r', c = '%' → r = '\x7b' :: r' → False :=
              fun r' hc hr => hopen ⟨r', hc, hr⟩
            rw [interpolate.eq_2 params c r hopen] at h
            obtain ⟨rfl, htail⟩ := List.cons_prefix_cons.1 h
            exact List.cons_prefix_cons.2 ⟨rfl, ih ((plain_cons_iff hopen).1 hplain) hrest htail⟩

/-- A word of marks lies behind a text that has none. -/
theorem infix_of_infix_append {s t : List Char} (hs : ∀ c ∈ s, isMark c = false)
    (hne : word ≠ []) (hword : ∀ c ∈ word, isMark c = true) (h : word <:+: s ++ t) :
    word <:+: t := by
  induction s with
  | nil => exact h
  | cons c s ih =>
      obtain ⟨hc, hs⟩ := List.forall_mem_cons.1 hs
      rcases List.infix_cons_iff.1 h with h | h
      · obtain ⟨m, word, rfl⟩ := List.exists_cons_of_ne_nil hne
        obtain ⟨rfl, -⟩ := List.cons_prefix_cons.1 h
        rw [hword m List.mem_cons_self] at hc
        cases hc
      · exact ih hs h

/-- A word of marks that a filled template holds is one of the template itself, for plain values
neither bring marks nor let those around them come together. -/
theorem infix_of_infix_interpolate {name : Option (List Char)} (hplain : Plain params name template)
    (hne : word ≠ []) (hword : ∀ c ∈ word, isMark c = true)
    (h : word <:+: interpolate params name template) :
    word <:+: (name.getD []).reverse ++ template := by
  fun_induction interpolate params name template with
  | case1 r ih =>
      have hlater := ih (plain_nil_iff.1 hplain) h
      exact hlater.trans (List.suffix_append ['%', '\x7b'] r).isInfix
  | case2 c r hopen ih =>
      rcases List.infix_cons_iff.1 h with h | h
      · have hfirst := prefix_of_prefix_interpolate hplain hword
          (interpolate.eq_2 params c r hopen ▸ h)
        exact hfirst.isInfix
      · have hlater := ih ((plain_cons_iff hopen).1 hplain) h
        exact hlater.trans (List.suffix_cons c r).isInfix
  | case3 => exact h
  | case4 name r ih =>
      obtain ⟨⟨v, hget, hv⟩, hplain⟩ := plain_close_iff.1 hplain
      have hlater := ih hplain (infix_of_infix_append (filled_of_plain hget hv).2 hne hword h)
      refine hlater.trans ?_
      exact ((List.suffix_cons _ r).trans (List.suffix_append _ _)).isInfix
  | case5 name c r hc ih =>
      have hlater := ih ((plain_name_iff hc).1 hplain) h
      simpa using hlater
  | case6 name =>
      have hopening : ∀ c ∈ ['%', '\x7b'], isMark c = false := by simp [isMark]
      rw [Option.getD_some, List.append_nil]
      exact infix_of_infix_append hopening hne hword h

/-! ### Locations -/

theorem isAbsolute_eq_true {target : String} :
    isAbsolute target = true ↔
      [':', '/', '/'] <:+: target.toList ∨ ['/', '/'] <+: target.toList := by
  rw [isAbsolute, Bool.or_eq_true, Text.contains_eq_true, Text.startsWith_eq_true]

/-- A target that brings no host along and begins with a slash is put behind the origin. -/
theorem location_of_not_isAbsolute {r : Redirect} {request : Request}
    (habsolute : isAbsolute (r.targetText params request) = false)
    (hslash : ['/'] <+: (r.targetText params request).toList) :
    r.location params request = r.origin request ++ r.targetText params request := by
  rw [← Text.startsWith_eq_true] at hslash
  simp only [location, habsolute, hslash, origin, Bool.false_eq_true, if_false, if_true]

theorem not_isAbsolute_of_plain {text : String} (hplain : Plain params none text.toList)
    (hdouble : ¬ ['/', '/'] <+: text.toList) (hhost : ¬ [':', '/', '/'] <:+: text.toList) :
    isAbsolute (String.ofList (interpolate params none text.toList)) = false := by
  have hmarks : ∀ c ∈ ['/', '/'], isMark c = true := by simp [isMark]
  have hmarks' : ∀ c ∈ [':', '/', '/'], isMark c = true := by simp [isMark]
  rw [← Bool.not_eq_true, isAbsolute_eq_true, String.toList_ofList]
  rintro (h | h)
  · exact hhost (infix_of_infix_interpolate hplain (by simp) hmarks' h)
  · exact hdouble (prefix_of_prefix_interpolate hplain hmarks h)

/-- The filled template begins with the slash that the template begins with. -/
theorem slash_prefix_interpolate (hslash : ['/'] <+: template) :
    ['/'] <+: interpolate params none template := by
  obtain ⟨r, rfl⟩ := hslash
  rw [List.singleton_append, interpolate.eq_2 params '/' r (by rintro r' ⟨⟩)]
  exact ⟨_, rfl⟩

/-- A template with a single slash in front and no host leads to the origin exactly where the
filled text is not absolute; where it is, the location is that text, without a scheme. Values
without marks never make it absolute. -/
theorem location_of_template {r : Redirect} {text : String} {request : Request}
    (htarget : r.target = .template text) (hslash : ['/'] <+: text.toList)
    (hdouble : ¬ ['/', '/'] <+: text.toList) (hhost : ¬ [':', '/', '/'] <:+: text.toList) :
    ∃ path, r.targetText params request = "/" ++ path ∧
      (isAbsolute (r.targetText params request) = false →
        r.location params request = r.origin request ++ "/" ++ path) ∧
      (isAbsolute (r.targetText params request) = true →
        r.location params request = "/" ++ path) ∧
      (Plain params none text.toList → isAbsolute (r.targetText params request) = false) := by
  have htext : r.targetText params request =
      String.ofList (interpolate params none text.toList) := by
    rw [targetText, htarget]
  have hfilled : ['/'] <+: (r.targetText params request).toList := by
    rw [htext, String.toList_ofList]
    exact slash_prefix_interpolate hslash
  obtain ⟨path, hpath⟩ := hfilled
  have hwhole : r.targetText params request = "/" ++ String.ofList path := by
    rw [← String.ofList_toList (s := r.targetText params request), ← hpath, String.ofList_append]
  refine ⟨String.ofList path, hwhole, fun habsolute => ?_, fun habsolute => ?_, fun hplain => ?_⟩
  · rw [location_of_not_isAbsolute habsolute ⟨path, hpath⟩, hwhole, String.append_assoc]
  · rw [← hwhole]
    simp only [location, habsolute, if_true]
  · rw [htext]
    exact not_isAbsolute_of_plain hplain hdouble hhost

def storesRequest : Request := { host := "stores.example.com" }

/-- A glob keeps the slash in front of it, which here stands behind a name: the redirect stays at
the host of the request. -/
theorem location_of_template_products :
    let r := ofTemplate "/%\x7bname\x7d%\x7brest\x7d"
    let params : Params := Dict.ofList [("name", "iernest"), ("rest", "/products")]
    ∃ path, r.targetText params storesRequest = "/" ++ path ∧
      r.location params storesRequest = r.origin storesRequest ++ "/" ++ path := by
  intro r params
  have hslash : ['/'] <+: "/%\x7bname\x7d%\x7brest\x7d".toList := by decide
  have hdouble : ¬ ['/', '/'] <+: "/%\x7bname\x7d%\x7brest\x7d".toList := by decide
  have hhost : ¬ [':', '/', '/'] <:+: "/%\x7bname\x7d%\x7brest\x7d".toList := by
    rw [← Text.contains_eq_true]
    decide +kernel
  have habsolute : isAbsolute (r.targetText params storesRequest) = false := by decide +kernel
  obtain ⟨path, hpath, horigin, -, -⟩ :=
    @location_of_template params r _ storesRequest rfl hslash hdouble hhost
  exact ⟨path, hpath, horigin habsolute⟩

/-- A value that begins with a slash behind the slash of the template takes the place of the host,
and a value that is a URL keeps the whole location from getting one. -/
theorem location_of_url_values :
    (ofTemplate "/%\x7brest\x7d").location (Dict.ofList [("rest", "/evil.example/x")])
        storesRequest = "//evil.example/x" ∧
      (ofTemplate "/go/%\x7burl\x7d").location (Dict.ofList [("url", "http://evil.example")])
        storesRequest = "/go/http://evil.example" ∧
      storesRequest.protocol ++ storesRequest.host ++
        Request.portText storesRequest.optionalPort ++ "/" = "http://stores.example.com/" := by
  decide +kernel

end RouteEngine.Redirect
