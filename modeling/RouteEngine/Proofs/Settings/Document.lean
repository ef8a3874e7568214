import RouteEngine.Proofs.Outcome
import RouteEngine.Proofs.Settings.Overlay
import RouteEngine.Settings.Document

/-!
Settings documents against the settings that are read from them. Reading an object takes every
setting from the field of its name, so that writing the settings down again gives these fields back
(`Settings.at?_toJson`). A document is laid over the defaults before it is read; what it leaves
untouched is read as the default.
-/

namespace RouteEngine

namespace Json

variable {α : Type} {j : Json} {key : String} {fields : List (String × Json)}

theorem bool?_eq_some {b : Bool} : j.bool? = some b ↔ j = .bool b := by
  cases j <;> simp [bool?]

theorem string?_eq_some {s : String} : j.string? = some s ↔ j = .string s := by
  cases j <;> simp [string?]

theorem fields?_eq_some : j.fields? = some fields ↔ j = .object fields := by
  cases j <;> simp [fields?]

theorem eq_ofNat_of_natUpTo? {most n : Nat} (h : j.natUpTo? most = some n) :
    j = ofNat n ∧ n ≤ most := by
  unfold natUpTo? at h
  split at h
  · next i =>
      split at h
      · next hi =>
          obtain rfl := Option.some.inj h
          exact ⟨by rw [ofNat, Int.toNat_of_nonneg hi.1], Int.toNat_le.2 hi.2⟩
      · cases h
  · cases h

/-- A count that fits a word is written down as it was read. -/
theorem eq_ofNat_toNat_of_natUpTo? {n : Nat} (h : j.natUpTo? Text.maxCount = some n) :
    j = ofNat (UInt64.ofNat n).toNat := by
  obtain ⟨hj, hn⟩ := eq_ofNat_of_natUpTo? h
  have hsize : n < UInt64.size := Nat.lt_succ_of_le hn
  rw [hj, UInt64.toNat_ofNat_of_lt' hsize]

/-- A field that may be left out is written down as it was read, or as `null` if it was left out. -/
theorem eq_of_optional? {read : Json → Option α} {write : α → Json} {field : Option Json}
    {value : Option α} (hread : ∀ j a, read j = some a → j = write a)
    (h : optional? read field = some value) :
    some (ofOption write value) = some .null ∨ field = some (ofOption write value) := by
  cases field with
  | none =>
      obtain rfl := Option.some.inj h
      exact .inl rfl
  | some j =>
      refine .inr (congrArg some ?_)
      by_cases hnull : j = .null
      · subst hnull
        obtain rfl := Option.some.inj h
        rfl
      · rw [optional?, nullable?] at h
        · obtain ⟨a, ha, rfl⟩ := Option.map_eq_some_iff.1 h
          exact hread j a ha
        · exact hnull

end Json

open Json

/-! ### Reading and writing down -/

namespace UrlDefaults

variable {d : UrlDefaults} {fields : List (String × Json)}

/-- What was read from an object is written down again, and what it lacks as the default. -/
theorem at?_toJson (h : ofJson? (.object fields) = some d) (key : String) :
    d.toJson.at? [key] = ({} : UrlDefaults).toJson.at? [key] ∨
      (object fields).at? [key] = d.toJson.at? [key] := by
  simp only [ofJson?, ofFields, Option.bind_eq_bind, Option.bind_eq_some_iff] at h
  obtain ⟨host, hhost, protocol, hprotocol, port, hport, script, hscript, h⟩ := h
  obtain rfl := Option.some.inj h
  replace hhost := eq_of_optional? (fun j a => string?_eq_some.1) hhost
  replace hprotocol := eq_of_optional? (fun j a => string?_eq_some.1) hprotocol
  replace hport := eq_of_optional? (fun j a h => (eq_ofNat_of_natUpTo? h).1) hport
  replace hscript := eq_of_optional? (fun j a => string?_eq_some.1) hscript
  by_cases hkey : key ∈ ["host", "port", "protocol", "script_name"]
  · simp only [List.mem_cons, List.not_mem_nil, or_false] at hkey
    rw [toJson, toJson, at?_field, at?_field, at?_field]
    rcases hkey with rfl | rfl | rfl | rfl
    · exact hhost
    · exact hport
    · exact hprotocol
    · exact hscript
  · exact .inl (at?_eq_of_not_mem hkey hkey)

end UrlDefaults

namespace Settings

variable {s : Settings} {fields : List (String × Json)} {document : Json} {path : List String}

theorem eq_of_ofValues {debug tld append cascade urls optimize log extra : Json}
    (h : ofValues debug tld append cascade urls optimize log extra = some s) :
    debug = .bool s.debug ∧ tld = ofNat s.tldLength.toNat ∧ append = .bool s.appendFormat ∧
      cascade = .string s.cascadeHeader ∧ UrlDefaults.ofJson? urls = some s.urlDefaults ∧
      optimize = .bool s.optimizeGeneration ∧ log = .string s.logLevel ∧
      extra = .object s.extra := by
  simp only [ofValues, Option.bind_eq_bind, Option.bind_eq_some_iff] at h
  obtain ⟨_, hdebug, _, htld, _, happend, _, hcascade, _, hurls, _, hoptimize, _, hlog, _, hextra,
    h⟩ := h
  obtain rfl := Option.some.inj h
  exact ⟨bool?_eq_some.1 hdebug, eq_ofNat_toNat_of_natUpTo? htld, bool?_eq_some.1 happend,
    string?_eq_some.1 hcascade, hurls, bool?_eq_some.1 hoptimize, string?_eq_some.1 hlog,
    fields?_eq_some.1 hextra⟩

/-- Settings that were read from an object are written down again as they stood there; only the
defaults of URLs may have stood there in another form. -/
theorem at?_toJson (h : ofJson? (.object fields) = some s) (key : String) :
    s.toJson.at? [key] = ({} : Settings).toJson.at? [key] ∨
      (object fields).at? [key] = s.toJson.at? [key] ∨
      key = "default_url_options" ∧ ∃ urls, (object fields).at? [key] = some urls ∧
        UrlDefaults.ofJson? urls = some s.urlDefaults := by
  simp only [ofJson?, Option.bind_eq_bind, Option.bind_eq_some_iff] at h
  obtain ⟨_, hdebug, _, htld, _, happend, _, hcascade, urls, hurls, _, hoptimize, _, hlog, _,
    hextra, h⟩ := h
  obtain ⟨rfl, rfl, rfl, rfl, hdecoded, rfl, rfl, rfl⟩ := eq_of_ofValues h
  by_cases hkey : key ∈ ["append_format", "cascade_header", "debug", "default_url_options", "extra",
    "log_level", "optimize_generation", "tld_length"]
  · simp only [List.mem_cons, List.not_mem_nil, or_false] at hkey
    refine .inr ?_
    rw [toJson, at?_field, at?_field]
    rcases hkey with rfl | rfl | rfl | rfl | rfl | rfl | rfl | rfl
    · exact .inl happend
    · exact .inl hcascade
    · exact .inl hdebug
    · exact .inr ⟨rfl, urls, hurls, hdecoded⟩
    · exact .inl hextra
    · exact .inl hlog
    · exact .inl hoptimize
    · exact .inl htld
  · exact .inl (at?_eq_of_not_mem hkey hkey)

/-! ### What a document leaves untouched -/

theorem sorted_of_parseDocument {format : DocumentFormat} {source : String}
    (h : parseDocument format source = .ok document) : document.Sorted := by
  unfold parseDocument at h
  split at h
  · split at h
    · next hparse =>
        obtain rfl := Except.ok.inj h
        obtain ⟨d, -, rfl⟩ := Option.map_eq_some_iff.1 hparse
        exact sorted_canonical _
    · cases h
  · split at h
    · obtain rfl := Except.ok.inj h
      exact sorted_canonical _
    · cases h

/-- Inside the defaults of URLs a document leaves untouched what it does not mention. -/
theorem at?_urls_of_untouched {urls : Json} {d : UrlDefaults}
    (h : UrlDefaults.ofJson? urls = some d) (hobject : urls.IsObject)
    (hpath : urls.at? path = ({} : UrlDefaults).toJson.at? path) (hne : path ≠ []) :
    d.toJson.at? path = ({} : UrlDefaults).toJson.at? path := by
  obtain ⟨fields, rfl⟩ := hobject
  obtain ⟨key, rest, rfl⟩ := List.exists_cons_of_ne_nil hne
  rcases UrlDefaults.at?_toJson h key with hdefault | hsame
  · rw [at?_cons, hdefault, ← at?_cons]
  · rw [at?_cons, ← hsame, ← at?_cons, hpath]

theorem at?_toJson_of_untouched (hsorted : document.Sorted) (h : ofDocument document = .ok s)
    (huntouched : document.Untouched path) :
    s.toJson.at? path = ({} : Settings).toJson.at? path := by
  have hread : ofJson? (overlay ({} : Settings).toJson document) = some s := by
    unfold ofDocument at h
    split at h
    · next hs =>
        obtain rfl := Except.ok.inj h
        exact hs
    · cases h
  have hframe := at?_overlay_of_untouched hsorted huntouched ({} : Settings).toJson
  obtain ⟨key, rest, rfl⟩ := List.exists_cons_of_ne_nil huntouched.ne_nil
  obtain ⟨fields, hfields⟩ := isObject_overlay huntouched.isObject ({} : Settings).toJson
  rw [hfields] at hread hframe
  rcases at?_toJson hread key with hdefault | hsame | ⟨rfl, urls, hurls, hdecoded⟩
  · rw [at?_cons, hdefault, ← at?_cons]
  · rw [at?_cons, ← hsame, ← at?_cons, hframe]
  · have hinside : ∀ s : Settings,
        s.toJson.at? ("default_url_options" :: rest) = s.urlDefaults.toJson.at? rest := fun _ => rfl
    rw [hinside, hinside]
    rw [at?_cons, hurls, Option.bind_some, hinside] at hframe
    by_cases hrest : rest = []
    · rw [hrest, at?_nil, at?_nil, Option.some.injEq] at hframe
      have hdefault : UrlDefaults.ofJson? ({} : UrlDefaults).toJson = some {} := rfl
      rw [hframe, hdefault, Option.some.injEq] at hdecoded
      rw [← hdecoded]
    · have hbase : ({} : Settings).toJson.at? ["default_url_options"] =
          some ({} : UrlDefaults).toJson := rfl
      obtain ⟨w, hw, hobject⟩ := isObject_at?_overlay hsorted huntouched hrest hbase ⟨_, rfl⟩
      rw [hfields, hurls, Option.some.injEq] at hw
      exact at?_urls_of_untouched hdecoded (hw ▸ hobject) hframe hrest

end Settings

/-! ### Layers -/

/-- Where the layer has a value that is no object, that value stands in the result; what the layer
leaves untouched is as it was; and laying the layer over once more changes nothing. So settings
that a document does not mention are the defaults, at any depth. -/
theorem Json.overlay_layered :
    (∀ base layer : List (String × Json), (object layer).Sorted →
      (∀ path v, (object layer).at? path = some v → ¬ v.IsObject →
        (overlay (object base) (object layer)).at? path = some v) ∧
      (∀ path, (object layer).Untouched path →
        (overlay (object base) (object layer)).at? path = (object base).at? path) ∧
      overlay (overlay (object base) (object layer)) (object layer) =
        overlay (object base) (object layer)) ∧
    ∀ format source document s, Settings.parseDocument format source = .ok document →
      Settings.parse format source = .ok s → ∀ path, document.Untouched path →
      s.toJson.at? path = ({} : Settings).toJson.at? path := by
  refine ⟨fun base layer hsorted => ⟨fun path v hv hplain => ?_, fun path huntouched => ?_, ?_⟩,
    fun format source document s hdocument hparse path huntouched => ?_⟩
  · rw [at?_overlay hsorted hv, overlay_of_not_isObject hplain]
  · exact at?_overlay_of_untouched hsorted huntouched (object base)
  · exact overlay_overlay hsorted (object base)
  · obtain ⟨document', hdocument', hs⟩ := Outcome.bind_eq_ok.1 (Outcome.mapError_eq_ok.1 hparse)
    obtain rfl := Except.ok.inj (hdocument.symm.trans hdocument')
    exact Settings.at?_toJson_of_untouched (Settings.sorted_of_parseDocument hdocument) hs huntouched

/-- Lists are replaced and tables are merged, and a setting is read beside untouched ones. -/
theorem Json.overlay_layered_outer :
    let base := [("list", Json.array [ofNat 1]), ("outer", object [("a", ofNat 1), ("b", ofNat 2)])]
    let layer := [("list", Json.array [ofNat 4]), ("outer", object [("b", ofNat 3)])]
    let laid := overlay (object base) (object layer)
    laid.at? ["list"] = some (.array [ofNat 4]) ∧ laid.at? ["outer", "b"] = some (ofNat 3) ∧
      laid.at? ["outer", "a"] = some (ofNat 1) ∧ overlay laid (object layer) = laid ∧
      ∃ document s, Settings.parseDocument .toml "tld_length = 2" = .ok document ∧
        Settings.parse .toml "tld_length = 2" = .ok s ∧ s.tldLength = 2 ∧
        s.toJson.at? ["default_url_options", "host"] = some .null := by
  intro base layer laid
  have hsorted : (object layer).Sorted := by
    have hcanonical : (object layer).canonical = object layer := rfl
    exact hcanonical ▸ sorted_canonical (object layer)
  obtain ⟨hlayers, hsettings⟩ := overlay_layered
  obtain ⟨hwritten, hkept, htwice⟩ := hlayers base layer hsorted
  have huntouched : (object layer).Untouched ["outer", "a"] :=
    (untouched_cons rfl).2 (untouched_of_lookup_eq_none rfl [])
  refine ⟨hwritten ["list"] _ rfl nofun, hwritten ["outer", "b"] _ rfl nofun,
    hkept ["outer", "a"] huntouched, htwice, ?_⟩
  have hread : (Settings.parse .toml "tld_length = 2").toOption.any (·.tldLength = 2) = true := by
    decide +kernel
  have hfields : (Settings.parseDocument .toml "tld_length = 2").toOption.any (fun d =>
      (d.at? ["default_url_options"]).isNone && (d.at? ["tld_length"]).isSome) = true := by
    decide +kernel
  obtain ⟨s, hs, htld⟩ := Outcome.exists_ok_of_any hread
  obtain ⟨document, hdocument, hfields⟩ := Outcome.exists_ok_of_any hfields
  rw [Bool.and_eq_true, Option.isNone_iff_eq_none] at hfields
  cases document with
  | object fields =>
      rw [at?_field] at hfields
      exact ⟨_, s, hdocument, hs, of_decide_eq_true htld,
        hsettings _ _ _ s hdocument hs _ (untouched_of_lookup_eq_none hfields.1 ["host"])⟩
  | _ => exact absurd hfields.2 Bool.false_ne_true

end RouteEngine
