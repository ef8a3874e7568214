import RouteEngine.Proofs.Text.Split
import RouteEngine.Request.Basic

/-!
The labels of a host. The domain is cut from the end of the list of labels and the subdomain is
what stands before it, each with a length test of its own. However many labels there are, and
whether some of them are empty, the two cuts meet at one place (`domain_of_labels`), so that every
label of the host is in one of the two parts and in its place there (`labels_divided`). The
greatest length of an ending is the exception: a host has no domain for it, and the number of
labels that the subdomain is to leave out does not fit a word.
-/

namespace RouteEngine

open Text

/-- The labels of a host, or of a part of it. The empty text has one, which is empty. -/
def labelsOf (host : String) : List (List Char) := pieces '.' host.toList

theorem labelsOf_join {labels : List (List Char)} (hne : labels ≠ [])
    (hpoint : ∀ label ∈ labels, '.' ∉ label) :
    labelsOf (String.ofList (join ['.'] labels)) = labels := by
  rw [labelsOf, String.toList_ofList, pieces_join hne hpoint]

namespace Word

theorem add_one_of_lt {a : UInt64} (h : a.toNat < maxCount) :
    add a 1 = .returned (a + 1) ∧ (a + 1).toNat = a.toNat + 1 := by
  have hsize : a.toNat + 1 < UInt64.size := Nat.succ_lt_succ h
  refine ⟨if_pos h, ?_⟩
  rw [UInt64.toNat_add]
  exact Nat.mod_eq_of_lt hsize

/-- One more than the greatest word is none, or nothing. -/
theorem add_one_of_eq {a : UInt64} (h : a.toNat = maxCount) :
    add a 1 = .panicked overflow ∧ (a + 1).toNat = 0 := by
  have htoo : ¬ a.toNat + (1 : UInt64).toNat ≤ maxCount := by
    rw [h]
    decide
  refine ⟨if_neg htoo, ?_⟩
  rw [UInt64.toNat_add, h]
  rfl

theorem toNat_le_maxCount (a : UInt64) : a.toNat ≤ maxCount := Nat.le_of_lt_succ a.toNat_lt

end Word

namespace Request

variable {r : Request} {tldLength : UInt64}

theorem host_eq_join (r : Request) : r.host = String.ofList (join ['.'] r.labels) := by
  rw [labels, join_pieces, String.ofList_toList]

theorem domain_eq_none_iff :
    r.domain tldLength = none ↔
      r.hostIsAddress = true ∨ (labelsOf r.host).length ≤ tldLength.toNat := by
  have hlabels : labelsOf r.host = r.labels := rfl
  rw [hlabels]
  unfold domain
  split
  · next h => exact ⟨fun _ => by simpa using h, fun _ => rfl⟩
  · next h =>
      refine ⟨nofun, fun hnone => absurd ?_ h⟩
      simpa using hnone

/-- Where sums are checked, a subdomain is what it is without checks, or there is none. -/
theorem subdomain_eq (r : Request) (tldLength : UInt64) :
    r.subdomain tldLength =
      if r.hostIsAddress = true ∨ tldLength.toNat < maxCount then
        .returned (r.uncheckedSubdomain tldLength)
      else .panicked Word.overflow := by
  by_cases haddress : r.hostIsAddress = true
  · simp [subdomain, uncheckedSubdomain, haddress]
  by_cases hlt : tldLength.toNat < maxCount
  · simp [subdomain, uncheckedSubdomain, haddress, hlt, (Word.add_one_of_lt hlt).1, Outcome.map]
  · have hgreatest : tldLength.toNat = maxCount :=
      Nat.le_antisymm (Word.toNat_le_maxCount tldLength) (Nat.le_of_not_lt hlt)
    simp [subdomain, haddress, hlt, (Word.add_one_of_eq hgreatest).1, Outcome.map]

theorem labelsBefore_of_few {keep : UInt64} (h : r.labels.length ≤ keep.toNat) :
    r.labelsBefore keep = "" := if_pos h

theorem uncheckedSubdomain_of_few (h : r.domain tldLength = none)
    (hlt : r.hostIsAddress = true ∨ tldLength.toNat < maxCount) :
    r.uncheckedSubdomain tldLength = "" := by
  by_cases haddress : r.hostIsAddress = true
  · simp [uncheckedSubdomain, haddress]
  · have hkeep := (Word.add_one_of_lt (hlt.resolve_left haddress)).2
    have hfew : r.labels.length ≤ tldLength.toNat :=
      (domain_eq_none_iff.1 h).resolve_left haddress
    rw [uncheckedSubdomain, if_neg haddress, labelsBefore_of_few (by omega)]

/-- Without checks, the greatest length leaves nothing out. -/
theorem uncheckedSubdomain_of_greatest (haddress : r.hostIsAddress = false)
    (h : tldLength.toNat = maxCount) : r.uncheckedSubdomain tldLength = r.host := by
  have hkeep := (Word.add_one_of_eq h).2
  have hsome : 0 < r.labels.length := List.length_pos_iff.2 (pieces_ne_nil '.' r.host.toList)
  rw [uncheckedSubdomain, haddress, if_neg Bool.false_ne_true, labelsBefore, hkeep,
    if_neg (by omega), Nat.sub_zero, List.take_length, ← host_eq_join]

/-- Both parts are cut at the same label. -/
theorem domain_of_labels {before last : List (List Char)} (haddress : r.hostIsAddress = false)
    (hlt : tldLength.toNat < maxCount) (hlabels : r.labels = before ++ last)
    (hlast : last.length = tldLength.toNat + 1) :
    r.domain tldLength = some (String.ofList (join ['.'] last)) ∧
      r.uncheckedSubdomain tldLength = String.ofList (join ['.'] before) := by
  have hlength : r.labels.length = before.length + (tldLength.toNat + 1) := by
    rw [hlabels, List.length_append, hlast]
  have hcut : r.labels.length - (tldLength.toNat + 1) = before.length := by omega
  have hmany : ¬ r.labels.length ≤ tldLength.toNat := by omega
  have htake : r.labels.take before.length = before := by rw [hlabels, List.take_left]
  have hdrop : r.labels.drop before.length = last := by rw [hlabels, List.drop_left]
  refine ⟨by simp [domain, haddress, hmany, hcut, hdrop], ?_⟩
  rw [uncheckedSubdomain, haddress, if_neg Bool.false_ne_true]
  have hkeep := (Word.add_one_of_lt hlt).2
  cases before with
  | nil =>
      rw [labelsBefore_of_few (by rw [hlength, hkeep, List.length_nil]; omega)]
      rfl
  | cons label before =>
      have hmore : ¬ r.labels.length ≤ (tldLength + 1).toNat := by
        rw [hlength, hkeep, List.length_cons]
        omega
      rw [labelsBefore, if_neg hmore, hkeep, hcut, htake]

/-- How a domain and a subdomain share the labels of a host between them. -/
def Divides (host : String) (tldLength : Nat) (sub : String) : Option String → Prop
  | none => sub = ""
  | some d =>
    (labelsOf d).length = tldLength + 1 ∧
      (host = d ∧ sub = "" ∨
        host = sub ++ "." ++ d ∧ labelsOf host = labelsOf sub ++ labelsOf d)

theorem divides_of_lt (h : r.hostIsAddress = true ∨ tldLength.toNat < maxCount) :
    Divides r.host tldLength.toNat (r.uncheckedSubdomain tldLength) (r.domain tldLength) := by
  by_cases hnone : r.domain tldLength = none
  · rw [hnone]
    exact uncheckedSubdomain_of_few hnone h
  have hmany := mt domain_eq_none_iff.2 hnone
  rw [not_or, Bool.not_eq_true, Nat.not_le] at hmany
  obtain ⟨haddress, hmany⟩ := hmany
  obtain ⟨before, last, hlabels, hlast⟩ :
      ∃ before last, r.labels = before ++ last ∧ last.length = tldLength.toNat + 1 := by
    refine ⟨_, _,
      (List.take_append_drop (r.labels.length - (tldLength.toNat + 1)) r.labels).symm, ?_⟩
    rw [List.length_drop]
    change tldLength.toNat < r.labels.length at hmany
    omega
  have hlt : tldLength.toNat < maxCount := h.resolve_left (by simp [haddress])
  obtain ⟨hdomain, hsubdomain⟩ := domain_of_labels haddress hlt hlabels hlast
  have hpoint : ∀ label ∈ r.labels, '.' ∉ label := fun label h => not_mem_of_mem_pieces h
  rw [hlabels] at hpoint
  obtain ⟨hbefore, hbehind⟩ := List.forall_mem_append.1 hpoint
  have hne : last ≠ [] := List.ne_nil_of_length_eq_add_one hlast
  rw [hdomain, hsubdomain]
  refine ⟨by rw [labelsOf_join hne hbehind, hlast], ?_⟩
  by_cases hwhole : before = []
  · refine .inl ⟨?_, by rw [hwhole]; rfl⟩
    rw [host_eq_join, hlabels, hwhole, List.nil_append]
  · refine .inr ⟨?_, ?_⟩
    · rw [host_eq_join, hlabels, join_append ['.'] hwhole hne, String.ofList_append,
        String.ofList_append]
    · rw [labelsOf_join hwhole hbefore, labelsOf_join hne hbehind, ← hlabels]
      rfl

/-- There is no domain exactly for an address and for too few labels. Unless the length is the
greatest and the host no address, there is a subdomain, with or without checks; it is empty where
there is no domain. Otherwise the domain has one label more than the length of its ending, and it
is the host, or what follows the subdomain and a dot: the labels of the host are those of the two
parts, one after the other. For the greatest length a build that checks its sums ends in a panic,
and one that does not has the whole host for a subdomain. -/
theorem labels_divided (r : Request) (tldLength : UInt64) :
    (r.domain tldLength = none ↔
      r.hostIsAddress = true ∨ (labelsOf r.host).length ≤ tldLength.toNat) ∧
    if r.hostIsAddress = true ∨ tldLength.toNat < maxCount then
      ∃ sub, r.subdomain tldLength = .returned sub ∧ r.uncheckedSubdomain tldLength = sub ∧
        Divides r.host tldLength.toNat sub (r.domain tldLength)
    else
      r.subdomain tldLength = .panicked "attempt to add with overflow" ∧
        r.uncheckedSubdomain tldLength = r.host := by
  refine ⟨domain_eq_none_iff, ?_⟩
  split
  · next h =>
      exact ⟨r.uncheckedSubdomain tldLength, by rw [subdomain_eq, if_pos h], rfl, divides_of_lt h⟩
  · next h =>
      rw [not_or, Bool.not_eq_true] at h
      have hgreatest : tldLength.toNat = maxCount :=
        Nat.le_antisymm (Word.toNat_le_maxCount tldLength) (Nat.le_of_not_lt h.2)
      have hneither : ¬ (r.hostIsAddress = true ∨ tldLength.toNat < maxCount) := by
        simp [h.1, hgreatest]
      exact ⟨by rw [subdomain_eq, if_neg hneither]; rfl,
        uncheckedSubdomain_of_greatest h.1 hgreatest⟩

/-- The greatest length, which a host of two labels has no domain for. -/
theorem labels_undivided :
    let r : Request := { host := "example.com" }
    r.hostIsAddress = false ∧ r.domain 18446744073709551615 = none ∧
      (∀ sub, r.subdomain 18446744073709551615 ≠ .returned sub) ∧
      r.uncheckedSubdomain 18446744073709551615 = "example.com" := by
  intro r
  have hpanic : r.subdomain 18446744073709551615 = .panicked Word.overflow := by decide +kernel
  refine ⟨by decide +kernel, by decide +kernel, fun sub h => ?_, by decide +kernel⟩
  rw [hpanic] at h
  cases h

-- An empty label counts as any other.
example :
    let r : Request := { host := "..example" }
    r.domain 1 = some ".example" ∧ r.subdomain 1 = .returned "" ∧
      r.labels = [[], [], "example".toList] := by
  decide +kernel

end Request

end RouteEngine
