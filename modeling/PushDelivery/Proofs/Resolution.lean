import Mathlib.Data.List.Perm.Basic
import PushDelivery.Model

/-!
# The chosen provider

A provider that is chosen for an endpoint is one of the candidates: it is among those that the
choice was made from, it belongs to the endpoint's service and type, and it has the name that the
endpoint asks for. An endpoint that asks for it by name gets it as well, however it was chosen.

The second part says for every list of providers which one is chosen, or why none is. Other
providers than the candidates have no part in it.
-/

namespace PushDelivery.Endpoint

variable {e : Endpoint} {providers providers' : List Provider} {p : Provider} {name : String}
  {cause : ResolveError}

theorem mem_candidates_of_resolve (h : e.resolve providers = .ok p) :
    p ∈ providers.filter e.admits := by
  simp only [resolve] at h
  split at h
  next name hname =>
    split at h
    next hfind =>
      cases h
      exact List.mem_of_find?_eq_some hfind
    next => cases h
  next hname =>
    split at h
    next hc =>
      cases h
      rw [hc]
      exact List.mem_singleton.mpr rfl
    next => cases h
    next => cases h

theorem mem_of_resolve (h : e.resolve providers = .ok p) : p ∈ providers :=
  (List.mem_filter.mp (mem_candidates_of_resolve h)).1

theorem admits_iff : e.admits p = true ↔
    p.serviceId = e.serviceId ∧ p.providerType = e.providerType := by
  simp [admits]

theorem admits_of_resolve (h : e.resolve providers = .ok p) :
    p.serviceId = e.serviceId ∧ p.providerType = e.providerType :=
  admits_iff.mp (List.mem_filter.mp (mem_candidates_of_resolve h)).2

theorem name_of_resolve (h : e.resolve providers = .ok p)
    (hname : e.providerName = some name) : p.name = name := by
  simp only [resolve, hname] at h
  split at h
  next hfind =>
    cases h
    simpa using List.find?_some hfind
  next => cases h

/-- The chosen provider is the first candidate of its name, or the only candidate. -/
theorem find?_name_of_resolve (h : e.resolve providers = .ok p) :
    (providers.filter e.admits).find? (·.name = p.name) = some p := by
  cases hname : e.providerName with
  | some name =>
    have hp := name_of_resolve h hname
    simp only [resolve, hname] at h
    split at h
    next hfind =>
      cases h
      rw [hp]
      exact hfind
    next => cases h
  | none =>
    simp only [resolve, hname] at h
    split at h
    next hc =>
      cases h
      simp [hc]
    next => cases h
    next => cases h

/-- A provider that is chosen for some endpoint is chosen for all of its service and type that ask
for it by name. -/
theorem resolve_of_name {e' : Endpoint} (h : e.resolve providers = .ok p)
    (hservice : e'.serviceId = p.serviceId) (htype : e'.providerType = p.providerType)
    (hname : e'.providerName = some p.name) : e'.resolve providers = .ok p := by
  have hadmits : e'.admits = e.admits := by
    obtain ⟨hservice', htype'⟩ := admits_of_resolve h
    funext q
    simp [admits, hservice, htype, hservice', htype']
  simp only [resolve, hname, hadmits, find?_name_of_resolve h]

/-! ## The choice -/

/-- The providers of the endpoint's service and type, in their order. -/
def candidates (e : Endpoint) (providers : List Provider) : List Provider :=
  providers.filter fun p => p.serviceId = e.serviceId ∧ p.providerType = e.providerType

theorem filter_admits (e : Endpoint) (providers : List Provider) :
    providers.filter e.admits = e.candidates providers := by
  apply List.filter_congr
  intro p _
  simp [admits]

/-- A choice by name takes the first candidate of the name, if there is one. -/
theorem resolve_eq_ok_iff_of_name (hname : e.providerName = some name) :
    e.resolve providers = .ok p ↔ ∃ before after, e.candidates providers = before ++ p :: after ∧
      p.name = name ∧ ∀ q ∈ before, q.name ≠ name := by
  have hfind : e.resolve providers = .ok p ↔
      (e.candidates providers).find? (·.name = name) = some p := by
    simp only [resolve, hname, filter_admits]
    split <;> simp [*]
  rw [hfind, List.find?_eq_some_iff_append]
  simp only [decide_eq_true_eq, Bool.not_eq_true', decide_eq_false_iff_not]
  constructor
  · rintro ⟨hp, before, after, hc, hbefore⟩
    exact ⟨before, after, hc, hp, hbefore⟩
  · rintro ⟨before, after, hc, hp, hbefore⟩
    exact ⟨hp, before, after, hc, hbefore⟩

theorem resolve_eq_error_iff_of_name (hname : e.providerName = some name) :
    e.resolve providers = .error cause ↔
      cause = .providerNotFound e.serviceId e.providerType name ∧
        ∀ p ∈ e.candidates providers, p.name ≠ name := by
  have hfind : e.resolve providers = .error cause ↔
      cause = .providerNotFound e.serviceId e.providerType name ∧
        (e.candidates providers).find? (·.name = name) = none := by
    simp only [resolve, hname, filter_admits]
    split <;> simp [*, @eq_comm _ cause]
  rw [hfind, List.find?_eq_none]
  simp only [decide_eq_true_eq, ne_eq]

theorem resolve_eq_ok_iff_of_none (hname : e.providerName = none) :
    e.resolve providers = .ok p ↔ e.candidates providers = [p] := by
  simp only [resolve, hname, filter_admits]
  split <;> simp [*]

theorem resolve_eq_error_iff_of_none (hname : e.providerName = none) :
    e.resolve providers = .error cause ↔
      cause = .noProviderConfigured e.serviceId e.providerType ∧ e.candidates providers = [] ∨
      cause = .ambiguousProvider e.serviceId e.providerType (e.candidates providers).length ∧
        2 ≤ (e.candidates providers).length := by
  simp only [resolve, hname, filter_admits]
  split <;> simp [*, @eq_comm _ cause]

/-- Nothing but the candidates matters to the choice. -/
theorem resolve_congr (h : e.candidates providers' = e.candidates providers) :
    e.resolve providers' = e.resolve providers := by
  simp only [resolve, filter_admits, h]

theorem candidates_insert {others : List Provider}
    (h : ∀ p ∈ others, ¬ (p.serviceId = e.serviceId ∧ p.providerType = e.providerType))
    (before after : List Provider) :
    e.candidates (before ++ others ++ after) = e.candidates (before ++ after) := by
  have hnone : e.candidates others = [] := by
    rw [candidates, List.filter_eq_nil_iff]
    simpa using h
  rw [candidates] at hnone
  simp only [candidates, List.filter_append, hnone, List.append_nil]

/-- The order of the candidates decides only between several of the name that is asked for. -/
theorem resolve_perm (hperm : providers'.Perm providers)
    (h : ∀ name, e.providerName = some name →
      ∀ p ∈ e.candidates providers, ∀ q ∈ e.candidates providers,
        p.name = name → q.name = name → p = q) :
    e.resolve providers' = e.resolve providers := by
  have hc : (e.candidates providers').Perm (e.candidates providers) := hperm.filter _
  cases hresult : e.resolve providers with
  | ok p =>
    cases hname : e.providerName with
    | none =>
      rw [resolve_eq_ok_iff_of_none hname] at hresult ⊢
      rw [hresult] at hc
      exact List.perm_singleton.mp hc
    | some name =>
      obtain ⟨before, after, hbefore, hp, -⟩ := (resolve_eq_ok_iff_of_name hname).mp hresult
      have hmem : p ∈ e.candidates providers := by simp [hbefore]
      -- Whatever is chosen from the other list is a candidate of the name, so it is the same one.
      cases hresult' : e.resolve providers' with
      | ok q =>
        obtain ⟨before', after', hbefore', hq, -⟩ := (resolve_eq_ok_iff_of_name hname).mp hresult'
        have hmem' : q ∈ e.candidates providers := hc.subset (by simp [hbefore'])
        rw [h name hname p hmem q hmem' hp hq]
      | error cause =>
        have hnone := ((resolve_eq_error_iff_of_name hname).mp hresult').2
        exact (hnone p (hc.symm.subset hmem) hp).elim
  | error cause =>
    cases hname : e.providerName with
    | none =>
      rw [resolve_eq_error_iff_of_none hname] at hresult ⊢
      rw [← List.length_eq_zero_iff] at hresult ⊢
      rwa [hc.length_eq]
    | some name =>
      rw [resolve_eq_error_iff_of_name hname] at hresult ⊢
      exact ⟨hresult.1, fun p hp => hresult.2 p (hc.subset hp)⟩

/-- The choice of a provider, exactly. It goes by the candidates alone, and by their order only if
several of them have the name that is asked for. -/
theorem resolves_exactly (e : Endpoint) (providers : List Provider) :
    (∀ name, e.providerName = some name →
      (∀ p, e.resolve providers = .ok p ↔ ∃ before after,
        e.candidates providers = before ++ p :: after ∧ p.name = name ∧
          ∀ q ∈ before, q.name ≠ name) ∧
      (∀ cause, e.resolve providers = .error cause ↔
        cause = .providerNotFound e.serviceId e.providerType name ∧
          ∀ p ∈ e.candidates providers, p.name ≠ name)) ∧
    (e.providerName = none →
      (∀ p, e.resolve providers = .ok p ↔ e.candidates providers = [p]) ∧
      (∀ cause, e.resolve providers = .error cause ↔
        cause = .noProviderConfigured e.serviceId e.providerType ∧ e.candidates providers = [] ∨
        cause = .ambiguousProvider e.serviceId e.providerType (e.candidates providers).length ∧
          2 ≤ (e.candidates providers).length)) ∧
    (∀ before others after, providers = before ++ others ++ after →
      (∀ p ∈ others, ¬ (p.serviceId = e.serviceId ∧ p.providerType = e.providerType)) →
        e.resolve (before ++ after) = e.resolve providers) ∧
    (∀ providers', providers'.Perm providers →
      (∀ name, e.providerName = some name →
        ∀ p ∈ e.candidates providers, ∀ q ∈ e.candidates providers,
          p.name = name → q.name = name → p = q) →
        e.resolve providers' = e.resolve providers) := by
  refine ⟨fun name hname => ⟨fun p => ?_, fun cause => ?_⟩,
    fun hname => ⟨fun p => ?_, fun cause => ?_⟩, fun before others after hall hothers => ?_,
    fun providers' hperm hone => ?_⟩
  · exact resolve_eq_ok_iff_of_name hname
  · exact resolve_eq_error_iff_of_name hname
  · exact resolve_eq_ok_iff_of_none hname
  · exact resolve_eq_error_iff_of_none hname
  · rw [hall]
    exact resolve_congr (candidates_insert hothers before after).symm
  · exact resolve_perm hperm hone

/-- Of two candidates one is asked for by name, and a name that only a provider of another type has
is not found. Without a name neither is chosen. -/
theorem resolves_exactly_of_two :
    let a : Provider := ⟨1, 10, "main", "gcm", ∅⟩
    let b : Provider := ⟨2, 10, "prod", "apns", ∅⟩
    let c : Provider := ⟨2, 10, "sandbox", "apns", ∅⟩
    let e : Endpoint := ⟨10, "apns", "k", none, ∅⟩
    (e.withProviderName "sandbox").resolve [b, a, c] = .ok c ∧
      (e.withProviderName "main").resolve [b, a, c] =
        .error (.providerNotFound 10 "apns" "main") ∧
      e.resolve [b, a, c] = .error (.ambiguousProvider 10 "apns" 2) ∧
      e.resolve [b, c] = e.resolve [b, a, c] ∧
      (e.withProviderName "sandbox").resolve [c, b, a] =
        (e.withProviderName "sandbox").resolve [b, a, c] := by
  intro a b c e
  have hcandidates : e.candidates [b, a, c] = [b, c] := by decide
  obtain ⟨hnamed, -, -, hperm⟩ := resolves_exactly (e.withProviderName "sandbox") [b, a, c]
  obtain ⟨hmissing, -⟩ := resolves_exactly (e.withProviderName "main") [b, a, c]
  obtain ⟨-, hdefault, hothers, -⟩ := resolves_exactly e [b, a, c]
  refine ⟨?_, ?_, ?_, ?_, ?_⟩
  · exact ((hnamed "sandbox" rfl).1 c).mpr ⟨[b], [], hcandidates, rfl, by decide⟩
  · exact ((hmissing "main" rfl).2 _).mpr ⟨rfl, by decide⟩
  · exact ((hdefault rfl).2 _).mpr (.inr ⟨rfl, by decide⟩)
  · exact hothers [b] [a] [c] rfl (by decide)
  · refine hperm [c, b, a] (by decide) fun name hname => ?_
    cases hname
    decide

end PushDelivery.Endpoint
