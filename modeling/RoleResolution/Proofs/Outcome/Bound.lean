import RoleResolution.Proofs.Search.Termination

/-!
# The bound of a resolution

A tracker that entering kinds and resolutions leave has no repetition. From such a tracker a
resolution ends, and what it does is bounded by the conversion rules and the kinds that are not
visited yet, over cyclic conversions too.
-/

namespace RoleResolution

variable {κ : Type} [DecidableEq κ] {K : KindSet κ}

/-- The trackers that there can be: fresh ones, and those left by entering a kind or by a
resolution over a registry that was built. -/
inductive CycleTracker.Reachable (K : KindSet κ) : CycleTracker κ → Prop where
  | fresh : Reachable K {}
  | enter {t : CycleTracker κ} (kind : κ) (before : Reachable K t) :
      Reachable K (t.enter K kind).2
  | resolve {t : CycleTracker κ} {b : RegistryBuilder κ} {r : Resolver K}
      (built : (b.build K).1 = .ok r.registry) (required provided : Role κ)
      (before : Reachable K t) : Reachable K (r.resolveWith required provided t).2.tracker

/-- Entering a kind makes no repetition. -/
theorem CycleTracker.nodup_enter {t : CycleTracker κ} (hn : t.visited.Nodup) (kind : κ) :
    (t.enter K kind).2.visited.Nodup := by
  by_cases h : kind ∈ t.visited
  · rw [enter_visited h]
    exact hn
  · by_cases hl : t.visited.length < K.count
    · rw [enter_fresh h hl]
      exact nodup_fresh hn h
    · rw [enter_full h (by omega)]
      exact nodup_fresh hn h

/-- A tracker without repetitions has room for every kind of a lawful set. -/
theorem CycleTracker.enter_new (hK : K.Lawful) {t : CycleTracker κ} (hn : t.visited.Nodup)
    {kind : κ} (h : kind ∉ t.visited) : t.enter K kind = (.ok (), ⟨t.visited ++ [kind]⟩) := by
  have hl := hK.length_le_count (nodup_fresh hn h)
  rw [List.length_append, List.length_singleton] at hl
  exact enter_fresh h hl

/-- Entering a kind of a lawful set does not fault while the tracker has no repetition. -/
theorem CycleTracker.enter_ne_fault (hK : K.Lawful) {t : CycleTracker κ} (hn : t.visited.Nodup)
    (kind : κ) (fault : Fault) : (t.enter K kind).1 ≠ .error (.fault fault) := by
  by_cases h : kind ∈ t.visited
  · rw [enter_visited h]
    nofun
  · rw [enter_new hK hn h]
    nofun

/-- No tracker that there can be has a repetition. -/
theorem CycleTracker.Reachable.nodup (hK : K.Lawful) {t : CycleTracker κ}
    (h : Reachable K t) : t.visited.Nodup := by
  induction h with
  | fresh => exact List.nodup_nil
  | enter kind before ih => exact nodup_enter ih kind
  | resolve built required provided before ih =>
    have hR := Registry.complete_of_build hK built
    obtain ⟨examined, finding, s', he, -, ht, -⟩ :=
      Resolver.resolveWith_explores hK hR required provided ih
    obtain ⟨-, entered, calls, hw, -, -⟩ := he.work hK hR ih
    rw [ht]
    exact hw.fresh

namespace Resolver

/-- Over a registry that was built and from any tracker that there can be, the search of a
resolution ends, and without a fault. A search that ends has examined one role and at most one
more for every conversion rule of the kinds not visited before. No conversion rule is invoked
twice and none of a kind visited before, and the conversions on the way to a grant are at most
as many as the kinds that are listed but not visited. -/
theorem resolveWith_bounded (hK : K.Lawful) {b : RegistryBuilder κ} {r : Resolver K}
    (hb : (b.build K).1 = .ok r.registry) (required provided : Role κ) {t : CycleTracker κ}
    (ht : t.Reachable K) :
    (∃ examined finding s',
      Explores r.registry required provided ⟨t, [], []⟩ examined finding s' ∧
      (r.resolveWith required provided t).1 = finding.resolution ∧
      (r.resolveWith required provided t).2.history = s'.history) ∧
    (∀ fault, (r.resolveWith required provided t).1 ≠ .error (.fault fault)) ∧
    (∀ examined finding s',
      Explores r.registry required provided ⟨t, [], []⟩ examined finding s' →
      examined.length ≤ 1 + (r.registry.unvisitedRules t.visited).length) ∧
    (r.resolveWith required provided t).2.conversionCalls.Nodup ∧
    (∀ call ∈ (r.resolveWith required provided t).2.conversionCalls, call.1 ∉ t.visited) ∧
    ∀ resolution, (r.resolveWith required provided t).1 = .ok resolution →
      resolution.hops + t.depth ≤ K.count := by
  have hR := Registry.complete_of_build hK hb
  have hn := ht.nodup hK
  obtain ⟨examined, finding, s', he, hr, -, hh⟩ :=
    resolveWith_explores hK hR required provided hn
  obtain ⟨hf, entered, calls, hw, -, hp⟩ := he.work hK hR hn
  have hcalls : (r.resolveWith required provided t).2.conversionCalls = calls := by
    unfold Session.conversionCalls
    rw [hh]
    exact hw.invoked
  have hcount : t.depth + entered.length ≤ K.count := by
    have hv := hK.length_le_count hw.fresh
    rwa [hw.visited, List.length_append] at hv
  refine ⟨⟨examined, finding, s', he, hr, hh⟩, ?_, ?_, ?_, ?_, ?_⟩
  · intro fault hfault
    rw [hr, Finding.resolution_eq_error] at hfault
    exact hf fault hfault
  · intro examined finding s' he
    obtain ⟨-, entered, calls, hw, hl, -⟩ := he.work hK hR hn
    have hu : calls.length ≤ (r.registry.unvisitedRules t.visited).length :=
      (List.subperm_of_subset hw.once (hw.subset_unvisitedRules hK)).length_le
    omega
  · rw [hcalls]
    exact hw.once
  · intro call hc
    rw [hcalls] at hc
    exact hw.not_visited ((hw.source call hc).resolve_right id)
  · intro resolution hres
    rw [hr] at hres
    rw [Finding.hops_of_resolution hres]
    omega

end Resolver

open Rank in
/-- Resolutions on the ladder with a way back, from a tracker that has entered a rank. One runs into
a cycle. The other ends in a grant after two conversions, where four would be allowed, and examines
at most one role more than there are conversion rules of the ranks not visited before. -/
theorem Rank.loop_bounded :
    let cycle := (resolver [always member]).resolveWith (.unit owner) (.unit member) ⟨[owner]⟩
    let grant := (resolver [always member]).resolveWith (.unit guest) (.unit editor) ⟨[owner]⟩
    kinds.Lawful ∧ ((builder [always member]).build kinds).1 = .ok (ladder [always member]) ∧
      CycleTracker.Reachable kinds ⟨[owner]⟩ ∧
      cycle.2.conversionCalls.Nodup ∧ (∀ call ∈ cycle.2.conversionCalls, call.1 ∉ [owner]) ∧
      grant.1 = .ok (.granted .identity [admin, guest]) ∧
      (∃ examined finding s', Resolver.Explores (ladder [always member]) (.unit guest)
        (.unit editor) ⟨⟨[owner]⟩, [], []⟩ examined finding s' ∧ grant.1 = finding.resolution ∧
        examined.length ≤ 7) ∧
      (Resolution.granted .identity [admin, guest]).hops + CycleTracker.depth ⟨[owner]⟩ ≤
        kinds.count := by
  intro cycle grant
  have ht : CycleTracker.Reachable kinds ⟨[owner]⟩ := .enter owner .fresh
  have hb : ((builder [always member]).build kinds).1 =
      .ok (resolver [always member]).registry := build_loop
  obtain ⟨-, -, -, hnodup, hfresh, -⟩ :=
    Resolver.resolveWith_bounded lawful_kinds hb (.unit owner) (.unit member) ht
  obtain ⟨⟨examined, finding, s', he, hr, -⟩, -, hexamined, -, -, hhops⟩ :=
    Resolver.resolveWith_bounded lawful_kinds hb (.unit guest) (.unit editor) ht
  have hgrant : grant.1 = .ok (.granted .identity [admin, guest]) := rfl
  exact ⟨lawful_kinds, build_loop, ht, hnodup, hfresh, hgrant,
    ⟨examined, finding, s', he, hr, hexamined examined finding s' he⟩, hhops _ hgrant⟩

end RoleResolution
