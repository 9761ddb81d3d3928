import RoleResolution.Proofs.Search.Decision
import RoleResolution.Proofs.Search.Termination

/-!
# Grants and denials

A resolution grants by the least chain of conversions that ends in a granted role, whatever
branches failed before it, and by the first direct rule that applies there. It denies only when
no chain of any length ends in a granted role.
-/

namespace RoleResolution

variable {κ : Type} [DecidableEq κ] {K : KindSet κ}

namespace Resolver

/-- A resolution over deterministic functions that ends in a decision is decided by the first
chain that decides it. -/
theorem decides_of_ok (hK : K.Lawful) {r : Resolver K} (hR : r.registry.Complete)
    (hdet : r.registry.Deterministic) {required provided : Role κ} {t : CycleTracker κ}
    {resolution : Resolution κ}
    (h : (r.resolveWith required provided t).1 = .ok resolution) :
    ∃ visited finding, r.registry.Decides required t.visited provided visited finding ∧
      finding.resolution = .ok resolution := by
  have hs : (r.resolveWith required provided t).1 = _ :=
    (resolveIn_search hR required provided ⟨t, [], []⟩).1
  rw [h] at hs
  rcases search_ends hK hR required provided ⟨t, [], []⟩ with ⟨hf, -⟩ | ⟨examined, he⟩
  · -- a search that overruns its bound ends in a fault
    rw [Finding.resolution_eq_error.mpr hf] at hs
    cases hs
  · exact ⟨_, _, he.decides hR hdet, hs.symm⟩

/-- A grant comes from a chain of conversions along the reported path. The rule is the first
that applies at its end, and no earlier chain ends in a role that any rule grants. -/
theorem resolveWith_granted_least (hK : K.Lawful) {b : RegistryBuilder κ} {r : Resolver K}
    (hb : (b.build K).1 = .ok r.registry) (hdet : r.registry.Deterministic)
    {required provided : Role κ} {t : CycleTracker κ} {rule : MatchedRule} {path : List κ}
    (h : (r.resolveWith required provided t).1 = .ok (.granted rule path)) :
    ∃ chain w, Chain r.registry provided chain path w ∧
      r.registry.FirstApplies required w rule ∧
      ∀ earlier < chain, ¬ r.registry.Grants required provided earlier := by
  have hR := Registry.complete_of_build hK hb
  obtain ⟨visited, finding, hd, hr⟩ := decides_of_ok hK hR hdet h
  cases hd with
  | denied passes => cases hr
  | granted leads first least =>
    cases hr
    refine ⟨_, _, leads, first, ?_⟩
    intro earlier he
    exact (least earlier he).1
  | cycle repeats ungranted least => cases hr
  | fault => cases hr

end Resolver

open Rank in
/-- On the ladder a member is granted as an admin behind a branch that leads nowhere and a
conversion that declines. -/
theorem Rank.admin_granted :
    kinds.Lawful ∧ ((builder []).build kinds).1 = .ok (ladder []) ∧
      (ladder []).Deterministic ∧
      ((resolver []).resolveWith (.unit admin) (.unit member) {}).1 =
        .ok (.granted .identity [editor, admin]) ∧
      ∃ chain w, Chain (ladder []) (.unit member) chain [editor, admin] w ∧
        (ladder []).FirstApplies (.unit admin) w .identity ∧
        ∀ earlier < chain, ¬ (ladder []).Grants (.unit admin) (.unit member) earlier := by
  have hdet : (ladder []).Deterministic := deterministic_ladder (by simp)
  have h : ((resolver []).resolveWith (.unit admin) (.unit member) {}).1 =
      .ok (.granted .identity [editor, admin]) := rfl
  exact ⟨lawful_kinds, build_ladder, hdet, h,
    Resolver.resolveWith_granted_least lawful_kinds build_ladder hdet h⟩

namespace Resolver

/-- After a denial no chain of conversions, of any length and through any rules, ends in a role
that a direct rule grants. -/
theorem resolveWith_denied_exhaustive (hK : K.Lawful) {b : RegistryBuilder κ} {r : Resolver K}
    (hb : (b.build K).1 = .ok r.registry) (hdet : r.registry.Deterministic)
    {required provided : Role κ} {t : CycleTracker κ}
    (h : (r.resolveWith required provided t).1 = .ok .denied) {chain : List Nat}
    {path : List κ} {w : Role κ} (hc : Chain r.registry provided chain path w)
    (rule : MatchedRule) : ¬ r.registry.Applies required w rule := by
  have hR := Registry.complete_of_build hK hb
  obtain ⟨visited, finding, hd, hr⟩ := decides_of_ok hK hR hdet h
  cases hd with
  | denied passes =>
    intro ha
    apply (passes.undecided chain trivial).1
    exact ⟨path, w, hc, rule, ha⟩
  | granted leads first least => cases hr
  | cycle repeats ungranted least => cases hr
  | fault => cases hr

end Resolver

open Rank in
/-- On the ladder a member is denied as an owner, although an editor can be reached. -/
theorem Rank.owner_denied :
    kinds.Lawful ∧ ((builder []).build kinds).1 = .ok (ladder []) ∧
      (ladder []).Deterministic ∧
      ((resolver []).resolveWith (.unit owner) (.unit member) {}).1 = .ok .denied ∧
      Chain (ladder []) (.unit member) [1] [editor] (.unit editor) ∧
      ∀ rule, ¬ (ladder []).Applies (.unit owner) (.unit editor) rule := by
  have hdet : (ladder []).Deterministic := deterministic_ladder (by simp)
  have h : ((resolver []).resolveWith (.unit owner) (.unit member) {}).1 = .ok .denied := rfl
  have hs : (ladder []).Step (.unit member) 1 (.unit editor) :=
    ⟨_, always editor, .unit, rfl, rfl, rfl, rfl⟩
  have hc : Chain (ladder []) (.unit member) [1] [editor] (.unit editor) :=
    .cons hs (.nil (.unit editor))
  exact ⟨lawful_kinds, build_ladder, hdet, h, hc,
    Resolver.resolveWith_denied_exhaustive lawful_kinds build_ladder hdet h hc⟩

end RoleResolution
