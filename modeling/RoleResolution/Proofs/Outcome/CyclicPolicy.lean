import RoleResolution.Proofs.Conversion.Reach
import RoleResolution.Proofs.Search.Decision
import RoleResolution.Proofs.Search.Recording

/-!
# Cyclic policies

A search that finds nothing has tried every conversion of every role that it examined. When all
conversions apply, it has followed every way along the conversion rules to its end. So the ways from
the provided kind do end, and none of them comes to a kind that leads back to itself.
-/

namespace RoleResolution

variable {κ : Type} {K : KindSet κ}

/-- A conversion rule gives a payload, whatever was invoked before and whatever it is given. -/
def ConversionRule.Total (rule : ConversionRule κ) : Prop :=
  ∀ history payload, rule.conversion history payload ≠ none

namespace Registry

/-- All conversion rules of a registry are total. -/
def AlwaysConverts (R : Registry K) : Prop :=
  ∀ d ∈ R.definitions, ∀ rule ∈ d.conversions, rule.Total

/-- Every way along the conversion rules from a kind comes to an end. -/
def Ends (R : Registry K) (kind : κ) : Prop :=
  Acc (fun target source ↦ R.ConvertsTo source target) kind

variable {R : Registry K} {kind other : κ}

/-- The ways from a kind without conversions end at once. -/
theorem ends_of_not_converts (h : ¬ R.Converts kind) : R.Ends kind := by
  refine .intro kind fun target ht ↦ ?_
  obtain ⟨d, hd, rule, hrule, -⟩ := ht
  exact absurd ⟨d, hd, List.ne_nil_of_mem hrule⟩ h

/-- The ways from a kind end when those from all its targets do. -/
theorem ends_of_targets {d : RoleDefinition κ} (hd : R.lookup kind = .ok d)
    (h : ∀ rule ∈ d.conversions, R.Ends rule.targetKind) : R.Ends kind := by
  refine .intro kind fun target ht ↦ ?_
  obtain ⟨d', hd', rule, hrule, rfl⟩ := ht
  rw [hd] at hd'
  cases hd'
  exact h rule hrule

/-- Where the ways from a kind end, no kind on them leads back to itself. -/
theorem Ends.not_transGen (h : R.Ends kind)
    (hother : Relation.ReflTransGen R.ConvertsTo kind other) :
    ¬ Relation.TransGen R.ConvertsTo other other := by
  induction h with
  | intro kind _ ih =>
    rcases hother.cases_head with rfl | ⟨target, hstep, hrest⟩
    · -- a way back to the kind is a way from its first target to a kind that leads to itself
      intro hcycle
      obtain ⟨target, hstep, hrest⟩ := Relation.TransGen.head'_iff.mp hcycle
      exact ih target hstep hrest hcycle
    · exact ih target hstep hrest

end Registry

/-- A finding is nothing after a conversion just when it is nothing before. -/
theorem Finding.after_eq_none {kind : κ} {finding : Finding κ} :
    finding.after kind = .ok none ↔ finding = .ok none := by
  rcases finding with failure | _ | ⟨rule, path⟩
  · exact ⟨nofun, nofun⟩
  · exact Iff.rfl
  · exact ⟨nofun, nofun⟩

namespace Resolver

variable [DecidableEq κ] {R : Registry K} {required : Role κ}

mutual

/-- When all conversions apply, the ways from the kind of a role end if a search from the role
finds nothing. -/
theorem Explores.ends (hR : R.Complete) (hconv : R.AlwaysConverts) {provided : Role κ}
    {s s' : Session κ} {examined : List (Role κ)} {finding : Finding κ}
    (h : Explores R required provided s examined finding s') (hnone : finding = .ok none) :
    R.Ends provided.kind := by
  have hi := inspected hR required provided s
  match h with
  | .settled hs =>
    rw [hs, hnone] at hi
    cases hi with
    | barren unmatched unconverted tracker => exact Registry.ends_of_not_converts unconverted
  | .entered hs tried =>
    rw [hs] at hi
    cases hi with
    | entered unmatched lookup converts fresh tracker =>
      refine Registry.ends_of_targets lookup fun rule hrule ↦ ?_
      have htotal := hconv _ (Registry.mem_of_lookup lookup)
      obtain ⟨index, hindex⟩ := List.getElem?_of_mem hrule
      refine tried.ends hR hconv hnone ?_ (rule, index) (List.mem_zipIdx_iff_getElem?.mpr hindex)
      intro entry hentry
      exact htotal entry.1 (List.fst_mem_of_mem_zipIdx hentry)

/-- When all conversions apply, the ways from all their targets end if the trial of the conversions
finds nothing. -/
theorem ExploresRules.ends (hR : R.Complete) (hconv : R.AlwaysConverts) {owner : κ}
    {provided : Role κ} {rules : List (ConversionRule κ × Nat)} {s s' : Session κ}
    {examined : List (Role κ)} {finding : Finding κ}
    (h : ExploresRules R required owner provided rules s examined finding s')
    (hnone : finding = .ok none) (htotal : ∀ entry ∈ rules, entry.1.Total) :
    ∀ entry ∈ rules, R.Ends entry.1.targetKind := by
  match h with
  | .done => exact fun entry hentry ↦ nomatch hentry
  | .declined attempted rest =>
    obtain ⟨answer, hanswer, hdeclined, -⟩ := attempt_history attempted
    rw [Option.map_eq_none_iff.mp hdeclined.symm] at hanswer
    exact absurd hanswer (htotal _ List.mem_cons_self _ _)
  | .fruitless attempted inner rest =>
    have hfirst := inner.ends hR hconv rfl
    have hrest := rest.ends hR hconv hnone (List.forall_mem_cons.mp htotal).2
    obtain ⟨answer, -, hconverted, -⟩ := attempt_history attempted
    obtain ⟨payload, -, rfl⟩ := Option.map_eq_some_iff.mp hconverted.symm
    exact List.forall_mem_cons.mpr ⟨hfirst, hrest⟩
  | .decided attempted inner decisive =>
    exact absurd (Finding.after_eq_none.mp hnone) decisive

end

/-- When every conversion of a registry that was built applies, a check from a kind that leads back
to itself, or that leads to such a kind, is not denied: it is granted or it runs into a cycle. So it
runs into a cycle, with deterministic functions, if no chain of conversions is granted. -/
theorem resolve_of_cyclic (hK : K.Lawful) {b : RegistryBuilder κ} {r : Resolver K}
    (hb : (b.build K).1 = .ok r.registry) (hconv : r.registry.AlwaysConverts)
    (required provided : Role κ) {kind : κ}
    (hkind : kind = provided.kind ∨ r.registry.graph.canReach K provided.kind kind = .ok true)
    (hcycle : r.registry.graph.canReach K kind kind = .ok true) :
    ((∃ rule path, (r.resolve required provided).1 = .ok (.granted rule path)) ∨
      ∃ e, (r.resolve required provided).1 = .error (.error e)) ∧
    (r.registry.Deterministic → (∀ chain, ¬ r.registry.Grants required provided chain) →
      ∃ e, (r.resolve required provided).1 = .error (.error e)) := by
  have hR := Registry.complete_of_build hK hb
  have hg := Registry.length_edges_of_build hb
  rw [ConversionGraph.canReach_iff hK hg, Registry.edge_graph] at hkind hcycle
  have hreach : Relation.ReflTransGen r.registry.ConvertsTo provided.kind kind := by
    rcases hkind with rfl | hlead
    · exact .refl
    · exact hlead.to_reflTransGen
  have hn : ({} : CycleTracker κ).visited.Nodup := List.nodup_nil
  obtain ⟨examined, finding, s', he, hr, -, -⟩ := resolveWith_explores hK hR required provided hn
  have hf := (he.work hK hR hn).1
  rcases finding with (e | fault) | _ | ⟨rule, path⟩
  · exact ⟨.inr ⟨e, hr⟩, fun _ _ ↦ ⟨e, hr⟩⟩
  · exact absurd rfl (hf fault)
  · exact absurd hcycle ((he.ends hR hconv rfl).not_transGen hreach)
  · refine ⟨.inl ⟨rule, path, hr⟩, fun hdet hungranted ↦ ?_⟩
    cases he.decides hR hdet with
    | @granted chain _ w _ leads first least =>
      exact absurd ⟨path, w, leads, rule, first.1⟩ (hungranted chain)

end Resolver

namespace Rank

/-- The editor and the member are converted into each other, and the admin leads there behind a
branch that ends. -/
def roundabout : RegistryBuilder Rank where
  definitions := [
    RoleDefinition.ofKind guest,
    { RoleDefinition.ofKind member with conversions := [always editor] },
    { RoleDefinition.ofKind editor with conversions := [always guest, always member] },
    { RoleDefinition.ofKind admin with conversions := [always guest, always editor] },
    RoleDefinition.ofKind owner]

/-- All conversions of the roundabout apply. -/
theorem alwaysConverts_roundabout :
    Registry.AlwaysConverts (K := kinds) ⟨roundabout.definitions⟩ := by
  intro d hd
  simp only [roundabout, List.mem_cons, List.not_mem_nil, or_false] at hd
  rcases hd with rfl | rfl | rfl | rfl | rfl <;>
    simp [RoleDefinition.ofKind, ConversionRule.Total, always]

/-- The functions of the roundabout are deterministic. -/
theorem deterministic_roundabout :
    Registry.Deterministic (K := kinds) ⟨roundabout.definitions⟩ := by
  intro d hd
  simp only [roundabout, List.mem_cons, List.not_mem_nil, or_false] at hd
  rcases hd with rfl | rfl | rfl | rfl | rfl <;>
    constructor <;> simp [RoleDefinition.ofKind, Conversion.Deterministic, always]

/-- On the roundabout no conversions lead from an admin to an owner, and only an owner is one. -/
theorem not_grants_roundabout (chain : List Nat) :
    ¬ Registry.Grants (K := kinds) ⟨roundabout.definitions⟩ (.unit owner) (.unit admin) chain := by
  let R : Registry kinds := ⟨roundabout.definitions⟩
  have hb : (roundabout.build kinds).1 = .ok R := rfl
  rintro ⟨path, w, hc, rule, d, hd, happlies⟩
  have hkind : w.kind ≠ owner := by
    intro hw
    rcases Relation.reflTransGen_iff_eq_or_transGen.mp hc.reflTransGen with heq | hlead
    · rw [hw] at heq
      cases heq
    · rw [hw, ← Registry.edge_graph] at hlead
      have hnot : R.graph.canReach kinds admin owner = .ok false := rfl
      rw [ConversionGraph.not_canReach_iff lawful_kinds (Registry.length_edges_of_build hb)] at hnot
      exact hnot hlead
  cases hd
  cases rule with
  | identity => exact hkind (of_decide_eq_true (Bool.and_eq_true_iff.mp happlies).1).symm
  | unconditionalPass => cases happlies
  | attributeRule index =>
    obtain ⟨rule, hrule, -⟩ := happlies
    cases hrule
  | delegatedPredicate index =>
    obtain ⟨rule, hrule, -⟩ := happlies
    cases hrule

/-- The check whether an admin is an owner goes round in circles, and it ends in an error. The one
whether an admin is a member is granted on the way. -/
theorem admin_in_circles :
    ∃ r : Resolver kinds, kinds.Lawful ∧ (roundabout.build kinds).1 = .ok r.registry ∧
      r.registry.AlwaysConverts ∧ r.registry.Deterministic ∧
      r.registry.graph.canReach kinds admin member = .ok true ∧
      r.registry.graph.canReach kinds member member = .ok true ∧
      (∃ e, (r.resolve (.unit owner) (.unit admin)).1 = .error (.error e)) ∧
      ((∃ rule path, (r.resolve (.unit member) (.unit admin)).1 = .ok (.granted rule path)) ∨
        ∃ e, (r.resolve (.unit member) (.unit admin)).1 = .error (.error e)) ∧
      (r.resolve (.unit member) (.unit admin)).1 = .ok (.granted .identity [editor, member]) := by
  let r : Resolver kinds := ⟨⟨roundabout.definitions⟩, {}⟩
  have hb : (roundabout.build kinds).1 = .ok r.registry := rfl
  have hkind : r.registry.graph.canReach kinds admin member = .ok true := rfl
  have hcycle : r.registry.graph.canReach kinds member member = .ok true := rfl
  obtain ⟨-, howner⟩ := Resolver.resolve_of_cyclic lawful_kinds hb alwaysConverts_roundabout
    (.unit owner) (.unit admin) (.inr hkind) hcycle
  obtain ⟨hmember, -⟩ := Resolver.resolve_of_cyclic lawful_kinds hb alwaysConverts_roundabout
    (.unit member) (.unit admin) (.inr hkind) hcycle
  exact ⟨r, lawful_kinds, hb, alwaysConverts_roundabout, deterministic_roundabout, hkind, hcycle,
    howner deterministic_roundabout not_grants_roundabout, hmember, rfl⟩

end Rank
end RoleResolution
