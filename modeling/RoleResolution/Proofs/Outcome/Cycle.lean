import RoleResolution.Proofs.Search.Decision
import RoleResolution.Proofs.Search.Termination

/-!
# Cycle errors

A resolution with a fresh tracker runs into a cycle exactly when two chains lead to the same
kind with conversions before any chain is granted. The chains may be a loop and its beginning
or two branches that meet; over a registry without conversion cycles they are branches.
-/

namespace RoleResolution

variable {κ : Type} {K : KindSet κ}

namespace Registry

section Loop

variable {R : Registry K} {provided : Role κ} {chain other : List Nat} {kind : κ}

/-- Without conversion cycles no chain leads to a kind that a beginning of it leads to. -/
theorem not_prefix_of_acyclic (h : ∀ kind, ¬ Relation.TransGen R.ConvertsTo kind kind)
    (hne : chain ≠ other) (hc : R.LeadsTo provided chain kind)
    (ho : R.LeadsTo provided other kind) : ¬ chain <+: other := by
  rintro ⟨rest, rfl⟩
  obtain ⟨path, u, hu, rfl⟩ := hc
  obtain ⟨path', w, hw, hk⟩ := ho
  obtain ⟨u', front, back, hfront, hback⟩ := hw.of_append
  obtain ⟨-, rfl⟩ := hu.unique hfront
  cases rest with
  | nil => exact hne (List.append_nil chain).symm
  | cons index rest =>
    have hloop := hback.transGen
    rw [hk] at hloop
    exact h _ hloop

end Loop

variable [DecidableEq κ]

/-- Two chains, the earlier and the later one, lead to the same kind, which has conversions,
and no chain up to the later one ends in a granted role. -/
structure Collides (R : Registry K) (required provided : Role κ) (earlier later : List Nat)
    (kind : κ) : Prop where
  before : earlier < later
  first : R.LeadsTo provided earlier kind
  second : R.LeadsTo provided later kind
  converts : R.Converts kind
  ungranted : ∀ chain, chain < later ∨ chain = later → ¬ R.Grants required provided chain

variable {R : Registry K} {required provided : Role κ} {visited : List κ} {finding : Finding κ}

/-- A search from a fresh tracker that ends in a cycle error has found two chains that collide
in the kind of the error. -/
theorem Decides.collides {e : CycleError κ}
    (h : R.Decides required [] provided visited (.error (.error e))) :
    ∃ earlier later, R.Collides required provided earlier later e.kind := by
  cases h with
  | cycle repeats ungranted least =>
    obtain ⟨hl, hc, hv | ⟨earlier, he, hk⟩⟩ := repeats
    · cases hv
    · refine ⟨earlier, _, he, hk, hl, hc, ?_⟩
      rintro chain (hlt | rfl)
      · exact (least chain hlt).1
      · exact ungranted

/-- A search from a fresh tracker ends in a cycle error, or else in a fault, when two chains
collide. -/
theorem Decides.error_of_collides (h : R.Decides required [] provided visited finding)
    {earlier later : List Nat} {kind : κ}
    (hc : R.Collides required provided earlier later kind) :
    ∃ failure, finding = .error failure := by
  have hr : R.Repeats [] provided later kind :=
    ⟨hc.second, hc.converts, .inr ⟨earlier, hc.before, hc.first⟩⟩
  cases h with
  | denied passes => exact absurd hr ((passes.undecided later trivial).2 kind)
  | @granted chain path w rule leads first least =>
    have hg : R.Grants required provided chain := ⟨path, w, leads, rule, first.1⟩
    rcases lt_trichotomy chain later with hlt | heq | hgt
    · exact absurd hg (hc.ungranted chain (.inl hlt))
    · exact absurd hg (hc.ungranted chain (.inr heq))
    · exact absurd hr ((least later hgt).2 kind)
  | cycle repeats ungranted least => exact ⟨_, rfl⟩
  | fault => exact ⟨_, rfl⟩

end Registry

namespace Resolver

/-- With a fresh tracker a resolution over deterministic functions errs exactly when two chains
collide, and the error names a kind in which two chains do. Over a registry that was built free
of conversion cycles neither of two colliding chains is a beginning of the other. -/
theorem resolve_cycle_iff [DecidableEq κ] (hK : K.Lawful) {b : RegistryBuilder κ}
    {r : Resolver K} (hb : (b.build K).1 = .ok r.registry) (hdet : r.registry.Deterministic)
    (required provided : Role κ) :
    ((∃ e, (r.resolve required provided).1 = .error (.error e)) ↔
      ∃ earlier later kind, r.registry.Collides required provided earlier later kind) ∧
    (∀ e, (r.resolve required provided).1 = .error (.error e) →
      ∃ earlier later, r.registry.Collides required provided earlier later e.kind) ∧
    (b.config.rejectConversionCycles = true →
      ∀ earlier later kind, r.registry.Collides required provided earlier later kind →
        ¬ earlier <+: later ∧ ¬ later <+: earlier) := by
  have hR := Registry.complete_of_build hK hb
  have hn : ({} : CycleTracker κ).visited.Nodup := List.nodup_nil
  obtain ⟨examined, finding, s', he, hr, -, -⟩ :=
    resolveWith_explores hK hR required provided hn
  have hd := he.decides hR hdet
  have hnames : ∀ e, (r.resolve required provided).1 = .error (.error e) →
      ∃ earlier later, r.registry.Collides required provided earlier later e.kind := by
    intro e hresolve
    have hf := Finding.resolution_eq_error.mp (hr.symm.trans hresolve)
    rw [hf] at hd
    exact hd.collides
  refine ⟨⟨?_, ?_⟩, hnames, ?_⟩
  · rintro ⟨e, hresolve⟩
    obtain ⟨earlier, later, hc⟩ := hnames e hresolve
    exact ⟨earlier, later, e.kind, hc⟩
  · rintro ⟨earlier, later, kind, hc⟩
    obtain ⟨failure, hf⟩ := hd.error_of_collides hc
    cases failure with
    | error e =>
      refine ⟨e, hr.trans ?_⟩
      rw [Finding.resolution_eq_error]
      exact hf
    | fault fault => exact absurd hf ((he.work hK hR hn).1 fault)
  · intro hreject earlier later kind hc
    have hacyclic := Registry.acyclic_of_build hK hb hreject
    have hne : earlier ≠ later := ne_of_lt hc.before
    exact ⟨Registry.not_prefix_of_acyclic hacyclic hne hc.first hc.second,
      Registry.not_prefix_of_acyclic hacyclic hne.symm hc.second hc.first⟩

end Resolver

open Rank in
/-- On the ladder both conversions of an owner lead to the same rank, so the check whether an
owner is a member errs although the ladder is free of cycles. -/
theorem Rank.owner_collides :
    kinds.Lawful ∧ ((builder []).build kinds).1 = .ok (ladder []) ∧
      (ladder []).Deterministic ∧ (builder []).config.rejectConversionCycles = true ∧
      ((resolver []).resolve (.unit member) (.unit owner)).1 =
        .error (.error ⟨editor, [owner, editor, admin, editor]⟩) ∧
      ∃ earlier later, (ladder []).Collides (.unit member) (.unit owner) earlier later editor ∧
        ¬ earlier <+: later ∧ ¬ later <+: earlier := by
  have hdet : (ladder []).Deterministic := deterministic_ladder (by simp)
  have h : ((resolver []).resolve (.unit member) (.unit owner)).1 =
      .error (.error ⟨editor, [owner, editor, admin, editor]⟩) := rfl
  have hb : ((builder []).build kinds).1 = .ok (resolver []).registry := build_ladder
  obtain ⟨-, hnames, hprefix⟩ :=
    Resolver.resolve_cycle_iff lawful_kinds hb hdet (.unit member) (.unit owner)
  obtain ⟨earlier, later, hc⟩ := hnames _ h
  exact ⟨lawful_kinds, build_ladder, hdet, rfl, h, earlier, later, hc,
    hprefix rfl earlier later editor hc⟩

end RoleResolution
