import RoleResolution.Proofs.Outcome.Bound
import RoleResolution.Proofs.Search.Decision

/-!
# Shared trackers

Kinds that a tracker brings along can only end a search in a cycle. The chain that decides a search
with fewer kinds visited decides it with more of them, too, unless an earlier chain now repeats a
kind. So the answer of a resolution never depends on the tracker; only whether there is one does.
-/

namespace RoleResolution

variable {κ : Type} [DecidableEq κ] {K : KindSet κ}

namespace Registry

variable {R : Registry K} {required provided : Role κ} {visited visited' : List κ}

omit [DecidableEq κ] in
/-- A chain that repeats a kind repeats it with more kinds visited. -/
theorem Repeats.mono (hsub : visited ⊆ visited') {chain : List Nat} {kind : κ}
    (h : R.Repeats visited provided chain kind) : R.Repeats visited' provided chain kind :=
  ⟨h.1, h.2.1, h.2.2.imp_left fun hv ↦ hsub hv⟩

/-- A chain that decides nothing decides nothing with fewer kinds visited. -/
theorem Undecided.anti (hsub : visited ⊆ visited') {chain : List Nat}
    (h : R.Undecided required visited' provided chain) :
    R.Undecided required visited provided chain :=
  ⟨h.1, fun kind hr ↦ h.2 kind (hr.mono hsub)⟩

/-- What a search finds or denies with more kinds visited, it finds or denies with fewer. -/
theorem Decides.ok_of_subset (hsub : visited ⊆ visited') {left left' : List κ}
    {found : Option (MatchedRule × List κ)} {finding : Finding κ}
    (h' : R.Decides required visited' provided left' (.ok found))
    (h : R.Decides required visited provided left finding) :
    finding = .ok found ∨ ∃ fault, finding = .error (.fault fault) := by
  cases h' with
  | denied passes =>
    have hnone := fun chain ↦ (passes.undecided chain trivial).anti hsub
    cases h with
    | denied => exact .inl rfl
    | granted leads first least => exact absurd ⟨_, _, leads, _, first.1⟩ (hnone _).1
    | cycle repeats ungranted least => exact absurd repeats ((hnone _).2 _)
    | fault => exact .inr ⟨_, rfl⟩
  | @granted chain' path' w' rule' leads' first' least' =>
    have hgrants : R.Grants required provided chain' := ⟨path', w', leads', rule', first'.1⟩
    cases h with
    | denied passes => exact absurd hgrants (passes.undecided chain' trivial).1
    | @granted chain path w rule leads first least =>
      have hg : R.Grants required provided chain := ⟨path, w, leads, rule, first.1⟩
      rcases lt_trichotomy chain chain' with hlt | rfl | hgt
      · exact absurd hg (least' chain hlt).1
      · obtain ⟨rfl, rfl⟩ := leads.unique leads'
        exact .inl (by rw [first.unique first'])
      · exact absurd hgrants (least chain' hgt).1
    | @cycle chain e repeats ungranted least =>
      rcases lt_trichotomy chain chain' with hlt | rfl | hgt
      · exact absurd repeats (((least' chain hlt).anti hsub).2 e.kind)
      · exact absurd hgrants ungranted
      · exact absurd hgrants (least chain' hgt).1
    | fault => exact .inr ⟨_, rfl⟩

end Registry

namespace Resolver

/-- A resolution over deterministic functions from a tracker without repetitions is decided by the
first chain that decides it. -/
theorem exists_decides (hK : K.Lawful) {r : Resolver K} (hR : r.registry.Complete)
    (hdet : r.registry.Deterministic) (required provided : Role κ) {t : CycleTracker κ}
    (hn : t.visited.Nodup) :
    ∃ visited finding, r.registry.Decides required t.visited provided visited finding ∧
      (r.resolveWith required provided t).1 = finding.resolution ∧
      ∀ fault, finding ≠ .error (.fault fault) := by
  obtain ⟨examined, finding, s', he, hr, -, -⟩ :=
    resolveWith_explores hK hR required provided hn
  exact ⟨_, finding, he.decides hR hdet, hr, (he.work hK hR hn).1⟩

/-- With fewer kinds visited a resolution gives the answer that it gives with more. -/
theorem resolveWith_ok_of_subset (hK : K.Lawful) {r : Resolver K} (hR : r.registry.Complete)
    (hdet : r.registry.Deterministic) {required provided : Role κ} {t t' : CycleTracker κ}
    (hn : t.visited.Nodup) (hn' : t'.visited.Nodup) (hsub : t.visited ⊆ t'.visited)
    {resolution : Resolution κ} (h : (r.resolveWith required provided t').1 = .ok resolution) :
    (r.resolveWith required provided t).1 = .ok resolution := by
  obtain ⟨left, finding, hd, hr, hf⟩ := exists_decides hK hR hdet required provided hn
  obtain ⟨left', finding', hd', hr', -⟩ := exists_decides hK hR hdet required provided hn'
  rw [hr'] at h
  cases finding' with
  | error failure => cases h
  | ok found =>
    rcases hd'.ok_of_subset hsub hd with rfl | ⟨fault, hfault⟩
    · rw [hr, h]
    · exact absurd hfault (hf fault)

/-- Take two trackers that there can be, the second of which has visited all that the first has. A
resolution that answers with the second gives the same rule and path with the first, and also with
a fresh tracker. One that runs into a cycle with the first does so with the second. -/
theorem resolveWith_shared (hK : K.Lawful) {b : RegistryBuilder κ} {r : Resolver K}
    (hb : (b.build K).1 = .ok r.registry) (hdet : r.registry.Deterministic)
    (required provided : Role κ) {t t' : CycleTracker κ} (ht : t.Reachable K)
    (ht' : t'.Reachable K) (hsub : t.visited ⊆ t'.visited) :
    (∀ resolution, (r.resolveWith required provided t').1 = .ok resolution →
      (r.resolveWith required provided t).1 = .ok resolution) ∧
    (∀ e, (r.resolveWith required provided t).1 = .error (.error e) →
      ∃ e', (r.resolveWith required provided t').1 = .error (.error e')) ∧
    ∀ resolution, (r.resolveWith required provided t').1 = .ok resolution →
      (r.resolve required provided).1 = .ok resolution := by
  have hR := Registry.complete_of_build hK hb
  have hn := ht.nodup hK
  have hn' := ht'.nodup hK
  refine ⟨fun resolution h ↦ resolveWith_ok_of_subset hK hR hdet hn hn' hsub h, ?_,
    fun resolution h ↦ resolveWith_ok_of_subset hK hR hdet List.nodup_nil hn' (by simp) h⟩
  intro e he
  obtain ⟨left', finding', -, hr', hf'⟩ := exists_decides hK hR hdet required provided hn'
  cases hres : (r.resolveWith required provided t').1 with
  | ok resolution =>
    rw [resolveWith_ok_of_subset hK hR hdet hn hn' hsub hres] at he
    cases he
  | error failure =>
    cases failure with
    | error e' => exact ⟨e', rfl⟩
    | fault fault =>
      rw [hr', Finding.resolution_eq_error] at hres
      exact absurd hres (hf' fault)

end Resolver

open Rank in
/-- On the ladder a member is granted as an admin, whichever higher ranks the tracker brings along.
The check whether a member is an owner errs once admins are visited, and errs no less when owners
are visited as well. -/
theorem Rank.shared_trackers :
    kinds.Lawful ∧ ((builder []).build kinds).1 = .ok (ladder []) ∧
      (ladder []).Deterministic ∧ CycleTracker.Reachable kinds ⟨[admin]⟩ ∧
      CycleTracker.Reachable kinds ⟨[admin, owner]⟩ ∧
      ((resolver []).resolveWith (.unit admin) (.unit member) ⟨[admin, owner]⟩).1 =
        .ok (.granted .identity [editor, admin]) ∧
      ((resolver []).resolveWith (.unit admin) (.unit member) ⟨[admin]⟩).1 =
        .ok (.granted .identity [editor, admin]) ∧
      ((resolver []).resolve (.unit admin) (.unit member)).1 =
        .ok (.granted .identity [editor, admin]) ∧
      ((resolver []).resolveWith (.unit owner) (.unit member) ⟨[admin]⟩).1 =
        .error (.error ⟨admin, [admin, member, editor, admin]⟩) ∧
      ∃ e, ((resolver []).resolveWith (.unit owner) (.unit member) ⟨[admin, owner]⟩).1 =
        .error (.error e) := by
  have hdet : (ladder []).Deterministic := deterministic_ladder (by simp)
  have hb : ((builder []).build kinds).1 = .ok (resolver []).registry := build_ladder
  have ht : CycleTracker.Reachable kinds ⟨[admin]⟩ := .enter admin .fresh
  have ht' : CycleTracker.Reachable kinds ⟨[admin, owner]⟩ := .enter owner ht
  have hsub : [admin] ⊆ [admin, owner] := by decide
  have hgranted : ((resolver []).resolveWith (.unit admin) (.unit member) ⟨[admin, owner]⟩).1 =
      .ok (.granted .identity [editor, admin]) := rfl
  have hcycle : ((resolver []).resolveWith (.unit owner) (.unit member) ⟨[admin]⟩).1 =
      .error (.error ⟨admin, [admin, member, editor, admin]⟩) := rfl
  obtain ⟨hless, -, hfresh⟩ :=
    Resolver.resolveWith_shared lawful_kinds hb hdet (.unit admin) (.unit member) ht ht' hsub
  obtain ⟨-, herr, -⟩ :=
    Resolver.resolveWith_shared lawful_kinds hb hdet (.unit owner) (.unit member) ht ht' hsub
  exact ⟨lawful_kinds, build_ladder, hdet, ht, ht', hgranted, hless _ hgranted, hfresh _ hgranted,
    hcycle, herr _ hcycle⟩

end RoleResolution
