import RoleResolution.Proofs.Outcome.Bound
import RoleResolution.Proofs.Search.Recording

/-!
# The invocations of a resolution

The invocations that a resolution makes are a transcript of its search: every predicate that is
due for an examined role is asked once, in order, until one answers true, and only when none did
and the kind of the role was entered, its conversions are invoked, with the whole search from one
result between two of them. Nothing is assumed of the caller's functions.
-/

namespace RoleResolution

variable {κ : Type} [DecidableEq κ] {K : KindSet κ}

namespace Resolver

/-- Over a registry that was built and from any tracker that there can be, the history of a
resolution is the transcript of a search that ends like the resolution, from the kinds visited
before to those visited after it. All recorded answers are those of the rules' functions after the
invocations before them, and a predicate that answers true is the last invocation and satisfies
the check. -/
theorem resolveWith_transcript (hK : K.Lawful) {b : RegistryBuilder κ} {r : Resolver K}
    (hb : (b.build K).1 = .ok r.registry) (required provided : Role κ) {t : CycleTracker κ}
    (ht : t.Reachable K) :
    ∃ d finding, r.registry.lookup required.kind = .ok d ∧ d.kind = required.kind ∧
      Transcript r.registry d required provided t.visited
        (r.resolveWith required provided t).2.history
        (r.resolveWith required provided t).2.tracker.visited finding ∧
      (r.resolveWith required provided t).1 = finding.resolution ∧
      r.registry.Genuine [] (r.resolveWith required provided t).2.history ∧
      ∀ before call after,
        (r.resolveWith required provided t).2.history = before ++ call :: after → call.Grants →
        after = [] ∧ ∃ resolution, (r.resolveWith required provided t).1 = .ok resolution ∧
          resolution.isSatisfied = true := by
  have hR := Registry.complete_of_build hK hb
  have hn := ht.nodup hK
  obtain ⟨d, hd, hk⟩ := hR required.kind
  obtain ⟨examined, finding, s', he, hr, htracker, hhistory⟩ :=
    resolveWith_explores hK hR required provided hn
  obtain ⟨calls, hc, hg, htranscript⟩ := he.transcript hK hR hd hk hn
  have hcalls : (r.resolveWith required provided t).2.history = calls := hhistory.trans hc
  rw [hcalls, htracker, hr]
  refine ⟨d, finding, hd, hk, htranscript, rfl, hg, ?_⟩
  intro before call after hsplit hgrants
  obtain ⟨ha, ⟨rule, path⟩, rfl⟩ := htranscript.last hsplit hgrants
  exact ⟨ha, .granted rule path, rfl, rfl⟩

end Resolver

namespace Rank

/-- Owners ask predicates about guests and about members. The third one counts the invocations
before it. Guests are converted into members, after a conversion that declines. -/
def asking : RegistryBuilder Rank where
  definitions := [
    { RoleDefinition.ofKind guest with conversions := [never admin, always member, always editor] },
    RoleDefinition.ofKind member,
    RoleDefinition.ofKind editor,
    RoleDefinition.ofKind admin,
    { RoleDefinition.ofKind owner with delegated := [
        ⟨member, [], fun _ _ _ ↦ false⟩,
        ⟨guest, [], fun _ _ _ ↦ false⟩,
        ⟨member, [], fun history _ _ ↦ history.length == 4⟩,
        ⟨guest, [⟨"team", "team"⟩], fun _ _ _ ↦ true⟩,
        ⟨member, [], fun _ _ _ ↦ true⟩] }]

/-- A guest is converted into a member before owners accept it. The predicate behind the guard, the
last predicate and the last conversion are left out. -/
theorem asking_transcript :
    ∃ (r : Resolver kinds) (d : RoleDefinition Rank) (finding : Finding Rank),
      (asking.build kinds).1 = .ok r.registry ∧ CycleTracker.Reachable kinds {} ∧
      (r.resolveWith (.unit owner) (.unit guest) {}).2.history = [
        .predicate owner 1 .unit .unit false,
        .conversion guest 0 .unit none,
        .conversion guest 1 .unit (some .unit),
        .predicate owner 0 .unit .unit false,
        .predicate owner 2 .unit .unit true] ∧
      Transcript r.registry d (.unit owner) (.unit guest) []
        (r.resolveWith (.unit owner) (.unit guest) {}).2.history
        (r.resolveWith (.unit owner) (.unit guest) {}).2.tracker.visited finding ∧
      (r.resolveWith (.unit owner) (.unit guest) {}).1 = finding.resolution := by
  have hb : (asking.build kinds).1 = .ok ⟨asking.definitions⟩ := rfl
  obtain ⟨d, finding, -, -, htranscript, hr, -⟩ :=
    Resolver.resolveWith_transcript (r := ⟨⟨asking.definitions⟩, {}⟩) lawful_kinds hb (.unit owner)
      (.unit guest) .fresh
  exact ⟨⟨⟨asking.definitions⟩, {}⟩, d, finding, hb, .fresh, rfl, htranscript, hr⟩

end Rank
end RoleResolution
