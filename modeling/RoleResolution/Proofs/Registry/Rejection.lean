import RoleResolution.Proofs.Conversion.Walk
import RoleResolution.Proofs.Registry.Supply

/-!
# Rejected conversion cycles

A build that is to reject cycles of conversions differs from one that only reports them in one
case: when conversions lead from a kind back to it, it fails and names the kinds of such a cycle.
-/

namespace RoleResolution

variable {κ : Type} {K : KindSet κ} {definitions : List (RoleDefinition κ)}

/-- A supplied definition of a kind has a conversion rule into another kind. -/
def DeclaresConversion (definitions : List (RoleDefinition κ)) (source target : κ) : Prop :=
  ∃ d ∈ definitions, d.kind = source ∧ ∃ rule ∈ d.conversions, rule.targetKind = target

namespace Registry

/-- The conversion rules of an arrangement are those of the supplied definitions. -/
theorem convertsTo_of_arrange (hK : K.Lawful) (hn : (definitions.map (·.kind)).Nodup)
    {arranged : List (RoleDefinition κ)} (h : arrange K definitions = .ok arranged) :
    ConvertsTo (K := K) ⟨arranged⟩ = DeclaresConversion definitions := by
  funext source target
  apply propext
  obtain ⟨d, hd, hkind, hl⟩ := lookup_of_arrange hK h source
  constructor
  · rintro ⟨e, he, hrule⟩
    cases hl.symm.trans he
    exact ⟨d, hd, hkind, hrule⟩
  · rintro ⟨e, he, hk, hrule⟩
    cases List.inj_on_of_nodup_map hn he hd (hk.trans hkind.symm)
    exact ⟨d, hl, hrule⟩

variable [DecidableEq κ]

/-- The detection finds cycles exactly when conversion rules lead from a kind back to it, and all
that it finds are such cycles. -/
theorem detectCycles_iff (hK : K.Lawful) (R : Registry K)
    (hlength : R.definitions.length = K.count) {cycles : List (List κ)}
    (h : R.graph.detectCycles K = .ok cycles) :
    (cycles = [] ↔ ∀ kind, ¬ Relation.TransGen R.ConvertsTo kind kind) ∧
      ∀ cycle ∈ cycles, IsCycle R.ConvertsTo cycle := by
  have hg : R.graph.edges.length = K.count := (length_edges R.definitions).trans hlength
  rw [← edge_graph]
  exact ⟨ConversionGraph.detectCycles_eq_nil_iff hK hg h,
    ConversionGraph.detectCycles_sound hK hg h⟩

/-- A build that rejects cycles fails when one that reports them does, for the same reason. It
gives the same registry unless conversion rules lead from a kind back to it. In that case it fails
with the names along a path of such rules, which starts and ends with one kind and repeats no
other. -/
theorem build_reject (hK : K.Lawful) (definitions : List (RoleDefinition κ)) :
    (∀ failure, (Registry.build K ⟨false⟩ definitions).1 = .error failure →
      (Registry.build K ⟨true⟩ definitions).1 = .error failure) ∧
    ∀ R, (Registry.build K ⟨false⟩ definitions).1 = .ok R →
      ((∀ kind, ¬ Relation.TransGen (DeclaresConversion definitions) kind kind) →
        (Registry.build K ⟨true⟩ definitions).1 = .ok R) ∧
      ((∃ kind, Relation.TransGen (DeclaresConversion definitions) kind kind) →
        ∃ path, (Registry.build K ⟨true⟩ definitions).1 =
            .error (.error (.conversionCycle path)) ∧
          IsCycle (DeclaresConversion definitions) path ∧
          (BuildError.conversionCycle path).message K =
            "Registry error: Conversion cycle detected: " ++
              " -> ".intercalate (path.map K.name)) := by
  by_cases hn : (definitions.map (·.kind)).Nodup
  · rw [build_of_nodup hn, build_of_nodup hn]
    cases ha : arrange K definitions with
    | error failure =>
      rw [build_of_arrange_error ha, build_of_arrange_error ha]
      constructor
      · intro _ h
        exact h
      · intro R h
        cases h
    | ok arranged =>
      obtain ⟨cycles, hc, hb⟩ := build_of_arrange hK ha
      obtain ⟨hempty, hsound⟩ := detectCycles_iff hK ⟨arranged⟩ (arrange_places ha).1 hc
      rw [convertsTo_of_arrange hK hn ha] at hempty hsound
      rw [hb ⟨false⟩, hb ⟨true⟩]
      constructor
      · intro failure h
        cases h
      · intro R h
        cases h
        cases cycles with
        | nil =>
          refine ⟨fun _ ↦ rfl, ?_⟩
          rintro ⟨kind, hk⟩
          exact absurd hk (hempty.mp rfl kind)
        | cons path rest =>
          refine ⟨fun hacyclic ↦ ?_, fun _ ↦ ⟨path, rfl, hsound path List.mem_cons_self, rfl⟩⟩
          cases hempty.mpr hacyclic
  · obtain ⟨kind, hk⟩ := build_of_not_nodup (K := K) hn
    rw [hk, hk]
    constructor
    · intro _ h
      exact h
    · intro R h
      cases h

end Registry

namespace Rank

/-- With a way back from the foot of the ladder, members and guests are converted into each other.
The build that rejects cycles says so. -/
theorem loop_rejected :
    (Registry.build kinds ⟨false⟩ (builder [always member]).definitions).1 =
        .ok (ladder [always member]) ∧
      IsCycle (DeclaresConversion (builder [always member]).definitions) [guest, member, guest] ∧
      (BuildError.conversionCycle [guest, member, guest]).message kinds =
        "Registry error: Conversion cycle detected: Guest -> Member -> Guest" := by
  have hoff : (Registry.build kinds ⟨false⟩ (builder [always member]).definitions).1 =
      .ok (ladder [always member]) := rfl
  have hon : (Registry.build kinds ⟨true⟩ (builder [always member]).definitions).1 =
      .error (.error (.conversionCycle [guest, member, guest])) := rfl
  have hup : DeclaresConversion (builder [always member]).definitions guest member :=
    ⟨_, List.mem_cons_self, rfl, _, List.mem_cons_self, rfl⟩
  have hback : DeclaresConversion (builder [always member]).definitions member guest :=
    ⟨_, List.mem_cons_of_mem _ List.mem_cons_self, rfl, _, List.mem_cons_self, rfl⟩
  obtain ⟨path, hp, hcycle, htext⟩ :=
    ((Registry.build_reject lawful_kinds _).2 _ hoff).2 ⟨guest, .head hup (.single hback)⟩
  cases hon.symm.trans hp
  refine ⟨hoff, hcycle, htext.trans ?_⟩
  decide

end Rank
end RoleResolution
